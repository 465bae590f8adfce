import Sreality.Autodedup.RtLease
import Sreality.Foundation.Runs

/-! The lease over every order of its calls: it passes on only once it has run out or was ended,
and what commits behind `hold` commits before that. -/

set_option autoImplicit false

namespace Sreality.Autodedup.RtLease

open Sreality.Foundation

/-- The row a release ended. -/
def Event.ended? : Event → Option Lease
  | .released _ _ ended | .predecessorReleased _ _ _ _ ended => ended
  | .taken _ | .committed _ => none

/-- The row an event of the lease leaves. -/
def Event.lease? : Event → Option Lease
  | .taken lease => some lease
  | event => event.ended?

/-- The lease's last event. -/
def lastLease (history : List Event) : Option Event :=
  history.reverse.find? fun event => event.lease?.isSome

def rowOf (history : List Event) : Option Lease := (lastLease history).bind Event.lease?

theorem lastLease_concat (history : List Event) (event : Event) :
    lastLease (history ++ [event]) =
      if event.lease?.isSome then some event else lastLease history := by
  unfold lastLease
  rw [List.reverse_concat, List.find?_cons]
  cases event.lease?.isSome <;> rfl

/-- A release ends the row when it is the one it names, and then only till its own start. -/
def Ends (earlier : List Event) (now : ℚ) (names : Lease → Prop) (ended : Option Lease) : Prop :=
  ∀ lease, ended = some lease ↔
    ∃ prior, rowOf earlier = some prior ∧ names prior ∧ lease = { prior with expiresAt := now }

/-- What each event owes to those before it: a lease is taken over once it has run out, ended by
the release that names its holder or the process before it, and a commit is by the holder of a
lease not ended since it was taken. -/
def Follows (earlier : List Event) : Event → Prop
  | .taken lease => ∀ prior ∈ rowOf earlier, prior.expiresAt < lease.takenAt
  | .released now holder ended => Ends earlier now (fun prior => prior.holder = holder) ended
  | .predecessorReleased now hostname pid booted ended =>
      Ends earlier now (fun prior =>
        now < prior.expiresAt ∧ predecessor prior.holder hostname pid booted = true) ended
  | .committed holder => ∃ lease, lastLease earlier = some (.taken lease) ∧ lease.holder = holder

namespace World

variable {world next : World}

structure Initial (world : World) : Prop where
  row : world.row = none
  holding : world.holding = none
  history : world.history = []

structure Sound (world : World) : Prop where
  row : rowOf world.history = world.row
  spent : ∀ event ∈ lastLease world.history, ∀ lease ∈ event.ended?, lease.expiresAt ≤ world.time
  holding : ∀ holder ∈ world.holding, ∃ lease,
    lastLease world.history = some (.taken lease) ∧ lease.holder = holder
  ordered : EachFits Follows world.history

theorem Initial.sound (initial : world.Initial) : world.Sound := by
  refine ⟨?_, ?_, ?_, ?_⟩
  · rw [initial.history, initial.row]
    rfl
  · rw [initial.history]
    exact fun _ ended => by cases ended
  · rw [initial.holding]
    exact fun _ held => by cases held
  · rw [initial.history]
    exact .nil

namespace Sound

variable (sound : world.Sound)

include sound

theorem take {now : ℚ} {holder : String} {ttl : Nat}
    (taken : world.take now holder ttl = some next) : next.Sound := by
  obtain ⟨⟨_, free⟩, taken⟩ := Option.ite_none_right_eq_some.mp taken
  split_ifs at taken with past
  · cases taken
    refine ⟨?_, ?_, ?_, sound.ordered.concat ?_⟩
    · unfold rowOf
      rw [lastLease_concat]
      rfl
    · rw [lastLease_concat]
      intro _ last _ ended
      cases last
      cases ended
    · rw [free]
      exact fun _ held => by cases held
    · intro prior before
      rw [sound.row] at before
      rw [Option.mem_def.mp before] at past
      exact of_decide_eq_true past
  · cases taken
    exact sound

theorem ends {now : ℚ} {meant : Lease → Bool} (names : Lease → Prop)
    (event : Option Lease → Event) (named : ∀ lease, meant lease = true ↔ names lease)
    (leaves : ∀ ended, (event ended).lease? = ended)
    (ends : ∀ ended, (event ended).ended? = ended)
    (fits : ∀ earlier ended, Ends earlier now names ended → Follows earlier (event ended))
    (taken : world.ends now meant event = some next) : next.Sound := by
  obtain ⟨⟨past, free⟩, taken⟩ := Option.ite_none_right_eq_some.mp taken
  cases found : world.row.filter meant with
  | none =>
      rw [found] at taken
      cases taken
      have same : lastLease (world.history ++ [event none]) = lastLease world.history := by
        rw [lastLease_concat, leaves]
        rfl
      refine ⟨?_, ?_, ?_, sound.ordered.concat (fits _ _ fun lease => ⟨fun none_ => ?_, ?_⟩)⟩
      · unfold rowOf
        rw [same]
        exact sound.row
      · rw [same]
        exact sound.spent
      · rw [same]
        exact sound.holding
      · cases none_
      · rintro ⟨prior, before, meets, _⟩
        have kept := Option.filter_eq_none_iff.mp found prior (sound.row.symm.trans before)
        exact absurd ((named prior).mpr meets) kept
  | some prior =>
      rw [found] at taken
      cases taken
      obtain ⟨row, meets⟩ := Option.filter_eq_some_iff.mp found
      have last : lastLease (world.history ++ [event (some { prior with expiresAt := now })]) =
          some (event (some { prior with expiresAt := now })) := by
        rw [lastLease_concat, leaves]
        rfl
      refine ⟨?_, ?_, ?_, sound.ordered.concat (fits _ _ fun lease => ⟨fun same => ?_, ?_⟩)⟩
      · unfold rowOf
        rw [last]
        exact leaves _
      · rw [last]
        intro _ same lease spent
        cases same
        rw [ends] at spent
        cases spent
        exact past
      · rw [free]
        exact fun _ held => by cases held
      · exact ⟨prior, sound.row.trans row, (named prior).mp meets, (Option.some.inj same).symm⟩
      · rintro ⟨other, before, _, rfl⟩
        cases (sound.row.trans row).symm.trans before
        rfl

theorem release {now : ℚ} {holder : String} (taken : world.release now holder = some next) :
    next.Sound :=
  sound.ends (fun lease => lease.holder = holder) (.released now holder)
    (fun _ => decide_eq_true_iff) (fun _ => rfl) (fun _ => rfl) (fun _ _ fits => fits) taken

theorem releasePredecessor {now : ℚ} {hostname pid : String} {booted : Nat}
    (taken : world.releasePredecessor now hostname pid booted = some next) : next.Sound := by
  refine sound.ends
    (fun lease => now < lease.expiresAt ∧ predecessor lease.holder hostname pid booted = true)
    (.predecessorReleased now hostname pid booted) (fun lease => ?_) (fun _ => rfl) (fun _ => rfl)
    (fun _ _ fits => fits) taken
  rw [Bool.and_eq_true, decide_eq_true_iff]

theorem hold {holder : String} (taken : world.hold holder = some next) : next.Sound := by
  obtain ⟨_, taken⟩ := Option.ite_none_right_eq_some.mp taken
  split_ifs at taken with live
  · cases taken
    refine ⟨sound.row, sound.spent, fun held same => ?_, sound.ordered⟩
    cases same
    obtain ⟨lease, row, live⟩ := (Option.any_eq_true _ _).mp live
    obtain ⟨named, late⟩ := Bool.and_eq_true_iff.mp live
    obtain ⟨event, last, leaves⟩ := Option.bind_eq_some_iff.mp (sound.row.trans row)
    -- An ended row has run out, so `hold` finds none.
    have unended : event.ended? ≠ some lease := fun ended =>
      absurd (of_decide_eq_true late) (not_lt.mpr (sound.spent _ last _ ended))
    cases event with
    | taken own =>
        cases leaves
        exact ⟨_, last, of_decide_eq_true named⟩
    | released now holder ended => exact absurd leaves unended
    | predecessorReleased now hostname pid booted ended => exact absurd leaves unended
    | committed own => cases leaves
  · cases taken
    exact sound

theorem step {action : Action} (taken : world.step action = some next) : next.Sound := by
  cases action with
  | wait till =>
      obtain ⟨past, taken⟩ := Option.ite_none_right_eq_some.mp taken
      cases taken
      exact ⟨sound.row, fun event last lease ended =>
        (sound.spent event last lease ended).trans past, sound.holding, sound.ordered⟩
  | take now holder ttl => exact sound.take taken
  | release now holder => exact sound.release taken
  | releasePredecessor now hostname pid booted => exact sound.releasePredecessor taken
  | hold holder => exact sound.hold taken
  | commit =>
      obtain ⟨holder, held, rfl⟩ := Option.map_eq_some_iff.mp taken
      have same : lastLease (world.history ++ [.committed holder]) = lastLease world.history :=
        lastLease_concat _ _
      refine ⟨?_, ?_, fun _ none_ => (by cases none_), sound.ordered.concat (sound.holding _ held)⟩
      · unfold rowOf
        rw [same]
        exact sound.row
      · rw [same]
        exact sound.spent
  | rollback =>
      obtain ⟨holder, _, rfl⟩ := Option.map_eq_some_iff.mp taken
      exact ⟨sound.row, sound.spent, fun _ none_ => (by cases none_), sound.ordered⟩

end Sound

/-- Over every order of the calls of any number of processes, a lease is taken over only once it
has run out, a release ends the row it names and no other, and a transaction that held the lease
commits before it is taken over or ended. -/
theorem commits_while_leased (start world : World) (initial : start.Initial)
    (run : Reaches World.step (fun _ _ => True) start world) :
    rowOf world.history = world.row ∧ EachFits Follows world.history := by
  have sound := run.invariant Sound initial.sound fun _ _ _ sound _ taken => sound.step taken
  exact ⟨sound.row, sound.ordered⟩

/-! ### One run -/

def unleased : World where
  time := 0
  row := none
  holding := none
  history := []

theorem unleased_initial : unleased.Initial := ⟨rfl, rfl, rfl⟩

/-- A pass is at work past its lease while the next takes it: only the next commits, and its lease
outlives the first pass's release till its own worker, restarted, ends it. -/
def overtaken : List Action :=
  [.take 0 "host:1:0" 60, .hold "host:1:0", .commit, .wait 61, .take 61 "host:1:61" 60,
    .hold "host:1:0", .release 61 "host:1:0", .hold "host:1:61", .commit, .wait 70,
    .releasePredecessor 70 "host" "1" 61, .releasePredecessor 70 "host" "1" 65,
    .hold "host:1:61"]

def overtakenHistory : List Event :=
  [.taken { holder := "host:1:0", takenAt := 0, expiresAt := 60 }, .committed "host:1:0",
    .taken { holder := "host:1:61", takenAt := 61, expiresAt := 121 },
    .released 61 "host:1:0" none, .committed "host:1:61",
    .predecessorReleased 70 "host" "1" 61 none,
    .predecessorReleased 70 "host" "1" 65
      (some { holder := "host:1:61", takenAt := 61, expiresAt := 70 })]

theorem commits_while_leased_at_overtaken :
    ∃ final, replay World.step unleased overtaken = some final ∧
      final.history = overtakenHistory ∧ final.holding = none ∧
      rowOf final.history = final.row ∧ EachFits Follows final.history := by
  obtain ⟨final, replayed⟩ : ∃ final, replay World.step unleased overtaken = some final :=
    Option.isSome_iff_exists.mp (by decide +kernel)
  have ends : (replay World.step unleased overtaken).map (fun final =>
      (final.history, final.holding)) = some (overtakenHistory, none) := by
    decide +kernel
  rw [replayed] at ends
  obtain ⟨history, holding⟩ := Prod.mk.inj (Option.some.inj ends)
  exact ⟨final, replayed, history, holding,
    commits_while_leased unleased final unleased_initial
      (reaches_of_replay replayed (allowedAll_true _ _ _))⟩

end World

end Sreality.Autodedup.RtLease
