import Mathlib.Order.Lattice
import Sreality.LocationData.FullSweep

/-! A corpus sweep that returned has each listing up to its bound stamped with its pair or
queued, unless a stale listing turned active or appeared behind the active walk. -/

set_option autoImplicit false

namespace Sreality.LocationData.FullSweep

open Sreality.Foundation

variable {pair : Pair} {world : World}

theorem le_upperBound {listings : List Listing} {listing : Listing} (listed : listing ∈ listings) :
    listing.id ≤ upperBound listings := by
  induction listings with
  | nil => cases listed
  | cons first rest ih =>
      simp only [upperBound, List.map_cons, List.foldr_cons]
      cases List.mem_cons.mp listed with
      | inl same =>
          rw [same]
          exact le_max_left _ _
      | inr later => exact le_trans (ih later) (le_max_right _ _)

/-! ### What a listing keeps -/

theorem World.Settled.enqueue {id : Nat} (settled : world.Settled pair id) (ids : List Nat) :
    (world.enqueue ids).Settled pair id := by
  cases settled with
  | inl stamped => exact .inl stamped
  | inr queued => exact .inr (List.mem_append_left _ queued)

theorem World.settled_enqueue {ids : List Nat} {id : Nat} (listed : id ∈ ids) :
    (world.enqueue ids).Settled pair id := by
  right
  by_cases queued : id ∈ world.dirty
  · exact List.mem_append_left _ queued
  · apply List.mem_append_right
    exact List.mem_filter.mpr ⟨List.mem_eraseDups.mpr listed, decide_eq_true queued⟩

theorem World.Settled.drain {id : Nat} (settled : world.Settled pair id)
    {resolved finished : List Nat} (answered : ∀ id ∈ finished, id ∈ resolved) :
    (world.drain pair resolved finished).Settled pair id := by
  by_cases stamped : id ∈ resolved
  · left
    simp only [World.drain, stamped, if_true]
  · cases settled with
    | inl known =>
        left
        simp only [World.drain, stamped, if_false]
        exact known
    | inr queued =>
        right
        have kept : id ∉ finished := fun done => stamped (answered id done)
        exact List.mem_filter.mpr ⟨queued, decide_eq_true kept⟩

/-- A listing of the walk's flag in the window is read, or settled when the window reads. -/
theorem mem_stale {active : Bool} {after hi : Nat} {listing : Listing}
    (listed : listing ∈ world.listings) (flag : listing.isActive = active)
    (above : after < listing.id) (within : listing.id ≤ hi) :
    world.Settled pair listing.id ∨ listing.id ∈ world.stale pair active after hi := by
  by_cases settled : world.Settled pair listing.id
  · exact .inl settled
  · right
    apply List.mem_map.mpr
    refine ⟨listing, List.mem_filter.mpr ⟨listed, ?_⟩, rfl⟩
    have unstamped : (world.answers listing.id).all
        (fun stamp => decide (stamp.resolverVersion ≠ pair.resolverVersion) ||
          decide (stamp.registryVersion ≠ pair.registryVersion)) = true := by
      cases known : world.answers listing.id with
      | none => rfl
      | some stamp =>
          simp only [Option.all_some, Bool.or_eq_true, decide_eq_true_iff]
          by_contra equal
          push Not at equal
          apply settled
          left
          rw [known]
          cases stamp
          cases pair
          simp only [Option.some.injEq, Pair.mk.injEq]
          exact equal
    have unqueued : listing.id ∉ world.dirty := fun queued => settled (.inr queued)
    simp only [unstamped, Bool.true_and, Bool.and_eq_true, decide_eq_true_iff]
    exact ⟨⟨⟨flag, above⟩, within⟩, unqueued⟩

/-! ### What a walk still reads -/

theorem due_inactive {walk : Bool} {passed id : Nat} {active : Bool}
    (reads : due walk passed id active) : due walk passed id false := by
  cases walk with
  | true => exact .inl rfl
  | false => exact ⟨rfl, reads.2⟩

theorem due_past {walk : Bool} {after hi id : Nat} {active : Bool}
    (reads : due walk after id active)
    (outside : ¬ (active = walk ∧ after < id ∧ id ≤ hi)) : due walk hi id active := by
  cases walk with
  | false => exact ⟨reads.1, not_le.mp fun within => outside ⟨reads.1, reads.2, within⟩⟩
  | true =>
      cases active with
      | false => exact .inl rfl
      | true =>
          have ahead := reads.resolve_left (by decide)
          exact .inr (not_le.mp fun within => outside ⟨rfl, ahead, within⟩)

theorem due_before {sweep : Sweep} {walk : Bool} {after id : Nat} {active : Bool}
    (within : id ≤ sweep.upper) (reads : due walk (sweep.hi after) id active) :
    due walk after id active := by
  have before : sweep.hi after < id → after < id := by
    simp only [Sweep.hi]
    omega
  cases walk with
  | false => exact ⟨reads.1, before reads.2⟩
  | true => exact reads.imp_right before

theorem Sweep.ahead_inactive {sweep : Sweep} {id : Nat} {active : Bool}
    (reads : sweep.ahead id active) : sweep.ahead id false := by
  simp only [Sweep.ahead] at reads ⊢
  split at reads
  · exact due_inactive reads
  · exact reads.imp_right due_inactive
  · exact reads

/-! ### The invariant -/

structure Sound (pair : Pair) (world : World) : Prop where
  /-- What the open sweep has come past is settled. -/
  covered : ∀ sweep, world.sweep = some sweep → ∀ listing ∈ world.listings,
    listing.id ≤ sweep.upper →
      world.Settled pair listing.id ∨ sweep.ahead listing.id listing.isActive
  /-- Answers of an older pair belong to listings, and under a sweep to listings up to its bound. -/
  known : ∀ id stamp, world.answers id = some stamp → stamp ≠ pair →
    id ∈ world.listings.map Listing.id ∧
      ∀ sweep, world.sweep = some sweep → id ≤ sweep.upper
  /-- Behind a recorded pair an older answer is queued. -/
  recorded : world.sweptPair = some pair → ∀ id stamp, world.answers id = some stamp →
    stamp ≠ pair → id ∈ world.dirty

namespace Sound

variable {sweep : Sweep}

/-- The sweep goes on with nothing more behind it. -/
theorem onward (sound : Sound pair world) (opened : world.sweep = some sweep) {later : Sweep}
    (bound : later.upper = sweep.upper)
    (ahead : ∀ listing ∈ world.listings, listing.id ≤ sweep.upper →
      sweep.ahead listing.id listing.isActive →
        world.Settled pair listing.id ∨ later.ahead listing.id listing.isActive) :
    Sound pair { world with sweep := some later } where
  covered := by
    intro open_ same listing listed within
    cases same
    rw [bound] at within
    cases sound.covered sweep opened listing listed within with
    | inl settled => exact .inl settled
    | inr due => exact ahead listing listed within due
  known := by
    intro id stamp stamped old
    obtain ⟨listed, within⟩ := sound.known id stamp stamped old
    refine ⟨listed, ?_⟩
    intro open_ same
    cases same
    rw [bound]
    exact within sweep opened
  recorded := sound.recorded

theorem closed (sound : Sound pair world) {sweptPair : Option Pair}
    (unchanged : sweptPair = some pair → world.sweptPair = some pair) :
    Sound pair { world with sweptPair := sweptPair, sweep := none } where
  covered := fun _ opened => by cases opened
  known := fun id stamp stamped old =>
    ⟨(sound.known id stamp stamped old).1, fun _ opened => by cases opened⟩
  recorded := fun swept => sound.recorded (unchanged swept)

theorem reconcile (sound : Sound pair world) (window : Nat) :
    Sound pair { world with sweep := some (Sweep.start window (upperBound world.listings)) } where
  covered := by
    intro open_ same listing listed within
    cases same
    right
    exact .inr listing.drawn
  known := by
    intro id stamp stamped old
    obtain ⟨listed, _⟩ := sound.known id stamp stamped old
    refine ⟨listed, ?_⟩
    intro open_ same
    cases same
    obtain ⟨listing, held, rfl⟩ := List.mem_map.mp listed
    exact le_upperBound held
  recorded := sound.recorded

theorem record (sound : Sound pair world) (opened : world.sweep = some sweep)
    (returned : sweep.phase = .returned) :
    Sound pair { world with sweptPair := some pair, sweep := none } where
  covered := fun _ opened => by cases opened
  known := fun id stamp stamped old =>
    ⟨(sound.known id stamp stamped old).1, fun _ opened => by cases opened⟩
  recorded := by
    intro _ id stamp stamped old
    obtain ⟨listed, within⟩ := sound.known id stamp stamped old
    obtain ⟨listing, held, rfl⟩ := List.mem_map.mp listed
    cases sound.covered sweep opened listing held (within sweep opened) with
    | inr due =>
        simp only [Sweep.ahead, returned] at due
    | inl settled =>
        cases settled with
        | inl current =>
            rw [stamped] at current
            exact absurd (Option.some.inj current) old
        | inr queued => exact queued

theorem enqueue (sound : Sound pair world) (ids : List Nat) : Sound pair (world.enqueue ids) where
  covered := by
    intro sweep opened listing listed within
    cases sound.covered sweep opened listing listed within with
    | inl settled => exact .inl (settled.enqueue ids)
    | inr due => exact .inr due
  known := sound.known
  recorded := fun swept id stamp stamped old =>
    List.mem_append_left _ (sound.recorded swept id stamp stamped old)

theorem drain (sound : Sound pair world) {resolved finished : List Nat}
    (answered : ∀ id ∈ finished, id ∈ resolved) :
    Sound pair (world.drain pair resolved finished) := by
  have older : ∀ id stamp, (world.drain pair resolved finished).answers id = some stamp →
      stamp ≠ pair → id ∉ resolved ∧ world.answers id = some stamp := by
    intro id stamp stamped old
    simp only [World.drain] at stamped
    split_ifs at stamped with fresh
    · exact absurd (Option.some.inj stamped).symm old
    · exact ⟨fresh, stamped⟩
  refine ⟨?_, ?_, ?_⟩
  · intro sweep opened listing listed within
    cases sound.covered sweep opened listing listed within with
    | inl settled => exact .inl (settled.drain answered)
    | inr due => exact .inr due
  · intro id stamp stamped old
    exact sound.known id stamp (older id stamp stamped old).2 old
  · intro swept id stamp stamped old
    obtain ⟨unresolved, before⟩ := older id stamp stamped old
    have kept : id ∉ finished := fun done => unresolved (answered id done)
    exact List.mem_filter.mpr ⟨sound.recorded swept id stamp before old, decide_eq_true kept⟩

theorem switch (sound : Sound pair world) {id : Nat} {active : Bool}
    (notBehind : NotBehind pair world (.switch id active)) :
    Sound pair (world.switch id active) := by
  have ids : (world.switch id active).listings.map Listing.id = world.listings.map Listing.id := by
    simp only [World.switch, List.map_map]
    apply List.map_congr_left
    intro listing _
    by_cases own : listing.id = id <;> simp [own]
  refine ⟨?_, ?_, sound.recorded⟩
  · intro sweep opened listing listed within
    obtain ⟨old, held, rfl⟩ := List.mem_map.mp listed
    by_cases own : old.id = id
    · simp only [own, if_true] at within ⊢
      cases active with
      | true => exact notBehind sweep opened within
      | false =>
          -- What turns inactive is settled or still before the inactive walk.
          have covered := sound.covered sweep opened old held (own ▸ within)
          rw [own] at covered
          cases covered with
          | inl settled => exact .inl settled
          | inr due => exact .inr (Sweep.ahead_inactive due)
    · simp only [own, if_false] at within ⊢
      exact sound.covered sweep opened old held within
  · intro other stamp stamped old
    rw [ids]
    exact sound.known other stamp stamped old

theorem born (sound : Sound pair world) {listing : Listing}
    (notBehind : NotBehind pair world (.born listing.id listing.isActive)) :
    Sound pair { world with listings := world.listings ++ [listing] } where
  covered := by
    intro sweep opened other listed within
    cases List.mem_append.mp listed with
    | inl old => exact sound.covered sweep opened other old within
    | inr new =>
        cases List.mem_singleton.mp new
        exact notBehind sweep opened within
  known := by
    intro id stamp stamped old
    obtain ⟨listed, within⟩ := sound.known id stamp stamped old
    refine ⟨?_, within⟩
    rw [List.map_append]
    exact List.mem_append_left _ listed
  recorded := sound.recorded

theorem readWindow (sound : Sound pair world) (opened : world.sweep = some sweep) {active : Bool}
    {after : Nat} (phase : sweep.phase = .walking active after) :
    Sound pair (world.onward sweep (.writing active after
      (world.stale pair active after (sweep.hi after)))) := by
  refine sound.onward opened rfl ?_
  intro listing listed within due
  simp only [Sweep.ahead, phase] at due
  by_cases inside : listing.isActive = active ∧ after < listing.id ∧ listing.id ≤ sweep.hi after
  · cases mem_stale listed inside.1 inside.2.1 inside.2.2 with
    | inl settled => exact .inl settled
    | inr chosen => exact .inr (.inl chosen)
  · right
    right
    exact due_past due inside

theorem writeWindow (sound : Sound pair world) (opened : world.sweep = some sweep) {active : Bool}
    {after : Nat} {chosen : List Nat} (phase : sweep.phase = .writing active after chosen) :
    Sound pair (world.writeWindow sweep active after chosen) := by
  refine (sound.enqueue chosen).onward opened rfl ?_
  intro listing listed within due
  simp only [Sweep.ahead, phase] at due
  cases due with
  | inl taken => exact .inl (World.settled_enqueue taken)
  | inr later => exact .inr later

theorem retryWindow (sound : Sound pair world) (opened : world.sweep = some sweep) {active : Bool}
    {after : Nat} {chosen : List Nat} (phase : sweep.phase = .writing active after chosen)
    (notBehind : NotBehind pair world .retryWindow) :
    Sound pair (world.onward sweep (.walking active after)) := by
  refine sound.onward opened rfl ?_
  intro listing listed within due
  simp only [Sweep.ahead, phase] at due
  have again := notBehind sweep opened listing listed
  simp only [Sweep.readsAgain, phase] at again
  cases again with
  | inl settled => exact .inl settled
  | inr reads => exact .inr (due.elim reads (due_before within))

theorem turn (sound : Sound pair world) (opened : world.sweep = some sweep) {active : Bool}
    {after : Nat} (phase : sweep.phase = .walking active after) (ended : ¬ after < sweep.upper) :
    Sound pair (world.onward sweep (if active then .walking false 0 else .returned)) := by
  refine sound.onward opened rfl ?_
  intro listing listed within due
  simp only [Sweep.ahead, phase] at due
  have behind : ¬ after < listing.id := fun ahead => ended (lt_of_lt_of_le ahead within)
  cases active with
  | true => exact .inr ⟨due.resolve_right behind, listing.drawn⟩
  | false => exact absurd due.2 behind

theorem sweepStep (sound : Sound pair world) (opened : world.sweep = some sweep)
    {action : Action} {after : World} (notBehind : NotBehind pair world action)
    (taken : sweepStep pair world sweep action = some after) : Sound pair after := by
  cases action with
  | readWindow =>
      simp only [FullSweep.sweepStep] at taken
      split at taken
      case h_1 active after phase =>
          split_ifs at taken
          cases taken
          exact sound.readWindow opened phase
      case h_2 => cases taken
  | writeWindow =>
      simp only [FullSweep.sweepStep] at taken
      split at taken
      case h_1 active after chosen phase =>
          cases taken
          exact sound.writeWindow opened phase
      case h_2 => cases taken
  | retryWindow =>
      simp only [FullSweep.sweepStep] at taken
      split at taken
      case h_1 active after chosen phase =>
          cases taken
          exact sound.retryWindow opened phase notBehind
      case h_2 => cases taken
  | turn =>
      simp only [FullSweep.sweepStep] at taken
      split at taken
      case h_1 active after phase =>
          by_cases more : after < sweep.upper
          · rw [if_pos more] at taken
            cases taken
          · rw [if_neg more] at taken
            cases taken
            exact sound.turn opened phase more
      case h_2 => cases taken
  | record =>
      simp only [FullSweep.sweepStep] at taken
      split_ifs at taken with returned
      cases taken
      exact sound.record opened returned
  | abandon =>
      cases taken
      exact sound.closed id
  | _ => cases taken

theorem step (sound : Sound pair world) {action : Action} {after : World}
    (notBehind : NotBehind pair world action) (taken : step pair world action = some after) :
    Sound pair after := by
  cases action with
  | reconcile window =>
      simp only [FullSweep.step] at taken
      split_ifs at taken
      cases taken
      exact sound.reconcile window
  | switch id active =>
      cases taken
      exact sound.switch notBehind
  | born id active =>
      simp only [FullSweep.step] at taken
      split_ifs at taken with drawn
      cases taken
      exact sound.born notBehind
  | enqueue ids =>
      cases taken
      exact sound.enqueue ids
  | drain resolved finished =>
      simp only [FullSweep.step] at taken
      split_ifs at taken with held
      cases taken
      exact sound.drain held.2
  | restart =>
      cases taken
      exact sound.closed fun none_ => by cases none_
  | _ =>
      obtain ⟨sweep, opened, moved⟩ := Option.bind_eq_some_iff.mp taken
      exact sound.sweepStep opened notBehind moved

end Sound

/-! ### Runs -/

/-- No sweep is open, the pair is not yet swept, and answers belong to listings. -/
structure World.Initial (pair : Pair) (world : World) : Prop where
  idle : world.sweep = none
  unswept : world.sweptPair ≠ some pair
  known : ∀ id stamp, world.answers id = some stamp → id ∈ world.listings.map Listing.id

theorem World.Initial.sound (initial : world.Initial pair) : Sound pair world where
  covered := fun _ opened => by rw [initial.idle] at opened; cases opened
  known := fun id stamp stamped _ => ⟨initial.known id stamp stamped, fun _ opened => by
    rw [initial.idle] at opened; cases opened⟩
  recorded := fun swept => absurd swept initial.unswept

/-- A sweep at its return has left no listing up to its bound behind. -/
def SweepComplete (pair : Pair) (world : World) : Prop :=
  ∀ sweep, world.sweep = some sweep → sweep.phase = .returned →
    ∀ listing ∈ world.listings, listing.id ≤ sweep.upper → world.Settled pair listing.id

/-- With the pair recorded and the queue drained, no listing stays at an older pair. -/
def NoOlderPair (pair : Pair) (world : World) : Prop :=
  world.sweptPair = some pair → world.dirty = [] →
    ∀ listing ∈ world.listings, ∀ stamp, world.answers listing.id = some stamp → stamp = pair

theorem sweep_leaves_nothing_stale (pair : Pair) (start world : World)
    (initial : start.Initial pair) (reached : Reaches (step pair) (NotBehind pair) start world) :
    SweepComplete pair world ∧ NoOlderPair pair world := by
  have sound : Sound pair world := reached.invariant (Sound pair) initial.sound
    fun _ _ _ sound notBehind taken => sound.step notBehind taken
  refine ⟨?_, ?_⟩
  · intro sweep opened returned listing listed within
    have covered := sound.covered sweep opened listing listed within
    simp only [Sweep.ahead, returned] at covered
    exact covered.resolve_right id
  · intro swept empty listing _ stamp stamped
    by_contra old
    have queued := sound.recorded swept listing.id stamp stamped old
    rw [empty] at queued
    cases queued


/-! ### A listing that turns active behind the active walk -/

def current : Pair where
  resolverVersion := "6"
  registryVersion := "2026-10"

def older : Pair where
  resolverVersion := "5"
  registryVersion := "2026-10"

/-- An inactive listing answered under the older version, and an active one without an answer. -/
def bumped : World where
  listings := [{ id := 1, isActive := false, drawn := by decide },
    { id := 2, isActive := true, drawn := by decide }]
  answers := fun id => if id = 1 then some older else none
  dirty := []
  sweptPair := some older
  sweep := none

theorem bumped_initial : bumped.Initial current where
  idle := rfl
  unswept := by decide
  known := by
    intro id stamp stamped
    simp only [bumped] at stamped
    split_ifs at stamped with first
    rw [first]
    decide

/-- One window for each walk, a listing switched on before the active walk, and a drain. -/
def sweptOnTime : List Action :=
  [.switch 1 true, .reconcile 10, .readWindow, .enqueue [2], .retryWindow, .readWindow,
    .writeWindow, .turn, .switch 1 false, .readWindow, .writeWindow, .turn, .record,
    .drain [1, 2] [1, 2]]

theorem nothing_stale_on_time :
    ∃ final, replay (step current) bumped sweptOnTime = some final ∧
      final.sweptPair = some current ∧ final.dirty = [] ∧
        SweepComplete current final ∧ NoOlderPair current final := by
  obtain ⟨final, replayed⟩ : ∃ final, replay (step current) bumped sweptOnTime = some final :=
    Option.isSome_iff_exists.mp (by decide +kernel)
  have facts : (replay (step current) bumped sweptOnTime).all fun final =>
      decide (final.sweptPair = some current) && decide (final.dirty = []) := by decide +kernel
  rw [replayed, Option.all_some, Bool.and_eq_true, decide_eq_true_iff, decide_eq_true_iff] at facts
  have onTime : allowedAll (step current) (NotBehind current) bumped sweptOnTime := by
    decide +kernel
  exact ⟨final, replayed, facts.1, facts.2,
    sweep_leaves_nothing_stale current bumped final bumped_initial
      (reaches_of_replay replayed onTime)⟩

/-- The listing is switched on between the active window and the inactive one. -/
def switchedBetween : List Action :=
  [.reconcile 10, .readWindow, .writeWindow, .turn, .switch 1 true, .readWindow, .writeWindow,
    .turn]

theorem switched_between_is_missed :
    ¬ ∀ (pair : Pair) (start world : World), start.Initial pair →
      Reaches (step pair) (fun _ _ => True) start world →
        SweepComplete pair world ∧ NoOlderPair pair world := by
  intro all
  obtain ⟨final, replayed⟩ : ∃ final, replay (step current) bumped switchedBetween = some final :=
    Option.isSome_iff_exists.mp (by decide +kernel)
  have reached := reaches_of_replay replayed (allowedAll_true (step current) bumped switchedBetween)
  have facts : (replay (step current) bumped switchedBetween).all fun final =>
      (final.sweep.any fun sweep => decide (sweep.phase = .returned) && decide (1 ≤ sweep.upper)) &&
        final.listings.any (fun listing => decide (listing.id = 1)) &&
          decide (final.answers 1 ≠ some current) && decide (1 ∉ final.dirty) := by
    decide +kernel
  rw [replayed, Option.all_some] at facts
  simp only [Bool.and_eq_true, decide_eq_true_iff] at facts
  obtain ⟨⟨⟨returned, listed⟩, unstamped⟩, unqueued⟩ := facts
  obtain ⟨sweep, opened, ended⟩ := (Option.any_eq_true _ _).mp returned
  obtain ⟨listing, held, first⟩ := List.any_eq_true.mp listed
  rw [Bool.and_eq_true, decide_eq_true_iff, decide_eq_true_iff] at ended
  rw [decide_eq_true_iff] at first
  have settled := (all current bumped final bumped_initial reached).1 sweep opened ended.1 listing
    held (first ▸ ended.2)
  rw [first] at settled
  exact settled.elim unstamped unqueued

end Sreality.LocationData.FullSweep
