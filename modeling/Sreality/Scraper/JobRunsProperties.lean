import Mathlib.Tactic.Linarith
import Mathlib.Tactic.Ring
import Sreality.Foundation.Histories
import Sreality.Scraper.JobRunsLedger

/-! Holders of leases beside one another: over every order of calls a hold is the row's until its
fence and the margin after it have passed, a fenced transaction commits before the next grant of
its job, and a run is lost only by a lapsed lease. -/

set_option autoImplicit false

namespace Sreality.Scraper.JobLease

open Sreality.Foundation

/-! ### The history of grants and commits -/

@[simp] theorem lastGranted_granted (history : List Event) (job name holder : String) :
    lastGranted (history ++ [.granted name holder]) job =
      if name = job then some holder else lastGranted history job := by
  simp [lastGranted, List.foldl_append]

@[simp] theorem lastGranted_committed (history : List Event) (job name holder : String) :
    lastGranted (history ++ [.committed name holder]) job = lastGranted history job := by
  simp [lastGranted, List.foldl_append]

/-- Each commit is by the holder its job was last granted to. -/
def InOrder (history : List Event) : Prop :=
  ∀ earlier job holder later, history = earlier ++ .committed job holder :: later →
    lastGranted earlier job = some holder

namespace InOrder

variable {history : List Event}

theorem nil : InOrder [] := by
  intro earlier job holder later split
  cases earlier <;> cases split

theorem concat (ordered : InOrder history) {event : Event}
    (fits : ∀ job holder, event = .committed job holder →
      lastGranted history job = some holder) : InOrder (history ++ [event]) := by
  have each : EachFits (fun earlier event => ∀ job holder, event = .committed job holder →
      lastGranted earlier job = some holder) history := by
    intro earlier one later split job holder same
    exact ordered earlier job holder later (same ▸ split)
  exact fun earlier job holder later split =>
    each.concat fits earlier _ later split job holder rfl

theorem granted (ordered : InOrder history) (job holder : String) :
    InOrder (history ++ [.granted job holder]) :=
  ordered.concat fun _ _ same => by cases same

end InOrder

namespace World

variable {lane : String → Prop} {world next : World}

/-- The lanes are no jobs of the registry. -/
def OffLanes (lane : String → Prop) (_ : World) : Action → Prop
  | .register _ _ entry => ¬ lane entry.name
  | .acquire _ _ job _ _ _ _ _ => lane job
  | _ => True

structure Initial (lane : String → Prop) (world : World) : Prop where
  ledger : Ledger lane world.db
  working : world.working = []
  stopped : world.stopped = []
  fencing : world.fencing = []
  history : world.history = []

/-- A hold that was granted; while the row names it, it is the job's last grant and its run is
the job's open one. -/
structure Placed (lane : String → Prop) (world : World) (hold : Hold) : Prop where
  granted : .granted hold.jobName hold.holder ∈ world.history
  lanes : hold.claimed = none → lane hold.jobName
  last : ∀ expires, world.db.lease hold.jobName = some (hold.holder, expires) →
    lastGranted world.history hold.jobName = some hold.holder
  run : ∀ expires, world.db.lease hold.jobName = some (hold.holder, expires) →
    ∀ run ∈ hold.claimed, ∃ open_, world.db.openOf hold.jobName = [open_] ∧ open_.id = run.runId

/-- A hold at work, until the margin after its fence has passed. -/
structure Covered (world : World) (hold : Hold) : Prop where
  sent : hold.fenceAt + fenceMarginS ≤ world.time + hold.ttlS
  named : world.time ≤ hold.fenceAt + fenceMarginS → ∃ expires,
    world.db.lease hold.jobName = some (hold.holder, some expires) ∧
      hold.fenceAt + fenceMarginS ≤ expires

/-- A transaction past its fence. -/
structure Fenced (world : World) (hold : Hold) : Prop where
  granted : .granted hold.jobName hold.holder ∈ world.history
  named : ∃ expires, world.db.lease hold.jobName = some (hold.holder, expires)
  last : lastGranted world.history hold.jobName = some hold.holder

structure Sound (lane : String → Prop) (world : World) : Prop where
  ledger : Ledger lane world.db
  placed : ∀ hold ∈ world.working ++ world.stopped, world.Placed lane hold
  covered : ∀ hold ∈ world.working, world.Covered hold
  fenced : ∀ hold ∈ world.fencing, world.Fenced hold
  distinct : ((world.working ++ world.stopped).map (·.holder)).Nodup
  ordered : InOrder world.history

theorem Initial.sound (initial : world.Initial lane) : world.Sound lane := by
  refine ⟨initial.ledger, ?_, ?_, ?_, ?_, ?_⟩
  · rw [initial.working, initial.stopped]
    exact fun _ held => by cases held
  · rw [initial.working]
    exact fun _ held => by cases held
  · rw [initial.fencing]
    exact fun _ held => by cases held
  · rw [initial.working, initial.stopped]
    exact List.nodup_nil
  · rw [initial.history]
    exact .nil

theorem write_eq_some {after : Database} (landed : world.write after = some next) :
    next = { world with db := after } ∧
      ∀ hold ∈ world.fencing, after.row hold.jobName = world.db.row hold.jobName := by
  unfold write at landed
  split_ifs at landed with unlocked
  refine ⟨(Option.some.inj landed).symm, fun hold held => ?_⟩
  exact of_decide_eq_true (List.all_eq_true.mp unlocked hold held)

namespace Sound

/-- A call carries the invariant when no hold comes back, and none at work loses its row. -/
theorem carry (sound : world.Sound lane) {after : Database} (ledger : Ledger lane after)
    (unlocked : ∀ hold ∈ world.fencing, after.row hold.jobName = world.db.row hold.jobName)
    (stood : ∀ hold ∈ world.working ++ world.stopped, ∀ expires,
      after.lease hold.jobName = some (hold.holder, expires) →
        (∃ before, world.db.lease hold.jobName = some (hold.holder, before)) ∧
          after.openOf hold.jobName = world.db.openOf hold.jobName)
    (stands : ∀ hold ∈ world.working, ∀ expires, world.time ≤ expires →
      hold.fenceAt + fenceMarginS ≤ expires →
        world.db.lease hold.jobName = some (hold.holder, some expires) →
          ∃ later, after.lease hold.jobName = some (hold.holder, some later) ∧
            hold.fenceAt + fenceMarginS ≤ later) :
    ({ world with db := after } : World).Sound lane := by
  refine ⟨ledger, ?_, ?_, ?_, sound.distinct, sound.ordered⟩
  · intro hold held
    have placed := sound.placed hold held
    refine ⟨placed.granted, placed.lanes, fun expires named => ?_, fun expires named => ?_⟩
    · obtain ⟨⟨before, had⟩, _⟩ := stood hold held expires named
      exact placed.last before had
    · obtain ⟨⟨before, had⟩, runs⟩ := stood hold held expires named
      intro run claimed
      obtain ⟨open_, one, identified⟩ := placed.run before had run claimed
      exact ⟨open_, runs.trans one, identified⟩
  · intro hold held
    have covered := sound.covered hold held
    refine ⟨covered.sent, fun early => ?_⟩
    obtain ⟨expires, named, late⟩ := covered.named early
    exact stands hold held expires (le_trans early late) late named
  · intro hold held
    have fenced := sound.fenced hold held
    refine ⟨fenced.granted, ?_, fenced.last⟩
    obtain ⟨expires, named⟩ := fenced.named
    refine ⟨expires, Eq.trans ?_ named⟩
    change after.lease hold.jobName = world.db.lease hold.jobName
    unfold Database.lease
    rw [unlocked hold held]

theorem passes (sound : world.Sound lane) {after : Database} {now : ℚ} (past : now ≤ world.time)
    (call : Passes lane world.db after now) (landed : world.write after = some next) :
    next.Sound lane := by
  obtain ⟨rfl, unlocked⟩ := write_eq_some landed
  refine sound.carry call.ledger unlocked ?_ ?_
  · intro hold _ expires named
    obtain ⟨before, runs⟩ := (call.leaves hold.jobName).stood named
    exact ⟨⟨expires, before⟩, runs⟩
  · intro hold _ expires live late named
    exact ⟨expires, (call.leaves hold.jobName).stands named (past.trans live), late⟩

/-- The holders already granted are told from a new one. -/
theorem unused_apart {holder : String} (unused : world.unused holder = true) {hold : Hold}
    (granted : .granted hold.jobName hold.holder ∈ world.history) : hold.holder ≠ holder := by
  have fresh := List.all_eq_true.mp (Bool.and_eq_true_iff.mp unused).2 _ granted
  exact of_decide_eq_true fresh

/-- A call that grants a lease carries the holds there are. -/
theorem grants (sound : world.Sound lane) {after : Database} {now ttlS : ℚ} {job holder : String}
    {runId : Option Nat} (past : now ≤ world.time) (unused : world.unused holder = true)
    (call : Grants lane world.db after now job holder ttlS runId)
    (landed : world.write after = some next) : next.Sound lane := by
  obtain ⟨rfl, unlocked⟩ := write_eq_some landed
  refine sound.carry call.ledger unlocked ?_ ?_
  · intro hold held expires named
    by_cases own : hold.jobName = job
    · rw [own, call.leased] at named
      cases named
      exact absurd rfl (unused_apart unused (sound.placed hold held).granted)
    · obtain ⟨before, runs⟩ := (call.leaves hold.jobName own).stood named
      exact ⟨⟨expires, before⟩, runs⟩
  · intro hold held expires live late named
    by_cases own : hold.jobName = job
    · rw [own] at named
      exact absurd (past.trans live) (not_le.mpr (call.late hold.holder expires named))
    · exact ⟨expires, (call.leaves hold.jobName own).stands named (past.trans live), late⟩

/-- The new hold beside the others. -/
theorem grant (sound : world.Sound lane) {hold : Hold} {expires : ℚ}
    (fresh : ∀ other ∈ world.working ++ world.stopped ++ world.fencing,
      other.holder ≠ hold.holder)
    (sent : hold.fenceAt + fenceMarginS ≤ world.time + hold.ttlS)
    (lanes : hold.claimed = none → lane hold.jobName)
    (leased : world.db.lease hold.jobName = some (hold.holder, some expires))
    (late : hold.fenceAt + fenceMarginS ≤ expires)
    (opened : ∀ run ∈ hold.claimed, ∃ open_, world.db.openOf hold.jobName = [open_] ∧
      open_.id = run.runId) (answered : Bool) : (world.grant hold answered).Sound lane := by
  have elsewhere : ∀ other : Hold, other.holder ≠ hold.holder → ∀ expires,
      world.db.lease other.jobName = some (other.holder, expires) →
        other.jobName ≠ hold.jobName := by
    intro other apart expires named same
    rw [same, leased] at named
    exact apart (congrArg Prod.fst (Option.some.inj named)).symm
  have kept : ∀ other ∈ world.working ++ world.stopped,
      (world.grant hold answered).Placed lane other := by
    intro other held
    have apart := fresh other (List.mem_append_left _ held)
    have placed := sound.placed other held
    refine ⟨List.mem_append_left _ placed.granted, placed.lanes, fun expires named => ?_, placed.run⟩
    have differ := elsewhere other apart expires named
    exact (lastGranted_granted _ _ _ _).trans
      ((if_neg differ.symm).trans (placed.last expires named))
  have own : (world.grant hold answered).Placed lane hold := by
    refine ⟨List.mem_append_right _ (List.mem_singleton_self _), lanes, fun _ _ => ?_,
      fun _ _ => opened⟩
    exact (lastGranted_granted _ _ _ _).trans (if_pos rfl)
  have covered : ∀ other ∈ world.working, (world.grant hold answered).Covered other :=
    fun other held => ⟨(sound.covered other held).sent, (sound.covered other held).named⟩
  have ownCovered : (world.grant hold answered).Covered hold :=
    ⟨sent, fun _ => ⟨expires, leased, late⟩⟩
  have grown : ∀ other ∈ (world.grant hold answered).working,
      other ∈ world.working ∨ other = hold := by
    intro other held
    cases answered with
    | false => exact .inl held
    | true => simpa [World.grant] using held
  refine ⟨sound.ledger, ?_, ?_, ?_, ?_, sound.ordered.granted _ _⟩
  · intro other held
    obtain working | stopped := List.mem_append.mp held
    · obtain before | rfl := grown other working
      · exact kept other (List.mem_append_left _ before)
      · exact own
    · exact kept other (List.mem_append_right _ stopped)
  · intro other held
    obtain before | rfl := grown other held
    · exact covered other before
    · exact ownCovered
  · intro other held
    have apart := fresh other (List.mem_append_right _ held)
    have fenced := sound.fenced other held
    obtain ⟨expires, named⟩ := fenced.named
    refine ⟨List.mem_append_left _ fenced.granted, ⟨expires, named⟩, ?_⟩
    exact (lastGranted_granted _ _ _ _).trans
      ((if_neg (elsewhere other apart expires named).symm).trans fenced.last)
  · cases answered with
    | false => exact sound.distinct
    | true =>
        have moved : ((world.working ++ [hold]) ++ world.stopped).Perm
            (hold :: (world.working ++ world.stopped)) := by
          rw [List.append_assoc]
          exact List.perm_middle
        refine ((moved.map (·.holder)).nodup_iff).mpr (List.nodup_cons.mpr ⟨?_, sound.distinct⟩)
        intro listed
        obtain ⟨other, held, same⟩ := List.mem_map.mp listed
        exact fresh other (List.mem_append_left _ held) same

/-- A renewal: the row stays with the hold, its fence moved out when the reply was heard. -/
theorem renew (sound : world.Sound lane) {hold : Hold} (held : hold ∈ world.working)
    {after : Database} (call : Renews lane world.db after world.time hold.jobName hold.holder
      hold.ttlS) (landed : world.write after = some next) : next.Sound lane := by
  obtain ⟨rfl, unlocked⟩ := write_eq_some landed
  obtain ⟨till, had, live⟩ := call.live
  refine sound.carry call.ledger unlocked ?_ ?_
  · intro other _ expires named
    refine ⟨?_, call.runs _⟩
    by_cases own : other.jobName = hold.jobName
    · rw [own, call.leased] at named
      have holders : hold.holder = other.holder := congrArg Prod.fst (Option.some.inj named)
      exact ⟨some till, by rw [own, had, holders]⟩
    · exact ⟨expires, (call.others _ own).symm.trans named⟩
  · intro other working expires _ late named
    by_cases own : other.jobName = hold.jobName
    · rw [own, had] at named
      have same : other = hold := by
        have holders : hold.holder = other.holder := congrArg Prod.fst (Option.some.inj named)
        exact List.inj_on_of_nodup_map sound.distinct (List.mem_append_left _ working)
          (List.mem_append_left _ held) holders.symm
      subst same
      exact ⟨_, call.leased, (sound.covered other working).sent⟩
    · exact ⟨expires, (call.others _ own).trans named, late⟩

/-- A hold whose fence is moved to a later one its lease covers. -/
theorem refence (sound : world.Sound lane) {hold : Hold} (held : hold ∈ world.working)
    {sentAt expires : ℚ} (sent : sentAt ≤ world.time)
    (leased : world.db.lease hold.jobName = some (hold.holder, some expires))
    (late : sentAt + hold.ttlS ≤ expires) :
    ({ world with
      working := world.working.map fun other =>
        if other = hold then { hold with fenceAt := fenceAfter sentAt hold.ttlS }
        else other } : World).Sound lane := by
  have holders : ∀ other : Hold, (if other = hold then
      { hold with fenceAt := fenceAfter sentAt hold.ttlS } else other).holder = other.holder := by
    intro other
    split_ifs with same
    · rw [same]
    · rfl
  have fence : fenceAfter sentAt hold.ttlS + fenceMarginS = sentAt + hold.ttlS := by
    unfold fenceAfter
    ring
  refine ⟨sound.ledger, ?_, ?_, fun other fencing => ?_, ?_, sound.ordered⟩
  · intro other listed
    obtain working | stopped := List.mem_append.mp listed
    · obtain ⟨old, before, rfl⟩ := List.mem_map.mp working
      have placed := sound.placed old (List.mem_append_left _ before)
      split_ifs with same
      · subst same
        exact ⟨placed.granted, placed.lanes, placed.last, placed.run⟩
      · exact ⟨placed.granted, placed.lanes, placed.last, placed.run⟩
    · have placed := sound.placed other (List.mem_append_right _ stopped)
      exact ⟨placed.granted, placed.lanes, placed.last, placed.run⟩
  · intro other listed
    obtain ⟨old, before, rfl⟩ := List.mem_map.mp listed
    split_ifs with same
    · refine ⟨?_, fun _ => ⟨expires, leased, ?_⟩⟩
      · change fenceAfter sentAt hold.ttlS + fenceMarginS ≤ world.time + hold.ttlS
        rw [fence]
        linarith
      · change fenceAfter sentAt hold.ttlS + fenceMarginS ≤ expires
        rw [fence]
        exact late
    · exact ⟨(sound.covered old before).sent, (sound.covered old before).named⟩
  · have fenced := sound.fenced other fencing
    exact ⟨fenced.granted, fenced.named, fenced.last⟩
  · have same : (world.working.map fun other =>
        if other = hold then { hold with fenceAt := fenceAfter sentAt hold.ttlS } else other).map
          (·.holder) = world.working.map (·.holder) := by
      rw [List.map_map]
      exact List.map_congr_left fun other _ => holders other
    have distinct := sound.distinct
    rw [List.map_append, ← same, ← List.map_append] at distinct
    exact distinct

theorem wait (sound : world.Sound lane) {till : ℚ} (onward : world.time ≤ till) :
    ({ world with time := till } : World).Sound lane := by
  refine ⟨sound.ledger, fun hold held => ?_, fun hold held => ?_, fun hold held => ?_,
    sound.distinct, sound.ordered⟩
  · have placed := sound.placed hold held
    exact ⟨placed.granted, placed.lanes, placed.last, placed.run⟩
  · have covered := sound.covered hold held
    refine ⟨covered.sent.trans ?_, fun early => covered.named (onward.trans early)⟩
    change world.time + hold.ttlS ≤ till + hold.ttlS
    linarith
  · have fenced := sound.fenced hold held
    exact ⟨fenced.granted, fenced.named, fenced.last⟩

theorem fence (sound : world.Sound lane) {hold : Hold} (held : hold ∈ world.working)
    (standing : world.db.fences world.time hold.jobName hold.holder = true) :
    ({ world with fencing := world.fencing ++ [hold] } : World).Sound lane := by
  refine ⟨sound.ledger, fun other listed => ?_, fun other listed => ?_, fun other listed => ?_,
    sound.distinct, sound.ordered⟩
  · have placed := sound.placed other listed
    exact ⟨placed.granted, placed.lanes, placed.last, placed.run⟩
  · exact ⟨(sound.covered other listed).sent, (sound.covered other listed).named⟩
  · rw [List.mem_append, List.mem_singleton] at listed
    obtain before | rfl := listed
    · have fenced := sound.fenced other before
      exact ⟨fenced.granted, fenced.named, fenced.last⟩
    · have placed := sound.placed other (List.mem_append_left _ held)
      obtain ⟨row, found, named⟩ := (Option.any_eq_true _ _).mp standing
      have leased : world.db.lease other.jobName = some (other.holder, row.leaseExpiresAt) :=
        Database.lease_eq_some.mpr
          ⟨row, found, of_decide_eq_true (Bool.and_eq_true_iff.mp named).1, rfl⟩
      exact ⟨placed.granted, ⟨_, leased⟩, placed.last _ leased⟩

/-- A fenced transaction ends: with its commit logged, or without. -/
theorem unfence (sound : world.Sound lane) (hold : Hold) :
    ({ world with fencing := world.fencing.erase hold } : World).Sound lane := by
  refine ⟨sound.ledger, fun other listed => ?_, fun other listed => ?_, fun other listed => ?_,
    sound.distinct, sound.ordered⟩
  · have placed := sound.placed other listed
    exact ⟨placed.granted, placed.lanes, placed.last, placed.run⟩
  · exact ⟨(sound.covered other listed).sent, (sound.covered other listed).named⟩
  · have fenced := sound.fenced other (List.mem_of_mem_erase listed)
    exact ⟨fenced.granted, fenced.named, fenced.last⟩

theorem commit (sound : world.Sound lane) {hold : Hold} (held : hold ∈ world.fencing) :
    ({ world with history := world.history ++ [.committed hold.jobName hold.holder] } :
      World).Sound lane := by
  have last := (sound.fenced hold held).last
  refine ⟨sound.ledger, fun other listed => ?_, fun other listed => ?_, fun other listed => ?_,
    sound.distinct, sound.ordered.concat ?_⟩
  · have placed := sound.placed other listed
    exact ⟨List.mem_append_left _ placed.granted, placed.lanes,
      fun expires named => (lastGranted_committed _ _ _ _).trans (placed.last expires named),
      placed.run⟩
  · exact ⟨(sound.covered other listed).sent, (sound.covered other listed).named⟩
  · have fenced := sound.fenced other listed
    exact ⟨List.mem_append_left _ fenced.granted, fenced.named,
      (lastGranted_committed _ _ _ _).trans fenced.last⟩
  · intro job holder same
    cases same
    exact last

theorem stop (sound : world.Sound lane) {hold : Hold} (held : hold ∈ world.working) :
    ({ world with working := world.working.erase hold, stopped := world.stopped ++ [hold] } :
      World).Sound lane := by
  have same : (world.working.erase hold ++ (world.stopped ++ [hold])).Perm
      (world.working ++ world.stopped) := by
    rw [← List.append_assoc]
    refine (List.perm_append_singleton _ _).trans ?_
    exact (List.perm_cons_erase held).symm.append_right _
  refine ⟨sound.ledger, fun other listed => ?_, fun other listed => ?_, fun other listed => ?_,
    ?_, sound.ordered⟩
  · have placed := sound.placed other (same.mem_iff.mp listed)
    exact ⟨placed.granted, placed.lanes, placed.last, placed.run⟩
  · have covered := sound.covered other (List.mem_of_mem_erase listed)
    exact ⟨covered.sent, covered.named⟩
  · have fenced := sound.fenced other listed
    exact ⟨fenced.granted, fenced.named, fenced.last⟩
  · exact ((same.map (·.holder)).nodup_iff).mpr sound.distinct

theorem release (sound : world.Sound lane) {hold : Hold} {now : ℚ} (past : now ≤ world.time)
    (held : hold ∈ world.stopped) {after : Database}
    (call : Releases lane world.db after now hold.jobName hold.holder)
    (landed : world.write after = some next) : next.Sound lane := by
  obtain ⟨rfl, unlocked⟩ := write_eq_some landed
  obtain ⟨till, had⟩ := call.held
  refine sound.carry call.ledger unlocked ?_ ?_
  · intro other _ expires named
    by_cases own : other.jobName = hold.jobName
    · rw [own, call.freed] at named
      cases named
    · obtain ⟨before, runs⟩ := (call.leaves _ own).stood named
      exact ⟨⟨expires, before⟩, runs⟩
  · intro other working expires live late named
    by_cases own : other.jobName = hold.jobName
    · -- The row would name a hold at work and one whose work has stopped.
      rw [own, had] at named
      have holders : hold.holder = other.holder := congrArg Prod.fst (Option.some.inj named)
      have apart := List.nodup_append.mp (List.map_append ▸ sound.distinct)
      exact absurd holders.symm (apart.2.2 _ (List.mem_map_of_mem working) _
        (List.mem_map_of_mem held))
    · exact ⟨expires, (call.leaves _ own).stands named (past.trans live), late⟩

/-- No hold was granted to a holder no one has used. -/
theorem fresh (sound : world.Sound lane) {holder : String} (unused : world.unused holder = true) :
    ∀ other ∈ world.working ++ world.stopped ++ world.fencing, other.holder ≠ holder := by
  intro other held
  obtain placed | fenced := List.mem_append.mp held
  · exact unused_apart unused (sound.placed other placed).granted
  · exact unused_apart unused (sound.fenced other fenced).granted

/-- A call that grants a lease, and the hold it grants. -/
theorem granting (sound : world.Sound lane) {after : Database} {now sentAt ttlS : ℚ}
    {job holder : String} {claimed : Option ClaimedRun} (sent : sentAt ≤ now)
    (past : now ≤ world.time) (unused : world.unused holder = true)
    (call : Grants lane world.db after now job holder ttlS (claimed.map (·.runId)))
    (lanes : claimed = none → lane job) (landed : world.write after = some next)
    (answered : Bool) :
    (next.grant
      { jobName := job, holder := holder, ttlS := ttlS, fenceAt := fenceAfter sentAt ttlS
        claimed := claimed } answered).Sound lane := by
  have carried := sound.grants past unused call landed
  have fresh := sound.fresh unused
  obtain ⟨rfl, _⟩ := write_eq_some landed
  have fence : fenceAfter sentAt ttlS + fenceMarginS = sentAt + ttlS := by
    unfold fenceAfter
    ring
  refine carried.grant fresh ?_ lanes call.leased ?_ ?_ answered
  · change fenceAfter sentAt ttlS + fenceMarginS ≤ world.time + ttlS
    rw [fence]
    linarith
  · change fenceAfter sentAt ttlS + fenceMarginS ≤ now + ttlS
    rw [fence]
    linarith
  · intro run named
    exact call.opened run.runId (Option.mem_map_of_mem _ named)

end Sound

/-- One call, or one holder's act, keeps the invariant. -/
theorem Sound.step (sound : world.Sound lane) {action : Action} (fit : OffLanes lane world action)
    (taken : world.step action = some next) : next.Sound lane := by
  cases action with
  | wait till =>
      simp only [World.step] at taken
      split_ifs at taken with onward
      cases taken
      exact sound.wait onward
  | claim seen now sentAt job holder ttlS answered =>
      simp only [World.step] at taken
      split_ifs at taken with ready
      obtain ⟨sent, past, unused⟩ := ready
      cases claimed : world.db.claim now seen job holder ttlS with
      | none =>
          rw [claimed] at taken
          cases taken
          exact sound
      | some granted =>
          obtain ⟨after, run⟩ := granted
          rw [claimed] at taken
          obtain ⟨landed, wrote, rfl⟩ := Option.map_eq_some_iff.mp taken
          obtain ⟨apart, call⟩ := grants_claim sound.ledger claimed
          exact @granting _ _ _ sound _ _ _ _ _ _ (some run) sent past unused call
            (fun unclaimed => by cases unclaimed) wrote answered
  | acquire now sentAt job runner holder cadence ttlS answered =>
      simp only [World.step] at taken
      split_ifs at taken with ready
      obtain ⟨sent, past, unused⟩ := ready
      cases acquired : world.db.acquire now job runner holder cadence ttlS with
      | mk after granted =>
          rw [acquired] at taken
          cases granted with
          | false =>
              have call := passes_acquire sound.ledger acquired
              exact sound.passes past call taken
          | true =>
              obtain ⟨landed, wrote, rfl⟩ := Option.map_eq_some_iff.mp taken
              have call := grants_acquire sound.ledger fit acquired
              exact @granting _ _ _ sound _ _ _ _ _ _ none sent past unused call (fun _ => fit)
                wrote answered
  | renew hold sentAt answered =>
      obtain ⟨⟨held, sent⟩, taken⟩ := Option.ite_none_right_eq_some.mp taken
      cases renewed : world.db.renew world.time hold.jobName hold.holder hold.ttlS with
      | none =>
          rw [renewed] at taken
          cases taken
          exact sound
      | some after =>
          rw [renewed] at taken
          obtain ⟨landed, wrote, rfl⟩ := Option.map_eq_some_iff.mp taken
          have call := renews sound.ledger renewed
          have carried := sound.renew held call wrote
          obtain ⟨rfl, _⟩ := write_eq_some wrote
          cases answered with
          | false => exact carried
          | true =>
              refine carried.refence held sent call.leased ?_
              exact add_le_add_left sent hold.ttlS
  | fence hold =>
      simp only [World.step] at taken
      split_ifs at taken with ready
      cases taken
      exact sound.fence ready.1 ready.2.2
  | commit hold =>
      simp only [World.step] at taken
      split_ifs at taken with held
      cases taken
      exact (sound.commit held).unfence hold
  | rollback hold =>
      simp only [World.step] at taken
      split_ifs at taken
      cases taken
      exact sound.unfence hold
  | stop hold =>
      simp only [World.step] at taken
      split_ifs at taken with held
      cases taken
      exact sound.stop held
  | release hold now outcome due error =>
      simp only [World.step] at taken
      split_ifs at taken with ready
      obtain ⟨held, past⟩ := ready
      cases released : world.db.release now hold outcome due error with
      | none =>
          rw [released] at taken
          cases taken
          exact sound
      | some after =>
          rw [released] at taken
          have placed := sound.placed hold (List.mem_append_right _ held)
          have call := releases sound.ledger placed.run placed.lanes released
          exact sound.release past held call taken
  | register now runner entry =>
      simp only [World.step] at taken
      split_ifs at taken with past
      exact sound.passes past (passes_register sound.ledger runner fit) taken
  | retire now runner names =>
      simp only [World.step] at taken
      split_ifs at taken with past
      exact sound.passes past (passes_retire sound.ledger runner names) taken
  | request now runner job by_ args =>
      simp only [World.step] at taken
      split_ifs at taken with past
      exact sound.passes past (passes_request sound.ledger runner job by_ args) taken
  | pause now job till =>
      simp only [World.step] at taken
      split_ifs at taken with past
      exact sound.passes past (passes_pause sound.ledger job till) taken
  | reapLost now runner names onHour =>
      simp only [World.step] at taken
      split_ifs at taken with past
      exact sound.passes past (passes_reapLost sound.ledger world.locked runner names onHour) taken
  | pruneRuns now days =>
      simp only [World.step] at taken
      split_ifs at taken with past
      exact sound.passes past (passes_pruneRuns sound.ledger days) taken

theorem Initial.reaches (initial : world.Initial lane)
    (run : Reaches World.step (OffLanes lane) world next) : next.Sound lane :=
  run.invariant (fun world => world.Sound lane) initial.sound
    (fun _ _ _ sound fit taken => sound.step fit taken)

/-! ### Holds -/

/-- A hold whose work may still be heard of: its fence and the margin after it have not passed. -/
def InForce (world : World) (hold : Hold) : Prop :=
  hold ∈ world.working ∧ world.time ≤ hold.fenceAt + fenceMarginS

/-- The open run that a hold claimed. -/
def Runs (world : World) (hold : Hold) (run : JobRun) : Prop :=
  ∃ claimed ∈ hold.claimed, run ∈ world.db.openOf hold.jobName ∧ run.id = claimed.runId

structure Exclusive (world : World) : Prop where
  /-- The row names the holder and its lease has not lapsed; the run claimed with it is open. -/
  leased : ∀ hold, world.InForce hold →
    (∃ row, world.db.row hold.jobName = some row ∧ row.heldBy world.time hold.holder = true) ∧
      ∀ claimed ∈ hold.claimed, ∃ run, world.Runs hold run
  job : ∀ one two, world.InForce one → world.InForce two → one.jobName = two.jobName → one = two
  resource : ∀ one two, world.InForce one → world.InForce two →
    ∀ first second, world.Runs one first → world.Runs two second →
      first.resource.isSome = true → first.resource = second.resource → one = two

namespace Sound

theorem leased (sound : world.Sound lane) {hold : Hold} (force : world.InForce hold) :
    ∃ expires, world.db.lease hold.jobName = some (hold.holder, some expires) ∧
      world.time ≤ expires := by
  obtain ⟨expires, named, late⟩ := (sound.covered hold force.1).named force.2
  exact ⟨expires, named, force.2.trans late⟩

theorem same_job (sound : world.Sound lane) {one two : Hold} (first : world.InForce one)
    (second : world.InForce two) (same : one.jobName = two.jobName) : one = two := by
  obtain ⟨_, mine, _⟩ := sound.leased first
  obtain ⟨_, yours, _⟩ := sound.leased second
  rw [same, yours] at mine
  have holders : two.holder = one.holder := congrArg Prod.fst (Option.some.inj mine)
  exact List.inj_on_of_nodup_map sound.distinct (List.mem_append_left _ first.1)
    (List.mem_append_left _ second.1) holders.symm

theorem exclusive (sound : world.Sound lane) : world.Exclusive := by
  refine ⟨fun hold force => ⟨?_, fun claimed named => ?_⟩, fun one two => sound.same_job, ?_⟩
  · obtain ⟨expires, leased, live⟩ := sound.leased force
    obtain ⟨row, found, named, expiry⟩ := Database.lease_eq_some.mp leased
    exact ⟨row, found, JobRow.heldBy_iff.mpr ⟨named, expires, expiry, live⟩⟩
  · obtain ⟨expires, leased, _⟩ := sound.leased force
    have placed := sound.placed hold (List.mem_append_left _ force.1)
    obtain ⟨run, one, identified⟩ := placed.run _ leased claimed named
    exact ⟨run, claimed, named, one ▸ List.mem_singleton_self run, identified⟩
  · intro one two first second run other mine yours some_ same
    obtain ⟨_, _, held, _⟩ := mine
    obtain ⟨_, _, holding, _⟩ := yours
    obtain ⟨listed, own, opens⟩ := Database.mem_openOf.mp held
    obtain ⟨alsoListed, other_, alsoOpens⟩ := Database.mem_openOf.mp holding
    have jobs := sound.ledger.resource run listed opens other alsoListed alsoOpens some_ same
    exact sound.same_job first second (own.symm.trans (jobs.trans other_))

end Sound

/-! ### Tables with no rows -/

theorem initial_of_empty {lane : String → Prop} {world : World} (rows : world.db.rows = [])
    (runs : world.db.runs = []) (working : world.working = []) (stopped : world.stopped = [])
    (fencing : world.fencing = []) (history : world.history = []) : world.Initial lane := by
  have unrowed : ∀ job, world.db.row job = none := by
    intro job
    unfold Database.row
    rw [rows]
    rfl
  have none_ : ∀ job, world.db.openOf job = [] := by
    intro job
    unfold Database.openOf
    rw [runs]
    rfl
  have free : ∀ job, world.db.lease job = none := by
    intro job
    unfold Database.lease
    rw [unrowed]
    rfl
  refine ⟨⟨?_, ?_, ?_, fun job _ => .idle (free job) (none_ job), fun job _ => ⟨none_ job, ?_⟩, ?_⟩,
    working, stopped, fencing, history⟩
  · exact rows ▸ Keyed.nil
  · exact runs ▸ Keyed.nil
  · intro run held
    rw [runs] at held
    cases held
  · intro row found
    rw [unrowed] at found
    cases found
  · intro one held
    rw [runs] at held
    cases held

instance (lane : String → Prop) [DecidablePred lane] (world : World) :
    ∀ action, Decidable (OffLanes lane world action)
  | .register _ _ entry => inferInstanceAs (Decidable (¬ lane entry.name))
  | .acquire _ _ job _ _ _ _ _ => inferInstanceAs (Decidable (lane job))
  | .wait _ | .claim _ _ _ _ _ _ _ | .renew _ _ _ | .fence _ | .commit _ | .rollback _ | .stop _
  | .release _ _ _ _ _ | .retire _ _ _ | .request _ _ _ _ _ | .pause _ _ _ | .reapLost _ _ _ _
  | .pruneRuns _ _ => .isTrue trivial

def emptyTables : World where
  time := 0
  db := { rows := [], runs := [], nextRun := 0 }
  working := []
  stopped := []
  fencing := []
  history := []

theorem emptyTables_initial (lane : String → Prop) : emptyTables.Initial lane :=
  initial_of_empty rfl rfl rfl rfl rfl rfl

/-- Due each hundred seconds. -/
def sweepEntry : Entry :=
  { name := "sweep", everyS := 100, offsetS := 0, timeoutS := 10, memoryMb := 64, cpus := 1
    resource := some "portal" }

def sweepHold : Hold :=
  { jobName := "sweep", holder := "first", ttlS := 60, fenceAt := 130
    claimed := some { runId := 0, args := none, requestedBy := none, dueSlot := true } }

/-- A holder commits behind its fence, is not heard of until its lease has lapsed, and the next
claims the job. -/
def takeover : List Action :=
  [.register 0 "runner" sweepEntry, .wait 100, .claim [] 100 100 "sweep" "first" 60 true,
    .fence sweepHold, .commit sweepHold, .wait 200]

def claimAgain : Action := .claim [] 200 200 "sweep" "second" 60 true

theorem reaches_takeover {final : World}
    (replayed : replay World.step emptyTables (takeover ++ [claimAgain]) = some final) :
    Reaches World.step (OffLanes (· = "drain")) emptyTables final :=
  reaches_of_replay replayed (by decide +kernel)

/-- Over every order of calls, replies lost, holders that renew late or never, no two of them are
at work on one job, or on one resource, before their fences and the margin have passed. -/
theorem leases_exclusive (lane : String → Prop) (world next : World)
    (initial : world.Initial lane) (run : Reaches World.step (OffLanes lane) world next) :
    next.Exclusive :=
  (initial.reaches run).exclusive

theorem leases_exclusive_at_takeover :
    ∃ final, replay World.step emptyTables (takeover ++ [claimAgain]) = some final ∧
      final.working.map (·.holder) = ["first", "second"] ∧ final.Exclusive := by
  obtain ⟨final, replayed⟩ :
      ∃ final, replay World.step emptyTables (takeover ++ [claimAgain]) = some final :=
    Option.isSome_iff_exists.mp (by decide +kernel)
  have working : (replay World.step emptyTables (takeover ++ [claimAgain])).map
      (·.working.map (·.holder)) = some ["first", "second"] := by decide +kernel
  rw [replayed] at working
  exact ⟨final, replayed, Option.some.inj working,
    leases_exclusive (· = "drain") emptyTables final (emptyTables_initial _)
      (reaches_takeover replayed)⟩

/-- What was committed behind a fence was committed by the job's latest grant: no transaction of
a holder whose lease was taken over lands after the new one's grant. -/
theorem commits_in_order (lane : String → Prop) (world next : World)
    (initial : world.Initial lane) (run : Reaches World.step (OffLanes lane) world next) :
    InOrder next.history :=
  (initial.reaches run).ordered

theorem commits_in_order_at_takeover :
    ∃ final, replay World.step emptyTables (takeover ++ [claimAgain]) = some final ∧
      final.history =
        [.granted "sweep" "first", .committed "sweep" "first", .granted "sweep" "second"] ∧
      InOrder final.history := by
  obtain ⟨final, replayed⟩ :
      ∃ final, replay World.step emptyTables (takeover ++ [claimAgain]) = some final :=
    Option.isSome_iff_exists.mp (by decide +kernel)
  have history : (replay World.step emptyTables (takeover ++ [claimAgain])).map (·.history) =
      some [.granted "sweep" "first", .committed "sweep" "first", .granted "sweep" "second"] := by
    decide +kernel
  rw [replayed] at history
  exact ⟨final, replayed, Option.some.inj history,
    commits_in_order (· = "drain") emptyTables final (emptyTables_initial _)
      (reaches_takeover replayed)⟩

/-- Rows and runs agree after every order of calls: a row off the lanes names a holder exactly
while it has an open run, its only one and that holder's, and the open runs of one resource are of
one job. -/
theorem rows_agree_with_runs (lane : String → Prop) (world next : World)
    (initial : world.Initial lane) (run : Reaches World.step (OffLanes lane) world next) :
    Ledger lane next.db :=
  (initial.reaches run).ledger

theorem rows_agree_with_runs_at_takeover :
    ∃ final, replay World.step emptyTables (takeover ++ [claimAgain]) = some final ∧
      (final.db.openOf "sweep").map (·.holder) = ["second"] ∧ Ledger (· = "drain") final.db := by
  obtain ⟨final, replayed⟩ :
      ∃ final, replay World.step emptyTables (takeover ++ [claimAgain]) = some final :=
    Option.isSome_iff_exists.mp (by decide +kernel)
  have opened : (replay World.step emptyTables (takeover ++ [claimAgain])).map
      (fun world => (world.db.openOf "sweep").map (·.holder)) = some ["second"] := by
    decide +kernel
  rw [replayed] at opened
  exact ⟨final, replayed, Option.some.inj opened,
    rows_agree_with_runs (· = "drain") emptyTables final (emptyTables_initial _)
      (reaches_takeover replayed)⟩

/-! ### Lost runs -/

/-- The run is open, and `later` is what became of it: closed as lost. -/
structure Lost (before after : Database) (run later : JobRun) : Prop where
  was : run ∈ before.runs
  opens : run.closed = none
  is : later ∈ after.runs
  same : later.id = run.id
  lost : ∃ since, later.closed = some (since, .lost)

/-- The row still names the run's holder, and its lease has lapsed. -/
def Lapsed (db : Database) (time : ℚ) (run : JobRun) : Prop :=
  ∃ expires, db.lease run.jobName = some (run.holder, expires) ∧ ∀ till ∈ expires, till < time

namespace Lost

variable {before after : Database} {run later : JobRun} {now : ℚ}

theorem mem (lost : Lost before after run later) : run ∈ before.openOf run.jobName :=
  Database.mem_openOf.mpr ⟨lost.was, rfl, lost.opens⟩

theorem not_open (lost : Lost before after run later) (ids : Keyed (·.id) after.runs) :
    run ∉ after.openOf run.jobName := by
  intro stands
  obtain ⟨listed, _, opens⟩ := Database.mem_openOf.mp stands
  obtain ⟨since, closed⟩ := lost.lost
  rw [ids.eq lost.is listed lost.same, opens] at closed
  cases closed

theorem not_kept (lost : Lost before after run later) (ids : Keyed (·.id) after.runs) :
    after.openOf run.jobName ≠ before.openOf run.jobName := by
  intro same
  exact lost.not_open ids (same ▸ lost.mem)

theorem held (lost : Lost before after run later) (ledger : Ledger lane before) :
    ∃ expires, before.lease run.jobName = some (run.holder, expires) := by
  obtain paired | none_ := ledger.fit run.jobName
  · cases paired with
    | idle _ none_ =>
        have listed := lost.mem
        rw [none_] at listed
        cases listed
    | busy other expires leased one =>
        have listed := lost.mem
        rw [one, List.mem_singleton] at listed
        exact ⟨expires, listed ▸ leased⟩
  · have listed := lost.mem
    rw [none_] at listed
    cases listed

theorem lapsed (lost : Lost before after run later) (ledger : Ledger lane before)
    (late : ∀ holder expires, before.lease run.jobName = some (holder, some expires) →
      expires < now) (past : now ≤ world.time) : Lapsed before world.time run := by
  obtain ⟨expires, leased⟩ := lost.held ledger
  refine ⟨expires, leased, fun till named => ?_⟩
  have stood : before.lease run.jobName = some (run.holder, some till) := by
    rw [leased, Option.mem_def.mp named]
  exact (late _ _ stood).trans_le past

theorem of_leaves (lost : Lost before after run later) (ledger : Ledger lane before)
    (settled : Ledger lane after) (left : Leaves before after now run.jobName)
    (past : now ≤ world.time) : Lapsed before world.time run := by
  cases left with
  | kept _ runs => exact absurd runs (lost.not_kept settled.ids)
  | lapsed _ _ late => exact lost.lapsed ledger late past

theorem of_grants {job holder : String} {ttlS : ℚ} {runId : Option Nat}
    (lost : Lost before after run later) (ledger : Ledger lane before)
    (call : Grants lane before after now job holder ttlS runId) (past : now ≤ world.time) :
    Lapsed before world.time run := by
  by_cases own : run.jobName = job
  · exact lost.lapsed ledger (fun one expires => own ▸ call.late one expires) past
  · exact lost.of_leaves ledger call.ledger (call.leaves run.jobName own) past

end Lost

/-- A release closes no run as lost. -/
theorem not_lost_release {db after : Database} {now : ℚ} {hold : Hold} {outcome : ReleaseOutcome}
    {due : Option DueKind} {error : Option String} {run later : JobRun}
    (ids : Keyed (·.id) db.runs) (done : db.release now hold outcome due error = some after) :
    ¬ Lost db after run later := by
  intro lost
  obtain ⟨since, closed⟩ := lost.lost
  have unclosed : later ∉ db.runs := by
    intro listed
    rw [ids.eq listed lost.was lost.same, lost.opens] at closed
    cases closed
  unfold Database.release at done
  split_ifs at done
  cases claimed : hold.claimed with
  | none =>
      rw [claimed] at done
      cases done
      exact unclosed lost.is
  | some mine =>
      rw [claimed] at done
      cases done
      obtain ⟨old, listed, rfl⟩ := mem_updateRows.mp lost.is
      split_ifs at closed with closes
      · cases closed
      · rw [if_neg closes] at unclosed
        exact unclosed listed

/-- In every run of calls, one of them closes a run as lost only when the row still names the run's
holder and its lease has lapsed. -/
theorem lost_only_when_lapsed (lane : String → Prop) (start world next : World)
    (initial : start.Initial lane) (reached : Reaches World.step (OffLanes lane) start world)
    (action : Action) (fit : OffLanes lane world action) (taken : world.step action = some next)
    (run later : JobRun) (lost : Lost world.db next.db run later) :
    Lapsed world.db world.time run := by
  have ledger := (initial.reaches reached).ledger
  have kept : next.db = world.db → Lapsed world.db world.time run := by
    intro same
    rw [same] at lost
    exact lost.of_leaves ledger ledger .refl (le_refl _)
  have passed : ∀ {after : Database} {now : ℚ}, Passes lane world.db after now →
      now ≤ world.time → world.write after = some next → Lapsed world.db world.time run := by
    intro after now call past landed
    obtain ⟨rfl, _⟩ := write_eq_some landed
    exact lost.of_leaves ledger call.ledger (call.leaves _) past
  cases action with
  | wait till =>
      obtain ⟨_, taken⟩ := Option.ite_none_right_eq_some.mp taken
      exact kept (by cases taken; rfl)
  | claim seen now sentAt job holder ttlS answered =>
      obtain ⟨⟨_, past, _⟩, taken⟩ := Option.ite_none_right_eq_some.mp taken
      cases claimed : world.db.claim now seen job holder ttlS with
      | none =>
          rw [claimed] at taken
          exact kept (by cases taken; rfl)
      | some granted =>
          rw [claimed] at taken
          obtain ⟨landed, wrote, rfl⟩ := Option.map_eq_some_iff.mp taken
          obtain ⟨rfl, _⟩ := write_eq_some wrote
          exact lost.of_grants ledger (grants_claim ledger claimed).2 past
  | acquire now sentAt job runner holder cadence ttlS answered =>
      obtain ⟨⟨_, past, _⟩, taken⟩ := Option.ite_none_right_eq_some.mp taken
      cases acquired : world.db.acquire now job runner holder cadence ttlS with
      | mk after granted =>
          rw [acquired] at taken
          cases granted with
          | false => exact passed (passes_acquire ledger acquired) past taken
          | true =>
              obtain ⟨landed, wrote, rfl⟩ := Option.map_eq_some_iff.mp taken
              obtain ⟨rfl, _⟩ := write_eq_some wrote
              exact lost.of_grants ledger (grants_acquire ledger fit acquired) past
  | renew hold sentAt answered =>
      obtain ⟨_, taken⟩ := Option.ite_none_right_eq_some.mp taken
      cases renewed : world.db.renew world.time hold.jobName hold.holder hold.ttlS with
      | none =>
          rw [renewed] at taken
          exact kept (by cases taken; rfl)
      | some after =>
          rw [renewed] at taken
          obtain ⟨landed, wrote, same⟩ := Option.map_eq_some_iff.mp taken
          obtain ⟨rfl, _⟩ := write_eq_some wrote
          have database : next.db = after := by
            rw [← same]
            split_ifs <;> rfl
          rw [database] at lost
          have call := renews ledger renewed
          exact absurd (call.runs _) (lost.not_kept call.ledger.ids)
  | fence hold =>
      obtain ⟨_, taken⟩ := Option.ite_none_right_eq_some.mp taken
      exact kept (by cases taken; rfl)
  | commit hold =>
      obtain ⟨_, taken⟩ := Option.ite_none_right_eq_some.mp taken
      exact kept (by cases taken; rfl)
  | rollback hold =>
      obtain ⟨_, taken⟩ := Option.ite_none_right_eq_some.mp taken
      exact kept (by cases taken; rfl)
  | stop hold =>
      obtain ⟨_, taken⟩ := Option.ite_none_right_eq_some.mp taken
      exact kept (by cases taken; rfl)
  | release hold now outcome due error =>
      obtain ⟨_, taken⟩ := Option.ite_none_right_eq_some.mp taken
      cases released : world.db.release now hold outcome due error with
      | none =>
          rw [released] at taken
          exact kept (by cases taken; rfl)
      | some after =>
          rw [released] at taken
          obtain ⟨rfl, _⟩ := write_eq_some taken
          exact absurd lost (not_lost_release ledger.ids released)
  | register now runner entry =>
      obtain ⟨past, taken⟩ := Option.ite_none_right_eq_some.mp taken
      exact passed (passes_register ledger runner fit) past taken
  | retire now runner names =>
      obtain ⟨past, taken⟩ := Option.ite_none_right_eq_some.mp taken
      exact passed (passes_retire ledger runner names) past taken
  | request now runner job by_ args =>
      obtain ⟨past, taken⟩ := Option.ite_none_right_eq_some.mp taken
      exact passed (passes_request ledger runner job by_ args) past taken
  | pause now job till =>
      obtain ⟨past, taken⟩ := Option.ite_none_right_eq_some.mp taken
      exact passed (passes_pause ledger job till) past taken
  | reapLost now runner names onHour =>
      obtain ⟨past, taken⟩ := Option.ite_none_right_eq_some.mp taken
      exact passed (passes_reapLost ledger world.locked runner names onHour) past taken
  | pruneRuns now days =>
      obtain ⟨past, taken⟩ := Option.ite_none_right_eq_some.mp taken
      exact passed (passes_pruneRuns ledger days) past taken

def sweepRun : JobRun :=
  { id := 0, jobName := "sweep", holder := "first", resource := some "portal", args := none
    requestedBy := none, closed := none }

theorem lost_only_when_lapsed_at_takeover :
    ∃ world next, replay World.step emptyTables takeover = some world ∧
      world.step claimAgain = some next ∧
        Lost world.db next.db sweepRun (sweepRun.close 200 .lost) ∧
          Lapsed world.db world.time sweepRun := by
  obtain ⟨world, replayed⟩ : ∃ world, replay World.step emptyTables takeover = some world :=
    Option.isSome_iff_exists.mp (by decide +kernel)
  have ran : ((replay World.step emptyTables takeover).bind fun world =>
      (world.step claimAgain).map fun next => (world.db.runs, next.db.runs.head?)) =
        some ([sweepRun], some (sweepRun.close 200 .lost)) := by decide +kernel
  rw [replayed] at ran
  obtain ⟨next, taken, runs⟩ := Option.map_eq_some_iff.mp ran
  obtain ⟨before, after⟩ := Prod.mk.inj runs
  have lost : Lost world.db next.db sweepRun (sweepRun.close 200 .lost) :=
    { was := before ▸ List.mem_singleton_self _
      opens := rfl
      is := List.mem_of_mem_head? after
      same := rfl
      lost := ⟨200, rfl⟩ }
  have reached : Reaches World.step (OffLanes (· = "drain")) emptyTables world :=
    reaches_of_replay replayed (by decide +kernel)
  exact ⟨world, next, replayed, taken, lost,
    lost_only_when_lapsed (· = "drain") emptyTables world next (emptyTables_initial _) reached
      claimAgain trivial taken sweepRun _ lost⟩

end World

end Sreality.Scraper.JobLease
