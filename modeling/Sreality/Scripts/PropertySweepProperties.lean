import Mathlib.Tactic.Linarith
import Sreality.Scripts.PropertySweep

/-! A completed sweep vouches for every property up to the bound it read, over the runs of its
cycle, unless one is born with an id drawn earlier below what the cycle has swept. -/

set_option autoImplicit false

namespace Sreality.Scripts.PropertySweep

open Sreality.Foundation

/-! ### The batches of a walk -/

theorem batchRanges_of_lt {maxId start : Nat} (beyond : maxId < start) (batchSize : Nat) :
    batchRanges maxId batchSize start = [] :=
  if_pos (.inl beyond)

theorem batchRanges_cons {maxId batchSize start : Nat} (within : start ≤ maxId)
    (positive : 0 < batchSize) :
    batchRanges maxId batchSize start =
      (start, start + batchSize) :: batchRanges maxId batchSize (start + batchSize) := by
  have open_ : ¬ (maxId < start ∨ batchSize < 1) := by omega
  rw [batchRanges, if_neg open_, List.range'_succ, List.map_cons]
  congr 1
  by_cases last : maxId < start + batchSize
  · have none_ : (maxId - start) / batchSize = 0 := Nat.div_eq_of_lt (by omega)
    rw [batchRanges_of_lt last, none_]
    rfl
  · have more : ¬ (maxId < start + batchSize ∨ batchSize < 1) := by omega
    have count : (maxId - start) / batchSize = (maxId - (start + batchSize)) / batchSize + 1 := by
      have split : maxId - start = maxId - (start + batchSize) + batchSize := by omega
      rw [split, Nat.add_div_right _ positive]
    rw [batchRanges, if_neg more, count]

/-- The walk stands at `next`, or one past the bound. -/
theorem reached_of_ranges {progress : Progress} {batchSize next : Nat} (positive : 0 < batchSize)
    (ranges : progress.ranges = batchRanges progress.maxId batchSize next) :
    progress.reached = min next (progress.maxId + 1) := by
  by_cases within : next ≤ progress.maxId
  · rw [batchRanges_cons within positive] at ranges
    simp only [Progress.reached, ranges]
    omega
  · rw [batchRanges_of_lt (not_le.mp within)] at ranges
    simp only [Progress.reached, ranges]
    omega

theorem saved_of_resumePoint {now : ℚ} {row : Option CursorRow} {maxId : Nat} {cursor : Cursor}
    (resumed : resumePoint now row maxId = some cursor) : row = some (.saved cursor) := by
  simp only [resumePoint] at resumed
  split at resumed
  · split_ifs at resumed
    cases resumed
    rfl
  · cases resumed

/-! ### What the batches recomputed -/

/-- A committed batch of the cycle recomputed the property, at or after the time. -/
def World.RecomputedIn (world : World) (cycle : Nat) (since : ℚ) (id : Nat) : Prop :=
  ∃ batch ∈ world.batches, batch.cycle = cycle ∧ since ≤ batch.recomputedAt ∧ id ∈ batch.ids

/-- A committed batch of the run recomputed the property. -/
def World.RecomputedBy (world : World) (number : Nat) (id : Nat) : Prop :=
  ∃ batch ∈ world.batches, batch.number = number ∧ id ∈ batch.ids

/-- Everything up to where the walk stands is recomputed: in its cycle, and from the run's own
start on by the run itself. -/
structure Progress.Sound (world : World) (number batchSize : Nat) (progress : Progress) :
    Prop where
  clock : progress.cycleStartedAt ≤ world.now
  numbered : progress.cycle < world.runs
  ranges : ∃ next, progress.ranges = batchRanges progress.maxId batchSize next
  covered : ∀ id ∈ world.properties, id < progress.reached →
    world.RecomputedIn progress.cycle progress.cycleStartedAt id
  own : ∀ id ∈ world.properties, progress.startLo ≤ id → id < progress.reached →
    world.RecomputedBy number id

/-- No completed cycle is walked on. -/
def World.Unstamped (world : World) (cycle : Nat) : Prop :=
  ∀ stamp, world.stamp = some stamp → stamp.cycle ≠ cycle

def Phase.Sound (world : World) (number batchSize : Nat) : Phase → Prop
  | .attaching | .bounded _ => world.Unstamped number
  | .sweeping progress | .stopping progress =>
      progress.Sound world number batchSize ∧ world.Unstamped progress.cycle
  | .finalizing progress => progress.Sound world number batchSize ∧ progress.ranges = []

structure Cursor.Sound (world : World) (cursor : Cursor) : Prop where
  clock : cursor.cycleStartedAt ≤ world.now
  numbered : cursor.cycle < world.runs
  covered : ∀ id ∈ world.properties, id < cursor.nextLo →
    world.RecomputedIn cursor.cycle cursor.cycleStartedAt id
  apart : world.Unstamped cursor.cycle

structure Run.Sound (world : World) (run : Run) : Prop where
  numbered : run.number < world.runs
  clock : run.cutoff ≤ world.now
  positive : 0 < run.batchSize
  phase : run.phase.Sound world run.number run.batchSize

theorem Run.Sound.at_ {world : World} {run : Run} (sound : run.Sound world) {phase : Phase}
    (at_ : run.phase = phase) : phase.Sound world run.number run.batchSize := by
  rw [← at_]
  exact sound.phase

structure Sound (world : World) : Prop where
  positive : ∀ id ∈ world.properties, 0 < id
  held : ∀ row ∈ world.dirty, row.propertyId ∈ world.properties
  cursor : ∀ cursor, world.cursor = some (.saved cursor) → cursor.Sound world
  stamp : ∀ stamp, world.stamp = some stamp → stamp.cycle < world.runs
  run : ∀ run, world.run = some run → run.Sound world

/-! ### What a later state keeps -/

/-- Time goes on, and nothing recomputed is forgotten; properties and the stamp stay. -/
structure World.Onward (world after : World) : Prop where
  now : world.now ≤ after.now
  properties : after.properties = world.properties
  stamp : after.stamp = world.stamp
  runs : world.runs ≤ after.runs
  batches : ∀ batch ∈ world.batches, batch ∈ after.batches

variable {world after : World} {number batchSize : Nat}

theorem World.RecomputedIn.onward {cycle id : Nat} {since : ℚ}
    (recomputed : world.RecomputedIn cycle since id)
    (kept : ∀ batch ∈ world.batches, batch ∈ after.batches) :
    after.RecomputedIn cycle since id := by
  obtain ⟨batch, held, facts⟩ := recomputed
  exact ⟨batch, kept batch held, facts⟩

theorem World.RecomputedBy.onward {number id : Nat} (recomputed : world.RecomputedBy number id)
    (kept : ∀ batch ∈ world.batches, batch ∈ after.batches) : after.RecomputedBy number id := by
  obtain ⟨batch, held, facts⟩ := recomputed
  exact ⟨batch, kept batch held, facts⟩

namespace World.Onward

theorem unstamped (onward : world.Onward after) {cycle : Nat} (open_ : world.Unstamped cycle) :
    after.Unstamped cycle := by
  intro stamp stamped
  rw [onward.stamp] at stamped
  exact open_ stamp stamped

theorem progress (onward : world.Onward after) {progress : Progress}
    (sound : progress.Sound world number batchSize) :
    progress.Sound after number batchSize where
  clock := le_trans sound.clock onward.now
  numbered := lt_of_lt_of_le sound.numbered onward.runs
  ranges := sound.ranges
  covered := by
    intro id listed below
    rw [onward.properties] at listed
    exact (sound.covered id listed below).onward onward.batches
  own := by
    intro id listed from_ below
    rw [onward.properties] at listed
    exact (sound.own id listed from_ below).onward onward.batches

theorem phase (onward : world.Onward after) {phase : Phase} (sound : phase.Sound world number batchSize) :
    phase.Sound after number batchSize := by
  cases phase with
  | attaching => exact onward.unstamped sound
  | bounded maxId => exact onward.unstamped sound
  | sweeping progress => exact ⟨onward.progress sound.1, onward.unstamped sound.2⟩
  | stopping progress => exact ⟨onward.progress sound.1, onward.unstamped sound.2⟩
  | finalizing progress => exact ⟨onward.progress sound.1, sound.2⟩

theorem run (onward : world.Onward after) {run : Run} (sound : run.Sound world) : run.Sound after where
  numbered := lt_of_lt_of_le sound.numbered onward.runs
  clock := le_trans sound.clock onward.now
  positive := sound.positive
  phase := onward.phase sound.phase

theorem cursor (onward : world.Onward after) {cursor : Cursor} (sound : cursor.Sound world) :
    cursor.Sound after where
  clock := le_trans sound.clock onward.now
  numbered := lt_of_lt_of_le sound.numbered onward.runs
  covered := by
    intro id listed below
    rw [onward.properties] at listed
    exact (sound.covered id listed below).onward onward.batches
  apart := onward.unstamped sound.apart

end World.Onward

namespace Sound

/-- A step that moves only the clock, the batches, the cursor and the run. -/
theorem onward (sound : Sound world) (moved : world.Onward after)
    (dirty : ∀ row ∈ after.dirty, row.propertyId ∈ world.properties)
    (cursor : ∀ cursor, after.cursor = some (.saved cursor) → cursor.Sound after)
    (run : ∀ run, after.run = some run → run.Sound after) : Sound after where
  positive := by
    rw [moved.properties]
    exact sound.positive
  held := by
    rw [moved.properties]
    exact dirty
  cursor := cursor
  stamp := by
    rw [moved.stamp]
    intro stamp stamped
    exact lt_of_lt_of_le (sound.stamp stamp stamped) moved.runs
  run := run

variable {run : Run}

theorem phased (sound : Sound world) (opened : world.run = some run) {phase : Phase}
    (fits : phase.Sound world run.number run.batchSize) : Sound (world.phased run phase) := by
  have moved : world.Onward (world.phased run phase) :=
    ⟨le_refl _, rfl, rfl, le_refl _, fun _ held => held⟩
  refine sound.onward moved sound.held (fun cursor saved => moved.cursor (sound.cursor cursor saved))
    fun later same => ?_
  cases same
  have before := sound.run run opened
  exact ⟨before.numbered, before.clock, before.positive, moved.phase fits⟩

theorem ended (sound : Sound world) : Sound world.ended := by
  have moved : world.Onward world.ended := ⟨le_refl _, rfl, rfl, le_refl _, fun _ held => held⟩
  exact sound.onward moved sound.held
    (fun cursor saved => moved.cursor (sound.cursor cursor saved)) fun _ opened => by cases opened

theorem wait (sound : Sound world) {seconds : ℚ} (forward : 0 ≤ seconds) :
    Sound { world with now := world.now + seconds } := by
  have moved : world.Onward { world with now := world.now + seconds } := by
    refine ⟨?_, rfl, rfl, le_refl _, fun _ held => held⟩
    change world.now ≤ world.now + seconds
    linarith
  exact sound.onward moved sound.held
    (fun cursor saved => moved.cursor (sound.cursor cursor saved))
    fun run opened => moved.run (sound.run run opened)

theorem edit (sound : Sound world) : Sound { world with cursor := some .unreadable } := by
  have moved : world.Onward { world with cursor := some .unreadable } :=
    ⟨le_refl _, rfl, rfl, le_refl _, fun _ held => held⟩
  exact sound.onward moved sound.held (fun _ saved => by cases saved)
    fun run opened => moved.run (sound.run run opened)

theorem mark (sound : Sound world) {id : Nat} {markedAt : ℚ} (listed : id ∈ world.properties) :
    Sound { world with
      dirty := world.dirty.filter (fun row => decide (row.propertyId ≠ id)) ++
        [{ propertyId := id, markedAt := markedAt }] } := by
  have moved : world.Onward { world with
      dirty := world.dirty.filter (fun row => decide (row.propertyId ≠ id)) ++
        [{ propertyId := id, markedAt := markedAt }] } :=
    ⟨le_refl _, rfl, rfl, le_refl _, fun _ held => held⟩
  refine sound.onward moved ?_ (fun cursor saved => moved.cursor (sound.cursor cursor saved))
    fun run opened => moved.run (sound.run run opened)
  intro row rowHeld
  cases List.mem_append.mp rowHeld with
  | inl old => exact sound.held row (List.mem_filter.mp old).1
  | inr new =>
      cases List.mem_singleton.mp new
      exact listed

theorem begin_ (sound : Sound world) {cutoff : ℚ} {batchSize : Nat} (earlier : cutoff ≤ world.now)
    (positive : 0 < batchSize) :
    Sound { world with
      runs := world.runs + 1
      run := some { number := world.runs, cutoff, batchSize, phase := .attaching } } := by
  have moved : world.Onward { world with
      runs := world.runs + 1
      run := some { number := world.runs, cutoff, batchSize, phase := .attaching } } :=
    ⟨le_refl _, rfl, rfl, Nat.le_succ _, fun _ held => held⟩
  refine sound.onward moved sound.held
    (fun cursor saved => moved.cursor (sound.cursor cursor saved)) fun run opened => ?_
  cases opened
  refine ⟨Nat.lt_succ_self _, earlier, positive, ?_⟩
  intro stamp stamped
  exact ne_of_lt (sound.stamp stamp stamped)

/-- The newborn is above what the open run has swept and above the cursor. -/
theorem born (sound : Sound world) {id : Nat} (drawn : 0 < id)
    (above : BornAbove world (.born id)) :
    Sound { world with properties := world.properties ++ [id] } := by
  have among : ∀ other ∈ world.properties ++ [id], other ∈ world.properties ∨ other = id := by
    intro other listed
    exact (List.mem_append.mp listed).imp_right List.mem_singleton.mp
  have walks : ∀ run, world.run = some run → ∀ progress, run.phase.progress = some progress →
      progress.Sound world run.number run.batchSize →
        progress.Sound { world with properties := world.properties ++ [id] } run.number
          run.batchSize := by
    intro run opened progress walking before
    have beyond := above.1 run opened progress walking
    refine ⟨before.clock, before.numbered, before.ranges, ?_, ?_⟩
    · intro other listed below
      cases among other listed with
      | inl old => exact before.covered other old below
      | inr new => omega
    · intro other listed from_ below
      cases among other listed with
      | inl old => exact before.own other old from_ below
      | inr new => omega
  refine ⟨?_, ?_, ?_, sound.stamp, ?_⟩
  · intro other listed
    cases among other listed with
    | inl old => exact sound.positive other old
    | inr new => exact new ▸ drawn
  · intro row rowHeld
    exact List.mem_append_left _ (sound.held row rowHeld)
  · intro cursor saved
    have before := sound.cursor cursor saved
    have beyond := above.2 _ saved cursor rfl
    refine ⟨before.clock, before.numbered, ?_, before.apart⟩
    intro other listed below
    cases among other listed with
    | inl old => exact before.covered other old below
    | inr new =>
        omega
  · intro run opened
    have before := sound.run run opened
    refine ⟨before.numbered, before.clock, before.positive, ?_⟩
    have fits := before.phase
    have carried := walks run opened
    cases phase : run.phase with
    | attaching =>
        rw [phase] at fits
        exact fits
    | bounded maxId =>
        rw [phase] at fits
        exact fits
    | sweeping progress =>
        rw [phase] at fits carried
        exact ⟨carried progress rfl fits.1, fits.2⟩
    | stopping progress =>
        rw [phase] at fits carried
        exact ⟨carried progress rfl fits.1, fits.2⟩
    | finalizing progress =>
        rw [phase] at fits carried
        exact ⟨carried progress rfl fits.1, fits.2⟩

/-- The run starts where the saved cursor stands, or at 1 in a cycle of its own. -/
theorem resume (sound : Sound world) (opened : world.run = some run) {maxId : Nat}
    (phase : run.phase = .bounded maxId) : Sound (world.resume run maxId) := by
  have before := sound.run run opened
  have free : world.Unstamped run.number := before.at_ phase
  refine sound.phased opened ?_
  cases resumed : resumePoint world.now world.cursor maxId with
  | none =>
      refine ⟨⟨before.clock, before.numbered, ⟨1, rfl⟩, ?_, ?_⟩, free⟩
      · intro id listed below
        rw [reached_of_ranges before.positive rfl] at below
        have drawn := sound.positive id listed
        simp only [Option.getD_none] at below
        omega
      · intro id listed from_ below
        rw [reached_of_ranges before.positive rfl] at below
        simp only [Option.getD_none] at from_ below
        omega
  | some cursor =>
      have saved := sound.cursor cursor (saved_of_resumePoint resumed)
      refine ⟨⟨saved.clock, saved.numbered, ⟨cursor.nextLo, rfl⟩, ?_, ?_⟩, saved.apart⟩
      · intro id listed below
        rw [reached_of_ranges before.positive rfl] at below
        simp only [Option.getD_some] at below
        exact saved.covered id listed (by omega)
      · intro id listed from_ below
        rw [reached_of_ranges before.positive rfl] at below
        simp only [Option.getD_some] at from_ below
        omega

theorem batch (sound : Sound world) (opened : world.run = some run) {progress : Progress}
    (phase : run.phase = .sweeping progress) {lo hi : Nat} {rest : List (Nat × Nat)}
    (next : progress.ranges = (lo, hi) :: rest) (lost : Bool) :
    Sound ((world.recompute run progress lo hi).phased run
      (.sweeping (if lost then progress else { progress with ranges := rest }))) := by
  have before := sound.run run opened
  obtain ⟨walk, free⟩ : progress.Sound world run.number run.batchSize ∧
      world.Unstamped progress.cycle := before.at_ phase
  have kept : ∀ batch ∈ world.batches, batch ∈ (world.recompute run progress lo hi).batches :=
    fun _ held => List.mem_append_left _ held
  have moved : world.Onward (world.recompute run progress lo hi) :=
    ⟨le_refl _, rfl, rfl, le_refl _, kept⟩
  have recomputed : Sound (world.recompute run progress lo hi) :=
    sound.onward moved sound.held (fun cursor saved => moved.cursor (sound.cursor cursor saved))
      fun run opened => moved.run (sound.run run opened)
  refine recomputed.phased opened ?_
  cases lost with
  | true => exact ⟨moved.progress walk, moved.unstamped free⟩
  | false =>
      change Phase.Sound _ _ _ (.sweeping { progress with ranges := rest })
      refine ⟨?_, moved.unstamped free⟩
      obtain ⟨start, ranges⟩ := walk.ranges
      have within : start ≤ progress.maxId := by
        by_contra beyond
        rw [batchRanges_of_lt (not_le.mp beyond), next] at ranges
        cases ranges
      have stands := reached_of_ranges before.positive ranges
      rw [next, batchRanges_cons within before.positive] at ranges
      cases ranges
      have later : ({ progress with
          ranges := batchRanges progress.maxId run.batchSize (lo + run.batchSize) } :
            Progress).reached = min (lo + run.batchSize) (progress.maxId + 1) :=
        reached_of_ranges before.positive rfl
      let committed : Batch :=
        { number := run.number
          cycle := progress.cycle
          recomputedAt := world.now
          ids := world.properties.filter fun id => decide (lo ≤ id ∧ id < lo + run.batchSize) }
      have held : committed ∈
          (world.recompute run progress lo (lo + run.batchSize)).batches :=
        List.mem_append_right _ (List.mem_singleton_self _)
      have inside : ∀ id ∈ world.properties, lo ≤ id → id < lo + run.batchSize →
          id ∈ committed.ids := by
        intro id listed from_ below
        exact List.mem_filter.mpr ⟨listed, decide_eq_true ⟨from_, below⟩⟩
      refine ⟨walk.clock, walk.numbered, ⟨_, rfl⟩, ?_, ?_⟩
      · intro id listed below
        cases lt_or_ge id lo with
        | inl early => exact (walk.covered id listed (by omega)).onward kept
        | inr from_ => exact ⟨committed, held, rfl, walk.clock, inside id listed from_ (by omega)⟩
      · intro id listed start below
        cases lt_or_ge id lo with
        | inl early => exact (walk.own id listed start (by omega)).onward kept
        | inr from_ => exact ⟨committed, held, rfl, inside id listed from_ (by omega)⟩

theorem stop (sound : Sound world) (opened : world.run = some run) {progress : Progress}
    (phase : run.phase = .stopping progress) : Sound (world.stop run progress) := by
  obtain ⟨walk, free⟩ : progress.Sound world run.number run.batchSize ∧
      world.Unstamped progress.cycle := (sound.run run opened).at_ phase
  have moved : world.Onward (world.stop run progress) :=
    ⟨le_refl _, rfl, rfl, le_refl _, fun _ held => held⟩
  refine sound.onward moved ?_ ?_ fun run opened => moved.run (sound.run run opened)
  · intro row rowHeld
    exact sound.held row (List.mem_filter.mp rowHeld).1
  · intro cursor saved
    cases saved
    exact ⟨walk.clock, walk.numbered, walk.covered, free⟩

theorem finalize (sound : Sound world) (opened : world.run = some run) {progress : Progress}
    (phase : run.phase = .finalizing progress) : Sound (world.finalize run progress) := by
  have before := sound.run run opened
  obtain ⟨walk, ended⟩ : progress.Sound world run.number run.batchSize ∧
      progress.ranges = [] := before.at_ phase
  refine ⟨sound.positive, ?_, fun _ saved => (by cases saved), ?_, ?_⟩
  · intro row rowHeld
    exact sound.held row (List.mem_filter.mp rowHeld).1
  · intro stamp stamped
    cases stamped
    exact walk.numbered
  · intro later same
    have again : later = run := Option.some.inj (same.symm.trans opened)
    rw [again]
    refine ⟨before.numbered, before.clock, before.positive, ?_⟩
    rw [phase]
    exact ⟨⟨walk.clock, walk.numbered, walk.ranges, walk.covered, walk.own⟩, ended⟩

theorem runStep (sound : Sound world) (opened : world.run = some run) {action : Action}
    (taken : runStep world run action = some after) : Sound after := by
  cases action with
  | readMaxId =>
      simp only [PropertySweep.runStep] at taken
      split at taken
      case h_1 phase =>
          cases taken
          have free : world.Unstamped run.number := (sound.run run opened).at_ phase
          exact sound.phased opened free
      case h_2 => cases taken
  | readCursor =>
      simp only [PropertySweep.runStep] at taken
      split at taken
      case h_1 maxId phase =>
          cases taken
          exact sound.resume opened phase
      case h_2 => cases taken
  | batch lost =>
      simp only [PropertySweep.runStep] at taken
      split at taken
      case h_1 progress phase =>
          split at taken
          case h_1 => cases taken
          case h_2 lo hi rest next =>
              cases taken
              exact sound.batch opened phase next lost
      case h_2 => cases taken
  | budget =>
      simp only [PropertySweep.runStep] at taken
      split at taken
      case h_1 progress phase =>
          split_ifs at taken
          · cases taken
            have walk : progress.Sound world run.number run.batchSize ∧
                world.Unstamped progress.cycle := (sound.run run opened).at_ phase
            exact sound.phased opened walk
          · cases taken
            exact sound.ended
      case h_2 => cases taken
  | reconcile =>
      simp only [PropertySweep.runStep] at taken
      split at taken
      case h_1 progress phase =>
          split_ifs at taken with done
          cases taken
          exact sound.phased opened ⟨((sound.run run opened).at_ phase).1, done⟩
      case h_2 => cases taken
  | stop lost =>
      simp only [PropertySweep.runStep] at taken
      split at taken
      case h_1 progress phase =>
          cases taken
          have stopped := sound.stop opened phase
          cases lost with
          | true => exact stopped
          | false => exact stopped.ended
      case h_2 => cases taken
  | finalize lost =>
      simp only [PropertySweep.runStep] at taken
      split at taken
      case h_1 progress phase =>
          cases taken
          have finalized := sound.finalize opened phase
          cases lost with
          | true => exact finalized
          | false => exact finalized.ended
      case h_2 => cases taken
  | kill =>
      cases taken
      exact sound.ended
  | _ => cases taken

theorem step (sound : Sound world) {action : Action} (above : BornAbove world action)
    (taken : step world action = some after) : Sound after := by
  cases action with
  | wait seconds =>
      simp only [PropertySweep.step] at taken
      split_ifs at taken with forward
      cases taken
      exact sound.wait forward
  | born id =>
      simp only [PropertySweep.step] at taken
      split_ifs at taken with drawn
      cases taken
      exact sound.born drawn.1 above
  | mark id markedAt =>
      simp only [PropertySweep.step] at taken
      split_ifs at taken with listed
      cases taken
      exact sound.mark listed
  | edit =>
      cases taken
      exact sound.edit
  | begin_ cutoff batchSize =>
      simp only [PropertySweep.step] at taken
      split_ifs at taken with refused
      cases taken
      push Not at refused
      exact sound.begin_ refused.2.1 refused.2.2
  | _ =>
      obtain ⟨run, opened, moved⟩ := Option.bind_eq_some_iff.mp taken
      exact sound.runStep opened moved

end Sound

/-! ### Runs -/

/-- No sweep has left anything yet. -/
structure World.Initial (world : World) : Prop where
  positive : ∀ id ∈ world.properties, 0 < id
  held : ∀ row ∈ world.dirty, row.propertyId ∈ world.properties
  cursor : ∀ cursor, world.cursor ≠ some (.saved cursor)
  stamp : world.stamp = none
  run : world.run = none

theorem World.Initial.sound (initial : world.Initial) : Sound world where
  positive := initial.positive
  held := initial.held
  cursor := fun cursor saved => absurd saved (initial.cursor cursor)
  stamp := fun stamp stamped => by rw [initial.stamp] at stamped; cases stamped
  run := fun run opened => by rw [initial.run] at opened; cases opened

/-- Where a run writes the completion stamp, its cycle has recomputed each property up to the
bound it read. -/
def StampVouches (world : World) : Prop :=
  ∀ run ∈ world.run, ∀ progress ∈ run.phase.progress, ∀ lost,
    (runStep world run (.finalize lost)).isSome → ∀ id ∈ world.properties, id ≤ progress.maxId →
      world.RecomputedIn progress.cycle progress.cycleStartedAt id

/-- The saved cursor skips no property that its cycle has not recomputed. -/
def CursorVouches (world : World) : Prop :=
  ∀ cursor, world.cursor = some (.saved cursor) → ∀ id ∈ world.properties, id < cursor.nextLo →
    world.RecomputedIn cursor.cycle cursor.cycleStartedAt id

/-- The stamp and the cursor are of two cycles. -/
def StampApart (world : World) : Prop :=
  ∀ stamp cursor, world.stamp = some stamp → world.cursor = some (.saved cursor) →
    stamp.cycle ≠ cursor.cycle

/-- A run clears rows of properties it has recomputed itself. -/
def ClearsOwn (world : World) : Prop :=
  ∀ run ∈ world.run, ∀ action after, runStep world run action = some after →
    ∀ row ∈ world.dirty, row ∉ after.dirty → world.RecomputedBy run.number row.propertyId

theorem mem_of_not_mem_clearDirty {cutoff : ℚ} {lo hi : Nat} {row : DirtyRow}
    (held : row ∈ world.dirty) (cleared : row ∉ world.clearDirty cutoff lo hi) :
    lo ≤ row.propertyId ∧ row.propertyId < hi := by
  by_contra outside
  apply cleared
  apply List.mem_filter.mpr
  refine ⟨held, ?_⟩
  rw [Bool.not_eq_true', decide_eq_false_iff_not]
  exact fun inside => outside inside.2

namespace Sound

variable {run : Run}

theorem stampVouches (sound : Sound world) : StampVouches world := by
  intro run opened progress walking lost enabled id listed within
  have before := sound.run run opened
  simp only [PropertySweep.runStep] at enabled
  split at enabled
  case h_1 final phase =>
      rw [phase] at walking
      cases walking
      obtain ⟨walk, ended⟩ : progress.Sound world run.number run.batchSize ∧
          progress.ranges = [] := before.at_ phase
      apply walk.covered id listed
      simp only [Progress.reached, ended]
      omega
  case h_2 => cases enabled

theorem clearsOwn (sound : Sound world) : ClearsOwn world := by
  intro run opened action after taken row held cleared
  have before := sound.run run opened
  have listed := sound.held row held
  have unchanged : after.dirty = world.dirty → world.RecomputedBy run.number row.propertyId :=
    fun same => absurd (same ▸ held) cleared
  cases action with
  | stop lost =>
      simp only [PropertySweep.runStep] at taken
      split at taken
      case h_1 progress phase =>
          cases taken
          obtain ⟨walk, _⟩ : progress.Sound world run.number run.batchSize ∧
              world.Unstamped progress.cycle := before.at_ phase
          have inside := mem_of_not_mem_clearDirty held (by cases lost <;> exact cleared)
          exact walk.own _ listed inside.1 inside.2
      case h_2 => cases taken
  | finalize lost =>
      simp only [PropertySweep.runStep] at taken
      split at taken
      case h_1 progress phase =>
          cases taken
          obtain ⟨walk, ended⟩ : progress.Sound world run.number run.batchSize ∧
              progress.ranges = [] := before.at_ phase
          have inside := mem_of_not_mem_clearDirty held (by cases lost <;> exact cleared)
          apply walk.own _ listed inside.1
          simp only [Progress.reached, ended]
          exact inside.2
      case h_2 => cases taken
  | kill =>
      cases taken
      exact unchanged rfl
  | readMaxId | readCursor | batch _ | budget | reconcile =>
      simp only [PropertySweep.runStep] at taken
      repeat' split at taken
      all_goals cases taken <;> exact unchanged rfl
  | _ => cases taken

end Sound

theorem sweep_vouches (start world : World) (initial : start.Initial)
    (reached : Reaches step BornAbove start world) :
    StampVouches world ∧ CursorVouches world ∧ StampApart world ∧ ClearsOwn world := by
  have sound : Sound world := reached.invariant Sound initial.sound
    fun _ _ _ sound above taken => sound.step above taken
  refine ⟨sound.stampVouches, ?_, ?_, sound.clearsOwn⟩
  · intro cursor saved
    exact (sound.cursor cursor saved).covered
  · intro stamp cursor stamped saved
    exact (sound.cursor cursor saved).apart stamp stamped

/-! ### A cycle over two runs, and a property born below the walk -/

def threeProperties : World where
  now := 100
  properties := [1, 2, 4]
  dirty := [{ propertyId := 1, markedAt := 90 }]
  cursor := some .unreadable
  stamp := none
  batches := []
  runs := 0
  run := none

theorem threeProperties_initial : threeProperties.Initial where
  positive := by decide
  held := by decide
  cursor := by
    intro cursor saved
    cases saved
  stamp := rfl
  run := rfl

/-- A killed run, a run the budget stops after one batch, and the run that resumes its cycle. -/
def twoRuns : List Action :=
  [.begin_ 95 1, .readMaxId, .readCursor, .batch true, .kill, .begin_ 98 2, .readMaxId,
    .readCursor, .batch false, .budget, .stop true, .stop false, .wait 86400, .begin_ 86000 2,
    .born 5, .readMaxId, .readCursor, .batch false, .born 9, .batch false, .reconcile]

theorem two_runs_vouch :
    ∃ final, replay step threeProperties twoRuns = some final ∧
      (step final (.finalize false)).isSome ∧ StampVouches final ∧ CursorVouches final ∧
        StampApart final ∧ ClearsOwn final := by
  obtain ⟨final, replayed⟩ : ∃ final, replay step threeProperties twoRuns = some final :=
    Option.isSome_iff_exists.mp (by decide +kernel)
  have enabled : (replay step threeProperties twoRuns).all fun final =>
      (step final (.finalize false)).isSome := by decide +kernel
  rw [replayed, Option.all_some] at enabled
  have above : allowedAll step BornAbove threeProperties twoRuns := by decide +kernel
  exact ⟨final, replayed, enabled,
    sweep_vouches threeProperties final threeProperties_initial (reaches_of_replay replayed above)⟩

/-- The id 3 was drawn before 4 and commits after the batch. -/
def bornBelow : List Action :=
  [.begin_ 95 10, .readMaxId, .readCursor, .batch false, .born 3, .reconcile]

theorem born_below_is_not_vouched :
    ¬ ∀ start world : World, start.Initial → Reaches step (fun _ _ => True) start world →
      StampVouches world ∧ CursorVouches world ∧ StampApart world ∧ ClearsOwn world := by
  intro all
  obtain ⟨final, replayed⟩ : ∃ final, replay step threeProperties bornBelow = some final :=
    Option.isSome_iff_exists.mp (by decide +kernel)
  have reached := reaches_of_replay replayed (allowedAll_true step threeProperties bornBelow)
  have facts : (replay step threeProperties bornBelow).all fun final =>
      (final.run.any fun run => (runStep final run (.finalize false)).isSome &&
        run.phase.progress.any fun progress => decide (3 ≤ progress.maxId)) &&
        decide (3 ∈ final.properties) && final.batches.all fun batch => decide (3 ∉ batch.ids) := by
    decide +kernel
  rw [replayed, Option.all_some, Bool.and_eq_true, Bool.and_eq_true, decide_eq_true_iff] at facts
  obtain ⟨⟨open_, listed⟩, missed⟩ := facts
  obtain ⟨run, opened, finalizes⟩ := (Option.any_eq_true _ _).mp open_
  rw [Bool.and_eq_true] at finalizes
  obtain ⟨progress, walking, within⟩ := (Option.any_eq_true _ _).mp finalizes.2
  obtain ⟨batch, held, _, _, recomputed⟩ :=
    (all threeProperties final threeProperties_initial reached).1 run opened progress walking false
      finalizes.1 3 listed (of_decide_eq_true within)
  exact of_decide_eq_true (List.all_eq_true.mp missed batch held) recomputed

end Sreality.Scripts.PropertySweep
