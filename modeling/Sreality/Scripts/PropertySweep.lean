import Mathlib.Algebra.Order.Field.Rat
import Sreality.Foundation.Runs

/-! The full property sweep (`main`, scripts/recompute_property_stats.py) over the runs of one
history, which hold the lease one after another. Runs are cut by their budget or killed anywhere,
and every step may be retried after its commit. `number` and `cycle` number the runs and the
cycles, and `batches` records what each committed batch recomputed; none of these is in the
database. -/

set_option autoImplicit false

namespace Sreality.Scripts.PropertySweep

open Sreality.Foundation

/-- `_CURSOR_MAX_AGE`. -/
def cursorMaxAge : ℚ := 36 * 60 * 60

structure DirtyRow where
  propertyId : Nat
  markedAt : ℚ
  deriving DecidableEq

/-- `app_settings.property_sweep_cursor`; the run that began a cycle numbers it. -/
structure Cursor where
  nextLo : Nat
  runs : Nat
  cycleStartedAt : ℚ
  cycle : Nat
  deriving DecidableEq

/-- The row as the table holds it: the settings page can leave any JSON in it. -/
inductive CursorRow where
  | saved (cursor : Cursor)
  | unreadable
  deriving DecidableEq

def CursorRow.saved? : CursorRow → Option Cursor
  | .saved cursor => some cursor
  | .unreadable => none

/-- `derived_artifacts` of `property_sweep`. -/
structure Stamp where
  stampedAt : ℚ
  cycle : Nat
  deriving DecidableEq

/-- A committed `_recompute_batch`. -/
structure Batch where
  number : Nat
  cycle : Nat
  recomputedAt : ℚ
  ids : List Nat
  deriving DecidableEq

/-- What a run holds once it knows where it starts; `ranges` are the batches to come. -/
structure Progress where
  maxId : Nat
  startLo : Nat
  runs : Nat
  cycleStartedAt : ℚ
  cycle : Nat
  ranges : List (Nat × Nat)
  deriving DecidableEq

inductive Phase where
  | attaching
  | bounded (maxId : Nat)
  | sweeping (progress : Progress)
  /-- The budget is spent before a batch. -/
  | stopping (progress : Progress)
  /-- The last batch is done and the childless properties are reset. -/
  | finalizing (progress : Progress)
  deriving DecidableEq

structure Run where
  number : Nat
  cutoff : ℚ
  batchSize : Nat
  phase : Phase
  deriving DecidableEq

structure World where
  now : ℚ
  properties : List Nat
  dirty : List DirtyRow
  cursor : Option CursorRow
  stamp : Option Stamp
  batches : List Batch
  runs : Nat
  run : Option Run

/-- `_batch_ranges`. -/
def batchRanges (maxId batchSize start : Nat) : List (Nat × Nat) :=
  if maxId < start ∨ batchSize < 1 then []
  else (List.range' start ((maxId - start) / batchSize + 1) batchSize).map fun lo =>
    (lo, lo + batchSize)

/-- `_resume_point` of the row `_read_sweep_cursor` finds. -/
def resumePoint (now : ℚ) (row : Option CursorRow) (maxId : Nat) : Option Cursor :=
  match row with
  | some (.saved cursor) =>
      if now - cursorMaxAge < cursor.cycleStartedAt ∧ 1 < cursor.nextLo ∧ cursor.nextLo ≤ maxId then
        some cursor
      else none
  | _ => none

/-- The id the next batch starts at, or one past the bound. -/
def Progress.reached (progress : Progress) : Nat :=
  match progress.ranges with
  | [] => progress.maxId + 1
  | (lo, _) :: _ => lo

namespace World

variable (world : World) (run : Run)

def phased (phase : Phase) : World :=
  { world with run := some { run with phase := phase } }

/-- `_max_property_id`. -/
def maxPropertyId : Nat :=
  world.properties.foldr max 0

/-- The run resumes the saved cycle, or begins one of its own at its cutoff. -/
def resume (maxId : Nat) : World :=
  let cursor := (resumePoint world.now world.cursor maxId).getD
    { nextLo := 1, runs := 0, cycleStartedAt := run.cutoff, cycle := run.number }
  world.phased run (.sweeping
    { maxId := maxId
      startLo := cursor.nextLo
      runs := cursor.runs
      cycleStartedAt := cursor.cycleStartedAt
      cycle := cursor.cycle
      ranges := batchRanges maxId run.batchSize cursor.nextLo })

/-- A batch commits: every property there is in its range. -/
def recompute (progress : Progress) (lo hi : Nat) : World :=
  { world with batches := world.batches ++
      [{ number := run.number
         cycle := progress.cycle
         recomputedAt := world.now
         ids := world.properties.filter fun id => decide (lo ≤ id ∧ id < hi) }] }

/-- `_CLEAR_DIRTY_SWEPT_SQL`. -/
def clearDirty (cutoff : ℚ) (lo hi : Nat) : List DirtyRow :=
  world.dirty.filter fun row =>
    !decide (row.markedAt ≤ cutoff ∧ lo ≤ row.propertyId ∧ row.propertyId < hi)

/-- The transaction of `_stop`. -/
def stop (progress : Progress) : World :=
  { world with
    dirty := world.clearDirty run.cutoff progress.startLo progress.reached
    cursor := some (.saved
      { nextLo := progress.reached, runs := progress.runs + 1,
        cycleStartedAt := progress.cycleStartedAt, cycle := progress.cycle }) }

/-- The transaction of `_finalize`. -/
def finalize (progress : Progress) : World :=
  { world with
    dirty := world.clearDirty run.cutoff progress.startLo (progress.maxId + 1)
    stamp := some { stampedAt := world.now, cycle := progress.cycle }
    cursor := none }

/-- The run is over. -/
def ended : World := { world with run := none }

end World

inductive Action where
  | wait (seconds : ℚ)
  | born (id : Nat)
  | mark (id : Nat) (markedAt : ℚ)
  | edit
  /-- A process that read its cutoff earlier is granted the lease. -/
  | begin_ (cutoff : ℚ) (batchSize : Nat)
  | readMaxId
  | readCursor
  | batch (lost : Bool)
  | budget
  | reconcile
  | stop (lost : Bool)
  | finalize (lost : Bool)
  | kill
  deriving DecidableEq

/-- What the run's statement does in its phase; where the answer of a commit is lost, the step is
retried. -/
def runStep (world : World) (run : Run) : Action → Option World
  | .readMaxId =>
      match run.phase with
      | .attaching => some (world.phased run (.bounded world.maxPropertyId))
      | _ => none
  | .readCursor =>
      match run.phase with
      | .bounded maxId => some (world.resume run maxId)
      | _ => none
  | .batch lost =>
      match run.phase with
      | .sweeping progress =>
          match progress.ranges with
          | [] => none
          | (lo, hi) :: rest =>
              let after := world.recompute run progress lo hi
              some (after.phased run
                (.sweeping (if lost then progress else { progress with ranges := rest })))
      | _ => none
  | .budget =>
      match run.phase with
      | .sweeping progress =>
          if progress.ranges = [] then none
          else if 1 < progress.reached then some (world.phased run (.stopping progress))
          else some world.ended
      | _ => none
  | .reconcile =>
      match run.phase with
      | .sweeping progress =>
          if progress.ranges = [] then some (world.phased run (.finalizing progress)) else none
      | _ => none
  | .stop lost =>
      match run.phase with
      | .stopping progress =>
          some (if lost then world.stop run progress else (world.stop run progress).ended)
      | _ => none
  | .finalize lost =>
      match run.phase with
      | .finalizing progress =>
          some (if lost then world.finalize run progress else (world.finalize run progress).ended)
      | _ => none
  | .kill => some world.ended
  | _ => none

def step (world : World) : Action → Option World
  | .wait seconds => if 0 ≤ seconds then some { world with now := world.now + seconds } else none
  | .born id =>
      if 0 < id ∧ id ∉ world.properties then
        some { world with properties := world.properties ++ [id] }
      else none
  | .mark id markedAt =>
      if id ∈ world.properties then
        some { world with dirty := world.dirty.filter (fun row => decide (row.propertyId ≠ id)) ++
          [{ propertyId := id, markedAt := markedAt }] }
      else none
  | .edit => some { world with cursor := some .unreadable }
  | .begin_ cutoff batchSize =>
      if world.run.isSome ∨ world.now < cutoff ∨ batchSize < 1 then none
      else some { world with
        runs := world.runs + 1
        run := some { number := world.runs, cutoff := cutoff, batchSize := batchSize,
                      phase := .attaching } }
  | action => world.run.bind fun run => runStep world run action

/-- Where the walk of an open run stands. -/
def Phase.progress : Phase → Option Progress
  | .sweeping progress | .stopping progress | .finalizing progress => some progress
  | .attaching | .bounded _ => none

/-- No property is born, its id drawn earlier, below what the open run has swept or below the
saved cursor. -/
def BornAbove (world : World) : Action → Prop
  | .born id =>
      (∀ run ∈ world.run, ∀ progress ∈ run.phase.progress, progress.reached ≤ id) ∧
        ∀ row ∈ world.cursor, ∀ cursor ∈ row.saved?, cursor.nextLo ≤ id
  | _ => True

instance decidableBornAbove (world : World) : ∀ action, Decidable (BornAbove world action)
  | .born id => inferInstanceAs (Decidable
      ((∀ run ∈ world.run, ∀ progress ∈ run.phase.progress, progress.reached ≤ id) ∧
        ∀ row ∈ world.cursor, ∀ cursor ∈ row.saved?, cursor.nextLo ≤ id))
  | .wait _ | .mark _ _ | .edit | .begin_ _ _ | .readMaxId | .readCursor | .batch _ | .budget
  | .reconcile | .stop _ | .finalize _ | .kill => inferInstanceAs (Decidable True)

end Sreality.Scripts.PropertySweep
