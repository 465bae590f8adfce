import Mathlib.Data.List.Dedup
import Sreality.Foundation.Tables
import Sreality.Scripts.PropertySweep

/-! One run of the dirty-property drain (`_drain_dirty`, scripts/recompute_property_stats.py) among
the transactions of the writers, each with its own start as the mark it leaves. Claim, recompute and
dequeue are three statements, and a transaction may commit between any two of them. `committed`,
`slices` and what they hold but for the claimed rows are not in the database: they record what
was visible when. -/

set_option autoImplicit false

namespace Sreality.Scripts.PropertyDrain

open Sreality.Foundation
open Sreality.Scripts.PropertySweep (DirtyRow)

/-- A transaction that marks the properties it wrote: `marked_at` is its start. -/
structure Writer where
  startedAt : ℚ
  properties : List Nat
  deriving DecidableEq

/-- A slice that was recomputed and dequeued: the transactions its claim and its recompute saw, and
the rows its dequeue removed. -/
structure Slice where
  claimed : List DirtyRow
  visible : List Writer
  computedFrom : List Writer
  removed : List DirtyRow
  deriving DecidableEq

inductive Phase where
  | claiming
  | claimed (rows : List DirtyRow) (visible : List Writer)
  | recomputed (rows : List DirtyRow) (visible computedFrom : List Writer)
  | returned
  /-- A statement of the slice failed. -/
  | failed
  deriving DecidableEq

structure World where
  pending : List Writer
  committed : List Writer
  dirty : List DirtyRow
  slices : List Slice
  total : Nat
  phase : Phase
  deriving DecidableEq

/-- `ON CONFLICT (property_id) DO UPDATE SET marked_at = now()`. -/
def markDirty (writer : Writer) (dirty : List DirtyRow) : List DirtyRow :=
  updateRows (fun row => writer.properties.contains row.propertyId)
      (fun row => { row with markedAt := writer.startedAt }) dirty ++
    (writer.properties.dedup.filter fun id =>
      !dirty.any fun row => decide (row.propertyId = id)).map fun id =>
        { propertyId := id, markedAt := writer.startedAt }

/-- `_CLAIM_DIRTY_SQL`: rows of one mark come in any order. -/
def Claims (cutoff : ℚ) (batchSize : Nat) (dirty rows : List DirtyRow) : Prop :=
  rows.Nodup ∧ (∀ row ∈ rows, row ∈ dirty ∧ row.markedAt ≤ cutoff) ∧
    rows.length = min batchSize (dirty.filter fun row => decide (row.markedAt ≤ cutoff)).length ∧
    (rows.Pairwise fun first later => first.markedAt ≤ later.markedAt) ∧
    ∀ row ∈ dirty, row.markedAt ≤ cutoff → row ∉ rows →
      ∀ taken ∈ rows, taken.markedAt ≤ row.markedAt

instance (cutoff : ℚ) (batchSize : Nat) (dirty rows : List DirtyRow) :
    Decidable (Claims cutoff batchSize dirty rows) := by
  unfold Claims
  infer_instance

/-- `_DELETE_DIRTY_SQL` takes the rows that carry the mark they were claimed with. -/
def dequeued (rows : List DirtyRow) (row : DirtyRow) : Bool :=
  rows.any fun claimed =>
    decide (row.propertyId = claimed.propertyId) && decide (row.markedAt = claimed.markedAt)

inductive Action where
  | commit (startedAt : ℚ)
  | claim (rows : List DirtyRow)
  | recompute
  | dequeue
  | fail
  deriving DecidableEq

/-- What a statement of the drain does in its phase, or the commit of a transaction at any time. -/
def step (cutoff : ℚ) (batchSize : Nat) (world : World) : Action → Option World
  | .commit startedAt =>
      match world.pending.find? fun writer => decide (writer.startedAt = startedAt) with
      | none => none
      | some writer =>
          some { world with
            pending := world.pending.filter fun other => decide (other.startedAt ≠ startedAt)
            committed := world.committed ++ [writer]
            dirty := markDirty writer world.dirty }
  | .claim rows =>
      match world.phase with
      | .claiming =>
          if Claims cutoff batchSize world.dirty rows then
            if rows = [] then some { world with phase := .returned }
            else some { world with phase := .claimed rows world.committed }
          else none
      | _ => none
  | .recompute =>
      match world.phase with
      | .claimed rows visible =>
          some { world with phase := .recomputed rows visible world.committed }
      | _ => none
  | .dequeue =>
      match world.phase with
      | .recomputed rows visible computedFrom =>
          some { world with
            dirty := world.dirty.filter fun row => !dequeued rows row
            slices := world.slices ++
              [{ claimed := rows, visible := visible, computedFrom := computedFrom
                 removed := world.dirty.filter (dequeued rows) }]
            total := world.total + rows.length
            phase := .claiming }
      | _ => none
  | .fail =>
      match world.phase with
      | .returned => none
      | .failed => none
      | _ => some { world with phase := .failed }

/-- The writers of a history and the drain's run, before any of them commits. -/
def start (writers : List Writer) : World where
  pending := writers
  committed := []
  dirty := []
  slices := []
  total := 0
  phase := .claiming

end Sreality.Scripts.PropertyDrain
