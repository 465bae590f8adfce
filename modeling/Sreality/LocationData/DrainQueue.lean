import Mathlib.Algebra.Order.Field.Rat
import Mathlib.Data.Prod.Lex
import Mathlib.Logic.Function.Basic
import Sreality.Foundation.Runs
import Sreality.Foundation.StableSort
import Sreality.Foundation.Tables

/-! The location queue (`dirty_locations`) under READ COMMITTED: claim writers
(location_data/claims_intake.py), windows of the corpus sweep and drain batches
(location_data/resolver/drain.py). A transaction holds the queue key of every listing it has
claimed or enqueued, and what it writes shows at its commit. -/

set_option autoImplicit false

namespace Sreality.LocationData.DrainQueue

open Sreality.Foundation

inductive Reason where
  | claimInsert
  | operatorEdit
  | fullSweep
  deriving DecidableEq

/-- `dirty_locations`. -/
structure DirtyRow where
  listingId : Nat
  enqueuedAt : ℚ
  reason : Reason
  attempts : Nat
  nextEligibleAt : ℚ
  deriving DecidableEq

def DirtyRow.bumped (row : DirtyRow) (began : ℚ) (reason : Reason) : DirtyRow :=
  { row with enqueuedAt := began, reason := reason, attempts := 0, nextEligibleAt := began }

/-- `BACKOFF_SECONDS`. -/
def backoffSeconds : List ℚ := [60, 300, 900, 3600, 21600]

def backoff (attempts : Nat) : ℚ :=
  backoffSeconds.getD (min attempts (backoffSeconds.length - 1)) 0

def DirtyRow.backedOff (row : DirtyRow) (began : ℚ) (attempts : Nat) : DirtyRow :=
  { row with attempts := row.attempts + 1, nextEligibleAt := began + backoff attempts }

variable {Claim Answer : Type}

/-- What one statement did to the claims of a listing. -/
structure Change (Claim : Type) where
  listingId : Nat
  reason : Reason
  inserted : List Claim
  deleted : List Claim

/-- `_run_batch`: the slice is claimed, then its claims are read, then each row is resolved or
backed off, in bulk or one by one. -/
inductive Phase (Claim Answer : Type) where
  | begun
  | claimed (rows : List DirtyRow)
  | read (rows : List DirtyRow) (slice : Nat → List Claim)
  | writing (rows : List DirtyRow) (slice : Nat → List Claim) (waiting : List DirtyRow)
      (resolved : List (DirtyRow × Answer)) (failed : List DirtyRow)

/-- An open transaction, with what only it sees; `began` is its `now()`. -/
inductive Transaction (Claim Answer : Type) where
  | producer (began : ℚ) (changes : List (Change Claim))
  | window (began : ℚ) (ids : List Nat)
  | batch (began : ℚ) (phase : Phase Claim Answer)

structure World (Claim Answer : Type) where
  now : ℚ
  claims : Nat → List Claim
  answers : Nat → Option Answer
  dirty : List DirtyRow
  locks : Nat → Option Nat
  opened : Nat → Option (Transaction Claim Answer)

/-- The rows a batch holds. -/
def Phase.rows : Phase Claim Answer → List DirtyRow
  | .begun => []
  | .claimed rows | .read rows _ | .writing rows _ _ _ _ => rows

/-- The listings whose queue key a transaction holds. -/
def Transaction.held : Transaction Claim Answer → List Nat
  | .producer _ changes => changes.map Change.listingId
  | .window _ ids => ids
  | .batch _ phase => phase.rows.map DirtyRow.listingId

section Claims

variable [DecidableEq Claim]

def Change.apply (change : Change Claim) (claims : List Claim) : List Claim :=
  let kept := claims.filter fun claim => decide (claim ∉ change.deleted)
  kept ++ change.inserted.filter fun claim => decide (claim ∉ kept)

/-- The claims a transaction sees: the committed ones under its own changes. -/
def applyChanges (claims : Nat → List Claim) (changes : List (Change Claim)) : Nat → List Claim :=
  changes.foldl (fun claims change =>
    Function.update claims change.listingId (change.apply (claims change.listingId))) claims

end Claims

/-- `INSERT … ON CONFLICT (listing_id) DO UPDATE`: the bump of an evidence producer. -/
def bump (began : ℚ) (dirty : List DirtyRow) (change : Change Claim) : List DirtyRow :=
  if dirty.any fun row => decide (row.listingId = change.listingId) then
    updateRows (fun row => decide (row.listingId = change.listingId))
      (fun row => row.bumped began change.reason) dirty
  else dirty ++ [{ listingId := change.listingId, enqueuedAt := began, reason := change.reason,
                   attempts := 0, nextEligibleAt := began }]

/-- `_SWEEP_SQL` on one listing without a row. -/
def enqueue (began : ℚ) (dirty : List DirtyRow) (listingId : Nat) : List DirtyRow :=
  if dirty.any fun row => decide (row.listingId = listingId) then dirty
  else dirty ++ [{ listingId := listingId, enqueuedAt := began, reason := .fullSweep,
                   attempts := 0, nextEligibleAt := began }]

/-- `_DELETE_ROWS_SQL`: gone unless enqueued past the mark the slice claimed. -/
def deleteRows (done : List DirtyRow) (dirty : List DirtyRow) : List DirtyRow :=
  dirty.filter fun row => !done.any fun claimed =>
    decide (claimed.listingId = row.listingId) && decide (row.enqueuedAt ≤ claimed.enqueuedAt)

/-- `_FAIL_ROW_SQL`. -/
def failRow (began : ℚ) (dirty : List DirtyRow) (claimed : DirtyRow) : List DirtyRow :=
  updateRows (fun row => decide (row.listingId = claimed.listingId) &&
      decide (row.enqueuedAt ≤ claimed.enqueuedAt))
    (fun row => row.backedOff began claimed.attempts) dirty

namespace World

variable (world : World Claim Answer) (tx : Nat)

/-- The transaction goes on. -/
def onward (transaction : Transaction Claim Answer) : World Claim Answer :=
  { world with opened := Function.update world.opened tx (some transaction) }

/-- The transaction is over, and its locks are released. -/
def ended : World Claim Answer :=
  { world with
    locks := fun id => if world.locks id = some tx then none else world.locks id
    opened := Function.update world.opened tx none }

/-- The transaction takes the queue keys of listings. -/
def locked (ids : List Nat) : World Claim Answer :=
  { world with locks := fun id => if id ∈ ids then some tx else world.locks id }

/-- `_CLAIM_SLICE_SQL`. -/
def claimSlice (began : ℚ) (size : Nat) : List DirtyRow :=
  (sortedBy (fun row : DirtyRow => toLex (decide (row.reason = .fullSweep),
      toLex (row.nextEligibleAt, row.listingId)))
    (world.dirty.filter fun row =>
      decide (row.nextEligibleAt ≤ began) && (world.locks row.listingId).isNone)).take size

/-- The writes of a batch show: answers, finished rows, backed-off rows. -/
def finishBatch (began : ℚ) (resolved : List (DirtyRow × Answer)) (failed : List DirtyRow) :
    World Claim Answer :=
  { world with
    answers := fun id =>
      ((resolved.find? fun done => done.1.listingId == id).map Prod.snd).or (world.answers id)
    dirty := failed.foldl (failRow began) (deleteRows (resolved.map Prod.fst) world.dirty) }

end World

inductive Action (Claim : Type) where
  | wait (seconds : ℚ)
  | beginProducer (tx : Nat)
  | write (tx : Nat) (change : Change Claim)
  | beginWindow (tx : Nat)
  | insert (tx : Nat) (listingId : Nat)
  | beginBatch (tx : Nat)
  | claim (tx : Nat) (size : Nat)
  | prefetch (tx : Nat)
  | writeSlice (tx : Nat)
  | fallBack (tx : Nat)
  | resolveOne (tx : Nat)
  | failOne (tx : Nat)
  | commit (tx : Nat)
  | rollback (tx : Nat)

variable (resolve : Nat → List Claim → Answer)

/-- What the resolver makes of a row of the slice. -/
def resolveRow (slice : Nat → List Claim) (row : DirtyRow) : DirtyRow × Answer :=
  (row, resolve row.listingId (slice row.listingId))

/-- A batch's next statement. -/
def batchStep (world : World Claim Answer) (tx : Nat) (began : ℚ) (phase : Phase Claim Answer) :
    Action Claim → Option (World Claim Answer)
  | .claim _ size =>
      match phase with
      | .begun =>
          let rows := world.claimSlice began size
          if rows = [] then some (world.ended tx)
          else some ((world.locked tx (rows.map DirtyRow.listingId)).onward tx
            (.batch began (.claimed rows)))
      | _ => none
  | .prefetch _ =>
      match phase with
      | .claimed rows => some (world.onward tx (.batch began (.read rows world.claims)))
      | _ => none
  | .writeSlice _ =>
      match phase with
      | .read rows slice => some (world.onward tx
          (.batch began (.writing rows slice [] (rows.map (resolveRow resolve slice)) [])))
      | _ => none
  | .fallBack _ =>
      match phase with
      | .read rows slice => some (world.onward tx (.batch began (.writing rows slice rows [] [])))
      | _ => none
  | .resolveOne _ =>
      match phase with
      | .writing rows slice (row :: waiting) resolved failed => some (world.onward tx (.batch began
          (.writing rows slice waiting (resolved ++ [resolveRow resolve slice row]) failed)))
      | _ => none
  | .failOne _ =>
      match phase with
      | .writing rows slice (row :: waiting) resolved failed => some (world.onward tx (.batch began
          (.writing rows slice waiting resolved (failed ++ [row]))))
      | _ => none
  | .commit _ =>
      match phase with
      | .writing _ _ [] resolved failed => some ((world.finishBatch began resolved failed).ended tx)
      | _ => none
  | _ => none

/-- The next statement of the transaction, or its end. -/
def transactionStep [DecidableEq Claim] (world : World Claim Answer) (tx : Nat) (action : Action Claim) :
    Transaction Claim Answer → Option (World Claim Answer)
  | .producer began changes =>
      match action with
      | .write _ change =>
          let seen := applyChanges world.claims changes change.listingId
          let made : Change Claim :=
            { change with
              inserted := change.inserted.filter fun claim => decide (claim ∉ seen)
              deleted := change.deleted.filter fun claim => decide (claim ∈ seen) }
          if world.locks change.listingId ≠ none ∧ world.locks change.listingId ≠ some tx then none
          -- Only a listing whose claims changed is enqueued, or one an operator edits.
          else if made.inserted = [] ∧ made.deleted = [] ∧ change.reason ≠ .operatorEdit then
            some world
          else some ((world.locked tx [change.listingId]).onward tx
            (.producer began (changes ++ [made])))
      | .commit _ => some ({ world with
          claims := applyChanges world.claims changes
          dirty := changes.foldl (bump began) world.dirty }.ended tx)
      | _ => none
  | .window began ids =>
      match action with
      | .insert _ listingId =>
          if world.dirty.any fun row => decide (row.listingId = listingId) then some world
          else if world.locks listingId ≠ none then none
          else some ((world.locked tx [listingId]).onward tx (.window began (ids ++ [listingId])))
      | .commit _ => some ({ world with dirty := ids.foldl (enqueue began) world.dirty }.ended tx)
      | _ => none
  | .batch began phase => batchStep resolve world tx began phase action

/-- A transaction begins under a free number. -/
def World.begin_ (world : World Claim Answer) (tx : Nat) (transaction : Transaction Claim Answer) :
    Option (World Claim Answer) :=
  if (world.opened tx).isSome then none else some (world.onward tx transaction)

def step [DecidableEq Claim] (world : World Claim Answer) (action : Action Claim) : Option (World Claim Answer) :=
  match action with
  | .wait seconds => if 0 ≤ seconds then some { world with now := world.now + seconds } else none
  | .beginProducer tx => world.begin_ tx (.producer world.now [])
  | .beginWindow tx => world.begin_ tx (.window world.now [])
  | .beginBatch tx => world.begin_ tx (.batch world.now .begun)
  | .rollback tx => (world.opened tx).map fun _ => world.ended tx
  | .write tx _ | .insert tx _ | .claim tx _ | .prefetch tx | .writeSlice tx | .fallBack tx
  | .resolveOne tx | .failOne tx | .commit tx =>
      (world.opened tx).bind (transactionStep resolve world tx action)

/-- A listing that has claims and no queue row is answered from exactly its claims. -/
def Answered (world : World Claim Answer) : Prop :=
  ∀ id, world.claims id ≠ [] → (∀ row ∈ world.dirty, row.listingId ≠ id) →
    world.answers id = some (resolve id (world.claims id))

/-- No two open batches hold one listing. -/
def Exclusive (world : World Claim Answer) : Prop :=
  ∀ tx other began began' phase phase', world.opened tx = some (.batch began phase) →
    world.opened other = some (.batch began' phase') →
      ∀ row ∈ phase.rows, ∀ row' ∈ phase'.rows, row.listingId = row'.listingId → tx = other

/-- A batch that fails leaves the rows it claimed as they were. -/
def FailsClean [DecidableEq Claim] (world : World Claim Answer) : Prop :=
  ∀ tx began phase after, world.opened tx = some (.batch began phase) →
    step resolve world (.rollback tx) = some after → ∀ row ∈ phase.rows, row ∈ after.dirty

end Sreality.LocationData.DrainQueue
