import Mathlib.Algebra.Order.Field.Rat
import Sreality.Foundation.Runs
import Sreality.Foundation.StableSort

/-! The broker dirty queue (`scripts/resolve_brokers.py`): writers whose changes and marks show
at their commit under the time of their start, and the full and incremental runs, each
statement reading what is committed. `content` counts the committed changes of a listing and
`attributed` is the content its last attribution read; neither count is in the database. -/

set_option autoImplicit false

namespace Sreality.Scripts.BrokerQueue

open Sreality.Foundation

/-- `dirty_broker_listings`. -/
structure DirtyRow where
  listingId : Nat
  markedAt : ℚ
  deriving DecidableEq

/-- `app_settings.broker_sweep_cursor`. -/
structure SweepCursor where
  lastId : Nat
  lapSwept : Nat
  deriving DecidableEq

/-- How far a run has come. `reads` holds what the open attribution transaction has read, by
listing; another session sees it when the chunk commits. -/
inductive Phase where
  /-- A full run reads the broker-bearing ids page by page. -/
  | collecting (last : Option Nat) (ids : List Nat)
  | collected (ids : List Nat)
  /-- It walks them chunk by chunk. -/
  | sweeping (total : Nat) (done rest : List Nat) (reads : List (Nat × Nat)) (lapSwept : Nat)
  /-- Attribution is over: complete, or cut by the budget inside the window of its ids. -/
  | swept (complete : Bool) (first last : Option Nat)
  /-- An incremental run has its cutoff. -/
  | claiming
  | claimed (ids : List Nat) (reads : List (Nat × Nat))
  | attributed (ids : List Nat)
  deriving DecidableEq

/-- The run that holds `broker_resolution_lock`. -/
structure Run where
  cutoff : ℚ
  batchSize : Nat
  phase : Phase
  deriving DecidableEq

structure World where
  now : ℚ
  listings : List Nat
  content : Nat → Nat
  attributed : Nat → Option Nat
  dirty : List DirtyRow
  cursor : Option SweepCursor
  writers : List (Nat × ℚ)
  run : Option Run

/-- `ON CONFLICT (listing_id) DO UPDATE SET marked_at = now()`. -/
def mark (dirty : List DirtyRow) (markedAt : ℚ) (listingIds : List Nat) : List DirtyRow :=
  dirty.filter (fun row => decide (row.listingId ∉ listingIds)) ++
    listingIds.eraseDups.map fun listingId => { listingId := listingId, markedAt := markedAt }

/-- `_rotate_from_cursor`: the ids past the last sweep's stopping point first. -/
def rotateFromCursor (ids : List Nat) (lastId : Option Nat) : List Nat :=
  match lastId with
  | none => ids
  | some lastId =>
      let head := ids.filter fun id => decide (id ≤ lastId)
      let tail := ids.filter fun id => decide (lastId < id)
      if tail = [] then ids else tail ++ head

/-- `_CLEAR_DIRTY_SWEPT_SQL`, or its wrapped form when the walk crossed the end of the ids. -/
def inWindow (first last listingId : Nat) : Bool :=
  if first ≤ last then decide (first ≤ listingId ∧ listingId ≤ last)
  else decide (first ≤ listingId ∨ listingId ≤ last)

/-- The rows `_finalize` clears, besides the cutoff. -/
def clears (complete : Bool) (first last : Option Nat) (listingId : Nat) : Bool :=
  if complete then true
  else
    match first, last with
    | some first, some last => inWindow first last listingId
    | _, _ => false

namespace World

variable (world : World)

/-- A run goes on in another phase. -/
def phased (run : Run) (phase : Phase) : World :=
  { world with run := some { run with phase := phase } }

/-- The statement of one source reads its part of the chunk as committed now. -/
def read (reads : List (Nat × Nat)) (part : List Nat) : List (Nat × Nat) :=
  reads ++ part.map fun listingId => (listingId, world.content listingId)

/-- The attribution transaction commits. -/
def attributeReads (reads : List (Nat × Nat)) : World :=
  { world with attributed := fun listingId =>
      (reads.lookup listingId).or (world.attributed listingId) }

/-- The writer commits: its changes and its marks, under the time it began. -/
def commit (writer : Nat) (listingIds : List Nat) : Option World :=
  (world.writers.lookup writer).map fun began =>
    { world with
      listings := world.listings ++
        listingIds.eraseDups.filter fun id => decide (id ∉ world.listings)
      content := fun id => if id ∈ listingIds then world.content id + 1 else world.content id
      dirty := mark world.dirty began listingIds
      writers := world.writers.filter fun open_ => decide (open_.1 ≠ writer) }

/-- The next page of `_broker_bearing_ids`; a short one is the last. -/
def page (run : Run) (last : Option Nat) (ids : List Nat) : World :=
  let found := (sortedIds (world.listings.filter fun id => last.all fun last =>
    decide (last < id))).take run.batchSize
  if found.length < run.batchSize then world.phased run (.collected (ids ++ found))
  else world.phased run (.collecting found.getLast? (ids ++ found))

/-- `_sweep_state` and `_rotate_from_cursor`. -/
def rotate (run : Run) (ids : List Nat) : World :=
  world.phased run (.sweeping ids.length []
    (rotateFromCursor ids (world.cursor.map SweepCursor.lastId)) []
    ((world.cursor.map SweepCursor.lapSwept).getD 0))

/-- `_record_sweep_progress`: the cursor moves, and with a closed lap the count restarts. -/
def sweepProgress (total : Nat) (done : List Nat) (lapSwept : Nat) : Option SweepCursor :=
  let lap := lapSwept + done.length
  match done.getLast? with
  | some lastId => some { lastId := lastId, lapSwept := if 0 < total ∧ total ≤ lap then 0 else lap }
  | none => world.cursor

/-- Attribution ends. -/
def endSweep (run : Run) (total : Nat) (done : List Nat) (complete : Bool) (lapSwept : Nat) :
    World :=
  { world with
    cursor := world.sweepProgress total done lapSwept
    run := some { run with phase := .swept complete done.head? done.getLast? } }

/-- `_CLAIM_DIRTY`. -/
def claim (run : Run) : World :=
  let rows := (sortedBy DirtyRow.markedAt
    (world.dirty.filter fun row => decide (row.markedAt ≤ run.cutoff))).take run.batchSize
  if rows = [] then { world with run := none }
  else world.phased run (.claimed (rows.map DirtyRow.listingId) [])

/-- `_DELETE_DIRTY` and the forms of `_CLEAR_DIRTY`. -/
def clear (run : Run) (cleared : Nat → Bool) (lost : Bool) : World :=
  { world with
    dirty := world.dirty.filter fun row =>
      !(decide (row.markedAt ≤ run.cutoff) && cleared row.listingId)
    run := if lost then some run else none }

/-- The run reads `now()` as its cutoff. -/
def start (batchSize : Nat) (phase : Phase) : Option World :=
  if world.run.isSome ∨ batchSize = 0 then none
  else some { world with run := some { cutoff := world.now, batchSize := batchSize,
                                       phase := phase } }

end World

inductive Action where
  | wait (seconds : ℚ)
  | beginWriter (writer : Nat)
  | commitWriter (writer : Nat) (listingIds : List Nat)
  | startFull (batchSize : Nat)
  | startIncremental (batchSize : Nat)
  | page
  | rotate
  | claim
  | attributeSource (part : List Nat)
  | commitChunk (lost : Bool)
  | endSweep
  | finalize (lost : Bool)
  | retry
  | kill

/-- The part is of the chunk, and its source's statement has not run in this attempt. -/
def unread (chunk : List Nat) (reads : List (Nat × Nat)) (part : List Nat) : Bool :=
  part.all fun id => decide (id ∈ chunk) && (reads.lookup id).isNone

/-- Every source's statement has run over the chunk. -/
def allRead (chunk : List Nat) (reads : List (Nat × Nat)) : Bool :=
  chunk.all fun id => (reads.lookup id).isSome

/-- What a run's statement does in its phase; where the answer of a commit is lost, the step is
retried. -/
def runStep (world : World) (run : Run) : Action → Option World
  | .page =>
      match run.phase with
      | .collecting last ids => some (world.page run last ids)
      | _ => none
  | .rotate =>
      match run.phase with
      | .collected ids => some (world.rotate run ids)
      | _ => none
  | .claim =>
      match run.phase with
      | .claiming => some (world.claim run)
      | _ => none
  | .attributeSource part =>
      match run.phase with
      | .sweeping total done rest reads lapSwept =>
          if unread (rest.take run.batchSize) reads part then
            some (world.phased run (.sweeping total done rest (world.read reads part) lapSwept))
          else none
      | .claimed ids reads =>
          if unread ids reads part then
            some (world.phased run (.claimed ids (world.read reads part)))
          else none
      | _ => none
  | .commitChunk lost =>
      match run.phase with
      | .sweeping total done rest reads lapSwept =>
          if rest = [] ∨ allRead (rest.take run.batchSize) reads = false then none
          else if lost then some ((world.attributeReads reads).phased run
            (.sweeping total done rest [] lapSwept))
          else some ((world.attributeReads reads).phased run
            (.sweeping total (done ++ rest.take run.batchSize) (rest.drop run.batchSize) []
              lapSwept))
      | .claimed ids reads =>
          if allRead ids reads = false then none
          else some ((world.attributeReads reads).phased run
            (if lost then .claimed ids [] else .attributed ids))
      | _ => none
  | .endSweep =>
      match run.phase with
      | .sweeping total done rest [] lapSwept =>
          -- The budget is asked after a chunk; with nothing left the walk is complete.
          if done = [] ∧ rest ≠ [] then none
          else some (world.endSweep run total done (decide (rest = [])) lapSwept)
      | _ => none
  | .finalize lost =>
      match run.phase with
      | .swept complete first last => some (world.clear run (clears complete first last) lost)
      | .attributed ids => some (world.clear run (fun id => decide (id ∈ ids)) lost)
      | _ => none
  | .retry =>
      match run.phase with
      | .collecting _ _ => some (world.phased run (.collecting none []))
      | .sweeping total done rest _ lapSwept =>
          some (world.phased run (.sweeping total done rest [] lapSwept))
      | .claimed ids _ => some (world.phased run (.claimed ids []))
      | _ => none
  | .kill => some { world with run := none }
  | _ => none

/-- One statement of a writer or of the run; a run starts where none holds the lock. -/
def step (world : World) : Action → Option World
  | .wait seconds => if 0 ≤ seconds then some { world with now := world.now + seconds } else none
  | .beginWriter writer =>
      if (world.writers.lookup writer).isSome then none
      else some { world with writers := (writer, world.now) :: world.writers }
  | .commitWriter writer listingIds => world.commit writer listingIds
  | .startFull batchSize => world.start batchSize (.collecting none [])
  | .startIncremental batchSize => world.start batchSize .claiming
  | action => world.run.bind fun run => runStep world run action

/-- Every listing without a queue row is attributed from its current content. -/
def Attributed (world : World) : Prop :=
  ∀ id ∈ world.listings, (∀ row ∈ world.dirty, row.listingId ≠ id) →
    world.attributed id = some (world.content id)

/-- The run has read the listing or passed over it, and may clear its row all the same. -/
def Run.passed (run : Run) (id : Nat) : Prop :=
  match run.phase with
  | .collecting last ids => (∃ bound ∈ last, id ≤ bound) ∧ id ∉ ids
  | .collected ids => id ∉ ids
  | .sweeping _ _ rest reads _ => id ∉ rest ∨ (reads.lookup id).isSome
  | .swept complete first last => clears complete first last id = true
  | .claiming => False
  | .claimed _ reads => (reads.lookup id).isSome
  | .attributed ids => id ∈ ids

instance decidablePassed (run : Run) (id : Nat) : Decidable (run.passed id) :=
  match run with
  | ⟨_, _, .collecting last ids⟩ =>
      inferInstanceAs (Decidable ((∃ bound ∈ last, id ≤ bound) ∧ id ∉ ids))
  | ⟨_, _, .collected ids⟩ => inferInstanceAs (Decidable (id ∉ ids))
  | ⟨_, _, .sweeping _ _ rest reads _⟩ =>
      inferInstanceAs (Decidable (id ∉ rest ∨ (reads.lookup id).isSome))
  | ⟨_, _, .swept complete first last⟩ =>
      inferInstanceAs (Decidable (clears complete first last id = true))
  | ⟨_, _, .claiming⟩ => inferInstanceAs (Decidable False)
  | ⟨_, _, .claimed _ reads⟩ => inferInstanceAs (Decidable ((reads.lookup id).isSome))
  | ⟨_, _, .attributed ids⟩ => inferInstanceAs (Decidable (id ∈ ids))

/-- No writer that began by the cutoff of the open run commits a change of a listing the run
has passed. -/
def OnTime (world : World) : Action → Prop
  | .commitWriter writer listingIds => ∀ began ∈ world.writers.lookup writer,
      ∀ run ∈ world.run, began ≤ run.cutoff → ∀ id ∈ listingIds, ¬ run.passed id
  | _ => True

instance decidableOnTime (world : World) : ∀ action, Decidable (OnTime world action)
  | .commitWriter writer listingIds => inferInstanceAs (Decidable
      (∀ began ∈ world.writers.lookup writer, ∀ run ∈ world.run, began ≤ run.cutoff →
        ∀ id ∈ listingIds, ¬ run.passed id))
  | .wait _ | .beginWriter _ | .startFull _ | .startIncremental _ | .page | .rotate | .claim
  | .attributeSource _ | .commitChunk _ | .endSweep | .finalize _ | .retry | .kill =>
      inferInstanceAs (Decidable True)

end Sreality.Scripts.BrokerQueue
