import Mathlib.Algebra.Order.Field.Rat
import Mathlib.Data.Prod.Lex
import Mathlib.Data.Rat.Floor
import Sreality.Foundation.Binary
import Sreality.Foundation.Ranked
import Sreality.Foundation.Runs
import Sreality.Foundation.StableSort
import Sreality.Foundation.Tables

/-! The detail queue of one source (`scraper/db.py`): the walks that enqueue, the drains that
claim, complete, fail and release, each call one atomic step. `history` and `holds` are not
in the database: what happened to each row so far, and the claims the drains work under. -/

set_option autoImplicit false

namespace Sreality.Scraper.DetailQueue

open Sreality.Foundation

def priorityNew : Int := 0
def priorityVerify : Int := -2
def presenceRearmPerWalk : Nat := 50
def verifyReserve : Float64 := .ofRat binary64 (1 / 5)
def acquisitionReserve : Float64 := .ofRat binary64 (1 / 2)
def enqueueChunk : Nat := 1000
def giveUpThreshold : Nat := 5
def staleSeconds : ℚ := 30 * 60
def retentionSeconds : ℚ := 7 * 24 * 60 * 60
def maxPriceCzk : Int := 2000000000
def minPriceCzk : Int := 2

def sanePriceCzk : Option Int → Option Int
  | none => none
  | some price => if maxPriceCzk < price then none else if price < minPriceCzk then none else some price

/-- `listing_detail_queue` of the source, keyed by the native id. -/
structure QueueRow where
  nativeId : String
  detailRef : Option String
  indexPriceCzk : Option Int
  priority : Int
  enqueuedAt : ℚ
  claimedAt : Option ℚ := none
  attempts : Nat := 0
  givenUp : Bool := false
  lastError : Option String := none
  deriving DecidableEq

inductive Outcome where
  | written
  | gone
  | flipped
  | givenUp
  deriving DecidableEq

/-- `detail_queue_completions` of the source. -/
structure Completion where
  id : Nat
  nativeId : String
  priority : Int
  attempts : Nat
  enqueuedAt : ℚ
  claimedAt : Option ℚ
  completedAt : ℚ
  outcome : Outcome
  deriving DecidableEq

/-- What `enqueue_detail` is given for one advert. -/
structure Entry where
  nativeId : String
  detailRef : Option String
  indexPriceCzk : Option Int
  priority : Int
  deriving DecidableEq

/-- What `claim_detail_batch` returns for one row. -/
structure Claimed where
  nativeId : String
  detailRef : Option String
  indexPriceCzk : Option Int
  enqueuedAt : ℚ
  deriving DecidableEq

/-! ### What happened so far -/

inductive Event where
  | requested (nativeId : String)
  | armed (nativeId : String)
  | failed (nativeId : String)
  deriving DecidableEq

/-- The enqueues so far that inserted or changed the row of the advert. -/
def requests (history : List Event) (nativeId : String) : Nat :=
  history.count (.requested nativeId)

/-- The failures recorded since the row of the advert was inserted or last re-armed. -/
def failures (history : List Event) (nativeId : String) : Nat :=
  history.foldl (fun recorded event =>
    if event = .armed nativeId then 0
    else if event = .failed nativeId then recorded + 1
    else recorded) 0

/-- A claim a drain works under, from `claim_detail_batch` until it completes, fails or releases
the item; `request` counts the enqueues that made the row it was given. -/
structure Hold extends Claimed where
  drain : Nat
  claimedAt : ℚ
  request : Nat
  deriving DecidableEq

structure World where
  now : ℚ
  rows : List QueueRow
  completions : List Completion
  nextCompletion : Nat
  history : List Event
  holds : List Hold

namespace World

/-! ### The walks -/

/-- One row of the `INSERT … ON CONFLICT DO UPDATE … WHERE claimed_at IS NULL`. -/
def upsert (world : World) (entry : Entry) : World :=
  match world.rows.find? (·.nativeId = entry.nativeId) with
  | none =>
      { world with
        rows := world.rows ++
          [{ nativeId := entry.nativeId, detailRef := entry.detailRef
             indexPriceCzk := sanePriceCzk entry.indexPriceCzk, priority := entry.priority
             enqueuedAt := world.now }]
        history := world.history ++ [.armed entry.nativeId, .requested entry.nativeId] }
  | some row =>
      if row.claimedAt.isNone then
        { world with
          rows := updateRows (·.nativeId = entry.nativeId)
            (fun row =>
              { row with
                detailRef := entry.detailRef
                indexPriceCzk := sanePriceCzk entry.indexPriceCzk
                priority := max row.priority entry.priority })
            world.rows
          history := world.history ++ [.requested entry.nativeId] }
      else world

/-- The entries that reach the table: a chunk that names an advert twice raises, and the
chunks before it stay committed. -/
def accepted (entries : List Entry) : List Entry :=
  ((entries.toChunks enqueueChunk).takeWhile fun chunk =>
    decide (chunk.map (·.nativeId)).Nodup).flatten

def enqueueDetail (world : World) (entries : List Entry) : World :=
  (accepted entries).foldl upsert world

/-- The given-up rows `enqueue_presence_checks` gives five more tries. -/
def rearmed (rows : List QueueRow) : List QueueRow :=
  (sortedBy (·.enqueuedAt) (rows.filter fun row => row.givenUp && row.claimedAt.isNone)).take
    presenceRearmPerWalk

def rearm (world : World) : World :=
  let chosen := (rearmed world.rows).map (·.nativeId)
  { world with
    rows := updateRows (fun row => decide (row.nativeId ∈ chosen))
      (fun row =>
        { row with
          givenUp := false
          attempts := 0
          enqueuedAt := world.now
          priority := min row.priority priorityVerify })
      world.rows
    history := world.history ++ chosen.map .armed ++ chosen.map .requested }

/-- `enqueue_presence_checks`; `budget` is what `verify_budget` lets this walk queue. -/
def enqueuePresenceChecks (world : World) (candidates : List (String × Option String × Option Int))
    (budget : Nat) : World :=
  if candidates = [] then world
  else
    rearm (world.enqueueDetail ((candidates.take budget).map fun (nativeId, ref, price) =>
      { nativeId := nativeId, detailRef := ref, indexPriceCzk := price
        priority := priorityVerify }))

/-! ### The drains -/

def available (row : QueueRow) : Bool :=
  row.claimedAt.isNone && !row.givenUp

/-- `math.ceil(limit * reserve)`. -/
def shareOf (limit : Nat) (reserve : Float64) : Nat :=
  ⌈(.ofRat binary64 limit * reserve : Float64).value⌉₊

def acqLimit (limit : Nat) (reserve : Float64) : Nat :=
  if reserve.value ≤ 0 then 0 else min limit (max 1 (shareOf limit reserve))

def verLimit (limit : Nat) : Nat := min limit (max 1 (shareOf limit verifyReserve))

/-- The oldest rows never fetched. -/
def acq (rows : List QueueRow) (limit : Nat) (reserve : Float64) : List QueueRow :=
  firstBy (·.enqueuedAt) (acqLimit limit reserve)
    ((rows.filter available).filter fun row => decide (row.priority = priorityNew))

/-- The oldest presence checks, within what `acq` left. -/
def ver (rows : List QueueRow) (limit : Nat) (reserve : Float64) : List QueueRow :=
  firstBy (·.enqueuedAt) (min (verLimit limit) (limit - (acq rows limit reserve).length))
    ((rows.filter available).filter fun row => decide (row.priority = priorityVerify))

/-- The refresh rows, the checks `ver` did not take among them. -/
def rest (rows : List QueueRow) (limit : Nat) (reserve : Float64) : List QueueRow :=
  firstBy (fun row => toLex (-row.priority, row.enqueuedAt))
    (limit - (acq rows limit reserve).length - (ver rows limit reserve).length)
    ((rows.filter available).filter fun row => decide (row.priority ≠ priorityNew ∧
      row.nativeId ∉ (ver rows limit reserve).map (·.nativeId)))

/-- The rows one claim takes. -/
def claimBatch (rows : List QueueRow) (limit : Nat) (reserve : Float64) : List QueueRow :=
  acq rows limit reserve ++ ver rows limit reserve ++ rest rows limit reserve

def claimDetailBatch (world : World) (drain limit : Nat) (reserve : Float64) : World :=
  let batch := claimBatch world.rows limit reserve
  { world with
    rows := updateRows (fun row => decide (row.nativeId ∈ batch.map (·.nativeId)))
      (fun row => { row with claimedAt := some world.now }) world.rows
    holds := world.holds ++ batch.map fun row =>
      { nativeId := row.nativeId, detailRef := row.detailRef, indexPriceCzk := row.indexPriceCzk
        enqueuedAt := row.enqueuedAt, drain := drain, claimedAt := world.now
        request := requests world.history row.nativeId } }

end World

/-- The ledger line of a row: its values, the claim it had and the outcome. -/
def QueueRow.completion (row : QueueRow) (claimedAt : Option ℚ) (now : ℚ) (outcome : Outcome)
    (id : Nat) : Completion :=
  { id := id, nativeId := row.nativeId, priority := row.priority, attempts := row.attempts
    enqueuedAt := row.enqueuedAt, claimedAt := claimedAt, completedAt := now, outcome := outcome }

namespace World

/-- `INSERT INTO detail_queue_completions`, the ids from its sequence. -/
def log (world : World) (lines : List (Nat → Completion)) : World :=
  { world with
    completions := world.completions ++
      (lines.zipIdx world.nextCompletion).map fun line => line.1 line.2
    nextCompletion := world.nextCompletion + lines.length }

def completeDetail (world : World) (ids : List String) (outcome : Outcome) : World :=
  let deleted := world.rows.filter fun row => decide (row.nativeId ∈ ids)
  { world with rows := world.rows.filter fun row => decide (row.nativeId ∉ ids) }.log
    (deleted.map fun row : QueueRow => row.completion row.claimedAt world.now outcome)

/-- What `fail_detail` sets on a row. -/
def failed (error : String) (row : QueueRow) : QueueRow :=
  { row with
    attempts := row.attempts + 1
    givenUp := decide (giveUpThreshold ≤ row.attempts + 1)
    claimedAt := none
    lastError := some (String.ofList (error.toList.take 500)) }

def failDetail (world : World) (ids : List String) (error : String) : World :=
  let updated : List QueueRow := world.rows.filter fun row => decide (row.nativeId ∈ ids)
  let crossing := updated.filter fun row => (failed error row).givenUp && !row.givenUp
  { world with
    rows := updateRows (fun row => decide (row.nativeId ∈ ids)) (failed error) world.rows
    history := world.history ++ updated.map fun row : QueueRow => Event.failed row.nativeId }.log
    (crossing.map fun row : QueueRow => (failed error row).completion row.claimedAt world.now .givenUp)

def releaseClaims (world : World) (ids : List String) : World :=
  { world with
    rows := updateRows (fun row => decide (row.nativeId ∈ ids) && row.claimedAt.isSome)
      (fun row => { row with claimedAt := none }) world.rows }

def stale (now : ℚ) (row : QueueRow) : Bool :=
  !row.givenUp && row.claimedAt.any fun claimedAt => decide (claimedAt < now - staleSeconds)

def reclaimStaleClaims (world : World) : World :=
  { world with
    completions := world.completions.filter fun completion =>
      decide (¬ completion.completedAt < world.now - retentionSeconds)
    rows := updateRows (stale world.now) (fun row => { row with claimedAt := none }) world.rows }

/-! ### The runs -/

end World

inductive Action where
  | tick (seconds : ℚ)
  | enqueue (entries : List Entry)
  | presence (candidates : List (String × Option String × Option Int)) (budget : Nat)
  | claim (drain limit : Nat) (reserve : Float64)
  | complete (drain : Nat) (items : List Hold) (outcome : Outcome)
  | fail (drain : Nat) (items : List Hold) (error : String)
  | release (drain : Nat) (items : List Hold)
  | reclaim
  deriving DecidableEq

namespace World

/-- The items are claims the drain works under. -/
def Holding (world : World) (drain : Nat) (items : List Hold) : Prop :=
  ∀ item ∈ items, item ∈ world.holds ∧ item.drain = drain

instance (world : World) (drain : Nat) (items : List Hold) : Decidable (world.Holding drain items) :=
  inferInstanceAs (Decidable (∀ item ∈ items, item ∈ world.holds ∧ item.drain = drain))

/-- The drain is through with the items. -/
def drop (world : World) (items : List Hold) : World :=
  { world with holds := world.holds.filter fun hold => decide (hold ∉ items) }

/-- A drain completes, fails or releases what it holds; `given_up` is `fail_detail`'s to log. -/
def step (world : World) : Action → Option World
  | .tick seconds => if 0 ≤ seconds then some { world with now := world.now + seconds } else none
  | .enqueue entries => some (world.enqueueDetail entries)
  | .presence candidates budget => some (world.enqueuePresenceChecks candidates budget)
  | .claim drain limit reserve => some (world.claimDetailBatch drain limit reserve)
  | .complete drain items outcome =>
      if world.Holding drain items ∧ outcome ≠ .givenUp then
        some ((world.completeDetail (items.map (·.nativeId)) outcome).drop items)
      else none
  | .fail drain items error =>
      if world.Holding drain items then
        some ((world.failDetail (items.map (·.nativeId)) error).drop items)
      else none
  | .release drain items =>
      if world.Holding drain items then
        some ((world.releaseClaims (items.map (·.nativeId))).drop items)
      else none
  | .reclaim => some world.reclaimStaleClaims

structure Initial (world : World) : Prop where
  rows : world.rows = []
  completions : world.completions = []
  history : world.history = []
  holds : world.holds = []

/-! ### The contract -/

/-- One drain holds a row, unless the earlier claim was over the cutoff when the later took it. -/
def OneHolder (world : World) : Prop :=
  world.holds.Pairwise fun earlier later =>
    earlier.nativeId = later.nativeId → earlier.drain ≠ later.drain →
      earlier.claimedAt + staleSeconds < later.claimedAt

/-- A completing drain claimed each row it deletes after the last enqueue that inserted or
changed it. -/
def CompletesWhatItFetched (world : World) : Action → Prop
  | .complete drain items _ => ∀ row ∈ world.rows, row.nativeId ∈ items.map (·.nativeId) →
      ∃ item ∈ items, item ∈ world.holds ∧ item.drain = drain ∧ item.nativeId = row.nativeId ∧
        item.request = requests world.history row.nativeId
  | _ => True

def GivenUp (world : World) (nativeId : String) : Prop :=
  ∃ row ∈ world.rows, row.nativeId = nativeId ∧ row.givenUp = true

/-- The completions of an advert that a step logged. -/
def logged (world after : World) (nativeId : String) : List Completion :=
  after.completions.filter fun completion =>
    decide (world.nextCompletion ≤ completion.id ∧ completion.nativeId = nativeId)

/-- What a step owes to the ledger: a row leaves through one completion, and is given up at its
fifth failure since it was armed, which is logged once. -/
structure Accounted (world : World) (action : Action) (after : World) : Prop where
  leaves : ∀ row ∈ world.rows, (∀ other ∈ after.rows, other.nativeId ≠ row.nativeId) →
    ∃ drain items outcome id, action = .complete drain items outcome ∧
      world.logged after row.nativeId = [row.completion row.claimedAt world.now outcome id]
  givesUp : ∀ nativeId, ¬ world.GivenUp nativeId ∧ after.GivenUp nativeId ↔
    failures world.history nativeId = 4 ∧ failures after.history nativeId = 5
  logsIt : ∀ nativeId,
    (¬ world.GivenUp nativeId ∧ after.GivenUp nativeId →
      ((world.logged after nativeId).filter (·.outcome = .givenUp)).length = 1) ∧
    (¬ (¬ world.GivenUp nativeId ∧ after.GivenUp nativeId) →
      (world.logged after nativeId).filter (·.outcome = .givenUp) = [])

/-- A drain deletes only rows that still carry the stamp it claimed them with, and fails or
releases none that another drain claimed within the cutoff. -/
def Current (world : World) : Action → Prop
  | .complete _ items _ => ∀ row ∈ world.rows, row.nativeId ∈ items.map (·.nativeId) →
      ∃ item ∈ items, item.nativeId = row.nativeId ∧ row.claimedAt = some item.claimedAt
  | .fail _ items _ | .release _ items => ∀ row ∈ world.rows,
      row.nativeId ∈ items.map (·.nativeId) → ∀ claimedAt ∈ row.claimedAt,
        claimedAt + staleSeconds < world.now ∨
          ∃ item ∈ items, item.nativeId = row.nativeId ∧ item.claimedAt = claimedAt
  | _ => True

instance (world : World) (action : Action) : Decidable (world.Current action) := by
  unfold Current
  cases action <;> infer_instance

end World

end Sreality.Scraper.DetailQueue
