import Sreality.Scraper.GoneVerdict
import Sreality.Scraper.ListingWrite

/-! One run of the detail drain (`run_detail_drain`, scraper/portal_runner.py) that ends without
an exception. `run_resilient` has each operation succeed in the end, so an operation is one entry
of the log; `laps` counts the chunks claimed, and tells two claims of one advert apart. -/

set_option autoImplicit false

namespace Sreality.Scraper.DetailDrain

open DetailQueue (Claimed priorityNew priorityVerify)
open GoneVerdict (Verdict)

def detailBatchSize : Nat := 100
def minSample : Nat := 20
def maxGoneShare : ℚ := 1 / 2

def contentFreeError : String :=
  "content-free page: no price, area, params, images or description"

inductive Kind where
  | ok
  | gone
  | error
  deriving DecidableEq

/-- What `content_free` reads of a `ScrapedListing`; `params` and `image_urls` are its raw's. -/
structure ScrapedListing where
  priceCzk : Option Int
  usableArea : Option ℚ
  estateArea : Option ℚ
  description : Option String
  params : List (String × String)
  imageUrls : List String
  deriving DecidableEq

inductive Payload where
  | listing (listing : ScrapedListing)
  | other
  deriving DecidableEq

def contentFree : Payload → Bool
  | .other => false
  | .listing listing =>
      listing.priceCzk.isNone && listing.usableArea.isNone && listing.estateArea.isNone &&
        (listing.description.getD "").isEmpty && listing.params.isEmpty && listing.imageUrls.isEmpty

structure DrainItem where
  nativeId : String
  kind : Kind
  payload : Payload := .other
  error : Option String := none
  discoveredAt : Option ℚ := none
  deriving DecidableEq

/-! ### The breaker -/

structure GoneRateBreaker where
  exemptPriority : Int
  ingestFetched : Nat := 0
  ingestGone : Nat := 0
  tripped : Bool := false
  reason : String := ""
  deriving DecidableEq

namespace GoneRateBreaker

def count (breaker : GoneRateBreaker) (kind : Kind) : GoneRateBreaker :=
  { breaker with
    ingestFetched := breaker.ingestFetched + 1
    ingestGone := if kind = .gone then breaker.ingestGone + 1 else breaker.ingestGone }

def trip (breaker : GoneRateBreaker) : GoneRateBreaker :=
  { breaker with
    tripped := true
    reason := s!"gone-rate breaker: {breaker.ingestGone} of {breaker.ingestFetched} ingest " ++
      "fetches read gone this run -- the portal, not the market" }

/-- The breaker after one fetch verdict, and whether this is the one that trips it. -/
def observe (breaker : GoneRateBreaker) (priority : Int) (kind : Kind) : GoneRateBreaker × Bool :=
  if priority = breaker.exemptPriority ∨ breaker.tripped = true then (breaker, false)
  else
    let counted := breaker.count kind
    if minSample ≤ counted.ingestFetched ∧
        maxGoneShare * counted.ingestFetched < counted.ingestGone then
      (counted.trip, true)
    else (counted, false)

end GoneRateBreaker

/-! ### What the run does to the database -/

/-- A claim: the chunk it came with and the advert. -/
structure Claim where
  lap : Nat
  nativeId : String
  deriving DecidableEq

inductive Event where
  | claimed (claim : Claim)
  | wrote (claim : Claim)
  | completed (claim : Claim)
  | goneVerdict (claim : Claim) (verdict : Verdict)
  | recordedFailure (claim : Claim) (message : String)
  | failed (claim : Claim) (message : String)
  | released (claim : Claim)
  | tripped
  deriving DecidableEq

/-- What `write_details` returns. -/
structure Tally where
  new : Nat := 0
  updated : Nat := 0
  unchanged : Nat := 0
  imagesDiscovered : Nat := 0
  deriving DecidableEq

/-- The outcomes a tally counts. -/
def Tally.outcomes (tally : Tally) : Nat :=
  tally.new + tally.updated + tally.unchanged

structure Portal where
  writeDetails : List Event → List DrainItem → Tally

structure Counts extends Tally where
  gone : Nat := 0
  gonePending : Nat := 0
  errors : Nat := 0
  deriving DecidableEq

def Counts.handled (counts : Counts) : Nat :=
  counts.outcomes + counts.gone + counts.gonePending + counts.errors

def Counts.add (counts : Counts) (tally : Tally) : Counts :=
  { counts with
    new := counts.new + tally.new
    updated := counts.updated + tally.updated
    unchanged := counts.unchanged + tally.unchanged
    imagesDiscovered := counts.imagesDiscovered + tally.imagesDiscovered }

/-- A fetch as it completes: the item, `limiter.refused` when the loop looks at it, and what
`record_gone_verdict` will answer of it or fail with. -/
structure Fetched where
  item : DrainItem
  refused : Bool := false
  recorded : Except String Verdict := .ok .pending

/-- One turn of the loop: the deadline, the rows claimed with what `queue_priorities` knows of them,
the fetches in the order they complete, and `limiter.refused` after the last. -/
structure Chunk where
  overdue : Bool := false
  claimed : List Claimed
  priorities : String → Option Int
  fetched : List Fetched
  refused : Bool
  distinct : (claimed.map (·.nativeId)).Nodup
  complete : List.Perm (fetched.map (·.item.nativeId)) (claimed.map (·.nativeId))
  /-- A limiter that refuses goes on refusing. -/
  latched : (fetched.map (·.refused) ++ [refused]).Pairwise fun earlier later =>
    earlier = true → later = true

structure Drain where
  laps : Nat := 0
  totalClaimed : Nat := 0
  buffer : List (Claim × DrainItem) := []
  deferred : List Claim := []
  counts : Counts := {}
  breaker : GoneRateBreaker := { exemptPriority := priorityVerify }
  log : List Event := []

structure Settings where
  maxClaims : Option Nat
  dryRun : Bool

variable (portal : Portal) (settings : Settings)

namespace Drain

def note (drain : Drain) (events : List Event) : Drain :=
  { drain with log := drain.log ++ events }

def flushDrainBatch (drain : Drain) : Drain :=
  if drain.buffer = [] ∨ settings.dryRun = true then drain
  else
    let res := portal.writeDetails drain.log (drain.buffer.map Prod.snd)
    { drain with counts := drain.counts.add res }.note
      ((drain.buffer.map Prod.fst).map Event.wrote ++ (drain.buffer.map Prod.fst).map Event.completed)

def drainRecordFailure (drain : Drain) (claim : Claim) (message : String) : Drain :=
  drain.note [.recordedFailure claim message, .failed claim message]

/-- `counts["errors"] += 1` beside a recorded failure. -/
def countFailure (drain : Drain) (claim : Claim) (message : String) : Drain :=
  { drain with counts := { drain.counts with errors := drain.counts.errors + 1 } }.drainRecordFailure
    claim message

/-- The count and the log of a verdict recorded. -/
def countVerdict (drain : Drain) (claim : Claim) (verdict : Verdict) : Drain :=
  { drain with
    counts :=
      if verdict = Verdict.pending then
        { drain.counts with gonePending := drain.counts.gonePending + 1 }
      else { drain.counts with gone := drain.counts.gone + 1 } }.note [.goneVerdict claim verdict]

def observe (drain : Drain) (priority : Int) (kind : Kind) : Drain :=
  let observed := drain.breaker.observe priority kind
  { drain with breaker := observed.1 }.note (if observed.2 then [.tripped] else [])

def hold (drain : Drain) (claim : Claim) (item : DrainItem) : Drain :=
  let drain := { drain with buffer := drain.buffer ++ [(claim, item)] }
  if detailBatchSize ≤ drain.buffer.length then
    { drain.flushDrainBatch portal settings with buffer := [] }
  else drain

end Drain

/-- The item with its claim's `enqueued_at`; a page that states nothing becomes an error. -/
def Chunk.stamped (chunk : Chunk) (item : DrainItem) : DrainItem :=
  let item := { item with
    discoveredAt := (chunk.claimed.find? (·.nativeId = item.nativeId)).map (·.enqueuedAt) }
  if item.kind = .ok ∧ contentFree item.payload = true then
    { item with kind := .error, error := some contentFreeError }
  else item

/-- `item.error or "error"`. -/
def DrainItem.message (item : DrainItem) : String :=
  match item.error with
  | none | some "" => "error"
  | some message => message

namespace Drain

/-- The branch an item takes by its kind, the breaker having seen it. -/
def settle (drain : Drain) (claim : Claim) (item : DrainItem)
    (recorded : Except String Verdict) : Drain :=
  match item.kind with
  | .ok => drain.hold portal settings claim item
  | .gone =>
      if drain.breaker.tripped = true then drain.countFailure claim drain.breaker.reason
      else
        match recorded with
        | .ok verdict => drain.countVerdict claim verdict
        | .error flipError => drain.countFailure claim s!"gone flip failed: {flipError}"
  | .error => drain.countFailure claim item.message

/-- One completed fetch. -/
def receive (chunk : Chunk) (drain : Drain) (fetched : Fetched) : Drain :=
  let claim : Claim := ⟨drain.laps, fetched.item.nativeId⟩
  if fetched.item.kind = .error ∧ fetched.refused = true then
    { drain with deferred := drain.deferred ++ [claim] }
  else
    let item := chunk.stamped fetched.item
    let priority := (chunk.priorities item.nativeId).getD priorityNew
    (drain.observe priority item.kind).settle portal settings claim item fetched.recorded

/-- `claim_detail_batch` took the rows of the chunk. -/
def claim (drain : Drain) (chunk : Chunk) : Drain :=
  { drain with totalClaimed := drain.totalClaimed + chunk.claimed.length }.note
    (chunk.claimed.map fun row : Claimed => .claimed ⟨drain.laps, row.nativeId⟩)

def drainChunk (drain : Drain) (chunk : Chunk) : Drain :=
  let after := chunk.fetched.foldl (receive portal settings chunk) (drain.claim chunk)
  { after with laps := drain.laps + 1 }

def releaseClaims (drain : Drain) : Drain :=
  drain.note (drain.deferred.map .released)

def belowLimit (drain : Drain) : Bool :=
  settings.maxClaims.all fun limit => decide (drain.totalClaimed < limit)

/-- The loop, `chunks` being what its turns would claim. -/
def loop (drain : Drain) : List Chunk → Drain
  | [] => drain
  | chunk :: rest =>
      if drain.belowLimit settings = false ∨ chunk.overdue = true ∨ chunk.claimed = [] then drain
      else
        let after := drain.drainChunk portal settings chunk
        if chunk.refused = true then after.releaseClaims else after.loop rest

end Drain

def runDetailDrain (chunks : List Chunk) : Drain :=
  if settings.dryRun = true then {}
  else (({} : Drain).loop portal settings chunks).flushDrainBatch portal settings

/-! ### The account -/

/-- The rows of the first chunks. -/
def claims (chunks : List Chunk) (laps : Nat) : List Claim :=
  (chunks.take laps).zipIdx.flatMap fun (chunk, lap) =>
    chunk.claimed.map fun row => ⟨lap, row.nativeId⟩

def Event.claimed? : Event → Option Claim
  | .claimed claim => some claim
  | _ => none

/-- What the run has claimed. -/
def claimedIn (log : List Event) : List Claim := log.filterMap Event.claimed?

def Event.claim? : Event → Option Claim
  | .claimed claim | .wrote claim | .completed claim | .goneVerdict claim _
  | .recordedFailure claim _ | .failed claim _ | .released claim => some claim
  | .tripped => none

def Event.isGoneVerdict : Event → Bool
  | .goneVerdict _ _ => true
  | _ => false

/-- What the log says of a claim, in its order. -/
def eventsOf (log : List Event) (claim : Claim) : List Event :=
  log.filter fun event => decide (event.claim? = some claim)

/-- The whole of what happens to a claim once it is made. -/
inductive Fate (claim : Claim) : List Event → Prop where
  | written : Fate claim [.wrote claim, .completed claim]
  | gone (verdict : Verdict) : Fate claim [.goneVerdict claim verdict]
  | failure (message : String) :
      Fate claim [.recordedFailure claim message, .failed claim message]
  | released : Fate claim [.released claim]

/-- Claimed once, and then one fate. -/
def Met (claim : Claim) (events : List Event) : Prop :=
  ∃ fate, events = .claimed claim :: fate ∧ Fate claim fate

/-- The fetch of the claim ended in an error with the limiter refusing. -/
def RefusedError (chunks : List Chunk) (claim : Claim) : Prop :=
  ∃ chunk, chunks[claim.lap]? = some chunk ∧ ∃ fetched ∈ chunk.fetched,
    fetched.item.nativeId = claim.nativeId ∧ fetched.item.kind = .error ∧ fetched.refused = true

/-- Why the loop took no further chunk. -/
def Stopped (chunks : List Chunk) (drain : Drain) : Prop :=
  drain.belowLimit settings = false ∨
    (∀ chunk ∈ chunks[drain.laps]?, chunk.overdue = true ∨ chunk.claimed = []) ∨
      ∃ lap chunk, drain.laps = lap + 1 ∧ chunks[lap]? = some chunk ∧ chunk.refused = true

structure Accounted (chunks : List Chunk) (drain : Drain) : Prop where
  taken : claimedIn drain.log = claims chunks drain.laps
  total : (claimedIn drain.log).length = drain.totalClaimed
  stopped : settings.dryRun = false → Stopped settings chunks drain
  distinct : (claimedIn drain.log).Nodup
  fate : ∀ claim ∈ claimedIn drain.log, Met claim (eventsOf drain.log claim)
  noOther : ∀ event ∈ drain.log, ∀ claim ∈ event.claim?, claim ∈ claimedIn drain.log
  refused : ∀ claim, .released claim ∈ drain.log → RefusedError chunks claim
  quiet : drain.log.Pairwise fun earlier later =>
    earlier = .tripped → later.isGoneVerdict = false
  counted : drain.counts.handled =
    drain.totalClaimed -
      ((claimedIn drain.log).filter fun claim => decide (.released claim ∈ drain.log)).length

end Sreality.Scraper.DetailDrain
