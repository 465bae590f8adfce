import Mathlib.Algebra.Order.Field.Rat
import Mathlib.Data.Prod.Lex
import Mathlib.Data.String.Basic
import Sreality.Foundation.Runs
import Sreality.Foundation.StableSort
import Sreality.Foundation.Tables

/-! The bodies-first pass of the intake (`drain_unmined_bodies`, location_data/claims_intake.py)
under one lane and source filter, beside the archive's appends (location_data/payloads.py), new
listings, contract activations and the other readers that stamp bodies. -/

set_option autoImplicit false

namespace Sreality.LocationData.BodiesPass

open Sreality.Foundation

/-- `location_page_kind`. -/
inductive PageKind where
  | index
  | detail
  | map
  | gazetteer
  | snapshot
  | archive
  | none_
  deriving DecidableEq

/-- `portal_raw_payloads`. -/
structure Payload where
  id : Nat
  source : String
  sourceIdNative : String
  pageKind : PageKind
  payloadSha256 : String
  httpStatus : Option Nat
  lastObservedAt : ℚ
  contractVersion : Option Nat
  deriving DecidableEq

namespace Payload

variable (payload : Payload)

def key : String × String := (payload.source, payload.sourceIdNative)

/-- An OK detail body. -/
def readable : Bool :=
  decide (payload.pageKind = .detail) &&
    payload.httpStatus.all fun status => decide (200 ≤ status) && decide (status ≤ 299)

def order : ℚ ×ₗ Nat := toLex (payload.lastObservedAt, payload.id)

/-- The conflict target of `_APPEND_SQL`. -/
def sameBody (other : Payload) : Bool :=
  decide (other.key = payload.key) && decide (other.pageKind = payload.pageKind) &&
    decide (other.payloadSha256 = payload.payloadSha256)

/-- `_STAMP_MINED_SQL` on a row. -/
def stamped (stamps : List (Nat × Nat)) : Payload :=
  match stamps.lookup payload.id with
  | some version => { payload with contractVersion := some version }
  | none => payload

def observed (at_ : ℚ) : Payload :=
  { payload with lastObservedAt := max at_ payload.lastObservedAt }

end Payload

/-- What `mine_bodies` makes of a body it asks for; an exception it raises ends the batch. -/
inductive Outcome where
  | mined
  | missed
  | refused
  | timedOut
  | scopeIncomplete
  deriving DecidableEq

/-- A body asked for by the pass of a run. -/
structure Attempt where
  run : Nat
  id : Nat
  outcome : Outcome
  deriving DecidableEq

/-- What `_bodies_cursor_stamp` writes: the position and the versions it is valid for. -/
structure Mark where
  cursor : Nat
  versions : List (String × Nat)
  deriving DecidableEq

/-- Where a run's pass is: its entries loaded, between batches, inside one, or out of the loop. -/
inductive Phase where
  | loaded
  | walking
  | windowed (window : List Nat)
  | mining (window : List Nat) (candidates : List (Nat × Nat))
  | ended (complete : Bool)
  deriving DecidableEq

structure Run where
  number : Nat
  pageSources : List String
  hasStore : Bool
  dryRun : Bool
  cap : Nat
  versions : List (String × Nat)
  after : Nat
  phase : Phase
  deriving DecidableEq

/-- What the runs of one cursor share; `pages` says whether a version of a portal's contract has
page entries for detail bodies. -/
structure Lane where
  sources : List String
  source : Option String
  pages : String → Nat → Bool

def Lane.wanted (lane : Lane) : List String :=
  match lane.source with
  | some source => [source]
  | none => lane.sources

/-- `contracts` are the active ones, `mark` the stamp of the newest finished run, `drawn` the ids
the archive's sequence gave out and `attempts` the record of what was asked for. -/
structure World where
  payloads : List Payload
  listings : List (String × String)
  contracts : List (String × Nat)
  mark : Option Mark
  run : Option Run
  drawn : List Nat
  runs : Nat
  attempts : List Attempt

namespace World

variable (world : World)

def active (source : String) : Option Nat := world.contracts.lookup source

/-- `_active_contract_versions`, the parts of the string in its order. -/
def versions : List (String × Nat) :=
  sortedBy (fun contract : String × Nat => toLex contract) world.contracts

/-- `p.contract_version IS DISTINCT FROM pc.version` under the join. -/
def unmined (payload : Payload) : Bool :=
  (world.active payload.source).any fun version => decide (payload.contractVersion ≠ some version)

/-- `_LATEST_BODY_ONLY`. -/
def latest (payload : Payload) : Bool :=
  !world.payloads.any fun other => other.readable && decide (other.key = payload.key) &&
    decide (payload.order < other.order)

/-- The page of a listing: its latest OK detail body. -/
def current (payload : Payload) : Bool :=
  payload.readable && world.latest payload && decide (payload.key ∈ world.listings)

/-- `_APPEND_SQL`, with the rows of the group that the retention evicts. -/
def append (row : Payload) (evicted : List Nat) : World :=
  if world.payloads.any row.sameBody then
    { world with
      payloads := updateRows row.sameBody (Payload.observed · row.lastObservedAt) world.payloads }
  else
    { world with
      payloads := (world.payloads.filter fun other =>
        !(decide (other.key = row.key) && decide (other.id ∈ evicted))) ++
          [{ row with contractVersion := none }]
      drawn := world.drawn ++ [row.id] }

/-- A portal's contract of a version is activated, or its active one retired. -/
def activate (source : String) (version : Option Nat) : World :=
  { world with
    contracts := (world.contracts.filter fun contract => decide (contract.1 ≠ source)) ++
      (version.map fun version => (source, version)).toList }

def stamp (stamps : List (Nat × Nat)) : World :=
  { world with payloads := world.payloads.map (Payload.stamped · stamps) }

def onward (run : Run) : World :=
  { world with run := some run }

/-- The pages another reader mines at the active versions. -/
def pagesMined (ids : List Nat) : List (Nat × Nat) :=
  (world.payloads.filter fun payload => decide (payload.id ∈ ids) && world.current payload &&
    world.unmined payload).filterMap fun payload =>
      (world.active payload.source).map fun version => (payload.id, version)

end World

namespace Lane

variable (lane : Lane) (world : World)

/-- The portal is of the run, and its active contract has page entries. -/
def capable (source : String) : Bool :=
  decide (source ∈ lane.wanted) && (world.active source).any (lane.pages source)

/-- `_UNMINED_WINDOW_SQL`. -/
def window (run : Run) : List Nat :=
  (sortedIds ((world.payloads.filter fun payload =>
    decide (run.after < payload.id) && payload.readable &&
      decide (payload.source ∈ run.pageSources) &&
        lane.source.all (fun source => decide (payload.source = source)) &&
          world.unmined payload).map Payload.id)).take run.cap

end Lane

/-- `_UNMINED_BODIES_SQL` and `_body_candidate`: the ids worth a round trip, with the version a
stamp will carry. -/
def World.candidates (world : World) (run : Run) (window : List Nat) : List (Nat × Nat) :=
  (world.payloads.filter fun payload => decide (payload.id ∈ window) && world.current payload &&
    world.unmined payload && decide (payload.source ∈ run.pageSources)).filterMap fun payload =>
      (world.active payload.source).map fun version => (payload.id, version)

/-- `_bodies_resume_point`. -/
def World.resumePoint (world : World) : Nat :=
  match world.mark with
  | some mark => if mark.versions = world.versions then mark.cursor else 0
  | none => 0

/-- `_bodies_cursor_stamp`; a dry run has no batch row. -/
def Run.stampOver (run : Run) (mark : Option Mark) : Option Mark :=
  if run.dryRun then mark
  else if run.after = 0 then none
  else some { cursor := run.after, versions := run.versions }

def batchCursor (window : List Nat) : Nat := window.foldr max 0

/-- The cursor goes past the window; a dry run takes one batch, and a short window is the end of
the keyset. -/
def Run.afterBatch (run : Run) (window : List Nat) : Run :=
  { run with
    after := batchCursor window
    phase := if run.dryRun then .ended false
      else if window.length < run.cap then .ended true else .walking }

/-- The batch's transaction closes with its stamps. -/
def World.closeBatch (world : World) (run : Run) (window : List Nat)
    (asked : List ((Nat × Nat) × Outcome)) : World :=
  let stamps := (asked.filter fun ask => decide (ask.2 = .mined)).map Prod.fst
  let written := if run.dryRun then world else world.stamp stamps
  { written with
    attempts := world.attempts ++ asked.map fun ask =>
      { run := run.number, id := ask.1.1, outcome := ask.2 }
    run := some (run.afterBatch window) }

inductive Action where
  | append (row : Payload) (evicted : List Nat)
  | list (source sourceIdNative : String)
  | activate (source : String) (version : Option Nat)
  /-- The listing scan, or the pass of the other lane, mines pages. -/
  | mineElsewhere (ids : List Nat)
  | begin_ (hasStore dryRun : Bool) (cap : Nat)
  | resume
  | readWindow
  | readBodies
  | commit (outcomes : List Outcome)
  /-- A lost lock rolls the batch back. -/
  | retry
  /-- The budget or the cap on mined bodies is reached. -/
  | stop
  /-- The run's batch row is stamped, as ok, stopped or failed. -/
  | finish
  | kill
  deriving DecidableEq

/-- The pass's own statements. -/
def passStep (lane : Lane) (world : World) (run : Run) : Action → Option World
  | .resume =>
      match run.phase with
      | .loaded =>
          if run.hasStore = false ∨ run.pageSources = [] then
            some (world.onward { run with phase := .ended true })
          else some (world.onward { run with
            versions := world.versions, after := world.resumePoint, phase := .walking })
      | _ => none
  | .readWindow =>
      match run.phase with
      | .walking =>
          if lane.window world run = [] then
            some (world.onward { run with phase := .ended true })
          else some (world.onward { run with phase := .windowed (lane.window world run) })
      | _ => none
  | .readBodies =>
      match run.phase with
      | .windowed window => some (world.onward { run with
          phase := .mining window (world.candidates run window) })
      | _ => none
  | .commit outcomes =>
      match run.phase with
      | .mining window candidates =>
          if outcomes.length = candidates.length then
            some (world.closeBatch run window (candidates.zip outcomes))
          else none
      | _ => none
  | .retry =>
      match run.phase with
      | .windowed _ | .mining _ _ => some (world.onward { run with phase := .walking })
      | _ => none
  | .stop =>
      match run.phase with
      | .walking => some (world.onward { run with phase := .ended false })
      | _ => none
  | .finish => some { world with mark := run.stampOver world.mark, run := none }
  | .kill => some { world with run := none }
  | _ => none

def step (lane : Lane) (world : World) : Action → Option World
  | .append row evicted =>
      if row.id = 0 ∨ row.id ∈ world.drawn then none else some (world.append row evicted)
  | .list source sourceIdNative =>
      some { world with listings := world.listings ++ [(source, sourceIdNative)] }
  | .activate source version => some (world.activate source version)
  | .mineElsewhere ids => some (world.stamp (world.pagesMined ids))
  | .begin_ hasStore dryRun cap =>
      if world.run = none ∧ 0 < cap ∧ ∀ source ∈ lane.wanted, (world.active source).isSome then
        some { world with
          runs := world.runs + 1
          run := some {
            number := world.runs + 1
            pageSources := lane.wanted.filter (lane.capable world)
            hasStore := hasStore
            dryRun := dryRun
            cap := cap
            versions := []
            after := 0
            phase := .loaded } }
      else none
  | action => world.run.bind fun run => passStep lane world run action

/-- The bodies an open batch is mining. -/
def Run.candidates (run : Run) : List (Nat × Nat) :=
  match run.phase with
  | .mining _ candidates => candidates
  | _ => []

/-! ### What lies behind a cursor -/

/-- The walk will still ask for a body of the id: it is past the cursor, or in the open batch, and
past the batch's window only when that window is full. -/
def Phase.asks (active : Option Nat) (cap after id : Nat) : Phase → Prop
  | .loaded => False
  | .walking | .ended _ => after < id
  | .windowed window => id ∈ window ∨ cap ≤ window.length ∧ ∀ other ∈ window, other < id
  | .mining window candidates =>
      (∃ candidate ∈ candidates, candidate.1 = id ∧ active = some candidate.2) ∨
        cap ≤ window.length ∧ ∀ other ∈ window, other < id

instance (active : Option Nat) (cap after id : Nat) :
    ∀ phase : Phase, Decidable (phase.asks active cap after id)
  | .loaded => inferInstanceAs (Decidable False)
  | .walking | .ended _ => inferInstanceAs (Decidable (after < id))
  | .windowed window => inferInstanceAs (Decidable
      (id ∈ window ∨ cap ≤ window.length ∧ ∀ other ∈ window, other < id))
  | .mining window candidates => inferInstanceAs (Decidable
      ((∃ candidate ∈ candidates, candidate.1 = id ∧ active = some candidate.2) ∨
        cap ≤ window.length ∧ ∀ other ∈ window, other < id))

namespace World

variable (world : World)

/-- An attempt left the body unstamped. -/
def skipped (id : Nat) : Prop :=
  ∃ attempt ∈ world.attempts, attempt.id = id ∧ attempt.outcome ≠ .mined

instance (id : Nat) : Decidable (world.skipped id) :=
  inferInstanceAs (Decidable (∃ attempt ∈ world.attempts, _))

def settled (payload : Payload) : Prop :=
  world.unmined payload = false ∨ world.skipped payload.id

instance (payload : Payload) : Decidable (world.settled payload) :=
  inferInstanceAs (Decidable (_ ∨ _))

/-- Mined, or asked for by the run on its way to its cursor. -/
def handled (run : Run) (payload : Payload) : Prop :=
  world.unmined payload = false ∨ payload.id ≤ run.after ∧ ∃ attempt ∈ world.attempts,
    attempt.run = run.number ∧ attempt.id = payload.id ∧ attempt.outcome ≠ .mined

instance (run : Run) (payload : Payload) : Decidable (world.handled run payload) :=
  inferInstanceAs (Decidable (_ ∨ _))

def ahead (run : Run) (payload : Payload) : Prop :=
  run.phase.asks (world.active payload.source) run.cap run.after payload.id

instance (run : Run) (payload : Payload) : Decidable (world.ahead run payload) :=
  inferInstanceAs (Decidable (run.phase.asks _ _ _ _))

end World

/-- The run has read its cursor, and what it mines it writes. -/
def Run.live (run : Run) : Prop :=
  run.phase ≠ .loaded ∧ run.hasStore = true ∧ run.dryRun = false

instance (run : Run) : Decidable run.live := inferInstanceAs (Decidable (_ ∧ _))

/-- Neither the newest stamp nor the open run has come past the body and left it. -/
def KeptBehind (lane : Lane) (world : World) (payload : Payload) : Prop :=
  (∀ mark ∈ world.mark, mark.versions = world.versions →
    lane.capable world payload.source = true → payload.id ≤ mark.cursor → world.settled payload) ∧
  ∀ run ∈ world.run, run.live → payload.source ∈ run.pageSources →
    world.handled run payload ∨ world.ahead run payload

instance (lane : Lane) (world : World) (payload : Payload) :
    Decidable (KeptBehind lane world payload) :=
  inferInstanceAs (Decidable (_ ∧ _))

/-- The page of a listing is not behind a cursor, unless it is mined. -/
def PageKept (lane : Lane) (world : World) (key : String × String) : Prop :=
  ∀ payload ∈ world.payloads, payload.key = key → world.current payload = true →
    KeptBehind lane world payload

instance (lane : Lane) (world : World) (key : String × String) :
    Decidable (PageKept lane world key) :=
  inferInstanceAs (Decidable (∀ payload ∈ world.payloads, _))

section Change

variable (lane : Lane) (world : World) (source : String)

/-- Under a stamp that names the active versions no page is left. -/
def StampKept : Prop :=
  ∀ mark ∈ world.mark, mark.versions = world.versions → ∀ payload ∈ world.payloads,
    world.current payload = true → lane.capable world payload.source = true →
      payload.id ≤ mark.cursor → world.settled payload

/-- No page of the portal is behind an open run. -/
def WalkKept : Prop :=
  ∀ run ∈ world.run, run.live → source ∈ run.pageSources → ∀ payload ∈ world.payloads,
    world.current payload = true → payload.source = source →
      world.handled run payload ∨ world.ahead run payload

/-- No body of the portal in an open batch bears the active version where the batch has another. -/
def BatchKept : Prop :=
  ∀ run ∈ world.run, run.live → ∀ payload ∈ world.payloads, payload.source = source →
    payload.contractVersion = world.active source → ∀ candidate ∈ run.candidates,
      candidate.1 = payload.id → world.active source = some candidate.2 ∨ world.active source = none

/-- A run that has its entries and not yet its cursor knows the portal's page entries. -/
def LoadKept : Prop :=
  ∀ run ∈ world.run, run.phase = .loaded → run.hasStore = true → run.dryRun = false →
    (lane.capable world source = true ↔ source ∈ run.pageSources)

instance : Decidable (StampKept lane world) := inferInstanceAs (Decidable (∀ mark ∈ world.mark, _))

instance : Decidable (WalkKept world source) := inferInstanceAs (Decidable (∀ run ∈ world.run, _))

instance : Decidable (BatchKept world source) :=
  inferInstanceAs (Decidable (∀ run ∈ world.run, _))

instance : Decidable (LoadKept lane world source) :=
  inferInstanceAs (Decidable (∀ run ∈ world.run, _))

/-- What holds after a change of the portal's contract that leaves no page behind. -/
structure ChangeKept : Prop where
  stamp : StampKept lane world
  walk : WalkKept world source
  batch : BatchKept world source
  load : LoadKept lane world source

instance : Decidable (ChangeKept lane world source) :=
  decidable_of_iff (StampKept lane world ∧ WalkKept world source ∧ BatchKept world source ∧
      LoadKept lane world source)
    ⟨fun ⟨stamp, walk, batch, load⟩ => ⟨stamp, walk, batch, load⟩,
      fun ⟨stamp, walk, batch, load⟩ => ⟨stamp, walk, batch, load⟩⟩

end Change

/-- No page comes to lie unmined behind a cursor, and a run begins its walk below every page an
attempt left unstamped. -/
def NothingBehind (lane : Lane) (world : World) : Action → Prop
  | .append row evicted => PageKept lane (world.append row evicted) row.key
  | .list source sourceIdNative => PageKept lane
      { world with listings := world.listings ++ [(source, sourceIdNative)] }
      (source, sourceIdNative)
  | .activate source version => ChangeKept lane (world.activate source version) source
  | .resume => ∀ run ∈ world.run, run.hasStore = true → run.dryRun = false →
      ∀ payload ∈ world.payloads, world.current payload = true →
        payload.source ∈ run.pageSources → world.unmined payload = true →
          world.skipped payload.id → world.resumePoint < payload.id
  | _ => True

instance (lane : Lane) (world : World) : ∀ action, Decidable (NothingBehind lane world action)
  | .append row evicted => inferInstanceAs (Decidable
      (PageKept lane (world.append row evicted) row.key))
  | .list source sourceIdNative => inferInstanceAs (Decidable (PageKept lane
      { world with listings := world.listings ++ [(source, sourceIdNative)] }
      (source, sourceIdNative)))
  | .activate source version => inferInstanceAs (Decidable
      (ChangeKept lane (world.activate source version) source))
  | .resume => inferInstanceAs (Decidable (∀ run ∈ world.run, run.hasStore = true →
      run.dryRun = false → ∀ payload ∈ world.payloads, world.current payload = true →
        payload.source ∈ run.pageSources → world.unmined payload = true →
          world.skipped payload.id → world.resumePoint < payload.id))
  | .mineElsewhere _ | .begin_ _ _ _ | .readWindow | .readBodies | .commit _ | .retry | .stop
  | .finish | .kill => inferInstanceAs (Decidable True)

end Sreality.LocationData.BodiesPass
