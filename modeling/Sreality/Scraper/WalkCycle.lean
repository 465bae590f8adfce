import Mathlib.Algebra.Order.Field.Rat
import Mathlib.Data.Prod.Lex
import Sreality.Foundation.Runs
import Sreality.Foundation.StableSort
import Sreality.Foundation.Tables
import Sreality.Foundation.ThreeValued

/-! The index walk of one portal (`run_index_walk`, scraper/portal_runner.py) and the cycle it
computes anew in each run from the ledger of the runs before it. Runs follow one another;
each is cut, crashes or fails at any unit, and the listings change at any time. -/

set_option autoImplicit false

namespace Sreality.Scraper.WalkCycle

open Sreality.Foundation

def cycleLedgerSeconds : ℚ := 14 * 24 * 60 * 60
def recheckSeconds : ℚ := 24 * 60 * 60

/-! ### Scopes and listings -/

/-- The label columns of a listing. -/
structure Labels where
  categoryMain : Option String
  categoryType : Option String
  subtype : Option String
  deriving DecidableEq

/-- A nomination scope over the label columns: `none` leaves a column out, `some none` is NULL. -/
structure Scope where
  categoryMain : Option (Option String) := none
  categoryType : Option (Option String) := none
  subtype : Option (Option String) := none
  deriving DecidableEq

/-- One column of a scope as a predicate: no term when the column is left out. -/
def columnTerm (label : Option String) : Option (Option String) → List (Option Bool)
  | none => []
  | some none => [some label.isNone]
  | some (some value) => [label.map fun own => decide (own = value)]

/-- `scope_sql` on a row's labels. -/
def scopeSql (scope : Scope) (labels : Labels) : Option Bool :=
  allOf (columnTerm labels.categoryMain scope.categoryMain ++
    columnTerm labels.categoryType scope.categoryType ++ columnTerm labels.subtype scope.subtype)

/-- `orphan_sql`: in no scope of the list. -/
def orphanSql (scopes : List Scope) (labels : Labels) : Bool :=
  !((anyOf (scopes.map fun scope => scopeSql scope labels)).getD false)

/-- `listings` of the portal; `key` is the column the seen set holds. -/
structure Row where
  id : Nat
  key : Option String
  isActive : Bool
  labels : Labels
  lastSeenAt : Option ℚ
  queued : Bool
  completedAt : Option ℚ
  deriving DecidableEq

/-- `NOMINABLE_PREDICATE` at `now`: no queue row, nothing completed within the throttle. -/
def nominable (now : ℚ) (row : Row) : Bool :=
  !row.queued && row.completedAt.all fun at_ => decide (¬ now - recheckSeconds < at_)

/-- `_nominate`: the active rows of `where_` that are unseen and nominable, oldest sighting first. -/
def nominate (now : ℚ) (rows : List Row) (where_ unseen : Row → Bool) : List Row :=
  sortedBy (fun row : Row => toLex (row.lastSeenAt.isSome, toLex (row.lastSeenAt.getD 0, row.id)))
    (rows.filter fun row => row.isActive && where_ row && unseen row && nominable now row)

def presenceCandidates (now : ℚ) (rows : List Row) (scope : Scope) (seen : List String) : List Row :=
  nominate now rows (fun row => decide (scopeSql scope row.labels = some true))
    (fun row => row.key.any fun key => decide (key ∉ seen))

def orphanCandidates (now : ℚ) (rows : List Row) (scopes : List Scope) (unseenSince : ℚ) : List Row :=
  nominate now rows (fun row => orphanSql scopes row.labels)
    (fun row => row.lastSeenAt.all fun seen => decide (seen < unseenSince))

/-! ### Units and their scope groups -/

/-- A unit of the walk; its nomination scope is the key of its group. -/
structure WalkUnit where
  category : Nat
  scope : Option Scope
  deriving DecidableEq

abbrev GroupKey := Option Scope

/-- The portal as every run is configured. -/
structure Portal where
  units : List WalkUnit
  walkTimeout : ℚ
  indexless : Bool := false

/-- The keys of `_groups`, in configured order. -/
def groupKeys (units : List WalkUnit) : List GroupKey :=
  (units.map (·.scope)).eraseDups

/-- The units of one group, in configured order. -/
def groupUnits (units : List WalkUnit) (key : GroupKey) : List WalkUnit :=
  units.filter fun unit => decide (unit.scope = key)

/-- The sizes a run reads the ledger by: of its own groups. -/
def sizes (portal : Portal) (keys : List GroupKey) (key : GroupKey) : Nat :=
  if key ∈ keys then (groupUnits portal.units key).length else 0

/-! ### The ledger and the cycle -/

/-- What a `by_category` entry says to a later run; the scope `{}` ends a cycle. -/
structure Entry where
  scope : Option Scope
  reached : Bool
  collected : Nat
  deriving DecidableEq

def Entry.closes (entry : Entry) : Bool := decide (entry.scope = some {})

structure LedgerRun where
  started : ℚ
  entries : List Entry
  deriving DecidableEq

/-- `_read_run`, the groups that reached the end: every unit of the group recorded, each at the
end, with what they collected. -/
def runReached (entries : List Entry) (size : GroupKey → Nat) (key : GroupKey) : Option Nat :=
  let units := entries.filter fun entry => !entry.closes && decide (entry.scope = key)
  if units ≠ [] ∧ units.length = size key ∧ units.all (·.reached) then
    some ((units.map (·.collected)).sum)
  else none

/-- What `_cycle` folds over the ledger. -/
structure Reading where
  anchor : Option ℚ := none
  reached : GroupKey → Option Nat := fun _ => none
  lastWalked : GroupKey → Option ℚ := fun _ => none

def readRun (size : GroupKey → Nat) (reading : Reading) (run : LedgerRun) : Reading :=
  if run.entries = [] then reading
  else
    let walked := fun key : GroupKey =>
      run.entries.any fun entry => !entry.closes && decide (entry.scope = key)
    let lastWalked := fun key => if walked key then some run.started else reading.lastWalked key
    if run.entries.any Entry.closes then { anchor := none, lastWalked := lastWalked }
    else
      { anchor := some (reading.anchor.getD run.started)
        reached := fun key => (runReached run.entries size key).or (reading.reached key)
        lastWalked := lastWalked }

structure Cycle where
  anchor : ℚ
  reached : GroupKey → Option Nat
  resumed : Bool

/-- `walk_ledger`: the runs of the last two weeks, oldest first. -/
def walkLedger (runs : List LedgerRun) (now : ℚ) : List LedgerRun :=
  sortedBy (·.started) (runs.filter fun run => decide (now - cycleLedgerSeconds < run.started))

/-- `_cycle`: the open cycle while it is younger than the walk timeout, else a fresh one. -/
def cycleOf (size : GroupKey → Nat) (timeout start : ℚ) (ledger : List LedgerRun) :
    Cycle × (GroupKey → Option ℚ) :=
  let reading := ledger.foldl (readRun size) {}
  (match reading.anchor with
    | some anchor =>
        if start - anchor < timeout then
          { anchor := anchor, reached := reading.reached, resumed := true }
        else { anchor := start, reached := fun _ => none, resumed := false }
    | none => { anchor := start, reached := fun _ => none, resumed := false },
    reading.lastWalked)

/-! What the fold comes to. -/

/-- The runs of a ledger since the newest one that ended a cycle, but for those that recorded
nothing. -/
def sinceEnd (ledger : List LedgerRun) : List LedgerRun :=
  (ledger.reverse.takeWhile fun run => !run.entries.any Entry.closes).reverse.filter fun run =>
    !run.entries.isEmpty

/-- The runs of the cycle open at a time: of none once its first is as old as the walk timeout. -/
def openCycle (timeout : ℚ) (ledger : List LedgerRun) (now : ℚ) : List LedgerRun :=
  if (sinceEnd ledger).head?.any fun first => decide (now - first.started < timeout) then
    sinceEnd ledger
  else []

/-- Where the cycle of a run begins: with the first run of the open one, else with itself. -/
def anchorOf (timeout : ℚ) (ledger : List LedgerRun) (start : ℚ) : ℚ :=
  ((openCycle timeout ledger start).head?.map (·.started)).getD start

/-- `_plan`: least recently walked first, never walked before all, without the groups in `skip`. -/
def plan (keys : List GroupKey) (lastWalked : GroupKey → Option ℚ) (skip : GroupKey → Bool) :
    List GroupKey :=
  sortedBy (fun key => toLex ((lastWalked key).isSome, (lastWalked key).getD 0))
    (keys.filter fun key => !skip key)

/-! ### The runs -/

/-- What a unit returned: the ids it saw, and whether it reached the portal's end. -/
structure Outcome where
  unit : WalkUnit
  seen : List (Option String)
  reached : Bool
  deriving DecidableEq

def Outcome.entry (outcome : Outcome) : Entry where
  scope := outcome.unit.scope
  reached := outcome.reached
  collected := outcome.seen.eraseDups.length

/-- `_ScopeGroup`. -/
structure ScopeGroup where
  left : Nat := 0
  seen : List String := []
  allReached : Bool := true
  deriving DecidableEq

def ScopeGroup.reached (group : ScopeGroup) : Bool :=
  decide (group.left = 0) && group.allReached

/-- A group after one of its units: `seen` keeps the named ids of a unit that reached the end. -/
def ScopeGroup.walked (group : ScopeGroup) (outcome : Outcome) : ScopeGroup where
  left := group.left - 1
  allReached := group.allReached && outcome.reached
  seen := if outcome.reached then group.seen ++ outcome.seen.filterMap id else group.seen

/-- A run under way; `outcomes` are all that its units returned so far. -/
structure Walk where
  started : ℚ
  recorded : Bool
  narrowed : Bool
  keys : List GroupKey
  cycle : Option Cycle
  left : List WalkUnit
  groups : GroupKey → ScopeGroup
  reachedNow : GroupKey → Option Nat := fun _ => none
  cut : Bool := false
  saved : List Entry := []
  outcomes : List Outcome := []

inductive Nomination where
  | group (scope : Scope) (rows : List Row)
  | orphans (anchor : ℚ) (rows : List Row)

/-- A run that is over, as it went, with the entries it recorded; a run without a row of its own
records none. -/
structure PastRun where
  started : ℚ
  outcomes : List Outcome
  entries : Option (List Entry)

/-- Its row in the ledger. -/
def PastRun.ledgerRun (run : PastRun) : Option LedgerRun :=
  run.entries.map fun entries => { started := run.started, entries := entries }

/-- The listings, the ledger, the run under way and what was nominated. The database holds
neither `past`, how the runs went, nor `sightings`, which listing was sighted when. -/
structure World where
  now : ℚ
  rows : List Row
  runs : List LedgerRun
  walk : Option Walk
  nominated : List Nomination
  past : List PastRun
  sightings : List (Nat × ℚ)

inductive Action where
  | tick (seconds : ℚ)
  | appear (row : Row)
  | sight (id : Nat)
  | edit (id : Nat) (labels : Labels) (isActive queued : Bool) (completedAt : Option ℚ)
  | start (recorded readable : Bool) (narrowed : Option (List GroupKey))
  | unit (seen : List (Option String)) (reached late saved fails : Bool)
  | cut
  | finish (fails saved finalized : Bool)
  | crash
  deriving DecidableEq

namespace World

/-- A run starts: it reads the ledger, finds its cycle and plans its groups. -/
def start (portal : Portal) (world : World) (recorded readable : Bool)
    (narrowed : Option (List GroupKey)) : Walk :=
  let keys := (groupKeys portal.units).filter fun key => narrowed.all fun chosen => decide (key ∈ chosen)
  let found := cycleOf (sizes portal keys) portal.walkTimeout world.now
    (walkLedger world.runs world.now)
  let cycle := if readable then some found.1 else none
  let lastWalked := if readable then found.2 else fun _ => none
  let skip := fun key => narrowed.isNone && cycle.any fun cycle => (cycle.reached key).isSome
  let planned := plan keys lastWalked skip
  { started := world.now
    recorded := recorded
    narrowed := narrowed.isSome
    keys := keys
    cycle := cycle
    left := planned.flatMap (groupUnits portal.units)
    groups := fun key => if key ∈ planned then { left := (groupUnits portal.units key).length } else {} }

/-- `_queue_presence_checks`, after the last unit of a group that reached the end. -/
def presenceChecks (world : World) (key : GroupKey) (group : ScopeGroup) : List Nomination :=
  match key with
  | none => []
  | some scope =>
      if group.reached && !group.seen.isEmpty then
        [.group scope (presenceCandidates world.now world.rows scope group.seen)]
      else []

/-- One unit of the plan returns. -/
def walkUnit (world : World) (walk : Walk) (outcome : Outcome) (rest : List WalkUnit)
    (late saved fails : Bool) : World :=
  let key := outcome.unit.scope
  let group := (walk.groups key).walked outcome
  let walk :=
    { walk with
      left := rest
      groups := fun other => if other = key then group else walk.groups other
      reachedNow := fun other =>
        if other = key ∧ group.reached = true then some group.seen.eraseDups.length
        else walk.reachedNow other
      cut := walk.cut || (!outcome.reached && late)
      saved := if saved then walk.saved ++ [outcome.entry] else walk.saved
      outcomes := walk.outcomes ++ [outcome] }
  { world with
    walk := some walk
    nominated := world.nominated ++
      if outcome.reached && !fails then world.presenceChecks key group else [] }

/-- `_end_cycle`: the entry that ends the cycle, and the orphans it nominates. -/
def endCycle (portal : Portal) (world : World) (walk : Walk) (cycle : Cycle) (fails : Bool) :
    Entry × List Nomination :=
  let reached := fun key => (walk.reachedNow key).or (cycle.reached key)
  if walk.keys.any (fun key => (reached key).isNone) ||
      (decide ((walk.keys.map fun key => (reached key).getD 0).sum = 0) && !portal.indexless) ||
        fails then
    ({ scope := some {}, reached := false, collected := 0 }, [])
  else
    ({ scope := some {}, reached := true, collected := 0 },
      [.orphans cycle.anchor
        (orphanCandidates world.now world.rows (walk.keys.filterMap id) cycle.anchor)])

/-- The run is over: the ledger keeps what it saved, or all of it. -/
def close (world : World) (walk : Walk) (entries : List Entry) (nominated : List Nomination) : World :=
  { world with
    walk := none
    runs := if walk.recorded then world.runs ++ [{ started := walk.started, entries := entries }]
      else world.runs
    past := world.past ++ [{
      started := walk.started, outcomes := walk.outcomes
      entries := if walk.recorded then some entries else none }]
    nominated := world.nominated ++ nominated }

def step (portal : Portal) (world : World) : Action → Option World
  | .tick seconds => if 0 ≤ seconds then some { world with now := world.now + seconds } else none
  | .appear row =>
      if (∀ other ∈ world.rows, other.id ≠ row.id) ∧ ∀ sighting ∈ world.sightings,
          sighting.1 ≠ row.id then
        some { world with rows := world.rows ++ [row] }
      else none
  | .sight id =>
      some { world with
        rows := updateRows (fun row => decide (row.id = id))
          (fun row => { row with lastSeenAt := some world.now, isActive := true }) world.rows
        sightings := world.sightings ++ [(id, world.now)] }
  | .edit id labels isActive queued completedAt =>
      some { world with
        rows := updateRows (fun row => decide (row.id = id))
          (fun row =>
            { row with
              labels := labels, isActive := isActive, queued := queued
              completedAt := completedAt })
          world.rows }
  | .start recorded readable narrowed =>
      if world.walk.isNone then
        some { world with walk := some (world.start portal recorded readable narrowed) }
      else none
  | .unit seen reached late saved fails =>
      world.walk.bind fun walk =>
        match walk.left with
        | unit :: rest =>
            some (world.walkUnit walk { unit := unit, seen := seen, reached := reached } rest late
              saved fails)
        | [] => none
  | .cut =>
      world.walk.bind fun walk =>
        if walk.left ≠ [] then some { world with walk := some { walk with left := [], cut := true } }
        else none
  | .finish fails saved finalized =>
      world.walk.bind fun walk =>
        if walk.left = [] then
          match walk.cycle with
          | some cycle =>
              if walk.keys ≠ [] ∧ walk.cut = false ∧ walk.narrowed = false then
                let (ended, nominated) := world.endCycle portal walk cycle fails
                some (world.close walk
                  (if finalized then walk.outcomes.map Outcome.entry ++ [ended]
                    else walk.saved ++ if saved then [ended] else []) nominated)
              else some (world.close walk
                (if finalized then walk.outcomes.map Outcome.entry else walk.saved) [])
          | none =>
              some (world.close walk
                (if finalized then walk.outcomes.map Outcome.entry else walk.saved) [])
        else none
  | .crash => world.walk.map fun walk => world.close walk walk.saved []

structure Initial (world : World) : Prop where
  runs : world.runs = []
  walk : world.walk = none
  nominated : world.nominated = []
  past : world.past = []
  sightings : world.sightings = []

/-! ### The contract -/

/-- The cycle open to a run that starts, as the ledger has it. -/
def openTo (portal : Portal) (world : World) (start : ℚ) : List LedgerRun :=
  openCycle portal.walkTimeout (walkLedger world.runs start) start

/-- The anchor of the cycle that a run walks in, as the ledger has it. -/
def anchorTo (portal : Portal) (world : World) (start : ℚ) : ℚ :=
  anchorOf portal.walkTimeout (walkLedger world.runs start) start

/-- Every unit of the group returned, in their order, and each reached the end. -/
def Walked (portal : Portal) (outcomes : List Outcome) (key : GroupKey) : Prop :=
  (outcomes.filter fun outcome => decide (outcome.unit.scope = key)).map (·.unit) =
      groupUnits portal.units key ∧
    ∀ outcome ∈ outcomes, outcome.unit.scope = key → outcome.reached = true

/-- A group reached its end in one run started at or after the anchor. -/
def ReachedSince (portal : Portal) (world : World) (anchor : ℚ) (key : GroupKey) : Prop :=
  ∃ run ∈ world.past, anchor ≤ run.started ∧ Walked portal run.outcomes key

/-- A group reached its end in one run of the cycle open to a run that starts. -/
def ReachedOpen (portal : Portal) (world : World) (start : ℚ) (key : GroupKey) : Prop :=
  ∃ went ∈ world.past, ∃ run ∈ went.ledgerRun, run ∈ openTo portal world start ∧
    anchorTo portal world start ≤ run.started ∧ Walked portal went.outcomes key

/-- A group reached its end in the cycle a run walks in, this run of it or an earlier one. -/
def ReachedIn (portal : Portal) (world : World) (walk : Walk) (key : GroupKey) : Prop :=
  ReachedOpen portal world walk.started key ∨ Walked portal walk.outcomes key

/-- The row satisfies the scope: each column the scope names has the scope's value. -/
def Satisfies (labels : Labels) (scope : Scope) : Prop :=
  (∀ value ∈ scope.categoryMain, labels.categoryMain = value) ∧
    (∀ value ∈ scope.categoryType, labels.categoryType = value) ∧
    ∀ value ∈ scope.subtype, labels.subtype = value

/-- What a nomination was made on: the outcomes of the run that makes it, the runs so far. -/
def Justified (portal : Portal) (world after : World) : Nomination → Prop
  | .group scope rows => ∃ walk ∈ after.walk, Walked portal walk.outcomes (some scope) ∧
      ∀ row ∈ rows, row ∈ world.rows ∧ row.isActive = true ∧ Satisfies row.labels scope ∧
        ∀ outcome ∈ walk.outcomes, outcome.unit.scope = some scope → row.key ∉ outcome.seen
  | .orphans anchor rows =>
      (∃ walk ∈ world.walk, anchor = anchorTo portal world walk.started ∧
        ∀ key ∈ groupKeys portal.units, ReachedIn portal world walk key) ∧
      (∀ key ∈ groupKeys portal.units, ReachedSince portal after anchor key) ∧
      ∀ row ∈ rows, row ∈ world.rows ∧ row.isActive = true ∧
        (∀ scope, some scope ∈ groupKeys portal.units → ¬ Satisfies row.labels scope) ∧
        ∀ sighting ∈ world.sightings, sighting.1 = row.id → sighting.2 < anchor

/-- An entry that ends the cycle of a run: the run walked its whole plan, and an entry that says
the end was reached says it of each group. -/
def EndsCycle (portal : Portal) (world : World) (walk : Walk) (entry : Entry) : Prop :=
  walk.cycle.isSome ∧ walk.left = [] ∧ walk.cut = false ∧ walk.narrowed = false ∧
    (entry.reached = true → ∀ key ∈ groupKeys portal.units, ReachedIn portal world walk key)

/-- What a step owes: it nominates what was proved unseen, skips only groups that reached the end
in the open cycle, and closes a cycle only when each group did, in the ledger's own terms. -/
structure Proven (portal : Portal) (world : World) (action : Action) (after : World) : Prop where
  ledger : after.runs = after.past.filterMap PastRun.ledgerRun
  nominates : ∀ nomination ∈ after.nominated,
    nomination ∈ world.nominated ∨ Justified portal world after nomination
  skips : world.walk = none → ∀ walk ∈ after.walk, walk.started = world.now ∧
    ∀ unit ∈ portal.units, unit.scope ∈ walk.keys → unit ∉ walk.left →
      ReachedOpen portal world world.now unit.scope
  ends : ∀ walk ∈ world.walk, ∀ run, after.runs = world.runs ++ [run] →
    run.started = walk.started ∧ ∀ entry ∈ run.entries, entry.closes = true →
      entry ∈ walk.outcomes.map Outcome.entry ∨ EndsCycle portal world walk entry
  closes : ∀ fails saved finalized, action = .finish fails saved finalized →
    ∀ walk ∈ world.walk, walk.recorded = true → walk.cycle.isSome → walk.keys ≠ [] →
      walk.cut = false → walk.narrowed = false → saved = true ∨ finalized = true →
        ∃ run, after.runs = world.runs ++ [run] ∧ ∃ entry ∈ run.entries, entry.closes = true

end World

end Sreality.Scraper.WalkCycle
