import Sreality.Toolkit.PropertyCarriers
import Sreality.Toolkit.PropertyLedger

/-! What a detach gives back (`toolkit/property_carriers.py`, routing): each curation item
on the property left goes back along its standing carry rows, each fold is re-created where
it came from, and no insert lands over a row already there. With it the two writers over
all their tables. -/

set_option autoImplicit false

namespace Sreality.Toolkit

open Sreality.Foundation

/-! ### Routes -/

inductive RouteAction where
  | move
  | copy
  | recreate
  deriving DecidableEq

inductive Skip where
  | held
  | card
  | gone
  deriving DecidableEq

inductive Item where
  | pipeline
  | collection (key : Nat)
  | tag (key : Nat)
  | dismissal
  | fold (carry : Nat)
  deriving DecidableEq

def Item.text : Item → List Char
  | .pipeline => "pipeline".toList
  | .collection key => "collection:".toList ++ Nat.toDigits 10 key
  | .tag key => "tag:".toList ++ Nat.toDigits 10 key
  | .dismissal => "dismissal".toList
  | .fold carry => "fold:".toList ++ Nat.toDigits 10 carry

def SetTable.item (table : SetTable) (key : Nat) : Item :=
  match table with
  | .collectionProperties => .collection key
  | .propertyTags => .tag key

/-- One curation item a detach routes: it lands where its anchor ad lands, or stays. -/
structure Route where
  table : CarriedTable
  key : Option Nat
  account : AccountId
  action : RouteAction
  anchor : Option Nat
  origin : Option Nat
  stage : Option Nat
  carryIds : List Nat
  item : Item
  skipped : Option Skip := none
  deriving DecidableEq

/-- Each leaving advert with the origin it goes back to, none for a new property. -/
abbrev Movers := List (Nat × Option Nat)

/-- The acting account's choices: an item's anchor ad, none where it stays, and the anchors whose
landings get a copy. -/
structure Picks where
  account : AccountId
  choices : List (Item × Option Nat × List (Option Nat))

/-- One row of `_ROUTES_SQL`: an item with the carry rows it came by, or a fold. -/
structure RouteRow where
  fold : Bool
  table : CarriedTable
  key : Option Nat
  account : AccountId
  item : Item
  stage : Option Nat
  live : Bool
  target : Option Nat
  origin : Option Nat
  ids : List Nat
  twin : Bool

/-- Where a route lands. -/
inductive Landing where
  | left
  | back (origin : Nat)
  | new (ad : Nat)
  deriving DecidableEq

/-- What a route puts where it lands, as a conflict knows it. -/
inductive Holding where
  | row (table : CarriedTable) (key : Option Nat)
  | live (account : AccountId)
  deriving DecidableEq

def Route.holding (route : Route) : Holding :=
  match route.table with
  | .set _ => .row route.table route.key
  | .pipeline | .dismissals => .row route.table (some route.account)

/-- The lowest ad that goes back to the origin. -/
def backTo (movers : Movers) (origin : Nat) : Option Nat :=
  (sortedIds ((movers.filter fun mover => mover.2 == some origin).map Prod.fst)).head?

def landingOf (movers : Movers) (anchor : Option Nat) : Landing :=
  match anchor with
  | none => .left
  | some ad =>
      match movers.lookup ad with
      | none => .left
      | some (some origin) => .back origin
      | some none => .new ad

/-- Cards first, then the entries, then the dismissals. -/
def settleOrder : CarriedTable → Nat
  | .pipeline => 0
  | .set _ => 1
  | .dismissals => 2

/-- What a route puts down, with the live card it may be. -/
def putDown (movers : Movers) (live : AccountId → Item → Bool) (held : List (Landing × Holding))
    (route : Route) : List (Landing × Holding) :=
  held ++ (landingOf movers route.anchor, route.holding) ::
    if route.table = .pipeline ∧ live route.account route.item = true then
      [(landingOf movers route.anchor, .live route.account)]
    else []

/-- One insert settled: kept as skipped where its account holds the item already, or where a
dismissal meets its account's live card. -/
def settleOne (left : Nat) (movers : Movers) (live : AccountId → Item → Bool)
    (done : List (Landing × Holding) × List Route) (route : Route) :
    List (Landing × Holding) × List Route :=
  let here := landingOf movers route.anchor
  let why : Option Skip :=
    if route.skipped.isSome then none
    else if (here, route.holding) ∈ done.1 then some .held
    else if route.table = .dismissals ∧ (here, Holding.live route.account) ∈ done.1 then some .card
    else none
  let settled :=
    match why with
    | none => route
    | some skip =>
        { route with
          skipped := some skip
          carryIds := if route.origin = some left then [] else route.carryIds }
  (if settled.skipped.isNone then putDown movers live done.1 settled else done.1,
    done.2 ++ [settled])

/-- `_settle`: the moves stand, then the inserts in their order. -/
def settle (left : Nat) (movers : Movers) (live : AccountId → Item → Bool) (routes : List Route) :
    List Route :=
  let moves := routes.filter fun route => route.action == .move
  let inserts := sortedBy (fun route : Route =>
    toLex (settleOrder route.table, route.action != .copy))
      (routes.filter fun route => route.action != .move)
  (inserts.foldl (settleOne left movers live) (moves.foldl (putDown movers live) [], moves)).2

namespace Identity

/-- The property's merged-away pointers lead to `left`. -/
def leadsTo (state : Identity) (left : Nat) : Nat → Nat → Bool
  | 0, property => property == left
  | fuel + 1, property => property == left ||
      (state.property property).any fun row =>
        row.status == .mergedAway && row.mergedInto.any (state.leadsTo left fuel)

end Identity

namespace Curation

section Plan

variable (state : Curation) (identity : Identity) (left : Nat)

/-- The carry rows that count toward `left`: through its merged-away chain, the group's when
one is given, while they stand. -/
def carryRows (group : Option GroupId) : List Carry :=
  state.carries.filter fun carry =>
    identity.leadsTo left identity.nextProperty carry.target &&
      group.all (fun asked => carry.group == asked) &&
      (standing identity.ledger carry ||
        (!carry.undone && carry.row.origin == carry.target &&
          identity.ledger.any fun row => row.group == carry.group && !row.undone))

/-- An item on `left` with the carry rows that moved it there, oldest first. -/
def itemRow (carries : List Carry) (table : CarriedTable) (key : Option Nat) (account : AccountId)
    (at_ : Timestamp) (item : Item) (stage : Option Nat) (live : Bool) : RouteRow :=
  let came := carries.filter fun carry => carry.row.kind == .moved && carry.row.table == table &&
    carry.row.rowKey == key && carry.row.account == account && carry.row.rowAt == at_
  { fold := false, table := table, key := key, account := account, item := item, stage := stage
    live := live, target := none, origin := came.head?.map fun carry => carry.row.origin
    ids := came.map Carry.id, twin := false }

/-- The item a fold folded into is still on `left`. -/
def twinHere (carried : Carried) : Bool :=
  match carried.table with
  | .set table => carried.rowKey.any fun key => (state.entry table key left).isSome
  | .pipeline => (state.card carried.account left).isSome
  | .dismissals =>
      (state.dismissal carried.account left).isSome || state.live carried.account left

/-- A fold's stage, unless it is gone or archived since. -/
def foldStage (carried : Carried) : Option Nat :=
  carried.stage.filter fun stage => (state.stages stage).any fun row => !row.archived

def foldRow (carry : Carry) : RouteRow where
  fold := true
  table := carry.row.table
  key := carry.row.rowKey
  account := carry.row.account
  item := .fold carry.id
  stage := state.foldStage carry.row
  live := (state.foldStage carry.row).any fun stage =>
    (state.stages stage).any fun row => !row.isTerminal
  target := some carry.target
  origin := some carry.row.origin
  ids := [carry.id]
  twin := state.twinHere left carry.row

def itemRows (carries : List Carry) : List RouteRow :=
  let cards := state.accounts.filterMap fun account =>
    (state.card account left).bind fun card =>
      (state.stages card.stage).map fun stage =>
        itemRow carries .pipeline none account card.addedAt .pipeline (some card.stage)
          (!stage.isTerminal)
  let entries (table : SetTable) := (state.shelves table).filterMap fun shelf =>
    (state.entry table shelf.key left).map fun at_ =>
      itemRow carries (.set table) (some shelf.key) shelf.account at_ (table.item shelf.key) none
        false
  let dismissals := state.accounts.filterMap fun account =>
    (state.dismissal account left).map fun dismissal =>
      itemRow carries .dismissals (some dismissal.id) account dismissal.dismissedAt .dismissal none
        false
  cards ++ entries .collectionProperties ++ entries .propertyTags ++ dismissals

/-- `_ROUTES_SQL`: the folds, then the items, by their names. -/
def routeRows (group : Option GroupId) : List RouteRow :=
  let carries := state.carryRows identity left group
  sortedBy (fun row : RouteRow => toLex (!row.fold, row.item.text))
    (state.itemRows left carries ++
      (carries.filter fun carry => carry.row.kind == .folded).map (state.foldRow left))

/-- An item goes back with the first ad that goes to where it came from, else it stays; a fold
is re-created there, or on `left` where it was the survivor's own. -/
def rowRoute (movers : Movers) (row : RouteRow) : Option Route :=
  let anchor := row.origin.bind (backTo movers)
  if row.fold = false then
    some { table := row.table, key := row.key, account := row.account, action := .move
           anchor := anchor, origin := if anchor.isSome then row.origin else none
           stage := row.stage, carryIds := if anchor.isSome then row.ids else [], item := row.item }
  else if row.table = .pipeline ∧ row.stage = none then none
  else if anchor.isSome then
    some { table := row.table, key := row.key, account := row.account, action := .recreate
           anchor := anchor, origin := row.origin, stage := row.stage, carryIds := row.ids
           item := row.item, skipped := if row.twin then none else some .gone }
  else if row.origin = some left ∧ row.target = some left ∧ row.twin = true then
    some { table := row.table, key := row.key, account := row.account, action := .recreate
           anchor := none, origin := some left, stage := row.stage, carryIds := row.ids
           item := row.item }
  else none

/-- The acting account's own items go where it chose, with their copies. -/
def chosen (movers : Movers) (came : AccountId → Item → List Nat) (picks : Picks) (route : Route) :
    List Route :=
  match if route.action = .move ∧ route.account = picks.account then picks.choices.lookup route.item
    else none with
  | none => [route]
  | some (anchor, copies) =>
      let counts := anchor ≠ route.anchor ∨ anchor.any (fun ad => (movers.lookup ad).isSome) = true
      { route with
        anchor := anchor
        carryIds := if counts then came route.account route.item else [] } ::
        copies.map fun copied =>
          { route with
            action := .copy, anchor := copied, origin := none, carryIds := [], skipped := none }

/-- `curation_plan`: where every account's curation on `left` goes when the movers leave it. -/
def curationPlan (movers : Movers) (group : Option GroupId) (picks : Option Picks) : List Route :=
  let rows := state.routeRows identity left group
  let live (account : AccountId) (item : Item) : Bool :=
    rows.any fun row => row.account == account && row.item == item && row.live
  let came (account : AccountId) (item : Item) : List Nat :=
    ((rows.find? fun row => !row.fold && row.account == account && row.item == item).map
      RouteRow.ids).getD []
  let routes := rows.filterMap (rowRoute left movers)
  let routes :=
    match picks with
    | none => routes
    | some picks => routes.flatMap (chosen movers came picks)
  settle left movers live routes

end Plan

/-! ### Writing the routes -/

def setCard (state : Curation) (account : AccountId) (property : Nat) (card : Option Card) :
    Curation :=
  { state with
    card := fun other place =>
      if other = account ∧ place = property then card else state.card other place }

def setEntry (state : Curation) (table : SetTable) (key property : Nat) (at_ : Option Timestamp) :
    Curation :=
  { state with
    entry := fun other otherKey place =>
      if other = table ∧ otherKey = key ∧ place = property then at_
      else state.entry other otherKey place }

def setDismissal (state : Curation) (account : AccountId) (property : Nat)
    (dismissal : Option Dismissal) : Curation :=
  { state with
    dismissal := fun other place =>
      if other = account ∧ place = property then dismissal else state.dismissal other place }

/-- `_MOVE_SQL`: only where the account holds no such item yet; none where no row changes. -/
def moveRoute (state : Curation) (left target : Nat) (route : Route) : Option Curation :=
  let account := route.account
  match route.table with
  | .pipeline =>
      match state.card account left, state.card account target with
      | some card, none =>
          some ((state.setCard account left none).setCard account target (some card))
      | _, _ => none
  | .set table =>
      route.key.bind fun key =>
        match state.entry table key left, state.entry table key target with
        | some at_, none =>
            some ((state.setEntry table key left none).setEntry table key target (some at_))
        | _, _ => none
  | .dismissals =>
      match state.dismissal account left, state.dismissal account target with
      | some dismissal, none =>
          if some dismissal.id = route.key then
            some ((state.setDismissal account left none).setDismissal account target
              (some dismissal))
          else none
      | _, _ => none

/-- `_INSERT_SQL`: a copy or a re-created fold, dated now, never over a row already there. -/
def insertRoute (state : Curation) (now : Timestamp) (target : Nat) (route : Route) :
    Option Curation :=
  let account := route.account
  match route.table with
  | .pipeline =>
      route.stage.bind fun stage =>
        if (state.card account target).isSome then none
        else some (state.setCard account target
          (some { stage := stage, addedAt := now, updatedAt := now }))
  | .set table =>
      route.key.bind fun key =>
        if (state.entry table key target).isSome then none
        else some (state.setEntry table key target (some now))
  | .dismissals =>
      if (state.dismissal account target).isSome then none
      else
        let next := state.setDismissal account target
          (some { id := state.nextDismissal, dismissedAt := now })
        some { next with nextDismissal := state.nextDismissal + 1 }

def writeRoute (state : Curation) (now : Timestamp) (left : Nat) (landed : List (Nat × Nat))
    (route : Route) : Option Curation :=
  let target := (route.anchor.bind fun ad => landed.lookup ad).getD left
  if route.action = .move then state.moveRoute left target route else state.insertRoute now target route

/-- The route is written: not skipped, and its anchor moved; an item that stays needs no write. -/
def isDue (landed : List (Nat × Nat)) (route : Route) : Bool :=
  route.skipped.isNone &&
    match route.anchor with
    | none => route.action != .move
    | some ad => (landed.lookup ad).isSome

/-- One route written, with the number of each that changed a row. -/
def routeOne (now : Timestamp) (left : Nat) (landed : List (Nat × Nat))
    (done : Curation × List Nat) (route : Route × Nat) : Curation × List Nat :=
  match done.1.writeRoute now left landed route.1 with
  | some next => (next, done.2 ++ [route.2])
  | none => done

/-- `_STAMP_SQL`. -/
def stampCarries (state : Curation) (ids : List Nat) : Curation :=
  { state with carries := state.carries.map fun carry =>
      if carry.id ∈ ids then { carry with undone := true } else carry }

/-- The routes as they are written: the moves, the copies, the re-created folds. -/
def dueRoutes (landed : List (Nat × Nat)) (routes : List Route) : List (Route × Nat) :=
  [RouteAction.move, .copy, .recreate].flatMap fun action =>
    routes.zipIdx.filter fun numbered => numbered.1.action == action && isDue landed numbered.1

/-- `route_curation`: the plan made true once the ads moved, its carry rows stamped, then the
live-deal lift on every property it touched. -/
def routeCuration (state : Curation) (now : Timestamp) (left : Nat) (landed : List (Nat × Nat))
    (routes : List Route) : Curation :=
  let done := (dueRoutes landed routes).foldl (routeOne now left landed) (state, [])
  let spent (numbered : Route × Nat) : Bool :=
    match numbered.1.anchor with
    | none => true
    | some ad =>
        if numbered.1.action = .move then done.2.contains numbered.2 else (landed.lookup ad).isSome
  let ids := (routes.zipIdx.filter spent).flatMap fun numbered => numbered.1.carryIds
  (sortedIds (left :: landed.map Prod.snd).dedup).foldl liftLiveDeals (done.1.stampCarries ids)

end Curation

/-! ### The writers over all their tables -/

structure Database where
  identity : Identity
  curation : Curation

namespace Database

/-- One retired property into the survivor: the ledger, the re-point, the carriers, the retire. -/
def mergePair (group : GroupId) (survivor : Nat) (reason : LedgerReason) (state : Database)
    (retired : Nat) : Database :=
  let placed := (state.identity.recordMoves group survivor retired reason).repoint survivor retired
  { identity := placed.retire survivor retired
    curation := state.curation.onMerge placed.ledger group survivor retired }

def merge (state : Database) (call : MergeCall) : Except MergeRefusal Database := do
  let (survivor, retired) ← state.identity.mergeMembers call.propertyIds call.source call.decidedBy
  let merged := retired.foldl (mergePair call.group survivor (.merge call.reason)) state
  .ok { merged with identity := merged.identity.propertiesChanged (survivor :: retired) }

/-- The adverts a detach will move, by the property they leave, as its plan reads them. -/
def leavers (identity : Identity) (call : DetachCall) : List (Nat × Nat × Option Nat) :=
  call.listingIds.eraseDups.filterMap fun listing =>
    (identity.planDetach listing call.group).bind fun plan =>
      plan.current.bind fun current =>
        if call.named.contains listing || plan.outcome == .splitNative then
          some (current, listing, none)
        else if plan.outcome = .detached ∧
            originGone (plan.target.bind identity.property) plan.undo = false then
          some (current, listing, plan.target)
        else none

def lefts (identity : Identity) (call : DetachCall) : List (Nat × Movers) :=
  (sortedIds ((leavers identity call).map Prod.fst).dedup).map fun left =>
    (left, ((leavers identity call).filter fun leaver => leaver.1 == left).map Prod.snd)

/-- A detach with the curation its adverts take, planned before any of them moves; `picks` are
the split's choices, over the adverts of one property. -/
def detach (state : Database) (call : DetachCall) (picks : Option Picks) (now : Timestamp) :
    Option (Database × List Detached) :=
  let lefts := lefts state.identity call
  if picks.isSome ∧ 1 < lefts.length then none
  else
    (state.identity.detach call).map fun done =>
      let group := if picks.isSome then none else call.group
      let plans := lefts.map fun left =>
        (left.1, state.curation.curationPlan state.identity left.1 left.2 group picks)
      let landed := (done.2.filter fun answer => answer.outcome.moves).filterMap fun answer =>
        answer.target.map fun target => (answer.listing, target)
      ({ identity := done.1
         curation := plans.foldl (fun curation plan =>
           curation.routeCuration now plan.1 landed plan.2) state.curation }, done.2)

end Database

end Sreality.Toolkit
