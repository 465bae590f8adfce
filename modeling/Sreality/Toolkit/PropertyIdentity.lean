import Mathlib.Data.Prod.Lex
import Mathlib.Data.List.Dedup
import Mathlib.Order.WithBot
import Sreality.Foundation.StableSort
import Sreality.Toolkit.RoomTaxonomy

/-! The two writers of the canonical property (`toolkit/property_identity.py`) and
the operator's split (`toolkit/property_split.py`): where every advert sits, which
properties stand, and the merge ledger a detach replays. Timestamps are the reader's
own ordered integers, a merge group is the uuid drawn for it, and a refusal leaves
the state as it was. -/

set_option autoImplicit false

namespace Sreality.Toolkit

open Sreality.Foundation

abbrev Timestamp := Int
abbrev GroupId := Nat

/-- What a merge's gates read of an advert, and when it was first seen. -/
structure Advert where
  listing : Nat
  categoryType : Option String := none
  categoryMain : Option String := none
  contentless : Bool := false
  firstSeen : Option Timestamp := none

inductive Status where
  | active
  | mergedAway
  deriving DecidableEq, Repr

structure Property where
  status : Status := .active
  mergedInto : Option Nat := none
  firstSeen : Option Timestamp := none
  deriving DecidableEq

inductive MergeSource where
  | auto
  | operator
  | autodedup
  deriving DecidableEq

/-- What put a ledger row there: a merge, or the birth of a new record. -/
inductive LedgerReason where
  | merge (reason : String)
  | ingestGrouping
  | splitNew
  deriving DecidableEq

/-- One advert moved by one merge; `undone` once a detach has taken it back. -/
structure LedgerRow where
  event : Nat
  group : GroupId
  survivor : Nat
  retired : Nat
  listing : Nat
  prev : Nat
  reason : LedgerReason
  undone : Bool := false
  deriving DecidableEq

/-! ### Rule 15 -/

/-- The field that makes two adverts two properties. -/
inductive ClashField where
  | categoryType
  | categoryMain
  deriving DecidableEq

abbrev AdCategory := Option String × Option String

def categoryClash (left right : AdCategory) : Option ClashField :=
  match left.1, right.1 with
  | some one, some other =>
      if one ≠ other then some .categoryType
      else if categoryMainCompatible left.2 right.2 then none else some .categoryMain
  | _, _ => if categoryMainCompatible left.2 right.2 then none else some .categoryMain

/-- One contentful advert of a member, as rule 15's gate reads it. -/
structure GateAd (α : Type) where
  member : α
  category : AdCategory
  listing : Nat
  deriving DecidableEq

/-- The pair of categories is held by some member already. -/
def heldTogether {α : Type} [DecidableEq α] (ads : List (GateAd α)) (left right : AdCategory) :
    Bool :=
  ads.any fun one => ads.any fun other => one.member == other.member &&
    ((one.category == left && other.category == right) ||
      (one.category == right && other.category == left))

/-- The first pair of two members the gate refuses that no member already holds. -/
def firstClash {α : Type} [DecidableEq α] (ads : List (GateAd α)) :
    Option (ClashField × GateAd α × GateAd α) :=
  go ads
where
  go : List (GateAd α) → Option (ClashField × GateAd α × GateAd α)
    | [] => none
    | head :: rest =>
        match rest.findSome? fun other =>
          if head.member ≠ other.member ∧ heldTogether ads head.category other.category = false then
            (categoryClash head.category other.category).map fun field => (field, head, other)
          else none with
        | some clash => some clash
        | none => go rest

inductive MergeRefusal where
  | tooFew
  | rulerMissing
  | missingOrInactive
  | categoryClash (field : ClashField) (members : Nat × Nat) (ads : Nat × Nat)
  deriving DecidableEq

/-! ### What a detach answers -/

inductive Outcome where
  | detached
  | splitNative
  | splitNew
  | notMerged
  | lastNative
  | movedOn
  | movedSince
  | onOrigin
  | originMovedOn
  deriving DecidableEq, Repr

/-- The outcomes that move the advert. -/
def Outcome.moves : Outcome → Bool
  | .detached | .splitNative | .splitNew => true
  | _ => false

/-- Where a detach finds an advert, what it answers, the ledger rows it undoes and
where the advert goes; no target is a record not yet born. -/
structure DetachPlan where
  current : Option Nat
  outcome : Outcome
  undo : List LedgerRow
  target : Option Nat
  deriving DecidableEq

def stays (current : Option Nat) (outcome : Outcome) : DetachPlan where
  current := current
  outcome := outcome
  undo := []
  target := current

/-- The plan over the advert's live ledger rows, oldest first. A native advert leaves
only while another own advert stays. -/
def detachPlan (current : Option Nat) (moves : List LedgerRow) (group : Option GroupId)
    (size : Nat × Nat) : DetachPlan :=
  match moves.head?, moves.getLast? with
  | some first, some last =>
      let replay (undo : List LedgerRow) (target : Nat) : DetachPlan :=
        if current ≠ some last.survivor then stays current .movedSince
        else if some target = current then stays current .onOrigin
        else { current := current, outcome := .detached, undo := undo, target := some target }
      match group with
      | some asked =>
          if last.group ≠ asked then
            stays current (if moves.any fun row => row.group == asked then .movedOn else .notMerged)
          else replay [last] last.prev
      | none => replay moves first.prev
  | _, _ =>
      if group.isSome || decide (size.1 < 2) then stays current .notMerged
      else if size.2 < 2 then stays current .lastNative
      else { current := current, outcome := .splitNative, undo := [], target := none }

/-- The origin was retired since into another property by a merge that stands. -/
def originGone (origin : Option Property) (undo : List LedgerRow) : Bool :=
  match origin with
  | none => true
  | some row => row.status != .active && row.mergedInto != (undo.head?.map LedgerRow.survivor)

/-- One advert's answer inside a call. -/
structure Detached where
  listing : Nat
  outcome : Outcome
  left : Option Nat
  target : Option Nat
  undo : List LedgerRow
  deriving DecidableEq

/-! ### The tables -/

/-- Decision 17: the oldest record, unknown last, then the lowest id. -/
def survivorRank (firstSeen : Option Timestamp) (property : Nat) : Bool ×ₗ Timestamp ×ₗ Nat :=
  toLex (firstSeen.isNone, toLex (firstSeen.getD 0, property))

/-- The tables the two writers share. The adverts' own facts do not change. -/
structure Identity where
  adverts : List Advert
  distinct : (adverts.map Advert.listing).Nodup
  place : Nat → Option Nat
  property : Nat → Option Property
  ledger : List LedgerRow
  nextProperty : Nat
  nextEvent : Nat

namespace Identity

/-! ### Reads -/

def isActive (state : Identity) (property : Nat) : Bool :=
  (state.property property).any fun row => row.status == .active

/-- The adverts of a property, as the advert table lists them. -/
def membersOf (state : Identity) (property : Nat) : List Advert :=
  state.adverts.filter fun advert => state.place advert.listing == some property

def advertsOn (state : Identity) (property : Nat) : List Nat :=
  sortedIds ((state.membersOf property).map Advert.listing)

/-- The live ledger rows of an advert, oldest first. -/
def liveMoves (state : Identity) (listing : Nat) : List LedgerRow :=
  state.ledger.filter fun row => row.listing == listing && !row.undone

/-- The adverts of a property, and its own among them: no standing merge moved them there. -/
def sizes (state : Identity) (property : Nat) : Nat × Nat :=
  let here := state.advertsOn property
  (here.length, (here.filter fun listing => (state.liveMoves listing).isEmpty).length)

def knows (state : Identity) (listing : Nat) : Bool :=
  state.adverts.any fun advert => advert.listing == listing

/-- `_RESOLVE_SURVIVORS_SQL`: follow the pointers to an active property, 20 hops at most. -/
def resolveFrom (state : Identity) : Nat → Nat → Option Nat
  | 0, property => if state.isActive property then some property else none
  | fuel + 1, property =>
      match state.property property with
      | none => none
      | some row =>
          if row.status = .active then some property
          else row.mergedInto.bind (state.resolveFrom fuel)

def resolveActive (state : Identity) (property : Nat) : Option Nat :=
  state.resolveFrom 20 property

/-! ### The merge -/

def survivorOf (state : Identity) (ids : List Nat) : Option Nat :=
  (sortedBy (fun property =>
    survivorRank ((state.property property).bind Property.firstSeen) property) ids).head?

/-- `_SET_ADS_SQL`: one row per member, deal type and category, its lowest contentful advert. -/
def setAds (state : Identity) (ids : List Nat) : List (GateAd Nat) :=
  let rows := ids.flatMap fun property =>
    ((state.membersOf property).filter fun advert => !advert.contentless).map fun advert =>
      ({ member := property, category := (advert.categoryType, advert.categoryMain),
         listing := advert.listing } : GateAd Nat)
  sortedBy (fun ad => toLex (ad.member, ad.listing)) (rows.filter fun ad =>
    rows.all fun other => other.member != ad.member || other.category != ad.category ||
      decide (ad.listing ≤ other.listing))

/-- The gates of a merge, read under its lock: the members, then their adverts. -/
def mergeGate (state : Identity) (ids : List Nat) : Except MergeRefusal Unit :=
  if ids.any fun property => !state.isActive property then .error .missingOrInactive
  else
    match firstClash (state.setAds ids) with
    | some (field, one, other) =>
        .error (.categoryClash field (one.member, other.member) (one.listing, other.listing))
    | none => .ok ()

/-- One more ledger row, under the next event id. -/
def appendRow (state : Identity) (row : Nat → LedgerRow) : Identity :=
  { state with
    ledger := state.ledger ++ [row state.nextEvent]
    nextEvent := state.nextEvent + 1 }

/-- The row of one advert the retired property holds. -/
def moveRow (group : GroupId) (survivor retired : Nat) (reason : LedgerReason) (listing event : Nat) :
    LedgerRow where
  event := event
  group := group
  survivor := survivor
  retired := retired
  listing := listing
  prev := retired
  reason := reason

/-- `_LEDGER_SQL`: one row per advert the retired property holds. -/
def recordMoves (state : Identity) (group : GroupId) (survivor retired : Nat)
    (reason : LedgerReason) : Identity :=
  (state.membersOf retired).foldl (fun next advert =>
    next.appendRow (moveRow group survivor retired reason advert.listing)) state

/-- `_REPOINT_SQL`: every advert of the retired property onto the survivor. -/
def repoint (state : Identity) (survivor retired : Nat) : Identity :=
  { state with place := fun listing =>
      if state.place listing = some retired then some survivor else state.place listing }

def updateProperty (state : Identity) (property : Nat) (change : Property → Property) : Identity :=
  { state with property := fun other =>
      if other = property then (state.property other).map change else state.property other }

/-- `_RETIRE_SQL`. -/
def retire (state : Identity) (survivor retired : Nat) : Identity :=
  state.updateProperty retired fun row =>
    { row with status := .mergedAway, mergedInto := some survivor }

/-- One retired property into the survivor. -/
def mergePair (group : GroupId) (survivor : Nat) (reason : LedgerReason) (state : Identity)
    (retired : Nat) : Identity :=
  ((state.recordMoves group survivor retired reason).repoint survivor retired).retire survivor
    retired

/-- The rollup's `first_seen_at`: the earliest of the adverts; a property without one keeps its own. -/
def recomputed (state : Identity) (property : Nat) (row : Property) : Property :=
  match state.membersOf property with
  | [] => row
  | members => { row with firstSeen := (members.filterMap Advert.firstSeen).min? }

/-- `properties_changed`, in what the writers read back. -/
def propertiesChanged (state : Identity) (ids : List Nat) : Identity :=
  { state with property := fun property =>
      if property ∈ ids then (state.property property).map (state.recomputed property)
      else state.property property }

/-- The survivor of an active set and the members it retires, in id order, or a refusal. -/
def mergeMembers (state : Identity) (propertyIds : List Nat) (source : MergeSource)
    (decidedBy : Option String) : Except MergeRefusal (Nat × List Nat) :=
  let ids := sortedIds propertyIds.dedup
  if ids.length < 2 then .error .tooFew
  else if source = .operator ∧ (decidedBy.getD "").isEmpty then .error .rulerMissing
  else do
    state.mergeGate ids
    match state.survivorOf ids with
    | none => .error .tooFew
    | some survivor => .ok (survivor, ids.filter (· ≠ survivor))

/-- An active set merged into its oldest record, under one group. -/
def mergePropertySet (state : Identity) (propertyIds : List Nat) (source : MergeSource)
    (reason : String) (group : GroupId) (decidedBy : Option String) :
    Except MergeRefusal Identity := do
  let (survivor, retired) ← state.mergeMembers propertyIds source decidedBy
  let merged := retired.foldl (mergePair group survivor (.merge reason)) state
  .ok (merged.propertiesChanged (survivor :: retired))

/-! ### The detach -/

/-- The plan of one advert, from the tables as they stand; none for an unknown advert. -/
def planDetach (state : Identity) (listing : Nat) (group : Option GroupId) : Option DetachPlan :=
  if state.knows listing then
    let current := state.place listing
    let moves := state.liveMoves listing
    let size :=
      match current with
      | some property => if group.isNone && moves.isEmpty then state.sizes property else (0, 0)
      | none => (0, 0)
    some (detachPlan current moves group size)
  else none

def movedTo (state : Identity) (target : Option Nat) (listing : Nat) : Identity :=
  { state with place := fun other => if other = listing then target else state.place other }

/-- `_MOVE_ADVERT_SQL`, the compare-and-set; none where the advert sits elsewhere. -/
def moveAdvert (state : Identity) (target : Option Nat) (listing current : Nat) : Option Identity :=
  if state.place listing = some current then some (state.movedTo target listing) else none

/-- `_UNDO_SQL`. -/
def undoRows (state : Identity) (events : List Nat) : Identity :=
  { state with ledger := state.ledger.map fun row =>
      if row.event ∈ events then { row with undone := true } else row }

/-- `_REACTIVATE_SQL`. -/
def reactivate (state : Identity) (property : Nat) : Identity :=
  state.updateProperty property fun row =>
    if row.status = .mergedAway then { row with status := .active, mergedInto := none } else row

/-- `create_singleton_properties` for one unlinked advert. -/
def bearSingleton (state : Identity) (listing : Nat) : Nat × Identity :=
  let born := state.nextProperty
  let linked := state.movedTo (some born) listing
  (born, { linked with
    property := fun other => if other = born then some {} else state.property other
    nextProperty := born + 1 })

/-- `_INGEST_GROUPING_SQL`: the birth's own ledger row, closed as it is written. -/
def birthRow (group : GroupId) (left born : Nat) (reason : LedgerReason) (listing event : Nat) :
    LedgerRow :=
  { moveRow group left born reason listing event with undone := true }

/-- An advert leaves for a new record: a native one while another own advert stays,
or one the caller names. -/
def bear (state : Identity) (listing current : Nat) (named : Bool) (group : GroupId) :
    Identity × Outcome × List LedgerRow × Option Nat :=
  match state.planDetach listing none with
  | none => (state, .movedSince, [], some current)
  | some plan =>
      if plan.current ≠ some current then (state, .movedSince, [], some current)
      else if !named && plan.outcome != .splitNative then
        (state, if plan.outcome = .notMerged ∨ plan.outcome = .lastNative then plan.outcome
          else .movedSince, [], some current)
      else
        let live := state.liveMoves listing
        match state.moveAdvert none listing current with
        | none => (state, .movedSince, [], some current)
        | some unlinked =>
            let closed := if live.isEmpty then unlinked
              else unlinked.undoRows (live.map LedgerRow.event)
            let (born, placed) := closed.bearSingleton listing
            let row := birthRow group current born
              (if live.isEmpty then .ingestGrouping else .splitNew) listing
            (placed.appendRow row, if live.isEmpty then .splitNative else .splitNew,
              live ++ [row placed.nextEvent], some born)

/-- One advert off its property, planned again here: it sees the call's earlier adverts. -/
def detachOne (state : Identity) (listing : Nat) (found : Option Nat) (group : Option GroupId)
    (named : Bool) (birthGroup : GroupId) : Identity × Detached :=
  let planned := (state.planDetach listing group).getD (stays found .movedSince)
  let plan := if planned.current ≠ found then stays found .movedSince else planned
  let answer (outcome : Outcome) (undo : List LedgerRow) (target : Option Nat) : Detached :=
    { listing := listing, outcome := outcome, left := plan.current, target := target, undo := undo }
  match plan.current with
  | none => (state, answer plan.outcome plan.undo plan.target)
  | some current =>
      if named || plan.outcome == .splitNative then
        let (next, outcome, undo, target) := state.bear listing current named birthGroup
        (next, answer outcome undo target)
      else if plan.outcome = .detached then
        if originGone (plan.target.bind state.property) plan.undo then
          (state, answer .originMovedOn [] (some current))
        else
          match state.moveAdvert plan.target listing current, plan.target with
          | some moved, some target =>
              ((moved.undoRows (plan.undo.map LedgerRow.event)).reactivate target,
                answer .detached plan.undo (some target))
          | _, _ => (state, answer .movedSince [] (some current))
      else (state, answer plan.outcome plan.undo plan.target)

/-- The adverts of one call, in the caller's order, each from the state the last one left. -/
def detachEach (state : Identity) (places : Nat → Option Nat) (group : Option GroupId)
    (named : List Nat) (births : Nat → GroupId) (listings : List Nat) :
    Identity × List Detached :=
  listings.foldl (fun (done : Identity × List Detached) listing =>
    let (next, answer) := done.1.detachOne listing (places listing) group
      (named.contains listing) (births listing)
    (next, done.2 ++ [answer])) (state, [])

/-- A set of adverts off their properties; an unknown advert refuses the set. `births`
are the uuids drawn for the records the call bears. -/
def detachListings (state : Identity) (listingIds : List Nat) (group : Option GroupId)
    (named : List Nat) (births : Nat → GroupId) : Option (Identity × List Detached) :=
  let ids := listingIds.eraseDups
  if ids.any fun listing => !state.knows listing then none
  else
    let (next, done) := state.detachEach state.place group named births ids
    let moved := done.filter fun answer => answer.outcome.moves
    some (next.propertiesChanged (moved.flatMap fun answer =>
      answer.left.toList ++ answer.target.toList), done)

end Identity

end Sreality.Toolkit
