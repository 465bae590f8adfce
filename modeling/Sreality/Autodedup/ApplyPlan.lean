import Mathlib.Algebra.Order.Monoid.Unbundled.WithTop
import Mathlib.Data.Finset.Max
import Mathlib.Data.Finset.Union
import Sreality.Autodedup.AppliedMerges
import Sreality.Foundation.Rounds

/-! One generation's groups into production merges (`autodedup/apply.py`): the plan over many
groups, read without a lock, and the group's own transaction, which reads again over locked
rows what the plan read and merges through `merge_property_set`. -/

set_option autoImplicit false

namespace Sreality.Autodedup

open Sreality.Foundation Sreality.Toolkit

/-! ### The operator's negatives -/

/-- The operator's negatives over a set of listings, each under its lowest listing. -/
structure Negatives where
  mustNotLink : Nat → List Nat
  pairs : Nat → List Nat
  sets : Nat → List (Finset Nat)
  setlessKeys : List Nat

/-- The pair a row rules. -/
def Ruling.pair (ruling : Ruling) : Option (Nat × Nat) :=
  match ruling.ruled with
  | .pair lo hi => some (lo, hi)
  | .cluster _ _ => none

/-- The set a group ruling names; one of fewer than two listings names none. -/
def Ruling.set (ruling : Ruling) : Option (Finset Nat) :=
  match ruling.ruled with
  | .cluster _ (some members) => if members.toFinset.card < 2 then none else some members.toFinset
  | _ => none

/-- The key of a group ruling without its set. -/
def Ruling.setless (ruling : Ruling) : Option Nat :=
  match ruling.ruled with
  | .cluster key none => some key
  | _ => none

namespace Negatives

/-- `PAIR_VERDICTS_SQL`: the pairs whose newest ruling is negative. -/
def pairRulings (database : Database) (listings : List Nat) : List (Nat × Nat) :=
  ((distinctOn Ruling.pair Ruling.order (database.rulings.filter fun ruling =>
    ruling.pair.any fun pair => decide (pair.1 ∈ listings ∧ pair.2 ∈ listings))).filter
      fun ruling => ruling.verdict.negative).filterMap Ruling.pair

/-- `CLUSTER_VERDICTS_SQL`: the group rulings that name one of the listings, or none at all. -/
def clusterRulings (database : Database) (listings keys : List Nat) : List Ruling :=
  database.rulings.filter fun ruling =>
    match ruling.ruled with
    | .cluster _ (some members) => members.any fun member => decide (member ∈ listings)
    | .cluster key none => decide (key ∈ keys)
    | .pair _ _ => false

/-- `Negatives.read`. -/
def read (database : Database) (listings keys : List Nat) : Negatives :=
  if listings = [] then
    { mustNotLink := fun _ => [], pairs := fun _ => [], sets := fun _ => [], setlessKeys := [] }
  else
    let rows := clusterRulings database listings keys
    let newestSets := distinctOn Ruling.set Ruling.order (rows.filter fun row => row.set.isSome)
    let newestKeys := distinctOn Ruling.setless Ruling.order
      (rows.filter fun row => row.setless.isSome)
    { mustNotLink := fun lo => (database.mustNotLink.filter fun row =>
        decide (row.1 ∈ listings ∧ row.2 ∈ listings ∧ row.1 = lo)).map (·.2)
      pairs := fun lo =>
        ((pairRulings database listings).filter fun pair => decide (pair.1 = lo)).map (·.2)
      sets := fun lo => ((newestSets.filter fun row => row.verdict.negative).filterMap
        Ruling.set).filter fun ruled => decide (ruled.min = (lo : WithTop Nat))
      setlessKeys := (newestKeys.filter fun row => row.verdict.negative).filterMap Ruling.setless }

end Negatives

/-- Why a group is refused. -/
inductive SkipReason where
  | unattachedMember
  | propertyNotActive
  | operatorGroupVerdict
  | operatorPairVerdict
  | mustNotLink
  | categoryTypeMix
  | categoryMainIncompatible
  | carriesOutOfScope
  | propertySpansGroups
  | carriesUngrouped
  | refusedBefore
  | changedSincePlan
  | ruledAfterMerge
  deriving DecidableEq

/-- A refusal that stands when its condition does. -/
def refusal (reason : SkipReason) (stands : Bool) : List SkipReason :=
  if stands then [reason] else []

/-- Which negatives a property holding exactly these listings would contradict. -/
def Negatives.hits (negatives : Negatives) (listings : Finset Nat) (clusterKey : Nat) :
    List SkipReason :=
  let ordered := ascending listings
  refusal .operatorGroupVerdict ((ordered.any fun lo =>
      (negatives.sets lo).any fun ruled => decide (ruled ⊆ listings)) ||
        decide (clusterKey ∈ negatives.setlessKeys)) ++
    refusal .operatorPairVerdict (ordered.any fun lo =>
      (negatives.pairs lo).any fun hi => decide (hi ∈ listings)) ++
    refusal .mustNotLink (ordered.any fun lo =>
      (negatives.mustNotLink lo).any fun hi => decide (hi ∈ listings))

/-! ### The checks of a set -/

/-- `_set_reasons`: the categories of the listings and of the properties, and the scope. -/
def setReasons (facts : List Member) (properties : List AdCategory) (scope : Scope) :
    List SkipReason :=
  let types := (facts.filterMap Member.categoryType ++ properties.filterMap (·.1)).dedup
  let mains := (facts.map Member.categoryMain ++ properties.map (·.2)).dedup
  refusal .categoryTypeMix (decide (1 < types.length)) ++
    refusal .categoryMainIncompatible
      (decide ¬ mains.Pairwise fun one other => categoryMainCompatible one other = true) ++
    refusal .carriesOutOfScope (facts.any fun fact => (scope.outside fact).isSome)

/-- A live merge of this engine, by its group. -/
structure EngineMerge where
  survivor : Option Nat
  members : Finset Nat
  deriving DecidableEq

/-- `ENGINE_MERGES_SQL`, one row a group. -/
def engineMerges (database : Database) (listings : Finset Nat) : List EngineMerge :=
  (distinctOn AppliedMerge.group (fun row => OrderDual.toDual row.id)
    (database.appliedMerges.filter fun row =>
      row.live && row.members.any fun member => decide (member ∈ listings))).map fun row =>
        { survivor := row.survivor, members := row.members.toFinset }

/-- One engine merge vouches for what it put beside a listing vouched before. -/
def vouchedBy (extended : Finset Nat) (propertyOf : Nat → Option Nat) (vouched : Finset Nat)
    (merge : EngineMerge) : Finset Nat :=
  ((merge.members ∩ extended) \ vouched).filter fun listing =>
    (propertyOf listing).isSome ∧
      ∃ anchor ∈ merge.members ∩ vouched, propertyOf anchor = propertyOf listing

def vouchStep (extended : Finset Nat) (propertyOf : Nat → Option Nat)
    (state : Finset Nat × Bool) (merge : EngineMerge) : Finset Nat × Bool :=
  let more := vouchedBy extended propertyOf state.1 merge
  (state.1 ∪ more, state.2 || decide (more ≠ ∅))

/-- `_engine_vouched`, closed over the live engine merges. -/
def engineVouched (members extended : Finset Nat) (propertyOf : Nat → Option Nat)
    (merges : List EngineMerge) : Finset Nat :=
  (rounds (fun vouched => merges.foldl (vouchStep extended propertyOf) (vouched, false))
    (extended.card + 1) members).1

/-! ### The plan -/

structure ClusterRow where
  key : Nat
  proposed : Bool
  deriving DecidableEq

structure GroupPlan where
  clusterKey : Nat
  memberIds : List Nat
  propertyIds : List Nat
  survivorId : Option Nat
  retiredIds : List Nat
  reasons : List SkipReason
  listingIds : Finset Nat
  placement : List (Nat × List Nat)
  deriving DecidableEq

structure Plan where
  groups : List GroupPlan
  deferred : List Nat

def Plan.toApply (plan : Plan) : List GroupPlan :=
  plan.groups.filter fun group => decide (group.reasons = [])

/-- What the plan read for all its groups. -/
structure Reads where
  database : Database
  properties : List Nat
  members : List Member
  groupOf : Nat → Option Nat
  negatives : Negatives
  held : Finset Nat
  refusedSets : List (Finset Nat)

namespace Reads

variable (reads : Reads)

/-- The listings of a property the plan read. -/
def children (property : Nat) : Finset Nat :=
  if property ∈ reads.properties then (reads.database.identity.advertsOn property).toFinset else ∅

/-- `prop_of`. -/
def propertyOf (listing : Nat) : Option Nat :=
  if reads.database.identity.knows listing then
    (reads.database.identity.place listing).filter fun own => decide (own ∈ reads.properties)
  else none

/-- `listing_of`: the listing as a property's child, else as a group's member. -/
def fact (listing : Nat) : Member :=
  match (reads.database.propertyListings reads.properties ++ reads.members).find? fun row =>
      decide (row.listing = listing) with
  | some row => row
  | none =>
      { listing := listing, property := none, categoryType := none, categoryMain := none
        location := {} }

/-- The rows `PROPERTIES_SQL` has of these properties, by their categories. -/
def categories (properties : List Nat) : List AdCategory :=
  (properties.filter fun property =>
    (reads.database.identity.property property).isSome).map reads.database.propertyCategory

/-- The listings a merge of these members would put on the survivor. -/
def extended (members : List Member) : Finset Nat :=
  (members.map Member.listing).toFinset ∪
    (members.filterMap Member.property).toFinset.biUnion reads.children

/-- A group already on one property: reported when a negative covers it. -/
def settledGroup (key : Nat) (members : List Member) (property : Nat) : Option GroupPlan :=
  let extended := reads.extended members
  if reads.negatives.hits extended key = [] then none
  else some
    { clusterKey := key
      memberIds := sortedIds (members.map Member.listing)
      propertyIds := [property]
      survivorId := some property
      retiredIds := []
      reasons := [.ruledAfterMerge]
      listingIds := extended
      placement := [] }

/-- A group that would merge, or why it is refused. -/
def candidateGroup (scope : Scope) (key : Nat) (members : List Member) : GroupPlan :=
  let memberSet := (members.map Member.listing).toFinset
  let propertyIds := sortedIds (members.filterMap Member.property).dedup
  let inactive := propertyIds.any fun property => !reads.database.identity.isActive property
  let extended := reads.extended members
  let carried := extended \ memberSet
  let vouched := engineVouched memberSet (extended \ reads.held) reads.propertyOf
    (engineMerges reads.database extended)
  let survivor :=
    if !inactive && decide (2 ≤ propertyIds.length) then
      reads.database.identity.survivorOf propertyIds
    else none
  { clusterKey := key
    memberIds := sortedIds (members.map Member.listing)
    propertyIds := propertyIds
    survivorId := survivor
    retiredIds := survivor.elim [] fun survivor => propertyIds.filter (· ≠ survivor)
    reasons :=
      refusal .unattachedMember (members.any fun member => member.property.isNone) ++
      refusal .propertyNotActive inactive ++
      reads.negatives.hits extended key ++
      setReasons ((ascending extended).map reads.fact) (reads.categories propertyIds) scope ++
      refusal .propertySpansGroups ((ascending extended).any fun listing =>
        decide (listing ∈ carried) && (reads.groupOf listing).any fun other => decide (other ≠ key)) ++
      refusal .carriesUngrouped ((ascending extended).any fun listing =>
        decide (listing ∈ carried \ vouched) && (reads.groupOf listing).isNone) ++
      refusal .refusedBefore (decide (memberSet ∈ reads.refusedSets))
    listingIds := extended
    placement := propertyIds.map fun property =>
      (property, ascending (reads.children property)) }

end Reads

/-- The groups the plan is handed, by their rows and their members. -/
structure Handed where
  clusterRows : List ClusterRow
  membersBy : List (Nat × List Member)

def Handed.members (handed : Handed) (key : Nat) : List Member :=
  (handed.membersBy.lookup key).getD []

/-- `listing_group`: the last group handed that holds the listing. -/
def Handed.listingGroup (handed : Handed) (listing : Nat) : Option Nat :=
  ((handed.membersBy.filter fun entry =>
    entry.2.any fun member => decide (member.listing = listing)).getLast?).map (·.1)

/-- A group on one property already. -/
def settled (members : List Member) : Bool :=
  decide ((members.filterMap Member.property).dedup.length < 2) &&
    members.all fun member => member.property.isSome

/-- What `plan_groups` reads for the groups it plans, over every listing they involve. -/
def planReads (database : Database) (generation : String) (realTime : Bool) (handed : Handed)
    (groupOf : Option (Nat → Option Nat)) (everyone : List Nat) : Reads :=
  let members := everyone.flatMap handed.members
  let properties := (members.filterMap Member.property).dedup
  let every := (members.map Member.listing).toFinset ∪
    ((database.propertyListings properties).map Member.listing).toFinset
  { database := database
    properties := properties
    members := members
    groupOf := fun listing => (handed.listingGroup listing).or
      (groupOf.bind fun groupOf => if listing ∈ every then groupOf listing else none)
    negatives := Negatives.read database (ascending every) everyone
    held := if realTime then every.filter (· ∈ database.fingerprinted) else ∅
    refusedSets := (database.appliedMerges.filter fun row =>
      !row.dryRun && row.outcome == .refused && row.generation == generation &&
        row.members.any fun member => decide (member ∈ every)).map fun row =>
          row.members.toFinset }

/-- `plan_groups`: the groups proposed and inside the scope, each with what refuses it. -/
def planGroups (database : Database) (generation : String) (realTime : Bool) (handed : Handed)
    (scope : Scope) (groupOf : Option (Nat → Option Nat)) (cap : Bool) : Plan :=
  let everyone := (handed.clusterRows.filter fun row =>
    row.proposed && decide (handed.members row.key ≠ []) &&
      (scope.groupOutside (handed.members row.key)).isNone).map (·.key)
  let reads := planReads database generation realTime handed groupOf everyone
  let groups := sortedBy GroupPlan.clusterKey (
    (everyone.filter fun key => settled (handed.members key)).filterMap (fun key =>
      ((handed.members key).filterMap Member.property).head?.bind
        (reads.settledGroup key (handed.members key))) ++
    (everyone.filter fun key => !settled (handed.members key)).map fun key =>
      reads.candidateGroup scope key (handed.members key))
  let eligible := groups.filter fun group => decide (group.reasons = [])
  let deferred := if cap then (eligible.drop scope.maxClustersPerRun).map (·.clusterKey) else []
  { groups := groups.filter fun group => decide (group.clusterKey ∉ deferred)
    deferred := deferred }

/-! ### The group's transaction -/

/-- `recheck_group`: the plan's word, read again over the locked rows. -/
def recheckGroup (database : Database) (group : GroupPlan) (scope : Scope) :
    List SkipReason × List (Nat × List Nat) :=
  let rows := database.propertyListings group.propertyIds
  let now := (rows.map Member.listing).toFinset
  let placed := group.propertyIds.map fun property =>
    (property, sortedIds ((rows.filter fun row => decide (row.property = some property)).map
      Member.listing))
  if now ≠ group.listingIds then ([.changedSincePlan], group.placement)
  else
    let locked := group.propertyIds.filter fun property =>
      (database.identity.property property).isSome
    (refusal .propertyNotActive
        (group.propertyIds.any fun property => !database.identity.isActive property) ++
      (Negatives.read database (ascending now) [group.clusterKey]).hits now group.clusterKey ++
      setReasons rows (locked.map database.propertyCategory) scope, placed)

/-- `_rows_for`: one ledger row a retired property, or one for a group that names none. -/
def rowsFor (database : Database) (generation : String) (group : GroupPlan)
    (outcome : AppliedOutcome) (mergeGroup : Option GroupId) (now : Timestamp) :
    List AppliedMerge :=
  let row := fun (place : Nat) (retired : Option Nat) =>
    { id := (database.appliedMerges.map AppliedMerge.id).foldl max 0 + 1 + place
      generation := generation
      clusterKey := group.clusterKey
      survivor := group.survivorId
      retired := retired
      group := mergeGroup
      dryRun := false
      outcome := outcome
      members := group.memberIds
      placement := group.placement
      appliedAt := now
      undone := false : AppliedMerge }
  if group.retiredIds = [] then [row 0 none]
  else group.retiredIds.mapIdx fun place retired => row place (some retired)

/-- The rows of a group filed in the engine's ledger. -/
def filed (database : Database) (rows : List AppliedMerge) : Database :=
  { database with appliedMerges := database.appliedMerges ++ rows }

/-- `LEDGER_CLOSE_PAIRS_SQL`: an earlier merge of the same pairs stands no more. -/
def closePairs (survivor : Nat) (retired : List Nat) (rows : List AppliedMerge) :
    List AppliedMerge :=
  updateRows (fun row => row.live && decide (row.survivor = some survivor) &&
    row.retired.any fun own => decide (own ∈ retired)) (fun row => { row with undone := true }) rows

inductive ApplyOutcome where
  | applied (survivor : Nat)
  | skippedAtApply (reasons : List SkipReason)
  | refused (refusal : MergeRefusal)
  | failed (refusal : MergeRefusal)
  deriving DecidableEq

/-- The two refusals of a merge, as the ledger names them. -/
def ofRefusal : MergeRefusal → ApplyOutcome × AppliedOutcome
  | .categoryClash field members ads => (.refused (.categoryClash field members ads), .refused)
  | refusal => (.failed refusal, .failed)

/-- `apply_group`: one planned group through the chokepoint, in its own transaction. -/
def applyGroup (database : Database) (group : GroupPlan) (scope : Scope) (generation : String)
    (mergeGroup : GroupId) (now : Timestamp) : ApplyOutcome × Database :=
  let (reasons, placement) := recheckGroup database group scope
  let group := { group with placement := placement }
  if reasons ≠ [] then
    (.skippedAtApply reasons,
      filed database (rowsFor database generation group .skipped none now))
  else
    let reason := s!"autodedup {generation} {group.clusterKey}"
    match database.identity.mergeMembers group.propertyIds .autodedup none with
    | .error refusal =>
        ((ofRefusal refusal).1,
          filed database (rowsFor database generation group (ofRefusal refusal).2 none now))
    | .ok (survivor, retired) =>
        match database.identity.mergePropertySet group.propertyIds .autodedup reason mergeGroup
            none with
        | .error refusal =>
            ((ofRefusal refusal).1,
              filed database (rowsFor database generation group (ofRefusal refusal).2 none now))
        | .ok identity =>
            let group := { group with survivorId := some survivor, retiredIds := retired }
            (.applied survivor,
              { filed { database with
                  appliedMerges := closePairs survivor retired database.appliedMerges }
                  (rowsFor database generation group .applied (some mergeGroup) now) with
                identity := identity
                mergedAt := fun property =>
                  if property ∈ retired then some now else database.mergedAt property })

end Sreality.Autodedup
