import Sreality.Autodedup.Repartition
import Sreality.Autodedup.UnionFind

/-! Merge edges to validated clusters (`autodedup/cluster.py`). Edges are read
certificates first and then in descending score; every union is tested on the
merged member set, and a refused one is recorded. The operator's `same` rulings
enter as closures, kept whole or dissolved whole. -/

set_option autoImplicit false

namespace Sreality.Autodedup

open Sreality.Foundation

inductive Zone where
  | merge
  | band
  | reject
  | veto
  deriving DecidableEq, Repr

structure Decision where
  lo : Nat
  hi : Nat
  zone : Zone := .merge
  score : ℚ
  families : List String := []
  certificate : Option String := none

namespace Decision

def ends (decision : Decision) : Pair := (decision.lo, decision.hi)

end Decision

/-- An empty certificate certifies nothing where it is read as a truth value. -/
def certifies (certificate : Option String) : Bool :=
  match certificate with
  | some name => name != ""
  | none => false

def edgeRank (decision : Decision) : Rank :=
  rankKey (certifies decision.certificate) decision.score decision.lo decision.hi

/-- One refused union. -/
structure Conflict where
  lo : Nat
  hi : Nat
  score : ℚ
  certificate : Option String
  invariant : Invariant
  members : List Nat
  families : List String
  pair : Option Pair
  deriving DecidableEq

/-- One union of two multi-member clusters, recorded rather than made. -/
structure Bridge where
  lo : Nat
  hi : Nat
  score : ℚ
  certificate : Option String
  families : List String
  leftCluster : Nat
  rightCluster : Nat
  leftMembers : List Nat
  rightMembers : List Nat
  applied : Bool := false
  invariant : Option Invariant := none
  deriving DecidableEq

/-- The order `edgeRank` gives an edge, read off a recorded bridge. -/
def bridgeRank (bridge : Bridge) : Rank :=
  rankKey (certifies bridge.certificate) bridge.score bridge.lo bridge.hi

/-- A closure the hard limbs refused, and the rulings it came from. -/
structure Dissolved where
  lo : Nat
  hi : Nat
  invariant : Invariant
  members : List Nat
  mustLink : List Pair
  deriving DecidableEq

structure ClusterResult where
  clusters : List (Nat × List Nat)
  conflicts : List Conflict
  bridges : List Bridge
  dissolved : List Dissolved
  deriving DecidableEq

/-! ### What a union is tested on -/

/-- The data every merged member set is tested against. -/
structure Grounds where
  fps : Fingerprints
  settings : Settings
  mustNotLink : List Pair
  relation : Option BoundRelation
  closureOf : Nat → Option Nat

/-- The invariant a member set breaks; a member without a fingerprint is not read. -/
def Grounds.refusal (grounds : Grounds) (members : List Nat) : Option Invariant :=
  clusterInvariantsOk (members.filterMap grounds.fps.get) grounds.settings grounds.mustNotLink
    grounds.relation grounds.closureOf

/-- The two adverts a stated fact parts, named beside the union it refused. -/
def refusingPair (invariant : Invariant) (relation : Option BoundRelation)
    (members : List Nat) : Option Pair :=
  match invariant, relation with
  | .d43Distinguishable, some bound => bound.violatingPair members
  | _, _ => none

/-! ### Must-link closures -/

/-- Every advert a list of pairs names, once. -/
def endsOf (pairs : List Pair) : List Nat :=
  (pairs.flatMap fun pair => [pair.1, pair.2]).dedup

/-- A ruling links two different adverts the pass can both read. -/
def linkingPairs (mustLink : List Pair) (known : Nat → Bool) : List Pair :=
  (sortedBy (fun pair : Pair => toLex pair) mustLink).filter fun pair =>
    pair.1 ≠ pair.2 && known pair.1 && known pair.2

/-- The connected components of the `same` rulings, keyed by their smallest id. -/
def mustLinkClosures (mustLink : List Pair) (known : Nat → Bool) : List (Nat × List Nat) :=
  let pairs := linkingPairs mustLink known
  let forest := Forest.singletons.linkAll pairs
  (sortedGroups forest.find (endsOf pairs)).filter fun closure => 1 < closure.2.length

/-- What the hard limbs say of one closure: its own spreads are not read. -/
def closureRefusal (fps : Fingerprints) (settings : Settings) (mustNotLink : List Pair)
    (closure : Nat × List Nat) : Option Invariant :=
  clusterInvariantsOk (closure.2.filterMap fps.get) settings mustNotLink none
    (fun member => if member ∈ closure.2 then some closure.1 else none)

def dissolvedRow (mustLink : List Pair) (members : List Nat) (invariant : Invariant) : Dissolved where
  lo := members.headD 0
  hi := members.getLastD 0
  invariant := invariant
  members := members
  mustLink := (sortedBy (fun pair : Pair => toLex pair) mustLink).filter fun pair =>
    pair.1 ≠ pair.2 && members.contains pair.1 && members.contains pair.2

/-- The closures the hard limbs accept, and one record per closure they dissolved. -/
def validClosures (mustLink : List Pair) (fps : Fingerprints) (settings : Settings)
    (mustNotLink : List Pair) : List (Nat × List Nat) × List Dissolved :=
  let closures := mustLinkClosures mustLink fun listing => (fps.get listing).isSome
  (closures.filter fun closure => (closureRefusal fps settings mustNotLink closure).isNone,
    closures.filterMap fun closure =>
      (closureRefusal fps settings mustNotLink closure).map (dissolvedRow mustLink closure.2))

/-- The closure an advert is a member of. -/
def closureOf (closures : List (Nat × List Nat)) (listing : Nat) : Option Nat :=
  (closures.find? fun closure => closure.2.contains listing).map Prod.fst

/-! ### The repartition mode -/

/-- The node an advert stands in: its closure, or itself. -/
def nodeOf (closures : List (Nat × List Nat)) (listing : Nat) : Nat :=
  (closureOf closures listing).getD listing

/-- The adverts a set of nodes stands for. -/
def expand (closures : List (Nat × List Nat)) (nodes : List Nat) : List Nat :=
  sortedIds (nodes.flatMap fun node => (closures.lookup node).getD [node])

/-- An edge re-attached to the closures of its ends; one inside a closure disappears. -/
def contract (closures : List (Nat × List Nat)) (decision : Decision) : Option Decision :=
  let left := nodeOf closures decision.lo
  let right := nodeOf closures decision.hi
  if left = right then none
  else if (left, right) ≠ decision.ends then
    some { decision with lo := min left right, hi := max left right }
  else some decision

def graphEdge (decision : Decision) : Edge where
  lo := decision.lo
  hi := decision.hi
  score := decision.score
  certificate := decision.certificate.isSome

/-- The nodes of two adverts, where a ruling or a stated fact parts them. -/
def nodeBlock (grounds : Grounds) (closures : List (Nat × List Nat)) (left right : Nat) :
    Option Pair :=
  let a := nodeOf closures left
  let b := nodeOf closures right
  if a = b then none
  else if grounds.mustNotLink.contains (left, right) ||
      (grounds.relation.any fun bound => !bound.ok left right) then
    some (min a b, max a b)
  else none

/-- The pairwise refusals inside a set of nodes, as node pairs. -/
def nodeBlockers (grounds : Grounds) (closures : List (Nat × List Nat)) (nodes : List Nat) :
    List Pair :=
  sortedBy (fun pair : Pair => toLex pair)
    (collectPairs (nodeBlock grounds closures) (expand closures nodes)).dedup

def nodeInvariants (grounds : Grounds) (closures : List (Nat × List Nat)) (nodes : List Nat) :
    Option Invariant :=
  grounds.refusal (expand closures nodes)

/-- The invariants, and promotion's bar where cells may be rejoined. -/
def strictNodeInvariants (grounds : Grounds) (closures : List (Nat × List Nat))
    (nodes : List Nat) : Option Invariant :=
  match nodeInvariants grounds closures nodes with
  | some broken => some broken
  | none =>
      let strictRelation :=
        if grounds.settings.repartitionRejoinCells then grounds.relation.map BoundRelation.strict
        else none
      if strictRelation.any fun strict =>
          (strict.violatingPair (expand closures nodes)).isSome then
        some .d43Strict
      else none

/-- The dials of a settings row, over the contracted graph. -/
def partitionSpec (grounds : Grounds) (closures : List (Nat × List Nat)) : PartitionSpec where
  invariants := nodeInvariants grounds closures
  maxRounds := grounds.settings.repartitionMaxRounds
  keepFactless := grounds.settings.repartitionKeepFactless
  rejoinCells := grounds.settings.repartitionRejoinCells
  rejoinInvariants := some (strictNodeInvariants grounds closures)
  shedBlockers :=
    if grounds.settings.repartitionShedBlockers then some (nodeBlockers grounds closures) else none
  shedMax := grounds.settings.repartitionShedMax
  shedMaxUnion := grounds.settings.repartitionShedMaxUnion
  outerRounds := grounds.settings.repartitionOuterRounds
  shedFactlessGuard := grounds.settings.repartitionShedFactlessGuard
  reconcileFactlessFirst := grounds.settings.repartitionReconcileFactlessFirst

/-- The nodes of the contracted graph: those an edge touches, and the closures none does. -/
def graphNodes (closures : List (Nat × List Nat)) (contracted : List Decision) : List Nat :=
  let touched := endsOf (contracted.map Decision.ends)
  touched ++ (closures.map Prod.fst).filter (· ∉ touched)

/-- One component: whole where the invariants hold on it, cut into cells otherwise. -/
def componentCells (grounds : Grounds) (closures : List (Nat × List Nat)) (graph : List Edge)
    (component : List Nat) : List (List Nat) :=
  if (nodeInvariants grounds closures component).isNone then [component]
  else
    partition component
      (graph.filter fun edge => component.contains edge.lo && component.contains edge.hi)
      (partitionSpec grounds closures)

/-- The adverts of every cell, under the smallest of them. The cells share no
advert, so no key is written twice. -/
def repartitionGroups (grounds : Grounds) (closures : List (Nat × List Nat))
    (edges : List Decision) : List (Nat × List Nat) :=
  let contracted := edges.filterMap (contract closures)
  let graph := contracted.map graphEdge
  ((components (graphNodes closures contracted) graph).flatMap
    (componentCells grounds closures graph)).map fun cell =>
      let members := expand closures cell
      (members.min?.getD 0, members)

/-- The key of the group an advert is in. -/
def membership (grouped : List (Nat × List Nat)) (listing : Nat) : Option Nat :=
  (grouped.find? fun group => group.2.contains listing).map Prod.fst

/-- The group an advert is in, or the advert alone. -/
def groupOf (grouped : List (Nat × List Nat)) (listing : Nat) : List Nat :=
  ((membership grouped listing).bind fun key => grouped.lookup key).getD [listing]

/-- An edge the cut left between two groups, with what refuses their union. -/
def repartitionConflict (grounds : Grounds) (grouped : List (Nat × List Nat))
    (decision : Decision) : Option Conflict :=
  if membership grouped decision.lo = membership grouped decision.hi then none
  else
    let members := sortedIds (groupOf grouped decision.lo ++ groupOf grouped decision.hi).dedup
    let invariant := (grounds.refusal members).getD .repartition
    some
      { lo := decision.lo
        hi := decision.hi
        score := decision.score
        certificate := decision.certificate
        invariant := invariant
        members := members
        families := sortedIds decision.families
        pair := refusingPair invariant grounds.relation members }

/-! ### The union-find mode -/

/-- The constrained pass in progress. -/
structure ClusterPass where
  unionFind : UnionFind
  conflicts : List Conflict := []
  bridges : List Bridge := []

/-- Every end of an edge, then every closure, before the first edge is read. -/
def seedUnionFind (edges : List Decision) (closures : List (Nat × List Nat)) : UnionFind :=
  let added := edges.foldl (fun uf decision => (uf.add decision.lo).add decision.hi)
    UnionFind.empty
  closures.foldl (fun uf closure =>
    closure.2.foldl (fun uf member => uf.union (closure.2.headD 0) member) uf) added

def clusterStep (grounds : Grounds) (pass : ClusterPass) (decision : Decision) : ClusterPass :=
  let rootLo := pass.unionFind.find decision.lo
  let rootHi := pass.unionFind.find decision.hi
  if rootLo = rootHi then pass
  else
    let left := pass.unionFind.members rootLo
    let right := pass.unionFind.members rootHi
    if 1 < left.length ∧ 1 < right.length then
      { pass with bridges := pass.bridges ++
        [{ lo := decision.lo
           hi := decision.hi
           score := decision.score
           certificate := decision.certificate
           families := sortedIds decision.families
           leftCluster := rootLo
           rightCluster := rootHi
           leftMembers := left
           rightMembers := right }] }
    else
      let members := left ++ right
      match grounds.refusal members with
      | some invariant =>
          { pass with conflicts := pass.conflicts ++
            [{ lo := decision.lo
               hi := decision.hi
               score := decision.score
               certificate := decision.certificate
               invariant := invariant
               members := sortedIds members
               families := sortedIds decision.families
               pair := refusingPair invariant grounds.relation members }] }
      | none => { pass with unionFind := pass.unionFind.union rootLo rootHi }

/-- The merge edges read in order, from the seeded classes. -/
def constrainedPass (grounds : Grounds) (closures : List (Nat × List Nat))
    (edges : List Decision) : ClusterPass :=
  edges.foldl (clusterStep grounds) { unionFind := seedUnionFind edges closures }

/-- One recorded bridge re-offered, on the merged set. -/
def bridgeStep (grounds : Grounds) (state : UnionFind × List Bridge) (bridge : Bridge) :
    UnionFind × List Bridge :=
  let (uf, settled) := state
  if !(certifies bridge.certificate || decide (grounds.settings.bridgeMinScore ≤ bridge.score)) then
    (uf, settled ++ [{ bridge with invariant := some .bridgeScore }])
  else
    let rootLo := uf.find bridge.lo
    let rootHi := uf.find bridge.hi
    if rootLo = rootHi then (uf, settled ++ [{ bridge with invariant := some .redundant }])
    else
      match grounds.refusal (uf.members rootLo ++ uf.members rootHi) with
      | some invariant => (uf, settled ++ [{ bridge with invariant := some invariant }])
      | none => (uf.union rootLo rootHi, settled ++ [{ bridge with applied := true }])

/-- Re-offer each recorded bridge once. The rows are updated where they stand;
they were recorded in the order they are re-offered in. -/
def applyBridges (grounds : Grounds) (uf : UnionFind) (bridges : List Bridge) :
    UnionFind × List Bridge :=
  if grounds.settings.bridgeApply then
    (sortedBy bridgeRank bridges).foldl (bridgeStep grounds) (uf, [])
  else (uf, bridges)

/-! ### The pass -/

/-- The merge edges, in the order they are read. -/
def mergeEdges (decisions : List Decision) : List Decision :=
  sortedBy edgeRank (decisions.filter (·.zone == .merge))

/-- The operator's must-not-links, and the machine vetoes outside one closure. -/
def refusedPairs (closures : List (Nat × List Nat)) (mustNotLink machineVetoes : List Pair) :
    List Pair :=
  mustNotLink ++ machineVetoes.filter fun pair =>
    !sameClosure (closureOf closures) pair.1 pair.2

/-- What the pass tests unions on, once the closures are known. -/
def clusterGrounds (fps : Fingerprints) (settings : Settings) (mustNotLink : List Pair)
    (relation : Option ClusterRelation) (closures : List (Nat × List Nat))
    (machineVetoes : List Pair) : Grounds where
  fps := fps
  settings := settings
  mustNotLink := refusedPairs closures mustNotLink machineVetoes
  relation := relation.map fun read => { read with closureOf := closureOf closures }
  closureOf := closureOf closures

/-- Merge edges to validated clusters, one conflict row per refused union. -/
def clusterPairs (decisions : List Decision) (fps : Fingerprints) (settings : Settings)
    (mustNotLink : List Pair) (relation : Option ClusterRelation) (mustLink : List Pair)
    (machineVetoes : List Pair) : ClusterResult :=
  let (closures, dissolved) := validClosures mustLink fps settings mustNotLink
  let grounds := clusterGrounds fps settings mustNotLink relation closures machineVetoes
  let edges := mergeEdges decisions
  if settings.repartition then
    let grouped := repartitionGroups grounds closures edges
    { clusters := sortedBy Prod.fst (grouped.filter fun group => 1 < group.2.length)
      conflicts := edges.filterMap (repartitionConflict grounds grouped)
      bridges := []
      dissolved := dissolved }
  else
    let pass := constrainedPass grounds closures edges
    let (unionFind, bridges) := applyBridges grounds pass.unionFind pass.bridges
    { clusters := unionFind.clusters
      conflicts := pass.conflicts
      bridges := bridges
      dissolved := dissolved }

end Sreality.Autodedup
