import Sreality.Autodedup.Cluster

/-! The clustering is a function of the edge set. The edges are read in the order
of `edgeRank`, which two decisions on different pairs never share, the rulings
are read sorted, and the refused pairs are only ever looked up. -/

set_option autoImplicit false

namespace Sreality.Autodedup

open Sreality.Foundation

theorem rankKey_injective {certified other : Bool} {score otherScore : ℚ}
    {lo hi otherLo otherHi : Nat}
    (same : rankKey certified score lo hi = rankKey other otherScore otherLo otherHi) :
    lo = otherLo ∧ hi = otherHi := by
  have first := (Prod.mk.inj (toLex.injective same)).2
  have second := (Prod.mk.inj (toLex.injective first)).2
  exact Prod.mk.inj (toLex.injective second)

theorem edgeRank_injective {left right : Decision} (same : edgeRank left = edgeRank right) :
    left.ends = right.ends := by
  obtain ⟨lo, hi⟩ := rankKey_injective same
  exact Prod.ext lo hi

theorem mergeEdges_perm {decisions others : List Decision} (same : decisions.Perm others)
    (onePerPair : (decisions.map Decision.ends).Nodup) :
    mergeEdges decisions = mergeEdges others := by
  refine sortedBy_eq_of_perm (same.filter _) ?_
  intro first firstMember second secondMember equal
  exact List.inj_on_of_nodup_map onePerPair (List.mem_of_mem_filter firstMember)
    (List.mem_of_mem_filter secondMember) (edgeRank_injective equal)

theorem sortedPairs_perm {pairs others : List Pair} (same : pairs.Perm others) :
    sortedBy (fun pair : Pair => toLex pair) pairs =
      sortedBy (fun pair : Pair => toLex pair) others :=
  sortedBy_eq_of_perm same fun _ _ _ _ equal => toLex.injective equal

/-- The refused pairs are a set: only membership is read. -/
theorem clusterInvariantsOk_congr_refused {members : List Fingerprint} {settings : Settings}
    {refused others : List Pair} {relation : Option BoundRelation}
    {closureOf : Nat → Option Nat} (same : ∀ pair, pair ∈ refused ↔ pair ∈ others) :
    clusterInvariantsOk members settings refused relation closureOf =
      clusterInvariantsOk members settings others relation closureOf := by
  simp only [clusterInvariantsOk, same]

theorem closureRefusal_congr {fps : Fingerprints} {settings : Settings}
    {mustNotLink others : List Pair} (same : ∀ pair, pair ∈ mustNotLink ↔ pair ∈ others) :
    closureRefusal fps settings mustNotLink = closureRefusal fps settings others :=
  funext fun _ => clusterInvariantsOk_congr_refused same

theorem validClosures_perm {mustLink otherLink mustNotLink others : List Pair}
    (fps : Fingerprints) (settings : Settings) (links : mustLink.Perm otherLink)
    (same : ∀ pair, pair ∈ mustNotLink ↔ pair ∈ others) :
    validClosures mustLink fps settings mustNotLink =
      validClosures otherLink fps settings others := by
  unfold validClosures dissolvedRow mustLinkClosures linkingPairs
  rw [sortedPairs_perm links, closureRefusal_congr same]

/-- Grounds that differ in the order their refused pairs are held in. -/
def Grounds.withRefused (grounds : Grounds) (refused : List Pair) : Grounds :=
  { grounds with mustNotLink := refused }

section Refused

variable {grounds : Grounds} {refused : List Pair}

theorem Grounds.refusal_withRefused
    (same : ∀ pair, pair ∈ grounds.mustNotLink ↔ pair ∈ refused) :
    (grounds.withRefused refused).refusal = grounds.refusal :=
  funext fun _ => clusterInvariantsOk_congr_refused fun pair => (same pair).symm

theorem partitionSpec_withRefused
    (same : ∀ pair, pair ∈ grounds.mustNotLink ↔ pair ∈ refused)
    (closures : List (Nat × List Nat)) :
    partitionSpec (grounds.withRefused refused) closures = partitionSpec grounds closures := by
  have invariants : nodeInvariants (grounds.withRefused refused) closures =
      nodeInvariants grounds closures := by
    unfold nodeInvariants
    rw [Grounds.refusal_withRefused same]
  have strict : strictNodeInvariants (grounds.withRefused refused) closures =
      strictNodeInvariants grounds closures := by
    unfold strictNodeInvariants
    rw [invariants]
    rfl
  have block : nodeBlock (grounds.withRefused refused) closures = nodeBlock grounds closures := by
    funext left right
    have held : (grounds.withRefused refused).mustNotLink.contains (left, right) =
        grounds.mustNotLink.contains (left, right) := by
      rw [Bool.eq_iff_iff, List.contains_iff_mem, List.contains_iff_mem, same]
      rfl
    unfold nodeBlock
    rw [held]
    rfl
  have blockers : nodeBlockers (grounds.withRefused refused) closures =
      nodeBlockers grounds closures := by
    unfold nodeBlockers
    rw [block]
  unfold partitionSpec
  rw [invariants, strict, blockers]
  rfl

theorem repartitionGroups_withRefused
    (same : ∀ pair, pair ∈ grounds.mustNotLink ↔ pair ∈ refused)
    (closures : List (Nat × List Nat)) (edges : List Decision) :
    repartitionGroups (grounds.withRefused refused) closures edges =
      repartitionGroups grounds closures edges := by
  unfold repartitionGroups componentCells nodeInvariants
  rw [Grounds.refusal_withRefused same, partitionSpec_withRefused same]

theorem repartitionConflict_withRefused
    (same : ∀ pair, pair ∈ grounds.mustNotLink ↔ pair ∈ refused)
    (grouped : List (Nat × List Nat)) :
    repartitionConflict (grounds.withRefused refused) grouped =
      repartitionConflict grounds grouped := by
  unfold repartitionConflict
  rw [Grounds.refusal_withRefused same]
  rfl

theorem constrainedPass_withRefused
    (same : ∀ pair, pair ∈ grounds.mustNotLink ↔ pair ∈ refused) :
    constrainedPass (grounds.withRefused refused) = constrainedPass grounds := by
  unfold constrainedPass clusterStep
  rw [Grounds.refusal_withRefused same]
  rfl

theorem applyBridges_withRefused
    (same : ∀ pair, pair ∈ grounds.mustNotLink ↔ pair ∈ refused) :
    applyBridges (grounds.withRefused refused) = applyBridges grounds := by
  unfold applyBridges bridgeStep
  rw [Grounds.refusal_withRefused same]
  rfl

end Refused

/-- The clusters, the conflicts, the bridges and the dissolved closures do not
depend on the order the edges arrive in, nor on the order the ruling and veto
sets are held in, whichever mode and dials the settings choose. -/
theorem clusterPairs_order_free {decisions others : List Decision} {fps : Fingerprints}
    {settings : Settings} {mustNotLink otherNotLink mustLink otherLink vetoes otherVetoes : List Pair}
    {relation : Option ClusterRelation} (edges : decisions.Perm others)
    (onePerPair : (decisions.map Decision.ends).Nodup) (notLinks : mustNotLink.Perm otherNotLink)
    (links : mustLink.Perm otherLink) (vetoed : vetoes.Perm otherVetoes) :
    clusterPairs decisions fps settings mustNotLink relation mustLink vetoes =
      clusterPairs others fps settings otherNotLink relation otherLink otherVetoes := by
  have closures := validClosures_perm fps settings links
    fun pair => notLinks.mem_iff
  have read := mergeEdges_perm edges onePerPair
  have refused : ∀ pair,
      pair ∈ refusedPairs (validClosures mustLink fps settings mustNotLink).1 mustNotLink vetoes ↔
        pair ∈ refusedPairs (validClosures mustLink fps settings mustNotLink).1 otherNotLink
          otherVetoes := by
    intro pair
    simp only [refusedPairs, List.mem_append, List.mem_filter, notLinks.mem_iff, vetoed.mem_iff]
  have grounds : clusterGrounds fps settings otherNotLink relation
        (validClosures mustLink fps settings mustNotLink).1 otherVetoes =
      (clusterGrounds fps settings mustNotLink relation
        (validClosures mustLink fps settings mustNotLink).1 vetoes).withRefused
        (refusedPairs (validClosures mustLink fps settings mustNotLink).1 otherNotLink
          otherVetoes) := rfl
  unfold clusterPairs
  dsimp only
  rw [← closures, ← read, grounds, repartitionGroups_withRefused refused,
    repartitionConflict_withRefused refused, constrainedPass_withRefused refused,
    applyBridges_withRefused refused]

/-- Adverts 2 and 3 state different floors; no two printed figures are read. -/
def floorsApart : ClusterRelation where
  readable := fun listing => decide (listing ≤ 3)
  separates := fun _ pair => decide (pair = (2, 3))
  printedAreasPrevail := fun _ _ => false
  printedSymm := fun _ _ => rfl

theorem clusterPairs_order_free_at_swap :
    clusterPairs [{ lo := 1, hi := 2, score := 1 / 2 }, { lo := 2, hi := 3, score := 1 / 2 }]
        (.ofList [{ listingId := 1 }, { listingId := 2 }, { listingId := 3 }])
        { repartition := true } [(1, 3), (2, 4)] (some floorsApart) [(1, 2), (2, 1)] [(3, 4), (4, 5)] =
      clusterPairs [{ lo := 2, hi := 3, score := 1 / 2 }, { lo := 1, hi := 2, score := 1 / 2 }]
        (.ofList [{ listingId := 1 }, { listingId := 2 }, { listingId := 3 }])
        { repartition := true } [(2, 4), (1, 3)] (some floorsApart) [(2, 1), (1, 2)] [(4, 5), (3, 4)] :=
  clusterPairs_order_free (.swap _ _ _) (by decide) (.swap _ _ _) (.swap _ _ _) (.swap _ _ _)

end Sreality.Autodedup
