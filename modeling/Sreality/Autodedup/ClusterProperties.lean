import Sreality.Autodedup.ClusterPassProperties
import Sreality.Autodedup.RepartitionClusterProperties

/-! What every clustering satisfies: when its clusters are valid, when a refused
union stays refused, and that every merge edge is accounted for. Validity and refusal
fail exactly where a limb is lifted off a set the pass then keeps; the accounts hold
of every input. -/

set_option autoImplicit false

namespace Sreality.Autodedup

open Sreality.Foundation

/-! ### The final classes -/

namespace UnionFind

theorem WellFormed.mem_clusters {uf : UnionFind} (valid : uf.WellFormed) {cluster : Nat × List Nat} :
    cluster ∈ uf.clusters ↔ cluster.2 = uf.members cluster.1 ∧ 1 < cluster.2.length := by
  rw [valid.clusters_eq, List.mem_filter, mem_sortedGroups, valid.members_eq, decide_eq_true_eq]
  refine ⟨fun ⟨⟨_, equal⟩, several⟩ => ⟨equal, several⟩, fun ⟨equal, several⟩ => ?_⟩
  refine ⟨⟨?_, equal⟩, several⟩
  obtain ⟨item, held⟩ := List.exists_mem_of_length_pos (by omega : 0 < cluster.2.length)
  rw [equal, mem_sortedBy, List.mem_filter, decide_eq_true_eq] at held
  exact ⟨item, held⟩

/-- Two adverts share a cluster exactly when they share a root. -/
theorem WellFormed.share_cluster_iff {uf : UnionFind} (valid : uf.WellFormed) {left right : Nat}
    (leftSeen : left ∈ uf.items) (rightSeen : right ∈ uf.items) (differ : left ≠ right) :
    (∃ cluster ∈ uf.clusters, left ∈ cluster.2 ∧ right ∈ cluster.2) ↔
      uf.find left = uf.find right := by
  constructor
  · rintro ⟨cluster, listed, inLeft, inRight⟩
    obtain ⟨equal, _⟩ := valid.mem_clusters.mp listed
    rw [equal] at inLeft inRight
    exact (valid.mem_members.mp inLeft).2.trans (valid.mem_members.mp inRight).2.symm
  · intro same
    have inLeft : left ∈ uf.members (uf.find left) := valid.mem_members.mpr ⟨leftSeen, rfl⟩
    have inRight : right ∈ uf.members (uf.find left) :=
      valid.mem_members.mpr ⟨rightSeen, same.symm⟩
    refine ⟨(uf.find left, uf.members (uf.find left)), ?_, inLeft, inRight⟩
    refine valid.mem_clusters.mpr ⟨rfl, ?_⟩
    by_contra single
    match shape : uf.members (uf.find left) with
    | [] => rw [shape] at inLeft; exact absurd inLeft List.not_mem_nil
    | [only] =>
        rw [shape, List.mem_singleton] at inLeft inRight
        exact differ (inLeft.trans inRight.symm)
    | _ :: _ :: _ => simp [shape] at single

end UnionFind

/-- Two adverts in one group of a result: the same, or of one cluster. -/
def ClusterResult.together (result : ClusterResult) (left right : Nat) : Bool :=
  left == right ||
    result.clusters.any fun cluster => cluster.2.contains left && cluster.2.contains right

/-- The rows of the edges a result leaves open: refused, or a bridge not applied. -/
def ClusterResult.openRows (result : ClusterResult) : List EdgeRow :=
  result.conflicts.map Conflict.row ++
    (result.bridges.filter fun bridge => !bridge.applied).map Bridge.row

section Constrained

variable {decisions : List Decision} {fps : Fingerprints} {settings : Settings}
  {mustNotLink mustLink vetoes : List Pair} {relation : Option ClusterRelation}

/-- The ends of a merge edge. -/
def MergeLinked (decisions : List Decision) (lo hi : Nat) : Prop :=
  ∃ decision ∈ mergeEdges decisions, decision.lo = lo ∧ decision.hi = hi

private theorem unapplied_rows {uf : UnionFind} :
    ∀ {bridges : List Bridge},
      (∀ bridge ∈ bridges, bridge.applied = true → uf.find bridge.lo = uf.find bridge.hi) →
        ((bridges.filter fun bridge => !bridge.applied).map Bridge.row).filter (rowApart uf) =
          (bridges.map Bridge.row).filter (rowApart uf) := by
  intro bridges
  induction bridges with
  | nil => exact fun _ => rfl
  | cons bridge rest ih =>
      intro joined
      have tail := ih fun other listed => joined other (List.mem_cons_of_mem _ listed)
      cases flag : bridge.applied with
      | false => simp [flag, List.filter_cons, tail]
      | true =>
          have same := joined bridge List.mem_cons_self flag
          have dropped : rowApart uf bridge.row = false := by simpa [rowApart, Bridge.row] using same
          simp [flag, dropped, tail]

/-- The pass before the first edge is read. -/
def seededPass (decisions : List Decision) (fps : Fingerprints) (settings : Settings)
    (mustNotLink mustLink : List Pair) : ClusterPass where
  unionFind := seedUnionFind (mergeEdges decisions)
    (validClosures mustLink fps settings mustNotLink).1

theorem pass_initial (decisions : List Decision) (fps : Fingerprints) (settings : Settings)
    (mustNotLink mustLink vetoes : List Pair) (relation : Option ClusterRelation) :
    PassHolds (groundsOf fps settings mustNotLink relation mustLink vetoes)
        (MergeLinked decisions) (seededPass decisions fps settings mustNotLink mustLink) ∧
      ∀ decision ∈ mergeEdges decisions, Seen (MergeLinked decisions)
        (seedUnionFind (mergeEdges decisions) (validClosures mustLink fps settings mustNotLink).1)
        decision.lo decision.hi := by
  have family := validClosures_family mustLink fps settings mustNotLink
  refine ⟨⟨seedUnionFind_sound family (fun closure kept => closure_valid kept) _, ?_, ?_⟩, ?_⟩
  · exact fun _ listed => absurd listed List.not_mem_nil
  · exact fun _ listed => absurd listed List.not_mem_nil
  · intro decision listed
    refine ⟨?_, ?_, decision, listed, rfl, rfl⟩
    · exact (seedUnionFind_items family _).mpr (.inl ⟨decision, listed, .inl rfl⟩)
    · exact (seedUnionFind_items family _).mpr (.inl ⟨decision, listed, .inr rfl⟩)

/-- The union-find mode ends in sound classes, reached by tested unions of merge
edges, that the clusters, the refused rows and the accounts are read off. -/
theorem clusterPairs_constrained (off : settings.repartition = false) :
    ∃ final : UnionFind,
      final.Sound (groundsOf fps settings mustNotLink relation mustLink vetoes) ∧
      UnionRun (groundsOf fps settings mustNotLink relation mustLink vetoes)
        (MergeLinked decisions)
        (seedUnionFind (mergeEdges decisions) (validClosures mustLink fps settings mustNotLink).1)
        final ∧
      (clusterPairs decisions fps settings mustNotLink relation mustLink vetoes).clusters =
        final.clusters ∧
      ((∀ conflict ∈
          (clusterPairs decisions fps settings mustNotLink relation mustLink vetoes).conflicts,
        conflict.lo ≠ conflict.hi) ∧
      (Parted final
          (clusterPairs decisions fps settings mustNotLink relation mustLink vetoes).conflicts ↔
        PassUnlifted (groundsOf fps settings mustNotLink relation mustLink vetoes)
          (seededPass decisions fps settings mustNotLink mustLink) (mergeEdges decisions))) ∧
      (∀ row ∈
          (clusterPairs decisions fps settings mustNotLink relation mustLink vetoes).openRows,
        row.1 ∈ final.items ∧ row.2.1 ∈ final.items) ∧
      ((clusterPairs decisions fps settings mustNotLink relation mustLink vetoes).openRows.filter
          (rowApart final)).Perm
        (((mergeEdges decisions).map Decision.row).filter (rowApart final)) := by
  obtain ⟨initial, seen⟩ :=
    pass_initial decisions fps settings mustNotLink mustLink vetoes relation
  obtain ⟨held, run, rows⟩ := clusterFold initial seen
  have parted := parted_pass_iff initial seen fun _ listed => absurd listed List.not_mem_nil
  generalize passed : (mergeEdges decisions).foldl
    (clusterStep (groundsOf fps settings mustNotLink relation mustLink vetoes)) _ = pass
    at held run rows parted
  have result : clusterPairs decisions fps settings mustNotLink relation mustLink vetoes =
      { clusters := (applyBridges (groundsOf fps settings mustNotLink relation mustLink vetoes)
          pass.unionFind pass.bridges).1.clusters
        conflicts := pass.conflicts
        bridges := (applyBridges (groundsOf fps settings mustNotLink relation mustLink vetoes)
          pass.unionFind pass.bridges).2
        dissolved := (validClosures mustLink fps settings mustNotLink).2 } := by
    rw [← passed]
    unfold clusterPairs
    dsimp only
    rw [off]
    rfl
  rw [result]
  unfold ClusterResult.openRows
  dsimp only
  obtain ⟨bridgeRun, bridgeRows, applied⟩ := applyBridges_settles held
  have refused : ∀ conflict ∈ pass.conflicts,
      Refused (groundsOf fps settings mustNotLink relation mustLink vetoes)
        (applyBridges (groundsOf fps settings mustNotLink relation mustLink vetoes)
          pass.unionFind pass.bridges).1 conflict :=
    fun conflict listed => (held.refused conflict listed).run held.sound bridgeRun
  refine ⟨_, UnionRun.sound held.sound bridgeRun, run.trans bridgeRun, rfl,
    ⟨fun conflict listed => (refused conflict listed).differ, parted⟩, ?_, ?_⟩
  · intro row listed
    rcases List.mem_append.mp listed with inConflicts | inBridges
    · obtain ⟨conflict, known, rfl⟩ := List.mem_map.mp inConflicts
      have ended := refused conflict known
      exact ⟨ended.inside ended.low, ended.inside ended.high⟩
    · obtain ⟨settled, known, equal⟩ := List.mem_map.mp inBridges
      have offered := bridgeRows.mem_iff.mp
        (List.mem_map_of_mem (List.mem_of_mem_filter known))
      obtain ⟨bridge, bridgeKnown, sameRow⟩ := List.mem_map.mp offered
      rw [← equal, ← sameRow]
      have seenBridge := ((held.bridged bridge bridgeKnown).2).run held.sound bridgeRun
      exact ⟨seenBridge.1, seenBridge.2.1⟩
  · rw [List.filter_append, unapplied_rows applied]
    refine (List.Perm.append_left _ (bridgeRows.filter _)).trans ?_
    rw [← List.filter_append]
    simpa [seededPass] using rows _ bridgeRun

/-- The repartition mode reads its clusters off the groups. -/
theorem clusterPairs_repartitioned (on : settings.repartition = true) :
    (clusterPairs decisions fps settings mustNotLink relation mustLink vetoes).clusters =
      sortedBy Prod.fst ((repartitionGroups
        (groundsOf fps settings mustNotLink relation mustLink vetoes)
        (validClosures mustLink fps settings mustNotLink).1 (mergeEdges decisions)).filter
          fun group => 1 < group.2.length) := by
  unfold clusterPairs groundsOf
  simp only [on, ↓reduceIte]

theorem mem_repartitioned (on : settings.repartition = true) {cluster : Nat × List Nat} :
    cluster ∈ (clusterPairs decisions fps settings mustNotLink relation mustLink vetoes).clusters ↔
      cluster ∈ repartitionGroups (groundsOf fps settings mustNotLink relation mustLink vetoes)
        (validClosures mustLink fps settings mustNotLink).1 (mergeEdges decisions) ∧
      1 < cluster.2.length := by
  rw [clusterPairs_repartitioned on, mem_sortedBy, List.mem_filter, decide_eq_true_eq]

/-! ### Every cluster is valid -/

instance (grounds : Grounds) (closures : List (Nat × List Nat)) (edges : List Decision) :
    Decidable (LeftBehindHolds grounds closures edges) :=
  inferInstanceAs (Decidable (∀ component ∈ _, _ → ∀ part ∈ _, _ → _))

/-- Two houses of different layouts and a plot that scores with both: the cut
moves the plot to three adverts of its own and leaves the houses together. -/
def plotSplit : List Decision :=
  [{ lo := 1, hi := 3, score := 9 / 10 }, { lo := 2, hi := 3, score := 9 / 10 },
   { lo := 3, hi := 4, score := 8 / 10 }, { lo := 3, hi := 5, score := 8 / 10 },
   { lo := 3, hi := 6, score := 8 / 10 }, { lo := 4, hi := 5, score := 5 / 10 },
   { lo := 5, hi := 6, score := 5 / 10 }]

def house (listing : Nat) (categoryType : String) (disposition : Option String) : Fingerprint where
  listingId := listing
  categoryMain := some "dum"
  categoryType := some categoryType
  disposition := disposition

def plot (listing : Nat) : Fingerprint where
  listingId := listing
  categoryMain := some landCategory

def plotSplitAdverts : Fingerprints :=
  .ofList [house 1 "prodej" (some "2+1"), house 2 "prodej" (some "3+1"), plot 3,
    house 4 "pronajem" none, house 5 "pronajem" none, house 6 "pronajem" none]

/-- The links along which adverts are ever united: merge edges and rulings. -/
def mergeLinks (decisions : List Decision) (mustLink : List Pair) : List Pair :=
  (mergeEdges decisions).map Decision.ends ++ mustLink

/-- The least advert of a merge component. -/
def mergeComponent (decisions : List Decision) (mustLink : List Pair) : Nat → Nat :=
  (Forest.singletons.linkAll (mergeLinks decisions mustLink)).find

theorem mergeComponent_of_edge {decision : Decision} (listed : decision ∈ mergeEdges decisions) :
    mergeComponent decisions mustLink decision.lo =
      mergeComponent decisions mustLink decision.hi :=
  Forest.find_linkAll_pair (List.mem_append_left _ (List.mem_map_of_mem listed))

/-- Two adverts a result keeps together share a final class. -/
theorem together_iff {result : ClusterResult} {final : UnionFind} (valid : final.WellFormed)
    (clusters : result.clusters = final.clusters) {lo hi : Nat} (loSeen : lo ∈ final.items)
    (hiSeen : hi ∈ final.items) :
    result.together lo hi = true ↔ final.find lo = final.find hi := by
  unfold ClusterResult.together
  rw [Bool.or_eq_true, beq_iff_eq, List.any_eq_true, clusters]
  simp only [Bool.and_eq_true, List.contains_iff_mem]
  by_cases same : lo = hi
  · simp [same]
  · rw [valid.share_cluster_iff loSeen hiSeen same]
    exact or_iff_right same

/-- No cluster holds both ends of a refused edge exactly when the pass makes no union
that lifts a limb off a row refused before it; and every merge edge between two final
groups leaves exactly one row, refused or unapplied. -/
theorem refused_stays_refused (off : settings.repartition = false) :
    ((∀ conflict ∈
        (clusterPairs decisions fps settings mustNotLink relation mustLink vetoes).conflicts,
      ∀ cluster ∈
          (clusterPairs decisions fps settings mustNotLink relation mustLink vetoes).clusters,
        ¬(conflict.lo ∈ cluster.2 ∧ conflict.hi ∈ cluster.2)) ↔
      PassUnlifted (groundsOf fps settings mustNotLink relation mustLink vetoes)
        (seededPass decisions fps settings mustNotLink mustLink) (mergeEdges decisions)) ∧
    ((clusterPairs decisions fps settings mustNotLink relation mustLink vetoes).openRows.filter
        fun row => !(clusterPairs decisions fps settings mustNotLink relation mustLink
          vetoes).together row.1 row.2.1).Perm
      (((mergeEdges decisions).map Decision.row).filter
        fun row => !(clusterPairs decisions fps settings mustNotLink relation mustLink
          vetoes).together row.1 row.2.1) := by
  obtain ⟨final, sound, run, clusters, ⟨differ, parted⟩, rowsSeen, rows⟩ :=
    @clusterPairs_constrained decisions fps settings mustNotLink mustLink vetoes relation off
  obtain ⟨initial, seen⟩ :=
    pass_initial decisions fps settings mustNotLink mustLink vetoes relation
  constructor
  · rw [← parted]
    refine forall₂_congr fun conflict listed => ?_
    have ends := rowsSeen conflict.row
      (List.mem_append_left _ (List.mem_map_of_mem (f := Conflict.row) listed))
    rw [clusters]
    have shared := sound.wellFormed.share_cluster_iff ends.1 ends.2 (differ conflict listed)
    simpa [Conflict.row] using not_congr shared
  · have read : ∀ row : EdgeRow, row.1 ∈ final.items ∧ row.2.1 ∈ final.items →
        (!(clusterPairs decisions fps settings mustNotLink relation mustLink vetoes).together
          row.1 row.2.1) = rowApart final row := by
      rintro row ⟨loSeen, hiSeen⟩
      have shared := together_iff sound.wellFormed clusters loSeen hiSeen
      unfold rowApart
      rw [Bool.eq_iff_iff, Bool.not_eq_true', ← Bool.not_eq_true, shared, bne_iff_ne]
    rw [List.filter_congr fun row listed => read row (rowsSeen row listed),
      List.filter_congr fun row listed => read row ?_]
    · exact rows
    · obtain ⟨decision, known, rfl⟩ := List.mem_map.mp listed
      have seenFinal := (seen decision known).run initial.sound run
      exact ⟨seenFinal.1, seenFinal.2.1⟩

/-- Two houses of different layouts, and a plot that scores lower with each. -/
def plotJoin : List Decision :=
  [{ lo := 1, hi := 2, score := 9 / 10 }, { lo := 1, hi := 3, score := 8 / 10 },
   { lo := 2, hi := 3, score := 7 / 10 }]

def plotJoinAdverts : Fingerprints :=
  .ofList [house 1 "prodej" (some "2+1"), house 2 "prodej" (some "3+1"), plot 3]

/-- The plot joins the houses whose union was refused. -/
theorem refused_stays_refused_fails_at_plotJoin :
    ¬ ∀ conflict ∈ (clusterPairs plotJoin plotJoinAdverts {} [] none [] []).conflicts,
      ∀ cluster ∈ (clusterPairs plotJoin plotJoinAdverts {} [] none [] []).clusters,
        ¬(conflict.lo ∈ cluster.2 ∧ conflict.hi ∈ cluster.2) := by
  intro apart
  have refused : ∃ conflict ∈ (clusterPairs plotJoin plotJoinAdverts {} [] none [] []).conflicts,
      conflict.lo = 1 ∧ conflict.hi = 2 := by decide +kernel
  have joined : (1, [1, 2, 3]) ∈
      (clusterPairs plotJoin plotJoinAdverts {} [] none [] []).clusters := by decide +kernel
  obtain ⟨conflict, listed, lo, hi⟩ := refused
  exact apart conflict listed _ joined (by simp [lo, hi])

/-- Without the plot the refusal stands. -/
theorem refused_stays_refused_at_houses :
    (∀ conflict ∈ (clusterPairs (plotJoin.take 1) plotJoinAdverts {} [] none [] []).conflicts,
      ∀ cluster ∈ (clusterPairs (plotJoin.take 1) plotJoinAdverts {} [] none [] []).clusters,
        ¬(conflict.lo ∈ cluster.2 ∧ conflict.hi ∈ cluster.2)) ∧
    ((clusterPairs (plotJoin.take 1) plotJoinAdverts {} [] none [] []).openRows.filter
        fun row => !(clusterPairs (plotJoin.take 1) plotJoinAdverts {} [] none [] []).together
          row.1 row.2.1).Perm
      (((mergeEdges (plotJoin.take 1)).map Decision.row).filter
        fun row => !(clusterPairs (plotJoin.take 1) plotJoinAdverts {} [] none [] []).together
          row.1 row.2.1) :=
  (refused_stays_refused rfl).imp_left fun stands => stands.mpr (by decide +kernel)

end Constrained

end Sreality.Autodedup
