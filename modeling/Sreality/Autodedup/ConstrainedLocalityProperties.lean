import Sreality.Autodedup.ClusterPassProperties
import Sreality.Autodedup.GroundsAgreementProperties

/-! The union-find mode is local. A pass over the whole edge set, seen through a
selection of adverts that no edge and no closure crosses, is the pass over the
edges inside it: what happens outside moves no class the selection holds. -/

set_option autoImplicit false

namespace Sreality.Autodedup

open Sreality.Foundation

namespace UnionFind

variable {keep : Nat → Bool} {whole part : UnionFind}

/-- The classes of the items selected, none of which crosses the selection. -/
structure Restricts (keep : Nat → Bool) (whole part : UnionFind) : Prop where
  wholeValid : whole.WellFormed
  partValid : part.WellFormed
  rooted : ∀ item, keep (whole.find item) = keep item
  find : ∀ item, keep item = true → part.find item = whole.find item
  items : ∀ item, item ∈ part.items ↔ item ∈ whole.items ∧ keep item = true

namespace Restricts

theorem members_kept (restricts : Restricts keep whole part) {root : Nat}
    (kept : keep root = true) : ∀ member ∈ whole.members root, keep member = true := by
  intro member held
  rw [← restricts.rooted, (restricts.wholeValid.mem_members.mp held).2]
  exact kept

theorem members (restricts : Restricts keep whole part) {root : Nat} (kept : keep root = true) :
    part.members root = whole.members root := by
  rw [restricts.partValid.members_eq, restricts.wholeValid.members_eq]
  refine sortedIds_eq_of_mem_iff (restricts.partValid.distinct.filter _)
    (restricts.wholeValid.distinct.filter _) fun item => ?_
  rw [List.mem_filter, List.mem_filter, restricts.items, decide_eq_true_eq, decide_eq_true_eq]
  constructor
  · rintro ⟨⟨seen, itemKept⟩, same⟩
    exact ⟨seen, (restricts.find item itemKept).symm.trans same⟩
  · rintro ⟨seen, rfl⟩
    have itemKept : keep item = true := (restricts.rooted item).symm.trans kept
    exact ⟨⟨seen, itemKept⟩, restricts.find item itemKept⟩

/-- A union inside the selection is made on both sides. -/
theorem union_kept (restricts : Restricts keep whole part) {left right : Nat}
    (leftKept : keep left = true) (rightKept : keep right = true) :
    Restricts keep (whole.union (whole.find left) (whole.find right))
      (part.union (whole.find left) (whole.find right)) := by
  have leftRoot : keep (whole.find left) = true := (restricts.rooted left).trans leftKept
  have rightRoot : keep (whole.find right) = true := (restricts.rooted right).trans rightKept
  have leastRoot : keep (min (whole.find left) (whole.find right)) = true := by
    rcases min_choice (whole.find left) (whole.find right) with choice | choice <;>
      rw [choice] <;> assumption
  refine ⟨restricts.wholeValid.union _ _, restricts.partValid.union _ _, ?_, ?_, ?_⟩
  · intro item
    rw [find_unionRoots]
    split_ifs with hit
    · rw [leastRoot, ← restricts.rooted item]
      rcases hit with hit | hit <;> rw [hit]
      · exact leftRoot.symm
      · exact rightRoot.symm
    · exact restricts.rooted item
  · intro item kept
    rw [find_union, find_union, restricts.find item kept, restricts.find _ leftRoot,
      restricts.find _ rightRoot]
  · intro item
    rw [mem_items_union, mem_items_union, restricts.items]
    constructor
    · rintro (rfl | rfl | ⟨seen, kept⟩)
      · exact ⟨.inl rfl, leftRoot⟩
      · exact ⟨.inr (.inl rfl), rightRoot⟩
      · exact ⟨.inr (.inr seen), kept⟩
    · rintro ⟨hit | hit | seen, kept⟩
      · exact .inl hit
      · exact .inr (.inl hit)
      · exact .inr (.inr ⟨seen, kept⟩)

/-- A union outside the selection is not seen through it. -/
theorem union_unkept (restricts : Restricts keep whole part) {left right : Nat}
    (leftOut : keep left = false) (rightOut : keep right = false) :
    Restricts keep (whole.union (whole.find left) (whole.find right)) part := by
  have leftRoot : keep (whole.find left) = false := (restricts.rooted left).trans leftOut
  have rightRoot : keep (whole.find right) = false := (restricts.rooted right).trans rightOut
  have leastRoot : keep (min (whole.find left) (whole.find right)) = false := by
    rcases min_choice (whole.find left) (whole.find right) with choice | choice <;>
      rw [choice] <;> assumption
  have outside : ∀ item, whole.find item = whole.find left ∨ whole.find item = whole.find right →
      keep item = false := by
    intro item hit
    rw [← restricts.rooted item]
    rcases hit with hit | hit <;> rw [hit] <;> assumption
  refine ⟨restricts.wholeValid.union _ _, restricts.partValid, ?_, ?_, ?_⟩
  · intro item
    rw [find_unionRoots]
    split_ifs with hit
    · rw [leastRoot, outside item hit]
    · exact restricts.rooted item
  · intro item kept
    rw [find_unionRoots, if_neg fun hit => by simp [outside item hit] at kept]
    exact restricts.find item kept
  · intro item
    rw [mem_items_union, restricts.items]
    constructor
    · exact fun ⟨seen, kept⟩ => ⟨.inr (.inr seen), kept⟩
    · rintro ⟨rfl | rfl | seen, kept⟩
      · simp [leftRoot] at kept
      · simp [rightRoot] at kept
      · exact ⟨seen, kept⟩

theorem clusters (restricts : Restricts keep whole part) :
    part.clusters = whole.clusters.filter fun cluster => keep cluster.1 := by
  have listed : part.items.Perm (whole.items.filter keep) := by
    refine (List.perm_ext_iff_of_nodup restricts.partValid.distinct
      (restricts.wholeValid.distinct.filter _)).mpr fun item => ?_
    rw [List.mem_filter, restricts.items]
  rw [restricts.partValid.clusters_eq, restricts.wholeValid.clusters_eq,
    sortedGroups_perm listed,
    sortedGroups_congr fun item held => restricts.find item (List.mem_filter.mp held).2,
    sortedGroups_filter fun item _ => (restricts.rooted item).symm, List.filter_comm]

end Restricts

end UnionFind

section Passes

variable {keep : Nat → Bool} {whole part : Grounds}

/-- Two classes of the selection are refused alike on both sides. -/
theorem refusal_restricts (agree : Grounds.AgreeOn keep whole part) {wide narrow : UnionFind}
    (restricts : wide.Restricts keep narrow) {left right : Nat} (leftKept : keep left = true)
    (rightKept : keep right = true) :
    part.refusal (narrow.members (narrow.find left) ++ narrow.members (narrow.find right)) =
      whole.refusal (wide.members (wide.find left) ++ wide.members (wide.find right)) := by
  have leftRoot := (restricts.rooted left).trans leftKept
  have rightRoot := (restricts.rooted right).trans rightKept
  rw [restricts.find left leftKept, restricts.find right rightKept, restricts.members leftRoot,
    restricts.members rightRoot]
  refine agree.refusal fun member held => ?_
  rcases List.mem_append.mp held with inLeft | inRight
  · exact restricts.members_kept leftRoot member inLeft
  · exact restricts.members_kept rightRoot member inRight

/-- The pass over the whole edge set, seen through a selection. -/
structure PassRestricts (keep : Nat → Bool) (whole part : ClusterPass) : Prop where
  unionFind : whole.unionFind.Restricts keep part.unionFind
  bridges : part.bridges = whole.bridges.filter fun bridge => keep bridge.lo
  crossing : ∀ bridge ∈ whole.bridges, keep bridge.lo = keep bridge.hi

theorem PassRestricts.step_kept (agree : Grounds.AgreeOn keep whole part)
    {wide narrow : ClusterPass} (restricts : PassRestricts keep wide narrow) {decision : Decision}
    (loKept : keep decision.lo = true) (hiKept : keep decision.hi = true) :
    PassRestricts keep (clusterStep whole wide decision) (clusterStep part narrow decision) := by
  have loRoot : keep (wide.unionFind.find decision.lo) = true :=
    (restricts.unionFind.rooted _).trans loKept
  have hiRoot : keep (wide.unionFind.find decision.hi) = true :=
    (restricts.unionFind.rooted _).trans hiKept
  unfold clusterStep
  dsimp only
  rw [refusal_restricts agree restricts.unionFind loKept hiKept,
    restricts.unionFind.find _ loKept, restricts.unionFind.find _ hiKept,
    restricts.unionFind.members loRoot, restricts.unionFind.members hiRoot]
  split_ifs with same several
  · exact restricts
  · refine ⟨restricts.unionFind, ?_, ?_⟩
    · rw [restricts.bridges, List.filter_append]
      simp [loKept]
    · intro bridge listed
      rcases List.mem_append.mp listed with earlier | new
      · exact restricts.crossing bridge earlier
      · rw [List.mem_singleton.mp new]
        exact loKept.trans hiKept.symm
  · cases whole.refusal (wide.unionFind.members (wide.unionFind.find decision.lo) ++
        wide.unionFind.members (wide.unionFind.find decision.hi)) with
    | some invariant => exact ⟨restricts.unionFind, restricts.bridges, restricts.crossing⟩
    | none =>
        exact ⟨restricts.unionFind.union_kept loKept hiKept, restricts.bridges,
          restricts.crossing⟩

theorem PassRestricts.step_unkept {wide narrow : ClusterPass}
    (restricts : PassRestricts keep wide narrow) {decision : Decision}
    (loOut : keep decision.lo = false) (hiOut : keep decision.hi = false) :
    PassRestricts keep (clusterStep whole wide decision) narrow := by
  rcases clusterStep_cases whole wide decision with ⟨_, equal⟩ | ⟨bridge, row, _, _, equal⟩ |
    ⟨_, _, _, _, _, equal⟩ | ⟨_, _, equal⟩
  · rw [equal]
    exact restricts
  · have lo : bridge.lo = decision.lo := congrArg Prod.fst row
    have hi : bridge.hi = decision.hi := congrArg (fun row : EdgeRow => row.2.1) row
    rw [equal]
    refine ⟨restricts.unionFind, ?_, ?_⟩
    · rw [restricts.bridges, List.filter_append]
      simp [lo, loOut]
    · intro other listed
      rcases List.mem_append.mp listed with earlier | new
      · exact restricts.crossing other earlier
      · rw [List.mem_singleton.mp new, lo, hi, loOut, hiOut]
  · rw [equal]
    exact ⟨restricts.unionFind, restricts.bridges, restricts.crossing⟩
  · rw [equal]
    exact ⟨restricts.unionFind.union_unkept loOut hiOut, restricts.bridges, restricts.crossing⟩

theorem passRestricts_fold (agree : Grounds.AgreeOn keep whole part) {edges : List Decision} :
    ∀ {wide narrow : ClusterPass}, PassRestricts keep wide narrow →
      (∀ decision ∈ edges, keep decision.lo = keep decision.hi) →
        PassRestricts keep (edges.foldl (clusterStep whole) wide)
          ((edges.filter fun decision => keep decision.lo).foldl (clusterStep part) narrow) := by
  induction edges with
  | nil => exact fun restricts _ => restricts
  | cons decision rest ih =>
      intro wide narrow restricts closed
      have same := closed decision List.mem_cons_self
      have later := fun other listed => closed other (List.mem_cons_of_mem _ listed)
      cases kept : keep decision.lo with
      | true =>
          rw [List.filter_cons, if_pos kept]
          exact ih (restricts.step_kept agree kept (same ▸ kept)) later
      | false =>
          rw [List.filter_cons_of_neg (by simp [kept])]
          exact ih (restricts.step_unkept kept (same ▸ kept)) later

theorem bridgeStep_kept (agree : Grounds.AgreeOn keep whole part) {wide narrow : UnionFind}
    (restricts : wide.Restricts keep narrow) (settled others : List Bridge) {bridge : Bridge}
    (loKept : keep bridge.lo = true) (hiKept : keep bridge.hi = true) :
    (bridgeStep whole (wide, settled) bridge).1.Restricts keep
      (bridgeStep part (narrow, others) bridge).1 := by
  have refusal := refusal_restricts agree restricts loKept hiKept
  rw [restricts.find _ loKept, restricts.find _ hiKept] at refusal
  unfold bridgeStep
  dsimp only
  rw [restricts.find _ loKept, restricts.find _ hiKept, refusal, agree.settings]
  split_ifs
  · exact restricts
  · exact restricts
  · cases whole.refusal (wide.members (wide.find bridge.lo) ++
        wide.members (wide.find bridge.hi)) with
    | some invariant => exact restricts
    | none => exact restricts.union_kept loKept hiKept

theorem bridgeStep_unkept {wide narrow : UnionFind} (restricts : wide.Restricts keep narrow)
    (settled : List Bridge) {bridge : Bridge} (loOut : keep bridge.lo = false)
    (hiOut : keep bridge.hi = false) :
    (bridgeStep whole (wide, settled) bridge).1.Restricts keep narrow := by
  obtain ⟨row, _, ⟨_, _, equal⟩ | ⟨_, _, equal⟩⟩ := bridgeStep_cases whole wide settled bridge
  · rw [equal]
    exact restricts
  · rw [equal]
    exact restricts.union_unkept loOut hiOut

theorem bridgeRestricts_fold (agree : Grounds.AgreeOn keep whole part) {bridges : List Bridge} :
    ∀ {wide narrow : UnionFind × List Bridge}, wide.1.Restricts keep narrow.1 →
      (∀ bridge ∈ bridges, keep bridge.lo = keep bridge.hi) →
        (bridges.foldl (bridgeStep whole) wide).1.Restricts keep
          ((bridges.filter fun bridge => keep bridge.lo).foldl (bridgeStep part) narrow).1 := by
  induction bridges with
  | nil => exact fun restricts _ => restricts
  | cons bridge rest ih =>
      intro wide narrow restricts closed
      have same := closed bridge List.mem_cons_self
      have later := fun other listed => closed other (List.mem_cons_of_mem _ listed)
      cases kept : keep bridge.lo with
      | true =>
          rw [List.filter_cons, if_pos kept]
          exact ih (bridgeStep_kept agree restricts wide.2 narrow.2 kept (same ▸ kept)) later
      | false =>
          rw [List.filter_cons_of_neg (by simp [kept])]
          exact ih (bridgeStep_unkept restricts wide.2 kept (same ▸ kept)) later

theorem applyBridges_restricts (agree : Grounds.AgreeOn keep whole part)
    {wide narrow : ClusterPass} (restricts : PassRestricts keep wide narrow) :
    (applyBridges whole wide.unionFind wide.bridges).1.Restricts keep
      (applyBridges part narrow.unionFind narrow.bridges).1 := by
  unfold applyBridges
  rw [agree.settings, restricts.bridges, ← filter_sortedBy]
  split_ifs
  · exact bridgeRestricts_fold agree restricts.unionFind fun bridge listed =>
      restricts.crossing bridge (mem_sortedBy.mp listed)
  · exact restricts.unionFind

/-- The edges of a selection none of them crosses. -/
def edgesKept (keep : Nat → Bool) (edges : List Decision) : List Decision :=
  edges.filter fun decision => keep decision.lo

theorem seedUnionFind_restricts {closures : List (Nat × List Nat)} {edges : List Decision}
    (family : ClosureFamily closures) (inside : ClosuresInside keep closures)
    (closed : ∀ decision ∈ edges, keep decision.lo = keep decision.hi) :
    (seedUnionFind edges closures).Restricts keep
      (seedUnionFind (edgesKept keep edges) (closuresWithin keep closures)) where
  wholeValid := seedUnionFind_wellFormed _ _
  partValid := seedUnionFind_wellFormed _ _
  rooted := by
    intro item
    rw [seedUnionFind_find family, keep_nodeOf family inside]
  find := by
    intro item kept
    rw [seedUnionFind_find family, seedUnionFind_find (family.within keep)]
    exact nodeOf_within family inside kept
  items := by
    intro item
    rw [seedUnionFind_items family, seedUnionFind_items (family.within keep)]
    constructor
    · rintro (⟨decision, listed, ends⟩ | ⟨closure, listed, held⟩)
      · obtain ⟨known, kept⟩ := List.mem_filter.mp listed
        refine ⟨.inl ⟨decision, known, ends⟩, ?_⟩
        rcases ends with rfl | rfl
        · exact kept
        · exact (closed decision known) ▸ kept
      · obtain ⟨known, kept⟩ := List.mem_filter.mp listed
        exact ⟨.inr ⟨closure, known, held⟩, (inside closure known item held).trans kept⟩
    · rintro ⟨⟨decision, known, ends⟩ | ⟨closure, known, held⟩, kept⟩
      · refine .inl ⟨decision, List.mem_filter.mpr ⟨known, ?_⟩, ends⟩
        rcases ends with rfl | rfl
        · exact kept
        · exact (closed decision known).trans kept
      · exact .inr ⟨closure, List.mem_filter.mpr
          ⟨known, (inside closure known item held).symm.trans kept⟩, held⟩

/-- The final classes over the edges of a selection are those the whole edge set
leaves inside it. -/
theorem constrained_local (agree : Grounds.AgreeOn keep whole part)
    {closures : List (Nat × List Nat)} {edges : List Decision} (family : ClosureFamily closures)
    (inside : ClosuresInside keep closures)
    (closed : ∀ decision ∈ edges, keep decision.lo = keep decision.hi) :
    (applyBridges whole (constrainedPass whole closures edges).unionFind
        (constrainedPass whole closures edges).bridges).1.Restricts keep
      (applyBridges part
        (constrainedPass part (closuresWithin keep closures) (edgesKept keep edges)).unionFind
        (constrainedPass part (closuresWithin keep closures) (edgesKept keep edges)).bridges).1 := by
  refine applyBridges_restricts agree ?_
  unfold constrainedPass
  refine passRestricts_fold agree ?_ closed
  exact ⟨seedUnionFind_restricts family inside closed, rfl,
    fun _ listed => absurd listed List.not_mem_nil⟩

end Passes

end Sreality.Autodedup
