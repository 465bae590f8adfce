import Sreality.Autodedup.ConstrainedLocalityProperties
import Sreality.Autodedup.RepartitionClusterProperties

/-! The repartition mode is local. The components of the graph inside a selection
that no edge and no closure crosses are the components of the whole graph that
lie in it, and each is cut into the same cells. -/

set_option autoImplicit false

namespace Sreality.Autodedup

open Sreality.Foundation

section Local

variable {keep : Nat → Bool} {whole part : Grounds} {closures : List (Nat × List Nat)}
  {edges : List Decision}

/-! ### Components of a selection -/

theorem components_filter {members : List Nat} {graph : List Edge}
    (closed : ∀ edge ∈ graph, keep edge.lo = keep edge.hi) :
    components (members.filter keep) (graph.filter fun edge => keep edge.lo) =
      (components members graph).filter fun component => component.all keep := by
  have crosses : ∀ pair ∈ graph.map Edge.ends, keep pair.1 = keep pair.2 := by
    intro pair listed
    obtain ⟨edge, held, rfl⟩ := List.mem_map.mp listed
    exact closed edge held
  obtain ⟨rooted, agree⟩ := Forest.find_linkAll_filter crosses
    (fun item => congrArg keep (Forest.find_singletons item))
    (fun item _ => (rfl : Forest.singletons.find item = _))
  have ends : (graph.filter fun edge => keep edge.lo).map Edge.ends =
      (graph.map Edge.ends).filter fun pair => keep pair.1 := by
    rw [List.filter_map]
    rfl
  have read : sortedGroups (Forest.singletons.linkAll
        ((graph.map Edge.ends).filter fun pair => keep pair.1)).find (members.filter keep) =
      sortedGroups (Forest.singletons.linkAll (graph.map Edge.ends)).find
        (members.filter keep) :=
    sortedGroups_congr fun item listed => agree item (List.mem_filter.mp listed).2
  unfold components
  dsimp only
  rw [ends, read, sortedGroups_filter fun item _ => (rooted item).symm, List.filter_map]
  refine congrArg (List.map Prod.snd) (List.filter_congr fun group listed => ?_)
  -- The whole group is kept or none of it is: its members share its root.
  obtain ⟨⟨item, held, root⟩, equal⟩ := mem_sortedGroups.mp listed
  have shared : ∀ member ∈ group.2, keep member = keep group.1 := by
    intro member inGroup
    rw [equal, mem_sortedBy, List.mem_filter, decide_eq_true_eq] at inGroup
    rw [← rooted member, inGroup.2]
  have inhabited : item ∈ group.2 := by
    rw [equal, mem_sortedBy, List.mem_filter, decide_eq_true_eq]
    exact ⟨held, root⟩
  rw [Bool.eq_iff_iff, Function.comp_apply, List.all_eq_true]
  constructor
  · exact fun kept member inGroup => (shared member inGroup).trans kept
  · exact fun kept => (shared item inhabited).symm.trans (kept item inhabited)

/-! ### The contracted graph of a selection -/

theorem contract_kept (family : ClosureFamily closures) (inside : ClosuresInside keep closures)
    {decision : Decision} (loKept : keep decision.lo = true) (hiKept : keep decision.hi = true) :
    contract (closuresWithin keep closures) decision = contract closures decision := by
  unfold contract
  rw [nodeOf_within family inside loKept, nodeOf_within family inside hiKept]

theorem keep_contract (family : ClosureFamily closures) (inside : ClosuresInside keep closures)
    {decision contracted : Decision} (same : keep decision.lo = keep decision.hi)
    (found : contract closures decision = some contracted) :
    keep contracted.lo = keep decision.lo ∧ keep contracted.hi = keep decision.lo := by
  obtain ⟨_, ⟨lo, hi⟩ | ⟨lo, hi⟩⟩ := contract_eq_some found <;>
    rw [lo, hi, keep_nodeOf family inside, keep_nodeOf family inside, same] <;>
    exact ⟨rfl, rfl⟩

theorem contracted_filter (family : ClosureFamily closures) (inside : ClosuresInside keep closures)
    (closed : ∀ decision ∈ edges, keep decision.lo = keep decision.hi) :
    (edgesKept keep edges).filterMap (contract (closuresWithin keep closures)) =
      (edges.filterMap (contract closures)).filter fun decision => keep decision.lo := by
  induction edges with
  | nil => rfl
  | cons decision rest ih =>
      have same := closed decision List.mem_cons_self
      have later := ih fun other listed => closed other (List.mem_cons_of_mem _ listed)
      unfold edgesKept at later ⊢
      rw [List.filter_cons]
      cases kept : keep decision.lo with
      | true =>
          rw [if_pos rfl, List.filterMap_cons, List.filterMap_cons,
            contract_kept family inside kept (same ▸ kept), later]
          cases found : contract closures decision with
          | none => rfl
          | some contracted =>
              have inSelection := (keep_contract family inside same found).1.trans kept
              simp [inSelection]
      | false =>
          rw [if_neg (by simp), List.filterMap_cons, later]
          cases found : contract closures decision with
          | none => rfl
          | some contracted =>
              have outside := (keep_contract family inside same found).1.trans kept
              simp [outside]

theorem contracted_closed (family : ClosureFamily closures) (inside : ClosuresInside keep closures)
    (closed : ∀ decision ∈ edges, keep decision.lo = keep decision.hi) :
    ∀ edge ∈ contractedGraph closures edges, keep edge.lo = keep edge.hi := by
  intro edge listed
  obtain ⟨contracted, held, rfl⟩ := List.mem_map.mp listed
  obtain ⟨decision, known, found⟩ := List.mem_filterMap.mp held
  obtain ⟨lo, hi⟩ := keep_contract family inside (closed decision known) found
  exact lo.trans hi.symm

theorem contractedGraph_within (family : ClosureFamily closures)
    (inside : ClosuresInside keep closures)
    (closed : ∀ decision ∈ edges, keep decision.lo = keep decision.hi) :
    contractedGraph (closuresWithin keep closures) (edgesKept keep edges) =
      (contractedGraph closures edges).filter fun edge => keep edge.lo := by
  unfold contractedGraph
  rw [contracted_filter family inside closed, List.filter_map]
  rfl

theorem contractedNodes_within (family : ClosureFamily closures)
    (inside : ClosuresInside keep closures)
    (closed : ∀ decision ∈ edges, keep decision.lo = keep decision.hi) :
    (contractedNodes (closuresWithin keep closures) (edgesKept keep edges)).Perm
      ((contractedNodes closures edges).filter keep) := by
  refine (List.perm_ext_iff_of_nodup (contractedNodes_nodup (family.within keep))
    ((contractedNodes_nodup family).filter keep)).mpr fun node => ?_
  rw [List.mem_filter, mem_contractedNodes, mem_contractedNodes]
  constructor
  · rintro (⟨decision, listed, contracted, found, ends⟩ | ⟨closure, listed, rfl⟩)
    · obtain ⟨known, kept⟩ := List.mem_filter.mp listed
      have same := closed decision known
      rw [contract_kept family inside kept (same ▸ kept)] at found
      obtain ⟨lo, hi⟩ := keep_contract family inside same found
      refine ⟨.inl ⟨decision, known, contracted, found, ends⟩, ?_⟩
      rcases ends with rfl | rfl
      · exact lo.trans kept
      · exact hi.trans kept
    · obtain ⟨known, kept⟩ := List.mem_filter.mp listed
      exact ⟨.inr ⟨closure, known, rfl⟩, kept⟩
  · rintro ⟨⟨decision, known, contracted, found, ends⟩ | ⟨closure, known, rfl⟩, kept⟩
    · have same := closed decision known
      obtain ⟨lo, hi⟩ := keep_contract family inside same found
      have loKept : keep decision.lo = true := by
        rcases ends with rfl | rfl
        · exact lo.symm.trans kept
        · exact hi.symm.trans kept
      refine .inl ⟨decision, List.mem_filter.mpr ⟨known, loKept⟩, contracted, ?_, ends⟩
      rw [contract_kept family inside loKept (same ▸ loKept), found]
    · exact .inr ⟨closure, List.mem_filter.mpr ⟨known, kept⟩, rfl⟩

/-! ### The cells of a selection -/

/-- A component no edge of which crosses the selection is kept whole or not at all. -/
theorem component_shares {members : List Nat} {graph : List Edge}
    (closed : ∀ edge ∈ graph, keep edge.lo = keep edge.hi) {component : List Nat}
    (listed : component ∈ components members graph) {left right : Nat} (inLeft : left ∈ component)
    (inRight : right ∈ component) : keep left = keep right := by
  obtain ⟨item, _, rfl⟩ := mem_components.mp listed
  have rooted : ∀ item,
      keep ((Forest.singletons.linkAll (graph.map Edge.ends)).find item) = keep item := by
    refine Forest.keep_find_linkAll keep ?_
    intro pair paired
    obtain ⟨edge, held, rfl⟩ := List.mem_map.mp paired
    exact closed edge held
  rw [mem_sortedBy, List.mem_filter, decide_eq_true_eq] at inLeft inRight
  rw [← rooted left, ← rooted right, inLeft.2, inRight.2]

theorem collectPairs_congr {α β : Type} {read other : α → α → Option β} {values : List α}
    (same : ∀ left ∈ values, ∀ right ∈ values, read left right = other left right) :
    collectPairs read values = collectPairs other values := by
  induction values with
  | nil => rfl
  | cons head rest ih =>
      have here : rest.filterMap (read head) = rest.filterMap (other head) :=
        List.filterMap_congr fun value held =>
          same head List.mem_cons_self value (List.mem_cons_of_mem _ held)
      have later := ih fun left leftHeld right rightHeld =>
        same left (List.mem_cons_of_mem _ leftHeld) right (List.mem_cons_of_mem _ rightHeld)
      simp only [collectPairs, here, later]

theorem nodeBlock_within (agree : Grounds.AgreeOn keep whole part)
    (family : ClosureFamily closures) (inside : ClosuresInside keep closures) {left right : Nat}
    (leftKept : keep left = true) (rightKept : keep right = true) :
    nodeBlock part (closuresWithin keep closures) left right =
      nodeBlock whole closures left right := by
  have ruled : part.mustNotLink.contains (left, right) =
      whole.mustNotLink.contains (left, right) := by
    rw [Bool.eq_iff_iff, List.contains_iff_mem, List.contains_iff_mem]
    exact agree.refused left right leftKept rightKept
  have stated : (part.relation.any fun bound => !bound.ok left right) =
      whole.relation.any fun bound => !bound.ok left right :=
    Option.Rel.any_eq agree.relation fun _ _ bound => by rw [bound.ok leftKept rightKept]
  unfold nodeBlock
  rw [nodeOf_within family inside leftKept, nodeOf_within family inside rightKept, ruled, stated]

section Component

variable (agree : Grounds.AgreeOn keep whole part) (family : ClosureFamily closures)
  (inside : ClosuresInside keep closures) {component : List Nat}
  (areNodes : ∀ node ∈ component, ClosureFamily.IsNode closures node)
  (kept : ∀ node ∈ component, keep node = true)

include agree family inside areNodes kept

theorem nodeInvariants_within :
    AgreeInside component (nodeInvariants whole closures)
      (nodeInvariants part (closuresWithin keep closures)) := by
  intro nodes included
  unfold nodeInvariants
  rw [expand_within fun node held => kept node (included held)]
  exact (agree.refusal (keep_expand family inside (fun node held => areNodes node (included held))
    fun node held => kept node (included held))).symm

theorem strictNodeInvariants_within :
    AgreeInside component (strictNodeInvariants whole closures)
      (strictNodeInvariants part (closuresWithin keep closures)) := by
  intro nodes included
  have keptMembers := keep_expand family inside (fun node held => areNodes node (included held))
    fun node held => kept node (included held)
  have strict : ((part.relation.map BoundRelation.strict).any fun bound =>
        (bound.violatingPair (expand closures nodes)).isSome) =
      (whole.relation.map BoundRelation.strict).any fun bound =>
        (bound.violatingPair (expand closures nodes)).isSome := by
    rw [Option.any_map, Option.any_map]
    exact Option.Rel.any_eq agree.relation fun _ _ bound => by
      rw [bound.strict.violatingPair keptMembers]
  unfold strictNodeInvariants
  rw [nodeInvariants_within agree family inside areNodes kept nodes included, agree.settings,
    expand_within fun node held => kept node (included held)]
  cases nodeInvariants part (closuresWithin keep closures) nodes with
  | some broken => rfl
  | none =>
      dsimp only
      cases whole.settings.repartitionRejoinCells with
      | false => rfl
      | true =>
          rw [if_pos rfl, if_pos rfl, strict]

theorem nodeBlockers_within :
    AgreeInside component (nodeBlockers whole closures)
      (nodeBlockers part (closuresWithin keep closures)) := by
  intro nodes included
  have keptMembers := keep_expand family inside (fun node held => areNodes node (included held))
    fun node held => kept node (included held)
  unfold nodeBlockers
  rw [expand_within fun node held => kept node (included held),
    collectPairs_congr fun left leftHeld right rightHeld =>
      nodeBlock_within agree family inside (keptMembers left leftHeld)
        (keptMembers right rightHeld)]

theorem partitionSpec_within :
    SpecsAgree component (partitionSpec whole closures)
      (partitionSpec part (closuresWithin keep closures)) where
  dials := by
    unfold partitionSpec
    rw [agree.settings]
  invariants := nodeInvariants_within agree family inside areNodes kept
  strict := strictNodeInvariants_within agree family inside areNodes kept
  blockers := by
    intro nodes included
    unfold partitionSpec
    dsimp only
    rw [agree.settings]
    split_ifs
    · exact congrArg some (nodeBlockers_within agree family inside areNodes kept nodes included)
    · rfl

end Component

/-- A component inside the selection is cut into the same cells. -/
theorem componentCells_within (agree : Grounds.AgreeOn keep whole part)
    (family : ClosureFamily closures) (inside : ClosuresInside keep closures)
    (closed : ∀ decision ∈ edges, keep decision.lo = keep decision.hi) {component : List Nat}
    (listed : component ∈ components (contractedNodes closures edges)
      (contractedGraph closures edges))
    (kept : ∀ node ∈ component, keep node = true) :
    componentCells part (closuresWithin keep closures)
        (contractedGraph (closuresWithin keep closures) (edgesKept keep edges)) component =
      componentCells whole closures (contractedGraph closures edges) component := by
  have areNodes : ∀ node ∈ component, ClosureFamily.IsNode closures node :=
    fun node held => isNode_of_contracted family (component_subset listed held)
  have refusal := nodeInvariants_within agree family inside areNodes kept component
    (List.Subset.refl _)
  have sameEdges : edgesWithin component
        (contractedGraph (closuresWithin keep closures) (edgesKept keep edges)) =
      edgesWithin component (contractedGraph closures edges) := by
    unfold edgesWithin
    rw [contractedGraph_within family inside closed, List.filter_filter]
    refine List.filter_congr fun edge _ => ?_
    rw [Bool.and_eq_left_iff_imp, Bool.and_eq_true, List.contains_iff_mem]
    exact fun held => kept edge.lo held.1
  unfold componentCells
  rw [refusal]
  split_ifs
  · rfl
  · change partition component (edgesWithin component _) _ =
      partition component (edgesWithin component _) _
    rw [sameEdges]
    exact (partition_congr (partitionSpec_coherent whole family areNodes)
      (partitionSpec_within agree family inside areNodes kept)
      (component_nodup (contractedNodes_nodup family) listed)
      (edgesWithin_inside component _)).symm

theorem filter_map_flatMap {α β γ : Type} {values : List α} {read : α → List β} {shape : β → γ}
    {keepValue : α → Bool} {keepShape : γ → Bool}
    (same : ∀ value ∈ values, ∀ item ∈ read value, keepShape (shape item) = keepValue value) :
    ((values.flatMap read).map shape).filter keepShape =
      ((values.filter keepValue).flatMap read).map shape := by
  induction values with
  | nil => rfl
  | cons head rest ih =>
      have later := ih fun value held => same value (List.mem_cons_of_mem _ held)
      have here : ((read head).map shape).filter keepShape =
          if keepValue head then (read head).map shape else [] := by
        cases kept : keepValue head with
        | true =>
            rw [if_pos rfl, List.filter_eq_self]
            intro item listed
            obtain ⟨value, held, rfl⟩ := List.mem_map.mp listed
            exact (same head List.mem_cons_self value held).trans kept
        | false =>
            rw [if_neg (by simp), List.filter_eq_nil_iff]
            intro item listed
            obtain ⟨value, held, rfl⟩ := List.mem_map.mp listed
            rw [same head List.mem_cons_self value held, kept]
            simp
      rw [List.flatMap_cons, List.map_append, List.filter_append, later, here, List.filter_cons]
      split_ifs
      · rw [List.flatMap_cons, List.map_append]
      · rfl

/-- No group crosses the selection. -/
theorem group_inside (family : ClosureFamily closures) (inside : ClosuresInside keep closures)
    (closed : ∀ decision ∈ edges, keep decision.lo = keep decision.hi) {group : Nat × List Nat}
    (listed : group ∈ repartitionGroups whole closures edges) {left right : Nat}
    (inLeft : left ∈ group.2) (inRight : right ∈ group.2) : keep left = keep right := by
  obtain ⟨component, known, cell, cut, rfl⟩ := mem_repartitionGroups.mp listed
  have nodes := cell_nodes family known cut
  have within := cell_subset family known cut
  rw [← keep_nodeOf family inside left, ← keep_nodeOf family inside right]
  exact component_shares (contracted_closed family inside closed) known
    (within ((family.mem_expand nodes).mp inLeft)) (within ((family.mem_expand nodes).mp inRight))

/-- The group a cell expands to. -/
def cellGroup (closures : List (Nat × List Nat)) (cell : List Nat) : Nat × List Nat :=
  ((expand closures cell).min?.getD 0, expand closures cell)

theorem repartitionGroups_eq (grounds : Grounds) (closures : List (Nat × List Nat))
    (edges : List Decision) : repartitionGroups grounds closures edges =
      ((components (contractedNodes closures edges) (contractedGraph closures edges)).flatMap
        (componentCells grounds closures (contractedGraph closures edges))).map
          (cellGroup closures) :=
  rfl

/-- The groups over the edges of a selection are the whole graph's groups in it. -/
theorem repartitionGroups_local (agree : Grounds.AgreeOn keep whole part)
    (family : ClosureFamily closures) (inside : ClosuresInside keep closures)
    (closed : ∀ decision ∈ edges, keep decision.lo = keep decision.hi) :
    repartitionGroups part (closuresWithin keep closures) (edgesKept keep edges) =
      (repartitionGroups whole closures edges).filter fun group => keep group.1 := by
  have crosses := contracted_closed family inside closed
  have comps : components (contractedNodes (closuresWithin keep closures) (edgesKept keep edges))
        (contractedGraph (closuresWithin keep closures) (edgesKept keep edges)) =
      (components (contractedNodes closures edges) (contractedGraph closures edges)).filter
        fun component => component.all keep := by
    rw [contractedGraph_within family inside closed,
      components_perm (contractedNodes_within family inside closed), components_filter crosses]
  have cells : ((components (contractedNodes closures edges)
          (contractedGraph closures edges)).filter fun component => component.all keep).flatMap
        (componentCells part (closuresWithin keep closures)
          (contractedGraph (closuresWithin keep closures) (edgesKept keep edges))) =
      ((components (contractedNodes closures edges)
          (contractedGraph closures edges)).filter fun component => component.all keep).flatMap
        (componentCells whole closures (contractedGraph closures edges)) := by
    refine List.flatMap_congr fun component listed => ?_
    obtain ⟨known, kept⟩ := List.mem_filter.mp listed
    exact componentCells_within agree family inside closed known (List.all_eq_true.mp kept)
  have shapes : ∀ cell ∈ ((components (contractedNodes closures edges)
          (contractedGraph closures edges)).filter fun component => component.all keep).flatMap
        (componentCells whole closures (contractedGraph closures edges)),
      cellGroup (closuresWithin keep closures) cell = cellGroup closures cell := by
    intro cell listed
    obtain ⟨component, known, cut⟩ := List.mem_flatMap.mp listed
    obtain ⟨componentListed, kept⟩ := List.mem_filter.mp known
    unfold cellGroup
    rw [expand_within fun node held => List.all_eq_true.mp kept node
      (cell_subset family componentListed cut held)]
  have shared : ∀ component ∈ components (contractedNodes closures edges)
        (contractedGraph closures edges),
      ∀ cell ∈ componentCells whole closures (contractedGraph closures edges) component,
        keep (cellGroup closures cell).1 = component.all keep := by
    intro component listed cell cut
    unfold cellGroup
    dsimp only
    have keyed : (expand closures cell).min?.getD 0 ∈ expand closures cell :=
      group_key_mem family (mem_repartitionGroups.mpr ⟨component, listed, cell, cut, rfl⟩)
    have keyNode := cell_subset family listed cut
      ((family.mem_expand (cell_nodes family listed cut)).mp keyed)
    rw [← keep_nodeOf family inside, Bool.eq_iff_iff, List.all_eq_true]
    constructor
    · exact fun kept node held => (component_shares crosses listed held keyNode).trans kept
    · exact fun kept => kept _ keyNode
  rw [repartitionGroups_eq, repartitionGroups_eq, comps, cells,
    @filter_map_flatMap _ _ _ _ _ (cellGroup closures) _ (fun group => keep group.1) shared]
  exact List.map_congr_left shapes

end Local

end Sreality.Autodedup
