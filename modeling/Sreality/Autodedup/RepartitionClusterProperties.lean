import Mathlib.Data.List.Flatten
import Sreality.Autodedup.GroundsProperties
import Sreality.Autodedup.RepartitionProperties

/-! The repartition mode: the components of the contracted graph, the cells each
is cut into and the groups they expand to. Each advert of the graph is in one
group, a closure lies whole in one, and every group is valid but for those that
stand as a move left them, which no step tests. -/

set_option autoImplicit false

namespace Sreality.Autodedup

open Sreality.Foundation

/-! ### Components -/

section Components

variable {members : List Nat} {edges : List Edge}

theorem mem_components {component : List Nat} :
    component ∈ components members edges ↔ ∃ item ∈ members,
      component = sortedIds (members.filter fun other =>
        (Forest.singletons.linkAll (edges.map Edge.ends)).find other =
          (Forest.singletons.linkAll (edges.map Edge.ends)).find item) :=
  mem_classes

theorem component_subset {component : List Nat} (listed : component ∈ components members edges) :
    component ⊆ members := by
  obtain ⟨item, _, rfl⟩ := mem_components.mp listed
  intro other held
  exact List.mem_of_mem_filter (mem_sortedBy.mp held)

theorem component_nodup {component : List Nat} (distinct : members.Nodup)
    (listed : component ∈ components members edges) : component.Nodup := by
  obtain ⟨item, _, rfl⟩ := mem_components.mp listed
  exact nodup_sortedBy.mpr (distinct.filter _)

theorem component_ascending {component : List Nat}
    (listed : component ∈ components members edges) : sortedIds component = component := by
  obtain ⟨item, _, rfl⟩ := mem_components.mp listed
  exact sortedBy_sortedBy id _

theorem exists_component (edges : List Edge) {item : Nat} (listed : item ∈ members) :
    ∃ component ∈ components members edges, item ∈ component := by
  refine ⟨_, mem_components.mpr ⟨item, listed, rfl⟩, ?_⟩
  rw [mem_sortedBy, List.mem_filter]
  exact ⟨listed, decide_eq_true rfl⟩

theorem component_eq_of_mem {left right : List Nat} {item : Nat}
    (leftListed : left ∈ components members edges) (rightListed : right ∈ components members edges)
    (inLeft : item ∈ left) (inRight : item ∈ right) : left = right := by
  obtain ⟨first, _, rfl⟩ := mem_components.mp leftListed
  obtain ⟨second, _, rfl⟩ := mem_components.mp rightListed
  have leftRoot := of_decide_eq_true (List.mem_filter.mp (mem_sortedBy.mp inLeft)).2
  have rightRoot := of_decide_eq_true (List.mem_filter.mp (mem_sortedBy.mp inRight)).2
  rw [← leftRoot, rightRoot]

/-- No edge of the graph leaves a component. -/
theorem component_closed {component : List Nat} (inside : EdgesInside members edges)
    (listed : component ∈ components members edges) {edge : Edge} (held : edge ∈ edges) :
    edge.lo ∈ component ↔ edge.hi ∈ component := by
  obtain ⟨item, _, rfl⟩ := mem_components.mp listed
  have linked : (Forest.singletons.linkAll (edges.map Edge.ends)).find edge.lo =
      (Forest.singletons.linkAll (edges.map Edge.ends)).find edge.hi :=
    Forest.find_linkAll_pair (List.mem_map.mpr ⟨edge, held, rfl⟩)
  simp only [mem_sortedBy, List.mem_filter, inside edge held, linked, true_and]

/-- The graph holds its nodes in a set: the components do not read their order. -/
theorem components_perm {others : List Nat} (same : members.Perm others) :
    components members edges = components others edges := by
  unfold components
  dsimp only
  rw [sortedGroups_perm same]

end Components

theorem Splits.mem_iff {members : List Nat} {groups : List (List Nat)}
    (splits : Splits members groups) {item : Nat} :
    (∃ group ∈ groups, item ∈ group) ↔ item ∈ members := by
  rw [← List.mem_flatten]
  exact splits.flat.mem_iff

theorem Splits.eq_of_mem {members : List Nat} {groups : List (List Nat)}
    (splits : Splits members groups) (distinct : members.Nodup) {left right : List Nat} {item : Nat}
    (leftListed : left ∈ groups) (rightListed : right ∈ groups) (inLeft : item ∈ left)
    (inRight : item ∈ right) : left = right := by
  by_contra differ
  have separate := (List.nodup_flatten.mp (splits.flat.nodup_iff.mpr distinct)).2
  have symmetric : Std.Symm (@List.Disjoint Nat) := ⟨fun _ _ apart => apart.symm⟩
  exact separate.forall leftListed rightListed differ inLeft inRight

/-! ### The contracted graph -/

section Graph

variable {grounds : Grounds} {closures : List (Nat × List Nat)} {edges : List Decision}

theorem contract_eq_some {decision contracted : Decision}
    (found : contract closures decision = some contracted) :
    nodeOf closures decision.lo ≠ nodeOf closures decision.hi ∧
      (contracted.lo = nodeOf closures decision.lo ∧ contracted.hi = nodeOf closures decision.hi ∨
        contracted.lo = nodeOf closures decision.hi ∧
          contracted.hi = nodeOf closures decision.lo) := by
  unfold contract at found
  dsimp only at found
  split_ifs at found with inside moved
  · obtain rfl := Option.some.inj found
    refine ⟨inside, ?_⟩
    rcases le_total (nodeOf closures decision.lo) (nodeOf closures decision.hi) with below | above
    · exact .inl ⟨min_eq_left below, max_eq_right below⟩
    · exact .inr ⟨min_eq_right above, max_eq_left above⟩
  · obtain rfl := Option.some.inj found
    have unmoved : (nodeOf closures decision.lo, nodeOf closures decision.hi) = decision.ends := by
      simpa using moved
    exact ⟨inside, .inl ⟨(congrArg Prod.fst unmoved).symm, (congrArg Prod.snd unmoved).symm⟩⟩

/-- The nodes and the edges of the contracted graph of a list of decisions. -/
def contractedGraph (closures : List (Nat × List Nat)) (edges : List Decision) : List Edge :=
  (edges.filterMap (contract closures)).map graphEdge

def contractedNodes (closures : List (Nat × List Nat)) (edges : List Decision) : List Nat :=
  graphNodes closures (edges.filterMap (contract closures))

theorem mem_contractedNodes {node : Nat} :
    node ∈ contractedNodes closures edges ↔
      (∃ decision ∈ edges, ∃ contracted, contract closures decision = some contracted ∧
        (node = contracted.lo ∨ node = contracted.hi)) ∨ ∃ closure ∈ closures, closure.1 = node := by
  have touched : node ∈ endsOf ((edges.filterMap (contract closures)).map Decision.ends) ↔
      ∃ decision ∈ edges, ∃ contracted, contract closures decision = some contracted ∧
        (node = contracted.lo ∨ node = contracted.hi) := by
    rw [mem_endsOf]
    constructor
    · rintro ⟨_, listed, ends⟩
      obtain ⟨contracted, kept, rfl⟩ := List.mem_map.mp listed
      obtain ⟨decision, known, found⟩ := List.mem_filterMap.mp kept
      exact ⟨decision, known, contracted, found, ends⟩
    · rintro ⟨decision, known, contracted, found, ends⟩
      exact ⟨contracted.ends, List.mem_map.mpr ⟨contracted,
        List.mem_filterMap.mpr ⟨decision, known, found⟩, rfl⟩, ends⟩
  unfold contractedNodes graphNodes
  dsimp only
  rw [List.mem_append, List.mem_filter, List.mem_map, decide_eq_true_eq, touched]
  constructor
  · rintro (hit | ⟨⟨closure, listed, rfl⟩, _⟩)
    · exact .inl hit
    · exact .inr ⟨closure, listed, rfl⟩
  · rintro (hit | ⟨closure, listed, rfl⟩)
    · exact .inl hit
    · by_cases already : closure.1 ∈ endsOf ((edges.filterMap (contract closures)).map
        Decision.ends)
      · exact .inl (touched.mp already)
      · exact .inr ⟨⟨closure, listed, rfl⟩, fun reached => already (touched.mpr reached)⟩

theorem contractedNodes_nodup (family : ClosureFamily closures) :
    (contractedNodes closures edges).Nodup := by
  have keys : (closures.map Prod.fst).Nodup := by
    refine List.Nodup.map_on ?_ family.unique
    intro closure listed other otherListed same
    exact family.disjoint closure listed other otherListed closure.1 (family.keyed closure listed)
      (same ▸ family.keyed other otherListed)
  unfold contractedNodes graphNodes
  dsimp only
  refine (nodup_endsOf _).append (keys.filter _) ?_
  intro node touched untouched
  simpa [touched] using (List.mem_filter.mp untouched).2

theorem isNode_of_contracted (family : ClosureFamily closures) {node : Nat}
    (listed : node ∈ contractedNodes closures edges) : ClosureFamily.IsNode closures node := by
  rcases mem_contractedNodes.mp listed with ⟨decision, _, contracted, found, ends⟩ |
    ⟨closure, known, rfl⟩
  · obtain ⟨_, shape⟩ := contract_eq_some found
    have low := family.isNode_nodeOf decision.lo
    have high := family.isNode_nodeOf decision.hi
    rcases ends with rfl | rfl <;> rcases shape with ⟨first, second⟩ | ⟨first, second⟩ <;>
      first
      | (rw [first]; assumption)
      | (rw [second]; assumption)
  · exact family.isNode_key known

/-- The edges of the graph inside one component. -/
def edgesWithin (component : List Nat) (graph : List Edge) : List Edge :=
  graph.filter fun edge => component.contains edge.lo && component.contains edge.hi

theorem edgesWithin_inside (component : List Nat) (graph : List Edge) :
    EdgesInside component (edgesWithin component graph) := by
  intro edge listed
  simpa using (List.mem_filter.mp listed).2

theorem mem_collectPairs {α β : Type} {read : α → α → Option β} {values : List α} {found : β}
    (listed : found ∈ collectPairs read values) :
    ∃ left ∈ values, ∃ right ∈ values, read left right = some found := by
  induction values with
  | nil => exact absurd listed List.not_mem_nil
  | cons head rest ih =>
      rcases List.mem_append.mp listed with here | later
      · obtain ⟨right, known, equal⟩ := List.mem_filterMap.mp here
        exact ⟨head, List.mem_cons_self, right, List.mem_cons_of_mem _ known, equal⟩
      · obtain ⟨left, leftKnown, right, rightKnown, equal⟩ := ih later
        exact ⟨left, List.mem_cons_of_mem _ leftKnown, right, List.mem_cons_of_mem _ rightKnown,
          equal⟩

theorem nodeBlock_eq_some {left right : Nat} {pair : Pair}
    (found : nodeBlock grounds closures left right = some pair) :
    pair = (min (nodeOf closures left) (nodeOf closures right),
      max (nodeOf closures left) (nodeOf closures right)) := by
  unfold nodeBlock at found
  dsimp only at found
  split_ifs at found
  exact (Option.some.inj found).symm

theorem partitionSpec_coherent (grounds : Grounds) (family : ClosureFamily closures) {members : List Nat}
    (areNodes : ∀ node ∈ members, ClosureFamily.IsNode closures node) :
    Coherent members (partitionSpec grounds closures) where
  stricter := by
    intro part accepted
    change strictNodeInvariants grounds closures part = none at accepted
    change nodeInvariants grounds closures part = none
    unfold strictNodeInvariants at accepted
    cases broken : nodeInvariants grounds closures part with
    | none => rfl
    | some invariant => rw [broken] at accepted; exact absurd accepted (by simp)
  within := by
    intro blockers given part included pair listed
    change (if grounds.settings.repartitionShedBlockers then
      some (nodeBlockers grounds closures) else none) = some blockers at given
    split_ifs at given
    obtain rfl := Option.some.inj given
    unfold nodeBlockers at listed
    rw [mem_sortedBy, List.mem_dedup] at listed
    obtain ⟨left, leftHeld, right, rightHeld, found⟩ := mem_collectPairs listed
    have partNodes : ∀ node ∈ part, ClosureFamily.IsNode closures node :=
      fun node held => areNodes node (included held)
    have leftNode := (family.mem_expand partNodes).mp leftHeld
    have rightNode := (family.mem_expand partNodes).mp rightHeld
    rw [nodeBlock_eq_some found]
    constructor
    · rcases min_choice (nodeOf closures left) (nodeOf closures right) with choice | choice <;>
        simpa only [choice]
    · rcases max_choice (nodeOf closures left) (nodeOf closures right) with choice | choice <;>
        simpa only [choice]

/-- However a component is cut, its cells split it. -/
theorem componentCells_splits (grounds : Grounds) (family : ClosureFamily closures) {component : List Nat}
    (listed : component ∈ components (contractedNodes closures edges)
      (contractedGraph closures edges)) :
    Splits component (componentCells grounds closures (contractedGraph closures edges)
      component) := by
  have areNodes : ∀ node ∈ component, ClosureFamily.IsNode closures node :=
    fun node held => isNode_of_contracted family (component_subset listed held)
  have distinct := component_nodup (contractedNodes_nodup family) listed
  unfold componentCells
  split_ifs
  · obtain ⟨item, known, held⟩ : ∃ item ∈ contractedNodes closures edges, item ∈ component := by
      obtain ⟨item, known, rfl⟩ := mem_components.mp listed
      refine ⟨item, known, mem_sortedBy.mpr (List.mem_filter.mpr ⟨known, decide_eq_true rfl⟩)⟩
    exact .singleton (List.ne_nil_of_mem held) (component_ascending listed)
  · exact partition_splits (partitionSpec_coherent grounds family areNodes) distinct
      (edgesWithin_inside _ _)

/-- The nodes of a cell are nodes of its component, and of the graph. -/
theorem cell_subset (family : ClosureFamily closures) {component cell : List Nat}
    (listed : component ∈ components (contractedNodes closures edges)
      (contractedGraph closures edges))
    (cellListed : cell ∈ componentCells grounds closures (contractedGraph closures edges)
      component) : cell ⊆ component :=
  fun _ held => (componentCells_splits grounds family listed).mem_iff.mp
    ⟨cell, cellListed, held⟩

theorem cell_nodes (family : ClosureFamily closures) {component cell : List Nat}
    (listed : component ∈ components (contractedNodes closures edges)
      (contractedGraph closures edges))
    (cellListed : cell ∈ componentCells grounds closures (contractedGraph closures edges)
      component) : ∀ node ∈ cell, ClosureFamily.IsNode closures node :=
  fun _ held => isNode_of_contracted family
    (component_subset listed (cell_subset family listed cellListed held))

/-- A group of the repartition is the expansion of one cell of one component. -/
theorem mem_repartitionGroups {group : Nat × List Nat} :
    group ∈ repartitionGroups grounds closures edges ↔
      ∃ component ∈ components (contractedNodes closures edges) (contractedGraph closures edges),
        ∃ cell ∈ componentCells grounds closures (contractedGraph closures edges) component,
          group = ((expand closures cell).min?.getD 0, expand closures cell) := by
  unfold repartitionGroups
  dsimp only
  rw [List.mem_map]
  constructor
  · rintro ⟨cell, listed, rfl⟩
    obtain ⟨component, known, held⟩ := List.mem_flatMap.mp listed
    exact ⟨component, known, cell, held, rfl⟩
  · rintro ⟨component, known, cell, held, rfl⟩
    exact ⟨cell, List.mem_flatMap.mpr ⟨component, known, held⟩, rfl⟩

/-- Two groups that share an advert are one. -/
theorem group_eq_of_mem (family : ClosureFamily closures) {left right : Nat × List Nat}
    {member : Nat} (leftListed : left ∈ repartitionGroups grounds closures edges)
    (rightListed : right ∈ repartitionGroups grounds closures edges)
    (inLeft : member ∈ left.2) (inRight : member ∈ right.2) : left = right := by
  obtain ⟨component, known, cell, held, rfl⟩ := mem_repartitionGroups.mp leftListed
  obtain ⟨other, otherKnown, otherCell, otherHeld, rfl⟩ := mem_repartitionGroups.mp rightListed
  have inCell := (family.mem_expand (cell_nodes family known held)).mp inLeft
  have inOther := (family.mem_expand (cell_nodes family otherKnown otherHeld)).mp inRight
  have sameComponent : component = other :=
    component_eq_of_mem known otherKnown (cell_subset family known held inCell)
      (cell_subset family otherKnown otherHeld inOther)
  subst sameComponent
  have sameCell : cell = otherCell :=
    (componentCells_splits grounds family known).eq_of_mem
      (component_nodup (contractedNodes_nodup family) known) held otherHeld inCell inOther
  rw [sameCell]

theorem exists_group (grounds : Grounds) (family : ClosureFamily closures) {node : Nat}
    (listed : node ∈ contractedNodes closures edges) :
    ∃ group ∈ repartitionGroups grounds closures edges,
      ∀ member, nodeOf closures member = node → member ∈ group.2 := by
  obtain ⟨component, known, inComponent⟩ :=
    exists_component (contractedGraph closures edges) listed
  obtain ⟨cell, held, inCell⟩ :=
    (componentCells_splits grounds family known).mem_iff.mpr inComponent
  refine ⟨_, mem_repartitionGroups.mpr ⟨component, known, cell, held, rfl⟩, ?_⟩
  intro member stands
  exact (family.mem_expand (cell_nodes family known held)).mpr (stands ▸ inCell)

/-- A closure lies whole in one group, whatever the cuts and repairs. -/
theorem closure_in_group (family : ClosureFamily closures) {closure : Nat × List Nat}
    (kept : closure ∈ closures) :
    ∃ group ∈ repartitionGroups grounds closures edges, closure.2 ⊆ group.2 := by
  obtain ⟨group, listed, holds⟩ := exists_group grounds family
    ((mem_contractedNodes.mpr (.inr ⟨closure, kept, rfl⟩)) :
      closure.1 ∈ contractedNodes closures edges)
  exact ⟨group, listed, fun member held => holds member (family.nodeOf_of_mem kept held)⟩

theorem group_nodup (family : ClosureFamily closures) {group : Nat × List Nat}
    (listed : group ∈ repartitionGroups grounds closures edges) : group.2.Nodup := by
  obtain ⟨component, known, cell, held, rfl⟩ := mem_repartitionGroups.mp listed
  have splits := componentCells_splits grounds family known
  have distinct := component_nodup (contractedNodes_nodup family) known
  have cellDistinct : cell.Nodup :=
    (List.nodup_flatten.mp (splits.flat.nodup_iff.mpr distinct)).1 cell held
  exact family.nodup_expand (cell_nodes family known held) cellDistinct

theorem group_key_mem (family : ClosureFamily closures) {group : Nat × List Nat}
    (listed : group ∈ repartitionGroups grounds closures edges) : group.1 ∈ group.2 := by
  obtain ⟨component, known, cell, held, rfl⟩ := mem_repartitionGroups.mp listed
  obtain ⟨node, inCell⟩ := List.exists_mem_of_ne_nil _
    ((componentCells_splits grounds family known).nonempty cell held)
  have areNodes := cell_nodes family known held
  have inhabited : node ∈ expand closures cell := by
    rw [family.mem_expand areNodes, (areNodes node inCell : nodeOf closures node = node)]
    exact inCell
  cases least : (expand closures cell).min? with
  | none => rw [List.min?_eq_none_iff.mp least] at inhabited; exact absurd inhabited (by simp)
  | some smallest => exact (List.min?_eq_some_iff.mp least).1

/-! ### Validity of the groups -/

theorem expand_perm {left right : List Nat} (same : left.Perm right) :
    expand closures left = expand closures right :=
  sortedIds_eq_of_perm (same.flatMap_right _)

theorem valid_expand_node (family : ClosureFamily closures)
    (closuresValid : ∀ closure ∈ closures, grounds.Valid closure.2) (node : Nat) :
    grounds.Valid (expand closures [node]) := by
  by_cases keyed : ∃ closure ∈ closures, closure.1 = node
  · obtain ⟨closure, kept, rfl⟩ := keyed
    have expanded : expand closures [closure.1] = closure.2 := by
      simp [expand, family.lookup_key kept, family.ascending closure kept]
    rw [expanded]
    exact closuresValid closure kept
  · push Not at keyed
    have expanded : expand closures [node] = [node] := by
      simp [expand, ClosureFamily.lookup_eq_none keyed]
    rw [expanded]
    exact Grounds.valid_singleton node

/-- The cells one component of the contracted graph is cut into. -/
def componentCut (grounds : Grounds) (closures : List (Nat × List Nat)) (edges : List Decision)
    (component : List Nat) : Cells :=
  cutCells component (edgesWithin component (contractedGraph closures edges))
    (partitionSpec grounds closures)

/-- A cell a member was taken from breaks neither of the two limbs that the member can have
held: the dispositions, which a land advert keeps from being read, and the areas, whose gap is
rounded; unless a later step of the cut changes the cell again. -/
def LeftBehindHolds (grounds : Grounds) (closures : List (Nat × List Nat))
    (edges : List Decision) : Prop :=
  ∀ component ∈ components (contractedNodes closures edges) (contractedGraph closures edges),
    nodeInvariants grounds closures component ≠ none →
      ∀ part ∈ (componentCut grounds closures edges component).leftBehind,
        part ∈ (componentCut grounds closures edges component).groups →
          nodeInvariants grounds closures part ≠ some .disposition ∧
            nodeInvariants grounds closures part ≠ some .areaSpread

theorem expand_subset {part whole : List Nat} (inside : part ⊆ whole) :
    expand closures part ⊆ expand closures whole := by
  intro member held
  obtain ⟨node, listed, stands⟩ := List.mem_flatMap.mp (mem_sortedBy.mp held)
  exact mem_sortedBy.mpr (List.mem_flatMap.mpr ⟨node, inside listed, stands⟩)

/-- A cell of a cut that is refused at all breaks one of those two limbs: it is inside a set
that was accepted. -/
theorem cell_refused (family : ClosureFamily closures)
    (closuresValid : ∀ closure ∈ closures, grounds.Valid closure.2)
    {component cell : List Nat}
    (known : component ∈ components (contractedNodes closures edges)
      (contractedGraph closures edges))
    (listed : cell ∈ (componentCut grounds closures edges component).groups)
    (refused : nodeInvariants grounds closures cell ≠ none) :
    nodeInvariants grounds closures cell = some .areaSpread ∨
      nodeInvariants grounds closures cell = some .disposition := by
  have areNodes : ∀ node ∈ component, ClosureFamily.IsNode closures node :=
    fun node inside => isNode_of_contracted family (component_subset known inside)
  have coherent := partitionSpec_coherent grounds family areNodes
  have distinct := component_nodup (contractedNodes_nodup family) known
  have within := edgesWithin_inside component (contractedGraph closures edges)
  obtain ⟨whole, valid, inside⟩ :=
    partition_inside (fun nodes => grounds.Valid (expand closures nodes)) coherent distinct within
      (fun _ accepted => Grounds.refusal_eq_none_iff.mp accepted)
      (fun node _ => valid_expand_node family closuresValid node) Grounds.valid_nil cell listed
  have splits := partition_splits coherent distinct within
  have cellDistinct : cell.Nodup :=
    (List.nodup_flatten.mp (splits.flat.nodup_iff.mpr distinct)).1 cell listed
  have cellNodes : ∀ node ∈ cell, ClosureFamily.IsNode closures node := fun node held =>
    areNodes node (splits.flat.mem_iff.mp (List.mem_flatten.mpr ⟨cell, listed, held⟩))
  obtain ⟨_, lifted⟩ := Grounds.lifts_of_refused valid
    (family.nodup_expand cellNodes cellDistinct) (expand_subset inside) refused
  exact lifted.imp_right And.left

/-- Every group is valid exactly when those a move left behind are. -/
theorem groups_valid_iff (family : ClosureFamily closures)
    (closuresValid : ∀ closure ∈ closures, grounds.Valid closure.2) :
    (∀ group ∈ repartitionGroups grounds closures edges, grounds.Valid group.2) ↔
      LeftBehindHolds grounds closures edges := by
  constructor
  · intro valid component known refused part _ standing
    have cells : componentCells grounds closures (contractedGraph closures edges) component =
        (componentCut grounds closures edges component).groups := if_neg (by simpa using refused)
    have group := valid _ (mem_repartitionGroups.mpr ⟨component, known, part,
      by rw [cells]; exact standing, rfl⟩)
    have accepted : nodeInvariants grounds closures part = none :=
      Grounds.refusal_eq_none_iff.mpr group
    simp [accepted]
  · intro left group listed
    obtain ⟨component, known, cell, cellListed, rfl⟩ := mem_repartitionGroups.mp listed
    unfold componentCells at cellListed
    split_ifs at cellListed with whole
    · obtain rfl := List.mem_singleton.mp cellListed
      exact Grounds.refusal_eq_none_iff.mp (by simpa [nodeInvariants] using whole)
    · have areNodes : ∀ node ∈ component, ClosureFamily.IsNode closures node :=
        fun node inside => isNode_of_contracted family (component_subset known inside)
      have stands := partition_stands (fun nodes => grounds.Valid (expand closures nodes))
        (partitionSpec_coherent grounds family areNodes)
        (component_nodup (contractedNodes_nodup family) known)
        (edgesWithin_inside component (contractedGraph closures edges))
        (fun _ _ same valid => expand_perm same ▸ valid)
        (fun _ accepted => Grounds.refusal_eq_none_iff.mp accepted)
        (fun node _ => valid_expand_node family closuresValid node) cell cellListed
      rcases stands with valid | behind
      · exact valid
      · have refused : nodeInvariants grounds closures component ≠ none := by simpa using whole
        obtain ⟨layout, areas⟩ := left component known refused cell behind cellListed
        by_contra broken
        rcases cell_refused family closuresValid known cellListed
          (mt Grounds.refusal_eq_none_iff.mp broken) with spread | clash
        · exact areas spread
        · exact layout clash

end Graph

end Sreality.Autodedup
