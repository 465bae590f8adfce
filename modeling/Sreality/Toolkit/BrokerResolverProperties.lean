import Mathlib.Data.List.Lattice
import Sreality.Foundation.Tables
import Sreality.Toolkit.BrokerResolver

/-! What is merged is a whole component of one name with no standing no inside it; every other
component is asked about; and none of it depends on the order of the corpus. -/

set_option autoImplicit false

namespace Sreality.Toolkit.BrokerResolver

open Sreality.Foundation Sreality.Foundation.Forest

variable {unicode : Unicode} {corpus : Corpus} {blocked : Finset (Nat × Nat)}

/-! ### Identities -/

namespace Corpus

theorem mem_of_byId {id : Nat} {identity : Identity} (found : corpus.byId id = some identity) :
    identity ∈ corpus.identities ∧ identity.id = id := by
  have kept := List.mem_filter.mp (List.mem_of_getLast? found)
  exact ⟨kept.1, eq_of_beq kept.2⟩

theorem byId_of_mem (keyed : Keyed Identity.id corpus.identities) {identity : Identity}
    (listed : identity ∈ corpus.identities) : corpus.byId identity.id = some identity := by
  unfold byId
  rw [keyed.filter_key listed]
  rfl

theorem byId_eq_some_iff (keyed : Keyed Identity.id corpus.identities) {id : Nat}
    {identity : Identity} :
    corpus.byId id = some identity ↔ identity ∈ corpus.identities ∧ identity.id = id := by
  constructor
  · exact mem_of_byId
  · rintro ⟨listed, rfl⟩
    exact byId_of_mem keyed listed

variable (unicode corpus) in
/-- An identity that can be merged, under its name. -/
def Bearer (id : Nat) (key : String) : Prop :=
  corpus.keyOf unicode id = some key ∧ corpus.mergeableId id = true

theorem Bearer.identity {id : Nat} {key : String} (bearer : Bearer unicode corpus id key) :
    ∃ identity ∈ corpus.identities, identity.id = id ∧ identity.mergeable = true ∧
      nameKey unicode identity.name = some key := by
  obtain ⟨named, mergeable⟩ := bearer
  unfold keyOf at named
  unfold mergeableId at mergeable
  cases found : corpus.byId id with
  | none => simp [found] at named
  | some identity =>
      obtain ⟨listed, same⟩ := mem_of_byId found
      rw [found] at named mergeable
      exact ⟨identity, listed, same, mergeable, named⟩

theorem bearer_of_mem (keyed : Keyed Identity.id corpus.identities) {identity : Identity}
    (listed : identity ∈ corpus.identities) (mergeable : identity.mergeable = true) {key : String}
    (named : corpus.keyOf unicode identity.id = some key) :
    Bearer unicode corpus identity.id key := by
  refine ⟨named, ?_⟩
  unfold mergeableId
  rw [byId_of_mem keyed listed]
  exact mergeable

theorem mem_bearers {value : ContactValue} {key : String} {id : Nat} :
    id ∈ corpus.bearers unicode value key ↔
      id ∈ corpus.carriers value ∧ Bearer unicode corpus id key := by
  unfold bearers Bearer
  rw [List.mem_filter, mem_ascending, Bool.and_eq_true, beq_iff_eq]

theorem bearers_ascend (value : ContactValue) (key : String) :
    (corpus.bearers unicode value key).Pairwise (· < ·) :=
  (ascending_ascends _).filter _

theorem mem_byKey (keyed : Keyed Identity.id corpus.identities) {key : String} {id : Nat}
    (listed : id ∈ corpus.byKey unicode key) : Bearer unicode corpus id key := by
  obtain ⟨identity, kept, rfl⟩ := List.mem_map.mp (List.mem_toFinset.mp listed)
  obtain ⟨inside, holds⟩ := List.mem_filter.mp kept
  rw [Bool.and_eq_true, beq_iff_eq] at holds
  exact bearer_of_mem keyed inside holds.1 holds.2

theorem mem_atFirm (keyed : Keyed Identity.id corpus.identities) {cohort : String × Nat} {id : Nat}
    (listed : id ∈ corpus.atFirm unicode cohort) : Bearer unicode corpus id cohort.1 := by
  obtain ⟨identity, kept, rfl⟩ := List.mem_map.mp (List.mem_toFinset.mp listed)
  obtain ⟨inside, holds⟩ := List.mem_filter.mp kept
  rw [Bool.and_eq_true, Bool.and_eq_true, beq_iff_eq] at holds
  exact bearer_of_mem keyed inside holds.1.1 holds.1.2

/-! ### Edges -/

/-- The lesser end first, and both under one name. -/
structure Bonded (unicode : Unicode) (corpus : Corpus) (edge : Nat × Nat) : Prop where
  ordered : edge.1 < edge.2
  named : ∃ key, Bearer unicode corpus edge.1 key ∧ Bearer unicode corpus edge.2 key

theorem bonded_of_chain {members : List Nat} (ascends : members.Pairwise (· < ·)) {key : String}
    (bear : ∀ id ∈ members, Bearer unicode corpus id key) {edge : Nat × Nat}
    (chained : edge ∈ chain members) : Bonded unicode corpus edge :=
  ⟨chain_ascends ascends chained, key, bear _ (mem_of_chain chained).1,
    bear _ (mem_of_chain chained).2⟩

theorem mem_aEdges {row : (Nat × Nat) × ContactValue} :
    row ∈ corpus.aEdges unicode ↔ row.2 ∈ corpus.values ∧
      ∃ only, ascending (corpus.namesAt unicode row.2) = [only] ∧
        row.1 ∈ chain (corpus.bearers unicode row.2 only) := by
  unfold aEdges
  rw [List.mem_flatMap]
  constructor
  · rintro ⟨value, listed, inside⟩
    split at inside
    · next only names =>
        obtain ⟨edge, chained, rfl⟩ := List.mem_map.mp inside
        exact ⟨listed, only, names, chained⟩
    · cases inside
  · rintro ⟨listed, only, names, chained⟩
    refine ⟨row.2, listed, ?_⟩
    simp only [names]
    exact List.mem_map.mpr ⟨row.1, chained, rfl⟩

theorem mem_cohortEdges {members : List Nat} {edge : Nat × Nat} :
    edge ∈ corpus.cohortEdges unicode members ↔
      corpus.contradicted unicode members = false ∧ edge ∈ chain members := by
  unfold cohortEdges
  split_ifs with refused
  · constructor
    · intro none_
      cases none_
    · rintro ⟨clear, chained⟩
      rcases refused with few | refused
      · rcases members with _ | ⟨one, _ | ⟨two, rest⟩⟩
        · cases chained
        · cases chained
        · simp only [List.length_cons] at few
          omega
      · exact absurd (clear.symm.trans refused) (by decide)
  · push Not at refused
    exact ⟨fun chained => ⟨Bool.eq_false_iff.mpr refused.2, chained⟩, fun both => both.2⟩

theorem mem_rEdges {edge : Nat × Nat} : edge ∈ corpus.rEdges unicode ↔
    ∃ key ∈ corpus.mergeableKeys unicode, (corpus.firmsOfName unicode key).card ≤ 1 ∧
      edge ∈ corpus.cohortEdges unicode (ascending (corpus.byKey unicode key)) := by
  unfold rEdges
  rw [List.mem_flatMap]
  refine exists_congr fun key => and_congr_right fun _ => ?_
  split_ifs with wide
  · exact ⟨fun none_ => (List.not_mem_nil none_).elim, fun both => absurd both.1 (by omega)⟩
  · exact ⟨fun inside => ⟨by omega, inside⟩, fun both => both.2⟩

theorem mem_allEdges {edge : Nat × Nat} : edge ∈ corpus.allEdges unicode ↔
    edge ∈ (corpus.aEdges unicode).map Prod.fst ∨ edge ∈ corpus.fEdges unicode ∨
      edge ∈ corpus.rEdges unicode := by
  unfold allEdges
  rw [mem_sortedBy, List.mem_dedup, List.mem_append, List.mem_append, or_assoc]

theorem bonded (keyed : Keyed Identity.id corpus.identities) {edge : Nat × Nat}
    (listed : edge ∈ corpus.allEdges unicode) : Bonded unicode corpus edge := by
  rcases mem_allEdges.mp listed with contact | firm | rare
  · obtain ⟨row, inside, rfl⟩ := List.mem_map.mp contact
    obtain ⟨_, only, _, chained⟩ := mem_aEdges.mp inside
    exact bonded_of_chain (bearers_ascend _ _) (fun id held => (mem_bearers.mp held).2) chained
  · obtain ⟨cohort, _, inside⟩ := List.mem_flatMap.mp firm
    exact bonded_of_chain (ascending_ascends _)
      (fun id held => mem_atFirm keyed (mem_ascending.mp held)) (mem_cohortEdges.mp inside).2
  · obtain ⟨key, _, _, inside⟩ := mem_rEdges.mp rare
    exact bonded_of_chain (ascending_ascends _)
      (fun id held => mem_byKey keyed (mem_ascending.mp held)) (mem_cohortEdges.mp inside).2

/-- A name runs through a component. -/
theorem bearer_of_joined (keyed : Keyed Identity.id corpus.identities) {left right : Nat}
    (joined : Joined (corpus.allEdges unicode) left right) (key : String) :
    Bearer unicode corpus left key ↔ Bearer unicode corpus right key := by
  induction joined with
  | rel left right listed =>
      obtain ⟨own, first, second⟩ := (bonded keyed listed).named
      constructor
      · intro bearer
        rwa [← Option.some.inj (first.1.symm.trans bearer.1)]
      · intro bearer
        rwa [← Option.some.inj (second.1.symm.trans bearer.1)]
  | refl item => exact Iff.rfl
  | symm left right _ ih => exact ih.symm
  | trans left middle right _ _ first second => exact first.trans second

end Corpus

namespace Corpus

variable (unicode corpus) in
/-- What joins two identities: a value only their name carries, a name at one firm at the most, or
a name at a firm. -/
inductive Evidence (left right : Nat) : Prop where
  | contact (value : ContactValue) (key : String)
      (listed : value ∈ corpus.values)
      (only : ascending (corpus.namesAt unicode value) = [key])
      (leftBears : left ∈ corpus.bearers unicode value key)
      (rightBears : right ∈ corpus.bearers unicode value key)
  | rarity (key : String)
      (listed : key ∈ corpus.mergeableKeys unicode)
      (rare : (corpus.firmsOfName unicode key).card ≤ 1)
      (clear : corpus.contradicted unicode (ascending (corpus.byKey unicode key)) = false)
      (leftHeld : left ∈ corpus.byKey unicode key)
      (rightHeld : right ∈ corpus.byKey unicode key)
  | firm (cohort : String × Nat)
      (listed : cohort ∈ corpus.firmKeys unicode)
      (clear : corpus.contradicted unicode (ascending (corpus.atFirm unicode cohort)) = false)
      (leftHeld : left ∈ corpus.atFirm unicode cohort)
      (rightHeld : right ∈ corpus.atFirm unicode cohort)

theorem evidence_of_edge {edge : Nat × Nat} (listed : edge ∈ corpus.allEdges unicode) :
    Evidence unicode corpus edge.1 edge.2 := by
  rcases mem_allEdges.mp listed with contact | firm | rare
  · obtain ⟨row, inside, rfl⟩ := List.mem_map.mp contact
    obtain ⟨known, only, names, chained⟩ := mem_aEdges.mp inside
    exact .contact row.2 only known names (mem_of_chain chained).1 (mem_of_chain chained).2
  · obtain ⟨cohort, known, inside⟩ := List.mem_flatMap.mp firm
    obtain ⟨clear, chained⟩ := mem_cohortEdges.mp inside
    exact .firm cohort known clear (mem_ascending.mp (mem_of_chain chained).1)
      (mem_ascending.mp (mem_of_chain chained).2)
  · obtain ⟨key, known, few, inside⟩ := mem_rEdges.mp rare
    obtain ⟨clear, chained⟩ := mem_cohortEdges.mp inside
    exact .rarity key known few clear (mem_ascending.mp (mem_of_chain chained).1)
      (mem_ascending.mp (mem_of_chain chained).2)

theorem joined_of_evidence {left right : Nat} (evidence : Evidence unicode corpus left right) :
    Joined (corpus.allEdges unicode) left right := by
  cases evidence with
  | contact value key listed only leftBears rightBears =>
      refine joined_of_chain (fun edge chained => mem_allEdges.mpr (.inl ?_)) leftBears rightBears
      exact List.mem_map.mpr ⟨(edge, value), mem_aEdges.mpr ⟨listed, key, only, chained⟩, rfl⟩
  | rarity key listed rare clear leftHeld rightHeld =>
      refine joined_of_chain (fun edge chained => mem_allEdges.mpr (.inr (.inr ?_)))
        (mem_ascending.mpr leftHeld) (mem_ascending.mpr rightHeld)
      exact mem_rEdges.mpr ⟨key, listed, rare, mem_cohortEdges.mpr ⟨clear, chained⟩⟩
  | firm cohort listed clear leftHeld rightHeld =>
      refine joined_of_chain (fun edge chained => mem_allEdges.mpr (.inr (.inl ?_)))
        (mem_ascending.mpr leftHeld) (mem_ascending.mpr rightHeld)
      exact List.mem_flatMap.mpr ⟨cohort, listed, mem_cohortEdges.mpr ⟨clear, chained⟩⟩

/-- The stars reach what the cliques of evidence would. -/
theorem joined_iff_evidence {left right : Nat} : Joined (corpus.allEdges unicode) left right ↔
    Relation.EqvGen (Evidence unicode corpus) left right := by
  constructor
  · intro joined
    exact Relation.EqvGen.mono (fun _ _ listed => evidence_of_edge listed) _ _ joined
  · intro linked
    induction linked with
    | rel left right evidence => exact joined_of_evidence evidence
    | refl item => exact .refl item
    | symm left right _ ih => exact ih.symm
    | trans left middle right _ _ first second => exact first.trans _ _ _ second

end Corpus

/-! ### Components -/

theorem mem_nodes {edges : List (Nat × Nat)} {id : Nat} :
    id ∈ nodes edges ↔ ∃ edge ∈ edges, id = edge.1 ∨ id = edge.2 := by
  simp only [nodes, List.mem_dedup, List.mem_flatMap, List.mem_cons, List.not_mem_nil, or_false]

theorem nodup_nodes {edges : List (Nat × Nat)} : (nodes edges).Nodup :=
  List.nodup_dedup _

theorem node_of_joined {edges : List (Nat × Nat)} {left right : Nat}
    (joined : Joined edges left right) : left ∈ nodes edges ↔ right ∈ nodes edges := by
  induction joined with
  | rel left right listed =>
      exact ⟨fun _ => mem_nodes.mpr ⟨_, listed, .inr rfl⟩,
        fun _ => mem_nodes.mpr ⟨_, listed, .inl rfl⟩⟩
  | refl item => exact Iff.rfl
  | symm left right _ ih => exact ih.symm
  | trans left middle right _ _ first second => exact first.trans second

theorem rootOf_eq_iff {edges : List (Nat × Nat)} {left right : Nat} :
    rootOf edges left = rootOf edges right ↔ Joined edges left right :=
  find_linkAll_eq_iff

section Component

variable {component : Nat × List Nat}

theorem mem_component (listed : component ∈ components unicode corpus) {id : Nat} :
    id ∈ component.2 ↔ id ∈ nodes (corpus.allEdges unicode) ∧
      rootOf (corpus.allEdges unicode) id = component.1 := by
  have grouped := (mem_sortedGroups.mp (List.mem_filter.mp listed).1).2
  rw [grouped, mem_sortedBy, List.mem_filter, decide_eq_true_iff]

/-- A component is all a member is joined with. -/
theorem component_whole (listed : component ∈ components unicode corpus) {id : Nat}
    (inside : id ∈ component.2) (other : Nat) :
    other ∈ component.2 ↔ Joined (corpus.allEdges unicode) id other := by
  obtain ⟨node, root⟩ := (mem_component listed).mp inside
  rw [mem_component listed, ← root]
  constructor
  · intro held
    exact (rootOf_eq_iff.mp held.2).symm
  · intro joined
    exact ⟨(node_of_joined joined).mp node, (rootOf_eq_iff.mpr joined).symm⟩

theorem component_eq {other : Nat × List Nat} (listed : component ∈ components unicode corpus)
    (otherListed : other ∈ components unicode corpus) {id : Nat} (inside : id ∈ component.2)
    (otherInside : id ∈ other.2) : component = other := by
  have roots : component.1 = other.1 :=
    ((mem_component listed).mp inside).2.symm.trans ((mem_component otherListed).mp otherInside).2
  refine Prod.ext roots ?_
  rw [(mem_sortedGroups.mp (List.mem_filter.mp listed).1).2,
    (mem_sortedGroups.mp (List.mem_filter.mp otherListed).1).2, roots]

theorem component_ascends (listed : component ∈ components unicode corpus) :
    component.2.Pairwise (· < ·) := by
  rw [(mem_sortedGroups.mp (List.mem_filter.mp listed).1).2]
  exact sortedIds_ascends (nodup_nodes.filter _)

/-- An edge lies in a component of two or more. -/
theorem component_of_edge (keyed : Keyed Identity.id corpus.identities) {edge : Nat × Nat}
    (listed : edge ∈ corpus.allEdges unicode) :
    ∃ component ∈ components unicode corpus, edge.1 ∈ component.2 ∧ edge.2 ∈ component.2 := by
  let group := sortedIds ((nodes (corpus.allEdges unicode)).filter fun id =>
    decide (rootOf (corpus.allEdges unicode) id = rootOf (corpus.allEdges unicode) edge.1))
  have first : edge.1 ∈ nodes (corpus.allEdges unicode) := mem_nodes.mpr ⟨edge, listed, .inl rfl⟩
  have second : edge.2 ∈ nodes (corpus.allEdges unicode) := mem_nodes.mpr ⟨edge, listed, .inr rfl⟩
  have grouped : ∀ id, id ∈ nodes (corpus.allEdges unicode) →
      rootOf (corpus.allEdges unicode) id = rootOf (corpus.allEdges unicode) edge.1 →
        id ∈ group := by
    intro id node root
    rw [mem_sortedBy, List.mem_filter, decide_eq_true_iff]
    exact ⟨node, root⟩
  have firstIn : edge.1 ∈ group := grouped edge.1 first rfl
  have secondIn : edge.2 ∈ group :=
    grouped edge.2 second (rootOf_eq_iff.mpr (Relation.EqvGen.symm _ _ (.rel _ _ listed)))
  have apart : edge.1 ≠ edge.2 := (Corpus.bonded keyed listed).ordered.ne
  have both : [edge.1, edge.2].Subperm group :=
    (List.nodup_cons.mpr ⟨by simpa using apart, List.nodup_singleton _⟩).subperm (by
      intro id held
      rcases List.mem_cons.mp held with rfl | held
      · exact firstIn
      · rw [List.mem_singleton.mp held]
        exact secondIn)
  have member : (rootOf (corpus.allEdges unicode) edge.1, group) ∈ components unicode corpus := by
    rw [components, componentsOf, List.mem_filter, mem_sortedGroups, decide_eq_true_iff]
    exact ⟨⟨⟨edge.1, first, rfl⟩, rfl⟩, both.length_le⟩
  exact ⟨_, member, firstIn, secondIn⟩

end Component

theorem components_disjoint : ((components unicode corpus).map Prod.snd).Pairwise List.Disjoint := by
  have apart := (List.nodup_flatten.mp (nodup_flatten_classes (nodup_nodes) :
    ((sortedGroups (rootOf (corpus.allEdges unicode))
      (nodes (corpus.allEdges unicode))).map Prod.snd).flatten.Nodup)).2
  exact apart.sublist (List.filter_sublist.map Prod.snd)

/-! ### What is merged -/

theorem mem_merged {component : Nat × List Nat} : component ∈ merged unicode corpus blocked ↔
    component ∈ components unicode corpus ∧ held blocked component.2 = false := by
  rw [merged, List.mem_filter, Bool.not_eq_true']

/-- Not held: within the cap, and no standing no. -/
theorem held_eq_false {group : List Nat} : held blocked group = false ↔
    (∀ pair ∈ blocked, ¬(pair.1 ∈ group ∧ pair.2 ∈ group)) ∧
      group.length ≤ maxAutoMergeComponent := by
  unfold held touched
  rw [Bool.or_eq_false_iff, decide_eq_false_iff_not, decide_eq_false_iff_not]
  push Not
  exact Iff.rfl

theorem mergedRoot_of_mem {component : Nat × List Nat}
    (listed : component ∈ merged unicode corpus blocked) {id : Nat} (inside : id ∈ component.2) :
    mergedRoot unicode corpus blocked id = some component.1 := by
  unfold mergedRoot
  cases found : (merged unicode corpus blocked).find? fun component =>
      decide (id ∈ component.2) with
  | none => exact absurd (decide_eq_true inside) (List.find?_eq_none.mp found component listed)
  | some other =>
      have otherInside : id ∈ other.2 := by simpa using List.find?_some found
      rw [component_eq (mem_merged.mp listed).1 (mem_merged.mp (List.mem_of_find?_eq_some found)).1
        inside otherInside]
      rfl

/-! ### What is asked -/

theorem mem_pairs {members : List Nat} {pair : Nat × Nat} (inside : pair ∈ pairs members) :
    pair.1 ∈ members ∧ pair.2 ∈ members := by
  induction members with
  | nil => cases inside
  | cons first rest ih =>
      rcases List.mem_append.mp inside with own | later
      · obtain ⟨other, listed, rfl⟩ := List.mem_map.mp own
        exact ⟨List.mem_cons_self, List.mem_cons_of_mem _ listed⟩
      · exact ⟨List.mem_cons_of_mem _ (ih later).1, List.mem_cons_of_mem _ (ih later).2⟩

theorem pairs_of_mem {members : List Nat} (ascends : members.Pairwise (· < ·)) {left right : Nat}
    (ordered : left < right) (leftIn : left ∈ members) (rightIn : right ∈ members) :
    (left, right) ∈ pairs members := by
  induction members with
  | nil => cases leftIn
  | cons first rest ih =>
      obtain ⟨least, others⟩ := List.pairwise_cons.mp ascends
      rcases List.mem_cons.mp leftIn with rfl | leftLater
      · rcases List.mem_cons.mp rightIn with rfl | rightLater
        · exact absurd ordered (lt_irrefl _)
        · exact List.mem_append_left _ (List.mem_map.mpr ⟨right, rightLater, rfl⟩)
      · rcases List.mem_cons.mp rightIn with rfl | rightLater
        · exact absurd (least left leftLater) ordered.not_gt
        · exact List.mem_append_right _ (ih others leftLater rightLater)

theorem mem_edgesByRoot {root : Nat} {edge : Nat × Nat} :
    edge ∈ edgesByRoot unicode corpus blocked root ↔ edge ∈ corpus.allEdges unicode ∧
      edge ∉ blocked ∧ rootOf (corpus.allEdges unicode) edge.1 = root := by
  simp only [edgesByRoot, unblocked, List.mem_filter, decide_eq_true_iff, beq_iff_eq, and_assoc]

theorem mem_downgrades {row : (Nat × Nat) × Hold} : row ∈ downgrades unicode corpus blocked ↔
    ∃ component ∈ components unicode corpus, held blocked component.2 = true ∧
      row ∈ downgraded unicode corpus blocked component := by
  simp only [downgrades, List.mem_flatMap, List.mem_filter, and_assoc]

/-- What is asked of a held component lies inside it. -/
theorem downgraded_inside {component : Nat × List Nat}
    (listed : component ∈ components unicode corpus) {row : (Nat × Nat) × Hold}
    (asked : row ∈ downgraded unicode corpus blocked component) :
    row.1.1 ∈ component.2 ∧ row.1.2 ∈ component.2 := by
  obtain ⟨pair, inside, rfl⟩ := List.mem_map.mp asked
  split_ifs at inside with small
  · exact mem_pairs inside
  · obtain ⟨edge, _, root⟩ := mem_edgesByRoot.mp inside
    have first : pair.1 ∈ component.2 :=
      (mem_component listed).mpr ⟨mem_nodes.mpr ⟨pair, edge, .inl rfl⟩, root⟩
    exact ⟨first, (component_whole listed first _).mpr (.rel _ _ edge)⟩

/-- An edge of a held component is asked, or blocked. -/
theorem downgraded_edge {component : Nat × List Nat}
    (listed : component ∈ components unicode corpus) {edge : Nat × Nat}
    (ordered : edge.1 < edge.2) (isEdge : edge ∈ corpus.allEdges unicode)
    (open_ : edge ∉ blocked) (first : edge.1 ∈ component.2) (second : edge.2 ∈ component.2) :
    ∃ row ∈ downgraded unicode corpus blocked component, row.1 = edge := by
  refine ⟨(edge, _), List.mem_map.mpr ⟨edge, ?_, rfl⟩, rfl⟩
  split_ifs with small
  · exact pairs_of_mem (component_ascends listed) ordered first second
  · exact mem_edgesByRoot.mpr ⟨isEdge, open_, ((mem_component listed).mp first).2⟩

theorem mem_residue {row : (Nat × Nat) × Hold} (listed : row ∈ residue unicode corpus blocked) :
    asked unicode corpus blocked row.1 = true ∧ row.2 = holdOf unicode corpus row.1 := by
  obtain ⟨value, _, inside⟩ := List.mem_flatMap.mp listed
  unfold residueOf at inside
  split_ifs at inside with few
  · cases inside
  · obtain ⟨pair, kept, rfl⟩ := List.mem_map.mp inside
    exact ⟨(List.mem_filter.mp kept).2, rfl⟩

theorem mem_review {pair : Nat × Nat} : pair ∈ review unicode corpus blocked ↔
    ∃ row ∈ reviewRows unicode corpus blocked, normalized row.1 = pair := by
  rw [review, List.mem_dedup, List.mem_map]

theorem normalized_of_lt {pair : Nat × Nat} (ordered : pair.1 < pair.2) :
    normalized pair = pair :=
  if_pos ordered

theorem normalized_ends {group : List Nat} {pair : Nat × Nat} :
    ((normalized pair).1 ∈ group ∧ (normalized pair).2 ∈ group) ↔
      (pair.1 ∈ group ∧ pair.2 ∈ group) := by
  unfold normalized
  split_ifs with ordered
  · exact Iff.rfl
  · exact and_comm

/-- Nothing is asked inside what is merged. -/
theorem review_outside {component : Nat × List Nat}
    (listed : component ∈ merged unicode corpus blocked) {pair : Nat × Nat}
    (first : pair.1 ∈ component.2) (second : pair.2 ∈ component.2) :
    pair ∉ review unicode corpus blocked := by
  intro reviewed
  obtain ⟨row, inRows, rfl⟩ := mem_review.mp reviewed
  obtain ⟨rowFirst, rowSecond⟩ := normalized_ends.mp ⟨first, second⟩
  rcases List.mem_append.mp inRows with downgrade | rest
  · obtain ⟨other, otherListed, stopped, own⟩ := mem_downgrades.mp downgrade
    have same := component_eq (mem_merged.mp listed).1 otherListed rowFirst
      (downgraded_inside otherListed own).1
    rw [← same, (mem_merged.mp listed).2] at stopped
    exact absurd stopped (by decide)
  · have wanted := (mem_residue rest).1
    unfold asked at wanted
    rw [mergedRoot_of_mem listed rowFirst, mergedRoot_of_mem listed rowSecond] at wanted
    simp at wanted

theorem mem_reviewPairs {pair : Nat × Nat} :
    pair ∈ (decideMerges unicode corpus blocked).reviewPairs ↔
      pair ∈ review unicode corpus blocked ∧ pair ∉ blocked := by
  simp only [decideMerges, mem_sortedBy, List.mem_filter, decide_eq_true_iff]

theorem mem_suppressed {pair : Nat × Nat} :
    pair ∈ (decideMerges unicode corpus blocked).suppressed ↔
      (pair ∈ corpus.allEdges unicode ∨ pair ∈ review unicode corpus blocked) ∧ pair ∈ blocked := by
  simp only [decideMerges, mem_sortedBy, List.mem_dedup, List.mem_append, List.mem_filter,
    decide_eq_true_iff, or_and_right]

/-- An edge outside what is merged is asked or suppressed. -/
theorem edge_answered (keyed : Keyed Identity.id corpus.identities) {edge : Nat × Nat}
    (listed : edge ∈ corpus.allEdges unicode)
    (outside : ∀ component ∈ merged unicode corpus blocked, edge.1 ∉ component.2) :
    edge ∈ (decideMerges unicode corpus blocked).reviewPairs ∨
      edge ∈ (decideMerges unicode corpus blocked).suppressed := by
  by_cases standing : edge ∈ blocked
  · exact .inr (mem_suppressed.mpr ⟨.inl listed, standing⟩)
  · obtain ⟨component, whole, first, second⟩ := component_of_edge keyed listed
    have ordered := (Corpus.bonded keyed listed).ordered
    have stopped : held blocked component.2 = true := by
      cases holds : held blocked component.2 with
      | true => rfl
      | false => exact absurd first (outside component (mem_merged.mpr ⟨whole, holds⟩))
    obtain ⟨row, own, same⟩ := downgraded_edge whole ordered listed standing first second
    refine .inl (mem_reviewPairs.mpr ⟨mem_review.mpr ⟨row, ?_, ?_⟩, standing⟩)
    · exact List.mem_append_left _ (mem_downgrades.mpr ⟨component, whole, stopped, own⟩)
    · rw [same, normalized_of_lt ordered]

/-! ### The order of the corpus -/

/-- One corpus in two orders. -/
structure Reordered (corpus other : Corpus) : Prop where
  keyed : Keyed Identity.id corpus.identities
  identities : other.identities.Perm corpus.identities
  contacts : other.contacts.Perm corpus.contacts

namespace Reordered

open Corpus

variable {other : Corpus} (reordered : Reordered corpus other)
include reordered

theorem byId : other.byId = corpus.byId := by
  funext id
  have otherKeyed : Keyed Identity.id other.identities :=
    (reordered.identities.map Identity.id).nodup_iff.mpr reordered.keyed
  apply Option.ext
  intro identity
  rw [byId_eq_some_iff otherKeyed, byId_eq_some_iff reordered.keyed,
    reordered.identities.mem_iff]

theorem mergeableId : other.mergeableId = corpus.mergeableId := by
  unfold Corpus.mergeableId
  rw [reordered.byId]

theorem keyOf : other.keyOf unicode = corpus.keyOf unicode := by
  unfold Corpus.keyOf
  rw [reordered.byId]

theorem primaryFirm : other.primaryFirm = corpus.primaryFirm := by
  unfold Corpus.primaryFirm
  rw [reordered.byId]

theorem known : other.known.Perm corpus.known := by
  unfold Corpus.known
  rw [reordered.byId]
  exact reordered.contacts.filter _

theorem values : other.values.Perm corpus.values := by
  apply (List.perm_ext_iff_of_nodup (nodup_eraseDups _) (nodup_eraseDups _)).mpr
  intro value
  rw [List.mem_eraseDups, List.mem_eraseDups]
  exact (reordered.known.map _).mem_iff

theorem carriers : other.carriers = corpus.carriers := by
  funext value
  exact List.toFinset_eq_of_perm _ _ ((reordered.known.filter _).map _)

theorem emailsOf (id : Nat) : (other.emailsOf id).Perm (corpus.emailsOf id) :=
  (reordered.known.filter _).map _

theorem namesAt : other.namesAt unicode = corpus.namesAt unicode := by
  funext value
  unfold Corpus.namesAt
  rw [reordered.keyOf]
  exact List.toFinset_eq_of_perm _ _ ((reordered.known.filter _).filterMap _)

theorem firmsOfName : other.firmsOfName unicode = corpus.firmsOfName unicode := by
  funext key
  unfold Corpus.firmsOfName
  rw [reordered.keyOf]
  exact List.toFinset_eq_of_perm _ _ ((reordered.identities.filter _).filterMap _)

theorem desk : other.desk = corpus.desk := by
  funext holder value
  unfold Corpus.desk
  cases value.1 with
  | email => rfl
  | phone =>
      dsimp only
      rw [(reordered.emailsOf holder).isEmpty_eq, (reordered.emailsOf holder).all_eq]

theorem discriminating : other.discriminating unicode = corpus.discriminating unicode := by
  funext holder kind
  unfold Corpus.discriminating
  rw [reordered.namesAt, reordered.carriers, reordered.desk]
  exact List.toFinset_eq_of_perm _ _ ((reordered.values.filter _).map _)

theorem cohortEdges : other.cohortEdges unicode = corpus.cohortEdges unicode := by
  unfold Corpus.cohortEdges Corpus.contradicted
  rw [reordered.discriminating]

theorem bearers : other.bearers unicode = corpus.bearers unicode := by
  unfold Corpus.bearers
  rw [reordered.carriers, reordered.keyOf, reordered.mergeableId]

theorem aEdges : (other.aEdges unicode).Perm (corpus.aEdges unicode) := by
  unfold Corpus.aEdges
  rw [reordered.namesAt, reordered.bearers]
  exact reordered.values.flatMap_right _

theorem stamped : other.stamped unicode = corpus.stamped unicode := by
  funext edge
  exact List.toFinset_eq_of_perm _ _ ((reordered.aEdges.filter _).map _)

theorem byKey : other.byKey unicode = corpus.byKey unicode := by
  funext key
  unfold Corpus.byKey
  rw [reordered.keyOf]
  exact List.toFinset_eq_of_perm _ _ ((reordered.identities.filter _).map _)

theorem atFirm : other.atFirm unicode = corpus.atFirm unicode := by
  funext cohort
  unfold Corpus.atFirm
  rw [reordered.keyOf]
  exact List.toFinset_eq_of_perm _ _ ((reordered.identities.filter _).map _)

theorem mergeableKeys : (other.mergeableKeys unicode).Perm (corpus.mergeableKeys unicode) := by
  apply (List.perm_ext_iff_of_nodup (nodup_eraseDups _) (nodup_eraseDups _)).mpr
  intro key
  rw [List.mem_eraseDups, List.mem_eraseDups, reordered.keyOf]
  exact ((reordered.identities.filter _).filterMap _).mem_iff

theorem firmKeys : (other.firmKeys unicode).Perm (corpus.firmKeys unicode) := by
  apply (List.perm_ext_iff_of_nodup (nodup_eraseDups _) (nodup_eraseDups _)).mpr
  intro cohort
  rw [List.mem_eraseDups, List.mem_eraseDups, reordered.keyOf]
  exact ((reordered.identities.filter _).filterMap _).mem_iff

theorem rEdges : (other.rEdges unicode).Perm (corpus.rEdges unicode) := by
  unfold Corpus.rEdges
  rw [reordered.firmsOfName, reordered.cohortEdges, reordered.byKey]
  exact reordered.mergeableKeys.flatMap_right _

theorem fEdges : (other.fEdges unicode).Perm (corpus.fEdges unicode) := by
  unfold Corpus.fEdges
  rw [reordered.cohortEdges, reordered.atFirm]
  exact reordered.firmKeys.flatMap_right _

theorem allEdges : other.allEdges unicode = corpus.allEdges unicode := by
  refine sortedBy_eq_of_perm (List.Perm.dedup ?_) fun _ _ _ _ equal => toLex.injective equal
  exact ((reordered.aEdges.map Prod.fst).append reordered.fEdges).append reordered.rEdges

theorem components : components unicode other = components unicode corpus := by
  unfold BrokerResolver.components
  rw [reordered.allEdges]

theorem merged : merged unicode other blocked = merged unicode corpus blocked := by
  unfold BrokerResolver.merged
  rw [reordered.components]

theorem edgesByRoot : edgesByRoot unicode other blocked = edgesByRoot unicode corpus blocked := by
  unfold BrokerResolver.edgesByRoot unblocked
  rw [reordered.allEdges]

theorem downgrades : downgrades unicode other blocked = downgrades unicode corpus blocked := by
  unfold BrokerResolver.downgrades downgraded
  rw [reordered.components, reordered.edgesByRoot]

theorem groupReason : groupReason unicode other blocked = groupReason unicode corpus blocked := by
  funext component
  unfold BrokerResolver.groupReason
  simp only [reordered.edgesByRoot, (reordered.aEdges.map Prod.fst).mem_iff,
    reordered.fEdges.mem_iff, reordered.rEdges.mem_iff]

theorem groupBridge : groupBridge unicode other blocked = groupBridge unicode corpus blocked := by
  funext component
  unfold BrokerResolver.groupBridge
  rw [reordered.edgesByRoot, reordered.stamped]
  split
  · next edge _ =>
      split_ifs with single
      · obtain ⟨value, only⟩ := Finset.card_eq_one.mp single
        refine find?_perm reordered.values fun one _ two _ oneHeld twoHeld => ?_
        rw [only] at oneHeld twoHeld
        rw [Finset.mem_singleton.mp (of_decide_eq_true oneHeld),
          Finset.mem_singleton.mp (of_decide_eq_true twoHeld)]
      · rfl
  · rfl

theorem asked : asked unicode other blocked = asked unicode corpus blocked := by
  unfold BrokerResolver.asked mergedRoot
  rw [reordered.primaryFirm, reordered.merged]

theorem holdOf : holdOf unicode other = holdOf unicode corpus := by
  unfold BrokerResolver.holdOf
  rw [reordered.firmsOfName, reordered.keyOf, reordered.discriminating]

theorem residueOf : residueOf unicode other blocked = residueOf unicode corpus blocked := by
  unfold BrokerResolver.residueOf namesHeld
  rw [reordered.namesAt, reordered.carriers, reordered.mergeableId, reordered.keyOf,
    reordered.bearers, reordered.asked, reordered.holdOf]

theorem residue : (residue unicode other blocked).Perm (residue unicode corpus blocked) := by
  unfold BrokerResolver.residue
  rw [reordered.residueOf]
  exact reordered.values.flatMap_right _

theorem review : (review unicode other blocked).Perm (review unicode corpus blocked) := by
  unfold BrokerResolver.review reviewRows
  rw [reordered.downgrades]
  exact ((reordered.residue.append_left _).map _).dedup

theorem pairHolds (pair : Nat × Nat) :
    (reviewRows unicode other blocked).lookup pair =
      (reviewRows unicode corpus blocked).lookup pair := by
  unfold reviewRows
  rw [List.lookup_append, List.lookup_append, reordered.downgrades,
    lookup_perm reordered.residue fun row listed => (mem_residue listed).2]

theorem decideMerges :
    decideMerges unicode other blocked = decideMerges unicode corpus blocked := by
  have asked : sortedBy toLex ((BrokerResolver.review unicode other blocked).filter
        fun pair => decide (pair ∉ blocked)) =
      sortedBy toLex ((BrokerResolver.review unicode corpus blocked).filter
        fun pair => decide (pair ∉ blocked)) :=
    sortedBy_eq_of_perm (reordered.review.filter _) fun _ _ _ _ equal => toLex.injective equal
  have stopped : sortedBy toLex ((corpus.allEdges unicode).filter
          (fun edge => decide (edge ∈ blocked)) ++
        (BrokerResolver.review unicode other blocked).filter
          fun pair => decide (pair ∈ blocked)).dedup =
      sortedBy toLex ((corpus.allEdges unicode).filter (fun edge => decide (edge ∈ blocked)) ++
        (BrokerResolver.review unicode corpus blocked).filter
          fun pair => decide (pair ∈ blocked)).dedup :=
    sortedBy_eq_of_perm ((reordered.review.filter _).append_left _).dedup
      fun _ _ _ _ equal => toLex.injective equal
  unfold BrokerResolver.decideMerges
  rw [reordered.merged, reordered.allEdges, asked, stopped, reordered.groupBridge,
    reordered.groupReason, funext reordered.pairHolds]

end Reordered

/-! ### The decision -/

/-- What the operator and the merge can count on. -/
structure Sound (unicode : Unicode) (corpus : Corpus) (blocked : Finset (Nat × Nat))
    (decision : MergeDecision) : Prop where
  disjoint : decision.autoMergeGroups.Pairwise List.Disjoint
  sized : ∀ group ∈ decision.autoMergeGroups,
    group.Nodup ∧ 2 ≤ group.length ∧ group.length ≤ maxAutoMergeComponent
  named : ∀ group ∈ decision.autoMergeGroups, ∃ key, ∀ id ∈ group, ∃ identity ∈ corpus.identities,
    identity.id = id ∧ identity.mergeable = true ∧ nameKey unicode identity.name = some key
  unsuppressed : ∀ group ∈ decision.autoMergeGroups, ∀ pair ∈ blocked,
    ¬(pair.1 ∈ group ∧ pair.2 ∈ group)
  whole : ∀ group ∈ decision.autoMergeGroups, ∀ id ∈ group, ∀ other,
    other ∈ group ↔ Joined (corpus.allEdges unicode) id other
  answered : ∀ edge ∈ corpus.allEdges unicode,
    (∃ group ∈ decision.autoMergeGroups, edge.1 ∈ group ∧ edge.2 ∈ group) ∨
      edge ∈ decision.reviewPairs ∨ edge ∈ decision.suppressed
  apart : decision.reviewPairs.Disjoint decision.suppressed
  settled : ∀ group ∈ decision.autoMergeGroups, ∀ pair : Nat × Nat, pair.1 ∈ group →
    pair.2 ∈ group → pair ∉ decision.reviewPairs ∧ pair ∉ decision.suppressed

theorem autoMergeGroups_eq : (decideMerges unicode corpus blocked).autoMergeGroups =
    (merged unicode corpus blocked).map Prod.snd := by
  simp only [decideMerges]

theorem mem_autoMergeGroups {group : List Nat} :
    group ∈ (decideMerges unicode corpus blocked).autoMergeGroups ↔
      ∃ component ∈ merged unicode corpus blocked, component.2 = group := by
  rw [autoMergeGroups_eq, List.mem_map]

theorem groups_disjoint :
    (decideMerges unicode corpus blocked).autoMergeGroups.Pairwise List.Disjoint := by
  rw [autoMergeGroups_eq]
  exact components_disjoint.sublist (List.filter_sublist.map Prod.snd)

/-- One name runs through what is merged. -/
theorem group_named (keyed : Keyed Identity.id corpus.identities) {component : Nat × List Nat}
    (listed : component ∈ components unicode corpus) :
    ∃ key, ∀ id ∈ component.2, Corpus.Bearer unicode corpus id key := by
  obtain ⟨id, inside⟩ := List.exists_mem_of_length_pos
    (lt_of_lt_of_le Nat.zero_lt_two (of_decide_eq_true (List.mem_filter.mp listed).2))
  obtain ⟨edge, isEdge, ends⟩ := mem_nodes.mp ((mem_component listed).mp inside).1
  obtain ⟨key, first, second⟩ := (Corpus.bonded keyed isEdge).named
  have own : Corpus.Bearer unicode corpus id key := by
    rcases ends with rfl | rfl
    · exact first
    · exact second
  refine ⟨key, fun other held => ?_⟩
  have joined := (component_whole listed inside other).mp held
  exact (Corpus.bearer_of_joined keyed joined key).mp own

theorem sound (keyed : Keyed Identity.id corpus.identities) :
    Sound unicode corpus blocked (decideMerges unicode corpus blocked) where
  disjoint := groups_disjoint
  sized := by
    intro group listed
    obtain ⟨component, merged_, rfl⟩ := mem_autoMergeGroups.mp listed
    obtain ⟨isComponent, unheld⟩ := mem_merged.mp merged_
    exact ⟨(component_ascends isComponent).imp ne_of_lt,
      of_decide_eq_true (List.mem_filter.mp isComponent).2, (held_eq_false.mp unheld).2⟩
  named := by
    intro group listed
    obtain ⟨component, merged_, rfl⟩ := mem_autoMergeGroups.mp listed
    obtain ⟨key, bear⟩ := group_named keyed (mem_merged.mp merged_).1
    exact ⟨key, fun id inside => (bear id inside).identity⟩
  unsuppressed := by
    intro group listed
    obtain ⟨component, merged_, rfl⟩ := mem_autoMergeGroups.mp listed
    exact (held_eq_false.mp (mem_merged.mp merged_).2).1
  whole := by
    intro group listed id inside other
    obtain ⟨component, merged_, rfl⟩ := mem_autoMergeGroups.mp listed
    exact component_whole (mem_merged.mp merged_).1 inside other
  answered := by
    intro edge isEdge
    by_cases inside : ∃ component ∈ merged unicode corpus blocked, edge.1 ∈ component.2
    · obtain ⟨component, merged_, first⟩ := inside
      refine .inl ⟨component.2, mem_autoMergeGroups.mpr ⟨component, merged_, rfl⟩, first, ?_⟩
      exact (component_whole (mem_merged.mp merged_).1 first _).mpr (.rel _ _ isEdge)
    · exact .inr (edge_answered keyed isEdge fun component merged_ first =>
        inside ⟨component, merged_, first⟩)
  apart := by
    intro pair reviewed suppressed
    exact (mem_reviewPairs.mp reviewed).2 (mem_suppressed.mp suppressed).2
  settled := by
    intro group listed pair first second
    obtain ⟨component, merged_, rfl⟩ := mem_autoMergeGroups.mp listed
    refine ⟨fun reviewed => review_outside merged_ first second (mem_reviewPairs.mp reviewed).1,
      fun suppressed => ?_⟩
    exact (held_eq_false.mp (mem_merged.mp merged_).2).1 pair (mem_suppressed.mp suppressed).2
      ⟨first, second⟩

/-- Every component is merged whole or asked about edge by edge, the edges reach what the
evidence does, and any order of the identities and the contacts is decided the same. -/
theorem merges_sound_and_order_free (unicode : Unicode) (corpus : Corpus)
    (blocked : Finset (Nat × Nat)) (keyed : Keyed Identity.id corpus.identities) :
    Sound unicode corpus blocked (decideMerges unicode corpus blocked) ∧
      (∀ left right, Joined (corpus.allEdges unicode) left right ↔
        Relation.EqvGen (Corpus.Evidence unicode corpus) left right) ∧
      ∀ other : Corpus, other.identities.Perm corpus.identities →
        other.contacts.Perm corpus.contacts →
          decideMerges unicode other blocked = decideMerges unicode corpus blocked :=
  ⟨sound keyed, fun _ _ => Corpus.joined_iff_evidence,
    fun _ identities contacts => Reordered.decideMerges ⟨keyed, identities, contacts⟩⟩

/-! ### Three records and a standing no -/

/-- The letters of a keyboard without diacritics. -/
def asciiLetters : Unicode where
  nfkd := id
  combining := fun _ => false
  lower := fun letters => letters.map Char.toLower
  isalnum := Char.isAlphanum
  isspace := Char.isWhitespace

/-- One name with its title and turned round, at a shared phone, and a namesake at another firm. -/
def threeNovaks : Corpus where
  identities :=
    [{ id := 1, name := some "Ing. Jan Novak", firmId := some 5, mergeable := true,
       primaryFirmId := some 5 },
     { id := 2, name := some "Novak Jan", firmId := some 6, mergeable := true,
       primaryFirmId := some 6 },
     { id := 3, name := some "Jan Novak", firmId := none, mergeable := true,
       primaryFirmId := none }]
  contacts :=
    [{ identityId := 1, kind := .phone, value := "420777123456" },
     { identityId := 2, kind := .phone, value := "420777123456" }]

theorem three_novaks_decided :
    Sound asciiLetters threeNovaks {(1, 3)} (decideMerges asciiLetters threeNovaks {(1, 3)}) ∧
      (decideMerges asciiLetters threeNovaks {(1, 3)}).autoMergeGroups = [[1, 2]] :=
  ⟨(merges_sound_and_order_free asciiLetters threeNovaks {(1, 3)} (by unfold Keyed; decide)).1,
    by decide +kernel⟩

end Sreality.Toolkit.BrokerResolver
