import Sreality.Toolkit.BrokerResolverProperties

/-! Where a same-name pair with a contact in common is answered, and for which reason. The residue
does not look at the components: a component over the cap is expanded wherever its members share a
value of several names. -/

set_option autoImplicit false

namespace Sreality.Toolkit.BrokerResolver

open Sreality.Foundation Sreality.Foundation.Forest

variable {unicode : Unicode} {corpus : Corpus} {blocked : Finset (Nat × Nat)} {pair : Nat × Nat}

/-! ### The claim -/

/-- Two identities that can be merged, of one name, with a contact value in common. -/
structure Question (unicode : Unicode) (corpus : Corpus) (pair : Nat × Nat) : Prop where
  ordered : pair.1 < pair.2
  named : ∃ key, Corpus.Bearer unicode corpus pair.1 key ∧ Corpus.Bearer unicode corpus pair.2 key
  shared : ∃ value, pair.1 ∈ corpus.carriers value ∧ pair.2 ∈ corpus.carriers value

/-- Both in one component of the evidence. -/
def Within (unicode : Unicode) (corpus : Corpus) (holds : List Nat → Prop) (pair : Nat × Nat) :
    Prop :=
  ∃ component ∈ components unicode corpus, holds component.2 ∧ pair.1 ∈ component.2 ∧
    pair.2 ∈ component.2

def OverCap (group : List Nat) : Prop := maxAutoMergeComponent < group.length

/-- The operator has the pair on another card. -/
def SameFirm (corpus : Corpus) (pair : Nat × Nat) : Prop :=
  (corpus.primaryFirm pair.1).isSome ∧ corpus.primaryFirm pair.1 = corpus.primaryFirm pair.2

/-- Where a question is answered. -/
inductive Place where
  | merged
  | asked
  | suppressed
  | sameFirm
  | overCap

/-- Inside a component over the cap the component is what answers. -/
def Place.Holds (unicode : Unicode) (corpus : Corpus) (blocked : Finset (Nat × Nat))
    (pair : Nat × Nat) : Place → Prop
  | .merged => ∃ group ∈ (decideMerges unicode corpus blocked).autoMergeGroups,
      pair.1 ∈ group ∧ pair.2 ∈ group
  | .asked => pair ∈ (decideMerges unicode corpus blocked).reviewPairs ∧
      ¬Within unicode corpus OverCap pair
  | .suppressed => pair ∈ (decideMerges unicode corpus blocked).suppressed ∧
      ¬Within unicode corpus OverCap pair
  | .sameFirm => SameFirm corpus pair ∧ ¬Within unicode corpus (fun _ => True) pair
  | .overCap => Within unicode corpus OverCap pair

/-- What a hold says of the pair. -/
def Hold.Says (unicode : Unicode) (corpus : Corpus) (blocked : Finset (Nat × Nat))
    (pair : Nat × Nat) : Hold → Prop
  | .suppressed => Within unicode corpus (fun group => touched blocked group = true) pair
  | .oversized => Within unicode corpus OverCap pair
  | .multiFirm firms => (∃ key, corpus.keyOf unicode pair.1 = some key ∧
      1 < (corpus.firmsOfName unicode key).card ∧
      firms = ascending (corpus.firmsOfName unicode key)) ∧
      ¬Within unicode corpus (fun _ => True) pair
  | .contradicted _ => ∃ key, corpus.keyOf unicode pair.1 = some key ∧
      corpus.contradicted unicode (ascending (corpus.byKey unicode key)) = true

structure Answers (unicode : Unicode) (corpus : Corpus) (blocked : Finset (Nat × Nat)) :
    Prop where
  once : ∀ pair, Question unicode corpus pair →
    ∃! place : Place, place.Holds unicode corpus blocked pair
  edges : ∀ pair ∈ (decideMerges unicode corpus blocked).reviewPairs,
    Within unicode corpus OverCap pair → pair ∈ corpus.allEdges unicode
  reasons : ∀ pair ∈ (decideMerges unicode corpus blocked).reviewPairs,
    ∃ hold, (decideMerges unicode corpus blocked).pairHolds pair = some hold ∧
      hold.Says unicode corpus blocked pair

/-- Members of a component over the cap that share a value of several names are an edge, blocked, or
at one firm. -/
def Unexpanded (unicode : Unicode) (corpus : Corpus) (blocked : Finset (Nat × Nat)) : Prop :=
  ∀ pair : Nat × Nat, pair.1 < pair.2 → Within unicode corpus OverCap pair →
    (∃ value, 2 ≤ (corpus.namesAt unicode value).card ∧ pair.1 ∈ corpus.carriers value ∧
      pair.2 ∈ corpus.carriers value) →
        pair ∈ corpus.allEdges unicode ∨ pair ∈ blocked ∨ SameFirm corpus pair

/-! ### Components -/

theorem Within.mono {holds weaker : List Nat → Prop} (within : Within unicode corpus holds pair)
    (weakens : ∀ group, holds group → weaker group) : Within unicode corpus weaker pair := by
  obtain ⟨component, listed, own, inside⟩ := within
  exact ⟨component, listed, weakens _ own, inside⟩

theorem within_iff {component : Nat × List Nat} (listed : component ∈ components unicode corpus)
    (first : pair.1 ∈ component.2) (second : pair.2 ∈ component.2) {holds : List Nat → Prop} :
    Within unicode corpus holds pair ↔ holds component.2 := by
  constructor
  · rintro ⟨other, otherListed, own, otherFirst, _⟩
    rw [component_eq listed otherListed first otherFirst]
    exact own
  · exact fun own => ⟨component, listed, own, first, second⟩

theorem node_of_apart {edges : List (Nat × Nat)} {left right : Nat}
    (joined : Joined edges left right) : left = right ∨ left ∈ nodes edges := by
  induction joined with
  | rel left right listed => exact .inr (mem_nodes.mpr ⟨_, listed, .inl rfl⟩)
  | refl item => exact .inl rfl
  | symm left right joined ih =>
      rcases ih with same | node
      · exact .inl same.symm
      · exact .inr ((node_of_joined joined).mp node)
  | trans left middle right _ _ first second =>
      rcases first with rfl | node
      · exact second
      · exact .inr node

/-- Evidence puts two identities into one component. -/
theorem within_of_evidence (keyed : Keyed Identity.id corpus.identities) (ordered : pair.1 < pair.2)
    (evidence : Corpus.Evidence unicode corpus pair.1 pair.2) :
    Within unicode corpus (fun _ => True) pair := by
  have joined := Corpus.joined_of_evidence evidence
  have node := (node_of_apart joined).resolve_left ordered.ne
  obtain ⟨edge, listed, ends⟩ := mem_nodes.mp node
  obtain ⟨component, whole, first, second⟩ := component_of_edge keyed listed
  have own : pair.1 ∈ component.2 := by
    rcases ends with same | same
    · rw [same]
      exact first
    · rw [same]
      exact second
  exact ⟨component, whole, trivial, own, (component_whole whole own _).mpr joined⟩

/-- A component that merges holds no pair of the residue. -/
theorem mergedRoot_eq (pair : Nat × Nat) :
    ((mergedRoot unicode corpus blocked pair.1).isSome ∧
      mergedRoot unicode corpus blocked pair.1 = mergedRoot unicode corpus blocked pair.2) ↔
      Within unicode corpus (fun group => held blocked group = false) pair := by
  constructor
  · rintro ⟨some_, same⟩
    obtain ⟨root, first⟩ := Option.isSome_iff_exists.mp some_
    have second := same.symm.trans first
    obtain ⟨component, found, rfl⟩ := Option.map_eq_some_iff.mp first
    obtain ⟨other, otherFound, roots⟩ := Option.map_eq_some_iff.mp second
    have inside : pair.1 ∈ component.2 := by simpa using List.find?_some found
    have otherInside : pair.2 ∈ other.2 := by simpa using List.find?_some otherFound
    obtain ⟨listed, unheld⟩ := mem_merged.mp (List.mem_of_find?_eq_some found)
    obtain ⟨otherListed, _⟩ := mem_merged.mp (List.mem_of_find?_eq_some otherFound)
    obtain ⟨node, root⟩ := (mem_component otherListed).mp otherInside
    exact ⟨component, listed, unheld, inside,
      (mem_component listed).mpr ⟨node, root.trans roots⟩⟩
  · rintro ⟨component, listed, unheld, first, second⟩
    have merged_ := mem_merged.mpr ⟨listed, unheld⟩
    rw [mergedRoot_of_mem merged_ first, mergedRoot_of_mem merged_ second]
    exact ⟨rfl, rfl⟩

theorem asked_eq_true : asked unicode corpus blocked pair = true ↔
    ¬SameFirm corpus pair ∧
      ¬Within unicode corpus (fun group => held blocked group = false) pair := by
  rw [← mergedRoot_eq]
  unfold asked SameFirm
  rw [Bool.and_eq_true, Bool.not_eq_true', Bool.not_eq_true', Bool.eq_false_iff,
    Bool.eq_false_iff, Ne, Ne, Bool.and_eq_true, Bool.and_eq_true, beq_iff_eq, beq_iff_eq]

/-! ### The residue -/

theorem value_of_carrier {value : ContactValue} {id : Nat} (carries : id ∈ corpus.carriers value) :
    value ∈ corpus.values := by
  obtain ⟨contact, held, _⟩ := List.mem_map.mp (List.mem_toFinset.mp carries)
  obtain ⟨known, same⟩ := List.mem_filter.mp held
  exact List.mem_eraseDups.mpr (List.mem_map.mpr ⟨contact, known, eq_of_beq same⟩)

theorem ordered_of_mem_pairs {members : List Nat} (ascends : members.Pairwise (· < ·))
    (inside : pair ∈ pairs members) : pair.1 < pair.2 := by
  induction members with
  | nil => cases inside
  | cons first rest ih =>
      obtain ⟨least, others⟩ := List.pairwise_cons.mp ascends
      rcases List.mem_append.mp inside with own | later
      · obtain ⟨other, listed, rfl⟩ := List.mem_map.mp own
        exact least other listed
      · exact ih others later

/-- Carriers of one name of a value that several names share. -/
structure Shared (unicode : Unicode) (corpus : Corpus) (pair : Nat × Nat) (value : ContactValue) :
    Prop where
  several : 2 ≤ (corpus.namesAt unicode value).card
  first : pair.1 ∈ corpus.carriers value
  second : pair.2 ∈ corpus.carriers value

theorem mem_residue_iff {row : (Nat × Nat) × Hold} : row ∈ residue unicode corpus blocked ↔
    row.1.1 < row.1.2 ∧
      (∃ key, Corpus.Bearer unicode corpus row.1.1 key ∧
        Corpus.Bearer unicode corpus row.1.2 key) ∧
      (∃ value, Shared unicode corpus row.1 value) ∧
      asked unicode corpus blocked row.1 = true ∧ row.2 = holdOf unicode corpus row.1 := by
  constructor
  · intro listed
    obtain ⟨wanted, hold⟩ := mem_residue listed
    obtain ⟨value, _, inside⟩ := List.mem_flatMap.mp listed
    unfold residueOf at inside
    split_ifs at inside with few
    · cases inside
    · obtain ⟨pair, kept, rfl⟩ := List.mem_map.mp inside
      obtain ⟨key, _, paired⟩ := List.mem_flatMap.mp (List.mem_of_mem_filter kept)
      obtain ⟨first, second⟩ := mem_pairs paired
      obtain ⟨firstCarries, firstBears⟩ := Corpus.mem_bearers.mp first
      obtain ⟨secondCarries, secondBears⟩ := Corpus.mem_bearers.mp second
      exact ⟨ordered_of_mem_pairs (Corpus.bearers_ascend value key) paired,
        ⟨key, firstBears, secondBears⟩, ⟨value, by omega, firstCarries, secondCarries⟩, wanted,
        hold⟩
  · rintro ⟨ordered, ⟨key, firstBears, secondBears⟩, ⟨value, several, first, second⟩, wanted, hold⟩
    refine List.mem_flatMap.mpr ⟨value, value_of_carrier first, ?_⟩
    unfold residueOf
    rw [if_neg (by omega)]
    refine List.mem_map.mpr ⟨row.1, List.mem_filter.mpr ⟨List.mem_flatMap.mpr ⟨key, ?_, ?_⟩,
      wanted⟩, Prod.ext rfl hold.symm⟩
    · refine List.mem_eraseDups.mpr (List.mem_filterMap.mpr ⟨row.1.1, ?_, firstBears.1⟩)
      exact List.mem_filter.mpr ⟨mem_ascending.mpr first, firstBears.2⟩
    · exact pairs_of_mem (Corpus.bearers_ascend value key) ordered
        (Corpus.mem_bearers.mpr ⟨first, firstBears⟩) (Corpus.mem_bearers.mpr ⟨second, secondBears⟩)

/-! ### What is asked -/

/-- Every row asks with the lesser end first. -/
theorem row_ordered (keyed : Keyed Identity.id corpus.identities) {row : (Nat × Nat) × Hold}
    (listed : row ∈ reviewRows unicode corpus blocked) : row.1.1 < row.1.2 := by
  rcases List.mem_append.mp listed with downgrade | rest
  · obtain ⟨component, whole, _, own⟩ := mem_downgrades.mp downgrade
    obtain ⟨pair, inside, rfl⟩ := List.mem_map.mp own
    split_ifs at inside with small
    · exact ordered_of_mem_pairs (component_ascends whole) inside
    · exact (Corpus.bonded keyed (mem_edgesByRoot.mp inside).1).ordered
  · exact (mem_residue_iff.mp rest).1

theorem mem_review_iff (keyed : Keyed Identity.id corpus.identities) :
    pair ∈ review unicode corpus blocked ↔
      ∃ row ∈ reviewRows unicode corpus blocked, row.1 = pair := by
  rw [mem_review]
  constructor
  · rintro ⟨row, listed, same⟩
    rw [normalized_of_lt (row_ordered keyed listed)] at same
    exact ⟨row, listed, same⟩
  · rintro ⟨row, listed, same⟩
    refine ⟨row, listed, ?_⟩
    rw [normalized_of_lt (row_ordered keyed listed)]
    exact same

/-- What a held component asks about a pair inside it. -/
theorem downgraded_iff {component : Nat × List Nat} (listed : component ∈ components unicode corpus)
    (ordered : pair.1 < pair.2) (first : pair.1 ∈ component.2) (second : pair.2 ∈ component.2) :
    (∃ row ∈ downgrades unicode corpus blocked, row.1 = pair) ↔
      held blocked component.2 = true ∧ (component.2.length ≤ maxAutoMergeComponent ∨
        pair ∈ corpus.allEdges unicode ∧ pair ∉ blocked) := by
  constructor
  · rintro ⟨row, downgrade, rfl⟩
    obtain ⟨other, otherListed, stopped, own⟩ := mem_downgrades.mp downgrade
    have same := component_eq listed otherListed first (downgraded_inside otherListed own).1
    subst same
    refine ⟨stopped, ?_⟩
    obtain ⟨pair, inside, rfl⟩ := List.mem_map.mp own
    split_ifs at inside with small
    · exact .inl small
    · obtain ⟨edge, open_, _⟩ := mem_edgesByRoot.mp inside
      exact .inr ⟨edge, open_⟩
  · rintro ⟨stopped, small | ⟨edge, open_⟩⟩
    · refine ⟨(pair, _), mem_downgrades.mpr ⟨component, listed, stopped,
        List.mem_map.mpr ⟨pair, ?_, rfl⟩⟩, rfl⟩
      rw [if_pos small]
      exact pairs_of_mem (component_ascends listed) ordered first second
    · obtain ⟨row, own, same⟩ := downgraded_edge listed ordered edge open_ first second
      exact ⟨row, mem_downgrades.mpr ⟨component, listed, stopped, own⟩, same⟩

/-- A pair of the residue is in no row of a component that holds it. -/
theorem review_of_residue (keyed : Keyed Identity.id corpus.identities)
    (question : Question unicode corpus pair) {value : ContactValue}
    (shared : Shared unicode corpus pair value)
    (wanted : asked unicode corpus blocked pair = true) : pair ∈ review unicode corpus blocked :=
  (mem_review_iff keyed).mpr ⟨(pair, holdOf unicode corpus pair), List.mem_append_right _
    (mem_residue_iff.mpr ⟨question.ordered, question.named, ⟨value, shared⟩, wanted, rfl⟩), rfl⟩

/-- One name runs through a component. -/
theorem named_within (keyed : Keyed Identity.id corpus.identities) {holds : List Nat → Prop}
    (within : Within unicode corpus holds pair) :
    ∃ key, Corpus.Bearer unicode corpus pair.1 key ∧ Corpus.Bearer unicode corpus pair.2 key := by
  obtain ⟨component, listed, _, first, second⟩ := within
  obtain ⟨key, bear⟩ := group_named keyed listed
  exact ⟨key, bear _ first, bear _ second⟩

/-- Over the cap nothing is merged. -/
theorem overCap_held {group : List Nat} (large : OverCap group) : held blocked group = true := by
  unfold held
  rw [Bool.or_eq_true]
  exact .inr (decide_eq_true large)

theorem unexpanded_of_answers (keyed : Keyed Identity.id corpus.identities)
    (answers : Answers unicode corpus blocked) : Unexpanded unicode corpus blocked := by
  rintro pair ordered within ⟨value, several, first, second⟩
  by_contra none_
  push Not at none_
  obtain ⟨notEdge, open_, apart⟩ := none_
  have shared : Shared unicode corpus pair value := ⟨several, first, second⟩
  have wanted : asked unicode corpus blocked pair = true := by
    refine asked_eq_true.mpr ⟨apart, ?_⟩
    obtain ⟨component, listed, large, firstIn, secondIn⟩ := within
    rw [within_iff listed firstIn secondIn, overCap_held large]
    decide
  have question : Question unicode corpus pair :=
    ⟨ordered, named_within keyed within, value, first, second⟩
  exact notEdge (answers.edges pair
    (mem_reviewPairs.mpr ⟨review_of_residue keyed question shared wanted, open_⟩) within)

theorem edges_of_unexpanded (keyed : Keyed Identity.id corpus.identities)
    (unexpanded : Unexpanded unicode corpus blocked)
    (reviewed : pair ∈ (decideMerges unicode corpus blocked).reviewPairs)
    (within : Within unicode corpus OverCap pair) : pair ∈ corpus.allEdges unicode := by
  obtain ⟨inReview, open_⟩ := mem_reviewPairs.mp reviewed
  obtain ⟨row, listed, same⟩ := (mem_review_iff keyed).mp inReview
  have ordered := row_ordered keyed listed
  rw [same] at ordered
  rcases List.mem_append.mp listed with downgrade | rest
  · obtain ⟨component, whole, large, first, second⟩ := within
    have answered := (downgraded_iff whole ordered first second).mp ⟨row, downgrade, same⟩
    exact (answered.2.resolve_left large.not_ge).1
  · obtain ⟨_, _, ⟨value, shared⟩, wanted, _⟩ := mem_residue_iff.mp rest
    rw [same] at shared wanted
    have apart := (asked_eq_true.mp wanted).1
    exact ((unexpanded pair ordered within
      ⟨value, shared.several, shared.first, shared.second⟩).resolve_right fun either =>
        either.elim open_ apart)

/-- What the residue adds to the review is in no component. -/
theorem residue_outside (unexpanded : Unexpanded unicode corpus blocked) (open_ : pair ∉ blocked) (ordered : pair.1 < pair.2) {value : ContactValue}
    (shared : Shared unicode corpus pair value)
    (wanted : asked unicode corpus blocked pair = true)
    (fresh : ¬∃ row ∈ downgrades unicode corpus blocked, row.1 = pair) :
    ¬Within unicode corpus (fun _ => True) pair := by
  rintro ⟨component, listed, _, first, second⟩
  obtain ⟨apart, unmerged⟩ := asked_eq_true.mp wanted
  rw [within_iff listed first second, Bool.not_eq_false] at unmerged
  refine fresh ((downgraded_iff listed ordered first second).mpr ⟨unmerged, ?_⟩)
  by_cases small : component.2.length ≤ maxAutoMergeComponent
  · exact .inl small
  · have within : Within unicode corpus OverCap pair :=
      ⟨component, listed, Nat.lt_of_not_ge small, first, second⟩
    exact .inr ⟨(unexpanded pair ordered within
      ⟨value, shared.several, shared.first, shared.second⟩).resolve_right fun either =>
        either.elim open_ apart, open_⟩

/-- By elimination: a name at one firm would have joined the pair. -/
theorem says_holdOf (keyed : Keyed Identity.id corpus.identities) (ordered : pair.1 < pair.2)
    {key : String}
    (firstBears : Corpus.Bearer unicode corpus pair.1 key)
    (secondBears : Corpus.Bearer unicode corpus pair.2 key)
    (outside : ¬Within unicode corpus (fun _ => True) pair) :
    (holdOf unicode corpus pair).Says unicode corpus blocked pair := by
  unfold holdOf
  rw [firstBears.1, Option.getD_some]
  dsimp only
  split_ifs with spread
  · exact ⟨⟨key, firstBears.1, spread, rfl⟩, outside⟩
  · refine ⟨key, firstBears.1, ?_⟩
    by_contra clear
    have held : ∀ id, Corpus.Bearer unicode corpus id key → id ∈ corpus.byKey unicode key ∧
        key ∈ corpus.mergeableKeys unicode := by
      intro id bears
      obtain ⟨identity, listed, rfl, mergeable, named⟩ := bears.identity
      constructor
      · refine List.mem_toFinset.mpr (List.mem_map.mpr ⟨identity, List.mem_filter.mpr
          ⟨listed, ?_⟩, rfl⟩)
        rw [Bool.and_eq_true, beq_iff_eq]
        exact ⟨mergeable, bears.1⟩
      · exact List.mem_eraseDups.mpr (List.mem_filterMap.mpr
          ⟨identity, List.mem_filter.mpr ⟨listed, mergeable⟩, bears.1⟩)
    exact outside (within_of_evidence keyed ordered
      (.rarity key (held _ firstBears).2 (by omega) (Bool.eq_false_iff.mpr clear)
        (held _ firstBears).1 (held _ secondBears).1))

/-- The component writes its reason first. -/
theorem says_downgraded {row : (Nat × Nat) × Hold}
    (listed : row ∈ downgrades unicode corpus blocked) :
    row.2.Says unicode corpus blocked row.1 := by
  obtain ⟨component, whole, stopped, own⟩ := mem_downgrades.mp listed
  have inside := downgraded_inside whole own
  obtain ⟨pair, _, rfl⟩ := List.mem_map.mp own
  dsimp only
  cases standing : touched blocked component.2 with
  | true => exact ⟨component, whole, standing, inside⟩
  | false =>
      unfold held at stopped
      rw [standing, Bool.false_or, decide_eq_true_iff] at stopped
      exact ⟨component, whole, stopped, inside⟩

theorem pairHolds_eq (pair : Nat × Nat) : (decideMerges unicode corpus blocked).pairHolds pair =
    ((downgrades unicode corpus blocked).lookup pair).or
      ((residue unicode corpus blocked).lookup pair) := by
  simp only [decideMerges, reviewRows, List.lookup_append]

theorem reasons_of_unexpanded (keyed : Keyed Identity.id corpus.identities)
    (unexpanded : Unexpanded unicode corpus blocked)
    (reviewed : pair ∈ (decideMerges unicode corpus blocked).reviewPairs) :
    ∃ hold, (decideMerges unicode corpus blocked).pairHolds pair = some hold ∧
      hold.Says unicode corpus blocked pair := by
  obtain ⟨inReview, open_⟩ := mem_reviewPairs.mp reviewed
  obtain ⟨row, listed, same⟩ := (mem_review_iff keyed).mp inReview
  have ordered := row_ordered keyed listed
  rw [same] at ordered
  rw [pairHolds_eq]
  cases first : (downgrades unicode corpus blocked).lookup pair with
  | some hold =>
      have told := says_downgraded (mem_of_lookup first)
      exact ⟨hold, rfl, told⟩
  | none =>
      have fresh : ¬∃ row ∈ downgrades unicode corpus blocked, row.1 = pair := by
        rintro ⟨other, held, own⟩
        exact lookup_eq_none_iff_key.mp first (own ▸ List.mem_map_of_mem held)
      have rest := (List.mem_append.mp listed).resolve_left fun downgrade =>
        fresh ⟨row, downgrade, same⟩
      cases found : (residue unicode corpus blocked).lookup pair with
      | none =>
          exact absurd (same ▸ List.mem_map_of_mem rest) (lookup_eq_none_iff_key.mp found)
      | some hold =>
          obtain ⟨_, ⟨key, firstBears, secondBears⟩, ⟨value, shared⟩, wanted, reason⟩ :=
            mem_residue_iff.mp (mem_of_lookup found)
          have outside := residue_outside unexpanded open_ ordered shared wanted fresh
          have told := @says_holdOf _ _ blocked _ keyed ordered key firstBears secondBears outside
          refine ⟨hold, rfl, ?_⟩
          dsimp only at reason
          rw [reason]
          exact told

/-! ### Answered once -/

theorem merged_iff : Place.merged.Holds unicode corpus blocked pair ↔
    Within unicode corpus (fun group => held blocked group = false) pair := by
  constructor
  · rintro ⟨group, listed, first, second⟩
    obtain ⟨component, merged_, rfl⟩ := mem_autoMergeGroups.mp listed
    obtain ⟨whole, unheld⟩ := mem_merged.mp merged_
    exact ⟨component, whole, unheld, first, second⟩
  · rintro ⟨component, whole, unheld, first, second⟩
    exact ⟨component.2, mem_autoMergeGroups.mpr
      ⟨component, mem_merged.mpr ⟨whole, unheld⟩, rfl⟩, first, second⟩

/-- Asked and suppressed part the review between them, outside the components over the cap. -/
theorem once_of_review (small : ¬Within unicode corpus OverCap pair)
    (unmerged : ¬Within unicode corpus (fun group => held blocked group = false) pair)
    (apart : SameFirm corpus pair → Within unicode corpus (fun _ => True) pair)
    (reviewed : pair ∈ review unicode corpus blocked) :
    ∃! place : Place, place.Holds unicode corpus blocked pair := by
  by_cases standing : pair ∈ blocked
  · refine ⟨.suppressed, ⟨mem_suppressed.mpr ⟨.inr reviewed, standing⟩, small⟩,
      fun place holds => ?_⟩
    cases place with
    | merged => exact absurd (merged_iff.mp holds) unmerged
    | asked => exact absurd standing (mem_reviewPairs.mp holds.1).2
    | suppressed => rfl
    | sameFirm => exact absurd (apart holds.1) holds.2
    | overCap => exact absurd holds small
  · refine ⟨.asked, ⟨mem_reviewPairs.mpr ⟨reviewed, standing⟩, small⟩, fun place holds => ?_⟩
    cases place with
    | merged => exact absurd (merged_iff.mp holds) unmerged
    | asked => rfl
    | suppressed => exact absurd (mem_suppressed.mp holds.1).2 standing
    | sameFirm => exact absurd (apart holds.1) holds.2
    | overCap => exact absurd holds small

/-- A pair of one component: the component answers. -/
theorem once_within (question : Question unicode corpus pair) {component : Nat × List Nat}
    (listed : component ∈ components unicode corpus) (first : pair.1 ∈ component.2)
    (second : pair.2 ∈ component.2) :
    ∃! place : Place, place.Holds unicode corpus blocked pair := by
  have together : Within unicode corpus (fun _ => True) pair :=
    ⟨component, listed, trivial, first, second⟩
  cases stopped : held blocked component.2 with
  | false =>
      have merged_ := mem_merged.mpr ⟨listed, stopped⟩
      have out := review_outside merged_ first second
      obtain ⟨unblocked_, small⟩ := held_eq_false.mp stopped
      refine ⟨.merged, merged_iff.mpr ⟨component, listed, stopped, first, second⟩,
        fun place holds => ?_⟩
      cases place with
      | merged => rfl
      | asked => exact absurd (mem_reviewPairs.mp holds.1).1 out
      | suppressed =>
          exact absurd ⟨first, second⟩ (unblocked_ pair (mem_suppressed.mp holds.1).2)
      | sameFirm => exact absurd together holds.2
      | overCap => exact absurd ((within_iff listed first second).mp holds) small.not_gt
  | true =>
      have unmerged : ¬Within unicode corpus (fun group => held blocked group = false) pair := by
        rw [within_iff listed first second, stopped]
        decide
      by_cases large : OverCap component.2
      · have within := (within_iff listed first second).mpr large
        refine ⟨.overCap, within, fun place holds => ?_⟩
        cases place with
        | merged => exact absurd (merged_iff.mp holds) unmerged
        | asked => exact absurd within holds.2
        | suppressed => exact absurd within holds.2
        | sameFirm => exact absurd together holds.2
        | overCap => rfl
      · refine once_of_review ((within_iff listed first second).not.mpr large) unmerged
          (fun _ => together) (mem_review.mpr ?_)
        obtain ⟨row, downgrade, same⟩ := (downgraded_iff listed question.ordered first second).mpr
          ⟨stopped, .inl (Nat.le_of_not_lt large)⟩
        refine ⟨row, List.mem_append_left _ downgrade, ?_⟩
        rw [same, normalized_of_lt question.ordered]

/-- Without a component every shared value is one of several names. -/
theorem shared_outside (keyed : Keyed Identity.id corpus.identities)
    (question : Question unicode corpus pair)
    (outside : ¬Within unicode corpus (fun _ => True) pair) :
    ∃ value, Shared unicode corpus pair value := by
  obtain ⟨key, firstBears, secondBears⟩ := question.named
  obtain ⟨value, first, second⟩ := question.shared
  refine ⟨value, ?_, first, second⟩
  have named : key ∈ corpus.namesAt unicode value := by
    obtain ⟨contact, held, same⟩ := List.mem_map.mp (List.mem_toFinset.mp first)
    refine List.mem_toFinset.mpr (List.mem_filterMap.mpr ⟨contact, held, ?_⟩)
    rw [same]
    exact firstBears.1
  by_contra few
  have single : (corpus.namesAt unicode value).card = 1 := by
    have some_ := Finset.card_pos.mpr ⟨key, named⟩
    omega
  obtain ⟨only, names⟩ := Finset.card_eq_one.mp single
  rw [names, Finset.mem_singleton] at named
  subst named
  have alone : ascending (corpus.namesAt unicode value) = [key] := by
    rw [names]
    exact List.perm_singleton.mp ((sortedBy_perm _ _).trans (by simp))
  exact outside (within_of_evidence keyed question.ordered
    (.contact value key (value_of_carrier first) alone
      (Corpus.mem_bearers.mpr ⟨first, firstBears⟩) (Corpus.mem_bearers.mpr ⟨second, secondBears⟩)))

theorem answered_once (keyed : Keyed Identity.id corpus.identities)
    (question : Question unicode corpus pair) :
    ∃! place : Place, place.Holds unicode corpus blocked pair := by
  by_cases together : Within unicode corpus (fun _ => True) pair
  · obtain ⟨component, listed, _, first, second⟩ := together
    exact once_within question listed first second
  · have small : ¬Within unicode corpus OverCap pair := fun within =>
      together (within.mono fun _ _ => trivial)
    have unmerged : ¬Within unicode corpus (fun group => held blocked group = false) pair :=
      fun within => together (within.mono fun _ _ => trivial)
    by_cases firm : SameFirm corpus pair
    · -- Neither a component nor the residue writes the pair.
      have out : pair ∉ review unicode corpus blocked := by
        intro reviewed
        obtain ⟨row, listed, same⟩ := (mem_review_iff keyed).mp reviewed
        rcases List.mem_append.mp listed with downgrade | rest
        · obtain ⟨component, whole, _, own⟩ := mem_downgrades.mp downgrade
          exact together ⟨component, whole, trivial, same ▸ downgraded_inside whole own⟩
        · exact (asked_eq_true.mp (same ▸ (mem_residue rest).1)).1 firm
      refine ⟨.sameFirm, ⟨firm, together⟩, fun place holds => ?_⟩
      cases place with
      | merged => exact absurd (merged_iff.mp holds) unmerged
      | asked => exact absurd (mem_reviewPairs.mp holds.1).1 out
      | suppressed =>
          refine absurd (mem_suppressed.mp holds.1).1 (not_or.mpr ⟨fun edge => ?_, out⟩)
          obtain ⟨component, whole, first, second⟩ := component_of_edge keyed edge
          exact together ⟨component, whole, trivial, first, second⟩
      | sameFirm => rfl
      | overCap => exact absurd holds small
    · obtain ⟨value, shared⟩ := shared_outside keyed question together
      exact once_of_review small unmerged (fun same => absurd same firm)
        (review_of_residue keyed question shared (asked_eq_true.mpr ⟨firm, unmerged⟩))

/-- The questions are answered as they should be where no component over the cap is expanded. -/
theorem answers_iff_unexpanded (unicode : Unicode) (corpus : Corpus) (blocked : Finset (Nat × Nat))
    (keyed : Keyed Identity.id corpus.identities) :
    Answers unicode corpus blocked ↔ Unexpanded unicode corpus blocked := by
  constructor
  · exact unexpanded_of_answers keyed
  · intro unexpanded
    exact ⟨fun pair question => answered_once keyed question,
      fun pair reviewed within => edges_of_unexpanded keyed unexpanded reviewed within,
      fun pair reviewed => reasons_of_unexpanded keyed unexpanded reviewed⟩

/-! ### A switchboard -/

/-- A label of one name on more records than the cap, two of them at the phone of another name. -/
def switchboard : Corpus where
  identities :=
    (List.range' 1 21).map (fun id =>
      { id := id, name := some "Jan Novak", firmId := none, mergeable := true
        primaryFirmId := none }) ++
    [{ id := 22, name := some "Petr Svoboda", firmId := none, mergeable := true
       primaryFirmId := none }]
  contacts :=
    [{ identityId := 2, kind := .phone, value := "420777123456" },
     { identityId := 3, kind := .phone, value := "420777123456" },
     { identityId := 22, kind := .phone, value := "420777123456" }]

theorem switchboard_overCap : Within asciiLetters switchboard OverCap (2, 3) := by
  have keyed : Keyed Identity.id switchboard.identities := by
    unfold Keyed
    decide +kernel
  have listed : "jan novak" ∈ switchboard.mergeableKeys asciiLetters := by decide +kernel
  have rare : (switchboard.firmsOfName asciiLetters "jan novak").card ≤ 1 := by decide +kernel
  have clear : switchboard.contradicted asciiLetters
      (ascending (switchboard.byKey asciiLetters "jan novak")) = false := by decide +kernel
  have held : ∀ id ∈ List.range' 1 21, id ∈ switchboard.byKey asciiLetters "jan novak" := by
    decide +kernel
  have evidence : ∀ id ∈ List.range' 1 21, Corpus.Evidence asciiLetters switchboard 2 id :=
    fun id inside => .rarity "jan novak" listed rare clear (held 2 (by decide)) (held id inside)
  obtain ⟨component, whole, _, first, second⟩ :=
    within_of_evidence keyed (by decide : (2, 3).1 < (2, 3).2) (evidence 3 (by decide))
  refine ⟨component, whole, ?_, first, second⟩
  have all : List.range' 1 21 ⊆ component.2 := fun id inside =>
    (component_whole whole first id).mpr (Corpus.joined_of_evidence (evidence id inside))
  have distinct : (List.range' 1 21).Nodup := by decide
  have counted := (distinct.subperm all).length_le
  unfold OverCap maxAutoMergeComponent
  rw [List.length_range'] at counted
  omega

theorem switchboard_expanded : ¬Answers asciiLetters switchboard ∅ := by
  intro answers
  have keyed : Keyed Identity.id switchboard.identities := by
    unfold Keyed
    decide +kernel
  have apart := unexpanded_of_answers keyed answers (2, 3) (by decide) switchboard_overCap
    ⟨(.phone, "420777123456"), by decide +kernel, by decide +kernel, by decide +kernel⟩
  rcases apart with edge | standing | ⟨known, _⟩
  · exact absurd edge (by decide +kernel)
  · exact absurd standing (Finset.notMem_empty _)
  · exact absurd known (by decide +kernel)

theorem three_novaks_answered :
    Answers asciiLetters threeNovaks {(1, 3)} ↔ Unexpanded asciiLetters threeNovaks {(1, 3)} :=
  answers_iff_unexpanded asciiLetters threeNovaks {(1, 3)} (by unfold Keyed; decide)

end Sreality.Toolkit.BrokerResolver
