import Sreality.Autodedup.ClusterProperties

/-! A component of the operator's `same` rulings is kept whole in one cluster, or
dissolved under one record and clustered as if it had never been ruled. -/

set_option autoImplicit false

namespace Sreality.Autodedup

open Sreality.Foundation

/-- An advert no pair names is joined to itself alone. -/
theorem joined_ends {pairs : List Pair} {left right : Nat} (joined : Forest.Joined pairs left right) :
    left = right ∨ (left ∈ endsOf pairs ∧ right ∈ endsOf pairs) := by
  induction joined with
  | rel left right listed =>
      exact .inr ⟨mem_endsOf.mpr ⟨_, listed, .inl rfl⟩, mem_endsOf.mpr ⟨_, listed, .inr rfl⟩⟩
  | refl => exact .inl rfl
  | symm _ _ _ ih => exact ih.imp Eq.symm And.symm
  | trans _ _ _ _ _ first second =>
      rcases first with rfl | first
      · exact second
      · rcases second with rfl | second
        · exact .inr first
        · exact .inr ⟨first.1, second.2⟩

/-- A set of several holds another than any one. -/
theorem exists_other_mem {members : List Nat} (distinct : members.Nodup)
    (several : 1 < members.length) (member : Nat) : ∃ other ∈ members, member ≠ other := by
  match members, several, distinct with
  | first :: second :: rest, _, distinct =>
      by_cases same : member = first
      · refine ⟨second, by simp, ?_⟩
        rintro rfl
        exact (List.nodup_cons.mp distinct).1 (by simp [same])
      · exact ⟨first, by simp, same⟩

/-- A connected component of the rulings, among the adverts the pass can read. -/
structure RulingComponent (mustLink : List Pair) (fps : Fingerprints) (members : List Nat) :
    Prop where
  distinct : members.Nodup
  several : 1 < members.length
  readable : ∀ member ∈ members, (fps.get member).isSome = true
  closed : ∀ pair ∈ mustLink, (fps.get pair.1).isSome = true → (fps.get pair.2).isSome = true →
    (pair.1 ∈ members ↔ pair.2 ∈ members)
  connected : ∀ left ∈ members, ∀ right ∈ members,
    Forest.Joined (mustLink.filter fun pair => members.contains pair.1 && members.contains pair.2)
      left right

/-- The closure a component is read as: its members ascending, under the smallest. -/
def closureOfMembers (members : List Nat) : Nat × List Nat :=
  ((sortedIds members).headD 0, sortedIds members)

namespace RulingComponent

variable {mustLink : List Pair} {fps : Fingerprints} {members : List Nat}

theorem linked (component : RulingComponent mustLink fps members) {left right : Nat}
    (leftHeld : left ∈ members) :
    Forest.Joined (linkingPairs mustLink fun listing => (fps.get listing).isSome) left right ↔
      right ∈ members := by
  constructor
  · intro joined
    have stays : ∀ {one other : Nat},
        Forest.Joined (linkingPairs mustLink fun listing => (fps.get listing).isSome) one other →
          (one ∈ members ↔ other ∈ members) := by
      intro one other chain
      induction chain with
      | rel one other listed =>
          obtain ⟨ruled, _, oneKnown, otherKnown⟩ := mem_linkingPairs.mp listed
          exact component.closed _ ruled oneKnown otherKnown
      | refl => exact Iff.rfl
      | symm _ _ _ ih => exact ih.symm
      | trans _ _ _ _ _ first second => exact first.trans second
    exact (stays joined).mp leftHeld
  · intro rightHeld
    have chain := component.connected left leftHeld right rightHeld
    clear leftHeld rightHeld
    induction chain with
    | rel one other listed =>
        rw [List.mem_filter, Bool.and_eq_true, List.contains_iff_mem, List.contains_iff_mem]
          at listed
        by_cases same : one = other
        · subst same
          exact .refl _
        · exact .rel _ _ (mem_linkingPairs.mpr ⟨listed.1, same,
            component.readable _ listed.2.1, component.readable _ listed.2.2⟩)
    | refl => exact .refl _
    | symm _ _ _ ih => exact .symm _ _ ih
    | trans _ _ _ _ _ first second => exact .trans _ _ _ first second

/-- The pass reads a component as one closure. -/
theorem closure_listed (component : RulingComponent mustLink fps members) :
    closureOfMembers members ∈
      mustLinkClosures mustLink fun listing => (fps.get listing).isSome := by
  have family := mustLinkClosures_family mustLink fun listing => (fps.get listing).isSome
  have several := component.several
  obtain ⟨seed, seedHeld⟩ := List.exists_mem_of_length_pos (by omega : 0 < members.length)
  have inEnds : ∀ member ∈ members,
      member ∈ endsOf (linkingPairs mustLink fun listing => (fps.get listing).isSome) := by
    intro member held
    obtain ⟨other, otherHeld, differ⟩ :=
      exists_other_mem component.distinct component.several member
    rcases joined_ends ((component.linked held).mpr otherHeld) with same | ends
    · exact absurd same differ
    · exact ends.1
  suffices listed : ∃ root, (root, sortedIds members) ∈
      mustLinkClosures mustLink fun listing => (fps.get listing).isSome by
    obtain ⟨root, listed⟩ := listed
    have least : (sortedIds members).headD 0 = root := family.head_eq listed
    unfold closureOfMembers
    rwa [least]
  refine ⟨(Forest.singletons.linkAll
    (linkingPairs mustLink fun listing => (fps.get listing).isSome)).find seed, ?_⟩
  unfold mustLinkClosures
  dsimp only
  rw [List.mem_filter, decide_eq_true_eq, length_sortedBy]
  refine ⟨mem_sortedGroups.mpr ⟨⟨seed, inEnds seed seedHeld, rfl⟩, ?_⟩, several⟩
  refine sortedIds_eq_of_mem_iff component.distinct ((nodup_endsOf _).filter _) ?_
  intro item
  rw [List.mem_filter, decide_eq_true_eq, eq_comm, Forest.find_linkAll_eq_iff,
    component.linked seedHeld]
  exact ⟨fun held => ⟨inEnds item held, held⟩, And.right⟩

end RulingComponent

section Closures

variable {decisions : List Decision} {fps : Fingerprints} {settings : Settings}
  {mustNotLink mustLink vetoes : List Pair} {relation : Option ClusterRelation}

/-- A kept closure lies whole in one cluster of the result. -/
theorem closure_in_cluster {closure : Nat × List Nat}
    (kept : closure ∈ (validClosures mustLink fps settings mustNotLink).1) :
    ∃ cluster ∈
        (clusterPairs decisions fps settings mustNotLink relation mustLink vetoes).clusters,
      closure.2 ⊆ cluster.2 ∧
      ∀ other ∈
          (clusterPairs decisions fps settings mustNotLink relation mustLink vetoes).clusters,
        ∀ member ∈ closure.2, member ∈ other.2 → other = cluster := by
  have family := validClosures_family mustLink fps settings mustNotLink
  have several := family.several closure kept
  have distinct := family.distinct closure kept
  cases mode : settings.repartition with
  | false =>
      obtain ⟨final, sound, run, clusters, _⟩ :=
        @clusterPairs_constrained decisions fps settings mustNotLink mustLink vetoes relation mode
      have seeded := (pass_initial decisions fps settings mustNotLink mustLink vetoes
        relation).1.sound
      have rooted : ∀ member ∈ closure.2, final.find member = final.find closure.1 := by
        intro member held
        refine run.same ?_
        rw [seedUnionFind_find family, seedUnionFind_find family,
          family.nodeOf_of_mem kept held,
          family.nodeOf_of_mem kept (family.keyed closure kept)]
      have inside : closure.2 ⊆ final.members (final.find closure.1) := by
        intro member held
        refine sound.wellFormed.mem_members.mpr ⟨?_, rooted member held⟩
        exact (UnionRun.mem_items seeded run).mpr
          ((seedUnionFind_items family _).mpr (.inr ⟨closure, kept, held⟩))
      have larger := (List.subperm_of_subset distinct inside).length_le
      rw [clusters]
      refine ⟨(final.find closure.1, final.members (final.find closure.1)), ?_, inside, ?_⟩
      · exact sound.wellFormed.mem_clusters.mpr ⟨rfl, lt_of_lt_of_le several larger⟩
      · intro other listed member held inOther
        obtain ⟨equal, _⟩ := sound.wellFormed.mem_clusters.mp listed
        rw [equal, sound.wellFormed.mem_members] at inOther
        have root : other.1 = final.find closure.1 := inOther.2.symm.trans (rooted member held)
        exact Prod.ext root (by rw [equal, root])
  | true =>
      obtain ⟨group, listed, inside⟩ := @closure_in_group
        (groundsOf fps settings mustNotLink relation mustLink vetoes) _ (mergeEdges decisions)
        family closure kept
      have larger := (List.subperm_of_subset distinct inside).length_le
      refine ⟨group, (mem_repartitioned mode).mpr ⟨listed, lt_of_lt_of_le several larger⟩,
        inside, ?_⟩
      intro other otherListed member held inOther
      exact group_eq_of_mem family ((mem_repartitioned mode).mp otherListed).1 listed inOther
        (inside held)

/-- The rulings outside a set of adverts. -/
def rulingsOutside (mustLink : List Pair) (members : List Nat) : List Pair :=
  mustLink.filter fun pair => !(members.contains pair.1 && members.contains pair.2)

/-- Without its rulings a component is no closure, and the others stay as they are. -/
theorem mustLinkClosures_outside {members : List Nat}
    (component : RulingComponent mustLink fps members) :
    mustLinkClosures (rulingsOutside mustLink members) (fun listing => (fps.get listing).isSome) =
      (mustLinkClosures mustLink fun listing => (fps.get listing).isSome).filter
        fun closure => !members.contains closure.1 := by
  have crosses : ∀ pair ∈ linkingPairs mustLink fun listing => (fps.get listing).isSome,
      members.contains pair.1 = members.contains pair.2 := by
    intro pair listed
    obtain ⟨ruled, _, oneKnown, otherKnown⟩ := mem_linkingPairs.mp listed
    rw [Bool.eq_iff_iff, List.contains_iff_mem, List.contains_iff_mem]
    exact component.closed pair ruled oneKnown otherKnown
  refine @mustLinkClosures_restrict _ _ _ _ (fun item => !members.contains item) ?_ ?_
  · intro pair listed
    rw [crosses pair listed]
  · have outside : ∀ pair ∈ linkingPairs mustLink fun listing => (fps.get listing).isSome,
        (!(members.contains pair.1 && members.contains pair.2)) = !members.contains pair.1 := by
      intro pair listed
      rw [← crosses pair listed, Bool.and_self]
    rw [← List.filter_congr outside]
    unfold linkingPairs rulingsOutside
    rw [← filter_sortedBy, List.filter_comm]

/-- A dissolved component leaves the closures its rulings were never given to. -/
theorem validClosures_outside {members : List Nat} {invariant : Invariant}
    (component : RulingComponent mustLink fps members)
    (refused : closureRefusal fps settings mustNotLink (closureOfMembers members) =
      some invariant) :
    (validClosures (rulingsOutside mustLink members) fps settings mustNotLink).1 =
      (validClosures mustLink fps settings mustNotLink).1 := by
  have family := mustLinkClosures_family mustLink fun listing => (fps.get listing).isSome
  unfold validClosures
  dsimp only
  rw [mustLinkClosures_outside component, List.filter_filter]
  refine List.filter_congr fun closure listed => ?_
  rw [Bool.and_eq_left_iff_imp]
  intro accepted
  by_contra inside
  have held : closure.1 ∈ (closureOfMembers members).2 := by
    simpa [closureOfMembers] using inside
  have same := family.disjoint closure listed _ component.closure_listed closure.1
    (family.keyed closure listed) held
  rw [same, refused] at accepted
  exact absurd accepted (by simp)

theorem clusterPairs_dissolved :
    (clusterPairs decisions fps settings mustNotLink relation mustLink vetoes).dissolved =
      (validClosures mustLink fps settings mustNotLink).2 := by
  unfold clusterPairs
  dsimp only
  split_ifs <;> rfl

/-- The rulings are read through the closures they leave. -/
theorem clusterPairs_congr_closures {others : List Pair}
    (same : (validClosures others fps settings mustNotLink).1 =
      (validClosures mustLink fps settings mustNotLink).1) :
    clusterPairs decisions fps settings mustNotLink relation mustLink vetoes =
      { clusterPairs decisions fps settings mustNotLink relation others vetoes with
        dissolved := (validClosures mustLink fps settings mustNotLink).2 } := by
  unfold clusterPairs
  dsimp only
  rw [same]
  split_ifs <;> rfl

theorem dissolved_members :
    (validClosures mustLink fps settings mustNotLink).2.map Dissolved.members =
      ((mustLinkClosures mustLink fun listing => (fps.get listing).isSome).filter fun closure =>
        (closureRefusal fps settings mustNotLink closure).isSome).map Prod.snd := by
  unfold validClosures
  dsimp only
  induction mustLinkClosures mustLink fun listing => (fps.get listing).isSome with
  | nil => rfl
  | cons closure rest ih =>
      cases refused : closureRefusal fps settings mustNotLink closure with
      | none => simp [refused, ih]
      | some invariant => simp [refused, ih, dissolvedRow]

/-- Each dissolved closure leaves one record. -/
theorem dissolved_once {closure : Nat × List Nat}
    (listed : closure ∈ mustLinkClosures mustLink fun listing => (fps.get listing).isSome)
    (refused : closureRefusal fps settings mustNotLink closure ≠ none) :
    ((validClosures mustLink fps settings mustNotLink).2.map Dissolved.members).count closure.2 =
      1 := by
  have family := mustLinkClosures_family mustLink fun listing => (fps.get listing).isSome
  rw [dissolved_members]
  refine List.count_eq_one_of_mem ?_ (List.mem_map_of_mem (List.mem_filter.mpr
    ⟨listed, Option.isSome_iff_ne_none.mpr refused⟩))
  refine (family.unique.filter _).map_on fun one oneListed other otherListed same => ?_
  have oneKnown := List.mem_of_mem_filter oneListed
  have otherKnown := List.mem_of_mem_filter otherListed
  exact family.disjoint one oneKnown other otherKnown one.1 (family.keyed one oneKnown)
    (same ▸ family.keyed one oneKnown)

/-- A component of the rulings is kept whole in one cluster where the hard limbs
accept it; where they refuse it, one record names its members, and the result is
that of the other rulings. -/
theorem component_kept_or_dissolved {members : List Nat}
    (component : RulingComponent mustLink fps members) :
    (closureRefusal fps settings mustNotLink (closureOfMembers members) = none ∧
      ∃ cluster ∈
          (clusterPairs decisions fps settings mustNotLink relation mustLink vetoes).clusters,
        members ⊆ cluster.2 ∧
        ∀ other ∈
            (clusterPairs decisions fps settings mustNotLink relation mustLink vetoes).clusters,
          ∀ member ∈ members, member ∈ other.2 → other = cluster) ∨
    (closureRefusal fps settings mustNotLink (closureOfMembers members) ≠ none ∧
      ((clusterPairs decisions fps settings mustNotLink relation mustLink vetoes).dissolved.map
          Dissolved.members).count (sortedIds members) = 1 ∧
      clusterPairs decisions fps settings mustNotLink relation mustLink vetoes =
        { clusterPairs decisions fps settings mustNotLink relation
            (rulingsOutside mustLink members) vetoes with
          dissolved := (validClosures mustLink fps settings mustNotLink).2 }) := by
  have family := mustLinkClosures_family mustLink fun listing => (fps.get listing).isSome
  have listed := component.closure_listed
  cases refused : closureRefusal fps settings mustNotLink (closureOfMembers members) with
  | none =>
      have kept : closureOfMembers members ∈ (validClosures mustLink fps settings mustNotLink).1 :=
        List.mem_filter.mpr ⟨listed, by rw [refused]; rfl⟩
      obtain ⟨cluster, known, inside, only⟩ := closure_in_cluster kept
      have read : ∀ member ∈ members, member ∈ (closureOfMembers members).2 :=
        fun member held => mem_sortedBy.mpr held
      exact .inl ⟨rfl, cluster, known, fun member held => inside (read member held),
        fun other otherKnown member held => only other otherKnown member (read member held)⟩
  | some invariant =>
      refine .inr ⟨by simp, ?_, ?_⟩
      · rw [clusterPairs_dissolved]
        exact dissolved_once listed (by simp [refused])
      · exact clusterPairs_congr_closures (validClosures_outside component refused)

/-- A chain of rulings over three houses, of which the last is `categoryType`, and a fourth. -/
def ruledHouses (categoryType : String) : Fingerprints :=
  .ofList [house 1 "prodej" none, house 2 "prodej" none, house 3 categoryType none,
    house 4 "prodej" (some "2+1")]

def houseRulings : List Pair := [(1, 2), (3, 2)]

theorem chain_ruled (categoryType : String) :
    RulingComponent houseRulings (ruledHouses categoryType) [3, 1, 2] where
  distinct := by decide
  several := by decide
  readable := by
    intro listing held
    simp only [List.mem_cons, List.not_mem_nil, or_false] at held
    rcases held with rfl | rfl | rfl <;> rfl
  closed := by
    intro pair listed _ _
    simp only [houseRulings, List.mem_cons, List.not_mem_nil, or_false] at listed
    rcases listed with rfl | rfl <;> simp
  connected := by
    have joined : ∀ left ∈ [3, 1, 2], ∀ right ∈ [3, 1, 2],
        (Forest.singletons.linkAll houseRulings).find left =
          (Forest.singletons.linkAll houseRulings).find right := by decide +kernel
    exact fun left leftHeld right rightHeld =>
      Forest.find_linkAll_eq_iff.mp (joined left leftHeld right rightHeld)

/-- An edge from the chain to the fourth house. -/
def houseEdge : List Decision := [{ lo := 3, hi := 4, score := 9 / 10 }]

/-- Of three houses for sale the chain is in one cluster, which the edge widens; with the last
to let it is dissolved. -/
theorem component_kept_or_dissolved_at_chain :
    (∃ cluster ∈ (clusterPairs houseEdge (ruledHouses "prodej") {} [] none houseRulings
        []).clusters,
      [3, 1, 2] ⊆ cluster.2 ∧
      ∀ other ∈ (clusterPairs houseEdge (ruledHouses "prodej") {} [] none houseRulings
          []).clusters,
        ∀ member ∈ [3, 1, 2], member ∈ other.2 → other = cluster) ∧
    ((clusterPairs houseEdge (ruledHouses "pronajem") {} [] none houseRulings []).dissolved.map
      Dissolved.members).count (sortedIds [3, 1, 2]) = 1 := by
  constructor
  · have kept : closureRefusal (ruledHouses "prodej") {} [] (closureOfMembers [3, 1, 2]) = none := by
      decide +kernel
    rcases component_kept_or_dissolved (chain_ruled "prodej") with whole | broken
    · exact whole.2
    · exact absurd kept broken.1
  · have refused : closureRefusal (ruledHouses "pronajem") {} [] (closureOfMembers [3, 1, 2]) =
        some .categoryType := by decide +kernel
    rcases component_kept_or_dissolved (chain_ruled "pronajem") with whole | broken
    · exact absurd (refused.symm.trans whole.1) (Option.some_ne_none _)
    · exact broken.2.1

end Closures

end Sreality.Autodedup
