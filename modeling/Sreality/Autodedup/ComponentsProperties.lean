import Mathlib.Data.List.Nodup
import Mathlib.Data.Finset.Card
import Sreality.Autodedup.Components

/-! A returned component is whole, and what is not returned is named: a group that did not pass
the cap was walked to its end. -/

set_option autoImplicit false

namespace Sreality.Autodedup

open Sreality.Foundation

variable {graph : MergeGraph} {mustLink : List (Nat × Nat)} {seeds : List Nat} {maxSize : Nat}

/-! ### Edges -/

theorem mem_mustLinked {item other : Nat} :
    other ∈ mustLinked mustLink item ↔ (item, other) ∈ mustLink ∨ (other, item) ∈ mustLink := by
  unfold mustLinked
  simp only [List.mem_flatMap, List.mem_append, List.mem_ite_nil_right, List.mem_singleton]
  constructor
  · rintro ⟨⟨low, high⟩, listed, ⟨rfl, rfl⟩ | ⟨rfl, rfl⟩⟩
    · exact .inl listed
    · exact .inr listed
  · rintro (listed | listed)
    · exact ⟨_, listed, .inl ⟨rfl, rfl⟩⟩
    · exact ⟨_, listed, .inr ⟨rfl, rfl⟩⟩

theorem near_symm {item other : Nat} (linked : other ∈ near graph mustLink item) :
    item ∈ near graph mustLink other := by
  rcases List.mem_append.mp linked with edge | link
  · exact List.mem_append_left _ (graph.symmetric item other edge)
  · exact List.mem_append_right _ (mem_mustLinked.mpr (mem_mustLinked.mp link).symm)

theorem connected_of_near {item other : Nat} (linked : other ∈ near graph mustLink item) :
    Connected graph mustLink item other := by
  rcases List.mem_append.mp linked with edge | link
  · exact .rel _ _ (.inl edge)
  · rcases mem_mustLinked.mp link with one | other_
    · exact .rel _ _ (.inr one)
    · exact (Relation.EqvGen.rel _ _ (.inr other_)).symm

/-- What contains an item and the near of each of its items contains the item's component. -/
theorem connected_inside {inside : Nat → Prop}
    (closed : ∀ item, inside item → ∀ other ∈ near graph mustLink item, inside other)
    {item other : Nat} (chain : Connected graph mustLink item other) :
    inside item ↔ inside other := by
  induction chain with
  | rel item other edge =>
      have linked : other ∈ near graph mustLink item := by
        rcases edge with edge | link
        · exact List.mem_append_left _ edge
        · exact List.mem_append_right _ (mem_mustLinked.mpr (.inl link))
      exact ⟨fun held => closed item held other linked,
        fun held => closed other held item (near_symm linked)⟩
  | refl item => exact Iff.rfl
  | symm item other _ ih => exact ih.symm
  | trans one middle other _ _ first second => exact first.trans second

theorem near_walkable {item other : Nat} (linked : other ∈ near graph mustLink item) :
    other ∈ walkable graph mustLink seeds := by
  unfold walkable
  rcases List.mem_append.mp linked with edge | link
  · exact List.mem_append_left _ (List.mem_append_right _ (graph.inside item other edge))
  · refine List.mem_append_right _ (List.mem_flatMap.mpr ?_)
    rcases mem_mustLinked.mp link with one | other_
    · exact ⟨_, one, List.mem_cons_of_mem _ List.mem_cons_self⟩
    · exact ⟨_, other_, List.mem_cons_self⟩

/-! ### The union-find of the walk -/

/-- Every class is inside one component and holds a seed. -/
structure Tied (graph : MergeGraph) (mustLink : List (Nat × Nat)) (seeds : List Nat)
    (reach : Reach) : Prop where
  valid : reach.WellFormed
  joined : ∀ one ∈ reach.items, ∀ other ∈ reach.items, reach.find one = reach.find other →
    Connected graph mustLink one other
  seeded : ∀ seed ∈ seeds, seed ∈ reach.items
  rooted : ∀ item ∈ reach.items, ∃ seed ∈ seeds, reach.find seed = reach.find item

/-- A later union-find of the walk: nothing is forgotten or parted. -/
structure Extends (reach later : Reach) : Prop where
  items : ∀ item ∈ reach.items, item ∈ later.items
  keeps : ∀ one other, reach.find one = reach.find other → later.find one = later.find other

theorem Extends.refl (reach : Reach) : Extends reach reach :=
  ⟨fun _ held => held, fun _ _ same => same⟩

theorem Extends.trans {first second third : Reach} (one : Extends first second)
    (two : Extends second third) : Extends first third :=
  ⟨fun item held => two.items item (one.items item held),
    fun left right same => two.keeps left right (one.keeps left right same)⟩

theorem Extends.add (reach : Reach) (item : Nat) : Extends reach (reach.add item) :=
  ⟨fun _ held => Reach.mem_items_add.mpr (.inr held),
    fun one other same => by rwa [Reach.find_add, Reach.find_add]⟩

theorem Extends.union (reach : Reach) (left right : Nat) :
    Extends reach (reach.union left right) :=
  ⟨fun _ held => Reach.mem_items_union.mpr (.inr (.inr held)),
    fun _ _ same => Reach.find_union_eq_iff.mpr (.inl same)⟩

/-- One edge walked. -/
theorem Tied.link {reach : Reach} (tied : Tied graph mustLink seeds reach) {item other : Nat}
    (met : item ∈ reach.items) (linked : other ∈ near graph mustLink item) :
    Tied graph mustLink seeds ((reach.add other).union item other) := by
  have edge := connected_of_near linked
  have added : ∀ one ∈ (reach.add other).items, one ∈ reach.items ∨ one = other ∧
      other ∉ reach.items := by
    intro one listed
    rcases Reach.mem_items_add.mp listed with rfl | old
    · by_cases known : one ∈ reach.items
      · exact .inl known
      · exact .inr ⟨rfl, known⟩
    · exact .inl old
  have apart : ∀ one ∈ reach.items, other ∉ reach.items → reach.find one ≠ reach.find other := by
    intro one listed unmet same
    rw [(tied.valid.fresh other unmet).1] at same
    exact unmet (same ▸ tied.valid.closed one listed)
  -- before the union, a class with the new item is its own
  have whole : ∀ one ∈ (reach.add other).items, ∀ two ∈ (reach.add other).items,
      reach.find one = reach.find two → Connected graph mustLink one two := by
    intro one oneMet two twoMet same
    rcases added one oneMet with oneOld | ⟨rfl, unmet⟩
    · rcases added two twoMet with twoOld | ⟨rfl, unmet⟩
      · exact tied.joined one oneOld two twoOld same
      · exact absurd same (apart one oneOld unmet)
    · rcases added two twoMet with twoOld | ⟨rfl, _⟩
      · exact absurd same.symm (apart two twoOld unmet)
      · exact .refl _
  have itemMet : item ∈ (reach.add other).items := Reach.mem_items_add.mpr (.inr met)
  have otherMet : other ∈ (reach.add other).items := Reach.mem_items_add.mpr (.inl rfl)
  have inside : ∀ one ∈ ((reach.add other).union item other).items,
      one ∈ (reach.add other).items := by
    intro one listed
    rcases Reach.mem_items_union.mp listed with rfl | rfl | old
    · exact otherMet
    · exact itemMet
    · exact old
  have reaches : ∀ one ∈ (reach.add other).items,
      reach.find one = reach.find item ∨ reach.find one = reach.find other →
        Connected graph mustLink one item := by
    intro one oneMet ends
    rcases ends with same | same
    · exact whole one oneMet item itemMet same
    · exact (whole one oneMet other otherMet same).trans _ _ _ edge.symm
  refine ⟨(tied.valid.add other).union item other, ?_, ?_, ?_⟩
  · intro one oneMet two twoMet same
    have oneIn := inside one oneMet
    have twoIn := inside two twoMet
    rw [Reach.find_union_eq_iff] at same
    simp only [Reach.find_add] at same
    rcases same with same | ⟨oneEnds, twoEnds⟩
    · exact whole one oneIn two twoIn same
    · exact (reaches one oneIn oneEnds).trans _ _ _ (reaches two twoIn twoEnds).symm
  · intro seed listed
    exact Reach.mem_items_union.mpr (.inr (.inr (Reach.mem_items_add.mpr
      (.inr (tied.seeded seed listed)))))
  · intro one listed
    rcases added one (inside one listed) with old | ⟨rfl, unmet⟩
    · obtain ⟨seed, wanted, same⟩ := tied.rooted one old
      refine ⟨seed, wanted, Reach.find_union_eq_iff.mpr (.inl ?_)⟩
      rwa [Reach.find_add, Reach.find_add]
    · obtain ⟨seed, wanted, same⟩ := tied.rooted item met
      refine ⟨seed, wanted, Reach.find_union_eq_iff.mpr (.inr ⟨.inl ?_, .inr rfl⟩)⟩
      rwa [Reach.find_add, Reach.find_add]

/-- Every edge of one listing is walked. -/
theorem Tied.expand {reach : Reach} (tied : Tied graph mustLink seeds reach) {item : Nat}
    (met : item ∈ reach.items) {others : List Nat}
    (linked : ∀ other ∈ others, other ∈ near graph mustLink item) :
    Tied graph mustLink seeds (reach.expand item others) ∧
      Extends reach (reach.expand item others) ∧
      (∀ other ∈ others, other ∈ (reach.expand item others).items ∧
        (reach.expand item others).find other = (reach.expand item others).find item) ∧
      ∀ one ∈ (reach.expand item others).items, one ∈ reach.items ∨ one ∈ others := by
  have walked : ∀ (others : List Nat) (reach : Reach), Tied graph mustLink seeds reach →
      item ∈ reach.items → (∀ other ∈ others, other ∈ near graph mustLink item) →
      let later := others.foldl (fun reach other => (reach.add other).union item other) reach
      Tied graph mustLink seeds later ∧ Extends reach later ∧
        (∀ other ∈ others, other ∈ later.items ∧ later.find other = later.find item) ∧
        ∀ one ∈ later.items, one ∈ reach.items ∨ one ∈ others := by
    intro others
    induction others with
    | nil =>
        intro reach tied _ _
        exact ⟨tied, .refl reach, by nofun, fun _ held => .inl held⟩
    | cons other rest ih =>
        intro reach tied met linked
        have onward : Extends reach ((reach.add other).union item other) :=
          (Extends.add reach other).trans (.union _ item other)
        obtain ⟨later, extends_, joins, origin⟩ := ih ((reach.add other).union item other)
          (tied.link met (linked other List.mem_cons_self)) (onward.items item met)
          fun next listed => linked next (List.mem_cons_of_mem _ listed)
        refine ⟨later, onward.trans extends_, ?_, ?_⟩
        · intro next listed
          rcases List.mem_cons.mp listed with rfl | listed
          · have met : next ∈ ((reach.add next).union item next).items :=
              Reach.mem_items_union.mpr (.inl rfl)
            exact ⟨extends_.items next met, extends_.keeps _ _
              (Reach.find_union_eq_iff.mpr (.inr ⟨.inr rfl, .inl rfl⟩))⟩
          · exact joins next listed
        · intro one held
          rcases origin one held with walked | listed
          · rcases Reach.mem_items_union.mp walked with rfl | rfl | old
            · exact .inr List.mem_cons_self
            · exact .inl met
            · rcases Reach.mem_items_add.mp old with rfl | old
              · exact .inr List.mem_cons_self
              · exact .inl old
          · exact .inr (List.mem_cons_of_mem _ listed)
  have same : reach.add item = reach := if_pos met
  unfold Reach.expand
  rw [same]
  exact walked others reach tied met linked

/-- A whole level of listings is walked. -/
theorem Tied.level {frontier : List Nat} : ∀ {reach : Reach}, Tied graph mustLink seeds reach →
    (∀ item ∈ frontier, item ∈ reach.items) →
    let later := frontier.foldl
      (fun reach item => reach.expand item (near graph mustLink item)) reach
    Tied graph mustLink seeds later ∧ Extends reach later ∧
      (∀ item ∈ frontier, ∀ other ∈ near graph mustLink item,
        other ∈ later.items ∧ later.find other = later.find item) ∧
      ∀ item ∈ later.items, item ∈ reach.items ∨
        ∃ one ∈ frontier, item ∈ near graph mustLink one := by
  induction frontier with
  | nil =>
      intro reach tied _
      exact ⟨tied, .refl reach, by nofun, fun _ held => .inl held⟩
  | cons item rest ih =>
      intro reach tied met
      obtain ⟨first, onward, joins, origin⟩ :=
        tied.expand (met item List.mem_cons_self) fun _ listed => listed
      obtain ⟨later, extends_, joinsLater, originLater⟩ :=
        ih first fun next listed => onward.items next (met next (List.mem_cons_of_mem _ listed))
      refine ⟨later, onward.trans extends_, ?_, ?_⟩
      · intro next listed other linked
        rcases List.mem_cons.mp listed with rfl | listed
        · obtain ⟨held, same⟩ := joins other linked
          exact ⟨extends_.items other held, extends_.keeps _ _ same⟩
        · exact joinsLater next listed other linked
      · intro one held
        rcases originLater one held with walked | ⟨next, listed, linked⟩
        · rcases origin one walked with old | linked
          · exact .inl old
          · exact .inr ⟨item, List.mem_cons_self, linked⟩
        · exact .inr ⟨next, List.mem_cons_of_mem _ listed, linked⟩

theorem Extends.size_le {reach later : Reach} (extends_ : Extends reach later)
    (valid : reach.WellFormed) (laterValid : later.WellFormed) {item : Nat}
    (met : item ∈ reach.items) : reach.size item ≤ later.size item := by
  rw [valid.size_eq met, laterValid.size_eq (extends_.items item met)]
  refine (List.subperm_of_subset (valid.distinct.filter _) ?_).length_le
  intro other listed
  obtain ⟨held, same⟩ := List.mem_filter.mp listed
  exact List.mem_filter.mpr ⟨extends_.items other held,
    decide_eq_true (extends_.keeps _ _ (of_decide_eq_true same))⟩

/-! ### The walk -/

/-- The walk between two levels: every edge of a listing seen is walked, and a listing met is
seen, on the frontier, or in a group past the cap. -/
structure Walk.Sound (graph : MergeGraph) (mustLink : List (Nat × Nat)) (seeds : List Nat)
    (maxSize : Nat) (walk : Walk) : Prop where
  tied : Tied graph mustLink seeds walk.reach
  apart : (walk.seen ++ walk.frontier).Nodup
  inside : ∀ item ∈ walk.seen ++ walk.frontier, item ∈ walk.reach.items ∧
    item ∈ walkable graph mustLink seeds
  expanded : ∀ item ∈ walk.seen, ∀ other ∈ near graph mustLink item,
    other ∈ walk.reach.items ∧ walk.reach.find other = walk.reach.find item
  met : ∀ item ∈ walk.reach.items, item ∈ walk.seen ∨ item ∈ walk.frontier ∨
    maxSize < walk.reach.size item

theorem items_addAll (seeds : List Nat) (reach : Reach) {item : Nat} :
    item ∈ (seeds.foldl Reach.add reach).items ↔ item ∈ seeds ∨ item ∈ reach.items := by
  induction seeds generalizing reach with
  | nil => exact ⟨.inr, fun held => held.elim (nomatch ·) id⟩
  | cons seed rest ih =>
      rw [List.foldl_cons, ih, Reach.mem_items_add, List.mem_cons]
      tauto

theorem find_addAll (seeds : List Nat) (reach : Reach) (item : Nat) :
    (seeds.foldl Reach.add reach).find item = reach.find item := by
  induction seeds generalizing reach with
  | nil => rfl
  | cons seed rest ih => rw [List.foldl_cons, ih, Reach.find_add]

theorem Walk.Sound.start (distinct : seeds.Nodup) :
    (Walk.start seeds).Sound graph mustLink seeds maxSize where
  tied := by
    have alone : ∀ item, (seeds.foldl Reach.add .empty).find item = item :=
      fun item => (find_addAll seeds .empty item).trans (SizedForest.find_of_root rfl)
    refine ⟨foldl_invariant Reach.WellFormed (fun _ valid item _ => valid.add item)
      Reach.WellFormed.empty, ?_, ?_, ?_⟩
    · intro one _ other _ same
      have equal : one = other := by
        rw [← alone one, ← alone other]
        exact same
      exact equal ▸ .refl one
    · exact fun seed listed => (items_addAll seeds .empty).mpr (.inl listed)
    · intro item held
      rcases (items_addAll seeds .empty).mp held with listed | none_
      · exact ⟨item, listed, rfl⟩
      · cases none_
  apart := distinct
  inside := fun item listed => ⟨(items_addAll seeds .empty).mpr (.inl listed),
    List.mem_append_left _ (List.mem_append_left _ listed)⟩
  expanded := fun _ held => nomatch held
  met := by
    intro item held
    rcases (items_addAll seeds .empty).mp held with listed | none_
    · exact .inr (.inl listed)
    · cases none_

theorem Walk.Sound.level {walk : Walk} (sound : walk.Sound graph mustLink seeds maxSize) :
    (walk.level graph mustLink maxSize).Sound graph mustLink seeds maxSize := by
  obtain ⟨tied, onward, joins, origin⟩ := sound.tied.level
    (fun item listed => (sound.inside item (List.mem_append_right _ listed)).1)
  have ahead : ∀ item, item ∈ (walk.level graph mustLink maxSize).frontier ↔
      (∃ one ∈ walk.frontier, item ∈ near graph mustLink one) ∧
        item ∉ walk.seen ++ walk.frontier ∧
          (walk.level graph mustLink maxSize).reach.size item ≤ maxSize := by
    intro item
    unfold Walk.level
    simp only [mem_sortedBy, List.mem_dedup, List.mem_filter, List.mem_flatMap, decide_eq_true_eq]
  refine ⟨tied, ?_, ?_, ?_, ?_⟩
  · refine List.Nodup.append sound.apart ?_ ?_
    · exact nodup_sortedBy.mpr (List.nodup_dedup _)
    · intro item seen later
      exact ((ahead item).mp later).2.1 seen
  · intro item listed
    rcases List.mem_append.mp listed with seen | later
    · obtain ⟨held, walkable⟩ := sound.inside item seen
      exact ⟨onward.items item held, walkable⟩
    · obtain ⟨⟨one, front, linked⟩, _⟩ := (ahead item).mp later
      exact ⟨(joins one front item linked).1, near_walkable linked⟩
  · intro item seen other linked
    rcases List.mem_append.mp seen with old | front
    · obtain ⟨held, same⟩ := sound.expanded item old other linked
      exact ⟨onward.items other held, onward.keeps _ _ same⟩
    · exact joins item front other linked
  · intro item held
    by_cases seen : item ∈ walk.seen ++ walk.frontier
    · exact .inl seen
    · by_cases small : (walk.level graph mustLink maxSize).reach.size item ≤ maxSize
      · rcases origin item held with old | found
        · rcases sound.met item old with was | front | large
          · exact absurd (List.mem_append_left _ was) seen
          · exact absurd (List.mem_append_right _ front) seen
          · have grown := onward.size_le sound.tied.valid tied.valid old
            exact .inr (.inr (large.trans_le grown))
        · exact .inr (.inl ((ahead item).mpr ⟨found, seen, small⟩))
      · exact .inr (.inr (not_le.mp small))

theorem Walk.Sound.sweep {walk : Walk} (sound : walk.Sound graph mustLink seeds maxSize) :
    (walk.sweep graph mustLink maxSize).1.Sound graph mustLink seeds maxSize := by
  unfold Walk.sweep
  split_ifs
  · exact sound
  · exact sound.level

theorem walkFrom_sound (distinct : seeds.Nodup) :
    (walkFrom graph mustLink maxSize seeds).Sound graph mustLink seeds maxSize :=
  rounds_invariant (Walk.Sound graph mustLink seeds maxSize) (fun _ sound => sound.sweep) _
    (Walk.Sound.start distinct)

/-- The loop ends with its frontier empty: each level sees something new. -/
theorem walkFrom_done (distinct : seeds.Nodup) :
    (walkFrom graph mustLink maxSize seeds).frontier = [] := by
  have settled := @rounds_settled_of_invariant _ (Walk.sweep graph mustLink maxSize)
    (Walk.Sound graph mustLink seeds maxSize)
    (fun walk => (walkable graph mustLink seeds).length - walk.seen.length)
    (fun _ sound => sound.sweep) ?_ ?_ ((walkable graph mustLink seeds).length + 1) _
    (Walk.Sound.start distinct) (by unfold Walk.start; simp)
  · unfold walkFrom
    revert settled
    generalize (rounds (Walk.sweep graph mustLink maxSize) _ (Walk.start seeds)).1 = walk
    intro settled
    unfold Walk.sweep at settled
    split_ifs at settled with empty
    exact empty
  · intro walk sound moved
    unfold Walk.sweep at moved ⊢
    split_ifs at moved ⊢ with empty
    have room : (walk.seen ++ walk.frontier).length ≤ (walkable graph mustLink seeds).length :=
      (List.subperm_of_subset sound.apart fun item listed => (sound.inside item listed).2).length_le
    have some_ : 0 < walk.frontier.length := List.length_pos_iff.mpr empty
    have grown : (walk.level graph mustLink maxSize).seen.length =
        walk.seen.length + walk.frontier.length := List.length_append
    rw [List.length_append] at room
    dsimp only
    omega
  · intro walk still
    unfold Walk.sweep at still ⊢
    split_ifs at still ⊢
    rfl

/-! ### The answer -/

/-- More than `bound` listings lie in the item's component. -/
def Larger (graph : MergeGraph) (mustLink : List (Nat × Nat)) (item bound : Nat) : Prop :=
  ∃ crowd : List Nat, crowd.Nodup ∧ bound < crowd.length ∧
    ∀ other ∈ crowd, Connected graph mustLink item other

section Done

variable {walk : Walk}

/-- A class within the cap is a component. -/
theorem Walk.Sound.class_whole (sound : walk.Sound graph mustLink seeds maxSize)
    (done : walk.frontier = []) {item : Nat} (held : item ∈ walk.reach.items)
    (small : walk.reach.size item ≤ maxSize) (other : Nat) :
    (other ∈ walk.reach.items ∧ walk.reach.find other = walk.reach.find item) ↔
      Connected graph mustLink item other := by
  constructor
  · rintro ⟨otherHeld, same⟩
    exact sound.tied.joined item held other otherHeld same.symm
  · intro chain
    refine (@connected_inside graph mustLink (fun one => one ∈ walk.reach.items ∧
      walk.reach.find one = walk.reach.find item) ?_ _ _ chain).mp ⟨held, rfl⟩
    rintro one ⟨oneHeld, same⟩ next linked
    rcases sound.met one oneHeld with seen | front | large
    · obtain ⟨nextHeld, joined⟩ := sound.expanded one seen next linked
      exact ⟨nextHeld, joined.trans same⟩
    · rw [done] at front
      cases front
    · unfold Reach.size at small large
      rw [same] at large
      exact absurd small (not_le.mpr large)

theorem Walk.Sound.larger_iff (sound : walk.Sound graph mustLink seeds maxSize)
    (done : walk.frontier = []) {item : Nat} (held : item ∈ walk.reach.items) :
    Larger graph mustLink item maxSize ↔ maxSize < walk.reach.size item := by
  rw [sound.tied.valid.size_eq held]
  constructor
  · rintro ⟨crowd, distinct, many, chains⟩
    by_contra few
    have small : walk.reach.size item ≤ maxSize :=
      (sound.tied.valid.size_eq held).trans_le (not_lt.mp few)
    refine few (many.trans_le (List.subperm_of_subset distinct ?_).length_le)
    intro other listed
    obtain ⟨otherHeld, same⟩ := (sound.class_whole done held small other).mpr (chains other listed)
    exact List.mem_filter.mpr ⟨otherHeld, decide_eq_true same⟩
  · intro many
    refine ⟨_, sound.tied.valid.distinct.filter _, many, ?_⟩
    intro other listed
    obtain ⟨otherHeld, same⟩ := List.mem_filter.mp listed
    exact sound.tied.joined item held other otherHeld (of_decide_eq_true same).symm

end Done

/-- A returned list is a whole component that holds a seed and is within the cap, the lists are
disjoint, and a seed is in one of them unless its component is past the cap, when it is named. -/
structure ComponentsExact (graph : MergeGraph) (mustLink : List (Nat × Nat)) (seeds : List Nat)
    (maxSize : Nat) (answer : List (List Nat) × List Nat) : Prop where
  whole : ∀ members ∈ answer.1, members.Nodup ∧ members.length ≤ maxSize ∧
    ∃ seed ∈ seeds, seed ∈ members ∧ ∀ item, item ∈ members ↔ Connected graph mustLink seed item
  disjoint : answer.1.Pairwise List.Disjoint
  placed : ∀ seed ∈ seeds, ¬ Larger graph mustLink seed maxSize →
    ∃! members, members ∈ answer.1 ∧ seed ∈ members
  oversized : ∀ item, item ∈ answer.2 ↔ item ∈ seeds ∧ Larger graph mustLink item maxSize
  apart : ∀ item ∈ answer.2, ∀ members ∈ answer.1, item ∉ members

theorem components_exact (graph : MergeGraph) (mustLink : List (Nat × Nat)) (seeds : List Nat)
    (maxSize : Nat) :
    ComponentsExact graph mustLink seeds maxSize (graph.components mustLink seeds maxSize) := by
  have distinct : (sortedIds seeds.dedup).Nodup := nodup_sortedBy.mpr (List.nodup_dedup _)
  have wanted : ∀ {item : Nat}, item ∈ sortedIds seeds.dedup ↔ item ∈ seeds :=
    fun {item} => mem_sortedBy.trans List.mem_dedup
  have sound := @walkFrom_sound graph mustLink _ maxSize distinct
  have done := @walkFrom_done graph mustLink _ maxSize distinct
  unfold MergeGraph.components
  dsimp only
  revert sound done
  generalize walkFrom graph mustLink maxSize (sortedIds seeds.dedup) = walk
  intro sound done
  -- a class is the items of one root
  have classes : ∀ {members : List Nat}, members ∈ sortedIds walk.reach.groups ↔
      ∃ item ∈ walk.reach.items, members = sortedIds (walk.reach.items.filter fun other =>
        decide (walk.reach.find other = walk.reach.find item)) :=
    fun {members} => mem_sortedBy.trans mem_classes
  have member : ∀ {item other : Nat}, other ∈ sortedIds (walk.reach.items.filter fun other =>
      decide (walk.reach.find other = walk.reach.find item)) ↔
        other ∈ walk.reach.items ∧ walk.reach.find other = walk.reach.find item := by
    intro item other
    rw [mem_sortedBy, List.mem_filter, decide_eq_true_eq]
  have sized : ∀ {item : Nat}, item ∈ walk.reach.items →
      (sortedIds (walk.reach.items.filter fun other =>
        decide (walk.reach.find other = walk.reach.find item))).length = walk.reach.size item := by
    intro item held
    rw [length_sortedBy, sound.tied.valid.size_eq held]
  have flat : (sortedIds walk.reach.groups).Pairwise List.Disjoint := by
    have groups := List.nodup_flatten.mp
      (@nodup_flatten_classes _ _ walk.reach.find _ sound.tied.valid.distinct)
    exact groups.2.perm (sortedBy_perm _ _).symm fun apart => List.Disjoint.symm apart
  refine ⟨?_, ?_, ?_, ?_, ?_⟩
  · intro members listed
    obtain ⟨listed, few⟩ := List.mem_filter.mp listed
    obtain ⟨item, held, rfl⟩ := classes.mp listed
    have small := of_decide_eq_true few
    refine ⟨nodup_sortedBy.mpr (sound.tied.valid.distinct.filter _), small, ?_⟩
    obtain ⟨seed, seeded, same⟩ := sound.tied.rooted item held
    have seedHeld := sound.tied.seeded seed seeded
    refine ⟨seed, wanted.mp seeded, member.mpr ⟨seedHeld, same⟩, ?_⟩
    intro other
    rw [member, ← same]
    refine sound.class_whole done seedHeld ?_ other
    rw [sized held] at small
    unfold Reach.size at small ⊢
    rwa [same]
  · exact flat.filter _
  · intro seed listed few
    have held := sound.tied.seeded seed (wanted.mpr listed)
    have small := not_lt.mp (few ∘ (sound.larger_iff done held).mpr)
    refine ⟨_, ⟨List.mem_filter.mpr ⟨classes.mpr ⟨seed, held, rfl⟩, decide_eq_true ?_⟩,
      member.mpr ⟨held, rfl⟩⟩, ?_⟩
    · exact (sized held).trans_le small
    · rintro members ⟨listed, inside⟩
      obtain ⟨item, itemHeld, rfl⟩ := classes.mp (List.mem_filter.mp listed).1
      rw [(member.mp inside).2]
  · intro item
    simp only [mem_sortedBy, List.mem_flatMap, List.mem_filter, decide_eq_true_eq, wanted]
    constructor
    · rintro ⟨members, ⟨listed, many⟩, inside, seeded⟩
      obtain ⟨one, held, rfl⟩ := classes.mp (mem_sortedBy.mpr listed)
      obtain ⟨itemHeld, same⟩ := member.mp inside
      refine ⟨seeded, (sound.larger_iff done itemHeld).mpr ?_⟩
      rw [sized held] at many
      unfold Reach.size at many ⊢
      rwa [same]
    · rintro ⟨seeded, larger⟩
      have held := sound.tied.seeded item (wanted.mpr seeded)
      refine ⟨_, ⟨mem_sortedBy.mp (classes.mpr ⟨item, held, rfl⟩), ?_⟩, member.mpr ⟨held, rfl⟩,
        seeded⟩
      rw [sized held]
      exact (sound.larger_iff done held).mp larger
  · intro item oversized members listed inside
    obtain ⟨crowd, crowdListed, crowdInside⟩ := List.mem_flatMap.mp (mem_sortedBy.mp oversized)
    obtain ⟨crowdListed, many⟩ := List.mem_filter.mp crowdListed
    obtain ⟨listed, few⟩ := List.mem_filter.mp listed
    obtain ⟨one, oneHeld, rfl⟩ := classes.mp crowdListed
    obtain ⟨two, twoHeld, rfl⟩ := classes.mp listed
    have first := (member.mp (List.mem_filter.mp crowdInside).1).2
    have second := (member.mp inside).2
    rw [← second, first] at few
    exact absurd (of_decide_eq_true few) (not_le.mpr (of_decide_eq_true many))

/-- The graph of a store whose merge rows are the pairs. -/
def MergeGraph.ofPairs (merged : List (Nat × Nat)) : MergeGraph where
  neighbours := mustLinked merged
  listed := merged.flatMap fun pair => [pair.1, pair.2]
  inside := fun _ _ near => by
    rcases mem_mustLinked.mp near with one | other
    · exact List.mem_flatMap.mpr ⟨_, one, by simp⟩
    · exact List.mem_flatMap.mpr ⟨_, other, by simp⟩
  symmetric := fun _ _ near => mem_mustLinked.mpr (mem_mustLinked.mp near).symm

theorem components_exact_at_chain :
    ComponentsExact (.ofPairs [(1, 2), (2, 3)]) [(4, 5)] [1, 4, 6] 2 ([[4, 5], [6]], [1]) := by
  have answer : (MergeGraph.ofPairs [(1, 2), (2, 3)]).components [(4, 5)] [1, 4, 6] 2 =
      ([[4, 5], [6]], [1]) := by decide +kernel
  exact answer ▸ components_exact (.ofPairs [(1, 2), (2, 3)]) [(4, 5)] [1, 4, 6] 2

end Sreality.Autodedup
