import Mathlib.Data.List.Perm.Basic
import Mathlib.Logic.Function.Basic
import Mathlib.Tactic.Tauto
import Sreality.Foundation.DisjointSets

/-! The constrained pass's union-find (`_UnionFind` in `autodedup/cluster.py`):
union by smallest id, so the representative is the cluster identity, with the
member lists carried on the roots. -/

set_option autoImplicit false

namespace Sreality.Autodedup

open Sreality.Foundation

/-- The items seen, their pointers, and on each root the list of its members.
`find` moves no root by halving paths (`Forest.find_halve`), so the pointers are
kept as they were set. -/
structure UnionFind where
  forest : Forest
  items : List Nat
  groups : Nat → List Nat

namespace UnionFind

def empty : UnionFind where
  forest := .singletons
  items := []
  groups := fun _ => []

/-- A new item is its own root. -/
def add (uf : UnionFind) (item : Nat) : UnionFind :=
  if item ∈ uf.items then uf
  else { uf with items := uf.items ++ [item], groups := Function.update uf.groups item [item] }

def find (uf : UnionFind) (item : Nat) : Nat := uf.forest.find item

def members (uf : UnionFind) (root : Nat) : List Nat := sortedIds (uf.groups root)

/-- The larger root is pointed at the smaller, which takes over its members. -/
def union (uf : UnionFind) (left right : Nat) : UnionFind :=
  let uf := (uf.add left).add right
  let keeper := min (uf.find left) (uf.find right)
  let loser := max (uf.find left) (uf.find right)
  if keeper = loser then uf
  else
    { uf with
      forest := uf.forest.union left right
      groups := Function.update
        (Function.update uf.groups keeper (uf.groups keeper ++ uf.groups loser)) loser [] }

/-- The groups of more than one, keys ascending. -/
def clusters (uf : UnionFind) : List (Nat × List Nat) :=
  ((sortedIds (uf.items.filter fun item => uf.groups item ≠ [])).map fun root =>
    (root, uf.members root)).filter fun cluster => 1 < cluster.2.length

/-! ### What the member lists hold -/

/-- The lists on the roots are the classes of the pointers, over the items seen. -/
structure WellFormed (uf : UnionFind) : Prop where
  distinct : uf.items.Nodup
  fresh : ∀ item ∉ uf.items, uf.find item = item
  closed : ∀ item ∈ uf.items, uf.find item ∈ uf.items
  grouped : ∀ root, (uf.groups root).Perm (uf.items.filter fun item => uf.find item = root)

theorem WellFormed.empty : UnionFind.empty.WellFormed where
  distinct := List.nodup_nil
  fresh := fun item _ => Forest.find_singletons item
  closed := fun _ held => absurd held List.not_mem_nil
  grouped := fun _ => .refl _

@[simp] theorem forest_add (uf : UnionFind) (item : Nat) : (uf.add item).forest = uf.forest := by
  unfold add
  split_ifs <;> rfl

@[simp] theorem find_add (uf : UnionFind) (item other : Nat) :
    (uf.add item).find other = uf.find other := by
  simp only [find, forest_add]

@[simp] theorem mem_items_add {uf : UnionFind} {item other : Nat} :
    other ∈ (uf.add item).items ↔ other = item ∨ other ∈ uf.items := by
  unfold add
  split_ifs with held
  · refine ⟨Or.inr, ?_⟩
    rintro (rfl | seen)
    · exact held
    · exact seen
  · rw [List.mem_append, List.mem_singleton, or_comm]

theorem add_of_mem {uf : UnionFind} {item : Nat} (held : item ∈ uf.items) : uf.add item = uf :=
  if_pos held

theorem WellFormed.add {uf : UnionFind} (valid : uf.WellFormed) (item : Nat) :
    (uf.add item).WellFormed := by
  by_cases held : item ∈ uf.items
  · rwa [add_of_mem held]
  · have self : uf.find item = item := valid.fresh item held
    have added : uf.add item = { uf with
        items := uf.items ++ [item]
        groups := Function.update uf.groups item [item] } := if_neg held
    refine ⟨?_, ?_, ?_, ?_⟩
    · rw [added]
      refine valid.distinct.append (List.nodup_singleton item) ?_
      intro other seen same
      exact held (List.mem_singleton.mp same ▸ seen)
    · intro other unseen
      rw [find_add]
      exact valid.fresh other fun seen => unseen (mem_items_add.mpr (.inr seen))
    · intro other seen
      rw [find_add, mem_items_add]
      rcases mem_items_add.mp seen with rfl | old
      · exact .inl self
      · exact .inr (valid.closed other old)
    · intro root
      simp only [find_add]
      rw [added]
      by_cases same : root = item
      · subst same
        have nothing : (uf.items.filter fun other => uf.find other = root) = [] := by
          rw [List.filter_eq_nil_iff]
          intro other seen equal
          exact held (of_decide_eq_true equal ▸ valid.closed other seen)
        simp [nothing, self]
      · have unlike : ¬item = root := fun equal => same equal.symm
        simpa [Function.update_of_ne same, self, unlike] using valid.grouped root

/-- What a union does to every root. -/
theorem find_union (uf : UnionFind) (left right item : Nat) :
    (uf.union left right).find item =
      if uf.find item = uf.find left ∨ uf.find item = uf.find right then
        min (uf.find left) (uf.find right)
      else uf.find item := by
  unfold union
  simp only [find_add]
  split_ifs with same either either
  · rw [find_add, find_add]
    omega
  · rw [find_add, find_add]
  · simp only [find, forest_add, Forest.find_union]
    exact if_pos either
  · simp only [find, forest_add, Forest.find_union]
    exact if_neg either

theorem items_union (uf : UnionFind) (left right : Nat) :
    (uf.union left right).items = ((uf.add left).add right).items := by
  unfold union
  dsimp only
  split_ifs <;> rfl

theorem mem_items_union {uf : UnionFind} {left right item : Nat} :
    item ∈ (uf.union left right).items ↔ item = left ∨ item = right ∨ item ∈ uf.items := by
  rw [items_union, mem_items_add, mem_items_add]
  tauto

theorem WellFormed.union {uf : UnionFind} (valid : uf.WellFormed) (left right : Nat) :
    (uf.union left right).WellFormed := by
  have added := (valid.add left).add right
  have rootLeft : uf.find left ∈ ((uf.add left).add right).items := by
    simpa using added.closed left (by simp)
  have rootRight : uf.find right ∈ ((uf.add left).add right).items := by
    simpa using added.closed right (by simp)
  refine ⟨items_union uf left right ▸ added.distinct, ?_, ?_, ?_⟩
  · intro item unseen
    rw [items_union] at unseen
    have self : uf.find item = item := by simpa using added.fresh item unseen
    rw [find_union, self, if_neg]
    rintro (rfl | rfl)
    · exact unseen rootLeft
    · exact unseen rootRight
  · intro item seen
    rw [items_union] at seen ⊢
    rw [find_union]
    split_ifs
    · rcases min_choice (uf.find left) (uf.find right) with choice | choice <;> rw [choice]
      · exact rootLeft
      · exact rootRight
    · simpa using added.closed item seen
  · intro root
    by_cases same : uf.find left = uf.find right
    · have unchanged : uf.union left right = (uf.add left).add right := by
        simp [UnionFind.union, same]
      rw [unchanged]
      exact added.grouped root
    · have keeperLoser : min (uf.find left) (uf.find right) ≠ max (uf.find left) (uf.find right) := by
        omega
      have grouped : ∀ root, (((uf.add left).add right).groups root).Perm
          (((uf.add left).add right).items.filter fun item => uf.find item = root) := by
        intro root
        simpa using added.grouped root
      have lists : (uf.union left right).groups root =
          if root = max (uf.find left) (uf.find right) then []
          else if root = min (uf.find left) (uf.find right) then
            ((uf.add left).add right).groups (min (uf.find left) (uf.find right)) ++
              ((uf.add left).add right).groups (max (uf.find left) (uf.find right))
          else ((uf.add left).add right).groups root := by
        simp [UnionFind.union, keeperLoser, Function.update_apply]
      have members : ∀ item, (uf.union left right).find item = root ↔
          root ≠ max (uf.find left) (uf.find right) ∧
            if root = min (uf.find left) (uf.find right) then
              uf.find item = min (uf.find left) (uf.find right) ∨
                uf.find item = max (uf.find left) (uf.find right)
            else uf.find item = root := by
        intro item
        rw [find_union]
        split_ifs <;> omega
      rw [lists, items_union]
      simp only [members]
      by_cases isLoser : root = max (uf.find left) (uf.find right)
      · simp [isLoser]
      · by_cases isKeeper : root = min (uf.find left) (uf.find right)
        · rw [if_neg isLoser, if_pos isKeeper]
          simp only [ne_eq, isLoser, not_false_eq_true, true_and, if_pos isKeeper]
          refine ((grouped _).append (grouped _)).trans ?_
          refine (List.perm_ext_iff_of_nodup ?_ (added.distinct.filter _)).mpr ?_
          · refine (added.distinct.filter _).append (added.distinct.filter _) ?_
            intro item inKeeper inLoser
            have atKeeper := of_decide_eq_true (List.mem_filter.mp inKeeper).2
            have atLoser := of_decide_eq_true (List.mem_filter.mp inLoser).2
            exact keeperLoser (atKeeper.symm.trans atLoser)
          · intro item
            simp only [List.mem_append, List.mem_filter, decide_eq_true_eq, ← and_or_left]
        · simpa [isLoser, isKeeper] using grouped root

theorem WellFormed.mem_members {uf : UnionFind} (valid : uf.WellFormed) {root item : Nat} :
    item ∈ uf.members root ↔ item ∈ uf.items ∧ uf.find item = root := by
  rw [members, mem_sortedBy, (valid.grouped root).mem_iff, List.mem_filter, decide_eq_true_eq]

theorem WellFormed.members_eq {uf : UnionFind} (valid : uf.WellFormed) (root : Nat) :
    uf.members root = sortedIds (uf.items.filter fun item => uf.find item = root) :=
  sortedIds_eq_of_perm (valid.grouped root)

theorem WellFormed.nodup_members {uf : UnionFind} (valid : uf.WellFormed) (root : Nat) :
    (uf.members root).Nodup := by
  rw [valid.members_eq, nodup_sortedBy]
  exact valid.distinct.filter _

/-- The clusters are the classes of more than one. -/
theorem WellFormed.clusters_eq {uf : UnionFind} (valid : uf.WellFormed) :
    uf.clusters = (sortedGroups uf.find uf.items).filter fun cluster => 1 < cluster.2.length := by
  have keys : sortedIds (uf.items.filter fun item => uf.groups item ≠ []) =
      sortedIds (uf.items.map uf.find).dedup := by
    refine sortedIds_eq_of_mem_iff (valid.distinct.filter _) (List.nodup_dedup _) ?_
    intro root
    have inhabited : uf.groups root ≠ [] ↔ ∃ item ∈ uf.items, uf.find item = root := by
      rw [← List.length_pos_iff, (valid.grouped root).length_eq, List.length_pos_iff_exists_mem]
      simp only [List.mem_filter, decide_eq_true_eq]
    simp only [List.mem_filter, List.mem_dedup, List.mem_map, decide_eq_true_eq, inhabited]
    constructor
    · exact And.right
    · rintro ⟨item, seen, rfl⟩
      exact ⟨valid.closed item seen, item, seen, rfl⟩
  unfold clusters sortedGroups
  rw [keys]
  simp only [valid.members_eq]

end UnionFind

end Sreality.Autodedup
