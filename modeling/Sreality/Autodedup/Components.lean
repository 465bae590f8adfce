import Mathlib.Data.List.Lex
import Mathlib.Data.List.Perm.Basic
import Sreality.Foundation.SizedForest
import Sreality.Foundation.DisjointSets
import Sreality.Foundation.Rounds

/-! The components a pass re-clusters (`_Reach`, `_components` in `autodedup/incremental.py`): the
merge edges and the must-links are walked level by level from every seed at once, and a group
past the cap stops growing. -/

set_option autoImplicit false

namespace Sreality.Autodedup

open Sreality.Foundation

/-! ### `_Reach` -/

/-- The items met and their pointers. `find` moves no root by halving paths, so the pointers are
kept as they were set. -/
structure Reach where
  forest : SizedForest
  items : List Nat

namespace Reach

def empty : Reach where
  forest := .singletons
  items := []

def add (reach : Reach) (item : Nat) : Reach :=
  if item ∈ reach.items then reach else { reach with items := reach.items ++ [item] }

def find (reach : Reach) (item : Nat) : Nat := reach.forest.find item

def union (reach : Reach) (left right : Nat) : Reach :=
  let reach := (reach.add left).add right
  { reach with forest := reach.forest.union left right }

/-- The count on the item's root. -/
def size (reach : Reach) (item : Nat) : Nat := reach.forest.count (reach.find item)

/-- The classes, ascending within. -/
def groups (reach : Reach) : List (List Nat) :=
  (sortedGroups reach.find reach.items).map Prod.snd

/-- One listing's edges, walked. -/
def expand (reach : Reach) (item : Nat) (others : List Nat) : Reach :=
  others.foldl (fun reach other => (reach.add other).union item other) (reach.add item)

end Reach

/-! ### `_components` -/

/-- `merge_neighbours` of a store: the merge edges of its finitely many listings, both ways. -/
structure MergeGraph where
  neighbours : Nat → List Nat
  listed : List Nat
  inside : ∀ item, ∀ other ∈ neighbours item, other ∈ listed
  symmetric : ∀ item other, other ∈ neighbours item → item ∈ neighbours other

section Components

variable (graph : MergeGraph) (mustLink : List (Nat × Nat))

/-- The other ends of an item's must-links. -/
def mustLinked (item : Nat) : List Nat :=
  mustLink.flatMap fun pair =>
    (if pair.1 = item then [pair.2] else []) ++ (if pair.2 = item then [pair.1] else [])

/-- A listing's merge edges and must-links. -/
def near (item : Nat) : List Nat := graph.neighbours item ++ mustLinked mustLink item

/-- The walk between two levels. -/
structure Walk where
  reach : Reach
  frontier : List Nat
  seen : List Nat

/-- One level: the frontier's edges are walked, and what they found goes on where its group has
not passed the cap. -/
def Walk.level (maxSize : Nat) (walk : Walk) : Walk :=
  let reach := walk.frontier.foldl
    (fun reach item => reach.expand item (near graph mustLink item)) walk.reach
  let seen := walk.seen ++ walk.frontier
  let found := walk.frontier.flatMap (near graph mustLink)
  { reach := reach
    seen := seen
    frontier := sortedIds (found.filter fun item =>
      decide (item ∉ seen ∧ reach.size item ≤ maxSize)).dedup }

/-- The loop's body, and whether it ran. -/
def Walk.sweep (maxSize : Nat) (walk : Walk) : Walk × Bool :=
  if walk.frontier = [] then (walk, false) else (walk.level graph mustLink maxSize, true)

/-- Every item a walk can meet. -/
def walkable (seeds : List Nat) : List Nat :=
  seeds ++ graph.listed ++ mustLink.flatMap fun pair => [pair.1, pair.2]

def Walk.start (seeds : List Nat) : Walk where
  reach := seeds.foldl Reach.add .empty
  frontier := seeds
  seen := []

/-- The walk until its frontier is empty: a level sees an item it had not. -/
def walkFrom (maxSize : Nat) (seeds : List Nat) : Walk :=
  (rounds (Walk.sweep graph mustLink maxSize) ((walkable graph mustLink seeds).length + 1)
    (Walk.start seeds)).1

/-- `_components`: the components within the cap, and the seeds of those past it. -/
def MergeGraph.components (seeds : List Nat) (maxSize : Nat) : List (List Nat) × List Nat :=
  let wanted := sortedIds seeds.dedup
  let groups := sortedIds (walkFrom graph mustLink maxSize wanted).reach.groups
  (groups.filter fun members => decide (members.length ≤ maxSize),
    sortedIds ((groups.filter fun members => decide (maxSize < members.length)).flatMap
      fun members => members.filter fun item => decide (item ∈ wanted)))

/-- The component relation: a chain of merge edges and must-links. -/
abbrev Connected : Nat → Nat → Prop :=
  Relation.EqvGen fun item other => other ∈ graph.neighbours item ∨ (item, other) ∈ mustLink

end Components

/-! ### The union-find of the walk -/

namespace Reach

/-- The counts on the roots are the sizes of their classes, and what was not met is alone. -/
structure WellFormed (reach : Reach) : Prop where
  distinct : reach.items.Nodup
  fresh : ∀ item ∉ reach.items, reach.find item = item ∧ reach.forest.count item = 1
  closed : ∀ item ∈ reach.items, reach.find item ∈ reach.items
  counts : ∀ root ∈ reach.items, reach.find root = root →
    reach.forest.count root = (reach.items.filter fun item => decide (reach.find item = root)).length

theorem WellFormed.empty : Reach.empty.WellFormed where
  distinct := List.nodup_nil
  fresh := fun _ _ => ⟨SizedForest.find_of_root rfl, rfl⟩
  closed := fun _ held => absurd held List.not_mem_nil
  counts := fun _ held => absurd held List.not_mem_nil

@[simp] theorem forest_add (reach : Reach) (item : Nat) :
    (reach.add item).forest = reach.forest := by
  unfold add
  split_ifs <;> rfl

@[simp] theorem find_add (reach : Reach) (item other : Nat) :
    (reach.add item).find other = reach.find other := by
  simp only [find, forest_add]

theorem mem_items_add {reach : Reach} {item other : Nat} :
    other ∈ (reach.add item).items ↔ other = item ∨ other ∈ reach.items := by
  unfold add
  split_ifs with held
  · refine ⟨.inr, ?_⟩
    rintro (rfl | seen)
    · exact held
    · exact seen
  · rw [List.mem_append, List.mem_singleton, or_comm]

theorem WellFormed.add {reach : Reach} (valid : reach.WellFormed) (item : Nat) :
    (reach.add item).WellFormed := by
  by_cases held : item ∈ reach.items
  · have same : reach.add item = reach := if_pos held
    rwa [same]
  · have added : (reach.add item).items = reach.items ++ [item] := by
      unfold Reach.add
      rw [if_neg held]
    obtain ⟨alone, one⟩ := valid.fresh item held
    refine ⟨?_, ?_, ?_, ?_⟩
    · rw [added]
      refine valid.distinct.append (List.nodup_singleton item) ?_
      intro other seen same
      exact held (List.mem_singleton.mp same ▸ seen)
    · intro other unmet
      rw [find_add, forest_add]
      exact valid.fresh other fun met => unmet (mem_items_add.mpr (.inr met))
    · intro other met
      rw [find_add, mem_items_add]
      rcases mem_items_add.mp met with rfl | old
      · exact .inl alone
      · exact .inr (valid.closed other old)
    · intro root met own
      rw [find_add] at own
      simp only [find_add, forest_add, added, List.filter_append, List.length_append]
      rcases mem_items_add.mp met with rfl | old
      · have nothing : (reach.items.filter fun item => decide (reach.find item = root)) = [] := by
          rw [List.filter_eq_nil_iff]
          intro other seen equal
          exact held (of_decide_eq_true equal ▸ valid.closed other seen)
        simp only [one, nothing, List.length_nil, List.filter_cons, own, decide_true, if_true,
          List.filter_nil, List.length_singleton, Nat.zero_add]
      · have other : reach.find item ≠ root := fun same => held (alone ▸ same ▸ old)
        simp only [valid.counts root old own, List.filter_cons, decide_eq_false other,
          Bool.false_eq_true, if_false, List.filter_nil, List.length_nil, Nat.add_zero]

theorem find_union_eq_iff {reach : Reach} {left right one other : Nat} :
    (reach.union left right).find one = (reach.union left right).find other ↔
      reach.find one = reach.find other ∨
        (reach.find one = reach.find left ∨ reach.find one = reach.find right) ∧
          (reach.find other = reach.find left ∨ reach.find other = reach.find right) := by
  unfold union find
  simp only [forest_add]
  exact SizedForest.find_union_eq_iff

theorem items_union (reach : Reach) (left right : Nat) :
    (reach.union left right).items = ((reach.add left).add right).items := rfl

theorem mem_items_union {reach : Reach} {left right item : Nat} :
    item ∈ (reach.union left right).items ↔ item = right ∨ item = left ∨ item ∈ reach.items := by
  rw [items_union, mem_items_add, mem_items_add]

/-- Two disjoint selections, counted together. -/
theorem length_filter_or {items : List Nat} {first second : Nat → Bool}
    (apart : ∀ item, first item = true → second item = false) :
    (items.filter fun item => first item || second item).length =
      (items.filter first).length + (items.filter second).length := by
  induction items with
  | nil => rfl
  | cons item rest ih =>
      cases one : first item with
      | true =>
          have none_ := apart item one
          simp only [List.filter_cons, one, none_, Bool.or_false, if_true, Bool.false_eq_true,
            if_false, List.length_cons, ih]
          omega
      | false =>
          cases two : second item with
          | true =>
              simp only [List.filter_cons, one, two, Bool.or_true, if_true, Bool.false_eq_true,
                if_false, List.length_cons, ih]
              omega
          | false =>
              simp only [List.filter_cons, one, two, Bool.or_false, Bool.false_eq_true, if_false,
                ih]

theorem WellFormed.attach {reach : Reach} (valid : reach.WellFormed) {small large : Nat}
    (apart : small ≠ large) (root : reach.forest.parent large = large)
    (isRoot : reach.forest.parent small = small) (smallMet : small ∈ reach.items)
    (largeMet : large ∈ reach.items) :
    ({ reach with forest := reach.forest.attach small large apart root } : Reach).WellFormed := by
  have found : ∀ item, ({ reach with forest := reach.forest.attach small large apart root } :
      Reach).find item = if reach.find item = small then large else reach.find item :=
    fun item => SizedForest.find_attach apart root isRoot item
  have smallOwn : reach.find small = small := SizedForest.find_of_root isRoot
  have largeOwn : reach.find large = large := SizedForest.find_of_root root
  refine ⟨valid.distinct, ?_, ?_, ?_⟩
  · intro item unmet
    obtain ⟨alone, one⟩ := valid.fresh item unmet
    have notSmall : item ≠ small := fun same => unmet (same ▸ smallMet)
    have notLarge : item ≠ large := fun same => unmet (same ▸ largeMet)
    rw [found, alone, if_neg notSmall]
    exact ⟨rfl, (Function.update_of_ne notLarge ..).trans one⟩
  · intro item met
    rw [found]
    split_ifs
    · exact largeMet
    · exact valid.closed item met
  · intro item met own
    rw [found] at own
    simp only [found]
    by_cases grown : item = large
    · subst grown
      have split : ∀ other, decide ((if reach.find other = small then item else reach.find other) =
          item) = (decide (reach.find other = item) || decide (reach.find other = small)) := by
        intro other
        split_ifs with under
        · simp only [under, decide_true, Bool.or_true]
        · simp only [under, decide_false, Bool.or_false]
      simp only [split]
      rw [length_filter_or, ← valid.counts item largeMet largeOwn,
        ← valid.counts small smallMet smallOwn]
      · exact Function.update_self ..
      · intro other atLarge
        have equal := of_decide_eq_true atLarge
        exact decide_eq_false fun atSmall => apart (atSmall.symm.trans equal)
    · have self : reach.find item = item := by
        split_ifs at own with under
        · exact absurd own.symm grown
        · exact own
      have notSmall : item ≠ small := by
        rintro rfl
        rw [if_pos self] at own
        exact apart own.symm
      have same : ∀ other, decide ((if reach.find other = small then large else reach.find other) =
          item) = decide (reach.find other = item) := by
        intro other
        split_ifs with under
        · rw [under]
          simp only [decide_eq_decide]
          exact ⟨fun equal => absurd equal.symm grown, fun equal => absurd equal.symm notSmall⟩
        · rfl
      simp only [same]
      exact (Function.update_of_ne grown ..).trans (valid.counts item met self)

theorem WellFormed.union {reach : Reach} (valid : reach.WellFormed) (left right : Nat) :
    (reach.union left right).WellFormed := by
  have added := (valid.add left).add right
  have leftMet : left ∈ ((reach.add left).add right).items :=
    mem_items_add.mpr (.inr (mem_items_add.mpr (.inl rfl)))
  have rightMet : right ∈ ((reach.add left).add right).items := mem_items_add.mpr (.inl rfl)
  unfold Reach.union
  dsimp only
  by_cases same : ((reach.add left).add right).forest.find left =
      ((reach.add left).add right).forest.find right
  · rw [SizedForest.union_of_same same]
    exact added
  · obtain ⟨small, large, differ, root, isRoot, ends, united⟩ :=
      SizedForest.union_of_apart same
    rw [united]
    refine added.attach differ root isRoot ?_ ?_
    · rcases ends with ⟨rfl, _⟩ | ⟨rfl, _⟩
      · exact added.closed left leftMet
      · exact added.closed right rightMet
    · rcases ends with ⟨_, rfl⟩ | ⟨_, rfl⟩
      · exact added.closed right rightMet
      · exact added.closed left leftMet

/-- The size of a met item is how many share its root. -/
theorem WellFormed.size_eq {reach : Reach} (valid : reach.WellFormed) {item : Nat}
    (met : item ∈ reach.items) :
    reach.size item =
      (reach.items.filter fun other => decide (reach.find other = reach.find item)).length :=
  valid.counts _ (valid.closed item met) (SizedForest.find_find _ item)

end Reach

end Sreality.Autodedup
