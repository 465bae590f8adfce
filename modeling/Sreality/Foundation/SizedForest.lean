import Mathlib.Logic.Function.Basic
import Mathlib.Order.Nat
import Mathlib.Tactic.SplitIfs

/-! Disjoint sets united by size. Every item carries a count, on a root the size of its class;
the smaller root is pointed at the larger, so a pointer leads to a larger count and climbing
terminates. -/

set_option autoImplicit false

namespace Sreality.Foundation

/-- Parent pointers and counts; a root points at itself, and no count passes `top`. -/
structure SizedForest where
  parent : Nat → Nat
  count : Nat → Nat
  top : Nat
  counted : ∀ item, 0 < count item
  within : ∀ item, count item ≤ top
  climbs : ∀ item, parent item ≠ item → count item < count (parent item)

namespace SizedForest

/-- Every item its own root, a class of one. -/
def singletons : SizedForest where
  parent := id
  count := fun _ => 1
  top := 1
  counted := fun _ => Nat.one_pos
  within := fun _ => le_rfl
  climbs := fun _ moved => absurd rfl moved

/-- Follow pointers for at most `fuel` steps. -/
def climb (forest : SizedForest) : Nat → Nat → Nat
  | 0, item => item
  | fuel + 1, item =>
      if forest.parent item = item then item else forest.climb fuel (forest.parent item)

/-- The root of an item. -/
def find (forest : SizedForest) (item : Nat) : Nat := forest.climb forest.top item

/-- Point one item at a root, which takes over its count. -/
def attach (forest : SizedForest) (small large : Nat) (apart : small ≠ large)
    (root : forest.parent large = large) : SizedForest where
  parent := Function.update forest.parent small large
  count := Function.update forest.count large (forest.count large + forest.count small)
  top := forest.top + forest.top
  counted := by
    intro item
    by_cases same : item = large
    · subst same
      rw [Function.update_self]
      exact Nat.add_pos_left (forest.counted item) _
    · rw [Function.update_of_ne same]
      exact forest.counted item
  within := by
    intro item
    by_cases same : item = large
    · subst same
      rw [Function.update_self]
      exact Nat.add_le_add (forest.within item) (forest.within small)
    · rw [Function.update_of_ne same]
      exact (forest.within item).trans (Nat.le_add_right _ _)
  climbs := by
    intro item moved
    have lighter := forest.counted large
    by_cases attached : item = small
    · subst attached
      rw [Function.update_self, Function.update_self, Function.update_of_ne apart]
      omega
    · rw [Function.update_of_ne attached] at moved ⊢
      have up := forest.climbs item moved
      have below : item ≠ large := fun same => moved (same ▸ root)
      rw [Function.update_of_ne below]
      by_cases under : forest.parent item = large
      · rw [under] at up ⊢
        rw [Function.update_self]
        omega
      · rw [Function.update_of_ne under]
        exact up

/-! ### Climbing -/

section Climbing

variable (forest : SizedForest)

theorem top_pos : 0 < forest.top := (forest.counted 0).trans_le (forest.within 0)

theorem parent_climb : ∀ fuel item, forest.top ≤ fuel + forest.count item →
    forest.parent (forest.climb fuel item) = forest.climb fuel item := by
  intro fuel
  induction fuel with
  | zero =>
      intro item enough
      by_contra moved
      have up := forest.climbs item moved
      have bound := forest.within (forest.parent item)
      omega
  | succ fuel ih =>
      intro item enough
      unfold climb
      split_ifs with root
      · exact root
      · have up := forest.climbs item root
        exact ih _ (by omega)

theorem climb_of_root {forest : SizedForest} {item : Nat} (root : forest.parent item = item) :
    ∀ fuel, forest.climb fuel item = item
  | 0 => rfl
  | _ + 1 => if_pos root

/-- Fuel past what an item needs changes nothing. -/
theorem climb_succ : ∀ fuel item, forest.top ≤ fuel + forest.count item →
    forest.climb (fuel + 1) item = forest.climb fuel item := by
  intro fuel
  induction fuel with
  | zero =>
      intro item enough
      have root := forest.parent_climb 0 item enough
      exact climb_of_root root 1
  | succ fuel ih =>
      intro item enough
      by_cases root : forest.parent item = item
      · rw [climb_of_root root, climb_of_root root]
      · have up := forest.climbs item root
        have later := ih (forest.parent item) (by omega)
        calc forest.climb (fuel + 1 + 1) item
            = forest.climb (fuel + 1) (forest.parent item) := if_neg root
          _ = forest.climb fuel (forest.parent item) := later
          _ = forest.climb (fuel + 1) item := (if_neg root).symm

@[simp] theorem parent_find (item : Nat) :
    forest.parent (forest.find item) = forest.find item :=
  forest.parent_climb _ item (Nat.le_add_right _ _)

theorem find_of_root {forest : SizedForest} {item : Nat} (root : forest.parent item = item) :
    forest.find item = item := climb_of_root root _

@[simp] theorem find_find (item : Nat) : forest.find (forest.find item) = forest.find item :=
  find_of_root (forest.parent_find item)

theorem find_parent (item : Nat) : forest.find (forest.parent item) = forest.find item := by
  by_cases root : forest.parent item = item
  · rw [root]
  · obtain ⟨fuel, same⟩ := Nat.exists_eq_succ_of_ne_zero forest.top_pos.ne'
    have counted := forest.counted (forest.parent item)
    have enough : forest.top ≤ fuel + forest.count (forest.parent item) := by omega
    calc forest.find (forest.parent item)
        = forest.climb (fuel + 1) (forest.parent item) := by rw [find, same]
      _ = forest.climb fuel (forest.parent item) := forest.climb_succ fuel _ enough
      _ = forest.climb (fuel + 1) item := (if_neg root).symm
      _ = forest.find item := by rw [find, same]

/-- Along the pointers, root first. -/
theorem climbInduction {motive : Nat → Prop}
    (root : ∀ item, forest.parent item = item → motive item)
    (step : ∀ item, forest.parent item ≠ item → motive (forest.parent item) → motive item) :
    ∀ item, motive item := by
  have bounded : ∀ room item, forest.top ≤ room + forest.count item → motive item := by
    intro room
    induction room with
    | zero =>
        intro item enough
        exact root item (forest.parent_climb 0 item enough)
    | succ room ih =>
        intro item enough
        by_cases isRoot : forest.parent item = item
        · exact root item isRoot
        · have up := forest.climbs item isRoot
          exact step item isRoot (ih _ (by omega))
  exact fun item => bounded forest.top item (Nat.le_add_right _ _)

end Climbing

/-! ### Uniting -/

section Uniting

variable {forest : SizedForest}

/-- What pointing one root at another does to every root. -/
theorem find_attach {small large : Nat} (apart : small ≠ large)
    (root : forest.parent large = large) (isRoot : forest.parent small = small) (item : Nat) :
    (forest.attach small large apart root).find item =
      if forest.find item = small then large else forest.find item := by
  have kept : (forest.attach small large apart root).parent large = large := by
    change Function.update forest.parent small large large = large
    rw [Function.update_of_ne apart.symm]
    exact root
  induction item using forest.climbInduction with
  | root item own =>
      rw [find_of_root own]
      split_ifs with same
      · subst same
        have pointed : (forest.attach item large apart root).parent item = large :=
          Function.update_self ..
        rw [← find_parent, pointed]
        exact find_of_root kept
      · refine find_of_root ?_
        change Function.update forest.parent small large item = item
        rw [Function.update_of_ne same]
        exact own
  | step item moved ih =>
      have other : item ≠ small := fun same => moved (same ▸ isRoot)
      have pointed : (forest.attach small large apart root).parent item = forest.parent item :=
        Function.update_of_ne other ..
      rw [← find_parent, pointed, ih, forest.find_parent]

/-- Unite two classes: the root of the smaller is pointed at the root of the larger. -/
def union (forest : SizedForest) (left right : Nat) : SizedForest :=
  let one := forest.find left
  let other := forest.find right
  if same : one = other then forest
  else if forest.count one < forest.count other then
    forest.attach one other same (forest.parent_find right)
  else forest.attach other one (Ne.symm same) (forest.parent_find left)

theorem union_of_same {left right : Nat} (same : forest.find left = forest.find right) :
    forest.union left right = forest := dif_pos same

/-- Of two apart, one root is pointed at the other. -/
theorem union_of_apart {left right : Nat} (apart : forest.find left ≠ forest.find right) :
    ∃ small large, ∃ differ : small ≠ large, ∃ root : forest.parent large = large,
      forest.parent small = small ∧
      (small = forest.find left ∧ large = forest.find right ∨
        small = forest.find right ∧ large = forest.find left) ∧
      forest.union left right = forest.attach small large differ root := by
  unfold union
  dsimp only
  rw [dif_neg apart]
  split_ifs with lighter
  · exact ⟨_, _, apart, forest.parent_find right, forest.parent_find left, .inl ⟨rfl, rfl⟩, rfl⟩
  · exact ⟨_, _, apart.symm, forest.parent_find left, forest.parent_find right, .inr ⟨rfl, rfl⟩,
      rfl⟩

theorem find_union_eq_iff {left right one other : Nat} :
    (forest.union left right).find one = (forest.union left right).find other ↔
      forest.find one = forest.find other ∨
        (forest.find one = forest.find left ∨ forest.find one = forest.find right) ∧
          (forest.find other = forest.find left ∨ forest.find other = forest.find right) := by
  by_cases same : forest.find left = forest.find right
  · rw [union_of_same same]
    constructor
    · exact .inl
    · rintro (equal | ⟨first, second⟩)
      · exact equal
      · rw [same, or_self] at first second
        exact first.trans second.symm
  · obtain ⟨small, large, differ, root, isRoot, ends, united⟩ := union_of_apart same
    rw [united, find_attach differ root isRoot, find_attach differ root isRoot]
    rcases ends with ⟨rfl, rfl⟩ | ⟨rfl, rfl⟩
    · grind
    · grind

end Uniting

end SizedForest

end Sreality.Foundation
