import Mathlib.Data.Finset.Defs
import Mathlib.Data.List.Sort
import Mathlib.Data.List.Dedup

/-! Stable sorting by a key, as a language's `sorted(values, key=key)` does it:
values of equal key keep the order they had. The laws here say when the order
of the input can be read off the output, and that a selection commutes with
the sort, parallel keys included. -/

set_option autoImplicit false

namespace Sreality.Foundation

/-! The keys that are pairs or lists: every table decides membership by the same instance. -/

instance lawfulNatPairs : LawfulBEq (Nat × Nat) := inferInstance

instance lawfulStringPairs : LawfulBEq (String × String) := inferInstance

instance lawfulNatLists : LawfulBEq (List Nat) := inferInstance

variable {α κ : Type} [LinearOrder κ]

/-- Stable ascending sort by `key`. -/
def sortedBy (key : α → κ) (values : List α) : List α :=
  values.insertionSort (fun left right => key left ≤ key right)

/-- Ascending sort of the values themselves. -/
abbrev sortedIds (values : List κ) : List κ := sortedBy id values

theorem sortedBy_perm (key : α → κ) (values : List α) :
    (sortedBy key values).Perm values :=
  List.perm_insertionSort _ values

@[simp] theorem mem_sortedBy {key : α → κ} {values : List α} {value : α} :
    value ∈ sortedBy key values ↔ value ∈ values :=
  (sortedBy_perm key values).mem_iff

theorem mem_of_sortedBy_eq_cons {key : α → κ} {values rest : List α} {first : α}
    (sorted : sortedBy key values = first :: rest) : first ∈ values := by
  rw [← (sortedBy_perm key values).mem_iff, sorted]
  exact List.mem_cons_self

@[simp] theorem sortedBy_nil (key : α → κ) : sortedBy key [] = [] := rfl

@[simp] theorem sortedBy_singleton (key : α → κ) (value : α) :
    sortedBy key [value] = [value] := rfl

@[simp] theorem length_sortedBy (key : α → κ) (values : List α) :
    (sortedBy key values).length = values.length :=
  (sortedBy_perm key values).length_eq

@[simp] theorem sortedBy_eq_nil {key : α → κ} {values : List α} :
    sortedBy key values = [] ↔ values = [] := by
  rw [← List.length_eq_zero_iff, length_sortedBy, List.length_eq_zero_iff]

@[simp] theorem nodup_sortedBy {key : α → κ} {values : List α} :
    (sortedBy key values).Nodup ↔ values.Nodup :=
  (sortedBy_perm key values).nodup_iff

/-- A value no smaller than the others goes last. -/
theorem sortedBy_concat {key : α → κ} {values : List α} {value : α}
    (last : ∀ other ∈ values, key other ≤ key value) :
    sortedBy key (values ++ [value]) = sortedBy key values ++ [value] := by
  have placed : ∀ (sorted : List α) (other : α), key other ≤ key value →
      (sorted ++ [value]).orderedInsert (fun left right => key left ≤ key right) other =
        sorted.orderedInsert (fun left right => key left ≤ key right) other ++ [value] := by
    intro sorted other before
    induction sorted with
    | nil => simp [before]
    | cons first rest ih =>
        rw [List.cons_append, List.orderedInsert_cons, List.orderedInsert_cons, ih]
        split_ifs <;> rfl
  unfold sortedBy
  induction values with
  | nil => rfl
  | cons first rest ih =>
      rw [List.cons_append, List.insertionSort_cons, List.insertionSort_cons,
        ih fun other held => last other (List.mem_cons_of_mem _ held)]
      exact placed _ first (last first List.mem_cons_self)

private instance keyOrderTotal (key : α → κ) :
    Std.Total (fun left right : α => key left ≤ key right) :=
  ⟨fun left right => le_total (key left) (key right)⟩

private instance keyOrderTrans (key : α → κ) :
    IsTrans α (fun left right : α => key left ≤ key right) :=
  ⟨fun _ _ _ first second => le_trans first second⟩

theorem pairwise_sortedBy (key : α → κ) (values : List α) :
    (sortedBy key values).Pairwise (fun left right => key left ≤ key right) :=
  List.pairwise_insertionSort _ values

/-- The first of the sort is one of the least, as `min(values, key=key)` picks it. -/
theorem least_of_head?_sortedBy {key : α → κ} {values : List α} {first : α}
    (leads : (sortedBy key values).head? = some first) :
    first ∈ values ∧ ∀ value ∈ values, key first ≤ key value := by
  obtain ⟨rest, sorted⟩ := List.head?_eq_some_iff.mp leads
  refine ⟨mem_of_sortedBy_eq_cons sorted, fun value listed => ?_⟩
  have ascending := pairwise_sortedBy key values
  have held : value ∈ sortedBy key values := mem_sortedBy.mpr listed
  rw [sorted] at ascending held
  rcases List.mem_cons.mp held with rfl | later
  · exact le_rfl
  · exact (List.pairwise_cons.mp ascending).1 value later

/-- The sort reads the input's order only through values that share a key. -/
theorem sortedBy_eq_of_perm {key : α → κ} {left right : List α}
    (same : left.Perm right)
    (separates : ∀ first ∈ left, ∀ second ∈ left, key first = key second → first = second) :
    sortedBy key left = sortedBy key right := by
  have reordered : (sortedBy key left).Perm (sortedBy key right) :=
    (sortedBy_perm key left).trans (same.trans (sortedBy_perm key right).symm)
  refine reordered.eq_of_pairwise ?_ (pairwise_sortedBy key left) (pairwise_sortedBy key right)
  intro first second firstMember secondMember below above
  have firstIn := mem_sortedBy.mp firstMember
  have secondIn := same.mem_iff.mpr (mem_sortedBy.mp secondMember)
  exact separates first firstIn second secondIn (le_antisymm below above)

theorem sortedIds_eq_of_perm {left right : List κ} (same : left.Perm right) :
    sortedIds left = sortedIds right :=
  sortedBy_eq_of_perm same (fun _ _ _ _ equal => equal)

/-- The members of a finite set, ascending. -/
def ascending (values : Finset κ) : List κ :=
  values.val.liftOn sortedIds fun _ _ same => sortedIds_eq_of_perm same

@[simp] theorem mem_ascending {values : Finset κ} {value : κ} :
    value ∈ ascending values ↔ value ∈ values := by
  obtain ⟨members, distinct⟩ := values
  induction members using Quot.inductionOn with
  | h listed => exact mem_sortedBy

theorem sortedIds_ascends {values : List κ} (distinct : values.Nodup) :
    (sortedIds values).Pairwise (· < ·) := by
  have weak : (sortedIds values).Pairwise (· ≤ ·) := pairwise_sortedBy id values
  have apart : (sortedIds values).Pairwise (· ≠ ·) :=
    (sortedBy_perm id values).nodup_iff.mpr distinct
  exact (weak.and apart).imp fun both => lt_of_le_of_ne both.1 both.2

/-- No member stands twice. -/
theorem ascending_ascends (values : Finset κ) : (ascending values).Pairwise (· < ·) := by
  obtain ⟨members, distinct⟩ := values
  induction members using Quot.inductionOn with
  | h listed => exact sortedIds_ascends (Multiset.coe_nodup.mp distinct)

theorem sortedIds_eq_of_mem_iff {left right : List κ} (leftUnique : left.Nodup)
    (rightUnique : right.Nodup) (same : ∀ value, value ∈ left ↔ value ∈ right) :
    sortedIds left = sortedIds right :=
  sortedIds_eq_of_perm ((List.perm_ext_iff_of_nodup leftUnique rightUnique).mpr same)

theorem sortedBy_eq_self {key : α → κ} {values : List α}
    (ascending : values.Pairwise (fun left right => key left ≤ key right)) :
    sortedBy key values = values :=
  ascending.insertionSort_eq

@[simp] theorem sortedBy_sortedBy (key : α → κ) (values : List α) :
    sortedBy key (sortedBy key values) = sortedBy key values :=
  sortedBy_eq_self (pairwise_sortedBy key values)

/-- What the first of the sort leave out is above them all. -/
theorem mem_take_sortedIds {values : List κ} (distinct : values.Nodup) {value : κ}
    (held : value ∈ values) (size : Nat) :
    value ∈ (sortedIds values).take size ∨ size ≤ ((sortedIds values).take size).length ∧
      ∀ other ∈ (sortedIds values).take size, other < value := by
  have sorted : value ∈ (sortedIds values).take size ++ (sortedIds values).drop size := by
    rw [List.take_append_drop]
    exact mem_sortedBy.mpr held
  cases List.mem_append.mp sorted with
  | inl first => exact .inl first
  | inr later =>
      right
      have longer := List.length_pos_of_mem later
      rw [List.length_drop] at longer
      refine ⟨by rw [List.length_take]; omega, fun other first => ?_⟩
      have ascending := pairwise_sortedBy id values
      have apart := (nodup_sortedBy.mpr distinct : (sortedBy id values).Nodup)
      rw [← List.take_append_drop size (sortedBy id values)] at ascending apart
      exact lt_of_le_of_ne ((List.pairwise_append.mp ascending).2.2 other first value later)
        ((List.nodup_append.mp apart).2.2 other first value later)

/-- A change of the rows that keeps their keys keeps their places. -/
theorem sortedBy_map_of {β : Type} (key : α → κ) {other : β → κ} {change : α → β}
    (keeps : ∀ value, other (change value) = key value) (values : List α) :
    sortedBy other (values.map change) = (sortedBy key values).map change := by
  unfold sortedBy
  refine (List.map_insertionSort _ _ change values ?_).symm
  intro left _ right _
  rw [keeps, keeps]

theorem sortedBy_map {key : α → κ} {change : α → α} (keeps : ∀ value, key (change value) = key value)
    (values : List α) : sortedBy key (values.map change) = (sortedBy key values).map change :=
  sortedBy_map_of key keeps values

private theorem orderedInsert_eq_cons {key : α → κ} {value : α} {values : List α}
    (least : ∀ other ∈ values, key value ≤ key other) :
    values.orderedInsert (fun left right => key left ≤ key right) value = value :: values := by
  cases values with
  | nil => rfl
  | cons head tail => exact if_pos (least head List.mem_cons_self)

private theorem filter_orderedInsert (key : α → κ) (keep : α → Bool) (value : α) :
    ∀ values : List α, values.Pairwise (fun left right => key left ≤ key right) →
      (values.orderedInsert (fun left right => key left ≤ key right) value).filter keep =
        if keep value then
          (values.filter keep).orderedInsert (fun left right => key left ≤ key right) value
        else values.filter keep := by
  intro values ascending
  induction values with
  | nil => cases kept : keep value <;> simp [kept]
  | cons head tail ih =>
      obtain ⟨below, tailAscending⟩ := List.pairwise_cons.mp ascending
      rw [List.orderedInsert_cons]
      by_cases first : key value ≤ key head
      · rw [if_pos first]
        cases kept : keep value with
        | false => simp [kept]
        | true =>
            rw [List.filter_cons_of_pos kept, if_pos rfl]
            refine (orderedInsert_eq_cons ?_).symm
            intro other member
            rcases List.mem_cons.mp (List.mem_of_mem_filter member) with rfl | later
            · exact first
            · exact le_trans first (below other later)
      · rw [if_neg first]
        cases keptHead : keep head with
        | false => rw [List.filter_cons_of_neg (by simp [keptHead]), ih tailAscending,
            List.filter_cons_of_neg (by simp [keptHead])]
        | true =>
            rw [List.filter_cons_of_pos keptHead, ih tailAscending,
              List.filter_cons_of_pos keptHead]
            cases kept : keep value with
            | false => simp
            | true => simp [first]

/-- Selecting before the sort or after it is one list, parallel keys included:
this is where stability is used. -/
theorem filter_sortedBy (key : α → κ) (keep : α → Bool) (values : List α) :
    (sortedBy key values).filter keep = sortedBy key (values.filter keep) := by
  induction values with
  | nil => rfl
  | cons head tail ih =>
      change ((sortedBy key tail).orderedInsert _ head).filter keep = _
      rw [filter_orderedInsert key keep head _ (pairwise_sortedBy key tail), ih]
      cases kept : keep head with
      | false => simp [kept]
      | true =>
          rw [List.filter_cons_of_pos kept]
          rfl

end Sreality.Foundation
