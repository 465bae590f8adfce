import Mathlib.Order.Lattice
import Sreality.Foundation.Tables

/-! The newest row of each key: `SELECT DISTINCT ON (key) … ORDER BY key, order DESC`. -/

set_option autoImplicit false

namespace Sreality.Foundation

variable {Row Key κ : Type} [LinearOrder κ]

/-- The row of the highest order, the first of equals. -/
def newestOf (order : Row → κ) : List Row → Option Row
  | [] => none
  | row :: rest =>
      match newestOf order rest with
      | none => some row
      | some later => if order row < order later then some later else some row

theorem newestOf_isSome (order : Row → κ) {rows : List Row} {row : Row} (held : row ∈ rows) :
    ∃ newest, newestOf order rows = some newest := by
  cases rows with
  | nil => cases held
  | cons first rest =>
      unfold newestOf
      cases newestOf order rest with
      | none => exact ⟨first, rfl⟩
      | some later =>
          dsimp only
          split_ifs
          · exact ⟨later, rfl⟩
          · exact ⟨first, rfl⟩

theorem newestOf_spec {order : Row → κ} {rows : List Row} {newest : Row}
    (found : newestOf order rows = some newest) :
    newest ∈ rows ∧ ∀ row ∈ rows, order row ≤ order newest := by
  induction rows generalizing newest with
  | nil => cases found
  | cons first rest ih =>
      unfold newestOf at found
      cases later : newestOf order rest with
      | none =>
          rw [later] at found
          cases found
          refine ⟨List.mem_cons_self, ?_⟩
          intro row held
          cases List.mem_cons.mp held with
          | inl same => exact le_of_eq (congrArg order same)
          | inr behind =>
              obtain ⟨other, known⟩ := newestOf_isSome order behind
              rw [later] at known
              cases known
      | some last =>
          obtain ⟨held, highest⟩ := ih later
          rw [later] at found
          dsimp only at found
          split_ifs at found with below
          · cases found
            refine ⟨List.mem_cons_of_mem _ held, ?_⟩
            intro row among
            cases List.mem_cons.mp among with
            | inl same => exact same ▸ le_of_lt below
            | inr behind => exact highest row behind
          · cases found
            refine ⟨List.mem_cons_self, ?_⟩
            intro row among
            cases List.mem_cons.mp among with
            | inl same => exact le_of_eq (congrArg order same)
            | inr behind => exact (highest row behind).trans (not_lt.mp below)

variable [DecidableEq Key]

/-- The newest row of each key, the keys in the order they first come. -/
def distinctOn (key : Row → Key) (order : Row → κ) (rows : List Row) : List Row :=
  (rows.map key).eraseDups.filterMap fun own =>
    newestOf order (rows.filter fun row => decide (key row = own))

/-- A row stands when no row of its key is newer. -/
def Stands (key : Row → Key) (order : Row → κ) (rows : List Row) (row : Row) : Prop :=
  row ∈ rows ∧ ∀ other ∈ rows, key other = key row → order other ≤ order row

theorem mem_distinctOn {key : Row → Key} {order : Row → κ} {rows : List Row}
    (apart : ∀ row ∈ rows, ∀ other ∈ rows, order row = order other → row = other) {row : Row} :
    row ∈ distinctOn key order rows ↔ Stands key order rows row := by
  constructor
  · intro listed
    obtain ⟨own, _, found⟩ := List.mem_filterMap.mp listed
    obtain ⟨held, highest⟩ := newestOf_spec found
    obtain ⟨held, same⟩ := List.mem_filter.mp held
    refine ⟨held, ?_⟩
    intro other among shared
    apply highest
    rw [of_decide_eq_true same] at shared
    exact List.mem_filter.mpr ⟨among, decide_eq_true shared⟩
  · intro ⟨held, highest⟩
    have own : row ∈ rows.filter fun other => decide (key other = key row) :=
      List.mem_filter.mpr ⟨held, decide_eq_true rfl⟩
    obtain ⟨newest, found⟩ := newestOf_isSome order own
    obtain ⟨among, above⟩ := newestOf_spec found
    obtain ⟨among, shared⟩ := List.mem_filter.mp among
    have same : newest = row := by
      apply apart newest among row held
      exact le_antisymm (highest newest among (of_decide_eq_true shared)) (above row own)
    refine List.mem_filterMap.mpr ⟨key row, ?_, same ▸ found⟩
    exact List.mem_eraseDups.mpr (List.mem_map_of_mem held)

end Sreality.Foundation
