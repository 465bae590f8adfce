import Mathlib.Data.List.Basic
import Mathlib.Logic.Relation
import Mathlib.Order.Lattice

/-! Loops over explicit state: a fold that carries an invariant, and a sweep
repeated while it reports that something moved. -/

set_option autoImplicit false

namespace Sreality.Foundation

variable {σ α : Type}

/-- An invariant each step keeps holds after the whole fold. -/
theorem foldl_invariant {step : σ → α → σ} (holds : σ → Prop) :
    ∀ {values : List α} {start : σ},
      (∀ state, holds state → ∀ value ∈ values, holds (step state value)) →
        holds start → holds (values.foldl step start) := by
  intro values
  induction values with
  | nil => exact fun _ initial => initial
  | cons head rest ih =>
      intro start keeps initial
      exact ih (fun state held value member => keeps state held value (List.mem_cons_of_mem _ member))
        (keeps start initial head List.mem_cons_self)

/-- Two folds agree when their steps agree on the states the first can reach. -/
theorem foldl_congr_of_invariant {step other : σ → α → σ} (holds : σ → Prop) :
    ∀ {values : List α} {start : σ},
      (∀ state, holds state → ∀ value ∈ values, holds (step state value)) →
        (∀ state, holds state → ∀ value ∈ values, step state value = other state value) →
          holds start → values.foldl step start = values.foldl other start := by
  intro values
  induction values with
  | nil => exact fun _ _ _ => rfl
  | cons head rest ih =>
      intro start keeps same initial
      rw [List.foldl_cons, List.foldl_cons, ← same start initial head List.mem_cons_self]
      exact ih
        (fun state held value member => keeps state held value (List.mem_cons_of_mem _ member))
        (fun state held value member => same state held value (List.mem_cons_of_mem _ member))
        (keeps start initial head List.mem_cons_self)

/-- Two folds over two selections of one list keep a relation that each value, folded by
whichever side selects it, keeps. -/
theorem foldl_filter_related {τ : Type} {step : σ → α → σ} {other : τ → α → τ}
    {keep keepOther : α → Bool} (related : σ → τ → Prop) :
    ∀ {values : List α} {left : σ} {right : τ},
      (∀ left right, related left right → ∀ value ∈ values,
        related (if keep value = true then step left value else left)
          (if keepOther value = true then other right value else right)) →
        related left right →
          related ((values.filter keep).foldl step left)
            ((values.filter keepOther).foldl other right) := by
  intro values
  induction values with
  | nil => exact fun _ initial => initial
  | cons head rest ih =>
      intro left right keeps initial
      have first := keeps left right initial head List.mem_cons_self
      have later := ih (fun left right held value member =>
        keeps left right held value (List.mem_cons_of_mem _ member)) first
      rw [List.filter_cons, List.filter_cons]
      split_ifs at later ⊢ <;> exact later

/-- Repeat a sweep at most `fuel` times, stopping at the first that moves
nothing; the flag says whether any sweep moved. -/
def rounds (sweep : σ → σ × Bool) : Nat → σ → σ × Bool
  | 0, state => (state, false)
  | fuel + 1, state =>
      let swept := sweep state
      if swept.2 then ((rounds sweep fuel swept.1).1, true) else (swept.1, false)

theorem rounds_invariant {sweep : σ → σ × Bool} (holds : σ → Prop)
    (keeps : ∀ state, holds state → holds (sweep state).1) :
    ∀ fuel {state : σ}, holds state → holds (rounds sweep fuel state).1 := by
  intro fuel
  induction fuel with
  | zero => exact fun initial => initial
  | succ fuel ih =>
      intro state initial
      unfold rounds
      dsimp only
      split_ifs
      · exact ih (keeps state initial)
      · exact keeps state initial

theorem rounds_congr {sweep other : σ → σ × Bool} (holds : σ → Prop)
    (keeps : ∀ state, holds state → holds (sweep state).1)
    (same : ∀ state, holds state → sweep state = other state) :
    ∀ fuel {state : σ}, holds state → rounds sweep fuel state = rounds other fuel state := by
  intro fuel
  induction fuel with
  | zero => exact fun _ => rfl
  | succ fuel ih =>
      intro state initial
      unfold rounds
      rw [← same state initial]
      dsimp only
      rw [ih (keeps state initial)]

/-- With fuel for a measure that each moving sweep lowers, the last sweep moves nothing. -/
theorem rounds_settled_of_invariant {sweep : σ → σ × Bool} (holds : σ → Prop) (measure : σ → Nat)
    (keeps : ∀ state, holds state → holds (sweep state).1)
    (lowers : ∀ state, holds state → (sweep state).2 = true →
      measure (sweep state).1 < measure state)
    (still : ∀ state, (sweep state).2 = false → (sweep state).1 = state) :
    ∀ fuel {state : σ}, holds state → measure state < fuel →
      (sweep (rounds sweep fuel state).1).2 = false := by
  intro fuel
  induction fuel with
  | zero => exact fun _ short => absurd short (Nat.not_lt_zero _)
  | succ fuel ih =>
      intro state initial enough
      unfold rounds
      dsimp only
      split_ifs with moved
      · exact ih (keeps state initial)
          (Nat.lt_of_lt_of_le (lowers state initial moved) (Nat.le_of_lt_succ enough))
      · have settled := Bool.eq_false_iff.mpr moved
        rw [still state settled]
        exact settled

theorem rounds_settled {sweep : σ → σ × Bool} (measure : σ → Nat)
    (lowers : ∀ state, (sweep state).2 = true → measure (sweep state).1 < measure state)
    (still : ∀ state, (sweep state).2 = false → (sweep state).1 = state) (fuel : Nat) {state : σ}
    (enough : measure state < fuel) : (sweep (rounds sweep fuel state).1).2 = false :=
  rounds_settled_of_invariant (fun _ => True) measure (fun _ _ => trivial)
    (fun state _ => lowers state) still fuel trivial enough

/-- Rounds that report nothing moved leave the state as it was, and so would one more sweep. -/
theorem rounds_still {sweep : σ → σ × Bool}
    (still : ∀ state, (sweep state).2 = false → (sweep state).1 = state) {fuel : Nat} {state : σ}
    (nothing : (rounds sweep fuel state).2 = false) : (rounds sweep fuel state).1 = state := by
  cases fuel with
  | zero => rfl
  | succ fuel =>
      unfold rounds at nothing ⊢
      dsimp only at nothing ⊢
      split_ifs at nothing ⊢ with moved
      exact still state (Bool.eq_false_iff.mpr moved)

theorem rounds_of_moved {sweep : σ → σ × Bool} {fuel : Nat} {state : σ}
    (moved : (sweep state).2 = true) : (rounds sweep (fuel + 1) state).2 = true := by
  unfold rounds
  simp only [moved, if_true]

/-! ### Climbing

A step that raises a value drawn from finitely many levels can be taken only so often. -/

section Climbing

variable {κ : Type} [LinearOrder κ] {levels : List κ}

/-- How many levels lie above a value. -/
def levelsAbove (levels : List κ) (value : κ) : Nat :=
  levels.countP fun level => decide (value < level)

theorem levelsAbove_le (levels : List κ) (value : κ) : levelsAbove levels value ≤ levels.length :=
  List.countP_le_length

theorem levelsAbove_mono {low high : κ} (climbs : low ≤ high) :
    levelsAbove levels high ≤ levelsAbove levels low := by
  refine List.countP_mono_left fun level _ above => ?_
  rw [decide_eq_true_iff] at above ⊢
  exact lt_of_le_of_lt climbs above

theorem levelsAbove_lt {low high : κ} (climbs : low < high) (listed : high ∈ levels) :
    levelsAbove levels high < levelsAbove levels low := by
  induction levels with
  | nil => cases listed
  | cons level rest ih =>
      have others : levelsAbove rest high ≤ levelsAbove rest low := levelsAbove_mono (le_of_lt climbs)
      unfold levelsAbove at ih others ⊢
      rw [List.countP_cons, List.countP_cons]
      by_cases here : high = level
      · subst here
        rw [if_neg (by simp), if_pos (by simpa using climbs)]
        omega
      · have later := ih ((List.mem_cons.mp listed).resolve_left here)
        split_ifs with above below
        · omega
        · rw [decide_eq_true_iff] at above
          exact absurd (decide_eq_true (lt_trans climbs above)) below
        · omega
        · omega

variable {step : σ → σ → Prop} {holds : σ → Prop} {value : σ → κ}

/-- A value each step raises is higher after any number of them. -/
theorem lt_of_climb (keeps : ∀ state next, holds state → step state next → holds next)
    (raises : ∀ state next, holds state → step state next → value state < value next)
    {state next : σ} (initial : holds state) (run : Relation.TransGen step state next) :
    value state < value next := by
  have kept : holds next ∧ value state < value next := by
    induction run with
    | single first => exact ⟨keeps _ _ initial first, raises _ _ initial first⟩
    | tail _ last ih => exact ⟨keeps _ _ ih.1 last, lt_trans ih.2 (raises _ _ ih.1 last)⟩
  exact kept.2

end Climbing

end Sreality.Foundation
