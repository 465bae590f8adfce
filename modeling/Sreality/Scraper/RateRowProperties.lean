import Sreality.Scraper.RateRow

/-! The statements on the budget row end a window to the microsecond of where its slots do, and
keep the factor between its floor and its cap. -/

set_option autoImplicit false

namespace Sreality.Scraper

open Sreality.Foundation

theorem second_le_int4Max : 1000 ≤ int4Max := by decide

/-! ### Rounding -/

/-- The relative error of a `float8` that is nothing or no less than a millionth. -/
theorem abs_round_sub_le_of_sizable {value : ℚ} (sizable : value = 0 ∨ 1 / 1000000 ≤ value) :
    |binary64.round value - value| ≤ value / 2 ^ 53 := by
  have normal : value = 0 ∨ (2 : ℚ) ^ (binary64.least + binary64.fraction) ≤ |value| := by
    refine sizable.imp_right fun least => le_trans ?_ (least.trans (le_abs_self value))
    have tiny : (2 : ℚ) ^ (binary64.least + (binary64.fraction : ℤ)) ≤ 2 ^ (-20 : ℤ) :=
      zpow_le_zpow_right₀ (by norm_num) (by decide)
    exact tiny.trans (by norm_num)
  have near := BinaryFormat.abs_round_sub_le_mul normal
  have positive : 0 ≤ value := by rcases sizable with same | least <;> linarith
  rwa [abs_of_nonneg positive] at near

theorem value_ofNat {count : ℕ} (few : count ≤ int4Max) :
    (Binary.ofRat binary64 count).value = count :=
  BinaryFormat.round_natCast _ (few.trans (by decide)) (by decide)

section Spans

variable {ms : ℕ} {factor : Float64}

theorem value_spanOf (few : ms ≤ int4Max) :
    (spanOf ms factor).value = binary64.round (binary64.round (ms * factor.value) / 1000) := by
  have thousand : (Binary.ofRat binary64 1000).value = 1000 :=
    BinaryFormat.round_natCast 1000 (by decide) (by decide)
  change binary64.round (binary64.round ((Binary.ofRat binary64 ms).value * factor.value) /
    (Binary.ofRat binary64 1000).value) = _
  rw [value_ofNat few, thousand]

theorem value_makeInterval (secs : Float64) :
    makeInterval secs = roundHalfEven (binary64.round (secs.value * 1000000)) := by
  have million : (Binary.ofRat binary64 1000000).value = 1000000 :=
    BinaryFormat.round_natCast 1000000 (by decide) (by decide)
  change roundHalfEven (binary64.round (secs.value * (Binary.ofRat binary64 1000000).value)) = _
  rw [million]

theorem one_le_round {value : ℚ} (least : 1 ≤ value) : 1 ≤ binary64.round value := by
  have raised : ((1 : ℕ) : ℚ) ≤ binary64.round value :=
    BinaryFormat.natCast_le_round _ (by decide) (by decide) (by exact_mod_cast least)
  exact_mod_cast raised

/-- Nothing, or a millisecond at the least. -/
theorem product_sizable (least : 1 ≤ factor.value) :
    (ms : ℚ) * factor.value = 0 ∨ 1 ≤ (ms : ℚ) * factor.value := by
  rcases Nat.eq_zero_or_pos ms with rfl | some_
  · exact .inl (by simp)
  · have one : (1 : ℚ) ≤ ms := by exact_mod_cast some_
    exact .inr (one_le_mul_of_one_le_of_one_le one least)

theorem abs_spanOf_sub_le (few : ms ≤ int4Max) (least : 1 ≤ factor.value) :
    |(spanOf ms factor).value - ms * factor.value / 1000| ≤
      ms * factor.value / 1000 * (3 / 2 ^ 53) := by
  rw [value_spanOf few]
  have sizable := @product_sizable ms factor least
  generalize (ms : ℚ) * factor.value = product at sizable
  have first := abs_round_sub_le_of_sizable (sizable.imp_right fun least => by linarith)
  have second := @abs_round_sub_le_of_sizable (binary64.round product / 1000) (by
    rcases sizable with rfl | least
    · exact .inl (by rw [BinaryFormat.round_zero, zero_div])
    · have raised := one_le_round least
      exact .inr (by linarith))
  have positive : 0 ≤ product := by rcases sizable with same | least <;> linarith
  rw [abs_le] at first second ⊢
  constructor <;> linarith

theorem spanOf_sizable (few : ms ≤ int4Max) (least : 1 ≤ factor.value) :
    (spanOf ms factor).value = 0 ∨ 1 / 2000 ≤ (spanOf ms factor).value := by
  have near := abs_spanOf_sub_le few least
  rcases @product_sizable ms factor least with none_ | some_
  · left
    rw [none_, zero_div, zero_mul, sub_zero] at near
    exact abs_eq_zero.mp (le_antisymm near (abs_nonneg _))
  · right
    rw [abs_le] at near
    linarith

theorem spanOf_nonneg (few : ms ≤ int4Max) (least : 1 ≤ factor.value) :
    0 ≤ (spanOf ms factor).value := by
  rcases spanOf_sizable few least with none_ | some_ <;> linarith

theorem spanOf_pos (some_ : 1 ≤ ms) (few : ms ≤ int4Max) (least : 1 ≤ factor.value) :
    0 < (spanOf ms factor).value := by
  have near := abs_spanOf_sub_le few least
  have one : (1 : ℚ) ≤ ms := by exact_mod_cast some_
  have product := one_le_mul_of_one_le_of_one_le one least
  rw [abs_le] at near
  linarith

theorem abs_makeInterval_sub_le {secs : Float64} (sizable : secs.value = 0 ∨ 1 / 2000 ≤ secs.value) :
    |(makeInterval secs : ℚ) - secs.value * 1000000| ≤
      1 / 2 + secs.value * 1000000 / 2 ^ 53 := by
  rw [value_makeInterval]
  have rounded := @abs_round_sub_le_of_sizable (secs.value * 1000000)
    (sizable.imp (fun none_ => by rw [none_, zero_mul]) (fun least => by linarith))
  have whole := abs_roundHalfEven_sub_le (binary64.round (secs.value * 1000000))
  rw [abs_le] at rounded whole ⊢
  constructor <;> linarith

/-- A window is as long as its milliseconds say, to about half a microsecond. -/
theorem abs_makeInterval_spanOf_sub_lt (few : ms ≤ int4Max) (least : 1 ≤ factor.value)
    (most : factor.value ≤ 8) :
    |(makeInterval (spanOf ms factor) : ℚ) - ms * factor.value * 1000| < 13 / 25 := by
  have span := abs_spanOf_sub_le few least
  have interval := abs_makeInterval_sub_le (spanOf_sizable few least)
  have size : (ms : ℚ) * factor.value ≤ 2147483647 * 8 := by
    have count : (ms : ℚ) ≤ 2147483647 := by exact_mod_cast few
    exact mul_le_mul count most (by linarith) (by norm_num)
  rw [abs_le] at span interval
  rw [abs_lt]
  constructor <;> linarith

theorem makeInterval_nonneg {secs : Float64} (nonneg : 0 ≤ secs.value) : 0 ≤ makeInterval secs := by
  rw [value_makeInterval]
  have raised : ((0 : ℕ) : ℚ) ≤ binary64.round (secs.value * 1000000) :=
    BinaryFormat.natCast_le_round _ (by decide) (by decide) (by push_cast; linarith)
  have under : ((0 : ℤ) : ℚ) ≤ binary64.round (secs.value * 1000000) := by exact_mod_cast raised
  exact (roundHalfEven_bounds under (Int.le_ceil _)).1

/-- The slots as answered and the frontier's move differ by less than a microsecond. -/
theorem abs_slots_sub_lt {slots : ℕ} (few : ms ≤ int4Max) (fit : slots * ms ≤ int4Max)
    (least : 1 ≤ factor.value) (most : factor.value ≤ 8) :
    |slots * (spanOf ms factor).value - seconds (makeInterval (spanOf (slots * ms) factor))| <
      1 / 1000000 := by
  have span := abs_spanOf_sub_le few least
  have interval := abs_makeInterval_spanOf_sub_lt fit least most
  have size : (slots : ℚ) * ms * factor.value ≤ 2147483647 * 8 := by
    have count : (slots : ℚ) * ms ≤ 2147483647 := by exact_mod_cast fit
    exact mul_le_mul count most (by linarith) (by norm_num)
  have spans : |slots * (spanOf ms factor).value - slots * ms * factor.value / 1000| ≤
      slots * ms * factor.value / 1000 * (3 / 2 ^ 53) := by
    have scaled := mul_le_mul_of_nonneg_left span (Nat.cast_nonneg (α := ℚ) slots)
    rw [← abs_of_nonneg (Nat.cast_nonneg (α := ℚ) slots), ← abs_mul,
      abs_of_nonneg (Nat.cast_nonneg (α := ℚ) slots)] at scaled
    calc _ = |(slots : ℚ) * ((spanOf ms factor).value - ms * factor.value / 1000)| := by
          congr 1
          ring
      _ ≤ _ := scaled
      _ = _ := by ring
  unfold seconds
  push_cast at interval
  rw [abs_le] at spans
  rw [abs_lt] at interval ⊢
  constructor <;> linarith

end Spans

/-! ### The factor -/

/-- Between the floor of a lease and the cap of a penalty. -/
def RateRow.Bounded (row : RateRow) : Prop :=
  1 ≤ row.penaltyFactor.value ∧ row.penaltyFactor.value ≤ 8

theorem value_widened (factor : Single) : (factor.cast binary64).value = factor.value :=
  Binary.value_cast (by decide) (by decide) factor

theorem narrowed_bounded {factor : Float64} (least : 1 ≤ factor.value) (most : factor.value ≤ 8) :
    1 ≤ (factor.cast binary32).value ∧ (factor.cast binary32).value ≤ 8 := by
  have low : ((1 : ℕ) : ℚ) ≤ binary32.round factor.value :=
    BinaryFormat.natCast_le_round _ (by decide) (by decide) (by exact_mod_cast least)
  have high : binary32.round factor.value ≤ (8 : ℕ) :=
    BinaryFormat.round_le_natCast _ (by decide) (by decide) (by exact_mod_cast most)
  exact ⟨by exact_mod_cast low, by exact_mod_cast high⟩

theorem value_penaltyCap : penaltyCap.value = 8 :=
  BinaryFormat.round_natCast 8 (by decide) (by decide)

theorem value_penaltyMult : penaltyMult.value = 2 :=
  BinaryFormat.round_natCast 2 (by decide) (by decide)

theorem value_one : (Binary.ofRat binary64 1).value = 1 :=
  BinaryFormat.round_natCast 1 (by decide) (by decide)

theorem recoveryFactor_le_one : recoveryFactor.value ≤ 1 := by
  have less : binary64.round (9 / 10) ≤ ((1 : ℕ) : ℚ) :=
    BinaryFormat.round_le_natCast _ (by decide) (by decide) (by norm_num)
  exact_mod_cast less

/-- The doubled factor of a penalty is a `real` as it is. -/
theorem value_min_penaltyCap (factor : Single) :
    (min penaltyCap (factor.cast binary64 * penaltyMult)).value = min 8 (factor.value * 2) := by
  have doubled : binary64.round (factor.value * 2) = factor.value * 2 := by
    rw [← value_widened factor]
    exact BinaryFormat.round_eq_self (factor.cast binary64).holds.two_mul
  rw [Binary.value_min, value_penaltyCap, Binary.value_mul, value_widened, value_penaltyMult,
    doubled]

/-! ### The statements -/

section Statements

variable {row : RateRow}

theorem widened_bounded (bounded : row.Bounded) :
    1 ≤ (row.penaltyFactor.cast binary64).value ∧ (row.penaltyFactor.cast binary64).value ≤ 8 := by
  rw [value_widened]
  exact bounded

/-- A lease statement that does not fail. -/
structure Leased (row : RateRow) (now : ℤ) (slots intervalMs : ℕ) (after : RateRow)
    (answer : LeaseAnswer) : Prop where
  few : intervalMs ≤ int4Max
  fit : slots * intervalMs ≤ int4Max
  slot : answer.slot = spanOf intervalMs (row.penaltyFactor.cast binary64)
  delay : answer.delay = .ofRat _ (max (seconds (max row.nextSlotAt now - now)) 0)
  frontier : answer.granted = true → after.nextSlotAt = max row.nextSlotAt now +
    makeInterval (spanOf (slots * intervalMs) (row.penaltyFactor.cast binary64))
  factor : answer.granted = true → after.penaltyFactor =
    (max (.ofRat _ 1) (row.penaltyFactor.cast binary64 * recoveryFactor)).cast binary32
  refused : answer.granted = false → after = row

theorem leaseSql_spec {now : ℤ} {slots intervalMs : ℕ} {bound : Option Float64} {after : RateRow}
    {answer : LeaseAnswer} (done : leaseSql row now slots intervalMs bound = some (after, answer)) :
    Leased row now slots intervalMs after answer := by
  unfold leaseSql at done
  split_ifs at done with fits
  cases done
  refine ⟨fits.2.1, fits.2.2, rfl, rfl, ?_, ?_, ?_⟩
  · intro granted
    exact congrArg RateRow.nextSlotAt (if_pos granted)
  · intro granted
    exact congrArg RateRow.penaltyFactor (if_pos granted)
  · intro refused
    exact if_neg (Bool.eq_false_iff.mp refused)

variable {now : ℤ} {slots intervalMs : ℕ} {after : RateRow} {answer : LeaseAnswer}

theorem Leased.bounded (leased : Leased row now slots intervalMs after answer)
    (bounded : row.Bounded) : after.Bounded := by
  cases granted : answer.granted with
  | false => rwa [leased.refused granted]
  | true =>
      obtain ⟨least, most⟩ := widened_bounded bounded
      unfold RateRow.Bounded
      rw [leased.factor granted]
      apply narrowed_bounded
      · rw [Binary.value_max, value_one]
        exact le_max_left _ _
      · have decayed : (row.penaltyFactor.cast binary64).value * recoveryFactor.value ≤ 8 := by
          have less := mul_le_of_le_one_right (by linarith) recoveryFactor_le_one
            (a := (row.penaltyFactor.cast binary64).value)
          exact less.trans most
        have rounded : binary64.round
            ((row.penaltyFactor.cast binary64).value * recoveryFactor.value) ≤ (8 : ℕ) :=
          BinaryFormat.round_le_natCast _ (by decide) (by decide) (by exact_mod_cast decayed)
        rw [Binary.value_max, value_one, Binary.value_mul]
        exact max_le (by norm_num) (by exact_mod_cast rounded)

/-- What a granted lease moves the frontier by is never negative. -/
theorem Leased.ahead (leased : Leased row now slots intervalMs after answer)
    (bounded : row.Bounded) (granted : answer.granted = true) :
    max row.nextSlotAt now ≤ after.nextSlotAt := by
  have moved := makeInterval_nonneg (spanOf_nonneg leased.fit (widened_bounded bounded).1)
  rw [leased.frontier granted]
  omega

theorem Leased.frontier_le (leased : Leased row now slots intervalMs after answer)
    (bounded : row.Bounded) : row.nextSlotAt ≤ after.nextSlotAt := by
  cases granted : answer.granted with
  | false => rw [leased.refused granted]
  | true => exact (le_max_left _ _).trans (leased.ahead bounded granted)

theorem penalizeSql_factor (row : RateRow) (now : ℤ) :
    (penalizeSql row now).penaltyFactor.value = min 8 (row.penaltyFactor.value * 2) := by
  have held : binary32.Holds (min 8 (row.penaltyFactor.value * 2)) := by
    rcases min_choice 8 (row.penaltyFactor.value * 2) with cap | doubled
    · rw [cap]
      exact ⟨8, 0, by decide, by decide, by norm_num⟩
    · rw [doubled]
      exact row.penaltyFactor.holds.two_mul
  change binary32.round (min penaltyCap (row.penaltyFactor.cast binary64 * penaltyMult)).value = _
  rw [value_min_penaltyCap]
  exact BinaryFormat.round_eq_self held

theorem penalizeSql_bounded (bounded : row.Bounded) (now : ℤ) :
    (penalizeSql row now).Bounded := by
  unfold RateRow.Bounded
  rw [penalizeSql_factor]
  exact ⟨le_min (by norm_num) (by linarith [bounded.1]), min_le_left _ _⟩

/-- A penalty moves the frontier on by a slot at the new factor, to the microsecond. -/
theorem penalizeSql_frontier (bounded : row.Bounded) (now : ℤ) :
    max row.nextSlotAt now ≤ (penalizeSql row now).nextSlotAt ∧
      seconds (max row.nextSlotAt now) +
          row.intervalMs * (penalizeSql row now).penaltyFactor.value / 1000 - 1 / 1000000 <
        seconds (penalizeSql row now).nextSlotAt := by
  have widened : (min penaltyCap (row.penaltyFactor.cast binary64 * penaltyMult)).value =
      (penalizeSql row now).penaltyFactor.value := by
    rw [value_min_penaltyCap, penalizeSql_factor]
  obtain ⟨least, most⟩ := penalizeSql_bounded bounded now
  rw [← widened] at least most ⊢
  have near := abs_makeInterval_spanOf_sub_lt row.stored least most
  have moved := makeInterval_nonneg (spanOf_nonneg row.stored least)
  refine ⟨le_add_of_nonneg_right moved, ?_⟩
  change _ < seconds (max row.nextSlotAt now + makeInterval (spanOf row.intervalMs
    (min penaltyCap (row.penaltyFactor.cast binary64 * penaltyMult))))
  unfold seconds
  push_cast
  rw [abs_lt] at near
  linarith

end Statements

end Sreality.Scraper
