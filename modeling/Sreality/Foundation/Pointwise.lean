import Mathlib.Data.List.Forall2
import Mathlib.Data.List.Perm.Basic
import Sreality.Foundation.Runs
import Sreality.Foundation.StableSort

/-! Lists changed element by element, by a change that may be refused, and lists of steps of which
each element sees its own. -/

set_option autoImplicit false

namespace Sreality.Foundation

variable {α β γ : Type}

/-- A list read whole is each of its elements read. -/
theorem mapM_eq_some_iff {read : α → Option β} {values : List α} {results : List β} :
    values.mapM read = some results ↔
      List.Forall₂ (fun value result => read value = some result) values results := by
  induction values generalizing results with
  | nil =>
      rw [List.mapM_nil, List.forall₂_nil_left_iff]
      exact ⟨fun held => (Option.some.inj held).symm, fun held => congrArg some held.symm⟩
  | cons value rest ih =>
      rw [List.mapM_cons, List.forall₂_cons_left_iff]
      constructor
      · intro mapped
        obtain ⟨first, here, mapped⟩ := Option.bind_eq_some_iff.mp mapped
        obtain ⟨others, later, held⟩ := Option.bind_eq_some_iff.mp mapped
        exact ⟨first, others, here, ih.mp later, (Option.some.inj held).symm⟩
      · rintro ⟨first, others, here, later, rfl⟩
        rw [here, ih.mpr later]
        rfl

theorem mapM_congr {read other : α → Option β} {values : List α}
    (same : ∀ value ∈ values, read value = other value) :
    values.mapM read = values.mapM other := by
  induction values with
  | nil => rfl
  | cons value rest ih =>
      obtain ⟨here, later⟩ := List.forall_mem_cons.mp same
      rw [List.mapM_cons, List.mapM_cons, here, ih later]

theorem mapM_eq_none {read : α → Option β} {values : List α} {value : α} (listed : value ∈ values)
    (refused : read value = none) : values.mapM read = none := by
  cases mapped : values.mapM read with
  | none => rfl
  | some results =>
      have all := mapM_eq_some_iff.mp mapped
      obtain ⟨place, inside, rfl⟩ := List.getElem_of_mem listed
      have here := (List.forall₂_iff_get.mp all).2 place inside (all.length_eq ▸ inside)
      rw [List.get_eq_getElem, refused] at here
      cases here

theorem mapM_map_result (read : α → Option β) (change : β → γ) (values : List α) :
    (values.mapM fun value => (read value).map change) = (values.mapM read).map (List.map change) := by
  induction values with
  | nil => rfl
  | cons value rest ih =>
      rw [List.mapM_cons, List.mapM_cons, ih]
      cases read value with
      | none => rfl
      | some result => cases rest.mapM read <;> rfl

/-- A change that keeps the key commutes with the sort by it. -/
theorem mapM_sortedBy {κ : Type} [LinearOrder κ] {key : α → κ} {read : α → Option α}
    (keeps : ∀ value result, read value = some result → key result = key value)
    (values : List α) : (sortedBy key values).mapM read = (values.mapM read).map (sortedBy key) := by
  by_cases each : ∀ value ∈ values, (read value).isSome = true
  · have keys : ∀ value, key ((read value).getD value) = key value := by
      intro value
      cases found : read value with
      | none => rfl
      | some result => exact keeps value result found
    have reads : ∀ value ∈ values, read value = some ((read value).getD value) := by
      intro value listed
      obtain ⟨result, found⟩ := Option.isSome_iff_exists.mp (each value listed)
      rw [found, Option.getD_some]
    rw [mapM_eq_some reads, mapM_eq_some fun value listed => reads value (mem_sortedBy.mp listed),
      Option.map_some, sortedBy_map keys]
  · push Not at each
    obtain ⟨value, listed, refused⟩ := each
    have none_ := Option.not_isSome_iff_eq_none.mp refused
    rw [mapM_eq_none listed none_, mapM_eq_none (mem_sortedBy.mpr listed) none_]
    rfl

theorem forall₂_congr {related other : α → β → Prop} {values : List α} {results : List β}
    (same : ∀ value result, related value result ↔ other value result) :
    List.Forall₂ related values results ↔ List.Forall₂ other values results :=
  ⟨List.Forall₂.imp fun value result => (same value result).mp,
    List.Forall₂.imp fun value result => (same value result).mpr⟩

/-- Two changes, one after the other. -/
theorem forall₂_comp {first : α → β → Prop} {second : β → γ → Prop} {values : List α}
    {middle : List β} {results : List γ} (before : List.Forall₂ first values middle)
    (after : List.Forall₂ second middle results) :
    List.Forall₂ (fun value result => ∃ between, first value between ∧ second between result)
      values results := by
  induction before generalizing results with
  | nil =>
      cases after
      exact .nil
  | cons here _ ih =>
      cases after with
      | cons next later => exact .cons ⟨_, here, next⟩ (ih later)

theorem forall₂_between {first : α → β → Prop} {second : β → γ → Prop} {values : List α}
    {results : List γ}
    (both : List.Forall₂ (fun value result => ∃ between, first value between ∧
      second between result) values results) :
    ∃ middle, List.Forall₂ first values middle ∧ List.Forall₂ second middle results := by
  induction both with
  | nil => exact ⟨[], .nil, .nil⟩
  | cons here _ ih =>
      obtain ⟨between, before, after⟩ := here
      obtain ⟨middle, earlier, later⟩ := ih
      exact ⟨between :: middle, .cons before earlier, .cons after later⟩

/-- A selection that a change does not touch. -/
theorem forall₂_filter {related : α → β → Prop} {keep : α → Bool} {kept : β → Bool}
    {values : List α} {results : List β} (all : List.Forall₂ related values results)
    (same : ∀ value result, related value result → kept result = keep value) :
    List.Forall₂ related (values.filter keep) (results.filter kept) := by
  induction all with
  | nil => exact .nil
  | cons here _ ih =>
      rw [List.filter_cons, List.filter_cons, same _ _ here]
      split_ifs
      · exact .cons here ih
      · exact ih

theorem forall₂_map_eq {κ : Type} {key : α → κ} {other : β → κ} {values : List α} {results : List β}
    (same : List.Forall₂ (fun value result => other result = key value) values results) :
    results.map other = values.map key := by
  induction same with
  | nil => rfl
  | cons here _ ih => rw [List.map_cons, List.map_cons, here, ih]

theorem forall₂_unique {related other : α → β → Prop} {values : List α} {results others : List β}
    (one : List.Forall₂ related values results) (two : List.Forall₂ other values others)
    (same : ∀ value ∈ values, ∀ result another, related value result → other value another →
      result = another) : results = others := by
  induction one generalizing others with
  | nil =>
      cases two
      rfl
  | cons here _ ih =>
      cases two with
      | cons there later =>
          rw [same _ List.mem_cons_self _ _ here there,
            ih later fun value listed => same value (List.mem_cons_of_mem _ listed)]

/-- Elements of which each has a result have results. -/
theorem exists_forall₂ {related : α → β → Prop} {values : List α}
    (each : ∀ value ∈ values, ∃ result, related value result) :
    ∃ results, List.Forall₂ related values results := by
  induction values with
  | nil => exact ⟨[], .nil⟩
  | cons value rest ih =>
      obtain ⟨here, later⟩ := List.forall_mem_cons.mp each
      obtain ⟨result, held⟩ := here
      obtain ⟨results, others⟩ := ih later
      exact ⟨result :: results, .cons held others⟩

theorem forall₂_mem_left {related : α → β → Prop} {values : List α} {results : List β}
    (all : List.Forall₂ related values results) {value : α} (listed : value ∈ values) :
    ∃ result ∈ results, related value result := by
  induction all with
  | nil => cases listed
  | cons here _ ih =>
      rcases List.mem_cons.mp listed with rfl | deeper
      · exact ⟨_, List.mem_cons_self, here⟩
      · obtain ⟨result, inside, held⟩ := ih deeper
        exact ⟨result, List.mem_cons_of_mem _ inside, held⟩

theorem forall₂_mem_right {related : α → β → Prop} {values : List α} {results : List β}
    (all : List.Forall₂ related values results) {result : β} (listed : result ∈ results) :
    ∃ value ∈ values, related value result :=
  forall₂_mem_left all.flip listed

/-- Lists of one length whose elements are related at each position. -/
structure Indexed (related : Nat → α → β → Prop) (values : List α) (results : List β) : Prop where
  length : results.length = values.length
  at_ : ∀ (position : Nat) (value : α) (result : β), values[position]? = some value →
    results[position]? = some result → related position value result

theorem indexed_nil_iff {related : Nat → α → β → Prop} {results : List β} :
    Indexed related [] results ↔ results = [] := by
  constructor
  · intro held
    exact List.length_eq_zero_iff.mp held.length
  · rintro rfl
    exact ⟨rfl, fun _ _ _ found => by simp at found⟩

theorem indexed_cons_iff {related : Nat → α → β → Prop} {value : α} {rest : List α}
    {results : List β} :
    Indexed related (value :: rest) results ↔ ∃ result others, results = result :: others ∧
      related 0 value result ∧ Indexed (fun position => related (position + 1)) rest others := by
  constructor
  · intro held
    cases results with
    | nil => cases held.length
    | cons result others =>
        refine ⟨result, others, rfl, held.at_ 0 value result rfl rfl, ?_⟩
        refine ⟨Nat.succ.inj held.length, fun position value result found given => ?_⟩
        exact held.at_ (position + 1) value result found given
  · rintro ⟨result, others, rfl, here, later⟩
    refine ⟨congrArg Nat.succ later.length, fun position value result found given => ?_⟩
    cases position with
    | zero =>
        cases found
        cases given
        exact here
    | succ position => exact later.at_ position value result found given

/-- A relation that reads no position. -/
theorem indexed_const_iff {related : α → β → Prop} {values : List α} {results : List β} :
    Indexed (fun _ => related) values results ↔ List.Forall₂ related values results := by
  induction values generalizing results with
  | nil => rw [indexed_nil_iff, List.forall₂_nil_left_iff]
  | cons value rest ih =>
      rw [indexed_cons_iff, List.forall₂_cons_left_iff]
      constructor
      · rintro ⟨result, others, same, here, later⟩
        exact ⟨result, others, here, ih.mp later, same⟩
      · rintro ⟨result, others, here, later, same⟩
        exact ⟨result, others, same, here, ih.mpr later⟩

theorem Indexed.imp {related other : Nat → α → β → Prop} {values : List α} {results : List β}
    (held : Indexed related values results)
    (weaker : ∀ position value result, related position value result →
      other position value result) : Indexed other values results :=
  ⟨held.length, fun position value result found given =>
    weaker position value result (held.at_ position value result found given)⟩

theorem indexed_congr {related other : Nat → α → β → Prop} {values : List α} {results : List β}
    (same : ∀ position value result, values[position]? = some value →
      (related position value result ↔ other position value result)) :
    Indexed related values results ↔ Indexed other values results :=
  ⟨fun held => ⟨held.length, fun position value result found given =>
      (same position value result found).mp (held.at_ position value result found given)⟩,
    fun held => ⟨held.length, fun position value result found given =>
      (same position value result found).mpr (held.at_ position value result found given)⟩⟩

theorem indexed_eq_iff {values results : List α} :
    Indexed (fun _ value result => value = result) values results ↔ values = results := by
  rw [indexed_const_iff, List.forall₂_eq_eq_eq]

theorem indexed_between {first : Nat → α → β → Prop} {second : Nat → β → γ → Prop}
    {values : List α} {results : List γ}
    (both : Indexed (fun position value result => ∃ between, first position value between ∧
      second position between result) values results) :
    ∃ middle, Indexed first values middle ∧ Indexed second middle results := by
  induction values generalizing first second results with
  | nil =>
      rw [indexed_nil_iff] at both
      exact ⟨[], indexed_nil_iff.mpr rfl, indexed_nil_iff.mpr both⟩
  | cons value rest ih =>
      obtain ⟨result, others, rfl, ⟨between, before, after⟩, later⟩ := indexed_cons_iff.mp both
      obtain ⟨middle, earlier, onward⟩ := ih later
      exact ⟨between :: middle, indexed_cons_iff.mpr ⟨between, middle, rfl, before, earlier⟩,
        indexed_cons_iff.mpr ⟨result, others, rfl, after, onward⟩⟩

theorem exists_indexed {related : Nat → α → β → Prop} {values : List α}
    (each : ∀ position value, values[position]? = some value →
      ∃ result, related position value result) :
    ∃ results, Indexed related values results := by
  induction values generalizing related with
  | nil => exact ⟨[], indexed_nil_iff.mpr rfl⟩
  | cons value rest ih =>
      obtain ⟨result, here⟩ := each 0 value rfl
      obtain ⟨others, later⟩ := ih fun position value found => each (position + 1) value found
      exact ⟨result :: others, indexed_cons_iff.mpr ⟨result, others, rfl, here, later⟩⟩

/-- Any order of the steps that one element sees comes from an order of all the steps. -/
theorem exists_perm_filterMap {view : α → Option β} {steps : List α} {seen : List β}
    (order : seen.Perm (steps.filterMap view)) :
    ∃ others : List α, others.Perm steps ∧ others.filterMap view = seen := by
  induction seen generalizing steps with
  | nil => exact ⟨steps, .refl _, order.nil_eq.symm⟩
  | cons first rest ih =>
      have listed : first ∈ steps.filterMap view := order.mem_iff.mp List.mem_cons_self
      obtain ⟨step, held, viewed⟩ := List.mem_filterMap.mp listed
      obtain ⟨before, after, rfl⟩ := List.append_of_mem held
      have front : (before ++ step :: after).Perm (step :: (before ++ after)) := List.perm_middle
      have others := order.trans (front.filterMap view)
      rw [List.filterMap_cons_some viewed] at others
      obtain ⟨steps, reordered, same⟩ := ih (List.perm_cons first |>.mp others)
      refine ⟨step :: steps, (reordered.cons step).trans front.symm, ?_⟩
      rw [List.filterMap_cons_some viewed, same]

end Sreality.Foundation
