import Mathlib.Data.List.Nodup

/-! Tables as lists of rows under a key: what an update of the rows that meet a condition,
a deletion and an insertion do to the rows and to the uniqueness of their keys. -/

set_option autoImplicit false

namespace Sreality.Foundation

variable {Row Key : Type}

/-- `UPDATE … SET change WHERE applies`. -/
def updateRows (applies : Row → Bool) (change : Row → Row) (rows : List Row) : List Row :=
  rows.map fun row => if applies row then change row else row

theorem mem_updateRows {applies : Row → Bool} {change : Row → Row} {rows : List Row} {row : Row} :
    row ∈ updateRows applies change rows ↔
      ∃ old ∈ rows, row = if applies old then change old else old := by
  simp only [updateRows, List.mem_map, eq_comm]

/-- No two rows of one key. -/
def Keyed (key : Row → Key) (rows : List Row) : Prop :=
  (rows.map key).Nodup

namespace Keyed

variable {key : Row → Key} {rows : List Row}

@[simp] theorem nil : Keyed key [] := List.nodup_nil

theorem eq (keyed : Keyed key rows) {row other : Row} (rowHeld : row ∈ rows)
    (otherHeld : other ∈ rows) (same : key row = key other) : row = other :=
  List.inj_on_of_nodup_map keyed rowHeld otherHeld same

theorem nodup (keyed : Keyed key rows) : rows.Nodup :=
  List.Nodup.of_map key keyed

theorem updateRows (keyed : Keyed key rows) {applies : Row → Bool} {change : Row → Row}
    (keeps : ∀ row, key (change row) = key row) :
    Keyed key (updateRows applies change rows) := by
  have keys : (Foundation.updateRows applies change rows).map key = rows.map key := by
    simp only [Foundation.updateRows, List.map_map]
    apply List.map_congr_left
    intro row _
    by_cases applied : applies row <;> simp [applied, keeps]
  unfold Keyed
  rw [keys]
  exact keyed

theorem filter (keyed : Keyed key rows) (keep : Row → Bool) : Keyed key (rows.filter keep) :=
  keyed.sublist ((List.filter_sublist).map key)

theorem insert (keyed : Keyed key rows) {row : Row} (fresh : ∀ other ∈ rows, key other ≠ key row) :
    Keyed key (rows ++ [row]) := by
  unfold Keyed
  rw [List.map_append, List.map_singleton]
  apply List.nodup_append.mpr
  refine ⟨keyed, List.nodup_singleton _, ?_⟩
  intro one oneHeld other otherHeld same
  obtain ⟨held, heldIn, rfl⟩ := List.mem_map.mp oneHeld
  cases List.mem_singleton.mp otherHeld
  exact fresh held heldIn same

/-- The rows of one key are the one row. -/
theorem filter_key [BEq Key] [LawfulBEq Key] (keyed : Keyed key rows) {row : Row}
    (held : row ∈ rows) : rows.filter (fun other => key other == key row) = [row] := by
  induction rows with
  | nil => cases held
  | cons first rest ih =>
      obtain ⟨fresh, later⟩ := List.nodup_cons.mp keyed
      rcases List.mem_cons.mp held with rfl | deeper
      · have none_ : rest.filter (fun other => key other == key row) = [] := by
          apply List.filter_eq_nil_iff.mpr
          intro other listed same
          exact fresh (beq_iff_eq.mp same ▸ List.mem_map_of_mem listed)
        rw [List.filter_cons_of_pos (by simp), none_]
      · have differ : ¬ (key first == key row) = true := by
          intro same
          exact fresh (beq_iff_eq.mp same ▸ List.mem_map_of_mem deeper)
        have shorter : (first :: rest).filter (fun other => key other == key row) =
            rest.filter fun other => key other == key row := List.filter_cons_of_neg differ
        rw [shorter]
        exact ih later deeper

/-- A search by the key finds the row. -/
theorem find? [DecidableEq Key] (keyed : Keyed key rows) {row : Row} (held : row ∈ rows) :
    rows.find? (fun other => decide (key other = key row)) = some row := by
  cases found : rows.find? fun other => decide (key other = key row) with
  | none => exact absurd (decide_eq_true rfl) (List.find?_eq_none.mp found row held)
  | some other =>
      have same := List.find?_some found
      rw [keyed.eq (List.mem_of_find?_eq_some found) held (of_decide_eq_true same)]

end Keyed

section Lookup

variable {Value : Type} [BEq Key] [LawfulBEq Key] {rows : List (Key × Value)} {key : Key}
  {value : Value}

theorem mem_of_lookup (found : rows.lookup key = some value) : (key, value) ∈ rows := by
  obtain ⟨before, after, rfl, _⟩ := List.lookup_eq_some_iff.mp found
  exact List.mem_append_right _ List.mem_cons_self

theorem lookup_eq_none_iff_key : rows.lookup key = none ↔ key ∉ rows.map Prod.fst := by
  rw [List.lookup_eq_none_iff, List.mem_map]
  constructor
  · rintro absent ⟨row, listed, rfl⟩
    have differ := absent row listed
    simp at differ
  · intro absent row listed
    refine bne_iff_ne.mpr fun same => absent ⟨row, listed, same.symm⟩

theorem Keyed.lookup (keyed : Keyed Prod.fst rows) :
    rows.lookup key = some value ↔ (key, value) ∈ rows := by
  refine ⟨mem_of_lookup, fun listed => ?_⟩
  cases found : rows.lookup key with
  | none => exact absurd (List.mem_map.mpr ⟨_, listed, rfl⟩) (lookup_eq_none_iff_key.mp found)
  | some other => rw [(Prod.mk.inj (keyed.eq (mem_of_lookup found) listed rfl)).2]

/-- Where the value is a matter of the key, the order of the rows is not read. -/
theorem lookup_perm {read : Key → Value} {others : List (Key × Value)} (same : others.Perm rows)
    (whole : ∀ row ∈ rows, row.2 = read row.1) : others.lookup key = rows.lookup key := by
  have direct : ∀ {table : List (Key × Value)}, (∀ row ∈ table, row ∈ rows) →
      table.lookup key ≠ none → table.lookup key = some (read key) := by
    intro table inside listed
    obtain ⟨value, found⟩ := Option.ne_none_iff_exists'.mp listed
    rw [found, ← whole _ (inside _ (mem_of_lookup found))]
  have absent : others.lookup key = none ↔ rows.lookup key = none := by
    rw [lookup_eq_none_iff_key, lookup_eq_none_iff_key, (same.map Prod.fst).mem_iff]
  by_cases missing : rows.lookup key = none
  · rw [missing, absent.mpr missing]
  · rw [direct (fun _ listed => listed) missing,
      direct (fun _ listed => same.mem_iff.mp listed) (fun none_ => missing (absent.mp none_))]

end Lookup

/-- A search for what stands once finds it in any order. -/
theorem find?_perm {keep : Row → Bool} {rows others : List Row} (same : others.Perm rows)
    (single : ∀ row ∈ rows, ∀ other ∈ rows, keep row = true → keep other = true → row = other) :
    others.find? keep = rows.find? keep := by
  cases found : rows.find? keep with
  | none =>
      refine List.find?_eq_none.mpr fun row listed => ?_
      exact List.find?_eq_none.mp found row (same.mem_iff.mp listed)
  | some row =>
      have held := List.mem_of_find?_eq_some found
      have kept := List.find?_some found
      cases also : others.find? keep with
      | none => exact absurd kept (List.find?_eq_none.mp also row (same.mem_iff.mpr held))
      | some other =>
          rw [single other (same.mem_iff.mp (List.mem_of_find?_eq_some also)) row held
            (List.find?_some also) kept]

theorem nodup_eraseDups [BEq Key] [LawfulBEq Key] (keys : List Key) : keys.eraseDups.Nodup := by
  match keys with
  | [] => exact List.nodup_nil
  | first :: rest =>
      rw [List.eraseDups_cons, List.nodup_cons, List.mem_eraseDups]
      refine ⟨fun held => ?_, nodup_eraseDups _⟩
      simpa using List.of_mem_filter held
termination_by keys.length
decreasing_by exact Nat.lt_succ_of_le (List.length_filter_le _ _)

theorem eraseDups_of_nodup [BEq Key] [LawfulBEq Key] {keys : List Key} (distinct : keys.Nodup) :
    keys.eraseDups = keys := by
  induction keys with
  | nil => rfl
  | cons first rest ih =>
      obtain ⟨fresh, restDistinct⟩ := List.nodup_cons.mp distinct
      have kept : rest.filter (fun key => !key == first) = rest := by
        apply List.filter_eq_self.mpr
        intro key held
        simpa using fun same : key = first => fresh (same ▸ held)
      rw [List.eraseDups_cons, kept, ih restDistinct]

/-- Keeping the first of each key and selecting keys commute. -/
theorem filter_eraseDups [BEq Key] [LawfulBEq Key] (keep : Key → Bool) (keys : List Key) :
    (keys.filter keep).eraseDups = keys.eraseDups.filter keep := by
  match keys with
  | [] => rfl
  | first :: rest =>
      have later := filter_eraseDups keep (rest.filter fun key => !key == first)
      have swapped : (rest.filter keep).filter (fun key => !key == first) =
          (rest.filter fun key => !key == first).filter keep := by
        rw [List.filter_filter, List.filter_filter]
        exact List.filter_congr fun key _ => Bool.and_comm _ _
      cases kept : keep first with
      | true =>
          rw [List.filter_cons_of_pos kept, List.eraseDups_cons, List.eraseDups_cons,
            List.filter_cons_of_pos kept, swapped, later]
      | false =>
          -- A key that is not kept takes no kept one with it.
          have alone : rest.filter keep = (rest.filter fun key => !key == first).filter keep := by
            rw [← swapped]
            refine (List.filter_eq_self.mpr fun key held => ?_).symm
            have differ : key ≠ first := by
              rintro rfl
              rw [List.of_mem_filter held] at kept
              cases kept
            simpa using differ
          rw [List.filter_cons_of_neg (by simp [kept]), List.eraseDups_cons,
            List.filter_cons_of_neg (by simp [kept]), alone, later]
termination_by keys.length
decreasing_by exact Nat.lt_succ_of_le (List.length_filter_le _ _)

end Sreality.Foundation
