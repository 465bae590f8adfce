import Sreality.Foundation.StableSort

/-! The first rows of a sort (`ORDER BY … LIMIT n`, `row_number() <= n`): what stays out is behind
all of them, and a row is among them as long as fewer than `n` rows rank before it. -/

set_option autoImplicit false

namespace Sreality.Foundation

variable {α κ : Type} [LinearOrder κ] {key : α → κ} {values : List α} {n : Nat}

/-- `ORDER BY key LIMIT n`. -/
def firstBy (key : α → κ) (n : Nat) (values : List α) : List α :=
  (sortedBy key values).take n

theorem mem_of_mem_firstBy {value : α} (taken : value ∈ firstBy key n values) : value ∈ values :=
  mem_sortedBy.mp (List.mem_of_mem_take taken)

theorem length_firstBy : (firstBy key n values).length = min n values.length := by
  unfold firstBy
  rw [List.length_take, length_sortedBy]

theorem nodup_firstBy (distinct : values.Nodup) : (firstBy key n values).Nodup :=
  (nodup_sortedBy.mpr distinct).sublist (List.take_sublist _ _)

/-- What stays out ranks behind what is taken. -/
theorem le_of_mem_firstBy {taken left : α} (first : taken ∈ firstBy key n values)
    (held : left ∈ values) (out : left ∉ firstBy key n values) : key taken ≤ key left := by
  have ascending := pairwise_sortedBy key values
  have placed : left ∈ (sortedBy key values).take n ++ (sortedBy key values).drop n := by
    rw [List.take_append_drop]
    exact mem_sortedBy.mpr held
  rw [← List.take_append_drop n (sortedBy key values)] at ascending
  exact (List.pairwise_append.mp ascending).2.2 taken first left
    ((List.mem_append.mp placed).resolve_left out)

/-- All are taken once they are fewer than the limit. -/
theorem mem_firstBy_of_short {value : α} (held : value ∈ values)
    (short : (firstBy key n values).length < n) : value ∈ firstBy key n values := by
  rw [length_firstBy] at short
  unfold firstBy
  rw [List.take_of_length_le (by rw [length_sortedBy]; omega)]
  exact mem_sortedBy.mpr held

/-- A list whose keys fall is sorted by turning it round. -/
theorem sortedBy_of_falls (falls : values.Pairwise fun earlier later => key later < key earlier) :
    sortedBy key values = values.reverse := by
  have turned : values.reverse.Pairwise fun earlier later => key earlier ≤ key later :=
    List.pairwise_reverse.mpr (falls.imp fun less => less.le)
  have apart : (values.map key).Nodup := List.pairwise_map.mpr (falls.imp fun less => less.ne')
  rw [← sortedBy_eq_self turned]
  exact sortedBy_eq_of_perm values.reverse_perm.symm fun one oneIn other otherIn same =>
    List.inj_on_of_nodup_map apart oneIn otherIn same

section Distinct

variable {value : α}

/-- With one value to a key, a row is taken as long as fewer than the limit rank before it. -/
theorem mem_firstBy_iff (distinct : values.Nodup)
    (separates : ∀ one ∈ values, ∀ other ∈ values, key one = key other → one = other) :
    value ∈ firstBy key n values ↔
      value ∈ values ∧ (values.filter fun other => decide (key other < key value)).length < n := by
  classical
  constructor
  · intro taken
    refine ⟨mem_of_mem_firstBy taken, ?_⟩
    have before : (values.filter fun other => decide (key other < key value)).Subperm
        ((firstBy key n values).erase value) := by
      refine (distinct.filter _).subperm fun other listed => ?_
      obtain ⟨held, less⟩ := List.mem_filter.mp listed
      have ranks := of_decide_eq_true less
      have apart : other ≠ value := fun same => (same ▸ ranks).false
      refine (List.mem_erase_of_ne apart).mpr ?_
      by_contra out
      exact (le_of_mem_firstBy taken held out).not_gt ranks
    have counted := before.length_le
    have some_ := List.length_pos_of_mem taken
    have most : (firstBy key n values).length ≤ n := by
      rw [length_firstBy]
      exact min_le_left _ _
    rw [List.length_erase_of_mem taken] at counted
    omega
  · rintro ⟨held, few⟩
    by_contra out
    have full : n ≤ (firstBy key n values).length := by
      by_contra short
      exact out (mem_firstBy_of_short held (not_le.mp short))
    have before : (firstBy key n values).Subperm
        (values.filter fun other => decide (key other < key value)) := by
      refine (nodup_firstBy distinct).subperm fun other taken => ?_
      have listed := mem_of_mem_firstBy taken
      refine List.mem_filter.mpr ⟨listed, decide_eq_true (lt_of_le_of_ne ?_ fun same => ?_)⟩
      · exact le_of_mem_firstBy taken held out
      · exact out (separates other listed value held same ▸ taken)
    have counted := before.length_le
    omega

variable {part : List α}

/-- A part that holds all the first rows ranks its rows as the whole does. -/
theorem mem_firstBy_of_cover (distinct : values.Nodup)
    (separates : ∀ one ∈ values, ∀ other ∈ values, key one = key other → one = other)
    (partDistinct : part.Nodup) (listed : ∀ value ∈ part, value ∈ values)
    (covers : ∀ value ∈ firstBy key n values, value ∈ part) (held : value ∈ part) :
    value ∈ firstBy key n part ↔ value ∈ firstBy key n values := by
  have partSeparates : ∀ one ∈ part, ∀ other ∈ part, key one = key other → one = other :=
    fun one oneIn other otherIn => separates one (listed one oneIn) other (listed other otherIn)
  rw [mem_firstBy_iff partDistinct partSeparates]
  constructor
  · rintro ⟨_, few⟩
    by_contra out
    have full : n ≤ (firstBy key n values).length := by
      by_contra short
      exact out (mem_firstBy_of_short (listed value held) (not_le.mp short))
    have before : (firstBy key n values).Subperm
        (part.filter fun other => decide (key other < key value)) := by
      refine (nodup_firstBy distinct).subperm fun other taken => ?_
      refine List.mem_filter.mpr ⟨covers other taken,
        decide_eq_true (lt_of_le_of_ne ?_ fun same => ?_)⟩
      · exact le_of_mem_firstBy taken (listed value held) out
      · exact out (separates other (mem_of_mem_firstBy taken) value (listed value held) same ▸
          taken)
    have counted := before.length_le
    omega
  · intro taken
    refine ⟨held, lt_of_le_of_lt ?_ ((mem_firstBy_iff distinct separates).mp taken).2⟩
    refine List.Subperm.length_le ((partDistinct.filter _).subperm fun other less => ?_)
    obtain ⟨otherIn, ranks⟩ := List.mem_filter.mp less
    exact List.mem_filter.mpr ⟨listed other otherIn, ranks⟩

/-- A row that comes puts no other among the first. -/
theorem mem_firstBy_of_concat {fresh : α} (distinct : (values ++ [fresh]).Nodup)
    (separates : ∀ one ∈ values ++ [fresh], ∀ other ∈ values ++ [fresh],
      key one = key other → one = other)
    (taken : value ∈ firstBy key n (values ++ [fresh])) (old : value ≠ fresh) :
    value ∈ firstBy key n values := by
  have within : ∀ one ∈ values, one ∈ values ++ [fresh] := fun _ => List.mem_append_left _
  obtain ⟨held, few⟩ := (mem_firstBy_iff distinct separates).mp taken
  have listed : value ∈ values := by simpa [old] using held
  refine (mem_firstBy_iff (List.nodup_append.mp distinct).1 fun one oneIn other otherIn =>
    separates one (within one oneIn) other (within other otherIn)).mpr ⟨listed, ?_⟩
  rw [List.filter_append, List.length_append] at few
  omega

end Distinct

end Sreality.Foundation
