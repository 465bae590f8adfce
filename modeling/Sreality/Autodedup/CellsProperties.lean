import Mathlib.Data.List.Perm.Basic
import Sreality.Autodedup.Repartition

/-! What a partition in progress can do to its cells. Three steps cover every
sweep: two cells poured together, one member moved, and two cells poured
together less a cover. Each keeps the cells a partition of the members, and each
tests the set it fills; the cell a member leaves is only made smaller. -/

set_option autoImplicit false

namespace Sreality.Autodedup

open Sreality.Foundation

/-- The cells partition the members, and `home` says where each one sits. -/
structure Placed (members : List Nat) (cells : Cells) : Prop where
  homed : ∀ member ∈ members, member ∈ cells.cell (cells.home member)
  owned : ∀ index, ∀ member ∈ cells.cell index, member ∈ members ∧ cells.home member = index
  bounded : ∀ index, ∀ member ∈ cells.cell index, index < cells.count
  distinct : ∀ index, (cells.cell index).Nodup

/-- One step of a partition that fills only sets `accepts` takes. -/
inductive CellStep (accepts : List Nat → Prop) (cells : Cells) : Cells → Prop where
  | join {loser keeper : Nat} (apart : keeper ≠ loser) (bounded : keeper < cells.count)
      (accepted : accepts (sortedIds (cells.cell keeper ++ cells.cell loser))) :
      CellStep accepts cells (cells.join loser keeper)
  | move {member target : Nat} (held : member ∈ cells.cell (cells.home member))
      (away : target ≠ cells.home member) (bounded : target < cells.count)
      (accepted : accepts (sortedIds (cells.cell target ++ [member]))) :
      CellStep accepts cells (cells.move member target)
  | shed {loser keeper : Nat} {kept cover : List Nat} (apart : keeper ≠ loser)
      (bounded : keeper < cells.count) (loserBounded : loser < cells.count)
      (parts : (kept ++ cover).Perm (cells.cell keeper ++ cells.cell loser))
      (accepted : accepts kept) :
      CellStep accepts cells (cells.shed loser keeper kept cover)

/-- Any number of such steps. -/
abbrev CellRun (accepts : List Nat → Prop) : Cells → Cells → Prop :=
  Relation.ReflTransGen (CellStep accepts)

theorem CellRun.mono {accepts wider : List Nat → Prop}
    (into : ∀ members, accepts members → wider members) {cells next : Cells}
    (run : CellRun accepts cells next) : CellRun wider cells next := by
  induction run with
  | refl => exact .refl
  | tail _ step ih =>
      refine ih.tail ?_
      cases step with
      | join apart bounded accepted => exact .join apart bounded (into _ accepted)
      | move held away bounded accepted => exact .move held away bounded (into _ accepted)
      | shed apart bounded loserBounded parts accepted =>
          exact .shed apart bounded loserBounded parts (into _ accepted)

section Lookup

variable {cells : Cells}

theorem Cells.cell_join {loser keeper index : Nat} :
    (cells.join loser keeper).cell index =
      if index = loser then []
      else if index = keeper then sortedIds (cells.cell keeper ++ cells.cell loser)
      else cells.cell index := by
  simp only [Cells.join, Function.update_apply]

theorem Cells.cell_move {member target index : Nat} :
    (cells.move member target).cell index =
      if index = target then sortedIds (cells.cell target ++ [member])
      else if index = cells.home member then (cells.cell (cells.home member)).erase member
      else cells.cell index := by
  simp only [Cells.move, Function.update_apply]

theorem Cells.count_peelAll (cover : List Nat) :
    ∀ cells : Cells, (cover.foldl Cells.peel cells).count = cells.count + cover.length := by
  induction cover with
  | nil => exact fun _ => rfl
  | cons head rest ih =>
      intro cells
      rw [List.foldl_cons, ih, List.length_cons]
      simp only [Cells.peel]
      omega

theorem Cells.cell_peelAll (cover : List Nat) :
    ∀ (cells : Cells) (index : Nat), (cover.foldl Cells.peel cells).cell index =
      if index < cells.count then cells.cell index
      else match cover[index - cells.count]? with
        | some member => [member]
        | none => cells.cell index := by
  induction cover with
  | nil => intro cells index; simp
  | cons head rest ih =>
      intro cells index
      rw [List.foldl_cons, ih]
      simp only [Cells.peel, Function.update_apply]
      by_cases below : index < cells.count
      · have notFresh : index ≠ cells.count := by omega
        have stillBelow : index < cells.count + 1 := by omega
        simp [below, notFresh, stillBelow]
      · by_cases fresh : index = cells.count
        · simp [fresh]
        · have past : ¬index < cells.count + 1 := by omega
          obtain ⟨offset, rfl⟩ : ∃ offset, index = cells.count + 1 + offset :=
            ⟨index - cells.count - 1, by omega⟩
          have here : cells.count + 1 + offset - (cells.count + 1) = offset := by omega
          have shifted : cells.count + 1 + offset - cells.count = offset + 1 := by omega
          rw [if_neg past, if_neg below, if_neg fresh, here, shifted, List.getElem?_cons_succ]

theorem Cells.home_peelAll {cover : List Nat} (distinct : cover.Nodup) :
    ∀ (cells : Cells) (member : Nat), (cover.foldl Cells.peel cells).home member =
      if member ∈ cover then cells.count + cover.idxOf member else cells.home member := by
  induction cover with
  | nil => intro cells member; simp
  | cons head rest ih =>
      intro cells member
      obtain ⟨fresh, restDistinct⟩ := List.nodup_cons.mp distinct
      rw [List.foldl_cons, ih restDistinct]
      by_cases same : member = head
      · subst same
        simp [Cells.peel, fresh]
      · have differ : ¬head = member := fun equal => same equal.symm
        by_cases later : member ∈ rest
        · simp [Cells.peel, later, List.idxOf_cons_ne _ differ]
          omega
        · simp [Cells.peel, later, same]

end Lookup

section Steps

variable {members : List Nat} {cells next : Cells} {accepts : List Nat → Prop}

theorem Placed.join (placed : Placed members cells) {loser keeper : Nat}
    (apart : keeper ≠ loser) (bounded : keeper < cells.count) :
    Placed members (cells.join loser keeper) where
  homed := by
    intro member held
    have homed := placed.homed member held
    rw [Cells.cell_join]
    by_cases poured : member ∈ cells.cell loser
    · simp [Cells.join, poured, apart]
    · have home : (cells.join loser keeper).home member = cells.home member := if_neg poured
      rw [home, if_neg (fun equal => poured (by rw [← equal]; exact homed))]
      split_ifs with same
      · rw [mem_sortedBy, List.mem_append, ← same]
        exact .inl homed
      · exact homed
  owned := by
    intro index member held
    rw [Cells.cell_join] at held
    split_ifs at held with emptied filled
    · exact absurd held List.not_mem_nil
    · rw [mem_sortedBy, List.mem_append] at held
      rcases held with kept | poured
      · obtain ⟨known, home⟩ := placed.owned keeper member kept
        refine ⟨known, ?_⟩
        by_cases both : member ∈ cells.cell loser
        · simp [Cells.join, both, filled]
        · simp [Cells.join, both, home, filled]
      · exact ⟨(placed.owned loser member poured).1, by simp [Cells.join, poured, filled]⟩
    · obtain ⟨known, home⟩ := placed.owned index member held
      refine ⟨known, ?_⟩
      have notPoured : member ∉ cells.cell loser := fun poured =>
        emptied (home.symm.trans (placed.owned loser member poured).2)
      simp [Cells.join, notPoured, home]
  bounded := by
    intro index member held
    rw [Cells.cell_join] at held
    split_ifs at held with emptied filled
    · exact absurd held List.not_mem_nil
    · exact filled ▸ bounded
    · exact placed.bounded index member held
  distinct := by
    intro index
    rw [Cells.cell_join]
    split_ifs
    · exact List.nodup_nil
    · rw [nodup_sortedBy]
      refine (placed.distinct keeper).append (placed.distinct loser) ?_
      intro member kept poured
      exact apart ((placed.owned keeper member kept).2.symm.trans
        (placed.owned loser member poured).2)
    · exact placed.distinct index

theorem Placed.move (placed : Placed members cells) {member target : Nat}
    (held : member ∈ cells.cell (cells.home member)) (away : target ≠ cells.home member)
    (bounded : target < cells.count) : Placed members (cells.move member target) where
  homed := by
    intro other known
    rw [Cells.cell_move]
    by_cases same : other = member
    · subst same
      simp [Cells.move]
    · have home : (cells.move member target).home other = cells.home other :=
        Function.update_of_ne same _ _
      have homed := placed.homed other known
      rw [home]
      split_ifs with arrived left
      · rw [mem_sortedBy, List.mem_append, ← arrived]
        exact .inl homed
      · rw [← left]
        exact (List.mem_erase_of_ne same).mpr homed
      · exact homed
  owned := by
    intro index other otherHeld
    rw [Cells.cell_move] at otherHeld
    split_ifs at otherHeld with arrived left
    · rw [mem_sortedBy, List.mem_append, List.mem_singleton] at otherHeld
      rcases otherHeld with stayed | rfl
      · obtain ⟨known, home⟩ := placed.owned target other stayed
        refine ⟨known, ?_⟩
        have differ : other ≠ member := fun equal => away (home.symm.trans (equal ▸ rfl))
        rw [arrived, ← home]
        exact Function.update_of_ne differ _ _
      · exact ⟨(placed.owned _ _ held).1, by simp [Cells.move, arrived]⟩
    · obtain ⟨differ, stayed⟩ := (placed.distinct _).mem_erase_iff.mp otherHeld
      obtain ⟨known, home⟩ := placed.owned _ other stayed
      refine ⟨known, ?_⟩
      rw [left, ← home]
      exact Function.update_of_ne differ _ _
    · obtain ⟨known, home⟩ := placed.owned index other otherHeld
      refine ⟨known, ?_⟩
      have differ : other ≠ member := fun equal => left (home.symm.trans (equal ▸ rfl))
      rw [← home]
      exact Function.update_of_ne differ _ _
  bounded := by
    intro index other otherHeld
    rw [Cells.cell_move] at otherHeld
    split_ifs at otherHeld with arrived left
    · exact arrived ▸ bounded
    · exact placed.bounded index other (left ▸ List.mem_of_mem_erase otherHeld)
    · exact placed.bounded index other otherHeld
  distinct := by
    intro index
    rw [Cells.cell_move]
    split_ifs
    · rw [nodup_sortedBy]
      refine (placed.distinct target).append (List.nodup_singleton member) ?_
      intro other stayed same
      rw [List.mem_singleton.mp same] at stayed
      exact away (placed.owned target member stayed).2.symm
    · exact (placed.distinct _).erase member
    · exact placed.distinct index

/-- What a shed leaves at each index. -/
theorem Cells.cell_shed {loser keeper : Nat} {kept cover : List Nat} {index : Nat} :
    (cells.shed loser keeper kept cover).cell index =
      if index = loser then []
      else if index = keeper then kept
      else if index < cells.count then cells.cell index
      else match cover[index - cells.count]? with
        | some member => [member]
        | none => cells.cell index := by
  simp only [Cells.shed, Function.update_apply, Cells.cell_peelAll]

theorem Cells.home_shed {loser keeper : Nat} {kept cover : List Nat} (distinct : cover.Nodup)
    (member : Nat) : (cells.shed loser keeper kept cover).home member =
      if member ∈ kept then keeper
      else if member ∈ cover then cells.count + cover.idxOf member else cells.home member := by
  simp only [Cells.shed, Cells.home_peelAll distinct]

theorem Placed.union_nodup (placed : Placed members cells) {left right : Nat}
    (apart : left ≠ right) : (cells.cell left ++ cells.cell right).Nodup := by
  refine (placed.distinct left).append (placed.distinct right) ?_
  intro member inLeft inRight
  exact apart ((placed.owned _ member inLeft).2.symm.trans (placed.owned _ member inRight).2)

/-! What a shed keeps and covers is what was in the two cells. -/

section Shed

variable {loser keeper : Nat} {kept cover : List Nat}

theorem mem_parts (parts : (kept ++ cover).Perm (cells.cell keeper ++ cells.cell loser))
    {member : Nat} : member ∈ kept ∨ member ∈ cover ↔
      member ∈ cells.cell keeper ∨ member ∈ cells.cell loser := by
  rw [← List.mem_append, ← List.mem_append]
  exact parts.mem_iff

theorem Placed.known_of_parts (placed : Placed members cells)
    (parts : (kept ++ cover).Perm (cells.cell keeper ++ cells.cell loser)) {member : Nat}
    (held : member ∈ kept ∨ member ∈ cover) : member ∈ members := by
  rcases (mem_parts parts).mp held with left | right
  · exact (placed.owned _ _ left).1
  · exact (placed.owned _ _ right).1

/-- Neither part has a member of another cell. -/
theorem Placed.not_mem_parts (placed : Placed members cells)
    (parts : (kept ++ cover).Perm (cells.cell keeper ++ cells.cell loser)) {index member : Nat}
    (held : member ∈ cells.cell index) (notLoser : index ≠ loser) (notKeeper : index ≠ keeper) :
    member ∉ kept ∧ member ∉ cover := by
  have home := (placed.owned index member held).2
  refine not_or.mp fun either => ?_
  rcases (mem_parts parts).mp either with left | right
  · exact notKeeper (home.symm.trans (placed.owned _ _ left).2)
  · exact notLoser (home.symm.trans (placed.owned _ _ right).2)

/-- Every member of the new cells is kept, sits where it sat, or is covered and by itself. -/
theorem Placed.mem_cell_shed (placed : Placed members cells) (distinct : cover.Nodup)
    {index member : Nat} (held : member ∈ (cells.shed loser keeper kept cover).cell index) :
    (index = keeper ∧ member ∈ kept) ∨
      (index ≠ loser ∧ index ≠ keeper ∧ index < cells.count ∧ member ∈ cells.cell index) ∨
        (member ∈ cover ∧ index = cells.count + cover.idxOf member) := by
  rw [Cells.cell_shed] at held
  split_ifs at held with emptied filled below
  · exact absurd held List.not_mem_nil
  · exact .inl ⟨filled, held⟩
  · exact .inr (.inl ⟨emptied, filled, below, held⟩)
  · cases found : cover[index - cells.count]? with
    | none =>
        rw [found] at held
        exact absurd (placed.bounded index member held) below
    | some peeled =>
        rw [found, List.mem_singleton] at held
        obtain ⟨inside, at_⟩ := List.getElem?_eq_some_iff.mp found
        subst held
        refine .inr (.inr ⟨at_ ▸ List.getElem_mem inside, ?_⟩)
        rw [← at_, distinct.idxOf_getElem]
        omega

theorem Placed.homed_shed (placed : Placed members cells) (distinct : cover.Nodup)
    (apart : keeper ≠ loser) (bounded : keeper < cells.count) (loserBounded : loser < cells.count)
    (parts : (kept ++ cover).Perm (cells.cell keeper ++ cells.cell loser)) {member : Nat}
    (known : member ∈ members) :
    member ∈ (cells.shed loser keeper kept cover).cell
      ((cells.shed loser keeper kept cover).home member) := by
  rw [Cells.home_shed distinct, Cells.cell_shed]
  by_cases inKept : member ∈ kept
  · simp [inKept, apart]
  · by_cases inCover : member ∈ cover
    · have fresh := List.idxOf_lt_length_iff.mpr inCover
      have notLoser : cells.count + cover.idxOf member ≠ loser := by omega
      have notKeeper : cells.count + cover.idxOf member ≠ keeper := by omega
      simp [inKept, inCover, notLoser, notKeeper, List.getElem?_eq_getElem fresh]
    · have homed := placed.homed member known
      obtain ⟨notKeeper, notLoser⟩ := not_or.mp
        (mt (mem_parts parts).mpr (not_or.mpr ⟨inKept, inCover⟩))
      have atLoser : cells.home member ≠ loser := fun equal => notLoser (equal ▸ homed)
      have atKeeper : cells.home member ≠ keeper := fun equal => notKeeper (equal ▸ homed)
      simp [inKept, inCover, atLoser, atKeeper, placed.bounded _ _ homed, homed]

theorem Placed.shed (placed : Placed members cells) (apart : keeper ≠ loser)
    (bounded : keeper < cells.count) (loserBounded : loser < cells.count)
    (parts : (kept ++ cover).Perm (cells.cell keeper ++ cells.cell loser)) :
    Placed members (cells.shed loser keeper kept cover) := by
  obtain ⟨keptDistinct, coverDistinct, separate⟩ :=
    List.nodup_append'.mp (parts.nodup_iff.mpr (placed.union_nodup apart))
  refine ⟨?_, ?_, ?_, ?_⟩
  · intro member known
    exact placed.homed_shed coverDistinct apart bounded loserBounded parts known
  · intro index member held
    rw [Cells.home_shed coverDistinct]
    rcases placed.mem_cell_shed coverDistinct held with ⟨rfl, inKept⟩ |
      ⟨notLoser, notKeeper, _, stayed⟩ | ⟨inCover, rfl⟩
    · exact ⟨placed.known_of_parts parts (.inl inKept), if_pos inKept⟩
    · obtain ⟨notKept, notCover⟩ := placed.not_mem_parts parts stayed notLoser notKeeper
      refine ⟨(placed.owned index member stayed).1, ?_⟩
      rw [if_neg notKept, if_neg notCover]
      exact (placed.owned index member stayed).2
    · have notKept : member ∉ kept := fun inKept => separate inKept inCover
      exact ⟨placed.known_of_parts parts (.inr inCover), by rw [if_neg notKept, if_pos inCover]⟩
  · intro index member held
    have size : (cells.shed loser keeper kept cover).count = cells.count + cover.length :=
      Cells.count_peelAll cover cells
    rw [size]
    rcases placed.mem_cell_shed coverDistinct held with ⟨rfl, _⟩ | ⟨_, _, below, _⟩ |
      ⟨inCover, rfl⟩
    · omega
    · omega
    · have fresh := List.idxOf_lt_length_iff.mpr inCover
      omega
  · intro index
    rw [Cells.cell_shed]
    split_ifs
    · exact List.nodup_nil
    · exact keptDistinct
    · exact placed.distinct index
    · cases cover[index - cells.count]? with
      | none => exact placed.distinct index
      | some member => exact List.nodup_singleton member

end Shed

theorem Placed.step (placed : Placed members cells) (step : CellStep accepts cells next) :
    Placed members next := by
  cases step with
  | join apart bounded _ => exact placed.join apart bounded
  | move held away bounded _ => exact placed.move held away bounded
  | shed apart bounded loserBounded parts _ =>
      exact placed.shed apart bounded loserBounded parts

theorem Placed.run (placed : Placed members cells) (run : CellRun accepts cells next) :
    Placed members next := by
  induction run with
  | refl => exact placed
  | tail _ step ih => exact ih.step step

theorem Placed.singletons (distinct : members.Nodup) : Placed members (Cells.singletons members) := by
  have sorted : (sortedIds members).Nodup := nodup_sortedBy.mpr distinct
  have heldAt : ∀ index member, member ∈ (Cells.singletons members).cell index ↔
      (sortedIds members)[index]? = some member := by
    intro index member
    simp [Cells.singletons, Option.mem_toList]
  refine ⟨?_, ?_, ?_, ?_⟩
  · intro member known
    rw [heldAt]
    exact List.getElem?_idxOf (mem_sortedBy.mpr known)
  · intro index member held
    obtain ⟨inside, at_⟩ := List.getElem?_eq_some_iff.mp ((heldAt index member).mp held)
    subst at_
    exact ⟨mem_sortedBy.mp (List.getElem_mem inside), sorted.idxOf_getElem index inside⟩
  · intro index member held
    obtain ⟨inside, _⟩ := List.getElem?_eq_some_iff.mp ((heldAt index member).mp held)
    simpa [Cells.singletons] using inside
  · intro index
    simp only [Cells.singletons]
    cases (sortedIds members)[index]? <;> simp

/-- A cell is empty, satisfies what every filled set does, or stands as a move left it. -/
def Cells.Stands (holds : List Nat → Prop) (cells : Cells) (part : List Nat) : Prop :=
  part = [] ∨ holds part ∨ sortedIds part ∈ cells.leftBehind

/-- What every set a step fills satisfies, every cell does that no move took a
member from. -/
theorem CellStep.cells_stand {holds : List Nat → Prop} (placed : Placed members cells)
    (accepted : ∀ filled, accepts filled → holds filled)
    (alone : ∀ member ∈ members, holds [member]) (step : CellStep accepts cells next)
    (stands : ∀ index, cells.Stands holds (cells.cell index)) :
    ∀ index, next.Stands holds (next.cell index) := by
  intro index
  cases step with
  | @join loser keeper _ _ tested =>
      rw [Cells.cell_join]
      split_ifs
      · exact .inl rfl
      · exact .inr (.inl (accepted _ tested))
      · exact stands index
  | @move member target _ _ _ tested =>
      rw [Cells.cell_move]
      split_ifs
      · exact .inr (.inl (accepted _ tested))
      · exact .inr (.inr (List.mem_append_right _ (List.mem_singleton.mpr rfl)))
      · exact (stands index).imp_right (.imp_right (List.mem_append_left _))
  | @shed loser keeper kept cover _ _ _ parts tested =>
      rw [Cells.cell_shed]
      split_ifs
      · exact .inl rfl
      · exact .inr (.inl (accepted _ tested))
      · exact stands index
      · cases found : cover[index - cells.count]? with
        | none => exact stands index
        | some member =>
            have covered : member ∈ kept ++ cover :=
              List.mem_append_right _ (List.mem_of_getElem? found)
            rcases List.mem_append.mp (parts.mem_iff.mp covered) with left | right
            · exact .inr (.inl (alone member (placed.owned keeper member left).1))
            · exact .inr (.inl (alone member (placed.owned loser member right).1))

theorem CellRun.cells_stand {holds : List Nat → Prop} (placed : Placed members cells)
    (accepted : ∀ filled, accepts filled → holds filled)
    (alone : ∀ member ∈ members, holds [member]) (run : CellRun accepts cells next)
    (stands : ∀ index, cells.Stands holds (cells.cell index)) :
    ∀ index, next.Stands holds (next.cell index) := by
  induction run with
  | refl => exact stands
  | tail earlier step ih => exact step.cells_stand (placed.run earlier) accepted alone ih

/-- Every cell is inside a set that satisfies what every filled set does. -/
theorem CellStep.cells_inside {holds : List Nat → Prop} (placed : Placed members cells)
    (accepted : ∀ filled, accepts filled → holds filled)
    (alone : ∀ member ∈ members, holds [member]) (step : CellStep accepts cells next)
    (inside : ∀ index, ∃ whole, holds whole ∧ cells.cell index ⊆ whole) :
    ∀ index, ∃ whole, holds whole ∧ next.cell index ⊆ whole := by
  intro index
  cases step with
  | @join loser keeper _ _ tested =>
      rw [Cells.cell_join]
      split_ifs
      · exact ⟨_, accepted _ tested, List.nil_subset _⟩
      · exact ⟨_, accepted _ tested, List.Subset.refl _⟩
      · exact inside index
  | @move member target _ _ _ tested =>
      rw [Cells.cell_move]
      split_ifs
      · exact ⟨_, accepted _ tested, List.Subset.refl _⟩
      · obtain ⟨whole, held, within⟩ := inside (cells.home member)
        exact ⟨whole, held, fun _ stays => within (List.mem_of_mem_erase stays)⟩
      · exact inside index
  | @shed loser keeper kept cover _ _ _ parts tested =>
      rw [Cells.cell_shed]
      split_ifs
      · exact ⟨_, accepted _ tested, List.nil_subset _⟩
      · exact ⟨_, accepted _ tested, List.Subset.refl _⟩
      · exact inside index
      · cases found : cover[index - cells.count]? with
        | none => exact inside index
        | some member =>
            have covered : member ∈ kept ++ cover :=
              List.mem_append_right _ (List.mem_of_getElem? found)
            refine ⟨_, alone member ?_, List.Subset.refl _⟩
            rcases List.mem_append.mp (parts.mem_iff.mp covered) with left | right
            · exact (placed.owned keeper member left).1
            · exact (placed.owned loser member right).1

theorem CellRun.cells_inside {holds : List Nat → Prop} (placed : Placed members cells)
    (accepted : ∀ filled, accepts filled → holds filled)
    (alone : ∀ member ∈ members, holds [member]) (run : CellRun accepts cells next)
    (inside : ∀ index, ∃ whole, holds whole ∧ cells.cell index ⊆ whole) :
    ∀ index, ∃ whole, holds whole ∧ next.cell index ⊆ whole := by
  induction run with
  | refl => exact inside
  | tail earlier step ih => exact step.cells_inside (placed.run earlier) accepted alone ih

end Steps

/-! ### The finished groups -/

section Groups

variable {members : List Nat} {cells : Cells}

theorem Cells.mem_groups {group : List Nat} :
    group ∈ cells.groups ↔
      ∃ index < cells.count, cells.cell index ≠ [] ∧ sortedIds (cells.cell index) = group := by
  simp only [Cells.groups, List.mem_map, List.mem_filter, List.mem_range, Bool.not_eq_true',
    List.isEmpty_eq_false_iff]
  constructor
  · rintro ⟨_, ⟨⟨index, below, rfl⟩, nonempty⟩, rfl⟩
    exact ⟨index, below, nonempty, rfl⟩
  · rintro ⟨index, below, nonempty, rfl⟩
    exact ⟨_, ⟨⟨index, below, rfl⟩, nonempty⟩, rfl⟩

/-- Groups that split a set of members: nonempty, ascending, of the members, each
member in one. -/
structure Splits (members : List Nat) (groups : List (List Nat)) : Prop where
  nonempty : ∀ group ∈ groups, group ≠ []
  ascending : ∀ group ∈ groups, sortedIds group = group
  flat : groups.flatten.Perm members

theorem Splits.singleton {group : List Nat} (nonempty : group ≠ [])
    (ascending : sortedIds group = group) : Splits group [group] where
  nonempty := by simpa using nonempty
  ascending := by simpa using ascending
  flat := by simp

theorem Placed.splits (placed : Placed members cells) (distinct : members.Nodup) :
    Splits members cells.groups where
  nonempty := by
    intro group member
    obtain ⟨index, _, nonempty, rfl⟩ := Cells.mem_groups.mp member
    exact fun empty => nonempty (sortedBy_eq_nil.mp empty)
  ascending := by
    intro group member
    obtain ⟨index, _, _, rfl⟩ := Cells.mem_groups.mp member
    exact sortedBy_sortedBy id _
  flat := by
    have unsorted : ∀ groups : List (List Nat),
        (groups.map sortedIds).flatten.Perm groups.flatten := by
      intro groups
      induction groups with
      | nil => exact .refl _
      | cons head rest ih => simpa using (sortedBy_perm id head).append ih
    have dropped : ∀ groups : List (List Nat),
        (groups.filter fun group => !group.isEmpty).flatten = groups.flatten := by
      intro groups
      induction groups with
      | nil => rfl
      | cons head rest ih => cases head <;> simp [ih]
    refine (unsorted _).trans ?_
    rw [dropped]
    refine (List.perm_ext_iff_of_nodup ?_ distinct).mpr ?_
    · rw [List.nodup_flatten]
      refine ⟨?_, ?_⟩
      · intro group member
        obtain ⟨index, _, rfl⟩ := List.mem_map.mp member
        exact placed.distinct index
      · rw [List.pairwise_map]
        refine List.nodup_range.imp ?_
        intro left right differ member inLeft inRight
        exact differ ((placed.owned left member inLeft).2.symm.trans
          (placed.owned right member inRight).2)
    · intro member
      rw [List.mem_flatten]
      constructor
      · rintro ⟨group, groupMember, held⟩
        obtain ⟨index, _, rfl⟩ := List.mem_map.mp groupMember
        exact (placed.owned index member held).1
      · intro known
        have homed := placed.homed member known
        exact ⟨_, List.mem_map.mpr ⟨cells.home member,
          List.mem_range.mpr (placed.bounded _ _ homed), rfl⟩, homed⟩

end Groups

end Sreality.Autodedup
