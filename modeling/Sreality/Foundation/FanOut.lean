import Mathlib.Data.Finset.Insert
import Sreality.Foundation.Dicts

/-! A fan-out: items met one after the other under labels, each kept with its labels while fewer
than a cap are kept and the item is admitted. What is kept depends on the order only where the cap
turns an admitted item away. -/

set_option autoImplicit false

namespace Sreality.Foundation

variable {Item Label : Type} [DecidableEq Item] [DecidableEq Label]

/-- One more label of an item. -/
def label (name : Label) (out : Dict Item (Finset Label)) (item : Item) :
    Dict Item (Finset Label) :=
  out.update item fun labels => insert name (labels.getD ∅)

/-- An item met: labelled where it is kept, kept where it is admitted and there is room. -/
def meetItem (cap : Nat) (admits : Item → Bool) (name : Label) (out : Dict Item (Finset Label))
    (item : Item) : Dict Item (Finset Label) :=
  if (out.lookup item).isSome ∨ (out.length < cap ∧ admits item = true) then label name out item
  else out

def meetAll (cap : Nat) (admits : Item → Bool) (name : Label) (out : Dict Item (Finset Label))
    (items : List Item) : Dict Item (Finset Label) :=
  items.foldl (meetItem cap admits name) out

namespace FanOut

variable {cap : Nat} {admits : Item → Bool} {name : Label} {out other : Dict Item (Finset Label)}
  {item : Item} {items more : List Item}

theorem lookup_label (found : Item) :
    (label name out item).lookup found =
      if found = item then some (insert name ((out.lookup item).getD ∅)) else out.lookup found :=
  Dict.lookup_update out item found _

theorem length_label :
    (label name out item).length =
      if (out.lookup item).isSome then out.length else out.length + 1 := by
  have keys := Dict.map_fst_update out item fun labels : Option (Finset Label) =>
    insert name (labels.getD ∅)
  have lengths := congrArg List.length keys
  rw [List.length_map] at lengths
  unfold label
  rw [lengths]
  by_cases held : item ∈ out.map Prod.fst
  · have found : (out.lookup item).isSome = true := by
      rw [Option.isSome_iff_ne_none]
      exact fun none_ => lookup_eq_none_iff_key.mp none_ held
    rw [if_pos held, if_pos found, List.length_map]
  · rw [if_neg held, lookup_eq_none_iff_key.mpr held]
    simp

theorem keyed_label (keyed : Keyed Prod.fst out) : Keyed Prod.fst (label name out item) :=
  Dict.keyed_update keyed item _

/-! ### What one item changes -/

/-- An item not kept after a meeting was not kept before, and was turned away if it was met. -/
theorem meetItem_none {met : Item} :
    (meetItem cap admits name out met).lookup item = none ↔
      out.lookup item = none ∧ (met = item → ¬(out.length < cap ∧ admits item = true)) := by
  unfold meetItem
  split_ifs with kept
  · rw [lookup_label]
    by_cases same : item = met
    · subst same
      simp only [if_pos, reduceCtorEq, forall_const, false_iff, not_and]
      intro fresh
      rw [fresh] at kept
      simpa using kept
    · rw [if_neg same]
      simp [Ne.symm same]
  · constructor
    · intro fresh
      refine ⟨fresh, ?_⟩
      rintro rfl
      exact fun room => kept (.inr room)
    · exact And.left

theorem length_meetItem_le (met : Item) :
    (meetItem cap admits name out met).length ≤ max cap out.length := by
  unfold meetItem
  split_ifs with kept
  · rw [length_label]
    split_ifs with held
    · exact le_max_right _ _
    · have room := (kept.resolve_left held).1
      omega
  · exact le_max_right _ _

theorem le_length_meetItem (met : Item) :
    out.length ≤ (meetItem cap admits name out met).length := by
  unfold meetItem
  split_ifs with kept
  · rw [length_label]
    split_ifs <;> omega
  · exact le_rfl

/-! ### Agreement -/

/-- The same items, each with the same labels, in whatever order. -/
structure Agree (out other : Dict Item (Finset Label)) : Prop where
  length : out.length = other.length
  lookup : ∀ item, out.lookup item = other.lookup item

omit [DecidableEq Label] in
theorem Agree.symm (agree : Agree out other) : Agree other out :=
  ⟨agree.length.symm, fun item => (agree.lookup item).symm⟩

omit [DecidableEq Label] in
theorem Agree.trans {last : Dict Item (Finset Label)} (first : Agree out other)
    (second : Agree other last) : Agree out last :=
  ⟨first.length.trans second.length, fun item => (first.lookup item).trans (second.lookup item)⟩

theorem Agree.meetItem (agree : Agree out other) (met : Item) :
    Agree (meetItem cap admits name out met) (meetItem cap admits name other met) := by
  unfold Foundation.meetItem
  rw [agree.lookup met, agree.length]
  split_ifs with kept
  · constructor
    · rw [length_label, length_label, agree.lookup, agree.length]
    · intro item
      rw [lookup_label, lookup_label, agree.lookup, agree.lookup]
  · exact agree

theorem Agree.meetAll (agree : Agree out other) (items : List Item) :
    Agree (meetAll cap admits name out items) (meetAll cap admits name other items) := by
  induction items generalizing out other with
  | nil => exact agree
  | cons item rest ih => exact ih (agree.meetItem item)

omit [DecidableEq Label] in
theorem agree_of_lookup (keyed : Keyed Prod.fst out) (otherKeyed : Keyed Prod.fst other)
    (same : ∀ item, out.lookup item = other.lookup item) : Agree out other :=
  ⟨(Dict.perm_of_lookup_eq keyed otherKeyed same).length_eq, same⟩

/-! ### What a list of items changes -/

theorem keyed_meetAll (keyed : Keyed Prod.fst out) (items : List Item) :
    Keyed Prod.fst (meetAll cap admits name out items) := by
  induction items generalizing out with
  | nil => exact keyed
  | cons item rest ih =>
      apply ih
      unfold meetItem
      split_ifs
      · exact keyed_label keyed
      · exact keyed

theorem le_length_meetAll (items : List Item) :
    out.length ≤ (meetAll cap admits name out items).length := by
  induction items generalizing out with
  | nil => exact le_rfl
  | cons item rest ih => exact (le_length_meetItem item).trans ih

theorem length_meetAll_le (items : List Item) :
    (meetAll cap admits name out items).length ≤ max cap out.length := by
  induction items generalizing out with
  | nil => exact le_max_right _ _
  | cons item rest ih =>
      have first := @length_meetItem_le _ _ _ _ cap admits name out item
      have later := @ih (meetItem cap admits name out item)
      simp only [meetAll, List.foldl_cons] at later ⊢
      omega

/-- An item kept before is kept, with one more label if it was met. -/
theorem lookup_meetAll_held {labels : Finset Label} (held : out.lookup item = some labels)
    (items : List Item) :
    (meetAll cap admits name out items).lookup item =
      some (if item ∈ items then insert name labels else labels) := by
  induction items generalizing out labels with
  | nil => exact held
  | cons met rest ih =>
      have kept : (meetItem cap admits name out met).lookup item =
          some (if item = met then insert name labels else labels) := by
        unfold meetItem
        by_cases same : item = met
        · subst same
          rw [if_pos (.inl (by rw [held]; rfl)), lookup_label, if_pos rfl, if_pos rfl, held]
          rfl
        · rw [if_neg same]
          split_ifs
          · rw [lookup_label, if_neg same, held]
          · exact held
      refine (ih kept).trans ?_
      by_cases same : item = met
      · subst same
        simp
      · simp [same]

theorem lookup_meetItem_new {met : Item} {labels : Finset Label} (fresh : out.lookup item = none)
    (kept : (meetItem cap admits name out met).lookup item = some labels) :
    met = item ∧ admits item = true ∧ labels = {name} := by
  unfold meetItem at kept
  split_ifs at kept with room
  · rw [lookup_label] at kept
    split_ifs at kept with same
    · subst same
      rw [fresh] at room kept
      refine ⟨rfl, (room.resolve_left (by simp)).2, ?_⟩
      simpa using kept.symm
    · rw [fresh] at kept
      cases kept
  · rw [fresh] at kept
    cases kept

/-- An item kept in the end and not before was met, admitted, and has the one label. -/
theorem lookup_meetAll_new {labels : Finset Label} (fresh : out.lookup item = none)
    (kept : (meetAll cap admits name out items).lookup item = some labels) :
    item ∈ items ∧ admits item = true ∧ labels = {name} := by
  induction items generalizing out with
  | nil =>
      rw [meetAll, List.foldl_nil, fresh] at kept
      cases kept
  | cons met rest ih =>
      cases first : (meetItem cap admits name out met).lookup item with
      | none =>
          obtain ⟨listed, admitted, one⟩ := ih first kept
          exact ⟨List.mem_cons_of_mem _ listed, admitted, one⟩
      | some early =>
          obtain ⟨rfl, admitted, rfl⟩ := lookup_meetItem_new fresh first
          have later := @lookup_meetAll_held _ _ _ _ cap admits name _ _ _ first rest
          refine ⟨List.mem_cons_self, admitted, ?_⟩
          have equal := Option.some.inj (kept.symm.trans later)
          rw [equal]
          split_ifs <;> simp

/-- An admitted item met and not kept was turned away by the cap. -/
theorem full_of_turnedAway (listed : item ∈ items) (admitted : admits item = true)
    (away : (meetAll cap admits name out items).lookup item = none) :
    cap ≤ (meetAll cap admits name out items).length := by
  induction items generalizing out with
  | nil => cases listed
  | cons met rest ih =>
      by_cases later : item ∈ rest
      · exact ih later away
      · have same : met = item := ((List.mem_cons.mp listed).resolve_right later).symm
        cases first : (meetItem cap admits name out met).lookup item with
        | some labels =>
            have still := @lookup_meetAll_held _ _ _ _ cap admits name _ _ _ first rest
            exact absurd (away.symm.trans still) (by simp)
        | none =>
            have full := (meetItem_none.mp first).2 same
            rw [not_and_or, not_lt] at full
            have room := full.resolve_right (not_not.mpr admitted)
            have grows := @le_length_meetItem _ _ _ _ cap admits name out met
            exact (room.trans grows).trans (le_length_meetAll rest)

/-- A full fan-out keeps no more. -/
theorem meetAll_full (full : cap ≤ out.length) (fresh : out.lookup item = none) :
    (meetAll cap admits name out items).lookup item = none := by
  induction items generalizing out with
  | nil => exact fresh
  | cons met rest ih =>
      apply ih (full.trans (le_length_meetItem met))
      exact meetItem_none.mpr ⟨fresh, fun _ room => absurd room.1 (not_lt.mpr full)⟩

/-! ### The order -/

/-- Every admitted item met is kept. -/
def Roomy (cap : Nat) (admits : Item → Bool) (name : Label) (out : Dict Item (Finset Label))
    (items : List Item) : Prop :=
  ∀ item ∈ items, admits item = true →
    (meetAll cap admits name out items).lookup item ≠ none

/-- The items kept are those kept before and the admitted ones met. -/
theorem kept_iff (roomy : Roomy cap admits name out items) :
    (meetAll cap admits name out items).lookup item ≠ none ↔
      out.lookup item ≠ none ∨ (item ∈ items ∧ admits item = true) := by
  constructor
  · intro kept
    by_cases fresh : out.lookup item = none
    · obtain ⟨labels, found⟩ := Option.ne_none_iff_exists'.mp kept
      obtain ⟨listed, admitted, _⟩ := lookup_meetAll_new fresh found
      exact .inr ⟨listed, admitted⟩
    · exact .inl fresh
  · rintro (held | ⟨listed, admitted⟩)
    · obtain ⟨labels, found⟩ := Option.ne_none_iff_exists'.mp held
      rw [lookup_meetAll_held found]
      simp
    · exact roomy item listed admitted

theorem Roomy.congr (agree : Agree out other) (roomy : Roomy cap admits name out items) :
    Roomy cap admits name other items := by
  intro item listed admitted
  rw [← (agree.meetAll items).lookup item]
  exact roomy item listed admitted

/-- One order with room for all means any order has. -/
theorem Roomy.any_order (keyed : Keyed Prod.fst out) (fits : out.length ≤ cap)
    (same : ∀ item, item ∈ items ↔ item ∈ more) (roomy : Roomy cap admits name out items) :
    Roomy cap admits name out more := by
  intro item listed admitted away
  have full := full_of_turnedAway listed admitted away
  have bound := @length_meetAll_le _ _ _ _ cap admits name out items
  -- What the other order keeps is kept in this one, and this one keeps the item too.
  have fewer : ((meetAll cap admits name out more).map Prod.fst).Subperm
      (((meetAll cap admits name out items).map Prod.fst).erase item) := by
    refine List.subperm_of_subset (keyed_meetAll keyed more) fun kept held => ?_
    have found : (meetAll cap admits name out more).lookup kept ≠ none := fun none_ =>
      lookup_eq_none_iff_key.mp none_ held
    have differ : kept ≠ item := fun equal => found (equal ▸ away)
    refine (List.mem_erase_of_ne differ).mpr ?_
    by_contra missing
    have none_ := lookup_eq_none_iff_key.mpr missing
    refine (kept_iff roomy).mpr ?_ none_
    by_cases fresh : out.lookup kept = none
    · obtain ⟨labels, labelled⟩ := Option.ne_none_iff_exists'.mp found
      obtain ⟨met, admitted_, _⟩ := lookup_meetAll_new fresh labelled
      exact .inr ⟨(same kept).mpr met, admitted_⟩
    · exact .inl fresh
  have here : item ∈ (meetAll cap admits name out items).map Prod.fst := by
    by_contra missing
    exact roomy item ((same item).mpr listed) admitted (lookup_eq_none_iff_key.mpr missing)
  have lengths := fewer.length_le
  rw [List.length_erase_of_mem here, List.length_map, List.length_map] at lengths
  have some_ := List.length_pos_of_mem here
  rw [List.length_map] at some_
  omega

/-- With room for all, or none at all, the order of the items does not matter. -/
theorem agree_of_order (keyed : Keyed Prod.fst out)
    (same : ∀ item, item ∈ items ↔ item ∈ more)
    (settled : (out.length ≤ cap ∧ Roomy cap admits name out items) ∨ cap ≤ out.length) :
    Agree (meetAll cap admits name out items) (meetAll cap admits name out more) := by
  refine agree_of_lookup (keyed_meetAll keyed items) (keyed_meetAll keyed more) fun item => ?_
  cases held : out.lookup item with
  | some labels =>
      rw [lookup_meetAll_held held, lookup_meetAll_held held]
      simp only [same item]
  | none =>
      rcases settled with ⟨fits, roomy⟩ | full
      · have other := roomy.any_order keyed fits same
        have both : (meetAll cap admits name out items).lookup item ≠ none ↔
            (meetAll cap admits name out more).lookup item ≠ none := by
          rw [kept_iff roomy, kept_iff other, same item]
        cases first : (meetAll cap admits name out items).lookup item with
        | none =>
            rw [first] at both
            exact (not_not.mp fun some_ => both.mpr some_ rfl).symm
        | some labels =>
            rw [first] at both
            obtain ⟨others, second⟩ := Option.ne_none_iff_exists'.mp (both.mp (by simp))
            rw [second, (lookup_meetAll_new held first).2.2, (lookup_meetAll_new held second).2.2]
      · rw [meetAll_full full held, meetAll_full full held]

/-- Items met again change nothing. -/
theorem meetAll_again (keyed : Keyed Prod.fst out) (again : ∀ item ∈ more, item ∈ items) :
    Agree (meetAll cap admits name out (items ++ more)) (meetAll cap admits name out items) := by
  refine agree_of_lookup (keyed_meetAll keyed _) (keyed_meetAll keyed _) fun item => ?_
  have appended : meetAll cap admits name out (items ++ more) =
      meetAll cap admits name (meetAll cap admits name out items) more := List.foldl_append
  rw [appended]
  cases first : (meetAll cap admits name out items).lookup item with
  | some labels =>
      rw [lookup_meetAll_held first]
      split_ifs with met
      · have named : name ∈ labels := by
          cases held : out.lookup item with
          | none => simp [(lookup_meetAll_new held first).2.2]
          | some before =>
              rw [lookup_meetAll_held held, if_pos (again item met)] at first
              rw [← Option.some.inj first]
              exact Finset.mem_insert_self _ _
        rw [Finset.insert_eq_of_mem named]
      · rfl
  | none =>
      cases second : (meetAll cap admits name (meetAll cap admits name out items) more).lookup
          item with
      | none => rfl
      | some labels =>
          obtain ⟨met, admitted, _⟩ := lookup_meetAll_new first second
          have full := full_of_turnedAway (again item met) admitted first
          rw [meetAll_full full first] at second
          cases second

end FanOut

end Sreality.Foundation
