import Mathlib.Logic.Relation
import Mathlib.Order.MinMax
import Sreality.Foundation.StableSort

/-! Disjoint sets as a forest of parent pointers, united by smallest root. Every
pointer is at or below its own item, so climbing terminates and the root of a
class is its least member. -/

set_option autoImplicit false

namespace Sreality.Foundation

/-- Parent pointers over identifiers; a root points at itself. -/
structure Forest where
  parent : Nat → Nat
  below : ∀ item, parent item ≤ item

namespace Forest

/-- Every item its own root. -/
def singletons : Forest where
  parent := id
  below := fun _ => le_rfl

/-- Follow pointers for at most `fuel` steps. -/
def climb (forest : Forest) : Nat → Nat → Nat
  | 0, item => item
  | fuel + 1, item =>
      if forest.parent item = item then item else forest.climb fuel (forest.parent item)

/-- The root of an item: a pointer strictly decreases until it meets its root. -/
def find (forest : Forest) (item : Nat) : Nat := forest.climb item item

/-- Point one item at another below it. -/
def redirect (forest : Forest) (item target : Nat) (lower : target ≤ item) : Forest where
  parent := fun other => if other = item then target else forest.parent other
  below := by
    intro other
    by_cases same : other = item
    · simpa [same] using lower
    · simpa [same] using forest.below other

/-- Unite two classes: the larger root is pointed at the smaller. -/
def union (forest : Forest) (left right : Nat) : Forest :=
  forest.redirect (max (forest.find left) (forest.find right))
    (min (forest.find left) (forest.find right)) min_le_max

/-- Unite along a list of pairs, in order. -/
def linkAll (forest : Forest) (pairs : List (Nat × Nat)) : Forest :=
  pairs.foldl (fun current pair => current.union pair.1 pair.2) forest

@[simp] theorem linkAll_nil (forest : Forest) : forest.linkAll [] = forest := rfl

@[simp] theorem linkAll_cons (forest : Forest) (pair : Nat × Nat) (rest : List (Nat × Nat)) :
    forest.linkAll (pair :: rest) = (forest.union pair.1 pair.2).linkAll rest := rfl

@[simp] theorem singletons_parent (item : Nat) : singletons.parent item = item := rfl

theorem parent_climb (forest : Forest) :
    ∀ fuel item, item ≤ fuel →
      forest.parent (forest.climb fuel item) = forest.climb fuel item := by
  intro fuel
  induction fuel with
  | zero =>
      intro item bound
      obtain rfl : item = 0 := Nat.le_zero.mp bound
      exact Nat.le_zero.mp (forest.below 0)
  | succ fuel ih =>
      intro item bound
      unfold climb
      by_cases root : forest.parent item = item
      · rw [if_pos root, root]
      · rw [if_neg root]
        have lower := forest.below item
        exact ih _ (by omega)

theorem climb_of_root {forest : Forest} {item : Nat} (root : forest.parent item = item) :
    ∀ fuel, forest.climb fuel item = item := by
  intro fuel
  cases fuel with
  | zero => rfl
  | succ fuel => simp [climb, root]

theorem climb_eq_climb (forest : Forest) :
    ∀ fuel other item, item ≤ fuel → item ≤ other →
      forest.climb fuel item = forest.climb other item := by
  intro fuel
  induction fuel with
  | zero =>
      intro other item bound _
      obtain rfl : item = 0 := Nat.le_zero.mp bound
      exact (climb_of_root (Nat.le_zero.mp (forest.below 0)) other).symm
  | succ fuel ih =>
      intro other item bound otherBound
      by_cases root : forest.parent item = item
      · rw [climb_of_root root, climb_of_root root]
      · have lower := forest.below item
        cases other with
        | zero =>
            obtain rfl : item = 0 := Nat.le_zero.mp otherBound
            exact absurd (Nat.le_zero.mp (forest.below 0)) root
        | succ other =>
            simp only [climb, if_neg root]
            exact ih other _ (by omega) (by omega)

theorem parent_find (forest : Forest) (item : Nat) :
    forest.parent (forest.find item) = forest.find item :=
  forest.parent_climb item item le_rfl

theorem find_of_root {forest : Forest} {item : Nat} (root : forest.parent item = item) :
    forest.find item = item :=
  climb_of_root root item

theorem find_step (forest : Forest) (item : Nat) :
    forest.find (forest.parent item) = forest.find item := by
  by_cases root : forest.parent item = item
  · rw [root]
  · have lower := forest.below item
    unfold find
    cases item with
    | zero => exact absurd (Nat.le_zero.mp lower) root
    | succ item =>
        conv => rhs; rw [climb, if_neg root]
        exact forest.climb_eq_climb _ _ _ le_rfl (by omega)

@[simp] theorem find_find (forest : Forest) (item : Nat) :
    forest.find (forest.find item) = forest.find item :=
  find_of_root (forest.parent_find item)

@[simp] theorem find_singletons (item : Nat) : singletons.find item = item :=
  find_of_root rfl

/-- Induction along the pointers: a statement about roots that one pointer
carries back holds of every item. -/
theorem climbInduction (forest : Forest) {motive : Nat → Prop}
    (root : ∀ item, forest.parent item = item → motive item)
    (step : ∀ item, forest.parent item ≠ item → motive (forest.parent item) → motive item)
    (item : Nat) : motive item := by
  induction item using Nat.strong_induction_on with
  | _ item ih =>
      by_cases isRoot : forest.parent item = item
      · exact root item isRoot
      · exact step item isRoot (ih _ (lt_of_le_of_ne (forest.below item) isRoot))

theorem find_le (forest : Forest) (item : Nat) : forest.find item ≤ item := by
  induction item using forest.climbInduction with
  | root item isRoot => exact (find_of_root isRoot).le
  | step item _ ih =>
      rw [← find_step]
      exact ih.trans (forest.below item)

/-- Pointing a root at another root moves exactly the first root's class. -/
theorem find_redirect {forest : Forest} {item target : Nat} (lower : target ≤ item)
    (itemRoot : forest.parent item = item) (targetRoot : forest.parent target = target)
    (other : Nat) :
    (forest.redirect item target lower).find other =
      if forest.find other = item then target else forest.find other := by
  have targetFixed : (forest.redirect item target lower).parent target = target := by
    by_cases same : target = item <;> simp [redirect, same, targetRoot]
  induction other using forest.climbInduction with
  | root other isRoot =>
      rw [find_of_root isRoot]
      by_cases same : other = item
      · rw [if_pos same, ← find_step]
        simp only [redirect, if_pos same]
        exact find_of_root targetFixed
      · rw [if_neg same]
        exact find_of_root (by simp [redirect, same, isRoot])
  | step other notRoot ih =>
      have notItem : other ≠ item := by
        rintro rfl
        exact notRoot itemRoot
      rw [← find_step, ← forest.find_step other]
      simpa only [redirect, if_neg notItem] using ih

/-- What one union does to every root. -/
theorem find_union (forest : Forest) (left right item : Nat) :
    (forest.union left right).find item =
      if forest.find item = forest.find left ∨ forest.find item = forest.find right then
        min (forest.find left) (forest.find right)
      else forest.find item := by
  have maxRoot : forest.parent (max (forest.find left) (forest.find right)) =
      max (forest.find left) (forest.find right) := by
    rcases max_choice (forest.find left) (forest.find right) with choice | choice <;>
      rw [choice] <;> exact forest.parent_find _
  have minRoot : forest.parent (min (forest.find left) (forest.find right)) =
      min (forest.find left) (forest.find right) := by
    rcases min_choice (forest.find left) (forest.find right) with choice | choice <;>
      rw [choice] <;> exact forest.parent_find _
  unfold union
  rw [find_redirect min_le_max maxRoot minRoot]
  split_ifs <;> omega

theorem find_union_left (forest : Forest) (left right : Nat) :
    (forest.union left right).find left = (forest.union left right).find right := by
  simp [find_union]

theorem find_union_of_eq {forest : Forest} (left right : Nat) {first second : Nat}
    (same : forest.find first = forest.find second) :
    (forest.union left right).find first = (forest.union left right).find second := by
  rw [find_union, find_union, same]

/-- Path halving, the shortcut `find` takes as it climbs, moves no root. -/
def halve (forest : Forest) (item : Nat) : Forest :=
  forest.redirect item (forest.parent (forest.parent item))
    ((forest.below _).trans (forest.below item))

theorem find_halve (forest : Forest) (item other : Nat) :
    (forest.halve item).find other = forest.find other := by
  induction other using (forest.halve item).climbInduction with
  | root other isRoot =>
      rw [find_of_root isRoot]
      by_cases same : other = item
      · subst same
        have grand : forest.parent (forest.parent other) = other := by
          simpa [halve, redirect] using isRoot
        have first := forest.below other
        have second := forest.below (forest.parent other)
        exact (find_of_root (by omega)).symm
      · exact (find_of_root (by simpa [halve, redirect, same] using isRoot)).symm
  | step other _ ih =>
      rw [← find_step, ih]
      by_cases same : other = item
      · subst same
        simp [halve, redirect, find_step]
      · simp [halve, redirect, same, find_step]

/-! ### Uniting along pairs -/

/-- Connected by a chain of pairs, read in either direction. -/
abbrev Joined (pairs : List (Nat × Nat)) : Nat → Nat → Prop :=
  Relation.EqvGen (fun left right => (left, right) ∈ pairs)

theorem Joined.mono {pairs more : List (Nat × Nat)} (included : pairs ⊆ more) {left right : Nat}
    (joined : Joined pairs left right) : Joined more left right :=
  Relation.EqvGen.mono (fun _ _ member => included member) _ _ joined

theorem find_linkAll_of_find_eq {pairs : List (Nat × Nat)} :
    ∀ {forest : Forest} {first second : Nat}, forest.find first = forest.find second →
      (forest.linkAll pairs).find first = (forest.linkAll pairs).find second := by
  induction pairs with
  | nil => exact fun same => same
  | cons pair rest ih => exact fun same => ih (find_union_of_eq pair.1 pair.2 same)

theorem find_linkAll_pair {pairs : List (Nat × Nat)} {left right : Nat} :
    ∀ {forest : Forest}, (left, right) ∈ pairs →
      (forest.linkAll pairs).find left = (forest.linkAll pairs).find right := by
  induction pairs with
  | nil => exact fun member => absurd member (List.not_mem_nil)
  | cons pair rest ih =>
      intro forest member
      rcases List.mem_cons.mp member with rfl | later
      · rw [linkAll_cons]
        exact find_linkAll_of_find_eq (forest.find_union_left left right)
      · exact ih later

theorem joined_find_linkAll {pairs whole : List (Nat × Nat)} (included : pairs ⊆ whole) :
    ∀ {forest : Forest}, (∀ item, Joined whole item (forest.find item)) →
      ∀ item, Joined whole item ((forest.linkAll pairs).find item) := by
  induction pairs with
  | nil => exact fun sound => sound
  | cons pair rest ih =>
      intro forest sound
      refine ih (fun _ member => included (List.mem_cons_of_mem _ member)) ?_
      intro item
      have ends : Joined whole (forest.find pair.1) (forest.find pair.2) :=
        ((sound pair.1).symm.trans _ _ _ (.rel _ _ (included List.mem_cons_self))).trans _ _ _
          (sound pair.2)
      rw [find_union]
      split_ifs with hit
      · have reached := sound item
        rcases min_choice (forest.find pair.1) (forest.find pair.2) with choice | choice <;>
          rw [choice] <;> rcases hit with hit | hit <;> rw [hit] at reached
        · exact reached
        · exact reached.trans _ _ _ ends.symm
        · exact reached.trans _ _ _ ends
        · exact reached
      · exact sound item

/-- Two items share a root exactly when a chain of pairs joins them. -/
theorem find_linkAll_eq_iff {pairs : List (Nat × Nat)} {first second : Nat} :
    (singletons.linkAll pairs).find first = (singletons.linkAll pairs).find second ↔
      Joined pairs first second := by
  have sound : ∀ item, Joined pairs item ((singletons.linkAll pairs).find item) :=
    joined_find_linkAll (fun _ member => member) (fun item => by simpa using .refl item)
  constructor
  · intro same
    have reached := sound first
    rw [same] at reached
    exact reached.trans _ _ _ (sound second).symm
  · intro joined
    induction joined with
    | rel left right member => exact find_linkAll_pair member
    | refl item => rfl
    | symm left right _ ih => exact ih.symm
    | trans left middle right _ _ first second => exact first.trans second

/-- The root depends on the pairs as a set. -/
theorem find_linkAll_congr {pairs others : List (Nat × Nat)}
    (same : ∀ left right, Joined pairs left right ↔ Joined others left right) (item : Nat) :
    (singletons.linkAll pairs).find item = (singletons.linkAll others).find item := by
  have bound : ∀ {these those : List (Nat × Nat)},
      (∀ left right, Joined these left right → Joined those left right) →
        (singletons.linkAll those).find item ≤ (singletons.linkAll these).find item := by
    intro these those into
    have reached : Joined those item ((singletons.linkAll these).find item) :=
      into _ _ (joined_find_linkAll (fun _ member => member)
        (fun item => by simpa using .refl item) item)
    rw [find_linkAll_eq_iff.mpr reached]
    exact find_le _ _
  exact le_antisymm (bound fun left right => (same left right).mpr)
    (bound fun left right => (same left right).mp)

/-- A selection no pair crosses: uniting along the pairs inside it gives the
selected items the roots uniting along all of them gives. -/
theorem find_linkAll_filter {keep : Nat → Bool} {pairs : List (Nat × Nat)} :
    ∀ {whole part : Forest}, (∀ pair ∈ pairs, keep pair.1 = keep pair.2) →
      (∀ item, keep (whole.find item) = keep item) →
      (∀ item, keep item = true → part.find item = whole.find item) →
        (∀ item, keep ((whole.linkAll pairs).find item) = keep item) ∧
          ∀ item, keep item = true →
            (part.linkAll (pairs.filter fun pair => keep pair.1)).find item =
              (whole.linkAll pairs).find item := by
  induction pairs with
  | nil => exact fun _ rooted same => ⟨rooted, same⟩
  | cons pair rest ih =>
      intro whole part closed rooted same
      have ends := closed pair List.mem_cons_self
      have united : ∀ item, keep ((whole.union pair.1 pair.2).find item) = keep item := by
        intro item
        rw [find_union]
        split_ifs with hit
        · have own : keep item = keep pair.1 := by
            rw [← rooted item]
            rcases hit with hit | hit <;> rw [hit, rooted]
            exact ends.symm
          rcases min_choice (whole.find pair.1) (whole.find pair.2) with choice | choice <;>
            rw [choice, rooted, own]
          exact ends.symm
        · exact rooted item
      have later : ∀ pair ∈ rest, keep pair.1 = keep pair.2 :=
        fun other member => closed other (List.mem_cons_of_mem _ member)
      by_cases kept : keep pair.1 = true
      · rw [List.filter_cons, if_pos kept, linkAll_cons, linkAll_cons]
        refine ih later united ?_
        intro item itemKept
        rw [find_union, find_union, same item itemKept, same pair.1 kept,
          same pair.2 (ends ▸ kept)]
      · rw [List.filter_cons, if_neg kept, linkAll_cons]
        refine ih later united ?_
        intro item itemKept
        rw [same item itemKept, find_union, if_neg]
        rintro (hit | hit)
        · exact kept (by rw [← rooted pair.1, ← hit, rooted, itemKept])
        · exact kept (by rw [ends, ← rooted pair.2, ← hit, rooted, itemKept])

theorem keep_find_linkAll (keep : Nat → Bool) {pairs : List (Nat × Nat)}
    (closed : ∀ pair ∈ pairs, keep pair.1 = keep pair.2) (item : Nat) :
    keep ((singletons.linkAll pairs).find item) = keep item :=
  (find_linkAll_filter closed (by simp) (fun item _ => (rfl : singletons.find item = _))).1 item

/-- Inside a selection no pair crosses, the pairs outside it move no root. -/
theorem find_linkAll_keep (keep : Nat → Bool) {pairs : List (Nat × Nat)}
    (closed : ∀ pair ∈ pairs, keep pair.1 = keep pair.2) {item : Nat} (kept : keep item = true) :
    (singletons.linkAll (pairs.filter fun pair => keep pair.1)).find item =
      (singletons.linkAll pairs).find item :=
  (find_linkAll_filter closed (by simp) (fun item _ => (rfl : singletons.find item = _))).2 item kept

end Forest

/-! ### Grouping by a key -/

section Groups

variable {κ : Type} [LinearOrder κ]

/-- The groups of equal key, keys ascending and each group ascending. -/
def sortedGroups (key : Nat → κ) (items : List Nat) : List (κ × List Nat) :=
  (sortedIds (items.map key).dedup).map fun value =>
    (value, sortedIds (items.filter fun item => key item = value))

theorem mem_sortedGroups {key : Nat → κ} {items : List Nat} {group : κ × List Nat} :
    group ∈ sortedGroups key items ↔
      (∃ item ∈ items, key item = group.1) ∧
        group.2 = sortedIds (items.filter fun item => key item = group.1) := by
  obtain ⟨value, members⟩ := group
  simp only [sortedGroups, List.mem_map, mem_sortedBy, List.mem_dedup, Prod.mk.injEq]
  constructor
  · rintro ⟨_, found, rfl, rfl⟩
    exact ⟨found, rfl⟩
  · rintro ⟨found, equal⟩
    exact ⟨value, found, rfl, equal.symm⟩

theorem sortedGroups_keys (key : Nat → κ) (items : List Nat) :
    (sortedGroups key items).map Prod.fst = sortedIds (items.map key).dedup := by
  simp [sortedGroups, Function.comp_def]

/-- A class is the items of one key. -/
theorem mem_classes {key : Nat → κ} {items class_ : List Nat} :
    class_ ∈ (sortedGroups key items).map Prod.snd ↔ ∃ item ∈ items,
      class_ = sortedIds (items.filter fun other => key other = key item) := by
  simp only [List.mem_map, Prod.exists, mem_sortedGroups]
  constructor
  · rintro ⟨root, _, ⟨⟨item, listed, rfl⟩, equal⟩, rfl⟩
    exact ⟨item, listed, equal⟩
  · rintro ⟨item, listed, rfl⟩
    exact ⟨_, _, ⟨⟨item, listed, rfl⟩, rfl⟩, rfl⟩

/-- The classes share no item. -/
theorem nodup_flatten_classes {key : Nat → κ} {items : List Nat} (distinct : items.Nodup) :
    ((sortedGroups key items).map Prod.snd).flatten.Nodup := by
  apply List.nodup_flatten.mpr
  constructor
  · intro class_ listed
    obtain ⟨item, _, rfl⟩ := mem_classes.mp listed
    exact nodup_sortedBy.mpr (distinct.filter _)
  · have keys : ((sortedGroups key items).map Prod.fst).Pairwise (· ≠ ·) := by
      rw [sortedGroups_keys]
      exact nodup_sortedBy.mpr (List.nodup_dedup _)
    rw [List.pairwise_map] at keys ⊢
    refine keys.imp_of_mem ?_
    intro left right leftListed rightListed apart item inLeft inRight
    rw [(mem_sortedGroups.mp leftListed).2, mem_sortedBy, List.mem_filter] at inLeft
    rw [(mem_sortedGroups.mp rightListed).2, mem_sortedBy, List.mem_filter] at inRight
    exact apart ((of_decide_eq_true inLeft.2).symm.trans (of_decide_eq_true inRight.2))

theorem sortedGroups_congr {key other : Nat → κ} {items : List Nat}
    (same : ∀ item ∈ items, key item = other item) :
    sortedGroups key items = sortedGroups other items := by
  have keys : items.map key = items.map other := List.map_congr_left same
  unfold sortedGroups
  rw [keys]
  refine List.map_congr_left fun value _ => ?_
  have selected : (items.filter fun item => key item = value) =
      items.filter fun item => other item = value :=
    List.filter_congr fun item member => by rw [same item member]
  rw [selected]

theorem sortedGroups_perm {key : Nat → κ} {items others : List Nat}
    (same : items.Perm others) : sortedGroups key items = sortedGroups key others := by
  unfold sortedGroups
  rw [sortedIds_eq_of_perm (same.map key).dedup]
  refine List.map_congr_left fun value _ => ?_
  rw [sortedIds_eq_of_perm (same.filter fun item => key item = value)]

/-- A selection that is a matter of the key selects whole groups. -/
theorem sortedGroups_filter {key : Nat → κ} {items : List Nat} {keep : Nat → Bool}
    {keepKey : κ → Bool} (whole : ∀ item ∈ items, keep item = keepKey (key item)) :
    sortedGroups key (items.filter keep) =
      (sortedGroups key items).filter fun group => keepKey group.1 := by
  have keys : sortedIds ((items.filter keep).map key).dedup =
      (sortedIds (items.map key).dedup).filter keepKey := by
    rw [filter_sortedBy]
    refine sortedIds_eq_of_mem_iff (List.nodup_dedup _) ((List.nodup_dedup _).filter _) ?_
    intro value
    simp only [List.mem_dedup, List.mem_map, List.mem_filter]
    constructor
    · rintro ⟨item, ⟨member, kept⟩, rfl⟩
      exact ⟨⟨item, member, rfl⟩, (whole item member).symm.trans kept⟩
    · rintro ⟨⟨item, member, rfl⟩, kept⟩
      exact ⟨item, ⟨member, (whole item member).trans kept⟩, rfl⟩
  unfold sortedGroups
  rw [keys, List.filter_map]
  refine List.map_congr_left fun value member => ?_
  have kept := (List.mem_filter.mp member).2
  rw [List.filter_filter]
  congr 2
  refine List.filter_congr fun item itemMember => ?_
  by_cases hit : key item = value
  · simp [hit, whole item itemMember, kept]
  · simp [hit]

theorem sortedGroups_nodup (key : Nat → κ) (items : List Nat) :
    (sortedGroups key items).Nodup := by
  refine List.Nodup.of_map Prod.fst ?_
  rw [sortedGroups_keys, nodup_sortedBy]
  exact List.nodup_dedup _

theorem sortedBy_sortedGroups (key : Nat → κ) (items : List Nat) :
    sortedBy Prod.fst (sortedGroups key items) = sortedGroups key items := by
  refine sortedBy_eq_self ?_
  unfold sortedGroups
  rw [List.pairwise_map]
  exact pairwise_sortedBy id _

end Groups

/-- A list is its classes under a reading, one after the other. -/
theorem perm_flatMap_classes {α : Type} {read : α → Nat} {keys : List Nat} :
    ∀ {values : List α}, keys.Nodup → (∀ value ∈ values, read value ∈ keys) →
      (keys.flatMap fun key => values.filter fun value => read value == key).Perm values := by
  induction keys with
  | nil =>
      intro values _ covered
      rw [List.eq_nil_iff_forall_not_mem.mpr fun value held =>
        List.not_mem_nil (covered value held)]
      exact .refl _
  | cons key rest ih =>
      intro values distinct covered
      obtain ⟨fresh, restDistinct⟩ := List.nodup_cons.mp distinct
      have others := @ih (values.filter fun value => !(read value == key)) restDistinct (by
        intro value listed
        obtain ⟨held, unlike⟩ := List.mem_filter.mp listed
        exact (List.mem_cons.mp (covered value held)).resolve_left (by simpa using unlike))
      have sameRest : (rest.flatMap fun other =>
            (values.filter fun value => !(read value == key)).filter
              fun value => read value == other) =
          rest.flatMap fun other => values.filter fun value => read value == other := by
        refine List.flatMap_congr fun other listed => ?_
        rw [List.filter_filter]
        refine List.filter_congr fun value _ => ?_
        rw [Bool.and_eq_left_iff_imp, beq_iff_eq, Bool.not_eq_true', beq_eq_false_iff_ne]
        rintro rfl same
        exact fresh (same ▸ listed)
      rw [sameRest] at others
      rw [List.flatMap_cons]
      exact (List.Perm.append_left _ others).trans (List.filter_append_perm _ values)

/-! ### Stars -/

/-- Each item is united with the first. -/
def chain : List Nat → List (Nat × Nat)
  | [] => []
  | first :: rest => rest.map fun item => (first, item)

theorem mem_of_chain {items : List Nat} {link : Nat × Nat} (listed : link ∈ chain items) :
    link.1 ∈ items ∧ link.2 ∈ items := by
  cases items with
  | nil => cases listed
  | cons first rest =>
      obtain ⟨item, held, rfl⟩ := List.mem_map.mp listed
      exact ⟨List.mem_cons_self, List.mem_cons_of_mem _ held⟩

theorem chain_apart {items : List Nat} (distinct : items.Nodup) {link : Nat × Nat}
    (listed : link ∈ chain items) : link.1 ≠ link.2 := by
  cases items with
  | nil => cases listed
  | cons first rest =>
      obtain ⟨item, held, rfl⟩ := List.mem_map.mp listed
      intro same
      change first = item at same
      rw [same] at distinct
      exact (List.nodup_cons.mp distinct).1 held

theorem chain_ascends {items : List Nat} (ascends : items.Pairwise (· < ·)) {link : Nat × Nat}
    (listed : link ∈ chain items) : link.1 < link.2 := by
  cases items with
  | nil => cases listed
  | cons first rest =>
      obtain ⟨item, held, rfl⟩ := List.mem_map.mp listed
      exact List.rel_of_pairwise_cons ascends held

/-- A star joins its items. -/
theorem joined_of_chain {items : List Nat} {pairs : List (Nat × Nat)}
    (included : chain items ⊆ pairs) {one other : Nat} (oneHeld : one ∈ items)
    (otherHeld : other ∈ items) : Forest.Joined pairs one other := by
  cases items with
  | nil => cases oneHeld
  | cons first rest =>
      have hub : ∀ item ∈ first :: rest, Forest.Joined pairs first item := by
        intro item held
        rcases List.mem_cons.mp held with rfl | later
        · exact .refl _
        · exact .rel _ _ (included (List.mem_map.mpr ⟨item, later, rfl⟩))
      exact ((hub one oneHeld).symm).trans _ _ _ (hub other otherHeld)

end Sreality.Foundation
