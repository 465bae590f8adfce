import Sreality.Foundation.JsonTextProperties
import Sreality.LocationData.PayloadRules

/-! When the order of a profile's pointers does not matter to the bytes a document is normalised
to, and normalising once more changes nothing. -/

set_option autoImplicit false

namespace Sreality.LocationData.PayloadNorm

open Foundation Foundation.JsonText

/-! ### What settles a document -/

/-- The length that the deletions by index leave of a list when there are enough of them. -/
def keptLength (rules : List Rule) (length : Nat) : Nat := (dropIndexes rules).foldr min length

section KeptLength

variable {rules : List Rule} {length : Nat}

theorem keptLength_le : keptLength rules length ≤ length := by
  unfold keptLength
  induction dropIndexes rules with
  | nil => exact le_rfl
  | cons place rest ih => exact (min_le_right _ _).trans ih

theorem keptLength_le_dropIndex {place : Nat} (listed : place ∈ dropIndexes rules) :
    keptLength rules length ≤ place := by
  unfold keptLength
  generalize dropIndexes rules = places at listed ⊢
  induction places with
  | nil => cases listed
  | cons first rest ih =>
      rcases List.mem_cons.mp listed with rfl | deeper
      · exact min_le_left _ _
      · exact (min_le_right _ _).trans (ih deeper)

/-- A list that loses elements keeps those before the first index deleted. -/
theorem mem_dropIndexes_of_keptLength_lt (loses : keptLength rules length < length) :
    keptLength rules length ∈ dropIndexes rules := by
  unfold keptLength at loses ⊢
  generalize dropIndexes rules = places at loses ⊢
  induction places with
  | nil => exact absurd loses (lt_irrefl _)
  | cons place rest ih =>
      rw [List.foldr_cons] at loses ⊢
      rcases le_total place (rest.foldr min length) with first | later
      · rw [min_eq_left first]
        exact List.mem_cons_self
      · rw [min_eq_right later] at loses ⊢
        exact List.mem_cons_of_mem _ (ih loses)

end KeptLength

variable {floats : Floats}

/-- A document that rules settle: every string left is Unicode text, and a list from which an
element is deleted by its index is cut at the least such index, by as many deletions as it has
elements from there on. -/
inductive Settled : List Rule → Json floats.Value → Prop where
  | null {rules : List Rule} : Settled rules .null
  | bool {rules : List Rule} {value : Bool} : Settled rules (.bool value)
  | int {rules : List Rule} {value : Int} : Settled rules (.int value)
  | float {rules : List Rule} {value : floats.Value} : Settled rules (.float value)
  | str {rules : List Rule} {text : CodePoints} : Unicode text → Settled rules (.str text)
  | obj {rules : List Rule} {members : List (CodePoints × Json floats.Value)} :
      (∀ member ∈ members, stays rules member.1 = true → Unicode member.1) →
      (∀ member ∈ members, stays rules member.1 = true →
        Settled (under (selects · member.1) rules) member.2) → Settled rules (.obj members)
  | emptied {rules : List Rule} {items : List (Json floats.Value)} : [wildcard] ∈ rules →
      Settled rules (.arr items)
  | arr {rules : List Rule} {items : List (Json floats.Value)} :
      items.length ≤ keptLength rules items.length +
        (dropIndexes rules).count (keptLength rules items.length) →
      (∀ (position : Nat) (item : Json floats.Value), position < keptLength rules items.length →
        items[position]? = some item → Settled (under (reaches position) rules) item) →
      Settled rules (.arr items)

/-- Every order of the rules leaves the same document, and it is a fixed point that encodes. -/
def FixesAt (rules : List Rule) (node left : Json floats.Value) : Prop :=
  (∀ order : List Rule, order.Perm rules → run order node = some left) ∧
    run rules left = some left ∧ Encodes left

/-- No order of the rules asks a list for an index that `int` cannot read. It is said of the orders:
a deletion by index moves other elements under the indexes of the rules that come after it. -/
def Runs (rules : List Rule) (node : Json floats.Value) : Prop :=
  ∀ order : List Rule, order.Perm rules → (run order node).isSome = true

/-- Rules whose indexes `int` reads run in every order. -/
theorem runs_of_legible {rules : List Rule} (legible : ∀ rule ∈ rules, Legible rule)
    (node : Json floats.Value) : Runs rules node := by
  intro order same
  have each : ∀ rule ∈ order, Legible rule := fun rule listed =>
    legible rule (same.mem_iff.mp listed)
  clear same
  induction order generalizing node with
  | nil => rfl
  | cons rule rest ih =>
      obtain ⟨left, did⟩ := Option.isSome_iff_exists.mp
        (deletePointer_isSome (each rule List.mem_cons_self) node)
      rw [run_cons, did, Option.bind_some]
      exact ih left fun other listed => each other (List.mem_cons_of_mem _ listed)

theorem Runs.child {rules : List Rule} {node item : Json floats.Value} {chooses : CodePoints → Bool}
    (runs : Runs rules node)
    (sees : ∀ order : List Rule, order.Perm rules → ∀ left, run order node = some left →
      (run (under chooses order) item).isSome = true) : Runs (under chooses rules) item := by
  intro order same
  obtain ⟨rules', reordered, rfl⟩ := exists_perm_filterMap same
  obtain ⟨left, done⟩ := Option.isSome_iff_exists.mp (runs rules' reordered)
  exact sees rules' reordered left done

/-! ### Settled documents -/

theorem fixes_obj {rules : List Rule} {members : List (CodePoints × Json floats.Value)}
    (runs : Runs rules (.obj members))
    (keys : ∀ member ∈ members, stays rules member.1 = true → Unicode member.1)
    (fixes : ∀ member ∈ members, stays rules member.1 = true →
      ∃ left, FixesAt (under (selects · member.1) rules) member.2 left) :
    ∃ left, FixesAt rules (.obj members) left := by
  have each : ∀ member ∈ members.filter fun member => stays rules member.1,
      ∃ changed : CodePoints × Json floats.Value, changed.1 = member.1 ∧
        FixesAt (under (selects · member.1) rules) member.2 changed.2 := by
    intro member listed
    obtain ⟨held, kept⟩ := List.mem_filter.mp listed
    obtain ⟨left, fixed⟩ := fixes member held kept
    exact ⟨(member.1, left), rfl, fixed⟩
  obtain ⟨after, related⟩ := exists_forall₂ each
  refine ⟨.obj after, ?_, ?_, ?_⟩
  · intro order same
    obtain ⟨left, done⟩ := Option.isSome_iff_exists.mp (runs order same)
    obtain ⟨other, rfl, ran⟩ := run_obj done
    have kept : (members.filter fun member => stays order member.1) =
        members.filter fun member => stays rules member.1 :=
      List.filter_congr fun member _ => stays_perm same member.1
    rw [kept] at ran
    have equal : other = after := by
      refine forall₂_unique ran related fun member _ changed another held fixed => ?_
      refine Prod.ext (held.1.trans fixed.1.symm) ?_
      have := fixed.2.1 _ (under_perm same _)
      exact Option.some.inj (held.2.symm.trans this)
    rw [done, equal]
  · refine run_obj_of (fun changed listed => ?_) (List.forall₂_same.mpr fun changed listed => ?_)
    · obtain ⟨member, held, sameKey, _⟩ := forall₂_mem_right related listed
      rw [sameKey]
      exact (List.mem_filter.mp held).2
    · obtain ⟨member, _, sameKey, fixed⟩ := forall₂_mem_right related listed
      refine ⟨rfl, ?_⟩
      rw [sameKey]
      exact fixed.2.1
  · refine .obj (fun changed listed => ?_) fun changed listed => ?_
    · obtain ⟨member, held, sameKey, _⟩ := forall₂_mem_right related listed
      obtain ⟨inside, kept⟩ := List.mem_filter.mp held
      rw [sameKey]
      exact keys member inside kept
    · obtain ⟨member, _, _, fixed⟩ := forall₂_mem_right related listed
      exact fixed.2.2

theorem fixes_emptied {rules : List Rule} {items : List (Json floats.Value)}
    (runs : Runs rules (.arr items)) (emptied : [wildcard] ∈ rules) :
    FixesAt rules (.arr items) (.arr []) := by
  refine ⟨fun order same => ?_, ?_, .arr (by simp)⟩
  · obtain ⟨left, done⟩ := Option.isSome_iff_exists.mp (runs order same)
    rw [done, run_emptied (same.mem_iff.mpr emptied) done]
  · obtain ⟨left, done⟩ := Option.isSome_iff_exists.mp (runs rules (.refl _))
    exact run_empty (run_arr_readable done).2

theorem dropIndexes_perm {rules others : List Rule} (order : rules.Perm others) :
    (dropIndexes rules).Perm (dropIndexes others) := order.filterMap _

/-- Enough deletions at the least index cut the list there. -/
theorem fixes_arr {rules : List Rule} {items : List (Json floats.Value)}
    (runs : Runs rules (.arr items)) (full : [wildcard] ∉ rules)
    (enough : items.length ≤ keptLength rules items.length +
      (dropIndexes rules).count (keptLength rules items.length))
    (fixes : ∀ (position : Nat) (item : Json floats.Value),
      position < keptLength rules items.length → items[position]? = some item →
        ∃ left, FixesAt (under (reaches position) rules) item left) :
    ∃ left, FixesAt rules (.arr items) left := by
  generalize cut : keptLength rules items.length = bound at enough fixes
  have fits : bound ≤ items.length := cut ▸ keptLength_le
  have above : ∀ place ∈ dropIndexes rules, bound ≤ place := fun place listed =>
    cut ▸ keptLength_le_dropIndex listed
  have each : ∀ (position : Nat) (item : Json floats.Value),
      (items.take bound)[position]? = some item →
        ∃ left, position < bound ∧ FixesAt (under (reaches position) rules) item left := by
    intro position item listed
    rw [List.getElem?_take] at listed
    split_ifs at listed with inside
    obtain ⟨left, fixed⟩ := fixes position item inside listed
    exact ⟨left, inside, fixed⟩
  obtain ⟨after, related⟩ := exists_indexed each
  have length : after.length = bound := by
    rw [related.length, List.length_take, min_eq_left fits]
  have fixed : ∀ (position : Nat) (changed : Json floats.Value), after[position]? = some changed →
      ∃ item, items[position]? = some item ∧
        FixesAt (under (reaches position) rules) item changed := by
    intro position changed left
    have inside : position < bound := length ▸ (List.getElem?_eq_some_iff.mp left).1
    have listed := List.getElem?_eq_getElem (inside.trans_le fits)
    have taken : (items.take bound)[position]? = some (items.get ⟨position, inside.trans_le fits⟩) := by
      rw [List.getElem?_take, if_pos inside]
      exact listed
    exact ⟨_, listed, (related.at_ position _ changed taken left).2⟩
  refine ⟨.arr after, fun order same => ?_, ?_, ?_⟩
  · obtain ⟨left, done⟩ := Option.isSome_iff_exists.mp (runs order same)
    have places := dropIndexes_perm same
    obtain ⟨other, rfl, ran⟩ := run_arr (fun listed => full (same.mem_iff.mp listed))
      (fun place listed => above place (places.mem_iff.mp listed)) fits done
    have falls := ran.falls
    rw [places.count_eq] at falls
    have short : other.length = bound := le_antisymm (by omega) ran.keeps
    have equal : other = after := by
      refine List.ext_getElem (short.trans length.symm) fun position inside inAfter => ?_
      obtain ⟨item, listed, fixes⟩ := fixed position _ (List.getElem?_eq_getElem inAfter)
      obtain ⟨changed, left, visited⟩ := ran.inner position (short ▸ inside) item listed
      have again := fixes.1 _ (under_perm same (reaches position))
      rw [List.getElem?_eq_getElem inside] at left
      rw [Option.some.inj left]
      exact Option.some.inj (visited.symm.trans again)
    rw [done, equal]
  · obtain ⟨left, done⟩ := Option.isSome_iff_exists.mp (runs rules (.refl _))
    refine run_arr_of (run_arr_readable done).2 full (length ▸ above) ⟨rfl, ?_⟩
    intro position item changed listed left
    cases listed.symm.trans left
    obtain ⟨_, _, fixes⟩ := fixed position item listed
    exact fixes.2.1
  · refine .arr fun item listed => ?_
    obtain ⟨position, inside, rfl⟩ := List.getElem_of_mem listed
    obtain ⟨_, _, fixes⟩ := fixed position _ (List.getElem?_eq_getElem inside)
    exact fixes.2.2

theorem runs_member {rules : List Rule} {members : List (CodePoints × Json floats.Value)}
    (runs : Runs rules (.obj members)) {member : CodePoints × Json floats.Value}
    (listed : member ∈ members) (kept : stays rules member.1 = true) :
    Runs (under (selects · member.1) rules) member.2 := by
  refine runs.child fun order same left done => ?_
  obtain ⟨after, -, ran⟩ := run_obj done
  have inside : member ∈ members.filter fun member => stays order member.1 :=
    List.mem_filter.mpr ⟨listed, (stays_perm same member.1).trans kept⟩
  obtain ⟨changed, -, -, visited⟩ := forall₂_mem_left ran inside
  rw [visited]
  rfl

theorem runs_item {rules : List Rule} {items : List (Json floats.Value)}
    (runs : Runs rules (.arr items)) (full : [wildcard] ∉ rules) {position : Nat}
    {item : Json floats.Value} (inside : position < keptLength rules items.length)
    (listed : items[position]? = some item) : Runs (under (reaches position) rules) item := by
  refine runs.child fun order same left done => ?_
  obtain ⟨after, -, ran⟩ := run_arr (fun listed => full (same.mem_iff.mp listed))
    (fun place listed => keptLength_le_dropIndex ((dropIndexes_perm same).mem_iff.mp listed))
    keptLength_le done
  obtain ⟨changed, -, visited⟩ := ran.inner position inside item listed
  rw [visited]
  rfl

theorem fixes_leaf {rules : List Rule} {node : Json floats.Value}
    (leaves : ∀ rule : Rule, deletePointer rule node = some node) (encodes : Encodes node) :
    ∃ left, FixesAt rules node left :=
  ⟨node, fun order _ => run_scalar leaves order, run_scalar leaves rules, encodes⟩

theorem fixes_of_settled (node : Json floats.Value) {rules : List Rule} (runs : Runs rules node)
    (settled : Settled rules node) : ∃ left, FixesAt rules node left := by
  induction node using Json.induct generalizing rules with
  | null => exact fixes_leaf (fun _ => deletePointer_leaf (by simp) (by simp)) .null
  | bool _ => exact fixes_leaf (fun _ => deletePointer_leaf (by simp) (by simp)) .bool
  | int _ => exact fixes_leaf (fun _ => deletePointer_leaf (by simp) (by simp)) .int
  | float _ => exact fixes_leaf (fun _ => deletePointer_leaf (by simp) (by simp)) .float
  | str text =>
      cases settled with
      | str unicode =>
          exact fixes_leaf (fun _ => deletePointer_leaf (by simp) (by simp)) (.str unicode)
  | arr items ih =>
      by_cases full : [wildcard] ∈ rules
      · exact ⟨_, fixes_emptied runs full⟩
      · cases settled with
        | emptied emptied => exact absurd emptied full
        | arr enough settled =>
            refine fixes_arr runs full enough fun position item inside listed => ?_
            exact ih item (List.mem_of_getElem? listed) (runs_item runs full inside listed)
              (settled position item inside listed)
  | obj members ih =>
      cases settled with
      | obj keys settled =>
          exact fixes_obj runs keys fun member listed kept =>
            ih member listed (runs_member runs listed kept) (settled member listed kept)

/-! ### Fixed documents -/

/-- A property of every order of the rules, read at one child. -/
theorem order_of_child {rules : List Rule} {chooses : CodePoints → Bool}
    {item left : Json floats.Value}
    (each : ∀ order : List Rule, order.Perm rules →
      run (under chooses order) item = some left) :
    ∀ order : List Rule, order.Perm (under chooses rules) → run order item = some left := by
  intro order same
  obtain ⟨others, reordered, rfl⟩ := exists_perm_filterMap same
  exact each others reordered

theorem fixes_members {rules : List Rule} {members : List (CodePoints × Json floats.Value)}
    {left : Json floats.Value} (fixes : FixesAt rules (.obj members) left) :
    ∀ member ∈ members, stays rules member.1 = true → Unicode member.1 ∧
      ∃ changed, FixesAt (under (selects · member.1) rules) member.2 changed := by
  obtain ⟨runs, again, encodes⟩ := fixes
  obtain ⟨after, rfl, -⟩ := run_obj (runs rules (.refl _))
  have ran : ∀ order : List Rule, order.Perm rules →
      List.Forall₂ (fun member changed => changed.1 = member.1 ∧
        run (under (selects · member.1) order) member.2 = some changed.2)
          (members.filter fun member => stays rules member.1) after := by
    intro order same
    obtain ⟨other, equal, ran⟩ := run_obj (runs order same)
    cases equal
    have kept : (members.filter fun member => stays order member.1) =
        members.filter fun member => stays rules member.1 :=
      List.filter_congr fun member _ => stays_perm same member.1
    rw [kept] at ran
    exact ran
  have kept : after.filter (fun changed => stays rules changed.1) = after := by
    refine List.filter_eq_self.mpr fun changed listed => ?_
    obtain ⟨member, held, sameKey, _⟩ := forall₂_mem_right (ran rules (.refl _)) listed
    rw [sameKey]
    exact (List.mem_filter.mp held).2
  have fixed : ∀ changed ∈ after,
      run (under (selects · changed.1) rules) changed.2 = some changed.2 := by
    obtain ⟨other, equal, ran⟩ := run_obj again
    cases equal
    rw [kept] at ran
    exact fun changed listed => (List.forall₂_same.mp ran changed listed).2
  intro member listed stay
  obtain ⟨place, inside, held⟩ :=
    List.getElem_of_mem
      (List.mem_filter.mpr ⟨listed, stay⟩ :
        member ∈ members.filter fun member => stays rules member.1)
  have length := (ran rules (.refl _)).length_eq
  have here : place < after.length := length ▸ inside
  have sees : ∀ order : List Rule, order.Perm rules → after[place].1 = member.1 ∧
      run (under (selects · member.1) order) member.2 = some after[place].2 := by
    intro order same
    have related := (List.forall₂_iff_get.mp (ran order same)).2 place inside here
    simp only [List.get_eq_getElem, held] at related
    exact related
  have listedAfter : after[place] ∈ after := List.getElem_mem here
  have sameKey := (sees rules (.refl _)).1
  cases encodes with
  | obj keys values =>
      refine ⟨sameKey ▸ keys _ listedAfter, after[place].2, ?_, ?_, values _ listedAfter⟩
      · exact order_of_child fun order same => (sees order same).2
      · rw [← sameKey]
        exact fixed _ listedAfter

/-- A rule that deletes at an index. -/
def dropsAt (bound : Nat) (rule : Rule) : Bool := decide (dropIndex rule = some bound)

theorem dropIndexes_dropsAt (rules : List Rule) (bound : Nat) :
    dropIndexes (rules.filter (dropsAt bound)) =
      List.replicate ((dropIndexes rules).count bound) bound := by
  induction rules with
  | nil => rfl
  | cons rule rest ih =>
      cases found : dropIndex rule with
      | none =>
          have other : dropsAt bound rule = false := by simp [dropsAt, found]
          rw [List.filter_cons, other, dropIndexes_cons_none found]
          exact ih
      | some place =>
          rw [dropIndexes_cons_some found]
          by_cases same : place = bound
          · subst same
            have here : dropsAt place rule = true := by simp [dropsAt, found]
            rw [List.filter_cons_of_pos here, dropIndexes_cons_some found, List.count_cons_self, ih]
            rfl
          · have other : dropsAt bound rule = false := by simp [dropsAt, found, same]
            rw [List.filter_cons, other, List.count_cons_of_ne same]
            exact ih

/-- A list that comes out the same in every order, and once more, was cut by enough deletions. -/
theorem enough_of_fixes {rules : List Rule} {items : List (Json floats.Value)}
    {left : Json floats.Value} (fixes : FixesAt rules (.arr items) left)
    (full : [wildcard] ∉ rules) :
    items.length ≤ keptLength rules items.length +
      (dropIndexes rules).count (keptLength rules items.length) := by
  by_contra short
  generalize cut : keptLength rules items.length = bound at short
  have above : ∀ place ∈ dropIndexes rules, bound ≤ place := fun place listed =>
    cut ▸ keptLength_le_dropIndex listed
  have held : bound ∈ dropIndexes rules := by
    rw [← cut]
    exact mem_dropIndexes_of_keptLength_lt (by omega)
  have some_ : 0 < (dropIndexes rules).count bound := List.count_pos_iff.mpr held
  -- The deletions at the least index first: the list is left longer than that index.
  have order : (rules.filter (dropsAt bound) ++
      rules.filter fun rule => !dropsAt bound rule).Perm rules :=
    List.filter_append_perm (dropsAt bound) rules
  have done := fixes.1 _ order
  rw [run_append] at done
  obtain ⟨middle, first, second⟩ := Option.bind_eq_some_iff.mp done
  have firstPlaces := dropIndexes_dropsAt rules bound
  have secondPlaces : ∀ place ∈ dropIndexes (rules.filter fun rule => !dropsAt bound rule),
      bound + 1 ≤ place := by
    intro place listed
    obtain ⟨rule, held, found⟩ := List.mem_filterMap.mp listed
    obtain ⟨inside, other⟩ := List.mem_filter.mp held
    have least := above place (List.mem_filterMap.mpr ⟨rule, inside, found⟩)
    refine Nat.succ_le_of_lt (lt_of_le_of_ne least ?_)
    rintro rfl
    rw [dropsAt, found, decide_eq_true rfl] at other
    cases other
  obtain ⟨between, rfl, ranFirst⟩ := run_arr
    (fun listed => full (List.mem_of_mem_filter listed))
    (fun place listed => by
      rw [firstPlaces] at listed
      exact (List.eq_of_mem_replicate listed).ge)
    (by omega) first
  have few := ranFirst.few
  rw [firstPlaces, List.length_replicate] at few
  obtain ⟨after, rfl, ranSecond⟩ := run_arr
    (fun listed => full (List.mem_of_mem_filter listed)) secondPlaces (by omega) second
  have long := ranSecond.keeps
  -- So the second pass deletes there once more.
  obtain ⟨again, same, ran⟩ := run_arr full above (by omega) fixes.2.1
  cases same
  have falls := ran.falls
  omega

theorem fixes_items {rules : List Rule} {items : List (Json floats.Value)}
    {left : Json floats.Value} (fixes : FixesAt rules (.arr items) left)
    (full : [wildcard] ∉ rules) :
    ∀ (position : Nat) (item : Json floats.Value), position < keptLength rules items.length →
      items[position]? = some item →
        ∃ changed, FixesAt (under (reaches position) rules) item changed := by
  obtain ⟨runs, again, encodes⟩ := fixes
  have ran : ∀ order : List Rule, order.Perm rules → ∃ after, left = .arr after ∧
      ArrRun order (keptLength rules items.length) items after := by
    intro order same
    exact run_arr (fun listed => full (same.mem_iff.mp listed))
      (fun place listed => keptLength_le_dropIndex ((dropIndexes_perm same).mem_iff.mp listed))
      keptLength_le (runs order same)
  obtain ⟨after, rfl, first⟩ := ran rules (.refl _)
  intro position item inside listed
  obtain ⟨changed, left, _⟩ := first.inner position inside item listed
  refine ⟨changed, order_of_child fun order same => ?_, ?_, ?_⟩
  · obtain ⟨other, equal, held⟩ := ran order same
    cases equal
    obtain ⟨result, found, visited⟩ := held.inner position inside item listed
    cases left.symm.trans found
    exact visited
  · obtain ⟨other, equal, held⟩ := run_arr full (fun place => keptLength_le_dropIndex)
      first.keeps again
    cases equal
    obtain ⟨result, found, visited⟩ := held.inner position inside changed left
    cases left.symm.trans found
    exact visited
  · cases encodes with
    | arr each => exact each changed (List.mem_of_getElem? left)

theorem settled_of_fixes (node : Json floats.Value) {rules : List Rule}
    {left : Json floats.Value} (fixes : FixesAt rules node left) : Settled rules node := by
  induction node using Json.induct generalizing rules left with
  | null => exact .null
  | bool _ => exact .bool
  | int _ => exact .int
  | float _ => exact .float
  | str text =>
      have same : run rules (.str text) = some (.str text : Json floats.Value) :=
        run_scalar (fun _ => deletePointer_leaf (by simp) (by simp)) rules
      have encodes := fixes.2.2
      cases same.symm.trans (fixes.1 rules (.refl _))
      cases encodes with
      | str unicode => exact .str unicode
  | arr items ih =>
      by_cases full : [wildcard] ∈ rules
      · exact .emptied full
      · refine .arr (enough_of_fixes fixes full) fun position item inside listed => ?_
        obtain ⟨changed, fixed⟩ := fixes_items fixes full position item inside listed
        exact ih item (List.mem_of_getElem? listed) fixed
  | obj members ih =>
      refine .obj (fun member listed kept => (fixes_members fixes member listed kept).1) ?_
      intro member listed kept
      obtain ⟨changed, fixed⟩ := (fixes_members fixes member listed kept).2
      exact ih member listed fixed

/-- Which documents come out the same in every order of the rules, and once more. -/
theorem fixes_iff {rules : List Rule} {node : Json floats.Value} :
    (∃ left, FixesAt rules node left) ↔ Runs rules node ∧ Settled rules node := by
  constructor
  · rintro ⟨left, fixes⟩
    refine ⟨fun order same => ?_, settled_of_fixes node fixes⟩
    rw [fixes.1 order same]
    rfl
  · rintro ⟨runs, settled⟩
    exact fixes_of_settled node runs settled

/-! ### Key order -/

section Sorted

variable {Float : Type}

theorem changeMembers_sorted {chosen : CodePoints → Bool}
    {change : Json Float → Option (Json Float)} {members : List (CodePoints × Json Float)}
    (commutes : ∀ member ∈ members, change member.2.sorted = (change member.2).map Json.sorted) :
    changeMembers chosen change ((sortedBy Prod.fst members).map Json.sortMember) =
      (changeMembers chosen change members).map
        fun after => (sortedBy Prod.fst after).map Json.sortMember := by
  let read (member : CodePoints × Json Float) : Option (CodePoints × Json Float) :=
    if chosen member.1 then (change member.2).map (Prod.mk member.1) else some member
  have keeps : ∀ member changed, read member = some changed → changed.1 = member.1 := by
    intro member changed done
    dsimp only [read] at done
    split_ifs at done
    · obtain ⟨_, _, rfl⟩ := Option.map_eq_some_iff.mp done
      rfl
    · cases done
      rfl
  have sorts : ∀ member ∈ sortedBy Prod.fst members,
      (read ∘ Json.sortMember) member = (read member).map Json.sortMember := by
    intro member listed
    have taken : (read ∘ Json.sortMember) member = if chosen member.1 then
        (change member.2.sorted).map (Prod.mk member.1) else some (Json.sortMember member) := rfl
    have kept : read member = if chosen member.1 then
        (change member.2).map (Prod.mk member.1) else some member := rfl
    rw [taken, kept, commutes member (mem_sortedBy.mp listed)]
    split_ifs
    · cases change member.2 <;> rfl
    · rfl
  calc changeMembers chosen change ((sortedBy Prod.fst members).map Json.sortMember)
      = (sortedBy Prod.fst members).mapM (read ∘ Json.sortMember) := List.mapM_map
    _ = (sortedBy Prod.fst members).mapM fun member => (read member).map Json.sortMember :=
        mapM_congr sorts
    _ = ((members.mapM read).map (sortedBy Prod.fst)).map (List.map Json.sortMember) := by
        rw [mapM_map_result, mapM_sortedBy keeps]
    _ = _ := Option.map_map _ _ _

theorem changeAt_sorted {change : Json Float → Option (Json Float)} {items : List (Json Float)}
    (commutes : ∀ item ∈ items, change item.sorted = (change item).map Json.sorted) (place : Nat) :
    changeAt change place (items.map Json.sorted) =
      (changeAt change place items).map (List.map Json.sorted) := by
  induction items generalizing place with
  | nil => cases place <;> rfl
  | cons item rest ih =>
      obtain ⟨here, later⟩ := List.forall_mem_cons.mp commutes
      cases place with
      | zero =>
          rw [List.map_cons, changeAt, changeAt, here]
          cases change item <;> rfl
      | succ place =>
          rw [List.map_cons, changeAt, changeAt, ih later]
          cases changeAt change place rest <;> rfl

theorem deletePointer_head_leaf {rule : Rule} {node : Json Float}
    (arr : ∀ items, node ≠ .arr items) (obj : ∀ members, node ≠ .obj members) :
    deletePointer rule node.sorted = (deletePointer rule node).map Json.sorted := by
  have leaf : node.sorted = node := by
    cases node <;> first | rfl | exact absurd rfl (arr _) | exact absurd rfl (obj _)
  rw [leaf, deletePointer_leaf arr obj, Option.map_some, leaf]

/-- Deleting does not see the order of an object's keys. -/
theorem deletePointer_sorted (rule : Rule) (node : Json Float) :
    deletePointer rule node.sorted = (deletePointer rule node).map Json.sorted := by
  induction rule generalizing node with
  | nil => rfl
  | cons head rest ih =>
      cases node with
      | null => exact deletePointer_head_leaf (by simp) (by simp)
      | bool _ => exact deletePointer_head_leaf (by simp) (by simp)
      | int _ => exact deletePointer_head_leaf (by simp) (by simp)
      | float _ => exact deletePointer_head_leaf (by simp) (by simp)
      | str _ => exact deletePointer_head_leaf (by simp) (by simp)
      | arr items =>
          have length : (items.map Json.sorted).length = items.length := List.length_map _
          rw [Json.sorted_arr]
          by_cases every : head = wildcard
          · by_cases last : rest = []
            · simp only [deletePointer, if_pos every, if_pos last, Option.map_some,
                Json.sorted_arr, List.map_nil]
            · simp only [deletePointer, if_pos every, if_neg last, List.mapM_map]
              have each : items.mapM (deletePointer rest ∘ Json.sorted) =
                  items.mapM fun item => (deletePointer rest item).map Json.sorted :=
                mapM_congr fun item _ => ih item
              rw [each, mapM_map_result]
              cases items.mapM (deletePointer rest) with
              | none => rfl
              | some after => rw [Option.map_some, Option.map_some, Option.map_some,
                  Option.map_some, Json.sorted_arr]
          · by_cases last : rest = []
            · simp only [deletePointer, if_neg every, if_pos last, drop, length]
              cases index items.length head with
              | none => rfl
              | some place =>
                  cases place with
                  | none => exact congrArg some (Json.sorted_arr items).symm
                  | some place =>
                      refine congrArg some (Eq.trans ?_ (Json.sorted_arr _).symm)
                      rw [List.eraseIdx_map]
            · simp only [deletePointer, if_neg every, if_neg last, changeChild, length]
              cases index items.length head with
              | none => rfl
              | some place =>
                  cases place with
                  | none => exact congrArg some (Json.sorted_arr items).symm
                  | some place =>
                      have changed := changeAt_sorted (fun item (_ : item ∈ items) => ih item) place
                      simp only [Option.bind_eq_bind, Option.bind_some, changed, Option.map_map]
                      refine congrArg (fun read => (changeAt (deletePointer rest) place items).map
                        read) ?_
                      funext after
                      exact (Json.sorted_arr after).symm
      | obj members =>
          rw [Json.sorted_obj, deletePointer_obj, deletePointer_obj]
          split_ifs with last
          · rw [List.filter_map, filter_sortedBy, Option.map_some, Json.sorted_obj]
            rfl
          · rw [changeMembers_sorted fun member _ => ih member.2, Option.map_map, Option.map_map]
            refine congrArg (fun read => (changeMembers (selects head) (deletePointer rest)
              members).map read) ?_
            funext after
            exact (Json.sorted_obj after).symm

theorem run_sorted (rules : List Rule) (node : Json Float) :
    run rules node.sorted = (run rules node).map Json.sorted := by
  induction rules generalizing node with
  | nil => rfl
  | cons rule rest ih =>
      rw [run_cons, run_cons, deletePointer_sorted]
      cases deletePointer rule node with
      | none => rfl
      | some after => exact ih after

theorem visit_cases {chooses : CodePoints → Bool} {head : CodePoints} {rest : Rule}
    {item changed : Json Float} (done : visit chooses (head :: rest) item = some changed) :
    changed = item ∨ deletePointer rest item = some changed := by
  match rest with
  | [] => exact Or.inl (Option.some.inj done).symm
  | next :: rest =>
      rw [visit] at done
      split_ifs at done
      · exact Or.inr done
      · exact Or.inl (Option.some.inj done).symm

theorem wellFormed_leaf {rule : Rule} {node left : Json Float} (formed : node.WellFormed)
    (arr : ∀ items, node ≠ .arr items) (obj : ∀ members, node ≠ .obj members)
    (done : deletePointer rule node = some left) : left.WellFormed := by
  rw [deletePointer_leaf arr obj] at done
  cases done
  exact formed

/-- Deleting leaves one value for each key. -/
theorem wellFormed_deletePointer {rule : Rule} {node left : Json Float}
    (done : deletePointer rule node = some left) (formed : node.WellFormed) : left.WellFormed := by
  induction rule generalizing node left with
  | nil =>
      cases done
      exact formed
  | cons head rest ih =>
      have visited : ∀ {chooses : CodePoints → Bool} {item changed : Json Float},
          visit chooses (head :: rest) item = some changed → item.WellFormed →
            changed.WellFormed := by
        intro chooses item changed visited formed
        rcases visit_cases visited with rfl | deeper
        · exact formed
        · exact ih deeper formed
      cases formed with
      | null => exact wellFormed_leaf .null (by simp) (by simp) done
      | bool => exact wellFormed_leaf .bool (by simp) (by simp) done
      | int short => exact wellFormed_leaf (.int short) (by simp) (by simp) done
      | float => exact wellFormed_leaf .float (by simp) (by simp) done
      | str => exact wellFormed_leaf .str (by simp) (by simp) done
      | arr formed =>
          obtain ⟨-, step⟩ := deletePointer_arr_iff.mp done
          cases step with
          | emptied _ => exact .arr (by simp)
          | erased _ => exact .arr fun item listed => formed item (List.mem_of_mem_eraseIdx listed)
          | visited _ _ related =>
              refine .arr fun changed listed => ?_
              obtain ⟨place, inside, rfl⟩ := List.getElem_of_mem listed
              have here : place < _ := related.length ▸ inside
              have item := List.getElem?_eq_getElem here
              exact visited (related.at_ place _ _ item (List.getElem?_eq_getElem inside))
                (formed _ (List.getElem_mem here))
      | obj keyed formed =>
          obtain ⟨after, rfl, related⟩ := deletePointer_obj_iff.mp done
          refine .obj ?_ fun changed listed => ?_
          · rw [Keyed, forall₂_map_eq (related.imp fun _ _ held => held.1)]
            exact keyed.filter _
          · obtain ⟨member, held, _, done⟩ := forall₂_mem_right related listed
            exact visited done (formed member (List.mem_of_mem_filter held))

theorem wellFormed_run {rules : List Rule} {node left : Json Float}
    (done : run rules node = some left) (formed : node.WellFormed) : left.WellFormed := by
  induction rules generalizing node with
  | nil =>
      cases done
      exact formed
  | cons rule rest ih =>
      rw [run_cons] at done
      obtain ⟨middle, first, onward⟩ := Option.bind_eq_some_iff.mp done
      exact ih onward (wellFormed_deletePointer first formed)

end Sorted

/-- Whether rules settle a document does not depend on the order of its keys. -/
theorem settled_sorted (node : Json floats.Value) {rules : List Rule} :
    Settled rules node.sorted ↔ Settled rules node := by
  induction node using Json.induct generalizing rules with
  | null => exact Iff.rfl
  | bool _ => exact Iff.rfl
  | int _ => exact Iff.rfl
  | float _ => exact Iff.rfl
  | str _ => exact Iff.rfl
  | arr items ih =>
      have length : (items.map Json.sorted).length = items.length := List.length_map _
      rw [Json.sorted_arr]
      constructor
      · intro settled
        cases settled with
        | emptied emptied => exact .emptied emptied
        | arr enough settled =>
            rw [length] at enough settled
            refine .arr enough fun position item inside listed => ?_
            refine (ih item (List.mem_of_getElem? listed)).mp (settled position _ inside ?_)
            rw [List.getElem?_map, listed, Option.map_some]
      · intro settled
        cases settled with
        | emptied emptied => exact .emptied emptied
        | arr enough settled =>
            refine .arr (length.symm ▸ enough) fun position item inside listed => ?_
            rw [List.getElem?_map, Option.map_eq_some_iff] at listed
            obtain ⟨item, listed, rfl⟩ := listed
            exact (ih item (List.mem_of_getElem? listed)).mpr
              (settled position item (length ▸ inside) listed)
  | obj members ih =>
      rw [Json.sorted_obj]
      constructor
      · intro settled
        cases settled with
        | obj keys settled =>
            have held : ∀ member ∈ members, Json.sortMember member ∈
                (sortedBy Prod.fst members).map Json.sortMember := fun member listed =>
              List.mem_map_of_mem (mem_sortedBy.mpr listed)
            refine .obj (fun member listed => keys (Json.sortMember member) (held member listed))
              fun member listed kept => (ih member listed).mp ?_
            exact settled (Json.sortMember member) (held member listed) kept
      · intro settled
        cases settled with
        | obj keys settled =>
            refine .obj (fun changed listed => ?_) fun changed listed => ?_
            · obtain ⟨member, held, rfl⟩ := List.mem_map.mp listed
              exact keys member (mem_sortedBy.mp held)
            · obtain ⟨member, held, rfl⟩ := List.mem_map.mp listed
              have inside := mem_sortedBy.mp held
              exact fun kept => (ih member inside).mpr (settled member inside kept)

theorem runs_sorted {node : Json floats.Value} {rules : List Rule} :
    Runs rules node.sorted ↔ Runs rules node := by
  simp only [Runs, run_sorted, Option.isSome_map]

/-! ### The bytes -/

/-- Every order of the pointers normalises a body to the same bytes, and these to themselves. -/
def OrderBlind (floats : Floats) (body : ByteArray) (pointers : List CodePoints) : Prop :=
  ∃ bytes, (∀ order : List CodePoints, order.Perm pointers →
      normaliseJson floats body order = some bytes) ∧
    normaliseJson floats bytes pointers = some bytes

theorem normaliseJson_eq {body : ByteArray} {doc : Json floats.Value}
    (read : (decodeUtf8 body).bind (loads floats) = some doc) (pointers : List CodePoints) :
    normaliseJson floats body pointers =
      (run (pointers.map pointerTokens) doc).bind fun left => encodeUtf8 (dumps floats left) := by
  obtain ⟨text, decoded, loaded⟩ := Option.bind_eq_some_iff.mp read
  rw [normaliseJson, decoded, run, List.foldlM_map]
  simp only [Option.bind_eq_bind, Option.bind_some, loaded]

/-- What the bytes of a document hold: the document with its keys in order. -/
theorem loads_left {left : Json floats.Value} {bytes : ByteArray} (formed : left.WellFormed)
    (encoded : encodeUtf8 (dumps floats left) = some bytes) :
    (decodeUtf8 bytes).bind (loads floats) = some left.sorted ∧ Encodes left.sorted := by
  refine ⟨loads_of_encodeUtf8 formed encoded, ?_⟩
  rw [← unicode_dumps, dumps_sorted]
  exact encodeUtf8_isSome.mp (encoded ▸ rfl)

/-- An order of the rules is an order of the pointers. -/
theorem exists_pointers {pointers : List CodePoints} {rules : List Rule}
    (order : rules.Perm (pointers.map pointerTokens)) :
    ∃ others : List CodePoints, others.Perm pointers ∧ others.map pointerTokens = rules := by
  rw [← List.filterMap_eq_map] at order
  obtain ⟨others, same, rfl⟩ := exists_perm_filterMap order
  exact ⟨others, same, by rw [List.filterMap_eq_map]⟩

/-- The pointers of a document a body holds leave the same bytes in every order, and these bytes
as they are, exactly when no order of them asks a list for an index that `int` does not read and
they settle the document. -/
theorem normaliseJson_order_iff {body : ByteArray} {pointers : List CodePoints}
    {doc : Json floats.Value} (read : (decodeUtf8 body).bind (loads floats) = some doc) :
    OrderBlind floats body pointers ↔
      Runs (pointers.map pointerTokens) doc ∧ Settled (pointers.map pointerTokens) doc := by
  have formed : doc.WellFormed := by
    obtain ⟨_, _, loaded⟩ := Option.bind_eq_some_iff.mp read
    exact wellFormed_of_loads loaded
  rw [← runs_sorted, ← settled_sorted, ← fixes_iff]
  constructor
  · rintro ⟨bytes, every, again⟩
    have leaves : ∀ order : List CodePoints, order.Perm pointers → ∃ left,
        run (order.map pointerTokens) doc = some left ∧
          encodeUtf8 (dumps floats left) = some bytes := fun order same => by
      have done := every order same
      rw [normaliseJson_eq read] at done
      exact Option.bind_eq_some_iff.mp done
    obtain ⟨left, ran, encoded⟩ := leaves pointers (.refl _)
    have leftFormed := wellFormed_run ran formed
    obtain ⟨loaded, encodes⟩ := loads_left leftFormed encoded
    refine ⟨left.sorted, fun rules same => ?_, ?_, encodes⟩
    · obtain ⟨order, reordered, rfl⟩ := exists_pointers same
      obtain ⟨other, otherRan, otherEncoded⟩ := leaves order reordered
      have otherLoaded := (loads_left (wellFormed_run otherRan formed) otherEncoded).1
      rw [run_sorted, otherRan, Option.map_some]
      exact otherLoaded.symm.trans loaded
    · rw [normaliseJson_eq loaded, run_sorted] at again
      obtain ⟨last, lastRan, lastEncoded⟩ := Option.bind_eq_some_iff.mp again
      obtain ⟨end_, endRan, rfl⟩ := Option.map_eq_some_iff.mp lastRan
      have endFormed := wellFormed_run endRan leftFormed
      rw [dumps_sorted] at lastEncoded
      have endLoaded := (loads_left endFormed lastEncoded).1
      rw [run_sorted, endRan, Option.map_some]
      exact endLoaded.symm.trans loaded
  · rintro ⟨left, every, again, encodes⟩
    obtain ⟨bytes, encoded⟩ := Option.isSome_iff_exists.mp
      (encodeUtf8_isSome.mpr ((unicode_dumps left).mpr encodes))
    have answers : ∀ order : List CodePoints, order.Perm pointers →
        ∃ last, run (order.map pointerTokens) doc = some last ∧ last.sorted = left := by
      intro order same
      have done := every _ (same.map pointerTokens)
      rw [run_sorted] at done
      exact Option.map_eq_some_iff.mp done
    refine ⟨bytes, fun order same => ?_, ?_⟩
    · obtain ⟨last, ran, rfl⟩ := answers order same
      rw [normaliseJson_eq read, ran, Option.bind_some, ← dumps_sorted]
      exact encoded
    · obtain ⟨last, ran, rfl⟩ := answers pointers (.refl _)
      rw [dumps_sorted] at encoded
      rw [normaliseJson_eq (loads_left (wellFormed_run ran formed) encoded).1, again,
        Option.bind_some, dumps_sorted]
      exact encoded

/-- Floats of which only the constants are told apart. -/
def constantFloats : Floats where
  Value := { text : CodePoints // text ∈ constants }
  read text := if listed : text ∈ constants then ⟨text, listed⟩ else ⟨codes "NaN", by decide⟩
  write value := value.1
  token value := .constant value.2
  read_write value := dif_pos value.2

/-- A list of two that loses its first element twice is empty in either order. -/
theorem both_deleted :
    OrderBlind constantFloats "[\"a\",\"b\"]".toByteArray [codes "/0", codes "/0"] := by
  have read : (decodeUtf8 "[\"a\",\"b\"]".toByteArray).bind (loads constantFloats) =
      some (.arr [.str (codes "a"), .str (codes "b")]) := by
    rw [decodeUtf8_codes]
    rfl
  refine (normaliseJson_order_iff read).mpr ⟨runs_of_legible (by decide) _, .arr (by decide) ?_⟩
  intro position _ inside
  exact absurd inside (by decide +revert)

/-- Two elements deleted by their indexes: which element is left depends on the order. -/
theorem list_reordered :
    normaliseJson constantFloats "[\"a\",\"b\",\"c\"]".toByteArray [codes "/0", codes "/1"] =
        some "[\"b\"]".toByteArray ∧
      normaliseJson constantFloats "[\"a\",\"b\",\"c\"]".toByteArray [codes "/1", codes "/0"] =
        some "[\"c\"]".toByteArray ∧
      "[\"b\"]".toByteArray ≠ "[\"c\"]".toByteArray := by
  have read : (decodeUtf8 "[\"a\",\"b\",\"c\"]".toByteArray).bind (loads constantFloats) =
      some (.arr [.str (codes "a"), .str (codes "b"), .str (codes "c")]) := by
    rw [decodeUtf8_codes]
    rfl
  rw [normaliseJson_eq read, normaliseJson_eq read]
  exact ⟨encodeUtf8_codes "[\"b\"]", encodeUtf8_codes "[\"c\"]", by decide⟩

end Sreality.LocationData.PayloadNorm
