import Mathlib.Data.List.Find
import Mathlib.Data.List.Pairwise
import Mathlib.Algebra.Order.Group.Abs
import Mathlib.Tactic.Linarith
import Sreality.Autodedup.Guards

/-! What the cluster invariants say. The limbs read the extremes, the classes or
the pairs of a member set; each is equivalent to a statement about pairs, so
validity is a size bound with a symmetric relation on every two members. Two limbs
are not: a land advert anywhere in the set lifts the disposition limb, and the
rounded gap of the extreme areas does not bound the gaps between them. -/

set_option autoImplicit false

namespace Sreality.Autodedup

open Sreality.Foundation
open Sreality.Toolkit (categoryMainCompatible categoryMainCompatible_comm
  categoryMainCompatible_self)

section Pairs

variable {α : Type}

theorem anyPair_eq_false_iff {test : α → α → Bool} {values : List α} :
    anyPair test values = false ↔ values.Pairwise fun left right => test left right = false := by
  induction values with
  | nil => simp [anyPair]
  | cons head rest ih => simp [anyPair, ih]

theorem anyPair_congr {test other : α → α → Bool} {values : List α}
    (same : ∀ left ∈ values, ∀ right ∈ values, test left right = other left right) :
    anyPair test values = anyPair other values := by
  induction values with
  | nil => rfl
  | cons head rest ih =>
      have tests : rest.any (test head) = rest.any (other head) := by
        rw [Bool.eq_iff_iff, List.any_eq_true, List.any_eq_true]
        refine exists_congr fun value => and_congr_right fun member => ?_
        rw [same head List.mem_cons_self value (List.mem_cons_of_mem _ member)]
      have later := ih fun left leftMember right rightMember =>
        same left (List.mem_cons_of_mem _ leftMember) right (List.mem_cons_of_mem _ rightMember)
      simp only [anyPair, tests, later]

theorem anyPair_perm {test : α → α → Bool} (symm : ∀ left right, test left right = test right left)
    {values others : List α} (same : values.Perm others) :
    anyPair test values = anyPair test others := by
  have either : anyPair test values = false ↔ anyPair test others = false := by
    rw [anyPair_eq_false_iff, anyPair_eq_false_iff]
    exact same.pairwise_iff fun apart => (symm _ _).trans apart
  cases found : anyPair test others with
  | false => exact either.mpr found
  | true =>
      by_contra differs
      exact Bool.noConfusion (found.symm.trans (either.mp (Bool.eq_false_iff.mpr differs)))

theorem findPair_congr {test other : α → α → Bool} {values : List α}
    (same : ∀ left ∈ values, ∀ right ∈ values, test left right = other left right) :
    findPair test values = findPair other values := by
  induction values with
  | nil => rfl
  | cons head rest ih =>
      have tests : rest.find? (test head) = rest.find? (other head) :=
        List.find?_congr fun value member =>
          same head List.mem_cons_self value (List.mem_cons_of_mem _ member)
      have later := ih fun left leftMember right rightMember =>
        same left (List.mem_cons_of_mem _ leftMember) right (List.mem_cons_of_mem _ rightMember)
      simp only [findPair, tests, later]

theorem isSome_findPair (test : α → α → Bool) (values : List α) :
    (findPair test values).isSome = anyPair test values := by
  induction values with
  | nil => rfl
  | cons head rest ih =>
      unfold findPair anyPair
      cases found : rest.find? (test head) with
      | some other =>
          have hit : rest.any (test head) = true :=
            List.any_eq_true.mpr ⟨other, List.mem_of_find?_eq_some found,
              List.find?_some found⟩
          simp [hit]
      | none =>
          have miss : rest.any (test head) = false := by
            rw [List.any_eq_false]
            exact fun value member => List.find?_eq_none.mp found value member
          simpa [miss] using ih

theorem pairKey_comm (left right : Nat) : pairKey left right = pairKey right left := by
  unfold pairKey
  split_ifs with below above above
  · omega
  · rfl
  · rfl
  · obtain rfl : left = right := by omega
    rfl

end Pairs

/-! ### Closures -/

theorem sameClosure_eq_true_iff {closureOf : Nat → Option Nat}
    {left right : Nat} :
    sameClosure closureOf left right = true ↔
      ∃ key, closureOf left = some key ∧ closureOf right = some key := by
  unfold sameClosure
  cases closureOf left with
  | none => simp
  | some key => simp

theorem sameClosure_comm (closureOf : Nat → Option Nat) (left right : Nat) :
    sameClosure closureOf left right = sameClosure closureOf right left := by
  rw [Bool.eq_iff_iff, sameClosure_eq_true_iff, sameClosure_eq_true_iff]
  exact exists_congr fun key => and_comm

theorem BoundRelation.ok_comm (relation : BoundRelation) (left right : Nat) :
    relation.ok left right = relation.ok right left := by
  simp only [BoundRelation.ok, sameClosure_comm _ left right, pairKey_comm left right]

theorem BoundRelation.ok_of_sameClosure {relation : BoundRelation} {left right : Nat}
    (same : sameClosure relation.closureOf left right = true) : relation.ok left right = true := by
  simp [BoundRelation.ok, same]

/-- The first violating pair is there exactly when some pair of the set is separated. -/
theorem BoundRelation.violatingPair_isSome_eq_false_iff {relation : BoundRelation}
    {ids : List Nat} :
    (relation.violatingPair ids).isSome = false ↔
      ids.Pairwise fun left right => relation.ok left right = true := by
  rw [BoundRelation.violatingPair, isSome_findPair, anyPair_eq_false_iff,
    (sortedBy_perm id ids).pairwise_iff]
  · simp
  · intro left right ok
    rw [relation.ok_comm right left]
    exact ok

/-! ### Reading the extremes -/

section Apart

variable {α : Type} [LinearOrder α]

/-- A distance the extreme pair decides, on the values that satisfy `domain`. -/
structure DecidedByExtremes (domain : α → Prop) (far : α → α → Bool) : Prop where
  symm : ∀ left right, far left right = far right left
  irrefl : ∀ value, far value value = false
  widen : ∀ least low high greatest, domain least → least ≤ low → low ≤ high →
    high ≤ greatest → far low high = true → far least greatest = true

private theorem far_extremes_iff {domain : α → Prop} {far : α → α → Bool}
    (decided : DecidedByExtremes domain far) {values : List α} (valid : ∀ value ∈ values, domain value)
    {least greatest : α} (leastFound : values.min? = some least)
    (greatestFound : values.max? = some greatest) :
    far least greatest = false ↔ values.Pairwise fun left right => far left right = false := by
  obtain ⟨leastMember, leastBound⟩ := List.min?_eq_some_iff.mp leastFound
  obtain ⟨greatestMember, greatestBound⟩ := List.max?_eq_some_iff.mp greatestFound
  constructor
  · intro near
    refine List.pairwise_of_forall_mem_list fun left leftMember right rightMember => ?_
    by_contra distant
    have distant : far left right = true := by simpa using distant
    rw [Bool.eq_false_iff] at near
    rcases le_total left right with below | above
    · exact near (decided.widen _ _ _ _ (valid least leastMember) (leastBound left leftMember)
        below (greatestBound right rightMember) distant)
    · rw [decided.symm] at distant
      exact near (decided.widen _ _ _ _ (valid least leastMember) (leastBound right rightMember)
        above (greatestBound left leftMember) distant)
  · intro pairwise
    by_cases same : least = greatest
    · rw [same, decided.irrefl]
    · have symmetric : Std.Symm fun left right => far left right = false :=
        ⟨fun left right near => (decided.symm right left).trans near⟩
      exact pairwise.forall leastMember greatestMember same

/-- Whichever way the limb reads the values, it asks whether two of different
closures are far apart. -/
theorem apart_eq_false_iff {domain : α → Prop} {far : α → α → Bool}
    (decided : DecidedByExtremes domain far) {values : List (Nat × α)}
    (valid : ∀ value ∈ values, domain value.2) (closureOf : Nat → Option Nat) :
    apart values closureOf far = false ↔
      values.Pairwise fun left right =>
        far left.2 right.2 = true → sameClosure closureOf left.1 right.1 = true := by
  unfold apart
  dsimp only
  split_ifs with distinct
  · have apartClosures : values.Pairwise fun left right =>
        sameClosure closureOf left.1 right.1 = false := by
      rw [List.nodup_iff_pairwise_ne, List.pairwise_filterMap] at distinct
      refine distinct.imp ?_
      intro left right separate
      rw [Bool.eq_false_iff, Ne, sameClosure_eq_true_iff]
      rintro ⟨key, leftKey, rightKey⟩
      exact separate key leftKey key rightKey rfl
    have reading : (values.Pairwise fun left right =>
          far left.2 right.2 = true → sameClosure closureOf left.1 right.1 = true) ↔
        (values.map Prod.snd).Pairwise fun left right => far left right = false := by
      rw [List.pairwise_map]
      constructor
      · intro pairwise
        refine (pairwise.and apartClosures).imp ?_
        rintro left right ⟨closed, separate⟩
        rw [Bool.eq_false_iff]
        intro distant
        rw [closed distant] at separate
        exact Bool.noConfusion separate
      · intro pairwise
        refine pairwise.imp ?_
        intro left right near distant
        rw [near] at distant
        exact Bool.noConfusion distant
    rw [reading]
    cases least : (values.map Prod.snd).min? with
    | none =>
        have empty : values.map Prod.snd = [] := List.min?_eq_none_iff.mp least
        simp [empty]
    | some low =>
        cases greatest : (values.map Prod.snd).max? with
        | none =>
            have empty : values.map Prod.snd = [] := List.max?_eq_none_iff.mp greatest
            simp [empty]
        | some high =>
            refine far_extremes_iff decided ?_ least greatest
            intro value member
            obtain ⟨source, sourceMember, rfl⟩ := List.mem_map.mp member
            exact valid source sourceMember
  · rw [anyPair_eq_false_iff]
    refine List.Pairwise.iff ?_
    intro left right
    cases far left.2 right.2 <;> simp

theorem min?_perm {values others : List α} (same : values.Perm others) :
    values.min? = others.min? := by
  cases found : values.min? with
  | none =>
      rw [List.min?_eq_none_iff.mp found] at same
      rw [same.nil_eq.symm, List.min?_nil]
  | some least =>
      obtain ⟨held, least_⟩ := List.min?_eq_some_iff.mp found
      exact (List.min?_eq_some_iff.mpr ⟨same.mem_iff.mp held,
        fun other listed => least_ other (same.mem_iff.mpr listed)⟩).symm

theorem max?_perm {values others : List α} (same : values.Perm others) :
    values.max? = others.max? := by
  cases found : values.max? with
  | none =>
      rw [List.max?_eq_none_iff.mp found] at same
      rw [same.nil_eq.symm, List.max?_nil]
  | some greatest =>
      obtain ⟨held, most⟩ := List.max?_eq_some_iff.mp found
      exact (List.max?_eq_some_iff.mpr ⟨same.mem_iff.mp held,
        fun other listed => most other (same.mem_iff.mpr listed)⟩).symm

/-- However the limb reads them, the order of the values does not matter. -/
theorem apart_perm {far : α → α → Bool} (symm : ∀ left right, far left right = far right left)
    (closureOf : Nat → Option Nat) {values others : List (Nat × α)} (same : values.Perm others) :
    apart values closureOf far = apart others closureOf far := by
  have keys := (same.filterMap fun value => closureOf value.1).nodup_iff
  have pairs : anyPair (fun left right =>
        far left.2 right.2 && !sameClosure closureOf left.1 right.1) values =
      anyPair (fun left right =>
        far left.2 right.2 && !sameClosure closureOf left.1 right.1) others :=
    anyPair_perm (fun left right => by rw [symm, sameClosure_comm]) same
  unfold apart
  simp only [keys, min?_perm (same.map Prod.snd), max?_perm (same.map Prod.snd), pairs]

theorem apart_of_length_le {far : α → α → Bool} (self : ∀ value, far value value = false)
    (closureOf : Nat → Option Nat) {values : List (Nat × α)} (single : values.length ≤ 1) :
    apart values closureOf far = false := by
  cases values with
  | nil => rfl
  | cons only rest =>
      have alone : rest = [] := List.eq_nil_of_length_eq_zero (by simpa using single)
      subst alone
      unfold apart
      dsimp only
      split_ifs
      · exact self only.2
      · rfl

/-- Values of one closure are never apart. -/
theorem apart_of_sameClosure {far : α → α → Bool} (self : ∀ value, far value value = false)
    {closureOf : Nat → Option Nat} {values : List (Nat × α)}
    (same : ∀ left ∈ values, ∀ right ∈ values, sameClosure closureOf left.1 right.1 = true) :
    apart values closureOf far = false := by
  by_cases single : values.length ≤ 1
  · exact apart_of_length_le self closureOf single
  have shared : ¬ (values.filterMap fun value => closureOf value.1).Nodup := by
    intro distinct
    obtain ⟨left, right, rest, rfl⟩ : ∃ left right rest, values = left :: right :: rest := by
      cases values with
      | nil => simp at single
      | cons left rest =>
          cases rest with
          | nil => simp at single
          | cons right rest => exact ⟨left, right, rest, rfl⟩
    obtain ⟨key, leftKey, rightKey⟩ :=
      sameClosure_eq_true_iff.mp (same left (by simp) right (by simp))
    simp [leftKey, rightKey] at distinct
  unfold apart
  dsimp only
  rw [if_neg shared, anyPair_eq_false_iff]
  refine List.pairwise_of_forall_mem_list fun left leftHeld right rightHeld => ?_
  rw [same left leftHeld right rightHeld, Bool.not_true, Bool.and_false]

theorem apart_ne_decided :
    DecidedByExtremes (fun _ : α => True) (fun left right => left != right) where
  symm := by
    intro left right
    rw [Bool.eq_iff_iff, bne_iff_ne, bne_iff_ne]
    exact ne_comm
  irrefl := by simp
  widen := by
    intro least low high greatest _ lowBound order highBound distant
    rw [bne_iff_ne] at distant ⊢
    rintro rfl
    exact distant (le_antisymm order (highBound.trans lowBound))

end Apart

/-- Rounded, the relative gap need not grow as the pair widens: of areas it is only known that
they are far apart from either side, and that none is far from itself. -/
theorem areasFar_symm (settings : Settings) (left right : Float64) :
    areasFar settings left right = areasFar settings right left := by
  have gap : (right - left).abs = (left - right).abs := by
    apply Binary.ext
    change |binary64.round (right.value - left.value)| = |binary64.round (left.value - right.value)|
    rw [← neg_sub, BinaryFormat.round_neg, abs_neg]
  simp only [areasFar, gap, max_comm]

theorem areasFar_self (settings : Settings) (area : Float64) :
    areasFar settings area area = false := by
  have none_ : ((area - area).abs / max area area).value = 0 := by
    change binary64.round (|binary64.round (area.value - area.value)| / (max area area).value) = 0
    rw [sub_self, BinaryFormat.round_zero, abs_zero, zero_div, BinaryFormat.round_zero]
  simp only [areasFar, decide_eq_false_iff_not, not_lt]
  exact none_.le.trans settings.spreadPositive.le

/-! ### Validity by pairs -/

section Validity

variable (settings : Settings) (mustNotLink : List Pair) (relation : Option BoundRelation)
  (closureOf : Nat → Option Nat)

/-- What the limbs ask of two members, the areas and the dispositions apart. -/
structure Compatible (left right : Fingerprint) : Prop where
  dealType : ∀ one ∈ left.categoryType, ∀ other ∈ right.categoryType, one = other
  category : categoryMainCompatible left.categoryMain right.categoryMain = true
  floor : settings.clusterFloorSpread = true →
    ∀ one ∈ left.flatFloor, ∀ other ∈ right.flatFloor, one ≠ other →
      sameClosure closureOf left.listingId right.listingId = true
  ruling : pairKey left.listingId right.listingId ∉ mustNotLink
  facts : ∀ bound ∈ relation, bound.ok left.listingId right.listingId = true

/-- Two members state no differing layouts across closures. -/
def SameLayout (left right : Fingerprint) : Prop :=
  ∀ one ∈ left.disposition, ∀ other ∈ right.disposition, one ≠ other →
    sameClosure closureOf left.listingId right.listingId = true

/-- The area limb holds, or the bodies print the spread the same. -/
def AreasHeld (members : List Fingerprint) : Prop :=
  apart (statedValues Fingerprint.sized members) closureOf (areasFar settings) = false ∨
    settings.d43PrintedAreaPrevails = true ∧ ∃ bound ∈ relation,
      spreadIsPrintedOne members settings bound closureOf = true

/-- A member set every limb accepts. -/
structure ClusterValid (members : List Fingerprint) : Prop where
  size : members.length ≤ settings.maxClusterSize
  areas : AreasHeld settings relation closureOf members
  pairs : members.Pairwise (Compatible settings mustNotLink relation closureOf)
  layout : settings.clusterDisposition = true → (∀ fp ∈ members, fp.isLand = false) →
    members.Pairwise (SameLayout closureOf)

variable {settings mustNotLink relation closureOf}

theorem Compatible.symm {left right : Fingerprint}
    (compatible : Compatible settings mustNotLink relation closureOf left right) :
    Compatible settings mustNotLink relation closureOf right left where
  dealType := fun one oneHeld other otherHeld =>
    (compatible.dealType other otherHeld one oneHeld).symm
  category := (categoryMainCompatible_comm _ _).trans compatible.category
  floor := by
    intro reads one oneHeld other otherHeld differ
    rw [sameClosure_comm]
    exact compatible.floor reads other otherHeld one oneHeld differ.symm
  ruling := by
    rw [pairKey_comm]
    exact compatible.ruling
  facts := fun bound held => (bound.ok_comm _ _).trans (compatible.facts bound held)

theorem SameLayout.symm {left right : Fingerprint} (same : SameLayout closureOf left right) :
    SameLayout closureOf right left := by
  intro one oneHeld other otherHeld differ
  rw [sameClosure_comm]
  exact same other otherHeld one oneHeld differ.symm

theorem pairwise_statedValues {α : Type} {read : Fingerprint → Option α}
    {members : List Fingerprint} {holds : Nat × α → Nat × α → Prop} :
    (statedValues read members).Pairwise holds ↔
      members.Pairwise fun left right => ∀ one ∈ read left, ∀ other ∈ read right,
        holds (left.listingId, one) (right.listingId, other) := by
  rw [statedValues, List.pairwise_filterMap]
  refine List.Pairwise.iff ?_
  intro left right
  simp only [Option.map_eq_some_iff, Option.mem_def, forall_exists_index, and_imp,
    forall_apply_eq_imp_iff₂]

private theorem typeLimb_iff {members : List Fingerprint} :
    ¬1 < (members.filterMap Fingerprint.categoryType).dedup.length ↔
      members.Pairwise fun left right => ∀ one ∈ left.categoryType,
        ∀ other ∈ right.categoryType, one = other := by
  have single : ∀ values : List String,
      ¬1 < values.dedup.length ↔ values.Pairwise (· = ·) := by
    intro values
    constructor
    · intro short
      refine List.pairwise_of_forall_mem_list fun left leftMember right rightMember => ?_
      match shape : values.dedup with
      | [] =>
          rw [← List.mem_dedup, shape] at leftMember
          exact absurd leftMember List.not_mem_nil
      | [only] =>
          rw [← List.mem_dedup, shape, List.mem_singleton] at leftMember rightMember
          rw [leftMember, rightMember]
      | _ :: _ :: _ => simp [shape] at short
    · intro equal
      cases values with
      | nil => simp
      | cons head rest =>
          have all : head :: rest = List.replicate (rest.length + 1) head := by
            rw [List.eq_replicate_iff]
            refine ⟨rfl, fun value member => ?_⟩
            rcases List.mem_cons.mp member with rfl | later
            · rfl
            · exact ((List.pairwise_cons.mp equal).1 value later).symm
          rw [all, List.replicate_dedup (Nat.succ_ne_zero _)]
          simp
  rw [single, List.pairwise_filterMap]
  rfl

private theorem categoryLimb_iff {members : List Fingerprint} :
    anyPair (fun left right => !categoryMainCompatible (some left) (some right))
        (sortedIds (members.filterMap Fingerprint.categoryMain).dedup) = false ↔
      members.Pairwise fun left right =>
        categoryMainCompatible left.categoryMain right.categoryMain = true := by
  rw [anyPair_eq_false_iff, (sortedBy_perm id _).pairwise_iff]
  · simp only [Bool.not_eq_false']
    have reflexive : ∀ value : String, categoryMainCompatible (some value) (some value) = true :=
      fun value => categoryMainCompatible_self _
    have symmetric : Std.Symm fun left right : String =>
        categoryMainCompatible (some left) (some right) = true :=
      ⟨fun left right same => (categoryMainCompatible_comm _ _).trans same⟩
    have everyPair : ∀ values : List String,
        (values.Pairwise fun left right =>
            categoryMainCompatible (some left) (some right) = true) ↔
          ∀ left ∈ values, ∀ right ∈ values,
            categoryMainCompatible (some left) (some right) = true := by
      intro values
      constructor
      · intro pairwise left leftMember right rightMember
        by_cases same : left = right
        · rw [same]
          exact reflexive right
        · exact pairwise.forall leftMember rightMember same
      · exact fun all => List.pairwise_of_forall_mem_list fun left leftMember right rightMember =>
          all left leftMember right rightMember
    have spread : ((members.filterMap Fingerprint.categoryMain).dedup.Pairwise fun left right =>
        categoryMainCompatible (some left) (some right) = true) ↔
        (members.filterMap Fingerprint.categoryMain).Pairwise fun left right =>
          categoryMainCompatible (some left) (some right) = true := by
      rw [everyPair, everyPair]
      simp only [List.mem_dedup]
    rw [spread, List.pairwise_filterMap]
    refine List.Pairwise.iff ?_
    intro left right
    cases left.categoryMain <;> cases right.categoryMain <;> simp
  · intro left right same
    rw [categoryMainCompatible_comm]
    exact same

private theorem areaLimb_iff {members : List Fingerprint} :
    (apart (statedValues Fingerprint.sized members) closureOf (areasFar settings) &&
        !(settings.d43PrintedAreaPrevails &&
          (relation.any fun bound =>
            spreadIsPrintedOne members settings bound closureOf))) = false ↔
      AreasHeld settings relation closureOf members := by
  unfold AreasHeld
  rw [Bool.and_eq_false_iff, Bool.not_eq_false', Bool.and_eq_true, Option.any_eq_true]
  rfl

private theorem plainLimb_iff {α : Type} [LinearOrder α] {read : Fingerprint → Option α}
    {members : List Fingerprint} :
    apart (statedValues read members) closureOf (fun left right => left != right) = false ↔
      members.Pairwise fun left right => ∀ one ∈ read left, ∀ other ∈ read right,
        one ≠ other → sameClosure closureOf left.listingId right.listingId = true := by
  rw [apart_eq_false_iff apart_ne_decided (fun _ _ => trivial) closureOf, pairwise_statedValues]
  simp only [bne_iff_ne]

private theorem rulingLimb_iff {members : List Fingerprint} :
    anyPair (fun left right => decide (pairKey left right ∈ mustNotLink))
        (members.map Fingerprint.listingId) = false ↔
      members.Pairwise fun left right =>
        pairKey left.listingId right.listingId ∉ mustNotLink := by
  rw [anyPair_eq_false_iff, List.pairwise_map]
  simp only [decide_eq_false_iff_not]

private theorem factLimb_iff {members : List Fingerprint} :
    (relation.any fun bound =>
        (bound.violatingPair (members.map Fingerprint.listingId)).isSome) = false ↔
      members.Pairwise fun left right =>
        ∀ bound ∈ relation, bound.ok left.listingId right.listingId = true := by
  cases relation with
  | none =>
      simp only [Option.any_none, true_iff]
      exact List.pairwise_of_forall (by simp)
  | some bound =>
      rw [Option.any_some, BoundRelation.violatingPair_isSome_eq_false_iff, List.pairwise_map]
      simp

/-- The pass accepts a member set exactly when it is valid by pairs. -/
theorem clusterInvariantsOk_eq_none_iff {members : List Fingerprint} :
    clusterInvariantsOk members settings mustNotLink relation closureOf = none ↔
      ClusterValid settings mustNotLink relation closureOf members := by
  have land : (members.any Fingerprint.isLand) = false ↔ ∀ fp ∈ members, fp.isLand = false := by
    simp
  unfold clusterInvariantsOk
  dsimp only
  split_ifs with size types cats area layout floors rulings facts
  · exact ⟨nofun, fun valid => absurd valid.size (Nat.not_le.mpr size)⟩
  · exact ⟨nofun, fun valid => absurd types
      (typeLimb_iff.mpr (valid.pairs.imp fun compatible => compatible.dealType))⟩
  · refine ⟨nofun, fun valid => ?_⟩
    rw [categoryLimb_iff.mpr (valid.pairs.imp fun compatible => compatible.category)] at cats
    exact Bool.noConfusion cats
  · refine ⟨nofun, fun valid => ?_⟩
    rw [areaLimb_iff.mpr valid.areas] at area
    exact Bool.noConfusion area
  · refine ⟨nofun, fun valid => ?_⟩
    simp only [Bool.and_eq_true, Bool.not_eq_true', land] at layout
    rw [plainLimb_iff.mpr (valid.layout layout.1.1 layout.1.2)] at layout
    exact Bool.noConfusion layout.2
  · refine ⟨nofun, fun valid => ?_⟩
    simp only [Bool.and_eq_true] at floors
    rw [plainLimb_iff.mpr (valid.pairs.imp fun compatible => compatible.floor floors.1)] at floors
    exact Bool.noConfusion floors.2
  · refine ⟨nofun, fun valid => ?_⟩
    rw [rulingLimb_iff.mpr (valid.pairs.imp fun compatible => compatible.ruling)] at rulings
    exact Bool.noConfusion rulings
  · refine ⟨nofun, fun valid => ?_⟩
    rw [factLimb_iff.mpr (valid.pairs.imp fun compatible => compatible.facts)] at facts
    exact Bool.noConfusion facts
  · refine ⟨fun _ => ⟨Nat.not_lt.mp size, areaLimb_iff.mp (Bool.eq_false_iff.mpr area), ?_, ?_⟩,
      fun _ => rfl⟩
    · have dealTypes := typeLimb_iff.mp types
      have categories := categoryLimb_iff.mp (Bool.eq_false_iff.mpr cats)
      have ruled := rulingLimb_iff.mp (Bool.eq_false_iff.mpr rulings)
      have stated := factLimb_iff.mp (Bool.eq_false_iff.mpr facts)
      have storeys : members.Pairwise fun left right => settings.clusterFloorSpread = true →
          ∀ one ∈ left.flatFloor, ∀ other ∈ right.flatFloor, one ≠ other →
            sameClosure closureOf left.listingId right.listingId = true := by
        cases reads : settings.clusterFloorSpread with
        | false => exact List.pairwise_of_forall (fun _ _ contrary => Bool.noConfusion contrary)
        | true =>
            rw [reads, Bool.true_and] at floors
            exact (plainLimb_iff.mp (Bool.eq_false_iff.mpr floors)).imp fun holds _ => holds
      refine List.Pairwise.imp ?_ (((dealTypes.and categories).and storeys).and
        (ruled.and stated))
      rintro left right ⟨⟨⟨dealType, category⟩, floor⟩, ruling, facts⟩
      exact ⟨dealType, category, floor, ruling, facts⟩
    · intro reads noLand
      rw [reads, land.mpr noLand] at layout
      exact plainLimb_iff.mp (Bool.eq_false_iff.mpr (by simpa using layout))

/-- Of a set inside an accepted one two limbs alone can be broken: the areas, whose gap is
rounded, and the dispositions, which a land advert of the wider set keeps from being read. -/
theorem ClusterValid.part_refused {part members : List Fingerprint} {invariant : Invariant}
    (valid : ClusterValid settings mustNotLink relation closureOf members)
    (inside : part.Subperm members)
    (refused : clusterInvariantsOk part settings mustNotLink relation closureOf =
      some invariant) :
    invariant = .areaSpread ∨
      invariant = .disposition ∧ ∃ fp ∈ members, fp.isLand = true := by
  obtain ⟨listed, same, sublist⟩ := inside
  have pairs : part.Pairwise (Compatible settings mustNotLink relation closureOf) :=
    (same.pairwise_iff fun compatible => compatible.symm).mp (valid.pairs.sublist sublist)
  unfold clusterInvariantsOk at refused
  dsimp only at refused
  split_ifs at refused with size types cats area layout floors rulings facts
  · have fits := valid.size
    have shorter := sublist.length_le
    rw [same.length_eq] at shorter
    omega
  · exact absurd types (typeLimb_iff.mpr (pairs.imp fun compatible => compatible.dealType))
  · rw [categoryLimb_iff.mpr (pairs.imp fun compatible => compatible.category)] at cats
    exact Bool.noConfusion cats
  · exact .inl (Option.some.inj refused).symm
  · refine .inr ⟨(Option.some.inj refused).symm, ?_⟩
    by_contra noLand
    simp only [Bool.and_eq_true] at layout
    have held : members.Pairwise (SameLayout closureOf) := by
      refine valid.layout layout.1.1 fun fp member => ?_
      rw [Bool.eq_false_iff]
      exact fun isLand => noLand ⟨fp, member, isLand⟩
    have parted := (same.pairwise_iff fun layout => layout.symm).mp (held.sublist sublist)
    rw [plainLimb_iff.mpr parted] at layout
    exact Bool.noConfusion layout.2
  · simp only [Bool.and_eq_true] at floors
    rw [plainLimb_iff.mpr (pairs.imp fun compatible => compatible.floor floors.1)] at floors
    exact Bool.noConfusion floors.2
  · rw [rulingLimb_iff.mpr (pairs.imp fun compatible => compatible.ruling)] at rulings
    exact Bool.noConfusion rulings
  · rw [factLimb_iff.mpr (pairs.imp fun compatible => compatible.facts)] at facts
    exact Bool.noConfusion facts

theorem AreasHeld.perm {members others : List Fingerprint}
    (held : AreasHeld settings relation closureOf members) (same : members.Perm others) :
    AreasHeld settings relation closureOf others := by
  have stated : (statedValues Fingerprint.sized members).Perm
      (statedValues Fingerprint.sized others) := same.filterMap _
  unfold AreasHeld at held ⊢
  rw [apart_perm (areasFar_symm settings) closureOf stated] at held
  refine held.imp_right fun ⟨prevails, bound, known, printed⟩ => ⟨prevails, bound, known, ?_⟩
  unfold spreadIsPrintedOne at printed ⊢
  rw [← anyPair_perm _ stated]
  · exact printed
  · intro left right
    rw [areasFar_symm settings left.2, sameClosure_comm, bound.printedSymm left.1,
      Bool.and_comm (bound.readable left.1)]

/-- Areas of one closure are not compared. -/
theorem areasHeld_of_sameClosure {members : List Fingerprint}
    (same : ∀ one ∈ members, ∀ other ∈ members,
      sameClosure closureOf one.listingId other.listingId = true) :
    AreasHeld settings relation closureOf members := by
  refine .inl (apart_of_sameClosure (areasFar_self settings) ?_)
  intro left leftHeld right rightHeld
  obtain ⟨one, oneHeld, oneRead⟩ := List.mem_filterMap.mp leftHeld
  obtain ⟨other, otherHeld, otherRead⟩ := List.mem_filterMap.mp rightHeld
  obtain ⟨_, _, rfl⟩ := Option.map_eq_some_iff.mp oneRead
  obtain ⟨_, _, rfl⟩ := Option.map_eq_some_iff.mp otherRead
  exact same one oneHeld other otherHeld

theorem areasHeld_of_length_le {members : List Fingerprint} (single : members.length ≤ 1) :
    AreasHeld settings relation closureOf members := by
  have few : (statedValues Fingerprint.sized members).length ≤ 1 :=
    (List.length_filterMap_le _ _).trans single
  exact .inl (apart_of_length_le (areasFar_self settings) closureOf few)

theorem ClusterValid.perm {members others : List Fingerprint}
    (valid : ClusterValid settings mustNotLink relation closureOf members)
    (same : members.Perm others) :
    ClusterValid settings mustNotLink relation closureOf others where
  size := same.length_eq ▸ valid.size
  areas := valid.areas.perm same
  pairs := (same.pairwise_iff fun compatible => compatible.symm).mp valid.pairs
  layout := by
    intro reads noLand
    exact (same.pairwise_iff fun layout => layout.symm).mp
      (valid.layout reads fun fp member => noLand fp (same.mem_iff.mp member))

end Validity

end Sreality.Autodedup
