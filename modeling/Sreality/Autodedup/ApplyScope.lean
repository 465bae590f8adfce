import Mathlib.Data.Finset.Basic
import Mathlib.Data.Finset.Lattice.Basic

/-! The apply scope (`autodedup/apply_scope.py`) and what a live run makes of the operator's
setting and its own arguments (`effective_scope`, autodedup/apply.py). -/

set_option autoImplicit false

namespace Sreality.Autodedup

inductive Grain where
  | town
  | quarter
  | district
  deriving DecidableEq

/-- A block as `normalize_block` spells it: `town:563510`. -/
structure Block where
  grain : Grain
  code : Nat
  deriving DecidableEq

/-- The live `listing_location` codes of an advert, all unknown without a row. -/
structure Location where
  obecKod : Option Nat := none
  castObceKod : Option Nat := none
  okresKod : Option Nat := none
  deriving DecidableEq

/-- One advert as the plan reads it. -/
structure Member where
  listing : Nat
  property : Option Nat
  categoryType : Option String
  categoryMain : Option String
  location : Location
  deriving DecidableEq

inductive OutOfScope where
  | category
  | blocks
  | noLocation
  | listingIds
  deriving DecidableEq

/-- Which groups a run may touch; `none` leaves an axis open, an empty set admits nothing. -/
structure Scope where
  categoryTypes : Option (Finset String) := none
  blocks : Option (Finset Block) := none
  listingIds : Option (Finset Nat) := none
  allBlocks : Bool := false
  maxClustersPerRun : Nat := 200

inductive ScopeProblem where
  | settingMissing
  | namesNoCategoryTypes
  | namesNoArea
  deriving DecidableEq

namespace Scope

/-- An axis that names something. -/
def names {α : Type} [DecidableEq α] (axis : Option (Finset α)) : Bool :=
  axis.any fun values => decide (values ≠ ∅)

def liveProblems (scope : Scope) : List ScopeProblem :=
  (if names scope.categoryTypes then [] else [.namesNoCategoryTypes]) ++
    if names scope.blocks || names scope.listingIds || scope.allBlocks then []
    else [.namesNoArea]

def located (blocks : Finset Block) (grain : Grain) (code : Option Nat) : Bool :=
  code.any fun code => decide ({ grain := grain, code := code } ∈ blocks)

/-- Why one advert is outside the scope, `none` when it is inside. -/
def outside (scope : Scope) (listing : Member) : Option OutOfScope :=
  if scope.categoryTypes.any fun types =>
      !listing.categoryType.any fun own => decide (own ∈ types) then
    some .category
  else if scope.blocks.isSome ∧ listing.location = {} then some .noLocation
  else if scope.blocks.any fun blocks =>
      !(located blocks .town listing.location.obecKod ||
        located blocks .quarter listing.location.castObceKod ||
        located blocks .district listing.location.okresKod) then
    some .blocks
  else if scope.listingIds.any fun ids => decide (listing.listing ∉ ids) then some .listingIds
  else none

/-- The first of the reasons, in their order, that some member gives. -/
def groupOutside (scope : Scope) (members : List Member) : Option OutOfScope :=
  [OutOfScope.category, .blocks, .noLocation, .listingIds].find? fun why =>
    members.any fun member => scope.outside member == some why

end Scope

/-- `scope_fields`: the keys a setting or a run's arguments name, validated. -/
structure ScopeFields where
  categoryTypes : Option (Finset String) := none
  blocks : Option (Finset Block) := none
  listingIds : Option (Finset Nat) := none
  allBlocks : Option Bool := none
  maxClustersPerRun : Option Nat := none

/-- `Scope(**fields)`. -/
def ScopeFields.scope (fields : ScopeFields) : Scope where
  categoryTypes := fields.categoryTypes
  blocks := fields.blocks
  listingIds := fields.listingIds
  allBlocks := fields.allBlocks.getD false
  maxClustersPerRun := fields.maxClustersPerRun.getD 200

/-- The second dictionary's keys over the first's. -/
def ScopeFields.replaced (base extra : ScopeFields) : ScopeFields where
  categoryTypes := extra.categoryTypes.or base.categoryTypes
  blocks := extra.blocks.or base.blocks
  listingIds := extra.listingIds.or base.listingIds
  allBlocks := extra.allBlocks.or base.allBlocks
  maxClustersPerRun := extra.maxClustersPerRun.or base.maxClustersPerRun

/-- A set of the arguments under the setting's: the value where the setting names none. -/
def narrowedSet {α : Type} [DecidableEq α] : Option (Finset α) → Option (Finset α) →
    Option (Finset α)
  | base, none => base
  | none, some value => some value
  | some base, some value => some (base ∩ value)

/-- What a live run's arguments leave of the setting. -/
def ScopeFields.narrowed (base extra : ScopeFields) : ScopeFields where
  categoryTypes := narrowedSet base.categoryTypes extra.categoryTypes
  blocks := narrowedSet base.blocks extra.blocks
  listingIds := narrowedSet base.listingIds extra.listingIds
  allBlocks := base.allBlocks
  maxClustersPerRun :=
    match extra.maxClustersPerRun with
    | none => base.maxClustersPerRun
    | some value => some (min (base.maxClustersPerRun.getD 200) value)

/-- `effective_scope`: a dry run's arguments replace the setting, a live run's only narrow it. -/
def effectiveScope (setting : Option ScopeFields) (override : ScopeFields) (live : Bool) :
    Except (List ScopeProblem) Scope :=
  if live = false then .ok ((setting.getD {}).replaced override).scope
  else
    match setting with
    | none => .error [.settingMissing]
    | some base =>
        if base.scope.liveProblems ≠ [] then .error base.scope.liveProblems
        else .ok (base.narrowed override).scope

/-! ### A live run never leaves the setting -/

namespace Scope

/-- An advert is inside when each axis the scope names holds it. -/
structure Inside (scope : Scope) (listing : Member) : Prop where
  category : ∀ types ∈ scope.categoryTypes, ∃ own ∈ listing.categoryType, own ∈ types
  blocks : ∀ blocks ∈ scope.blocks, (located blocks .town listing.location.obecKod ||
    located blocks .quarter listing.location.castObceKod ||
    located blocks .district listing.location.okresKod) = true
  listingIds : ∀ ids ∈ scope.listingIds, listing.listing ∈ ids

theorem inside_of_outside {scope : Scope} {listing : Member}
    (inside : scope.outside listing = none) : scope.Inside listing := by
  unfold outside at inside
  split_ifs at inside with category noLocation blocks listingIds
  constructor
  · intro types named
    rw [Option.mem_def.mp named, Option.any_some, Bool.not_eq_true', Bool.not_eq_false] at category
    obtain ⟨own, known, member⟩ := (Option.any_eq_true _ _).mp category
    exact ⟨own, known, of_decide_eq_true member⟩
  · intro held named
    rw [Option.mem_def.mp named, Option.any_some, Bool.not_eq_true', Bool.not_eq_false] at blocks
    exact blocks
  · intro ids named
    rw [Option.mem_def.mp named] at listingIds
    simpa using listingIds

theorem located_mono {narrow wide : Finset Block} (within : narrow ⊆ wide) {grain : Grain}
    {code : Option Nat} (held : located narrow grain code = true) :
    located wide grain code = true := by
  obtain ⟨own, named, member⟩ := (Option.any_eq_true _ _).mp held
  exact (Option.any_eq_true _ _).mpr ⟨own, named, decide_eq_true (within (of_decide_eq_true member))⟩

theorem Inside.mono {narrow wide : Scope} {listing : Member} (inside : narrow.Inside listing)
    (category : ∀ types ∈ wide.categoryTypes, ∃ fewer ∈ narrow.categoryTypes, fewer ⊆ types)
    (blocks : ∀ held ∈ wide.blocks, ∃ fewer ∈ narrow.blocks, fewer ⊆ held)
    (listingIds : ∀ ids ∈ wide.listingIds, ∃ fewer ∈ narrow.listingIds, fewer ⊆ ids) :
    wide.Inside listing where
  category := by
    intro types named
    obtain ⟨fewer, narrowed, within⟩ := category types named
    obtain ⟨own, known, member⟩ := inside.category fewer narrowed
    exact ⟨own, known, within member⟩
  blocks := by
    intro held named
    obtain ⟨fewer, narrowed, within⟩ := blocks held named
    have there := inside.blocks fewer narrowed
    simp only [Bool.or_eq_true] at there ⊢
    exact there.imp (Or.imp (located_mono within) (located_mono within)) (located_mono within)
  listingIds := by
    intro ids named
    obtain ⟨fewer, narrowed, within⟩ := listingIds ids named
    exact within (inside.listingIds fewer narrowed)

end Scope

theorem narrowedSet_subset {α : Type} [DecidableEq α] {base extra : Option (Finset α)}
    {values : Finset α} (named : values ∈ base) : ∃ fewer ∈ narrowedSet base extra, fewer ⊆ values := by
  cases named
  cases extra with
  | none => exact ⟨values, rfl, Finset.Subset.refl _⟩
  | some extra => exact ⟨values ∩ extra, rfl, Finset.inter_subset_left⟩

/-- Whatever the arguments, an advert inside a live run's scope is inside the setting's. -/
theorem effectiveScope_inside {setting override : ScopeFields} {scope : Scope} {listing : Member}
    (live : effectiveScope (some setting) override true = .ok scope)
    (inside : scope.Inside listing) : setting.scope.Inside listing := by
  unfold effectiveScope at live
  rw [if_neg Bool.noConfusion] at live
  dsimp only at live
  split_ifs at live
  cases live
  apply inside.mono
  · exact fun types named => narrowedSet_subset named
  · exact fun held named => narrowedSet_subset named
  · exact fun ids named => narrowedSet_subset named

end Sreality.Autodedup
