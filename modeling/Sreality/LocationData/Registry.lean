import Mathlib.Algebra.Order.Ring.Rat
import Sreality.Foundation.StableSort
import Sreality.Foundation.Tables

/-! The RÚIAN mirror as the location resolver sees it (`location_data.resolver.types`): the
rows it reads, the questions of `RegistryView`, and what makes a view consistent. -/

set_option autoImplicit false

namespace Sreality.LocationData

open Sreality.Foundation

/-- A registry code; a claim may name one the register does not hold. -/
abbrev Kod := Int

/-- A latitude and a longitude. -/
abbrev Point := ℚ × ℚ

inductive Level where
  | stat
  | regionSoudrznosti
  | kraj
  | okres
  | orp
  | pou
  | obec
  | spravniObvod
  | momc
  | castObce
  | katastralniUzemi
  | zsj
  deriving DecidableEq

/-- `LEVEL_ORDER`: the hierarchy order, parents before children. -/
def Level.order : Level → Nat
  | .stat => 0
  | .regionSoudrznosti => 1
  | .kraj => 2
  | .okres => 3
  | .orp => 4
  | .pou => 5
  | .obec => 6
  | .spravniObvod => 7
  | .momc => 8
  | .castObce => 9
  | .katastralniUzemi => 10
  | .zsj => 11

/-- `location_granularity`. -/
inductive Granularity where
  | unknown
  | country
  | kraj
  | okres
  | obec
  | castObceOrQuarter
  | street
  | parcel
  | building
  | addressPoint
  deriving DecidableEq

/-- `DEFAULT_GRANULARITY_RANK`. -/
def Granularity.rank : Granularity → Nat
  | .unknown => 0
  | .country => 10
  | .kraj => 20
  | .okres => 30
  | .obec => 40
  | .castObceOrQuarter => 50
  | .street => 60
  | .parcel => 80
  | .building => 90
  | .addressPoint => 100

/-- `GranularityRank.coarser_of`. -/
def coarserOf (one other : Granularity) : Granularity :=
  if one.rank ≤ other.rank then one else other

/-- `match_confidence`, the weakest first. -/
inductive Confidence where
  | low
  | medium
  | high
  | exact
  deriving DecidableEq

def Confidence.order : Confidence → Nat
  | .low => 0
  | .medium => 1
  | .high => 2
  | .exact => 3

/-- `cap_confidence`. -/
def capConfidence (value ceiling : Confidence) : Confidence :=
  if value.order ≤ ceiling.order then value else ceiling

/-- `typ_so`. -/
inductive TypSo where
  | cp
  | ev
  deriving DecidableEq

structure AdminUnit where
  unitId : Nat
  level : Level
  code : Kod
  name : String
  nameNorm : String
  parentId : Option Nat := none
  point : Option Point := none
  okresKod : Option Kod := none
  krajKod : Option Kod := none
  obecKod : Option Kod := none
  pscSet : List String := []
  extentM : Option ℚ := none
  soleKatastrKod : Option Kod := none
  deriving DecidableEq

structure AddressPoint where
  kodAdm : Kod
  obecKod : Kod
  psc : String
  point : Option Point := none
  uliceKod : Option Kod := none
  streetName : Option String := none
  cisloDomovni : Option Int := none
  cisloOrientacni : Option Int := none
  znakOrientacniho : Option String := none
  castObceUnitId : Option Nat := none
  castObceKod : Option Kod := none
  katastrKod : Option Kod := none
  typSo : TypSo := .cp
  deriving DecidableEq

structure Street where
  code : Kod
  name : String
  nameNorm : String
  obecKod : Kod
  id : Option Nat := none
  deriving DecidableEq

/-- Where a street's own doors are, how far they reach, and the parts they lie in. -/
structure StreetPoint where
  point : Point
  extentM : ℚ
  pointCount : Nat
  katastrKod : Option Kod := none
  partUnitIds : List (Option Nat) := []

/-- Where a část obce's own doors are. -/
structure PartPoint where
  point : Point
  extentM : ℚ
  pointCount : Nat
  katastrKod : Option Kod := none

/-- The arguments of `address_points_by_number`. -/
structure NumberQuery where
  obecKod : Kod
  streetNameNorm : Option String
  cisloDomovni : Option Int
  cisloOrientacni : Option Int
  typSo : Option TypSo := none
  castObceUnitId : Option Nat := none

/-- The questions the resolver asks the mirror. -/
structure RegistryView where
  addressPoint : Kod → Option AddressPoint
  addressPointsByNumber : NumberQuery → List AddressPoint
  streetsInObec : Kod → List Street
  streetPoint : Street → Option StreetPoint
  partPoint : Nat → Option PartPoint
  adminUnitsByName : String → List Level → List AdminUnit
  adminChain : Nat → List AdminUnit
  adminChainByCode : Level → Kod → List AdminUnit
  obecCodesForPsc : String → List Kod
  containingObec : Point → Option AdminUnit
  nearestObecWithin : Point → ℚ → Option (AdminUnit × ℚ)
  inCzechiaPolygon : Point → Option Bool

namespace RegistryView

/-- The first row at the obec level of a chain. -/
def obecOn (chain : List AdminUnit) : Option AdminUnit :=
  chain.find? fun unit => unit.level == .obec

/-- `composite.obec_of`. -/
def obecOf (registry : RegistryView) (unit : AdminUnit) : Option AdminUnit :=
  if unit.level = .obec then some unit else obecOn (registry.adminChain unit.unitId)

/-- `_obec_by_code`. -/
def obecByCode (registry : RegistryView) (code : Kod) : Option AdminUnit :=
  (registry.adminChainByCode .obec code).head?

/-- A street of the register. -/
def HasStreet (registry : RegistryView) (street : Street) : Prop :=
  street ∈ registry.streetsInObec street.obecKod

/-- A door of the register. -/
def HasDoor (registry : RegistryView) (door : AddressPoint) : Prop :=
  (∃ kod, registry.addressPoint kod = some door) ∨
    ∃ query, door ∈ registry.addressPointsByNumber query

end RegistryView

/-! ### A consistent view -/

/-- A unit of the tree and its ancestors, up to a unit without a parent. -/
inductive RootPath (tree : Nat → Option AdminUnit) : List AdminUnit → Prop where
  | root {unit : AdminUnit} (known : tree unit.unitId = some unit)
      (top : unit.parentId = none) : RootPath tree [unit]
  | child {unit parent : AdminUnit} {rest : List AdminUnit}
      (known : tree unit.unitId = some unit) (below : unit.parentId = some parent.unitId)
      (path : RootPath tree (parent :: rest)) : RootPath tree (unit :: parent :: rest)

/-- Two readings of one unit: the name index leaves the point and the parent out. -/
structure SameUnit (one other : AdminUnit) : Prop where
  unitId : one.unitId = other.unitId
  level : one.level = other.level
  code : one.code = other.code
  name : one.name = other.name

/-- A unit some question answers with: its chain starts at it. -/
def Charted (registry : RegistryView) (unit : AdminUnit) : Prop :=
  ∃ head rest, registry.adminChain unit.unitId = head :: rest ∧ SameUnit head unit

/-- The code of the obec a unit's chain leads to. -/
def RegistryView.townKod (registry : RegistryView) (unitId : Nat) : Option Kod :=
  (obecOn (registry.adminChain unitId)).map AdminUnit.code

/-- Chains are root paths of the unit tree, and what the name index, the streets and the doors
say of their obec and part is what the chains say. A name-index row may leave its obec out. -/
structure Consistent (registry : RegistryView) (tree : Nat → Option AdminUnit) : Prop where
  chain : ∀ unitId head rest, registry.adminChain unitId = head :: rest →
    head.unitId = unitId ∧ RootPath tree (head :: rest)
  known : ∀ unitId unit, tree unitId = some unit → registry.adminChain unitId ≠ []
  descends : ∀ unitId unit parent, tree unitId = some unit →
    unit.parentId = some parent.unitId → tree parent.unitId = some parent →
      parent.level.order < unit.level.order
  chainByCode : ∀ level code head rest, registry.adminChainByCode level code = head :: rest →
    head.level = level ∧ head.code = code ∧ registry.adminChain head.unitId = head :: rest
  named : ∀ key levels, ∀ unit ∈ registry.adminUnitsByName key levels,
    unit.level ∈ levels ∧ Charted registry unit ∧
      ∀ code, unit.obecKod = some code → registry.townKod unit.unitId = some code
  containing : ∀ point unit, registry.containingObec point = some unit →
    unit.level = .obec ∧ Charted registry unit
  nearest : ∀ point reach unit distance,
    registry.nearestObecWithin point reach = some (unit, distance) →
      unit.level = .obec ∧ Charted registry unit
  streets : ∀ code, ∀ street ∈ registry.streetsInObec code,
    street.obecKod = code ∧ (registry.obecByCode code).isSome
  streetParts : ∀ street spot unitId, registry.HasStreet street →
    registry.streetPoint street = some spot → some unitId ∈ spot.partUnitIds →
      registry.townKod unitId = some street.obecKod
  doorsByNumber : ∀ query, ∀ door ∈ registry.addressPointsByNumber query,
    door.obecKod = query.obecKod
  doors : ∀ door, registry.HasDoor door → (registry.obecByCode door.obecKod).isSome
  doorStreet : ∀ door uliceKod, registry.HasDoor door → door.uliceKod = some uliceKod →
    ∃ street ∈ registry.streetsInObec door.obecKod, street.code = uliceKod
  doorPart : ∀ door unitId, registry.HasDoor door → door.castObceUnitId = some unitId →
    registry.townKod unitId = some door.obecKod ∧
      ∃ head ∈ (registry.adminChain unitId).head?, head.level = .castObce ∧
        door.castObceKod = some head.code

end Sreality.LocationData
