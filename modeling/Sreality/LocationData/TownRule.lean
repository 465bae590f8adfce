import Mathlib.Data.Prod.Lex
import Sreality.LocationData.Composite

/-! The constraints the claims put on where a listing is, and the town rule over them
(`location_data.resolver.bind`: `collect_constraints`, `bind_towns`, `narrow_towns`,
`constraining_towns`). -/

set_option autoImplicit false

namespace Sreality.LocationData

open Sreality.Foundation

inductive Rung where
  | r0
  | r1
  | r2
  | r3
  | r4
  | r6
  | r7
  | r8
  | r9
  deriving DecidableEq

/-- What had to be applied to get to an answer. -/
inductive Qualifier where
  | psc
  | okres
  | kraj
  | coordinateTiebreak
  | coordinateTiebreakImprecise
  | compositeLocality
  | qualifierStripped
  | streetInTown
  | obecConstrained
  | climbedFromTownName
  | streetNamesPart
  | streetPartTiebreak
  | streetUnaccentFuzzy
  | reverseDerived
  | pipNearestWithinNM
  | regionOnly
  deriving DecidableEq

/-- `TOWN_NAME_LEVELS`. -/
def townNameLevels : List Level := [.obec, .castObce, .katastralniUzemi]

/-- `TOWN_PIN_REACH_M`. -/
def townPinReachM : ℚ := 40000

/-! ### Constraints -/

/-- The keys under which claim ids are noted. -/
inductive NoteKind where
  | kodAdm
  | psc
  | street
  | houseNumberCp
  | houseNumberCo
  | obecName
  | castObceName
  | okresName
  | krajName
  | coordinate
  deriving DecidableEq

/-- What the claims say about where the listing is. -/
structure Constraints where
  psc : Option String := none
  okresKeys : List String := []
  krajKeys : List String := []
  obecKeys : List String := []
  obecLines : List String := []
  castObceKeys : List String := []
  streetKey : Option String := none
  streetLines : List String := []
  cisloDomovni : Option Int := none
  typSo : Option TypSo := none
  cisloOrientacni : Option Int := none
  kodAdm : Option Kod := none
  pin : Option Point := none
  claimIds : List (NoteKind × Nat) := []

def Constraints.note (constraints : Constraints) (kind : NoteKind) (claim : Claim) : Constraints :=
  { constraints with claimIds := constraints.claimIds ++ [(kind, claim.id)] }

/-- `_ids`. -/
def Constraints.ids (constraints : Constraints) (kinds : List NoteKind) : List Nat :=
  sortedIds ((constraints.claimIds.filter fun note => decide (note.1 ∈ kinds)).map Prod.snd).dedup

section Collect

variable (ctx : ResolverContext)

/-- A number slot, where no earlier claim gave one. -/
def Constraints.withNumber (constraints : Constraints) (slots : Slots) : Constraints :=
  if constraints.cisloDomovni.isSome then constraints
  else
    let (cisloDomovni, typSo) := houseNumber ctx.text slots
    { constraints with cisloDomovni := cisloDomovni, typSo := typSo }

/-- One claim read into the constraints. -/
def collectClaim (normalized : Nat → Option NormalizedClaim) (pinClaimId : Option Nat)
    (constraints : Constraints) (claim : Claim) : Constraints :=
  let norm := normalized claim.id
  let key := norm.bind NormalizedClaim.valueAscii
  let slots := (norm.map NormalizedClaim.typedSlots).getD {}
  let rejected := norm.any fun norm => !norm.rejections.isEmpty
  match claim.claimType with
  | .addressPointId =>
      match truthy claim.valueText with
      | some text => { constraints with kodAdm := ctx.text.asInt text }.note .kodAdm claim
      | none => constraints
  | .psc =>
      match slots.psc with
      | some value =>
          { constraints with psc := (truthy constraints.psc).or (some value) }.note .psc claim
      | none => constraints
  | .streetName =>
      if rejected then constraints
      else
        let raw := claim.valueText.getD ""
        let lined :=
          if ctx.text.strip raw = "" then constraints
          else
            { constraints with streetLines := constraints.streetLines ++ [raw] }.note .street claim
        let numbered := lined.withNumber ctx slots
        { numbered with
          cisloOrientacni :=
            if numbered.cisloOrientacni.isSome then numbered.cisloOrientacni
            else (truthy slots.cisloOrientacni).bind ctx.text.asInt
          streetKey := (truthy numbered.streetKey).or key }
  | .houseNumberCp => (constraints.withNumber ctx slots).note .houseNumberCp claim
  | .houseNumberCo =>
      { constraints with
        cisloOrientacni :=
          if constraints.cisloOrientacni.isSome then constraints.cisloOrientacni
          else ((truthy slots.cisloOrientacni).or (truthy slots.cisloDomovni)).bind ctx.text.asInt
        }.note .houseNumberCo claim
  | .obecName =>
      match truthy key with
      | some key =>
          if rejected then constraints
          else
            { constraints with
              obecKeys := constraints.obecKeys ++ [key]
              obecLines := constraints.obecLines ++
                [((truthy (norm.bind NormalizedClaim.valueCf)).or claim.valueText).getD ""]
              }.note .obecName claim
      | none => constraints
  | .castObceName =>
      match truthy key with
      | some key =>
          { constraints with castObceKeys := constraints.castObceKeys ++ [key] }.note
            .castObceName claim
      | none => constraints
  | .okresName =>
      match truthy key with
      | some key =>
          { constraints with okresKeys := constraints.okresKeys ++ [key] }.note .okresName claim
      | none => constraints
  | .krajName =>
      match truthy key with
      | some key =>
          { constraints with krajKeys := constraints.krajKeys ++ [key] }.note .krajName claim
      | none => constraints
  | .coordinate =>
      match claim.point with
      | some point =>
          let elected :=
            match pinClaimId with
            | some id => claim.id == id
            | none => constraints.pin.isNone
          if elected then { constraints with pin := some point }.note .coordinate claim
          else constraints
      | none => constraints
  | _ => constraints

/-- `collect_constraints`: the claims in id order, each name once. -/
def collectConstraints (claims : List Claim) (normalized : Nat → Option NormalizedClaim)
    (pinClaimId : Option Nat) : Constraints :=
  let read := (sortedBy Claim.id claims).foldl (collectClaim ctx normalized pinClaimId) {}
  let lines := fun (lines : List String) => (lines.filter fun line => line != "").eraseDups
  { read with
    okresKeys := read.okresKeys.eraseDups
    krajKeys := read.krajKeys.eraseDups
    obecKeys := read.obecKeys.eraseDups
    obecLines := lines read.obecLines
    castObceKeys := read.castObceKeys.eraseDups
    streetLines := lines read.streetLines }

end Collect

/-! ### The town rule -/

section Towns

variable (ctx : ResolverContext)

/-- The claims and the pin a name is tried against. -/
structure Ground where
  constraints : Constraints
  pinIsPrecise : Bool

/-- `_reach_of`: the pin worth more than the name. -/
def Ground.reach (ground : Ground) : Option Point :=
  if (truthy ground.constraints.psc).isSome ∨ ground.pinIsPrecise = true then
    ground.constraints.pin
  else none

/-- `_town_distance`: pin to the town's own point; none is as far as can be. -/
def townDistance (town : AdminUnit) (pin : Point) : Option ℚ :=
  ctx.distanceBetween (((ctx.registry.adminChain town.unitId).head?).bind AdminUnit.point)
    (some pin)

/-- `_reaches`. -/
def reaches (town : AdminUnit) : Option Point → Bool
  | none => true
  | some pin => (townDistance ctx town pin).any fun metres => decide (metres ≤ townPinReachM)

/-- The first town of a code. -/
def townOfCode (towns : List AdminUnit) (code : Kod) : Option AdminUnit :=
  towns.find? fun town => town.code == code

/-- A town of a code: one at hand, else the register's. -/
def townAt (direct : List AdminUnit) (code : Kod) : Option AdminUnit :=
  (townOfCode direct code).or (ctx.registry.obecByCode code)

/-- The town delivers this PSČ: its own rows say so, or the address points. -/
def carries (psc : String) (own : Option AdminUnit) (code : Kod) : Bool :=
  own.any (fun town => decide (psc ∈ town.pscSet)) ||
    decide (code ∈ ctx.registry.obecCodesForPsc psc)

/-- `_carrying_psc`. -/
def carryingPsc (codes : List Kod) (direct : List AdminUnit) (psc : String) : List Kod :=
  codes.filter fun code => carries ctx psc (townOfCode direct code) code

/-- The okres or the kraj claims: the towns of one they name, where some are. -/
def narrowByRegion (keys : List String) (level : Level) (kodOf : AdminUnit → Option Kod)
    (label : Qualifier) (state : List AdminUnit × List Qualifier) :
    List AdminUnit × List Qualifier :=
  if keys = [] ∨ state.1.length ≤ 1 then state
  else
    let wanted := keys.flatMap fun key =>
      (ctx.registry.adminUnitsByName key [level]).map AdminUnit.code
    let filtered := state.1.filter fun town => (kodOf town).any fun code => decide (code ∈ wanted)
    if filtered = [] then state else (filtered, state.2 ++ [label])

/-- Nearest first, a town without a point last; the lowest id of a tie. -/
def nearness (pin : Point) (town : AdminUnit) : Bool ×ₗ ℚ ×ₗ Nat :=
  let distance := townDistance ctx town pin
  toLex (distance.isNone, toLex (distance.getD 0, town.unitId))

/-- `narrow_towns`: the okres and kraj claims, the reach, then the pin. -/
def narrowTowns (towns : List AdminUnit) (ground : Ground) (applied : List Qualifier)
    (reach : Option Point) : List AdminUnit × List Qualifier :=
  let (named, applied) :=
    narrowByRegion ctx ground.constraints.krajKeys .kraj AdminUnit.krajKod .kraj
      (narrowByRegion ctx ground.constraints.okresKeys .okres AdminUnit.okresKod .okres
        (towns, applied))
  let surviving := named.filter fun town => reaches ctx town reach
  match ground.constraints.pin with
  | none => (surviving, applied)
  | some pin =>
      if surviving.length ≤ 1 then (surviving, applied)
      else
        let covering := ctx.registry.containingObec pin
        let inside := surviving.filter fun town =>
          covering.any fun covering => town.code == covering.code
        (if inside = [] then ((sortedBy (nearness ctx pin) surviving).head?).toList else inside,
          applied ++ [if inside ≠ [] ∧ ground.pinIsPrecise = true then .coordinateTiebreak
            else .coordinateTiebreakImprecise])

/-- The towns a set of names leaves, what was applied, and the units each town was climbed to
from. -/
structure NamedTowns where
  units : List AdminUnit := []
  applied : List Qualifier := []
  climbed : List (Kod × AdminUnit) := []

/-- The obec a match climbs to: the row's own word, else its chain's. -/
def climbedTo (unit : AdminUnit) : Option Kod :=
  (truthyInt unit.obecKod).or ((ctx.registry.obecOf unit).map AdminUnit.code)

/-- The names' towns before the rule: the obce named directly, and the climbed matches. -/
structure Matches where
  direct : List AdminUnit
  climbed : List (Kod × AdminUnit)

def namesMatched (keys : List String) (levels : List Level) : Matches :=
  let units := keys.flatMap fun key => ctx.registry.adminUnitsByName key levels
  { direct := units.filter fun unit => unit.level == .obec
    climbed := (units.filter fun unit => unit.level != .obec).filterMap fun unit =>
      (climbedTo ctx unit).map fun town => (town, unit) }

def Matches.codes (found : Matches) : List Kod :=
  sortedIds (found.direct.map AdminUnit.code ++ found.climbed.map Prod.fst).dedup

/-- The qualifier a retry stripped off: the base keeps the obce it names, and those are named. -/
def qualified (found : Matches) (qualifier : String) : List Kod × List AdminUnit :=
  let named := (ctx.registry.adminUnitsByName qualifier [.obec]).map AdminUnit.code
  let kept := found.codes.filter fun code => decide (code ∈ named)
  (if kept = [] then found.codes else kept, kept.filterMap (townAt ctx found.direct))

/-- `bind_towns`, the town rule for one set of names. -/
def bindTowns (keys : List String) (levels : List Level) (ground : Ground)
    (qualifier : Option String) : NamedTowns :=
  let found := namesMatched ctx keys levels
  let (codes, direct) :=
    match truthy qualifier with
    | some qualifier => qualified ctx found qualifier
    | none => (found.codes, found.direct)
  let carrying :=
    match truthy ground.constraints.psc with
    | some psc => (carryingPsc ctx codes direct psc).filterMap (townAt ctx direct)
    | none => []
  let byPsc :=
    if carrying = [] then ([], [])
    else narrowTowns ctx carrying ground (if codes.length > 1 then [.psc] else []) none
  let (units, applied) :=
    if byPsc.1 = [] then
      narrowTowns ctx (sortedBy AdminUnit.code (firstPerKey AdminUnit.code direct)) ground []
        ground.reach
    else byPsc
  { units := units
    applied := applied
    climbed := found.climbed.filter fun entry =>
      decide (entry.1 ∈ units.map AdminUnit.code ∧ entry.1 ∉ found.direct.map AdminUnit.code) }

/-- `_admits`: the PSČ or the reach, for the one town a composite line anchored on. -/
def admits (town : AdminUnit) (ground : Ground) : Bool :=
  (truthy ground.constraints.psc).any (fun psc => carries ctx psc (some town) town.code) ||
    reaches ctx town ground.reach

/-- `rpartition`: what stands before and after the last occurrence. -/
def rpartition (separator : List Char) : List Char → Option (List Char × List Char)
  | [] => none
  | letter :: rest =>
      match rpartition separator rest with
      | some (before, after) => some (letter :: before, after)
      | none =>
          if separator.isPrefixOf (letter :: rest) then
            some ([], (letter :: rest).drop separator.length)
          else none

/-- The base and the qualifier of "X u Y". -/
def strippedQualifier (key : String) : Option (String × String) :=
  (rpartition " u ".toList key.toList).bind fun (base, qualifier) =>
    if base = [] ∨ qualifier = [] then none
    else some (String.ofList base, String.ofList qualifier)

/-- 1b: the base of a key the register does not hold, kept to the obec its qualifier names. -/
def bindStripped (ground : Ground) (key : String) : Option NamedTowns :=
  (strippedQualifier key).bind fun (base, qualifier) =>
    if ctx.registry.adminUnitsByName key townNameLevels ≠ [] then none
    else
      let answer := bindTowns ctx [base] townNameLevels ground (some qualifier)
      if answer.units = [] then none
      else some { answer with applied := answer.applied ++ [.qualifierStripped] }

/-- What `constraining_towns` says. -/
structure Towns where
  units : List AdminUnit
  applied : List Qualifier
  rung : Rung
  named : Bool
  composite : CompositeBind
  climbed : List (Kod × AdminUnit)

/-- The advert's own town names: as they stand, its composite line, the stripped names. -/
def ownTowns (ground : Ground) : CompositeBind × Option NamedTowns :=
  let named := bindTowns ctx ground.constraints.obecKeys townNameLevels ground none
  if named.units ≠ [] then ({}, some named)
  else
    let found := firstCompositeBind ctx ground.constraints.obecLines
    match found.obec with
    | some town =>
        if admits ctx town ground then
          (found, some { units := [town], applied := [.compositeLocality]
                         climbed := named.climbed })
        else ({}, ground.constraints.obecKeys.findSome? (bindStripped ctx ground))
    | none => ({}, ground.constraints.obecKeys.findSome? (bindStripped ctx ground))

/-- `_dedupe_units`. -/
def dedupeUnits (units : List AdminUnit) : List AdminUnit :=
  sortedBy AdminUnit.unitId (firstPerKey AdminUnit.unitId units)

/-- `_holds_street`: a street of the town on the exact tier. -/
def holdsStreet (town : AdminUnit) (line : String) : Bool :=
  let (found, tier) := matchStreets ctx line [town.code]
  !found.isEmpty && tier == .exact

/-- 1f: the towns of the PSČ that hold a street the advert names, of a line that names no
place of theirs. -/
def townsHolding (towns : List AdminUnit) (lines : List String) : List AdminUnit :=
  lines.flatMap fun line =>
    let held := towns.filter fun town => holdsStreet ctx town line
    if held = [] ∨
        placesNamed ctx (streetMatchKeys ctx line).2 (towns.map AdminUnit.code) ≠ [] then []
    else held

/-- The PSČ's towns, an inference. -/
def pscTowns (ground : Ground) : List AdminUnit × List Qualifier :=
  let byPsc := dedupeUnits ((((truthy ground.constraints.psc).map
    ctx.registry.obecCodesForPsc).getD []).filterMap ctx.registry.obecByCode)
  let holding :=
    if byPsc.length > 1 then townsHolding ctx byPsc ground.constraints.streetLines else []
  if (holding.map AdminUnit.code).dedup.length = 1 then
    (holding.getLast?.toList, [.psc, .streetInTown])
  else narrowTowns ctx byPsc ground [.psc] none

/-- `constraining_towns`. -/
def constrainingTowns (ground : Ground) : Towns :=
  match ownTowns ctx ground with
  | (composite, some named) =>
      { units := named.units, applied := named.applied, rung := .r4, named := true
        composite := composite, climbed := named.climbed }
  | (composite, none) =>
      let parts := bindTowns ctx ground.constraints.castObceKeys partLevels ground none
      if ground.constraints.castObceKeys ≠ [] ∧ parts.units ≠ [] then
        { units := parts.units, applied := parts.applied, rung := .r4, named := false
          composite := composite, climbed := [] }
      else
        let inferred := pscTowns ctx ground
        { units := inferred.1, applied := inferred.2, rung := .r6, named := false
          composite := composite, climbed := [] }

end Towns

end Sreality.LocationData
