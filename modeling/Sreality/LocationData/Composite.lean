import Sreality.LocationData.Claims

/-! Composite locality names and street claims, bound against the register
(`location_data.resolver.composite`): a town with a part inside it, and the one street the
claims name in the kept towns. -/

set_option autoImplicit false

namespace Sreality.LocationData

open Sreality.Foundation

/-- `PART_LEVELS`: the levels a locality line may name below the town, finest first. -/
def partLevels : List Level := [.castObce, .momc, .spravniObvod]

/-- `WHOLE_LEVELS`. -/
def wholeLevels : List Level := .obec :: partLevels

/-- `REGION_LEVELS`: regions, never a locality. -/
def regionLevels : List Level := [.okres, .kraj]

/-- `_PART_OF_TOWN_LEVELS`. -/
def partOfTownLevels : List Level := [.castObce, .momc]

/-- The rows under distinct keys, the first of each: a dictionary filled by `setdefault`. -/
def firstPerKey {α κ : Type} [DecidableEq κ] (key : α → κ) : List α → List α
  | [] => []
  | row :: rest => row :: (firstPerKey key rest).filter fun other => decide (key other ≠ key row)

section Lookup

variable (registry : RegistryView)

/-- `_lookup`: the units of a name at these levels, one per unit id, in id order. -/
def lookup (key : String) (levels : List Level) : List AdminUnit :=
  if key = "" then []
  else sortedBy AdminUnit.unitId (firstPerKey AdminUnit.unitId (registry.adminUnitsByName key levels))

/-- `_first_match`: the units at the first level that has any. -/
def firstMatch (key : String) : List Level → List AdminUnit
  | [] => []
  | level :: rest =>
      let units := lookup registry key [level]
      if units = [] then firstMatch key rest else units

end Lookup

/-! ### Localities -/

/-- What a locality line names. -/
structure CompositeBind where
  obec : Option AdminUnit := none
  part : Option AdminUnit := none

section Locality

variable (ctx : ResolverContext)

/-- `_resolve_up`. -/
def resolveUp (unit : AdminUnit) : CompositeBind :=
  match ctx.registry.obecOf unit with
  | none => {}
  | some obec => { obec := some obec, part := if unit.level = .obec then none else some unit }

/-- One token that fixes a town: as the one obec of its name, or the one part. -/
def obecAnchor (token : String) : Option AdminUnit :=
  match lookup ctx.registry (ctx.text.matchKey token) [.obec] with
  | [town] => some town
  | _ => none

def partAnchor (token : String) : Option AdminUnit :=
  let key := ctx.text.matchKey token
  if lookup ctx.registry key [.obec] ≠ [] then none
  else
    match firstMatch ctx.registry key partLevels with
    | [part] => some part
    | _ => none

/-- `_anchor_candidates`: the obec tokens first and then the part tokens, in the line's order. -/
def anchorCandidates (tokens : List String) : List (Nat × AdminUnit) :=
  let anchors := fun (anchor : String → Option AdminUnit) =>
    (tokens.zipIdx.filterMap fun (token, index) => (anchor token).map fun unit => (index, unit))
  anchors (obecAnchor ctx) ++ anchors (partAnchor ctx)

/-- The units one level names inside the town. -/
def namedInside (key : String) (obec : AdminUnit) (level : Level) : List AdminUnit :=
  (lookup ctx.registry key [level]).filter fun unit =>
    (ctx.registry.obecOf unit).any fun parent => parent.code == obec.code

/-- What one token names inside the town: at the first level that names any, if it is one. -/
def tokenInside (key : String) (obec : AdminUnit) : List Level → Option AdminUnit
  | [] => none
  | level :: rest =>
      match namedInside ctx key obec level with
      | [] => tokenInside key obec rest
      | [unit] => some unit
      | _ => none

/-- `_part_inside`: the finest unit another token names inside the anchoring town. -/
def partInside (tokens : List String) (anchorIndex : Nat) (obec : AdminUnit) : Option AdminUnit :=
  tokens.zipIdx.findSome? fun (token, index) =>
    let key := ctx.text.matchKey token
    if index = anchorIndex ∨ key = "" then none else tokenInside ctx key obec partLevels

/-- One anchor's answer: its town, and the part another token or the anchor itself names. -/
def anchored (tokens : List String) (anchor : Nat × AdminUnit) : Option CompositeBind :=
  (ctx.registry.obecOf anchor.2).map fun obec =>
    { obec := some obec
      part := (partInside ctx tokens anchor.1 obec).or
        (if anchor.2.level = .obec then none else some anchor.2) }

/-- `resolve_locality`: the town the line names and, where it names one, the part inside it. -/
def resolveLocality (value : String) : CompositeBind :=
  let key := ctx.text.matchKey value
  if key = "" then {}
  else
    match firstMatch ctx.registry key wholeLevels with
    | [unit] => resolveUp ctx unit
    | _ :: _ :: _ => {}
    | [] =>
        if lookup ctx.registry key regionLevels ≠ [] then {}
        else
          let tokens := ctx.text.localityTokens value
          if tokens.length < 2 then {}
          else
            let answers := (anchorCandidates ctx tokens).filterMap (anchored ctx tokens)
            ((answers.find? fun answer => answer.part.isSome).or answers.head?).getD {}

/-- `first_composite_bind`: the first line the register can place. -/
def firstCompositeBind (lines : List String) : CompositeBind :=
  ((lines.map (resolveLocality ctx)).find? fun found => found.obec.isSome).getD {}

end Locality

/-! ### Streets -/

inductive StreetReason where
  | noMatch
  | streetNamesPart
  | ambiguousStreets
  | streetMatch
  deriving DecidableEq

/-- A street and the number its claim carries. -/
structure BoundStreet where
  street : Street
  cisloDomovni : Option Int := none
  typSo : Option TypSo := none
  cisloOrientacni : Option Int := none
  spelled : Bool := false
  deriving DecidableEq

/-- What the street claims name inside the kept towns. -/
structure StreetBind where
  bound : Option BoundStreet := none
  reason : StreetReason := .noMatch
  candidates : List BoundStreet := []
  namedPart : Option AdminUnit := none

inductive Tier where
  | exact
  | stripped
  deriving DecidableEq

section Streets

variable (ctx : ResolverContext)

/-- `_key`. -/
def foldedKey (value : String) : String :=
  ctx.text.foldAbbreviations (ctx.text.matchKey value)

/-- `street_match_keys`: the exact keys, and every key the name may match by. -/
def streetMatchKeys (value : String) : List String × List String :=
  let verbatim := (ctx.text.splitStreetAndNumber (ctx.text.strip value)).1
  let unwrapped := (ctx.text.splitStreetAndNumber (ctx.text.stripStreetGeneric value)).1
  let exact := [foldedKey ctx verbatim, foldedKey ctx unwrapped]
  let withoutType := (ctx.text.splitStreetType
    (if unwrapped = "" then verbatim else unwrapped)).1
  let nonEmpty := fun (keys : List String) => keys.filter fun key => key != ""
  (nonEmpty exact, nonEmpty (exact ++ [foldedKey ctx withoutType]))

/-- `register_street_keys`. -/
def registerStreetKeys (street : Street) : List String :=
  [ctx.text.foldAbbreviations street.nameNorm,
    foldedKey ctx (ctx.text.splitStreetType street.name).1].filter fun key => key != ""

/-- `match_streets`: the rows one name reaches in these towns, and the tier that reached them. -/
def matchStreets (value : String) (obecKods : List Kod) : List Street × Tier :=
  let (exactKeys, keys) := streetMatchKeys ctx value
  let reached := (obecKods.flatMap ctx.registry.streetsInObec).filter fun street =>
    (registerStreetKeys ctx street).any fun key => decide (key ∈ keys)
  let byCode := fun (streets : List Street) =>
    sortedBy Street.code (firstPerKey Street.code streets)
  let isExact := fun (street : Street) =>
    decide (ctx.text.foldAbbreviations street.nameNorm ∈ exactKeys)
  if reached.any isExact then (byCode (reached.filter isExact), .exact)
  else (byCode (reached.filter fun street => !isExact street), .stripped)

/-- `places_named`: the towns among these, or their parts, that the keys name. -/
def placesNamed (keys : List String) (obecKods : List Kod) : List AdminUnit :=
  firstPerKey AdminUnit.unitId (keys.flatMap fun key =>
    (ctx.registry.adminUnitsByName key wholeLevels).filter fun unit =>
      (ctx.registry.obecOf unit).any fun town => decide (town.code ∈ obecKods))

/-- `_parts_of_town`: a line naming the town itself names no part of it. -/
def partsOfTown (places : List AdminUnit) : List AdminUnit :=
  if places.any fun unit => unit.level == .obec then []
  else places.filter fun unit => decide (unit.level ∈ partOfTownLevels)

/-- `_one_part`, the finest level first. -/
def onePart (parts : List AdminUnit) : Option AdminUnit :=
  match parts.filter fun unit => unit.level == .castObce with
  | [part] => some part
  | _ :: _ :: _ => none
  | [] =>
      match parts.filter fun unit => unit.level == .momc with
      | [part] => some part
      | _ => none

/-- `_spelled_like`. -/
def spelledLike (line : String) (streets : List Street) : Option Kod :=
  if streets.length < 2 ∨ ctx.text.deaccent line = line then none
  else
    let names := [line, ctx.text.stripStreetGeneric line].map fun text =>
      ctx.text.caseFold (ctx.text.splitStreetAndNumber text).1
    match streets.filter fun street => decide (ctx.text.caseFold street.name ∈ names) with
    | [street] => some street.code
    | _ => none

/-- One street claim read: the places it names instead, or the streets it reaches. -/
structure LineReading where
  places : List AdminUnit
  streets : List Street
  tier : Tier
  numbers : Slots
  spelled : Option Kod

def readLine (obecKods : List Kod) (line : String) : Option LineReading :=
  let keys := (streetMatchKeys ctx line).2
  if keys = [] then none
  else
    let (streets, tier) := matchStreets ctx line obecKods
    let places :=
      if streets = [] then [] else placesNamed ctx keys (streets.map Street.obecKod)
    some
      { places := places
        streets := if places = [] then streets else []
        tier := tier
        numbers := (ctx.text.splitStreetAndNumber (ctx.text.stripStreetGeneric line)).2
        spelled := spelledLike ctx line streets }

/-- `_bound`. -/
def boundStreet (street : Street) (numbers : Slots) (spelled : Bool) : BoundStreet :=
  let (cisloDomovni, typSo) := houseNumber ctx.text numbers
  { street := street
    cisloDomovni := cisloDomovni
    typSo := typSo
    cisloOrientacni := numbers.cisloOrientacni.bind ctx.text.asInt
    spelled := spelled }

/-- The streets the lines of a tier reach, one per code, each under the first line's number. -/
def streetsFound (readings : List LineReading) (tier : Tier) : List (Street × Slots) :=
  sortedBy (fun found => found.1.code) (firstPerKey (fun found => found.1.code)
    ((readings.filter fun reading => reading.tier == tier).flatMap fun reading =>
      reading.streets.map fun street => (street, reading.numbers)))

/-- The codes the tier's lines leave possible, each line its own twin where it spells one. -/
def codesSpelled (readings : List LineReading) (tier : Tier) : List Kod :=
  (readings.filter fun reading => reading.tier == tier && reading.places.isEmpty).flatMap
    fun reading =>
      match reading.spelled with
      | some one => [one]
      | none => reading.streets.map Street.code

/-- `resolve_street`: the one street the claims name inside the kept towns, or nothing. -/
def resolveStreet (lines : List String) (obecKods : List Kod) (placeLines : List String) :
    StreetBind :=
  let readings := lines.filterMap (readLine ctx obecKods)
  let parts := firstPerKey AdminUnit.unitId
    (readings.flatMap (fun reading => partsOfTown reading.places) ++
      placeLines.flatMap fun line =>
        partsOfTown (placesNamed ctx (streetMatchKeys ctx line).2 obecKods))
  let namedPart := onePart parts
  let tier := if streetsFound readings .exact ≠ [] then Tier.exact else .stripped
  match streetsFound readings tier with
  | [] =>
      { reason := if namedPart.isSome then .streetNamesPart else .noMatch
        namedPart := namedPart }
  | [found] =>
      { bound := some (boundStreet ctx found.1 found.2 false)
        reason := .streetMatch
        namedPart := namedPart }
  | found =>
      let spelled := codesSpelled readings tier
      { reason := .ambiguousStreets
        namedPart := namedPart
        candidates := found.map fun found =>
          boundStreet ctx found.1 found.2
            (decide (found.1.code ∈ spelled) && spelled.all fun code => code == found.1.code) }

end Streets

end Sreality.LocationData
