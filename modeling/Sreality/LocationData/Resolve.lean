import Sreality.LocationData.Bind

/-! FILL, GRADE, CHECK and the pure resolver over them (`location_data.resolver.fill`,
`grade`, `check`, `core`): one answer row for one claim set. -/

set_option autoImplicit false

namespace Sreality.LocationData

open Sreality.Foundation

/-! ### FILL -/

/-- The hierarchy off the bound ids, and the registry's point for it. -/
structure Fill where
  krajKod : Option Kod := none
  okresKod : Option Kod := none
  obecKod : Option Kod := none
  castObceKod : Option Kod := none
  uliceKod : Option Kod := none
  ruianAdmKod : Option Kod := none
  krajName : Option String := none
  okresName : Option String := none
  obecName : Option String := none
  castObceName : Option String := none
  streetName : Option String := none
  houseNumberCp : Option String := none
  houseNumberCo : Option String := none
  psc : Option String := none
  point : Option Point := none
  extentM : Option ℚ := none
  katastrKod : Option Kod := none

/-- The levels `_LEVEL_FIELDS` reads a field off; a městský obvod is the quarter where no část
obce sits below it. -/
def fieldLevels : Granularity → List Level
  | .kraj => [.kraj]
  | .okres => [.okres]
  | .obec => [.obec]
  | .castObceOrQuarter => [.castObce, .momc]
  | _ => []

/-- The chain's unit for a field: the first at one of its levels. -/
def fieldUnit (chain : List AdminUnit) (field : Granularity) : Option AdminUnit :=
  chain.find? fun unit => decide (unit.level ∈ fieldLevels field)

/-- `OPERATOR_METHOD`. -/
def operatorMethod : String := "operator_manual"

/-- `operator_fields` of one field: the hand-entered value, lowest claim id first. -/
def operatorField (claims : List Claim) (field : ClaimType) : Option String :=
  (sortedBy Claim.id claims).findSome? fun claim =>
    if claim.extractionMethod = operatorMethod ∧ claim.claimType = field then
      truthy claim.valueText
    else none

section Filling

variable (ctx : ResolverContext)

/-- `_chain`: the finest bound unit's. -/
def bindingChain (binding : Binding) : List AdminUnit :=
  let behind :=
    match binding.adminUnitId, binding.obecKod with
    | some unitId, _ => ctx.registry.adminChain unitId
    | none, some obecKod => ctx.registry.adminChainByCode .obec obecKod
    | none, none => []
  match binding.castObceUnitId with
  | some unitId =>
      let chain := ctx.registry.adminChain unitId
      if chain = [] then behind else chain
  | none => behind

/-- `_katastr_kod`: the one KÚ of the bound entity. -/
def katastrKodOf (binding : Binding) (chain : List AdminUnit) (door : Option AddressPoint) :
    Option Kod :=
  match chain.find? fun unit => unit.level == .katastralniUzemi with
  | some unit => some unit.code
  | none =>
      match (RegistryView.obecOn chain).bind AdminUnit.soleKatastrKod with
      | some kod => some kod
      | none =>
          match door, binding.targetKind, chain with
          | some door, _, _ => door.katastrKod
          | none, .street, _ => binding.streetKatastrKod
          | none, .adminUnit, unit :: _ =>
              if unit.level = .castObce then
                (ctx.registry.partPoint unit.unitId).bind PartPoint.katastrKod
              else none
          | _, _, _ => none

/-- The first unit of the chain that may place a row and has a point. -/
def placingUnit (chain : List AdminUnit) : Option AdminUnit :=
  chain.find? fun unit =>
    unit.level != .stat && unit.level != .regionSoudrznosti && unit.point.isSome

/-- `_registry_point`: the finest bound entity's point, and how far it reaches. -/
def registryPoint (door : Option AddressPoint) (chain : List AdminUnit) :
    Option Point × Option ℚ :=
  match door.bind AddressPoint.point with
  | some point => (some point, none)
  | none =>
      let part := chain.head?.bind fun unit =>
        if unit.level = .castObce then ctx.registry.partPoint unit.unitId else none
      match part with
      | some part => (some part.point, some part.extentM)
      | none => ((placingUnit chain).bind AdminUnit.point, (placingUnit chain).bind AdminUnit.extentM)

/-- `_cp`: only a č.p. is published as one. -/
def doorCp (door : Option AddressPoint) : Option String :=
  door.bind fun door =>
    if door.typSo = .cp then door.cisloDomovni.map fun number => toString number else none

/-- `_co`, with its letter. -/
def doorCo (door : Option AddressPoint) : Option String :=
  door.bind fun door => door.cisloOrientacni.map fun number =>
    toString number ++ door.znakOrientacniho.getD ""

/-- `fill`. -/
def fill (binding : Binding) (constraints : Constraints) (operator : ClaimType → Option String)
    (placing : Bool) : Fill :=
  let chain := bindingChain ctx binding
  let door := binding.ruianAdmKod.bind ctx.registry.addressPoint
  let spot := if placing then registryPoint ctx door chain else (none, none)
  { krajKod := (fieldUnit chain .kraj).map AdminUnit.code
    okresKod := (fieldUnit chain .okres).map AdminUnit.code
    obecKod := (fieldUnit chain .obec).map AdminUnit.code
    castObceKod := (fieldUnit chain .castObceOrQuarter).map AdminUnit.code
    uliceKod := binding.uliceKod
    ruianAdmKod := binding.ruianAdmKod
    krajName := (fieldUnit chain .kraj).map AdminUnit.name
    okresName := (fieldUnit chain .okres).map AdminUnit.name
    obecName := (fieldUnit chain .obec).map AdminUnit.name
    castObceName := (fieldUnit chain .castObceOrQuarter).map AdminUnit.name
    streetName := (operator .streetName).or binding.streetName
    houseNumberCp := (operator .houseNumberCp).or (doorCp door)
    houseNumberCo := (operator .houseNumberCo).or (doorCo door)
    psc := (operator .psc).or
      (((door.bind fun door => truthy (some door.psc))).or constraints.psc)
    point := spot.1
    extentM := spot.2
    katastrKod := katastrKodOf ctx binding chain door }

/-- `fill.position`: where a row no pin and no street placed stands. -/
def fillPosition (filled : Fill) (binding : Binding) : Position :=
  if filled.point.isNone then {}
  else
    { point := filled.point
      origin := if binding.targetKind = .addressPoint then .registryPoint else .adminCentroid
      sourceClaimIds := binding.sourceClaimIds
      extentM := filled.extentM }

end Filling

/-! ### GRADE -/

/-- `RADIUS_M`. -/
def Granularity.radiusM : Granularity → ℚ
  | .addressPoint => 10
  | .building => 15
  | .parcel => 25
  | .street => 300
  | .castObceOrQuarter => 750
  | .obec => 1000
  | .okres => 25000
  | .kraj => 60000
  | .country => 250000
  | .unknown => 250000

/-- `radius_m`: the level's constant, never smaller than what placed the row. -/
def radiusM (granularity : Granularity) (floorM : Option ℚ) : ℚ :=
  max granularity.radiusM (floorM.getD 0)

/-- `_pin_conflicts`. -/
def Position.pinConflicts (position : Position) : Bool :=
  position.registryPinDistanceM.any fun metres => decide (registryPinConflictM < metres)

/-- `_pin_corroborates`. -/
def Position.pinCorroborates (position : Position) : Bool :=
  decide (position.origin = .registryPoint) && !position.pinConflicts

/-- `confidence`: how many independent fields agreed, capped by a weak or conflicting pin. -/
def confidenceOf (binding : Binding) (position : Position) (blurred : Bool) : Confidence :=
  if binding.bound = false then .low
  else if binding.ambiguous || binding.relaxations.any Qualifier.lowConfidence then .low
  else
    let value :=
      if binding.targetKind = .addressPoint ∧ position.pinCorroborates = true then Confidence.exact
      else if 2 ≤ binding.agreed.length then .high
      else if binding.agreed.length = 1 then .medium
      else .low
    if blurred || position.pinConflicts || position.pinOverridden then capConfidence value .medium
    else value

structure Grade where
  granularity : Granularity
  matchConfidence : Confidence
  uncertaintyRadiusM : ℚ

/-- `grade`: the granularity is the bind's. -/
def gradeOf (binding : Binding) (position : Position) (declared : DeclaredPrecision) : Grade :=
  let granularity := if binding.bound then binding.granularity else .unknown
  { granularity := granularity
    matchConfidence := confidenceOf binding position declared.blurred
    uncertaintyRadiusM := radiusM granularity position.extentM }

/-! ### CHECK -/

/-- `COUNTRY_GAZETTEER`. -/
def countryGazetteer : List (String × String) :=
  [("cesko", "CZ"), ("ceska republika", "CZ"), ("cr", "CZ"), ("ceske republice", "CZ"),
    ("slovensko", "SK"), ("slovenska republika", "SK"), ("slovensku", "SK"),
    ("spanelsko", "ES"), ("spanelsku", "ES"), ("spanelska", "ES"),
    ("chorvatsko", "HR"), ("chorvatsku", "HR"),
    ("italie", "IT"), ("italii", "IT"), ("italsko", "IT"),
    ("polsko", "PL"), ("polsku", "PL"),
    ("nemecko", "DE"), ("nemecku", "DE"),
    ("rakousko", "AT"), ("rakousku", "AT"),
    ("madarsko", "HU"), ("madarsku", "HU"),
    ("bulharsko", "BG"), ("bulharsku", "BG"),
    ("recko", "GR"), ("recku", "GR"),
    ("francie", "FR"), ("francii", "FR"),
    ("portugalsko", "PT"), ("portugalsku", "PT"),
    ("turecko", "TR"), ("turecku", "TR"),
    ("kypr", "CY"), ("kypru", "CY"),
    ("slovinsko", "SI"), ("slovinsku", "SI"),
    ("cerna hora", "ME"), ("cerne hore", "ME"),
    ("srbsko", "RS"), ("albanie", "AL"), ("rumunsko", "RO"), ("ukrajina", "UA"),
    ("svycarsko", "CH"), ("svycarsku", "CH"),
    ("nizozemsko", "NL"), ("belgie", "BE"), ("lucembursko", "LU"),
    ("velka britanie", "GB"), ("anglie", "GB"), ("irsko", "IE"),
    ("dansko", "DK"), ("svedsko", "SE"), ("norsko", "NO"), ("finsko", "FI"),
    ("estonsko", "EE"), ("lotyssko", "LV"), ("litva", "LT"),
    ("malta", "MT"), ("monako", "MC"), ("andorra", "AD"),
    ("bosna a hercegovina", "BA"), ("severni makedonie", "MK"),
    ("egypt", "EG"), ("maroko", "MA"), ("tunisko", "TN"), ("izrael", "IL"),
    ("spojene arabske emiraty", "AE"), ("usa", "US"), ("spojene staty", "US"),
    ("kanada", "CA"), ("mexiko", "MX"), ("brazilie", "BR"),
    ("thajsko", "TH"), ("vietnam", "VN"), ("filipiny", "PH"), ("indonesie", "ID"),
    ("japonsko", "JP"), ("cina", "CN"), ("australie", "AU"), ("novy zeland", "NZ"),
    ("gruzie", "GE"), ("rusko", "RU"), ("dominikanska republika", "DO")]

/-- `_FOREIGN_BUCKET_TOKENS`. -/
def foreignBucketTokens : List String := ["zahranici", "zahranicni"]

/-- `UNKNOWN_FOREIGN`. -/
def unknownForeign : String := "XX"

/-- `in_cz_bbox`, over `CZ_BBOX`: a trigger, never a determination. -/
def inCzBbox (point : Point) : Bool :=
  decide (48 ≤ point.1 ∧ point.1 ≤ 103 / 2 ∧ 12 ≤ point.2 ∧ point.2 ≤ 19)

inductive CountryStatus where
  | cz
  | foreign
  | undetermined
  deriving DecidableEq

inductive Dispute where
  | countryConflict
  | pinOutsideCz
  | pinOutsideObec
  | pinOffStreet
  deriving DecidableEq

structure Verdict where
  countryStatus : CountryStatus
  countryCode : Option String := none
  disputed : Option Dispute := none
  granularity : Option Granularity := none

section Check

variable (ctx : ResolverContext)

/-- A key's country, or the bucket of foreign places. -/
def countryOfKey (key : String) : Option String :=
  (countryGazetteer.lookup key).or
    (if key ∈ foreignBucketTokens then some unknownForeign else none)

/-- `country_from_text`: a trailing country token. -/
def countryFromText (value : Option String) : Option String :=
  let parts := (((value.getD "").toList.splitOnP fun letter =>
    decide (letter = ',' ∨ letter = ';')).map String.ofList).filter fun part =>
      ctx.text.strip part != ""
  parts.getLast?.bind fun tail => countryOfKey (ctx.text.matchKey tail)

/-- `_code_of`. -/
def codeOf (claim : Claim) (norm : Option NormalizedClaim) : Option String :=
  let raw := ctx.text.strip (claim.valueText.getD "")
  if raw.length = 2 ∧ ctx.text.isAlpha raw = true then some (ctx.text.upper raw)
  else
    countryOfKey ((truthy (norm.bind NormalizedClaim.valueAscii)).getD (ctx.text.matchKey raw))

/-- `check._admissible`. -/
def countryAdmissible (claim : Claim) : Bool :=
  claim.subjectScoped != some false &&
    !((truthy claim.valueText).any ctx.text.rejectedCountryEvidence)

/-- The country codes one claim asserts. -/
def claimCountryCodes (normalized : Nat → Option NormalizedClaim) (claim : Claim) : List String :=
  if countryAdmissible ctx claim = false then []
  else
    let norm := normalized claim.id
    let stated :=
      if claim.claimType = .country then (truthy (codeOf ctx claim norm)).toList
      else if claim.claimType ∈ [ClaimType.addressLineVerbatim, .obecName] then
        (truthy (countryFromText ctx claim.valueText)).toList
      else []
    let indicated :=
      if claim.claimType = .foreignIndicator then
        [(truthy (codeOf ctx claim norm)).getD unknownForeign]
      else []
    let hinted :=
      match norm.bind fun norm => norm.typedSlots.countryHint with
      | some hint => [hint]
      | none =>
          if claim.claimType = .obecName ∧
              ctx.text.matchKey (claim.valueText.getD "") ∈ foreignBucketTokens then
            [unknownForeign]
          else []
    stated ++ indicated ++ hinted

/-- `country_codes`. -/
def countryCodes (claims : List Claim) (normalized : Nat → Option NormalizedClaim) : List String :=
  (claims.flatMap (claimCountryCodes ctx normalized)).eraseDups

/-- `check`: which country this is, and whether the row disagrees with itself. -/
def check (claims : List Claim) (normalized : Nat → Option NormalizedClaim) (filled : Fill)
    (position : Position) (granularity : Granularity) (pinClaim : Option Claim)
    (pinInside : Option Bool) : Verdict :=
  let codes := countryCodes ctx claims normalized
  let foreign := codes.filter fun code => code != "CZ"
  let boundCz := filled.obecKod.isSome || filled.okresKod.isSome || filled.krajKod.isSome
  let pin := pinClaim.bind Claim.point
  let inCz := pin.bind ctx.registry.inCzechiaPolygon
  if boundCz = false then
    if foreign ≠ [] then
      let code := if foreign.length = 1 then foreign.head? else none
      { countryStatus := .foreign
        countryCode := code.filter fun code => code != unknownForeign
        granularity := some
          (if code.any fun code => code != "" && code != unknownForeign then .country
            else .unknown) }
    else if inCz = some false then
      { countryStatus := .foreign, granularity := some .unknown }
    else if inCz = some true ∨ "CZ" ∈ codes ∨
        (pin.any fun pin => inCz.isNone && inCzBbox pin) = true then
      { countryStatus := .cz, countryCode := some "CZ", granularity := some granularity }
    else { countryStatus := .undetermined, granularity := some .unknown }
  else if foreign ≠ [] then
    { countryStatus := .cz, countryCode := some "CZ", disputed := some .countryConflict
      granularity := some granularity }
  else if inCz = some false then
    { countryStatus := .cz, countryCode := some "CZ", disputed := some .pinOutsideCz
      granularity := some granularity }
  else if pinInside = some false then
    { countryStatus := .cz, countryCode := some "CZ", disputed := some .pinOutsideObec
      granularity := some
        (if position.origin = .portalPin then coarserOf granularity .obec else granularity) }
  else if position.pinOverridden then
    { countryStatus := .cz, countryCode := some "CZ", disputed := some .pinOffStreet
      granularity := some granularity }
  else { countryStatus := .cz, countryCode := some "CZ", granularity := some granularity }

end Check

/-! ### The resolver -/

/-- One `listing_location` row. -/
structure Resolution where
  listingId : Nat
  source : String
  point : Option Point
  countryCode : Option String
  krajName : Option String
  okresName : Option String
  obecName : Option String
  castObceName : Option String
  streetName : Option String
  houseNumberCp : Option String
  houseNumberCo : Option String
  psc : Option String
  krajKod : Option Kod
  okresKod : Option Kod
  obecKod : Option Kod
  castObceKod : Option Kod
  uliceKod : Option Kod
  ruianAdmKod : Option Kod
  katastrKod : Option Kod
  matchConfidence : Confidence
  granularity : Granularity
  uncertaintyRadiusM : ℚ
  countryStatus : CountryStatus
  disputed : Option Dispute

section Resolver

variable (ctx : ResolverContext)

/-- `_is_place_name`. -/
def isPlaceName (key : String) : Bool :=
  !(ctx.registry.adminUnitsByName key [.obec, .castObce, .momc, .zsj]).isEmpty

/-- `_street_exists`. -/
def streetExists (obecKods : List Kod) (key : String) : Bool :=
  obecKods.any fun obecKod => (ctx.registry.streetsInObec obecKod).any fun street =>
    street.nameNorm == key

/-- What `resolve` reads off the claims before BIND: the pin, its precision, and the second
pass over the claims. -/
structure Prepared where
  ordered : List Claim
  pinClaim : Option Claim
  declared : DeclaredPrecision
  normalized : Nat → Option NormalizedClaim
  admissible : List Claim

/-- The claims the first pass admits. -/
def firstAdmissible (ordered : List Claim) : List Claim :=
  admissibleClaims ordered (normalizeAll ctx.text none ordered)

/-- The towns of the first pass, which the town-as-street rejection reads. -/
def firstTowns (ordered : List Claim) (pinClaim : Option Claim) (declared : DeclaredPrecision) :
    List AdminUnit :=
  (constrainingTowns ctx
    { constraints := collectConstraints ctx (firstAdmissible ctx ordered)
        (normalizeAll ctx.text none ordered) (pinClaim.map Claim.id)
      pinIsPrecise := declared.precise }).units

/-- The two passes of the normalization, and the pin between them. -/
def prepare (claims : List Claim) : Prepared :=
  let ordered := sortedBy Claim.id claims
  let first := firstAdmissible ctx ordered
  let pinClaim := electPin ctx first
  let declared := readDeclaredPrecision ctx first (pinClaim.map Claim.id)
  let obecKods := (firstTowns ctx ordered pinClaim declared).map AdminUnit.code
  let normalized := normalizeAll ctx.text
    (some { isPlaceName := isPlaceName ctx, streetExists := streetExists ctx obecKods }) ordered
  { ordered := ordered
    pinClaim := pinClaim
    declared := declared
    normalized := normalized
    admissible := admissibleClaims ordered normalized }

/-- The street claims S1 refused as a place name, for the part they may name. -/
def Prepared.placeLines (prepared : Prepared) : List String :=
  (prepared.ordered.filter fun claim =>
    claim.claimType == .streetName && (LocationData.admissible claim none).isNone &&
      ((prepared.normalized claim.id).any fun norm => norm.rejections == [.townAsStreet])).map
        fun claim => claim.valueText.getD "None"

/-- The constraints and the pin BIND tries the names against. -/
def Prepared.ground (prepared : Prepared) : Ground where
  constraints := collectConstraints ctx prepared.admissible prepared.normalized
    (prepared.pinClaim.map Claim.id)
  pinIsPrecise := prepared.declared.precise

/-- The towns BIND's rule kept. -/
def Prepared.towns (prepared : Prepared) : Towns :=
  constrainingTowns ctx (prepared.ground ctx)

def Prepared.ladder (prepared : Prepared) : Ladder where
  constraints := (prepared.ground ctx).constraints
  towns := prepared.towns ctx
  pinBlurred := prepared.declared.blurred
  placeLines := prepared.placeLines

def Prepared.binding (prepared : Prepared) : Binding :=
  (prepared.ladder ctx).bind ctx

def Prepared.pinInside (prepared : Prepared) : Option Bool :=
  pinInsideBoundObec ctx (prepared.binding ctx) prepared.pinClaim

/-- Where BIND places the row. -/
def Prepared.bound (prepared : Prepared) : Position :=
  place ctx (prepared.binding ctx) prepared.pinClaim prepared.declared (prepared.pinInside ctx)

def Prepared.filled (prepared : Prepared) : Fill :=
  fill ctx (prepared.binding ctx) (prepared.ground ctx).constraints
    (operatorField prepared.admissible) (prepared.bound ctx).point.isNone

/-- Where the row stands. -/
def Prepared.position (prepared : Prepared) : Position :=
  if (prepared.bound ctx).point.isSome then prepared.bound ctx
  else fillPosition (prepared.filled ctx) (prepared.binding ctx)

def Prepared.graded (prepared : Prepared) : Grade :=
  gradeOf (prepared.binding ctx) (prepared.position ctx) prepared.declared

def Prepared.verdict (prepared : Prepared) : Verdict :=
  check ctx prepared.ordered prepared.normalized (prepared.filled ctx) (prepared.position ctx)
    (prepared.graded ctx).granularity prepared.pinClaim (prepared.pinInside ctx)

/-- The answer row: off a Czech verdict every value, else none of the hierarchy. -/
def Prepared.row (prepared : Prepared) (listingId : Nat) (source : String) : Resolution :=
  let filled := prepared.filled ctx
  let verdict := prepared.verdict ctx
  let position := prepared.position ctx
  let granularity := verdict.granularity.getD (prepared.graded ctx).granularity
  let czech := decide (verdict.countryStatus = .cz)
  { listingId := listingId
    source := source
    point := position.point
    countryCode := verdict.countryCode
    krajName := if czech then filled.krajName else none
    okresName := if czech then filled.okresName else none
    obecName := if czech then filled.obecName else none
    castObceName := if czech then filled.castObceName else none
    streetName := if czech then filled.streetName else none
    houseNumberCp := if czech then filled.houseNumberCp else none
    houseNumberCo := if czech then filled.houseNumberCo else none
    psc := if czech then filled.psc else none
    krajKod := if czech then filled.krajKod else none
    okresKod := if czech then filled.okresKod else none
    obecKod := if czech then filled.obecKod else none
    castObceKod := if czech then filled.castObceKod else none
    uliceKod := if czech then filled.uliceKod else none
    ruianAdmKod := if czech then filled.ruianAdmKod else none
    katastrKod := if czech then filled.katastrKod else none
    matchConfidence := if czech then (prepared.graded ctx).matchConfidence else .low
    granularity := granularity
    uncertaintyRadiusM := radiusM granularity position.extentM
    countryStatus := verdict.countryStatus
    disputed := verdict.disputed }

/-- `resolve`: the row of one claim set; an empty one names its listing itself. -/
def resolve (claims : List Claim) (listingId : Option Nat) (source : Option String) : Resolution :=
  let prepared := prepare ctx claims
  prepared.row ctx
    (((prepared.ordered.head?).map Claim.listingId).getD (listingId.getD 0))
    (((prepared.ordered.head?).map Claim.source).getD ((truthy source).getD "unknown"))

end Resolver

end Sreality.LocationData
