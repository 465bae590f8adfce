import Sreality.LocationData.Registry

/-! Location claims and their normalization (`location_data.resolver.normalize`), the one
admissibility gate, and what the resolver reads besides the claims. The rewriting of text is
a parameter: the resolver's rules hold whatever it answers. -/

set_option autoImplicit false

namespace Sreality.LocationData

open Sreality.Foundation

inductive ClaimType where
  | addressPointId
  | psc
  | streetName
  | houseNumberCp
  | houseNumberCo
  | obecName
  | castObceName
  | okresName
  | krajName
  | coordinate
  | country
  | addressLineVerbatim
  | foreignIndicator
  | precisionDeclaration
  | blurHint
  | uncertaintyGeometry
  | mapZoom
  | portalAdminId
  | portalStreetId
  | osmRelationId
  | other (label : String)
  deriving DecidableEq

inductive BlurEvidence where
  | none
  | declared
  | detected
  | both
  deriving DecidableEq

/-- The portal says so itself. -/
def BlurEvidence.declares : BlurEvidence → Bool
  | .declared | .both => true
  | .none | .detected => false

/-- A row of `location_claims`, as the resolver consumes it. -/
structure Claim where
  id : Nat
  listingId : Nat
  source : String
  claimType : ClaimType
  extractionMethod : String := "contract"
  licenceClass : String := "portal"
  valueText : Option String := none
  point : Option Point := none
  declaredPrecisionLabel : Option String := none
  blurEvidence : BlurEvidence := .none
  subjectScoped : Option Bool := none
  deriving DecidableEq

inductive Rejection where
  | streetEmptyAfterNormalization
  | townAsStreet
  | pscSentinel
  | pscPortalBucket
  | pscMalformed
  | houseNumberUnparsed
  | nameEmptyAfterNormalization
  deriving DecidableEq

/-- `typed_slots`. -/
structure Slots where
  psc : Option String := none
  countryHint : Option String := none
  cisloDomovni : Option String := none
  cisloOrientacni : Option String := none
  znakOrientacniho : Option String := none
  evidencni : Option String := none
  streetType : Option String := none
  street : Option String := none
  deriving DecidableEq

structure NormalizedClaim where
  claimId : Nat
  claimType : ClaimType
  valueVerbatim : Option String
  valueCf : Option String
  valueAscii : Option String
  typedSlots : Slots
  rejections : List Rejection
  deriving DecidableEq

/-- Text rewriting: Unicode folding and the regular expressions of `normalize`, `composite`
and `check`. -/
structure Text where
  matchKey : String → String
  caseFold : String → String
  deaccent : String → String
  splitGlue : String → String
  strip : String → String
  lower : String → String
  upper : String → String
  isSpace : Char → Bool
  isDecimal : Char → Bool
  isAlpha : String → Bool
  asInt : String → Option Int
  digits : String → Option Int
  houseNumber : String → Slots
  splitStreetAndNumber : String → String × Slots
  splitStreetType : String → String × Option String
  stripStreetGeneric : String → String
  foldAbbreviations : String → String
  splitQualifier : String → String
  localityTokens : String → List String
  rejectedCountryEvidence : String → Bool

/-- The registry, and what the resolver calls of the platform: text and metres. -/
structure ResolverContext where
  registry : RegistryView
  text : Text
  haversineM : Point → Point → ℚ

/-- A string that is there and not empty. -/
def truthy (value : Option String) : Option String :=
  value.filter fun text => text != ""

/-- A number that is there and not zero. -/
def truthyInt (value : Option Int) : Option Int :=
  value.filter fun number => number != 0

/-- `distance_between`. -/
def ResolverContext.distanceBetween (ctx : ResolverContext) (one other : Option Point) :
    Option ℚ :=
  one.bind fun one => other.map fun other => ctx.haversineM one other

/-! ### Normalization -/

section Normalize

variable (text : Text)

/-- `PSC_COUNTRY_BUCKETS`: two portal buckets, country signals in the PSČ field. -/
def pscCountryBuckets : List (String × String) :=
  [("98765", "SK"), ("98766", "XX")]

/-- `PSC_SENTINELS`. -/
def pscSentinels : List String :=
  ["-1", "0", "00000"]

/-- `normalize_psc`: the PSČ, a country hint, a rejection. Five digits or nothing. -/
def normalizePsc (raw : String) : Option String × Option String × Option Rejection :=
  let digits := String.ofList (raw.toList.filter fun letter => !text.isSpace letter)
  if digits ∈ pscSentinels then (none, none, some .pscSentinel)
  else
    match pscCountryBuckets.lookup digits with
    | some country => (none, some country, some .pscPortalBucket)
    | none =>
        if digits.toList.length = 5 ∧ digits.toList.all text.isDecimal = true then
          (some digits, none, none)
        else (none, none, some .pscMalformed)

/-- `house_number`: the domovní číslo and its type; only a marked č.ev. is typed. -/
def houseNumber (slots : Slots) : Option Int × Option TypSo :=
  match (truthy slots.cisloDomovni).bind text.digits with
  | some number => (some number, none)
  | none =>
      match (truthy slots.evidencni).bind text.digits with
      | some number => (some number, some .ev)
      | none => (none, none)

/-- The place names and streets of the town-as-street rejection; none on the first pass. -/
structure PlaceTests where
  isPlaceName : String → Bool
  streetExists : String → Bool

def slotsEmpty (slots : Slots) : Bool :=
  slots == {}

/-- A claim whose text was read: the folded text, the match key, the slots, the rejections. -/
structure Reading where
  cf : String
  ascii : String
  slots : Slots := {}
  rejections : List Rejection := []

/-- The street branch of `normalize_claim`. -/
def readStreetName (tests : Option PlaceTests) (verbatim : String) : Reading :=
  let (rest, numbers) := text.splitStreetAndNumber verbatim
  let (name, streetType) := text.splitStreetType rest
  let ascii := text.matchKey name
  { cf := text.caseFold name
    ascii := ascii
    slots := { numbers with streetType := truthy streetType, street := some name }
    rejections :=
      if ascii = "" then [.streetEmptyAfterNormalization]
      else
        match tests with
        | none => []
        | some tests =>
            if tests.isPlaceName ascii && !tests.streetExists ascii then [.townAsStreet] else [] }

/-- The PSČ branch. -/
def readPsc (verbatim : String) : Reading :=
  let (psc, countryHint, rejection) := normalizePsc text verbatim
  { cf := text.caseFold verbatim
    ascii := psc.getD ""
    slots := { psc := psc, countryHint := countryHint }
    rejections := rejection.toList }

/-- The house number branch. -/
def readHouseNumber (verbatim : String) : Reading :=
  let slots := text.houseNumber verbatim
  { cf := text.caseFold verbatim
    ascii := text.matchKey verbatim
    slots := slots
    rejections := if slotsEmpty slots then [.houseNumberUnparsed] else [] }

/-- The branch of the admin names and the country. -/
def readName (verbatim : String) : Reading :=
  let cleaned := text.splitGlue (text.strip verbatim)
  let ascii := text.matchKey cleaned
  { cf := text.caseFold cleaned
    ascii := ascii
    rejections := if ascii = "" then [.nameEmptyAfterNormalization] else [] }

def readClaim (tests : Option PlaceTests) (claimType : ClaimType) (verbatim : String) : Reading :=
  match claimType with
  | .streetName => readStreetName text tests verbatim
  | .psc => readPsc text verbatim
  | .houseNumberCp | .houseNumberCo => readHouseNumber text verbatim
  | .obecName | .castObceName | .okresName | .krajName | .country => readName text verbatim
  | _ => { cf := text.caseFold verbatim, ascii := text.matchKey verbatim }

/-- `normalize_claim`: one claim and its sidecar. -/
def normalizeClaim (tests : Option PlaceTests) (claim : Claim) : NormalizedClaim :=
  match claim.valueText with
  | none =>
      { claimId := claim.id, claimType := claim.claimType, valueVerbatim := none
        valueCf := none, valueAscii := none, typedSlots := {}, rejections := [] }
  | some verbatim =>
      let reading := readClaim text tests claim.claimType verbatim
      { claimId := claim.id
        claimType := claim.claimType
        valueVerbatim := some verbatim
        valueCf := truthy (some reading.cf)
        valueAscii := truthy (some reading.ascii)
        typedSlots := reading.slots
        rejections := reading.rejections }

/-- `normalize_all`, read by claim id. -/
def normalizeAll (tests : Option PlaceTests) (claims : List Claim) (id : Nat) :
    Option NormalizedClaim :=
  ((claims.filter fun claim => decide (claim.id = id)).getLast?).map (normalizeClaim text tests)

end Normalize

/-! ### Admissibility -/

inductive Inadmissible where
  | notSubjectScoped
  | licenceEphemeral
  | portalProprietaryIdentifier
  | normalization (rejection : Rejection)
  deriving DecidableEq

/-- `EPHEMERAL`. -/
def ephemeral : String := "ephemeral_display_only"

/-- `PORTAL_PROPRIETARY_FIELDS`. -/
def portalProprietaryFields : List ClaimType :=
  [.portalAdminId, .portalStreetId, .osmRelationId]

/-- `admissible`: the reason a claim is left out, if any. -/
def admissible (claim : Claim) (norm : Option NormalizedClaim) : Option Inadmissible :=
  if claim.subjectScoped = some false then some .notSubjectScoped
  else if claim.licenceClass = ephemeral then some .licenceEphemeral
  else if claim.claimType ∈ portalProprietaryFields then some .portalProprietaryIdentifier
  else (norm.bind fun norm => norm.rejections.head?).map .normalization

/-- `core._admissible`. -/
def admissibleClaims (claims : List Claim) (normalized : Nat → Option NormalizedClaim) :
    List Claim :=
  claims.filter fun claim => (admissible claim (normalized claim.id)).isNone

end Sreality.LocationData
