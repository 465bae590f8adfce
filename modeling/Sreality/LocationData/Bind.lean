import Mathlib.Data.String.Basic
import Sreality.Foundation.Binary
import Sreality.LocationData.TownRule

/-! BIND (`location_data.resolver.bind`): every entity the claims can mean as a candidate on
its rung, the winner, the pin and where the row stands. -/

set_option autoImplicit false

namespace Sreality.LocationData

open Sreality.Foundation

/-- The independent fields that can agree with an entity. -/
inductive Agreed where
  | registryKey
  | houseNumber
  | street
  | obec
  | castObce
  | castObceOrQuarter
  | psc
  | okres
  | kraj
  deriving DecidableEq

inductive TargetKind where
  | addressPoint
  | street
  | adminUnit
  | none
  deriving DecidableEq

/-- `_RUNG_BASE_SCORE`. -/
def Rung.baseScore : Rung → Float64
  | .r0 => .ofRat _ 100
  | .r1 => .ofRat _ 90
  | .r2 => .ofRat _ 70
  | .r3 => .ofRat _ 60
  | .r4 => .ofRat _ 45
  | .r6 => .ofRat _ 35
  | .r7 => .ofRat _ 25
  | .r8 => .ofRat _ 15
  | .r9 => .ofRat _ 5

/-- `INFERENCE_RUNGS`: the entity was inferred rather than named. -/
def Rung.inferred : Rung → Bool
  | .r6 | .r7 | .r8 | .r9 => true
  | .r0 | .r1 | .r2 | .r3 | .r4 => false

/-- `LOW_CONFIDENCE_QUALIFIERS`. -/
def Qualifier.lowConfidence : Qualifier → Bool
  | .coordinateTiebreakImprecise | .pipNearestWithinNM => true
  | _ => false

/-- `AGREEMENT_QUALIFIERS`: the qualifiers that are fields agreeing with the entity. -/
def Qualifier.agreement : Qualifier → Option Agreed
  | .psc => some .psc
  | .okres => some .okres
  | .kraj => some .kraj
  | _ => none

/-- The field an admin grain agrees by. -/
def Granularity.agreed : Granularity → Agreed
  | .castObceOrQuarter => .castObceOrQuarter
  | .okres => .okres
  | .kraj => .kraj
  | _ => .obec

/-- `_TRGM_THRESHOLD`. -/
def trgmThreshold : Float64 := .ofRat _ (45 / 100)

/-- `_TRGM_MARGIN`. -/
def trgmMargin : Float64 := .ofRat _ (10 / 100)

/-- `AMBIGUITY_MARGIN`. -/
def ambiguityMargin : Float64 := .ofRat _ 5

/-- `PIP_SLIVER_TOLERANCE_M`. -/
def pipSliverToleranceM : ℚ := 250

/-- `REGISTRY_PIN_CONFLICT_M`. -/
def registryPinConflictM : ℚ := 300

/-! ### Trigrams -/

/-- `_trigrams`: the padded three-letter grams of each word. -/
def trigrams (text : Text) (value : String) : List (List Char) :=
  let words := (value.toList.splitOnP text.isSpace).filter fun word => !word.isEmpty
  (words.flatMap fun word =>
    let padded := [' ', ' '] ++ word ++ [' ']
    (List.range (padded.length - 2)).map fun start => (padded.drop start).take 3).eraseDups

/-- `trigram_similarity`: the grams shared, over the grams of either. -/
def trigramSimilarity (text : Text) (one other : String) : Float64 :=
  let left := trigrams text one
  let right := trigrams text other
  if left = [] ∨ right = [] then 0
  else
    let shared := (left.filter fun gram => decide (gram ∈ right)).length
    .ofRat _ ((shared : ℚ) / ((left.length + right.length - shared : Nat) : ℚ))

/-! ### Candidates -/

structure Candidate where
  rung : Rung
  score : Float64
  targetKind : TargetKind
  granularity : Granularity
  ruianAdmKod : Option Kod := none
  uliceKod : Option Kod := none
  adminUnitId : Option Nat := none
  obecKod : Option Kod := none
  streetName : Option String := none
  point : Option Point := none
  castObceUnitId : Option Nat := none
  street : Option Street := none
  agreed : List Agreed := []
  relaxations : List Qualifier := []
  sourceClaimIds : List Nat := []

/-- `_point_candidate`. -/
def pointCandidate (door : AddressPoint) (rung : Rung) (agreed : List Agreed)
    (claimIds : List Nat) (relaxations : List Qualifier) : Candidate where
  rung := rung
  score := rung.baseScore + .ofRat _ 2 * .ofRat _ agreed.length
  targetKind := .addressPoint
  granularity := .addressPoint
  ruianAdmKod := some door.kodAdm
  uliceKod := door.uliceKod
  obecKod := some door.obecKod
  streetName := door.streetName
  point := door.point
  castObceUnitId := door.castObceUnitId
  agreed := agreed
  relaxations := relaxations
  sourceClaimIds := claimIds

/-- `_street_candidate`. -/
def streetCandidate (street : Street) (rung : Rung) (constraints : Constraints)
    (similarity : Float64) (relaxations : List Qualifier) : Candidate where
  rung := rung
  score := rung.baseScore + .ofRat _ 10 * similarity
  targetKind := .street
  granularity := .street
  uliceKod := some street.code
  obecKod := some street.obecKod
  streetName := some street.name
  street := some street
  agreed := if rung = .r2 then [.street, .obec] else [.obec]
  relaxations := relaxations
  sourceClaimIds := constraints.ids [.street]

/-- `_admin_agreed`. -/
def adminAgreed (granularity : Granularity) (rung : Rung) (qualifiers : List Qualifier) :
    List Agreed :=
  if rung.inferred then []
  else
    ((if granularity = .obec then [.obec] else [granularity.agreed, .obec]) ++
      qualifiers.filterMap Qualifier.agreement).eraseDups

/-- `_admin_candidate`. -/
def adminCandidate (unit : AdminUnit) (rung : Rung) (granularity : Granularity)
    (claimIds : List Nat) (qualifiers : List Qualifier) (agreed : Option (List Agreed)) :
    Candidate where
  rung := rung
  score := rung.baseScore + .ofRat _ 5 * .ofRat _ qualifiers.length
  targetKind := .adminUnit
  granularity := granularity
  adminUnitId := some unit.unitId
  obecKod := if granularity = .obec then some unit.code else unit.obecKod
  agreed := agreed.getD (adminAgreed granularity rung qualifiers)
  relaxations := qualifiers
  sourceClaimIds := claimIds

/-- `_rank`'s key: the best score, the finest grain, then the ids. -/
def Candidate.order (candidate : Candidate) : Float64ᵒᵈ ×ₗ Int ×ₗ Int ×ₗ Nat ×ₗ Int :=
  toLex (OrderDual.toDual candidate.score, toLex (-(candidate.granularity.rank : Int),
    toLex (candidate.ruianAdmKod.getD 0, toLex (candidate.adminUnitId.getD 0,
      candidate.uliceKod.getD 0))))

/-- `_rank`. -/
def rankCandidates (candidates : List Candidate) : List Candidate :=
  sortedBy Candidate.order candidates

/-! ### Parts -/

/-- One source's word for a part. -/
structure PartWord where
  unit : AdminUnit
  claimIds : List Nat
  qualifiers : List Qualifier
  agreed : Option (List Agreed) := none

section Parts

variable (ctx : ResolverContext)

/-- The part a climbed unit stands for: itself, or for a KÚ the one část its name spells. -/
def climbedUnit (town unit : AdminUnit) : Option AdminUnit :=
  let stands :=
    if unit.level = .katastralniUzemi then
      let key := ctx.text.matchKey (ctx.text.splitQualifier unit.name)
      match firstPerKey AdminUnit.unitId
          ((ctx.registry.adminUnitsByName key [.castObce]).filter fun spelled =>
            climbedTo ctx spelled == some town.code) with
      | [part] => some part
      | _ => none
    else some unit
  stands.filter fun part => decide (part.level ∈ partOfTownLevels)

/-- `climbed_part`: the one část a town name climbed from, unless it bears the town's name. -/
def climbedPart (town : AdminUnit) (climbed : List AdminUnit) : Option AdminUnit :=
  match firstPerKey AdminUnit.unitId (climbed.filterMap (climbedUnit ctx town)) with
  | [part] => if part.nameNorm = town.nameNorm then none else some part
  | _ => none

/-- The parts the claims say: a claimed část, by its row's own obec, and a composite line's. -/
def partsSaid (constraints : Constraints) (towns : Towns) : List PartWord :=
  let kods := towns.units.map AdminUnit.code
  (if kods = [] then []
    else constraints.castObceKeys.flatMap fun key =>
      ((ctx.registry.adminUnitsByName key (partLevels ++ [.zsj])).filter fun unit =>
        unit.obecKod.all fun code => decide (code ∈ kods)).map fun unit =>
          { unit := unit, claimIds := constraints.ids [.castObceName]
            qualifiers := [.obecConstrained] }) ++
  towns.composite.part.toList.map fun part =>
    { unit := part, claimIds := constraints.ids [.obecName], qualifiers := [.obecConstrained] }

/-- The parts found behind them: the village a town name climbed from, and a street line's. -/
def partsFound (constraints : Constraints) (towns : Towns) (line : StreetBind) : List PartWord :=
  let weak := towns.applied.filter Qualifier.lowConfidence
  (match towns.units with
    | [town] =>
        ((climbedPart ctx town ((towns.climbed.filter fun entry =>
            decide (entry.1 = town.code)).map Prod.snd)).map fun part =>
          { unit := part, claimIds := constraints.ids [.obecName]
            qualifiers := [.obecConstrained, .climbedFromTownName] ++ weak
            agreed := some (adminAgreed .obec towns.rung towns.applied) : PartWord }).toList
    | _ => []) ++
  line.namedPart.toList.map fun part =>
    { unit := part, claimIds := constraints.ids [.street]
      qualifiers := [.obecConstrained, .streetNamesPart] ++ weak }

/-- A found part its peers among the said ones contradict. -/
def contradicted (said : List PartWord) (word : PartWord) : Bool :=
  let peers := said.filter fun other => other.unit.level == word.unit.level
  !peers.isEmpty && !(peers.any fun other => other.unit.unitId == word.unit.unitId)

/-- `_reconcile_parts`, and `_merge_parts` over what it leaves: one word per unit. -/
def reconcileParts (said found : List PartWord) : List PartWord :=
  let ids := (found.map fun word => word.unit.unitId).dedup
  let obce := (found.map fun word => word.unit.obecKod).dedup
  if ids.length ≠ obce.length then []
  else if found.any (contradicted said) then []
  else
    said ++ found.filter fun word =>
      said.isEmpty || (said.any fun other => other.unit.level == word.unit.level)

/-- Two words for one unit. -/
def PartWord.merge (known word : PartWord) : PartWord where
  unit := word.unit
  claimIds := sortedIds (known.claimIds ++ word.claimIds).dedup
  qualifiers := (known.qualifiers ++ word.qualifiers).eraseDups
  agreed := if known.agreed.isNone ∨ word.agreed.isNone then none else known.agreed

/-- `_merge_parts`. -/
def mergeParts (words : List PartWord) : List PartWord :=
  (words.map fun word => word.unit.unitId).eraseDups.filterMap fun unitId =>
    match words.filter fun word => word.unit.unitId == unitId with
    | [] => none
    | first :: rest => some (rest.foldl PartWord.merge first)

end Parts

/-! ### The ladder -/

section Ladder

variable (ctx : ResolverContext)

/-- `_typed`: an unmarked number is a č.p. where the scope holds one. -/
def typedPoints (doors : List AddressPoint) : List AddressPoint :=
  let cp := doors.filter fun door => door.typSo == .cp
  if cp = [] then doors else cp

/-- R0: a portal-supplied registry key. -/
def registryKeyCandidates (constraints : Constraints) : List Candidate :=
  ((constraints.kodAdm.bind ctx.registry.addressPoint).map fun door =>
    pointCandidate door .r0 [.registryKey, .houseNumber, .street, .obec]
      (constraints.ids [.kodAdm]) []).toList

/-- The street claims, read in the kept towns. -/
def streetLine (constraints : Constraints) (kods : List Kod) (placeLines : List String) :
    StreetBind :=
  if kods ≠ [] ∧ (constraints.streetLines ≠ [] ∨ placeLines ≠ []) then
    resolveStreet ctx constraints.streetLines kods placeLines
  else {}

/-- The street has a door in the part. -/
def doorInPart (part : Option AdminUnit) (candidate : BoundStreet) : Bool :=
  part.any fun part => (ctx.registry.streetPoint candidate.street).any fun spot =>
    decide (some part.unitId ∈ spot.partUnitIds)

/-- 1d: of several streets of one name, the one with a door in the one bound part, else the
one a claim is spelled like. -/
def settledStreet (part : Option AdminUnit) (line : StreetBind) :
    Option BoundStreet × List Qualifier :=
  if line.reason ≠ .ambiguousStreets then (line.bound, [])
  else
    let inside := line.candidates.filter (doorInPart ctx part)
    let spelled := line.candidates.filter BoundStreet.spelled
    match inside, spelled with
    | [one], [named] =>
        if named.street = one.street then (some one, [.streetPartTiebreak]) else (none, [])
    | [one], _ => (some one, [.streetPartTiebreak])
    | inside, [named] =>
        if part.isNone ∨ inside ≠ [] then (some named, []) else (none, [])
    | _, _ => (none, [])

/-- R1 and R2: the bound street's doors under the number, else the street. -/
def streetCandidates (constraints : Constraints) (bound : Option BoundStreet)
    (relaxed : List Qualifier) : List Candidate :=
  match bound with
  | none => []
  | some line =>
      let (cisloDomovni, typSo) :=
        if (truthyInt line.cisloDomovni).isSome then (line.cisloDomovni, line.typSo)
        else (constraints.cisloDomovni, constraints.typSo)
      let cisloOrientacni := (truthyInt line.cisloOrientacni).or constraints.cisloOrientacni
      let doors :=
        if (truthyInt cisloDomovni).isSome ∨ (truthyInt cisloOrientacni).isSome then
          typedPoints (ctx.registry.addressPointsByNumber
            { obecKod := line.street.obecKod
              streetNameNorm := some line.street.nameNorm
              cisloDomovni := cisloDomovni
              typSo := typSo
              cisloOrientacni := cisloOrientacni })
        else []
      if doors = [] then [streetCandidate line.street .r2 constraints 0 relaxed]
      else
        doors.map fun door =>
          pointCandidate door .r1
            ([.houseNumber, .street, .obec] ++
              if constraints.psc = some door.psc then [.psc] else [])
            (constraints.ids [.street, .houseNumberCp, .houseNumberCo]) relaxed

/-- The order of the fuzzy matches: the most alike, then the name. -/
def fuzzyOrder (entry : Float64 × Street) : Float64ᵒᵈ ×ₗ String :=
  toLex (OrderDual.toDual entry.1, entry.2.nameNorm)

/-- R3: the typo-tolerant rung, where nothing bound exactly and nothing tied. -/
def fuzzyCandidates (constraints : Constraints) (kods : List Kod) (reason : StreetReason)
    (boundExactly : Bool) : List Candidate :=
  match truthy constraints.streetKey with
  | none => []
  | some key =>
      if kods = [] ∨ boundExactly = true ∨ reason = .ambiguousStreets ∨
          reason = .streetNamesPart then []
      else
        let fuzzy := sortedBy fuzzyOrder
          (((kods.flatMap ctx.registry.streetsInObec).map fun street =>
            (trigramSimilarity ctx.text key street.nameNorm, street)).filter fun entry =>
              decide (trgmThreshold ≤ entry.1))
        match fuzzy with
        | [] => []
        | [best] => [streetCandidate best.2 .r3 constraints best.1 [.streetUnaccentFuzzy]]
        | best :: next :: _ =>
            if trgmMargin ≤ best.1 - next.1 then
              [streetCandidate best.2 .r3 constraints best.1 [.streetUnaccentFuzzy]]
            else []

/-- R4 or R6: the kept towns. -/
def townCandidates (constraints : Constraints) (towns : Towns) : List Candidate :=
  towns.units.map fun unit =>
    adminCandidate unit towns.rung .obec (constraints.ids [.obecName, .psc]) towns.applied none

/-- `_pin_agrees`. -/
def pinAgrees (door : AddressPoint) (pin : Option Point) (blurred : Bool) : Bool :=
  blurred || (ctx.distanceBetween door.point pin).all fun metres =>
    decide (metres ≤ registryPinConflictM)

/-- R1 without a street: the number inside the one bound část obce. -/
def numberInPart (constraints : Constraints) (part : Option AdminUnit) (pinBlurred : Bool)
    (hasDoor : Bool) : List Candidate :=
  match part with
  | none => []
  | some part =>
      match ctx.registry.obecOf part with
      | none => []
      | some town =>
          if constraints.cisloDomovni.isNone ∨ constraints.streetLines ≠ [] ∨ hasDoor = true then
            []
          else
            match typedPoints (ctx.registry.addressPointsByNumber
                { obecKod := town.code
                  streetNameNorm := none
                  cisloDomovni := constraints.cisloDomovni
                  typSo := constraints.typSo
                  cisloOrientacni := constraints.cisloOrientacni
                  castObceUnitId := some part.unitId }) with
            | [door] =>
                if pinAgrees ctx door constraints.pin pinBlurred then
                  [pointCandidate door .r1 [.houseNumber, .castObce, .obec]
                    (constraints.ids [.castObceName, .houseNumberCp, .houseNumberCo, .street]) []]
                else []
            | _ => []

/-- R7 and R8: the pin alone. -/
def pinCandidates (constraints : Constraints) : List Candidate :=
  match constraints.pin with
  | none => []
  | some pin =>
      match ctx.registry.containingObec pin with
      | some covering =>
          [adminCandidate covering .r7 .obec (constraints.ids [.coordinate]) [.reverseDerived] none]
      | none =>
          match ctx.registry.nearestObecWithin pin pipSliverToleranceM with
          | some nearest =>
              [adminCandidate nearest.1 .r8 .obec (constraints.ids [.coordinate])
                [.pipNearestWithinNM] none]
          | none => []

/-- R9 at one level: the regions the claims name. -/
def regionsNamed (constraints : Constraints) (keys : List String) (level : Level)
    (granularity : Granularity) (kind : NoteKind) : List Candidate :=
  keys.flatMap fun key => (ctx.registry.adminUnitsByName key [level]).map fun unit =>
    adminCandidate unit .r9 granularity (constraints.ids [kind]) [.regionOnly] none

/-- R9: the okres alone, else the kraj. -/
def regionCandidates (constraints : Constraints) : List Candidate :=
  let okresy := regionsNamed ctx constraints constraints.okresKeys .okres .okres .okresName
  if okresy ≠ [] then okresy
  else regionsNamed ctx constraints constraints.krajKeys .kraj .kraj .krajName

/-- The one část obce among the parts. -/
def oneCast (parts : List PartWord) : Option AdminUnit :=
  match parts.filter fun word => word.unit.level == .castObce with
  | [word] => some word.unit
  | _ => none

/-- What the claims leave of the ladder's input. -/
structure Ladder where
  constraints : Constraints
  towns : Towns
  pinBlurred : Bool
  placeLines : List String

namespace Ladder

variable (ladder : Ladder)

/-- `constraining_obec_kods`. -/
def kods : List Kod :=
  sortedIds (ladder.towns.units.map AdminUnit.code).dedup

def line : StreetBind :=
  streetLine ctx ladder.constraints ladder.kods ladder.placeLines

def parts : List PartWord :=
  mergeParts (reconcileParts (partsSaid ctx ladder.constraints ladder.towns)
    (partsFound ctx ladder.constraints ladder.towns (ladder.line ctx)))

def partCandidates : List Candidate :=
  (ladder.parts ctx).map fun word =>
    adminCandidate word.unit .r4 .castObceOrQuarter word.claimIds word.qualifiers word.agreed

/-- The candidates the claims' words give: R0, the parts, the street, the towns, the number. -/
def worded : List Candidate :=
  let line := ladder.line ctx
  let part := oneCast (ladder.parts ctx)
  let (bound, relaxed) := settledStreet ctx part line
  let exact := registryKeyCandidates ctx ladder.constraints ++ ladder.partCandidates ctx ++
    streetCandidates ctx ladder.constraints bound relaxed
  let boundExactly := exact.any fun candidate =>
    candidate.targetKind == .street || candidate.rung == .r0 || candidate.rung == .r1
  let reason := if bound.isSome then StreetReason.streetMatch else line.reason
  let named := exact ++ fuzzyCandidates ctx ladder.constraints ladder.kods reason boundExactly ++
    townCandidates ladder.constraints ladder.towns
  named ++ numberInPart ctx ladder.constraints part ladder.pinBlurred
    (named.any fun candidate => candidate.targetKind == .addressPoint)

/-- Every candidate: the words', else the pin's, else the region's. -/
def candidates : List Candidate :=
  let worded := ladder.worded ctx
  if worded ≠ [] then worded
  else
    let pinned := pinCandidates ctx ladder.constraints
    if pinned ≠ [] then pinned else regionCandidates ctx ladder.constraints

end Ladder

/-! ### The winner -/

/-- BIND's answer. -/
structure Binding where
  targetKind : TargetKind := .none
  granularity : Granularity := .unknown
  rung : Option Rung := none
  ruianAdmKod : Option Kod := none
  uliceKod : Option Kod := none
  adminUnitId : Option Nat := none
  obecKod : Option Kod := none
  streetName : Option String := none
  point : Option Point := none
  castObceUnitId : Option Nat := none
  streetExtentM : Option ℚ := none
  streetKatastrKod : Option Kod := none
  agreed : List Agreed := []
  relaxations : List Qualifier := []
  ambiguous : Bool := false
  sourceClaimIds : List Nat := []

def Binding.bound (binding : Binding) : Bool :=
  binding.targetKind != .none

/-- `pin_derived`: the town came from the pin. -/
def Binding.pinDerived (binding : Binding) : Bool :=
  binding.rung == some .r7 || binding.rung == some .r8

/-- Where the winning street's doors are. -/
def streetSpot (top : Candidate) : Option StreetPoint :=
  if top.targetKind = .street then top.street.bind ctx.registry.streetPoint else none

/-- Q3: an exact street of a named town takes the one část obce its doors lie in. -/
def winningPart (named : Bool) (top : Candidate) : Option Nat :=
  match streetSpot ctx top with
  | some spot =>
      match spot.partUnitIds with
      | [part] => if named ∧ top.rung = .r2 then part else top.castObceUnitId
      | _ => top.castObceUnitId
  | none => top.castObceUnitId

/-- A tie: another candidate of the winner's grain within the margin, or on its rung. -/
def tied (top : Candidate) (rest : List Candidate) : Bool :=
  let rivals := rest.filter fun candidate => candidate.granularity == top.granularity
  (rivals.head?.any fun rival => decide (top.score - rival.score < ambiguityMargin)) ||
    rivals.any fun rival => rival.rung == top.rung

def bindingOf (named : Bool) (top : Candidate) (rest : List Candidate) : Binding :=
  let spot := streetSpot ctx top
  { targetKind := top.targetKind
    granularity := top.granularity
    rung := some top.rung
    ruianAdmKod := top.ruianAdmKod
    uliceKod := top.uliceKod
    adminUnitId := top.adminUnitId
    obecKod := top.obecKod
    streetName := top.streetName
    point := (spot.map StreetPoint.point).or top.point
    castObceUnitId := winningPart ctx named top
    streetExtentM := spot.map StreetPoint.extentM
    streetKatastrKod := spot.bind StreetPoint.katastrKod
    agreed := top.agreed
    relaxations := top.relaxations
    ambiguous := tied top rest
    sourceClaimIds := top.sourceClaimIds }

/-- `bind`, over the towns the rule left. -/
def Ladder.bind (ladder : Ladder) : Binding :=
  match rankCandidates (ladder.candidates ctx) with
  | [] => {}
  | top :: rest => bindingOf ctx ladder.towns.named top rest

end Ladder

/-! ### The pin -/

/-- `BLURRED_DECLARED_LABELS`. -/
def blurredDeclaredLabels : List String :=
  ["municipality", "obec", "ward", "quarter", "citypart", "street", "approximate", "priblizna",
    "estimated", "regional", "area", "polygon", "approximate_location", "linestring", "circle"]

/-- `PRECISE_DECLARED_LABELS`. -/
def preciseDeclaredLabels : List String :=
  ["gps", "address", "exact", "presna", "rooftop", "ruian", "accurate"]

/-- `KNOWN_DECLARED_LABELS`. -/
def knownDeclaredLabels : List String :=
  blurredDeclaredLabels ++ preciseDeclaredLabels ++ ["no_exact_address"]

section Pin

variable (ctx : ResolverContext)

/-- A label, stripped and lowered. -/
def labelOf (value : Option String) : String :=
  ctx.text.lower (ctx.text.strip (value.getD ""))

/-- `declared_rank`: declared precise, undeclared, declared blurred. -/
def declaredRank (claim : Claim) : Nat :=
  let raw := labelOf ctx claim.declaredPrecisionLabel
  if raw ∈ preciseDeclaredLabels then 0
  else if raw ∈ blurredDeclaredLabels ∨ claim.blurEvidence.declares = true then 2
  else 1

/-- `elect_pin`: by declared quality, and only then by claim id. -/
def electPin (claims : List Claim) : Option Claim :=
  (sortedBy (fun claim => (toLex (declaredRank ctx claim, claim.id) : Nat ×ₗ Nat))
    (claims.filter fun claim =>
      claim.claimType == .coordinate && claim.point.isSome)).head?

/-- The listing-wide declaration. -/
structure DeclaredPrecision where
  label : Option String := none
  blurred : Bool := false

/-- A label read of a claim: the first is kept, any blurred one blurs. -/
def DeclaredPrecision.withLabel (declared : DeclaredPrecision) (raw : String) :
    DeclaredPrecision where
  label := (truthy declared.label).or (some raw)
  blurred := declared.blurred || decide (raw ∈ blurredDeclaredLabels)

/-- One claim of `read_declared_precision`. -/
def readPrecisionClaim (coordinateClaimId : Option Nat) (declared : DeclaredPrecision)
    (claim : Claim) : DeclaredPrecision :=
  if claim.claimType ∉ [ClaimType.precisionDeclaration, .blurHint, .uncertaintyGeometry, .mapZoom,
      .coordinate] then declared
  else if claim.claimType = .coordinate ∧ coordinateClaimId.any (fun id => id != claim.id) then
    declared
  else if claim.claimType = .blurHint then { declared with blurred := true }
  else
    let labelled := labelOf ctx claim.declaredPrecisionLabel
    let spoken := labelOf ctx claim.valueText
    let raw :=
      if labelled ≠ "" then labelled
      else if spoken ∈ knownDeclaredLabels then spoken else ""
    let hung :=
      if claim.claimType = .coordinate ∧ (truthy claim.declaredPrecisionLabel).isSome then
        declared.withLabel raw
      else declared
    let said :=
      if claim.claimType ∈ [ClaimType.precisionDeclaration, .uncertaintyGeometry] ∧ raw ≠ "" then
        hung.withLabel raw
      else hung
    { said with blurred := said.blurred || claim.blurEvidence.declares }

/-- `read_declared_precision`. -/
def readDeclaredPrecision (claims : List Claim) (coordinateClaimId : Option Nat) :
    DeclaredPrecision :=
  (sortedBy Claim.id claims).foldl (readPrecisionClaim ctx coordinateClaimId) {}

/-- `pin_is_precise`. -/
def DeclaredPrecision.precise (declared : DeclaredPrecision) : Bool :=
  (truthy declared.label).isSome && !declared.blurred

/-- `pin_inside_bound_obec`: none is not asked. -/
def pinInsideBoundObec (binding : Binding) (pinClaim : Option Claim) : Option Bool :=
  match pinClaim.bind Claim.point, binding.obecKod with
  | some pin, some obecKod =>
      if binding.pinDerived then none
      else some ((ctx.registry.containingObec pin).any fun covering => covering.code == obecKod)
  | _, _ => none

inductive Origin where
  | registryPoint
  | streetPoint
  | portalPin
  | adminCentroid
  | none
  deriving DecidableEq

/-- The one coordinate the row publishes, and where it came from. -/
structure Position where
  point : Option Point := none
  origin : Origin := .none
  blurred : Bool := false
  registryPinDistanceM : Option ℚ := none
  extentM : Option ℚ := none
  pinOverridden : Bool := false
  sourceClaimIds : List Nat := []

/-- `place`: a registry address point, then a street's point over a pin that cannot be
trusted over it, then the pin, unless it is declared blurred and outside the bound obec. -/
def place (binding : Binding) (pinClaim : Option Claim) (declared : DeclaredPrecision)
    (pinInside : Option Bool) : Position :=
  let pin := pinClaim.bind Claim.point
  let pinned := fun (claim : Claim) =>
    { point := pin, origin := .portalPin, blurred := declared.blurred
      sourceClaimIds := [claim.id] : Position }
  if binding.targetKind = .addressPoint ∧ binding.point.isSome then
    { point := binding.point
      origin := .registryPoint
      registryPinDistanceM := ctx.distanceBetween binding.point pin
      sourceClaimIds := binding.sourceClaimIds }
  else if binding.targetKind = .street ∧ binding.point.isSome then
    let distance := ctx.distanceBetween binding.point pin
    let offStreet := distance.any fun metres =>
      decide (max registryPinConflictM (binding.streetExtentM.getD 0) < metres)
    match pinClaim, pin with
    | some claim, some _ =>
        if declared.blurred || offStreet then
          { point := binding.point
            origin := .streetPoint
            registryPinDistanceM := distance
            extentM := binding.streetExtentM
            pinOverridden := offStreet && !declared.blurred
            sourceClaimIds := binding.sourceClaimIds }
        else pinned claim
    | _, _ =>
        { point := binding.point
          origin := .streetPoint
          registryPinDistanceM := distance
          extentM := binding.streetExtentM
          sourceClaimIds := binding.sourceClaimIds }
  else
    match pinClaim, pin with
    | some claim, some _ =>
        if declared.blurred = true ∧ pinInside = some false then {} else pinned claim
    | _, _ => {}

end Pin

end Sreality.LocationData
