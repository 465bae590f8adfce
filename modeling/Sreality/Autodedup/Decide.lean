import Mathlib.Data.Rat.Floor
import Sreality.Autodedup.Cluster
import Sreality.Autodedup.ContextRail
import Sreality.Foundation.Dicts

/-! The decision of one pair (`autodedup/decide.py`): the rule floor and the calibrated score, then
the context rule (E63), the D43 rule and the merge policy (D65), each re-reading the zone and the
reason the layer before it wrote. What other modules read of the bodies, the photographs and the
prices is `Readers`; `probes` is read by no layer and left out. -/

set_option autoImplicit false

namespace Sreality.Autodedup.Decide

open Sreality.Foundation
open Sreality.Toolkit (categoryMainCompatible)

def unitNImagesMin : ℚ := 1
def contextRuleReason : String := "context_rule"
def contextRuleNeverOverrides : List String := ["developer_signature", "developer_colive"]
def d43GateReason : String := "d43_gate"
def d43PromoteReason : String := "d43_promote"
def d43DemonstrateReason : String := "d43_demonstrate"
def mergePolicyHold : String := "policy_hold"
def unitDesignatorVeto : String := "unit_designator_conflict"
def certAArea : ℚ := 2 / 100
def certBArea : ℚ := 1 / 100
def certBContainment : ℚ := 9 / 10
def certCTightMatches : ℚ := 4
def certCSeqMonotone : ℚ := 8 / 10
def certCArea : ℚ := 3 / 100
def certCCatalogRatio : ℚ := 2 / 10
def recoverMinBodyChars : Nat := 200

/-! ### What is read -/

/-- The feature row: a value, and whether it is present. -/
abbrev Feats : Type := String → Option (ℚ × Bool)

/-- The value of a feature that is present. -/
def presentValue (feats : Feats) (name : String) : Option ℚ :=
  (feats name).bind fun slot => if slot.2 then some slot.1 else none

/-- A stored stamp, in epoch days where it parses. -/
structure Stamp where
  days : Option ℚ
  deriving DecidableEq

structure Listing where
  id : Nat
  categoryType : Option String
  categoryMain : Option String
  description : Option String
  price : Option ℚ
  priceHistory : List (Option ℚ)
  firstSeenAt : Option Stamp
  lastSeenAt : Option Stamp
  inactiveAt : Option Stamp
  census : CensusListing

/-- A difference two adverts state. -/
structure Fact where
  name : String
  left : String
  right : String
  deriving DecidableEq

inductive FactMode where
  | promote
  | gate
  deriving DecidableEq

inductive Shortfall where
  | missing
  | contradiction
  deriving DecidableEq

/-! ### The dials -/

/-- The dials the layers read, but for the three below; `rest` is what the readers read besides. -/
structure Dials (Rest : Type) where
  tHi : ℚ
  tLo : ℚ
  tHiByStratum : Dict String (Option ℚ)
  areaRejectPct : Float64
  maxAttrContradictions : ℚ
  minEvidenceFamilies : Nat
  unitDesignatorVeto : Bool
  certificateKaEnabled : Bool
  certificateKrEnabled : Bool
  certificateBMinImages : ℚ
  certificateBMinMatchedImages : ℚ
  certificateBMinGapDays : ℚ
  liveWindowFromSighting : Bool
  unitEvidenceRequired : Bool
  unitInteriorMin : ℚ
  unitRareTokensMin : ℚ
  unitContainmentMin : ℚ
  unitRareRequiresSupport : Bool
  unitRareSupportInteriorMin : ℚ
  developerSignatureGuard : Bool
  developerSignatureSameBrokerOnly : Bool
  developerCatalogRatioMin : ℚ
  developerColiveGuard : Bool
  coliveOverlapDays : ℚ
  contextRuleEnabled : Bool
  contextRuleMinScore : ℚ
  contextRuleContainmentMin : ℚ
  contextRulePriceRatioMin : ℚ
  contextRuleAreaMax : ℚ
  contextRuleInteriorMin : Option ℚ
  contextRuleMinImages : ℚ
  contextRuleFromPriceVeto : Bool
  contextRuleBlockMin : Option Int
  contextRuleImagePopulationMin : Option Int
  d43Promote : Bool
  d43PromoteMinAgreeing : Int
  d43PromotePhotoAlternative : Bool
  d43PromoteUnitEvidence : Bool
  d43PromoteUnitBodySequential : Bool
  d43PricePathTol : ℚ
  demonstrateRecoverMissing : Bool
  demonstrateRecoverMinPhotos : ℚ
  demonstrateRecoverBodyContainment : ℚ
  rest : Rest

structure Settings (Rest : Type) extends Dials Rest where
  d43Gate : Bool
  demonstrateIdentity : Bool
  mergePolicy : String → Option String

/-- The readings taken from other modules; none of them reads `d43_gate`, `demonstrate_identity`
or `merge_policy`. -/
structure Readers (Rest : Type) where
  unitDesignators : Option String → List String
  predictProba : Feats → ℚ
  distinguishingFacts : Dials Rest → FactMode → Listing → Listing → Feats → List Fact
  agreeingAttributes : Dials Rest → Listing → Listing → Feats → List String
  demonstrationShortfall :
    Dials Rest → Listing → Listing → Bool → Option ℚ → Option (String × Shortfall)
  corroborationWarrant : Dials Rest → Listing → Listing → Feats → Option String
  developmentContext : Dials Rest → Listing → Listing → Bool
  sequentialFor : Dials Rest → Listing → Listing → Bool

structure Decision extends Autodedup.Decision where
  veto : Option String := none
  reason : String := ""
  evidence : Dict String String := []

/-- One census answer, as a stored row keeps it. -/
structure PairContext where
  stamp : ContextStamp
  fromPrice : Bool

/-- The index of a cohort, or the answer stored for the pair. -/
inductive Context where
  | index (cohort : ContextIndex) (fromPrice : List Nat)
  | pair (context : PairContext)

/-- What `decide_pair` is given of one pair. -/
structure PairInput where
  fa : Fingerprint
  fb : Fingerprint
  la : Listing
  lb : Listing
  feats : Feats
  context : Option Context
  kbRefused : Bool

variable {Rest : Type}

/-! ### The guards -/

def areaRelDiff (a b : Option Float64) : Option Float64 :=
  match a, b with
  | some a, some b =>
      if a.value ≤ 0 ∨ b.value ≤ 0 then none else some ((a - b).abs / max a b)
  | _, _ => none

def pairVeto (a b : Fingerprint) (dials : Dials Rest) : Option String :=
  let isLand := a.categoryMain = some landCategory ∨ b.categoryMain = some landCategory
  if a.categoryType.isSome = true ∧ b.categoryType.isSome = true ∧
      a.categoryType ≠ b.categoryType then some "category_type"
  else if categoryMainCompatible a.categoryMain b.categoryMain = false then some "category_main"
  else if (areaRelDiff a.areaM2 b.areaM2).any (fun diff => decide (dials.areaRejectPct < diff)) then
    some "area"
  else if ¬isLand ∧ a.disposition.isSome = true ∧ b.disposition.isSome = true ∧
      a.disposition ≠ b.disposition then some "disposition"
  else
    match a.flatFloor, b.flatFloor with
    | some left, some right => if 2 ≤ |left - right| then some "floor" else none
    | _, _ => none

/-- The two designators of adverts that each name one unit of one address block, not the same. -/
def unitDesignatorConflict (readers : Readers Rest) (a b : Listing) (dials : Dials Rest) :
    Option (String × String) :=
  if dials.unitDesignatorVeto = false then none
  else
    match readers.unitDesignators a.description, readers.unitDesignators b.description with
    | [left], [right] =>
        if left = right ∨ a.census.block ≠ b.census.block then none else some (left, right)
    | _, _ => none

/-! ### The evidence families -/

structure Condition where
  name : String
  low : ℚ
  high : Option ℚ

def ruleHolds (feats : Feats) (conditions : List Condition) : Bool :=
  conditions.all fun condition =>
    (presentValue feats condition.name).any fun value =>
      decide (condition.low ≤ value) && condition.high.all fun high => decide (value ≤ high)

def isOne (name : String) : List Condition := [⟨name, 1, some 1⟩]

def evidenceRules : List (String × List (List Condition)) :=
  [("IMG",
      [[⟨"interior_match_ratio", 1 / 100, none⟩],
        [⟨"phash_match_ratio", 30 / 100, none⟩, ⟨"catalog_ratio_max", 0, some (20 / 100)⟩],
        [⟨"phash_tight_matches", 4, none⟩, ⟨"seq_monotone_ratio", 80 / 100, none⟩,
          ⟨"catalog_ratio_max", 0, some (20 / 100)⟩],
        [⟨"clip_max_cos", 95 / 100, none⟩, ⟨"catalog_ratio_max", 0, some (20 / 100)⟩]]),
    ("TXT",
      [[⟨"rare_token_overlap", 2, none⟩], [⟨"numeric_fact_overlap", 2, none⟩],
        isOne "ref_code_shared"]),
    ("LOC",
      [isOne "same_ruian_adm_kod", isOne "same_street_key", isOne "same_house_number",
        isOne "same_exact_pin", [⟨"dist_norm", 0, some 1⟩]]),
    ("BRK", [isOne "same_broker_identity", isOne "same_broker_key"]),
    ("ATTR",
      [isOne "area_exact", [⟨"area_rel_diff", 0, some (1 / 100)⟩],
        [⟨"area_rel_diff", 0, some (2 / 100)⟩, ⟨"dispo_equal", 1, some 1⟩],
        [⟨"attr_agreements_rare", 4, none⟩], isOne "plot_area_exact"])]

def evidenceFamilies (feats : Feats) : List String :=
  (evidenceRules.filter fun family => family.2.any (ruleHolds feats)).map Prod.fst

/-! ### The certificates -/

/-- A feature is present and passes the test. -/
def has (feats : Feats) (name : String) (test : ℚ → Bool) : Bool :=
  (presentValue feats name).any test

def equals (feats : Feats) (name : String) (value : ℚ) : Bool :=
  has feats name fun held => decide (held = value)

def atLeast (feats : Feats) (name : String) (bound : ℚ) : Bool :=
  has feats name fun held => decide (bound ≤ held)

def atMost (feats : Feats) (name : String) (bound : ℚ) : Bool :=
  has feats name fun held => decide (held ≤ bound)

/-- Which stamp ends an advert's window: its last sighting, or the delisting. -/
def windowEndStamp (listing : Listing) (dials : Dials Rest) : Option Stamp :=
  if dials.liveWindowFromSighting then listing.lastSeenAt.or listing.inactiveAt
  else listing.inactiveAt.or listing.lastSeenAt

/-- The days between the two live windows, negative where they overlap. -/
def windowGapDays (la lb : Listing) (dials : Dials Rest) : Option ℚ := do
  let startA ← la.firstSeenAt.bind Stamp.days
  let startB ← lb.firstSeenAt.bind Stamp.days
  let endA ← (windowEndStamp la dials).bind Stamp.days
  let endB ← (windowEndStamp lb dials).bind Stamp.days
  return max startA startB - min endA endB

def disjointWindows (la lb : Listing) (dials : Dials Rest) : Bool :=
  (windowGapDays la lb dials).any fun gap =>
    decide (0 < gap) && decide (dials.certificateBMinGapDays ≤ gap)

def certificateA (feats : Feats) : Bool :=
  equals feats "same_ruian_adm_kod" 1 && equals feats "dispo_equal" 1 &&
    atMost feats "area_rel_diff" certAArea &&
    (presentValue feats "floor_diff").all fun floor => decide (floor = 0)

def certificateBImageFloor (feats : Feats) (dials : Dials Rest) : Bool :=
  (decide (dials.certificateBMinImages ≤ 0) ||
      atLeast feats "n_images_min" dials.certificateBMinImages) &&
    (decide (dials.certificateBMinMatchedImages ≤ 0) ||
      atLeast feats "phash_loose_matches" dials.certificateBMinMatchedImages)

def certificateB (feats : Feats) (la lb : Listing) (dials : Dials Rest) : Bool :=
  equals feats "same_source" 1 && equals feats "same_broker_key" 1 &&
    atLeast feats "containment_max" certBContainment && atMost feats "area_rel_diff" certBArea &&
    certificateBImageFloor feats dials && disjointWindows la lb dials

def certificateC (feats : Feats) : Bool :=
  atLeast feats "phash_tight_matches" certCTightMatches &&
    atLeast feats "seq_monotone_ratio" certCSeqMonotone &&
    atMost feats "area_rel_diff" certCArea && equals feats "dispo_equal" 1 &&
    atMost feats "catalog_ratio_max" certCCatalogRatio

def certificateR (feats : Feats) : Bool :=
  equals feats "ref_code_shared" 1

def certificateOf (feats : Feats) (la lb : Listing) (dials : Dials Rest) (kbRefused : Bool) :
    Option String :=
  if dials.certificateKrEnabled && certificateR feats then some "K-R"
  else if dials.certificateKaEnabled && certificateA feats then some "K-A"
  else if !kbRefused && certificateB feats la lb dials then some "K-B"
  else if certificateC feats then some "K-C"
  else none

/-! ### The gates before the merge zone -/

def interiorArm (feats : Feats) (dials : Dials Rest) : Bool :=
  atLeast feats "interior_match_ratio" dials.unitInteriorMin &&
    atLeast feats "n_images_min" unitNImagesMin

def repostArm (feats : Feats) (dials : Dials Rest) : Bool :=
  equals feats "same_source" 1 && equals feats "same_broker_key" 1 &&
    atLeast feats "containment_max" dials.unitContainmentMin && equals feats "overlap_days" 0

def unitNumberArm (feats : Feats) : Bool :=
  equals feats "same_ruian_adm_kod" 1 && equals feats "floor_diff" 0 &&
    equals feats "unit_number_shared" 1

def rareTokenArm (feats : Feats) (dials : Dials Rest) : Bool :=
  atLeast feats "rare_token_overlap" dials.unitRareTokensMin &&
    (!dials.unitRareRequiresSupport ||
      (atLeast feats "interior_match_ratio" dials.unitRareSupportInteriorMin &&
        atLeast feats "n_images_min" unitNImagesMin))

def refCodeArm (feats : Feats) : Bool :=
  certificateR feats

def unitGradeEvidence (feats : Feats) (dials : Dials Rest) : Bool :=
  interiorArm feats dials || repostArm feats dials || unitNumberArm feats || refCodeArm feats

/-- E45. -/
def unitEvidence (feats : Feats) (dials : Dials Rest) : Bool :=
  unitGradeEvidence feats dials || rareTokenArm feats dials

/-- E46. -/
def developerSignature (feats : Feats) (dials : Dials Rest) : Bool :=
  (!dials.developerSignatureSameBrokerOnly ||
      (equals feats "same_source" 1 && equals feats "same_broker_key" 1)) &&
    has feats "overlap_days" (fun overlap => decide (0 < overlap)) &&
    atLeast feats "catalog_ratio_max" dials.developerCatalogRatioMin &&
    (presentValue feats "interior_match_ratio").all fun interior =>
      decide (interior < dials.unitInteriorMin)

/-- E47. -/
def developerColive (feats : Feats) (dials : Dials Rest) : Bool :=
  equals feats "same_source" 1 && equals feats "same_broker_key" 1 &&
    has feats "overlap_days" (fun overlap => decide (dials.coliveOverlapDays < overlap)) &&
    !equals feats "unit_number_shared" 1

def mergeZoneBlock (feats : Feats) (dials : Dials Rest) : Option String :=
  if dials.developerSignatureGuard && developerSignature feats dials then
    some "developer_signature"
  else if dials.developerColiveGuard && developerColive feats dials then some "developer_colive"
  else if dials.unitEvidenceRequired && !unitEvidence feats dials then some "unit_evidence_gate"
  else none

def stratumKey (feats : Feats) (certificate : Option String) : String :=
  (certificate.filter (· ≠ "")).getD "model" ++ "|" ++
    if equals feats "same_source" 1 then "same" else "cross"

/-- The cut the pair's stratum merges at, none where it is propose-only (E48). -/
def stratumTHi (feats : Feats) (certificate : Option String) (dials : Dials Rest) : Option ℚ :=
  match dials.tHiByStratum.lookup (stratumKey feats certificate) with
  | some cut => cut
  | none => some dials.tHi

def autoRejectReason (feats : Feats) (dials : Dials Rest) : Option String :=
  if atLeast feats "attr_contradictions" dials.maxAttrContradictions then
    some "attr_contradictions"
  else if equals feats "numeral_conflict" 1 then some "numeral_conflict"
  else none

/-! ### The rule floor and the score -/

variable (readers : Readers Rest)

/-- `_decide_layers`. -/
def decideLayers (dials : Dials Rest) (pair : PairInput) : Decision :=
  let lo := min pair.fa.listingId pair.fb.listingId
  let hi := max pair.fa.listingId pair.fb.listingId
  let families := evidenceFamilies pair.feats
  let score := readers.predictProba pair.feats
  let diverse := dials.minEvidenceFamilies ≤ families.length
  match pairVeto pair.fa pair.fb dials with
  | some veto =>
      { lo := lo, hi := hi, zone := .veto, score := 0, veto := some veto
        reason := s!"guard:{veto}" }
  | none =>
    match unitDesignatorConflict readers pair.la pair.lb dials with
    | some (unitLo, unitHi) =>
        { lo := lo, hi := hi, zone := .veto, score := 0, veto := some unitDesignatorVeto
          reason := s!"guard:{unitDesignatorVeto}"
          evidence := [("unit_lo", unitLo), ("unit_hi", unitHi)] }
    | none =>
      match autoRejectReason pair.feats dials with
      | some rejected =>
          { lo := lo, hi := hi, zone := .reject, score := score, families := families
            reason := s!"auto_reject:{rejected}" }
      | none =>
        match certificateOf pair.feats pair.la pair.lb dials pair.kbRefused with
        | some certificate =>
            let decided (zone : Zone) (reason : String) : Decision :=
              { lo := lo, hi := hi, zone := zone, score := score, families := families
                certificate := some certificate, reason := reason }
            match stratumTHi pair.feats (some certificate) dials with
            | none => decided .band s!"certificate:{certificate}:stratum_propose_only"
            | some _ =>
              match mergeZoneBlock pair.feats dials with
              | some blocked => decided .band s!"certificate:{certificate}:{blocked}"
              | none =>
                  if diverse then decided .merge s!"certificate:{certificate}"
                  else decided .band s!"certificate:{certificate}:evidence_gate"
        | none =>
            let decided (zone : Zone) (reason : String) : Decision :=
              { lo := lo, hi := hi, zone := zone, score := score, families := families
                reason := reason }
            if (stratumTHi pair.feats none dials).any (fun cut => decide (cut ≤ score)) then
              match mergeZoneBlock pair.feats dials with
              | some blocked => decided .band blocked
              | none => if diverse then decided .merge "model" else decided .band "evidence_gate"
            else if dials.tLo < score then decided .band "model"
            else decided .reject "model"

/-! ### The context rule -/

/-- E63: the arm a band pair carries. -/
def contextRuleWarrant (feats : Feats) (score : ℚ) (dials : Dials Rest) : Option String :=
  if score < dials.contextRuleMinScore then none
  else if !atMost feats "area_rel_diff" dials.contextRuleAreaMax then none
  else if !atLeast feats "price_last_ratio" dials.contextRulePriceRatioMin then none
  else if atLeast feats "containment_max" dials.contextRuleContainmentMin then some "text"
  else
    match dials.contextRuleInteriorMin with
    | some interiorMin =>
        if atLeast feats "interior_match_ratio" interiorMin &&
            atLeast feats "n_images_min" dials.contextRuleMinImages then some "interior"
        else none
    | none => none

/-- `name in reason`. -/
def names (reason name : String) : Bool :=
  decide (name.toList <:+: reason.toList)

def contextRuleMayPromote (reason : String) : Bool :=
  !contextRuleNeverOverrides.any (names reason)

def censusLimbsConfigured (dials : Dials Rest) : Bool :=
  dials.contextRuleBlockMin.isSome || dials.contextRuleImagePopulationMin.isSome

/-- C3: the limb of the fungible catalogue that refuses the promotion. -/
def fungibleCatalogue (context : PairContext) (dials : Dials Rest) : Option String :=
  if dials.contextRuleFromPriceVeto && context.fromPrice then some "from_price"
  else if dials.contextRuleBlockMin.any fun least => decide (least ≤ context.stamp.cellN) then
    some "catalogue_block"
  else if dials.contextRuleImagePopulationMin.any fun least =>
      decide (least ≤ context.stamp.imagePop) then some "stock_images"
  else none

def Context.pairContext (la lb : Listing) : Context → PairContext
  | .index cohort fromPrice =>
      { stamp := cohort.stamp (min la.id lb.id) (max la.id lb.id) la.census lb.census
        fromPrice := decide (la.id ∈ fromPrice ∨ lb.id ∈ fromPrice) }
  | .pair context => context

/-- `{**evidence, key: value}`. -/
def record (evidence : Dict String String) (key value : String) : Dict String String :=
  evidence.update key fun _ => value

def toEvidence (evidence : Dict String String) (stamp : ContextStamp) : Dict String String :=
  record (record evidence "context_cell_n" (toString stamp.cellN))
    "context_image_pop_min" (toString stamp.imagePop)

/-- The decision in another zone, for another reason. -/
def Decision.moved (decision : Decision) (zone : Zone) (reason : String)
    (evidence : Dict String String) : Decision :=
  { decision with zone := zone, veto := none, reason := reason, evidence := evidence }

def applyContextRule (dials : Dials Rest) (pair : PairInput) (decision : Decision) : Decision :=
  if dials.contextRuleEnabled = false ∨ decision.zone ≠ .band then decision
  else if contextRuleMayPromote decision.reason = false then decision
  else
    match contextRuleWarrant pair.feats decision.score dials with
    | none => decision
    | some arm =>
      match pair.context.map (·.pairContext pair.la pair.lb) with
      | none =>
          if censusLimbsConfigured dials then decision
          else decision.moved .merge s!"{contextRuleReason}:{arm}" decision.evidence
      | some context =>
        match fungibleCatalogue context dials with
        | some refused =>
            decision.moved .band s!"{contextRuleReason}:fungible:{refused}" decision.evidence
        | none =>
            decision.moved .merge s!"{contextRuleReason}:{arm}"
              (toEvidence decision.evidence context.stamp)

/-! ### The D43 rule -/

/-- The days both adverts were on sale. -/
def overlapDays (a b : Listing) : Option ℚ := do
  let startA ← a.firstSeenAt.bind Stamp.days
  let startB ← b.firstSeenAt.bind Stamp.days
  let endA ← (a.inactiveAt.or a.lastSeenAt).bind Stamp.days
  let endB ← (b.inactiveAt.or b.lastSeenAt).bind Stamp.days
  return max 0 (min endA endB - max startA startB)

def relDiff (a b : ℚ) : ℚ :=
  if max |a| |b| = 0 then 0 else |a - b| / max |a| |b|

/-- Every amount the advert has printed. -/
def pricePoints (listing : Listing) : List ℚ :=
  (listing.priceHistory ++ [listing.price]).filterMap fun price => price.filter (0 < ·)

def pricePathsAgree (a b : Listing) (tol : ℚ) : Bool :=
  (pricePoints a).any fun x => (pricePoints b).any fun y => decide (relDiff x y ≤ tol)

def tightPhotoMatch (feats : Feats) : Bool :=
  decide (1 ≤ (presentValue feats "phash_tight_matches").getD 0)

/-- A number to no decimals, the even one at a tie. -/
def wholeText (value : ℚ) : String :=
  let low := ⌊value⌋
  let up := 1 / 2 < value - low ∨ value - low = 1 / 2 ∧ low % 2 ≠ 0
  toString (if up then low + 1 else low)

/-- The shorter body, in characters. -/
def bodyChars (a b : Listing) : Nat :=
  min (a.description.getD "").length (b.description.getD "").length

def strongCorroboration (a b : Listing) (feats : Feats) (dials : Dials Rest) : Option String :=
  let photos := (presentValue feats "phash_tight_matches").getD 0
  if 1 ≤ (presentValue feats "ref_code_shared").getD 0 then some "code"
  else if bodyChars a b < recoverMinBodyChars then none
  else if dials.demonstrateRecoverMinPhotos ≤ photos then some ("photos:" ++ wholeText photos)
  else if dials.demonstrateRecoverBodyContainment ≤
        (presentValue feats "containment_max").getD 0 ∧
      readers.developmentContext dials a b = false ∧ 300 ≤ bodyChars a b then some "body"
  else none

def unitGradeWarrant (a b : Listing) (feats : Feats) (dials : Dials Rest) : Option String :=
  if dials.d43PromoteUnitEvidence = false then none
  else
    match strongCorroboration readers a b feats dials with
    | none => none
    | some grade =>
        if grade = "body" ∧ dials.d43PromoteUnitBodySequential = true ∧
            readers.sequentialFor dials a b = false then none
        else some grade

def promotionWarrant (a b : Listing) (feats : Feats) (dials : Dials Rest) : Option String :=
  if readers.distinguishingFacts dials .promote a b feats ≠ [] then none
  else if dials.d43PromoteMinAgreeing ≤ 0 then some "predicate"
  else if dials.d43PromoteMinAgreeing ≤ (readers.agreeingAttributes dials a b feats).length then
    some s!"agree:{dials.d43PromoteMinAgreeing}"
  else if dials.d43PromotePhotoAlternative && tightPhotoMatch feats then some "photo"
  else (unitGradeWarrant readers a b feats dials).map fun unit => s!"unit:{unit}"

/-- Why a band pair no fact separates may still not be promoted. -/
def demonstrationRefusal (a b : Listing) (feats : Feats) (settings : Settings Rest) :
    Option String :=
  if settings.demonstrateIdentity = false then none
  else
    let pathsAgree := pricePathsAgree a b settings.d43PricePathTol
    let refusedBy (shortfall : String × Shortfall) : Bool :=
      !(settings.demonstrateRecoverMissing && decide (shortfall.2 = .missing) &&
        (strongCorroboration readers a b feats settings.toDials).isSome)
    match (readers.demonstrationShortfall settings.toDials a b pathsAgree
        (overlapDays a b)).filter refusedBy with
    | some (gap, _) => some s!"A:{gap}"
    | none =>
        if (readers.corroborationWarrant settings.toDials a b feats).isNone then some "B" else none

def applyD43Rule (settings : Settings Rest) (pair : PairInput) (decision : Decision) : Decision :=
  if decision.zone = .merge ∧ settings.d43Gate = true then
    match readers.distinguishingFacts settings.toDials .gate pair.la pair.lb pair.feats with
    | [] => decision
    | fact :: facts =>
        decision.moved .band s!"{decision.reason}:{d43GateReason}:{fact.name}"
          (record decision.evidence s!"{d43GateReason}_facts"
            (",".intercalate ((fact :: facts).map Fact.name)))
  else if decision.zone = .band ∧ settings.d43Promote = true then
    match promotionWarrant readers pair.la pair.lb pair.feats settings.toDials with
    | none => decision
    | some warrant =>
      match demonstrationRefusal readers pair.la pair.lb pair.feats settings with
      | some refusal =>
          decision.moved .band s!"{decision.reason}:{d43DemonstrateReason}:{refusal}"
            (record decision.evidence d43DemonstrateReason refusal)
      | none =>
          decision.moved .merge s!"{d43PromoteReason}:{warrant}"
            (record decision.evidence "d43_banded_as" decision.reason)
  else decision

/-! ### The merge policy -/

/-- The four keys an advert answers to, most specific first; an empty column is a star. -/
def mergePolicyCells (listing : Listing) : List String :=
  let kind := (listing.categoryType.filter (· ≠ "")).getD "*"
  let main := (listing.categoryMain.filter (· ≠ "")).getD "*"
  [s!"{kind}|{main}", s!"{kind}|*", s!"*|{main}", "*|*"]

def mergePolicyVerdict (listing : Listing) (policy : String → Option String) : Option String :=
  (mergePolicyCells listing).findSome? policy

/-- `str` of a column. -/
def columnText (column : Option String) : String :=
  column.getD "None"

def applyMergePolicy (settings : Settings Rest) (pair : PairInput) (decision : Decision) :
    Decision :=
  if decision.zone ≠ .merge then decision
  else
    match [pair.la, pair.lb].find? fun listing =>
        decide (mergePolicyVerdict listing settings.mergePolicy = some "propose") with
    | none => decision
    | some listing =>
        let cell := columnText listing.categoryType ++ "|" ++ columnText listing.categoryMain
        decision.moved .band s!"{decision.reason}:{mergePolicyHold}:{cell}"
          (record decision.evidence mergePolicyHold cell)

/-- `decide_pair` short of the D43 rule. -/
def decideContext (dials : Dials Rest) (pair : PairInput) : Decision :=
  applyContextRule dials pair (decideLayers readers dials pair)

def decidePair (settings : Settings Rest) (pair : PairInput) : Decision :=
  applyMergePolicy settings pair
    (applyD43Rule readers settings pair (decideContext readers settings.toDials pair))

end Sreality.Autodedup.Decide
