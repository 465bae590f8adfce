import Mathlib.Data.Finset.Empty
import Mathlib.Data.String.Basic
import Sreality.Autodedup.Blocking

/-! The calibration a cohort is cut into (`Calibration.build` in `autodedup/incremental.py`, the
counts of `FeatureContext` in `autodedup/features.py`), and the same cut folded a chunk at a time
(`autodedup/calibration_cut.py`). -/

set_option autoImplicit false

namespace Sreality.Autodedup

open Sreality.Foundation

/-! ### What is read of a listing -/

/-- What the verdict on a reference code reads of an advert that prints it. -/
structure Carrier where
  description : Option String := none
  disposition : Option String := none
  areaM2 : Option ℚ := none

/-- A listing's facts, as the cut reads them: `slot` is the canonical token of an attribute it
emits. -/
structure CohortListing where
  carrier : Carrier := {}
  slot : String → Option String := fun _ => none

/-- `ATTR_KEYS`. -/
def attrKeys : List String :=
  ["building_type", "condition", "energy_rating", "ownership", "furnished", "terrace", "cellar",
    "garage", "parking_lots", "has_lift", "area_basis", "category_sub_cb", "price_unit", "subtype"]

/-- `CONFLATED_ATTR_KEYS`. -/
def conflatedAttrKeys : List String := ["has_balcony", "has_parking"]

/-- `_attr_map` less the vocabulary slots. -/
def attrMap (settings : BlockSettings) (listing : CohortListing) : List (String × String) :=
  ((attrKeys ++ conflatedAttrKeys).filter fun key =>
    decide (key ∉ settings.vocabularyAttrKeys)).filterMap fun key =>
      (listing.slot key).map fun token => (key, token)

/-! ### The counts of a cohort -/

/-- `_block_of`. -/
def CohortFp.block (fp : CohortFp) : String := fp.blockKey.getD "(none)"

/-- The counts `FeatureContext` takes over a cohort. -/
structure FeatureCounts where
  blockDocs : Dict String Nat
  blockTokenDf : Dict String (Dict String Nat)
  corpusDocs : Nat
  corpusTokenDf : Dict String Nat
  pinPop : Dict String Nat
  blockAttrDf : Dict String (Dict (String × String) Nat)

/-- One advert's pin. -/
def countPin (pop : Dict String Nat) (fp : CohortFp) : Dict String Nat :=
  match filled fp.pinKey with
  | some pin => pop.bump pin 1
  | none => pop

/-- One advert's attributes, where its facts are held. -/
def countAttrs (settings : BlockSettings) (df : Dict String (Dict (String × String) Nat))
    (fp : CohortFp) (listing : Option CohortListing) : Dict String (Dict (String × String) Nat) :=
  match listing with
  | some listing => df.bumpWithin fp.block (attrMap settings listing)
  | none => df

/-- `FeatureContext.build` and `index_attrs`. -/
def featureCounts (settings : BlockSettings) (fps : List (Nat × CohortFp))
    (listings : List (Nat × CohortListing)) : FeatureCounts where
  blockDocs := Dict.mapValues List.length
    (fps.foldl (fun byBlock entry => Dict.push byBlock entry.2.block entry.1) [])
  blockTokenDf := fps.foldl
    (fun df entry => Dict.bumpWithin df entry.2.block entry.2.descTokens.dedup) []
  corpusDocs := fps.length
  corpusTokenDf := fps.foldl (fun df entry => Dict.bumpAll df entry.2.descTokens.dedup) []
  pinPop := fps.foldl (fun pop entry => countPin pop entry.2) []
  blockAttrDf := fps.foldl
    (fun df entry => countAttrs settings df entry.2 (listings.lookup entry.1)) []

/-! ### Reference codes -/

/-- `MAX_CODE_POPULATION`. -/
def maxCodePopulation : Nat := 8

/-- `CODE_AREA_TOL`. -/
def codeAreaTol : ℚ := 5 / 100

section Codes

variable (referenceCodes : Option String → Finset String) (carriers : Dict Nat Carrier)

/-- Who prints a code. -/
def membersOf (code : String) : List Nat :=
  (carriers.filter fun entry => decide (code ∈ referenceCodes entry.2.description)).map Prod.fst

/-- The relative spread of the areas above zero. -/
def areaSpread (areas : List ℚ) : ℚ :=
  match areas.max?, areas.min? with
  | some most, some least => (most - least) / most
  | _, _ => 0

/-- A code is rare, and its carriers agree on the disposition and on the area. -/
def codeCertifies (code : String) : Bool :=
  let members := membersOf referenceCodes carriers code
  if maxCodePopulation < members.length then false
  else
    let dispositions := members.filterMap fun listing =>
      (carriers.lookup listing).bind Carrier.disposition
    let areas := (members.filterMap fun listing =>
      (carriers.lookup listing).bind Carrier.areaM2).filter fun area => decide (0 < area)
    decide (dispositions.dedup.length ≤ 1 ∧ areaSpread areas ≤ codeAreaTol)

/-- `index_reference_codes`, and every code it leaves, sorted. -/
def certifyingCodes : List String :=
  sortedIds ((carriers.flatMap fun entry =>
    (ascending (referenceCodes entry.2.description)).filter (codeCertifies referenceCodes carriers)).dedup)

end Codes

/-! ### The calibration -/

/-- E70's frozen inputs. `built_at`, which says when they were cut, is left out; a dictionary is
what it answers. -/
structure Calibration where
  generation : String
  featureVersion : Nat
  nListings : Nat
  priceCuts : String → Option (List ℚ)
  exploded : List (String × List String)
  blockDocs : String → Option Nat
  blockTokenDf : String → Option (String → Option Nat)
  corpusDocs : Nat
  corpusTokenDf : String → Option Nat
  blockAttrDf : String → Option (String → Option Nat)
  pinPop : String → Option Nat
  certifyingCodes : List String

/-- `{name(key): value for key, value in d.items()}`. -/
def rekey {Key Name Value : Type} [DecidableEq Name] (name : Key → Name) (dict : Dict Key Value) :
    Dict Name Value :=
  dict.foldl (fun named row => Dict.update named (name row.1) fun _ => row.2) []

/-- `_cut_key`. -/
def cutKey (cohort : Cohort) : String :=
  (KeyPart.ofText cohort.1).token ++ keySeparator ++ (KeyPart.ofText cohort.2).token

/-- `key_token` of an attribute and its value. -/
def attrToken (pair : String × String) : String := pair.1 ++ keySeparator ++ pair.2

/-- `FEATURE_VERSION`. -/
def featureVersion : Nat := 5

/-- `Calibration.build`. -/
def buildCalibration (referenceCodes : Option String → Finset String) (settings : BlockSettings)
    (fps : List (Nat × CohortFp)) (listings : List (Nat × CohortListing)) (generation : String) :
    Calibration :=
  let indexed := sortedBy Prod.fst fps
  let cuts := priceCutsOf indexed
  let counts := featureCounts settings fps listings
  { generation := generation
    featureVersion := featureVersion
    nListings := fps.length
    priceCuts := (rekey cutKey cuts).answers
    exploded := (probePriority settings).map fun probe =>
      (probe.name, sortedIds ((explodedKeys settings
        ((postingsOf settings cuts indexed probe).mapValues List.length)).map ProbeKey.token))
    blockDocs := counts.blockDocs.answers
    blockTokenDf := counts.blockTokenDf.answersWithin
    corpusDocs := counts.corpusDocs
    corpusTokenDf := counts.corpusTokenDf.answers
    blockAttrDf := (counts.blockAttrDf.mapValues (rekey attrToken)).answersWithin
    pinPop := counts.pinPop.answers
    certifyingCodes := certifyingCodes referenceCodes
      (listings.map fun entry => (entry.1, entry.2.carrier)) }

/-! ### The streamed cut -/

/-- The running cut: prices by cohort, the postings counted by probe with the broker's under the
price itself, the counts, and the adverts that print a code. -/
structure CalibrationCut where
  nListings : Nat := 0
  lastId : Option Nat := none
  prices : Dict Cohort (List ℚ) := []
  postings : Probe → Dict (ProbeKey ℚ) Nat := fun _ => []
  blockDocs : Dict String Nat := []
  blockTokenDf : Dict String (Dict String Nat) := []
  corpusDocs : Nat := 0
  corpusTokenDf : Dict String Nat := []
  blockAttrDf : Dict String (Dict (String × String) Nat) := []
  pinPop : Dict String Nat := []
  carriers : Dict Nat Carrier := []

/-- One chunk of fingerprints and facts. -/
structure Chunk where
  fps : List (Nat × CohortFp)
  listings : List (Nat × CohortListing)

namespace CalibrationCut

variable (referenceCodes : Option String → Finset String) (settings : BlockSettings)

/-- The keys one advert is counted under, the broker's with its price. -/
def priceKeys (fp : CohortFp) : List (Probe × ProbeKey ℚ) :=
  postingKeys settings fp (if (filled fp.brokerKey).isSome then fp.price else none)

/-- One chunk's postings counted with those before. -/
def countPostings (postings : Probe → Dict (ProbeKey ℚ) Nat) (order : List (Nat × CohortFp)) :
    Probe → Dict (ProbeKey ℚ) Nat := fun probe =>
  (order.flatMap fun entry => priceKeys settings entry.2).foldl
    (fun bucket posted => if posted.1 = probe then bucket.bump posted.2 1 else bucket)
    (postings probe)

/-- `fold`: one chunk, refused unless its ids lie above every id folded before. -/
def fold (cut : CalibrationCut) (chunk : Chunk) : Except String CalibrationCut :=
  let order := sortedBy Prod.fst chunk.fps
  let stale := order.head?.bind fun first =>
    cut.lastId.bind fun last => if first.1 ≤ last then some (first.1, last) else none
  match stale with
  | some (first, last) =>
      .error ("CalibrationCut.fold: listing " ++ toString first ++ " is not above " ++
        toString last ++ ", the last one folded")
  | none =>
      let counts := featureCounts settings chunk.fps chunk.listings
      .ok
        { nListings := cut.nListings + chunk.fps.length
          lastId := (order.getLast?.map Prod.fst).or cut.lastId
          prices := order.foldl (fun groups entry => addPrice groups entry.2) cut.prices
          postings := countPostings settings cut.postings order
          blockDocs := cut.blockDocs.add counts.blockDocs
          blockTokenDf := cut.blockTokenDf.addWithin counts.blockTokenDf
          corpusDocs := cut.corpusDocs + counts.corpusDocs
          corpusTokenDf := cut.corpusTokenDf.add counts.corpusTokenDf
          blockAttrDf := cut.blockAttrDf.addWithin counts.blockAttrDf
          pinPop := cut.pinPop.add counts.pinPop
          carriers := chunk.listings.foldl (fun carriers entry =>
            if referenceCodes entry.2.carrier.description ≠ ∅ then
              carriers.update entry.1 fun _ => entry.2.carrier
            else carriers) cut.carriers }

/-- Chunk after chunk. -/
def foldAll (cut : CalibrationCut) : List Chunk → Except String CalibrationCut
  | [] => .ok cut
  | chunk :: rest =>
      match cut.fold referenceCodes settings chunk with
      | .ok next => next.foldAll rest
      | .error message => .error message

/-- A price key under its decile; the other keys as they are. -/
def atDecile (cuts : Dict Cohort (List ℚ)) : ProbeKey ℚ → ProbeKey Nat
  | .plain parts => .plain parts
  | .broker brokerKey catGroup categoryType price =>
      .broker brokerKey catGroup categoryType (decileOf price (cuts.lookup (catGroup, categoryType)))

/-- One probe's counts, the broker's summed by decile. -/
def decileCounts (cuts : Dict Cohort (List ℚ)) (probe : Probe) (counts : Dict (ProbeKey ℚ) Nat) :
    Dict (ProbeKey Nat) Nat :=
  if probe = .broker then Dict.addUnder (atDecile cuts) [] counts
  else counts.map fun row => (atDecile cuts row.1, row.2)

/-- `CalibrationCut.build`. -/
def build (cut : CalibrationCut) (generation : String) : Calibration :=
  let cuts := cut.prices.mapValues decileCuts
  { generation := generation
    featureVersion := featureVersion
    nListings := cut.nListings
    priceCuts := (rekey cutKey cuts).answers
    exploded := (probePriority settings).map fun probe =>
      (probe.name, sortedIds ((explodedKeys settings
        (decileCounts cuts probe (cut.postings probe))).map ProbeKey.token))
    blockDocs := cut.blockDocs.answers
    blockTokenDf := cut.blockTokenDf.answersWithin
    corpusDocs := cut.corpusDocs
    corpusTokenDf := cut.corpusTokenDf.answers
    blockAttrDf := (cut.blockAttrDf.mapValues (rekey attrToken)).answersWithin
    pinPop := cut.pinPop.answers
    certifyingCodes := certifyingCodes referenceCodes cut.carriers }

end CalibrationCut

end Sreality.Autodedup
