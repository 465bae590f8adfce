import Mathlib.Data.Rat.Defs
import Mathlib.Algebra.Order.Ring.Rat
import Sreality.Foundation.Dicts
import Sreality.Foundation.StableSort

/-! The probes and the keys a listing is posted under (`autodedup/blocking.py`), up to the keys the
index marks as exploded. -/

set_option autoImplicit false

namespace Sreality.Autodedup

open Sreality.Foundation

inductive Probe where
  | addr
  | phash
  | text
  | broker
  | attrDispo
  | attrArea
  | foreign
  | town
  | quarter
  deriving DecidableEq

def Probe.name : Probe → String
  | .addr => "addr"
  | .phash => "phash"
  | .text => "text"
  | .broker => "broker"
  | .attrDispo => "attr_dispo"
  | .attrArea => "attr_area"
  | .foreign => "foreign"
  | .town => "town"
  | .quarter => "quarter"

/-- The dials blocking and the cut read. -/
structure BlockSettings where
  maxBlockSize : Nat
  attrProbeTownGrain : Bool
  vocabularyAttrKeys : List String

/-- `probe_priority`: the order candidates are filled in. -/
def probePriority (settings : BlockSettings) : List Probe :=
  [.addr, .phash, .text, .broker, .attrDispo, .attrArea, .foreign] ++
    if settings.attrProbeTownGrain then [.town, .quarter] else []

/-! ### Keys -/

/-- One part of a key. -/
inductive KeyPart where
  | absent
  | text (value : String)
  | number (value : Int)
  deriving DecidableEq

def KeyPart.ofText (value : Option String) : KeyPart := value.elim .absent .text

/-- `"" if part is None else str(part)`. -/
def KeyPart.token : KeyPart → String
  | .absent => ""
  | .text value => value
  | .number value => toString value

/-- A probe's key. A broker's ends in its price decile, or in what stands for it. -/
inductive ProbeKey (Decile : Type) where
  | plain (parts : List KeyPart)
  | broker (brokerKey : String) (catGroup categoryType : Option String) (decile : Option Decile)
  deriving DecidableEq

/-- `_SEP`. -/
def keySeparator : String := "\x1f"

/-- `key_token` of a key whose decile is known. -/
def ProbeKey.token : ProbeKey Nat → String
  | .plain parts => String.intercalate keySeparator (parts.map KeyPart.token)
  | .broker brokerKey catGroup categoryType decile =>
      String.intercalate keySeparator
        ([.text brokerKey, .ofText catGroup, .ofText categoryType,
          decile.elim .absent fun value => .number value].map KeyPart.token)

/-- A price cohort. -/
abbrev Cohort := Option String × Option String

/-- The fingerprint's columns that blocking and the calibration cut read. -/
structure CohortFp where
  obecKod : Option Nat := none
  castObceKod : Option Nat := none
  streetKey : Option String := none
  houseNumber : Option String := none
  anchorBands : List (Nat × Nat × Nat) := []
  hasText : Bool := false
  descBands : List (Nat × Nat) := []
  descTokens : List String := []
  brokerKey : Option String := none
  catGroup : Option String := none
  categoryType : Option String := none
  blockKey : Option String := none
  disposition : Option String := none
  areaBand : Option Int := none
  countryStatus : Option String := none
  pinKey : Option String := none
  price : Option ℚ := none

namespace CohortFp

def cohort (fp : CohortFp) : Cohort := (fp.catGroup, fp.categoryType)

end CohortFp

/-- A text that is given and not empty. -/
def filled (value : Option String) : Option String := value.filter fun text => decide (text ≠ "")

/-- `SPLIT_CITY_OBEC_KODS`. -/
def splitCityObecKods : List Nat := [554782, 582786, 554821]

/-- `FOREIGN_STATUS`. -/
def foreignStatus : String := "foreign"

def probesTownKey (fp : CohortFp) : Bool :=
  !(fp.obecKod.any (fun obec => decide (obec ∈ splitCityObecKods)) && fp.castObceKod.isSome)

section Posting

variable {Decile : Type} (settings : BlockSettings) (fp : CohortFp) (decile : Option Decile)

/-- A key of the parts that are there, under a probe. -/
def plainKey (probe : Probe) (parts : Option (List KeyPart)) : List (Probe × ProbeKey Decile) :=
  (parts.map fun parts => (probe, ProbeKey.plain parts)).toList

/-- The parts of a category, its group and its deal. -/
def categoryParts : List KeyPart := [.ofText fp.catGroup, .ofText fp.categoryType]

/-- Disposition and area band at one grain. -/
def grainParts (grain : KeyPart) (band : Int) : List KeyPart :=
  grain :: categoryParts fp ++ [.ofText fp.disposition, .number band]

/-- `posting_keys`: the keys a listing is posted under, the broker's with the decile handed in. -/
def postingKeys : List (Probe × ProbeKey Decile) :=
  plainKey .addr (fp.obecKod.bind fun obec => (filled fp.streetKey).bind fun street =>
      (filled fp.houseNumber).map fun house => [.number obec, .text street, .text house]) ++
    (fp.anchorBands.map fun band => (.phash, .plain [.number band.1, .number band.2.1])) ++
    (if fp.hasText then
      fp.descBands.map fun band => (.text, .plain [.number band.1, .number band.2])
    else []) ++
    ((filled fp.brokerKey).map fun broker =>
      (Probe.broker, ProbeKey.broker broker fp.catGroup fp.categoryType decile)).toList ++
    plainKey .attrDispo ((filled fp.blockKey).bind fun block =>
      (filled fp.disposition).map fun disposition =>
        .text block :: categoryParts fp ++ [.text disposition]) ++
    plainKey .attrArea ((filled fp.blockKey).bind fun block =>
      fp.areaBand.map fun band => .text block :: categoryParts fp ++ [.number band]) ++
    plainKey .foreign (if fp.countryStatus = some foreignStatus then
        fp.areaBand.map fun band => .text foreignStatus :: categoryParts fp ++ [.number band]
      else none) ++
    plainKey .town (if settings.attrProbeTownGrain then
        fp.areaBand.bind fun band => fp.obecKod.map fun obec => grainParts fp (.number obec) band
      else none) ++
    plainKey .quarter (if settings.attrProbeTownGrain ∧ probesTownKey fp = false then
        fp.areaBand.map fun band => grainParts fp (.ofText fp.blockKey) band
      else none)

end Posting

/-! ### Deciles -/

/-- `decile_cuts`: the nine cuts of one cohort's prices. -/
def decileCuts (prices : List ℚ) : List ℚ :=
  let sorted := sortedIds prices
  let n := sorted.length
  (List.range' 1 9).map fun step => sorted.getD (min (n - 1) (n * step / 10)) 0

/-- `decile_of`: 0..9 against a cohort's cuts; none without a price or without cuts. -/
def decileOf (price : Option ℚ) (cuts : Option (List ℚ)) : Option Nat :=
  match price, cuts with
  | some price, some (first :: rest) =>
      some (min ((first :: rest).takeWhile fun cut => decide (¬ price < cut)).length 9)
  | _, _ => none

/-- One more listing's price in its cohort's. -/
def addPrice (groups : Dict Cohort (List ℚ)) (fp : CohortFp) : Dict Cohort (List ℚ) :=
  match fp.price with
  | some price => groups.push fp.cohort price
  | none => groups

/-! ### The index -/

/-- `_build_price_cuts`, over the fingerprints in listing order. -/
def priceCutsOf (fps : List (Nat × CohortFp)) : Dict Cohort (List ℚ) :=
  (fps.foldl (fun groups entry => addPrice groups entry.2) []).mapValues decileCuts

/-- `price_decile`. -/
def priceDecile (cuts : Dict Cohort (List ℚ)) (fp : CohortFp) : Option Nat :=
  decileOf fp.price (cuts.lookup fp.cohort)

/-- `index_keys`. -/
def indexKeys (settings : BlockSettings) (cuts : Dict Cohort (List ℚ)) (fp : CohortFp) :
    List (Probe × ProbeKey Nat) :=
  postingKeys settings fp (if (filled fp.brokerKey).isSome then priceDecile cuts fp else none)

/-- One probe's postings, the listings in order. -/
def postingsOf (settings : BlockSettings) (cuts : Dict Cohort (List ℚ))
    (fps : List (Nat × CohortFp)) (probe : Probe) : Dict (ProbeKey Nat) (List Nat) :=
  (fps.flatMap fun entry => (indexKeys settings cuts entry.2).map fun posted =>
    (posted, entry.1)).foldl
      (fun bucket posted =>
        if posted.1.1 = probe then bucket.push posted.1.2 posted.2 else bucket) []

/-- The keys counted more often than a block may hold. -/
def explodedKeys {Key : Type} (settings : BlockSettings) (counts : Dict Key Nat) : List Key :=
  (counts.filter fun row => decide (settings.maxBlockSize < row.2)).map Prod.fst

end Sreality.Autodedup
