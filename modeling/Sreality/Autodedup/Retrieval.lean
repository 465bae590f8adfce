import Sreality.Autodedup.Blocking
import Sreality.Autodedup.Decide
import Sreality.Foundation.FanOut

/-! Retrieval over stored postings (`autodedup/incremental.py`): a listing's probes under a frozen
calibration, the fan-out they fill, and the same read of the keys a listing is posted under alone. -/

set_option autoImplicit false

namespace Sreality.Autodedup

open Sreality.Foundation

/-! ### Fingerprints -/

/-- `simhash_bands`: `n` low-to-high slices of `bits` each, under their numbers. -/
def simhashBands (n bits : Nat) (h : Int) : List (Nat × Nat) :=
  (List.range n).map fun band => (band, (h % 2 ^ 64).toNat / 2 ^ (band * bits) % 2 ^ bits)

/-- A fingerprint with the columns the guards read. -/
structure ListingFp extends CohortFp where
  listingId : Nat
  categoryMain : Option String := none
  areaM2 : Option Float64 := none
  floor : Option Int := none

/-- `guard_row`. -/
def guardRow (fp : ListingFp) : Fingerprint where
  listingId := fp.listingId
  categoryMain := fp.categoryMain
  categoryType := fp.categoryType
  areaM2 := fp.areaM2
  disposition := fp.disposition
  floor := fp.floor

/-! ### The keys a listing looks up -/

/-- A key at its band and at the two beside it. -/
def nearBands (parts : List KeyPart) : List (List KeyPart) :=
  match parts.getLast? with
  | some (.number band) =>
      [-1, 0, 1].map fun offset : Int => parts.dropLast ++ [.number (band + offset)]
  | _ => []

/-- The deciles at and beside one, of the ten there are. -/
def nearDeciles (decile : Int) : List Int :=
  ([-1, 0, 1].map (decile + ·)).filter fun neighbour => decide (0 ≤ neighbour ∧ neighbour < 10)

/-- One posted key's lookups. -/
def probesOf (fp : CohortFp) (posted : Probe × ProbeKey Nat) : List (Probe × ProbeKey Nat) :=
  match posted with
  | (.town, .plain parts) =>
      if probesTownKey fp then (nearBands parts).map fun near => (.town, .plain near) else []
  | (.attrArea, .plain parts) => (nearBands parts).map fun near => (.attrArea, .plain near)
  | (.quarter, .plain parts) => (nearBands parts).map fun near => (.quarter, .plain near)
  | (.broker, .broker brokerKey catGroup categoryType (some decile)) =>
      (nearDeciles decile).map fun neighbour =>
        (.broker, .broker brokerKey catGroup categoryType (some neighbour.toNat))
  | other => [other]

/-- `Keyer`: blocking's keys under frozen cuts and exploded tokens. -/
structure Keyer where
  settings : BlockSettings
  cuts : Dict Cohort (List ℚ)
  exploded : Probe → List String

/-- A key as the store posts it. -/
abbrev Posted := Probe × String

namespace Keyer

def posted (key : Probe × ProbeKey Nat) : Posted := (key.1, key.2.token)

def indexKeys (keyer : Keyer) (fp : CohortFp) : List Posted :=
  (Autodedup.indexKeys keyer.settings keyer.cuts fp).map posted

def probeKeys (keyer : Keyer) (fp : CohortFp) : List Posted :=
  ((Autodedup.indexKeys keyer.settings keyer.cuts fp).flatMap (probesOf fp)).map posted

end Keyer

/-! ### The same from the posted keys -/

def separatorChar : Char := '\x1f'

/-- `token.partition(_SEP)[0]`. -/
def tokenHead (token : String) : String :=
  String.ofList (token.toList.takeWhile (· != separatorChar))

/-- `token.rpartition(_SEP)`, without the separator. -/
def rpartition (token : String) : String × String :=
  let last := (token.toList.reverse.takeWhile (· != separatorChar)).reverse
  (String.ofList (token.toList.take (token.toList.length - last.length - 1)), String.ofList last)

/-- `_BANDED`. -/
def banded : List Probe := [.text, .phash]

/-- A posted key's place among its probe's: the band number its token leads with. -/
def bandNumber (key : Posted) : Option Int :=
  if key.1 ∈ banded then (tokenHead key.2).toInt? else some 0

/-- `sorted(set(posted), …)`; none where a band number does not read. -/
def postedOrder (posted : List Posted) : Option (List Posted) :=
  if posted.all fun key => (bandNumber key).isSome then
    some (sortedBy
      (fun key : Posted => toLex (key.1.name, toLex ((bandNumber key).getD 0, key.2))) posted.dedup)
  else none

/-- One posted key's lookups, read off its token. -/
def spread (quarter : Bool) (key : Posted) : Option (List Posted) :=
  let (head, last) := rpartition key.2
  if key.1 = .attrArea ∨ key.1 = .town ∨ key.1 = .quarter then
    if key.1 = .town ∧ quarter = true then some []
    else
      last.toInt?.map fun band =>
        [-1, 0, 1].map fun offset : Int =>
          (key.1, head ++ keySeparator ++ toString (band + offset))
  else if key.1 = .broker ∧ last ≠ "" then
    last.toInt?.map fun decile =>
      (nearDeciles decile).map fun neighbour =>
        (key.1, head ++ keySeparator ++ toString neighbour)
  else some [key]

/-- `probe_keys_of`; none where a number does not read. -/
def probeKeysOf (posted : List Posted) : Option (List Posted) :=
  (postedOrder posted).bind fun ordered =>
    (ordered.mapM (spread (posted.any fun key => key.1 == .quarter))).map List.flatten

/-! ### The fan-out -/

/-- What a retrieval reads beside its keys. -/
structure Retrieval (Rest : Type) where
  keyer : Keyer
  lookup : Posted → List Nat
  guards : Nat → Option Fingerprint
  dials : Decide.Dials Rest
  cap : Nat

/-- The candidates found, each with its probes, and the pairs the rule floor refused. -/
structure Fill where
  out : Dict Nat (Finset Probe) := []
  vetoed : Dict Pair String

namespace Retrieval

variable {Rest : Type} (reading : Retrieval Rest)

def isExploded (key : Posted) : Bool := key.2 ∈ reading.keyer.exploded key.1

def pairOf (listing other : Nat) : Pair :=
  if listing < other then (listing, other) else (other, listing)

/-- One posting met; none where the read cannot tell what its order would have kept. -/
def meet (side : Fingerprint) (probe : Probe) (ordered : Bool) (fill : Fill) (other : Nat) :
    Option Fill :=
  let pair := pairOf side.listingId other
  if other = side.listingId then some fill
  else if (fill.out.lookup other).isSome then
    some { fill with out := label probe fill.out other }
  else if reading.cap ≤ fill.out.length then
    if ordered = false ∧ fill.vetoed.lookup pair = none ∧
        (reading.guards other).any (fun row => (Decide.pairVeto side row reading.dials).isNone) = true then
      none
    else some fill
  else if (fill.vetoed.lookup pair).isSome then some fill
  else
    match reading.guards other with
    | none => some fill
    | some row =>
        match Decide.pairVeto side row reading.dials with
        | some veto => some { fill with vetoed := (pair, veto) :: fill.vetoed }
        | none => some { fill with out := label probe fill.out other }

/-- One probe's tokens, in their order. -/
def fillProbe (side : Fingerprint) (loose : Option Probe) (keys : List Posted) (fill : Fill)
    (probe : Probe) : Option Fill :=
  let ordered := loose ≠ some probe ∨ reading.cap ≤ fill.out.length
  ((keys.filter fun key => key.1 == probe && !reading.isExploded key).flatMap
    reading.lookup).foldlM (reading.meet side probe ordered) fill

/-- `_fill`: the probes in their priority. -/
def fill (side : Fingerprint) (keys : List Posted) (vetoed : Dict Pair String)
    (loose : Option Probe) : Option Fill :=
  (probePriority reading.keyer.settings).foldlM (reading.fillProbe side loose keys)
    { vetoed := vetoed }

/-- `retrieve`: the candidates of a listing with its fingerprint. -/
def retrieve (fp : ListingFp) (vetoed : Dict Pair String) : Dict Nat (Finset Probe) :=
  ((reading.fill (guardRow fp) (reading.keyer.probeKeys fp.toCohortFp) vetoed none).map
    Fill.out).getD []

/-- The band of a `phash` key stands twice among a listing's: its bands are of several anchors. -/
def looseProbe (keys : List Posted) : Option Probe :=
  let bands := (keys.filter fun key => key.1 == .phash).map fun key => tokenHead key.2
  if bands.length ≠ bands.dedup.length then some .phash else none

/-- `retrieve_posted`: the candidates of a listing known by its posted keys and its guard row, `some
none` where it gives no answer and `none` where a token does not read. -/
def retrievePosted (side : Fingerprint) (posted : List Posted) (vetoed : Dict Pair String) :
    Option (Option (Dict Nat (Finset Probe))) :=
  (probeKeysOf posted).map fun keys =>
    (reading.fill side keys vetoed (looseProbe keys)).map Fill.out

end Retrieval

end Sreality.Autodedup
