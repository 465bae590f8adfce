import Mathlib.Data.List.Dedup
import Mathlib.Data.Rat.Defs
import Mathlib.Algebra.Order.Field.Rat
import Mathlib.Data.List.MinMax
import Sreality.Autodedup.Settings
import Sreality.Foundation.StableSort
import Sreality.Toolkit.RoomTaxonomy

/-! The cluster invariants (`autodedup/guards.py`) and the relation they read at
cluster grain (`autodedup/d43.py`). A member set is refused by the name of the
first limb it breaks. -/

set_option autoImplicit false

namespace Sreality.Autodedup

open Sreality.Foundation
open Sreality.Toolkit (categoryMainCompatible)

abbrev Pair := Nat × Nat

def landCategory : String := "pozemek"
def flatCategory : String := "byt"

/-- What the invariants read of an advert. -/
structure Fingerprint where
  listingId : Nat
  categoryMain : Option String := none
  categoryType : Option String := none
  areaM2 : Option Float64 := none
  disposition : Option String := none
  floor : Option Int := none

namespace Fingerprint

/-- A printed area of zero or below states no area. -/
def sized (fp : Fingerprint) : Option Float64 :=
  fp.areaM2.filter fun area => decide (0 < area.value)

def isLand (fp : Fingerprint) : Bool :=
  fp.categoryMain == some landCategory

/-- The storey limb reads flats alone. -/
def flatFloor (fp : Fingerprint) : Option Int :=
  if fp.categoryMain = some flatCategory then fp.floor else none

end Fingerprint

/-- Fingerprints by listing id, each filed under its own id. -/
structure Fingerprints where
  get : Nat → Option Fingerprint
  keyed : ∀ listing fp, get listing = some fp → fp.listingId = listing

/-- The fingerprints of a list, the first one listed under an id. -/
def Fingerprints.ofList (listed : List Fingerprint) : Fingerprints where
  get := fun listing => listed.find? fun fp => fp.listingId == listing
  keyed := fun _ _ found => by simpa using List.find?_some found

/-- The fingerprints of the adverts selected. -/
def Fingerprints.restrict (keep : Nat → Bool) (fps : Fingerprints) : Fingerprints where
  get := fun listing => if keep listing then fps.get listing else none
  keyed := by
    intro listing fp found
    split_ifs at found
    exact fps.keyed listing fp found

/-- The names a refusal carries: the limbs of `cluster_invariants_ok`, the
promotion bar of a rejoin, and what the cluster pass records itself. -/
inductive Invariant where
  | size
  | categoryType
  | compatClass
  | areaSpread
  | disposition
  | floorSpread
  | mustNotLink
  | d43Distinguishable
  | d43Strict
  | bridgeScore
  | redundant
  | repartition
  deriving DecidableEq, Repr

/-- The unordered pair under its ascending key. -/
def pairKey (left right : Nat) : Pair :=
  if left < right then (left, right) else (right, left)

/-- The first pair of a list, in nested-loop order, that a test names. -/
def findPair {α : Type} (test : α → α → Bool) : List α → Option (α × α)
  | [] => none
  | head :: rest =>
      match rest.find? (test head) with
      | some other => some (head, other)
      | none => findPair test rest

/-- Whether any pair of a list passes a test. -/
def anyPair {α : Type} (test : α → α → Bool) : List α → Bool
  | [] => false
  | head :: rest => rest.any (test head) || anyPair test rest

/-- What a reading finds in the pairs of a list, in nested-loop order. -/
def collectPairs {α β : Type} (read : α → α → Option β) : List α → List β
  | [] => []
  | head :: rest => rest.filterMap (read head) ++ collectPairs read rest

/-- Two adverts of one must-link closure; an advert no ruling names is in none. -/
def sameClosure (closureOf : Nat → Option Nat) (left right : Nat) : Bool :=
  match closureOf left with
  | some key => closureOf right == some key
  | none => false

/-! ### The relation at cluster grain -/

/-- Which bar a stated fact is read at. -/
inductive RelationMode where
  | cluster
  | promote
  deriving DecidableEq, Repr

/-- `ClusterRelation`: what the two bodies of a pair state, per ascending key.
The printed figures are compared as sets and by symmetric tests, so their
verdict is one for both orders. -/
structure ClusterRelation where
  readable : Nat → Bool
  separates : RelationMode → Pair → Bool
  printedAreasPrevail : Nat → Nat → Bool
  printedSymm : ∀ left right, printedAreasPrevail left right = printedAreasPrevail right left
  mode : RelationMode := .cluster

/-- The relation as the pass holds it: bound to the closures it exempts. -/
structure BoundRelation extends ClusterRelation where
  closureOf : Nat → Option Nat

namespace BoundRelation

/-- The same relation read at promotion's bar. -/
def strict (relation : BoundRelation) : BoundRelation :=
  { relation with mode := .promote }

/-- No stated fact separates the two adverts. -/
def ok (relation : BoundRelation) (left right : Nat) : Bool :=
  let key := pairKey left right
  if sameClosure relation.closureOf left right then true
  -- An advert the pass cannot read is not one this rule may refuse.
  else if !relation.readable key.1 || !relation.readable key.2 then true
  else !relation.separates relation.mode key

/-- The first separated pair of a member set, in id order. -/
def violatingPair (relation : BoundRelation) (ids : List Nat) : Option Pair :=
  findPair (fun left right => !relation.ok left right) (sortedIds ids)

end BoundRelation

/-! ### The invariants -/

/-- Whether two stated values of different closures are far apart. With at most
one value of each closure the extreme pair decides; a set holding two adverts
of one closure is read pair by pair. -/
def apart {α : Type} [LinearOrder α] (values : List (Nat × α))
    (closureOf : Nat → Option Nat) (far : α → α → Bool) : Bool :=
  let keys := values.filterMap fun value => closureOf value.1
  if keys.Nodup then
    let ordered := values.map Prod.snd
    match ordered.min?, ordered.max? with
    | some least, some greatest => far least greatest
    | _, _ => false
  else
    anyPair (fun left right => far left.2 right.2 && !sameClosure closureOf left.1 right.1) values

/-- The stated values of a member set, each beside its listing id. -/
def statedValues {α : Type} (read : Fingerprint → Option α) (members : List Fingerprint) :
    List (Nat × α) :=
  members.filterMap fun fp => (read fp).map fun value => (fp.listingId, value)

/-- Two areas further apart than the spread, against the larger. -/
def areasFar (settings : Settings) (low high : Float64) : Bool :=
  decide (settings.clusterAreaSpread < (high - low).abs / max low high)

/-- Every pair whose columns are further apart than the spread prints the same
floor-area figures in both bodies. -/
def spreadIsPrintedOne (members : List Fingerprint) (settings : Settings)
    (relation : BoundRelation) (closureOf : Nat → Option Nat) : Bool :=
  !anyPair (fun left right =>
      areasFar settings left.2 right.2 && !sameClosure closureOf left.1 right.1 &&
        !(relation.readable left.1 && relation.readable right.1 &&
          relation.printedAreasPrevail left.1 right.1))
    (statedValues Fingerprint.sized members)

/-- The first limb the merged member set breaks, or none when it holds. -/
def clusterInvariantsOk (members : List Fingerprint) (settings : Settings)
    (mustNotLink : List Pair) (relation : Option BoundRelation)
    (closureOf : Nat → Option Nat) : Option Invariant :=
  let types := (members.filterMap Fingerprint.categoryType).dedup
  let cats := sortedIds (members.filterMap Fingerprint.categoryMain).dedup
  let isLand := members.any Fingerprint.isLand
  let ids := members.map Fingerprint.listingId
  if settings.maxClusterSize < members.length then some .size
  else if 1 < types.length then some .categoryType
  else if anyPair (fun left right => !categoryMainCompatible (some left) (some right)) cats then
    some .compatClass
  else if apart (statedValues Fingerprint.sized members) closureOf (areasFar settings) &&
      !(settings.d43PrintedAreaPrevails &&
        (relation.any fun bound => spreadIsPrintedOne members settings bound closureOf)) then
    some .areaSpread
  else if settings.clusterDisposition && !isLand &&
      apart (statedValues Fingerprint.disposition members) closureOf (· != ·) then
    some .disposition
  else if settings.clusterFloorSpread &&
      apart (statedValues Fingerprint.flatFloor members) closureOf (· != ·) then
    some .floorSpread
  else if anyPair (fun left right => decide (pairKey left right ∈ mustNotLink)) ids then
    some .mustNotLink
  else if relation.any fun bound => (bound.violatingPair ids).isSome then
    some .d43Distinguishable
  else none

end Sreality.Autodedup
