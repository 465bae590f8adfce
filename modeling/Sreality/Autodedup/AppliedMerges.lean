import Sreality.Autodedup.ApplyScope
import Sreality.Foundation.DistinctOn
import Sreality.Toolkit.PropertyIdentity

/-! What the apply path (`autodedup/apply.py`) reads and writes: the canonical properties and
their merge ledger, where each advert is, one generation's groups, the operator's rulings and
the engine's own ledger `autodedup.applied_merges`. -/

set_option autoImplicit false

namespace Sreality.Autodedup

open Sreality.Foundation Sreality.Toolkit

inductive RulingValue where
  | same
  | different
  | sameBuildingDifferentUnit
  | sameProjectDifferentUnit
  | unsure
  deriving DecidableEq

/-- `NEGATIVE_VERDICTS`. -/
def RulingValue.negative : RulingValue → Bool
  | .different | .sameBuildingDifferentUnit | .sameProjectDifferentUnit => true
  | .same | .unsure => false

/-- What a ruling is about: a pair, or a group under its key with the set it named. -/
inductive Ruled where
  | pair (lo hi : Nat)
  | cluster (key : Nat) (members : Option (List Nat))
  deriving DecidableEq

/-- A row of `autodedup.verdicts`. -/
structure Ruling where
  id : Nat
  ruled : Ruled
  verdict : RulingValue
  decidedAt : Timestamp
  deriving DecidableEq

/-- The newest word is the one decided last, the highest id of a tie. -/
def Ruling.order (ruling : Ruling) : Timestamp ×ₗ Nat :=
  toLex (ruling.decidedAt, ruling.id)

inductive AppliedOutcome where
  | planned
  | skipped
  | applied
  | refused
  | failed
  deriving DecidableEq

/-- A row of `autodedup.applied_merges`: one retired property of one group; `placement` is
the `listings_by_property` of its plan. -/
structure AppliedMerge where
  id : Nat
  generation : String
  clusterKey : Nat
  survivor : Option Nat
  retired : Option Nat
  group : Option GroupId
  dryRun : Bool
  outcome : AppliedOutcome
  members : List Nat
  placement : List (Nat × List Nat)
  appliedAt : Timestamp
  undone : Bool
  deriving DecidableEq

/-- A live merge this engine made. -/
def AppliedMerge.live (row : AppliedMerge) : Bool :=
  !row.dryRun && row.outcome == .applied && !row.undone

structure Database where
  identity : Identity
  mergedAt : Nat → Option Timestamp := fun _ => none
  location : Nat → Location := fun _ => {}
  propertyCategory : Nat → AdCategory := fun _ => (none, none)
  memberships : List (Nat × Nat) := []
  fingerprinted : List Nat := []
  mustNotLink : List (Nat × Nat) := []
  rulings : List Ruling := []
  keyed : Keyed Ruling.id rulings
  appliedMerges : List AppliedMerge := []

namespace Database

/-- A row of `PROPERTY_LISTINGS_SQL`. -/
def member (database : Database) (advert : Advert) : Member where
  listing := advert.listing
  property := database.identity.place advert.listing
  categoryType := advert.categoryType
  categoryMain := advert.categoryMain
  location := database.location advert.listing

/-- A row of `MEMBERS_SQL`; a missing listing comes back with NULLs. -/
def memberRow (database : Database) (listing : Nat) : Member :=
  match database.identity.adverts.find? fun advert => decide (advert.listing = listing) with
  | some advert => database.member advert
  | none =>
      { listing := listing, property := none, categoryType := none, categoryMain := none
        location := {} }

/-- The members of a group of the generation. -/
def membersOf (database : Database) (key : Nat) : List Member :=
  (database.memberships.filter fun row => decide (row.1 = key)).map fun row =>
    database.memberRow row.2

/-- `RC_GROUP_OF_SQL`, read as a dictionary. -/
def groupOf (database : Database) (listing : Nat) : Option Nat :=
  ((database.memberships.filter fun row => decide (row.2 = listing)).getLast?).map (·.1)

/-- `PROPERTY_LISTINGS_SQL`. -/
def propertyListings (database : Database) (properties : List Nat) : List Member :=
  (database.identity.adverts.filter fun advert =>
    (database.identity.place advert.listing).any fun own => decide (own ∈ properties)).map
      database.member

end Database

end Sreality.Autodedup
