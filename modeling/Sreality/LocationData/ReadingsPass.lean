import Mathlib.Algebra.Order.Field.Rat
import Mathlib.Data.List.Dedup
import Mathlib.Data.List.DropRight
import Mathlib.Data.Prod.Lex
import Mathlib.Data.String.Basic
import Sreality.Foundation.StableSort
import Sreality.Foundation.Tables

/-! The readings half of the claims intake (location_data/claims_intake.py): `drain_readings` mines
the current reading of each listing its selector finds unsettled, supersedes the claims of an older
one and stamps the readings, a batch at a time. -/

set_option autoImplicit false

namespace Sreality.LocationData.ReadingsPass

open Sreality.Foundation

/-! ### The tables -/

/-- A row of `portal_contract_entries`; `slots` is its locator's `slot` with the fallback ones. -/
structure Entry where
  id : Nat
  entryId : String
  surface : String
  pageKind : String
  reader : Option String
  slots : List String
  claimType : String
  extractionMethod : String
  subjectScoped : Bool
  blurredLabels : List String
  defaultBlurEvidence : String
  defaultLicenceClass : String
  deriving DecidableEq

/-- `portal_contracts` with its entries. -/
structure Contract where
  source : String
  version : ℤ
  isActive : Bool
  entries : List Entry
  deriving DecidableEq

structure Listing where
  id : Nat
  source : String
  sourceIdNative : Option String
  title : Option String
  description : Option String
  isActive : Bool
  lastSeenAt : ℚ
  deriving DecidableEq

/-- A row of `listing_description_enrichments`: `location` is the key of `extracted`, when there
is one. -/
structure Reading (Location : Type) where
  id : Nat
  listingId : Nat
  textHash : Option String
  extractorVersion : Option String
  createdAt : ℚ
  location : Option Location
  failed : Bool
  minedContractVersion : Option String

/-- `Claim` as `_base` builds it. -/
structure Claim where
  listingId : Nat
  source : String
  sourceIdNative : String
  claimType : String
  surface : String
  pageKind : String
  extractionMethod : String
  extractorId : String
  extractorVersion : String
  contractEntryId : Nat
  firstObservedAt : ℚ
  blurEvidence : String
  licenceClass : String
  subjectScoped : Bool
  valueText : String
  declaredPrecisionLabel : Option String
  deriving DecidableEq

/-- A row of `location_claims`; the operator's are of no contract entry. -/
structure ClaimRow (Fingerprint : Type) where
  listingId : Nat
  source : String
  claimType : String
  contractEntryId : Option Nat
  valueText : Option String
  claimFingerprint : Fingerprint
  deriving DecidableEq

structure DirtyLocation where
  listingId : Nat
  reason : String
  enqueuedAt : ℚ
  attempts : Nat
  nextEligibleAt : ℚ
  deriving DecidableEq

structure Database (Location Fingerprint : Type) where
  listings : List Listing
  readings : List (Reading Location)
  contracts : List Contract
  claims : List (ClaimRow Fingerprint)
  dirtyLocations : List DirtyLocation

/-- What a pass is called with, the two hashes and the reader `text_reading`: the value of the
first of the slots that a reading supports in the advert text. -/
structure Pass (Location Fingerprint : Type) where
  source : Option String
  listingIds : Option (List Nat)
  version : Option String
  maxValueBytes : Nat
  sha256 : String → String
  supported : List String → Location → String → Option String
  fingerprint : Claim → Fingerprint

variable {Location Fingerprint : Type} [DecidableEq Fingerprint]

/-! ### The scope -/

/-- A portal of the pass with the entries of its active contract on the reading substrate. -/
structure Portal where
  source : String
  version : ℤ
  entries : List Entry

def readingEntries (entries : List Entry) : List Entry :=
  entries.filter fun entry => decide (entry.reader = some "text_reading")

/-- At most one contract of a portal is active. -/
def scopeOf (pass : Pass Location Fingerprint) (contracts : List Contract) : List Portal :=
  contracts.filterMap fun contract =>
    if contract.isActive ∧ (pass.source = none ∨ pass.source = some contract.source) ∧
        readingEntries contract.entries ≠ [] then
      some { source := contract.source, version := contract.version
             entries := readingEntries contract.entries }
    else none

/-- `<source>@<version>`. -/
def stampOf (source : String) (version : ℤ) : String := source ++ "@" ++ toString version

def entriesOf (scope : List Portal) (source : String) : List Entry :=
  ((scope.find? fun portal => decide (portal.source = source)).map (·.entries)).getD []

def claimTypesOf (scope : List Portal) (source : String) : List String :=
  (entriesOf scope source).map (·.claimType)

/-! ### The selector -/

def rtrim (text : String) : String := String.ofList (text.toList.rdropWhile (· = '~'))

/-- `_TEXT_EXPR`. -/
def Listing.text (listing : Listing) : String :=
  listing.title.getD "" ++ "\n" ++ listing.description.getD ""

/-- `_READING`. -/
def Reading.isReading (reading : Reading Location) : Bool :=
  reading.location.isSome && !reading.failed

/-- The order of `_PREFERRED`. -/
def Reading.preference (version : Option String) (reading : Reading Location) :
    Bool ×ₗ ℚ ×ₗ ℤ :=
  toLex (decide (reading.extractorVersion ≠ version),
    toLex (-reading.createdAt, -(reading.id : ℤ)))

def preferred (version : Option String) (readings : List (Reading Location)) :
    Option (Reading Location) :=
  (sortedBy (Reading.preference version) readings).head?

def readingsOf (database : Database Location Fingerprint) (listing : Nat) :
    List (Reading Location) :=
  database.readings.filter fun reading =>
    reading.isReading && decide (reading.listingId = listing)

/-- `unsettled`: what the preferred reading is stamped with, for a listing of two texts or more or
whose preferred reading has no stamp of the pass. -/
def unsettled (pass : Pass Location Fingerprint) (scope : List Portal)
    (database : Database Location Fingerprint) (listing : Nat) : Option (Option String) :=
  match preferred pass.version (readingsOf database listing) with
  | none => none
  | some first =>
      if pass.listingIds.all (fun ids => ids.contains listing) &&
          (decide (1 < ((readingsOf database listing).filterMap (·.textHash)).dedup.length) ||
            !first.minedContractVersion.any fun checked =>
              (scope.map fun portal => stampOf portal.source portal.version).contains checked) then
        some first.minedContractVersion
      else none

/-- The lateral: the preferred reading of the listing's text. -/
def current (pass : Pass Location Fingerprint) (database : Database Location Fingerprint)
    (listing : Listing) : Option (Reading Location) :=
  preferred pass.version ((readingsOf database listing.id).filter fun reading =>
    decide (reading.textHash = some (pass.sha256 listing.text)))

/-- A record of the selector. -/
structure Record (Location : Type) where
  listing : Listing
  reading : Option (Nat × Option Location)
  stamp : String

/-- The WHERE clause on a listing, its portal's active contract and its `checked`. -/
def Selects (listing : Listing) (stamp : String) (checked : Option String)
    (reading : Option (Reading Location)) : Prop :=
  (listing.isActive ∨ checked.map rtrim ≠ some stamp) ∧
    match reading with
    | none => checked ≠ some (stamp ++ "~")
    | some reading =>
        ¬(reading.minedContractVersion = some stamp ∧ checked.map rtrim = some stamp)

instance (listing : Listing) (stamp : String) (checked : Option String)
    (reading : Option (Reading Location)) :
    Decidable (Selects listing stamp checked reading) := by
  unfold Selects
  cases reading <;> infer_instance

def recordOf (pass : Pass Location Fingerprint) (scope : List Portal)
    (database : Database Location Fingerprint) (listing : Listing) (contract : Contract) :
    Option (Record Location) :=
  (unsettled pass scope database listing.id).bind fun checked =>
    let reading := current pass database listing
    let stamp := stampOf listing.source contract.version
    if Selects listing stamp checked reading then
      some { listing := listing, reading := reading.map fun row => (row.id, row.location)
             stamp := stamp }
    else none

/-- `_UNMINED_READINGS_SQL` without its LIMIT. -/
def unminedReadings (pass : Pass Location Fingerprint)
    (database : Database Location Fingerprint) : List (Record Location) :=
  let scope := scopeOf pass database.contracts
  (database.listings.filter fun listing =>
    (scope.map (·.source)).contains listing.source).flatMap fun listing =>
      (database.contracts.filter fun contract =>
        contract.isActive && decide (contract.source = listing.source)).filterMap
          (recordOf pass scope database listing)

/-! ### Mining a record -/

/-- `_base` for a value of the reading. -/
def base (source : String) (version : ℤ) (entry : Entry) (listing : Listing) (value : String) :
    Claim where
  listingId := listing.id
  source := listing.source
  sourceIdNative := listing.sourceIdNative.filter (· ≠ "") |>.getD (toString listing.id)
  claimType := entry.claimType
  surface := entry.surface
  pageKind := entry.pageKind
  extractionMethod := entry.extractionMethod
  extractorId := entry.entryId
  extractorVersion := "contract:" ++ stampOf source version
  contractEntryId := entry.id
  firstObservedAt := listing.lastSeenAt
  blurEvidence :=
    if entry.claimType = "precision_declaration" then
      if entry.blurredLabels.contains value then "declared" else "none"
    else entry.defaultBlurEvidence
  licenceClass := entry.defaultLicenceClass
  subjectScoped := entry.subjectScoped
  valueText := value
  declaredPrecisionLabel :=
    if entry.claimType = "precision_declaration" then some value else none

/-- `EMITTABLE_LICENCE_CLASSES`. -/
def emittable (claim : Claim) : Bool := decide (claim.licenceClass = "portal")

/-- `extract_listing` with a reading: nothing when it raises `IntakeRefused`. -/
def extractListing (pass : Pass Location Fingerprint) (scope : List Portal) (listing : Listing)
    (location : Location) : Option (List Claim) :=
  match scope.find? fun portal => decide (portal.source = listing.source) with
  | none => none
  | some portal =>
      let found := (readingEntries portal.entries).filterMap fun entry =>
        (pass.supported entry.slots location listing.text).map
          (base portal.source portal.version entry listing)
      if found.all emittable then
        some (found.filter fun claim => decide (claim.valueText.utf8ByteSize ≤ pass.maxValueBytes))
      else none

/-- An unread text has nothing to mine. -/
def mine (pass : Pass Location Fingerprint) (scope : List Portal) (record : Record Location) :
    Option (List Claim) :=
  match record.reading with
  | some (_, some location) => extractListing pass scope record.listing location
  | _ => some []

def mineAll (pass : Pass Location Fingerprint) (scope : List Portal) :
    List (Record Location) → Option (List Claim)
  | [] => some []
  | record :: rest => do
      let claims ← mine pass scope record
      let others ← mineAll pass scope rest
      return claims ++ others

/-- A row of `mined`. -/
structure Mined where
  listingId : Nat
  source : String
  readingId : Option Nat
  stamp : String
  claimTypes : List String

def minedOf (scope : List Portal) (record : Record Location) : Mined where
  listingId := record.listing.id
  source := record.listing.source
  readingId := record.reading.map (·.1)
  stamp := record.stamp
  claimTypes := claimTypesOf scope record.listing.source

/-! ### `_READING_WRITE_SQL` -/

section Write

variable (fingerprint : Claim → Fingerprint) (claims : List Claim) (mined : List Mined)

def rowOf (claim : Claim) : ClaimRow Fingerprint where
  listingId := claim.listingId
  source := claim.source
  claimType := claim.claimType
  contractEntryId := some claim.contractEntryId
  valueText := some claim.valueText
  claimFingerprint := fingerprint claim

/-- `deduped`: one of the claims of a fingerprint. -/
def deduped : List Claim → List (ClaimRow Fingerprint)
  | [] => []
  | claim :: rest =>
      if (deduped rest).any (fun row => decide (row.claimFingerprint = fingerprint claim)) then
        deduped rest
      else rowOf fingerprint claim :: deduped rest

/-- `ins`: on a conflict of fingerprints the stored claim stays. -/
def inserted (stored : List (ClaimRow Fingerprint)) : List (ClaimRow Fingerprint) :=
  (deduped fingerprint claims).filter fun row =>
    !stored.any fun other => decide (other.claimFingerprint = row.claimFingerprint)

def superseded (row : ClaimRow Fingerprint) : Bool :=
  (mined.any fun one => decide (row.listingId = one.listingId) &&
    decide (row.source = one.source) && one.readingId.isSome && row.contractEntryId.isSome &&
    one.claimTypes.contains row.claimType) &&
  !claims.any fun claim => decide (fingerprint claim = row.claimFingerprint)

/-- `_CHECKED`. -/
def checked (readings : List (Reading Location)) (one : Mined) (reading : Reading Location) :
    Option String :=
  let mined := one.readingId.bind fun id => readings.find? fun other => decide (other.id = id)
  if one.readingId = some reading.id then some one.stamp
  else if reading.textHash ≠ mined.bind (·.textHash) then some (one.stamp ++ "~")
  else none

/-- `stamped`. -/
def stampReading (readings : List (Reading Location)) (reading : Reading Location) :
    Reading Location :=
  match mined.find? fun one => decide (one.listingId = reading.listingId) with
  | none => reading
  | some one =>
      if reading.isReading then
        { reading with minedContractVersion := checked readings one reading }
      else reading

/-- `enqueued`. -/
def enqueue (now : ℚ) (changed : List Nat) (queue : List DirtyLocation) : List DirtyLocation :=
  let stamp := fun listing : Nat =>
    { listingId := listing, reason := "claim_insert", enqueuedAt := now, attempts := 0
      nextEligibleAt := now : DirtyLocation }
  updateRows (fun row => changed.contains row.listingId) (fun row => stamp row.listingId) queue ++
    (changed.dedup.filter fun listing =>
      !queue.any fun row => decide (row.listingId = listing)).map stamp

def writeReadings (now : ℚ) (database : Database Location Fingerprint) :
    Database Location Fingerprint :=
  let fresh := inserted fingerprint claims database.claims
  let gone := database.claims.filter (superseded fingerprint claims mined)
  { database with
    claims := (database.claims.filter fun row => !superseded fingerprint claims mined row) ++ fresh
    readings := database.readings.map (stampReading mined database.readings)
    dirtyLocations := enqueue now ((fresh ++ gone).map (·.listingId)) database.dirtyLocations }

end Write

/-! ### `drain_readings` -/

/-- A committed batch: so many of the records as the limit lets through, whichever they are. -/
inductive ReadingBatch (pass : Pass Location Fingerprint) (cap : Nat)
    (database : Database Location Fingerprint) :
    List (Record Location) → Database Location Fingerprint → Prop
  | commit (now : ℚ) (records : List (Record Location)) (claims : List Claim)
      (selected : records.Subperm (unminedReadings pass database))
      (limit : records.length = min cap (unminedReadings pass database).length)
      (mined : mineAll pass (scopeOf pass database.contracts) records = some claims) :
      ReadingBatch pass cap database records
        (if records = [] then database
        else writeReadings pass.fingerprint claims
          (records.map (minedOf (scopeOf pass database.contracts))) now database)

/-- So many batches one after the other, each as long as the limit. -/
inductive FullBatches (pass : Pass Location Fingerprint) (cap : Nat) :
    Database Location Fingerprint → Nat → Database Location Fingerprint → Prop
  | start (database : Database Location Fingerprint) : FullBatches pass cap database 0 database
  | again {database next last : Database Location Fingerprint} {batches : Nat}
      {records : List (Record Location)} (batch : ReadingBatch pass cap database records next)
      (full : records.length = cap) (rest : FullBatches pass cap next batches last) :
      FullBatches pass cap database (batches + 1) last

/-- The loop to its end, a batch shorter than the limit. -/
inductive Drained (pass : Pass Location Fingerprint) (cap : Nat) :
    Database Location Fingerprint → Database Location Fingerprint → Prop
  | short {database last : Database Location Fingerprint} {records : List (Record Location)}
      (batch : ReadingBatch pass cap database records last) (less : records.length < cap) :
      Drained pass cap database last
  | full {database next last : Database Location Fingerprint}
      {records : List (Record Location)} (batch : ReadingBatch pass cap database records next)
      (whole : records.length = cap) (rest : Drained pass cap next last) :
      Drained pass cap database last

end Sreality.LocationData.ReadingsPass
