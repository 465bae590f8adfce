import Mathlib.Algebra.Order.Field.Rat
import Mathlib.Data.Prod.Lex
import Mathlib.Data.String.Basic
import Sreality.Foundation.Ranked
import Sreality.Foundation.Tables

/-! `append_payload` (location_data/payloads.py) on one group of the archive, one (source, native
id, page kind): a fetched body is appended when its normalised hash is new, and the append re-pins
and prunes the group in the same transaction. `committed` is not in the database: the versions
inserted so far by transactions that committed. -/

set_option autoImplicit false

namespace Sreality.LocationData.Payloads

open Sreality.Foundation

inductive ContentEncoding where
  | identity
  | gzip
  deriving DecidableEq

/-- `hashlib`, `gzip`, the normaliser, the profile its surface resolves to with the stamp that
names it, and the two thresholds. -/
structure Instruments (Body Sha Profile : Type) where
  normSha256 : Profile → String → Body → Sha
  rawSha256 : Body → Sha
  hex : Sha → String
  gzip : Body → Body
  size : Body → Nat
  resolved : Profile × String
  gzipMinBytes : Nat
  r2ThresholdBytes : Nat

/-- What `portal_raw_payloads` keeps of a version as it was inserted. -/
structure PayloadVersion (Body Sha : Type) where
  id : Nat
  listingId : Option Nat
  payloadSha256 : Sha
  bodySha256 : Sha
  contentType : String
  contentEncoding : ContentEncoding
  body : Option Body
  bodyR2Key : Option String
  byteSize : Nat
  storedByteSize : Nat
  httpStatus : Option Int
  contractVersion : Option Nat
  normalizerVersion : String
  versionSeq : Nat
  deriving DecidableEq

/-- A stored row: the rest of it moves with later sightings and appends. -/
structure PayloadRow (Body Sha : Type) extends PayloadVersion Body Sha where
  snapshotId : Option Nat
  pinned : Bool
  firstObservedAt : ℚ
  lastObservedAt : ℚ
  fetchedAt : ℚ
  deriving DecidableEq

namespace PayloadVersion

variable {Body Sha : Type}

/-- A NULL status ranks with the successes. -/
def successful (version : PayloadVersion Body Sha) : Bool :=
  version.httpStatus.all fun status => decide (200 ≤ status) && decide (status ≤ 299)

/-- The order of `_PRUNE_SQL`. -/
def rank (version : PayloadVersion Body Sha) : Bool ×ₗ ℤ ×ₗ ℤ :=
  toLex (!version.successful, toLex (-(version.versionSeq : ℤ), -(version.id : ℤ)))

end PayloadVersion

/-- One call of `append_payload`: its arguments, whether a bucket is at hand, and what goes wrong
inside its transaction, the upload or anything after it. -/
structure Append (Body Profile : Type) where
  listingId : Option Nat
  body : Body
  contentType : String
  httpStatus : Option Int
  contractVersion : Option Nat
  observedAt : ℚ
  snapshotId : Option Nat
  volatile : Option Profile
  normalizerVersion : Option String
  storeConfigured : Bool
  uploadFails : Bool
  interrupted : Bool

/-- What `append_payload` raises. -/
inductive PayloadError where
  | contentTypeRequired
  | stampRequired
  | sourceRefused
  | storeMissing
  | uploadFailed
  | interrupted
  deriving DecidableEq

structure PayloadRef (Sha : Type) where
  id : Nat
  payloadSha256 : Sha
  bodySha256 : Sha
  versionSeq : Nat
  inserted : Bool
  byteSize : Nat
  storedBytes : Nat
  contentEncoding : ContentEncoding
  bodyR2Key : Option String
  evictedIds : List Nat
  evictedR2Keys : List String

/-- `BodyPlacement`. -/
structure BodyPlacement (Body : Type) where
  stored : Body
  contentEncoding : ContentEncoding
  r2Key : Option String

/-! ### Where a body goes -/

/-- `_SOURCE_RE`; its `$` also stands before a last line feed. -/
def sourceAllowed (source : String) : Bool :=
  let plain := fun letter : Char =>
    decide ('a' ≤ letter) && decide (letter ≤ 'z') || decide ('0' ≤ letter) && decide (letter ≤ '9')
  let letters := if source.toList.getLast? = some '\n' then source.toList.dropLast else source.toList
  match letters with
  | [] => false
  | first :: rest =>
      plain first && decide (rest.length ≤ 31) &&
        rest.all fun letter => plain letter || decide (letter = '_') || decide (letter = '-')

section Placement

variable {Body Sha Profile : Type} (tools : Instruments Body Sha Profile) (source : String)

def r2Key (bodySha256 : Sha) : Except PayloadError String :=
  if sourceAllowed source then
    let digest := tools.hex bodySha256
    .ok ("payloads/" ++ source ++ "/" ++ String.ofList (digest.toList.take 2) ++ "/" ++ digest ++
      ".gz")
  else .error .sourceRefused

def encodeBody (body : Body) : Body × ContentEncoding :=
  if tools.size body ≤ tools.gzipMinBytes then (body, .identity) else (tools.gzip body, .gzip)

/-- `plan_placement`: compressed first, then inline or in the bucket. -/
def planPlacement (body : Body) (bodySha256 : Sha) : Except PayloadError (BodyPlacement Body) :=
  let encoded := encodeBody tools body
  let (stored, encoding) :=
    if tools.r2ThresholdBytes < tools.size encoded.1 ∧ encoded.2 ≠ .gzip then
      (tools.gzip body, ContentEncoding.gzip)
    else encoded
  if tools.size stored ≤ tools.r2ThresholdBytes then
    .ok { stored := stored, contentEncoding := encoding, r2Key := none }
  else
    match r2Key tools source bodySha256 with
    | .ok key => .ok { stored := stored, contentEncoding := encoding, r2Key := some key }
    | .error refusal => .error refusal

end Placement

/-! ### The group -/

/-- The rows of the group, the id sequence, the objects uploaded so far and the keys that rows of
other groups hold. -/
structure World (Body Sha : Type) where
  rows : List (PayloadRow Body Sha)
  nextId : Nat
  objects : List String
  elsewhere : List String
  committed : List (PayloadVersion Body Sha)

section Statements

variable {Body Sha : Type}

def versions (rows : List (PayloadRow Body Sha)) : List (PayloadVersion Body Sha) :=
  rows.map PayloadRow.toPayloadVersion

/-- `coalesce(max(version_seq), 0) + 1`. -/
def nextSeq (rows : List (PayloadRow Body Sha)) : Nat :=
  (((versions rows).map PayloadVersion.versionSeq).max?).getD 0 + 1

/-- `_APPEND_SQL` on the row of the same normalised hash. -/
def sighted (observedAt : ℚ) (snapshotId : Option Nat) (row : PayloadRow Body Sha) :
    PayloadRow Body Sha :=
  { row with
    lastObservedAt := max observedAt row.lastObservedAt
    firstObservedAt := min observedAt row.firstObservedAt
    fetchedAt := min observedAt row.fetchedAt
    snapshotId := row.snapshotId.or snapshotId }

/-- `_REPIN_SQL`: the first version and the latest, nothing else. -/
def repinGroup (rows : List (PayloadRow Body Sha)) : List (PayloadRow Body Sha) :=
  let seqs := (versions rows).map PayloadVersion.versionSeq
  rows.map fun row =>
    { row with
      pinned := decide (some row.versionSeq = seqs.min?) || decide (some row.versionSeq = seqs.max?) }

variable [DecidableEq Body] [DecidableEq Sha]

/-- A row `_PRUNE_SQL` leaves: it is pinned, or its `row_number()` is within the cap. -/
def spared (cap : Nat) (rows : List (PayloadRow Body Sha)) (row : PayloadRow Body Sha) : Bool :=
  row.pinned ||
    decide (row.toPayloadVersion ∈ firstBy PayloadVersion.rank cap (versions rows))

def pruneGroup (cap : Nat) (rows : List (PayloadRow Body Sha)) : List (PayloadRow Body Sha) :=
  rows.filter (spared cap rows)

/-- `_ORPHANED_KEYS_SQL`. -/
def orphanedR2Keys (elsewhere : List String) (evicted rows : List (PayloadRow Body Sha)) :
    List String :=
  ((evicted.filterMap (·.bodyR2Key)).filter fun key =>
    decide (key ∉ elsewhere ∧ key ∉ rows.filterMap (·.bodyR2Key))).dedup

end Statements

/-! ### `append_payload` -/

section AppendPayload

variable {Body Sha Profile : Type} [DecidableEq Body] [DecidableEq Sha]
variable (tools : Instruments Body Sha Profile) (source : String) (cap : Nat)

/-- The profile a call normalises under. -/
def profileOf (call : Append Body Profile) : Profile :=
  call.volatile.getD tools.resolved.1

/-- `norm.norm_sha256`. -/
def normSha (call : Append Body Profile) : Sha :=
  tools.normSha256 (profileOf tools call) call.contentType call.body

/-- The caller's stamp, unless it is missing or empty. -/
def cohort (call : Append Body Profile) : String :=
  match call.normalizerVersion with
  | some stamp => if stamp = "" then tools.resolved.2 else stamp
  | none => tools.resolved.2

def stampMissing (call : Append Body Profile) : Bool :=
  call.normalizerVersion.all fun stamp => decide (stamp = "")

/-- The row `_APPEND_SQL` inserts. -/
def inserted (world : World Body Sha) (call : Append Body Profile)
    (placement : BodyPlacement Body) : PayloadRow Body Sha where
  id := world.nextId
  listingId := call.listingId
  payloadSha256 := normSha tools call
  bodySha256 := tools.rawSha256 call.body
  contentType := call.contentType
  contentEncoding := placement.contentEncoding
  body := if placement.r2Key.isSome then none else some placement.stored
  bodyR2Key := placement.r2Key
  byteSize := tools.size call.body
  storedByteSize := tools.size placement.stored
  httpStatus := call.httpStatus
  contractVersion := call.contractVersion
  normalizerVersion := cohort tools call
  versionSeq := nextSeq world.rows
  snapshotId := call.snapshotId
  pinned := true
  firstObservedAt := call.observedAt
  lastObservedAt := call.observedAt
  fetchedAt := call.observedAt

def refOf (row : PayloadRow Body Sha) (inserted : Bool) (evictedIds : List Nat)
    (evictedR2Keys : List String) : PayloadRef Sha where
  id := row.id
  payloadSha256 := row.payloadSha256
  bodySha256 := row.bodySha256
  versionSeq := row.versionSeq
  inserted := inserted
  byteSize := row.byteSize
  storedBytes := row.storedByteSize
  contentEncoding := row.contentEncoding
  bodyR2Key := row.bodyR2Key
  evictedIds := evictedIds
  evictedR2Keys := evictedR2Keys

/-- The transaction: a rollback gives back neither the id nor what was uploaded. -/
def transact (world : World Body Sha) (call : Append Body Profile)
    (placement : BodyPlacement Body) :
    World Body Sha × Except PayloadError (PayloadRef Sha) :=
  let numbered := { world with nextId := world.nextId + 1 }
  match world.rows.find? fun row => decide (row.payloadSha256 = normSha tools call) with
  | some row =>
      if call.interrupted then (numbered, .error .interrupted)
      else
        ({ numbered with
            rows := updateRows (fun row => decide (row.payloadSha256 = normSha tools call))
              (sighted call.observedAt call.snapshotId) world.rows },
          .ok (refOf row false [] []))
  | none =>
      let row := inserted tools world call placement
      if placement.r2Key.isSome && call.uploadFails then (numbered, .error .uploadFailed)
      else
        let uploaded := { numbered with objects := world.objects ++ placement.r2Key.toList }
        if call.interrupted then (uploaded, .error .interrupted)
        else
          let pinned := repinGroup (world.rows ++ [row])
          let kept := pruneGroup cap pinned
          let evicted := pinned.filter fun row => !spared cap pinned row
          ({ uploaded with
              rows := kept
              committed := world.committed ++ [row.toPayloadVersion] },
            .ok (refOf row true (evicted.map (·.id)) (orphanedR2Keys world.elsewhere evicted kept)))

def appendPayload (world : World Body Sha) (call : Append Body Profile) :
    World Body Sha × Except PayloadError (PayloadRef Sha) :=
  if call.contentType = "" then (world, .error .contentTypeRequired)
  else if call.volatile.isSome && stampMissing call then (world, .error .stampRequired)
  else
    match planPlacement tools source call.body (tools.rawSha256 call.body) with
    | .error refusal => (world, .error refusal)
    | .ok placement =>
        if placement.r2Key.isSome && !call.storeConfigured then (world, .error .storeMissing)
        else transact tools cap world call placement

/-- The calls on the group, one after another. -/
def appendAll (world : World Body Sha) (calls : List (Append Body Profile)) : World Body Sha :=
  calls.foldl (fun world call => (appendPayload tools source cap world call).1) world

end AppendPayload

end Sreality.LocationData.Payloads
