import Mathlib.Algebra.Order.Field.Rat
import Mathlib.Data.Prod.Lex
import Mathlib.Data.String.Basic
import Sreality.Foundation.LockOrder
import Sreality.Foundation.Runs
import Sreality.Foundation.StableSort
import Sreality.Scraper.DetailQueue

/-! The one listing content write (`scraper/listing_write.py`, `write_listings`) by any number
of writers under READ COMMITTED: the upsert takes the row locks of its batch one by one in the
order of the native ids, the snapshot statement reads and stamps later, the snapshot ids are
drawn while it runs, and everything shows at the commit. `lastWrite` is not in the database:
the content of the write of a listing that committed last. -/

set_option autoImplicit false

namespace Sreality.Scraper.WriteListings

open Sreality.Foundation

/-- What the snapshots need of one fetched payload. -/
structure ListingWrite where
  source : String
  sourceIdNative : String
  priceCzk : Option Int
  contentHash : String
  deriving DecidableEq

inductive Result where
  | new
  | updated
  | unchanged
  deriving DecidableEq

/-- `listing_snapshots`. -/
structure Snapshot where
  id : Nat
  listingId : Nat
  scrapedAt : ℚ
  priceCzk : Option Int
  contentHash : String
  deriving DecidableEq

/-- The natural key `(source, source_id_native)`, the arbiter of the upsert. -/
abbrev Key := String × String

structure Database where
  listings : Key → Option Nat
  snapshots : List Snapshot

/-- The snapshots of a listing in `(scraped_at, id)` order. -/
def history (snapshots : List Snapshot) (listingId : Nat) : List Snapshot :=
  sortedBy (fun snapshot => (toLex (snapshot.scrapedAt, snapshot.id) : ℚ ×ₗ Nat))
    (snapshots.filter fun snapshot => snapshot.listingId == listingId)

/-- `_LATEST_ORDER_BY … LIMIT 1`. -/
def latest (snapshots : List Snapshot) (listingId : Nat) : Option Snapshot :=
  (history snapshots listingId).getLast?

/-- `batch[w.source_id_native] = w`: the native ids by first occurrence. -/
def natives (writes : List ListingWrite) : List String :=
  (writes.map ListingWrite.sourceIdNative).eraseDups

/-- Of a native id the last payload wins. -/
def lastPayload (writes : List ListingWrite) (native : String) : Option ListingWrite :=
  (writes.filter fun write => write.sourceIdNative == native).getLast?

/-- The batch, in the order the upsert takes the rows. -/
def stage (writes : List ListingWrite) : List ListingWrite :=
  sortedBy ListingWrite.sourceIdNative ((natives writes).filterMap (lastPayload writes))

/-- What the upsert returns for a row. -/
structure Upserted where
  write : ListingWrite
  listingId : Nat
  inserted : Bool
  deriving DecidableEq

/-- A row the snapshot statement judged against the latest snapshot it read. -/
structure Judged extends Upserted where
  latest : Option Snapshot
  deriving DecidableEq

/-- `latest.content_hash IS DISTINCT FROM j.content_hash`. -/
def Judged.changed (judged : Judged) : Bool :=
  judged.latest.map Snapshot.contentHash != some judged.write.contentHash

inductive Phase where
  /-- The upsert has these rows to lock yet. -/
  | upserting (waiting : List ListingWrite)
  /-- The snapshot statement began then; these rows have to be inserted yet. -/
  | appending (scrapedAt : ℚ) (judged waiting : List Judged)
  deriving DecidableEq

/-- An open transaction, with what only it sees. -/
structure Transaction where
  source : String
  batch : List ListingWrite
  phase : Phase
  upserted : List Upserted := []
  appended : List Snapshot := []
  deriving DecidableEq

/-- The row a transaction wrote under a key. -/
def Transaction.rowAt (transaction : Transaction) (key : Key) :
    Option Upserted :=
  transaction.upserted.find? fun row => (transaction.source, row.write.sourceIdNative) == key

/-- The payload its caller gave it under a key. -/
def Transaction.submitted (transaction : Transaction) (key : Key) : Option ListingWrite :=
  (transaction.batch.filter fun write => (write.source, write.sourceIdNative) == key).getLast?

structure World where
  db : Database
  now : ℚ
  nextListing : Nat
  nextSnapshot : Nat
  locks : Key → Option Nat
  opened : Nat → Option Transaction
  lastWrite : Key → Option String

namespace World

variable (world : World)

/-- `write_listings` opens its transaction: one source per call, none for an empty call. -/
def begin (tx : Nat) (writes : List ListingWrite) : Option World :=
  match world.opened tx, (writes.map ListingWrite.source).eraseDups with
  | none, [source] =>
      some { world with
        opened := Function.update world.opened tx
          (some { source := source, batch := writes, phase := .upserting (stage writes) }) }
  | _, _ => none

/-- What the upsert writes under a key: the row of the key, else a new one. -/
def upsert (key : Key) (write : ListingWrite) : Upserted where
  write := write
  listingId := (world.db.listings key).getD world.nextListing
  inserted := (world.db.listings key).isNone

/-- The next listing id after the upsert of a key. -/
def listingAfter (key : Key) : Nat :=
  if (world.db.listings key).isNone then world.nextListing + 1 else world.nextListing

/-- The upsert takes the lock of its next row and writes it. -/
def lockRow (tx : Nat) : Option World := do
  let transaction ← world.opened tx
  match transaction.phase with
  | .upserting (write :: rest) =>
      let key := (transaction.source, write.sourceIdNative)
      if (world.locks key).isSome then none
      else
        some { world with
          nextListing := world.listingAfter key
          locks := Function.update world.locks key (some tx)
          opened := Function.update world.opened tx
            (some { transaction with
              phase := .upserting rest
              upserted := transaction.upserted ++ [world.upsert key write] }) }
  | _ => none

/-- The rows of a transaction against the latest committed snapshots. -/
def judgedRows (transaction : Transaction) : List Judged :=
  transaction.upserted.map fun row =>
    { toUpserted := row, latest := latest world.db.snapshots row.listingId }

/-- The snapshot statement begins: its clock and its read. -/
def judge (tx : Nat) : Option World := do
  let transaction ← world.opened tx
  match transaction.phase with
  | .upserting [] =>
      let judged := world.judgedRows transaction
      some { world with
        opened := Function.update world.opened tx
          (some { transaction with
            phase := .appending world.now judged
              (sortedBy (fun row => row.listingId) (judged.filter Judged.changed)) }) }
  | _ => none

/-- The statement inserts the next changed row under the next id. -/
def append (tx : Nat) : Option World := do
  let transaction ← world.opened tx
  match transaction.phase with
  | .appending scrapedAt judged (row :: rest) =>
      let snapshot : Snapshot :=
        { id := world.nextSnapshot
          listingId := row.listingId
          scrapedAt := scrapedAt
          priceCzk := DetailQueue.sanePriceCzk row.write.priceCzk
          contentHash := row.write.contentHash }
      some { world with
        nextSnapshot := world.nextSnapshot + 1
        opened := Function.update world.opened tx
          (some { transaction with
            phase := .appending scrapedAt judged rest
            appended := transaction.appended ++ [snapshot] }) }
  | _ => none

/-- The locks without those of a transaction. -/
def released (tx : Nat) (key : Key) : Option Nat :=
  if world.locks key = some tx then none else world.locks key

/-- The tables once a transaction has committed. -/
def committed (transaction : Transaction) : Database where
  listings := fun key =>
    ((transaction.rowAt key).map Upserted.listingId).or (world.db.listings key)
  snapshots := world.db.snapshots ++ transaction.appended

/-- The commit: what the transaction wrote shows, and its locks are released. -/
def commit (tx : Nat) : Option World := do
  let transaction ← world.opened tx
  match transaction.phase with
  | .appending _ _ [] =>
      some { world with
        db := world.committed transaction
        locks := world.released tx
        opened := Function.update world.opened tx none
        lastWrite := fun key =>
          ((transaction.submitted key).map ListingWrite.contentHash).or (world.lastWrite key) }
  | _ => none

/-- A transaction that fails leaves nothing but the ids it drew. -/
def abort (tx : Nat) : Option World := do
  let _ ← world.opened tx
  some { world with
    locks := world.released tx
    opened := Function.update world.opened tx none }

end World

inductive Action where
  | wait (seconds : ℚ)
  | begin (tx : Nat) (writes : List ListingWrite)
  | lockRow (tx : Nat)
  | judge (tx : Nat)
  | append (tx : Nat)
  | commit (tx : Nat)
  | abort (tx : Nat)

def step (world : World) : Action → Option World
  | .wait seconds => if 0 ≤ seconds then some { world with now := world.now + seconds } else none
  | .begin tx writes => world.begin tx writes
  | .lockRow tx => world.lockRow tx
  | .judge tx => world.judge tx
  | .append tx => world.append tx
  | .commit tx => world.commit tx
  | .abort tx => world.abort tx

/-- `WriteOutcome`. -/
structure WriteOutcome where
  source : String
  sourceIdNative : String
  listingId : Nat
  result : Result
  snapshotId : Option Nat
  contentHash : String
  deriving DecidableEq

/-- What `write_listings` reports of a judged row. -/
def Transaction.outcome (transaction : Transaction) (row : Judged) : WriteOutcome :=
  let own := transaction.appended.find? fun snapshot => snapshot.listingId == row.listingId
  { source := transaction.source
    sourceIdNative := row.write.sourceIdNative
    listingId := row.listingId
    result := if row.inserted then .new else if own.isSome then .updated else .unchanged
    snapshotId := (own.or row.latest).map Snapshot.id
    contentHash := row.write.contentHash }

/-- The outcomes of a transaction about to commit, in the order of its batch. -/
def Transaction.outcomes (transaction : Transaction) : List WriteOutcome :=
  match transaction.phase with
  | .appending _ judged [] =>
      (natives transaction.batch).filterMap fun native =>
        (judged.find? fun row => row.write.sourceIdNative == native).map transaction.outcome
  | _ => []

/-- The row a transaction waits for or takes next. -/
def World.wanted (world : World) (tx : Nat) : Option Key :=
  (world.opened tx).bind fun transaction =>
    match transaction.phase with
    | .upserting (write :: _) => some (transaction.source, write.sourceIdNative)
    | _ => none

end Sreality.Scraper.WriteListings
