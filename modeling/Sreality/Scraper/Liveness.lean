import Mathlib.Algebra.Order.Field.Rat
import Sreality.Foundation.Runs
import Sreality.Foundation.StableSort

/-! How the liveness of a listing reaches its property, under READ COMMITTED: the touches of the
index walk and the closings of gone verdicts (scraper/db.py), `write_listings`
(scraper/listing_write.py) and the slices of `_drain_dirty` (scripts/recompute_property_stats.py).
A runner whose lease ran out may still be in a slice when the next one claims its own. Row locks on
listings are taken one by one and held to the commit, where everything shows. -/

set_option autoImplicit false

namespace Sreality.Scraper.Liveness

open Sreality.Foundation

structure Listing where
  id : Nat
  propertyId : Option Nat
  isActive : Bool
  deriving DecidableEq

/-- `dirty_properties`. -/
structure DirtyRow where
  propertyId : Nat
  markedAt : ℚ
  deriving DecidableEq

/-- What a transaction over listings does with the rows it locks. -/
inductive Kind where
  /-- The first statement of `_touch_chunk_by_id`: it revives, and marks what it revived. -/
  | revive (chunk : List Nat)
  /-- The second one sets the whole chunk active. -/
  | touch
  /-- `mark_listing_inactive`. -/
  | close
  /-- `write_listings`: the listings inactive when the upsert began, and the marked properties. -/
  | write (prior : List Nat) (marked : Option (List Nat))
  deriving DecidableEq

structure Transaction where
  began : ℚ
  kind : Kind
  waiting : List Nat
  taken : List Nat
  deriving DecidableEq

/-- A slice of `_drain_dirty`: claimed, recomputed from what it read, then to be dequeued. -/
inductive SlicePhase where
  | claimed
  | recomputing (reads : List (Nat × Bool))
  | recomputed
  deriving DecidableEq

structure Slice where
  claimed : List DirtyRow
  phase : SlicePhase
  deriving DecidableEq

def Slice.onward (slice : Slice) (phase : SlicePhase) : Slice :=
  { slice with phase := phase }

structure World where
  now : ℚ
  listings : List Listing
  isActive : Nat → Bool
  dirty : List DirtyRow
  locks : Nat → Option Nat
  transactions : List (Nat × Transaction)
  slices : List (Nat × Slice)

namespace World

variable (world : World) (tx : Nat)

def opened : Option Transaction :=
  world.transactions.lookup tx

/-- The slice a runner of the drain is in. -/
def sliceOf (runner : Nat) : Option Slice :=
  world.slices.lookup runner

def withoutSlice (runner : Nat) : World :=
  { world with slices := world.slices.filter fun open_ => decide (open_.1 ≠ runner) }

def withSlice (runner : Nat) (slice : Slice) : World :=
  { world with slices := (runner, slice) :: (world.withoutSlice runner).slices }

/-- The adverts of a property. -/
def adverts (propertyId : Nat) : List Listing :=
  world.listings.filter fun listing => decide (listing.propertyId = some propertyId)

/-- `bool_or(k.is_active)` over the adverts. -/
def anyActive (propertyId : Nat) : Bool :=
  (world.adverts propertyId).any Listing.isActive

def inactive (id : Nat) : Bool :=
  world.listings.any fun listing => decide (listing.id = id) && !listing.isActive

def active (id : Nat) : Bool :=
  world.listings.any fun listing => decide (listing.id = id) && listing.isActive

/-- The properties of listings. -/
def propertiesOf (ids : List Nat) : List Nat :=
  (world.listings.filter fun listing => decide (listing.id ∈ ids)).filterMap Listing.propertyId

/-- `ON CONFLICT (property_id) DO UPDATE SET marked_at = now()`. -/
def mark (markedAt : ℚ) (propertyIds : List Nat) : List DirtyRow :=
  world.dirty.filter (fun row => decide (row.propertyId ∉ propertyIds)) ++
    propertyIds.eraseDups.map fun propertyId => { propertyId := propertyId, markedAt := markedAt }

def setActive (ids : List Nat) (active : Bool) : List Listing :=
  world.listings.map fun listing =>
    if listing.id ∈ ids then { listing with isActive := active } else listing

def onward (transaction : Transaction) : World :=
  { world with transactions :=
      (tx, transaction) :: world.transactions.filter fun open_ => decide (open_.1 ≠ tx) }

/-- The transaction is over, and its row locks are released. -/
def ended : World :=
  { world with
    locks := fun id => if world.locks id = some tx then none else world.locks id
    transactions := world.transactions.filter fun open_ => decide (open_.1 ≠ tx) }

/-- The row is one of those the statement changes, as committed when its lock is granted. -/
def changes (kind : Kind) (id : Nat) : Bool :=
  match kind with
  | .revive _ => world.inactive id
  | .close => world.active id
  | .touch | .write _ _ => true

/-- The statement locks its next row. -/
def lockRow (transaction : Transaction) : Option World :=
  match transaction.waiting with
  | [] => none
  | id :: rest =>
      if world.locks id ≠ none ∧ world.locks id ≠ some tx then none
      else
        some ({ world with locks := Function.update world.locks id (some tx) }.onward tx
          { transaction with
            waiting := rest
            taken := if world.changes transaction.kind id then transaction.taken ++ [id]
              else transaction.taken })

/-- `_DIRTY_PROPERTIES_SQL`: appended or revived, or under a property that reads inactive. -/
def dirtyProperties (taken prior appended : List Nat) : List Nat :=
  (world.listings.filter fun listing => decide (listing.id ∈ taken)).filterMap fun listing =>
    listing.propertyId.filter fun propertyId =>
      decide (listing.id ∈ appended) || decide (listing.id ∈ prior) || !world.isActive propertyId

/-- The properties the transaction has queued. -/
def marks (transaction : Transaction) : List Nat :=
  match transaction.kind with
  | .revive _ | .close => world.propertiesOf transaction.taken
  | .touch => []
  | .write _ marked => marked.getD []

/-- What the transaction's commit shows. -/
def committed (transaction : Transaction) : World :=
  { world with
    listings := world.setActive transaction.taken (decide (transaction.kind ≠ .close))
    dirty := world.mark transaction.began (world.marks transaction) }

/-- The commit; the first touch statement is followed by the second. -/
def commit (transaction : Transaction) : Option World :=
  if transaction.waiting ≠ [] then none
  else
    match transaction.kind with
    | .write _ none => none
    | .revive chunk => some (((world.committed transaction).ended tx).onward tx
        { began := world.now, kind := .touch, waiting := chunk, taken := [] })
    | _ => some ((world.committed transaction).ended tx)

/-- `_CLAIM_DIRTY_SQL`. -/
def claim (cutoff : ℚ) (size : Nat) : List DirtyRow :=
  (sortedBy DirtyRow.markedAt
    (world.dirty.filter fun row => decide (row.markedAt ≤ cutoff))).take size

/-- What the recompute statement reads of the claimed properties that have adverts. -/
def readSlice (claimed : List DirtyRow) : List (Nat × Bool) :=
  (claimed.map DirtyRow.propertyId).filterMap fun propertyId =>
    if world.adverts propertyId = [] then none else some (propertyId, world.anyActive propertyId)

/-- The recompute statement of a slice, in its transaction. -/
def recompute (runner : Nat) (slice : Slice) : Option World :=
  if slice.phase = .claimed then
    some (world.withSlice runner (slice.onward (.recomputing (world.readSlice slice.claimed))))
  else none

def commitRecompute (runner : Nat) (slice : Slice) : Option World :=
  match slice.phase with
  | .recomputing reads =>
      some ({ world with isActive := fun propertyId =>
        (reads.lookup propertyId).getD (world.isActive propertyId) }.withSlice runner
          (slice.onward .recomputed))
  | _ => none

/-- `_DELETE_DIRTY_SQL`: a row goes only while it carries the mark it was claimed with. -/
def dequeue (runner : Nat) (slice : Slice) : Option World :=
  if slice.phase = .recomputed then
    some ({ world with
      dirty := world.dirty.filter fun row => decide (row ∉ slice.claimed) }.withoutSlice runner)
  else none

end World

inductive Action where
  | wait (seconds : ℚ)
  | touch (tx : Nat) (chunk : List Nat)
  | close (tx : Nat) (id : Nat)
  | write (tx : Nat) (ids : List Nat)
  | lockRow (tx : Nat)
  | markProperties (tx : Nat) (appended : List Nat)
  | commit (tx : Nat)
  | rollback (tx : Nat)
  | claim (runner : Nat) (cutoff : ℚ) (size : Nat)
  | recompute (runner : Nat)
  | commitRecompute (runner : Nat)
  | dequeue (runner : Nat)
  | abort (runner : Nat)

/-- A transaction begins under a free number. -/
def World.begin_ (world : World) (tx : Nat) (kind : Kind) (waiting : List Nat) : Option World :=
  if (world.opened tx).isSome then none
  else some (world.onward tx { began := world.now, kind := kind, waiting := waiting, taken := [] })

def step (world : World) : Action → Option World
  | .wait seconds => if 0 ≤ seconds then some { world with now := world.now + seconds } else none
  | .touch tx chunk => world.begin_ tx (.revive chunk) (chunk.filter world.inactive)
  | .close tx id => world.begin_ tx .close [id]
  | .write tx ids => world.begin_ tx (.write (ids.filter world.inactive) none) ids
  | .lockRow tx => (world.opened tx).bind (world.lockRow tx)
  | .markProperties tx appended =>
      (world.opened tx).bind fun transaction =>
        match transaction.kind with
        | .write prior none =>
            if transaction.waiting ≠ [] then none
            else some (world.onward tx { transaction with
              kind := .write prior (some (world.dirtyProperties transaction.taken prior appended)) })
        | _ => none
  | .commit tx => (world.opened tx).bind (world.commit tx)
  | .rollback tx => (world.opened tx).map fun _ => world.ended tx
  | .claim runner cutoff size =>
      if (world.sliceOf runner).isSome ∨ world.claim cutoff size = [] then none
      else some (world.withSlice runner
        { claimed := world.claim cutoff size, phase := .claimed })
  | .recompute runner => (world.sliceOf runner).bind (world.recompute runner)
  | .commitRecompute runner => (world.sliceOf runner).bind (world.commitRecompute runner)
  | .dequeue runner => (world.sliceOf runner).bind (world.dequeue runner)
  | .abort runner => (world.sliceOf runner).map fun _ => world.withoutSlice runner

/-- The slice has read the adverts behind the row it claimed. -/
def Slice.spent (slice : Slice) (row : DirtyRow) : Bool :=
  decide (slice.phase ≠ .claimed) && decide (row ∈ slice.claimed)

/-- The slice takes the row off the queue only once it has set its property's flag to `active`. -/
def Slice.settles (slice : Slice) (row : DirtyRow) (active : Bool) : Bool :=
  match slice.phase with
  | .claimed => true
  | .recomputing reads =>
      decide (row ∉ slice.claimed) || decide (reads.lookup row.propertyId = some active)
  | .recomputed => decide (row ∉ slice.claimed)

/-- The property has a row that no slice takes off the queue before the flag reads `active`. -/
def World.owed (world : World) (propertyId : Nat) (active : Bool) : Bool :=
  world.dirty.any fun row => decide (row.propertyId = propertyId) &&
    world.slices.all fun open_ => open_.2.settles row active

/-- What the runner's slice has read and is about to write. -/
def World.readOf (world : World) (runner : Nat) : List (Nat × Bool) :=
  match (world.sliceOf runner).map Slice.phase with
  | some (.recomputing reads) => reads
  | _ => []

/-- A commit re-stamps no row with the very mark under which an open slice has spent it, and a
listing it revives without queueing its property has that property owed or reading active. A slice
writes a flag that the adverts no longer bear out only while the property is owed. -/
def Carried (world : World) : Action → Prop
  | .commit tx => ∀ transaction ∈ world.opened tx,
      (∀ propertyId ∈ world.marks transaction, ∀ open_ ∈ world.slices,
        open_.2.spent { propertyId := propertyId, markedAt := transaction.began } = false) ∧
      ∀ listing ∈ world.listings, listing.id ∈ transaction.taken → listing.isActive = false →
        ∀ propertyId ∈ listing.propertyId, propertyId ∈ world.marks transaction ∨
          world.owed propertyId true = true ∨ world.isActive propertyId = true
  | .commitRecompute runner => ∀ read ∈ world.readOf runner,
      read.2 = world.anyActive read.1 ∨ world.owed read.1 (world.anyActive read.1) = true
  | _ => True

instance decidableCarried (world : World) : ∀ action, Decidable (Carried world action)
  | .commit tx => inferInstanceAs (Decidable (∀ transaction ∈ world.opened tx,
      (∀ propertyId ∈ world.marks transaction, ∀ open_ ∈ world.slices,
        open_.2.spent { propertyId := propertyId, markedAt := transaction.began } = false) ∧
      ∀ listing ∈ world.listings, listing.id ∈ transaction.taken → listing.isActive = false →
        ∀ propertyId ∈ listing.propertyId, propertyId ∈ world.marks transaction ∨
          world.owed propertyId true = true ∨ world.isActive propertyId = true))
  | .commitRecompute runner => inferInstanceAs (Decidable (∀ read ∈ world.readOf runner,
      read.2 = world.anyActive read.1 ∨ world.owed read.1 (world.anyActive read.1) = true))
  | .wait _ | .touch _ _ | .close _ _ | .write _ _ | .lockRow _ | .markProperties _ _
  | .rollback _ | .claim _ _ _ | .recompute _ | .dequeue _ | .abort _ =>
      inferInstanceAs (Decidable True)

/-- With nothing open, a property with an advert and without a queue row reads active exactly
when one of its adverts is. -/
def Reached (world : World) : Prop :=
  world.transactions = [] → world.slices = [] → ∀ propertyId,
    world.adverts propertyId ≠ [] → (∀ row ∈ world.dirty, row.propertyId ≠ propertyId) →
      (world.isActive propertyId = true ↔
        ∃ listing ∈ world.adverts propertyId, listing.isActive = true)

end Sreality.Scraper.Liveness
