import Mathlib.Data.List.DropRight
import Sreality.Autodedup.ScoreChunks

/-! The lane's store in memory (`MemoryStore` in `autodedup/incremental_store.py`) and the view a
pass holds its own writes in until the budget has agreed to them (`_Overlay` in
`autodedup/incremental.py`). -/

set_option autoImplicit false

namespace Sreality.Autodedup

open Sreality.Foundation

/-- A probe and its key's token. -/
abbrev PostKey := String × String

/-- An address block and a category group. -/
abbrev CellKey := String × String

/-! ### Rows -/

/-- What the store keeps about one listing. -/
structure FpRow where
  guard : Fingerprint
  digest : String
  cell : CellKey
  isActive : Bool
  evidence : Evidence
  firstDecidedAt : Option ℚ := none
  dd : String := ""

/-- The live half of the census: an exact count, and three capped sets that are only reported. -/
structure CellRow where
  nListings : Nat := 0
  shapes : List String := []
  brokers : List String := []
  sourceIds : List String := []
  capped : Bool := false

/-- What the census reads of a listing: its `address_block_key`, its `category_group`, its shape
token, its broker and its portal id. -/
structure CensusListing where
  block : String
  group : String
  shape : String
  brokerKey : Option String
  sourceIdNative : Option String

def CensusListing.cell (listing : CensusListing) : CellKey := (listing.block, listing.group)

/-- `SET_CAP`. -/
def setCap : Nat := 256

/-- A value into a capped set; the flag says whether the cap turned it away. -/
def capInto (bucket : List String) (value : Option String) : List String × Bool :=
  match value with
  | none => (bucket, false)
  | some value =>
      if value = "" ∨ value ∈ bucket then (bucket, false)
      else if setCap ≤ bucket.length then (bucket, true)
      else (bucket ++ [value], false)

/-- One more listing of the cell. -/
def CellRow.bump (row : CellRow) (listing : CensusListing) : CellRow :=
  let shapes := capInto row.shapes (some listing.shape)
  let brokers := capInto row.brokers listing.brokerKey
  let sourceIds := capInto row.sourceIds listing.sourceIdNative
  { nListings := row.nListings + 1
    shapes := shapes.1
    brokers := brokers.1
    sourceIds := sourceIds.1
    capped := row.capped || shapes.2 || brokers.2 || sourceIds.2 }

/-- One fewer, never below none. -/
def CellRow.unbump (row : CellRow) : CellRow := { row with nListings := row.nListings - 1 }

/-! ### The store -/

/-- A key that posts no listing is absent, and reads as no listings. -/
structure MemoryStore (Detail : Type) where
  now : Option ℚ
  postings : PostKey → List Nat
  keys : Nat → Option (List PostKey)
  fp : Nat → Option FpRow
  cell : CellKey → Option CellRow
  pairs : List (PairRow Detail)
  clusters : List (Nat × List Nat)

namespace MemoryStore

variable {Detail : Type} (store : MemoryStore Detail)

/-- A fresh listing into an ascending posting list, from its end. -/
def post (listing : Nat) (bucket : List Nat) : List Nat :=
  (bucket.rdropWhile fun other => decide (listing < other)) ++
    listing :: bucket.rtakeWhile fun other => decide (listing < other)

def lookupMany (keys : List PostKey) : List (PostKey × List Nat) :=
  keys.eraseDups.filterMap fun key =>
    if store.postings key = [] then none else some (key, store.postings key)

def rows (ids : List Nat) : List (Nat × FpRow) :=
  ids.filterMap fun listing => (store.fp listing).map fun row => (listing, row)

def known (ids : List Nat) : List Nat := ids.filter fun listing => (store.fp listing).isSome

def keysOf (listing : Nat) : List PostKey := (store.keys listing).getD []

/-- `_drop_keys`. -/
def dropKeys (listing : Nat) : MemoryStore Detail :=
  { store with
    postings := (store.keysOf listing).foldl
      (fun postings key => Function.update postings key ((postings key).erase listing))
      store.postings
    keys := Function.update store.keys listing none }

/-- The first decision's stamp is the store's own: the one it holds, else the row's, else its
clock. -/
def stamp (listing : Nat) (row : FpRow) : Option ℚ :=
  (((store.fp listing).bind FpRow.firstDecidedAt).or row.firstDecidedAt).or store.now

def putListing (listing : Nat) (row : FpRow) (keys : List PostKey) : MemoryStore Detail :=
  let dropped := store.dropKeys listing
  { dropped with
    fp := Function.update dropped.fp listing
      (some { row with firstDecidedAt := store.stamp listing row })
    keys := Function.update dropped.keys listing (some keys)
    postings := keys.foldl
      (fun postings key => Function.update postings key (post listing (postings key)))
      dropped.postings }

def dropListing (listing : Nat) : MemoryStore Detail :=
  let dropped := store.dropKeys listing
  { dropped with
    fp := Function.update dropped.fp listing none
    pairs := dropped.pairs.filter fun row => decide (row.lo ≠ listing ∧ row.hi ≠ listing) }

def bumpCell (listing : CensusListing) : MemoryStore Detail :=
  { store with
    cell := Function.update store.cell listing.cell
      (some (((store.cell listing.cell).getD {}).bump listing)) }

def unbumpCell (cell : CellKey) : MemoryStore Detail :=
  { store with cell := Function.update store.cell cell ((store.cell cell).map CellRow.unbump) }

/-- The count a cell reads; an absent cell counts none. -/
def nListings (cell : CellKey) : Nat := ((store.cell cell).map CellRow.nListings).getD 0

end MemoryStore

/-! ### The overlay -/

/-- A census write held back. -/
inductive CellOp where
  | bump (listing : CensusListing)
  | unbump (cell : CellKey)

/-- A pass's own writes over a store: rows, keys and census cells, the postings by key, and the
listings retired. -/
structure Overlay (Detail : Type) where
  store : MemoryStore Detail
  fp : Nat → Option FpRow := fun _ => none
  keys : List (Nat × List PostKey) := []
  added : PostKey → List Nat := fun _ => []
  dropped : PostKey → List Nat := fun _ => []
  cellRows : CellKey → Option CellRow := fun _ => none
  ops : List CellOp := []
  gone : List Nat := []

/-- `set.add`. -/
def insertId (listing : Nat) (ids : List Nat) : List Nat :=
  if listing ∈ ids then ids else ids ++ [listing]

/-- `set.discard`. -/
def discardId (listing : Nat) (ids : List Nat) : List Nat :=
  ids.filter fun other => decide (other ≠ listing)

/-- `bisect.insort`. -/
def insort (listing : Nat) (bucket : List Nat) : List Nat :=
  (bucket.takeWhile fun other => decide (other ≤ listing)) ++
    listing :: bucket.dropWhile fun other => decide (other ≤ listing)

namespace Overlay

variable {Detail : Type} (view : Overlay Detail)

def putListing (listing : Nat) (row : FpRow) (keys oldKeys : List PostKey) : Overlay Detail :=
  { view with
    fp := Function.update view.fp listing (some row)
    keys := (view.keys.filter fun entry => decide (entry.1 ≠ listing)) ++ [(listing, keys)]
    added := fun key =>
      let added := if key ∈ oldKeys then discardId listing (view.added key) else view.added key
      if key ∈ keys then insertId listing added else added
    dropped := fun key =>
      let dropped :=
        if key ∈ oldKeys ∧ key ∉ keys then insertId listing (view.dropped key)
        else view.dropped key
      if key ∈ keys then discardId listing dropped else dropped }

def dropListing (listing : Nat) (oldKeys : List PostKey) : Overlay Detail :=
  let put := (view.keys.lookup listing).getD []
  { view with
    fp := Function.update view.fp listing none
    keys := view.keys.filter fun entry => decide (entry.1 ≠ listing)
    added := fun key =>
      if key ∈ put ∨ key ∈ oldKeys then discardId listing (view.added key) else view.added key
    dropped := fun key =>
      if key ∈ oldKeys then insertId listing (view.dropped key) else view.dropped key
    gone := insertId listing view.gone }

/-- `_cell`: the buffered row of a cell, first read off the store. -/
def cellRow (cell : CellKey) : CellRow :=
  ((view.cellRows cell).or (view.store.cell cell)).getD {}

def bumpCell (listing : CensusListing) : Overlay Detail :=
  let row := view.cellRow listing.cell
  { view with
    cellRows := Function.update view.cellRows listing.cell
      (some { row with nListings := row.nListings + 1 })
    ops := view.ops ++ [.bump listing] }

def unbumpCell (cell : CellKey) : Overlay Detail :=
  { view with
    cellRows := Function.update view.cellRows cell (some (view.cellRow cell).unbump)
    ops := view.ops ++ [.unbump cell] }

/-- One key's listings: the store's less the dropped, the added put in their place. -/
def posting (key : PostKey) : List Nat :=
  (view.added key).foldl (fun ids listing => if listing ∈ ids then ids else insort listing ids)
    ((view.dropped key).foldl (fun ids listing => ids.erase listing) (view.store.postings key))

def lookupMany (keys : List PostKey) : List (PostKey × List Nat) :=
  keys.eraseDups.filterMap fun key =>
    if view.posting key = [] then none else some (key, view.posting key)

/-- One listing's row, unless it is retired. -/
def row (listing : Nat) : Option FpRow :=
  if listing ∈ view.gone then none else (view.fp listing).or (view.store.fp listing)

def rows (ids : List Nat) : List (Nat × FpRow) :=
  ids.filterMap fun listing => (view.row listing).map fun row => (listing, row)

def known (ids : List Nat) : List Nat :=
  ids.filter fun listing =>
    ((view.store.fp listing).isSome || (view.fp listing).isSome) && decide (listing ∉ view.gone)

/-- The count a cell reads through the view. -/
def nListings (cell : CellKey) : Nat :=
  (((view.cellRows cell).or (view.store.cell cell)).map CellRow.nListings).getD 0

def applyOp (store : MemoryStore Detail) (op : CellOp) : MemoryStore Detail :=
  match op with
  | .bump listing => store.bumpCell listing
  | .unbump cell => store.unbumpCell cell

/-- `apply`: the retirements, the rows and postings in listing order, then the census. -/
def apply : MemoryStore Detail :=
  let dropped := (sortedIds view.gone).foldl MemoryStore.dropListing view.store
  let put := (sortedIds (view.keys.map Prod.fst)).foldl (fun store listing =>
    match view.fp listing, view.keys.lookup listing with
    | some row, some keys => store.putListing listing row keys
    | _, _ => store) dropped
  view.ops.foldl applyOp put

end Overlay

/-! ### What a pass writes before the budget -/

/-- One write a pass issues through the view. -/
inductive Call where
  | put (listing : Nat) (row : FpRow) (keys oldKeys : List PostKey)
  | drop (listing : Nat) (oldKeys : List PostKey)
  | bump (listing : CensusListing)
  | unbump (cell : CellKey)

namespace Call

variable {Detail : Type}

def issue (view : Overlay Detail) : Call → Overlay Detail
  | .put listing row keys oldKeys => view.putListing listing row keys oldKeys
  | .drop listing oldKeys => view.dropListing listing oldKeys
  | .bump listing => view.bumpCell listing
  | .unbump cell => view.unbumpCell cell

/-- The listing a call puts or drops. -/
def listing : Call → Option Nat
  | .put listing _ _ _ | .drop listing _ => some listing
  | .bump _ | .unbump _ => none

end Call

/-- A claimed listing's facts, as the pass reads them. -/
structure ReadListing where
  guard : Fingerprint
  digest : String
  dd : String
  census : CensusListing
  isActive : Bool
  indexKeys : List PostKey

/-- One claimed row. -/
structure WorkItem where
  listingId : Nat
  retire : Bool := false
  redecide : Bool := false

section Refresh

variable {Detail : Type} (store : MemoryStore Detail) (items : List WorkItem)
  (read : Nat → Option ReadListing)

/-- The listings a pass retires. -/
def retireIds : List Nat := (items.filter WorkItem.retire).map WorkItem.listingId

/-- The listings a pass refreshes, each once and never a retired one. -/
def claimedIds : List Nat :=
  ((items.map WorkItem.listingId).filter fun listing =>
    decide (listing ∉ retireIds items)).eraseDups

/-- The evidence sweep's. -/
def redecideIds : List Nat :=
  (items.filter fun item => item.redecide && decide (item.listingId ∉ retireIds items)).map
    WorkItem.listingId

/-- A listing's stored keys, distinct and in order. -/
def oldKeysOf (listing : Nat) : List PostKey :=
  sortedBy (fun key => (toLex key : String ×ₗ String)) (store.keysOf listing).dedup

/-- E79: one retirement. -/
def retireCalls (listing : Nat) : List Call :=
  ((store.fp listing).map fun old => Call.unbump old.cell).toList ++
    [.drop listing (oldKeysOf store listing)]

/-- The keys a listing is to be posted under. -/
def ReadListing.newKeys (fresh : ReadListing) : List PostKey :=
  sortedBy (fun key => (toLex key : String ×ₗ String)) fresh.indexKeys.dedup

/-- An unchanged listing: its digest, its keys and its decision digest stand. -/
def unchanged (listing : Nat) (fresh : ReadListing) : Bool :=
  (store.fp listing).any fun old =>
    decide (old.digest = fresh.digest ∧ oldKeysOf store listing = fresh.newKeys ∧
      listing ∉ redecideIds items ∧ (old.dd = "" ∨ old.dd = fresh.dd))

/-- One refresh. -/
def refreshCalls (listing : Nat) : List Call :=
  match read listing with
  | none => []
  | some fresh =>
      if unchanged store items listing fresh = true then []
      else
        ((store.fp listing).map fun old => Call.unbump old.cell).toList ++
          [.put listing
              { guard := fresh.guard
                digest := fresh.digest
                cell := fresh.census.cell
                isActive := fresh.isActive
                evidence := { nImages := 0, nPhash := 0, nClip := 0, nTags := 0 }
                firstDecidedAt := (store.fp listing).bind FpRow.firstDecidedAt
                dd := fresh.dd }
              fresh.newKeys (oldKeysOf store listing),
            .bump fresh.census]

/-- What a pass issues before the budget: its retirements in order, then its refreshes. -/
def passCalls : List Call :=
  (sortedIds (store.known (retireIds items).dedup)).flatMap (retireCalls store) ++
    (claimedIds items).flatMap (refreshCalls store items read)

/-- The view once a pass has refreshed what it claimed. -/
def refreshed : Overlay Detail := (passCalls store items read).foldl Call.issue { store := store }

/-- A pass up to its budget: what it would decide is read off the view, a claim that does not fit
is refused, and only then does the rest of the pass fill in the evidence, let the writes land and
go on. -/
def passToBudget (pairsToDecide : Overlay Detail → Nat) (maxPairs : Nat)
    (rest : Overlay Detail → MemoryStore Detail) : MemoryStore Detail × Bool :=
  let view := refreshed store items read
  if maxPairs < pairsToDecide view then (view.store, true) else (rest view, false)

end Refresh

end Sreality.Autodedup
