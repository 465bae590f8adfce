import Sreality.Autodedup.IncrementalStore

/-! E64: the census a merge sits in, and the rail that sends a merge the census has overtaken back
to the band (`autodedup/hazard_context.py`, `_census` and `_run_rail` in
`autodedup/incremental.py`). -/

set_option autoImplicit false

namespace Sreality.Autodedup

open Sreality.Foundation

/-! ### The census -/

/-- The census a promotion was taken under. -/
structure ContextStamp where
  cellN : Int
  imagePop : Int
  deriving DecidableEq

/-- `int` on the decimal texts a stamp is written as. -/
def intOf (text : String) : Option Int :=
  let natural (digits : List Char) : Option Int :=
    if digits = [] ∨ digits.any (fun digit => !digit.isDigit) = true then none
    else some (digits.foldl (fun total digit => 10 * total + (digit.toNat - '0'.toNat : Nat)) 0)
  match text.toList with
  | '-' :: digits => (natural digits).map fun value => -value
  | '+' :: digits => natural digits
  | digits => natural digits

/-- `ContextStamp.from_evidence`. -/
def ContextStamp.fromEvidence (evidence : List (String × String)) : Option ContextStamp :=
  match (evidence.lookup "context_cell_n").bind intOf,
    (evidence.lookup "context_image_pop_min").bind intOf with
  | some cellN, some imagePop => some ⟨cellN, imagePop⟩
  | _, _ => none

/-- What a stored row keeps of its pair's context; `block` is the lo side's. -/
structure RowContext where
  cellN : Int
  imagePop : Int
  fromPrice : Bool
  block : String

/-- What the census reads of a photograph: its hash, and the carriers counted for it. -/
structure CensusImage where
  phash : Option Nat
  pop : Option Int

/-- One listing of the working set, as the census reads it. -/
structure CensusFacts where
  listing : CensusListing
  images : List CensusImage

/-- `ContextIndex`: the cells' rows, the hashes a listing carries and how many carry each. -/
structure ContextIndex where
  cells : CellKey → Option CellRow
  listingPhashes : Nat → List Nat
  phashPopulation : Nat → Int

namespace ContextIndex

/-- `pair_cell`: the wider of the two sides' cells, the first at a tie. -/
def pairCell (index : ContextIndex) (a b : CensusListing) : Option CellRow :=
  match index.cells a.cell, index.cells b.cell with
  | some left, some right => some (if left.nListings < right.nListings then right else left)
  | some left, none => some left
  | none, right => right

def cellSize (index : ContextIndex) (a b : CensusListing) : Nat :=
  ((index.pairCell a b).map CellRow.nListings).getD 0

/-- The least-carried image two adverts share, none when they share none. -/
def sharedImagePopulation (index : ContextIndex) (lo hi : Nat) : Int :=
  (((index.listingPhashes lo).filter fun phash =>
    decide (phash ∈ index.listingPhashes hi)).map index.phashPopulation).min?.getD 0

def stamp (index : ContextIndex) (lo hi : Nat) (a b : CensusListing) : ContextStamp :=
  ⟨index.cellSize a b, index.sharedImagePopulation lo hi⟩

end ContextIndex

/-- `_census`: the store's counters for the cells of the listings held, and their images. -/
def census (store : MemoryStore RowContext) (held : List (Nat × CensusFacts)) : ContextIndex where
  cells := fun cell =>
    if cell ∈ held.map fun entry => entry.2.listing.cell then store.cell cell else none
  listingPhashes := fun listing =>
    ((held.lookup listing).map fun facts => facts.images.filterMap CensusImage.phash).getD []
  phashPopulation := fun phash =>
    (((held.flatMap fun entry => entry.2.images).filter fun image =>
      decide (image.phash = some phash)).filterMap CensusImage.pop).foldl max 0

/-! ### The plan -/

/-- The limbs of the census, each off unless it is set, and the cap. -/
structure RailSettings where
  blockMin : Option Int
  imagePopulationMin : Option Int
  maxReopenPerBlock : Int

inductive RailLimb where
  | catalogueBlock
  | stockImages
  deriving DecidableEq

def RailLimb.text : RailLimb → String
  | .catalogueBlock => "catalogue_block"
  | .stockImages => "stock_images"

/-- `rail_reopen`: the threshold a merge's context has crossed since it was taken. -/
def railReopen (settings : RailSettings) (stamped current : ContextStamp) : Option RailLimb :=
  if settings.blockMin.any (fun least =>
      decide (stamped.cellN < least ∧ least ≤ current.cellN)) = true then
    some .catalogueBlock
  else if settings.imagePopulationMin.any (fun least =>
      decide (stamped.imagePop < least ∧ least ≤ current.imagePop)) = true then
    some .stockImages
  else none

/-- A stamped merge as the store lists it. -/
structure StampedMerge where
  lo : Nat
  hi : Nat
  stamp : ContextStamp
  block : String
  certified : Bool

structure RailAction where
  lo : Nat
  hi : Nat
  limb : RailLimb
  block : String
  stamped : ContextStamp
  current : ContextStamp

/-- The running plan: the merges to re-open, those the cap deferred and the count of each
block's. -/
structure RailPlan where
  actions : List RailAction := []
  deferred : List StampedMerge := []
  perBlock : String → Int := fun _ => 0

namespace RailPlan

variable (settings : RailSettings) (index : ContextIndex) (listings : Nat → Option CensusListing)

/-- One merge, the certified exempt. -/
def step (plan : RailPlan) (merge : StampedMerge) : RailPlan :=
  if merge.certified = true then plan
  else
    match listings merge.lo, listings merge.hi with
    | some a, some b =>
        let current := index.stamp merge.lo merge.hi a b
        match railReopen settings merge.stamp current with
        | none => plan
        | some limb =>
            if settings.maxReopenPerBlock ≤ plan.perBlock merge.block then
              { plan with deferred := plan.deferred ++ [merge] }
            else
              { plan with
                perBlock := Function.update plan.perBlock merge.block
                  (plan.perBlock merge.block + 1)
                actions := plan.actions ++
                  [⟨merge.lo, merge.hi, limb, merge.block, merge.stamp, current⟩] }
    | _, _ => plan

end RailPlan

/-- `rail_plan`, in pair order. -/
def railPlan (settings : RailSettings) (index : ContextIndex)
    (listings : Nat → Option CensusListing) (merges : List StampedMerge) : RailPlan :=
  (sortedBy (fun merge => (toLex (merge.lo, merge.hi) : Nat ×ₗ Nat)) merges).foldl
    (RailPlan.step settings index listings) {}

/-! ### The rail -/

/-- A row carries a certificate. -/
def PairRow.certified (row : PairRow RowContext) : Bool :=
  row.certificate.any fun certificate => decide (certificate ≠ "")

namespace MemoryStore

variable (store : MemoryStore RowContext)

/-- `stamped_merges`: the merges of the blocks, each with the census it was taken under. -/
def stampedMerges (blocks : List String) : List StampedMerge :=
  store.pairs.filterMap fun row =>
    if row.zone ≠ .merge ∨ row.detail.block ∉ blocks then none
    else
      (ContextStamp.fromEvidence row.evidence).map fun stamp =>
        ⟨row.lo, row.hi, stamp, row.detail.block, row.certified⟩

/-- `pairs_touching`, read under one pair. -/
def pairAt (lo hi : Nat) : Option (PairRow RowContext) :=
  store.pairs.find? fun row => decide (row.lo = lo ∧ row.hi = hi)

/-- One row of `upsert_pairs`. -/
def upsertPair (row : PairRow RowContext) : MemoryStore RowContext :=
  { store with
    pairs :=
      if (store.pairAt row.lo row.hi).isSome = true then
        store.pairs.map fun other =>
          if other.lo = row.lo ∧ other.hi = row.hi then row else other
      else store.pairs ++ [row] }

end MemoryStore

/-- One action on the rows read, unless they no longer merge. -/
def demotion (store : MemoryStore RowContext) (action : RailAction) : Option (PairRow RowContext) :=
  match store.pairAt action.lo action.hi with
  | some row =>
      if row.zone = .merge then
        some
          { row with
            zone := .band
            reason := row.reason ++ ":rail_reopen:" ++ action.limb.text }
      else none
  | none => none

/-- What the rail leaves: the store, what it re-opened and what the cap deferred. -/
structure RailOutcome where
  store : MemoryStore RowContext
  actions : List RailAction
  deferred : List StampedMerge

/-- `working.ensure` for the rail: the sides not held are read, where they can be. -/
def ensureHeld (facts : Nat → Option CensusFacts) (held : List (Nat × CensusFacts))
    (ids : List Nat) : List (Nat × CensusFacts) :=
  held ++ (ids.dedup.filter fun listing => (held.lookup listing).isNone).filterMap fun listing =>
    (facts listing).map fun read => (listing, read)

/-- `_run_rail` over the blocks a pass touched; re-clustering writes clusters alone. -/
def runRail (settings : RailSettings) (store : MemoryStore RowContext)
    (facts : Nat → Option CensusFacts) (held : List (Nat × CensusFacts)) (blocks : List String)
    (recluster : MemoryStore RowContext → List Nat → List (Nat × List Nat)) : RailOutcome :=
  if (settings.blockMin = none ∧ settings.imagePopulationMin = none) ∨ blocks = [] then
    ⟨store, [], []⟩
  else
    let stamped := store.stampedMerges blocks
    if stamped.isEmpty = true then ⟨store, [], []⟩
    else
      let working := ensureHeld facts held (stamped.flatMap fun merge => [merge.lo, merge.hi])
      let plan := railPlan settings (census store working)
        (fun listing => (working.lookup listing).map CensusFacts.listing) stamped
      let demoted := plan.actions.filterMap (demotion store)
      if demoted.isEmpty = true then ⟨store, plan.actions, plan.deferred⟩
      else
        let written := demoted.foldl MemoryStore.upsertPair store
        ⟨{ written with
            clusters := recluster written (demoted.flatMap fun row => [row.lo, row.hi]) },
          plan.actions, plan.deferred⟩

/-- The cell a call bumps or unbumps. -/
def Call.cell : Call → Option CellKey
  | .bump listing => some listing.cell
  | .unbump cell => some cell
  | .put _ _ _ _ | .drop _ _ => none

/-- The cells a pass touched. -/
def touchedCells (store : MemoryStore RowContext) (items : List WorkItem)
    (read : Nat → Option ReadListing) : List CellKey :=
  (passCalls store items read).filterMap Call.cell

/-- `touched_blocks`, in order. -/
def touchedBlocks (store : MemoryStore RowContext) (items : List WorkItem)
    (read : Nat → Option ReadListing) : List String :=
  sortedIds ((touchedCells store items read).map Prod.fst).dedup

/-- A pass's rail: its writes land, `settle` decides its pairs and re-clusters, and the rail reads
the store it left. -/
def passRail (settings : RailSettings) (store : MemoryStore RowContext) (items : List WorkItem)
    (read : Nat → Option ReadListing) (settle : MemoryStore RowContext → MemoryStore RowContext)
    (facts : Nat → Option CensusFacts) (held : List (Nat × CensusFacts))
    (recluster : MemoryStore RowContext → List Nat → List (Nat × List Nat)) : RailOutcome :=
  runRail settings (settle (refreshed store items read).apply) facts held
    (touchedBlocks store items read) recluster

end Sreality.Autodedup
