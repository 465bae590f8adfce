import Mathlib.Data.Finset.Union
import Mathlib.Data.String.Basic
import Mathlib.Data.Rat.Defs
import Mathlib.Algebra.Order.Field.Rat
import Sreality.Autodedup.Cluster

/-! The scoring loop of a pass and its chunks (`_score_chunks`, `_Working` and the loop of
`run_pass` in `autodedup/incremental.py`). -/

set_option autoImplicit false

namespace Sreality.Autodedup

open Sreality.Foundation

/-! ### The working set -/

/-- What the evidence counts and the loop read of a photograph. -/
structure Image where
  imageId : Nat
  phash : Option Nat := none
  tagged : Bool := false
  clip : Option String := none

/-- The read half: galleries bare of their CLIP vectors, and the vectors of an image. -/
structure FactSource where
  facts : Nat → Option (List Image)
  vectors : Nat → Option String

/-- `replace(image, clip=…)` where the vector was read. -/
def FactSource.withVector (facts : FactSource) (image : Image) : Image :=
  match facts.vectors image.imageId with
  | some vector => { image with clip := some vector }
  | none => image

def Image.bare (image : Image) : Image := { image with clip := none }

/-- The gallery `facts` hands over: bare unless the vectors are asked for. -/
def FactSource.gallery (facts : FactSource) (clip : Bool) (listing : Nat) : Option (List Image) :=
  (facts.facts listing).map fun images =>
    images.map fun image => if clip then facts.withVector image.bare else image.bare

/-- `_Working`: the listings read, their galleries, and who carries CLIP vectors. -/
structure Working where
  fps : List Nat
  images : Nat → List Image
  vectored : List Nat

namespace Working

def empty : Working where
  fps := []
  images := fun _ => []
  vectored := []

/-- The first half of `ensure`: what is not held is read. -/
def fetch (facts : FactSource) (ids : List Nat) (clip : Bool) (working : Working) : Working :=
  let fetched := (ids.filter fun listing => decide (listing ∉ working.fps)).filter fun listing =>
    (facts.gallery clip listing).isSome
  { fps := working.fps ++ fetched
    images := fun listing =>
      if listing ∈ fetched then (facts.gallery clip listing).getD [] else working.images listing
    vectored := if clip then working.vectored ++ fetched else working.vectored }

/-- The top-up of `ensure`: the vectors of those held without them. -/
def topUp (facts : FactSource) (ids : List Nat) (working : Working) : Working :=
  let bare := ids.filter fun listing =>
    decide (listing ∈ working.fps ∧ listing ∉ working.vectored)
  { working with
    images := fun listing =>
      if listing ∈ bare then (working.images listing).map facts.withVector
      else working.images listing
    vectored := working.vectored ++ bare }

def ensure (facts : FactSource) (ids : List Nat) (clip : Bool) (working : Working) : Working :=
  if clip then (working.fetch facts ids clip).topUp facts ids else working.fetch facts ids clip

/-- `release`: the galleries go back to how the bare read holds them. -/
def release (ids : List Nat) (working : Working) : Working where
  fps := working.fps
  images := fun listing =>
    if listing ∈ ids ∧ listing ∈ working.vectored then (working.images listing).map Image.bare
    else working.images listing
  vectored := working.vectored.filter fun listing => decide (listing ∉ ids)

end Working

/-! ### The chunks -/

/-- The running state of `_score_chunks`. -/
structure Cutting where
  opens : List (Nat × List Nat) := []
  ends : List Nat := []
  last : List (Nat × Nat) := []
  taken : Nat := 0

/-- `sides.update(pair)`: the set opened last grows. -/
def widenLast (opens : List (Nat × List Nat)) (sides : List Nat) : List (Nat × List Nat) :=
  opens.dropLast ++ opens.getLast?.toList.map fun opened => (opened.1, opened.2 ++ sides)

/-- `last[side] = chunk`. -/
def setLast (last : List (Nat × Nat)) (side chunk : Nat) : List (Nat × Nat) :=
  (last.filter fun entry => decide (entry.1 ≠ side)) ++ [(side, chunk)]

/-- One pair of `_score_chunks`. -/
def Cutting.step (scores : Pair → Bool) (size : Nat) (cutting : Cutting) (entry : Pair × Nat) :
    Cutting :=
  if scores entry.1 = false then cutting
  else
    let opens :=
      if cutting.taken % size = 0 then cutting.opens ++ [(entry.2, [])] else cutting.opens
    let ends := if cutting.taken % size = 0 then cutting.ends ++ [entry.2] else cutting.ends
    { opens := widenLast opens [entry.1.1, entry.1.2]
      ends := ends.dropLast ++ [entry.2]
      last := setLast (setLast cutting.last entry.1.1 (ends.length - 1)) entry.1.2
        (ends.length - 1)
      taken := cutting.taken + 1 }

/-- A pair the pass scores: a decided one whose sides it holds. -/
def scored (decide_ : Pair → Bool) (known : Nat → Bool) (pair : Pair) : Bool :=
  decide_ pair && known pair.1 && known pair.2

/-- `_score_chunks`: the sides each chunk opens with, and those each gives back. -/
def scoreChunks (ordered : List Pair) (decide_ : Pair → Bool) (known : Nat → Bool) (size : Nat) :
    List (Nat × List Nat) × List (Nat × List Nat) :=
  let cutting := ordered.zipIdx.foldl (Cutting.step (scored decide_ known) size) {}
  (cutting.opens, cutting.ends.zipIdx.map fun entry =>
    (entry.1, (cutting.last.filter fun side => decide (side.2 = entry.2)).map Prod.fst))

/-! ### The loop -/

/-- E92's counts over one gallery. -/
structure Evidence where
  nImages : Nat
  nPhash : Nat
  nClip : Nat
  nTags : Nat

def evidenceOf (images : List Image) : Evidence where
  nImages := images.length
  nPhash := images.countP fun image => image.phash.isSome
  nClip := images.countP fun image => image.clip.isSome
  nTags := images.countP Image.tagged

def Evidence.complete (evidence : Evidence) : Bool :=
  decide (evidence.nImages = 0 ∨ evidence.nImages ≤ evidence.nPhash ∧
    evidence.nImages ≤ evidence.nClip ∧ evidence.nImages ≤ evidence.nTags)

/-- E93: a merge waits for its photographs while a side is young. -/
structure EvidenceHold where
  now : ℚ
  horizonS : ℚ

def EvidenceHold.young (hold : EvidenceHold) (firstDecidedAt : Option ℚ) : Bool :=
  match firstDecidedAt with
  | none => true
  | some decidedAt => decide (hold.now - decidedAt < hold.horizonS)

def EvidenceHold.holds (hold : EvidenceHold) (evidence : Evidence) (firstDecidedAt : Option ℚ) :
    Bool :=
  !evidence.complete && hold.young firstDecidedAt

/-- `EVIDENCE_HOLD_REASON`. -/
def evidenceHoldReason : String := "evidence_pending"

/-- `PHOTO_FREE_CERTIFICATES`. -/
def photoFreeCertificates : List String := ["K-B", "K-R"]

/-- `UNIT_DESIGNATOR_VETO`. -/
def unitDesignatorVeto : String := "unit_designator_conflict"

/-- What `decide_pair` answers; the rest of the row it fills is `Detail`. -/
structure Judgement (Detail : Type) where
  zone : Zone
  certificate : Option String
  veto : Option String
  reason : String
  evidence : List (String × String)
  detail : Detail

/-- One stored pair. -/
structure PairRow (Detail : Type) where
  lo : Nat
  hi : Nat
  probes : List String
  fromLo : Bool
  fromHi : Bool
  zone : Zone
  certificate : Option String
  veto : Option String
  reason : String
  evidence : List (String × String)
  detail : Detail

/-- A wanted pair's probes and directions. -/
structure WantedEntry where
  probes : List String
  fromLo : Bool
  fromHi : Bool

/-- What the loop is given: the wanted pairs in key order, the rows it holds of their sides, the
pairs to decide among those whose sides have a row, what is stored, and the scoring of one pair
over its sides' galleries and derived features. -/
structure ScoreWork (Derived Detail : Type) where
  ordered : List Pair
  entry : Pair → WantedEntry
  sides : Nat → Bool
  decides : Pair → Bool
  sided : ∀ pair, decides pair = true → sides pair.1 = true ∧ sides pair.2 = true
  stored : Pair → Option (PairRow Detail)
  derived : Nat → Option Derived
  judge : Pair → WantedEntry → List Image × Option Derived → List Image × Option Derived →
    Judgement Detail
  refCodes : Option Derived → Option Derived → String
  hold : Option EvidenceHold
  decidedAt : Nat → Option ℚ

section Loop

variable {Derived Detail : Type}

namespace ScoreWork

variable (work : ScoreWork Derived Detail)

/-- A stored decision that stands is rewritten where its probes or directions moved. -/
def standing (pair : Pair) : Option (PairRow Detail) :=
  let entry := work.entry pair
  (work.stored pair).bind fun previous =>
    if sortedIds previous.probes.dedup ≠ sortedIds entry.probes.dedup ∨
        previous.fromLo ≠ entry.fromLo ∨ previous.fromHi ≠ entry.fromHi then
      some { previous with
        probes := sortedIds entry.probes.dedup, fromLo := entry.fromLo, fromHi := entry.fromHi }
    else none

/-- E93's test of one decision over the two galleries. -/
def held (judgement : Judgement Detail) (pair : Pair) (lo hi : List Image) : Bool :=
  work.hold.any fun hold =>
    decide (judgement.zone = .merge ∧ judgement.certificate.getD "" ∉ photoFreeCertificates) &&
      (hold.holds (evidenceOf lo) (work.decidedAt pair.1) ||
        hold.holds (evidenceOf hi) (work.decidedAt pair.2))

/-- The row of a pair scored over what its sides hold. -/
def scoredRow (pair : Pair) (lo hi : List Image × Option Derived) : PairRow Detail :=
  let entry := work.entry pair
  let judgement := work.judge pair entry lo hi
  let evidence :=
    if judgement.certificate = some "K-R" then
      judgement.evidence ++ [("ref_codes", work.refCodes lo.2 hi.2)]
    else judgement.evidence
  let waits := work.held judgement pair lo.1 hi.1
  { lo := pair.1
    hi := pair.2
    probes := sortedIds entry.probes.dedup
    fromLo := entry.fromLo
    fromHi := entry.fromHi
    zone := if waits then .band else judgement.zone
    certificate := if waits then none else judgement.certificate
    veto := judgement.veto
    reason := if waits then evidenceHoldReason else judgement.reason
    evidence :=
      if waits then
        evidence ++ [("held_zone", "merge"), ("held_reason", judgement.reason),
          ("held_certificate", judgement.certificate.getD "")]
      else evidence
    detail := judgement.detail }

/-- `_write_rows`: the listings whose merge edges or vetoes one row moved. -/
def movedBy (row : PairRow Detail) : Finset Nat :=
  if row.zone = .merge ∨ (work.stored (row.lo, row.hi)).any (fun previous =>
      decide (previous.zone = .merge)) = true ∨ row.veto = some unitDesignatorVeto then
    {row.lo, row.hi}
  else ∅

/-- `_write_rows`: every row's. -/
def movedByAll (rows : List (PairRow Detail)) : Finset Nat :=
  rows.foldl (fun moved row => moved ∪ work.movedBy row) ∅

end ScoreWork

/-- The loop between two pairs: the rows not written yet, and what the writes left. -/
structure ScoreState (Derived Detail : Type) where
  working : Working
  derived : Nat → Option Derived
  pending : List (PairRow Detail)
  written : List (PairRow Detail)
  moved : Finset Nat

/-- The loop's `RuntimeError`: a pair without its sides' CLIP vectors. -/
inductive ScoreError where
  | unvectored (pair : Pair)

namespace ScoreWork

variable (work : ScoreWork Derived Detail) (facts : FactSource)

/-- `_write_rows`. -/
def writeRows (state : ScoreState Derived Detail) : ScoreState Derived Detail :=
  { state with
    pending := []
    written := state.written ++ state.pending
    moved := state.moved ∪ work.movedByAll state.pending }

/-- A chunk closes: its rows are written and its sides given back, derived features included. -/
def closeChunk (ids : List Nat) (state : ScoreState Derived Detail) : ScoreState Derived Detail :=
  let state := work.writeRows state
  { state with
    working := state.working.release ids
    derived := fun listing => if listing ∈ ids then none else state.derived listing }

def openChunk (opened : Option (List Nat)) (state : ScoreState Derived Detail) :
    ScoreState Derived Detail :=
  match opened with
  | some ids => { state with working := state.working.ensure facts ids true }
  | none => state

/-- One wanted pair of the loop, its chunk opened. -/
def scorePair (closed : Option (List Nat)) (pair : Pair) (state : ScoreState Derived Detail) :
    Except ScoreError (ScoreState Derived Detail) :=
  if work.sides pair.1 = false ∨ work.sides pair.2 = false then .ok state
  else if work.decides pair = false then
    .ok { state with pending := state.pending ++ (work.standing pair).toList }
  else if pair.1 ∉ state.working.fps ∨ pair.2 ∉ state.working.fps then .ok state
  else if pair.1 ∉ state.working.vectored ∨ pair.2 ∉ state.working.vectored then
    .error (.unvectored pair)
  else
    let row := work.scoredRow pair (state.working.images pair.1, state.derived pair.1)
      (state.working.images pair.2, state.derived pair.2)
    let state := { state with pending := state.pending ++ [row] }
    match closed with
    | some ids => .ok (work.closeChunk ids state)
    | none => .ok state

/-- The loop over the wanted pairs. -/
def scorePairs (opens closes : List (Nat × List Nat)) :
    List (Pair × Nat) → ScoreState Derived Detail → Except ScoreError (ScoreState Derived Detail)
  | [], state => .ok state
  | entry :: rest, state =>
      (work.scorePair (closes.lookup entry.2) entry.1
        (openChunk facts (opens.lookup entry.2) state)).bind (scorePairs opens closes rest)

/-- The scoring loop of `run_pass`: the rows written and the listings they moved. -/
def scoreLoop (working : Working) (scoreChunk : Nat) :
    Except ScoreError (List (PairRow Detail) × Finset Nat) :=
  let chunks := scoreChunks work.ordered work.decides
    (fun listing => decide (listing ∈ working.fps)) (max 1 scoreChunk)
  (work.scorePairs facts chunks.1 chunks.2 work.ordered.zipIdx
    { working := working, derived := work.derived, pending := [], written := [], moved := ∅ }).map
      fun state => ((work.writeRows state).written, (work.writeRows state).moved)

end ScoreWork

end Loop

/-- The working set as the pass reached the loop: whatever `ensure` calls it made. -/
def gathered (facts : FactSource) (calls : List (List Nat × Bool)) : Working :=
  calls.foldl (fun working call => working.ensure facts call.1 call.2) .empty

end Sreality.Autodedup
