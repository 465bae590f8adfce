import Mathlib.Data.Prod.Lex
import Mathlib.Data.Rat.Defs
import Mathlib.Algebra.Order.Ring.Rat
import Sreality.Autodedup.Guards
import Sreality.Foundation.DisjointSets
import Sreality.Foundation.Rounds

/-! The repartition (`autodedup/repartition.py`): a component of the merge graph
that cannot be one group is cut into consistent cells by greedy unions, then
repaired by a local search, a reconciliation, whole-cell joins and sheds. -/

set_option autoImplicit false

namespace Sreality.Autodedup

open Sreality.Foundation

/-- Certificates first, then descending score, then ids. -/
abbrev Rank := Nat ×ₗ ℚ ×ₗ Nat ×ₗ Nat

def rankKey (certified : Bool) (score : ℚ) (lo hi : Nat) : Rank :=
  toLex (if certified then 0 else 1, toLex (-score, toLex (lo, hi)))

def certificateWeight : ℚ := 1000

structure Edge where
  lo : Nat
  hi : Nat
  score : ℚ
  certificate : Bool
  deriving DecidableEq

namespace Edge

def weight (edge : Edge) : ℚ :=
  (if edge.certificate then certificateWeight else 0) + 1 + edge.score

def rank (edge : Edge) : Rank :=
  rankKey edge.certificate edge.score edge.lo edge.hi

def ends (edge : Edge) : Pair := (edge.lo, edge.hi)

/-- The end of an edge across from a member. -/
def other (edge : Edge) (member : Nat) : Nat :=
  if edge.lo = member then edge.hi else edge.lo

end Edge

/-- The connected components of the merge graph, each ascending, in the order of
their first ids. -/
def components (members : List Nat) (edges : List Edge) : List (List Nat) :=
  let forest := Forest.singletons.linkAll (edges.map Edge.ends)
  (sortedGroups forest.find members).map Prod.snd

/-! ### Cells -/

/-- The cells under construction: where each member sits and what each index
holds. Indices are never reused; an emptied one stays empty. `leftBehind` is a
history no step reads: what each move left of the cell it took its member from. -/
structure Cells where
  home : Nat → Nat
  cell : Nat → List Nat
  count : Nat
  leftBehind : List (List Nat) := []

namespace Cells

/-- Every member in a cell of its own, in id order. -/
def singletons (members : List Nat) : Cells where
  home := fun member => (sortedIds members).idxOf member
  cell := fun index => ((sortedIds members)[index]?).toList
  count := members.length

/-- Pour one cell into another. -/
def join (cells : Cells) (loser keeper : Nat) : Cells where
  home := fun member => if member ∈ cells.cell loser then keeper else cells.home member
  cell := Function.update
    (Function.update cells.cell keeper (sortedIds (cells.cell keeper ++ cells.cell loser)))
    loser []
  count := cells.count
  leftBehind := cells.leftBehind

/-- Take one member out of its cell and into another. -/
def move (cells : Cells) (member target : Nat) : Cells where
  home := Function.update cells.home member target
  cell := Function.update
    (Function.update cells.cell (cells.home member)
      ((cells.cell (cells.home member)).erase member))
    target (sortedIds (cells.cell target ++ [member]))
  count := cells.count
  leftBehind := cells.leftBehind ++
    [sortedIds ((cells.cell (cells.home member)).erase member)]

/-- Put a member in a new cell of its own; where it sat is left as it was. -/
def peel (cells : Cells) (member : Nat) : Cells where
  home := Function.update cells.home member cells.count
  cell := Function.update cells.cell cells.count [member]
  count := cells.count + 1
  leftBehind := cells.leftBehind

/-- Join two cells less a cover, whose members become their own cells. -/
def shed (cells : Cells) (loser keeper : Nat) (kept cover : List Nat) : Cells :=
  let peeled := cover.foldl peel cells
  { home := fun member => if member ∈ kept then keeper else peeled.home member
    cell := Function.update (Function.update peeled.cell keeper kept) loser []
    count := peeled.count
    leftBehind := cells.leftBehind }

/-- The cells that hold anything, each ascending. -/
def groups (cells : Cells) : List (List Nat) :=
  (((List.range cells.count).map cells.cell).filter fun cell => !cell.isEmpty).map sortedIds

end Cells

/-! ### The dials of one partition -/

/-- What a partition is given: the refusals it tests and the repairs it runs. -/
structure PartitionSpec where
  invariants : List Nat → Option Invariant
  maxRounds : Nat := 4
  keepFactless : Bool := false
  rejoinCells : Bool := false
  rejoinInvariants : Option (List Nat → Option Invariant) := none
  shedBlockers : Option (List Nat → List Pair) := none
  shedMax : Nat := 1
  shedMaxUnion : Nat := 64
  outerRounds : Nat := 1
  shedFactlessGuard : FactlessGuard := .off
  reconcileFactlessFirst : Bool := false

/-- An edge is listed under each of its ends, in rank order. -/
def neighbours (ordered : List Edge) (member : Nat) : List Edge :=
  ordered.flatMap fun edge =>
    (if edge.lo = member then [edge] else []) ++ (if edge.hi = member then [edge] else [])

/-! ### The greedy unions -/

def greedyStep (invariants : List Nat → Option Invariant) (cells : Cells) (edge : Edge) : Cells :=
  let left := cells.home edge.lo
  let right := cells.home edge.hi
  if left = right then cells
  else if (invariants (sortedIds (cells.cell left ++ cells.cell right))).isSome then cells
  else cells.join (max left right) (min left right)

/-! ### The local search -/

/-- What a move does to the objective. -/
def gain (around : Nat → List Edge) (cells : Cells) (member target : Nat) : ℚ :=
  (around member).foldl (fun total edge =>
    let other := edge.other member
    if cells.home other = cells.home member ∧ other ≠ member then total - edge.weight
    else if cells.home other = target then total + edge.weight
    else total) 0

/-- The best strictly gaining target so far, and the targets already weighed. -/
structure Candidate where
  bestGain : ℚ := 0
  bestTarget : Option Nat := none
  seen : List Nat

def weighTarget (invariants : List Nat → Option Invariant) (around : Nat → List Edge)
    (cells : Cells) (member : Nat) (best : Candidate) (edge : Edge) : Candidate :=
  let target := cells.home (edge.other member)
  if target ∈ best.seen then best
  else
    let best := { best with seen := target :: best.seen }
    if (invariants (sortedIds (cells.cell target ++ [member]))).isSome then best
    else
      let delta := gain around cells member target
      if best.bestGain < delta then { best with bestGain := delta, bestTarget := some target }
      else best

def bestTarget (invariants : List Nat → Option Invariant) (around : Nat → List Edge)
    (cells : Cells) (member : Nat) : Option Nat :=
  ((around member).foldl (weighTarget invariants around cells member)
    { seen := [cells.home member] }).bestTarget

def searchStep (invariants : List Nat → Option Invariant) (around : Nat → List Edge)
    (swept : Cells × Bool) (member : Nat) : Cells × Bool :=
  match bestTarget invariants around swept.1 member with
  | none => swept
  | some target => (swept.1.move member target, true)

/-- One sweep of the single-member local search, in id order. -/
def search (invariants : List Nat → Option Invariant) (around : Nat → List Edge)
    (members : List Nat) (cells : Cells) : Cells × Bool :=
  (sortedIds members).foldl (searchStep invariants around) (cells, false)

/-! ### Reconciliation -/

/-- `_move_gain`: the same objective, an edge from a member to itself left out. -/
def moveGain (around : Nat → List Edge) (cells : Cells) (member target : Nat) : ℚ :=
  (around member).foldl (fun total edge =>
    let other := edge.other member
    if other = member then total
    else if cells.home other = cells.home member then total - edge.weight
    else if cells.home other = target then total + edge.weight
    else total) 0

/-- Whether every merge edge a member has where it sits is one a fact carries. -/
def onlyFactsSevered (around : Nat → List Edge) (blockers : Option (List Nat → List Pair))
    (cells : Cells) (member : Nat) : Bool :=
  match blockers with
  | none => false
  | some blockers =>
      let here := (cells.cell (cells.home member)).filter (· ≠ member)
      if here.isEmpty then false
      else
        let blocked := blockers (sortedIds here ++ [member])
        (around member).all fun edge =>
          let other := edge.other member
          decide (other = member) || decide (cells.home other ≠ cells.home member) ||
            decide ((min member other, max member other) ∈ blocked)

/-- A sweep over the cut edges: which members or cells it has touched, and
whether it moved anything. -/
structure Sweep where
  cells : Cells
  touched : List Nat := []
  moved : Bool := false

def reconcileMove (invariants : List Nat → Option Invariant)
    (weigh : Option (Nat → List Edge)) (blockers : Option (List Nat → List Pair))
    (sweep : Sweep) (member target : Nat) : Option Sweep :=
  if member ∈ sweep.touched then none
  else if sweep.cells.home member = target then none
  else if (invariants (sortedIds (sweep.cells.cell target ++ [member]))).isSome then none
  else if weigh.any fun around => decide (moveGain around sweep.cells member target < 0) &&
      !onlyFactsSevered around blockers sweep.cells member then none
  else some
    { cells := sweep.cells.move member target
      touched := member :: sweep.touched
      moved := true }

/-- Offer a cut edge its low end first, then its high end. -/
def reconcileStep (invariants : List Nat → Option Invariant)
    (weigh : Option (Nat → List Edge)) (blockers : Option (List Nat → List Pair))
    (sweep : Sweep) (edge : Edge) : Sweep :=
  let left := sweep.cells.home edge.lo
  let right := sweep.cells.home edge.hi
  if left = right then sweep
  else
    match reconcileMove invariants weigh blockers sweep edge.lo right with
    | some moved => moved
    | none =>
        match reconcileMove invariants weigh blockers sweep edge.hi left with
        | some moved => moved
        | none => sweep

def reconcile (ordered : List Edge) (invariants : List Nat → Option Invariant)
    (weigh : Option (Nat → List Edge)) (blockers : Option (List Nat → List Pair))
    (cells : Cells) : Cells × Bool :=
  let sweep := ordered.foldl (reconcileStep invariants weigh blockers) { cells := cells }
  (sweep.cells, sweep.moved)

/-! ### Whole-cell joins -/

def rejoinStep (invariants : List Nat → Option Invariant) (sweep : Sweep) (edge : Edge) : Sweep :=
  let left := sweep.cells.home edge.lo
  let right := sweep.cells.home edge.hi
  if left = right ∨ left ∈ sweep.touched ∨ right ∈ sweep.touched then sweep
  else if (invariants (sortedIds (sweep.cells.cell left ++ sweep.cells.cell right))).isSome then
    sweep
  else
    { cells := sweep.cells.join (max left right) (min left right)
      touched := left :: right :: sweep.touched
      moved := true }

def rejoin (ordered : List Edge) (invariants : List Nat → Option Invariant)
    (cells : Cells) : Cells × Bool :=
  let sweep := ordered.foldl (rejoinStep invariants) { cells := cells }
  (sweep.cells, sweep.moved)

/-! ### Sheds -/

/-- The merge evidence a cell of these members keeps inside it. -/
def weightInside (around : Nat → List Edge) (members : List Nat) : ℚ :=
  let inside := members.dedup
  (inside.map fun member =>
    (((around member).filter fun edge =>
      decide (edge.other member ∈ inside) && decide (edge.other member > member)).map
        Edge.weight).sum).sum

def blockedPairs (conflicts : List Pair) : List Pair :=
  conflicts.map fun pair => (min pair.1 pair.2, max pair.1 pair.2)

/-- The guard reads every edge, or the certified ones alone. -/
def guardReads (mode : FactlessGuard) (edge : Edge) : Bool :=
  mode != .certificate || edge.certificate

/-- The members of a union whose eviction would sever an edge no fact carries. -/
def dirtyMembers (around : Nat → List Edge) (blocked : List Pair) (union : List Nat)
    (mode : FactlessGuard) : List Nat :=
  union.filter fun member => (around member).any fun edge =>
    let other := edge.other member
    guardReads mode edge && decide (other ∈ union) && decide (other ≠ member) &&
      decide ((min member other, max member other) ∉ blocked)

/-- Whether a shed would cut a merge edge no stated fact carries; `core` asks
whether such edges outnumber the conflicts the eviction clears. -/
def seversFactless (around : Nat → List Edge) (conflicts : List Pair) (cover kept : List Nat)
    (mode : FactlessGuard) : Bool :=
  let blocked := (blockedPairs conflicts).dedup
  cover.any fun member =>
    let factless := ((around member).filter fun edge =>
      let other := edge.other member
      guardReads mode edge && decide (other ∈ kept) &&
        decide ((min member other, max member other) ∉ blocked)).length
    let facts := (blocked.filter fun pair => member == pair.1 || member == pair.2).length
    match mode with
    | .core => decide (facts < factless)
    | _ => decide (0 < factless)

/-- The order a cover is picked in: clean members first, then by degree, then id. -/
def coverKey (dirty : List Nat) (remaining : List Pair) (member : Nat) : Nat ×ₗ Int ×ₗ Nat :=
  let degree := (remaining.flatMap fun pair => [pair.1, pair.2]).count member
  toLex (if member ∈ dirty then 1 else 0, toLex (-(degree : Int), member))

def coverFrom (keep dirty : List Nat) : Nat → List Pair → List Nat → Option (List Nat)
  | _, [], chosen => some (sortedIds chosen)
  | 0, _ :: _, _ => none
  | fuel + 1, head :: rest, chosen =>
      let remaining := head :: rest
      let candidates :=
        ((remaining.flatMap fun pair => [pair.1, pair.2]).filter (· ∉ keep)).dedup
      match sortedBy (coverKey dirty remaining) candidates with
      | [] => none
      | pick :: _ =>
          coverFrom keep dirty fuel (remaining.filter fun pair => pair.1 ≠ pick ∧ pair.2 ≠ pick)
            (chosen ++ [pick])

/-- The members whose removal clears every conflict, picked greedily, at most
`limit` of them. -/
def cover (conflicts : List Pair) (keep : List Nat) (limit : Nat) (dirty : List Nat) :
    Option (List Nat) :=
  coverFrom keep dirty limit conflicts []

/-- The cover a cut edge may shed and what the joined cell then keeps, where the
move is allowed and strictly gains. -/
def shedMove (around : Nat → List Edge) (spec : PartitionSpec)
    (blockers : List Nat → List Pair) (sweep : Sweep) (edge : Edge) :
    Option (List Nat × List Nat) :=
  let left := sweep.cells.home edge.lo
  let right := sweep.cells.home edge.hi
  let union := sortedIds (sweep.cells.cell left ++ sweep.cells.cell right)
  let keep := [edge.lo, edge.hi]
  let conflicts := blockers union
  let guard := spec.shedFactlessGuard
  if left = right ∨ left ∈ sweep.touched ∨ right ∈ sweep.touched then none
  else if spec.shedMaxUnion < union.length ∨ (spec.invariants union).isNone then none
  else if conflicts = [] ∨ ∃ pair ∈ conflicts, pair.1 ∈ keep ∧ pair.2 ∈ keep then none
  else
    let dirty :=
      if guard = .off then [] else dirtyMembers around (blockedPairs conflicts) union guard
    match cover conflicts keep spec.shedMax dirty with
    | none => none
    | some cover =>
        let kept := union.filter (· ∉ cover)
        if (spec.invariants kept).isSome then none
        else if guard ≠ .off ∧ seversFactless around conflicts cover kept guard then none
        else if weightInside around kept ≤ weightInside around (sweep.cells.cell left) +
            weightInside around (sweep.cells.cell right) then none
        else some (kept, cover)

def shedStep (around : Nat → List Edge) (spec : PartitionSpec)
    (blockers : List Nat → List Pair) (sweep : Sweep) (edge : Edge) : Sweep :=
  let left := sweep.cells.home edge.lo
  let right := sweep.cells.home edge.hi
  match shedMove around spec blockers sweep edge with
  | none => sweep
  | some (kept, cover) =>
      { cells := sweep.cells.shed (max left right) (min left right) kept cover
        touched := left :: right :: sweep.touched
        moved := true }

def shed (ordered : List Edge) (around : Nat → List Edge) (spec : PartitionSpec)
    (blockers : List Nat → List Pair) (cells : Cells) : Cells × Bool :=
  let sweep := ordered.foldl (shedStep around spec blockers) { cells := cells }
  (sweep.cells, sweep.moved)

/-! ### The whole pass -/

/-- The reconciliation with the weighing and the facts the dials give it. -/
def reconcileSweep (ordered : List Edge) (spec : PartitionSpec) (cells : Cells) : Cells × Bool :=
  let weigh := if spec.shedBlockers.isSome then some (neighbours ordered) else none
  let blockedFor := if spec.reconcileFactlessFirst then spec.shedBlockers else none
  reconcile ordered spec.invariants weigh blockedFor cells

/-- A sweep that, where it moved something, is followed by one reconciliation. -/
def thenReconcile (ordered : List Edge) (spec : PartitionSpec)
    (sweep : Cells → Cells × Bool) (cells : Cells) : Cells × Bool :=
  let swept := sweep cells
  if swept.2 && spec.keepFactless then ((reconcileSweep ordered spec swept.1).1, true) else swept

/-- A repair that runs behind a dial. -/
def when (dial : Bool) (repair : Cells → Cells × Bool) (cells : Cells) : Cells × Bool :=
  if dial then repair cells else (cells, false)

/-- Search, then every repair pass in turn. -/
def repair (members : List Nat) (ordered : List Edge) (spec : PartitionSpec)
    (cells : Cells) : Cells × Bool :=
  let around := neighbours ordered
  let searched := rounds (search spec.invariants around members) spec.maxRounds cells
  let reconciled := when spec.keepFactless
    (rounds (reconcileSweep ordered spec) spec.maxRounds) searched.1
  let strict := spec.rejoinInvariants.getD spec.invariants
  let rejoined := when spec.rejoinCells
    (rounds (thenReconcile ordered spec (rejoin ordered strict)) spec.maxRounds) reconciled.1
  let shedded := when spec.shedBlockers.isSome
    (rounds (thenReconcile ordered spec
      (shed ordered around spec (spec.shedBlockers.getD fun _ => []))) spec.maxRounds) rejoined.1
  (shedded.1, searched.2 || reconciled.2 || rejoined.2 || shedded.2)

/-- The cells a component is cut into. -/
def cutCells (members : List Nat) (edges : List Edge) (spec : PartitionSpec) : Cells :=
  let ordered := sortedBy Edge.rank edges
  let greedy := ordered.foldl (greedyStep spec.invariants) (Cells.singletons members)
  (rounds (repair members ordered spec) (max 1 spec.outerRounds) greedy).1

/-- Cut one component into consistent groups. -/
def partition (members : List Nat) (edges : List Edge) (spec : PartitionSpec) :
    List (List Nat) :=
  (cutCells members edges spec).groups

end Sreality.Autodedup
