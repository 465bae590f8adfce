import Mathlib.Algebra.BigOperators.Group.List.Basic
import Mathlib.Algebra.Order.BigOperators.Group.List
import Mathlib.Data.List.Sublists
import Mathlib.Tactic.Linarith
import Mathlib.Tactic.Ring
import Sreality.Autodedup.PartitionMembersProperties

/-! The repairs of a partition climb one objective, the weight of the merge edges inside cells.
The gain of a move and the cell weights a shed compares are its true change; a join adds what
the edges between its two cells weigh. -/

set_option autoImplicit false

namespace Sreality.Autodedup

open Sreality.Foundation

/-- The merge evidence inside cells. -/
def evidenceInside (ordered : List Edge) (cells : Cells) : ℚ :=
  ((ordered.filter fun edge => cells.home edge.lo = cells.home edge.hi).map Edge.weight).sum

/-- What the edges from one cell to another weigh. -/
def evidenceBetween (ordered : List Edge) (cells : Cells) (left right : Nat) : ℚ :=
  ((ordered.filter fun edge =>
    (cells.home edge.lo = left ∧ cells.home edge.hi = right) ∨
      (cells.home edge.lo = right ∧ cells.home edge.hi = left)).map Edge.weight).sum

section Weights

variable {ordered : List Edge} {cells : Cells}

theorem sum_filter_weight (keep : Edge → Bool) (edges : List Edge) :
    ((edges.filter keep).map Edge.weight).sum =
      (edges.map fun edge => if keep edge = true then edge.weight else 0).sum := by
  induction edges with
  | nil => rfl
  | cons edge rest ih =>
      by_cases kept : keep edge = true
      · rw [List.filter_cons_of_pos kept, List.map_cons, List.sum_cons, ih, List.map_cons,
          List.sum_cons, if_pos kept]
      · rw [List.filter_cons_of_neg kept, ih, List.map_cons, List.sum_cons, if_neg kept, zero_add]

theorem evidenceInside_eq_sum : evidenceInside ordered cells =
    (ordered.map fun edge =>
      if cells.home edge.lo = cells.home edge.hi then edge.weight else 0).sum := by
  unfold evidenceInside
  rw [sum_filter_weight]
  simp only [decide_eq_true_iff]

/-! ### The gain of a move -/

/-- What one edge adds to the gain of a move. -/
def gainOf (cells : Cells) (member target : Nat) (edge : Edge) : ℚ :=
  if cells.home (edge.other member) = cells.home member ∧ edge.other member ≠ member then
    -edge.weight
  else if cells.home (edge.other member) = target then edge.weight
  else 0

theorem foldl_gain (member target : Nat) (edges : List Edge) : ∀ total : ℚ,
    edges.foldl (fun total edge =>
      let other := edge.other member
      if cells.home other = cells.home member ∧ other ≠ member then total - edge.weight
      else if cells.home other = target then total + edge.weight
      else total) total = total + (edges.map (gainOf cells member target)).sum := by
  induction edges with
  | nil => exact fun total => (add_zero total).symm
  | cons edge rest ih =>
      intro total
      rw [List.foldl_cons, ih, List.map_cons, List.sum_cons, ← add_assoc]
      congr 1
      unfold gainOf
      dsimp only
      split_ifs
      · exact sub_eq_add_neg _ _
      · rfl
      · exact (add_zero total).symm

theorem gain_eq_sum (around : Nat → List Edge) (member target : Nat) :
    gain around cells member target = ((around member).map (gainOf cells member target)).sum := by
  unfold gain
  rw [foldl_gain, zero_add]

/-- On one edge the gain is the change of what lies inside. -/
theorem gainOf_edge {member target : Nat} (away : target ≠ cells.home member) (edge : Edge) :
    (((if edge.lo = member then [edge] else []) ++
        if edge.hi = member then [edge] else []).map (gainOf cells member target)).sum =
      (if (cells.move member target).home edge.lo = (cells.move member target).home edge.hi then
          edge.weight else 0) -
        if cells.home edge.lo = cells.home edge.hi then edge.weight else 0 := by
  simp only [Cells.move, Function.update_apply]
  by_cases low : edge.lo = member
  · by_cases high : edge.hi = member
    · -- An edge from a member to itself is listed twice and weighs nothing either time.
      simp [low, high, gainOf, Edge.other, away.symm]
    · simp only [low, high, if_true, if_false, List.append_nil, List.map_cons, List.map_nil,
        List.sum_cons, List.sum_nil, add_zero, gainOf, Edge.other]
      by_cases here : cells.home edge.hi = cells.home member
      · simp [here, high, away]
      · by_cases there : cells.home edge.hi = target
        · simp [there, away, Ne.symm away, high]
        · simp [here, there, Ne.symm here, Ne.symm there, high]
  · by_cases high : edge.hi = member
    · simp only [low, high, if_true, if_false, List.nil_append, List.map_cons, List.map_nil,
        List.sum_cons, List.sum_nil, add_zero, gainOf, Edge.other]
      by_cases here : cells.home edge.lo = cells.home member
      · simp [here, low, Ne.symm away]
      · by_cases there : cells.home edge.lo = target
        · simp [there, away, low]
        · simp [here, there, low]
    · simp [low, high]

/-- The gain of a move is its change of the objective. -/
theorem evidenceInside_move {member target : Nat} (away : target ≠ cells.home member) :
    evidenceInside ordered (cells.move member target) =
      evidenceInside ordered cells + gain (neighbours ordered) cells member target := by
  rw [gain_eq_sum, evidenceInside_eq_sum, evidenceInside_eq_sum]
  induction ordered with
  | nil => simp [neighbours]
  | cons edge rest ih =>
      have here := gainOf_edge away edge
      unfold neighbours at ih ⊢
      rw [List.flatMap_cons, List.map_append, List.sum_append, here, List.map_cons, List.sum_cons,
        ih, List.map_cons, List.sum_cons]
      ring

/-- A target the search settles on strictly gains. -/
theorem bestTarget_gains {invariants : List Nat → Option Invariant} {around : Nat → List Edge}
    {member target : Nat} (found : bestTarget invariants around cells member = some target) :
    0 < gain around cells member target := by
  have kept : 0 ≤ ((around member).foldl (weighTarget invariants around cells member)
        { seen := [cells.home member] }).bestGain ∧
      ∀ chosen, ((around member).foldl (weighTarget invariants around cells member)
          { seen := [cells.home member] }).bestTarget = some chosen →
        0 < gain around cells member chosen := by
    refine foldl_invariant (fun best : Candidate => 0 ≤ best.bestGain ∧
      ∀ chosen, best.bestTarget = some chosen → 0 < gain around cells member chosen) ?_
      ⟨le_rfl, by simp⟩
    rintro best ⟨nonnegative, offered⟩ edge _
    unfold weighTarget
    dsimp only
    split_ifs with already refused better
    · exact ⟨nonnegative, offered⟩
    · exact ⟨nonnegative, offered⟩
    · refine ⟨nonnegative.trans better.le, ?_⟩
      intro chosen equal
      obtain rfl := Option.some.inj equal
      exact lt_of_le_of_lt nonnegative better
    · exact ⟨nonnegative, offered⟩
  exact kept.2 target found

/-! ### The weight of a cell -/

/-- What one edge adds to the weight of a cell that holds these members. -/
def weightIn (members : List Nat) (edge : Edge) : ℚ :=
  if edge.lo ≠ edge.hi ∧ edge.lo ∈ members ∧ edge.hi ∈ members then edge.weight else 0

theorem sum_single {members : List Nat} (distinct : members.Nodup) (item : Nat) (value : ℚ) :
    (members.map fun member => if member = item then value else 0).sum =
      if item ∈ members then value else 0 := by
  induction members with
  | nil => rfl
  | cons head rest ih =>
      obtain ⟨fresh, restDistinct⟩ := List.nodup_cons.mp distinct
      rw [List.map_cons, List.sum_cons, ih restDistinct]
      by_cases same : head = item
      · subst same
        rw [if_pos rfl, if_neg fresh, if_pos List.mem_cons_self, add_zero]
      · have elsewhere : item ∈ head :: rest ↔ item ∈ rest := by
          rw [List.mem_cons, or_iff_right (Ne.symm same)]
        rw [if_neg same, zero_add]
        simp only [elsewhere]

/-- An edge is counted at its lower end, and there once. -/
theorem weightIn_edge {inside : List Nat} (edge : Edge) {member : Nat} (held : member ∈ inside) :
    ((((if edge.lo = member then [edge] else []) ++ if edge.hi = member then [edge] else []).filter
        fun edge => decide (edge.other member ∈ inside) && decide (edge.other member > member)).map
          Edge.weight).sum =
      if member = min edge.lo edge.hi then weightIn inside edge else 0 := by
  by_cases low : edge.lo = member
  · by_cases high : edge.hi = member
    · simp [low, high, Edge.other, weightIn]
    · by_cases above : member < edge.hi
      · by_cases far : edge.hi ∈ inside
        · simp [low, high, Edge.other, weightIn, above, far, held, min_eq_left above.le,
            Ne.symm high]
        · simp [low, high, Edge.other, weightIn, far]
      · have below : edge.hi ≤ member := not_lt.mp above
        simp [low, high, Edge.other, above, min_eq_right below, Ne.symm high]
  · by_cases high : edge.hi = member
    · by_cases above : member < edge.lo
      · by_cases far : edge.lo ∈ inside
        · simp [low, high, Edge.other, weightIn, above, far, held, min_eq_right above.le]
        · simp [low, high, Edge.other, weightIn, far]
      · have below : edge.lo ≤ member := not_lt.mp above
        simp [low, high, Edge.other, above, min_eq_left below, Ne.symm low]
    · have neither : member ≠ min edge.lo edge.hi := by
        rcases min_choice edge.lo edge.hi with choice | choice <;> rw [choice]
        · exact Ne.symm low
        · exact Ne.symm high
      simp [low, high, neither]

theorem weightInside_eq_sum (members : List Nat) : weightInside (neighbours ordered) members =
    (ordered.map (weightIn members)).sum := by
  unfold weightInside
  dsimp only
  induction ordered with
  | nil => simp [neighbours]
  | cons edge rest ih =>
      have here : (members.dedup.map fun member =>
          if member = min edge.lo edge.hi then weightIn members.dedup edge else 0).sum =
            weightIn members edge := by
        rw [sum_single (List.nodup_dedup members)]
        unfold weightIn
        simp only [List.mem_dedup]
        split_ifs with ends inside
        · rfl
        · rfl
        · rename_i both
          rcases min_choice edge.lo edge.hi with choice | choice <;> rw [choice] at ends
          · exact absurd both.2.1 ends
          · exact absurd both.2.2 ends
        · rfl
      rw [List.map_cons, List.sum_cons, ← ih, ← here, ← List.sum_map_add]
      refine congrArg List.sum (List.map_congr_left fun member held => ?_)
      rw [← weightIn_edge edge held, ← List.sum_append, ← List.map_append, ← List.filter_append]
      rfl

end Weights

/-! ### Joins and sheds -/

section Cells

variable {members : List Nat} {cells : Cells}

theorem Placed.mem_cell (placed : Placed members cells) {member : Nat} (known : member ∈ members)
    (index : Nat) : member ∈ cells.cell index ↔ cells.home member = index := by
  constructor
  · exact fun held => (placed.owned index member held).2
  · rintro rfl
    exact placed.homed member known

theorem Placed.home_join (placed : Placed members cells) {member : Nat} (known : member ∈ members)
    (loser keeper : Nat) : (cells.join loser keeper).home member =
      if cells.home member = loser then keeper else cells.home member := by
  simp only [Cells.join, placed.mem_cell known]

/-- After a shed two members share a cell where both are kept, or both were in a cell it left
alone. -/
theorem Placed.home_shed_eq_iff (placed : Placed members cells) {loser keeper : Nat}
    {kept cover : List Nat} (apart : keeper ≠ loser) (bounded : keeper < cells.count)
    (parts : (kept ++ cover).Perm (cells.cell keeper ++ cells.cell loser)) {left right : Nat}
    (leftKnown : left ∈ members) (rightKnown : right ∈ members) (differ : left ≠ right) :
    (cells.shed loser keeper kept cover).home left =
        (cells.shed loser keeper kept cover).home right ↔
      (left ∈ kept ∧ right ∈ kept) ∨ (cells.home left = cells.home right ∧
        cells.home left ≠ keeper ∧ cells.home left ≠ loser) := by
  have distinct : (kept ++ cover).Nodup := parts.nodup_iff.mpr (placed.union_nodup apart)
  obtain ⟨_, coverDistinct, separate⟩ := List.nodup_append.mp distinct
  have shared : ∀ member ∈ members, (member ∈ kept ∨ member ∈ cover) ↔
      (cells.home member = keeper ∨ cells.home member = loser) := by
    intro member known
    rw [← List.mem_append, parts.mem_iff, List.mem_append, placed.mem_cell known,
      placed.mem_cell known]
  have below : ∀ member ∈ members, cells.home member < cells.count :=
    fun member known => placed.home_bounded known
  have leftBelow := below left leftKnown
  have rightBelow := below right rightKnown
  have leftShared := shared left leftKnown
  have rightShared := shared right rightKnown
  rw [Cells.home_shed coverDistinct, Cells.home_shed coverDistinct]
  by_cases leftKept : left ∈ kept
  · have leftTogether := leftShared.mp (.inl leftKept)
    by_cases rightKept : right ∈ kept
    · simp [leftKept, rightKept]
    · by_cases rightCovered : right ∈ cover
      · have rightTogether := rightShared.mp (.inr rightCovered)
        simp only [leftKept, rightKept, rightCovered, if_true, if_false]
        constructor
        · intro met
          omega
        · rintro (⟨_, held⟩ | ⟨same, notKeeper, notLoser⟩)
          · exact held.elim
          · exact absurd leftTogether (not_or.mpr ⟨notKeeper, notLoser⟩)
      · have rightApart := mt rightShared.mpr (not_or.mpr ⟨rightKept, rightCovered⟩)
        simp only [leftKept, rightKept, rightCovered, if_true, if_false]
        constructor
        · intro met
          exact absurd (.inl met.symm) rightApart
        · rintro (⟨_, held⟩ | ⟨same, notKeeper, notLoser⟩)
          · exact held.elim
          · exact absurd leftTogether (not_or.mpr ⟨notKeeper, notLoser⟩)
  · by_cases leftCovered : left ∈ cover
    · have leftTogether := leftShared.mp (.inr leftCovered)
      have nowhere : ¬ (cells.home left ≠ keeper ∧ cells.home left ≠ loser) :=
        fun away => leftTogether.elim away.1 away.2
      by_cases rightKept : right ∈ kept
      · simp only [leftKept, leftCovered, rightKept, if_true, if_false, false_and, false_or]
        constructor
        · intro met
          omega
        · exact fun same => absurd same.2 nowhere
      · by_cases rightCovered : right ∈ cover
        · simp only [leftKept, leftCovered, rightKept, rightCovered, if_true, if_false, false_and,
            false_or]
          constructor
          · intro met
            have position : cover.idxOf left = cover.idxOf right := by omega
            exact absurd ((List.idxOf_inj leftCovered).mp position) differ
          · exact fun same => absurd same.2 nowhere
        · simp only [leftKept, leftCovered, rightKept, rightCovered, if_true, if_false, false_and,
            false_or]
          constructor
          · intro met
            omega
          · exact fun same => absurd same.2 nowhere
    · have leftApart := mt leftShared.mpr (not_or.mpr ⟨leftKept, leftCovered⟩)
      have elsewhere := not_or.mp leftApart
      by_cases rightKept : right ∈ kept
      · have rightTogether := rightShared.mp (.inl rightKept)
        simp only [leftKept, leftCovered, rightKept, if_true, if_false, false_and, false_or]
        constructor
        · exact fun met => absurd met elsewhere.1
        · rintro ⟨same, _⟩
          rw [same] at elsewhere
          exact absurd rightTogether (not_or.mpr elsewhere)
      · by_cases rightCovered : right ∈ cover
        · have rightTogether := rightShared.mp (.inr rightCovered)
          simp only [leftKept, leftCovered, rightKept, rightCovered, if_true, if_false, false_and,
            false_or]
          constructor
          · intro met
            omega
          · rintro ⟨same, _⟩
            rw [same] at elsewhere
            exact absurd rightTogether (not_or.mpr elsewhere)
        · simp only [leftKept, leftCovered, rightKept, rightCovered, if_false, false_and,
            false_or]
          exact ⟨fun same => ⟨same, elsewhere⟩, fun same => same.1⟩

variable {ordered : List Edge}

/-- A join adds what the edges between its two cells weigh. -/
theorem evidenceInside_join (placed : Placed members cells) (inside : EdgesInside members ordered)
    {loser keeper : Nat} (apart : keeper ≠ loser) :
    evidenceInside ordered (cells.join loser keeper) =
      evidenceInside ordered cells + evidenceBetween ordered cells keeper loser := by
  unfold evidenceBetween
  rw [evidenceInside_eq_sum, evidenceInside_eq_sum, sum_filter_weight, ← List.sum_map_add]
  refine congrArg List.sum (List.map_congr_left fun edge listed => ?_)
  obtain ⟨lowKnown, highKnown⟩ := inside edge listed
  rw [placed.home_join lowKnown, placed.home_join highKnown]
  by_cases low : cells.home edge.lo = loser
  · by_cases high : cells.home edge.hi = loser
    · simp [low, high, Ne.symm apart]
    · by_cases there : cells.home edge.hi = keeper
      · simp [low, there, apart, Ne.symm apart]
      · simp [low, high, there, Ne.symm high, Ne.symm there]
  · by_cases high : cells.home edge.hi = loser
    · by_cases there : cells.home edge.lo = keeper
      · simp [high, there, apart]
      · simp [low, high, there]
    · simp [low, high]

/-- A shed trades the weights of two cells for that of the cell it keeps. -/
theorem evidenceInside_shed (placed : Placed members cells) (inside : EdgesInside members ordered)
    {loser keeper : Nat} {kept cover : List Nat} (apart : keeper ≠ loser)
    (bounded : keeper < cells.count)
    (parts : (kept ++ cover).Perm (cells.cell keeper ++ cells.cell loser)) :
    evidenceInside ordered (cells.shed loser keeper kept cover) +
        (weightInside (neighbours ordered) (cells.cell keeper) +
          weightInside (neighbours ordered) (cells.cell loser)) =
      evidenceInside ordered cells + weightInside (neighbours ordered) kept := by
  rw [weightInside_eq_sum, weightInside_eq_sum, weightInside_eq_sum, evidenceInside_eq_sum,
    evidenceInside_eq_sum, ← List.sum_map_add, ← List.sum_map_add, ← List.sum_map_add]
  refine congrArg List.sum (List.map_congr_left fun edge listed => ?_)
  obtain ⟨lowKnown, highKnown⟩ := inside edge listed
  have keptTogether : ∀ member ∈ kept,
      cells.home member = keeper ∨ cells.home member = loser := by
    intro member held
    have listed := parts.mem_iff.mp (List.mem_append_left _ held)
    cases List.mem_append.mp listed with
    | inl first => exact .inl (placed.owned _ member first).2
    | inr second => exact .inr (placed.owned _ member second).2
  unfold weightIn
  simp only [placed.mem_cell lowKnown, placed.mem_cell highKnown]
  by_cases loop : edge.lo = edge.hi
  · simp [loop]
  · simp only [placed.home_shed_eq_iff apart bounded parts lowKnown highKnown loop, ne_eq, loop,
      not_false_eq_true, true_and]
    by_cases both : edge.lo ∈ kept ∧ edge.hi ∈ kept
    · have lowShared := keptTogether _ both.1
      have highShared := keptTogether _ both.2
      simp only [both, and_self, true_or, if_true]
      rcases lowShared with low | low <;> rcases highShared with high | high <;>
        simp [low, high, apart, Ne.symm apart]
    · simp only [both, false_or, if_false, add_zero]
      by_cases same : cells.home edge.lo = cells.home edge.hi
      · by_cases low : cells.home edge.lo = keeper
        · simp [← same, low, apart]
        · by_cases other : cells.home edge.lo = loser
          · simp [← same, other, Ne.symm apart]
          · simp [← same, low, other]
      · have notKeeper : ¬ (cells.home edge.lo = keeper ∧ cells.home edge.hi = keeper) :=
          fun met => same (met.1.trans met.2.symm)
        have notLoser : ¬ (cells.home edge.lo = loser ∧ cells.home edge.hi = loser) :=
          fun met => same (met.1.trans met.2.symm)
        simp [same, notKeeper, notLoser]

theorem evidenceBetween_comm (left right : Nat) :
    evidenceBetween ordered cells left right = evidenceBetween ordered cells right left := by
  unfold evidenceBetween
  refine congrArg List.sum (congrArg (List.map Edge.weight) (List.filter_congr fun edge _ => ?_))
  rw [decide_eq_decide]
  exact or_comm

theorem evidenceInside_joinHomes (placed : Placed members cells)
    (inside : EdgesInside members ordered) {left right : Nat} (apart : left ≠ right) :
    evidenceInside ordered (cells.join (max left right) (min left right)) =
      evidenceInside ordered cells + evidenceBetween ordered cells left right := by
  rw [evidenceInside_join placed inside (by omega)]
  rcases lt_or_gt_of_ne apart with below | above
  · rw [min_eq_left below.le, max_eq_right below.le]
  · rw [min_eq_right above.le, max_eq_left above.le, evidenceBetween_comm]

theorem evidenceInside_shedStep {spec : PartitionSpec} {sweep : Sweep}
    (placed : Placed members sweep.cells) (inside : EdgesInside members ordered)
    {blockers : List Nat → List Pair} (within : NamesWithin members blockers) {edge : Edge}
    (listed : edge ∈ ordered) {kept cover : List Nat}
    (moved : shedMove (neighbours ordered) spec blockers sweep edge = some (kept, cover)) :
    evidenceInside ordered sweep.cells < evidenceInside ordered
      (shedStep (neighbours ordered) spec blockers sweep edge).cells := by
  obtain ⟨apart, _, parts⟩ := shedMove_eq_some within placed moved
  have lowBounded := placed.home_bounded (inside edge listed).1
  have highBounded := placed.home_bounded (inside edge listed).2
  have outweighs : weightInside (neighbours ordered) (sweep.cells.cell (sweep.cells.home edge.lo)) +
      weightInside (neighbours ordered) (sweep.cells.cell (sweep.cells.home edge.hi)) <
        weightInside (neighbours ordered) kept := by
    unfold shedMove at moved
    dsimp only at moved
    split_ifs at moved with skipped sized conflicted
    all_goals
      split at moved
      · cases moved
      split_ifs at moved with refused severs lighter
      cases moved
      exact not_le.mp lighter
  unfold shedStep
  rw [moved]
  dsimp only
  rcases lt_or_gt_of_ne apart with below | above
  · rw [min_eq_left below.le, max_eq_right below.le]
    have traded := evidenceInside_shed placed inside apart lowBounded parts
    linarith
  · rw [min_eq_right above.le, max_eq_left above.le]
    have traded := evidenceInside_shed placed inside apart.symm highBounded
      (parts.trans List.perm_append_comm)
    linarith

end Cells

/-! ### Sequences of repairs -/

section Sequences

variable (members : List Nat) (ordered : List Edge) (spec : PartitionSpec)

/-- A move, join or shed one of the sweeps accepts. -/
inductive Improvement (cells : Cells) : Cells → Prop where
  | move {member target : Nat} (known : member ∈ members)
      (found : bestTarget spec.invariants (neighbours ordered) cells member = some target) :
      Improvement cells (cells.move member target)
  | join {edge : Edge} (listed : edge ∈ ordered)
      (apart : cells.home edge.lo ≠ cells.home edge.hi)
      (accepted : spec.rejoinInvariants.getD spec.invariants
        (sortedIds (cells.cell (cells.home edge.lo) ++ cells.cell (cells.home edge.hi))) = none) :
      Improvement cells (cells.join (max (cells.home edge.lo) (cells.home edge.hi))
        (min (cells.home edge.lo) (cells.home edge.hi)))
  | shed {edge : Edge} (listed : edge ∈ ordered) {blockers : List Nat → List Pair}
      (given : spec.shedBlockers = some blockers) (touched : List Nat) (moved : Bool)
      {kept cover : List Nat}
      (found : shedMove (neighbours ordered) spec blockers
        { cells := cells, touched := touched, moved := moved } edge = some (kept, cover)) :
      Improvement cells (shedStep (neighbours ordered) spec blockers
        { cells := cells, touched := touched, moved := moved } edge).cells

variable {members ordered spec}
variable {cells next : Cells}

theorem Improvement.turn (improvement : Improvement members ordered spec cells next) :
    Turn members ordered spec cells next := by
  cases improvement with
  | move known found =>
      have turn : Turn members ordered spec cells
          (searchStep spec.invariants (neighbours ordered) (cells, false) _).1 :=
        .search known false
      unfold searchStep at turn
      rw [found] at turn
      exact turn
  | join listed apart accepted =>
      have turn : Turn members ordered spec cells _ := .rejoin listed [] false
      unfold rejoinStep at turn
      simpa [apart, accepted] using turn
  | shed listed given touched moved _ => exact .shed listed given touched moved

/-- The three kinds of repair: each raises the objective, a join by what runs between its cells. -/
theorem Improvement.raises (placed : Placed members cells) (inside : EdgesInside members ordered)
    (within : ∀ blockers ∈ spec.shedBlockers, NamesWithin members blockers)
    (scored : ∀ edge ∈ ordered, 0 ≤ edge.score)
    (improvement : Improvement members ordered spec cells next) :
    evidenceInside ordered cells < evidenceInside ordered next := by
  cases improvement with
  | move known found =>
      rw [evidenceInside_move (bestTarget_eq_some found).1]
      exact lt_add_of_pos_right _ (bestTarget_gains found)
  | @join edge listed apart _ =>
      rw [evidenceInside_joinHomes placed inside apart]
      apply lt_add_of_pos_right
      -- The edge the join was offered for runs between the two cells.
      have heavy : ∀ other ∈ ordered, 0 < other.weight := by
        intro other known
        have nonnegative := scored other known
        unfold Edge.weight certificateWeight
        split_ifs <;> linarith
      unfold evidenceBetween
      refine List.sum_pos _ ?_ ?_
      · intro weight held
        obtain ⟨other, known, rfl⟩ := List.mem_map.mp held
        exact heavy other (List.mem_of_mem_filter known)
      · refine List.ne_nil_of_mem (List.mem_map_of_mem (List.mem_filter.mpr ⟨listed, ?_⟩))
        simp
  | shed listed given touched moved found =>
      have placedSweep : Placed members (Sweep.mk cells touched moved).cells := placed
      exact evidenceInside_shedStep placedSweep inside (within _ given) listed found

/-! ### A sweep is a sequence of them -/

/-- A pass that leaves the cells alone and says so, or improves them. -/
def Improves (members : List Nat) (ordered : List Edge) (spec : PartitionSpec)
    (pass : Cells → Cells × Bool) : Prop :=
  ∀ cells, pass cells = (cells, false) ∨
    ((pass cells).2 = true ∧
      Relation.TransGen (Improvement members ordered spec) cells (pass cells).1)

theorem search_improves :
    Improves members ordered spec (search spec.invariants (neighbours ordered) members) := by
  intro cells
  refine foldl_invariant (fun swept : Cells × Bool => swept = (cells, false) ∨
    (swept.2 = true ∧ Relation.TransGen (Improvement members ordered spec) cells swept.1)) ?_
    (.inl rfl)
  intro swept before member listed
  unfold searchStep
  cases found : bestTarget spec.invariants (neighbours ordered) swept.1 member with
  | none => exact before
  | some target =>
      have step : Improvement members ordered spec swept.1 (swept.1.move member target) :=
        .move (mem_sortedBy.mp listed) found
      right
      refine ⟨rfl, ?_⟩
      cases before with
      | inl fresh =>
          subst fresh
          exact .single step
      | inr moved => exact moved.2.tail step

theorem sweep_improves {step : Sweep → Edge → Sweep}
    (takes : ∀ sweep, ∀ edge ∈ ordered, step sweep edge = sweep ∨
      ((step sweep edge).moved = true ∧
        Improvement members ordered spec sweep.cells (step sweep edge).cells)) :
    Improves members ordered spec fun cells =>
      ((ordered.foldl step { cells := cells }).cells,
        (ordered.foldl step { cells := cells }).moved) := by
  intro cells
  have kept : ((ordered.foldl step { cells := cells }).cells = cells ∧
        (ordered.foldl step { cells := cells }).moved = false) ∨
      ((ordered.foldl step { cells := cells }).moved = true ∧
        Relation.TransGen (Improvement members ordered spec) cells
          (ordered.foldl step { cells := cells }).cells) := by
    refine foldl_invariant (fun sweep : Sweep => (sweep.cells = cells ∧ sweep.moved = false) ∨
      (sweep.moved = true ∧
        Relation.TransGen (Improvement members ordered spec) cells sweep.cells)) ?_
      (.inl ⟨rfl, rfl⟩)
    intro sweep before edge listed
    cases takes sweep edge listed with
    | inl same =>
        rw [same]
        exact before
    | inr took =>
        right
        refine ⟨took.1, ?_⟩
        cases before with
        | inl fresh => exact .single (fresh.1 ▸ took.2)
        | inr moved => exact moved.2.tail took.2
  cases kept with
  | inl still => exact .inl (Prod.ext still.1 still.2)
  | inr moved => exact .inr moved

/-- A join is refused and changes nothing, or pours the larger index into the smaller. -/
theorem rejoinStep_cases (strict : List Nat → Option Invariant) (sweep : Sweep) (edge : Edge) :
    rejoinStep strict sweep edge = sweep ∨
      (sweep.cells.home edge.lo ≠ sweep.cells.home edge.hi ∧
        strict (sortedIds (sweep.cells.cell (sweep.cells.home edge.lo) ++
          sweep.cells.cell (sweep.cells.home edge.hi))) = none ∧
        rejoinStep strict sweep edge =
          { cells := sweep.cells.join
              (max (sweep.cells.home edge.lo) (sweep.cells.home edge.hi))
              (min (sweep.cells.home edge.lo) (sweep.cells.home edge.hi))
            touched := sweep.cells.home edge.lo :: sweep.cells.home edge.hi :: sweep.touched
            moved := true }) := by
  unfold rejoinStep
  dsimp only
  split_ifs with skipped refused
  · exact .inl rfl
  · exact .inl rfl
  · exact .inr ⟨(not_or.mp skipped).1, by simpa using refused, rfl⟩

theorem rejoin_improves : Improves members ordered spec
    (rejoin ordered (spec.rejoinInvariants.getD spec.invariants)) := by
  refine sweep_improves fun sweep edge listed => ?_
  cases rejoinStep_cases (spec.rejoinInvariants.getD spec.invariants) sweep edge with
  | inl same => exact .inl same
  | inr took =>
      obtain ⟨apart, accepted, joined⟩ := took
      right
      rw [joined]
      exact ⟨rfl, .join listed apart accepted⟩

theorem shed_improves {blockers : List Nat → List Pair}
    (given : spec.shedBlockers = some blockers) :
    Improves members ordered spec (shed ordered (neighbours ordered) spec blockers) := by
  refine sweep_improves fun sweep edge listed => ?_
  cases found : shedMove (neighbours ordered) spec blockers sweep edge with
  | none =>
      left
      unfold shedStep
      rw [found]
  | some parts =>
      right
      refine ⟨?_, .shed listed given sweep.touched sweep.moved found⟩
      unfold shedStep
      rw [found]

theorem Improves.still {pass : Cells → Cells × Bool} (improves : Improves members ordered spec pass)
    (cells : Cells) (nothing : (pass cells).2 = false) : (pass cells).1 = cells := by
  cases improves cells with
  | inl same => rw [same]
  | inr moved =>
      rw [nothing] at moved
      cases moved.1

theorem Improves.when {pass : Cells → Cells × Bool} {dial : Bool}
    (improves : dial = true → Improves members ordered spec pass) :
    Improves members ordered spec (Autodedup.when dial pass) := by
  intro cells
  unfold Autodedup.when
  split_ifs with on
  · exact improves on cells
  · exact .inl rfl

theorem Improves.rounds {pass : Cells → Cells × Bool}
    (improves : Improves members ordered spec pass) (fuel : Nat) :
    Improves members ordered spec (Foundation.rounds pass fuel) := by
  induction fuel with
  | zero => exact fun _ => .inl rfl
  | succ fuel ih =>
      intro cells
      unfold Foundation.rounds
      dsimp only
      cases improves cells with
      | inl same =>
          left
          simp [same]
      | inr moved =>
          right
          rw [if_pos moved.1]
          refine ⟨rfl, ?_⟩
          cases ih (pass cells).1 with
          | inl same =>
              rw [same]
              exact moved.2
          | inr more => exact moved.2.trans more.2

/-- One pass after another. -/
theorem Improves.andThen {first second : Cells → Cells × Bool}
    (before : Improves members ordered spec first) (after : Improves members ordered spec second) :
    Improves members ordered spec fun cells =>
      ((second (first cells).1).1, (first cells).2 || (second (first cells).1).2) := by
  intro cells
  dsimp only
  cases before cells with
  | inl same =>
      rw [same]
      simpa using after cells
  | inr moved =>
      right
      refine ⟨by rw [moved.1, Bool.true_or], ?_⟩
      cases after (first cells).1 with
      | inl same =>
          rw [same]
          exact moved.2
      | inr more => exact moved.2.trans more.2

theorem thenReconcile_off (off : spec.keepFactless = false) (pass : Cells → Cells × Bool) :
    thenReconcile ordered spec pass = pass := by
  funext cells
  unfold thenReconcile
  dsimp only
  rw [off, Bool.and_false]
  rfl

/-- With no reconciliation between them the repairs are a sequence of improvements. -/
theorem repair_improves (off : spec.keepFactless = false) :
    Improves members ordered spec (repair members ordered spec) := by
  have searched : Improves members ordered spec
      (Foundation.rounds (search spec.invariants (neighbours ordered) members) spec.maxRounds) :=
    search_improves.rounds _
  have reconciled : Improves members ordered spec
      (when spec.keepFactless
        (Foundation.rounds (reconcileSweep ordered spec) spec.maxRounds)) := by
    refine Improves.when fun on => ?_
    rw [off] at on
    cases on
  have rejoined : Improves members ordered spec
      (when spec.rejoinCells (Foundation.rounds (thenReconcile ordered spec
        (rejoin ordered (spec.rejoinInvariants.getD spec.invariants))) spec.maxRounds)) := by
    rw [thenReconcile_off off]
    exact Improves.when fun _ => rejoin_improves.rounds _
  have shedded : Improves members ordered spec
      (when spec.shedBlockers.isSome (Foundation.rounds (thenReconcile ordered spec
        (shed ordered (neighbours ordered) spec (spec.shedBlockers.getD fun _ => [])))
          spec.maxRounds)) := by
    refine Improves.when fun on => ?_
    obtain ⟨blockers, given⟩ := Option.isSome_iff_exists.mp on
    rw [thenReconcile_off off, given, Option.getD_some]
    exact (shed_improves given).rounds _
  exact ((searched.andThen reconciled).andThen rejoined).andThen shedded

/-! ### Coming to rest -/

/-- The values the objective can take. -/
def evidenceLevels (ordered : List Edge) : List ℚ :=
  ordered.sublists.map fun part => (part.map Edge.weight).sum

theorem evidenceInside_mem_levels (ordered : List Edge) (cells : Cells) :
    evidenceInside ordered cells ∈ evidenceLevels ordered :=
  List.mem_map.mpr ⟨_, List.mem_sublists.mpr List.filter_sublist, rfl⟩

section Rest

variable (placed : Placed members cells) (inside : EdgesInside members ordered)
  (within : ∀ blockers ∈ spec.shedBlockers, NamesWithin members blockers)
  (scored : ∀ edge ∈ ordered, 0 ≤ edge.score)
include placed inside within

theorem placed_of_improvements
    (run : Relation.TransGen (Improvement members ordered spec) cells next) :
    Placed members next := by
  induction run with
  | single first => exact placed.turn inside within first.turn
  | tail _ last ih => exact ih.turn inside within last.turn

include scored

theorem evidence_lt_of_improvements
    (run : Relation.TransGen (Improvement members ordered spec) cells next) :
    evidenceInside ordered cells < evidenceInside ordered next :=
  lt_of_climb (fun _ _ held step => held.turn inside within step.turn)
    (fun _ _ held step => step.raises held inside within scored) placed run

/-- A sequence of repairs comes back to no partition it has been at. -/
theorem improvements_leave
    (run : Relation.TransGen (Improvement members ordered spec) cells next) :
    ∃ left ∈ members, ∃ right ∈ members,
      ¬ (cells.home left = cells.home right ↔ next.home left = next.home right) := by
  by_contra revisited
  push Not at revisited
  have climbed := evidence_lt_of_improvements placed inside within scored run
  have level : evidenceInside ordered cells = evidenceInside ordered next := by
    unfold evidenceInside
    refine congrArg List.sum (congrArg (List.map Edge.weight) (List.filter_congr fun edge listed => ?_))
    obtain ⟨lowKnown, highKnown⟩ := inside edge listed
    rw [decide_eq_decide]
    exact revisited _ lowKnown _ highKnown
  exact lt_irrefl _ (level ▸ climbed)

/-- Repeated often enough, a pass of improvements finds nothing left to improve. -/
theorem Improves.rests {pass : Cells → Cells × Bool}
    (improves : Improves members ordered spec pass) {fuel : Nat}
    (enough : 2 ^ ordered.length < fuel) : (pass (Foundation.rounds pass fuel cells).1).2 = false := by
  refine rounds_settled_of_invariant (Placed members)
    (fun state => levelsAbove (evidenceLevels ordered) (evidenceInside ordered state))
    ?_ ?_ improves.still fuel placed ?_
  · intro state held
    cases improves state with
    | inl same =>
        rw [same]
        exact held
    | inr moved => exact placed_of_improvements held inside within moved.2
  · intro state held moved
    cases improves state with
    | inl same =>
        rw [same] at moved
        cases moved
    | inr climbs =>
        exact levelsAbove_lt (evidence_lt_of_improvements held inside within scored climbs.2)
          (evidenceInside_mem_levels ordered _)
  · refine lt_of_le_of_lt (levelsAbove_le _ _) ?_
    rwa [evidenceLevels, List.length_map, List.length_sublists]

end Rest

/-- Where all the repairs together moved nothing, none of them can move anything. -/
theorem still_of_repair_still (off : spec.keepFactless = false) (some_ : 0 < spec.maxRounds)
    (nothing : (repair members ordered spec cells).2 = false) :
    (search spec.invariants (neighbours ordered) members cells).2 = false ∧
      (spec.rejoinCells = true →
        (rejoin ordered (spec.rejoinInvariants.getD spec.invariants) cells).2 = false) ∧
        ∀ blockers, spec.shedBlockers = some blockers →
          (shed ordered (neighbours ordered) spec blockers cells).2 = false := by
  obtain ⟨fuel, shape⟩ := Nat.exists_eq_succ_of_ne_zero (Nat.pos_iff_ne_zero.mp some_)
  have first : ∀ {pass : Cells → Cells × Bool} {state : Cells},
      (Foundation.rounds pass spec.maxRounds state).2 = false → (pass state).2 = false := by
    intro pass state still
    by_contra moved
    rw [shape, rounds_of_moved (Bool.eq_true_of_not_eq_false moved)] at still
    cases still
  unfold repair at nothing
  dsimp only at nothing
  rw [thenReconcile_off off, thenReconcile_off off, off] at nothing
  simp only [when, Bool.or_eq_false_iff] at nothing
  obtain ⟨⟨⟨searched, _⟩, rejoined⟩, shedded⟩ := nothing
  have same := rounds_still search_improves.still searched
  simp only [Bool.false_eq_true, if_false, same] at rejoined shedded
  refine ⟨first searched, ?_, ?_⟩
  · intro on
    rw [if_pos on] at rejoined
    exact first rejoined
  · intro blockers given
    have unmoved : (if spec.rejoinCells = true then
        Foundation.rounds (rejoin ordered (spec.rejoinInvariants.getD spec.invariants))
          spec.maxRounds cells else (cells, false)).1 = cells := by
      split_ifs at rejoined ⊢ with on
      · have improves : Improves members ordered spec _ := rejoin_improves
        exact rounds_still improves.still rejoined
      · rfl
    rw [unmoved, given, Option.isSome_some, if_pos rfl, Option.getD_some] at shedded
    exact first shedded

end Sequences

/-! ### The climb -/

/-- What the repairs of a partition do to its objective. -/
structure RepairsClimb (members : List Nat) (ordered : List Edge) (spec : PartitionSpec) :
    Prop where
  moves : ∀ cells, Placed members cells → ∀ member ∈ members, ∀ target,
    bestTarget spec.invariants (neighbours ordered) cells member = some target →
      evidenceInside ordered cells < evidenceInside ordered (cells.move member target)
  sheds : ∀ sweep : Sweep, Placed members sweep.cells → ∀ edge ∈ ordered,
    ∀ blockers ∈ spec.shedBlockers, ∀ parts,
      shedMove (neighbours ordered) spec blockers sweep edge = some parts →
        evidenceInside ordered sweep.cells < evidenceInside ordered
          (shedStep (neighbours ordered) spec blockers sweep edge).cells
  joins : ∀ sweep : Sweep, Placed members sweep.cells → ∀ edge ∈ ordered,
    let joined := rejoinStep (spec.rejoinInvariants.getD spec.invariants) sweep edge
    joined = sweep ∨ evidenceInside ordered joined.cells =
      evidenceInside ordered sweep.cells + evidenceBetween ordered sweep.cells
        (sweep.cells.home edge.lo) (sweep.cells.home edge.hi)
  joinsKeep : (∀ edge ∈ ordered, 0 ≤ edge.weight) → ∀ sweep : Sweep, Placed members sweep.cells →
    ∀ edge ∈ ordered, evidenceInside ordered sweep.cells ≤ evidenceInside ordered
      (rejoinStep (spec.rejoinInvariants.getD spec.invariants) sweep edge).cells
  /-- Two partitions of one sequence differ on some pair of members. -/
  leaves : (∀ edge ∈ ordered, 0 ≤ edge.score) → ∀ cells next, Placed members cells →
    Relation.TransGen (Improvement members ordered spec) cells next →
      ∃ left ∈ members, ∃ right ∈ members,
        ¬ (cells.home left = cells.home right ↔ next.home left = next.home right)
  /-- Each sweep on its own, repeated without its round bound, comes to rest. -/
  rests : (∀ edge ∈ ordered, 0 ≤ edge.score) → ∀ cells, Placed members cells →
    ∀ fuel, 2 ^ ordered.length < fuel →
      let searching := search spec.invariants (neighbours ordered) members
      let joining := rejoin ordered (spec.rejoinInvariants.getD spec.invariants)
      (searching (rounds searching fuel cells).1).2 = false ∧
        (joining (rounds joining fuel cells).1).2 = false ∧
          ∀ blockers, spec.shedBlockers = some blockers →
            let shedding := shed ordered (neighbours ordered) spec blockers
            (shedding (rounds shedding fuel cells).1).2 = false
  /-- Without its round bounds the whole sequence ends where none of its sweeps moves. -/
  ends : (∀ edge ∈ ordered, 0 ≤ edge.score) → spec.keepFactless = false → 0 < spec.maxRounds →
    ∀ cells, Placed members cells → ∀ fuel, 2 ^ ordered.length < fuel →
      let final := (rounds (repair members ordered spec) fuel cells).1
      (search spec.invariants (neighbours ordered) members final).2 = false ∧
        (spec.rejoinCells = true →
          (rejoin ordered (spec.rejoinInvariants.getD spec.invariants) final).2 = false) ∧
          ∀ blockers, spec.shedBlockers = some blockers →
            (shed ordered (neighbours ordered) spec blockers final).2 = false

theorem repairs_climb (members : List Nat) (ordered : List Edge) (spec : PartitionSpec)
    (inside : EdgesInside members ordered)
    (within : ∀ blockers ∈ spec.shedBlockers, NamesWithin members blockers) :
    RepairsClimb members ordered spec := by
  have joins : ∀ sweep : Sweep, Placed members sweep.cells → ∀ edge : Edge,
      let joined := rejoinStep (spec.rejoinInvariants.getD spec.invariants) sweep edge
      joined = sweep ∨ evidenceInside ordered joined.cells =
        evidenceInside ordered sweep.cells + evidenceBetween ordered sweep.cells
          (sweep.cells.home edge.lo) (sweep.cells.home edge.hi) := by
    intro sweep placed edge
    cases rejoinStep_cases (spec.rejoinInvariants.getD spec.invariants) sweep edge with
    | inl same => exact .inl same
    | inr took =>
        right
        rw [took.2.2]
        exact evidenceInside_joinHomes placed inside took.1
  constructor
  case moves =>
    intro cells _ member _ target found
    rw [evidenceInside_move (bestTarget_eq_some found).1]
    exact lt_add_of_pos_right _ (bestTarget_gains found)
  case sheds =>
    intro sweep placed edge listed blockers given parts found
    exact evidenceInside_shedStep placed inside (within blockers given) listed found
  case joins => exact fun sweep placed edge _ => joins sweep placed edge
  case joinsKeep =>
    intro heavy sweep placed edge _
    cases joins sweep placed edge with
    | inl same => rw [same]
    | inr added =>
        rw [added]
        apply le_add_of_nonneg_right
        unfold evidenceBetween
        refine List.sum_nonneg fun weight held => ?_
        obtain ⟨other, known, rfl⟩ := List.mem_map.mp held
        exact heavy other (List.mem_of_mem_filter known)
  case leaves =>
    exact fun scored cells next placed run => improvements_leave placed inside within scored run
  case rests =>
    intro scored cells placed fuel enough
    exact ⟨search_improves.rests placed inside within scored enough,
      rejoin_improves.rests placed inside within scored enough,
      fun blockers given => (shed_improves given).rests placed inside within scored enough⟩
  case ends =>
    intro scored off some_ cells placed fuel enough
    exact still_of_repair_still off some_
      ((repair_improves off).rests placed inside within scored enough)

/-- An edge that weighs less than nothing is joined all the same, and the objective falls. -/
theorem join_of_negative_score_falls : ¬ ∀ (members : List Nat) (ordered : List Edge)
    (strict : List Nat → Option Invariant) (sweep : Sweep), EdgesInside members ordered →
      Placed members sweep.cells → ∀ edge ∈ ordered,
        evidenceInside ordered sweep.cells ≤
          evidenceInside ordered (rejoinStep strict sweep edge).cells := by
  intro always
  have fallen := always [1, 2] [⟨1, 2, -2, false⟩] (fun _ => none)
    { cells := .singletons [1, 2] } (by unfold EdgesInside; decide) (.singletons (by decide))
    ⟨1, 2, -2, false⟩ (by decide)
  revert fallen
  decide +kernel

theorem shed_case_climbs :
    RepairsClimb [1, 2, 3, 4, 9] (sortedBy Edge.rank shedEdges) shedSpec ∧
      evidenceInside shedEdges (.singletons [1, 2, 3, 4, 9]) = 0 :=
  ⟨repairs_climb [1, 2, 3, 4, 9] (sortedBy Edge.rank shedEdges) shedSpec
    (by unfold EdgesInside; decide +kernel) (by
      intro blockers given
      obtain rfl : shedFacts = blockers := Option.some.inj given
      exact shed_facts_within), by decide +kernel⟩

end Sreality.Autodedup
