import Sreality.Autodedup.RepartitionProperties

/-! A partition conserves its members: whatever turn of whatever loop it has just taken, `home`
names the one cell that holds a member, so the groups it returns split the component. -/

set_option autoImplicit false

namespace Sreality.Autodedup

open Sreality.Foundation

section Turns

variable (members : List Nat) (ordered : List Edge) (spec : PartitionSpec)

/-- One turn of one of the loops, whichever cells it meets and whatever its sweep has touched. -/
inductive Turn (cells : Cells) : Cells → Prop where
  | greedy {edge : Edge} (listed : edge ∈ ordered) :
      Turn cells (greedyStep spec.invariants cells edge)
  | search {member : Nat} (known : member ∈ members) (moved : Bool) :
      Turn cells (searchStep spec.invariants (neighbours ordered) (cells, moved) member).1
  | reconcile {edge : Edge} (listed : edge ∈ ordered) (weigh : Option (Nat → List Edge))
      (blockers : Option (List Nat → List Pair)) (touched : List Nat) (moved : Bool) :
      Turn cells (reconcileStep spec.invariants weigh blockers
        { cells := cells, touched := touched, moved := moved } edge).cells
  | rejoin {edge : Edge} (listed : edge ∈ ordered) (touched : List Nat) (moved : Bool) :
      Turn cells (rejoinStep (spec.rejoinInvariants.getD spec.invariants)
        { cells := cells, touched := touched, moved := moved } edge).cells
  | shed {edge : Edge} (listed : edge ∈ ordered) {blockers : List Nat → List Pair}
      (given : spec.shedBlockers = some blockers) (touched : List Nat) (moved : Bool) :
      Turn cells (shedStep (neighbours ordered) spec blockers
        { cells := cells, touched := touched, moved := moved } edge).cells

end Turns

section Kept

variable {members : List Nat} {ordered : List Edge} {spec : PartitionSpec}

/-- Where the blockers name only members of the set they are asked of, every turn leaves each
member in the one cell `home` names. -/
theorem Placed.turn {cells next : Cells} (placed : Placed members cells)
    (inside : EdgesInside members ordered)
    (within : ∀ blockers ∈ spec.shedBlockers, NamesWithin members blockers)
    (turn : Turn members ordered spec cells next) : Placed members next := by
  cases turn with
  | greedy listed =>
      exact (greedyStep_reached (inside _ listed).1 (inside _ listed).2 ⟨placed, .refl⟩).1
  | search known moved =>
      have reached : Reached members (spec.invariants · = none) cells (cells, moved).1 :=
        ⟨placed, .refl⟩
      exact (searchStep_reached inside known reached).1
  | reconcile listed weigh blockers touched moved =>
      have reached : Reached members (spec.invariants · = none) cells
          (Sweep.mk cells touched moved).cells := ⟨placed, .refl⟩
      exact (reconcileStep_reached (inside _ listed).1 (inside _ listed).2 reached).1
  | rejoin listed touched moved =>
      -- The bar of the join is its own: nothing here needs it to be the stricter one.
      have reached : Reached members
          (spec.rejoinInvariants.getD spec.invariants · = none) cells
          (Sweep.mk cells touched moved).cells := ⟨placed, .refl⟩
      exact (rejoinStep_reached (fun _ accepted => accepted) (inside _ listed).1
        (inside _ listed).2 reached).1
  | shed listed given touched moved =>
      have reached : Reached members (spec.invariants · = none) cells
          (Sweep.mk cells touched moved).cells := ⟨placed, .refl⟩
      exact (shedStep_reached (within _ given) (inside _ listed).1 (inside _ listed).2 reached).1

/-! ### The loops take turns -/

variable {holds : Cells → Prop}

theorem greedy_turns (closed : ∀ cells next, holds cells → Turn members ordered spec cells next →
      holds next) {cells : Cells} (held : holds cells) :
    holds (ordered.foldl (greedyStep spec.invariants) cells) :=
  foldl_invariant holds (fun _ before _ listed => closed _ _ before (.greedy listed)) held

theorem search_turns (closed : ∀ cells next, holds cells → Turn members ordered spec cells next →
      holds next) {cells : Cells} (held : holds cells) :
    holds (search spec.invariants (neighbours ordered) members cells).1 :=
  foldl_invariant (fun swept : Cells × Bool => holds swept.1)
    (fun swept before _ listed =>
      closed _ _ before (.search (mem_sortedBy.mp listed) swept.2)) held

theorem reconcileSweep_turns
    (closed : ∀ cells next, holds cells → Turn members ordered spec cells next → holds next)
    {cells : Cells} (held : holds cells) : holds (reconcileSweep ordered spec cells).1 :=
  foldl_invariant (fun sweep : Sweep => holds sweep.cells)
    (fun sweep before _ listed =>
      closed _ _ before (.reconcile listed _ _ sweep.touched sweep.moved)) held

theorem rejoin_turns (closed : ∀ cells next, holds cells → Turn members ordered spec cells next →
      holds next) {cells : Cells} (held : holds cells) :
    holds (rejoin ordered (spec.rejoinInvariants.getD spec.invariants) cells).1 :=
  foldl_invariant (fun sweep : Sweep => holds sweep.cells)
    (fun sweep before _ listed =>
      closed _ _ before (.rejoin listed sweep.touched sweep.moved)) held

theorem shed_turns (closed : ∀ cells next, holds cells → Turn members ordered spec cells next →
      holds next) {blockers : List Nat → List Pair} (given : spec.shedBlockers = some blockers)
    {cells : Cells} (held : holds cells) :
    holds (shed ordered (neighbours ordered) spec blockers cells).1 :=
  foldl_invariant (fun sweep : Sweep => holds sweep.cells)
    (fun sweep before _ listed =>
      closed _ _ before (.shed listed given sweep.touched sweep.moved)) held

theorem thenReconcile_turns
    (closed : ∀ cells next, holds cells → Turn members ordered spec cells next → holds next)
    {sweep : Cells → Cells × Bool} (swept : ∀ cells, holds cells → holds (sweep cells).1)
    {cells : Cells} (held : holds cells) : holds (thenReconcile ordered spec sweep cells).1 := by
  unfold Autodedup.thenReconcile
  dsimp only
  split_ifs
  · exact reconcileSweep_turns closed (swept cells held)
  · exact swept cells held

theorem when_turns {dial : Bool} {pass : Cells → Cells × Bool}
    (passed : dial = true → ∀ cells, holds cells → holds (pass cells).1) {cells : Cells}
    (held : holds cells) : holds (when dial pass cells).1 := by
  unfold Autodedup.when
  split_ifs with on
  · exact passed on cells held
  · exact held

theorem repair_turns (closed : ∀ cells next, holds cells → Turn members ordered spec cells next →
      holds next) {cells : Cells} (held : holds cells) :
    holds (repair members ordered spec cells).1 := by
  have searched : holds (rounds (search spec.invariants (neighbours ordered) members)
      spec.maxRounds cells).1 :=
    rounds_invariant holds (fun _ before => search_turns closed before) spec.maxRounds held
  have reconciled := when_turns (fun (_ : spec.keepFactless = true) _ before =>
    rounds_invariant holds (fun _ earlier => reconcileSweep_turns closed earlier)
      spec.maxRounds before) searched
  have rejoined := when_turns (fun (_ : spec.rejoinCells = true) _ before =>
    rounds_invariant holds
      (fun _ earlier => thenReconcile_turns closed (fun _ => rejoin_turns closed) earlier)
        spec.maxRounds before) reconciled
  refine when_turns (fun on _ before => rounds_invariant holds
    (fun _ earlier => thenReconcile_turns closed (fun _ => ?_) earlier) spec.maxRounds before)
      rejoined
  obtain ⟨blockers, given⟩ := Option.isSome_iff_exists.mp on
  rw [given, Option.getD_some]
  exact shed_turns closed given

/-- A partition gets to its groups by turns of its loops alone. -/
theorem partition_turns (members : List Nat) (edges : List Edge) (spec : PartitionSpec) :
    ∃ cells, Relation.ReflTransGen (Turn members (sortedBy Edge.rank edges) spec)
        (Cells.singletons members) cells ∧ partition members edges spec = cells.groups := by
  have closed : ∀ cells next,
      Relation.ReflTransGen (Turn members (sortedBy Edge.rank edges) spec)
        (Cells.singletons members) cells →
      Turn members (sortedBy Edge.rank edges) spec cells next →
      Relation.ReflTransGen (Turn members (sortedBy Edge.rank edges) spec)
        (Cells.singletons members) next := fun _ _ before turn => before.tail turn
  exact ⟨_, rounds_invariant _ (fun _ before => repair_turns closed before) _
    (greedy_turns closed .refl), rfl⟩

/-- The members of the component are the members of the groups, each in one group; and in every
state the loops pass through `home` names the one cell a member is in. -/
theorem partition_conserves_members (members : List Nat) (edges : List Edge)
    (spec : PartitionSpec) (distinct : members.Nodup) (inside : EdgesInside members edges)
    (within : ∀ blockers ∈ spec.shedBlockers, NamesWithin members blockers) :
    (∀ group ∈ partition members edges spec, group ≠ []) ∧
      (partition members edges spec).Pairwise List.Disjoint ∧
        (∀ member, (∃ group ∈ partition members edges spec, member ∈ group) ↔
          member ∈ members) ∧
          (∀ cells, Relation.ReflTransGen (Turn members (sortedBy Edge.rank edges) spec)
              (Cells.singletons members) cells →
            ∀ member ∈ members, ∀ index,
              member ∈ cells.cell index ↔ index = cells.home member) ∧
            ∃ cells, Relation.ReflTransGen (Turn members (sortedBy Edge.rank edges) spec)
              (Cells.singletons members) cells ∧ partition members edges spec = cells.groups := by
  have sortedInside : EdgesInside members (sortedBy Edge.rank edges) :=
    fun edge listed => inside edge (mem_sortedBy.mp listed)
  have placed : ∀ cells, Relation.ReflTransGen (Turn members (sortedBy Edge.rank edges) spec)
      (Cells.singletons members) cells → Placed members cells := by
    intro cells run
    induction run with
    | refl => exact .singletons distinct
    | tail _ turn ih => exact ih.turn sortedInside within turn
  obtain ⟨final, run, equal⟩ := partition_turns members edges spec
  have splits : Splits members (partition members edges spec) := by
    rw [equal]
    exact (placed final run).splits distinct
  refine ⟨splits.nonempty, ?_, ?_, ?_, final, run, equal⟩
  · exact (List.nodup_flatten.mp (splits.flat.nodup_iff.mpr distinct)).2
  · intro member
    rw [← List.mem_flatten]
    exact splits.flat.mem_iff
  · intro cells before member known index
    have here := placed cells before
    constructor
    · exact fun held => (here.owned index member held).2.symm
    · rintro rfl
      exact here.homed member known

/-! ### A cell that sheds -/

/-- Four adverts around 1, the last two of which a fact separates. -/
def shedEdges : List Edge :=
  [⟨1, 4, 9 / 10, false⟩, ⟨1, 2, 17 / 20, false⟩, ⟨1, 3, 17 / 20, false⟩, ⟨1, 9, 4 / 5, false⟩,
    ⟨2, 9, 4 / 5, false⟩, ⟨3, 9, 4 / 5, false⟩]

def shedFacts (group : List Nat) : List Pair :=
  if 4 ∈ group ∧ 9 ∈ group then [(4, 9)] else []

def shedSpec : PartitionSpec where
  invariants := fun group => if shedFacts group = [] then none else some .mustNotLink
  keepFactless := true
  rejoinCells := true
  shedBlockers := some shedFacts
  outerRounds := 3
  shedFactlessGuard := .core

theorem shed_facts_within : NamesWithin [1, 2, 3, 4, 9] shedFacts := by
  intro part _ pair listed
  unfold shedFacts at listed
  split_ifs at listed with both
  · rw [List.mem_singleton.mp listed]
    exact both
  · cases listed

theorem shed_case_conserves_members :
    partition [1, 2, 3, 4, 9] shedEdges shedSpec = [[1, 2, 3, 9], [4]] ∧
      (partition [1, 2, 3, 4, 9] shedEdges shedSpec).Pairwise List.Disjoint :=
  ⟨by decide +kernel, (partition_conserves_members [1, 2, 3, 4, 9] shedEdges shedSpec (by decide)
    (by unfold EdgesInside; decide) (by
      intro blockers given
      obtain rfl : shedFacts = blockers := Option.some.inj given
      exact shed_facts_within)).2.1⟩

end Kept

end Sreality.Autodedup
