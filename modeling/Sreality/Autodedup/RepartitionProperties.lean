import Sreality.Autodedup.CellsProperties

/-! Every sweep of a partition is a run of cell steps, so a partition splits its
component and tests every set it fills; and it reads its invariants on parts of
the component alone, so it is the same for any that agree there. -/

set_option autoImplicit false

namespace Sreality.Autodedup

open Sreality.Foundation

theorem mem_neighbours {ordered : List Edge} {member : Nat} {edge : Edge} :
    edge ∈ neighbours ordered member ↔
      edge ∈ ordered ∧ (edge.lo = member ∨ edge.hi = member) := by
  simp only [neighbours, List.mem_flatMap, List.mem_append]
  constructor
  · rintro ⟨listed, known, held⟩
    split_ifs at held with low high high <;> simp at held <;> subst held
    · exact ⟨known, .inl low⟩
    · exact ⟨known, .inl low⟩
    · exact ⟨known, .inr high⟩
  · rintro ⟨known, low | high⟩
    · exact ⟨edge, known, .inl (by simp [low])⟩
    · exact ⟨edge, known, .inr (by simp [high])⟩

/-- Both ends of every edge are members. -/
def EdgesInside (members : List Nat) (edges : List Edge) : Prop :=
  ∀ edge ∈ edges, edge.lo ∈ members ∧ edge.hi ∈ members

theorem EdgesInside.other_mem {members : List Nat} {ordered : List Edge}
    (inside : EdgesInside members ordered) {member : Nat} {edge : Edge}
    (held : edge ∈ neighbours ordered member) : edge.other member ∈ members := by
  obtain ⟨known, _⟩ := mem_neighbours.mp held
  unfold Edge.other
  split_ifs
  · exact (inside edge known).2
  · exact (inside edge known).1

section Reach

variable {members : List Nat} {start cells : Cells} {accepts : List Nat → Prop}

/-- Where a sweep has got to: still a partition of the members, by accepted steps. -/
def Reached (members : List Nat) (accepts : List Nat → Prop) (start cells : Cells) : Prop :=
  Placed members cells ∧ CellRun accepts start cells

theorem Reached.step {next : Cells} (reached : Reached members accepts start cells)
    (step : CellStep accepts cells next) : Reached members accepts start next :=
  ⟨reached.1.step step, reached.2.tail step⟩

theorem Placed.home_bounded (placed : Placed members cells) {member : Nat}
    (known : member ∈ members) : cells.home member < cells.count :=
  placed.bounded _ _ (placed.homed member known)

/-- Pouring the larger index into the smaller, as every join does. -/
theorem Reached.joinHomes (reached : Reached members accepts start cells) {left right : Nat}
    (leftKnown : left ∈ members) (rightKnown : right ∈ members)
    (apart : cells.home left ≠ cells.home right)
    (accepted : accepts (sortedIds (cells.cell (cells.home left) ++
      cells.cell (cells.home right)))) :
    Reached members accepts start
      (cells.join (max (cells.home left) (cells.home right))
        (min (cells.home left) (cells.home right))) := by
  have leftBounded := reached.1.home_bounded leftKnown
  have rightBounded := reached.1.home_bounded rightKnown
  refine reached.step (.join (by omega) (by omega) ?_)
  rcases lt_or_gt_of_ne apart with below | above
  · rwa [min_eq_left below.le, max_eq_right below.le]
  · rw [min_eq_right above.le, max_eq_left above.le,
      sortedIds_eq_of_perm List.perm_append_comm]
    exact accepted

theorem Reached.moveTo (reached : Reached members accepts start cells) {member neighbour : Nat}
    (known : member ∈ members) (neighbourKnown : neighbour ∈ members)
    (away : cells.home neighbour ≠ cells.home member)
    (accepted : accepts (sortedIds (cells.cell (cells.home neighbour) ++ [member]))) :
    Reached members accepts start (cells.move member (cells.home neighbour)) :=
  reached.step (.move (reached.1.homed member known) away
    (reached.1.home_bounded neighbourKnown) accepted)

theorem greedyStep_reached {invariants : List Nat → Option Invariant} {edge : Edge}
    (lowKnown : edge.lo ∈ members) (highKnown : edge.hi ∈ members)
    (reached : Reached members (invariants · = none) start cells) :
    Reached members (invariants · = none) start (greedyStep invariants cells edge) := by
  unfold greedyStep
  dsimp only
  split_ifs with same refused
  · exact reached
  · exact reached
  · exact reached.joinHomes lowKnown highKnown same (by simpa using refused)

/-! ### The local search -/

/-- A target the search settles on was offered, lies elsewhere and was accepted. -/
theorem bestTarget_eq_some {invariants : List Nat → Option Invariant}
    {around : Nat → List Edge} {member target : Nat}
    (found : bestTarget invariants around cells member = some target) :
    target ≠ cells.home member ∧ ∃ edge ∈ around member, target = cells.home (edge.other member) ∧
      invariants (sortedIds (cells.cell target ++ [member])) = none := by
  have kept : cells.home member ∈ ((around member).foldl
        (weighTarget invariants around cells member) { seen := [cells.home member] }).seen ∧
      ∀ chosen, ((around member).foldl
        (weighTarget invariants around cells member)
          { seen := [cells.home member] }).bestTarget = some chosen →
        chosen ≠ cells.home member ∧ ∃ edge ∈ around member,
          chosen = cells.home (edge.other member) ∧
            invariants (sortedIds (cells.cell chosen ++ [member])) = none := by
    refine foldl_invariant (fun best : Candidate => cells.home member ∈ best.seen ∧
      ∀ chosen, best.bestTarget = some chosen → chosen ≠ cells.home member ∧
        ∃ edge ∈ around member, chosen = cells.home (edge.other member) ∧
          invariants (sortedIds (cells.cell chosen ++ [member])) = none) ?_ ⟨by simp, by simp⟩
    rintro best ⟨seen, offered⟩ edge listed
    unfold weighTarget
    dsimp only
    split_ifs with already refused better
    · exact ⟨seen, offered⟩
    · exact ⟨List.mem_cons_of_mem _ seen, offered⟩
    · refine ⟨List.mem_cons_of_mem _ seen, ?_⟩
      intro chosen equal
      obtain rfl := Option.some.inj equal
      refine ⟨fun home => already (home ▸ seen), edge, listed, rfl, by simpa using refused⟩
    · exact ⟨List.mem_cons_of_mem _ seen, offered⟩
  exact kept.2 target found

theorem searchStep_reached {invariants : List Nat → Option Invariant} {ordered : List Edge}
    (inside : EdgesInside members ordered) {swept : Cells × Bool} {member : Nat}
    (known : member ∈ members)
    (reached : Reached members (invariants · = none) start swept.1) :
    Reached members (invariants · = none) start
      (searchStep invariants (neighbours ordered) swept member).1 := by
  unfold searchStep
  cases found : bestTarget invariants (neighbours ordered) swept.1 member with
  | none => exact reached
  | some target =>
      obtain ⟨away, edge, held, rfl, accepted⟩ := bestTarget_eq_some found
      exact reached.moveTo known (inside.other_mem held) away accepted

theorem search_reached {invariants : List Nat → Option Invariant} {ordered : List Edge}
    (inside : EdgesInside members ordered)
    (reached : Reached members (invariants · = none) start cells) :
    Reached members (invariants · = none) start
      (search invariants (neighbours ordered) members cells).1 :=
  foldl_invariant (fun swept : Cells × Bool => Reached members (invariants · = none) start swept.1)
    (fun _ held _ listed => searchStep_reached inside (mem_sortedBy.mp listed) held) reached

/-! ### The repairs -/

theorem reconcileMove_eq_some {invariants : List Nat → Option Invariant}
    {weigh : Option (Nat → List Edge)} {blockers : Option (List Nat → List Pair)}
    {sweep next : Sweep} {member target : Nat}
    (moved : reconcileMove invariants weigh blockers sweep member target = some next) :
    sweep.cells.home member ≠ target ∧
      invariants (sortedIds (sweep.cells.cell target ++ [member])) = none ∧
        next.cells = sweep.cells.move member target := by
  unfold reconcileMove at moved
  split_ifs at moved with touched home refused kept
  obtain rfl := Option.some.inj moved
  exact ⟨home, by simpa using refused, rfl⟩

theorem reconcileStep_reached {invariants : List Nat → Option Invariant}
    {weigh : Option (Nat → List Edge)} {blockers : Option (List Nat → List Pair)}
    {sweep : Sweep} {edge : Edge} (lowKnown : edge.lo ∈ members) (highKnown : edge.hi ∈ members)
    (reached : Reached members (invariants · = none) start sweep.cells) :
    Reached members (invariants · = none) start
      (reconcileStep invariants weigh blockers sweep edge).cells := by
  unfold reconcileStep
  dsimp only
  split_ifs
  · exact reached
  · cases low : reconcileMove invariants weigh blockers sweep edge.lo
        (sweep.cells.home edge.hi) with
    | some next =>
        obtain ⟨away, accepted, moved⟩ := reconcileMove_eq_some low
        rw [moved]
        exact reached.moveTo lowKnown highKnown away.symm accepted
    | none =>
        cases high : reconcileMove invariants weigh blockers sweep edge.hi
            (sweep.cells.home edge.lo) with
        | some next =>
            obtain ⟨away, accepted, moved⟩ := reconcileMove_eq_some high
            rw [moved]
            exact reached.moveTo highKnown lowKnown away.symm accepted
        | none => exact reached

theorem reconcile_reached {ordered : List Edge} {invariants : List Nat → Option Invariant}
    {weigh : Option (Nat → List Edge)} {blockers : Option (List Nat → List Pair)}
    (inside : EdgesInside members ordered)
    (reached : Reached members (invariants · = none) start cells) :
    Reached members (invariants · = none) start
      (reconcile ordered invariants weigh blockers cells).1 :=
  foldl_invariant (fun sweep : Sweep => Reached members (invariants · = none) start sweep.cells)
    (fun _ held edge listed => reconcileStep_reached (inside edge listed).1
      (inside edge listed).2 held) reached

theorem rejoinStep_reached {invariants strict : List Nat → Option Invariant}
    (stricter : ∀ members, strict members = none → invariants members = none)
    {sweep : Sweep} {edge : Edge} (lowKnown : edge.lo ∈ members) (highKnown : edge.hi ∈ members)
    (reached : Reached members (invariants · = none) start sweep.cells) :
    Reached members (invariants · = none) start (rejoinStep strict sweep edge).cells := by
  unfold rejoinStep
  dsimp only
  split_ifs with skipped refused
  · exact reached
  · exact reached
  · exact reached.joinHomes lowKnown highKnown (not_or.mp skipped).1
      (stricter _ (by simpa using refused))

theorem rejoin_reached {ordered : List Edge} {invariants strict : List Nat → Option Invariant}
    (stricter : ∀ members, strict members = none → invariants members = none)
    (inside : EdgesInside members ordered)
    (reached : Reached members (invariants · = none) start cells) :
    Reached members (invariants · = none) start (rejoin ordered strict cells).1 :=
  foldl_invariant (fun sweep : Sweep => Reached members (invariants · = none) start sweep.cells)
    (fun _ held edge listed => rejoinStep_reached stricter (inside edge listed).1
      (inside edge listed).2 held) reached

/-- A cover is drawn from the pairs it clears, avoids the protected members, and
names none twice. -/
theorem coverFrom_eq_some {keep dirty : List Nat} :
    ∀ {fuel : Nat} {remaining : List Pair} {chosen found : List Nat},
      coverFrom keep dirty fuel remaining chosen = some found →
        chosen.Nodup → (∀ pair ∈ remaining, pair.1 ∉ chosen ∧ pair.2 ∉ chosen) →
          found.Nodup ∧ ∀ member ∈ found, member ∈ chosen ∨
            (member ∉ keep ∧ ∃ pair ∈ remaining, pair.1 = member ∨ pair.2 = member) := by
  intro fuel
  induction fuel with
  | zero =>
      intro remaining chosen found covered distinct _
      cases remaining with
      | nil =>
          obtain rfl := Option.some.inj covered
          exact ⟨nodup_sortedBy.mpr distinct, fun member held => .inl (mem_sortedBy.mp held)⟩
      | cons head rest => exact absurd covered (by simp [coverFrom])
  | succ fuel ih =>
      intro remaining chosen found covered distinct fresh
      cases remaining with
      | nil =>
          obtain rfl := Option.some.inj covered
          exact ⟨nodup_sortedBy.mpr distinct, fun member held => .inl (mem_sortedBy.mp held)⟩
      | cons head rest =>
          unfold coverFrom at covered
          dsimp only at covered
          split at covered
          · exact absurd covered (by simp)
          · rename_i pick others picked
            have pickListed := mem_of_sortedBy_eq_cons picked
            simp only [List.mem_dedup, List.mem_filter, List.mem_flatMap, decide_eq_true_eq]
              at pickListed
            obtain ⟨⟨pair, pairListed, pairHolds⟩, notKept⟩ := pickListed
            have ofPair : pair.1 = pick ∨ pair.2 = pick := by
              simpa [eq_comm] using pairHolds
            have pickFresh : pick ∉ chosen := by
              rcases ofPair with rfl | rfl
              · exact (fresh pair pairListed).1
              · exact (fresh pair pairListed).2
            have next := ih covered
              (distinct.append (List.nodup_singleton pick) (by
                intro member held same
                rw [List.mem_singleton.mp same] at held
                exact pickFresh held))
              (by
                intro other otherListed
                obtain ⟨known, unlike⟩ := List.mem_filter.mp otherListed
                have unlike : other.1 ≠ pick ∧ other.2 ≠ pick := by simpa using unlike
                have before := fresh other known
                simp [before.1, before.2, unlike.1, unlike.2])
            refine ⟨next.1, fun member held => ?_⟩
            rcases next.2 member held with earlier | ⟨unprotected, other, otherListed, ofOther⟩
            · rcases List.mem_append.mp earlier with old | new
              · exact .inl old
              · rw [List.mem_singleton] at new
                subst new
                exact .inr ⟨notKept, pair, pairListed, ofPair⟩
            · exact .inr ⟨unprotected, other, (List.mem_filter.mp otherListed).1, ofOther⟩

/-- A refusal of sheds names members of the set it reads, inside these. -/
def NamesWithin (members : List Nat) (blockers : List Nat → List Pair) : Prop :=
  ∀ part, part ⊆ members → ∀ pair ∈ blockers part, pair.1 ∈ part ∧ pair.2 ∈ part

theorem Placed.cell_subset (placed : Placed members cells) (index : Nat) :
    cells.cell index ⊆ members :=
  fun member held => (placed.owned index member held).1

theorem Placed.union_subset (placed : Placed members cells) (left right : Nat) :
    sortedIds (cells.cell left ++ cells.cell right) ⊆ members := by
  intro member held
  rw [mem_sortedBy, List.mem_append] at held
  exact held.elim (fun inLeft => placed.cell_subset left inLeft)
    (fun inRight => placed.cell_subset right inRight)

theorem Placed.with_subset (placed : Placed members cells) (index : Nat) {member : Nat}
    (known : member ∈ members) : sortedIds (cells.cell index ++ [member]) ⊆ members := by
  intro other held
  rw [mem_sortedBy, List.mem_append, List.mem_singleton] at held
  rcases held with stayed | rfl
  · exact placed.cell_subset index stayed
  · exact known

/-- A shed splits the union into what it keeps and its cover, and tests the kept. -/
theorem shedMove_eq_some {around : Nat → List Edge} {spec : PartitionSpec}
    {blockers : List Nat → List Pair} {sweep : Sweep} {edge : Edge} {kept found : List Nat}
    (within : NamesWithin members blockers)
    (placed : Placed members sweep.cells)
    (moved : shedMove around spec blockers sweep edge = some (kept, found)) :
    sweep.cells.home edge.lo ≠ sweep.cells.home edge.hi ∧ spec.invariants kept = none ∧
      (kept ++ found).Perm (sweep.cells.cell (sweep.cells.home edge.lo) ++
        sweep.cells.cell (sweep.cells.home edge.hi)) := by
  unfold shedMove at moved
  dsimp only at moved
  split_ifs at moved with skipped sized conflicted
  all_goals
    split at moved
    · exact absurd moved (by simp)
    rename_i covered coverFound
    split_ifs at moved with refused severs lighter
    obtain ⟨rfl, rfl⟩ := Prod.mk.inj (Option.some.inj moved)
    have apart := (not_or.mp skipped).1
    have unionDistinct := placed.union_nodup apart
    obtain ⟨coverDistinct, drawn⟩ := coverFrom_eq_some coverFound List.nodup_nil (by simp)
    refine ⟨apart, by simpa using refused, ?_⟩
    refine List.Perm.trans ?_ (sortedBy_perm id (sweep.cells.cell (sweep.cells.home edge.lo) ++
      sweep.cells.cell (sweep.cells.home edge.hi)))
    have sortedDistinct : (sortedIds (sweep.cells.cell (sweep.cells.home edge.lo) ++
        sweep.cells.cell (sweep.cells.home edge.hi))).Nodup :=
      nodup_sortedBy.mpr unionDistinct
    refine (List.perm_ext_iff_of_nodup ?_ sortedDistinct).mpr ?_
    · refine (sortedDistinct.filter _).append coverDistinct ?_
      intro member inKept inCover
      simpa [inCover] using (List.mem_filter.mp inKept).2
    · intro member
      rw [List.mem_append, List.mem_filter]
      constructor
      · rintro (⟨known, _⟩ | inCover)
        · exact known
        · rcases drawn member inCover with nothing | ⟨_, pair, listed, rfl | rfl⟩
          · exact absurd nothing List.not_mem_nil
          · exact (within _ (placed.union_subset _ _) pair listed).1
          · exact (within _ (placed.union_subset _ _) pair listed).2
      · intro known
        by_cases inCover : member ∈ covered
        · exact .inr inCover
        · exact .inl ⟨known, by simpa using inCover⟩

theorem shedStep_reached {around : Nat → List Edge} {spec : PartitionSpec}
    {blockers : List Nat → List Pair}
    (within : NamesWithin members blockers)
    {sweep : Sweep} {edge : Edge} (lowKnown : edge.lo ∈ members) (highKnown : edge.hi ∈ members)
    (reached : Reached members (spec.invariants · = none) start sweep.cells) :
    Reached members (spec.invariants · = none) start
      (shedStep around spec blockers sweep edge).cells := by
  unfold shedStep
  dsimp only
  cases moved : shedMove around spec blockers sweep edge with
  | none => exact reached
  | some parts =>
      obtain ⟨apart, accepted, split⟩ := shedMove_eq_some within reached.1 moved
      have leftBounded := reached.1.home_bounded lowKnown
      have rightBounded := reached.1.home_bounded highKnown
      refine reached.step (.shed (by omega) (by omega) (by omega) ?_ accepted)
      refine split.trans ?_
      rcases lt_or_gt_of_ne apart with below | above
      · rw [min_eq_left below.le, max_eq_right below.le]
      · rw [min_eq_right above.le, max_eq_left above.le]
        exact List.perm_append_comm

theorem shed_reached {ordered : List Edge} {around : Nat → List Edge} {spec : PartitionSpec}
    {blockers : List Nat → List Pair}
    (within : NamesWithin members blockers)
    (inside : EdgesInside members ordered)
    (reached : Reached members (spec.invariants · = none) start cells) :
    Reached members (spec.invariants · = none) start
      (shed ordered around spec blockers cells).1 :=
  foldl_invariant (fun sweep : Sweep => Reached members (spec.invariants · = none) start sweep.cells)
    (fun _ held edge listed => shedStep_reached within (inside edge listed).1
      (inside edge listed).2 held) reached

/-! ### The whole pass -/

/-- What the refusals of a partition owe each other: the bar of a join is at
least the invariants, and a blocker names members of the set it reads. -/
structure Coherent (members : List Nat) (spec : PartitionSpec) : Prop where
  stricter : ∀ part, spec.rejoinInvariants.getD spec.invariants part = none →
    spec.invariants part = none
  within : ∀ blockers ∈ spec.shedBlockers, NamesWithin members blockers

/-- A pass keeps what has been reached. -/
def Keeps (members : List Nat) (accepts : List Nat → Prop) (start : Cells)
    (pass : Cells → Cells × Bool) : Prop :=
  ∀ cells, Reached members accepts start cells → Reached members accepts start (pass cells).1

theorem Keeps.rounds {pass : Cells → Cells × Bool} (keeps : Keeps members accepts start pass)
    (fuel : Nat) : Keeps members accepts start (rounds pass fuel) :=
  fun _ reached => rounds_invariant _ keeps fuel reached

theorem Keeps.when {pass : Cells → Cells × Bool} {dial : Bool}
    (keeps : dial = true → Keeps members accepts start pass) :
    Keeps members accepts start (when dial pass) := by
  intro cells reached
  unfold Autodedup.when
  split_ifs with on
  · exact keeps on cells reached
  · exact reached

theorem reconcileSweep_keeps {ordered : List Edge} {spec : PartitionSpec}
    (inside : EdgesInside members ordered) :
    Keeps members (spec.invariants · = none) start (reconcileSweep ordered spec) :=
  fun _ reached => reconcile_reached inside reached

theorem Keeps.thenReconcile {ordered : List Edge} {spec : PartitionSpec}
    {pass : Cells → Cells × Bool} (inside : EdgesInside members ordered)
    (keeps : Keeps members (spec.invariants · = none) start pass) :
    Keeps members (spec.invariants · = none) start (thenReconcile ordered spec pass) := by
  intro cells reached
  unfold Autodedup.thenReconcile
  dsimp only
  split_ifs
  · exact reconcileSweep_keeps inside _ (keeps cells reached)
  · exact keeps cells reached

theorem rejoin_keeps {ordered : List Edge} {spec : PartitionSpec} (coherent : Coherent members spec)
    (inside : EdgesInside members ordered) :
    Keeps members (spec.invariants · = none) start
      (rejoin ordered (spec.rejoinInvariants.getD spec.invariants)) :=
  fun _ reached => rejoin_reached coherent.stricter inside reached

theorem shed_keeps {ordered : List Edge} {spec : PartitionSpec} (coherent : Coherent members spec)
    (inside : EdgesInside members ordered) (shedding : spec.shedBlockers.isSome = true) :
    Keeps members (spec.invariants · = none) start
      (shed ordered (neighbours ordered) spec (spec.shedBlockers.getD fun _ => [])) := by
  obtain ⟨blockers, given⟩ := Option.isSome_iff_exists.mp shedding
  intro cells reached
  refine shed_reached ?_ inside reached
  rw [given, Option.getD_some]
  exact coherent.within blockers given

theorem repair_keeps {ordered : List Edge} {spec : PartitionSpec} (coherent : Coherent members spec)
    (inside : EdgesInside members ordered) :
    Keeps members (spec.invariants · = none) start (repair members ordered spec) := by
  intro cells reached
  have searched : Keeps members (spec.invariants · = none) start
      (search spec.invariants (neighbours ordered) members) :=
    fun _ held => search_reached inside held
  have reconciled : spec.keepFactless = true → Keeps members (spec.invariants · = none) start _ :=
    fun _ => (reconcileSweep_keeps inside).rounds spec.maxRounds
  have rejoined : spec.rejoinCells = true → Keeps members (spec.invariants · = none) start _ :=
    fun _ => ((rejoin_keeps coherent inside).thenReconcile inside).rounds spec.maxRounds
  have shedded : spec.shedBlockers.isSome = true →
      Keeps members (spec.invariants · = none) start _ :=
    fun on => ((shed_keeps coherent inside on).thenReconcile inside).rounds spec.maxRounds
  exact Keeps.when shedded _ (Keeps.when rejoined _ (Keeps.when reconciled _
    (searched.rounds _ _ reached)))

theorem greedy_reached {ordered : List Edge} {invariants : List Nat → Option Invariant}
    (inside : EdgesInside members ordered)
    (reached : Reached members (invariants · = none) start cells) :
    Reached members (invariants · = none) start (ordered.foldl (greedyStep invariants) cells) :=
  foldl_invariant _ (fun _ held edge listed => greedyStep_reached (inside edge listed).1
    (inside edge listed).2 held) reached

/-- A partition is a run of accepted steps from the members each in its own cell. -/
theorem partition_run {edges : List Edge} {spec : PartitionSpec} (coherent : Coherent members spec)
    (distinct : members.Nodup) (inside : EdgesInside members edges) :
    Reached members (spec.invariants · = none) (Cells.singletons members)
      (cutCells members edges spec) := by
  have sortedInside : EdgesInside members (sortedBy Edge.rank edges) :=
    fun edge listed => inside edge (mem_sortedBy.mp listed)
  have initial : Reached members (spec.invariants · = none) (Cells.singletons members)
      (Cells.singletons members) := ⟨.singletons distinct, .refl⟩
  exact (repair_keeps coherent sortedInside).rounds _ _ (greedy_reached sortedInside initial)

theorem partition_splits {edges : List Edge} {spec : PartitionSpec} (coherent : Coherent members spec)
    (distinct : members.Nodup) (inside : EdgesInside members edges) :
    Splits members (partition members edges spec) :=
  (partition_run coherent distinct inside).1.splits distinct

/-- What every member alone and every accepted set satisfies, the groups of a
partition satisfy that do not stand as a move left them. -/
theorem partition_stands {edges : List Edge} {spec : PartitionSpec} (holds : List Nat → Prop)
    (coherent : Coherent members spec) (distinct : members.Nodup)
    (inside : EdgesInside members edges)
    (reorder : ∀ left right : List Nat, left.Perm right → holds left → holds right)
    (accepted : ∀ filled, spec.invariants filled = none → holds filled)
    (alone : ∀ member ∈ members, holds [member]) :
    ∀ group ∈ partition members edges spec,
      holds group ∨ group ∈ (cutCells members edges spec).leftBehind := by
  have initial : ∀ index, (Cells.singletons members).Stands holds
      ((Cells.singletons members).cell index) := by
    intro index
    simp only [Cells.singletons]
    cases found : (sortedIds members)[index]? with
    | some member =>
        exact .inr (.inl (alone member (mem_sortedBy.mp (List.mem_of_getElem? found))))
    | none => exact .inl rfl
  have stands := (partition_run coherent distinct inside).2.cells_stand (.singletons distinct)
    accepted alone initial
  intro group listed
  obtain ⟨index, _, nonempty, rfl⟩ := Cells.mem_groups.mp listed
  exact ((stands index).resolve_left nonempty).imp_left
    (reorder _ _ (sortedBy_perm id _).symm)

/-- Every group of a partition is inside a set it accepted, or one member's. -/
theorem partition_inside {edges : List Edge} {spec : PartitionSpec} (holds : List Nat → Prop)
    (coherent : Coherent members spec) (distinct : members.Nodup)
    (inside : EdgesInside members edges)
    (accepted : ∀ filled, spec.invariants filled = none → holds filled)
    (alone : ∀ member ∈ members, holds [member]) (empty : holds []) :
    ∀ group ∈ partition members edges spec, ∃ whole, holds whole ∧ group ⊆ whole := by
  have initial : ∀ index, ∃ whole, holds whole ∧
      (Cells.singletons members).cell index ⊆ whole := by
    intro index
    simp only [Cells.singletons]
    cases found : (sortedIds members)[index]? with
    | some member =>
        have known := mem_sortedBy.mp (List.mem_of_getElem? found)
        exact ⟨[member], alone member known, List.Subset.refl _⟩
    | none => exact ⟨[], empty, List.Subset.refl _⟩
  have within := (partition_run coherent distinct inside).2.cells_inside (.singletons distinct)
    accepted alone initial
  intro group listed
  obtain ⟨index, _, _, rfl⟩ := Cells.mem_groups.mp listed
  obtain ⟨whole, held, part⟩ := within index
  exact ⟨whole, held, fun member kept => part (mem_sortedBy.mp kept)⟩

end Reach

/-! ### What a partition reads -/

section Reads

variable {members : List Nat} {cells : Cells}

/-- Two refusals that agree on every part of a set. -/
def AgreeInside {β : Type} (members : List Nat) (left right : List Nat → β) : Prop :=
  ∀ part, part ⊆ members → left part = right part

theorem greedyStep_congr {invariants others : List Nat → Option Invariant}
    (agree : AgreeInside members invariants others) (placed : Placed members cells)
    (edge : Edge) : greedyStep invariants cells edge = greedyStep others cells edge := by
  unfold greedyStep
  dsimp only
  rw [agree _ (placed.union_subset _ _)]

theorem bestTarget_congr {invariants others : List Nat → Option Invariant}
    (agree : AgreeInside members invariants others) (placed : Placed members cells)
    (around : Nat → List Edge) {member : Nat} (known : member ∈ members) :
    bestTarget invariants around cells member = bestTarget others around cells member := by
  have weighed : weighTarget invariants around cells member =
      weighTarget others around cells member := by
    funext best edge
    unfold weighTarget
    dsimp only
    rw [agree _ (placed.with_subset _ known)]
  unfold bestTarget
  rw [weighed]

theorem search_congr {invariants others : List Nat → Option Invariant}
    (agree : AgreeInside members invariants others) {ordered : List Edge}
    (inside : EdgesInside members ordered) (placed : Placed members cells) :
    search invariants (neighbours ordered) members cells =
      search others (neighbours ordered) members cells := by
  refine foldl_congr_of_invariant (fun swept : Cells × Bool => Placed members swept.1)
    ?_ ?_ placed
  · intro swept sweptPlaced member listed
    exact (searchStep_reached inside (mem_sortedBy.mp listed) ⟨sweptPlaced, .refl⟩).1
  · intro swept sweptPlaced member listed
    unfold searchStep
    rw [bestTarget_congr agree sweptPlaced _ (mem_sortedBy.mp listed)]

/-- Two refusals of sheds that name the same pairs inside the members. -/
abbrev BlockersAgree (members : List Nat) (left right : Option (List Nat → List Pair)) : Prop :=
  AgreeInside members (fun part => left.map (· part)) (fun part => right.map (· part))

theorem onlyFactsSevered_congr {blockers others : Option (List Nat → List Pair)}
    (agree : BlockersAgree members blockers others) (placed : Placed members cells)
    (around : Nat → List Edge) {member : Nat} (known : member ∈ members) :
    onlyFactsSevered around blockers cells member = onlyFactsSevered around others cells member := by
  have part : sortedIds ((cells.cell (cells.home member)).filter (· ≠ member)) ++ [member] ⊆
      members := by
    intro other held
    rw [List.mem_append, mem_sortedBy, List.mem_singleton] at held
    rcases held with stayed | rfl
    · exact placed.cell_subset _ (List.mem_of_mem_filter stayed)
    · exact known
  have same := agree _ part
  unfold onlyFactsSevered
  cases blockers with
  | none =>
      cases others with
      | none => rfl
      | some other => exact absurd same (by simp)
  | some blockers =>
      cases others with
      | none => exact absurd same (by simp)
      | some other =>
          have named := Option.some.inj same
          dsimp only at named ⊢
          rw [named]

theorem reconcileMove_congr {invariants others : List Nat → Option Invariant}
    (agree : AgreeInside members invariants others)
    {blockers otherBlockers : Option (List Nat → List Pair)}
    (blockersAgree : BlockersAgree members blockers otherBlockers)
    (weigh : Option (Nat → List Edge)) {sweep : Sweep} (placed : Placed members sweep.cells)
    {member : Nat} (known : member ∈ members) (target : Nat) :
    reconcileMove invariants weigh blockers sweep member target =
      reconcileMove others weigh otherBlockers sweep member target := by
  unfold reconcileMove
  rw [agree _ (placed.with_subset _ known)]
  simp only [onlyFactsSevered_congr blockersAgree placed _ known]

theorem reconcile_congr {invariants others : List Nat → Option Invariant}
    (agree : AgreeInside members invariants others)
    {blockers otherBlockers : Option (List Nat → List Pair)}
    (blockersAgree : BlockersAgree members blockers otherBlockers)
    (weigh : Option (Nat → List Edge)) {ordered : List Edge}
    (inside : EdgesInside members ordered) (placed : Placed members cells) :
    reconcile ordered invariants weigh blockers cells =
      reconcile ordered others weigh otherBlockers cells := by
  have sweeps : ordered.foldl (reconcileStep invariants weigh blockers) { cells := cells } =
      ordered.foldl (reconcileStep others weigh otherBlockers) { cells := cells } := by
    refine foldl_congr_of_invariant (fun sweep : Sweep => Placed members sweep.cells) ?_ ?_ placed
    · intro sweep sweepPlaced edge listed
      exact (reconcileStep_reached (inside edge listed).1 (inside edge listed).2
        ⟨sweepPlaced, .refl⟩).1
    · intro sweep sweepPlaced edge listed
      unfold reconcileStep
      dsimp only
      rw [reconcileMove_congr agree blockersAgree weigh sweepPlaced (inside edge listed).1,
        reconcileMove_congr agree blockersAgree weigh sweepPlaced (inside edge listed).2]
  unfold reconcile
  rw [sweeps]

theorem rejoin_congr {strict others : List Nat → Option Invariant}
    (agree : AgreeInside members strict others) {ordered : List Edge}
    (inside : EdgesInside members ordered) (placed : Placed members cells) :
    rejoin ordered strict cells = rejoin ordered others cells := by
  have sweeps : ordered.foldl (rejoinStep strict) { cells := cells } =
      ordered.foldl (rejoinStep others) { cells := cells } := by
    refine foldl_congr_of_invariant (fun sweep : Sweep => Placed members sweep.cells) ?_ ?_ placed
    · intro sweep sweepPlaced edge listed
      exact (rejoinStep_reached (fun _ accepted => accepted) (inside edge listed).1
        (inside edge listed).2 ⟨sweepPlaced, .refl⟩).1
    · intro sweep sweepPlaced edge _
      unfold rejoinStep
      dsimp only
      rw [agree _ (sweepPlaced.union_subset _ _)]
  unfold rejoin
  rw [sweeps]

/-- Two specifications with the same dials whose refusals agree inside the members. -/
structure SpecsAgree (members : List Nat) (left right : PartitionSpec) : Prop where
  dials : right = { left with
    invariants := right.invariants
    rejoinInvariants := right.rejoinInvariants
    shedBlockers := right.shedBlockers }
  invariants : AgreeInside members left.invariants right.invariants
  strict : AgreeInside members (left.rejoinInvariants.getD left.invariants)
    (right.rejoinInvariants.getD right.invariants)
  blockers : BlockersAgree members left.shedBlockers right.shedBlockers

theorem shedMove_congr {spec other : PartitionSpec} (agree : SpecsAgree members spec other)
    {blockers others : List Nat → List Pair} (blockersAgree : AgreeInside members blockers others)
    (around : Nat → List Edge) {sweep : Sweep} (placed : Placed members sweep.cells)
    (edge : Edge) :
    shedMove around spec blockers sweep edge = shedMove around other others sweep edge := by
  have union := placed.union_subset (sweep.cells.home edge.lo) (sweep.cells.home edge.hi)
  have kept : ∀ cover : List Nat, spec.invariants
      ((sortedIds (sweep.cells.cell (sweep.cells.home edge.lo) ++
        sweep.cells.cell (sweep.cells.home edge.hi))).filter (· ∉ cover)) =
      other.invariants ((sortedIds (sweep.cells.cell (sweep.cells.home edge.lo) ++
        sweep.cells.cell (sweep.cells.home edge.hi))).filter (· ∉ cover)) :=
    fun cover => agree.invariants _ fun member held => union (List.mem_of_mem_filter held)
  have guard : other.shedFactlessGuard = spec.shedFactlessGuard := by rw [agree.dials]
  have limit : other.shedMax = spec.shedMax := by rw [agree.dials]
  have sizes : other.shedMaxUnion = spec.shedMaxUnion := by rw [agree.dials]
  unfold shedMove
  dsimp only
  simp only [← blockersAgree _ union, ← agree.invariants _ union, ← kept, guard, limit, sizes]

theorem shed_congr {spec other : PartitionSpec} (agree : SpecsAgree members spec other)
    {blockers others : List Nat → List Pair} (blockersAgree : AgreeInside members blockers others)
    (within : NamesWithin members blockers)
    {ordered : List Edge} (around : Nat → List Edge) (inside : EdgesInside members ordered)
    (placed : Placed members cells) :
    shed ordered around spec blockers cells = shed ordered around other others cells := by
  have sweeps : ordered.foldl (shedStep around spec blockers) { cells := cells } =
      ordered.foldl (shedStep around other others) { cells := cells } := by
    refine foldl_congr_of_invariant (fun sweep : Sweep => Placed members sweep.cells) ?_ ?_ placed
    · intro sweep sweepPlaced edge listed
      exact (shedStep_reached within (inside edge listed).1 (inside edge listed).2
        ⟨sweepPlaced, .refl⟩).1
    · intro sweep sweepPlaced edge _
      unfold shedStep
      rw [shedMove_congr agree blockersAgree around sweepPlaced]
  unfold shed
  rw [sweeps]

/-- Two passes that do the same to every partition of the members, the first
keeping it one. -/
structure SamePass (members : List Nat) (pass other : Cells → Cells × Bool) : Prop where
  keeps : ∀ cells, Placed members cells → Placed members (pass cells).1
  same : ∀ cells, Placed members cells → pass cells = other cells

theorem SamePass.rounds {pass other : Cells → Cells × Bool} (same : SamePass members pass other)
    (fuel : Nat) : SamePass members (rounds pass fuel) (rounds other fuel) where
  keeps := fun _ placed => rounds_invariant _ same.keeps fuel placed
  same := fun _ placed => rounds_congr _ same.keeps same.same fuel placed

theorem SamePass.when {pass other : Cells → Cells × Bool} {dial : Bool}
    (same : dial = true → SamePass members pass other) :
    SamePass members (when dial pass) (when dial other) where
  keeps := by
    intro cells placed
    unfold Autodedup.when
    split_ifs with on
    · exact (same on).keeps cells placed
    · exact placed
  same := by
    intro cells placed
    unfold Autodedup.when
    split_ifs with on
    · exact (same on).same cells placed
    · rfl

theorem reconcileSweep_same {ordered : List Edge} {spec other : PartitionSpec}
    (agree : SpecsAgree members spec other) (inside : EdgesInside members ordered) :
    SamePass members (reconcileSweep ordered spec) (reconcileSweep ordered other) where
  keeps := fun _ placed => (reconcile_reached inside ⟨placed, .refl⟩).1
  same := by
    intro cells placed
    have first : other.reconcileFactlessFirst = spec.reconcileFactlessFirst := by rw [agree.dials]
    have given : spec.shedBlockers.isSome = other.shedBlockers.isSome := by
      have nothing := agree.blockers [] (List.nil_subset _)
      cases left : spec.shedBlockers <;> cases right : other.shedBlockers <;>
        simp_all
    unfold reconcileSweep
    dsimp only
    rw [first, given]
    refine reconcile_congr agree.invariants ?_ _ inside placed
    split_ifs
    · exact agree.blockers
    · exact fun _ _ => rfl

theorem SamePass.thenReconcile {ordered : List Edge} {spec other : PartitionSpec}
    {pass otherPass : Cells → Cells × Bool} (agree : SpecsAgree members spec other)
    (inside : EdgesInside members ordered) (same : SamePass members pass otherPass) :
    SamePass members (thenReconcile ordered spec pass) (thenReconcile ordered other otherPass) where
  keeps := by
    intro cells placed
    unfold Autodedup.thenReconcile
    dsimp only
    split_ifs
    · exact (reconcileSweep_same agree inside).keeps _ (same.keeps cells placed)
    · exact same.keeps cells placed
  same := by
    intro cells placed
    have keep : other.keepFactless = spec.keepFactless := by rw [agree.dials]
    unfold Autodedup.thenReconcile
    dsimp only
    rw [← same.same cells placed, keep,
      (reconcileSweep_same agree inside).same _ (same.keeps cells placed)]

theorem shed_same {ordered : List Edge} {spec other : PartitionSpec} (coherent : Coherent members spec)
    (agree : SpecsAgree members spec other) (inside : EdgesInside members ordered)
    (shedding : spec.shedBlockers.isSome = true) :
    SamePass members
      (shed ordered (neighbours ordered) spec (spec.shedBlockers.getD fun _ => []))
      (shed ordered (neighbours ordered) other (other.shedBlockers.getD fun _ => [])) := by
  obtain ⟨blockers, given⟩ := Option.isSome_iff_exists.mp shedding
  have within := coherent.within blockers given
  have blockersAgree : AgreeInside members blockers (other.shedBlockers.getD fun _ => []) := by
    intro part included
    have named := agree.blockers part included
    rw [given] at named
    cases otherGiven : other.shedBlockers with
    | none => exact absurd named (by simp [otherGiven])
    | some others => simpa [otherGiven] using named
  rw [given, Option.getD_some]
  exact ⟨fun _ placed => (shed_reached within inside ⟨placed, .refl⟩).1,
    fun _ placed => shed_congr agree blockersAgree within _ inside placed⟩

theorem repair_same {ordered : List Edge} {spec other : PartitionSpec} (coherent : Coherent members spec)
    (agree : SpecsAgree members spec other) (inside : EdgesInside members ordered) :
    SamePass members (repair members ordered spec) (repair members ordered other) := by
  have fuel : other.maxRounds = spec.maxRounds := by rw [agree.dials]
  have keep : other.keepFactless = spec.keepFactless := by rw [agree.dials]
  have joins : other.rejoinCells = spec.rejoinCells := by rw [agree.dials]
  have given : other.shedBlockers.isSome = spec.shedBlockers.isSome := by
    have nothing := agree.blockers [] (List.nil_subset _)
    cases left : spec.shedBlockers <;> cases right : other.shedBlockers <;>
      simp_all
  have searched : SamePass members (search spec.invariants (neighbours ordered) members)
      (search other.invariants (neighbours ordered) members) :=
    ⟨fun _ placed => (search_reached inside ⟨placed, .refl⟩).1,
      fun _ placed => search_congr agree.invariants inside placed⟩
  have rejoined : SamePass members
      (rejoin ordered (spec.rejoinInvariants.getD spec.invariants))
      (rejoin ordered (other.rejoinInvariants.getD other.invariants)) :=
    ⟨fun _ placed => (rejoin_reached coherent.stricter inside ⟨placed, .refl⟩).1,
      fun _ placed => rejoin_congr agree.strict inside placed⟩
  have first := searched.rounds spec.maxRounds
  have second := SamePass.when fun _ : spec.keepFactless = true =>
    (reconcileSweep_same agree inside).rounds spec.maxRounds
  have third := SamePass.when fun _ : spec.rejoinCells = true =>
    (rejoined.thenReconcile agree inside).rounds spec.maxRounds
  have fourth := SamePass.when fun on : spec.shedBlockers.isSome = true =>
    ((shed_same coherent agree inside on).thenReconcile agree inside).rounds spec.maxRounds
  constructor
  · intro cells placed
    exact fourth.keeps _ (third.keeps _ (second.keeps _ (first.keeps _ placed)))
  · intro cells placed
    unfold repair
    dsimp only
    rw [fuel, keep, joins, given, ← first.same _ placed,
      ← second.same _ (first.keeps _ placed),
      ← third.same _ (second.keeps _ (first.keeps _ placed)),
      ← fourth.same _ (third.keeps _ (second.keeps _ (first.keeps _ placed)))]

/-- A partition reads its refusals on parts of its component alone. -/
theorem partition_congr {edges : List Edge} {spec other : PartitionSpec}
    (coherent : Coherent members spec) (agree : SpecsAgree members spec other)
    (distinct : members.Nodup) (inside : EdgesInside members edges) :
    partition members edges spec = partition members edges other := by
  have sortedInside : EdgesInside members (sortedBy Edge.rank edges) :=
    fun edge listed => inside edge (mem_sortedBy.mp listed)
  have initial : Placed members (Cells.singletons members) := .singletons distinct
  have greedy : (sortedBy Edge.rank edges).foldl (greedyStep spec.invariants)
        (Cells.singletons members) =
      (sortedBy Edge.rank edges).foldl (greedyStep other.invariants)
        (Cells.singletons members) := by
    refine foldl_congr_of_invariant (Placed members) ?_ ?_ initial
    · intro cells placed edge listed
      exact (greedyStep_reached (sortedInside edge listed).1 (sortedInside edge listed).2
        ⟨placed, .refl⟩).1
    · exact fun cells placed edge _ => greedyStep_congr agree.invariants placed edge
  have outer : other.outerRounds = spec.outerRounds := by rw [agree.dials]
  have placed := (greedy_reached sortedInside
    (⟨initial, .refl⟩ : Reached members (spec.invariants · = none) _ _)).1
  unfold partition cutCells
  dsimp only
  rw [← greedy, outer,
    ((repair_same coherent agree sortedInside).rounds _).same _ placed]

end Reads

end Sreality.Autodedup
