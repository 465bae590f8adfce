import Sreality.Foundation.Tables
import Sreality.Scripts.BrokerQueue

/-! A run clears a row of `dirty_broker_listings` only over the content it attributed, unless a
writer that began by the run's cutoff commits behind it. -/

set_option autoImplicit false

namespace Sreality.Scripts.BrokerQueue

open Sreality.Foundation

/-! ### The walk in ascending order, rotated -/

/-- On a walk from `first` around the ids, `one` comes before `other`. -/
def Ahead (first one other : Nat) : Prop :=
  (first ≤ one ∧ (one < other ∨ other < first)) ∨ (one < other ∧ other < first)

theorem head_le {ids : List Nat} (ascending : ids.Pairwise (· < ·)) {first : Nat}
    (leads : ids.head? = some first) : ∀ id ∈ ids, first ≤ id := by
  obtain ⟨rest, rfl⟩ := List.head?_eq_some_iff.mp leads
  intro id listed
  cases List.mem_cons.mp listed with
  | inl same => exact le_of_eq same.symm
  | inr later => exact le_of_lt ((List.pairwise_cons.mp ascending).1 id later)

theorem le_getLast {ids : List Nat} (ascending : ids.Pairwise (· < ·)) {last : Nat}
    (ends : ids.getLast? = some last) : ∀ id ∈ ids, id ≤ last := by
  obtain ⟨earlier, rfl⟩ := List.getLast?_eq_some_iff.mp ends
  intro id listed
  cases List.mem_append.mp listed with
  | inl before =>
      exact le_of_lt ((List.pairwise_append.mp ascending).2.2 id before last
        (List.mem_singleton_self last))
  | inr same => exact le_of_eq (List.mem_singleton.mp same)

theorem mem_rotateFromCursor (ids : List Nat) (lastId : Option Nat) (id : Nat) :
    id ∈ rotateFromCursor ids lastId ↔ id ∈ ids := by
  cases lastId with
  | none => rfl
  | some lastId =>
      simp only [rotateFromCursor]
      split_ifs with bare
      · rfl
      · simp only [List.mem_append, List.mem_filter, decide_eq_true_iff, ← and_or_left]
        exact and_iff_left (lt_or_ge lastId id)

theorem ahead_of_ascending {ids : List Nat} (ascending : ids.Pairwise (· < ·)) {first : Nat}
    (leads : ids.head? = some first) : ids.Pairwise (Ahead first) := by
  apply ascending.imp_of_mem
  intro one other oneListed _ before
  exact .inl ⟨head_le ascending leads one oneListed, .inl before⟩

theorem ahead_rotateFromCursor {ids : List Nat} (ascending : ids.Pairwise (· < ·))
    (lastId : Option Nat) {first : Nat}
    (leads : (rotateFromCursor ids lastId).head? = some first) :
    (rotateFromCursor ids lastId).Pairwise (Ahead first) := by
  cases lastId with
  | none => exact ahead_of_ascending ascending leads
  | some lastId =>
      simp only [rotateFromCursor] at leads ⊢
      split_ifs at leads ⊢ with bare
      · exact ahead_of_ascending ascending leads
      · obtain ⟨start, rest, tail⟩ := List.exists_cons_of_ne_nil bare
        have same : start = first := by
          rw [tail] at leads
          exact Option.some.inj leads
        have leadsTail : (ids.filter fun id => decide (lastId < id)).head? = some first := by
          rw [tail, same]
          rfl
        have ascendingTail := ascending.filter fun id => decide (lastId < id)
        have past : lastId < first := by
          have held : first ∈ ids.filter fun id => decide (lastId < id) :=
            List.mem_of_mem_head? leadsTail
          exact of_decide_eq_true (List.mem_filter.mp held).2
        apply List.pairwise_append.mpr
        refine ⟨ahead_of_ascending ascendingTail leadsTail, ?_, ?_⟩
        · apply (ascending.filter fun id => decide (id ≤ lastId)).imp_of_mem
          intro one other _ otherListed before
          have small := of_decide_eq_true (List.mem_filter.mp otherListed).2
          exact .inr ⟨before, lt_of_le_of_lt small past⟩
        · intro one oneListed other otherListed
          have small := of_decide_eq_true (List.mem_filter.mp otherListed).2
          exact .inl ⟨head_le ascendingTail leadsTail one oneListed,
            .inr (lt_of_le_of_lt small past)⟩

/-- What the walk has not come to is outside the window it clears, wrapped or not. -/
theorem not_inWindow {done rest : List Nat} {first last id : Nat}
    (ordered : (done ++ rest).Pairwise (Ahead first)) (ends : done.getLast? = some last)
    (waiting : id ∈ rest) : inWindow first last id = false := by
  have held : last ∈ done := List.mem_of_getLast? ends
  have ahead := (List.pairwise_append.mp ordered).2.2 last held id waiting
  simp only [Ahead] at ahead
  simp only [inWindow]
  split_ifs with unwrapped
  · simp only [decide_eq_false_iff_not]
    omega
  · simp only [decide_eq_false_iff_not]
    omega

/-! ### A page of ids -/

theorem mem_take_of_le {sorted : List Nat} (ascending : sorted.Pairwise (· ≤ ·)) {size id other : Nat}
    (listed : id ∈ sorted) (taken : other ∈ sorted.take size) (below : id ≤ other) :
    id ∈ sorted.take size := by
  rw [← List.take_append_drop size sorted] at listed ascending
  cases List.mem_append.mp listed with
  | inl early => exact early
  | inr late =>
      have above := (List.pairwise_append.mp ascending).2.2 other taken id late
      rw [le_antisymm below above]
      exact taken

theorem pairwise_lt_sortedIds {ids : List Nat} (unique : ids.Nodup) :
    (sortedIds ids).Pairwise (· < ·) := by
  have ascending := pairwise_sortedBy id ids
  have distinct : (sortedIds ids).Nodup := nodup_sortedBy.mpr unique
  exact (ascending.and distinct).imp fun both => lt_of_le_of_ne both.1 both.2

/-! ### The invariant -/

theorem lookup_read {world : World} {reads : List (Nat × Nat)} {part : List Nat} {id : Nat}
    (other : id ∉ part) : (world.read reads part).lookup id = reads.lookup id := by
  have none_ : (part.map fun listingId => (listingId, world.content listingId)).lookup id =
      none := by
    apply lookup_eq_none_iff_key.mpr
    simp only [List.map_map]
    intro held
    obtain ⟨listed, listedHeld, rfl⟩ := List.mem_map.mp held
    exact other listedHeld
  simp only [World.read, List.lookup_append, none_, Option.or_none]

/-- What the open attribution transaction has read. -/
def Run.reads (run : Run) : List (Nat × Nat) :=
  match run.phase with
  | .sweeping _ _ _ reads _ => reads
  | .claimed _ reads => reads
  | _ => []

/-- The content the run goes by: what it has read, or else the last attribution. -/
def World.latest (world : World) (run : Run) (id : Nat) : Option Nat :=
  (run.reads.lookup id).or (world.attributed id)

/-- The ids of a full run are in order, and what it has read is ahead of what it has done. -/
def Phase.Ordered : Phase → Prop
  | .collecting last ids => ids.Pairwise (· < ·) ∧ last = ids.getLast?
  | .collected ids => ids.Pairwise (· < ·)
  | .sweeping _ done rest reads _ =>
      (∀ first, (done ++ rest).head? = some first → (done ++ rest).Pairwise (Ahead first)) ∧
        ∀ id, (reads.lookup id).isSome → id ∈ rest
  | _ => True

/-- Every row of the listing is one the open run may clear, and it has passed the listing. -/
def World.Clearable (world : World) (run : Run) (id : Nat) : Prop :=
  ∀ row ∈ world.dirty, row.listingId = id → row.markedAt ≤ run.cutoff ∧ run.passed id

structure Sound (world : World) : Prop where
  attributed : Attributed world
  held : ∀ row ∈ world.dirty, row.listingId ∈ world.listings
  unique : world.listings.Nodup
  current : ∀ run, world.run = some run → ∀ id ∈ world.listings, world.Clearable run id →
    world.latest run id = some (world.content id)
  ordered : ∀ run, world.run = some run → 0 < run.batchSize ∧ run.phase.Ordered

namespace Sound

variable {world : World} {run : Run}

/-- The run goes on in a phase that has passed no further listing. -/
theorem phased (sound : Sound world) (opened : world.run = some run) {phase : Phase}
    (ordered : phase.Ordered)
    (reads : ({ run with phase := phase } : Run).reads = run.reads)
    (passes : ∀ id ∈ world.listings,
      ({ run with phase := phase } : Run).passed id → run.passed id) :
    Sound (world.phased run phase) where
  attributed := sound.attributed
  held := sound.held
  unique := sound.unique
  current := by
    intro after same id listed clearable
    cases same
    simp only [World.latest, reads]
    apply sound.current run opened id listed
    intro row rowHeld of
    obtain ⟨early, passed⟩ := clearable row rowHeld of
    exact ⟨early, passes id listed passed⟩
  ordered := by
    intro after same
    cases same
    exact ⟨(sound.ordered run opened).1, ordered⟩

theorem closed (sound : Sound world) : Sound { world with run := none } where
  attributed := sound.attributed
  held := sound.held
  unique := sound.unique
  current := fun _ opened => by cases opened
  ordered := fun _ opened => by cases opened

/-- A run that has read nothing and passed nothing opens. -/
theorem opened (sound : Sound world) (positive : 0 < run.batchSize) (ordered : run.phase.Ordered)
    (reads : run.reads = []) (passes : ∀ id, ¬ run.passed id) :
    Sound { world with run := some run } where
  attributed := sound.attributed
  held := sound.held
  unique := sound.unique
  current := by
    intro after same id listed clearable
    cases same
    simp only [World.latest, reads, List.lookup_nil, Option.none_or]
    apply sound.attributed id listed
    intro row rowHeld of
    exact passes id (clearable row rowHeld of).2
  ordered := by
    intro after same
    cases same
    exact ⟨positive, ordered⟩

theorem start (sound : Sound world) {batchSize : Nat} {phase : Phase} {after : World}
    (ordered : phase.Ordered)
    (reads : ∀ cutoff, ({ cutoff, batchSize, phase } : Run).reads = [])
    (passes : ∀ cutoff id, ¬ ({ cutoff, batchSize, phase } : Run).passed id)
    (taken : world.start batchSize phase = some after) : Sound after := by
  simp only [World.start] at taken
  split_ifs at taken with busy
  cases taken
  have positive : 0 < batchSize := Nat.pos_of_ne_zero fun zero => busy (.inr zero)
  exact sound.opened positive ordered (reads _) (passes _)

/-- Writers that commit on time leave a row the run will not clear. -/
theorem commit (sound : Sound world) {writer : Nat} {listingIds : List Nat} {after : World}
    (onTime : OnTime world (.commitWriter writer listingIds))
    (taken : world.commit writer listingIds = some after) : Sound after := by
  simp only [World.commit] at taken
  obtain ⟨began, writing, rfl⟩ := Option.map_eq_some_iff.mp taken
  have stamped : ∀ id ∈ listingIds,
      ({ listingId := id, markedAt := began } : DirtyRow) ∈ mark world.dirty began listingIds := by
    intro id changed
    apply List.mem_append_right
    exact List.mem_map.mpr ⟨id, List.mem_eraseDups.mpr changed, rfl⟩
  have kept : ∀ row ∈ world.dirty, row.listingId ∉ listingIds →
      row ∈ mark world.dirty began listingIds := by
    intro row rowHeld other
    exact List.mem_append_left _ (List.mem_filter.mpr ⟨rowHeld, decide_eq_true other⟩)
  have known : ∀ id ∉ listingIds, id ∈ world.listings ++
      listingIds.eraseDups.filter (fun id => decide (id ∉ world.listings)) →
      id ∈ world.listings := by
    intro id other listed
    cases List.mem_append.mp listed with
    | inl old => exact old
    | inr new => exact absurd (List.mem_eraseDups.mp (List.mem_filter.mp new).1) other
  refine ⟨?_, ?_, ?_, ?_, ?_⟩
  · intro id listed bare
    by_cases changed : id ∈ listingIds
    · exact absurd rfl (bare _ (stamped id changed))
    · simp only [changed, if_false]
      apply sound.attributed id (known id changed listed)
      intro row rowHeld of
      exact bare row (kept row rowHeld (of ▸ changed)) of
  · intro row rowHeld
    cases List.mem_append.mp rowHeld with
    | inl old => exact List.mem_append_left _ (sound.held row (List.mem_filter.mp old).1)
    | inr new =>
        obtain ⟨id, changed, rfl⟩ := List.mem_map.mp new
        by_cases listed : id ∈ world.listings
        · exact List.mem_append_left _ listed
        · exact List.mem_append_right _ (List.mem_filter.mpr ⟨changed, decide_eq_true listed⟩)
  · apply List.nodup_append.mpr
    refine ⟨sound.unique, (nodup_eraseDups _).filter _, ?_⟩
    intro old oldHeld new newHeld same
    exact of_decide_eq_true (List.mem_filter.mp newHeld).2 (same ▸ oldHeld)
  · intro run opened id listed clearable
    by_cases changed : id ∈ listingIds
    · obtain ⟨early, passed⟩ := clearable _ (stamped id changed) rfl
      exact absurd passed (onTime began writing run opened early id changed)
    · simp only [changed, if_false]
      apply sound.current run opened id (known id changed listed)
      intro row rowHeld of
      exact clearable row (kept row rowHeld (of ▸ changed)) of
  · exact sound.ordered

theorem page (sound : Sound world) (opened : world.run = some run) {last : Option Nat}
    {ids : List Nat} (phase : run.phase = .collecting last ids) :
    Sound (world.page run last ids) := by
  obtain ⟨positive, ascending, ends⟩ := phase ▸ sound.ordered run opened
  let past := world.listings.filter fun id => last.all fun last => decide (last < id)
  let found := (sortedIds past).take run.batchSize
  have sorted : (sortedIds past).Pairwise (· < ·) :=
    pairwise_lt_sortedIds (sound.unique.filter _)
  have pastOf : ∀ id ∈ sortedIds past, id ∈ world.listings ∧ ∀ bound, last = some bound →
      bound < id := by
    intro id listed
    obtain ⟨known, beyond⟩ := List.mem_filter.mp (mem_sortedBy.mp listed)
    refine ⟨known, fun bound same => ?_⟩
    rw [same] at beyond
    exact of_decide_eq_true beyond
  have joined : (ids ++ found).Pairwise (· < ·) := by
    apply List.pairwise_append.mpr
    refine ⟨ascending, sorted.sublist (List.take_sublist _ _), ?_⟩
    intro one oneHeld other otherHeld
    obtain ⟨bound, bounded⟩ : ∃ bound, ids.getLast? = some bound :=
      Option.isSome_iff_exists.mp (by
        rw [List.getLast?_isSome]
        exact List.ne_nil_of_mem oneHeld)
    have beyond := (pastOf other (List.mem_of_mem_take otherHeld)).2 bound (ends.trans bounded)
    exact lt_of_le_of_lt (le_getLast ascending bounded one oneHeld) beyond
  -- A listing the page skips lies at or before the page's start.
  have before : ∀ id ∈ world.listings, id ∉ ids ++ found →
      (found.length < run.batchSize ∨ ∃ bound, found.getLast? = some bound ∧ id ≤ bound) →
      run.passed id := by
    intro id listed skipped covered
    simp only [Run.passed, phase]
    refine ⟨?_, fun held => skipped (List.mem_append_left _ held)⟩
    by_contra ahead
    apply skipped
    apply List.mem_append_right
    have due : id ∈ sortedIds past := by
      apply mem_sortedBy.mpr
      apply List.mem_filter.mpr
      refine ⟨listed, ?_⟩
      cases last with
      | none => rfl
      | some bound =>
          apply decide_eq_true
          by_contra reached
          exact ahead ⟨bound, rfl, not_lt.mp reached⟩
    cases covered with
    | inl short =>
        have whole : found = sortedIds past := by
          apply List.take_of_length_le
          by_contra more
          have full : found.length = run.batchSize :=
            List.length_take_of_le (le_of_lt (not_le.mp more))
          omega
        rw [whole]
        exact due
    | inr bounded =>
        obtain ⟨bound, final, below⟩ := bounded
        exact mem_take_of_le (sorted.imp le_of_lt) due (List.mem_of_getLast? final) below
  have pageIs : world.page run last ids =
      if found.length < run.batchSize then world.phased run (.collected (ids ++ found))
      else world.phased run (.collecting found.getLast? (ids ++ found)) := rfl
  have noReads : run.reads = [] := by simp only [Run.reads, phase]
  rw [pageIs]
  split_ifs with short
  · refine sound.phased opened joined noReads.symm fun id listed passed => ?_
    exact before id listed passed (.inl short)
  · have full : found ≠ [] := by
      intro none_
      rw [none_] at short
      exact short positive
    refine sound.phased opened ⟨joined, ?_⟩ noReads.symm fun id listed passed => ?_
    · rw [List.getLast?_append_of_ne_nil _ full]
    · exact before id listed passed.2 (.inr passed.1)

theorem rotate (sound : Sound world) (opened : world.run = some run) {ids : List Nat}
    (phase : run.phase = .collected ids) : Sound (world.rotate run ids) := by
  obtain ⟨_, ascending⟩ := phase ▸ sound.ordered run opened
  refine sound.phased opened ⟨?_, ?_⟩ ?_ ?_
  · intro first leads
    exact ahead_rotateFromCursor ascending _ leads
  · intro id read
    cases read
  · simp only [Run.reads, phase]
  · intro id _ passed
    simp only [Run.passed, phase]
    cases passed with
    | inl outside => exact fun held => outside ((mem_rotateFromCursor ids _ id).mpr held)
    | inr read => cases read

theorem claim (sound : Sound world) (opened : world.run = some run)
    (phase : run.phase = .claiming) : Sound (world.claim run) := by
  simp only [World.claim]
  split_ifs
  · exact sound.closed
  · refine sound.phased opened trivial ?_ ?_
    · simp only [Run.reads, phase]
    · intro id _ read
      cases read

/-- The statement of a source reads its part of the chunk. -/
theorem read (sound : Sound world) (opened : world.run = some run) {phase : Phase}
    {chunk part : List Nat} (ordered : phase.Ordered) (fresh : unread chunk run.reads part = true)
    (reads : ({ run with phase := phase } : Run).reads = world.read run.reads part)
    (passes : ∀ id ∉ part, ({ run with phase := phase } : Run).passed id → run.passed id) :
    Sound (world.phased run phase) where
  attributed := sound.attributed
  held := sound.held
  unique := sound.unique
  current := by
    intro after same id listed clearable
    cases same
    simp only [World.latest, reads]
    by_cases taken : id ∈ part
    · have none_ : run.reads.lookup id = none := by
        have both := List.all_eq_true.mp fresh id taken
        rw [Bool.and_eq_true, Option.isNone_iff_eq_none] at both
        exact both.2
      have found : (part.map fun listingId => (listingId, world.content listingId)).lookup id =
          some (world.content id) := by
        rw [List.lookup_graph]
        exact taken
      simp only [World.read, List.lookup_append, none_, found, Option.none_or, Option.some_or]
      rfl
    · rw [lookup_read taken]
      apply sound.current run opened id listed
      intro row rowHeld of
      obtain ⟨early, passed⟩ := clearable row rowHeld of
      exact ⟨early, passes id taken passed⟩
  ordered := by
    intro after same
    cases same
    exact ⟨(sound.ordered run opened).1, ordered⟩

/-- The attribution transaction commits what it has read. -/
theorem attributeReads (sound : Sound world) (opened : world.run = some run) {phase : Phase}
    (ordered : phase.Ordered) (reads : ({ run with phase := phase } : Run).reads = [])
    (passes : ∀ id, ({ run with phase := phase } : Run).passed id → run.passed id) :
    Sound ((world.attributeReads run.reads).phased run phase) where
  attributed := by
    intro id listed bare
    apply sound.current run opened id listed
    intro row rowHeld of
    exact absurd of (bare row rowHeld)
  held := sound.held
  unique := sound.unique
  current := by
    intro after same id listed clearable
    cases same
    simp only [World.latest, reads, List.lookup_nil, Option.none_or]
    apply sound.current run opened id listed
    intro row rowHeld of
    obtain ⟨early, passed⟩ := clearable row rowHeld of
    exact ⟨early, passes id passed⟩
  ordered := by
    intro after same
    cases same
    exact ⟨(sound.ordered run opened).1, ordered⟩

theorem endSweep (sound : Sound world) (opened : world.run = some run) {total lapSwept : Nat}
    {done rest : List Nat} (phase : run.phase = .sweeping total done rest [] lapSwept)
    (begun : ¬ (done = [] ∧ rest ≠ [])) :
    Sound (world.endSweep run total done (decide (rest = [])) lapSwept) := by
  obtain ⟨_, ordered, _⟩ := phase ▸ sound.ordered run opened
  have moved : ∀ cursor, Sound { world with cursor := cursor } := fun cursor =>
    ⟨sound.attributed, sound.held, sound.unique, sound.current, sound.ordered⟩
  have anywhere : (Phase.swept (decide (rest = [])) done.head? done.getLast?).Ordered := trivial
  refine (moved (world.sweepProgress total done lapSwept)).phased opened anywhere ?_ ?_
  · simp only [Run.reads, phase]
  · intro id _ cleared
    simp only [Run.passed, phase]
    left
    intro waiting
    have open_ : rest ≠ [] := List.ne_nil_of_mem waiting
    have some_ : done ≠ [] := fun none_ => begun ⟨none_, open_⟩
    obtain ⟨first, more, rfl⟩ := List.exists_cons_of_ne_nil some_
    have ends := List.getLast?_eq_some_getLast some_
    have outside := not_inWindow (ordered first rfl) ends waiting
    simp only [Run.passed, clears, open_, decide_false, ends, List.head?_cons] at cleared
    rw [outside] at cleared
    exact absurd cleared (by decide)

/-- The run clears rows of listings it has attributed. -/
theorem clear (sound : Sound world) (opened : world.run = some run) {cleared : Nat → Bool}
    (reads : run.reads = []) (passes : ∀ id, cleared id = true → run.passed id) (lost : Bool) :
    Sound (world.clear run cleared lost) := by
  -- What the listing has lost and what it has left were both the run's to clear.
  have settled : ∀ id ∈ world.listings, (world.clear run cleared lost).Clearable run id →
      world.attributed id = some (world.content id) := by
    intro id listed clearable
    have current := sound.current run opened id listed
    simp only [World.latest, reads, List.lookup_nil, Option.none_or] at current
    apply current
    intro row rowHeld of
    cases gone : decide (row.markedAt ≤ run.cutoff) && cleared row.listingId with
    | true =>
        obtain ⟨early, matched⟩ := Bool.and_eq_true_iff.mp gone
        exact ⟨of_decide_eq_true early, passes id (of ▸ matched)⟩
    | false =>
        apply clearable row _ of
        apply List.mem_filter.mpr
        exact ⟨rowHeld, by rw [gone]; rfl⟩
  refine ⟨?_, ?_, sound.unique, ?_, ?_⟩
  · intro id listed bare
    apply settled id listed
    intro row rowHeld of
    exact absurd of (bare row rowHeld)
  · intro row rowHeld
    exact sound.held row (List.mem_filter.mp rowHeld).1
  · intro after same id listed clearable
    simp only [World.clear] at same
    split_ifs at same with again
    cases same
    simp only [World.latest, reads, List.lookup_nil, Option.none_or]
    exact settled id listed clearable
  · intro after same
    simp only [World.clear] at same
    split_ifs at same with again
    cases same
    exact sound.ordered run opened

/-- An attribution transaction that failed has read nothing. -/
theorem rolledBack (sound : Sound world) (opened : world.run = some run) {phase : Phase}
    (ordered : phase.Ordered) (reads : ({ run with phase := phase } : Run).reads = [])
    (passes : ∀ id, ({ run with phase := phase } : Run).passed id →
      run.passed id ∧ run.reads.lookup id = none) : Sound (world.phased run phase) where
  attributed := sound.attributed
  held := sound.held
  unique := sound.unique
  current := by
    intro after same id listed clearable
    cases same
    simp only [World.latest, reads, List.lookup_nil, Option.none_or]
    by_cases bare : ∀ row ∈ world.dirty, row.listingId ≠ id
    · exact sound.attributed id listed bare
    · push Not at bare
      obtain ⟨row, rowHeld, of⟩ := bare
      have unseen := (passes id (clearable row rowHeld of).2).2
      have current := sound.current run opened id listed fun row rowHeld of =>
        ⟨(clearable row rowHeld of).1, (passes id (clearable row rowHeld of).2).1⟩
      simp only [World.latest, unseen, Option.none_or] at current
      exact current
  ordered := by
    intro after same
    cases same
    exact ⟨(sound.ordered run opened).1, ordered⟩

theorem attributeSource (sound : Sound world) (opened : world.run = some run) {part : List Nat}
    {after : World} (taken : runStep world run (.attributeSource part) = some after) :
    Sound after := by
  simp only [runStep] at taken
  split at taken
  case h_1 total done rest reads lapSwept phase =>
      split_ifs at taken with fresh
      cases taken
      obtain ⟨_, ordered, ahead⟩ := phase ▸ sound.ordered run opened
      have own : run.reads = reads := by simp only [Run.reads, phase]
      rw [← own] at fresh ahead ⊢
      have inRest : ∀ id ∈ part, id ∈ rest := by
        intro id listed
        have both := List.all_eq_true.mp fresh id listed
        rw [Bool.and_eq_true, decide_eq_true_iff] at both
        exact List.mem_of_mem_take both.1
      have skips : ∀ id ∉ part, (world.read run.reads part).lookup id = run.reads.lookup id :=
        fun id other => lookup_read other
      refine sound.read opened ⟨ordered, ?_⟩ fresh rfl ?_
      · intro id read
        by_cases listed : id ∈ part
        · exact inRest id listed
        · rw [skips id listed] at read
          exact ahead id read
      · intro id other passed
        simp only [Run.passed, phase] at passed ⊢
        rw [skips id other, own] at passed
        exact passed
  case h_2 ids reads phase =>
      split_ifs at taken with fresh
      cases taken
      have own : run.reads = reads := by simp only [Run.reads, phase]
      rw [← own] at fresh ⊢
      refine sound.read opened trivial fresh rfl ?_
      intro id other passed
      simp only [Run.passed, phase] at passed ⊢
      rw [lookup_read other, own] at passed
      exact passed
  case h_3 => cases taken

theorem commitChunk (sound : Sound world) (opened : world.run = some run) {lost : Bool}
    {after : World} (taken : runStep world run (.commitChunk lost) = some after) :
    Sound after := by
  simp only [runStep] at taken
  split at taken
  case h_1 total done rest reads lapSwept phase =>
      obtain ⟨_, ordered, _⟩ := phase ▸ sound.ordered run opened
      have own : run.reads = reads := by simp only [Run.reads, phase]
      rw [← own] at taken
      split_ifs at taken with early again
      · cases taken
        refine sound.attributeReads opened ⟨ordered, fun id read => by cases read⟩ rfl ?_
        intro id passed
        simp only [Run.passed, phase]
        cases passed with
        | inl outside => exact .inl outside
        | inr read => cases read
      · cases taken
        have whole : allRead (rest.take run.batchSize) run.reads = true := by
          by_contra part
          exact early (.inr (Bool.eq_false_iff.mpr part))
        have same : done ++ rest.take run.batchSize ++ rest.drop run.batchSize = done ++ rest := by
          rw [List.append_assoc, List.take_append_drop]
        refine sound.attributeReads opened ⟨?_, fun id read => by cases read⟩ rfl ?_
        · rw [same]
          exact ordered
        · intro id passed
          simp only [Run.passed, phase]
          cases passed with
          | inr read => cases read
          | inl outside =>
              by_cases held : id ∈ rest
              · right
                rw [← List.take_append_drop run.batchSize rest] at held
                rw [← own]
                exact List.all_eq_true.mp whole id
                  ((List.mem_append.mp held).resolve_right outside)
              · exact .inl held
  case h_2 ids reads phase =>
      have own : run.reads = reads := by simp only [Run.reads, phase]
      rw [← own] at taken
      split_ifs at taken with early again
      · cases taken
        refine sound.attributeReads opened trivial rfl ?_
        intro id passed
        cases passed
      · cases taken
        refine sound.attributeReads opened trivial rfl ?_
        intro id passed
        simp only [Run.passed, phase]
        rw [← own]
        exact List.all_eq_true.mp (Bool.eq_true_of_not_eq_false early) id passed
  case h_3 => cases taken

theorem retry (sound : Sound world) (opened : world.run = some run) {after : World}
    (taken : runStep world run .retry = some after) : Sound after := by
  simp only [runStep] at taken
  split at taken
  case h_1 last ids phase =>
      cases taken
      refine sound.rolledBack opened ⟨List.Pairwise.nil, rfl⟩ rfl ?_
      intro id passed
      obtain ⟨⟨_, none_, _⟩, _⟩ := passed
      cases none_
  case h_2 total done rest reads lapSwept phase =>
      cases taken
      obtain ⟨_, ordered, ahead⟩ := phase ▸ sound.ordered run opened
      refine sound.rolledBack opened ⟨ordered, fun id read => by cases read⟩ rfl ?_
      intro id passed
      simp only [Run.passed, Run.reads, phase]
      cases passed with
      | inr read => cases read
      | inl outside =>
          refine ⟨.inl outside, ?_⟩
          cases found : reads.lookup id with
          | none => rfl
          | some seen => exact absurd (ahead id (by rw [found]; rfl)) outside
  case h_3 ids reads phase =>
      cases taken
      refine sound.rolledBack opened trivial rfl ?_
      intro id passed
      cases passed
  case h_4 => cases taken

theorem runStep (sound : Sound world) (opened : world.run = some run) {action : Action}
    {after : World} (taken : runStep world run action = some after) : Sound after := by
  cases action with
  | page =>
      simp only [BrokerQueue.runStep] at taken
      split at taken
      case h_1 last ids phase =>
          cases taken
          exact sound.page opened phase
      case h_2 => cases taken
  | rotate =>
      simp only [BrokerQueue.runStep] at taken
      split at taken
      case h_1 ids phase =>
          cases taken
          exact sound.rotate opened phase
      case h_2 => cases taken
  | claim =>
      simp only [BrokerQueue.runStep] at taken
      split at taken
      case h_1 phase =>
          cases taken
          exact sound.claim opened phase
      case h_2 => cases taken
  | attributeSource part => exact sound.attributeSource opened taken
  | commitChunk lost => exact sound.commitChunk opened taken
  | endSweep =>
      simp only [BrokerQueue.runStep] at taken
      split at taken
      case h_1 total done rest lapSwept phase =>
          split_ifs at taken with begun
          cases taken
          exact sound.endSweep opened phase begun
      case h_2 => cases taken
  | finalize lost =>
      simp only [BrokerQueue.runStep] at taken
      split at taken
      case h_1 complete first last phase =>
          cases taken
          refine sound.clear opened ?_ ?_ lost
          · simp only [Run.reads, phase]
          · intro id cleared
            simp only [Run.passed, phase]
            exact cleared
      case h_2 ids phase =>
          cases taken
          refine sound.clear opened ?_ ?_ lost
          · simp only [Run.reads, phase]
          · intro id cleared
            simp only [Run.passed, phase]
            exact of_decide_eq_true cleared
      case h_3 => cases taken
  | retry => exact sound.retry opened taken
  | kill =>
      cases taken
      exact sound.closed
  | wait _ => cases taken
  | beginWriter _ => cases taken
  | commitWriter _ _ => cases taken
  | startFull _ => cases taken
  | startIncremental _ => cases taken

theorem step (sound : Sound world) {action : Action} {after : World}
    (onTime : OnTime world action) (taken : step world action = some after) : Sound after := by
  cases action with
  | wait seconds =>
      simp only [BrokerQueue.step] at taken
      split_ifs at taken
      cases taken
      exact ⟨sound.attributed, sound.held, sound.unique, sound.current, sound.ordered⟩
  | beginWriter writer =>
      simp only [BrokerQueue.step] at taken
      split_ifs at taken
      cases taken
      exact ⟨sound.attributed, sound.held, sound.unique, sound.current, sound.ordered⟩
  | commitWriter writer listingIds => exact sound.commit onTime taken
  | startFull batchSize =>
      refine sound.start ?_ (fun _ => rfl) ?_ taken
      · exact ⟨List.Pairwise.nil, rfl⟩
      · intro cutoff id passed
        obtain ⟨⟨_, none_, _⟩, _⟩ := passed
        cases none_
  | startIncremental batchSize =>
      refine sound.start ?_ (fun _ => rfl) ?_ taken
      · trivial
      · exact fun _ _ passed => passed
  | _ =>
      obtain ⟨run, opened, moved⟩ := Option.bind_eq_some_iff.mp taken
      exact sound.runStep opened moved

end Sound

/-! ### Runs -/

/-- The queue between runs: no listing without its row is behind, and the rows are of listings. -/
structure World.Initial (world : World) : Prop where
  attributed : Attributed world
  held : ∀ row ∈ world.dirty, row.listingId ∈ world.listings
  unique : world.listings.Nodup
  idle : world.run = none

theorem World.Initial.sound {world : World} (initial : world.Initial) : Sound world where
  attributed := initial.attributed
  held := initial.held
  unique := initial.unique
  current := fun run opened => by rw [initial.idle] at opened; cases opened
  ordered := fun run opened => by rw [initial.idle] at opened; cases opened

theorem sound_of_reaches {start world : World} (initial : start.Initial)
    (reached : Reaches step OnTime start world) : Sound world :=
  reached.invariant Sound initial.sound fun _ _ _ sound onTime taken => sound.step onTime taken

/-- What the step leaves without its queue row is attributed from its current content. -/
def Vanishing (world after : World) : Prop :=
  ∀ row ∈ world.dirty, (∀ left ∈ after.dirty, left.listingId ≠ row.listingId) →
    after.attributed row.listingId = some (after.content row.listingId)

theorem listings_runStep {world after : World} {run : Run} {action : Action}
    (taken : runStep world run action = some after) : after.listings = world.listings := by
  have paged : ∀ last ids, (world.page run last ids).listings = world.listings := by
    intro last ids
    simp only [World.page]
    split_ifs <;> rfl
  have claimed : (world.claim run).listings = world.listings := by
    simp only [World.claim]
    split_ifs <;> rfl
  cases action with
  | page =>
      simp only [runStep] at taken
      split at taken <;> cases taken
      exact paged _ _
  | claim =>
      simp only [runStep] at taken
      split at taken <;> cases taken
      exact claimed
  | _ =>
      simp only [runStep] at taken
      repeat' split at taken
      all_goals cases taken <;> rfl

/-- No statement removes a listing. -/
theorem listings_step {world after : World} {action : Action}
    (taken : step world action = some after) : ∀ id ∈ world.listings, id ∈ after.listings := by
  intro id listed
  cases action with
  | commitWriter writer listingIds =>
      obtain ⟨_, _, rfl⟩ := Option.map_eq_some_iff.mp taken
      exact List.mem_append_left _ listed
  | wait _ | beginWriter _ | startFull _ | startIncremental _ =>
      simp only [step, World.start] at taken
      split_ifs at taken
      cases taken
      exact listed
  | _ =>
      obtain ⟨run, _, moved⟩ := Option.bind_eq_some_iff.mp taken
      rw [listings_runStep moved]
      exact listed

theorem no_change_lost (start world : World) (initial : start.Initial)
    (reached : Reaches step OnTime start world) :
    Attributed world ∧ ∀ action after, OnTime world action → step world action = some after →
      Vanishing world after := by
  have sound := sound_of_reaches initial reached
  refine ⟨sound.attributed, ?_⟩
  intro action after onTime taken row rowHeld bare
  apply (sound.step onTime taken).attributed row.listingId
  · exact listings_step taken _ (sound.held row rowHeld)
  · exact bare

/-! ### A writer that commits behind the run -/

/-- One listing whose row is queued. -/
def oneDirty : World where
  now := 100
  listings := [1]
  content := fun _ => 0
  attributed := fun _ => none
  dirty := [{ listingId := 1, markedAt := 50 }]
  cursor := none
  writers := []
  run := none

theorem oneDirty_initial : oneDirty.Initial where
  attributed := by
    intro id listed bare
    cases List.mem_singleton.mp listed
    exact absurd rfl (bare _ (List.mem_singleton_self _))
  held := by decide
  unique := by decide
  idle := rfl

/-- A full run beside a writer that begins after its cutoff and commits behind it. -/
def fullRun : List Action :=
  [.startFull 10, .wait 1, .beginWriter 0, .page, .rotate, .attributeSource [1],
    .commitWriter 0 [1, 2], .commitChunk false, .endSweep, .finalize false]

theorem no_change_lost_in_a_full_run :
    ∃ final, replay step oneDirty fullRun = some final ∧
      final.dirty = [{ listingId := 1, markedAt := 101 }, { listingId := 2, markedAt := 101 }] ∧
      Attributed final ∧ ∀ action after, OnTime final action → step final action = some after →
        Vanishing final after := by
  obtain ⟨final, replayed⟩ : ∃ final, replay step oneDirty fullRun = some final :=
    Option.isSome_iff_exists.mp (by decide +kernel)
  have queued : (replay step oneDirty fullRun).all fun final => decide (final.dirty =
      [{ listingId := 1, markedAt := 101 }, { listingId := 2, markedAt := 101 }]) := by
    decide +kernel
  rw [replayed, Option.all_some, decide_eq_true_iff] at queued
  have onTime : allowedAll step OnTime oneDirty fullRun := by decide +kernel
  exact ⟨final, replayed, queued,
    no_change_lost oneDirty final oneDirty_initial (reaches_of_replay replayed onTime)⟩

/-- The run attributes the listing before the writer that began first commits its change. -/
def lateCommit : List Action :=
  [.beginWriter 0, .wait 1, .startIncremental 10, .claim, .attributeSource [1],
    .commitChunk false, .commitWriter 0 [1], .finalize false]

theorem late_commit_loses_a_change :
    ¬ ∀ start world : World, start.Initial → Reaches step (fun _ _ => True) start world →
      world.run = none → world.writers = [] → Attributed world := by
  intro all
  obtain ⟨final, replayed⟩ : ∃ final, replay step oneDirty lateCommit = some final :=
    Option.isSome_iff_exists.mp (by decide +kernel)
  have reached := reaches_of_replay replayed (allowedAll_true step oneDirty lateCommit)
  have facts : (replay step oneDirty lateCommit).all fun final =>
      decide (final.run = none) && decide (final.writers = []) && decide (1 ∈ final.listings) &&
        decide (final.dirty = []) && decide (final.attributed 1 ≠ some (final.content 1)) := by
    decide +kernel
  rw [replayed, Option.all_some] at facts
  simp only [Bool.and_eq_true, decide_eq_true_iff] at facts
  obtain ⟨⟨⟨⟨idle, committed⟩, listed⟩, empty⟩, behind⟩ := facts
  apply behind
  apply all oneDirty final oneDirty_initial reached idle committed 1 listed
  intro row rowHeld
  rw [empty] at rowHeld
  cases rowHeld

end Sreality.Scripts.BrokerQueue
