import Sreality.Scraper.DetailQueue

/-! What each call on the detail queue does to its rows and to the ledger of completions: rows
stay under one key, their attempts count the failures recorded, a row that leaves or is given
up is logged once. -/

set_option autoImplicit false

namespace Sreality.Scraper.DetailQueue

open Sreality.Foundation

/-! ### The counts of the history -/

theorem failures_concat (history : List Event) (event : Event) (id : String) :
    failures (history ++ [event]) id =
      if event = .armed id then 0
      else if event = .failed id then failures history id + 1
      else failures history id := by
  simp [failures, List.foldl_append]

theorem failures_append_of_unrelated {history events : List Event} {id : String}
    (unrelated : ∀ event ∈ events, event ≠ .armed id ∧ event ≠ .failed id) :
    failures (history ++ events) id = failures history id := by
  induction events generalizing history with
  | nil => rw [List.append_nil]
  | cons event rest ih =>
      obtain ⟨unarmed, unfailed⟩ := unrelated event List.mem_cons_self
      have later : failures (history ++ [event] ++ rest) id = failures (history ++ [event]) id :=
        ih fun other held => unrelated other (List.mem_cons_of_mem _ held)
      rw [List.append_assoc, List.singleton_append] at later
      rw [later, failures_concat, if_neg unarmed, if_neg unfailed]

theorem failures_append_failed (history : List Event) (ids : List String) (id : String) :
    failures (history ++ ids.map .failed) id = failures history id + ids.count id := by
  induction ids generalizing history with
  | nil => simp
  | cons first rest ih =>
      have later := ih (history ++ [.failed first])
      rw [List.append_assoc, List.singleton_append] at later
      rw [List.map_cons, later, failures_concat, if_neg (by simp)]
      by_cases same : first = id
      · subst same
        rw [if_pos rfl, List.count_cons_self]
        omega
      · rw [if_neg (by simpa using same), List.count_cons_of_ne same]

theorem failures_append_armed (history : List Event) (ids : List String) (id : String) :
    failures (history ++ ids.map .armed) id = if id ∈ ids then 0 else failures history id := by
  induction ids generalizing history with
  | nil => simp
  | cons first rest ih =>
      have later := ih (history ++ [.armed first])
      rw [List.append_assoc, List.singleton_append] at later
      rw [List.map_cons, later, failures_concat]
      by_cases same : id = first
      · simp [same]
      · simp [same, Ne.symm same]

theorem requests_append (history events : List Event) (id : String) :
    requests (history ++ events) id = requests history id + events.count (.requested id) :=
  List.count_append

theorem requests_append_of_unrelated {history events : List Event} {id : String}
    (unrelated : .requested id ∉ events) :
    requests (history ++ events) id = requests history id := by
  rw [requests_append, List.count_eq_zero_of_not_mem unrelated, Nat.add_zero]

namespace World

variable {world after : World}

/-! ### The rows a step takes -/

/-- One advert enqueued: inserted, refreshed while unclaimed, or left to the drain that has it. -/
theorem upsert_cases (world : World) (entry : Entry) :
    ((∀ row ∈ world.rows, row.nativeId ≠ entry.nativeId) ∧ world.upsert entry =
      { world with
        rows := world.rows ++
          [{ nativeId := entry.nativeId, detailRef := entry.detailRef
             indexPriceCzk := sanePriceCzk entry.indexPriceCzk, priority := entry.priority
             enqueuedAt := world.now }]
        history := world.history ++ [.armed entry.nativeId, .requested entry.nativeId] }) ∨
    ((∃ row ∈ world.rows, row.nativeId = entry.nativeId ∧ row.claimedAt = none) ∧
      world.upsert entry =
        { world with
          rows := updateRows (·.nativeId = entry.nativeId)
            (fun row =>
              { row with
                detailRef := entry.detailRef
                indexPriceCzk := sanePriceCzk entry.indexPriceCzk
                priority := max row.priority entry.priority })
            world.rows
          history := world.history ++ [.requested entry.nativeId] }) ∨
    world.upsert entry = world := by
  unfold upsert
  cases found : world.rows.find? (·.nativeId = entry.nativeId) with
  | none =>
      apply Or.inl
      refine ⟨?_, rfl⟩
      intro row held same
      exact List.find?_eq_none.mp found row held (decide_eq_true same)
  | some row =>
      have held := List.mem_of_find?_eq_some found
      have chosen := List.find?_some found
      have same : row.nativeId = entry.nativeId := of_decide_eq_true chosen
      apply Or.inr
      cases claimed : row.claimedAt with
      | none => exact .inl ⟨⟨row, held, same, claimed⟩, by simp [claimed]⟩
      | some claimedAt => exact .inr (by simp [claimed])

theorem mem_rearmed {rows : List QueueRow} {row : QueueRow} (chosen : row ∈ rearmed rows) :
    row ∈ rows ∧ row.givenUp = true ∧ row.claimedAt = none := by
  have selected := List.mem_of_mem_take chosen
  rw [mem_sortedBy, List.mem_filter, Bool.and_eq_true, Option.isNone_iff_eq_none] at selected
  exact selected

/-- A claim takes rows that no drain has and that are not given up. -/
theorem mem_claimBatch {rows : List QueueRow} {limit : Nat} {reserve : Float64} {row : QueueRow}
    (taken : row ∈ claimBatch rows limit reserve) :
    row ∈ rows ∧ row.claimedAt = none ∧ row.givenUp = false := by
  have free : row ∈ rows.filter available := by
    unfold claimBatch at taken
    rw [List.mem_append, List.mem_append] at taken
    obtain (acq | ver) | rest := taken
    · exact List.mem_of_mem_filter (mem_of_mem_firstBy acq)
    · exact List.mem_of_mem_filter (mem_of_mem_firstBy ver)
    · exact List.mem_of_mem_filter (mem_of_mem_firstBy rest)
  rw [List.mem_filter, available, Bool.and_eq_true, Option.isNone_iff_eq_none,
    Bool.not_eq_true'] at free
  exact free

/-- No row is in two of the three classes of a claim. -/
theorem claimBatch_nodup {rows : List QueueRow} (keyed : Keyed (·.nativeId) rows) (limit : Nat)
    (reserve : Float64) : ((claimBatch rows limit reserve).map (·.nativeId)).Nodup := by
  have distinct : (claimBatch rows limit reserve).Nodup := by
    have unclaimed : (rows.filter available).Nodup := keyed.nodup.filter _
    unfold claimBatch
    apply List.nodup_append.mpr
    refine ⟨List.nodup_append.mpr ⟨nodup_firstBy (unclaimed.filter _),
      nodup_firstBy (unclaimed.filter _), ?_⟩, nodup_firstBy (unclaimed.filter _), ?_⟩
    · intro acq acqIn ver verIn same
      subst same
      have new := (List.mem_filter.mp (mem_of_mem_firstBy acqIn)).2
      have check := (List.mem_filter.mp (mem_of_mem_firstBy verIn)).2
      rw [of_decide_eq_true new] at check
      exact absurd check (by decide)
    · intro one oneIn rest restIn same
      subst same
      have other := of_decide_eq_true (List.mem_filter.mp (mem_of_mem_firstBy restIn)).2
      cases List.mem_append.mp oneIn with
      | inl acqIn =>
          exact other.1 (of_decide_eq_true (List.mem_filter.mp (mem_of_mem_firstBy acqIn)).2)
      | inr verIn => exact other.2 (List.mem_map_of_mem verIn)
  apply List.Nodup.map_on _ distinct
  intro one oneIn other otherIn same
  exact keyed.eq (mem_claimBatch oneIn).1 (mem_claimBatch otherIn).1 same

/-! ### The ledger of failures and completions -/

/-- Rows under one key, their attempts the failures recorded, given up from the fifth on. -/
structure Kept (world : World) : Prop where
  keyed : Keyed (·.nativeId) world.rows
  counted : ∀ row ∈ world.rows, row.attempts = failures world.history row.nativeId
  given : ∀ row ∈ world.rows, row.givenUp = decide (giveUpThreshold ≤ row.attempts)
  numbered : ∀ completion ∈ world.completions, completion.id < world.nextCompletion

/-- A step that neither drops a row nor logs, fails or gives up one. -/
structure Quiet (world after : World) : Prop where
  stays : ∀ row ∈ world.rows, ∃ other ∈ after.rows, other.nativeId = row.nativeId
  unlogged : ∀ completion ∈ after.completions, completion ∈ world.completions
  unrisen : ∀ id, failures after.history id ≤ failures world.history id
  unraised : ∀ id, after.GivenUp id → world.GivenUp id

theorem Quiet.refl (world : World) : Quiet world world :=
  ⟨fun row held => ⟨row, held, rfl⟩, fun _ held => held, fun _ => le_refl _, fun _ given => given⟩

theorem Quiet.trans {middle : World} (first : Quiet world middle) (second : Quiet middle after) :
    Quiet world after where
  stays := by
    intro row held
    obtain ⟨between, betweenHeld, same⟩ := first.stays row held
    obtain ⟨other, otherHeld, again⟩ := second.stays between betweenHeld
    exact ⟨other, otherHeld, again.trans same⟩
  unlogged := fun completion held => first.unlogged completion (second.unlogged completion held)
  unrisen := fun id => (second.unrisen id).trans (first.unrisen id)
  unraised := fun id given => first.unraised id (second.unraised id given)

/-- An update of some rows that keeps their ids, raises no failure and gives up none. -/
theorem Quiet.update {applies : QueueRow → Bool} {change : QueueRow → QueueRow}
    {history : List Event} (keeps : ∀ row, (change row).nativeId = row.nativeId)
    (given : ∀ row, (change row).givenUp = true → row.givenUp = true)
    (unrisen : ∀ id, failures history id ≤ failures world.history id) :
    Quiet world
      { world with rows := updateRows applies change world.rows, history := history } where
  stays := by
    intro row held
    refine ⟨_, mem_updateRows.mpr ⟨row, held, rfl⟩, ?_⟩
    by_cases applied : applies row <;> simp [applied, keeps]
  unlogged := fun _ held => held
  unrisen := unrisen
  unraised := by
    rintro id ⟨row, held, named, raised⟩
    obtain ⟨old, oldHeld, rfl⟩ := mem_updateRows.mp held
    refine ⟨old, oldHeld, ?_, ?_⟩
    · by_cases applied : applies old <;> simp_all
    · by_cases applied : applies old
      · exact given old (by simpa [applied] using raised)
      · simpa [applied] using raised

/-- Neither looks at the claims the drains hold; pruned completions are older ones. -/
theorem Quiet.congr {changed : World} (quiet : Quiet world changed)
    (rows : after.rows = changed.rows) (history : after.history = changed.history)
    (pruned : ∀ completion ∈ after.completions, completion ∈ changed.completions) :
    Quiet world after where
  stays := by
    rw [rows]
    exact quiet.stays
  unlogged := fun completion held => quiet.unlogged completion (pruned completion held)
  unrisen := by
    rw [history]
    exact quiet.unrisen
  unraised := by
    unfold GivenUp
    rw [rows]
    exact quiet.unraised

theorem Kept.congr (kept : world.Kept) (rows : after.rows = world.rows)
    (history : after.history = world.history)
    (pruned : ∀ completion ∈ after.completions, completion ∈ world.completions)
    (next : after.nextCompletion = world.nextCompletion) : after.Kept where
  keyed := by
    rw [rows]
    exact kept.keyed
  counted := by
    rw [rows, history]
    exact kept.counted
  given := by
    rw [rows]
    exact kept.given
  numbered := by
    intro completion held
    rw [next]
    exact kept.numbered completion (pruned completion held)

/-- An update that keeps ids, and the attempts and the flag with the recorded failures. -/
theorem Kept.update (kept : world.Kept) {applies : QueueRow → Bool}
    {change : QueueRow → QueueRow} {history : List Event}
    (keeps : ∀ row, (change row).nativeId = row.nativeId)
    (changed : ∀ row ∈ world.rows, applies row = true →
      (change row).attempts = failures history row.nativeId ∧
        (change row).givenUp = decide (giveUpThreshold ≤ (change row).attempts))
    (others : ∀ row ∈ world.rows, applies row = false →
      failures history row.nativeId = failures world.history row.nativeId) :
    Kept { world with rows := updateRows applies change world.rows, history := history } where
  keyed := kept.keyed.updateRows keeps
  counted := by
    intro row held
    obtain ⟨old, oldHeld, rfl⟩ := mem_updateRows.mp held
    by_cases applied : applies old
    · simp only [applied, if_true, keeps]
      exact (changed old oldHeld applied).1
    · rw [Bool.not_eq_true] at applied
      simp only [applied, Bool.false_eq_true, if_false, others old oldHeld applied]
      exact kept.counted old oldHeld
  given := by
    intro row held
    obtain ⟨old, oldHeld, rfl⟩ := mem_updateRows.mp held
    by_cases applied : applies old
    · simp only [applied, if_true]
      exact (changed old oldHeld applied).2
    · rw [Bool.not_eq_true] at applied
      simp only [applied, Bool.false_eq_true, if_false]
      exact kept.given old oldHeld
  numbered := kept.numbered

/-- An update of columns that count nothing. -/
theorem Kept.retouch (kept : world.Kept) {applies : QueueRow → Bool}
    {change : QueueRow → QueueRow} {history : List Event}
    (keeps : ∀ row, (change row).nativeId = row.nativeId ∧
      (change row).attempts = row.attempts ∧ (change row).givenUp = row.givenUp)
    (same : ∀ id, failures history id = failures world.history id) :
    Kept { world with rows := updateRows applies change world.rows, history := history } := by
  apply kept.update
  · exact fun row => (keeps row).1
  · intro row held _
    obtain ⟨_, attempts, given⟩ := keeps row
    rw [attempts, given, same]
    exact ⟨kept.counted row held, kept.given row held⟩
  · exact fun row _ _ => same _

theorem failures_requested (history : List Event) (ids : List String) (id : String) :
    failures (history ++ ids.map .requested) id = failures history id := by
  apply failures_append_of_unrelated
  intro event held
  obtain ⟨other, _, rfl⟩ := List.mem_map.mp held
  exact ⟨nofun, nofun⟩

theorem upsert_kept (kept : world.Kept) (entry : Entry) :
    (world.upsert entry).Kept ∧ Quiet world (world.upsert entry) := by
  obtain ⟨fresh, inserted⟩ | ⟨_, refreshed⟩ | untouched := upsert_cases world entry
  · rw [inserted]
    have counts : ∀ id, failures (world.history ++ [.armed entry.nativeId,
        .requested entry.nativeId]) id = if id = entry.nativeId then 0
          else failures world.history id := by
      intro id
      have armed := failures_append_armed world.history [entry.nativeId] id
      have asked := failures_requested (world.history ++ [.armed entry.nativeId])
        [entry.nativeId] id
      rw [List.append_assoc] at asked
      exact asked.trans (armed.trans (by simp))
    constructor
    · constructor
      · exact kept.keyed.insert fun other held => fresh other held
      · intro row held
        rw [counts]
        cases List.mem_append.mp held with
        | inl old =>
            rw [if_neg (fresh row old)]
            exact kept.counted row old
        | inr new =>
            cases List.mem_singleton.mp new
            rw [if_pos rfl]
      · intro row held
        cases List.mem_append.mp held with
        | inl old => exact kept.given row old
        | inr new =>
            cases List.mem_singleton.mp new
            rfl
      · exact kept.numbered
    · constructor
      · exact fun row held => ⟨row, List.mem_append_left _ held, rfl⟩
      · exact fun _ held => held
      · intro id
        rw [counts]
        split_ifs <;> omega
      · rintro id ⟨row, held, named, given⟩
        cases List.mem_append.mp held with
        | inl old => exact ⟨row, old, named, given⟩
        | inr new =>
            cases List.mem_singleton.mp new
            cases given
  · rw [refreshed]
    have same := failures_requested world.history [entry.nativeId]
    exact ⟨kept.retouch (fun _ => ⟨rfl, rfl, rfl⟩) same,
      Quiet.update (fun _ => rfl) (fun _ given => given) fun id => (same id).le⟩
  · rw [untouched]
    exact ⟨kept, Quiet.refl world⟩

theorem enqueueDetail_kept (kept : world.Kept) (entries : List Entry) :
    (world.enqueueDetail entries).Kept ∧ Quiet world (world.enqueueDetail entries) := by
  unfold enqueueDetail
  induction accepted entries generalizing world with
  | nil => exact ⟨kept, Quiet.refl world⟩
  | cons entry rest ih =>
      obtain ⟨first, quiet⟩ := upsert_kept kept entry
      obtain ⟨later, onward⟩ := ih first
      exact ⟨later, quiet.trans onward⟩

theorem rearm_kept (kept : world.Kept) : world.rearm.Kept ∧ Quiet world world.rearm := by
  have counts : ∀ id, failures (world.history ++ ((rearmed world.rows).map (·.nativeId)).map .armed
      ++ ((rearmed world.rows).map (·.nativeId)).map .requested) id =
      if id ∈ (rearmed world.rows).map (·.nativeId) then 0 else failures world.history id := by
    intro id
    rw [failures_requested, failures_append_armed]
  constructor
  · apply kept.update
    · exact fun _ => rfl
    · intro row _ chosen
      rw [counts, if_pos (of_decide_eq_true chosen)]
      exact ⟨rfl, rfl⟩
    · intro row _ other
      rw [counts, if_neg (of_decide_eq_false other)]
  · apply Quiet.update
    · exact fun _ => rfl
    · exact fun _ given => nomatch given
    · intro id
      rw [counts]
      split_ifs <;> omega

theorem enqueuePresenceChecks_kept (kept : world.Kept)
    (candidates : List (String × Option String × Option Int)) (budget : Nat) :
    (world.enqueuePresenceChecks candidates budget).Kept ∧
      Quiet world (world.enqueuePresenceChecks candidates budget) := by
  unfold enqueuePresenceChecks
  split_ifs
  · exact ⟨kept, Quiet.refl world⟩
  · obtain ⟨queued, quiet⟩ := enqueueDetail_kept kept _
    obtain ⟨armed, onward⟩ := rearm_kept queued
    exact ⟨armed, quiet.trans onward⟩

theorem claimDetailBatch_kept (kept : world.Kept) (drain limit : Nat) (reserve : Float64) :
    (world.claimDetailBatch drain limit reserve).Kept ∧
      Quiet world (world.claimDetailBatch drain limit reserve) := by
  constructor
  · refine (kept.retouch ?_ ?_).congr rfl rfl (fun _ held => held) rfl
    · exact fun _ => ⟨rfl, rfl, rfl⟩
    · exact fun _ => rfl
  · refine (Quiet.update ?_ ?_ ?_).congr rfl rfl fun _ held => held
    · exact fun _ => rfl
    · exact fun _ given => given
    · exact fun _ => le_refl _

theorem releaseClaims_kept (kept : world.Kept) (ids : List String) :
    (world.releaseClaims ids).Kept ∧ Quiet world (world.releaseClaims ids) :=
  ⟨kept.retouch (fun _ => ⟨rfl, rfl, rfl⟩) fun _ => rfl,
    Quiet.update (fun _ => rfl) (fun _ given => given) fun _ => le_refl _⟩

theorem reclaimStaleClaims_kept (kept : world.Kept) :
    world.reclaimStaleClaims.Kept ∧ Quiet world world.reclaimStaleClaims := by
  constructor
  · refine (kept.retouch ?_ ?_).congr rfl rfl (fun _ held => List.mem_of_mem_filter held) rfl
    · exact fun _ => ⟨rfl, rfl, rfl⟩
    · exact fun _ => rfl
  · refine (Quiet.update ?_ ?_ ?_).congr rfl rfl fun _ held => List.mem_of_mem_filter held
    · exact fun _ => rfl
    · exact fun _ given => given
    · exact fun _ => le_refl _

/-! ### What the ledger logs -/

/-- The lines of a log come with fresh numbers. -/
theorem log_numbered (kept : ∀ completion ∈ world.completions, completion.id < world.nextCompletion)
    {rows : List QueueRow} {change : QueueRow → QueueRow} {now : ℚ} {outcome : Outcome} :
    ∀ completion ∈ (world.log (rows.map fun row =>
      (change row).completion row.claimedAt now outcome)).completions,
      completion.id < (world.log (rows.map fun row =>
        (change row).completion row.claimedAt now outcome)).nextCompletion := by
  intro completion held
  simp only [log, List.length_map] at held ⊢
  cases List.mem_append.mp held with
  | inl old =>
      have below := kept completion old
      omega
  | inr new =>
      obtain ⟨⟨line, number⟩, indexed, rfl⟩ := List.mem_map.mp new
      obtain ⟨_, below, taken⟩ := List.mem_zipIdx indexed
      rw [List.length_map] at below
      rw [List.getElem_map] at taken
      rw [taken]
      exact below

section Logged

variable {change : QueueRow → QueueRow} {now : ℚ} {outcome : Outcome}

/-- The lines of a log, from a number of the sequence on. -/
private def numberedLines (change : QueueRow → QueueRow) (now : ℚ) (outcome : Outcome)
    (rows : List QueueRow) (number : Nat) : List Completion :=
  ((rows.map fun row => (change row).completion row.claimedAt now outcome).zipIdx number).map
    fun line => line.1 line.2

private theorem numberedLines_cons (row : QueueRow) (rest : List QueueRow) (number : Nat) :
    numberedLines change now outcome (row :: rest) number =
      (change row).completion row.claimedAt now outcome number ::
        numberedLines change now outcome rest (number + 1) := by
  simp only [numberedLines, List.map_cons, List.zipIdx_cons]

private theorem numberedLines_none (keeps : ∀ row, (change row).nativeId = row.nativeId)
    {rows : List QueueRow} {id : String} (absent : ∀ row ∈ rows, row.nativeId ≠ id)
    (floor number : Nat) :
    (numberedLines change now outcome rows number).filter (fun completion =>
      decide (floor ≤ completion.id ∧ completion.nativeId = id)) = [] := by
  induction rows generalizing number with
  | nil => rfl
  | cons row rest ih =>
      have differs : ((change row).completion row.claimedAt now outcome number).nativeId ≠ id := by
        change (change row).nativeId ≠ id
        rw [keeps]
        exact absent row List.mem_cons_self
      rw [numberedLines_cons, List.filter_cons_of_neg (by simp [differs])]
      exact ih (fun other held => absent other (List.mem_cons_of_mem _ held)) (number + 1)

private theorem numberedLines_one (keeps : ∀ row, (change row).nativeId = row.nativeId)
    {rows : List QueueRow} (keyed : Keyed (·.nativeId) rows) {row : QueueRow} (held : row ∈ rows)
    {floor number : Nat} (above : floor ≤ number) :
    ∃ id, (numberedLines change now outcome rows number).filter (fun completion =>
      decide (floor ≤ completion.id ∧ completion.nativeId = row.nativeId)) =
        [(change row).completion row.claimedAt now outcome id] := by
  induction rows generalizing number with
  | nil => cases held
  | cons first rest ih =>
      obtain ⟨fresh, unique⟩ := List.nodup_cons.mp keyed
      cases List.mem_cons.mp held with
      | inl same =>
          subst same
          refine ⟨number, ?_⟩
          have chosen : floor ≤ ((change row).completion row.claimedAt now outcome number).id ∧
              ((change row).completion row.claimedAt now outcome number).nativeId =
                row.nativeId := ⟨above, keeps row⟩
          rw [numberedLines_cons, List.filter_cons_of_pos (by simpa only [decide_eq_true_eq] using chosen),
            numberedLines_none keeps]
          intro other otherHeld clash
          apply fresh
          change row.nativeId ∈ _
          rw [← clash]
          exact List.mem_map_of_mem otherHeld
      | inr later =>
          obtain ⟨id, only⟩ := ih unique later (above.trans (Nat.le_succ number))
          refine ⟨id, ?_⟩
          have differs : ((change first).completion first.claimedAt now outcome number).nativeId ≠
              row.nativeId := by
            change (change first).nativeId ≠ row.nativeId
            rw [keeps]
            intro clash
            apply fresh
            change first.nativeId ∈ _
            rw [clash]
            exact List.mem_map_of_mem later
          rw [numberedLines_cons, List.filter_cons_of_neg (by simp [differs]), only]

/-- A step that logs some rows: one line for each of them, none for the others. -/
theorem logged_log (kept : world.Kept) (base : World) (now : ℚ) (outcome : Outcome)
    (completions : base.completions = world.completions)
    (next : base.nextCompletion = world.nextCompletion)
    (keeps : ∀ row, (change row).nativeId = row.nativeId) {rows : List QueueRow}
    (keyed : Keyed (·.nativeId) rows) :
    (∀ id, (∀ row ∈ rows, row.nativeId ≠ id) → world.logged (base.log (rows.map fun row =>
      (change row).completion row.claimedAt now outcome)) id = []) ∧
    ∀ row ∈ rows, ∃ id, world.logged (base.log (rows.map fun row =>
      (change row).completion row.claimedAt now outcome)) row.nativeId =
        [(change row).completion row.claimedAt now outcome id] := by
  have split : ∀ id, world.logged (base.log (rows.map fun row =>
      (change row).completion row.claimedAt now outcome)) id =
      (numberedLines change now outcome rows world.nextCompletion).filter fun completion =>
        decide (world.nextCompletion ≤ completion.id ∧ completion.nativeId = id) := by
    intro id
    have old : world.completions.filter (fun completion =>
        decide (world.nextCompletion ≤ completion.id ∧ completion.nativeId = id)) = [] := by
      apply List.filter_eq_nil_iff.mpr
      intro completion held
      have below := kept.numbered completion held
      rw [decide_eq_true_iff]
      omega
    simp only [logged, log, completions, next, List.filter_append, old, List.nil_append]
    rfl
  constructor
  · intro id absent
    rw [split]
    exact numberedLines_none keeps absent _ _
  · intro row held
    rw [split]
    exact numberedLines_one keeps keyed held (le_refl _)

end Logged

theorem logged_of_unlogged (kept : world.Kept)
    (unlogged : ∀ completion ∈ after.completions, completion ∈ world.completions) (id : String) :
    world.logged after id = [] := by
  apply List.filter_eq_nil_iff.mpr
  intro completion held
  have below := kept.numbered completion (unlogged completion held)
  rw [decide_eq_true_iff]
  omega

theorem Quiet.accounted (quiet : Quiet world after) (kept : world.Kept) (action : Action) :
    world.Accounted action after where
  leaves := by
    intro row held gone
    obtain ⟨other, otherHeld, same⟩ := quiet.stays row held
    exact absurd same (gone other otherHeld)
  givesUp := by
    intro id
    have unrisen := quiet.unrisen id
    constructor
    · rintro ⟨before, given⟩
      exact absurd (quiet.unraised id given) before
    · rintro ⟨four, five⟩
      omega
  logsIt := by
    intro id
    rw [logged_of_unlogged kept quiet.unlogged]
    constructor
    · rintro ⟨before, given⟩
      exact absurd (quiet.unraised id given) before
    · exact fun _ => rfl

theorem completeDetail_kept (kept : world.Kept) (ids : List String) (outcome : Outcome) :
    (world.completeDetail ids outcome).Kept where
  keyed := kept.keyed.filter _
  counted := fun row held => kept.counted row (List.mem_of_mem_filter held)
  given := fun row held => kept.given row (List.mem_of_mem_filter held)
  numbered := log_numbered kept.numbered

/-- A row leaves through its completion, and nothing else is logged. -/
theorem completeDetail_accounted (kept : world.Kept) (drain : Nat) (items : List Hold)
    {outcome : Outcome} (done : outcome ≠ .givenUp) :
    world.Accounted (.complete drain items outcome)
      ((world.completeDetail (items.map (·.nativeId)) outcome).drop items) := by
  obtain ⟨none_, one⟩ := logged_log kept
    { world with
      rows := world.rows.filter fun row => decide (row.nativeId ∉ items.map (·.nativeId)) }
    world.now outcome rfl rfl (fun _ => rfl)
    (kept.keyed.filter fun row => decide (row.nativeId ∈ items.map (·.nativeId)))
  have ungiven : ∀ id, ((world.completeDetail (items.map (·.nativeId)) outcome).drop
      items).GivenUp id → world.GivenUp id := by
    rintro id ⟨row, held, named, given⟩
    exact ⟨row, List.mem_of_mem_filter held, named, given⟩
  constructor
  · intro row held gone
    have covered : row.nativeId ∈ items.map (·.nativeId) := by
      by_contra missed
      exact gone row (List.mem_filter.mpr ⟨held, decide_eq_true missed⟩) rfl
    obtain ⟨id, only⟩ := one row (List.mem_filter.mpr ⟨held, decide_eq_true covered⟩)
    exact ⟨drain, items, outcome, id, rfl, only⟩
  · intro id
    constructor
    · rintro ⟨before, given⟩
      exact absurd (ungiven id given) before
    · rintro ⟨four, five⟩
      have same : failures world.history id = 5 := five
      omega
  · intro id
    constructor
    · rintro ⟨before, given⟩
      exact absurd (ungiven id given) before
    · intro _
      by_cases covered : ∃ row ∈ world.rows.filter fun row =>
          decide (row.nativeId ∈ items.map (·.nativeId)), row.nativeId = id
      · obtain ⟨row, held, rfl⟩ := covered
        obtain ⟨number, only⟩ := one row held
        have line : world.logged ((world.completeDetail (items.map (·.nativeId)) outcome).drop
            items) row.nativeId = [row.completion row.claimedAt world.now outcome number] := only
        rw [line]
        apply List.filter_eq_nil_iff.mpr
        intro completion lineHeld
        cases List.mem_singleton.mp lineHeld
        exact fun same => done (of_decide_eq_true same)
      · have empty : world.logged ((world.completeDetail (items.map (·.nativeId)) outcome).drop
            items) id = [] := none_ id fun row held same => covered ⟨row, held, same⟩
        rw [empty, List.filter_nil]

theorem count_failing (kept : world.Kept) (ids : List String) {row : QueueRow}
    (held : row ∈ world.rows) :
    ((world.rows.filter fun row => decide (row.nativeId ∈ ids)).map (·.nativeId)).count
      row.nativeId = if row.nativeId ∈ ids then 1 else 0 := by
  have unique := kept.keyed.filter fun row => decide (row.nativeId ∈ ids)
  by_cases covered : row.nativeId ∈ ids
  · rw [if_pos covered]
    exact List.count_eq_one_of_mem unique
      (List.mem_map_of_mem (List.mem_filter.mpr ⟨held, decide_eq_true covered⟩))
  · rw [if_neg covered]
    apply List.count_eq_zero_of_not_mem
    intro named
    obtain ⟨other, otherHeld, same⟩ := List.mem_map.mp named
    exact covered (same ▸ of_decide_eq_true (List.mem_filter.mp otherHeld).2)

theorem failures_failDetail (ids : List String) (error : String) (id : String) :
    failures (world.failDetail ids error).history id = failures world.history id +
      ((world.rows.filter fun row => decide (row.nativeId ∈ ids)).map (·.nativeId)).count id := by
  have counted := failures_append_failed world.history
    ((world.rows.filter fun row => decide (row.nativeId ∈ ids)).map (·.nativeId)) id
  rw [List.map_map] at counted
  exact counted

theorem failDetail_kept (kept : world.Kept) (ids : List String) (error : String) :
    (world.failDetail ids error).Kept := by
  have counts : ∀ row ∈ world.rows, failures (world.failDetail ids error).history row.nativeId =
      failures world.history row.nativeId + if row.nativeId ∈ ids then 1 else 0 := by
    intro row held
    rw [failures_failDetail, count_failing kept ids held]
  have updated : Kept
      { world with
        rows := updateRows (fun row => decide (row.nativeId ∈ ids)) (failed error) world.rows
        history := (world.failDetail ids error).history } := by
    apply kept.update
    · exact fun _ => rfl
    · intro row held covered
      rw [counts row held, if_pos (of_decide_eq_true covered), ← kept.counted row held]
      exact ⟨rfl, rfl⟩
    · intro row held other
      rw [counts row held, if_neg (of_decide_eq_false other), Nat.add_zero]
  exact ⟨updated.keyed, updated.counted, updated.given, log_numbered kept.numbered⟩

theorem Kept.threshold (kept : world.Kept) {row : QueueRow} (held : row ∈ world.rows) :
    row.givenUp = true ↔ 5 ≤ row.attempts := by
  rw [kept.given row held, decide_eq_true_iff]
  exact Iff.rfl

theorem Kept.givenUp_iff (kept : world.Kept) {row : QueueRow} (held : row ∈ world.rows) :
    world.GivenUp row.nativeId ↔ row.givenUp = true := by
  constructor
  · rintro ⟨other, otherHeld, same, given⟩
    rw [kept.keyed.eq held otherHeld same.symm]
    exact given
  · exact fun given => ⟨row, held, rfl, given⟩

section Failing

variable (kept : world.Kept) (ids : List String) (error : String)

include kept

/-- A row crosses when it is covered with four failures behind it. -/
theorem Kept.crosses_iff (id : String) :
    (¬ world.GivenUp id ∧ (world.failDetail ids error).GivenUp id) ↔
      ∃ row ∈ world.rows, row.nativeId = id ∧ row.nativeId ∈ ids ∧ row.attempts = 4 := by
  constructor
  · rintro ⟨before, ⟨row, held, named, given⟩⟩
    obtain ⟨old, oldHeld, rfl⟩ := mem_updateRows.mp held
    by_cases covered : old.nativeId ∈ ids
    · simp only [covered, decide_true, if_true] at named given
      subst named
      refine ⟨old, oldHeld, rfl, covered, ?_⟩
      have reached : 5 ≤ old.attempts + 1 := of_decide_eq_true given
      have below : ¬ 5 ≤ old.attempts := by
        intro above
        exact before ((kept.givenUp_iff oldHeld).mpr ((kept.threshold oldHeld).mpr above))
      omega
    · simp only [covered, decide_false, Bool.false_eq_true, if_false] at named given
      exact absurd ⟨old, oldHeld, named, given⟩ before
  · rintro ⟨row, held, rfl, covered, four⟩
    constructor
    · rw [kept.givenUp_iff held, kept.threshold held, four]
      omega
    · refine ⟨failed error row, mem_updateRows.mpr ⟨row, held, ?_⟩, rfl, ?_⟩
      · simp only [covered, decide_true, if_true]
      · change decide (5 ≤ row.attempts + 1) = true
        rw [four]
        rfl

/-- The rows logged are those that cross. -/
theorem Kept.mem_crossing (row : QueueRow) :
    row ∈ (world.rows.filter fun row => decide (row.nativeId ∈ ids)).filter (fun row =>
        (failed error row).givenUp && !row.givenUp) ↔
      row ∈ world.rows ∧ row.nativeId ∈ ids ∧ row.attempts = 4 := by
  rw [List.mem_filter, List.mem_filter, Bool.and_eq_true, decide_eq_true_iff, Bool.not_eq_true',
    and_assoc]
  apply and_congr_right
  intro held
  apply and_congr_right
  intro _
  have below : row.givenUp = false ↔ ¬ 5 ≤ row.attempts := by
    rw [← kept.threshold held, Bool.not_eq_true]
  have reached : (failed error row).givenUp = true ↔ 5 ≤ row.attempts + 1 := decide_eq_true_iff
  rw [below, reached]
  omega

/-- The fifth failure is the one of a row that crosses. -/
theorem Kept.fifth_iff (id : String) :
    (∃ row ∈ world.rows, row.nativeId = id ∧ row.nativeId ∈ ids ∧ row.attempts = 4) ↔
      failures world.history id = 4 ∧ failures (world.failDetail ids error).history id = 5 := by
  rw [failures_failDetail]
  constructor
  · rintro ⟨row, held, rfl, covered, four⟩
    rw [count_failing kept _ held, if_pos covered, ← kept.counted row held, four]
    exact ⟨rfl, rfl⟩
  · rintro ⟨four, five⟩
    have failing : id ∈ (world.rows.filter fun row =>
        decide (row.nativeId ∈ ids)).map (·.nativeId) := by
      apply List.count_pos_iff.mp
      omega
    obtain ⟨row, held, rfl⟩ := List.mem_map.mp failing
    obtain ⟨rowHeld, covered⟩ := List.mem_filter.mp held
    refine ⟨row, rowHeld, rfl, of_decide_eq_true covered, ?_⟩
    rw [kept.counted row rowHeld, four]

end Failing

/-- A row is given up at its fifth failure, and that failure logs it. -/
theorem failDetail_accounted (kept : world.Kept) (drain : Nat) (items : List Hold)
    (error : String) :
    world.Accounted (.fail drain items error)
      ((world.failDetail (items.map (·.nativeId)) error).drop items) := by
  have crossed := kept.crosses_iff (items.map (·.nativeId)) error
  have crosses : ∀ id, (¬ world.GivenUp id ∧
      ((world.failDetail (items.map (·.nativeId)) error).drop items).GivenUp id) ↔
        ∃ row ∈ world.rows, row.nativeId = id ∧ row.nativeId ∈ items.map (·.nativeId) ∧
          row.attempts = 4 := crossed
  have crossing := kept.mem_crossing (items.map (·.nativeId)) error
  constructor
  · intro row held gone
    refine absurd ?_ (gone _ (mem_updateRows.mpr ⟨row, held, rfl⟩))
    by_cases covered : row.nativeId ∈ items.map (·.nativeId)
    · simp only [covered, decide_true, if_true]
      rfl
    · simp only [covered, decide_false, Bool.false_eq_true, if_false]
  · exact fun id => (crosses id).trans (kept.fifth_iff _ error id)
  · intro id
    obtain ⟨none_, one⟩ := logged_log kept
      { world with
        rows := updateRows (fun row => decide (row.nativeId ∈ items.map (·.nativeId)))
          (failed error) world.rows
        history := world.history ++ (world.rows.filter fun row =>
          decide (row.nativeId ∈ items.map (·.nativeId))).map fun row => .failed row.nativeId }
      world.now .givenUp rfl rfl (fun row => (rfl : (failed error row).nativeId = row.nativeId))
      ((kept.keyed.filter fun row => decide (row.nativeId ∈ items.map (·.nativeId))).filter
        fun row => (failed error row).givenUp && !row.givenUp)
    rw [crosses]
    constructor
    · rintro ⟨row, held, rfl, covered, four⟩
      obtain ⟨number, only⟩ := one row ((crossing row).mpr ⟨held, covered, four⟩)
      have line : world.logged ((world.failDetail (items.map (·.nativeId)) error).drop items)
          row.nativeId =
        [(failed error row).completion row.claimedAt world.now .givenUp number] := only
      rw [line]
      rfl
    · intro stays
      have empty : world.logged ((world.failDetail (items.map (·.nativeId)) error).drop items)
          id = [] := by
        apply none_ id
        intro row chosen same
        obtain ⟨held, covered, four⟩ := (crossing row).mp chosen
        exact stays ⟨row, held, same, covered, four⟩
      rw [empty, List.filter_nil]

theorem Kept.drop (kept : world.Kept) (items : List Hold) : (world.drop items).Kept :=
  kept.congr rfl rfl (fun _ held => held) rfl

/-- Each step keeps the ledger and accounts for what it does. -/
theorem Kept.step (kept : world.Kept) {action : Action} (taken : world.step action = some after) :
    after.Kept ∧ world.Accounted action after := by
  cases action with
  | tick seconds =>
      dsimp only [World.step] at taken
      split_ifs at taken
      cases taken
      have quiet : Quiet world { world with now := world.now + seconds } :=
        (Quiet.refl world).congr rfl rfl fun _ held => held
      exact ⟨kept.congr rfl rfl (fun _ held => held) rfl, quiet.accounted kept _⟩
  | enqueue entries =>
      cases taken
      obtain ⟨later, quiet⟩ := enqueueDetail_kept kept entries
      exact ⟨later, quiet.accounted kept _⟩
  | presence candidates budget =>
      cases taken
      obtain ⟨later, quiet⟩ := enqueuePresenceChecks_kept kept candidates budget
      exact ⟨later, quiet.accounted kept _⟩
  | claim drain limit reserve =>
      cases taken
      obtain ⟨later, quiet⟩ := claimDetailBatch_kept kept drain limit reserve
      exact ⟨later, quiet.accounted kept _⟩
  | complete drain items outcome =>
      dsimp only [World.step] at taken
      split_ifs at taken with done
      cases taken
      exact ⟨(completeDetail_kept kept _ _).drop items,
        completeDetail_accounted kept drain items done.2⟩
  | fail drain items error =>
      dsimp only [World.step] at taken
      split_ifs at taken
      cases taken
      exact ⟨(failDetail_kept kept _ _).drop items, failDetail_accounted kept drain items error⟩
  | release drain items =>
      dsimp only [World.step] at taken
      split_ifs at taken
      cases taken
      obtain ⟨later, quiet⟩ := releaseClaims_kept kept (items.map (·.nativeId))
      have silent : Quiet world ((world.releaseClaims (items.map (·.nativeId))).drop items) :=
        quiet.congr rfl rfl fun _ held => held
      exact ⟨later.drop items, silent.accounted kept _⟩
  | reclaim =>
      cases taken
      obtain ⟨later, quiet⟩ := reclaimStaleClaims_kept kept
      exact ⟨later, quiet.accounted kept _⟩

end World

end Sreality.Scraper.DetailQueue
