import Mathlib.Data.List.Lex
import Sreality.Scraper.JobRuns

/-! What each call on the scheduled jobs does to a job's lease and to its open run: a row is leased
exactly while a run of it is open, to the holder of that run. -/

set_option autoImplicit false

namespace Sreality.Scraper.JobLease

open Sreality.Foundation

namespace Database

variable {db after : Database} {now : ℚ} {job other : String}

/-- Who has the job, and until when. -/
def lease (db : Database) (job : String) : Option (String × Option ℚ) :=
  (db.row job).bind fun row => row.leaseHolder.map fun holder => (holder, row.leaseExpiresAt)

def openOf (db : Database) (job : String) : List JobRun :=
  db.runs.filter fun run => decide (run.jobName = job) && run.closed.isNone

theorem mem_openOf {run : JobRun} :
    run ∈ db.openOf job ↔ run ∈ db.runs ∧ run.jobName = job ∧ run.closed = none := by
  rw [openOf, List.mem_filter, Bool.and_eq_true, decide_eq_true_iff, Option.isNone_iff_eq_none]

theorem mem_of_row {row : JobRow} (found : db.row job = some row) :
    row ∈ db.rows ∧ row.jobName = job := by
  unfold Database.row at found
  have chosen := List.find?_some found
  exact ⟨List.mem_of_find?_eq_some found, of_decide_eq_true chosen⟩

theorem row_of_mem (keyed : Keyed (·.jobName) db.rows) {row : JobRow} (held : row ∈ db.rows) :
    db.row row.jobName = some row :=
  keyed.find? held

theorem lease_eq_some {holder : String} {expires : Option ℚ} :
    db.lease job = some (holder, expires) ↔ ∃ row, db.row job = some row ∧
      row.leaseHolder = some holder ∧ row.leaseExpiresAt = expires := by
  unfold lease
  cases db.row job with
  | none => simp
  | some row => cases held : row.leaseHolder <;> simp [held]

/-! ### Changes of rows -/

theorem row_map {change : JobRow → JobRow} (keeps : ∀ row, (change row).jobName = row.jobName) :
    ({ db with rows := db.rows.map change } : Database).row job = (db.row job).map change := by
  have same : (fun row : JobRow => decide (row.jobName = job)) ∘ change =
      fun row => decide (row.jobName = job) := by
    funext row
    simp only [Function.comp_apply, keeps]
  unfold row
  rw [List.find?_map, same]

theorem row_changeRow {change : JobRow → JobRow}
    (keeps : ∀ row, (change row).jobName = row.jobName) :
    (db.changeRow job change).row other =
      (db.row other).map fun row => if other = job then change row else row := by
  have changed := @row_map db other (fun row => if decide (row.jobName = job) then change row
    else row) (fun row => by split_ifs <;> simp [keeps])
  refine (changed.trans ?_)
  cases found : db.row other with
  | none => rfl
  | some row => simp [(mem_of_row found).2]

theorem keyed_map (keyed : Keyed (·.jobName) db.rows) {change : JobRow → JobRow}
    (keeps : ∀ row, (change row).jobName = row.jobName) :
    Keyed (·.jobName) (db.rows.map change) := by
  have names : (db.rows.map change).map (·.jobName) = db.rows.map (·.jobName) := by
    rw [List.map_map]
    exact List.map_congr_left fun row _ => keeps row
  unfold Keyed
  rw [names]
  exact keyed

/-- A change of what is no one's lease. -/
theorem lease_map {change : JobRow → JobRow} (keeps : ∀ row, (change row).jobName = row.jobName)
    (holder : ∀ row, (change row).leaseHolder = row.leaseHolder)
    (expires : ∀ row, (change row).leaseExpiresAt = row.leaseExpiresAt) :
    ({ db with rows := db.rows.map change } : Database).lease job = db.lease job := by
  unfold lease
  rw [row_map keeps]
  cases db.row job with
  | none => rfl
  | some row => simp [holder, expires]

theorem row_append {born : JobRow} (absent : db.row born.jobName = none) :
    ({ db with rows := db.rows ++ [born] } : Database).row job =
      if job = born.jobName then some born else db.row job := by
  unfold row at absent ⊢
  rw [List.find?_append]
  by_cases same : job = born.jobName
  · rw [if_pos same, same, absent]
    simp
  · rw [if_neg same]
    cases db.rows.find? fun row => decide (row.jobName = job) with
    | none => simp [Ne.symm same]
    | some row => rfl

/-! ### Closings of runs -/

theorem openOf_close (closes : JobRun → Bool) (outcome : RunOutcome) :
    ({ db with runs := updateRows closes (·.close now outcome) db.runs } : Database).openOf job =
      (db.openOf job).filter fun run => !closes run := by
  unfold openOf updateRows
  induction db.runs with
  | nil => rfl
  | cons run rest ih =>
      rw [List.map_cons, List.filter_cons, List.filter_cons, ih]
      cases closed : closes run with
      | true =>
          simp only [if_true, JobRun.close, Option.isNone_some, Bool.and_false,
            Bool.false_eq_true, if_false]
          split_ifs with own
          · rw [List.filter_cons_of_neg (by simp [closed])]
          · rfl
      | false =>
          simp only [Bool.false_eq_true, if_false]
          split_ifs with own
          · rw [List.filter_cons_of_pos (by simp [closed])]
          · rfl

theorem ids_close (closes : JobRun → Bool) (outcome : RunOutcome) :
    (updateRows closes (·.close now outcome) db.runs).map (·.id) = db.runs.map (·.id) := by
  unfold updateRows
  rw [List.map_map]
  apply List.map_congr_left
  intro run _
  simp only [Function.comp_apply]
  split_ifs <;> rfl

end Database

/-! ### The agreement of rows and runs -/

/-- A job has an open run exactly while it is leased, and to that run's holder. -/
inductive Paired (db : Database) (job : String) : Prop where
  | idle (free : db.lease job = none) (none_ : db.openOf job = [])
  | busy (run : JobRun) (expires : Option ℚ) (leased : db.lease job = some (run.holder, expires))
      (one : db.openOf job = [run])

/-- A row no claim takes and no runner registered. -/
def StillRow (row : JobRow) : Prop :=
  row.dueAt = none ∧ row.requestedAt = none ∧ row.registryAt = none

/-- The rows of the lanes are never due, and no run is opened on them. -/
structure Quiet (db : Database) (job : String) : Prop where
  none_ : db.openOf job = []
  still : ∀ row, db.row job = some row → StillRow row

structure Ledger (lane : String → Prop) (db : Database) : Prop where
  keyed : Keyed (·.jobName) db.rows
  ids : Keyed (·.id) db.runs
  born : ∀ run ∈ db.runs, run.id < db.nextRun
  paired : ∀ job, ¬ lane job → Paired db job
  quiet : ∀ job, lane job → Quiet db job
  resource : ∀ one ∈ db.runs, one.closed = none → ∀ two ∈ db.runs, two.closed = none →
    one.resource.isSome = true → one.resource = two.resource → one.jobName = two.jobName

/-- What a call that grants, renews or releases no lease of a job leaves of it: its lease and its
open run, or neither, the lease having lapsed. -/
inductive Leaves (before after : Database) (now : ℚ) (job : String) : Prop where
  | kept (lease : after.lease job = before.lease job) (runs : after.openOf job = before.openOf job)
  | lapsed (gone : after.lease job = none) (closed : after.openOf job = [])
      (late : ∀ holder expires, before.lease job = some (holder, some expires) → expires < now)

namespace Leaves

variable {before after : Database} {now : ℚ} {job : String}

theorem refl : Leaves before before now job := .kept rfl rfl

/-- A lease that stands after the call stood before it, over the same run. -/
theorem stood (left : Leaves before after now job) {held : String × Option ℚ}
    (stands : after.lease job = some held) :
    before.lease job = some held ∧ after.openOf job = before.openOf job := by
  cases left with
  | kept lease runs => exact ⟨lease ▸ stands, runs⟩
  | lapsed gone _ _ =>
      rw [gone] at stands
      cases stands

/-- A lease that has not lapsed when the call begins stands after it. -/
theorem stands (left : Leaves before after now job) {holder : String} {expires : ℚ}
    (stood : before.lease job = some (holder, some expires)) (live : now ≤ expires) :
    after.lease job = some (holder, some expires) := by
  cases left with
  | kept lease _ => exact lease.trans stood
  | lapsed _ _ late => exact absurd (late holder expires stood) (not_lt.mpr live)

theorem trans {middle : Database} (first : Leaves before middle now job)
    (second : Leaves middle after now job) : Leaves before after now job := by
  cases second with
  | kept lease runs =>
      cases first with
      | kept sameLease sameRuns => exact .kept (lease.trans sameLease) (runs.trans sameRuns)
      | lapsed gone closed late => exact .lapsed (lease.trans gone) (runs.trans closed) late
  | lapsed gone closed late =>
      cases first with
      | kept sameLease _ =>
          refine .lapsed gone closed ?_
          intro holder till stood
          exact late holder till (sameLease.trans stood)
      | lapsed _ _ earlier => exact .lapsed gone closed earlier

theorem paired (left : Leaves before after now job) (paired : Paired before job) :
    Paired after job := by
  cases left with
  | kept lease runs =>
      cases paired with
      | idle free none_ => exact .idle (lease.trans free) (runs.trans none_)
      | busy run expires leased one => exact .busy run expires (lease.trans leased) (runs.trans one)
  | lapsed gone closed _ => exact .idle gone closed

end Leaves

/-! ### Lost runs -/

theorem JobRow.heldBy_iff {row : JobRow} {now : ℚ} {holder : String} :
    row.heldBy now holder = true ↔
      row.leaseHolder = some holder ∧ ∃ expires, row.leaseExpiresAt = some expires ∧
        now ≤ expires := by
  unfold JobRow.heldBy
  cases row.leaseExpiresAt <;> simp

namespace Database

variable {db : Database} {now : ℚ} {job other : String} {resource : Option String}

theorem openOf_closeLost : (db.closeLost now job resource).openOf other =
    (db.openOf other).filter fun run => !db.loses now job resource run :=
  openOf_close _ _

theorem any_loses : (db.runs.any fun run =>
    decide (run.jobName = other) && db.loses now job resource run) =
      (db.openOf other).any (db.loses now job resource) := by
  unfold openOf
  rw [List.any_filter]
  congr 1
  funext run
  unfold loses
  cases decide (run.jobName = other) <;> cases run.closed.isNone <;> rfl

theorem row_closeLost : (db.closeLost now job resource).row other = (db.row other).map fun row =>
    if (db.openOf other).any (db.loses now job resource) then
      { row with
        consecutiveFailures := row.consecutiveFailures + 1
        lastOutcome := if other = job then row.lastOutcome else some .lost
        leaseHolder := if other = job then row.leaseHolder else none
        leaseExpiresAt := if other = job then row.leaseExpiresAt else none }
    else row := by
  refine (row_map ?_).trans ?_
  · intro row
    split_ifs <;> rfl
  · cases found : db.row other with
    | none => rfl
    | some row =>
        simp only [Option.map_some, (mem_of_row found).2, any_loses]

end Database

open Database in
/-- A sibling's run is closed as lost only when its holder's lease has lapsed. -/
theorem leaves_closeLost {db : Database} {now : ℚ} {job other : String} {resource : Option String}
    (keyed : Keyed (·.jobName) db.rows) (apart : other ≠ job)
    (fit : Paired db other ∨ db.openOf other = []) :
    Leaves db (db.closeLost now job resource) now other := by
  have unlost : db.openOf other = [] → Leaves db (db.closeLost now job resource) now other := by
    intro none_
    refine .kept ?_ ?_
    · unfold lease
      rw [row_closeLost, none_]
      cases db.row other <;> rfl
    · rw [openOf_closeLost, none_]
      rfl
  obtain paired | none_ := fit
  · cases paired with
    | idle _ none_ => exact unlost none_
    | busy run expires leased one =>
        cases lost : db.loses now job resource run with
        | false =>
            refine .kept ?_ ?_
            · unfold lease
              rw [row_closeLost, one]
              cases db.row other <;> simp [lost]
            · rw [openOf_closeLost, one]
              simp [lost]
        | true =>
            refine .lapsed ?_ ?_ ?_
            · unfold lease
              rw [row_closeLost, one]
              cases db.row other <;> simp [lost, apart]
            · rw [openOf_closeLost, one]
              simp [lost]
            · intro holder till stood
              obtain ⟨_, own, _⟩ := mem_openOf.mp (one ▸ List.mem_singleton_self run)
              obtain ⟨row, found, named, expiry⟩ := lease_eq_some.mp leased
              cases stood.symm.trans leased
              obtain ⟨sibling, held, facts⟩ := List.any_eq_true.mp (Bool.and_eq_true_iff.mp lost).2
              simp only [Bool.and_eq_true, Bool.or_eq_true, decide_eq_true_iff, own, apart,
                false_or, Bool.not_eq_true'] at facts
              have same : sibling = row := by
                have again := row_of_mem keyed held
                rw [facts.1, found] at again
                exact (Option.some.inj again).symm
              by_contra live
              have standing : row.heldBy now run.holder = true :=
                JobRow.heldBy_iff.mpr ⟨named, till, expiry, not_lt.mp live⟩
              rw [same] at facts
              rw [facts.2.2] at standing
              cases standing
  · exact unlost none_

namespace Database

variable {db : Database} {now : ℚ} {job : String} {locked : String → Bool} {runner : String}
  {names onHour : List String}

theorem find?_lapsed : (db.runsOf job).find? (db.lapsed now locked runner) =
    (db.openOf job).find? (db.lapsed now locked runner) := by
  unfold runsOf openOf
  rw [List.find?_filter, List.find?_filter]
  congr 1
  funext run
  unfold lapsed
  cases decide (run.jobName = job) <;> cases run.closed.isNone <;> rfl

theorem openOf_reapLost : (db.reapLost now locked runner names onHour).openOf job =
    (db.openOf job).filter fun run => !db.lapsed now locked runner run :=
  openOf_close _ _

/-- The row after a reap keeps its lease unless its open run lapsed. -/
theorem lease_reapLost : (db.reapLost now locked runner names onHour).lease job =
    ((db.openOf job).find? (db.lapsed now locked runner)).elim (db.lease job) fun run =>
      (db.lease job).filter fun held => held.1 ≠ run.holder := by
  unfold lease
  have changed : (db.reapLost now locked runner names onHour).row job = _ := row_map ?_
  · rw [changed]
    cases found : db.row job with
    | none => cases (db.openOf job).find? (db.lapsed now locked runner) <;> rfl
    | some row =>
        simp only [Option.map_some, (mem_of_row found).2, find?_lapsed, Option.bind_some]
        cases (db.openOf job).find? (db.lapsed now locked runner) with
        | none => rfl
        | some run =>
            cases held : row.leaseHolder with
            | none => simp
            | some holder =>
                by_cases same : holder = run.holder
                · simp [Option.filter_some, same]
                · simp [Option.filter_some, same]
  · intro row
    cases (db.runsOf row.jobName).find? (db.lapsed now locked runner) <;> rfl

end Database

open Database in
/-- The reaper closes a run as lost only when its holder's lease has lapsed. -/
theorem leaves_reapLost {db : Database} {now : ℚ} {job : String} {locked : String → Bool}
    {runner : String} {names onHour : List String} (keyed : Keyed (·.jobName) db.rows)
    (fit : Paired db job ∨ db.openOf job = []) :
    Leaves db (db.reapLost now locked runner names onHour) now job := by
  have unlost : db.openOf job = [] →
      Leaves db (db.reapLost now locked runner names onHour) now job := by
    intro none_
    refine .kept ?_ ?_
    · rw [lease_reapLost, none_]
      rfl
    · rw [openOf_reapLost, none_]
      rfl
  obtain paired | none_ := fit
  · cases paired with
    | idle _ none_ => exact unlost none_
    | busy run expires leased one =>
        cases lost : db.lapsed now locked runner run with
        | false =>
            refine .kept ?_ ?_
            · rw [lease_reapLost, one]
              simp [lost]
            · rw [openOf_reapLost, one]
              simp [lost]
        | true =>
            refine .lapsed ?_ ?_ ?_
            · rw [lease_reapLost, one, leased]
              simp [lost]
            · rw [openOf_reapLost, one]
              simp [lost]
            · intro holder till stood
              obtain ⟨_, own, _⟩ := mem_openOf.mp (one ▸ List.mem_singleton_self run)
              obtain ⟨row, found, named, expiry⟩ := lease_eq_some.mp leased
              cases stood.symm.trans leased
              obtain ⟨holding, held, facts⟩ := List.any_eq_true.mp (Bool.and_eq_true_iff.mp lost).2
              simp only [Bool.and_eq_true, decide_eq_true_iff, own, Bool.not_eq_true'] at facts
              have same : holding = row := by
                have again := row_of_mem keyed held
                rw [facts.1.1.1.1, found] at again
                exact (Option.some.inj again).symm
              by_contra live
              have standing : row.heldBy now run.holder = true :=
                JobRow.heldBy_iff.mpr ⟨named, till, expiry, not_lt.mp live⟩
              rw [same] at facts
              rw [facts.1.2] at standing
              cases standing
  · exact unlost none_

/-! ### Calls that touch no lease -/

open Database in
theorem leaves_map {db : Database} {now : ℚ} {job : String} {change : JobRow → JobRow}
    (keeps : ∀ row, (change row).jobName = row.jobName)
    (holder : ∀ row, (change row).leaseHolder = row.leaseHolder)
    (expires : ∀ row, (change row).leaseExpiresAt = row.leaseExpiresAt) :
    Leaves db { db with rows := db.rows.map change } now job :=
  .kept (lease_map keeps holder expires) rfl

open Database in
theorem leaves_append {db : Database} {now : ℚ} {job : String} {born : JobRow}
    (absent : db.row born.jobName = none) (free : born.leaseHolder = none) :
    Leaves db { db with rows := db.rows ++ [born] } now job := by
  refine .kept ?_ rfl
  unfold lease
  rw [row_append absent]
  split_ifs with same
  · rw [same, absent, Option.bind_some, free]
    rfl
  · rfl

open Database in
theorem leaves_pruneRuns {db : Database} {now days : ℚ} {job : String} :
    Leaves db (db.pruneRuns now days) now job := by
  refine .kept rfl ?_
  unfold openOf pruneRuns
  rw [List.filter_filter]
  apply List.filter_congr
  intro run _
  cases run.closed <;> simp

/-! ### The ledger through the calls -/

theorem open_of_close {runs : List JobRun} {closes : JobRun → Bool} {now : ℚ}
    {outcome : RunOutcome} {run : JobRun}
    (held : run ∈ updateRows closes (·.close now outcome) runs) (opens : run.closed = none) :
    run ∈ runs := by
  obtain ⟨old, listed, rfl⟩ := mem_updateRows.mp held
  split_ifs at opens ⊢
  · cases opens
  · exact listed

namespace Ledger

variable {lane : String → Prop} {db after : Database} {now : ℚ}

theorem fit (ledger : Ledger lane db) (job : String) : Paired db job ∨ db.openOf job = [] := by
  by_cases apart : lane job
  · exact .inr (ledger.quiet job apart).none_
  · exact .inl (ledger.paired job apart)

/-- The lanes' rows are left with no due time and no request. -/
def Still (lane : String → Prop) (after : Database) : Prop :=
  ∀ job, lane job → ∀ row, after.row job = some row → StillRow row

theorem still (ledger : Ledger lane db) : Still lane db :=
  fun job apart => (ledger.quiet job apart).still

theorem still_map (ledger : Ledger lane db) {change : JobRow → JobRow}
    (keeps : ∀ row, (change row).jobName = row.jobName)
    (quiet : ∀ row, lane row.jobName → StillRow row → StillRow (change row))
    {runs : List JobRun} {next : Nat} :
    Still lane { rows := db.rows.map change, runs := runs, nextRun := next } := by
  intro job apart row found
  have changed : (db.row job).map change = some row := (Database.row_map keeps).symm.trans found
  obtain ⟨old, before, rfl⟩ := Option.map_eq_some_iff.mp changed
  exact quiet old ((Database.mem_of_row before).2 ▸ apart) (ledger.still job apart old before)

/-- A call that opens no run keeps the ledger. -/
theorem leave (ledger : Ledger lane db) (keyed : Keyed (·.jobName) after.rows)
    (ids : (after.runs.map (·.id)).Sublist (db.runs.map (·.id))) (next : after.nextRun = db.nextRun)
    (opened : ∀ run ∈ after.runs, run.closed = none → run ∈ db.runs)
    (left : ∀ job, ¬ lane job → Paired after job) (still : Still lane after) :
    Ledger lane after where
  keyed := keyed
  ids := ids.nodup ledger.ids
  born := by
    intro run held
    obtain ⟨old, listed, same⟩ := List.mem_map.mp (ids.subset (List.mem_map_of_mem held))
    rw [next, ← same]
    exact ledger.born old listed
  paired := left
  quiet := by
    intro job apart
    refine ⟨?_, still job apart⟩
    apply List.eq_nil_iff_forall_not_mem.mpr
    intro run held
    obtain ⟨listed, own, opens⟩ := Database.mem_openOf.mp held
    have before := Database.mem_openOf.mpr ⟨opened run listed opens, own, opens⟩
    rw [(ledger.quiet job apart).none_] at before
    cases before
  resource := fun one held opens two alsoHeld alsoOpens =>
    ledger.resource one (opened one held opens) opens two (opened two alsoHeld alsoOpens) alsoOpens

/-- A change of rows that is no one's lease. -/
theorem map (ledger : Ledger lane db) {change : JobRow → JobRow}
    (keeps : ∀ row, (change row).jobName = row.jobName)
    (holder : ∀ row, (change row).leaseHolder = row.leaseHolder)
    (expires : ∀ row, (change row).leaseExpiresAt = row.leaseExpiresAt)
    (quiet : ∀ row, lane row.jobName → StillRow row → StillRow (change row)) :
    Ledger lane { db with rows := db.rows.map change } := by
  refine ledger.leave ?_ ?_ rfl ?_ ?_ (ledger.still_map keeps quiet)
  · exact Database.keyed_map ledger.keyed keeps
  · exact List.Sublist.refl _
  · exact fun _ held _ => held
  · intro job apart
    exact (@leaves_map db 0 job change keeps holder expires).paired (ledger.paired job apart)

/-- A row's birth. -/
theorem append (ledger : Ledger lane db) {born : JobRow} (absent : db.row born.jobName = none)
    (free : born.leaseHolder = none)
    (still : lane born.jobName → StillRow born) :
    Ledger lane { db with rows := db.rows ++ [born] } := by
  refine ledger.leave ?_ ?_ rfl ?_ ?_ ?_
  · apply ledger.keyed.insert
    intro other held same
    have found := Database.row_of_mem ledger.keyed held
    rw [same, absent] at found
    cases found
  · exact List.Sublist.refl _
  · exact fun _ held _ => held
  · intro job apart
    exact (@leaves_append db 0 job born absent free).paired (ledger.paired job apart)
  · intro job apart row found
    rw [Database.row_append absent] at found
    split_ifs at found with same
    · cases found
      exact still (same ▸ apart)
    · exact ledger.still job apart row found

end Ledger

/-- A call that grants, renews or releases no lease. -/
structure Passes (lane : String → Prop) (before after : Database) (now : ℚ) : Prop where
  ledger : Ledger lane after
  leaves : ∀ job, Leaves before after now job

section Calls

variable {lane : String → Prop} {db : Database} {now : ℚ}

theorem Passes.update (ledger : Ledger lane db) {applies : JobRow → Bool}
    {change : JobRow → JobRow} (keeps : ∀ row, (change row).jobName = row.jobName)
    (holder : ∀ row, (change row).leaseHolder = row.leaseHolder)
    (expires : ∀ row, (change row).leaseExpiresAt = row.leaseExpiresAt)
    (quiet : ∀ row, lane row.jobName → StillRow row → applies row = true →
      StillRow (change row)) :
    Passes lane db { db with rows := updateRows applies change db.rows } now := by
  have names : ∀ row, (if applies row then change row else row).jobName = row.jobName := by
    intro row
    split_ifs
    · exact keeps row
    · rfl
  have holders : ∀ row, (if applies row then change row else row).leaseHolder =
      row.leaseHolder := by
    intro row
    split_ifs
    · exact holder row
    · rfl
  have ends : ∀ row, (if applies row then change row else row).leaseExpiresAt =
      row.leaseExpiresAt := by
    intro row
    split_ifs
    · exact expires row
    · rfl
  refine ⟨ledger.map names holders ends ?_, fun _ => leaves_map names holders ends⟩
  intro row mine still
  split_ifs with applied
  · exact quiet row mine still applied
  · exact still

theorem passes_register (ledger : Ledger lane db) (runner : String) {entry : Entry}
    (apart : ¬ lane entry.name) : Passes lane db (db.register now runner entry) now := by
  unfold Database.register
  split_ifs
  · cases found : db.row entry.name with
    | none =>
        refine ⟨ledger.append found rfl fun mine => absurd mine apart, fun job => ?_⟩
        exact leaves_append found rfl
    | some old =>
        refine Passes.update ledger ?_ ?_ ?_ ?_ <;> intro row
        · rfl
        · rfl
        · rfl
        · intro mine _ own
          exact absurd mine (of_decide_eq_true own ▸ apart)
  · exact ⟨ledger, fun _ => .refl⟩

theorem passes_retire (ledger : Ledger lane db) (runner : String) (names : List String) :
    Passes lane db (db.retire now runner names) now := by
  refine Passes.update ledger ?_ ?_ ?_ ?_ <;> intro row
  · rfl
  · rfl
  · rfl
  · exact fun _ still _ => still

theorem passes_request (ledger : Ledger lane db) (runner job by_ : String)
    (args : Option (List String)) : Passes lane db (db.request now runner job by_ args) now := by
  refine Passes.update ledger ?_ ?_ ?_ ?_ <;> intro row
  · rfl
  · rfl
  · rfl
  · intro _ still applied
    simp [still.2.2] at applied

theorem passes_pause (ledger : Ledger lane db) (job : String) (till : Option ℚ) :
    Passes lane db (db.pause now job till) now := by
  refine Passes.update ledger ?_ ?_ ?_ ?_ <;> intro row
  · rfl
  · rfl
  · rfl
  · exact fun _ still _ => still

theorem passes_reapLost (ledger : Ledger lane db) (locked : String → Bool) (runner : String)
    (names onHour : List String) :
    Passes lane db (db.reapLost now locked runner names onHour) now := by
  have leaves : ∀ job, Leaves db (db.reapLost now locked runner names onHour) now job :=
    fun job => leaves_reapLost ledger.keyed (ledger.fit job)
  refine ⟨ledger.leave ?_ ?_ rfl ?_ ?_ ?_, leaves⟩
  · apply Database.keyed_map ledger.keyed
    intro row
    cases (db.runsOf row.jobName).find? (db.lapsed now locked runner) <;> rfl
  · exact (Database.ids_close _ _).symm ▸ List.Sublist.refl _
  · exact fun run held opens => open_of_close held opens
  · exact fun job apart => (leaves job).paired (ledger.paired job apart)
  · apply ledger.still_map
    · intro row
      cases (db.runsOf row.jobName).find? (db.lapsed now locked runner) <;> rfl
    · intro row _ still
      cases (db.runsOf row.jobName).find? (db.lapsed now locked runner) with
      | none => exact still
      | some run => exact ⟨by simp [still.1], still.2⟩

theorem passes_pruneRuns (ledger : Ledger lane db) (days : ℚ) :
    Passes lane db (db.pruneRuns now days) now := by
  refine ⟨ledger.leave ledger.keyed ?_ rfl ?_ ?_ ledger.still, fun _ => leaves_pruneRuns⟩
  · exact List.filter_sublist.map _
  · exact fun run held _ => List.mem_of_mem_filter held
  · exact fun job apart => (@leaves_pruneRuns db now days job).paired (ledger.paired job apart)

theorem passes_upsertLane (ledger : Ledger lane db) (job runner : String) (cadence : ℚ) :
    Passes lane db (db.upsertLane job runner cadence) now := by
  unfold Database.upsertLane
  cases found : db.row job with
  | none =>
      refine ⟨ledger.append found rfl fun _ => ⟨rfl, rfl, rfl⟩, fun _ => ?_⟩
      exact leaves_append found rfl
  | some row => exact ⟨ledger, fun _ => .refl⟩

end Calls

/-! ### Claims -/

/-- A call that grants a job to a holder, whoever had it before has lapsed. -/
structure Grants (lane : String → Prop) (before after : Database) (now : ℚ) (job holder : String)
    (ttlS : ℚ) (runId : Option Nat) : Prop where
  ledger : Ledger lane after
  leaves : ∀ other, other ≠ job → Leaves before after now other
  late : ∀ other expires, before.lease job = some (other, some expires) → expires < now
  leased : after.lease job = some (holder, some (now + ttlS))
  opened : ∀ id ∈ runId, ∃ run, after.openOf job = [run] ∧ run.id = id

namespace Database

variable {db opened : Database} {now : ℚ} {job other holder : String} {ttlS : ℚ}
  {resource : Option String} {args : Option (List String)} {requestedBy : Option String}

theorem late_of_free {row : JobRow} (found : db.row job = some row) (free : row.free now = true)
    {one : String} {expires : ℚ} (leased : db.lease job = some (one, some expires)) :
    expires < now := by
  obtain ⟨same, again, named, expiry⟩ := lease_eq_some.mp leased
  cases again.symm.trans found
  simpa [JobRow.free, named, expiry] using free

theorem lease_changeRow {change : JobRow → JobRow}
    (keeps : ∀ row, (change row).jobName = row.jobName) (apart : other ≠ job) :
    (db.changeRow job change).lease other = db.lease other := by
  unfold lease
  rw [row_changeRow keeps]
  cases db.row other with
  | none => rfl
  | some row => simp [apart]

theorem lease_leased {row : JobRow} (found : db.row job = some row) :
    (db.changeRow job fun row => row.lease now holder ttlS).lease job =
      some (holder, some (now + ttlS)) := by
  refine lease_eq_some.mpr ⟨row.lease now holder ttlS, ?_, rfl, rfl⟩
  have changed := @row_changeRow db job job (fun row => row.lease now holder ttlS) fun _ => rfl
  rw [changed, found]
  simp

theorem closeLost_own {row : JobRow} (found : db.row job = some row) :
    (db.closeLost now job resource).openOf job = [] ∧
      (db.closeLost now job resource).lease job = db.lease job := by
  constructor
  · rw [openOf_closeLost]
    apply List.filter_eq_nil_iff.mpr
    intro run held
    obtain ⟨listed, own, opens⟩ := mem_openOf.mp held
    have lost : db.loses now job resource run = true := by
      unfold loses
      rw [opens, Option.isNone_none, Bool.true_and]
      refine List.any_eq_true.mpr ⟨row, (mem_of_row found).1, ?_⟩
      simp [(mem_of_row found).2, own]
    simp [lost]
  · unfold lease
    rw [row_closeLost, found]
    simp only [Option.map_some, if_true, Option.bind_some]
    split_ifs <;> rfl

/-- The unique indexes: the run opened is the only open one of its job and of its resource. -/
theorem openRun_eq_some (done : db.openRun job holder resource args requestedBy = some opened) :
    (∀ run ∈ db.runs, run.closed = none → run.jobName ≠ job ∧
      (resource.isSome = true → run.resource ≠ resource)) ∧
    opened = { db with
      runs := db.runs ++
        [{ id := db.nextRun, jobName := job, holder := holder, resource := resource, args := args
           requestedBy := requestedBy, closed := none }]
      nextRun := db.nextRun + 1 } := by
  unfold openRun at done
  split_ifs at done with taken
  refine ⟨fun run held opens => ?_, (Option.some.inj done).symm⟩
  have clear := Bool.eq_false_iff.mpr (fun busy => taken (List.any_eq_true.mpr ⟨run, held, busy⟩))
  simp only [opens, Option.isNone_none, Bool.true_and, Bool.or_eq_false_iff, decide_eq_false_iff_not,
    Bool.and_eq_false_iff] at clear
  refine ⟨clear.1, fun named same => ?_⟩
  cases clear.2 with
  | inl unnamed => rw [unnamed] at named; cases named
  | inr differ => exact differ same

theorem claim_eq_some {seen : List JobRow} {after : Database} {run : ClaimedRun}
    (done : db.claim now seen job holder ttlS = some (after, run)) :
    ∃ row opened args requestedBy, db.row job = some row ∧ row.claimable now seen = true ∧
      ((db.changeRow job fun row => row.lease now holder ttlS).closeLost now job
        row.resource).openRun job holder row.resource args requestedBy = some opened ∧
      (after = opened ∨ after = opened.takeRequest job) ∧ run.runId = db.nextRun := by
  unfold claim at done
  cases found : db.row job with
  | none =>
      rw [found] at done
      cases done
  | some row =>
      simp only [found] at done
      split_ifs at done with ready asked
      · obtain ⟨final, landed, same⟩ := Option.map_eq_some_iff.mp done
        cases same
        exact ⟨row, final, _, _, rfl, ready, landed, .inr rfl, rfl⟩
      · obtain ⟨final, landed, same⟩ := Option.map_eq_some_iff.mp done
        cases same
        exact ⟨row, _, _, _, rfl, ready, landed, .inl rfl, rfl⟩

/-- What a claim ends with, the request taken or not: the tables the run was opened in. -/
theorem taken_request {after : Database} (keyed : Keyed (·.jobName) opened.rows)
    (taken : after = opened ∨ after = opened.takeRequest job) :
    Keyed (·.jobName) after.rows ∧ after.runs = opened.runs ∧ after.nextRun = opened.nextRun ∧
      (∀ name, after.lease name = opened.lease name) ∧
      ∀ name, name ≠ job → after.row name = opened.row name := by
  obtain rfl | rfl := taken
  · exact ⟨keyed, rfl, rfl, fun _ => rfl, fun _ _ => rfl⟩
  · have changed : ∀ name, (opened.takeRequest job).row name = (opened.row name).map fun row =>
        if name = job then
          { row with requestedAt := none, requestedArgs := none, requestedBy := none }
        else row := by
      intro name
      apply row_changeRow
      exact fun _ => rfl
    refine ⟨keyed.updateRows fun _ => rfl, rfl, rfl, fun name => ?_, fun name apart => ?_⟩
    · unfold lease
      rw [changed]
      cases opened.row name with
      | none => rfl
      | some row =>
          simp only [Option.map_some, Option.bind_some]
          split_ifs <;> rfl
    · rw [changed]
      cases opened.row name <;> simp [apart]

end Database

section Grant

variable {lane : String → Prop} {db after : Database} {now : ℚ} {job holder : String} {ttlS : ℚ}

open Database

/-- A lane's row is never claimed. -/
theorem claimable_apart (ledger : Ledger lane db) {row : JobRow} {seen : List JobRow}
    (found : db.row job = some row) (ready : row.claimable now seen = true) : ¬ lane job := by
  intro mine
  obtain ⟨due, asked, _⟩ := ledger.still job mine row found
  simp [JobRow.claimable, JobRow.dueNow, JobRow.asked, due, asked] at ready

/-- The tables of a claim before its run is opened: the row taken, the lost runs closed. -/
structure Cleared (before after : Database) (now : ℚ) (job holder : String) (ttlS : ℚ) : Prop where
  keyed : Keyed (·.jobName) after.rows
  ids : after.runs.map (·.id) = before.runs.map (·.id)
  next : after.nextRun = before.nextRun
  opened : ∀ run ∈ after.runs, run.closed = none → run ∈ before.runs
  leaves : ∀ other, other ≠ job → Leaves before after now other
  rows : ∀ other, other ≠ job → before.openOf other = [] → after.row other = before.row other
  closed : after.openOf job = []
  leased : after.lease job = some (holder, some (now + ttlS))

theorem cleared_claim (ledger : Ledger lane db) {row : JobRow} (found : db.row job = some row)
    (resource : Option String) :
    Cleared db ((db.changeRow job fun row => row.lease now holder ttlS).closeLost now job resource)
      now job holder ttlS := by
  have keyed : Keyed (·.jobName) (db.changeRow job fun row => row.lease now holder ttlS).rows :=
    ledger.keyed.updateRows fun _ => rfl
  have changed : ∀ name, (db.changeRow job fun row => row.lease now holder ttlS).row name =
      (db.row name).map fun row => if name = job then row.lease now holder ttlS else row := by
    intro name
    apply row_changeRow
    exact fun _ => rfl
  have holding : (db.changeRow job fun row => row.lease now holder ttlS).row job =
      some (row.lease now holder ttlS) := by
    rw [changed, found, Option.map_some, if_pos rfl]
  obtain ⟨closed, kept⟩ := @closeLost_own _ now job resource _ holding
  refine ⟨?_, ids_close _ _, rfl, fun run held opens => open_of_close held opens, ?_, ?_, closed,
    kept.trans (lease_leased found)⟩
  · exact keyed.updateRows fun _ => rfl
  · intro other differ
    have first : Leaves db (db.changeRow job fun row => row.lease now holder ttlS) now other :=
      .kept (lease_changeRow (fun _ => rfl) differ) rfl
    refine first.trans (leaves_closeLost keyed differ ?_)
    obtain paired | none_ := ledger.fit other
    · exact .inl (first.paired paired)
    · exact .inr none_
  · intro other differ none_
    have unlost : (db.changeRow job fun row => row.lease now holder ttlS).openOf other = [] := none_
    rw [row_closeLost, unlost, changed]
    cases db.row other <;> simp [differ]

/-- A claim that is not refused: its run is the one open run of the job, and of its resource. -/
theorem grants_claim (ledger : Ledger lane db) {seen : List JobRow} {run : ClaimedRun}
    (done : db.claim now seen job holder ttlS = some (after, run)) :
    ¬ lane job ∧ Grants lane db after now job holder ttlS (some run.runId) := by
  obtain ⟨row, opened, args, requestedBy, found, ready, opening, taken, identified⟩ :=
    claim_eq_some done
  have apart := claimable_apart ledger found ready
  have free : row.free now = true := by
    simp only [JobRow.claimable, Bool.and_eq_true] at ready
    exact ready.1.2
  have cleared := @cleared_claim lane db now job holder ttlS ledger row found row.resource
  generalize (db.changeRow job fun row => row.lease now holder ttlS).closeLost now job
    row.resource = settled at opening cleared
  obtain ⟨clear, same⟩ := openRun_eq_some opening
  have openedKeyed : Keyed (·.jobName) opened.rows := by
    rw [same]
    exact cleared.keyed
  obtain ⟨keyed, runs, next, leases, rows⟩ := taken_request openedKeyed taken
  let born : JobRun :=
    { id := settled.nextRun, jobName := job, holder := holder, resource := row.resource
      args := args, requestedBy := requestedBy, closed := none }
  have appended : after.runs = settled.runs ++ [born] := by rw [runs, same]
  have others : ∀ other, other ≠ job → after.openOf other = settled.openOf other := by
    intro other differ
    unfold openOf
    rw [appended, List.filter_append]
    simp [born, Ne.symm differ]
  have own : after.openOf job = [born] := by
    unfold openOf
    rw [appended, List.filter_append]
    have before : settled.openOf job = [] := cleared.closed
    unfold openOf at before
    rw [before]
    simp [born]
  have lease : ∀ other, after.lease other = settled.lease other := by
    intro other
    rw [leases, same]
    rfl
  have leaves : ∀ other, other ≠ job → Leaves db after now other := fun other differ =>
    (cleared.leaves other differ).trans (.kept (lease other) (others other differ))
  have numbered : ∀ run ∈ settled.runs, run.id < settled.nextRun := by
    intro run held
    obtain ⟨old, listed, sameId⟩ := List.mem_map.mp (cleared.ids ▸ List.mem_map_of_mem held)
    rw [cleared.next, ← sameId]
    exact ledger.born old listed
  have standing : ∀ run ∈ after.runs, run.closed = none →
      run = born ∨ run ∈ db.runs ∧ (row.resource.isSome = true → run.resource ≠ row.resource) := by
    intro run held opens
    rw [appended, List.mem_append, List.mem_singleton] at held
    obtain earlier | new := held
    · exact .inr ⟨cleared.opened run earlier opens, (clear run earlier opens).2⟩
    · exact .inl new
  refine ⟨apart, ⟨keyed, ?_, ?_, ?_, ?_, ?_⟩, leaves, ?_, ?_, ?_⟩
  · have settledIds : Keyed (·.id) settled.runs := by
      unfold Keyed
      rw [cleared.ids]
      exact ledger.ids
    rw [appended]
    exact settledIds.insert fun run held => (numbered run held).ne
  · intro run held
    have grown : after.nextRun = settled.nextRun + 1 := by rw [next, same]
    rw [appended, List.mem_append, List.mem_singleton] at held
    rw [grown]
    obtain earlier | rfl := held
    · exact (numbered run earlier).trans (Nat.lt_succ_self _)
    · exact Nat.lt_succ_self _
  · intro other off
    by_cases mine : other = job
    · exact .busy born (some (now + ttlS)) (by rw [mine, lease]; exact cleared.leased)
        (by rw [mine]; exact own)
    · exact (leaves other mine).paired (ledger.paired other off)
  · intro other lanes
    have differ : other ≠ job := fun mine => apart (mine ▸ lanes)
    have none_ := (ledger.quiet other lanes).none_
    refine ⟨?_, fun held found => (ledger.quiet other lanes).still held ?_⟩
    · cases leaves other differ with
      | kept _ runs => exact runs.trans none_
      | lapsed _ closed _ => exact closed
    · rw [← cleared.rows other differ none_, ← found, rows other differ, same]
      rfl
  · intro one held opens two alsoHeld alsoOpens named shared
    obtain rfl | ⟨old, free⟩ := standing one held opens
    · obtain rfl | ⟨_, otherFree⟩ := standing two alsoHeld alsoOpens
      · rfl
      · exact absurd shared.symm (otherFree named)
    · obtain rfl | ⟨otherOld, _⟩ := standing two alsoHeld alsoOpens
      · have own : one.resource = row.resource := shared
        exact absurd own (free (own ▸ named))
      · exact ledger.resource one old opens two otherOld alsoOpens named shared
  · intro one expires leased
    exact late_of_free found free leased
  · rw [lease]
    exact cleared.leased
  · intro id named
    cases named
    exact ⟨born, own, by rw [identified, ← cleared.next]⟩

/-- A lane that is not taken has its row born. -/
theorem passes_acquire (ledger : Ledger lane db) {runner : String} {cadence : ℚ}
    (done : db.acquire now job runner holder cadence ttlS = (after, false)) :
    Passes lane db after now := by
  have born := @passes_upsertLane lane db now ledger job runner cadence
  unfold Database.acquire at done
  dsimp only at done
  split_ifs at done
  · cases done
  · cases done
    exact born

/-- A lane is taken from no one whose lease stands, and opens no run. -/
theorem grants_acquire (ledger : Ledger lane db) (mine : lane job) {runner : String} {cadence : ℚ}
    (done : db.acquire now job runner holder cadence ttlS = (after, true)) :
    Grants lane db after now job holder ttlS none := by
  obtain ⟨bornLedger, bornLeaves⟩ := @passes_upsertLane lane db now ledger job runner cadence
  unfold Database.acquire at done
  generalize db.upsertLane job runner cadence = born at done bornLedger bornLeaves
  dsimp only at done
  split_ifs at done with ready
  · cases done
    obtain ⟨row, found, free⟩ := (Option.any_eq_true _ _).mp ready
    simp only [Bool.and_eq_true] at free
    have leaves : ∀ other, other ≠ job →
        Leaves born (born.changeRow job fun row => row.lease now holder ttlS) now other :=
      fun other differ => .kept (lease_changeRow (fun _ => rfl) differ) rfl
    refine ⟨?_, fun other differ => (bornLeaves other).trans (leaves other differ), ?_, ?_, ?_⟩
    · refine bornLedger.leave ?_ (List.Sublist.refl _) rfl (fun _ held _ => held) ?_ ?_
      · exact bornLedger.keyed.updateRows fun _ => rfl
      · intro other off
        exact (leaves other fun same => off (same ▸ mine)).paired (bornLedger.paired other off)
      · apply bornLedger.still_map
        · intro row
          split_ifs <;> rfl
        · intro row _ still
          split_ifs <;> exact still
    · intro one expires leased
      cases bornLeaves job with
      | kept same _ => exact late_of_free found free.2 (same.trans leased)
      | lapsed _ _ late => exact late one expires leased
    · exact lease_leased found
    · intro id named
      cases named
  · cases done

end Grant

/-! ### Renewals and releases -/

section Holder

variable {lane : String → Prop} {db after : Database} {now clock : ℚ} {job holder : String}
  {ttlS : ℚ}

open Database

/-- What a renewal finds and leaves. -/
structure Renews (lane : String → Prop) (before after : Database) (clock : ℚ)
    (job holder : String) (ttlS : ℚ) : Prop where
  ledger : Ledger lane after
  live : ∃ expires, before.lease job = some (holder, some expires) ∧ clock ≤ expires
  leased : after.lease job = some (holder, some (clock + ttlS))
  others : ∀ other, other ≠ job → after.lease other = before.lease other
  runs : ∀ other, after.openOf other = before.openOf other

theorem renews (ledger : Ledger lane db)
    (done : db.renew clock job holder ttlS = some after) :
    Renews lane db after clock job holder ttlS := by
  unfold Database.renew at done
  split_ifs at done with standing
  cases done
  obtain ⟨row, found, live⟩ := (Option.any_eq_true _ _).mp standing
  obtain ⟨named, expires, expiry, still⟩ := JobRow.heldBy_iff.mp live
  have before : db.lease job = some (holder, some expires) :=
    lease_eq_some.mpr ⟨row, found, named, expiry⟩
  have leased : (db.changeRow job fun row =>
      { row with leaseExpiresAt := some (clock + ttlS) }).lease job =
        some (holder, some (clock + ttlS)) := by
    have changed := @row_changeRow db job job
      (fun row => { row with leaseExpiresAt := some (clock + ttlS) }) fun _ => rfl
    refine lease_eq_some.mpr ⟨{ row with leaseExpiresAt := some (clock + ttlS) }, ?_, named, rfl⟩
    rw [changed, found]
    simp
  have others : ∀ other, other ≠ job → (db.changeRow job fun row =>
      { row with leaseExpiresAt := some (clock + ttlS) }).lease other = db.lease other :=
    fun other differ => lease_changeRow (fun _ => rfl) differ
  refine ⟨?_, ⟨expires, before, still⟩, leased, others, fun _ => rfl⟩
  refine ledger.leave ?_ (List.Sublist.refl _) rfl (fun _ held _ => held) ?_ ?_
  · exact ledger.keyed.updateRows fun _ => rfl
  · intro other off
    by_cases mine : other = job
    · subst mine
      cases ledger.paired other off with
      | idle free _ => cases free.symm.trans before
      | busy run _ had one =>
          cases had.symm.trans before
          exact .busy run _ leased one
    · cases ledger.paired other off with
      | idle free none_ => exact .idle ((others other mine).trans free) none_
      | busy run till had one => exact .busy run till ((others other mine).trans had) one
  · apply ledger.still_map
    · intro row
      split_ifs <;> rfl
    · intro row _ still
      split_ifs <;> exact still

theorem JobRow.release_cases (row : JobRow) (now : ℚ) (params : ReleaseParams) :
    (row.release now params = row ∧ row.leaseHolder ≠ some params.holder) ∨
      ∃ freed, row.release now params = { row with toScheduledJob := freed } ∧
        freed.jobName = row.jobName ∧ freed.leaseHolder = none ∧
        freed.dueAt = dueAfter row.toScheduledJob now params ∧ freed.registryAt = row.registryAt := by
  by_cases held : row.leaseHolder = some params.holder
  · apply Or.inr
    cases done : releaseRun row.toScheduledJob now params with
    | none =>
        rw [releaseRun, if_pos held] at done
        cases done
    | some freed =>
        have shape := done
        rw [releaseRun, if_pos held] at shape
        have fields := Option.some.inj shape
        refine ⟨freed, ?_, fields ▸ rfl, fields ▸ rfl, fields ▸ rfl, fields ▸ rfl⟩
        unfold JobRow.release
        rw [done]
        rfl
  · refine .inl ⟨?_, held⟩
    unfold JobRow.release
    rw [releaseRun, if_neg held]
    rfl

theorem JobRow.release_name (row : JobRow) (now : ℚ) (params : ReleaseParams) :
    (row.release now params).jobName = row.jobName := by
  obtain ⟨same, _⟩ | ⟨freed, same, name, _⟩ := row.release_cases now params
  · rw [same]
  · rw [same]
    exact name

theorem JobRow.release_still {row : JobRow} (still : StillRow row) (now : ℚ)
    (params : ReleaseParams) : StillRow (row.release now params) := by
  obtain ⟨same, _⟩ | ⟨freed, same, _, _, due, registry⟩ := row.release_cases now params
  · rw [same]
    exact still
  · rw [same]
    refine ⟨due.trans ?_, still.2.1, registry.trans still.2.2⟩
    unfold dueAfter
    rw [still.1]
    rfl

/-- What a release finds and leaves. -/
structure Releases (lane : String → Prop) (before after : Database) (now : ℚ)
    (job holder : String) : Prop where
  ledger : Ledger lane after
  held : ∃ expires, before.lease job = some (holder, expires)
  freed : after.lease job = none
  closed : after.openOf job = []
  leaves : ∀ other, other ≠ job → Leaves before after now other

theorem releases (ledger : Ledger lane db) {hold : Hold} {outcome : ReleaseOutcome}
    {due : Option DueKind} {error : Option String}
    (claimed : ∀ expires, db.lease hold.jobName = some (hold.holder, expires) →
      ∀ run ∈ hold.claimed, ∃ open_, db.openOf hold.jobName = [open_] ∧ open_.id = run.runId)
    (lanes : hold.claimed = none → lane hold.jobName)
    (done : db.release now hold outcome due error = some after) :
    Releases lane db after now hold.jobName hold.holder := by
  unfold Database.release at done
  split_ifs at done with standing
  obtain ⟨row, found, named⟩ := (Option.any_eq_true _ _).mp standing
  have before : db.lease hold.jobName = some (hold.holder, row.leaseExpiresAt) :=
    lease_eq_some.mpr ⟨row, found, of_decide_eq_true named, rfl⟩
  dsimp only at done
  generalize params_eq : releaseParams hold.holder outcome due error
    (hold.claimed.any (·.requestedBy.isSome)) (hold.claimed.any (·.dueSlot)) = params at done
  have mine : params.holder = hold.holder := by
    rw [← params_eq]
    rfl
  have changed : ∀ other, (db.changeRow hold.jobName fun row => row.release now params).row other =
      (db.row other).map fun row =>
        if other = hold.jobName then row.release now params else row := by
    intro other
    apply row_changeRow
    exact fun row => row.release_name now params
  have freed : (db.changeRow hold.jobName fun row => row.release now params).lease hold.jobName =
      none := by
    unfold lease
    rw [changed, found, Option.map_some, if_pos rfl, Option.bind_some]
    obtain ⟨_, kept⟩ | ⟨_, same, _, none_, _⟩ := row.release_cases now params
    · exact absurd (mine ▸ of_decide_eq_true named) kept
    · rw [same]
      simp [none_]
  have others : ∀ other, other ≠ hold.jobName →
      (db.changeRow hold.jobName fun row => row.release now params).lease other = db.lease other :=
    fun other differ => lease_changeRow (fun row => row.release_name now params) differ
  have still : ∀ runs next, Ledger.Still lane
      ⟨(db.changeRow hold.jobName fun row => row.release now params).rows, runs, next⟩ := by
    intro runs next
    apply ledger.still_map
    · intro row
      split_ifs
      · exact row.release_name now params
      · rfl
    · intro row _ quiet
      split_ifs
      · exact JobRow.release_still quiet now params
      · exact quiet
  have keyed : Keyed (·.jobName)
      (db.changeRow hold.jobName fun row => row.release now params).rows :=
    ledger.keyed.updateRows fun row => row.release_name now params
  cases held : hold.claimed with
  | none =>
      rw [held] at done
      cases done
      have quiet := (ledger.quiet _ (lanes held)).none_
      refine ⟨?_, ⟨_, before⟩, freed, quiet, fun other differ => .kept (others other differ) rfl⟩
      refine ledger.leave keyed (List.Sublist.refl _) rfl (fun _ held _ => held) ?_ (still _ _)
      intro other off
      have differ : other ≠ hold.jobName := fun same => off (same ▸ lanes held)
      have left : Leaves db _ now other := .kept (others other differ) rfl
      exact left.paired (ledger.paired other off)
  | some run =>
      rw [held] at done
      cases done
      obtain ⟨running, one, identified⟩ := claimed _ before _ held
      obtain ⟨listed, own, opens⟩ := mem_openOf.mp (one ▸ List.mem_singleton_self running)
      have runs : ∀ other, ((db.changeRow hold.jobName fun row =>
          row.release now params).closeRun now run.runId outcome).openOf other =
            (db.openOf other).filter fun one => !(decide (one.id = run.runId) && one.closed.isNone) :=
        fun other => openOf_close _ _
      have leaves : ∀ other, other ≠ hold.jobName → Leaves db ((db.changeRow hold.jobName fun row =>
          row.release now params).closeRun now run.runId outcome) now other := by
        intro other differ
        refine .kept (others other differ) ((runs other).trans ?_)
        apply List.filter_eq_self.mpr
        intro one stands
        obtain ⟨alsoListed, elsewhere, _⟩ := mem_openOf.mp stands
        by_cases same : one.id = run.runId
        · have equal := ledger.ids.eq alsoListed listed (same.trans identified.symm)
          exact absurd (elsewhere.symm.trans (equal ▸ own)) differ
        · simp [same]
      have closed : ((db.changeRow hold.jobName fun row =>
          row.release now params).closeRun now run.runId outcome).openOf hold.jobName = [] := by
        rw [runs, one]
        simp [identified, opens]
      refine ⟨?_, ⟨_, before⟩, freed, closed, leaves⟩
      refine ledger.leave keyed ?_ rfl ?_ ?_ (still _ _)
      · exact (ids_close _ _).symm ▸ List.Sublist.refl _
      · exact fun one held opens => open_of_close held opens
      · intro other off
        by_cases same : other = hold.jobName
        · exact .idle (same ▸ freed) (same ▸ closed)
        · exact (leaves other same).paired (ledger.paired other off)

end Holder

end Sreality.Scraper.JobLease
