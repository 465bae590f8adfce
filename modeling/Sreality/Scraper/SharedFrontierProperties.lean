import Sreality.Scraper.RateLedger
import Sreality.Scraper.RateRowProperties

/-! The budget row under any order of its two statements, each at its own `now()`: a statement
that waited for the row may be older than the one before it. The frontier is in microseconds and
the slots are not, so that a window's last slot may end under a microsecond into the next one. -/

set_option autoImplicit false

namespace Sreality.Scraper.SharedFrontier

open Sreality.Foundation

/-- A statement on the row, with what its caller binds. -/
inductive Statement where
  | lease (now : ℤ) (slots intervalMs : Nat) (bound : Option Float64)
  | penalize (now : ℤ)
  deriving DecidableEq

/-- `[start, start + n * slot)`, leased at `askedAt`: the frontier moved to `booked`. -/
structure Window where
  askedAt : ℤ
  start : ℤ
  booked : ℤ
  slot : Float64
  slots : Nat
  deriving DecidableEq

def Window.finish (window : Window) : ℚ := seconds window.start + window.slots * window.slot.value

/-- A lease statement that fails leaves the row. -/
def Statement.exec (row : RateRow) : Statement → RateRow
  | .lease now slots intervalMs bound => (leaseSql row now slots intervalMs bound).elim row Prod.fst
  | .penalize now => penalizeSql row now

def Statement.window (row : RateRow) : Statement → Option Window
  | .lease now slots intervalMs bound =>
      (leaseSql row now slots intervalMs bound).bind fun leased =>
        if leased.2.granted then
          some
            { askedAt := now, start := max row.nextSlotAt now, booked := leased.1.nextSlotAt
              slot := leased.2.slot, slots := slots }
        else none
  | .penalize _ => none

def rowAfter (row : RateRow) (statements : List Statement) : RateRow :=
  statements.foldl Statement.exec row

def windows : RateRow → List Statement → List Window
  | _, [] => []
  | row, statement :: rest =>
      (statement.window row).toList ++ windows (statement.exec row) rest

theorem rowAfter_append (row : RateRow) (earlier later : List Statement) :
    rowAfter row (earlier ++ later) = rowAfter (rowAfter row earlier) later :=
  List.foldl_append

/-! ### One statement -/

section Lease

variable {row : RateRow} {now : ℤ} {slots intervalMs : Nat} {bound : Option Float64}

theorem exec_of_failed (failed : leaseSql row now slots intervalMs bound = none) :
    (Statement.lease now slots intervalMs bound).exec row = row := by
  simp only [Statement.exec, failed, Option.elim_none]

theorem exec_of_leased {leased : RateRow × LeaseAnswer}
    (done : leaseSql row now slots intervalMs bound = some leased) :
    (Statement.lease now slots intervalMs bound).exec row = leased.1 := by
  simp only [Statement.exec, done, Option.elim_some]

/-- A lease that is refused, or fails, leaves the row. -/
theorem lease_refused
    (refused : ∀ leased ∈ leaseSql row now slots intervalMs bound, leased.2.granted = false) :
    (Statement.lease now slots intervalMs bound).exec row = row := by
  cases done : leaseSql row now slots intervalMs bound with
  | none => exact exec_of_failed done
  | some leased =>
      rw [exec_of_leased done]
      exact (leaseSql_spec done).refused (refused leased done)

end Lease

theorem bounded_exec {row : RateRow} (bounded : row.Bounded) (statement : Statement) :
    (statement.exec row).Bounded := by
  cases statement with
  | lease now slots intervalMs bound =>
      cases done : leaseSql row now slots intervalMs bound with
      | none => rwa [exec_of_failed done]
      | some leased =>
          rw [exec_of_leased done]
          exact (leaseSql_spec done).bounded bounded
  | penalize now => exact penalizeSql_bounded bounded now

/-- The statement's window starts at the frontier, or at its own time when that is later, and is
booked up to where the frontier then stands, a microsecond off its slots at the most. -/
structure Booked (row : RateRow) (statement : Statement) (window : Window) : Prop where
  start : row.nextSlotAt ≤ window.start
  present : window.askedAt ≤ window.start
  ahead : window.start ≤ window.booked
  frontier : window.booked = (statement.exec row).nextSlotAt
  slots : |window.finish - seconds window.booked| < 1 / 1000000

theorem window_spec {row : RateRow} (bounded : row.Bounded) {statement : Statement}
    {window : Window} (leased : statement.window row = some window) :
    Booked row statement window := by
  cases statement with
  | penalize now => cases leased
  | lease now slots intervalMs bound =>
      obtain ⟨answered, done, granted⟩ := Option.bind_eq_some_iff.mp leased
      split_ifs at granted with yes
      cases granted
      have spec := leaseSql_spec done
      refine ⟨le_max_left _ _, le_max_right _ _, spec.ahead bounded yes, ?_, ?_⟩
      · rw [exec_of_leased done]
      · obtain ⟨least, most⟩ := widened_bounded bounded
        have near := abs_slots_sub_lt spec.few spec.fit least most
        have apart : seconds answered.1.nextSlotAt = seconds (max row.nextSlotAt now) +
            seconds (makeInterval (spanOf (slots * intervalMs)
              (row.penaltyFactor.cast binary64))) := by
          rw [spec.frontier yes]
          unfold seconds
          push_cast
          ring
        unfold Window.finish
        dsimp only
        rw [apart, spec.slot, add_sub_add_left_eq_sub]
        exact near

theorem frontier_exec {row : RateRow} (bounded : row.Bounded) (statement : Statement) :
    row.nextSlotAt ≤ (statement.exec row).nextSlotAt := by
  cases statement with
  | lease now slots intervalMs bound =>
      cases done : leaseSql row now slots intervalMs bound with
      | none => rw [exec_of_failed done]
      | some leased =>
          rw [exec_of_leased done]
          exact (leaseSql_spec done).frontier_le bounded
  | penalize now => exact (le_max_left _ _).trans (penalizeSql_frontier bounded now).1

/-! ### Runs -/

theorem bounded_rowAfter {statements : List Statement} :
    ∀ {row : RateRow}, row.Bounded → (rowAfter row statements).Bounded := by
  induction statements with
  | nil => exact fun bounded => bounded
  | cons statement rest ih => exact fun bounded => ih (bounded_exec bounded statement)

theorem frontier_rowAfter {statements : List Statement} :
    ∀ {row : RateRow}, row.Bounded → row.nextSlotAt ≤ (rowAfter row statements).nextSlotAt := by
  induction statements with
  | nil => exact fun _ => le_refl _
  | cons statement rest ih =>
      exact fun bounded => (frontier_exec bounded statement).trans (ih (bounded_exec bounded statement))

/-- No window starts behind the frontier its run began at. -/
theorem start_of_windows {statements : List Statement} :
    ∀ {row : RateRow}, row.Bounded → ∀ window ∈ windows row statements,
      row.nextSlotAt ≤ window.start ∧ window.askedAt ≤ window.start ∧
        |window.finish - seconds window.booked| < 1 / 1000000 := by
  induction statements with
  | nil => exact fun _ _ none_ => absurd none_ List.not_mem_nil
  | cons statement rest ih =>
      intro row bounded window listed
      rcases List.mem_append.mp listed with own | later
      · have spec := window_spec bounded (Option.mem_toList.mp own)
        exact ⟨spec.start, spec.present, spec.slots⟩
      · have after := ih (bounded_exec bounded statement) window later
        exact ⟨(frontier_exec bounded statement).trans after.1, after.2⟩

theorem windows_ordered {statements : List Statement} :
    ∀ {row : RateRow}, row.Bounded →
      (windows row statements).Pairwise fun one other => one.booked ≤ other.start := by
  induction statements with
  | nil => exact fun _ => List.Pairwise.nil
  | cons statement rest ih =>
      intro row bounded
      have after := bounded_exec bounded statement
      refine List.pairwise_append.mpr ⟨?_, ih after, ?_⟩
      · cases statement.window row with
        | none => exact List.Pairwise.nil
        | some window => exact List.pairwise_singleton _ _
      · intro window own other later
        rw [(window_spec bounded (Option.mem_toList.mp own)).frontier]
        exact (start_of_windows after other later).1

/-- The budget row after any run of statements from a row. -/
structure Sound (row : RateRow) (statements : List Statement) : Prop where
  disjoint : (windows row statements).Pairwise fun one other =>
    one.booked ≤ other.start ∨ other.booked ≤ one.start
  booked : ∀ window ∈ windows row statements,
    |window.finish - seconds window.booked| < 1 / 1000000
  present : ∀ window ∈ windows row statements, window.askedAt ≤ window.start
  forward : ∀ earlier later, statements = earlier ++ later →
    (rowAfter row earlier).nextSlotAt ≤ (rowAfter row statements).nextSlotAt
  bounded : 1 ≤ (rowAfter row statements).penaltyFactor.value ∧
    (rowAfter row statements).penaltyFactor.value ≤ 8
  refused : ∀ earlier now slots intervalMs bound later,
    statements = earlier ++ .lease now slots intervalMs bound :: later →
      (∀ leased ∈ leaseSql (rowAfter row earlier) now slots intervalMs bound,
        leased.2.granted = false) →
          rowAfter row (earlier ++ [.lease now slots intervalMs bound]) = rowAfter row earlier
  penalized : ∀ earlier now later, statements = earlier ++ .penalize now :: later →
    ∀ window ∈ windows (rowAfter row (earlier ++ [.penalize now])) later,
      max (rowAfter row earlier).nextSlotAt now ≤ window.start ∧
        seconds (max (rowAfter row earlier).nextSlotAt now) +
            (rowAfter row earlier).intervalMs *
              (rowAfter row (earlier ++ [.penalize now])).penaltyFactor.value / 1000 -
            1 / 1000000 < seconds window.start

/-- Any run of leases and penalties keeps the shared frontier. -/
theorem shared_frontier_sound (row : RateRow) (healthy : 1 ≤ row.penaltyFactor.value)
    (capped : row.penaltyFactor.value ≤ 8) (statements : List Statement) :
    Sound row statements where
  disjoint := (windows_ordered ⟨healthy, capped⟩).imp .inl
  booked := fun window listed => (start_of_windows ⟨healthy, capped⟩ window listed).2.2
  present := fun window listed => (start_of_windows ⟨healthy, capped⟩ window listed).2.1
  forward := by
    rintro earlier later rfl
    rw [rowAfter_append]
    exact frontier_rowAfter (bounded_rowAfter ⟨healthy, capped⟩)
  bounded := bounded_rowAfter ⟨healthy, capped⟩
  refused := by
    intro earlier now slots intervalMs bound later _ refused
    rw [rowAfter_append]
    exact lease_refused refused
  penalized := by
    intro earlier now later _ window listed
    have before : (rowAfter row earlier).Bounded := bounded_rowAfter ⟨healthy, capped⟩
    have pushed : rowAfter row (earlier ++ [.penalize now]) =
        penalizeSql (rowAfter row earlier) now := rowAfter_append _ _ _
    rw [pushed] at listed ⊢
    obtain ⟨ahead, widened⟩ := penalizeSql_frontier before now
    have start := (start_of_windows (penalizeSql_bounded before now) window listed).1
    refine ⟨ahead.trans start, widened.trans_le ?_⟩
    have later : ((penalizeSql (rowAfter row earlier) now).nextSlotAt : ℚ) ≤ window.start := by
      exact_mod_cast start
    unfold seconds
    linarith

/-! ### The limiters' row -/

/-- Whatever the limiters do, the row goes through statements. -/
theorem row_of_step {settings : Nat → Settings} {world after : World} {action : Action}
    (taken : World.step settings world action = some after) :
    ∃ statements, after.row = rowAfter world.row statements := by
  cases action with
  | tick seconds =>
      simp only [World.step] at taken
      split_ifs at taken
      cases taken
      exact ⟨[], rfl⟩
  | take index =>
      simp only [World.step] at taken
      split at taken
      · split_ifs at taken
        cases taken
        exact ⟨[], rfl⟩
      · cases taken
  | ask index =>
      dsimp only [World.step] at taken
      split_ifs at taken
      obtain ⟨leased, done, rfl⟩ := Option.map_eq_some_iff.mp taken
      split_ifs
      · exact ⟨[.lease world.stamp _ _ _], (exec_of_leased done).symm⟩
      · exact ⟨[], rfl⟩
  | answer index =>
      obtain ⟨answered, _, rfl⟩ := Option.map_eq_some_iff.mp taken
      exact ⟨[], rfl⟩
  | schedule index thread =>
      obtain ⟨lease, _, rfl⟩ := Option.map_eq_some_iff.mp taken
      exact ⟨[], rfl⟩
  | abandon index thread =>
      obtain ⟨lease, _, rfl⟩ := Option.map_eq_some_iff.mp taken
      exact ⟨[], rfl⟩
  | penalize index =>
      simp only [World.step] at taken
      split_ifs at taken
      cases taken
      exact ⟨[.penalize world.stamp], rfl⟩
  | refuse index =>
      cases taken
      exact ⟨[], rfl⟩

/-! ### A penalty between two callers -/

def freshRow : RateRow :=
  { nextSlotAt := 0, intervalMs := 1000, penaltyFactor := .ofRat _ 1, stored := second_le_int4Max }

/-- The lease after the penalty is late for its bound, and the last one is older than it. -/
def contended : List Statement :=
  [.lease 10000000 2 1000 none, .penalize 11000000, .lease 11000000 1 500 (some (.ofRat _ 1)),
    .lease 10000000 1 500 none]

theorem contended_sound : Sound freshRow contended ∧
    (windows freshRow contended).map Window.booked = [12000000, 15000000] :=
  ⟨shared_frontier_sound freshRow (by decide +kernel) (by decide +kernel) contended,
    by decide +kernel⟩

/-- A penalty, the one slot leased after it at twice the width, and the batches after that, at a
width of 1.8 rounded down. -/
def recovering : List Statement :=
  [.penalize 0, .lease 0 1 1000 none, .lease 0 20 1000 none, .lease 0 20 1000 none]

theorem recovering_overlaps :
    ¬ ∀ (row : RateRow), 1 ≤ row.penaltyFactor.value → row.penaltyFactor.value ≤ 8 →
      ∀ statements : List Statement, (windows row statements).Pairwise fun one other =>
        one.finish ≤ seconds other.start ∨ other.finish ≤ seconds one.start := by
  intro all
  have disjoint := all freshRow (by decide +kernel) (by decide +kernel) recovering
  have overlaps : ¬ (windows freshRow recovering).Pairwise fun one other =>
      one.finish ≤ seconds other.start ∨ other.finish ≤ seconds one.start := by decide +kernel
  exact overlaps disjoint


end Sreality.Scraper.SharedFrontier
