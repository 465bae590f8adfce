import Sreality.Scraper.JobLease

/-! A release that took a due slot moves the due time forward, onto the job's grid or before its
next slot; a pure request run never moves it later; a joining row starts on its grid. -/

set_option autoImplicit false

namespace Sreality.Scraper.JobLease

open Sreality.Foundation

variable {job : ScheduledJob} {now : ℚ} {params : ReleaseParams}

theorem nextSlot_isLeast (forward : 0 < job.cadence) :
    IsLeast {time | now < time ∧ OnGrid job.cadence job.offset time} (job.nextSlot now) :=
  firstAfter_isLeast forward

theorem lt_nextSlot (forward : 0 < job.cadence) : now < job.nextSlot now :=
  lt_firstAfter forward _ _

/-! ### The waits -/

theorem backoffBaseS_le : backoffBaseS ≤ job.backoffS := by
  have doubled : (1 : ℚ) ≤ 2 ^ min job.consecutiveFailures 20 := one_le_pow₀ (by norm_num)
  unfold ScheduledJob.backoffS backoffBaseS
  linarith

/-- The wait before the next slot cuts it: of a backoff, or of a retry. -/
def waitOf (job : ScheduledJob) : DueKind → ℚ
  | .backoff => min job.backoffS job.cadence
  | .retry => min (max ((job.timeoutS.map fun seconds => (seconds : ℚ)).getD backoffBaseS)
      job.backoffS) job.cadence
  | _ => 0

theorem base_le_wait {kind : DueKind} (waits : kind = .backoff ∨ kind = .retry) :
    min backoffBaseS job.cadence ≤ waitOf job kind := by
  rcases waits with rfl | rfl
  · exact min_le_min_right _ backoffBaseS_le
  · exact min_le_min_right _ (backoffBaseS_le.trans (le_max_right _ _))

theorem wait_mono {more : Nat} (kind : DueKind) (grown : job.consecutiveFailures ≤ more) :
    waitOf job kind ≤ waitOf { job with consecutiveFailures := more } kind := by
  have doubled : job.backoffS ≤ ScheduledJob.backoffS { job with consecutiveFailures := more } := by
    have power : (2 : ℚ) ^ min job.consecutiveFailures 20 ≤ 2 ^ min more 20 :=
      pow_le_pow_right₀ (by norm_num) (min_le_min_right _ grown)
    unfold ScheduledJob.backoffS backoffBaseS
    exact mul_le_mul_of_nonneg_left power (by norm_num)
  cases kind with
  | backoff => exact min_le_min_right _ doubled
  | retry => exact min_le_min_right _ (max_le_max_left _ doubled)
  | slot => exact le_refl _
  | now => exact le_refl _
  | more => exact le_refl _
  | ownHour => exact le_refl _

/-! ### A release -/

theorem releaseRun_dueAt {after : ScheduledJob} (freed : releaseRun job now params = some after) :
    after.dueAt = dueAfter job now params := by
  unfold releaseRun at freed
  by_cases holds : job.leaseHolder = some params.holder
  · rw [if_pos holds] at freed
    cases freed
    rfl
  · rw [if_neg holds] at freed
    cases freed

/-- Where a release that took a due slot puts the due time. -/
def slotTime (job : ScheduledJob) (now : ℚ) : DueKind → ℚ
  | .now => now
  | .more => now + moreRemainsS
  | .backoff => min (now + waitOf job .backoff) (job.nextSlot now)
  | .retry => min (now + waitOf job .retry) (job.nextSlot now)
  | .ownHour => min (job.daySlot now) (job.nextSlot now)
  | .slot => job.nextSlot now

theorem dueAfter_of_slot {due : ℚ} (scheduled : job.dueAt = some due)
    (took : params.dueSlot = true) : dueAfter job now params = some (slotTime job now params.due) := by
  unfold dueAfter
  rw [scheduled, took]
  cases params.due <;> simp [slotTime, waitOf, ScheduledJob.backoff, ScheduledJob.retry]

/-- The kinds whose due time is set off the grid. -/
def gridKinds : List DueKind := [.slot, .backoff, .retry, .ownHour]

theorem lt_slotTime (forward : 0 < job.cadence) {kind : DueKind} (graded : kind ∈ gridKinds) :
    now < slotTime job now kind := by
  have waited : ∀ {kind : DueKind}, kind = .backoff ∨ kind = .retry → 0 < waitOf job kind :=
    fun waits => lt_of_lt_of_le (lt_min (by norm_num [backoffBaseS]) forward) (base_le_wait waits)
  cases kind with
  | now => simp [gridKinds] at graded
  | more => simp [gridKinds] at graded
  | slot => exact lt_nextSlot forward
  | backoff => exact lt_min (by linarith [waited (.inl rfl)]) (lt_nextSlot forward)
  | retry => exact lt_min (by linarith [waited (.inr rfl)]) (lt_nextSlot forward)
  | ownHour => exact lt_min (lt_firstAfter (by norm_num) _ _) (lt_nextSlot forward)

theorem slotTime_le {kind : DueKind} (graded : kind ∈ gridKinds) :
    slotTime job now kind ≤ job.nextSlot now := by
  cases kind with
  | now => simp [gridKinds] at graded
  | more => simp [gridKinds] at graded
  | slot => exact le_refl _
  | backoff => exact min_le_right _ _
  | retry => exact min_le_right _ _
  | ownHour => exact min_le_right _ _

theorem slotTime_mono {more : Nat} {kind : DueKind} (waits : kind = .backoff ∨ kind = .retry)
    (grown : job.consecutiveFailures ≤ more) :
    slotTime job now kind ≤ slotTime { job with consecutiveFailures := more } now kind := by
  have longer := @wait_mono job _ kind grown
  rcases waits with rfl | rfl
  · exact min_le_min (by linarith) (le_refl _)
  · exact min_le_min (by linarith) (le_refl _)

theorem floor_le_slotTime {kind : DueKind} (waits : kind = .backoff ∨ kind = .retry) :
    min backoffBaseS (min job.cadence (job.nextSlot now - now)) ≤ slotTime job now kind - now := by
  have base := @base_le_wait job _ waits
  have spread : slotTime job now kind - now = min (waitOf job kind) (job.nextSlot now - now) := by
    rcases waits with rfl | rfl
    · change min (now + waitOf job .backoff) (job.nextSlot now) - now = _
      rw [sub_eq_iff_eq_add, ← min_add_add_right, sub_add_cancel, add_comm]
    · change min (now + waitOf job .retry) (job.nextSlot now) - now = _
      rw [sub_eq_iff_eq_add, ← min_add_add_right, sub_add_cancel, add_comm]
  rw [spread, ← min_assoc]
  exact min_le_min_right _ base

/-- The due time of a job with a cadence: after a release that took a due slot, after a pure
request run, and when the row joins. -/
structure DueTimes (job : ScheduledJob) (now : ℚ) : Prop where
  grid : IsLeast {time | now < time ∧ ∃ strike : ℤ, time = strike * job.cadence + job.offset}
    (job.nextSlot now)
  immediate : ∀ params after due, job.dueAt = some due → params.dueSlot = true →
    params.due = .now → releaseRun job now params = some after → after.dueAt = some now
  remains : ∀ params after due, job.dueAt = some due → params.dueSlot = true →
    params.due = .more → releaseRun job now params = some after → after.dueAt = some (now + 60)
  forward : ∀ params after due, job.dueAt = some due → params.dueSlot = true →
    params.due ∈ gridKinds → releaseRun job now params = some after →
      ∃ time, after.dueAt = some time ∧ now < time ∧ time ≤ job.nextSlot now
  patient : ∀ params after later more due, job.dueAt = some due → params.dueSlot = true →
    params.due = .backoff ∨ params.due = .retry → job.consecutiveFailures ≤ more →
      releaseRun job now params = some after →
        releaseRun { job with consecutiveFailures := more } now params = some later →
          ∃ time longer, after.dueAt = some time ∧ later.dueAt = some longer ∧
            time - now ≤ longer - now
  floored : ∀ params after due, job.dueAt = some due → params.dueSlot = true →
    params.due = .backoff ∨ params.due = .retry → releaseRun job now params = some after →
      ∃ time, after.dueAt = some time ∧
        min 60 (min job.cadence (job.nextSlot now - now)) ≤ time - now
  requested : ∀ params after due, job.dueAt = some due → params.requested = true →
    params.dueSlot = false → releaseRun job now params = some after →
      ∃ time, after.dueAt = some time ∧ time ≤ due
  joined : ∀ row entry, 0 < entry.everyS → joins row now = true →
    ∃ time, (register row now entry).dueAt = some time ∧
      IsLeast {time | now + entry.timeoutS ≤ time ∧
        ∃ strike : ℤ, time = strike * entry.everyS + entry.offsetS} time

theorem due_times (job : ScheduledJob) (now : ℚ) (forward : 0 < job.cadence) :
    DueTimes job now where
  grid := nextSlot_isLeast forward
  immediate := by
    intro params after due scheduled took kind freed
    rw [releaseRun_dueAt freed, dueAfter_of_slot scheduled took, kind]
    rfl
  remains := by
    intro params after due scheduled took kind freed
    rw [releaseRun_dueAt freed, dueAfter_of_slot scheduled took, kind]
    rfl
  forward := by
    intro params after due scheduled took graded freed
    rw [releaseRun_dueAt freed, dueAfter_of_slot scheduled took]
    exact ⟨_, rfl, lt_slotTime forward graded, slotTime_le graded⟩
  patient := by
    intro params after later more due scheduled took waits grown freed freedLater
    have scheduledLater : ({ job with consecutiveFailures := more } : ScheduledJob).dueAt =
        some due := scheduled
    rw [releaseRun_dueAt freed, releaseRun_dueAt freedLater, dueAfter_of_slot scheduled took,
      dueAfter_of_slot scheduledLater took]
    exact ⟨_, _, rfl, rfl, sub_le_sub_right (slotTime_mono waits grown) now⟩
  floored := by
    intro params after due scheduled took waits freed
    rw [releaseRun_dueAt freed, dueAfter_of_slot scheduled took]
    exact ⟨_, rfl, floor_le_slotTime waits⟩
  requested := by
    intro params after due scheduled requested untaken freed
    rw [releaseRun_dueAt freed]
    unfold dueAfter
    rw [scheduled, requested, untaken]
    by_cases more : params.due = .more
    · exact ⟨_, rfl, by simp [more]⟩
    · exact ⟨_, rfl, by simp [more]⟩
  joined := by
    intro row entry every joining
    have period : (0 : ℚ) < entry.everyS := by exact_mod_cast every
    refine ⟨entry.firstDue now, ?_, firstFrom_isLeast period⟩
    cases row with
    | none => rfl
    | some row => exact if_pos joining

/-! ### A retry near its slot -/

/-- An hourly job whose offset is past its cadence, after three failures. -/
def hourly : ScheduledJob where
  jobName := "hourly"
  cadence := 3600
  offsetS := some 4000
  timeoutS := some 900
  dueAt := some 4000
  leaseHolder := some "runner"
  leaseExpiresAt := some 5000
  lastOutcome := some .running
  lastError := none
  lastSuccessAt := none
  consecutiveFailures := 3
  registryAt := some 0
  retiredAt := none

theorem hourly_due_times : DueTimes hourly 4100 ∧
    ((releaseRun hourly 4100 (releaseParams "runner" .timeout (some .retry) none false true)).bind
      ScheduledJob.dueAt) = some 5000 :=
  ⟨due_times hourly 4100 (by decide +kernel), by decide +kernel⟩

end Sreality.Scraper.JobLease
