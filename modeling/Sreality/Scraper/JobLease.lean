import Sreality.Foundation.Grids

/-! The due time of a scheduled job (scraper/job_lease.py): where a release puts it, and where the
runner's registration does. Times are seconds since the epoch the grid is anchored at. -/

set_option autoImplicit false

namespace Sreality.Scraper.JobLease

open Sreality.Foundation

def moreRemainsS : ℚ := 60

def backoffBaseS : ℚ := 60

def rejoinAfterS : ℚ := 3600

/-- What a run is released with. -/
inductive ReleaseOutcome where
  | ok
  | failed
  | cancelled
  | skipped
  | timeout
  | interrupted
  deriving DecidableEq

/-- `NOT_FAILURES`. -/
def ReleaseOutcome.notFailure : ReleaseOutcome → Bool
  | .cancelled | .skipped | .interrupted => true
  | .ok | .failed | .timeout => false

/-- `DUE_KINDS`. -/
inductive DueKind where
  | slot
  | now
  | more
  | backoff
  | retry
  | ownHour
  deriving DecidableEq

inductive LastOutcome where
  | running
  | lost
  | released (outcome : ReleaseOutcome)
  deriving DecidableEq

/-- `scheduled_jobs`. -/
structure ScheduledJob where
  jobName : String
  cadence : ℚ
  offsetS : Option ℤ
  timeoutS : Option ℤ
  dueAt : Option ℚ
  leaseHolder : Option String
  leaseExpiresAt : Option ℚ
  lastOutcome : Option LastOutcome
  lastError : Option String
  lastSuccessAt : Option ℚ
  consecutiveFailures : Nat
  registryAt : Option ℚ
  retiredAt : Option ℚ
  deriving DecidableEq

namespace ScheduledJob

variable (job : ScheduledJob) (now : ℚ)

def offset : ℤ := job.offsetS.getD 0

/-- `_NEXT_SLOT_SQL`. -/
def nextSlot : ℚ := firstAfter job.cadence job.offset now

/-- `_DAY_SLOT_SQL`: the remainder has the sign of the offset. -/
def daySlot : ℚ := firstAfter 86400 (job.offset.tmod 86400 : ℤ) now

/-- `_BACKOFF_S`. -/
def backoffS : ℚ := backoffBaseS * 2 ^ min job.consecutiveFailures 20

/-- `_BACKOFF_SQL`. -/
def backoff : ℚ := min (now + min job.backoffS job.cadence) (job.nextSlot now)

def retry : ℚ :=
  min (now + min (max ((job.timeoutS.map fun seconds => (seconds : ℚ)).getD backoffBaseS)
    job.backoffS) job.cadence) (job.nextSlot now)

end ScheduledJob

/-- The parameters of `_RELEASE_RUN_SQL`. -/
structure ReleaseParams where
  holder : String
  outcome : ReleaseOutcome
  error : Option String
  due : DueKind
  requested : Bool
  dueSlot : Bool
  deriving DecidableEq

/-- `_release_params`, and what `release` adds of the claimed lease. -/
def releaseParams (holder : String) (outcome : ReleaseOutcome) (due : Option DueKind)
    (error : Option String) (requested dueSlot : Bool) : ReleaseParams where
  holder := holder
  outcome := outcome
  error := (error.filter fun text => !text.isEmpty).map fun text =>
    String.ofList (text.toList.take 500)
  due := due.getD (if outcome = .interrupted then .now else .slot)
  requested := requested
  dueSlot := dueSlot

/-- The `due_at` a release sets. -/
def dueAfter (job : ScheduledJob) (now : ℚ) (params : ReleaseParams) : Option ℚ :=
  job.dueAt.map fun due =>
    if params.requested && !params.dueSlot then
      if params.due = .more then min due (now + moreRemainsS) else due
    else
      match params.due with
      | .now => now
      | .more => now + moreRemainsS
      | .backoff => job.backoff now
      | .retry => job.retry now
      | .ownHour => min (job.daySlot now) (job.nextSlot now)
      | .slot => job.nextSlot now

/-- `_RELEASE_RUN_SQL`: the row a holder frees, its expressions read off the row before. -/
def releaseRun (job : ScheduledJob) (now : ℚ) (params : ReleaseParams) : Option ScheduledJob :=
  if job.leaseHolder = some params.holder then
    some { job with
      leaseHolder := none
      leaseExpiresAt := none
      lastOutcome := some (.released params.outcome)
      lastError := params.error
      lastSuccessAt := if params.outcome = .ok then some now else job.lastSuccessAt
      consecutiveFailures :=
        if params.outcome = .ok then 0
        else if params.outcome.notFailure then job.consecutiveFailures
        else job.consecutiveFailures + 1
      dueAt := dueAfter job now params }
  else none

/-- An entry of the registry. -/
structure Job where
  name : String
  everyS : ℤ
  offsetS : ℤ
  timeoutS : ℤ
  deriving DecidableEq

/-- `EXCLUDED.due_at`. -/
def Job.firstDue (job : Job) (now : ℚ) : ℚ :=
  firstFrom job.everyS job.offsetS (now + job.timeoutS)

/-- A row retired long enough for its return to be a new join. -/
def ScheduledJob.rejoins (row : ScheduledJob) (now : ℚ) : Bool :=
  row.retiredAt.any fun retired => decide (retired ≤ now - rejoinAfterS)

/-- `_REGISTER_SQL`. -/
def register (row : Option ScheduledJob) (now : ℚ) (job : Job) : ScheduledJob :=
  match row with
  | none =>
      { jobName := job.name, cadence := job.everyS, offsetS := some job.offsetS
        timeoutS := some job.timeoutS, dueAt := some (job.firstDue now)
        leaseHolder := none, leaseExpiresAt := none, lastOutcome := none, lastError := none
        lastSuccessAt := none, consecutiveFailures := 0, registryAt := some now
        retiredAt := none }
  | some row =>
      { row with
        cadence := job.everyS
        offsetS := some job.offsetS
        timeoutS := some job.timeoutS
        retiredAt := none
        registryAt := if row.registryAt.isNone || row.rejoins now then some now else row.registryAt
        dueAt :=
          if row.registryAt.isNone || row.dueAt.isNone || row.rejoins now then
            some (job.firstDue now)
          else row.dueAt }

/-- A row that is new, adopted, was never scheduled, or comes back. -/
def joins (row : Option ScheduledJob) (now : ℚ) : Bool :=
  row.all fun row => row.registryAt.isNone || row.dueAt.isNone || row.rejoins now

end Sreality.Scraper.JobLease
