import Sreality.Foundation.Runs
import Sreality.Foundation.StableSort
import Sreality.Foundation.Tables
import Sreality.Scraper.JobLease

/-! The leases of the scheduled jobs and of the lanes (scraper/job_lease.py): rows claimed by
compare-and-set, one run opened by each claim, holders that renew, stop at their fence and commit
behind it. A call is one transaction: `now` is when it began, `sentAt` when it was sent. -/

set_option autoImplicit false

namespace Sreality.Scraper.JobLease

open Sreality.Foundation

def fenceMarginS : ℚ := 30

def daySeconds : ℚ := 86400

/-- `scheduled_jobs`, with the columns a claim reads. -/
structure JobRow extends ScheduledJob where
  runner : String
  resource : Option String
  pausedUntil : Option ℚ
  requestedAt : Option ℚ
  requestedArgs : Option (List String)
  requestedBy : Option String
  deriving DecidableEq

inductive RunOutcome where
  | released (outcome : ReleaseOutcome)
  | lost
  deriving DecidableEq

/-- `job_runs`: a run is closed with an outcome. -/
structure JobRun where
  id : Nat
  jobName : String
  holder : String
  resource : Option String
  args : Option (List String)
  requestedBy : Option String
  closed : Option (ℚ × RunOutcome)
  deriving DecidableEq

structure Database where
  rows : List JobRow
  runs : List JobRun
  nextRun : Nat
  deriving DecidableEq

/-- What `Lease` adds to `Hold`. -/
structure ClaimedRun where
  runId : Nat
  args : Option (List String)
  requestedBy : Option String
  dueSlot : Bool
  deriving DecidableEq

/-- `Hold`; a lane's hold claims no run. -/
structure Hold where
  jobName : String
  holder : String
  ttlS : ℚ
  fenceAt : ℚ
  claimed : Option ClaimedRun
  deriving DecidableEq

/-- `_fence_at`. -/
def fenceAfter (sentAt ttlS : ℚ) : ℚ := sentAt + ttlS - fenceMarginS

def Hold.fenced (hold : Hold) (clock : ℚ) : Bool := decide (hold.fenceAt ≤ clock)

/-! ### Rows -/

namespace JobRow

variable (row : JobRow) (now : ℚ)

/-- `_FREE`. -/
def free : Bool :=
  row.leaseHolder.isNone || row.leaseExpiresAt.all fun expires => decide (expires < now)

/-- `_UNPAUSED`. -/
def unpaused : Bool := row.pausedUntil.all fun paused => decide (paused ≤ now)

def dueNow : Bool := row.dueAt.any (fun due => decide (due ≤ now)) && row.unpaused now

def asked : Bool := row.requestedAt.any fun requested => decide (requested ≤ now)

/-- A live lease, whoever holds it. -/
def leased : Bool :=
  row.leaseHolder.isSome && row.leaseExpiresAt.any fun expires => decide (now ≤ expires)

def heldBy (holder : String) : Bool :=
  decide (row.leaseHolder = some holder) &&
    row.leaseExpiresAt.any fun expires => decide (now ≤ expires)

/-- The `WHERE` of `_CLAIM_SQL`; the siblings are read in its snapshot. -/
def claimable (seen : List JobRow) : Bool :=
  row.retiredAt.isNone && (row.dueNow now || row.asked now) && row.free now &&
    row.resource.all fun resource => !seen.any fun sibling =>
      decide (sibling.resource = some resource) && decide (sibling.jobName ≠ row.jobName) &&
        sibling.leased now

def lease (holder : String) (ttlS : ℚ) : JobRow :=
  { row with
    leaseHolder := some holder
    leaseExpiresAt := some (now + ttlS)
    lastOutcome := some .running }

def release (params : ReleaseParams) : JobRow :=
  { row with toScheduledJob := (releaseRun row.toScheduledJob now params).getD row.toScheduledJob }

end JobRow

def JobRun.close (run : JobRun) (now : ℚ) (outcome : RunOutcome) : JobRun :=
  { run with closed := some (now, outcome) }

/-- An entry of the registry, with what only the row keeps. -/
structure Entry extends Job where
  memoryMb : ℤ
  cpus : ℤ
  resource : Option String
  deriving DecidableEq

/-- `scheduled_jobs_declarations_positive`, and a cadence to divide by. -/
def Entry.accepted (entry : Entry) : Bool :=
  decide (0 ≤ entry.offsetS) && decide (0 < entry.timeoutS) && decide (0 < entry.memoryMb) &&
    decide (0 < entry.cpus) && decide (entry.everyS ≠ 0)

namespace Database

variable (db : Database) (now : ℚ)

def row (job : String) : Option JobRow := db.rows.find? fun row => decide (row.jobName = job)

def runsOf (job : String) : List JobRun := db.runs.filter fun run => decide (run.jobName = job)

/-- `UPDATE scheduled_jobs … WHERE job_name = …`. -/
def changeRow (job : String) (change : JobRow → JobRow) : Database :=
  { db with rows := updateRows (fun row => decide (row.jobName = job)) change db.rows }

/-! ### Claims -/

/-- The runs `_CLOSE_LOST_SQL` closes: any open one of the job, and one of its resource whose
holder has no live lease. -/
def loses (job : String) (resource : Option String) (run : JobRun) : Bool :=
  run.closed.isNone && db.rows.any fun sibling =>
    decide (sibling.jobName = run.jobName) &&
      (decide (run.jobName = job) ||
        (resource.any (fun resource => decide (run.resource = some resource)) &&
          !sibling.heldBy now run.holder))

/-- `_CLOSE_LOST_SQL`. -/
def closeLost (job : String) (resource : Option String) : Database :=
  { db with
    runs := updateRows (db.loses now job resource) (·.close now .lost) db.runs
    rows := updateRows
      (fun row => db.runs.any fun run =>
        decide (run.jobName = row.jobName) && db.loses now job resource run)
      (fun row =>
        { row with
          consecutiveFailures := row.consecutiveFailures + 1
          lastOutcome := if row.jobName = job then row.lastOutcome else some .lost
          leaseHolder := if row.jobName = job then row.leaseHolder else none
          leaseExpiresAt := if row.jobName = job then row.leaseExpiresAt else none })
      db.rows }

/-- `_OPEN_RUN_SQL`, refused by either unique index. -/
def openRun (job holder : String) (resource : Option String) (args : Option (List String))
    (requestedBy : Option String) : Option Database :=
  if db.runs.any fun run => run.closed.isNone &&
      (decide (run.jobName = job) || (resource.isSome && decide (run.resource = resource))) then
    none
  else
    some { db with
      runs := db.runs ++
        [{ id := db.nextRun, jobName := job, holder := holder, resource := resource, args := args
           requestedBy := requestedBy, closed := none }]
      nextRun := db.nextRun + 1 }

/-- `_TAKE_REQUEST_SQL`. -/
def takeRequest (job : String) : Database :=
  db.changeRow job fun row =>
    { row with requestedAt := none, requestedArgs := none, requestedBy := none }

/-- `claim`. -/
def claim (seen : List JobRow) (job holder : String) (ttlS : ℚ) : Option (Database × ClaimedRun) :=
  match db.row job with
  | none => none
  | some row =>
      if row.claimable now seen then
        let args := if row.asked now then row.requestedArgs else none
        let requestedBy := if row.asked now then row.requestedBy else none
        let taken := db.changeRow job fun row => row.lease now holder ttlS
        let settled := taken.closeLost now job row.resource
        (settled.openRun job holder row.resource args requestedBy).map fun opened =>
          (if row.asked now then opened.takeRequest job else opened,
            { runId := db.nextRun, args := args, requestedBy := requestedBy
              dueSlot := row.dueNow now })
      else none

/-! ### Holders -/

/-- `_RENEW_SQL`, by the clock. -/
def renew (clock : ℚ) (job holder : String) (ttlS : ℚ) : Option Database :=
  if (db.row job).any (·.heldBy clock holder) then
    some (db.changeRow job fun row => { row with leaseExpiresAt := some (clock + ttlS) })
  else none

/-- `_FENCE_SQL`, by the clock. -/
def fences (clock : ℚ) (job holder : String) : Bool :=
  (db.row job).any fun row => decide (row.leaseHolder = some holder) &&
    row.leaseExpiresAt.any fun expires => decide (clock < expires)

/-- `_CLOSE_RUN_SQL`. -/
def closeRun (runId : Nat) (outcome : ReleaseOutcome) : Database :=
  { db with
    runs := updateRows (fun run => decide (run.id = runId) && run.closed.isNone)
      (·.close now (.released outcome)) db.runs }

/-- `release`, and `_release_hold` for a lane. -/
def release (hold : Hold) (outcome : ReleaseOutcome) (due : Option DueKind)
    (error : Option String) : Option Database :=
  if (db.row hold.jobName).any fun row => decide (row.leaseHolder = some hold.holder) then
    let params := releaseParams hold.holder outcome due error
      (hold.claimed.any (·.requestedBy.isSome)) (hold.claimed.any (·.dueSlot))
    let freed := db.changeRow hold.jobName fun row => row.release now params
    match hold.claimed with
    | some run => some (freed.closeRun now run.runId outcome)
    | none => some freed
  else none

/-- `_UPSERT_LANE_SQL`. -/
def upsertLane (job runner : String) (cadence : ℚ) : Database :=
  match db.row job with
  | some _ => db
  | none =>
      { db with
        rows := db.rows ++
          [{ jobName := job, cadence := cadence, offsetS := none, timeoutS := none, dueAt := none
             leaseHolder := none, leaseExpiresAt := none, lastOutcome := none, lastError := none
             lastSuccessAt := none, consecutiveFailures := 0, registryAt := none
             retiredAt := none, runner := runner, resource := none, pausedUntil := none
             requestedAt := none, requestedArgs := none, requestedBy := none }] }

/-- `held`, as it takes the lane; the row is born whether or not it is taken. -/
def acquire (job runner holder : String) (cadence ttlS : ℚ) : Database × Bool :=
  let born := db.upsertLane job runner cadence
  if (born.row job).any fun row => row.retiredAt.isNone && row.unpaused now && row.free now then
    (born.changeRow job fun row => row.lease now holder ttlS, true)
  else (born, false)

/-! ### The runner's calls on the registry -/

/-- One entry of `register`, skipped when the database refuses it. -/
def register (runner : String) (entry : Entry) : Database :=
  if entry.accepted then
    match db.row entry.name with
    | none =>
        { db with
          rows := db.rows ++
            [{ toScheduledJob := JobLease.register none now entry.toJob, runner := runner
               resource := entry.resource, pausedUntil := none, requestedAt := none
               requestedArgs := none, requestedBy := none }] }
    | some _ => db.changeRow entry.name fun row =>
        { row with
          toScheduledJob := JobLease.register (some row.toScheduledJob) now entry.toJob
          runner := runner
          resource := entry.resource }
  else db

/-- `_RETIRE_SQL`. -/
def retire (runner : String) (names : List String) : Database :=
  { db with
    rows := updateRows
      (fun row => row.registryAt.isSome && decide (row.runner = runner) && row.retiredAt.isNone &&
        decide (row.jobName ∉ names))
      (fun row => { row with retiredAt := some now }) db.rows }

/-- `_REQUEST_SQL`. -/
def request (runner job by_ : String) (args : Option (List String)) : Database :=
  { db with
    rows := updateRows
      (fun row => decide (row.jobName = job) && decide (row.runner = runner) &&
        row.registryAt.isSome && row.retiredAt.isNone && row.requestedAt.isNone)
      (fun row =>
        { row with requestedAt := some now, requestedArgs := args, requestedBy := some by_ })
      db.rows }

/-- `_PAUSE_SQL`. -/
def pause (job : String) (till : Option ℚ) : Database :=
  db.changeRow job fun row => { row with pausedUntil := some (till.getD now) }

/-- The `lapsed` of `_REAP_LOST_SQL`, locked rows skipped. -/
def lapsed (locked : String → Bool) (runner : String) (run : JobRun) : Bool :=
  run.closed.isNone && db.rows.any fun row =>
    decide (row.jobName = run.jobName) && decide (row.runner = runner) &&
      row.registryAt.isSome && !row.heldBy now run.holder && !locked row.jobName

/-- The job's latest closed run was lost too. -/
def lostBefore (job : String) : Bool :=
  (sortedBy (·.id) ((db.runsOf job).filter (·.closed.isSome))).getLast?.any fun run =>
    run.closed.any fun closed => decide (closed.2 = .lost)

/-- `_REAP_LOST_SQL`. -/
def reapLost (locked : String → Bool) (runner : String) (names onHour : List String) : Database :=
  { db with
    runs := updateRows (db.lapsed now locked runner) (·.close now .lost) db.runs
    rows := db.rows.map fun row =>
      match (db.runsOf row.jobName).find? (db.lapsed now locked runner) with
      | none => row
      | some run =>
          { row with
            consecutiveFailures := row.consecutiveFailures + 1
            lastOutcome := some .lost
            leaseHolder := if row.leaseHolder = some run.holder then none else row.leaseHolder
            leaseExpiresAt :=
              if row.leaseHolder = some run.holder then none else row.leaseExpiresAt
            dueAt :=
              if row.dueAt.isNone || decide (row.jobName ∉ names) then row.dueAt
              else if row.jobName ∈ onHour then some (min (row.daySlot now) (row.nextSlot now))
              else if db.lostBefore row.jobName then some (row.backoff now)
              else some now } }

/-- `prune_runs`. -/
def pruneRuns (days : ℚ) : Database :=
  { db with
    runs := db.runs.filter fun run =>
      !run.closed.any fun closed => decide (closed.1 < now - days * daySeconds) }

end Database

/-! ### The holders beside the database -/

inductive Event where
  | granted (job holder : String)
  | committed (job holder : String)
  deriving DecidableEq

/-- The holder a job was last granted to. -/
def lastGranted (history : List Event) (job : String) : Option String :=
  history.foldl (fun last event =>
    match event with
    | .granted name holder => if name = job then some holder else last
    | .committed _ _ => last) none

structure World where
  time : ℚ
  db : Database
  /-- The holds whose work may go on. -/
  working : List Hold
  /-- The holds whose work has stopped; their release may be sent again. -/
  stopped : List Hold
  /-- The transactions past their fence: each has its row locked until it ends. -/
  fencing : List Hold
  history : List Event
  deriving DecidableEq

namespace World

variable (world : World)

def locked (job : String) : Bool := world.fencing.any fun hold => decide (hold.jobName = job)

/-- No one has used the holder id. -/
def unused (holder : String) : Bool :=
  world.db.rows.all (fun row => decide (row.leaseHolder ≠ some holder)) &&
    world.history.all fun event =>
      match event with
      | .granted _ other => decide (other ≠ holder)
      | .committed _ _ => true

/-- A call lands unless it changes a locked row: then it waits. -/
def write (after : Database) : Option World :=
  if world.fencing.all fun hold => decide (after.row hold.jobName = world.db.row hold.jobName) then
    some { world with db := after }
  else none

/-- A lease is granted; the reply may be lost. -/
def grant (hold : Hold) (answered : Bool) : World :=
  { world with
    working := if answered then world.working ++ [hold] else world.working
    history := world.history ++ [.granted hold.jobName hold.holder] }

inductive Action where
  | wait (till : ℚ)
  | claim (seen : List JobRow) (now sentAt : ℚ) (job holder : String) (ttlS : ℚ) (answered : Bool)
  | acquire (now sentAt : ℚ) (job runner holder : String) (cadence ttlS : ℚ) (answered : Bool)
  | renew (hold : Hold) (sentAt : ℚ) (answered : Bool)
  | fence (hold : Hold)
  | commit (hold : Hold)
  | rollback (hold : Hold)
  | stop (hold : Hold)
  | release (hold : Hold) (now : ℚ) (outcome : ReleaseOutcome) (due : Option DueKind)
      (error : Option String)
  | register (now : ℚ) (runner : String) (entry : Entry)
  | retire (now : ℚ) (runner : String) (names : List String)
  | request (now : ℚ) (runner job by_ : String) (args : Option (List String))
  | pause (now : ℚ) (job : String) (till : Option ℚ)
  | reapLost (now : ℚ) (runner : String) (names onHour : List String)
  | pruneRuns (now days : ℚ)
  deriving DecidableEq

/-- What happens next, none when it cannot or has to wait. -/
def step : Action → Option World
  | .wait till => if world.time ≤ till then some { world with time := till } else none
  | .claim seen now sentAt job holder ttlS answered =>
      if sentAt ≤ now ∧ now ≤ world.time ∧ world.unused holder then
        match world.db.claim now seen job holder ttlS with
        | none => some world
        | some (after, run) =>
            (world.write after).map fun landed =>
              landed.grant
                { jobName := job, holder := holder, ttlS := ttlS
                  fenceAt := fenceAfter sentAt ttlS, claimed := some run } answered
      else none
  | .acquire now sentAt job runner holder cadence ttlS answered =>
      if sentAt ≤ now ∧ now ≤ world.time ∧ world.unused holder then
        match world.db.acquire now job runner holder cadence ttlS with
        | (after, false) => world.write after
        | (after, true) =>
            (world.write after).map fun landed =>
              landed.grant
                { jobName := job, holder := holder, ttlS := ttlS
                  fenceAt := fenceAfter sentAt ttlS, claimed := none } answered
      else none
  | .renew hold sentAt answered =>
      if hold ∈ world.working ∧ sentAt ≤ world.time then
        match world.db.renew world.time hold.jobName hold.holder hold.ttlS with
        | none => some world
        | some after =>
            (world.write after).map fun landed =>
              if answered then
                { landed with
                  working := landed.working.map fun other =>
                    if other = hold then { hold with fenceAt := fenceAfter sentAt hold.ttlS }
                    else other }
              else landed
      else none
  | .fence hold =>
      if hold ∈ world.working ∧ world.locked hold.jobName = false ∧
          world.db.fences world.time hold.jobName hold.holder = true then
        some { world with fencing := world.fencing ++ [hold] }
      else none
  | .commit hold =>
      if hold ∈ world.fencing then
        some { world with
          fencing := world.fencing.erase hold
          history := world.history ++ [.committed hold.jobName hold.holder] }
      else none
  | .rollback hold =>
      if hold ∈ world.fencing then some { world with fencing := world.fencing.erase hold } else none
  | .stop hold =>
      if hold ∈ world.working then
        some { world with
          working := world.working.erase hold
          stopped := world.stopped ++ [hold] }
      else none
  | .release hold now outcome due error =>
      if hold ∈ world.stopped ∧ now ≤ world.time then
        match world.db.release now hold outcome due error with
        | none => some world
        | some after => world.write after
      else none
  | .register now runner entry =>
      if now ≤ world.time then world.write (world.db.register now runner entry) else none
  | .retire now runner names =>
      if now ≤ world.time then world.write (world.db.retire now runner names) else none
  | .request now runner job by_ args =>
      if now ≤ world.time then world.write (world.db.request now runner job by_ args) else none
  | .pause now job till =>
      if now ≤ world.time then world.write (world.db.pause now job till) else none
  | .reapLost now runner names onHour =>
      if now ≤ world.time then
        world.write (world.db.reapLost now world.locked runner names onHour)
      else none
  | .pruneRuns now days =>
      if now ≤ world.time then world.write (world.db.pruneRuns now days) else none

end World

end Sreality.Scraper.JobLease
