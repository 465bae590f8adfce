import Mathlib.Data.Prod.Lex
import Mathlib.Data.String.Basic
import Sreality.Scraper.JobProcess
import Sreality.Scraper.JobRunsProperties

/-! The job runner (scraper/job_runner.py): a replica that claims due jobs, starts a child for each,
renews its lease and releases it once the child's group is gone, beside its guard and the other
callers of the database. A tick takes its steps in order; the guard passes in between. -/

set_option autoImplicit false

namespace Sreality.Scraper.JobRunner

open Sreality.Foundation JobLease JobProcess

def claimEveryS : ℚ := 5

def ttlS : ℚ := 180

def moreRemainsExit : ℤ := 75

def sigkill : ℤ := 9

/-- `jobs.Job`, with what the runner reads of it. -/
structure RegistryJob extends Entry where
  dbHeavy : Bool
  deriving DecidableEq

/-! ### What a finished run is released with -/

/-- The outcome and the due kind of a finished run: the runner's own stop before the exit code. -/
def settle (reason : Option Stop) (code : Option ℤ) (stopping dbHeavy : Bool) :
    ReleaseOutcome × DueKind :=
  let ended : ReleaseOutcome × DueKind :=
    match code with
    | none => (.failed, .backoff)
    | some code =>
        if reason = some .timeout then (.timeout, .retry)
        else if code = 0 then (.ok, .slot)
        else if code = moreRemainsExit then (.ok, .more)
        else if reason = some .deploy ∨ reason = some .fence ∨ stopping then (.interrupted, .now)
        else (.failed, .backoff)
  if dbHeavy ∧ (ended.2 = .backoff ∨ ended.2 = .retry) then (ended.1, .ownHour) else ended

/-- `signal.Signals`. -/
def signalNames : List (ℤ × String) :=
  [(1, "SIGHUP"), (2, "SIGINT"), (3, "SIGQUIT"), (4, "SIGILL"), (5, "SIGTRAP"), (6, "SIGABRT"),
    (7, "SIGBUS"), (8, "SIGFPE"), (9, "SIGKILL"), (10, "SIGUSR1"), (11, "SIGSEGV"),
    (12, "SIGUSR2"), (13, "SIGPIPE"), (14, "SIGALRM"), (15, "SIGTERM"), (16, "SIGSTKFLT"),
    (17, "SIGCHLD"), (18, "SIGCONT"), (19, "SIGSTOP"), (20, "SIGTSTP"), (21, "SIGTTIN"),
    (22, "SIGTTOU"), (23, "SIGURG"), (24, "SIGXCPU"), (25, "SIGXFSZ"), (26, "SIGVTALRM"),
    (27, "SIGPROF"), (28, "SIGWINCH"), (29, "SIGIO"), (30, "SIGPWR"), (31, "SIGSYS"),
    (34, "SIGRTMIN"), (64, "SIGRTMAX")]

/-- The `last_error` of a finished run. -/
def cause (job : RegistryJob) (reason : Option Stop) (code : Option ℤ) (peakMb : Option ℤ)
    (stragglers : Nat) : Option String :=
  let text : Option String :=
    match code with
    | none => some "spawn failed"
    | some code =>
        if reason = some .timeout then
          some ("stopped at timeout_s=" ++ toString job.timeoutS ++ "; exit " ++ toString code)
        else if code = 0 ∨ code = moreRemainsExit then none
        else if reason = some .deploy then some ("deploy stop; exit " ++ toString code)
        else if reason = some .fence then some ("lease fenced; exit " ++ toString code)
        else if code = -sigkill then
          some ("SIGKILL not sent by the runner (likely the OOM killer); peak " ++
            (peakMb.elim "None" toString) ++ " MB of memory_mb " ++ toString job.memoryMb)
        else if code < 0 then
          some ("killed by " ++
            ((signalNames.lookup (-code)).getD ("signal " ++ toString (-code))))
        else some ("exit " ++ toString code)
  if stragglers = 0 then text
  else
    let tail := toString stragglers ++ " processes outlived the leader by 10 s"
    some (text.elim tail fun text => text ++ "; " ++ tail)

/-- The `last_error` of a run whose child did not start. -/
def spawnError (kind : String) (errno : Option Nat) : String :=
  match errno.filter (· ≠ 0) with
  | some errno => "spawn: " ++ kind ++ " " ++ toString errno
  | none => "spawn: " ++ kind

/-! ### The runner's state -/

structure Running where
  job : RegistryJob
  lease : Hold
  started : ℚ
  /-- None when a renewal was refused: it is not asked again. -/
  renewAt : Option ℚ
  exit : Option ℤ := none
  watch : Option Watch := none
  reapedAt : Option ℚ := none
  deriving DecidableEq

/-- Reaped, its group empty, not yet released. -/
structure Finished where
  lease : Hold
  outcome : ReleaseOutcome
  due : DueKind
  error : Option String
  exitCode : Option ℤ
  peakRssMb : Option ℤ
  logTail : String
  bare : Bool := false
  deriving DecidableEq

/-- Where a claim pass is: the names left to claim, and the lease it was just answered with. -/
inductive Duty where
  | resting
  | claiming (left : List String)
  | answered (lease : Hold) (left : List String)
  /-- No stop was seen after the answer: its child is being started. -/
  | starting (lease : Hold) (left : List String)
  deriving DecidableEq

def Duty.leases : Duty → List Hold
  | .resting | .claiming _ => []
  | .answered lease _ | .starting lease _ => [lease]

structure Runner where
  name : String
  registry : List RegistryJob
  service : Bool
  claimLimit : Option Nat
  maxChildren : Nat
  renewEveryS : ℚ
  stragglerWaitS : ℚ
  /-- The clock when the phase began. -/
  now : ℚ
  running : Dict Nat Running
  finished : List Finished
  lastReleased : Option (Finished × Bool)
  registered : Bool
  skipped : List String
  claims : Nat
  claimPasses : Nat
  nextClaimAt : Option ℚ
  duty : Duty
  deriving DecidableEq

namespace Runner

variable (runner : Runner)

/-- `_by_name`: the last entry of a name. -/
def byName (name : String) : Option RegistryJob :=
  runner.registry.reverse.find? fun job => decide (job.name = name)

/-- The names a claim pass asks for. -/
def names : List String :=
  (runner.registry.map (·.name)).filter fun name => decide (name ∉ runner.skipped)

/-- The claim pass may go on to its next name. -/
def mayClaim (stopping : Bool) : Bool :=
  decide (runner.running.length < runner.maxChildren) && !stopping &&
    runner.claimLimit.all fun limit => decide (runner.claims < limit)

/-- `_settle`. -/
def settle (pid : Nat) (run : Running) (stopAt : Option ℚ) (left : Nat) (tail : String) : Runner :=
  let watch := run.watch.getD { termAt := 0, fenceAt := 0 }
  let stopping := stopAt.any fun stopped => run.reapedAt.any fun reaped => decide (stopped ≤ reaped)
  let (outcome, due) := JobRunner.settle watch.reason run.exit stopping run.job.dbHeavy
  { runner with
    finished := runner.finished ++
      [{ lease := run.lease, outcome := outcome, due := due
         error := cause run.job watch.reason run.exit watch.peakMb left
         exitCode := run.exit, peakRssMb := watch.peakMb, logTail := tail }]
    running := runner.running.filter fun row => decide (row.1 ≠ pid) }

/-- A claimed lease no child was started for. -/
def drop (lease : Hold) (outcome : ReleaseOutcome) (due : DueKind) (error : String) : Runner :=
  { runner with
    finished := runner.finished ++
      [{ lease := lease, outcome := outcome, due := due, error := some error, exitCode := none
         peakRssMb := none, logTail := "" }] }

/-- `adopt`. -/
def adopt (job : RegistryJob) (lease : Hold) (pid : Nat) : Runner :=
  { runner with
    running := runner.running.update pid fun _ =>
      { job := job, lease := lease, started := runner.now
        renewAt := some (runner.now + runner.renewEveryS) } }

/-- The leases it is at work under. -/
def working : List Hold := runner.duty.leases ++ runner.running.map (·.2.lease)

def leases : List Hold := runner.working ++ runner.finished.map (·.lease)

end Runner

/-- `_DUE_SQL`. -/
def due (db : Database) (now : ℚ) (runner : String) (names : List String) : List String :=
  let wanted := db.rows.filter fun row =>
    decide (row.jobName ∈ names) && decide (row.runner = runner) && row.registryAt.isSome &&
      row.retiredAt.isNone && row.free now && (row.dueNow now || row.asked now) &&
      !db.runs.any fun run => run.closed.isNone &&
        (decide (run.jobName = row.jobName) ||
          (row.resource.isSome && decide (run.resource = row.resource)))
  let since (row : JobRow) : ℚ :=
    match (if row.unpaused now then row.dueAt else none), row.requestedAt with
    | some due, some requested => min due requested
    | some due, none => due
    | none, requested => requested.getD 0
  (sortedBy (fun row => toLex (since row, row.jobName)) wanted).map (·.jobName)

/-! ### The runner beside its guard, the system and the database -/

/-- A leader that was not reaped. -/
structure Process where
  startedAt : ℚ
  exited : Option ℤ
  killed : Bool
  deriving DecidableEq

/-- A SIGKILL to the group reaches it. -/
def Process.hit (process : Process) (signals : List Signal) (pid : Nat) : Process :=
  { process with killed := process.killed || decide (.kill pid ∈ signals) }

inductive Event where
  | claimed (holder : String)
  | started (pid : Nat)
  /-- A run still settling was replaced by one whose child was given its pid. -/
  | replaced (holder : String)
  | sent (signal : Signal)
  | reaped (pid : Nat)
  | released (holder : String)
  deriving DecidableEq

structure Service where
  world : World
  runner : Runner
  guard : Guard
  processes : Dict Nat Process
  /-- When the guard last passed. -/
  passedAt : ℚ
  /-- The watchdog ended the process. -/
  dead : Bool
  history : List Event
  deriving DecidableEq

namespace Service

variable (service : Service)

def stopping : Bool := service.guard.stopAt.isSome

/-- The runner may take its next step of a tick. -/
def ready : Bool := !service.dead && decide (service.runner.duty = .resting)

/-- The signals reach the processes there are. -/
def emit (signals : List Signal) : Service :=
  { service with
    processes := service.processes.map fun row => (row.1, row.2.hit signals row.1)
    history := service.history ++ signals.map .sent }

/-! #### The guard and the system -/

def pass (stopping : Bool) (samples : Dict Nat ℤ) : Option Service :=
  if service.dead then none
  else
    let (guard, signals) := service.guard.pass service.world.time stopping samples
    some (emit { service with guard := guard, passedAt := service.world.time } signals)

def trip : Option Service :=
  if service.dead then none
  else (service.guard.trip service.world.time).map fun signals =>
    emit { service with dead := true } signals

/-- A leader exits; it stays waitable. -/
def exits (pid : Nat) (code : ℤ) : Option Service :=
  (service.processes.lookup pid).bind fun process =>
    if process.exited.isNone then
      some { service with
        processes := service.processes.update pid fun _ => { process with exited := some code } }
    else none

/-! #### The process phase -/

/-- The guard forgets the child before its leader is reaped. -/
def reaped (pid : Nat) (run : Running) (code : ℤ) : Service :=
  let (guard, watch, signals) := service.guard.forget pid
  let killed := service.emit signals
  { killed with
    guard := guard
    processes := killed.processes.filter fun row => decide (row.1 ≠ pid)
    runner := { service.runner with
      running := service.runner.running.update pid fun _ =>
        { run with
          exit := some code
          watch := some watch
          reapedAt := some service.runner.now } }
    history := killed.history ++ [.reaped pid] }

def reap (pid : Nat) : Option Service :=
  if service.ready then
    (service.runner.running.lookup pid).bind fun run =>
      ((service.processes.lookup pid).bind (·.exited)).bind fun code =>
        if run.exit.isNone then some (service.reaped pid run code) else none
  else none

/-- The group is empty and its output read, or the wait for them is over. -/
def settles (run : Running) (left : Nat) (readerDone : Bool) : Bool :=
  run.exit.isSome && (decide (left = 0) && readerDone || run.reapedAt.any fun reaped =>
    decide (reaped + service.runner.stragglerWaitS ≤ service.runner.now))

def settle (pid left : Nat) (readerDone : Bool) (tail : String) : Option Service :=
  if service.ready then
    (service.runner.running.lookup pid).bind fun run =>
      if service.settles run left readerDone then
        (service.world.step (.stop run.lease)).map fun world =>
          { service with
            world := world
            runner := service.runner.settle pid run service.guard.stopAt left tail }
      else none
  else none

/-! #### The ledger phase -/

/-- The registry was registered, and what it does not name retired. -/
def register (skipped : List String) : Option Service :=
  if service.ready && service.runner.service && !service.stopping && !service.runner.registered then
    some { service with
      runner := { service.runner with registered := true, skipped := skipped } }
  else none

/-- `_release`; a reply that is not heard leaves the run to be released again. -/
def release (done : Finished) (now : ℚ) (answered : Bool) : Option Service :=
  if service.ready && decide (done ∈ service.runner.finished) then
    let error := if done.bare then none else done.error
    (service.world.step (.release done.lease now done.outcome (some done.due) error)).map
      fun world =>
        if answered then
          { service with
            world := world
            runner := { service.runner with
              finished := service.runner.finished.erase done
              lastReleased := some (done,
                (service.world.db.release now done.lease done.outcome (some done.due)
                  error).isSome) }
            history := service.history ++ [.released done.lease.holder] }
        else { service with world := world }
  else none

/-- A release was refused for its content. -/
def strip (done : Finished) : Option Service :=
  if service.ready && decide (done ∈ service.runner.finished) then
    some { service with
      runner := { service.runner with
        finished := service.runner.finished.map fun other =>
          if other = done then { done with bare := true } else other } }
  else none

/-- A renewal landed. -/
def renewed (pid : Nat) (run : Running) (fenceAt : ℚ) : Service :=
  { service with
    guard := service.guard.move pid fenceAt
    runner := { service.runner with
      running := service.runner.running.update pid fun _ =>
        { run with
          lease := { run.lease with fenceAt := fenceAt }
          renewAt := some (service.runner.now + service.runner.renewEveryS) } } }

/-- A renewal was refused. -/
def refused (pid : Nat) (run : Running) : Service :=
  let (guard, signals) := service.guard.fenceNow pid
  emit
    { service with
      guard := guard
      runner := { service.runner with
        running := service.runner.running.update pid fun _ => { run with renewAt := none } } }
    signals

def renew (pid : Nat) (sentAt : ℚ) (answered : Bool) : Option Service :=
  if service.ready then
    (service.runner.running.lookup pid).bind fun run =>
      if run.renewAt.any fun renew => decide (renew ≤ service.runner.now) then
        (service.world.step (.renew run.lease sentAt answered)).map fun world =>
          if !answered then { service with world := world }
          else if (service.world.db.renew service.world.time run.lease.jobName run.lease.holder
              run.lease.ttlS).isSome then
            renewed { service with world := world } pid run (fenceAfter sentAt run.lease.ttlS)
          else refused { service with world := world } pid run
      else none
  else none

/-! #### A claim pass -/

def due (now : ℚ) : Option Service :=
  if service.ready && !service.stopping &&
      (service.runner.registered || !service.runner.service) &&
      service.runner.nextClaimAt.all fun next => decide (next ≤ service.runner.now) then
    some { service with
      runner := { service.runner with
        duty := .claiming (JobRunner.due service.world.db now service.runner.name
          service.runner.names)
        claimPasses := service.runner.claimPasses + 1
        nextClaimAt := some (service.runner.now + claimEveryS) } }
  else none

def claim (seen : List JobRow) (now sentAt : ℚ) (holder : String) (answered : Bool) :
    Option Service :=
  match service.runner.duty with
  | .claiming (name :: left) =>
      if !service.dead && service.runner.mayClaim service.stopping then
        (service.world.step (.claim seen now sentAt name holder ttlS answered)).map fun world =>
          match service.world.db.claim now seen name holder ttlS, answered with
          | some (_, run), true =>
              { service with
                world := world
                runner := { service.runner with
                  duty := .answered
                    { jobName := name, holder := holder, ttlS := ttlS
                      fenceAt := fenceAfter sentAt ttlS, claimed := some run } left
                  claims := service.runner.claims + 1 }
                history := service.history ++ [.claimed holder] }
          | _, _ =>
              { service with
                world := world
                runner := { service.runner with duty := .claiming left } }
      else none
  | _ => none

/-- The stop is read again after the answer: a child started now would die as it starts. -/
def check : Option Service :=
  match service.runner.duty with
  | .answered lease left =>
      if service.dead then none
      else if service.stopping then
        (service.world.step (.stop lease)).map fun world =>
          { service with
            world := world
            runner := { service.runner.drop lease .interrupted .now "deploy stop; not started" with
              duty := .resting } }
      else some { service with runner := { service.runner with duty := .starting lease left } }
  | _ => none

def spawned (pid : Nat) (job : RegistryJob) (lease : Hold) (left : List String) : Service :=
  { service with
    guard := service.guard.watch pid (service.runner.now + job.timeoutS) lease.fenceAt
      (job.name ++ "#" ++ toString (lease.claimed.elim 0 (·.runId)))
    processes := service.processes.update pid fun _ =>
      { startedAt := service.world.time, exited := none, killed := false }
    runner := { service.runner.adopt job lease pid with duty := .claiming left }
    history := service.history ++
      (service.runner.running.lookup pid).toList.map (fun run => .replaced run.lease.holder) ++
        [.started pid] }

/-- `_spawn`; the system gives no pid of a leader that was not reaped. -/
def spawn (pid : Nat) : Option Service :=
  match service.runner.duty with
  | .starting lease left =>
      (service.runner.byName lease.jobName).bind fun job =>
        if !service.dead && (service.processes.lookup pid).isNone then
          some (service.spawned pid job lease left)
        else none
  | _ => none

def spawnFails (kind : String) (errno : Option Nat) : Option Service :=
  match service.runner.duty with
  | .starting lease left =>
      (service.runner.byName lease.jobName).bind fun job =>
        if service.dead then none
        else
          (service.world.step (.stop lease)).map fun world =>
            { service with
              world := world
              runner := { service.runner.drop lease .failed
                  (JobRunner.settle none none false job.dbHeavy).2 (spawnError kind errno) with
                duty := .claiming left } }
  | _ => none

def endPass : Option Service :=
  match service.runner.duty with
  | .claiming left =>
      if left.isEmpty || !service.runner.mayClaim service.stopping then
        some { service with runner := { service.runner with duty := .resting } }
      else none
  | _ => none

/-! #### Every order of them -/

inductive Action where
  /-- Time, another caller of the database, or a call of the runner that claims nothing. -/
  | other (call : World.Action)
  | pass (stopping : Bool) (samples : Dict Nat ℤ)
  | trip
  | exits (pid : Nat) (code : ℤ)
  | tick
  | tickDone
  | reap (pid : Nat)
  | settle (pid left : Nat) (readerDone : Bool) (tail : String)
  | register (skipped : List String)
  | release (done : Finished) (now : ℚ) (answered : Bool)
  | strip (done : Finished)
  | renew (pid : Nat) (sentAt : ℚ) (answered : Bool)
  | due (now : ℚ)
  | claim (seen : List JobRow) (now sentAt : ℚ) (holder : String) (answered : Bool)
  | check
  | spawn (pid : Nat)
  | spawnFails (kind : String) (errno : Option Nat)
  | endPass
  deriving DecidableEq

/-- A call that does not act for one of the runner's holders. -/
def foreign : World.Action → Bool
  | .renew hold _ _ | .stop hold | .release hold _ _ _ _ =>
      decide (hold.holder ∉ service.runner.leases.map (·.holder))
  | _ => true

def step : Action → Option Service
  | .other call =>
      if service.foreign call then
        (service.world.step call).map fun world => { service with world := world }
      else none
  | .pass stopping samples => service.pass stopping samples
  | .trip => service.trip
  | .exits pid code => service.exits pid code
  | .tick =>
      if service.ready then
        some { service with runner := { service.runner with now := service.world.time } }
      else none
  | .tickDone =>
      if service.ready then
        some { service with guard := service.guard.tickDone service.world.time }
      else none
  | .reap pid => service.reap pid
  | .settle pid left readerDone tail => service.settle pid left readerDone tail
  | .register skipped => service.register skipped
  | .release done now answered => service.release done now answered
  | .strip done => service.strip done
  | .renew pid sentAt answered => service.renew pid sentAt answered
  | .due now => service.due now
  | .claim seen now sentAt holder answered => service.claim seen now sentAt holder answered
  | .check => service.check
  | .spawn pid => service.spawn pid
  | .spawnFails kind errno => service.spawnFails kind errno
  | .endPass => service.endPass

end Service

end Sreality.Scraper.JobRunner
