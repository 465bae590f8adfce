import Mathlib.Tactic.Linarith
import Sreality.Scraper.JobProcessProperties
import Sreality.Scraper.JobRunnerLeases

/-! What the guard owes each of the runner's children, kept by every step: the signals it sent it so
far, and, while its passes are on time, the bounds on its fence, its timeout and its grace. -/

set_option autoImplicit false

namespace Sreality.Scraper

open Sreality.Foundation

namespace JobRunner

open JobLease JobProcess

/-! ### The signals a child was sent -/

/-- What an event makes of the signals sent since a child was started, none once it was reaped. -/
def Event.onLife (pid : Nat) (life : Option (List Signal)) : Event → Option (List Signal)
  | .started other => if other = pid then some [] else life
  | .reaped other => if other = pid then none else life
  | .sent signal => if signal.pid = pid then life.map (· ++ [signal]) else life
  | _ => life

def lifeOf (history : List Event) (pid : Nat) : Option (List Signal) :=
  history.foldl (fun life event => event.onLife pid life) none

theorem lifeOf_concat (history : List Event) (event : Event) (pid : Nat) :
    lifeOf (history ++ [event]) pid = event.onLife pid (lifeOf history pid) := by
  simp [lifeOf, List.foldl_append]

theorem lifeOf_sent (history : List Event) (signals : List Signal) (pid : Nat) :
    lifeOf (history ++ signals.map .sent) pid =
      (lifeOf history pid).map (· ++ sentTo signals pid) := by
  induction signals using List.reverseRecOn with
  | nil =>
      rw [List.map_nil, List.append_nil]
      cases lifeOf history pid with
      | none => rfl
      | some sofar => exact congrArg some (List.append_nil sofar).symm
  | append_singleton rest signal ih =>
      rw [List.map_append, ← List.append_assoc, List.map_singleton, lifeOf_concat, ih]
      rw [sentTo_append]
      cases lifeOf history pid with
      | none => by_cases own : signal.pid = pid <;> simp [Event.onLife, own]
      | some sofar => by_cases own : signal.pid = pid <;> simp [Event.onLife, sentTo, own]

theorem lifeOf_replaced (history : List Event) (holders : List String) (pid : Nat) :
    lifeOf (history ++ holders.map .replaced) pid = lifeOf history pid := by
  induction holders using List.reverseRecOn with
  | nil => rw [List.map_nil, List.append_nil]
  | append_singleton rest holder ih =>
      rw [List.map_append, ← List.append_assoc]
      exact (lifeOf_concat _ _ _).trans ih

/-- Each signal is sent to a child started and not yet reaped, and a SIGTERM as its first. -/
def Disciplined (history : List Event) : Prop :=
  ∀ earlier signal later, history = earlier ++ .sent signal :: later →
    ∃ sofar, lifeOf earlier signal.pid = some sofar ∧ (signal = .term signal.pid → sofar = [])

namespace Disciplined

variable {history : List Event}

theorem nil : Disciplined [] := by
  intro earlier signal later split
  cases earlier <;> cases split

theorem concat (disciplined : Disciplined history) {event : Event}
    (fits : ∀ signal, event = .sent signal → ∃ sofar, lifeOf history signal.pid = some sofar ∧
      (signal = .term signal.pid → sofar = [])) : Disciplined (history ++ [event]) := by
  have each : EachFits (fun earlier event => ∀ signal, event = .sent signal →
      ∃ sofar, lifeOf earlier signal.pid = some sofar ∧
        (signal = .term signal.pid → sofar = [])) history := by
    intro earlier one later split signal same
    exact disciplined earlier signal later (same ▸ split)
  exact fun earlier signal later split =>
    each.concat fits earlier _ later split signal rfl

/-- Signals sent in a row, each to a child that lives. -/
theorem sent (disciplined : Disciplined history) {signals : List Signal}
    (fits : ∀ before signal after, signals = before ++ signal :: after →
      ∃ sofar, lifeOf history signal.pid = some sofar ∧
        (signal = .term signal.pid → sofar ++ sentTo before signal.pid = [])) :
    Disciplined (history ++ signals.map .sent) := by
  induction signals using List.reverseRecOn with
  | nil => exact (List.append_nil history).symm ▸ disciplined
  | append_singleton rest signal ih =>
      rw [List.map_append, ← List.append_assoc]
      refine (ih ?_).concat ?_
      · intro before other after split
        refine fits before other (after ++ [signal]) ?_
        rw [split]
        simp
      · intro other same
        cases same
        obtain ⟨sofar, lives, first⟩ := fits rest signal [] rfl
        refine ⟨sofar ++ sentTo rest signal.pid, ?_, first⟩
        rw [lifeOf_sent, lives]
        rfl

/-- Kills, each of a child that lives. -/
theorem kills (disciplined : Disciplined history) {signals : List Signal}
    (each : ∀ signal ∈ signals, signal = .kill signal.pid ∧
      ∃ sofar, lifeOf history signal.pid = some sofar) :
    Disciplined (history ++ signals.map .sent) := by
  apply disciplined.sent
  intro before signal after split
  obtain ⟨kill, sofar, lives⟩ :=
    each signal (split ▸ List.mem_append_right _ List.mem_cons_self)
  exact ⟨sofar, lives, fun term => by cases kill.symm.trans term⟩

theorem replaced (disciplined : Disciplined history) (holders : List String) :
    Disciplined (history ++ holders.map .replaced) := by
  induction holders using List.reverseRecOn with
  | nil => exact (List.append_nil history).symm ▸ disciplined
  | append_singleton rest holder ih =>
      rw [List.map_append, ← List.append_assoc]
      exact ih.concat fun signal same => by cases same

end Disciplined

/-! ### What the guard owes each child -/

namespace Service

variable {timely : Prop} {lane : String → Prop} {service next : Service} {action : Action}
  {pid : Nat}

/-- The clock is let on to. -/
def waits : World.Action → Option ℚ
  | .wait till => some till
  | _ => none

/-- The guard's thread is never late by more than the margin, and a reply is heard before the fence
it sets. -/
def OnTime (service : Service) : Action → Prop
  | .other call =>
      ∀ till ∈ waits call, till ≤ service.passedAt + fenceMarginS ∨ service.dead = true
  | .spawn _ => ∀ lease ∈ service.runner.duty.leases, service.world.time ≤ lease.fenceAt
  | .renew pid sentAt answered => answered = true → ∀ run ∈ service.runner.running.lookup pid,
      service.world.time ≤ fenceAfter sentAt run.lease.ttlS
  | _ => True

/-- The others' lanes are no jobs of the registry. -/
def OffLanes (lane : String → Prop) (service : Service) : Action → Prop
  | .other call => World.OffLanes lane service.world call
  | _ => True

/-- A leader not yet reaped: its run, the guard's record of it, and the signals it was sent. -/
structure Attended (timely : Prop) (pid : Nat) (life : Option (List Signal)) (dead : Bool)
    (passedAt graceS : ℚ) (stopAt : Option ℚ) (process : Process) (run : Running)
    (watch : Watch) : Prop where
  steady : watch.Steady
  silent : ∃ sofar, life = some sofar ∧ (dead = false → watch.reason = none → sofar = [])
  termed : process.killed = false → watch.reason ≠ none →
    ∃ sofar, life = some sofar ∧ .term pid ∈ sofar
  killed : watch.killed = true → process.killed = true
  ended : dead = true → process.killed = true
  term : watch.termAt ≤ process.startedAt + run.job.timeoutS
  fence : timely → process.killed = false →
    passedAt ≤ watch.fenceAt ∧ watch.fenceAt ≤ run.lease.fenceAt
  running : timely → process.killed = false → watch.reason = none →
    passedAt < process.startedAt + run.job.timeoutS
  grace : timely → process.killed = false → ∀ kill ∈ watch.killAt, passedAt < kill ∧
    kill < process.startedAt + run.job.timeoutS + fenceMarginS + graceS
  due : process.killed = false → ∀ kill ∈ watch.killAt,
    kill ≤ passedAt + graceS ∧ ∀ since ∈ stopAt, kill ≤ since + graceS
  told : process.killed = false → watch.reason = none → ∀ since ∈ stopAt,
    passedAt ≤ process.startedAt

/-- The guard spared a child whose group was not killed, and the watchdog did not trip. -/
theorem Attended.spared {life : Option (List Signal)} {dead : Bool} {passedAt graceS : ℚ}
    {stopAt : Option ℚ} {process : Process} {run : Running} {watch : Watch}
    (attended : Attended timely pid life dead passedAt graceS stopAt process run watch)
    (unkilled : process.killed = false) : dead = false ∧ watch.killed = false := by
  refine ⟨?_, ?_⟩
  · by_contra ended
    rw [attended.ended (Bool.not_eq_false _ ▸ ended)] at unkilled
    cases unkilled
  · by_contra killed
    rw [attended.killed (Bool.not_eq_false _ ▸ killed)] at unkilled
    cases unkilled

def Tracked (timely : Prop) (service : Service) (pid : Nat) (process : Process) : Prop :=
  ∃ run watch, service.runner.running.lookup pid = some run ∧ run.exit = none ∧
    service.guard.watches.lookup pid = some watch ∧
      Attended timely pid (lifeOf service.history pid) service.dead service.passedAt
        service.guard.graceS service.guard.stopAt process run watch

/-- What the guard has done by now for each child, and within which bounds while it was timely. -/
structure Guarded (timely : Prop) (service : Service) : Prop where
  clock : service.runner.now ≤ service.world.time
  passed : service.passedAt ≤ service.world.time
  soon : timely → service.dead = false → service.world.time ≤ service.passedAt + fenceMarginS
  stop : ∀ since ∈ service.guard.stopAt, since ≤ service.passedAt
  timeouts : ∀ job ∈ service.runner.registry, 0 < job.timeoutS
  keyed : Keyed Prod.fst service.guard.watches
  tracked : ∀ pid process, service.processes.lookup pid = some process →
    service.Tracked timely pid process
  watched : ∀ pid watch, service.guard.watches.lookup pid = some watch →
    ∃ process, service.processes.lookup pid = some process
  disciplined : Disciplined service.history

/-! #### The calls of a step -/

/-- What a step asks of the database. -/
inductive Called (service next : Service) (action : Action) : Prop where
  | quiet (same : next.world = service.world)
  | other (call : World.Action) (is : action = .other call)
      (stepped : service.world.step call = some next.world)
  | own (call : World.Action) (stepped : service.world.step call = some next.world)
      (plain : ∀ lane world, World.OffLanes lane world call)
      (timeless : next.world.time = service.world.time)

theorem Called.ask {call : World.Action} (stepped : service.world.step call = some next.world)
    (plain : ∀ lane world, World.OffLanes lane world call)
    (timeless : ∀ till, call ≠ .wait till) : Called service next action :=
  .own call stepped plain ((World.onward stepped).time.resolve_right (timeless _))

theorem called (taken : service.step action = some next) : Called service next action := by
  cases action with
  | other call =>
      obtain ⟨_, taken⟩ := Option.ite_none_right_eq_some.mp taken
      obtain ⟨world, stepped, rfl⟩ := Option.map_eq_some_iff.mp taken
      exact .other call rfl stepped
  | pass stopping samples =>
      obtain ⟨_, taken⟩ := Option.ite_none_left_eq_some.mp taken
      cases taken
      exact .quiet rfl
  | trip =>
      obtain ⟨_, taken⟩ := Option.ite_none_left_eq_some.mp taken
      obtain ⟨signals, _, rfl⟩ := Option.map_eq_some_iff.mp taken
      exact .quiet rfl
  | exits pid code =>
      obtain ⟨process, _, taken⟩ := Option.bind_eq_some_iff.mp taken
      obtain ⟨_, taken⟩ := Option.ite_none_right_eq_some.mp taken
      cases taken
      exact .quiet rfl
  | tick =>
      obtain ⟨_, taken⟩ := Option.ite_none_right_eq_some.mp taken
      cases taken
      exact .quiet rfl
  | tickDone =>
      obtain ⟨_, taken⟩ := Option.ite_none_right_eq_some.mp taken
      cases taken
      exact .quiet rfl
  | reap pid =>
      obtain ⟨run, process, code, _, _, _, rfl⟩ := reap_eq_some taken
      exact .quiet rfl
  | settle pid left readerDone tail =>
      obtain ⟨run, world, _, _, stepped, rfl⟩ := settle_eq_some taken
      exact .ask stepped (fun _ _ => trivial) fun _ same => by cases same
  | register skipped =>
      obtain ⟨_, taken⟩ := Option.ite_none_right_eq_some.mp taken
      cases taken
      exact .quiet rfl
  | release done now answered =>
      obtain ⟨_, taken⟩ := Option.ite_none_right_eq_some.mp taken
      obtain ⟨world, stepped, rfl⟩ := Option.map_eq_some_iff.mp taken
      cases answered with
      | false => exact .ask stepped (fun _ _ => trivial) fun _ same => by cases same
      | true => exact .ask stepped (fun _ _ => trivial) fun _ same => by cases same
  | strip done =>
      obtain ⟨_, taken⟩ := Option.ite_none_right_eq_some.mp taken
      cases taken
      exact .quiet rfl
  | renew pid sentAt answered =>
      obtain ⟨run, world, _, stepped, ⟨_, rfl | rfl⟩ | ⟨_, rfl⟩⟩ := renew_eq_some taken
      · exact .ask stepped (fun _ _ => trivial) fun _ same => by cases same
      · exact .ask stepped (fun _ _ => trivial) fun _ same => by cases same
      · exact .ask stepped (fun _ _ => trivial) fun _ same => by cases same
  | due now =>
      obtain ⟨_, taken⟩ := Option.ite_none_right_eq_some.mp taken
      cases taken
      exact .quiet rfl
  | claim seen now sentAt holder answered =>
      obtain ⟨name, left, world, _, _, stepped, rfl | ⟨after, run, _, _, rfl⟩⟩ :=
        claim_eq_some taken
      · exact .ask stepped (fun _ _ => trivial) fun _ same => by cases same
      · exact .ask stepped (fun _ _ => trivial) fun _ same => by cases same
  | check =>
      obtain ⟨lease, left, _, rfl | ⟨world, stepped, rfl⟩⟩ := check_eq_some taken
      · exact .quiet rfl
      · exact .ask stepped (fun _ _ => trivial) fun _ same => by cases same
  | spawn pid =>
      obtain ⟨lease, left, job, _, _, _, _, rfl⟩ := spawn_eq_some taken
      exact .quiet rfl
  | spawnFails kind errno =>
      obtain ⟨lease, left, job, world, _, stepped, rfl⟩ := spawnFails_eq_some taken
      exact .ask stepped (fun _ _ => trivial) fun _ same => by cases same
  | endPass =>
      obtain ⟨left, _, rfl⟩ := endPass_eq_some taken
      exact .quiet rfl

theorem pass_eq_some {stopping : Bool} {samples : Dict Nat ℤ}
    (taken : service.pass stopping samples = some next) :
    service.dead = false ∧ next = emit
      { service with
        guard := (service.guard.pass service.world.time stopping samples).1
        passedAt := service.world.time }
      (service.guard.pass service.world.time stopping samples).2 := by
  obtain ⟨dead, taken⟩ := Option.ite_none_left_eq_some.mp taken
  exact ⟨Bool.not_eq_true _ ▸ dead, (Option.some.inj taken).symm⟩

theorem renew_unheard {sentAt : ℚ} (taken : service.renew pid sentAt false = some next) :
    ∃ (run : Running) (world : World),
      service.world.step (.renew run.lease sentAt false) = some world ∧
      next = { service with world := world } := by
  obtain ⟨_, taken⟩ := Option.ite_none_right_eq_some.mp taken
  obtain ⟨run, _, taken⟩ := Option.bind_eq_some_iff.mp taken
  obtain ⟨_, taken⟩ := Option.ite_none_right_eq_some.mp taken
  obtain ⟨world, stepped, rfl⟩ := Option.map_eq_some_iff.mp taken
  exact ⟨run, world, stepped, rfl⟩

/-! #### The guard's debts through every step -/

theorem lookup_emit (signals : List Signal) : (service.emit signals).processes.lookup pid =
    (service.processes.lookup pid).map fun process => process.hit signals pid :=
  Dict.lookup_map service.processes (fun pid process => process.hit signals pid) pid

theorem unkilled_of_hit {process : Process} {signals : List Signal}
    (unkilled : (process.hit signals pid).killed = false) :
    process.killed = false ∧ .kill pid ∉ signals := by
  obtain ⟨before, unsent⟩ := Bool.or_eq_false_iff.mp unkilled
  exact ⟨before, of_decide_eq_false unsent⟩

namespace Guarded

variable (guarded : service.Guarded timely)

include guarded

/-- The record of a child that was not reaped agrees with itself. -/
theorem steady : ∀ row ∈ service.guard.watches, row.2.Steady := by
  intro row listed
  have found : service.guard.watches.lookup row.1 = some row.2 := guarded.keyed.lookup.mpr listed
  obtain ⟨process, held⟩ := guarded.watched row.1 row.2 found
  obtain ⟨run, watch, _, _, same, attended⟩ := guarded.tracked row.1 process held
  cases found.symm.trans same
  exact attended.steady

/-- The stop was seen by the time of a pass. -/
theorem stop_past {stopping : Bool} {since : ℚ}
    (stop : service.guard.stopSeen service.world.time stopping = some since) :
    since ≤ service.world.time := by
  obtain seen | ⟨_, rfl⟩ := Guard.stopSeen_cases stop
  · exact (guarded.stop since seen).trans guarded.passed
  · exact le_refl _

theorem stopSeen_le (stopping : Bool) :
    (service.guard.stopSeen service.world.time stopping).getD service.world.time ≤
      service.world.time := by
  cases stop : service.guard.stopSeen service.world.time stopping with
  | none => exact le_refl _
  | some since => exact guarded.stop_past stop

theorem time (fit : timely → OnTime service action) (taken : service.step action = some next) :
    service.world.time ≤ next.world.time ∧
      (timely → service.dead = false → next.world.time ≤ service.passedAt + fenceMarginS) := by
  have unmoved : next.world.time = service.world.time → service.world.time ≤ next.world.time ∧
      (timely → service.dead = false → next.world.time ≤ service.passedAt + fenceMarginS) := by
    intro same
    rw [same]
    exact ⟨le_refl _, guarded.soon⟩
  cases called taken with
  | quiet same => exact unmoved (by rw [same])
  | own call stepped plain timeless => exact unmoved timeless
  | other call is stepped =>
      subst is
      obtain same | waits := (World.onward stepped).time
      · exact unmoved same
      · rw [waits] at stepped fit
        refine ⟨(Option.ite_none_right_eq_some.mp stepped).1, fun timed alive => ?_⟩
        exact (fit timed _ rfl).resolve_right (by rw [alive]; exact Bool.false_ne_true)

/-- A step that starts, stops and signals no child. -/
theorem carry (fit : timely → OnTime service action) (taken : service.step action = some next)
    (now : next.runner.now = service.runner.now ∨ next.runner.now = service.world.time)
    (registry : next.runner.registry = service.runner.registry)
    (watches : next.guard.watches = service.guard.watches)
    (grace : next.guard.graceS = service.guard.graceS)
    (stop : next.guard.stopAt = service.guard.stopAt)
    (processes : next.processes = service.processes) (passed : next.passedAt = service.passedAt)
    (dead : next.dead = service.dead)
    (life : ∀ pid, lifeOf next.history pid = lifeOf service.history pid)
    (disciplined : Disciplined next.history)
    (running : ∀ pid run, service.runner.running.lookup pid = some run → run.exit = none →
      next.runner.running.lookup pid = some run) : next.Guarded timely := by
  obtain ⟨onward, soon⟩ := guarded.time fit taken
  refine ⟨?_, ?_, ?_, ?_, ?_, watches ▸ guarded.keyed, ?_, ?_, disciplined⟩
  · obtain same | same := now
    · exact same ▸ guarded.clock.trans onward
    · exact same ▸ onward
  · exact passed ▸ guarded.passed.trans onward
  · rw [dead, passed]
    exact soon
  · rw [stop, passed]
    exact guarded.stop
  · exact registry ▸ guarded.timeouts
  · intro pid process held
    obtain ⟨run, watch, found, unreaped, seen, attended⟩ :=
      guarded.tracked pid process (processes ▸ held)
    refine ⟨run, watch, running pid run found unreaped, unreaped, watches ▸ seen, ?_⟩
    rw [life, dead, passed, grace, stop]
    exact attended
  · intro pid watch found
    obtain ⟨process, held⟩ := guarded.watched pid watch (watches ▸ found)
    exact ⟨process, processes ▸ held⟩

/-- A step that leaves the children and the guard. -/
theorem aside (fit : timely → OnTime service action) (taken : service.step action = some next)
    (now : next.runner.now = service.runner.now)
    (registry : next.runner.registry = service.runner.registry)
    (guard : next.guard = service.guard) (processes : next.processes = service.processes)
    (passed : next.passedAt = service.passedAt) (dead : next.dead = service.dead)
    (history : next.history = service.history)
    (running : ∀ pid run, service.runner.running.lookup pid = some run → run.exit = none →
      next.runner.running.lookup pid = some run) : next.Guarded timely :=
  guarded.carry fit taken (.inl now) registry (by rw [guard]) (by rw [guard]) (by rw [guard])
    processes passed dead (fun _ => by rw [history]) (history ▸ guarded.disciplined) running

/-- A step that is no concern of a child's. -/
theorem logged {event : Event} (fit : timely → OnTime service action)
    (taken : service.step action = some next)
    (now : next.runner.now = service.runner.now)
    (registry : next.runner.registry = service.runner.registry)
    (guard : next.guard = service.guard) (processes : next.processes = service.processes)
    (passed : next.passedAt = service.passedAt) (dead : next.dead = service.dead)
    (history : next.history = service.history ++ [event])
    (silent : ∀ pid life, event.onLife pid life = life) (unsent : ∀ signal, event ≠ .sent signal)
    (running : next.runner.running = service.runner.running) : next.Guarded timely := by
  refine guarded.carry fit taken (.inl now) registry (by rw [guard]) (by rw [guard])
    (by rw [guard]) processes passed dead (fun pid => ?_) ?_ fun pid run found _ => running ▸ found
  · rw [history, lifeOf_concat, silent]
  · rw [history]
    exact guarded.disciplined.concat fun signal same => absurd same (unsent signal)

/-! #### The steps that touch a child -/

theorem exits {code : ℤ} (taken : service.exits pid code = some next) : next.Guarded timely := by
  obtain ⟨process, held, taken⟩ := Option.bind_eq_some_iff.mp taken
  obtain ⟨_, taken⟩ := Option.ite_none_right_eq_some.mp taken
  cases taken
  have lookup : ∀ other, (service.processes.update pid fun _ =>
      ({ process with exited := some code } : Process)).lookup other =
        if other = pid then some { process with exited := some code }
        else service.processes.lookup other :=
    fun other => Dict.lookup_update _ _ _ _
  refine ⟨guarded.clock, guarded.passed, guarded.soon, guarded.stop, guarded.timeouts,
    guarded.keyed, ?_, ?_, guarded.disciplined⟩
  · intro other later found
    rw [lookup] at found
    split_ifs at found with own
    · cases found
      subst own
      obtain ⟨run, watch, running, unreaped, seen, attended⟩ := guarded.tracked other process held
      refine ⟨run, watch, running, unreaped, seen, ?_⟩
      exact
        { steady := attended.steady
          silent := attended.silent
          termed := attended.termed
          killed := attended.killed
          ended := attended.ended
          term := attended.term
          fence := attended.fence
          running := attended.running
          grace := attended.grace
          due := attended.due
          told := attended.told }
    · exact guarded.tracked other later found
  · intro other watch found
    obtain ⟨before, lives⟩ := guarded.watched other watch found
    by_cases own : other = pid
    · exact ⟨_, (lookup other).trans (if_pos own)⟩
    · exact ⟨before, (lookup other).trans ((if_neg own).trans lives)⟩

/-- The turn of a child in a pass leaves it attended. -/
theorem attended_pass {stopping : Bool} {samples : Dict Nat ℤ} (alive : service.dead = false)
    {process : Process} {run : Running} {watch : Watch}
    (attended : Attended timely pid (lifeOf service.history pid) service.dead service.passedAt
      service.guard.graceS service.guard.stopAt process run watch) {signals : List Signal}
    (sent : sentTo signals pid =
      (service.guard.turn service.world.time stopping samples pid watch).2) :
    Attended timely pid ((lifeOf service.history pid).map (· ++ sentTo signals pid))
      service.dead service.world.time service.guard.graceS
      (service.guard.stopSeen service.world.time stopping)
      (process.hit signals pid) run
      (service.guard.turn service.world.time stopping samples pid watch).1 := by
  have passed : watch.Passed (service.guard.turn service.world.time stopping samples pid watch).1
      (service.guard.turn service.world.time stopping samples pid watch).2 service.guard.graceS
      service.world.time (service.guard.stopSeen service.world.time stopping) pid :=
    Watch.pass_passed attended.steady
  rw [← sent] at passed
  obtain ⟨sofar, lives, first⟩ := attended.silent
  have unkilled : process.killed = false → watch.killed = false :=
    fun lives => (attended.spared lives).2
  refine ⟨passed.steady, ⟨sofar ++ sentTo signals pid, by rw [lives]; rfl, ?_⟩, ?_, ?_, ?_, ?_, ?_,
    ?_, ?_, ?_, ?_⟩
  · intro _ none_
    obtain ⟨before, silent, _⟩ := passed.calm none_
    rw [first alive before, silent]
    rfl
  · intro survives stopped
    obtain ⟨before, unsent⟩ := unkilled_of_hit survives
    refine ⟨sofar ++ sentTo signals pid, by rw [lives]; rfl, ?_⟩
    by_cases reason : watch.reason = none
    · have now := (passed.stopped reason stopped).resolve_left
        fun kill => unsent (kill_mem_sentTo.mp kill)
      exact List.mem_append_right _ now
    · obtain ⟨earlier, same, told⟩ := attended.termed before reason
      cases lives.symm.trans same
      exact List.mem_append_left _ told
  · intro killed
    obtain before | now := passed.kills killed
    · exact Bool.or_eq_true_iff.mpr (.inl (attended.killed before))
    · exact Bool.or_eq_true_iff.mpr (.inr (decide_eq_true (kill_mem_sentTo.mp now)))
  · intro dead
    exact absurd (alive.symm.trans dead) Bool.false_ne_true
  · exact passed.termAt ▸ attended.term
  · intro timed survives
    obtain ⟨before, unsent⟩ := unkilled_of_hit survives
    rw [passed.fenceAt]
    have early := passed.early (unkilled before) fun now => unsent (kill_mem_sentTo.mp now)
    exact ⟨early.le, (attended.fence timed before).2⟩
  · intro _ _ none_
    obtain ⟨_, _, _, early⟩ := passed.calm none_
    exact early.trans_le attended.term
  · intro timed survives kill named
    obtain ⟨before, unsent⟩ := unkilled_of_hit survives
    obtain ⟨later, either⟩ := passed.grace (unkilled before)
      (fun now => unsent (kill_mem_sentTo.mp now)) kill named
    refine ⟨later, ?_⟩
    obtain same | ⟨reason, rfl⟩ := either
    · exact (attended.grace timed before kill same).2
    · have running := attended.running timed before reason
      have soon := guarded.soon timed alive
      have past := guarded.stopSeen_le stopping
      change (service.guard.stopSeen service.world.time stopping).getD service.world.time +
        service.guard.graceS < process.startedAt + run.job.timeoutS + fenceMarginS +
          service.guard.graceS
      linarith
  · intro survives kill named
    obtain ⟨before, unsent⟩ := unkilled_of_hit survives
    obtain ⟨_, either⟩ := passed.grace (unkilled before)
      (fun now => unsent (kill_mem_sentTo.mp now)) kill named
    obtain same | ⟨_, rfl⟩ := either
    · obtain ⟨late, stopped⟩ := attended.due before kill same
      have onward := guarded.passed
      refine ⟨by linarith, fun since stop => ?_⟩
      obtain seen | ⟨_, rfl⟩ := Guard.stopSeen_cases stop
      · exact stopped since seen
      · linarith
    · refine ⟨by linarith [guarded.stopSeen_le stopping], fun since stop => ?_⟩
      rw [Option.mem_def.mp stop]
      exact le_refl _
  · intro survives none_ since stop
    obtain ⟨_, _, calm, _⟩ := passed.calm none_
    cases calm.symm.trans stop

theorem pass {stopping : Bool} {samples : Dict Nat ℤ}
    (taken : service.pass stopping samples = some next) : next.Guarded timely := by
  obtain ⟨alive, rfl⟩ := pass_eq_some taken
  have sent : ∀ pid, sentTo (service.guard.pass service.world.time stopping samples).2 pid =
      (service.guard.watches.lookup pid).elim [] fun watch =>
        (service.guard.turn service.world.time stopping samples pid watch).2 :=
    fun pid => Guard.sentTo_pass guarded.keyed guarded.steady
  have turned : ∀ pid watch, service.guard.watches.lookup pid = some watch →
      sentTo (service.guard.pass service.world.time stopping samples).2 pid =
        (service.guard.turn service.world.time stopping samples pid watch).2 := by
    intro pid watch seen
    rw [sent, seen]
    rfl
  refine ⟨guarded.clock, le_refl _, fun _ _ => ?_, fun since stop => guarded.stop_past stop,
    guarded.timeouts, Guard.keyed_pass guarded.keyed, ?_, ?_, ?_⟩
  · change service.world.time ≤ service.world.time + fenceMarginS
    unfold fenceMarginS
    linarith
  · intro pid process held
    obtain ⟨before, found, rfl⟩ := Option.map_eq_some_iff.mp ((lookup_emit _).symm.trans held)
    obtain ⟨run, watch, running, unreaped, seen, attended⟩ := guarded.tracked pid before found
    refine ⟨run, (service.guard.turn service.world.time stopping samples pid watch).1, running,
      unreaped, ?_, ?_⟩
    · exact Guard.lookup_pass.trans (congrArg _ seen)
    · change Attended timely pid (lifeOf (service.history ++ _) pid) _ _ _ _ _ _ _
      rw [lifeOf_sent]
      exact guarded.attended_pass alive attended (turned pid watch seen)
  · intro pid watch found
    obtain ⟨before, seen, rfl⟩ := Option.map_eq_some_iff.mp (Guard.lookup_pass.symm.trans found)
    obtain ⟨process, held⟩ := guarded.watched pid before seen
    exact ⟨_, (lookup_emit _).trans (congrArg _ held)⟩
  · apply guarded.disciplined.sent
    intro before signal after split
    have whole := sent signal.pid
    rw [split, sentTo_append] at whole
    cases seen : service.guard.watches.lookup signal.pid with
    | none =>
        rw [seen] at whole
        have listed : signal ∈ sentTo before signal.pid ++ sentTo (signal :: after) signal.pid :=
          List.mem_append_right _ (List.mem_filter.mpr ⟨List.mem_cons_self, decide_eq_true rfl⟩)
        rw [whole] at listed
        cases listed
    | some watch =>
        rw [seen] at whole
        obtain ⟨process, held⟩ := guarded.watched signal.pid watch seen
        obtain ⟨run, same, _, _, found, attended⟩ := guarded.tracked signal.pid process held
        cases seen.symm.trans found
        obtain ⟨sofar, lives, first⟩ := attended.silent
        refine ⟨sofar, lives, fun term => ?_⟩
        have passed : watch.Passed
            (service.guard.turn service.world.time stopping samples signal.pid watch).1
            (service.guard.turn service.world.time stopping samples signal.pid watch).2
            service.guard.graceS service.world.time
            (service.guard.stopSeen service.world.time stopping) signal.pid :=
          Watch.pass_passed attended.steady
        have own : sentTo (signal :: after) signal.pid = signal :: sentTo after signal.pid :=
          List.filter_cons_of_pos (decide_eq_true rfl)
        rw [own, term] at whole
        obtain ⟨none_, reason⟩ := passed.first _ _ whole.symm
        have unsent : sentTo before signal.pid = [] := by
          have pid : (Signal.term signal.pid).pid = signal.pid := rfl
          rw [term]
          exact none_
        rw [unsent, first alive reason]
        rfl

theorem trip (taken : service.trip = some next) : next.Guarded timely := by
  obtain ⟨dead, taken⟩ := Option.ite_none_left_eq_some.mp taken
  obtain ⟨signals, tripped, rfl⟩ := Option.map_eq_some_iff.mp taken
  obtain ⟨_, tripped⟩ := Option.ite_none_right_eq_some.mp tripped
  have all_ : ∀ pid watch, service.guard.watches.lookup pid = some watch → .kill pid ∈ signals := by
    intro pid watch seen
    rw [← Option.some.inj tripped]
    exact List.mem_map.mpr ⟨(pid, watch), mem_of_lookup seen, rfl⟩
  refine ⟨guarded.clock, guarded.passed, fun _ alive => (by cases alive), guarded.stop,
    guarded.timeouts, guarded.keyed, ?_, ?_, ?_⟩
  · intro pid process held
    obtain ⟨before, found, rfl⟩ := Option.map_eq_some_iff.mp ((lookup_emit _).symm.trans held)
    obtain ⟨run, watch, running, unreaped, seen, attended⟩ := guarded.tracked pid before found
    have killed : (before.hit signals pid).killed = true :=
      Bool.or_eq_true_iff.mpr (.inr (decide_eq_true (all_ pid watch seen)))
    have alive : (before.hit signals pid).killed ≠ false := by
      rw [killed]
      simp
    obtain ⟨sofar, lives, _⟩ := attended.silent
    refine ⟨run, watch, running, unreaped, seen, attended.steady,
      ⟨sofar ++ sentTo signals pid, ?_, fun alive => (by cases alive)⟩,
      fun unkilled => absurd unkilled alive, fun _ => killed, fun _ => killed, attended.term, fun _ unkilled => absurd unkilled alive,
      fun _ unkilled => absurd unkilled alive, fun _ unkilled => absurd unkilled alive,
      fun unkilled => absurd unkilled alive, fun unkilled => absurd unkilled alive⟩
    exact (lifeOf_sent _ _ _).trans (congrArg _ lives)
  · intro pid watch seen
    obtain ⟨process, held⟩ := guarded.watched pid watch seen
    exact ⟨_, (lookup_emit _).trans (congrArg _ held)⟩
  · apply guarded.disciplined.kills
    intro signal listed
    rw [← Option.some.inj tripped] at listed
    obtain ⟨row, watched, rfl⟩ := List.mem_map.mp listed
    obtain ⟨process, held⟩ := guarded.watched row.1 row.2 (guarded.keyed.lookup.mpr watched)
    obtain ⟨run, watch, _, _, _, attended⟩ := guarded.tracked row.1 process held
    obtain ⟨sofar, lives, _⟩ := attended.silent
    exact ⟨rfl, sofar, lives⟩

theorem settle {left : Nat} {readerDone : Bool} {tail : String}
    (fit : timely → OnTime service (.settle pid left readerDone tail))
    (taken : service.step (.settle pid left readerDone tail) = some next) :
    next.Guarded timely := by
  obtain ⟨run, world, found, reaped, _, rfl⟩ := settle_eq_some taken
  refine guarded.aside fit taken rfl rfl rfl rfl rfl rfl rfl fun other later held unreaped => ?_
  refine (Dict.lookup_filter_ne _ pid other).trans ((if_neg ?_).trans held)
  rintro rfl
  cases found.symm.trans held
  rw [unreaped] at reaped
  cases reaped

theorem reap (taken : service.reap pid = some next) : next.Guarded timely := by
  obtain ⟨run, process, code, found, held, unreaped, rfl⟩ := reap_eq_some taken
  obtain ⟨_, watch, _, _, _, attended⟩ := guarded.tracked pid process held
  obtain ⟨sofar, lives, _⟩ := attended.silent
  have unhit : ∀ other (process : Process), other ≠ pid →
      process.hit [.kill pid] other = process := by
    intro other process apart
    simp [Process.hit, apart]
  have life : ∀ other, lifeOf (service.reaped pid run code).history other =
      if other = pid then none else lifeOf service.history other := by
    intro other
    refine (lifeOf_concat (service.emit [.kill pid]).history (.reaped pid) other).trans ?_
    by_cases own : other = pid
    · simp [Event.onLife, own]
    · refine (if_neg (Ne.symm own)).trans ((lifeOf_sent _ _ _).trans ?_)
      rw [sentTo_other own (fun signal sent => by cases List.mem_singleton.mp sent; rfl),
        if_neg own]
      cases lifeOf service.history other with
      | none => rfl
      | some sent => exact congrArg some (List.append_nil sent)
  have processes : ∀ other, (service.reaped pid run code).processes.lookup other =
      if other = pid then none else service.processes.lookup other := by
    intro other
    refine (Dict.lookup_filter_ne _ pid other).trans ?_
    by_cases own : other = pid
    · rw [if_pos own, if_pos own]
    · rw [if_neg own, if_neg own, lookup_emit]
      cases service.processes.lookup other with
      | none => rfl
      | some process => exact congrArg some (unhit other process own)
  have watches : ∀ other, (service.reaped pid run code).guard.watches.lookup other =
      if other = pid then none else service.guard.watches.lookup other :=
    fun other => Dict.lookup_filter_ne _ pid other
  refine ⟨guarded.clock, guarded.passed, guarded.soon, guarded.stop, guarded.timeouts,
    guarded.keyed.filter _, ?_, ?_, ?_⟩
  · intro other later listed
    rw [processes] at listed
    split_ifs at listed with own
    obtain ⟨ran, seen, running, unended, looked, cared⟩ := guarded.tracked other later listed
    refine ⟨ran, seen, ?_, unended, ?_, ?_⟩
    · exact (Dict.lookup_update _ _ _ fun _ => _).trans ((if_neg own).trans running)
    · exact (watches other).trans ((if_neg own).trans looked)
    · rw [life, if_neg own]
      exact cared
  · intro other seen listed
    rw [watches] at listed
    split_ifs at listed with own
    obtain ⟨later, lived⟩ := guarded.watched other seen listed
    exact ⟨later, (processes other).trans ((if_neg own).trans lived)⟩
  · have killed : Disciplined (service.emit [.kill pid]).history := by
      apply guarded.disciplined.kills
      intro signal sent
      cases List.mem_singleton.mp sent
      exact ⟨rfl, sofar, lives⟩
    exact killed.concat fun signal same => by cases same

/-- A child is started, or its record changed, beside the others. -/
theorem beside (pid : Nat) (clock : next.runner.now ≤ next.world.time)
    (passed : next.passedAt = service.passedAt) (time : next.world.time = service.world.time)
    (dead : next.dead = service.dead) (stop : next.guard.stopAt = service.guard.stopAt)
    (grace : next.guard.graceS = service.guard.graceS)
    (registry : next.runner.registry = service.runner.registry)
    (keyed : Keyed Prod.fst next.guard.watches)
    (disciplined : Disciplined next.history)
    (processes : ∀ other, other ≠ pid →
      next.processes.lookup other = service.processes.lookup other)
    (watches : ∀ other, other ≠ pid →
      next.guard.watches.lookup other = service.guard.watches.lookup other)
    (running : ∀ other, other ≠ pid →
      next.runner.running.lookup other = service.runner.running.lookup other)
    (life : ∀ other, other ≠ pid → lifeOf next.history other = lifeOf service.history other)
    (tracked : ∀ process, next.processes.lookup pid = some process →
      next.Tracked timely pid process)
    (watched : ∀ watch, next.guard.watches.lookup pid = some watch →
      ∃ process, next.processes.lookup pid = some process) : next.Guarded timely := by
  refine ⟨clock, ?_, ?_, ?_, ?_, keyed, ?_, ?_, disciplined⟩
  · rw [passed, time]
    exact guarded.passed
  · rw [passed, time, dead]
    exact guarded.soon
  · rw [passed, stop]
    exact guarded.stop
  · exact registry ▸ guarded.timeouts
  · intro other process held
    by_cases own : other = pid
    · subst own
      exact tracked process held
    · obtain ⟨run, watch, found, unreaped, seen, attended⟩ :=
        guarded.tracked other process ((processes other own).symm.trans held)
      refine ⟨run, watch, (running other own).trans found, unreaped,
        (watches other own).trans seen, ?_⟩
      rw [life other own, dead, passed, grace, stop]
      exact attended
  · intro other watch seen
    by_cases own : other = pid
    · subst own
      exact watched watch seen
    · obtain ⟨process, held⟩ := guarded.watched other watch ((watches other own).symm.trans seen)
      exact ⟨process, (processes other own).trans held⟩

theorem spawn (fit : timely → OnTime service (.spawn pid)) (taken : service.spawn pid = some next) :
    next.Guarded timely := by
  obtain ⟨lease, left, job, busy, named, alive, free, rfl⟩ := spawn_eq_some taken
  have fence : timely → service.world.time ≤ lease.fenceAt := by
    intro timed
    refine fit timed lease ?_
    rw [busy]
    exact List.mem_singleton_self _
  have timeout : 0 < job.timeoutS :=
    guarded.timeouts job (List.mem_reverse.mp (List.mem_of_find?_eq_some named))
  have positive : (0 : ℚ) < job.timeoutS := by exact_mod_cast timeout
  have history : (service.spawned pid job lease left).history = service.history ++
      ((service.runner.running.lookup pid).toList.map (·.lease.holder)).map .replaced ++
        [.started pid] := by
    rw [List.map_map]
    rfl
  have life : ∀ other, lifeOf (service.spawned pid job lease left).history other =
      if other = pid then some [] else lifeOf service.history other := by
    intro other
    rw [history, lifeOf_concat, lifeOf_replaced]
    by_cases own : other = pid
    · simp [Event.onLife, own]
    · simp [Event.onLife, own, Ne.symm own]
  refine guarded.beside pid guarded.clock rfl rfl rfl rfl rfl rfl
    (Dict.keyed_update guarded.keyed pid fun _ => _) ?_ ?_ ?_ ?_ ?_ ?_ ?_
  · rw [history]
    exact (guarded.disciplined.replaced _).concat fun signal same => by cases same
  · exact fun other own => (Dict.lookup_update _ _ _ fun _ => _).trans (if_neg own)
  · exact fun other own => (Dict.lookup_update _ _ _ fun _ => _).trans (if_neg own)
  · exact fun other own => (Dict.lookup_update _ _ _ fun _ => _).trans (if_neg own)
  · exact fun other own => (life other).trans (if_neg own)
  · intro process held
    have fresh := (Dict.lookup_update _ _ _ fun _ => _).symm.trans held
    rw [if_pos rfl] at fresh
    cases fresh
    refine ⟨_, _, (Dict.lookup_update _ _ _ fun _ => _).trans (if_pos rfl), rfl,
      (Dict.lookup_update _ _ _ fun _ => _).trans (if_pos rfl), ?_⟩
    rw [life, if_pos rfl]
    exact
      { steady := ⟨fun _ => ⟨rfl, rfl⟩, fun stopped => absurd rfl stopped⟩
        silent := ⟨[], rfl, fun _ _ => rfl⟩
        termed := fun _ stopped => absurd rfl stopped
        killed := fun killed => by cases killed
        ended := fun dead => absurd (alive.symm.trans dead) Bool.false_ne_true
        term := add_le_add_left guarded.clock _
        fence := fun timed _ => ⟨guarded.passed.trans (fence timed), le_refl _⟩
        running := fun _ _ _ => guarded.passed.trans_lt (lt_add_of_pos_right _ positive)
        grace := fun _ _ _ due => (by cases due)
        due := fun _ _ due => (by cases due)
        told := fun _ _ _ _ => guarded.passed }
  · exact fun watch _ => ⟨_, (Dict.lookup_update _ _ _ fun _ => _).trans (if_pos rfl)⟩

theorem renewed {run : Running} {fenceAt : ℚ} (heard : timely → service.world.time ≤ fenceAt)
    (found : service.runner.running.lookup pid = some run) :
    (service.renewed pid run fenceAt).Guarded timely := by
  obtain ⟨stop, grace, keyed⟩ := @Guard.move_else service.guard pid fenceAt
  refine guarded.beside pid guarded.clock rfl rfl rfl stop grace rfl (keyed guarded.keyed)
    guarded.disciplined (fun _ _ => rfl)
    (fun other own => (Guard.lookup_move other).trans (if_neg own))
    (fun other own => (Dict.lookup_update _ _ _ fun _ => _).trans (if_neg own)) (fun _ _ => rfl)
    (fun process held => ?_) fun watch seen => ?_
  · obtain ⟨same, watch, running, unreaped, seen, attended⟩ := guarded.tracked pid process held
    cases found.symm.trans running
    refine ⟨_, { watch with fenceAt := fenceAt },
      (Dict.lookup_update _ _ _ fun _ => _).trans (if_pos rfl), unreaped, ?_, ?_⟩
    · refine (Guard.lookup_move pid).trans ((if_pos rfl).trans ?_)
      rw [seen]
      rfl
    · exact
        { steady := ⟨attended.steady.calm, attended.steady.timed⟩
          silent := attended.silent
          termed := attended.termed
          killed := attended.killed
          ended := attended.ended
          term := attended.term
          fence := fun timed _ => ⟨guarded.passed.trans (heard timed), le_refl _⟩
          running := attended.running
          grace := grace ▸ attended.grace
          due := grace ▸ stop ▸ attended.due
          told := stop ▸ attended.told }
  · have moved := (Guard.lookup_move pid).symm.trans seen
    rw [if_pos rfl] at moved
    obtain ⟨before, looked, _⟩ := Option.map_eq_some_iff.mp moved
    exact guarded.watched pid before looked

theorem refused {run : Running} (found : service.runner.running.lookup pid = some run) :
    (service.refused pid run).Guarded timely := by
  obtain ⟨stop, grace, keyed⟩ := @Guard.fenceNow_else service.guard pid
  have own : ∀ signal ∈ (service.guard.fenceNow pid).2, signal = .kill pid := by
    intro signal sent
    rw [Guard.fenceNow_signals] at sent
    split_ifs at sent
    · exact List.mem_singleton.mp sent
    · cases sent
  have pids : ∀ signal ∈ (service.guard.fenceNow pid).2, signal.pid = pid := by
    intro signal sent
    rw [own signal sent]
    rfl
  have history : (service.refused pid run).history =
      service.history ++ (service.guard.fenceNow pid).2.map .sent := rfl
  have processes : ∀ other, (service.refused pid run).processes.lookup other =
      (service.processes.lookup other).map fun process =>
        process.hit (service.guard.fenceNow pid).2 other :=
    fun other => lookup_emit _
  refine guarded.beside pid guarded.clock rfl rfl rfl stop grace rfl (keyed guarded.keyed) ?_ ?_
    (fun other apart => (Guard.lookup_fenceNow other).trans (if_neg apart))
    (fun other apart => (Dict.lookup_update _ _ _ fun _ => _).trans (if_neg apart)) ?_ ?_ ?_
  · rw [history]
    apply guarded.disciplined.kills
    intro signal sent
    have listed := sent
    rw [Guard.fenceNow_signals] at listed
    split_ifs at listed with unkilled
    · obtain ⟨watch, seen, _⟩ := (Option.any_eq_true _ _).mp unkilled
      obtain ⟨process, held⟩ := guarded.watched pid watch seen
      obtain ⟨_, _, _, _, _, attended⟩ := guarded.tracked pid process held
      obtain ⟨sofar, lives, _⟩ := attended.silent
      rw [own signal sent]
      exact ⟨rfl, sofar, lives⟩
    · cases listed
  · intro other apart
    rw [processes]
    have unsent : .kill other ∉ (service.guard.fenceNow pid).2 := by
      intro sent
      cases own _ sent
      exact apart rfl
    cases service.processes.lookup other with
    | none => rfl
    | some process => simp [Process.hit, unsent]
  · intro other apart
    rw [history, lifeOf_sent, sentTo_other apart pids]
    cases lifeOf service.history other with
    | none => rfl
    | some sent => exact congrArg some (List.append_nil sent)
  · intro later held
    rw [processes] at held
    obtain ⟨process, before, rfl⟩ := Option.map_eq_some_iff.mp held
    obtain ⟨same, watch, running, unreaped, seen, attended⟩ := guarded.tracked pid process before
    cases found.symm.trans running
    obtain ⟨steady, stopped⟩ := attended.steady.fenced
    have killed : (process.hit (service.guard.fenceNow pid).2 pid).killed = true := by
      apply Bool.or_eq_true_iff.mpr
      cases dying : watch.killed with
      | true => exact .inl (attended.killed dying)
      | false =>
          refine .inr (decide_eq_true ?_)
          rw [Guard.fenceNow_signals, seen, if_pos (by simp [dying])]
          exact List.mem_singleton_self _
    have alive : (process.hit (service.guard.fenceNow pid).2 pid).killed ≠ false := by
      rw [killed]
      simp
    obtain ⟨sofar, lives, _⟩ := attended.silent
    refine ⟨_, watch.fenced, (Dict.lookup_update _ _ _ fun _ => _).trans (if_pos rfl), unreaped,
      ?_, ?_⟩
    · refine (Guard.lookup_fenceNow pid).trans ((if_pos rfl).trans ?_)
      rw [seen]
      rfl
    · refine ⟨steady, ⟨sofar ++ sentTo (service.guard.fenceNow pid).2 pid, ?_,
        fun _ none_ => absurd none_ stopped⟩, fun unkilled => absurd unkilled alive,
        fun _ => killed, fun _ => killed, ?_,
        fun _ unkilled => absurd unkilled alive, fun _ unkilled => absurd unkilled alive,
        fun _ unkilled => absurd unkilled alive, fun unkilled => absurd unkilled alive,
        fun unkilled => absurd unkilled alive⟩
      · rw [history, lifeOf_sent, lives]
        rfl
      · rw [Watch.fenced_else]
        exact attended.term
  · intro watch seen
    have fenced := (Guard.lookup_fenceNow pid).symm.trans seen
    rw [if_pos rfl] at fenced
    obtain ⟨before, looked, _⟩ := Option.map_eq_some_iff.mp fenced
    obtain ⟨process, held⟩ := guarded.watched pid before looked
    exact ⟨_, (processes pid).trans (congrArg _ held)⟩

/-- A call that takes no time. -/
theorem landed {world : World} (same : world.time = service.world.time) :
    ({ service with world := world } : Service).Guarded timely :=
  ⟨guarded.clock.trans same.ge, guarded.passed.trans same.ge,
    fun timed alive => same.le.trans (guarded.soon timed alive), guarded.stop, guarded.timeouts,
    guarded.keyed, guarded.tracked, guarded.watched, guarded.disciplined⟩

theorem renew {sentAt : ℚ} {answered : Bool}
    (fit : timely → OnTime service (.renew pid sentAt answered))
    (taken : service.renew pid sentAt answered = some next) : next.Guarded timely := by
  cases answered with
  | false =>
      obtain ⟨run, world, stepped, rfl⟩ := renew_unheard taken
      exact guarded.landed ((World.onward stepped).time.resolve_right fun waits => by cases waits)
  | true =>
      obtain ⟨run, world, found, stepped, either⟩ := renew_eq_some taken
      have same : world.time = service.world.time :=
        (World.onward stepped).time.resolve_right fun waits => by cases waits
      have kept := guarded.landed same
      obtain ⟨_, rfl | rfl⟩ | ⟨_, rfl⟩ := either
      · exact kept
      · exact kept.refused found
      · exact kept.renewed (fun timed => same.le.trans (fit timed rfl run found)) found

theorem step (fit : timely → OnTime service action) (taken : service.step action = some next) :
    next.Guarded timely := by
  cases action with
  | other call =>
      obtain ⟨_, landed⟩ := Option.ite_none_right_eq_some.mp taken
      obtain ⟨world, _, rfl⟩ := Option.map_eq_some_iff.mp landed
      exact guarded.aside fit taken rfl rfl rfl rfl rfl rfl rfl fun _ _ found _ => found
  | pass stopping samples => exact guarded.pass taken
  | trip => exact guarded.trip taken
  | exits pid code => exact guarded.exits taken
  | tick =>
      obtain ⟨_, ticked⟩ := Option.ite_none_right_eq_some.mp taken
      cases ticked
      exact guarded.carry fit taken (.inr rfl) rfl rfl rfl rfl rfl rfl rfl (fun _ => rfl)
        guarded.disciplined fun _ _ found _ => found
  | tickDone =>
      obtain ⟨_, ticked⟩ := Option.ite_none_right_eq_some.mp taken
      cases ticked
      exact guarded.carry fit taken (.inl rfl) rfl rfl rfl rfl rfl rfl rfl (fun _ => rfl)
        guarded.disciplined fun _ _ found _ => found
  | reap pid => exact guarded.reap taken
  | settle pid left readerDone tail => exact guarded.settle fit taken
  | register skipped =>
      obtain ⟨_, registered⟩ := Option.ite_none_right_eq_some.mp taken
      cases registered
      exact guarded.aside fit taken rfl rfl rfl rfl rfl rfl rfl fun _ _ found _ => found
  | release done now answered =>
      obtain ⟨_, released⟩ := Option.ite_none_right_eq_some.mp taken
      obtain ⟨world, _, rfl⟩ := Option.map_eq_some_iff.mp released
      cases answered with
      | false => exact guarded.aside fit taken rfl rfl rfl rfl rfl rfl rfl fun _ _ found _ => found
      | true =>
          exact guarded.logged fit taken rfl rfl rfl rfl rfl rfl rfl (fun _ _ => rfl)
            (fun _ same => by cases same) rfl
  | strip done =>
      obtain ⟨_, stripped⟩ := Option.ite_none_right_eq_some.mp taken
      cases stripped
      exact guarded.aside fit taken rfl rfl rfl rfl rfl rfl rfl fun _ _ found _ => found
  | renew pid sentAt answered => exact guarded.renew fit taken
  | due now =>
      obtain ⟨_, claiming⟩ := Option.ite_none_right_eq_some.mp taken
      cases claiming
      exact guarded.aside fit taken rfl rfl rfl rfl rfl rfl rfl fun _ _ found _ => found
  | claim seen now sentAt holder answered =>
      obtain ⟨name, left, world, _, _, _, rfl | ⟨after, run, _, _, rfl⟩⟩ := claim_eq_some taken
      · exact guarded.aside fit taken rfl rfl rfl rfl rfl rfl rfl fun _ _ found _ => found
      · exact guarded.logged fit taken rfl rfl rfl rfl rfl rfl rfl (fun _ _ => rfl)
          (fun _ same => by cases same) rfl
  | check =>
      obtain ⟨lease, left, _, rfl | ⟨world, _, rfl⟩⟩ := check_eq_some taken
      · exact guarded.aside fit taken rfl rfl rfl rfl rfl rfl rfl fun _ _ found _ => found
      · exact guarded.aside fit taken rfl rfl rfl rfl rfl rfl rfl fun _ _ found _ => found
  | spawn pid => exact guarded.spawn fit taken
  | spawnFails kind errno =>
      obtain ⟨lease, left, job, world, _, _, rfl⟩ := spawnFails_eq_some taken
      exact guarded.aside fit taken rfl rfl rfl rfl rfl rfl rfl fun _ _ found _ => found
  | endPass =>
      obtain ⟨left, _, rfl⟩ := endPass_eq_some taken
      exact guarded.aside fit taken rfl rfl rfl rfl rfl rfl rfl fun _ _ found _ => found

end Guarded

end Service

end JobRunner

end Sreality.Scraper
