import Sreality.Scraper.JobRunnerGuard

/-! The runner's children over every order of steps: what signals each is sent, how long it outlives
its timeout or a stop, and that while it may be at work its job is held for it alone. -/

set_option autoImplicit false

namespace Sreality.Scraper

open Sreality.Foundation

namespace JobRunner

open JobLease JobProcess

def Event.isStart : Event → Bool
  | .started _ => true
  | _ => false

/-- The child being started. -/
def Duty.toStart : Duty → Nat
  | .starting _ _ => 1
  | _ => 0

namespace Service

variable {timely : Prop} {lane : String → Prop} {service next : Service} {action : Action}
  {pid : Nat}

/-! ### What every run leaves -/

/-- A runner that starts beside its guard, no stop seen. -/
structure Launched (service : Service) : Prop extends Initial service where
  clock : service.runner.now ≤ service.world.time
  calm : service.guard.stopAt = none

theorem Launched.guarded (launched : service.Launched) : service.Guarded timely := by
  have initial := launched.toInitial
  refine ⟨launched.clock, initial.passed.le, fun _ _ => ?_, ?_, initial.timeouts, ?_, ?_, ?_, ?_⟩
  · rw [initial.passed]
    unfold fenceMarginS
    linarith
  · rw [launched.calm]
    exact fun _ stop => by cases stop
  · rw [initial.watches]
    exact Keyed.nil
  · rw [initial.processes]
    exact fun _ _ held => by cases held
  · rw [initial.watches]
    exact fun _ _ seen => by cases seen
  · rw [initial.history]
    exact Disciplined.nil

theorem Launched.onTime (launched : service.Launched)
    (run : Reaches Service.step OnTime service next) : next.Guarded True :=
  run.invariant (Guarded True) launched.guarded
    fun _ _ _ guarded fit taken => guarded.step (fun _ => fit) taken

theorem sound_step (sound : service.world.Sound lane) (fit : OffLanes lane service action)
    (taken : service.step action = some next) : next.world.Sound lane := by
  cases called taken with
  | quiet same => exact same ▸ sound
  | own call stepped plain _ => exact sound.step (plain lane service.world) stepped
  | other call is stepped =>
      subst is
      exact sound.step fit stepped

/-- Over every order of steps, each signal goes to a child started and not yet reaped, its group
alone, and a SIGTERM is the first it is sent: no pid is signalled again once it may be another's. -/
theorem signals_disciplined (start service : Service)
    (launched : start.Launched) (run : Reaches Service.step (fun _ _ => True) start service) :
    Disciplined service.history := by
  have guarded := run.invariant (Guarded False) launched.guarded
    fun state action _ guarded _ taken => by
      have untimed : False → OnTime state action := fun timed => timed.elim
      exact guarded.step untimed taken
  exact guarded.disciplined

/-- A child whose group was not killed: not stopped, and its timeout not past by the margin, or
sent a SIGTERM since it was started and in its grace. -/
structure InTime (service : Service) (pid : Nat) (process : Process) (run : Running)
    (watch : Watch) : Prop where
  unstopped : watch.reason = none →
    service.world.time < process.startedAt + run.job.timeoutS + fenceMarginS
  stopped : watch.reason ≠ none →
    (∃ sofar, lifeOf service.history pid = some sofar ∧ .term pid ∈ sofar) ∧
      service.world.time < process.startedAt + run.job.timeoutS + service.guard.graceS +
        2 * fenceMarginS

theorem Guarded.inTime (guarded : service.Guarded True) {process : Process}
    (held : service.processes.lookup pid = some process) (unkilled : process.killed = false) :
    ∃ run watch, service.runner.running.lookup pid = some run ∧
      service.guard.watches.lookup pid = some watch ∧ service.InTime pid process run watch := by
  obtain ⟨run, watch, running, _, seen, attended⟩ := guarded.tracked pid process held
  obtain ⟨alive, spared⟩ := attended.spared unkilled
  have soon := guarded.soon trivial alive
  refine ⟨run, watch, running, seen, fun calm => ?_, fun stopped => ?_⟩
  · have early := attended.running trivial unkilled calm
    linarith
  · obtain ⟨kill, due⟩ := Option.ne_none_iff_exists'.mp (attended.steady.timed stopped spared)
    obtain ⟨early, bound⟩ := attended.grace trivial unkilled kill due
    refine ⟨attended.termed unkilled stopped, ?_⟩
    linarith

/-- Over every order of steps on time, a child outlives its timeout by the guard's margin at most
before it is stopped, and by the grace and the margin again before its group is killed. -/
theorem children_stopped_in_time (start service : Service) (launched : start.Launched)
    (run : Reaches Service.step OnTime start service) (pid : Nat) (process : Process)
    (held : service.processes.lookup pid = some process)
    (unkilled : process.killed = false) :
    ∃ run watch, service.runner.running.lookup pid = some run ∧
      service.guard.watches.lookup pid = some watch ∧ service.InTime pid process run watch :=
  (launched.onTime run).inTime held unkilled

/-! ### After a stop -/

def starts (service : Service) : Nat := service.history.countP Event.isStart

/-- The stop was seen, and what was claimed and started by then, or is being started. -/
structure Draining (since : ℚ) (claims starts : Nat) (service : Service) : Prop where
  stop : service.guard.stopAt = some since
  claims : service.runner.claims = claims
  starts : service.starts + service.runner.duty.toStart ≤ starts

theorem starts_emit (signals : List Signal) : (service.emit signals).starts = service.starts := by
  have silent : (signals.map Event.sent).countP Event.isStart = 0 := by
    rw [List.countP_map]
    exact List.countP_eq_zero.mpr fun signal _ => Bool.false_ne_true
  exact (List.countP_append ..).trans (by rw [silent]; rfl)

theorem starts_concat (event : Event) (other : event.isStart = false)
    (history : next.history = service.history ++ [event]) : next.starts = service.starts := by
  unfold starts
  rw [history, List.countP_append, List.countP_singleton, other]
  rfl

theorem check_stopping (stopping : service.stopping = true) (taken : service.check = some next) :
    next.guard = service.guard ∧ next.runner.claims = service.runner.claims ∧
      next.history = service.history ∧ next.runner.duty = .resting := by
  obtain ⟨lease, left, busy, _⟩ := check_eq_some taken
  unfold check at taken
  rw [busy] at taken
  dsimp only at taken
  split_ifs at taken
  obtain ⟨world, _, rfl⟩ := Option.map_eq_some_iff.mp taken
  exact ⟨rfl, rfl, rfl, rfl⟩

namespace Draining

variable {since : ℚ} {claims starts : Nat} (draining : Draining since claims starts service)

include draining

theorem stopping : service.stopping = true := by
  unfold Service.stopping
  rw [draining.stop]
  rfl

theorem carry (stop : next.guard.stopAt = service.guard.stopAt)
    (same : next.runner.claims = service.runner.claims)
    (started : next.starts + next.runner.duty.toStart ≤
      service.starts + service.runner.duty.toStart) : Draining since claims starts next :=
  ⟨stop.trans draining.stop, same.trans draining.claims, started.trans draining.starts⟩

/-- A step that starts no child. -/
theorem quiet (stop : next.guard.stopAt = service.guard.stopAt)
    (same : next.runner.claims = service.runner.claims) (begun : next.starts = service.starts)
    (duty : next.runner.duty.toStart ≤ service.runner.duty.toStart) :
    Draining since claims starts next :=
  draining.carry stop same (begun ▸ Nat.add_le_add_left duty _)

theorem spawn (taken : service.spawn pid = some next) : Draining since claims starts next := by
  obtain ⟨lease, left, job, busy, _, _, _, rfl⟩ := spawn_eq_some taken
  refine draining.carry rfl rfl ?_
  have replaced : ((service.runner.running.lookup pid).toList.map
      fun run => Event.replaced run.lease.holder).countP Event.isStart = 0 := by
    rw [List.countP_map]
    exact List.countP_eq_zero.mpr fun run _ => Bool.false_ne_true
  have begun : (service.spawned pid job lease left).starts = service.starts + 1 := by
    refine (List.countP_append ..).trans ?_
    rw [List.countP_append, replaced]
    rfl
  rw [begun, busy]
  exact le_refl _

theorem step {action : Action} (taken : service.step action = some next) :
    Draining since claims starts next := by
  cases action with
  | other call =>
      obtain ⟨_, taken⟩ := Option.ite_none_right_eq_some.mp taken
      obtain ⟨world, _, rfl⟩ := Option.map_eq_some_iff.mp taken
      exact draining.quiet rfl rfl rfl (le_refl _)
  | pass stopping samples =>
      obtain ⟨_, rfl⟩ := pass_eq_some taken
      refine draining.quiet ?_ rfl (starts_emit _) (le_refl _)
      change service.guard.stopAt.or _ = service.guard.stopAt
      rw [draining.stop]
      rfl
  | trip =>
      obtain ⟨_, taken⟩ := Option.ite_none_left_eq_some.mp taken
      obtain ⟨signals, _, rfl⟩ := Option.map_eq_some_iff.mp taken
      exact draining.quiet rfl rfl (starts_emit _) (le_refl _)
  | exits pid code =>
      obtain ⟨process, _, taken⟩ := Option.bind_eq_some_iff.mp taken
      obtain ⟨_, taken⟩ := Option.ite_none_right_eq_some.mp taken
      cases taken
      exact draining.quiet rfl rfl rfl (le_refl _)
  | tick =>
      obtain ⟨_, taken⟩ := Option.ite_none_right_eq_some.mp taken
      cases taken
      exact draining.quiet rfl rfl rfl (le_refl _)
  | tickDone =>
      obtain ⟨_, taken⟩ := Option.ite_none_right_eq_some.mp taken
      cases taken
      exact draining.quiet rfl rfl rfl (le_refl _)
  | reap pid =>
      obtain ⟨run, process, code, _, _, _, rfl⟩ := reap_eq_some taken
      refine draining.quiet rfl rfl ?_ (le_refl _)
      have killed : (service.reaped pid run code).starts = (service.emit [.kill pid]).starts :=
        starts_concat (.reaped pid) rfl rfl
      exact killed.trans (starts_emit _)
  | settle pid left readerDone tail =>
      obtain ⟨run, world, _, _, _, rfl⟩ := settle_eq_some taken
      exact draining.quiet rfl rfl rfl (le_refl _)
  | register skipped =>
      obtain ⟨_, taken⟩ := Option.ite_none_right_eq_some.mp taken
      cases taken
      exact draining.quiet rfl rfl rfl (le_refl _)
  | release done now answered =>
      obtain ⟨_, taken⟩ := Option.ite_none_right_eq_some.mp taken
      obtain ⟨world, _, rfl⟩ := Option.map_eq_some_iff.mp taken
      cases answered with
      | false => exact draining.quiet rfl rfl rfl (le_refl _)
      | true => exact draining.quiet rfl rfl (starts_concat (.released _) rfl rfl) (le_refl _)
  | strip done =>
      obtain ⟨_, taken⟩ := Option.ite_none_right_eq_some.mp taken
      cases taken
      exact draining.quiet rfl rfl rfl (le_refl _)
  | renew pid sentAt answered =>
      obtain ⟨run, world, found, _, ⟨_, rfl | rfl⟩ | ⟨_, rfl⟩⟩ := renew_eq_some taken
      · exact draining.quiet rfl rfl rfl (le_refl _)
      · exact draining.quiet Guard.fenceNow_else.1 rfl (starts_emit _) (le_refl _)
      · exact draining.quiet Guard.move_else.1 rfl rfl (le_refl _)
  | due now =>
      obtain ⟨_, taken⟩ := Option.ite_none_right_eq_some.mp taken
      cases taken
      exact draining.quiet rfl rfl rfl (Nat.zero_le _)
  | claim seen now sentAt holder answered =>
      -- A claim pass asks for nothing once the stop was seen.
      obtain ⟨name, left, world, _, may, _⟩ := claim_eq_some taken
      simp [Runner.mayClaim, draining.stopping] at may
  | check =>
      obtain ⟨guard, same, history, resting⟩ := check_stopping draining.stopping taken
      refine draining.quiet (by rw [guard]) same (by unfold Service.starts; rw [history]) ?_
      rw [resting]
      exact Nat.zero_le _
  | spawn pid => exact draining.spawn taken
  | spawnFails kind errno =>
      obtain ⟨lease, left, job, world, _, _, rfl⟩ := spawnFails_eq_some taken
      exact draining.quiet rfl rfl rfl (Nat.zero_le _)
  | endPass =>
      obtain ⟨left, _, rfl⟩ := endPass_eq_some taken
      exact draining.quiet rfl rfl rfl (Nat.zero_le _)

/-- A step of a draining runner claims nothing. -/
theorem claimed_step {action : Action} (taken : service.step action = some next) :
    next.claimed = service.claimed := by
  cases claims_step taken with
  | nothing counter claimed => exact claimed
  | lease holder counter claimed =>
      have same := (draining.step taken).claims.trans draining.claims.symm
      omega

end Draining

/-- What a stop seen at a time leaves of a runner that went on from there. -/
structure Drained (stopped service : Service) (since : ℚ) : Prop where
  claimed : service.claimed = stopped.claimed
  claims : service.runner.claims = stopped.runner.claims
  starts : service.starts ≤ stopped.starts + stopped.runner.duty.toStart
  /-- A child still at work was stopped and is in its grace, or was started within the margin. -/
  children : ∀ pid process, service.processes.lookup pid = some process →
    process.killed = false → service.world.time < since + service.guard.graceS + fenceMarginS ∨
      service.world.time ≤ process.startedAt + fenceMarginS

/-- Once the guard has seen a stop nothing is claimed, at most the child being started then is
started, and over every order of steps on time no group outlives the grace by the margin. -/
theorem stop_drains (start stopped service : Service) (launched : start.Launched)
    (before : Reaches Service.step OnTime start stopped) (since : ℚ)
    (seen : stopped.guard.stopAt = some since)
    (run : Reaches Service.step OnTime stopped service) : Drained stopped service since := by
  have guarded := launched.onTime (before.trans run)
  have draining := run.invariant
    (Draining since stopped.runner.claims (stopped.starts + stopped.runner.duty.toStart))
    ⟨seen, rfl, le_refl _⟩ fun _ _ _ draining _ taken => draining.step taken
  have claimed := run.invariant (fun service => Draining since stopped.runner.claims
      (stopped.starts + stopped.runner.duty.toStart) service ∧ service.claimed = stopped.claimed)
    ⟨⟨seen, rfl, le_refl _⟩, rfl⟩ fun _ _ _ held _ taken => ⟨held.1.step taken,
      (held.1.claimed_step taken).trans held.2⟩
  refine ⟨claimed.2, draining.claims, (Nat.le_add_right _ _).trans draining.starts,
    fun pid process held unkilled => ?_⟩
  obtain ⟨_, watch, _, _, _, attended⟩ := guarded.tracked pid process held
  obtain ⟨alive, spared⟩ := attended.spared unkilled
  have soon := guarded.soon trivial alive
  by_cases calm : watch.reason = none
  · have told := attended.told unkilled calm since draining.stop
    exact .inr (by linarith)
  · obtain ⟨kill, due⟩ := Option.ne_none_iff_exists'.mp (attended.steady.timed calm spared)
    obtain ⟨early, _⟩ := attended.grace trivial unkilled kill due
    have late := (attended.due unkilled kill due).2 since draining.stop
    exact .inl (by linarith)

/-! ### While a child may be at work -/

/-- A child that may be at work. -/
def Alive (service : Service) (pid : Nat) (run : Running) : Prop :=
  service.runner.running.lookup pid = some run ∧
    ∃ process, service.processes.lookup pid = some process ∧ process.killed = false

structure Sheltered (service : Service) : Prop where
  tracked : ∀ pid process, service.processes.lookup pid = some process →
    ∃ run, service.runner.running.lookup pid = some run
  inForce : ∀ pid run, service.Alive pid run → service.world.InForce run.lease
  /-- The row names its holder and the lease has not lapsed; the run claimed with it is open. -/
  leased : ∀ pid run, service.Alive pid run →
    (∃ row, service.world.db.row run.lease.jobName = some row ∧
      row.heldBy service.world.time run.lease.holder = true) ∧
      ∀ claimed ∈ run.lease.claimed, ∃ ran, service.world.Runs run.lease ran
  /-- No one else, of any replica, is at work on the job or on its run's resource. -/
  job : ∀ pid run, service.Alive pid run → ∀ hold, service.world.InForce hold →
    hold.jobName = run.lease.jobName → hold = run.lease
  resource : ∀ pid run, service.Alive pid run → ∀ hold, service.world.InForce hold →
    ∀ first second, service.world.Runs run.lease first → service.world.Runs hold second →
      first.resource.isSome = true → first.resource = second.resource → hold = run.lease
  single : ∀ pid other run ran, service.Alive pid run → service.Alive other ran →
    run.lease.jobName = ran.lease.jobName → pid = other

theorem Guarded.inForce (guarded : service.Guarded True) (holding : service.Holding) {run : Running}
    (alive : service.Alive pid run) : service.world.InForce run.lease := by
  obtain ⟨running, process, held, unkilled⟩ := alive
  obtain ⟨same, watch, found, _, _, attended⟩ := guarded.tracked pid process held
  cases running.symm.trans found
  obtain ⟨fenced, fence⟩ := attended.fence trivial unkilled
  have soon := guarded.soon trivial (attended.spared unkilled).1
  refine ⟨holding.working _ ?_, by linarith⟩
  exact List.mem_append_right _
    (List.mem_map.mpr ⟨(pid, run), mem_of_lookup running, rfl⟩)

theorem Holding.pid_eq (holding : service.Holding) {other : Nat} {run ran : Running}
    (first : service.runner.running.lookup pid = some run)
    (second : service.runner.running.lookup other = some ran)
    (same : run.lease = ran.lease) : pid = other := by
  have distinct := holding.distinct
  unfold Runner.holders Runner.leases Runner.working at distinct
  rw [List.map_append, List.map_append] at distinct
  have rows := (List.nodup_append.mp (List.nodup_append.mp distinct).1).2.1
  rw [List.map_map] at rows
  have rowsEqual := List.inj_on_of_nodup_map rows (mem_of_lookup first) (mem_of_lookup second)
    (congrArg Hold.holder same)
  exact congrArg Prod.fst rowsEqual

/-- Over every order of steps on time, beside any number of other callers, a child that may be at
work has its lease in force: its job and its run's resource are held for it alone. -/
theorem children_sheltered (lane : String → Prop) (start service : Service)
    (launched : start.Launched) (tables : start.world.Initial lane)
    (run : Reaches Service.step
      (fun service action => OnTime service action ∧ OffLanes lane service action) start service) :
    service.Sheltered := by
  have guarded := launched.onTime (run.mono fun _ _ fit => fit.1)
  have holding := run.invariant Holding launched.toInitial.holding
    fun _ _ _ holding _ taken => holding.step taken
  have sound := run.invariant (fun service => service.world.Sound lane) tables.sound
    fun _ _ _ sound fit taken => sound_step sound fit.2 taken
  have exclusive := sound.exclusive
  have job : ∀ pid run, service.Alive pid run → ∀ hold, service.world.InForce hold →
      hold.jobName = run.lease.jobName → hold = run.lease :=
    fun pid run alive hold force =>
      exclusive.job hold run.lease force (guarded.inForce holding alive)
  refine ⟨fun pid process held => ?_, fun pid run => guarded.inForce holding,
    fun pid run alive => exclusive.leased run.lease (guarded.inForce holding alive), job, ?_, ?_⟩
  · obtain ⟨run, _, running, _⟩ := guarded.tracked pid process held
    exact ⟨run, running⟩
  · intro pid run alive hold force first second mine yours some_ same
    exact (exclusive.resource run.lease hold (guarded.inForce holding alive) force first second
      mine yours some_ same).symm
  · intro pid other run ran first second same
    have leases := job other ran second run.lease (guarded.inForce holding first) same
    exact holding.pid_eq first.1 second.1 leases

/-! ### One run -/

theorem started_launched : started.Launched where
  toInitial := started_initial
  clock := by decide +kernel
  calm := rfl

/-- The started sweep is stopped at its timeout. -/
def stopsSweep : List Action := [.other (.wait 111), .pass false [], .other (.wait 112)]

theorem signals_disciplined_at_sweep :
    ∃ final,
      replay Service.step started (startsSweep ++ stopsSweep ++ [.exits 7 0, .reap 7]) =
        some final ∧
      final.history =
        [.claimed "first", .started 7, .sent (.term 7), .sent (.kill 7), .reaped 7] ∧
      Disciplined final.history := by
  obtain ⟨final, replayed⟩ : ∃ final,
      replay Service.step started (startsSweep ++ stopsSweep ++ [.exits 7 0, .reap 7]) =
        some final :=
    Option.isSome_iff_exists.mp (by decide +kernel)
  have logged :
      (replay Service.step started (startsSweep ++ stopsSweep ++ [.exits 7 0, .reap 7])).map
        (·.history) =
      some [.claimed "first", .started 7, .sent (.term 7), .sent (.kill 7), .reaped 7] := by
    decide +kernel
  rw [replayed] at logged
  have run : Reaches Service.step (fun _ _ => True) started final :=
    reaches_of_replay replayed (allowedAll_true _ _ _)
  exact ⟨final, replayed, Option.some.inj logged,
    signals_disciplined started final started_launched run⟩

instance (service : Service) : ∀ action, Decidable (OnTime service action)
  | .other call => inferInstanceAs (Decidable
      (∀ till ∈ waits call, till ≤ service.passedAt + fenceMarginS ∨ service.dead = true))
  | .spawn _ => inferInstanceAs (Decidable (∀ lease ∈ service.runner.duty.leases,
      service.world.time ≤ lease.fenceAt))
  | .renew pid sentAt answered => inferInstanceAs (Decidable (answered = true →
      ∀ run ∈ service.runner.running.lookup pid,
        service.world.time ≤ fenceAfter sentAt run.lease.ttlS))
  | .pass _ _ | .trip | .exits _ _ | .tick | .tickDone | .reap _ | .settle _ _ _ _ | .register _
  | .release _ _ _ | .strip _ | .due _ | .claim _ _ _ _ _ | .check | .spawnFails _ _
  | .endPass => .isTrue trivial

instance (lane : String → Prop) [DecidablePred lane] (service : Service) :
    ∀ action, Decidable (OffLanes lane service action)
  | .other call => inferInstanceAs (Decidable (World.OffLanes lane service.world call))
  | .pass _ _ | .trip | .exits _ _ | .tick | .tickDone | .reap _ | .settle _ _ _ _ | .register _
  | .release _ _ _ | .strip _ | .renew _ _ _ | .due _ | .claim _ _ _ _ _ | .check | .spawn _
  | .spawnFails _ _ | .endPass => .isTrue trivial

theorem children_stopped_in_time_at_sweep :
    ∃ final process, replay Service.step started (startsSweep ++ stopsSweep) = some final ∧
      final.processes.lookup 7 = some process ∧ process.killed = false ∧
      ∃ run watch, final.runner.running.lookup 7 = some run ∧
        final.guard.watches.lookup 7 = some watch ∧ final.InTime 7 process run watch := by
  obtain ⟨final, replayed⟩ :
      ∃ final, replay Service.step started (startsSweep ++ stopsSweep) = some final :=
    Option.isSome_iff_exists.mp (by decide +kernel)
  have lives : (replay Service.step started (startsSweep ++ stopsSweep)).map
      (·.processes.lookup 7) =
        some (some { startedAt := 100, exited := none, killed := false }) := by
    decide +kernel
  rw [replayed] at lives
  have run : Reaches Service.step OnTime started final :=
    reaches_of_replay replayed (by decide +kernel)
  have held := Option.some.inj lives
  exact ⟨final, _, replayed, held, rfl,
    children_stopped_in_time started final started_launched run 7 _ held rfl⟩

/-- The guard sees a stop while the sweep is at work. -/
def seesStop : List Action := [.other (.wait 105), .pass true []]

theorem stop_drains_at_sweep :
    ∃ stopped final, replay Service.step started (startsSweep ++ seesStop) = some stopped ∧
      replay Service.step stopped [.other (.wait 112)] = some final ∧
      Drained stopped final 105 := by
  have both : ((replay Service.step started (startsSweep ++ seesStop)).bind fun stopped =>
      replay Service.step stopped [.other (.wait 112)]).isSome = true := by decide +kernel
  obtain ⟨final, replayed⟩ := Option.isSome_iff_exists.mp both
  obtain ⟨stopped, first, second⟩ := Option.bind_eq_some_iff.mp replayed
  have stop : (replay Service.step started (startsSweep ++ seesStop)).map (·.guard.stopAt) =
      some (some 105) := by
    decide +kernel
  rw [first] at stop
  have fit : ∀ stopped ∈ replay Service.step started (startsSweep ++ seesStop),
      allowedAll Service.step OnTime stopped [.other (.wait 112)] := by
    decide +kernel
  exact ⟨stopped, final, first, second,
    stop_drains started stopped final started_launched
      (reaches_of_replay first (by decide +kernel)) 105 (Option.some.inj stop)
      (reaches_of_replay second (fit stopped first))⟩

theorem children_sheltered_at_sweep :
    ∃ final, replay Service.step started startsSweep = some final ∧
      (∃ run, final.Alive 7 run) ∧ final.Sheltered := by
  obtain ⟨final, replayed⟩ : ∃ final, replay Service.step started startsSweep = some final :=
    Option.isSome_iff_exists.mp (by decide +kernel)
  have lives : (replay Service.step started startsSweep).map (·.processes.lookup 7) =
      some (some { startedAt := 100, exited := none, killed := false }) := by
    decide +kernel
  rw [replayed] at lives
  have run : Reaches Service.step (fun service action => OnTime service action ∧
      OffLanes (· = "drain") service action) started final :=
    reaches_of_replay replayed (by decide +kernel)
  have held := Option.some.inj lives
  have sheltered := children_sheltered (· = "drain") started final started_launched
    (World.emptyTables_initial _) run
  obtain ⟨child, running⟩ := sheltered.tracked 7 _ held
  exact ⟨final, replayed, ⟨child, running, _, held, rfl⟩, sheltered⟩

end Service

end JobRunner

end Sreality.Scraper
