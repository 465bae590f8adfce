import Sreality.Scraper.JobRunner

/-! The leases a runner was answered with: each is being started, at work, waiting to be released or
released, and the database holds it as the runner does. -/

set_option autoImplicit false

namespace Sreality.Scraper

open Sreality.Foundation

/-! ### Calls on the world -/

namespace JobLease.World

variable {world next : World} {call : Action}

/-- The calls that move a hold out of the place it has. -/
inductive Moves (hold : Hold) : Action → Prop where
  | renew (sentAt : ℚ) (answered : Bool) : Moves hold (.renew hold sentAt answered)
  | stop : Moves hold (.stop hold)

/-- What any call leaves of the holds. -/
structure Onward (world next : World) (call : Action) : Prop where
  working : ∀ hold ∈ world.working, hold ∈ next.working ∨ Moves hold call
  stopped : ∀ hold ∈ world.stopped, hold ∈ next.stopped
  history : ∀ event ∈ world.history, event ∈ next.history
  time : next.time = world.time ∨ call = .wait next.time

theorem Onward.write {after : Database} (landed : world.write after = some next) :
    Onward world next call := by
  obtain ⟨rfl, _⟩ := write_eq_some landed
  exact ⟨fun _ held => .inl held, fun _ held => held, fun _ held => held, .inl rfl⟩

theorem Onward.same : Onward world world call :=
  ⟨fun _ held => .inl held, fun _ held => held, fun _ held => held, .inl rfl⟩

theorem Onward.grant {after : Database} (landed : world.write after = some next) (hold : Hold)
    (answered : Bool) : Onward world (next.grant hold answered) call := by
  obtain ⟨rfl, _⟩ := write_eq_some landed
  refine ⟨fun _ held => .inl ?_, fun _ held => held,
    fun _ held => List.mem_append_left _ held, .inl rfl⟩
  cases answered with
  | false => exact held
  | true => exact List.mem_append_left _ held

theorem onward (taken : world.step call = some next) : Onward world next call := by
  cases call with
  | wait till =>
      obtain ⟨_, taken⟩ := Option.ite_none_right_eq_some.mp taken
      cases taken
      exact ⟨fun _ held => .inl held, fun _ held => held, fun _ held => held, .inr rfl⟩
  | claim seen now sentAt job holder ttlS answered =>
      obtain ⟨_, taken⟩ := Option.ite_none_right_eq_some.mp taken
      cases claimed : world.db.claim now seen job holder ttlS with
      | none =>
          rw [claimed] at taken
          cases taken
          exact .same
      | some granted =>
          rw [claimed] at taken
          obtain ⟨landed, wrote, rfl⟩ := Option.map_eq_some_iff.mp taken
          exact .grant wrote _ _
  | acquire now sentAt job runner holder cadence ttlS answered =>
      obtain ⟨_, taken⟩ := Option.ite_none_right_eq_some.mp taken
      cases acquired : world.db.acquire now job runner holder cadence ttlS with
      | mk after granted =>
          rw [acquired] at taken
          cases granted with
          | false => exact .write taken
          | true =>
              obtain ⟨landed, wrote, rfl⟩ := Option.map_eq_some_iff.mp taken
              exact .grant wrote _ _
  | renew hold sentAt answered =>
      obtain ⟨_, taken⟩ := Option.ite_none_right_eq_some.mp taken
      cases renewed : world.db.renew world.time hold.jobName hold.holder hold.ttlS with
      | none =>
          rw [renewed] at taken
          cases taken
          exact .same
      | some after =>
          rw [renewed] at taken
          obtain ⟨landed, wrote, rfl⟩ := Option.map_eq_some_iff.mp taken
          cases answered with
          | false => exact .write wrote
          | true =>
              obtain ⟨rfl, _⟩ := write_eq_some wrote
              refine ⟨fun other held => ?_, fun _ held => held, fun _ held => held, .inl rfl⟩
              by_cases same : other = hold
              · exact .inr (same ▸ .renew sentAt true)
              · exact .inl (List.mem_map.mpr ⟨other, held, if_neg same⟩)
  | fence hold =>
      obtain ⟨_, taken⟩ := Option.ite_none_right_eq_some.mp taken
      cases taken
      exact ⟨fun _ held => .inl held, fun _ held => held, fun _ held => held, .inl rfl⟩
  | commit hold =>
      obtain ⟨_, taken⟩ := Option.ite_none_right_eq_some.mp taken
      cases taken
      exact ⟨fun _ held => .inl held, fun _ held => held,
        fun _ held => List.mem_append_left _ held, .inl rfl⟩
  | rollback hold =>
      obtain ⟨_, taken⟩ := Option.ite_none_right_eq_some.mp taken
      cases taken
      exact ⟨fun _ held => .inl held, fun _ held => held, fun _ held => held, .inl rfl⟩
  | stop hold =>
      obtain ⟨_, taken⟩ := Option.ite_none_right_eq_some.mp taken
      cases taken
      refine ⟨fun other held => ?_, fun _ held => List.mem_append_left _ held, fun _ held => held,
        .inl rfl⟩
      by_cases same : other = hold
      · exact .inr (same ▸ .stop)
      · exact .inl ((List.mem_erase_of_ne same).mpr held)
  | release hold now outcome due error =>
      obtain ⟨_, taken⟩ := Option.ite_none_right_eq_some.mp taken
      cases released : world.db.release now hold outcome due error with
      | none =>
          rw [released] at taken
          cases taken
          exact .same
      | some after =>
          rw [released] at taken
          exact .write taken
  | register now runner entry =>
      exact .write (Option.ite_none_right_eq_some.mp taken).2
  | retire now runner names =>
      exact .write (Option.ite_none_right_eq_some.mp taken).2
  | request now runner job by_ args =>
      exact .write (Option.ite_none_right_eq_some.mp taken).2
  | pause now job till =>
      exact .write (Option.ite_none_right_eq_some.mp taken).2
  | reapLost now runner names onHour =>
      exact .write (Option.ite_none_right_eq_some.mp taken).2
  | pruneRuns now days =>
      exact .write (Option.ite_none_right_eq_some.mp taken).2

theorem step_stop {hold : Hold} (taken : world.step (.stop hold) = some next) :
    next = { world with
      working := world.working.erase hold, stopped := world.stopped ++ [hold] } := by
  obtain ⟨_, taken⟩ := Option.ite_none_right_eq_some.mp taken
  exact (Option.some.inj taken).symm

/-- A renewal that lands and is heard moves the hold's fence, any other leaves the holds. -/
theorem step_renew {hold : Hold} {sentAt : ℚ} {answered : Bool}
    (taken : world.step (.renew hold sentAt answered) = some next) :
    next.working = if answered = true ∧
        (world.db.renew world.time hold.jobName hold.holder hold.ttlS).isSome = true then
      world.working.map fun other =>
        if other = hold then { hold with fenceAt := fenceAfter sentAt hold.ttlS } else other
    else world.working := by
  obtain ⟨_, taken⟩ := Option.ite_none_right_eq_some.mp taken
  cases renewed : world.db.renew world.time hold.jobName hold.holder hold.ttlS with
  | none =>
      rw [renewed] at taken
      cases taken
      simp
  | some after =>
      rw [renewed] at taken
      obtain ⟨landed, wrote, rfl⟩ := Option.map_eq_some_iff.mp taken
      obtain ⟨rfl, _⟩ := write_eq_some wrote
      cases answered <;> rfl

/-- A claim that is granted is by a holder no one was granted a lease to. -/
theorem step_claim {seen : List JobRow} {now sentAt ttlS : ℚ} {job holder : String}
    {answered : Bool} {after : Database} {run : ClaimedRun}
    (taken : world.step (.claim seen now sentAt job holder ttlS answered) = some next)
    (granted : world.db.claim now seen job holder ttlS = some (after, run)) :
    (∀ name, .granted name holder ∉ world.history) ∧ .granted job holder ∈ next.history ∧
      next.working = if answered then
        world.working ++ [{ jobName := job, holder := holder, ttlS := ttlS
                            fenceAt := fenceAfter sentAt ttlS, claimed := some run }]
      else world.working := by
  obtain ⟨⟨_, _, unused⟩, taken⟩ := Option.ite_none_right_eq_some.mp taken
  rw [granted] at taken
  obtain ⟨landed, wrote, rfl⟩ := Option.map_eq_some_iff.mp taken
  obtain ⟨rfl, _⟩ := write_eq_some wrote
  refine ⟨fun name listed => ?_, List.mem_append_right _ (List.mem_singleton_self _), rfl⟩
  have fresh := List.all_eq_true.mp (Bool.and_eq_true_iff.mp unused).2 _ listed
  exact of_decide_eq_true fresh rfl

end JobLease.World

/-! ### What became of each lease -/

namespace JobRunner

open JobLease JobProcess

/-- The holder a claim was answered with. -/
def Event.claimedBy : Event → Option String
  | .claimed holder => some holder
  | _ => none

/-- The holder the runner is rid of. -/
def Event.doneBy : Event → Option String
  | .released holder => some holder
  | .replaced holder => some holder
  | _ => none

def Runner.holders (runner : Runner) : List String := runner.leases.map (·.holder)

namespace Runner

variable (runner : Runner) (pid : Nat) (run : Running) (stopAt : Option ℚ) (left : Nat)
  (tail : String)

theorem working_settle : (runner.settle pid run stopAt left tail).working =
    runner.duty.leases ++
      (runner.running.filter fun row => decide (row.1 ≠ pid)).map (·.2.lease) := rfl

theorem finished_settle : (runner.settle pid run stopAt left tail).finished.map (·.lease) =
    runner.finished.map (·.lease) ++ [run.lease] := by
  unfold settle
  rw [List.map_append]
  rfl

end Runner

namespace Service

variable {service next : Service}

def claimed (service : Service) : List String := service.history.filterMap Event.claimedBy

def done (service : Service) : List String := service.history.filterMap Event.doneBy

structure Holding (service : Service) : Prop where
  working : ∀ lease ∈ service.runner.working, lease ∈ service.world.working
  finished : ∀ done ∈ service.runner.finished, done.lease ∈ service.world.stopped
  known : ∀ holder ∈ service.claimed, ∃ job, .granted job holder ∈ service.world.history
  once : service.claimed.Nodup
  conserved : service.claimed.Perm (service.runner.holders ++ service.done)
  keyed : Keyed Prod.fst service.runner.running

namespace Holding

theorem distinct (holding : service.Holding) : service.runner.holders.Nodup :=
  (List.nodup_append.mp (holding.conserved.nodup_iff.mp holding.once)).1

/-- Two leases of one holder are the same. -/
theorem eq (holding : service.Holding) {one two : Hold} (first : one ∈ service.runner.leases)
    (second : two ∈ service.runner.leases) (same : one.holder = two.holder) : one = two :=
  List.inj_on_of_nodup_map holding.distinct first second same

/-- A step that moves no lease of the runner. -/
theorem carry (holding : service.Holding)
    (working : next.runner.working = service.runner.working)
    (finished : next.runner.finished.map (·.lease) = service.runner.finished.map (·.lease))
    (keyed : Keyed Prod.fst next.runner.running) (claimed : next.claimed = service.claimed)
    (done : next.done = service.done)
    (stands : ∀ lease ∈ service.runner.working, lease ∈ service.world.working →
      lease ∈ next.world.working)
    (stopped : ∀ lease ∈ service.world.stopped, lease ∈ next.world.stopped)
    (history : ∀ event ∈ service.world.history, event ∈ next.world.history) : next.Holding := by
  have holders : next.runner.holders = service.runner.holders := by
    unfold Runner.holders Runner.leases
    rw [working, finished]
  refine ⟨?_, ?_, ?_, claimed ▸ holding.once, ?_, keyed⟩
  · intro lease held
    have before : lease ∈ service.runner.working := working ▸ held
    exact stands lease before (holding.working lease before)
  · intro ended held
    have listed : ended.lease ∈ service.runner.finished.map (·.lease) :=
      finished ▸ List.mem_map_of_mem held
    obtain ⟨before, among, same⟩ := List.mem_map.mp listed
    exact stopped _ (same ▸ holding.finished before among)
  · intro holder listed
    obtain ⟨job, granted⟩ := holding.known holder (claimed ▸ listed)
    exact ⟨job, history _ granted⟩
  · rw [claimed, done, holders]
    exact holding.conserved

/-- A step that leaves the database and the leases. -/
theorem same (holding : service.Holding) (world : next.world = service.world)
    (working : next.runner.working = service.runner.working)
    (finished : next.runner.finished.map (·.lease) = service.runner.finished.map (·.lease))
    (keyed : Keyed Prod.fst next.runner.running) (claimed : next.claimed = service.claimed)
    (done : next.done = service.done) : next.Holding :=
  holding.carry working finished keyed claimed done (fun _ _ held => world ▸ held)
    (fun _ held => world ▸ held) (fun _ held => world ▸ held)

/-- The work under a lease has stopped. -/
theorem finish (holding : service.Holding) {lease : Hold}
    (working : service.runner.working.Perm (lease :: next.runner.working))
    (finished : next.runner.finished.map (·.lease) =
      service.runner.finished.map (·.lease) ++ [lease])
    (keyed : Keyed Prod.fst next.runner.running) (claimed : next.claimed = service.claimed)
    (done : next.done = service.done)
    (stopped : service.world.step (.stop lease) = some next.world) : next.Holding := by
  have world := World.step_stop stopped
  have leases : service.runner.leases.Perm next.runner.leases := by
    unfold Runner.leases
    rw [finished, ← List.append_assoc]
    refine (working.append_right _).trans ?_
    exact (List.perm_append_singleton _ _).symm
  have distinct : (lease :: next.runner.working).Nodup := by
    have nodup := List.Nodup.of_map _ holding.distinct
    exact (working.nodup_iff).mp (List.nodup_append.mp nodup).1
  refine ⟨?_, ?_, ?_, claimed ▸ holding.once, ?_, keyed⟩
  · intro other held
    rw [world]
    have apart : other ≠ lease := fun same => (List.nodup_cons.mp distinct).1 (same ▸ held)
    have before := holding.working other (working.mem_iff.mpr (List.mem_cons_of_mem _ held))
    exact (List.mem_erase_of_ne apart).mpr before
  · intro ended held
    rw [world]
    have listed : ended.lease ∈ service.runner.finished.map (·.lease) ++ [lease] :=
      finished ▸ List.mem_map_of_mem held
    obtain early | last := List.mem_append.mp listed
    · obtain ⟨before, among, same⟩ := List.mem_map.mp early
      exact List.mem_append_left _ (same ▸ holding.finished before among)
    · exact List.mem_append_right _ last
  · intro holder listed
    obtain ⟨job, granted⟩ := holding.known holder (claimed ▸ listed)
    exact ⟨job, by rw [world]; exact granted⟩
  · rw [claimed, done]
    exact holding.conserved.trans ((leases.map _).append_right _)

end Holding

/-! ### What each step does -/

theorem reap_eq_some {pid : Nat} (taken : service.reap pid = some next) :
    ∃ run process code, service.runner.running.lookup pid = some run ∧
      service.processes.lookup pid = some process ∧ run.exit = none ∧
        next = service.reaped pid run code := by
  obtain ⟨_, taken⟩ := Option.ite_none_right_eq_some.mp taken
  obtain ⟨run, found, taken⟩ := Option.bind_eq_some_iff.mp taken
  obtain ⟨code, exited, taken⟩ := Option.bind_eq_some_iff.mp taken
  obtain ⟨process, held, _⟩ := Option.bind_eq_some_iff.mp exited
  obtain ⟨unreaped, taken⟩ := Option.ite_none_right_eq_some.mp taken
  exact ⟨run, process, code, found, held, Option.isNone_iff_eq_none.mp unreaped,
    (Option.some.inj taken).symm⟩

theorem settle_eq_some {pid left : Nat} {readerDone : Bool} {tail : String}
    (taken : service.settle pid left readerDone tail = some next) :
    ∃ run world, service.runner.running.lookup pid = some run ∧ run.exit.isSome = true ∧
      service.world.step (.stop run.lease) = some world ∧
        next = { service with
          world := world
          runner := service.runner.settle pid run service.guard.stopAt left tail } := by
  obtain ⟨_, taken⟩ := Option.ite_none_right_eq_some.mp taken
  obtain ⟨run, found, taken⟩ := Option.bind_eq_some_iff.mp taken
  obtain ⟨settles, taken⟩ := Option.ite_none_right_eq_some.mp taken
  obtain ⟨world, stopped, rfl⟩ := Option.map_eq_some_iff.mp taken
  exact ⟨run, world, found, (Bool.and_eq_true_iff.mp settles).1, stopped, rfl⟩

theorem renew_eq_some {pid : Nat} {sentAt : ℚ} {answered : Bool}
    (taken : service.renew pid sentAt answered = some next) :
    ∃ run world, service.runner.running.lookup pid = some run ∧
      service.world.step (.renew run.lease sentAt answered) = some world ∧
        ((world.working = service.world.working ∧
            (next = { service with world := world } ∨
              next = refused { service with world := world } pid run)) ∨
          (world.working = service.world.working.map fun other =>
              if other = run.lease then
                { run.lease with fenceAt := fenceAfter sentAt run.lease.ttlS } else other) ∧
            next = renewed { service with world := world } pid run
              (fenceAfter sentAt run.lease.ttlS)) := by
  obtain ⟨_, taken⟩ := Option.ite_none_right_eq_some.mp taken
  obtain ⟨run, found, taken⟩ := Option.bind_eq_some_iff.mp taken
  obtain ⟨_, taken⟩ := Option.ite_none_right_eq_some.mp taken
  obtain ⟨world, stepped, rfl⟩ := Option.map_eq_some_iff.mp taken
  have working := World.step_renew stepped
  refine ⟨run, world, found, stepped, ?_⟩
  cases answered with
  | false => exact .inl ⟨working.trans (if_neg (by simp)), .inl rfl⟩
  | true =>
      cases landed : (service.world.db.renew service.world.time run.lease.jobName run.lease.holder
          run.lease.ttlS).isSome with
      | false =>
          rw [landed] at working
          exact .inl ⟨working.trans (if_neg (by simp)), .inr rfl⟩
      | true =>
          rw [landed] at working
          exact .inr ⟨working.trans (if_pos ⟨rfl, rfl⟩), rfl⟩

/-- A claim is answered with a lease, or its name is done with. -/
theorem claim_eq_some {seen : List JobRow} {now sentAt : ℚ} {holder : String} {answered : Bool}
    (taken : service.claim seen now sentAt holder answered = some next) :
    ∃ name left world, service.runner.duty = .claiming (name :: left) ∧
      service.runner.mayClaim service.stopping = true ∧
      service.world.step (.claim seen now sentAt name holder ttlS answered) = some world ∧
        (next = { service with
            world := world, runner := { service.runner with duty := .claiming left } } ∨
          ∃ after run, answered = true ∧
            service.world.db.claim now seen name holder ttlS = some (after, run) ∧
              next = { service with
                world := world
                runner := { service.runner with
                  duty := .answered
                    { jobName := name, holder := holder, ttlS := ttlS
                      fenceAt := fenceAfter sentAt ttlS, claimed := some run } left
                  claims := service.runner.claims + 1 }
                history := service.history ++ [.claimed holder] }) := by
  unfold claim at taken
  cases busy : service.runner.duty with
  | claiming names =>
      cases names with
      | nil =>
          rw [busy] at taken
          cases taken
      | cons name left =>
          rw [busy] at taken
          obtain ⟨free, taken⟩ := Option.ite_none_right_eq_some.mp taken
          obtain ⟨world, stepped, rfl⟩ := Option.map_eq_some_iff.mp taken
          refine ⟨name, left, world, rfl, (Bool.and_eq_true_iff.mp free).2, stepped, ?_⟩
          cases granted : service.world.db.claim now seen name holder ttlS with
          | none => exact .inl rfl
          | some result =>
              obtain ⟨after, run⟩ := result
              cases answered with
              | false => exact .inl rfl
              | true => exact .inr ⟨after, run, rfl, rfl, rfl⟩
  | resting =>
      rw [busy] at taken
      cases taken
  | answered lease left =>
      rw [busy] at taken
      cases taken
  | starting lease left =>
      rw [busy] at taken
      cases taken

theorem check_eq_some (taken : service.check = some next) :
    ∃ lease left, service.runner.duty = .answered lease left ∧
      (next = { service with runner := { service.runner with duty := .starting lease left } } ∨
        ∃ world, service.world.step (.stop lease) = some world ∧
          next = { service with
            world := world
            runner := { service.runner.drop lease .interrupted .now "deploy stop; not started" with
              duty := .resting } }) := by
  unfold check at taken
  cases busy : service.runner.duty with
  | answered lease left =>
      rw [busy] at taken
      refine ⟨lease, left, rfl, ?_⟩
      dsimp only at taken
      split_ifs at taken with _ stopping
      · obtain ⟨world, stopped, rfl⟩ := Option.map_eq_some_iff.mp taken
        exact .inr ⟨world, stopped, rfl⟩
      · exact .inl (Option.some.inj taken).symm
  | resting =>
      rw [busy] at taken
      cases taken
  | claiming left =>
      rw [busy] at taken
      cases taken
  | starting lease left =>
      rw [busy] at taken
      cases taken

theorem spawn_eq_some {pid : Nat} (taken : service.spawn pid = some next) :
    ∃ lease left job, service.runner.duty = .starting lease left ∧
      service.runner.byName lease.jobName = some job ∧ service.dead = false ∧
        service.processes.lookup pid = none ∧ next = service.spawned pid job lease left := by
  unfold spawn at taken
  cases busy : service.runner.duty with
  | starting lease left =>
      rw [busy] at taken
      obtain ⟨job, named, taken⟩ := Option.bind_eq_some_iff.mp taken
      obtain ⟨free, taken⟩ := Option.ite_none_right_eq_some.mp taken
      simp only [Bool.and_eq_true, Bool.not_eq_true', Option.isNone_iff_eq_none] at free
      exact ⟨lease, left, job, rfl, named, free.1, free.2, (Option.some.inj taken).symm⟩
  | resting =>
      rw [busy] at taken
      cases taken
  | claiming left =>
      rw [busy] at taken
      cases taken
  | answered lease left =>
      rw [busy] at taken
      cases taken

theorem spawnFails_eq_some {kind : String} {errno : Option Nat}
    (taken : service.spawnFails kind errno = some next) :
    ∃ lease left, ∃ job : RegistryJob, ∃ world, service.runner.duty = .starting lease left ∧
      service.world.step (.stop lease) = some world ∧
        next = { service with
          world := world
          runner := { service.runner.drop lease .failed
              (JobRunner.settle none none false job.dbHeavy).2 (spawnError kind errno) with
            duty := .claiming left } } := by
  unfold spawnFails at taken
  cases busy : service.runner.duty with
  | starting lease left =>
      rw [busy] at taken
      obtain ⟨job, named, taken⟩ := Option.bind_eq_some_iff.mp taken
      dsimp only at taken
      split_ifs at taken
      obtain ⟨world, stopped, rfl⟩ := Option.map_eq_some_iff.mp taken
      exact ⟨lease, left, job, world, rfl, stopped, rfl⟩
  | resting =>
      rw [busy] at taken
      cases taken
  | claiming left =>
      rw [busy] at taken
      cases taken
  | answered lease left =>
      rw [busy] at taken
      cases taken

theorem endPass_eq_some (taken : service.endPass = some next) :
    ∃ left, service.runner.duty = .claiming left ∧
      next = { service with runner := { service.runner with duty := .resting } } := by
  unfold endPass at taken
  cases busy : service.runner.duty with
  | claiming left =>
      rw [busy] at taken
      exact ⟨left, rfl, (Option.some.inj (Option.ite_none_right_eq_some.mp taken).2).symm⟩
  | resting =>
      rw [busy] at taken
      cases taken
  | answered lease left =>
      rw [busy] at taken
      cases taken
  | starting lease left =>
      rw [busy] at taken
      cases taken

/-! ### The leases through every step -/

@[simp] theorem claimed_emit (signals : List Signal) :
    (service.emit signals).claimed = service.claimed := by
  have silent : (signals.map Event.sent).filterMap Event.claimedBy = [] := by
    induction signals with
    | nil => rfl
    | cons signal rest ih => exact ih
  unfold claimed emit
  rw [List.filterMap_append, silent, List.append_nil]

@[simp] theorem done_emit (signals : List Signal) : (service.emit signals).done = service.done := by
  have silent : (signals.map Event.sent).filterMap Event.doneBy = [] := by
    induction signals with
    | nil => rfl
    | cons signal rest ih => exact ih
  unfold done emit
  rw [List.filterMap_append, silent, List.append_nil]

theorem claimed_concat {event : Event} (history : next.history = service.history ++ [event]) :
    next.claimed = service.claimed ++ event.claimedBy.toList := by
  unfold claimed
  rw [history, List.filterMap_append]
  cases event <;> rfl

theorem done_concat {event : Event} (history : next.history = service.history ++ [event]) :
    next.done = service.done ++ event.doneBy.toList := by
  unfold done
  rw [history, List.filterMap_append]
  cases event <;> rfl

/-- A run put in the place of one under the same lease. -/
theorem map_lease_update {running : Dict Nat Running} (keyed : Keyed Prod.fst running) {pid : Nat}
    {run later : Running} (found : running.lookup pid = some run)
    (same : later.lease = run.lease) :
    (running.update pid fun _ => later).map (·.2.lease) = running.map (·.2.lease) := by
  obtain ⟨before, after, split, updated, _⟩ := Dict.exists_split keyed found
  rw [updated, split]
  simp [same]

namespace Holding

variable (holding : service.Holding)

include holding

theorem emit (signals : List Signal) : (service.emit signals).Holding :=
  holding.same rfl rfl rfl holding.keyed (claimed_emit signals) (done_emit signals)

theorem reap {pid : Nat} (taken : service.reap pid = some next) : next.Holding := by
  obtain ⟨run, process, code, found, _, _, rfl⟩ := reap_eq_some taken
  have history : (service.reaped pid run code).history =
      (service.emit [.kill pid]).history ++ [.reaped pid] := rfl
  refine holding.same rfl ?_ rfl ?_ ?_ ?_
  · exact congrArg (service.runner.duty.leases ++ ·) (map_lease_update holding.keyed found rfl)
  · exact Dict.keyed_update holding.keyed pid fun _ => _
  · exact (claimed_concat history).trans ((List.append_nil _).trans (claimed_emit _))
  · exact (done_concat history).trans ((List.append_nil _).trans (done_emit _))

theorem settle {pid left : Nat} {readerDone : Bool} {tail : String}
    (taken : service.settle pid left readerDone tail = some next) : next.Holding := by
  obtain ⟨run, world, found, _, stopped, rfl⟩ := settle_eq_some taken
  obtain ⟨before, after, split, _, rest⟩ := Dict.exists_split holding.keyed found
  refine holding.finish ?_ (Runner.finished_settle _ _ _ _ _ _) (holding.keyed.filter _) rfl rfl
    stopped
  rw [Runner.working_settle, rest, Runner.working, split, List.map_append, List.map_append,
    List.map_cons, ← List.append_assoc, ← List.append_assoc]
  exact List.perm_middle

theorem strip {done : Finished} (taken : service.strip done = some next) : next.Holding := by
  obtain ⟨_, taken⟩ := Option.ite_none_right_eq_some.mp taken
  cases taken
  refine holding.same rfl rfl ?_ holding.keyed rfl rfl
  rw [List.map_map]
  apply List.map_congr_left
  intro other _
  simp only [Function.comp_apply]
  split_ifs with same
  · rw [same]
  · rfl

/-- A call that moves none of the runner's holds. -/
theorem call {world : World} {call : World.Action} (stepped : service.world.step call = some world)
    (foreign : ∀ lease ∈ service.runner.working, ¬ World.Moves lease call) :
    ({ service with world := world } : Service).Holding := by
  have onward := World.onward stepped
  refine holding.carry rfl rfl holding.keyed rfl rfl (fun lease mine held => ?_) onward.stopped
    onward.history
  exact (onward.working lease held).resolve_right (foreign lease mine)

/-- A release is heard. -/
theorem rid {done : Finished} (working : next.runner.working = service.runner.working)
    (finished : service.runner.finished.Perm (done :: next.runner.finished))
    (keyed : Keyed Prod.fst next.runner.running)
    (history : next.history = service.history ++ [.released done.lease.holder])
    (world : next.world = service.world) : next.Holding := by
  have claimed : next.claimed = service.claimed :=
    (claimed_concat history).trans (List.append_nil _)
  refine ⟨?_, ?_, ?_, claimed ▸ holding.once, ?_, keyed⟩
  · rw [working, world]
    exact holding.working
  · intro other held
    rw [world]
    exact holding.finished other (finished.mem_iff.mpr (List.mem_cons_of_mem _ held))
  · rw [claimed, world]
    exact holding.known
  · rw [claimed, done_concat history]
    apply List.perm_iff_count.mpr
    intro holder
    have counted := List.perm_iff_count.mp (finished.map fun done => done.lease.holder) holder
    have before := List.perm_iff_count.mp holding.conserved holder
    simp only [Runner.holders, Runner.leases, List.map_append, List.map_map, List.count_append,
      List.map_cons, List.count_cons, Function.comp_def, Event.doneBy, working,
      Option.toList_some, List.count_nil] at counted before ⊢
    omega

theorem release {done : Finished} {now : ℚ} {answered : Bool}
    (taken : service.release done now answered = some next) : next.Holding := by
  obtain ⟨ready, taken⟩ := Option.ite_none_right_eq_some.mp taken
  have listed : done ∈ service.runner.finished := of_decide_eq_true (Bool.and_eq_true_iff.mp ready).2
  obtain ⟨world, stepped, rfl⟩ := Option.map_eq_some_iff.mp taken
  have carried := holding.call stepped fun lease _ moved => by cases moved
  cases answered with
  | false => exact carried
  | true =>
      exact carried.rid rfl (List.perm_cons_erase listed) carried.keyed rfl rfl

/-- A lease's fence is moved where the database's is. -/
theorem swap (lease later : Hold) (rest : List Hold)
    (before : service.runner.working.Perm (lease :: rest))
    (after : next.runner.working.Perm (later :: rest)) (holder : later.holder = lease.holder)
    (finished : next.runner.finished = service.runner.finished)
    (keyed : Keyed Prod.fst next.runner.running) (claimed : next.claimed = service.claimed)
    (done : next.done = service.done)
    (working : next.world.working = service.world.working.map fun other =>
      if other = lease then later else other)
    (stopped : ∀ lease ∈ service.world.stopped, lease ∈ next.world.stopped)
    (history : ∀ event ∈ service.world.history, event ∈ next.world.history) : next.Holding := by
  have distinct : (lease :: rest).Nodup := by
    have nodup := List.Nodup.of_map _ holding.distinct
    exact before.nodup_iff.mp (List.nodup_append.mp nodup).1
  have holders : service.runner.holders.Perm next.runner.holders := by
    unfold Runner.holders Runner.leases
    rw [List.map_append, List.map_append, finished]
    refine List.Perm.append_right _ ?_
    refine (before.map _).trans (List.Perm.trans ?_ (after.map _).symm)
    rw [List.map_cons, List.map_cons, holder]
  refine ⟨?_, ?_, ?_, claimed ▸ holding.once, ?_, keyed⟩
  · intro other held
    rw [working]
    obtain rfl | among := List.mem_cons.mp (after.mem_iff.mp held)
    · have own := holding.working lease (before.mem_iff.mpr List.mem_cons_self)
      exact List.mem_map.mpr ⟨lease, own, if_pos rfl⟩
    · have apart : other ≠ lease := fun same => (List.nodup_cons.mp distinct).1 (same ▸ among)
      have own := holding.working other (before.mem_iff.mpr (List.mem_cons_of_mem _ among))
      exact List.mem_map.mpr ⟨other, own, if_neg apart⟩
  · intro ended held
    exact stopped _ (holding.finished ended (finished ▸ held))
  · intro one listed
    obtain ⟨job, granted⟩ := holding.known one (claimed ▸ listed)
    exact ⟨job, history _ granted⟩
  · rw [claimed, done]
    exact holding.conserved.trans (holders.append_right _)

/-- A claim is answered. -/
theorem take (lease : Hold) {job : String} (world : next.world = service.world)
    (working : next.runner.working = lease :: service.runner.working)
    (finished : next.runner.finished = service.runner.finished)
    (running : next.runner.running = service.runner.running)
    (history : next.history = service.history ++ [.claimed lease.holder])
    (fresh : lease.holder ∉ service.claimed)
    (known : .granted job lease.holder ∈ service.world.history)
    (held : lease ∈ service.world.working) : next.Holding := by
  have claimed : next.claimed = service.claimed ++ [lease.holder] := claimed_concat history
  have done : next.done = service.done := (done_concat history).trans (List.append_nil _)
  refine ⟨?_, ?_, ?_, ?_, ?_, running ▸ holding.keyed⟩
  · intro other listed
    rw [world]
    rw [working] at listed
    obtain rfl | before := List.mem_cons.mp listed
    · exact held
    · exact holding.working other before
  · rw [finished, world]
    exact holding.finished
  · intro holder listed
    rw [claimed] at listed
    rw [world]
    obtain before | own := List.mem_append.mp listed
    · exact holding.known holder before
    · cases List.mem_singleton.mp own
      exact ⟨job, known⟩
  · rw [claimed]
    exact List.Nodup.append holding.once (List.nodup_singleton _)
      (List.disjoint_singleton.mpr fresh)
  · rw [claimed, done]
    refine (List.perm_append_singleton _ _).trans ?_
    unfold Runner.holders Runner.leases
    rw [working, finished]
    exact holding.conserved.cons _

theorem renew {pid : Nat} {sentAt : ℚ} {answered : Bool}
    (taken : service.renew pid sentAt answered = some next) : next.Holding := by
  obtain ⟨run, world, found, stepped, ⟨working, either⟩ | ⟨working, rfl⟩⟩ := renew_eq_some taken
  · have onward := World.onward stepped
    have kept : ({ service with world := world } : Service).Holding :=
      holding.carry rfl rfl holding.keyed rfl rfl (fun _ _ held => working ▸ held) onward.stopped
        onward.history
    obtain rfl | rfl := either
    · exact kept
    · have refused : ({ service with
          world := world
          guard := (service.guard.fenceNow pid).1
          runner := { service.runner with
            running := service.runner.running.update pid fun _ =>
              { run with renewAt := none } } } : Service).Holding := by
        refine kept.same rfl ?_ rfl ?_ rfl rfl
        · exact congrArg (service.runner.duty.leases ++ ·)
            (map_lease_update holding.keyed found rfl)
        · exact Dict.keyed_update holding.keyed pid fun _ => _
      exact refused.emit _
  · have onward := World.onward stepped
    obtain ⟨before, after, split, updated, _⟩ := Dict.exists_split holding.keyed found
    refine holding.swap run.lease { run.lease with fenceAt := fenceAfter sentAt run.lease.ttlS }
      (service.runner.duty.leases ++ (before ++ after).map (·.2.lease)) ?_ ?_ rfl rfl ?_ rfl
        rfl working onward.stopped onward.history
    · rw [Runner.working, split, List.map_append, List.map_append, List.map_cons,
        ← List.append_assoc, ← List.append_assoc]
      exact List.perm_middle
    · rw [renewed, Runner.working, updated, List.map_append, List.map_append, List.map_cons,
        ← List.append_assoc, ← List.append_assoc]
      exact List.perm_middle
    · exact Dict.keyed_update holding.keyed pid fun _ => _

theorem claim {seen : List JobRow} {now sentAt : ℚ} {holder : String} {answered : Bool}
    (taken : service.claim seen now sentAt holder answered = some next) : next.Holding := by
  obtain ⟨name, left, world, busy, _, stepped, rfl | ⟨after, run, rfl, granted, rfl⟩⟩ :=
    claim_eq_some taken
  · refine (holding.call stepped fun lease _ moved => ?_).same rfl ?_ rfl holding.keyed rfl rfl
    · cases moved
    · simp [Runner.working, busy, Duty.leases]
  · have called := holding.call stepped fun lease _ moved => by cases moved
    obtain ⟨fresh, known, working⟩ := World.step_claim stepped granted
    have unheard : holder ∉ service.claimed := by
      intro listed
      obtain ⟨job, before⟩ := holding.known holder listed
      exact fresh job before
    refine called.take { jobName := name, holder := holder, ttlS := ttlS
                         fenceAt := fenceAfter sentAt ttlS, claimed := some run } rfl ?_ rfl rfl
      rfl unheard known ?_
    · simp [Runner.working, busy, Duty.leases]
    · rw [working]
      exact List.mem_append_right _ (List.mem_singleton_self _)

theorem check (taken : service.check = some next) : next.Holding := by
  obtain ⟨lease, left, busy, rfl | ⟨world, stopped, rfl⟩⟩ := check_eq_some taken
  · refine holding.same rfl ?_ rfl holding.keyed rfl rfl
    simp [Runner.working, busy, Duty.leases]
  · refine holding.finish ?_ (List.map_append) holding.keyed rfl rfl stopped
    simp [Runner.working, Runner.drop, busy, Duty.leases]

theorem spawnFails {kind : String} {errno : Option Nat}
    (taken : service.spawnFails kind errno = some next) : next.Holding := by
  obtain ⟨lease, left, job, world, busy, stopped, rfl⟩ := spawnFails_eq_some taken
  refine holding.finish ?_ (List.map_append) holding.keyed rfl rfl stopped
  simp [Runner.working, Runner.drop, busy, Duty.leases]

/-- A lease's place changes, and some are lost from the runner's hands. -/
theorem place (gone : List Hold)
    (working : service.runner.working.Perm (gone ++ next.runner.working))
    (finished : next.runner.finished = service.runner.finished)
    (keyed : Keyed Prod.fst next.runner.running) (claimed : next.claimed = service.claimed)
    (done : next.done = service.done ++ gone.map (·.holder))
    (world : next.world = service.world) : next.Holding := by
  refine ⟨?_, ?_, ?_, claimed ▸ holding.once, ?_, keyed⟩
  · intro lease held
    rw [world]
    exact holding.working lease (working.mem_iff.mpr (List.mem_append_right _ held))
  · rw [finished, world]
    exact holding.finished
  · rw [claimed, world]
    exact holding.known
  · rw [claimed, done]
    apply List.perm_iff_count.mpr
    intro holder
    have counted := List.perm_iff_count.mp (working.map (·.holder)) holder
    have before := List.perm_iff_count.mp holding.conserved holder
    simp only [Runner.holders, Runner.leases, List.map_append, List.count_append, finished]
      at counted before ⊢
    omega

theorem spawn {pid : Nat} (taken : service.spawn pid = some next) : next.Holding := by
  obtain ⟨lease, left, job, busy, _, _, _, rfl⟩ := spawn_eq_some taken
  have working : service.runner.working = lease :: service.runner.running.map (·.2.lease) := by
    rw [Runner.working, busy]
    rfl
  have keyed : Keyed Prod.fst (service.spawned pid job lease left).runner.running :=
    Dict.keyed_update holding.keyed pid fun _ => _
  cases found : service.runner.running.lookup pid with
  | none =>
      have absent : pid ∉ service.runner.running.map Prod.fst := lookup_eq_none_iff_key.mp found
      have history : (service.spawned pid job lease left).history =
          service.history ++ [.started pid] := by
        rw [spawned, found]
        simp
      refine holding.place [] ?_ rfl keyed ((claimed_concat history).trans (List.append_nil _))
        (done_concat history) rfl
      rw [working, Runner.working, spawned, Runner.adopt, Dict.update, if_neg absent,
        List.map_append]
      exact (List.perm_append_singleton _ _).symm
  | some old =>
      obtain ⟨before, after, split, updated, _⟩ := Dict.exists_split holding.keyed found
      have history : (service.spawned pid job lease left).history =
          (service.history ++ [.replaced old.lease.holder]) ++ [.started pid] := by
        rw [spawned, found]
        rfl
      have claimed : (service.spawned pid job lease left).claimed = service.claimed := by
        rw [Service.claimed, history, List.filterMap_append, List.filterMap_append]
        simp [Event.claimedBy, Service.claimed]
      have done : (service.spawned pid job lease left).done =
          service.done ++ [old.lease.holder] := by
        rw [Service.done, history, List.filterMap_append, List.filterMap_append]
        simp [Event.doneBy, Service.done]
      refine holding.place [old.lease] ?_ rfl keyed claimed done rfl
      rw [working, Runner.working, spawned, Runner.adopt, updated, split, List.map_append,
        List.map_append, List.map_cons, List.map_cons]
      change (lease :: (before.map _ ++ old.lease :: after.map _)).Perm
        (old.lease :: (before.map _ ++ lease :: after.map _))
      exact ((List.perm_middle.cons lease).trans (List.Perm.swap _ _ _)).trans
        (List.perm_middle.symm.cons old.lease)

/-- A call of another moves none of the runner's holds. -/
theorem other {call : World.Action} (taken : service.step (.other call) = some next) :
    next.Holding := by
  obtain ⟨foreign, taken⟩ := Option.ite_none_right_eq_some.mp taken
  obtain ⟨world, stepped, rfl⟩ := Option.map_eq_some_iff.mp taken
  refine holding.call stepped fun lease mine moved => ?_
  have own : lease.holder ∈ service.runner.leases.map (·.holder) :=
    List.mem_map_of_mem (List.mem_append_left _ mine)
  cases moved with
  | renew sentAt answered => exact of_decide_eq_true foreign own
  | stop => exact of_decide_eq_true foreign own

theorem step {action : Action} (taken : service.step action = some next) : next.Holding := by
  cases action with
  | other call => exact holding.other taken
  | pass stopping samples =>
      obtain ⟨_, taken⟩ := Option.ite_none_left_eq_some.mp taken
      cases taken
      have passed : ({ service with
          guard := (service.guard.pass service.world.time stopping samples).1
          passedAt := service.world.time } : Service).Holding :=
        holding.same rfl rfl rfl holding.keyed rfl rfl
      exact passed.emit _
  | trip =>
      obtain ⟨_, taken⟩ := Option.ite_none_left_eq_some.mp taken
      obtain ⟨signals, _, rfl⟩ := Option.map_eq_some_iff.mp taken
      have ended : ({ service with dead := true } : Service).Holding :=
        holding.same rfl rfl rfl holding.keyed rfl rfl
      exact ended.emit _
  | exits pid code =>
      obtain ⟨process, _, taken⟩ := Option.bind_eq_some_iff.mp taken
      obtain ⟨_, taken⟩ := Option.ite_none_right_eq_some.mp taken
      cases taken
      exact holding.same rfl rfl rfl holding.keyed rfl rfl
  | tick =>
      obtain ⟨_, taken⟩ := Option.ite_none_right_eq_some.mp taken
      cases taken
      exact holding.same rfl rfl rfl holding.keyed rfl rfl
  | tickDone =>
      obtain ⟨_, taken⟩ := Option.ite_none_right_eq_some.mp taken
      cases taken
      exact holding.same rfl rfl rfl holding.keyed rfl rfl
  | reap pid => exact holding.reap taken
  | settle pid left readerDone tail => exact holding.settle taken
  | register skipped =>
      obtain ⟨_, taken⟩ := Option.ite_none_right_eq_some.mp taken
      cases taken
      exact holding.same rfl rfl rfl holding.keyed rfl rfl
  | release done now answered => exact holding.release taken
  | strip done => exact holding.strip taken
  | renew pid sentAt answered => exact holding.renew taken
  | due now =>
      obtain ⟨ready, taken⟩ := Option.ite_none_right_eq_some.mp taken
      cases taken
      simp only [Service.ready, Bool.and_eq_true, decide_eq_true_iff] at ready
      refine holding.same rfl ?_ rfl holding.keyed rfl rfl
      rw [Runner.working, Runner.working, ready.1.1.1.2]
      rfl
  | claim seen now sentAt holder answered => exact holding.claim taken
  | check => exact holding.check taken
  | spawn pid => exact holding.spawn taken
  | spawnFails kind errno => exact holding.spawnFails taken
  | endPass =>
      obtain ⟨left, busy, rfl⟩ := endPass_eq_some taken
      refine holding.same rfl ?_ rfl holding.keyed rfl rfl
      rw [Runner.working, Runner.working, busy]
      rfl

end Holding

/-! ### What is claimed -/

/-- What a step claims: nothing, or one more lease, counted. -/
inductive Claims (service next : Service) : Prop where
  | nothing (counter : next.runner.claims = service.runner.claims)
      (claimed : next.claimed = service.claimed)
  | lease (holder : String) (counter : next.runner.claims = service.runner.claims + 1)
      (claimed : next.claimed = service.claimed ++ [holder])

theorem Claims.silent {event : Event} (other : event.claimedBy = none)
    (counter : next.runner.claims = service.runner.claims)
    (history : next.history = service.history ++ [event]) : Claims service next :=
  .nothing counter (by rw [claimed_concat history, other, Option.toList_none, List.append_nil])

theorem Claims.heard {holder : String} (counter : next.runner.claims = service.runner.claims + 1)
    (history : next.history = service.history ++ [.claimed holder]) : Claims service next :=
  .lease holder counter (claimed_concat history)

theorem claimed_spawned (pid : Nat) (job : RegistryJob) (lease : Hold) (left : List String) :
    (service.spawned pid job lease left).claimed = service.claimed := by
  have history : (service.spawned pid job lease left).history = service.history ++
      (service.runner.running.lookup pid).toList.map (fun run => .replaced run.lease.holder) ++
        [.started pid] := rfl
  unfold claimed
  rw [history, List.filterMap_append, List.filterMap_append]
  cases service.runner.running.lookup pid with
  | none => simp [Event.claimedBy]
  | some run => simp [Event.claimedBy]

theorem claims_step {action : Action} (taken : service.step action = some next) :
    Claims service next := by
  cases action with
  | other call =>
      obtain ⟨_, taken⟩ := Option.ite_none_right_eq_some.mp taken
      obtain ⟨world, _, rfl⟩ := Option.map_eq_some_iff.mp taken
      exact .nothing rfl rfl
  | pass stopping samples =>
      obtain ⟨_, taken⟩ := Option.ite_none_left_eq_some.mp taken
      cases taken
      exact .nothing rfl (claimed_emit _)
  | trip =>
      obtain ⟨_, taken⟩ := Option.ite_none_left_eq_some.mp taken
      obtain ⟨signals, _, rfl⟩ := Option.map_eq_some_iff.mp taken
      exact .nothing rfl (claimed_emit _)
  | exits pid code =>
      obtain ⟨process, _, taken⟩ := Option.bind_eq_some_iff.mp taken
      obtain ⟨_, taken⟩ := Option.ite_none_right_eq_some.mp taken
      cases taken
      exact .nothing rfl rfl
  | tick =>
      obtain ⟨_, taken⟩ := Option.ite_none_right_eq_some.mp taken
      cases taken
      exact .nothing rfl rfl
  | tickDone =>
      obtain ⟨_, taken⟩ := Option.ite_none_right_eq_some.mp taken
      cases taken
      exact .nothing rfl rfl
  | reap pid =>
      obtain ⟨run, process, code, _, _, _, rfl⟩ := reap_eq_some taken
      have claimed : (service.reaped pid run code).claimed =
          (service.emit [.kill pid]).claimed ++ [] :=
        @claimed_concat (service.emit [.kill pid]) _ (.reaped pid) rfl
      exact .nothing rfl (claimed.trans ((List.append_nil _).trans (claimed_emit _)))
  | settle pid left readerDone tail =>
      obtain ⟨run, world, _, _, _, rfl⟩ := settle_eq_some taken
      exact .nothing rfl rfl
  | register skipped =>
      obtain ⟨_, taken⟩ := Option.ite_none_right_eq_some.mp taken
      cases taken
      exact .nothing rfl rfl
  | release done now answered =>
      obtain ⟨_, taken⟩ := Option.ite_none_right_eq_some.mp taken
      obtain ⟨world, _, rfl⟩ := Option.map_eq_some_iff.mp taken
      cases answered with
      | false => exact .nothing rfl rfl
      | true => exact .silent rfl rfl rfl
  | strip done =>
      obtain ⟨_, taken⟩ := Option.ite_none_right_eq_some.mp taken
      cases taken
      exact .nothing rfl rfl
  | renew pid sentAt answered =>
      obtain ⟨run, world, _, _, ⟨_, rfl | rfl⟩ | ⟨_, rfl⟩⟩ := renew_eq_some taken
      · exact .nothing rfl rfl
      · exact .nothing rfl (claimed_emit _)
      · exact .nothing rfl rfl
  | due now =>
      obtain ⟨_, taken⟩ := Option.ite_none_right_eq_some.mp taken
      cases taken
      exact .nothing rfl rfl
  | claim seen now sentAt holder answered =>
      obtain ⟨name, left, world, _, _, _, rfl | ⟨after, run, _, _, rfl⟩⟩ := claim_eq_some taken
      · exact .nothing rfl rfl
      · exact .heard rfl rfl
  | check =>
      obtain ⟨lease, left, _, rfl | ⟨world, _, rfl⟩⟩ := check_eq_some taken
      · exact .nothing rfl rfl
      · exact .nothing rfl rfl
  | spawn pid =>
      obtain ⟨lease, left, job, _, _, _, _, rfl⟩ := spawn_eq_some taken
      exact .nothing rfl (claimed_spawned pid job lease left)
  | spawnFails kind errno =>
      obtain ⟨lease, left, job, world, _, _, rfl⟩ := spawnFails_eq_some taken
      exact .nothing rfl rfl
  | endPass =>
      obtain ⟨left, _, rfl⟩ := endPass_eq_some taken
      exact .nothing rfl rfl

/-- The counter is the number of leases claimed. -/
def Counted (service : Service) : Prop := service.runner.claims = service.claimed.length

theorem Counted.step (counted : service.Counted) {action : Action}
    (taken : service.step action = some next) : next.Counted := by
  unfold Counted at counted ⊢
  cases claims_step taken with
  | nothing counter claimed => rw [counter, claimed, counted]
  | lease holder counter claimed =>
      rw [counter, claimed, counted, List.length_append, List.length_singleton]

/-! ### How many children run -/

/-- The children running and the one being started are not too many, nor are the claims. -/
structure Capped (service : Service) : Prop where
  running : service.runner.running.length + service.runner.duty.leases.length ≤
    service.runner.maxChildren
  claims : ∀ limit ∈ service.runner.claimLimit, service.runner.claims ≤ limit

namespace Capped

variable (capped : service.Capped)

include capped

/-- A step that starts no child and claims nothing. -/
theorem carry (most : next.runner.maxChildren = service.runner.maxChildren)
    (limit : next.runner.claimLimit = service.runner.claimLimit)
    (claims : next.runner.claims = service.runner.claims)
    (fewer : next.runner.running.length + next.runner.duty.leases.length ≤
      service.runner.running.length + service.runner.duty.leases.length) : next.Capped := by
  refine ⟨?_, ?_⟩
  · rw [most]
    exact fewer.trans capped.running
  · rw [limit, claims]
    exact capped.claims

theorem same (runner : next.runner = service.runner) : next.Capped :=
  ⟨runner ▸ capped.running, runner ▸ capped.claims⟩

theorem claim {seen : List JobRow} {now sentAt : ℚ} {holder : String} {answered : Bool}
    (taken : service.claim seen now sentAt holder answered = some next) : next.Capped := by
  obtain ⟨name, left, world, busy, may, _, rfl | ⟨after, run, _, _, rfl⟩⟩ := claim_eq_some taken
  · refine capped.carry rfl rfl rfl ?_
    rw [busy]
    exact le_refl _
  · simp only [Runner.mayClaim, Bool.and_eq_true, decide_eq_true_iff] at may
    refine ⟨may.1.1, fun limit named => ?_⟩
    have room := may.2
    rw [Option.mem_def.mp named] at room
    exact of_decide_eq_true room

theorem spawn {pid : Nat} (taken : service.spawn pid = some next) : next.Capped := by
  obtain ⟨lease, left, job, busy, _, _, _, rfl⟩ := spawn_eq_some taken
  refine capped.carry rfl rfl rfl ?_
  rw [busy]
  exact Dict.length_update_le service.runner.running pid fun _ => _

theorem step {action : Action} (taken : service.step action = some next) : next.Capped := by
  cases action with
  | other call =>
      obtain ⟨_, taken⟩ := Option.ite_none_right_eq_some.mp taken
      obtain ⟨world, _, rfl⟩ := Option.map_eq_some_iff.mp taken
      exact capped.same rfl
  | pass stopping samples =>
      obtain ⟨_, taken⟩ := Option.ite_none_left_eq_some.mp taken
      cases taken
      exact capped.same rfl
  | trip =>
      obtain ⟨_, taken⟩ := Option.ite_none_left_eq_some.mp taken
      obtain ⟨signals, _, rfl⟩ := Option.map_eq_some_iff.mp taken
      exact capped.same rfl
  | exits pid code =>
      obtain ⟨process, _, taken⟩ := Option.bind_eq_some_iff.mp taken
      obtain ⟨_, taken⟩ := Option.ite_none_right_eq_some.mp taken
      cases taken
      exact capped.same rfl
  | tick =>
      obtain ⟨_, taken⟩ := Option.ite_none_right_eq_some.mp taken
      cases taken
      exact capped.carry rfl rfl rfl (le_refl _)
  | tickDone =>
      obtain ⟨_, taken⟩ := Option.ite_none_right_eq_some.mp taken
      cases taken
      exact capped.same rfl
  | reap pid =>
      obtain ⟨run, process, code, found, _, _, rfl⟩ := reap_eq_some taken
      refine capped.carry rfl rfl rfl ?_
      exact Nat.add_le_add_right (Dict.length_update found fun _ => _).le _
  | settle pid left readerDone tail =>
      obtain ⟨run, world, found, _, _, rfl⟩ := settle_eq_some taken
      refine capped.carry rfl rfl rfl ?_
      exact Nat.add_le_add_right (List.length_filter_le _ _) _
  | register skipped =>
      obtain ⟨_, taken⟩ := Option.ite_none_right_eq_some.mp taken
      cases taken
      exact capped.carry rfl rfl rfl (le_refl _)
  | release done now answered =>
      obtain ⟨_, taken⟩ := Option.ite_none_right_eq_some.mp taken
      obtain ⟨world, _, rfl⟩ := Option.map_eq_some_iff.mp taken
      cases answered with
      | false => exact capped.same rfl
      | true => exact capped.carry rfl rfl rfl (le_refl _)
  | strip done =>
      obtain ⟨_, taken⟩ := Option.ite_none_right_eq_some.mp taken
      cases taken
      exact capped.carry rfl rfl rfl (le_refl _)
  | renew pid sentAt answered =>
      obtain ⟨run, world, found, _, ⟨_, rfl | rfl⟩ | ⟨_, rfl⟩⟩ := renew_eq_some taken
      · exact capped.same rfl
      · refine capped.carry rfl rfl rfl ?_
        exact Nat.add_le_add_right (Dict.length_update found fun _ => _).le _
      · refine capped.carry rfl rfl rfl ?_
        exact Nat.add_le_add_right (Dict.length_update found fun _ => _).le _
  | due now =>
      obtain ⟨_, taken⟩ := Option.ite_none_right_eq_some.mp taken
      cases taken
      exact capped.carry rfl rfl rfl (Nat.le_add_right _ _)
  | claim seen now sentAt holder answered => exact capped.claim taken
  | check =>
      obtain ⟨lease, left, busy, rfl | ⟨world, _, rfl⟩⟩ := check_eq_some taken
      · refine capped.carry rfl rfl rfl ?_
        rw [busy]
        exact le_refl _
      · exact capped.carry rfl rfl rfl (Nat.le_add_right _ _)
  | spawn pid => exact capped.spawn taken
  | spawnFails kind errno =>
      obtain ⟨lease, left, job, world, _, _, rfl⟩ := spawnFails_eq_some taken
      exact capped.carry rfl rfl rfl (Nat.le_add_right _ _)
  | endPass =>
      obtain ⟨left, _, rfl⟩ := endPass_eq_some taken
      exact capped.carry rfl rfl rfl (Nat.le_add_right _ _)

end Capped

/-! ### A runner that starts -/

structure Initial (service : Service) : Prop where
  running : service.runner.running = []
  finished : service.runner.finished = []
  duty : service.runner.duty = .resting
  claims : service.runner.claims = 0
  watches : service.guard.watches = []
  processes : service.processes = []
  passed : service.passedAt = service.world.time
  dead : service.dead = false
  history : service.history = []
  timeouts : ∀ job ∈ service.runner.registry, 0 < job.timeoutS

namespace Initial

variable (initial : service.Initial)

include initial

theorem holding : service.Holding := by
  have working : service.runner.working = [] := by
    rw [Runner.working, initial.duty, initial.running]
    rfl
  have leases : service.runner.leases = [] := by
    rw [Runner.leases, working, initial.finished]
    rfl
  have claimed : service.claimed = [] := by
    rw [Service.claimed, initial.history]
    rfl
  refine ⟨?_, ?_, ?_, ?_, ?_, ?_⟩
  · rw [working]
    exact fun _ held => by cases held
  · rw [initial.finished]
    exact fun _ held => by cases held
  · rw [claimed]
    exact fun _ held => by cases held
  · rw [claimed]
    exact List.nodup_nil
  · rw [claimed, Runner.holders, leases, done, initial.history]
    exact List.Perm.nil
  · rw [initial.running]
    exact Keyed.nil

theorem counted : service.Counted := by
  unfold Counted claimed
  rw [initial.claims, initial.history]
  rfl

theorem capped : service.Capped := by
  refine ⟨?_, ?_⟩
  · rw [initial.running, initial.duty]
    exact Nat.zero_le _
  · rw [initial.claims]
    exact fun limit _ => Nat.zero_le limit

end Initial

/-- Every lease claimed is in the runner's hands once, or it is rid of it: none is forgotten and
none is released twice. -/
structure Accounted (service : Service) : Prop where
  once : service.claimed.Nodup
  conserved : service.claimed.Perm (service.runner.holders ++ service.done)
  working : ∀ lease ∈ service.runner.working, lease ∈ service.world.working
  finished : ∀ done ∈ service.runner.finished, done.lease ∈ service.world.stopped
  running : service.runner.running.length ≤ service.runner.maxChildren
  counted : service.runner.claims = service.claimed.length
  claims : ∀ limit ∈ service.runner.claimLimit, service.claimed.length ≤ limit

/-- Over every order of the steps of a tick, the guard's passes, exits, lost replies and other
callers, the leases a runner was answered with are those it starts, runs and is to release, those
it released, and those of runs whose pid was given to a new child before they settled. -/
theorem leases_accounted (start service : Service) (initial : start.Initial)
    (run : Reaches Service.step (fun _ _ => True) start service) : service.Accounted := by
  have holding := run.invariant Holding initial.holding
    fun _ _ _ holding _ taken => holding.step taken
  have capped := run.invariant Capped initial.capped fun _ _ _ capped _ taken => capped.step taken
  have counted := run.invariant Counted initial.counted
    fun _ _ _ counted _ taken => counted.step taken
  exact
    { once := holding.once
      conserved := holding.conserved
      working := holding.working
      finished := holding.finished
      running := (Nat.le_add_right _ _).trans capped.running
      counted := counted
      claims := counted ▸ capped.claims }

/-! ### One run -/

def sweepJob : RegistryJob := { World.sweepEntry with dbHeavy := false }

/-- A service that starts on tables with no rows. -/
def started : Service where
  world := World.emptyTables
  runner :=
    { name := "job-runner", registry := [sweepJob], service := true, claimLimit := none
      maxChildren := 2, renewEveryS := 60, stragglerWaitS := 10, now := 0, running := []
      finished := [], lastReleased := none, registered := false, skipped := [], claims := 0
      claimPasses := 0, nextClaimAt := none, duty := .resting }
  guard := { graceS := 90, livenessS := 300, watches := [], cleanAt := 0, stopAt := none }
  processes := []
  passedAt := 0
  dead := false
  history := []

theorem started_initial : started.Initial where
  running := rfl
  finished := rfl
  duty := rfl
  claims := rfl
  watches := rfl
  processes := rfl
  passed := rfl
  dead := rfl
  history := rfl
  timeouts := by decide

def sweepLease : Hold :=
  { jobName := "sweep", holder := "first", ttlS := 180, fenceAt := 250
    claimed := some { runId := 0, args := none, requestedBy := none, dueSlot := true } }

/-- The sweep is registered, waited for, claimed and started. -/
def startsSweep : List Action :=
  [.other (.register 0 "job-runner" World.sweepEntry), .register [], .other (.wait 20),
    .pass false [], .other (.wait 50), .pass false [], .other (.wait 80), .pass false [],
    .other (.wait 100), .pass false [], .tick, .due 100, .claim [] 100 100 "first" true, .check,
    .spawn 7, .endPass, .pass false []]

/-- Its child exits, and its run is released. -/
def endsSweep : List Action :=
  [.exits 7 0, .reap 7, .settle 7 0 true "", .release
    { lease := sweepLease, outcome := .ok, due := .slot, error := none, exitCode := some 0
      peakRssMb := none, logTail := "" } 100 true]

theorem leases_accounted_at_sweep :
    ∃ final, replay Service.step started (startsSweep ++ endsSweep) = some final ∧
      final.claimed = ["first"] ∧ final.done = ["first"] ∧ final.Accounted := by
  obtain ⟨final, replayed⟩ :
      ∃ final, replay Service.step started (startsSweep ++ endsSweep) = some final :=
    Option.isSome_iff_exists.mp (by decide +kernel)
  have logged : (replay Service.step started (startsSweep ++ endsSweep)).map
      (fun service => (service.claimed, service.done)) = some (["first"], ["first"]) := by
    decide +kernel
  rw [replayed] at logged
  obtain ⟨claimed, done⟩ := Prod.mk.inj (Option.some.inj logged)
  have run : Reaches Service.step (fun _ _ => True) started final :=
    reaches_of_replay replayed (allowedAll_true _ _ _)
  exact ⟨final, replayed, claimed, done, leases_accounted started final started_initial run⟩

end Service

end JobRunner

end Sreality.Scraper
