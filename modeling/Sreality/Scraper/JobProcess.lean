import Mathlib.Algebra.Order.Ring.Rat
import Sreality.Foundation.Dicts

/-! The guard over the job runner's children (scraper/job_process.py): it sends every signal and
takes every memory sample. A call is made under its lock and gives the signals it sends, in order. -/

set_option autoImplicit false

namespace Sreality.Scraper.JobProcess

open Sreality.Foundation

/-- Why the runner stopped a job. -/
inductive Stop where
  | timeout
  | deploy
  | fence
  deriving DecidableEq

/-- The guard's record of one child. -/
structure Watch where
  termAt : ℚ
  fenceAt : ℚ
  label : String := ""
  reason : Option Stop := none
  killAt : Option ℚ := none
  killed : Bool := false
  peakMb : Option ℤ := none
  deriving DecidableEq

/-- `_term_leader` and `_kill_group`. -/
inductive Signal where
  | term (pid : Nat)
  | kill (pid : Nat)
  deriving DecidableEq

def Signal.pid : Signal → Nat
  | .term pid => pid
  | .kill pid => pid

structure Guard where
  graceS : ℚ
  livenessS : ℚ
  watches : Dict Nat Watch
  cleanAt : ℚ
  stopAt : Option ℚ
  deriving DecidableEq

namespace Watch

variable (watch : Watch)

/-- `watch.reason or …`. -/
def because (cause : Stop) : Watch := { watch with reason := watch.reason.or (some cause) }

def sampled (mb : Option ℤ) : Watch :=
  match mb with
  | some mb => if watch.killed then watch else { watch with peakMb := some (max (watch.peakMb.getD 0) mb) }
  | none => watch

/-- The SIGTERM of a pass, at a stop or at the job's timeout. -/
def termed (graceS now : ℚ) (stopAt : Option ℚ) (pid : Nat) : Watch × List Signal :=
  match watch.reason, stopAt with
  | some _, _ => (watch, [])
  | none, some stopped =>
      ({ watch with reason := some .deploy, killAt := some (stopped + graceS) }, [.term pid])
  | none, none =>
      if watch.termAt ≤ now then
        ({ watch with reason := some .timeout, killAt := some (now + graceS) }, [.term pid])
      else (watch, [])

/-- The SIGKILL that ends the grace. -/
def graced (now : ℚ) (pid : Nat) : Watch × List Signal :=
  if watch.killed = false ∧ watch.killAt.any (fun kill => decide (kill ≤ now)) = true then
    ({ watch with killed := true }, [.kill pid])
  else (watch, [])

/-- One child's turn in a pass. -/
def pass (graceS now : ℚ) (stopAt : Option ℚ) (mb : Option ℤ) (pid : Nat) : Watch × List Signal :=
  let seen := watch.sampled mb
  if seen.killed = false ∧ seen.fenceAt ≤ now then
    ({ seen.because .fence with killed := true }, [.kill pid])
  else
    let (turned, first) := seen.termed graceS now stopAt pid
    let (left, second) := turned.graced now pid
    (left, first ++ second)

end Watch

namespace Guard

variable (guard : Guard)

def watch (pid : Nat) (termAt fenceAt : ℚ) (label : String) : Guard :=
  { guard with
    watches := guard.watches.update pid fun _ =>
      { termAt := termAt, fenceAt := fenceAt, label := label } }

/-- A renewal landed: the fence moves out. -/
def move (pid : Nat) (fenceAt : ℚ) : Guard :=
  match guard.watches.lookup pid with
  | some watch =>
      { guard with watches := guard.watches.update pid fun _ => { watch with fenceAt := fenceAt } }
  | none => guard

/-- A renewal was refused: the group dies now. -/
def fenceNow (pid : Nat) : Guard × List Signal :=
  match guard.watches.lookup pid with
  | some watch =>
      if watch.killed then (guard, [])
      else
        ({ guard with
            watches := guard.watches.update pid fun _ =>
              { watch.because .fence with killed := true } }, [.kill pid])
  | none => (guard, [])

/-- The leader is about to be reaped: its group's stragglers are killed, the pid not signalled
again. -/
def forget (pid : Nat) : Guard × Watch × List Signal :=
  ({ guard with watches := guard.watches.filter fun row => decide (row.1 ≠ pid) },
    (guard.watches.lookup pid).getD { termAt := 0, fenceAt := 0 }, [.kill pid])

def tickDone (clock : ℚ) : Guard := { guard with cleanAt := clock }

/-- `_pass`; `stopping` is what the stop event says. -/
def pass (now : ℚ) (stopping : Bool) (samples : Dict Nat ℤ) : Guard × List Signal :=
  let stopAt := guard.stopAt.or (if stopping then some now else none)
  let turns := guard.watches.map fun row =>
    (row.1, row.2.pass guard.graceS now stopAt (samples.lookup row.1) row.1)
  ({ guard with stopAt := stopAt, watches := turns.map fun turn => (turn.1, turn.2.1) },
    turns.flatMap fun turn => turn.2.2)

/-- `_trip`, when no clean tick has ended for too long. -/
def trip (now : ℚ) : Option (List Signal) :=
  if guard.livenessS < now - guard.cleanAt then
    some (guard.watches.map fun row => .kill row.1)
  else none

end Guard

end Sreality.Scraper.JobProcess
