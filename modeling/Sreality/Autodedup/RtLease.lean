import Mathlib.Algebra.Order.Ring.Rat
import Sreality.Foundation.Histories

/-! The writer's lease of the realtime lane (autodedup/rt_lease.py): one row, taken once it has run
out, ended by its holder or for it, and held by a transaction as its last statement before the
commit. -/

set_option autoImplicit false

namespace Sreality.Autodedup.RtLease

structure Lease where
  holder : String
  takenAt : ℚ
  expiresAt : ℚ
  deriving DecidableEq

/-- The calls that wrote or meant to; `ended` is the row a release left, none when it ended
none. -/
inductive Event where
  | taken (lease : Lease)
  | released (now : ℚ) (holder : String) (ended : Option Lease)
  | predecessorReleased (now : ℚ) (hostname pid : String) (booted : Nat) (ended : Option Lease)
  | committed (holder : String)
  deriving DecidableEq

structure World where
  /-- `clock_timestamp()`; a statement's `now` is when its transaction began. -/
  time : ℚ
  row : Option Lease
  /-- The holder of the transaction past `hold`, which keeps the row locked until it ends. -/
  holding : Option String
  history : List Event
  deriving DecidableEq

def digits (text : List Char) : Bool := !text.isEmpty && text.all Char.isDigit

/-- The cast of digits to `bigint`. -/
def number (text : List Char) : Nat :=
  text.foldl (fun value digit => 10 * value + (digit.toNat - '0'.toNat)) 0

/-- `_RT_LEASE_PREDECESSOR_WHERE`: the holder's host, pid and second, as `pass_holder` names
them. -/
def predecessor (holder hostname pid : String) (booted : Nat) : Bool :=
  match holder.toList.splitOn ':' with
  | [host, process, second] =>
      !host.isEmpty && digits process && digits second && decide (second.length ≤ 18) &&
        decide (host = hostname.toList) && decide (process = pid.toList) &&
          decide (number second < booted)
  | _ => false

namespace World

variable (world : World)

/-- `RT_LEASE_TAKE_SQL`. -/
def take (now : ℚ) (holder : String) (ttl : Nat) : Option World :=
  if now ≤ world.time ∧ world.holding = none then
    if world.row.all fun lease => decide (lease.expiresAt < now) then
      let lease : Lease := { holder := holder, takenAt := now, expiresAt := now + ttl }
      some { world with row := some lease, history := world.history ++ [.taken lease] }
    else some world
  else none

/-- `expires_at = now()`, where the row is the one meant. -/
def ends (now : ℚ) (meant : Lease → Bool) (event : Option Lease → Event) : Option World :=
  if now ≤ world.time ∧ world.holding = none then
    match world.row.filter meant with
    | some lease =>
        let lease : Lease := { lease with expiresAt := now }
        some { world with
          row := some lease
          history := world.history ++ [event (some lease)] }
    | none => some { world with history := world.history ++ [event none] }
  else none

/-- `RT_LEASE_RELEASE_SQL`. -/
def release (now : ℚ) (holder : String) : Option World :=
  world.ends now (fun lease => decide (lease.holder = holder)) (.released now holder)

/-- `RT_LEASE_RELEASE_PREDECESSOR_SQL`. -/
def releasePredecessor (now : ℚ) (hostname pid : String) (booted : Nat) : Option World :=
  world.ends now
    (fun lease => decide (now < lease.expiresAt) && predecessor lease.holder hostname pid booted)
    (.predecessorReleased now hostname pid booted)

/-- `RT_LEASE_HOLD_SQL`; without a row the transaction rolls back. -/
def hold (holder : String) : Option World :=
  if world.holding = none then
    if world.row.any fun lease =>
        decide (lease.holder = holder) && decide (world.time < lease.expiresAt) then
      some { world with holding := some holder }
    else some world
  else none

inductive Action where
  | wait (till : ℚ)
  | take (now : ℚ) (holder : String) (ttl : Nat)
  | release (now : ℚ) (holder : String)
  | releasePredecessor (now : ℚ) (hostname pid : String) (booted : Nat)
  | hold (holder : String)
  | commit
  | rollback
  deriving DecidableEq

/-- Calls of any number of processes, in every order. -/
def step : Action → Option World
  | .wait till => if world.time ≤ till then some { world with time := till } else none
  | .take now holder ttl => world.take now holder ttl
  | .release now holder => world.release now holder
  | .releasePredecessor now hostname pid booted =>
      world.releasePredecessor now hostname pid booted
  | .hold holder => world.hold holder
  | .commit => world.holding.map fun holder =>
      { world with holding := none, history := world.history ++ [.committed holder] }
  | .rollback => world.holding.map fun _ => { world with holding := none }

end World

end Sreality.Autodedup.RtLease
