import Sreality.Foundation.Runs
import Sreality.Scraper.RateRow

/-! The shared politeness ledger (`scraper/rate_ledger.py`) over the local pacer
(`scraper/rate_limit.py`): any number of limiters on one source, the one budget row they
lease windows from, and the threads between a slot and its pacing lock. The database and the
clients have one clock, which the one reads in microseconds and the others as a `float`; no
statement fails. -/

set_option autoImplicit false

namespace Sreality.Scraper

open Sreality.Foundation

/-! ### The local pacer -/

/-- `RateLimiter`: what its lock guards. -/
structure Pacer where
  baseInterval : Float64
  interval : Float64
  nextAt : Float64 := .ofRat _ 0
  deriving DecidableEq

namespace Pacer

/-- `acquire`: the slot scheduled at `now`, and the pacer after it. -/
def acquire (pacer : Pacer) (now : Float64) : Float64 × Pacer :=
  let scheduled := max now pacer.nextAt
  (scheduled,
    { pacer with
      nextAt := scheduled + pacer.interval
      interval :=
        if pacer.baseInterval.value < pacer.interval.value then
          max pacer.baseInterval (pacer.interval * recoveryFactor)
        else pacer.interval })

/-- `reschedule`: an externally leased window; the next slot never moves earlier. -/
def reschedule (pacer : Pacer) (interval notBefore : Float64) : Pacer where
  baseInterval := interval
  interval := interval
  nextAt := if pacer.nextAt.value < notBefore.value then notBefore else pacer.nextAt

end Pacer

/-! ### The limiters -/

structure Settings where
  leaseN : Nat
  intervalMs : Nat
  maxWait : Option Float64 := none
  deadline : Option Float64 := none
  leases : 1 ≤ leaseN
  spaced : 1 ≤ intervalMs

/-- A window a limiter leased: `slots` slots of `width` from `start`. -/
structure Lease where
  limiter : Nat
  start : ℚ
  width : Float64
  slots : Nat
  deriving DecidableEq

def Lease.finish (lease : Lease) : ℚ := lease.start + lease.slots * lease.width.value

/-- The lease a limiter paces through, and the slots scheduled since its reply. -/
structure Spent where
  lease : Lease
  used : Nat
  deriving DecidableEq

/-- The slot's own time in the window: the slots before it paced from its start. -/
def Spent.nominal (spent : Spent) : ℚ := spent.lease.start + spent.used * spent.lease.width.value

/-- One `LedgerRateLimiter`. While a lease statement is answered its lock is held; `taken` are
the threads that took a slot and are not at the pacing lock yet, each with its slot's lease.
`window` is what the leases and slots so far say of the pacer. -/
structure Limiter where
  pacer : Pacer
  slotsLeft : Nat := 0
  singleLeasesOwed : Nat := 0
  refused : Bool := false
  answering : Option (LeaseAnswer × Lease) := none
  taken : List Lease := []
  window : Option Spent := none
  deriving DecidableEq

/-- A slot `acquire` scheduled, with the lease it was taken from. -/
structure Slot where
  lease : Lease
  at_ : Float64
  deriving DecidableEq

structure World where
  now : ℚ
  row : RateRow
  limiter : Nat → Limiter
  leases : List Lease
  scheduled : List Slot

inductive Action where
  | tick (seconds : ℚ)
  | take (limiter : Nat)
  | ask (limiter : Nat)
  | answer (limiter : Nat)
  | schedule (limiter thread : Nat)
  | abandon (limiter thread : Nat)
  | penalize (limiter : Nat)
  | refuse (limiter : Nat)
  deriving DecidableEq

namespace World

def setLimiter (world : World) (index : Nat) (limiter : Limiter) : World :=
  { world with limiter := fun other => if other = index then limiter else world.limiter other }

/-- `now()` -/
def stamp (world : World) : ℤ := ⌊world.now * 1000000⌋

/-- `time.monotonic()` -/
def monotonic (world : World) : Float64 := .ofRat _ world.now

/-- `acquire` may pass its own checks: no statement holds the lock, nothing refused, the
deadline ahead. -/
def admits (settings : Settings) (world : World) (limiter : Limiter) : Bool :=
  limiter.answering.isNone && !limiter.refused &&
    settings.deadline.all fun deadline => decide (world.monotonic.value < deadline.value)

/-- The wait a lease accepts: the bound, and never past the deadline. -/
def waitBound (settings : Settings) (now : Float64) : Option Float64 :=
  match settings.deadline with
  | none => settings.maxWait
  | some deadline =>
      let left := max (.ofRat _ 0) (deadline - now)
      match settings.maxWait with
      | none => some left
      | some wait => some (min wait left)

/-- The slots the limiter's next lease asks for. -/
def slotsOf (settings : Settings) (limiter : Limiter) : Nat :=
  if limiter.singleLeasesOwed ≠ 0 then 1 else settings.leaseN

/-- One atomic step: the clock, a thread's turn under one of the locks, or one statement. -/
def step (settings : Nat → Settings) (world : World) : Action → Option World
  | .tick seconds => if 0 ≤ seconds then some { world with now := world.now + seconds } else none
  | .take index =>
      let limiter := world.limiter index
      match limiter.slotsLeft, limiter.window with
      | left + 1, some window =>
          if world.admits (settings index) limiter then
            some (world.setLimiter index
              { limiter with slotsLeft := left, taken := limiter.taken ++ [window.lease] })
          else none
      | _, _ => none
  | .ask index =>
      let limiter := world.limiter index
      if world.admits (settings index) limiter ∧ limiter.slotsLeft = 0 then
        let slots := slotsOf (settings index) limiter
        (leaseSql world.row world.stamp slots (settings index).intervalMs
          (waitBound (settings index) world.monotonic)).map fun (row, answer) =>
            if answer.granted then
              let lease : Lease :=
                { limiter := index, start := seconds (max world.row.nextSlotAt world.stamp)
                  width := answer.slot, slots := slots }
              let asked := world.setLimiter index { limiter with answering := some (answer, lease) }
              { asked with row := row, leases := world.leases ++ [lease] }
            else world.setLimiter index { limiter with refused := true }
      else none
  | .answer index =>
      let limiter := world.limiter index
      limiter.answering.map fun answered =>
        world.setLimiter index
          { limiter with
            pacer := limiter.pacer.reschedule answered.1.slot (world.monotonic + answered.1.delay)
            singleLeasesOwed := limiter.singleLeasesOwed - 1
            slotsLeft := answered.2.slots - 1
            answering := none
            taken := limiter.taken ++ [answered.2]
            window := some { lease := answered.2, used := 0 } }
  | .schedule index thread =>
      let limiter := world.limiter index
      limiter.taken[thread]?.map fun lease =>
        let (slot, pacer) := limiter.pacer.acquire world.monotonic
        let next := world.setLimiter index
          { limiter with
            pacer := pacer
            taken := limiter.taken.eraseIdx thread
            window := limiter.window.map fun window => { window with used := window.used + 1 } }
        { next with scheduled := world.scheduled ++ [{ lease := lease, at_ := slot }] }
  | .abandon index thread =>
      let limiter := world.limiter index
      limiter.taken[thread]?.map fun _ =>
        world.setLimiter index { limiter with taken := limiter.taken.eraseIdx thread }
  | .penalize index =>
      let limiter := world.limiter index
      if limiter.answering.isNone then
        let penalized := world.setLimiter index
          { limiter with
            slotsLeft := 0
            singleLeasesOwed := min (limiter.singleLeasesOwed + 1) (settings index).leaseN }
        some { penalized with row := penalizeSql world.row world.stamp }
      else none
  | .refuse index => some (world.setLimiter index { world.limiter index with refused := true })

/-- The ledger's row as it was created, the limiters as they were built. -/
structure Initial (world : World) : Prop where
  healthy : 1 ≤ world.row.penaltyFactor.value ∧ world.row.penaltyFactor.value ≤ 8
  built : ∀ index, ∃ base, world.limiter index = { pacer := { baseInterval := base, interval := base } }
  unleased : world.leases = []
  unscheduled : world.scheduled = []

/-- One politeness budget: windows do not meet, each slot lies in a window its limiter leased,
and two limiters' slots are a slot width of the earlier one's lease apart. -/
structure OneBudget (world : World) : Prop where
  disjoint : world.leases.Pairwise fun one other => one.finish ≤ other.start ∨ other.finish ≤ one.start
  inside : ∀ slot ∈ world.scheduled, ∃ lease ∈ world.leases,
    lease.limiter = slot.lease.limiter ∧ lease.start ≤ slot.at_.value ∧ slot.at_.value < lease.finish
  apart : ∀ one ∈ world.scheduled, ∀ other ∈ world.scheduled,
    one.lease.limiter ≠ other.lease.limiter → one.at_.value ≤ other.at_.value →
      one.lease.width.value ≤ other.at_.value - one.at_.value

/-- How late the limiter is at the pacing lock: the thread itself, or the slots before it. -/
def lag (world : World) (pacer : Pacer) (window : Spent) : ℚ :=
  max pacer.nextAt.value world.monotonic.value - window.nominal

/-- A slot is scheduled while its limiter's newest lease has room for it: what is late so far in
that lease is no longer than its slots that stay unscheduled, and its slots are no narrower. And
no rounding is against a lease: its slots are no longer than the microseconds the frontier moves
by, and a reply's wait does not end before its window starts. -/
def OnTime (settings : Nat → Settings) (world : World) : Action → Prop
  | .ask index =>
      let slots := slotsOf (settings index) (world.limiter index)
      let factor := world.row.penaltyFactor.cast binary64
      slots * (spanOf (settings index).intervalMs factor).value ≤
        seconds (makeInterval (spanOf (slots * (settings index).intervalMs) factor))
  | .answer index =>
      ∀ answered ∈ (world.limiter index).answering,
        answered.2.start ≤ (world.monotonic + answered.1.delay).value
  | .schedule index thread =>
      ∀ lease ∈ (world.limiter index).taken[thread]?, ∃ window ∈ (world.limiter index).window,
        lease.width.value ≤ window.lease.width.value ∧
          world.lag (world.limiter index).pacer window ≤
            ((window.lease.slots : ℚ) - 1 - window.used) * window.lease.width.value
  | _ => True

instance (settings : Nat → Settings) (world : World) (action : Action) :
    Decidable (world.OnTime settings action) := by
  unfold OnTime
  cases action <;> infer_instance

end World

end Sreality.Scraper
