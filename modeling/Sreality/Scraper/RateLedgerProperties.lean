import Mathlib.Data.List.Pairwise
import Sreality.Scraper.RateLedger
import Sreality.Scraper.RateRowProperties

/-! The windows of the ledger do not meet. The slots stay in them, and apart, while threads come
to the pacing lock on time: an unused slot does not expire, so a thread that idles past its
window is scheduled in another limiter's. -/

set_option autoImplicit false

namespace Sreality.Scraper

open Sreality.Foundation

namespace World

/-! ### The invariant -/

/-- What a limiter paces, and what it took, in terms of its leases. -/
structure Paced (leases : List Lease) (index : Nat) (limiter : Limiter) : Prop where
  window : ∀ window ∈ limiter.window, window.lease ∈ leases ∧ window.lease.limiter = index ∧
    limiter.pacer.baseInterval = window.lease.width ∧
    limiter.pacer.interval = window.lease.width ∧
    window.lease.start ≤ limiter.pacer.nextAt.value
  answering : ∀ answered ∈ limiter.answering, answered.2 ∈ leases ∧ answered.2.limiter = index ∧
    answered.1.slot = answered.2.width
  taken : ∀ lease ∈ limiter.taken, lease ∈ leases ∧ lease.limiter = index

structure Budgeted (world : World) : Prop where
  healthy : world.row.Bounded
  wide : ∀ lease ∈ world.leases, 0 < lease.width.value
  frontier : ∀ lease ∈ world.leases, lease.finish ≤ seconds world.row.nextSlotAt
  ordered : world.leases.Pairwise fun one other => one.finish ≤ other.start
  paced : ∀ index, Paced world.leases index (world.limiter index)
  slots : ∀ slot ∈ world.scheduled, slot.lease ∈ world.leases ∧ ∃ lease ∈ world.leases,
    lease.limiter = slot.lease.limiter ∧ lease.start ≤ slot.at_.value ∧
      slot.at_.value + slot.lease.width.value ≤ lease.finish

theorem seconds_le {one other : ℤ} (le : one ≤ other) : seconds one ≤ seconds other := by
  have cast : (one : ℚ) ≤ other := by exact_mod_cast le
  unfold seconds
  linarith

section Steps

variable {settings : Nat → Settings} {world after : World}

@[simp] theorem setLimiter_self (index : Nat) (limiter : Limiter) :
    (world.setLimiter index limiter).limiter index = limiter := if_pos rfl

theorem setLimiter_other {index other : Nat} (differ : other ≠ index) (limiter : Limiter) :
    (world.setLimiter index limiter).limiter other = world.limiter other := if_neg differ

/-- Only what the pacer reads matters to it: its window, the answer it waits for, its threads. -/
theorem Paced.congr {leases : List Lease} {index : Nat} {limiter other : Limiter}
    (paced : Paced leases index limiter) (pacer : other.pacer = limiter.pacer)
    (window : other.window = limiter.window) (answering : other.answering = limiter.answering)
    (taken : ∀ lease ∈ other.taken, lease ∈ limiter.taken) :
    Paced leases index other := by
  constructor
  · rw [window, pacer]
    exact paced.window
  · rw [answering]
    exact paced.answering
  · exact fun lease held => paced.taken lease (taken lease held)

/-- More leases keep a pacer as it was. -/
theorem Paced.later {leases more : List Lease} {index : Nat} {limiter : Limiter}
    (paced : Paced leases index limiter) (listed : ∀ lease ∈ leases, lease ∈ more) :
    Paced more index limiter := by
  constructor
  · intro window held
    obtain ⟨known, rest⟩ := paced.window window held
    exact ⟨listed _ known, rest⟩
  · intro answered held
    obtain ⟨known, rest⟩ := paced.answering answered held
    exact ⟨listed _ known, rest⟩
  · intro lease held
    obtain ⟨known, own⟩ := paced.taken lease held
    exact ⟨listed _ known, own⟩

/-- A step that changes one limiter, neither row nor leases. -/
theorem Budgeted.setLimiter (budgeted : world.Budgeted) {index : Nat} {limiter : Limiter}
    (paced : Paced world.leases index limiter) :
    (world.setLimiter index limiter).Budgeted where
  healthy := budgeted.healthy
  wide := budgeted.wide
  frontier := budgeted.frontier
  ordered := budgeted.ordered
  paced := by
    intro other
    by_cases same : other = index
    · subst same
      rw [setLimiter_self]
      exact paced
    · rw [setLimiter_other same]
      exact budgeted.paced other
  slots := budgeted.slots

theorem Budgeted.tick (budgeted : world.Budgeted) (seconds : ℚ) :
    Budgeted { world with now := world.now + seconds } where
  healthy := budgeted.healthy
  wide := budgeted.wide
  frontier := budgeted.frontier
  ordered := budgeted.ordered
  paced := budgeted.paced
  slots := budgeted.slots

/-- A penalty pushes the frontier on. -/
theorem Budgeted.penalize (budgeted : world.Budgeted) :
    Budgeted { world with row := penalizeSql world.row world.stamp } where
  healthy := penalizeSql_bounded budgeted.healthy world.stamp
  wide := budgeted.wide
  frontier := by
    intro lease held
    have ahead := (penalizeSql_frontier budgeted.healthy world.stamp).1
    exact (budgeted.frontier lease held).trans (seconds_le ((le_max_left _ _).trans ahead))
  ordered := budgeted.ordered
  paced := budgeted.paced
  slots := budgeted.slots

/-- The lease statement, granted: its window starts at the frontier and ends at the next. -/
theorem Budgeted.ask (budgeted : world.Budgeted) {index slots intervalMs : Nat}
    (spaced : 1 ≤ intervalMs) {row : RateRow} {answer : LeaseAnswer}
    (leased : Leased world.row world.stamp slots intervalMs row answer)
    (granted : answer.granted = true)
    (room : slots * answer.slot.value ≤ seconds (makeInterval
      (spanOf (slots * intervalMs) (world.row.penaltyFactor.cast binary64)))) {lease : Lease}
    (own : lease.limiter = index)
    (start : lease.start = seconds (max world.row.nextSlotAt world.stamp))
    (width : lease.width = answer.slot) (count : lease.slots = slots) :
    Budgeted
      { world.setLimiter index { world.limiter index with answering := some (answer, lease) } with
        row := row
        leases := world.leases ++ [lease] } := by
  have wide : 0 < lease.width.value := by
    rw [width, leased.slot]
    exact spanOf_pos spaced leased.few (widened_bounded budgeted.healthy).1
  have behind : seconds world.row.nextSlotAt ≤ lease.start := by
    rw [start]
    exact seconds_le (le_max_left _ _)
  have finish : lease.finish ≤ seconds row.nextSlotAt := by
    have moved : seconds row.nextSlotAt = lease.start + seconds (makeInterval
        (spanOf (slots * intervalMs) (world.row.penaltyFactor.cast binary64))) := by
      rw [leased.frontier granted, start]
      unfold seconds
      push_cast
      ring
    unfold Lease.finish
    rw [moved, count, width]
    linarith
  constructor
  · exact leased.bounded budgeted.healthy
  · intro other held
    rcases List.mem_append.mp held with held | held
    · exact budgeted.wide other held
    · cases List.mem_singleton.mp held
      exact wide
  · intro other held
    rcases List.mem_append.mp held with held | held
    · exact (budgeted.frontier other held).trans
        (seconds_le (leased.frontier_le budgeted.healthy))
    · cases List.mem_singleton.mp held
      exact finish
  · refine List.pairwise_append.mpr ⟨budgeted.ordered, List.pairwise_singleton _ _, ?_⟩
    intro one earlier other new
    cases List.mem_singleton.mp new
    exact (budgeted.frontier one earlier).trans behind
  · intro other
    have listed : ∀ held ∈ world.leases, held ∈ world.leases ++ [lease] :=
      fun held known => List.mem_append_left _ known
    have before := (budgeted.paced other).later listed
    by_cases same : other = index
    · subst same
      change Paced (world.leases ++ [lease]) other ((world.setLimiter other _).limiter other)
      rw [setLimiter_self]
      refine ⟨before.window, ?_, before.taken⟩
      intro answered held
      cases held
      exact ⟨List.mem_append_right _ List.mem_cons_self, own, width.symm⟩
    · change Paced (world.leases ++ [lease]) other ((world.setLimiter index _).limiter other)
      rw [setLimiter_other same]
      exact before
  · intro slot held
    obtain ⟨from_, inside, known, rest⟩ := budgeted.slots slot held
    exact ⟨List.mem_append_left _ from_, inside, List.mem_append_left _ known, rest⟩

/-- A slot taken is one of the lease the limiter paces. -/
theorem Paced.take {leases : List Lease} {index : Nat} {limiter : Limiter}
    (paced : Paced leases index limiter) {window : Spent}
    (current : limiter.window = some window) (left : Nat) :
    Paced leases index
      { limiter with slotsLeft := left, taken := limiter.taken ++ [window.lease] } := by
  obtain ⟨listed, own, _⟩ := paced.window window current
  constructor
  · exact paced.window
  · exact paced.answering
  · intro lease held
    cases List.mem_append.mp held with
    | inl before => exact paced.taken lease before
    | inr new =>
        cases List.mem_singleton.mp new
        exact ⟨listed, own⟩

/-- The reply re-aims the pacer at its window. -/
theorem Paced.answer {leases : List Lease} {index : Nat} {limiter : Limiter}
    (paced : Paced leases index limiter) {answer : LeaseAnswer} {lease : Lease}
    (answering : limiter.answering = some (answer, lease)) {notBefore : Float64}
    (start : lease.start ≤ notBefore.value) (owed left : Nat) :
    Paced leases index
      { limiter with
        pacer := limiter.pacer.reschedule answer.slot notBefore
        singleLeasesOwed := owed
        slotsLeft := left
        answering := none
        taken := limiter.taken ++ [lease]
        window := some { lease := lease, used := 0 } } := by
  obtain ⟨listed, own, slot⟩ := paced.answering _ answering
  have aimed : notBefore.value ≤ (limiter.pacer.reschedule answer.slot notBefore).nextAt.value := by
    unfold Pacer.reschedule
    dsimp only
    split_ifs with ahead
    · exact le_refl _
    · exact not_lt.mp ahead
  constructor
  · intro window held
    cases held
    exact ⟨listed, own, slot, slot, start.trans aimed⟩
  · intro answered held
    cases held
  · intro other held
    cases List.mem_append.mp held with
    | inl before => exact paced.taken other before
    | inr new =>
        cases List.mem_singleton.mp new
        exact ⟨listed, own⟩

/-- A slot paced on time: it starts a slot width before the window's end at the latest. -/
theorem Paced.schedule {leases : List Lease} {index : Nat} (now : Float64)
    (paced : Paced leases index (world.limiter index))
    (wide : ∀ lease ∈ leases, 0 < lease.width.value) (monotonic : world.monotonic = now)
    {window : Spent} (current : (world.limiter index).window = some window)
    (onTime : world.lag (world.limiter index).pacer window ≤
      ((window.lease.slots : ℚ) - 1 - window.used) * window.lease.width.value) (thread : Nat) :
    (window.lease ∈ leases ∧ window.lease.limiter = index ∧
      window.lease.start ≤ ((world.limiter index).pacer.acquire now).1.value ∧
      ((world.limiter index).pacer.acquire now).1.value + window.lease.width.value ≤
        window.lease.finish) ∧
    Paced leases index
      { world.limiter index with
        pacer := ((world.limiter index).pacer.acquire now).2
        taken := (world.limiter index).taken.eraseIdx thread
        window := some { window with used := window.used + 1 } } := by
  obtain ⟨listed, own, base, interval, next⟩ := paced.window window current
  have width := wide _ listed
  have slot : ((world.limiter index).pacer.acquire now).1.value =
      max (world.limiter index).pacer.nextAt.value now.value := by
    rw [max_comm]
    exact Binary.value_max _ _
  have starts : window.lease.start ≤ ((world.limiter index).pacer.acquire now).1.value := by
    rw [slot]
    exact next.trans (le_max_left _ _)
  have spaced : ((world.limiter index).pacer.acquire now).2.interval = window.lease.width := by
    change (if (world.limiter index).pacer.baseInterval.value <
      (world.limiter index).pacer.interval.value then _ else _) = _
    rw [base, interval, if_neg (lt_irrefl _)]
  -- Rounded or not, the next slot is not before this one.
  have onward : ((world.limiter index).pacer.acquire now).1.value ≤
      ((world.limiter index).pacer.acquire now).2.nextAt.value := by
    have later : ((world.limiter index).pacer.acquire now).1.value ≤
        ((world.limiter index).pacer.acquire now).1.value +
          (world.limiter index).pacer.interval.value := by
      rw [interval]
      linarith
    have rounded := BinaryFormat.round_mono binary64 later
    rwa [Binary.exact] at rounded
  refine ⟨⟨listed, own, starts, ?_⟩, ?_, paced.answering, ?_⟩
  · rw [slot]
    unfold lag Spent.nominal at onTime
    rw [monotonic] at onTime
    unfold Lease.finish
    linarith
  · intro other held
    cases held
    exact ⟨listed, own, base, spaced, starts.trans onward⟩
  · intro lease held
    exact paced.taken lease (List.mem_of_mem_eraseIdx held)

/-- A slot scheduled in a window of its limiter, no wider than the slots there. -/
theorem Budgeted.schedule (budgeted : world.Budgeted) {index : Nat} {limiter : Limiter}
    {slot : Slot} {lease : Lease} (from_ : slot.lease ∈ world.leases) (listed : lease ∈ world.leases)
    (own : lease.limiter = slot.lease.limiter) (starts : lease.start ≤ slot.at_.value)
    (ends : slot.at_.value + slot.lease.width.value ≤ lease.finish)
    (paced : Paced world.leases index limiter) :
    Budgeted { world.setLimiter index limiter with scheduled := world.scheduled ++ [slot] } := by
  have set := budgeted.setLimiter paced
  constructor
  · exact set.healthy
  · exact set.wide
  · exact set.frontier
  · exact set.ordered
  · exact set.paced
  · intro other held
    cases List.mem_append.mp held with
    | inl before => exact budgeted.slots other before
    | inr new =>
        cases List.mem_singleton.mp new
        exact ⟨from_, lease, listed, own, starts, ends⟩

/-- Each step keeps the budget while its action is on time. -/
theorem Budgeted.step (budgeted : world.Budgeted) {action : Action}
    (onTime : world.OnTime settings action) (taken : World.step settings world action = some after) :
    after.Budgeted := by
  cases action with
  | tick seconds =>
      dsimp only [World.step] at taken
      split_ifs at taken
      cases taken
      exact budgeted.tick seconds
  | take index =>
      dsimp only [World.step] at taken
      split at taken
      · rename_i left window _ current
        split_ifs at taken
        cases taken
        exact budgeted.setLimiter ((budgeted.paced index).take current left)
      · cases taken
  | ask index =>
      dsimp only [World.step] at taken
      split_ifs at taken
      obtain ⟨leased, done, rest⟩ := Option.map_eq_some_iff.mp taken
      obtain ⟨row, answer⟩ := leased
      have spec := leaseSql_spec done
      cases granted : answer.granted with
      | true =>
          rw [if_pos granted] at rest
          cases rest
          dsimp only [World.OnTime] at onTime
          rw [← spec.slot] at onTime
          exact budgeted.ask (settings index).spaced spec granted onTime rfl rfl rfl rfl
      | false =>
          rw [if_neg (Bool.eq_false_iff.mp granted)] at rest
          cases rest
          exact budgeted.setLimiter ((budgeted.paced index).congr rfl rfl rfl fun _ held => held)
  | answer index =>
      dsimp only [World.step] at taken
      cases answering : (world.limiter index).answering with
      | none =>
          rw [answering] at taken
          cases taken
      | some answered =>
          obtain ⟨answer, lease⟩ := answered
          rw [answering] at taken
          cases taken
          have paced := (budgeted.paced index).answer answering (onTime _ answering)
            ((world.limiter index).singleLeasesOwed - 1) (lease.slots - 1)
          exact budgeted.setLimiter paced
  | schedule index thread =>
      dsimp only [World.step] at taken
      cases waiting : (world.limiter index).taken[thread]? with
      | none =>
          rw [waiting] at taken
          cases taken
      | some lease =>
          obtain ⟨window, current, width, late⟩ := onTime lease waiting
          rw [waiting, current] at taken
          cases taken
          obtain ⟨from_, mine⟩ := (budgeted.paced index).taken lease
            (List.mem_of_getElem? waiting)
          obtain ⟨⟨listed, own, starts, ends⟩, paced⟩ :=
            (budgeted.paced index).schedule world.monotonic budgeted.wide rfl current late thread
          exact budgeted.schedule from_ listed (own.trans mine.symm) starts (by linarith) paced
  | abandon index thread =>
      dsimp only [World.step] at taken
      cases waiting : (world.limiter index).taken[thread]? with
      | none =>
          rw [waiting] at taken
          cases taken
      | some lease =>
          rw [waiting] at taken
          cases taken
          exact budgeted.setLimiter ((budgeted.paced index).congr rfl rfl rfl
            fun _ held => List.mem_of_mem_eraseIdx held)
  | penalize index =>
      dsimp only [World.step] at taken
      split_ifs at taken
      cases taken
      have reset : (world.setLimiter index
          { world.limiter index with
            slotsLeft := 0
            singleLeasesOwed := min ((world.limiter index).singleLeasesOwed + 1)
              (settings index).leaseN }).Budgeted :=
        budgeted.setLimiter ((budgeted.paced index).congr rfl rfl rfl fun _ held => held)
      exact reset.penalize
  | refuse index =>
      cases taken
      exact budgeted.setLimiter ((budgeted.paced index).congr rfl rfl rfl fun _ held => held)

theorem Initial.budgeted (initial : world.Initial) : world.Budgeted where
  healthy := initial.healthy
  wide := by simp [initial.unleased]
  frontier := by simp [initial.unleased]
  ordered := by simp [initial.unleased]
  paced := by
    intro index
    obtain ⟨base, built⟩ := initial.built index
    rw [built]
    constructor
    · intro window held
      cases held
    · intro answered held
      cases held
    · intro lease held
      cases held
  slots := by simp [initial.unscheduled]

/-- Slots that end in their windows share one budget, since the windows do not meet. -/
theorem Budgeted.oneBudget (budgeted : world.Budgeted) : world.OneBudget where
  disjoint := budgeted.ordered.imp .inl
  inside := by
    intro slot held
    obtain ⟨from_, lease, listed, own, starts, ends⟩ := budgeted.slots slot held
    have width := budgeted.wide _ from_
    exact ⟨lease, listed, own, starts, by linarith⟩
  apart := by
    intro one oneHeld other otherHeld differ before
    obtain ⟨_, first, firstListed, firstOwn, firstStarts, firstEnds⟩ := budgeted.slots one oneHeld
    obtain ⟨from_, second, secondListed, secondOwn, secondStarts, secondEnds⟩ :=
      budgeted.slots other otherHeld
    have width := budgeted.wide _ from_
    have distinct : first ≠ second := by
      intro same
      apply differ
      rw [← firstOwn, same, secondOwn]
    have either : Std.Symm fun one other : Lease =>
        one.finish ≤ other.start ∨ other.finish ≤ one.start := ⟨fun _ _ apart => apart.symm⟩
    have sides := (budgeted.ordered.imp .inl : world.leases.Pairwise fun one other =>
      one.finish ≤ other.start ∨ other.finish ≤ one.start)
    cases sides.forall firstListed secondListed distinct with
    | inl ahead => linarith
    | inr behind => linarith

end Steps

/-- Two runtimes on one source, two slots a lease, one slot a second. -/
def pairs : Nat → Settings := fun _ =>
  { leaseN := 2, intervalMs := 1000, leases := by decide, spaced := by decide }

def newSource : World where
  now := 0
  row :=
    { nextSlotAt := 0, intervalMs := 1000, penaltyFactor := .ofRat _ 1
      stored := second_le_int4Max }
  limiter := fun _ => { pacer := { baseInterval := .ofRat _ 1, interval := .ofRat _ 1 } }
  leases := []
  scheduled := []

theorem newSource_initial : newSource.Initial where
  healthy := by decide +kernel
  built := fun _ => ⟨.ofRat _ 1, rfl⟩
  unleased := rfl
  unscheduled := rfl

/-- Each runtime schedules both slots of its lease, the first after one of them was penalized. -/
def brisk : List Action :=
  [.ask 0, .answer 0, .ask 1, .schedule 0 0, .answer 1, .take 0, .schedule 1 0, .schedule 0 0,
    .tick 1, .penalize 1, .ask 1, .answer 1, .schedule 1 0]

/-- The first runtime keeps a slot until the second leased the seconds it is scheduled in. -/
def idle : List Action :=
  [.ask 0, .answer 0, .schedule 0 0, .tick 10, .ask 1, .answer 1, .schedule 1 0, .take 0,
    .schedule 0 0]

end World

end Sreality.Scraper
