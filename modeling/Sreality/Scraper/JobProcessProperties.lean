import Sreality.Scraper.JobProcess

/-! One child in the guard's hands: what a pass makes of its record and which signals it is sent. -/

set_option autoImplicit false

namespace Sreality.Scraper.JobProcess

open Sreality.Foundation

/-- The record the guard keeps of a child agrees with itself. -/
structure Watch.Steady (watch : Watch) : Prop where
  calm : watch.reason = none → watch.killAt = none ∧ watch.killed = false
  timed : watch.reason ≠ none → watch.killed = false → watch.killAt ≠ none

/-- What a pass makes of a child's record, and the signals it sends. -/
structure Watch.Passed (watch later : Watch) (signals : List Signal) (graceS now : ℚ)
    (stopAt : Option ℚ) (pid : Nat) : Prop where
  steady : later.Steady
  fenceAt : later.fenceAt = watch.fenceAt
  termAt : later.termAt = watch.termAt
  own : ∀ signal ∈ signals, signal.pid = pid
  /-- A SIGTERM is sent first, to a child that was not stopped before. -/
  first : ∀ before after, signals = before ++ .term pid :: after →
    before = [] ∧ watch.reason = none
  kills : later.killed = true → watch.killed = true ∨ .kill pid ∈ signals
  keeps : ∀ cause, watch.reason = some cause → later.reason = some cause
  /-- A child not stopped has been sent nothing, and nothing was due. -/
  calm : later.reason = none → watch.reason = none ∧ signals = [] ∧ stopAt = none ∧
    now < watch.termAt
  /-- A child stopped now is sent its SIGTERM, or its group is killed. -/
  stopped : watch.reason = none → later.reason ≠ none → .kill pid ∈ signals ∨ .term pid ∈ signals
  early : watch.killed = false → .kill pid ∉ signals → now < watch.fenceAt
  grace : watch.killed = false → .kill pid ∉ signals → ∀ kill ∈ later.killAt, now < kill ∧
    (watch.killAt = some kill ∨ watch.reason = none ∧ kill = stopAt.getD now + graceS)

namespace Watch

variable {watch : Watch} {graceS now : ℚ} {stopAt : Option ℚ} {mb : Option ℤ} {pid : Nat}

theorem sampled_eq : ∃ peak, watch.sampled mb = { watch with peakMb := peak } := by
  unfold sampled
  cases mb with
  | none => exact ⟨watch.peakMb, rfl⟩
  | some mb =>
      dsimp only
      split_ifs
      · exact ⟨watch.peakMb, rfl⟩
      · exact ⟨_, rfl⟩

/-- A child that was not stopped before is, or nothing was due. -/
theorem termed_cases :
    (watch.termed graceS now stopAt pid = (watch, []) ∧
        (watch.reason = none → stopAt = none ∧ now < watch.termAt)) ∨
      (watch.reason = none ∧ ∃ cause, watch.termed graceS now stopAt pid =
        ({ watch with reason := some cause, killAt := some (stopAt.getD now + graceS) },
          [.term pid])) := by
  unfold termed
  cases reason : watch.reason with
  | some cause => exact .inl ⟨rfl, fun none_ => by cases none_⟩
  | none =>
      cases stopAt with
      | some since => exact .inr ⟨rfl, .deploy, rfl⟩
      | none =>
          dsimp only
          split_ifs with due
          · exact .inr ⟨rfl, .timeout, rfl⟩
          · exact .inl ⟨rfl, fun _ => ⟨rfl, not_le.mp due⟩⟩

/-- The fence passed: the group is killed at once. -/
theorem passed_fence (peak : Option ℤ) :
    watch.Passed { ({ watch with peakMb := peak } : Watch).because .fence with killed := true }
      [.kill pid] graceS now stopAt pid := by
  have caused : (watch.reason.or (some Stop.fence)) ≠ none := by cases watch.reason <;> simp
  refine ⟨⟨fun none_ => absurd none_ caused, fun _ alive => by cases alive⟩, rfl, rfl, ?_, ?_, ?_,
    ?_, fun none_ => absurd none_ caused, fun _ _ => .inl (List.mem_singleton_self _), ?_, ?_⟩
  · intro signal sent
    cases List.mem_singleton.mp sent
    rfl
  · intro before after split
    cases before with
    | nil => cases split
    | cons head rest =>
        obtain ⟨_, none_⟩ := List.cons.inj split
        cases rest <;> cases none_
  · intro _
    exact .inr (List.mem_singleton_self _)
  · intro cause named
    simp [because, named]
  · intro _ unkilled
    exact absurd (List.mem_singleton_self _) unkilled
  · intro _ unkilled
    exact absurd (List.mem_singleton_self _) unkilled

/-- The grace of a stopped child ends, or goes on. -/
theorem passed_graced {turned : Watch} {first : List Signal} (steady : turned.Steady)
    (fence : watch.killed = false → now < watch.fenceAt) (fenceAt : turned.fenceAt = watch.fenceAt)
    (termAt : turned.termAt = watch.termAt) (killed : turned.killed = watch.killed)
    (sent : first = [] ∨ first = [.term pid] ∧ watch.reason = none)
    (keeps : ∀ cause, watch.reason = some cause → turned.reason = some cause)
    (calm : turned.reason = none → watch.reason = none ∧ first = [] ∧ stopAt = none ∧
      now < watch.termAt)
    (told : watch.reason = none → turned.reason ≠ none → .term pid ∈ first)
    (grace : ∀ kill ∈ turned.killAt, watch.killAt = some kill ∨ watch.reason = none ∧
      kill = stopAt.getD now + graceS) :
    watch.Passed (turned.graced now pid).1 (first ++ (turned.graced now pid).2) graceS now stopAt
      pid := by
  have terms : ∀ signal ∈ first, signal.pid = pid := by
    intro signal listed
    obtain rfl | ⟨rfl, _⟩ := sent
    · cases listed
    · cases List.mem_singleton.mp listed
      rfl
  have termFirst : ∀ rest before after, first ++ rest = before ++ .term pid :: after →
      .term pid ∉ rest → before = [] ∧ watch.reason = none := by
    intro rest before after split unsent
    obtain rfl | ⟨rfl, reason⟩ := sent
    · rw [List.nil_append] at split
      exact absurd (split ▸ List.mem_append_right _ List.mem_cons_self) unsent
    · cases before with
      | nil => exact ⟨rfl, reason⟩
      | cons head more =>
          obtain ⟨_, onward⟩ := List.cons.inj split
          have same : rest = more ++ .term pid :: after := onward
          exact absurd (same ▸ List.mem_append_right _ List.mem_cons_self) unsent
  have unkilledFirst : .kill pid ∉ first := by
    intro listed
    obtain rfl | ⟨rfl, _⟩ := sent
    · cases listed
    · cases List.mem_singleton.mp listed
  unfold graced
  split_ifs with due
  · have stopped : turned.reason ≠ none := by
      intro none_
      rw [(steady.calm none_).1] at due
      cases due.2
    have killing : .kill pid ∈ first ++ [.kill pid] :=
      List.mem_append_right _ (List.mem_singleton_self _)
    refine ⟨⟨fun none_ => absurd none_ stopped, fun _ alive => by cases alive⟩, fenceAt, termAt, ?_,
      ?_, fun _ => .inr killing, keeps, fun none_ => absurd none_ stopped,
      fun _ _ => .inl killing, fun _ unkilled => absurd killing unkilled, fun _ unkilled => absurd killing unkilled⟩
    · intro signal listed
      obtain early | last := List.mem_append.mp listed
      · exact terms signal early
      · cases List.mem_singleton.mp last
        rfl
    · intro before after split
      exact termFirst _ before after split (by simp)
  · rw [List.append_nil]
    refine ⟨steady, fenceAt, termAt, terms, ?_, fun dead => .inl (killed ▸ dead), keeps, calm,
      fun before now => .inr (told before now), fun alive _ => fence alive, fun alive _ kill named => ⟨?_, grace kill named⟩⟩
    · intro before after split
      exact termFirst [] before after ((List.append_nil _).trans split) (by simp)
    · by_contra late
      refine due ⟨killed.trans alive, ?_⟩
      rw [Option.mem_def.mp named]
      exact decide_eq_true (not_lt.mp late)

theorem pass_passed (steady : watch.Steady) :
    watch.Passed (watch.pass graceS now stopAt mb pid).1 (watch.pass graceS now stopAt mb pid).2
      graceS now stopAt pid := by
  obtain ⟨peak, same⟩ := @sampled_eq watch mb
  unfold pass
  rw [same]
  dsimp only
  by_cases fenced : watch.killed = false ∧ watch.fenceAt ≤ now
  · rw [if_pos fenced]
    exact passed_fence peak
  · rw [if_neg fenced]
    have fence : watch.killed = false → now < watch.fenceAt := by
      intro alive
      exact not_le.mp fun late => fenced ⟨alive, late⟩
    obtain ⟨unturned, calm⟩ | ⟨reason, cause, turned⟩ :=
      @termed_cases { watch with peakMb := peak } graceS now stopAt pid
    · rw [unturned]
      refine passed_graced ⟨steady.calm, steady.timed⟩ fence rfl rfl rfl (.inl rfl)
        (fun _ named => named) (fun none_ => ⟨none_, rfl, calm none_⟩)
        (fun before now => absurd before now) (fun kill due => .inl due)
    · rw [turned]
      refine passed_graced ⟨fun none_ => (by cases none_), fun _ _ => by simp⟩ fence rfl rfl rfl
        (.inr ⟨rfl, reason⟩) (fun cause named => by cases reason.symm.trans named)
        (fun none_ => by cases none_) (fun _ _ => List.mem_singleton_self _) (fun kill due => ?_)
      cases due
      exact .inr ⟨reason, rfl⟩

/-- The record a refused renewal leaves. -/
def fenced (watch : Watch) : Watch :=
  if watch.killed then watch else { watch.because .fence with killed := true }

theorem Steady.fenced (steady : watch.Steady) :
    watch.fenced.Steady ∧ watch.fenced.reason ≠ none := by
  unfold Watch.fenced
  split_ifs with killed
  · refine ⟨steady, fun none_ => ?_⟩
    rw [(steady.calm none_).2] at killed
    cases killed
  · have caused : (watch.reason.or (some Stop.fence)) ≠ none := by cases watch.reason <;> simp
    exact ⟨⟨fun none_ => absurd none_ caused, fun _ alive => by cases alive⟩, caused⟩

theorem fenced_else : watch.fenced.termAt = watch.termAt := by
  unfold fenced
  split_ifs <;> rfl

end Watch

/-- The signals sent to one child. -/
def sentTo (signals : List Signal) (pid : Nat) : List Signal :=
  signals.filter fun signal => decide (signal.pid = pid)

theorem kill_mem_sentTo {signals : List Signal} {pid : Nat} :
    .kill pid ∈ sentTo signals pid ↔ .kill pid ∈ signals := by
  simp [sentTo, Signal.pid]

theorem sentTo_append (signals more : List Signal) (pid : Nat) :
    sentTo (signals ++ more) pid = sentTo signals pid ++ sentTo more pid :=
  List.filter_append signals more

theorem sentTo_own {signals : List Signal} {pid : Nat}
    (own : ∀ signal ∈ signals, signal.pid = pid) : sentTo signals pid = signals :=
  List.filter_eq_self.mpr fun signal sent => decide_eq_true (own signal sent)

theorem sentTo_other {signals : List Signal} {pid other : Nat} (apart : other ≠ pid)
    (own : ∀ signal ∈ signals, signal.pid = pid) : sentTo signals other = [] := by
  apply List.filter_eq_nil_iff.mpr
  intro signal sent same
  exact apart ((of_decide_eq_true same).symm.trans (own signal sent))

namespace Guard

variable {guard : Guard} {now : ℚ} {stopping : Bool} {samples : Dict Nat ℤ} {pid : Nat}

/-- When the stop was seen, this pass included. -/
def stopSeen (guard : Guard) (now : ℚ) (stopping : Bool) : Option ℚ :=
  guard.stopAt.or (if stopping then some now else none)

theorem stopSeen_cases {since : ℚ} (stop : guard.stopSeen now stopping = some since) :
    guard.stopAt = some since ∨ guard.stopAt = none ∧ since = now := by
  unfold stopSeen at stop
  cases before : guard.stopAt with
  | some seen =>
      rw [before] at stop
      exact .inl stop
  | none =>
      rw [before, Option.none_or] at stop
      split_ifs at stop
      exact .inr ⟨rfl, (Option.some.inj stop).symm⟩

/-- A child's turn in a pass. -/
def turn (guard : Guard) (now : ℚ) (stopping : Bool) (samples : Dict Nat ℤ) (pid : Nat)
    (watch : Watch) : Watch × List Signal :=
  watch.pass guard.graceS now (guard.stopSeen now stopping) (samples.lookup pid) pid

theorem pass_watches : (guard.pass now stopping samples).1.watches =
    guard.watches.map fun row => (row.1, (guard.turn now stopping samples row.1 row.2).1) := by
  unfold pass
  dsimp only
  rw [List.map_map]
  rfl

theorem lookup_pass : (guard.pass now stopping samples).1.watches.lookup pid =
    (guard.watches.lookup pid).map fun watch => (guard.turn now stopping samples pid watch).1 := by
  rw [pass_watches]
  exact Dict.lookup_map guard.watches
    (fun pid watch => (guard.turn now stopping samples pid watch).1) pid

theorem keyed_pass (keyed : Keyed Prod.fst guard.watches) :
    Keyed Prod.fst (guard.pass now stopping samples).1.watches := by
  unfold Keyed
  rw [pass_watches, List.map_map]
  exact keyed

theorem pass_signals : (guard.pass now stopping samples).2 =
    guard.watches.flatMap fun row => (guard.turn now stopping samples row.1 row.2).2 := by
  unfold pass
  dsimp only
  rw [List.flatMap_map]
  rfl

/-- A pass sends a child the signals of its own turn. -/
theorem sentTo_pass (keyed : Keyed Prod.fst guard.watches)
    (steady : ∀ row ∈ guard.watches, row.2.Steady) :
    sentTo (guard.pass now stopping samples).2 pid = (guard.watches.lookup pid).elim [] fun watch =>
      (guard.turn now stopping samples pid watch).2 := by
  rw [pass_signals]
  generalize guard.watches = rows at keyed steady
  induction rows with
  | nil => rfl
  | cons row rest ih =>
      obtain ⟨fresh, later⟩ := List.nodup_cons.mp keyed
      have own : ∀ signal ∈ (guard.turn now stopping samples row.1 row.2).2,
          signal.pid = row.1 := (Watch.pass_passed (steady row List.mem_cons_self)).own
      have onward := ih later fun other listed => steady other (List.mem_cons_of_mem _ listed)
      rw [List.flatMap_cons, sentTo_append, onward, List.lookup_cons]
      by_cases here : pid = row.1
      · subst here
        have absent : rest.lookup row.1 = none := lookup_eq_none_iff_key.mpr fresh
        rw [sentTo_own own, absent, beq_self_eq_true]
        exact List.append_nil _
      · rw [sentTo_other here own, beq_false_of_ne here]
        rfl

theorem lookup_move {fenceAt : ℚ} (other : Nat) : (guard.move pid fenceAt).watches.lookup other =
    if other = pid then
      (guard.watches.lookup pid).map fun watch => { watch with fenceAt := fenceAt }
    else guard.watches.lookup other := by
  unfold move
  cases found : guard.watches.lookup pid with
  | none =>
      by_cases own : other = pid
      · subst own
        exact found.trans (if_pos rfl).symm
      · exact (if_neg own).symm
  | some watch => exact Dict.lookup_update _ _ _ fun _ => _

theorem move_else {fenceAt : ℚ} : (guard.move pid fenceAt).stopAt = guard.stopAt ∧
    (guard.move pid fenceAt).graceS = guard.graceS ∧
      (Keyed Prod.fst guard.watches → Keyed Prod.fst (guard.move pid fenceAt).watches) := by
  unfold move
  cases guard.watches.lookup pid with
  | none => exact ⟨rfl, rfl, fun keyed => keyed⟩
  | some watch => exact ⟨rfl, rfl, fun keyed => Dict.keyed_update keyed pid fun _ => _⟩

theorem lookup_fenceNow (other : Nat) : (guard.fenceNow pid).1.watches.lookup other =
    if other = pid then (guard.watches.lookup pid).map Watch.fenced
    else guard.watches.lookup other := by
  unfold fenceNow
  cases found : guard.watches.lookup pid with
  | none =>
      by_cases own : other = pid
      · subst own
        exact found.trans (if_pos rfl).symm
      · exact (if_neg own).symm
  | some watch =>
      dsimp only
      split_ifs with killed own own
      · subst own
        refine found.trans (congrArg some ?_)
        rw [Watch.fenced, if_pos killed]
      · rfl
      · refine (Dict.lookup_update _ _ _ fun _ => _).trans ((if_pos own).trans ?_)
        refine congrArg some ?_
        rw [Watch.fenced, if_neg killed]
      · exact (Dict.lookup_update _ _ _ fun _ => _).trans (if_neg own)

theorem fenceNow_else : (guard.fenceNow pid).1.stopAt = guard.stopAt ∧
    (guard.fenceNow pid).1.graceS = guard.graceS ∧
      (Keyed Prod.fst guard.watches → Keyed Prod.fst (guard.fenceNow pid).1.watches) := by
  unfold fenceNow
  cases guard.watches.lookup pid with
  | none => exact ⟨rfl, rfl, fun keyed => keyed⟩
  | some watch =>
      dsimp only
      split_ifs
      · exact ⟨rfl, rfl, fun keyed => keyed⟩
      · exact ⟨rfl, rfl, fun keyed => Dict.keyed_update keyed pid fun _ => _⟩

/-- A refused renewal kills the child's group, unless that was done or the child is not watched. -/
theorem fenceNow_signals : (guard.fenceNow pid).2 =
    if (guard.watches.lookup pid).any (fun watch => !watch.killed) then [.kill pid] else [] := by
  unfold fenceNow
  cases guard.watches.lookup pid with
  | none => rfl
  | some watch =>
      cases killed : watch.killed with
      | false => simp [killed]
      | true => simp [killed]

end Guard

end Sreality.Scraper.JobProcess
