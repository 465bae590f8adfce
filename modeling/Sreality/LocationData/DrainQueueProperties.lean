import Sreality.LocationData.DrainQueue

/-! The queue loses no evidence: whatever transactions of claim writers, sweep windows and drain
batches do in between, a listing without a queue row is answered from its current claims. -/

set_option autoImplicit false

namespace Sreality.LocationData.DrainQueue

open Sreality.Foundation

variable {Claim Answer : Type}

/-! ### What the statements do to the queue -/

section Queue

variable {dirty : List DirtyRow} {began : ℚ}

theorem has_updateRows (applies : DirtyRow → Bool) (change : DirtyRow → DirtyRow)
    (keeps : ∀ row, (change row).listingId = row.listingId) {row : DirtyRow} (held : row ∈ dirty) :
    ∃ later ∈ updateRows applies change dirty, later.listingId = row.listingId := by
  refine ⟨_, mem_updateRows.mpr ⟨row, held, rfl⟩, ?_⟩
  split_ifs
  · exact keeps row
  · rfl

theorem kept_updateRows {applies : DirtyRow → Bool} {change : DirtyRow → DirtyRow}
    {row : DirtyRow} (held : row ∈ dirty) (skipped : applies row = false) :
    row ∈ updateRows applies change dirty := by
  apply mem_updateRows.mpr
  refine ⟨row, held, ?_⟩
  rw [skipped]
  rfl

theorem absent_of_any {listingId : Nat}
    (none_ : ¬ (dirty.any fun row => decide (row.listingId = listingId)) = true) :
    ∀ row ∈ dirty, row.listingId ≠ listingId := by
  intro row held same
  exact none_ (List.any_eq_true.mpr ⟨row, held, decide_eq_true same⟩)

variable {change : Change Claim}

theorem keyed_bump (keyed : Keyed DirtyRow.listingId dirty) :
    Keyed DirtyRow.listingId (bump began dirty change) := by
  simp only [bump]
  split_ifs with listed
  · exact keyed.updateRows fun _ => rfl
  · exact keyed.insert (absent_of_any listed)

theorem kept_bump {row : DirtyRow} (held : row ∈ dirty) (other : row.listingId ≠ change.listingId) :
    row ∈ bump began dirty change := by
  simp only [bump]
  split_ifs with listed
  · exact kept_updateRows held (decide_eq_false other)
  · exact List.mem_append_left _ held

variable (began) in
theorem has_bump (change : Change Claim) {row : DirtyRow} (held : row ∈ dirty) :
    ∃ later ∈ bump began dirty change, later.listingId = row.listingId := by
  simp only [bump]
  split_ifs with listed
  · exact has_updateRows _ (fun row => row.bumped began change.reason) (fun _ => rfl) held
  · exact ⟨row, List.mem_append_left _ held, rfl⟩

variable (dirty began change) in
theorem own_bump : ∃ row ∈ bump began dirty change, row.listingId = change.listingId := by
  by_cases listed : (dirty.any fun row => decide (row.listingId = change.listingId)) = true
  · obtain ⟨row, held, same⟩ := List.any_eq_true.mp listed
    obtain ⟨later, laterHeld, own⟩ := has_bump began change held
    exact ⟨later, laterHeld, own.trans (of_decide_eq_true same)⟩
  · simp only [bump, listed]
    exact ⟨_, List.mem_append_right _ (List.mem_singleton_self _), rfl⟩

variable (changes : List (Change Claim))

theorem keyed_bumps (keyed : Keyed DirtyRow.listingId dirty) :
    Keyed DirtyRow.listingId (changes.foldl (bump began) dirty) := by
  induction changes generalizing dirty with
  | nil => exact keyed
  | cons change rest ih => exact ih (keyed_bump keyed)

theorem kept_bumps {row : DirtyRow} (held : row ∈ dirty)
    (other : row.listingId ∉ changes.map Change.listingId) :
    row ∈ changes.foldl (bump began) dirty := by
  induction changes generalizing dirty with
  | nil => exact held
  | cons change rest ih =>
      have differs := List.ne_of_not_mem_cons other
      have others := List.not_mem_of_not_mem_cons other
      exact ih (kept_bump held differs) others

variable (began) in
theorem has_bumps {row : DirtyRow} (held : row ∈ dirty) :
    ∃ later ∈ changes.foldl (bump began) dirty, later.listingId = row.listingId := by
  induction changes generalizing dirty row with
  | nil => exact ⟨row, held, rfl⟩
  | cons change rest ih =>
      obtain ⟨later, laterHeld, same⟩ := has_bump began change held
      obtain ⟨final, finalHeld, own⟩ := ih laterHeld
      exact ⟨final, finalHeld, own.trans same⟩

/-- Every listing a producer changed is queued when it commits. -/
theorem own_bumps {id : Nat} (changed : id ∈ changes.map Change.listingId) :
    ∃ row ∈ changes.foldl (bump began) dirty, row.listingId = id := by
  induction changes generalizing dirty with
  | nil => cases changed
  | cons change rest ih =>
      cases List.mem_cons.mp changed with
      | inr later => exact ih later
      | inl same =>
          obtain ⟨row, held, own⟩ := own_bump dirty began change
          obtain ⟨final, finalHeld, stays⟩ := has_bumps began rest held
          exact ⟨final, finalHeld, stays.trans (own.trans same.symm)⟩

theorem applyChanges_other [DecidableEq Claim] (claims : Nat → List Claim) {id : Nat}
    (other : id ∉ changes.map Change.listingId) : applyChanges claims changes id = claims id := by
  induction changes generalizing claims with
  | nil => rfl
  | cons change rest ih =>
      have differs := List.ne_of_not_mem_cons other
      have others := List.not_mem_of_not_mem_cons other
      have later := ih (Function.update claims change.listingId
        (change.apply (claims change.listingId))) others
      rw [Function.update_of_ne differs] at later
      exact later

end Queue

section Finishing

variable {dirty : List DirtyRow} {began : ℚ}

theorem keyed_enqueues {ids : List Nat} (keyed : Keyed DirtyRow.listingId dirty) :
    Keyed DirtyRow.listingId (ids.foldl (enqueue began) dirty) := by
  induction ids generalizing dirty with
  | nil => exact keyed
  | cons id rest ih =>
      apply ih
      simp only [enqueue]
      split_ifs with listed
      · exact keyed
      · exact keyed.insert (absent_of_any listed)

theorem kept_enqueues {ids : List Nat} {row : DirtyRow} (held : row ∈ dirty) :
    row ∈ ids.foldl (enqueue began) dirty := by
  induction ids generalizing dirty with
  | nil => exact held
  | cons id rest ih =>
      apply ih
      simp only [enqueue]
      split_ifs
      · exact held
      · exact List.mem_append_left _ held

theorem keyed_fails {failed : List DirtyRow} (keyed : Keyed DirtyRow.listingId dirty) :
    Keyed DirtyRow.listingId (failed.foldl (failRow began) dirty) := by
  induction failed generalizing dirty with
  | nil => exact keyed
  | cons claimed rest ih => exact ih (keyed.updateRows fun _ => rfl)

variable (began) in
theorem has_fails (failed : List DirtyRow) {row : DirtyRow} (held : row ∈ dirty) :
    ∃ later ∈ failed.foldl (failRow began) dirty, later.listingId = row.listingId := by
  induction failed generalizing dirty row with
  | nil => exact ⟨row, held, rfl⟩
  | cons claimed rest ih =>
      obtain ⟨later, laterHeld, same⟩ := has_updateRows
        (fun row => decide (row.listingId = claimed.listingId) &&
          decide (row.enqueuedAt ≤ claimed.enqueuedAt))
        (fun row => row.backedOff began claimed.attempts) (fun _ => rfl) held
      obtain ⟨final, finalHeld, own⟩ := ih laterHeld
      exact ⟨final, finalHeld, own.trans same⟩

theorem kept_fails {failed : List DirtyRow} {row : DirtyRow} (held : row ∈ dirty)
    (other : ∀ claimed ∈ failed, claimed.listingId ≠ row.listingId) :
    row ∈ failed.foldl (failRow began) dirty := by
  induction failed generalizing dirty with
  | nil => exact held
  | cons claimed rest ih =>
      apply ih
      · apply kept_updateRows held
        rw [decide_eq_false (Ne.symm (other claimed List.mem_cons_self))]
        rfl
      · exact fun later listed => other later (List.mem_cons_of_mem _ listed)

theorem kept_deleteRows {done : List DirtyRow} {row : DirtyRow} (held : row ∈ dirty)
    (other : ∀ claimed ∈ done, claimed.listingId ≠ row.listingId) : row ∈ deleteRows done dirty := by
  apply List.mem_filter.mpr
  refine ⟨held, ?_⟩
  rw [Bool.not_eq_true', List.any_eq_false]
  intro claimed listed both
  rw [Bool.and_eq_true, decide_eq_true_iff] at both
  exact other claimed listed both.1

/-- A row the batch's delete removes is of a listing it resolved. -/
theorem done_of_deleted {done : List DirtyRow} {row : DirtyRow} (held : row ∈ dirty)
    (gone : row ∉ deleteRows done dirty) : ∃ claimed ∈ done, claimed.listingId = row.listingId := by
  by_contra other
  push Not at other
  exact gone (kept_deleteRows held other)

end Finishing

/-! ### The invariant -/

variable {resolve : Nat → List Claim → Answer}

/-- What a batch has read is what is committed, and what it resolved is resolved from that. -/
def Phase.Reads (resolve : Nat → List Claim → Answer) (claims : Nat → List Claim) :
    Phase Claim Answer → Prop
  | .begun | .claimed _ => True
  | .read rows slice => ∀ row ∈ rows, slice row.listingId = claims row.listingId
  | .writing rows slice waiting resolved failed =>
      (∀ row ∈ rows, slice row.listingId = claims row.listingId) ∧
        (∀ row ∈ waiting, row ∈ rows) ∧
        (∀ done ∈ resolved, done.1 ∈ rows ∧ done = resolveRow resolve slice done.1) ∧
        ∀ row ∈ failed, row ∈ rows

structure Sound (resolve : Nat → List Claim → Answer) (world : World Claim Answer) : Prop where
  keyed : Keyed DirtyRow.listingId world.dirty
  answered : Answered resolve world
  locks : ∀ tx transaction, world.opened tx = some transaction →
    ∀ id ∈ transaction.held, world.locks id = some tx
  rows : ∀ tx began phase, world.opened tx = some (.batch began phase) →
    ∀ row ∈ phase.rows, row ∈ world.dirty
  reads : ∀ tx began phase, world.opened tx = some (.batch began phase) →
    phase.Reads resolve world.claims

theorem Phase.Reads.congr {claims later : Nat → List Claim} {phase : Phase Claim Answer}
    (reads : phase.Reads resolve claims)
    (same : ∀ row ∈ phase.rows, later row.listingId = claims row.listingId) :
    phase.Reads resolve later := by
  cases phase with
  | begun => trivial
  | claimed rows => trivial
  | read rows slice => exact fun row held => (reads row held).trans (same row held).symm
  | writing rows slice waiting resolved failed =>
      exact ⟨fun row held => (reads.1 row held).trans (same row held).symm, reads.2⟩

namespace Sound

variable {world : World Claim Answer} {tx : Nat}

theorem ended (sound : Sound resolve world) : Sound resolve (world.ended tx) := by
  have others : ∀ other transaction, (world.ended tx).opened other = some transaction →
      other ≠ tx ∧ world.opened other = some transaction := by
    intro other transaction opened
    by_cases own : other = tx
    · simp only [World.ended, own, Function.update_self] at opened
      cases opened
    · simp only [World.ended, Function.update_of_ne own] at opened
      exact ⟨own, opened⟩
  refine ⟨sound.keyed, sound.answered, ?_, ?_, ?_⟩
  · intro other transaction opened id held
    obtain ⟨apart, before⟩ := others other transaction opened
    have lock := sound.locks other transaction before id held
    have kept : world.locks id ≠ some tx := fun own =>
      apart (Option.some.inj (lock.symm.trans own))
    simp only [World.ended, kept, if_false]
    exact lock
  · intro other began phase opened
    exact sound.rows other began phase (others other _ opened).2
  · intro other began phase opened
    exact sound.reads other began phase (others other _ opened).2

/-- The transaction takes free keys and goes on. -/
theorem onward (sound : Sound resolve world) (ids : List Nat)
    (transaction : Transaction Claim Answer)
    (free : ∀ id ∈ ids, world.locks id = none ∨ world.locks id = some tx)
    (held : ∀ id ∈ transaction.held, id ∈ ids ∨ world.locks id = some tx)
    (rows : ∀ began phase, transaction = .batch began phase → ∀ row ∈ phase.rows, row ∈ world.dirty)
    (reads : ∀ began phase, transaction = .batch began phase → phase.Reads resolve world.claims) :
    Sound resolve ((world.locked tx ids).onward tx transaction) := by
  have cases_ : ∀ other later, ((world.locked tx ids).onward tx transaction).opened other =
      some later → (other = tx ∧ later = transaction) ∨
        (other ≠ tx ∧ world.opened other = some later) := by
    intro other later opened
    by_cases own : other = tx
    · simp only [World.onward, own, Function.update_self] at opened
      exact .inl ⟨own, (Option.some.inj opened).symm⟩
    · simp only [World.onward, Function.update_of_ne own] at opened
      exact .inr ⟨own, opened⟩
  refine ⟨sound.keyed, sound.answered, ?_, ?_, ?_⟩
  · intro other later opened id listed
    simp only [World.onward, World.locked]
    cases cases_ other later opened with
    | inl own =>
        obtain ⟨rfl, rfl⟩ := own
        split_ifs with taken
        · rfl
        · exact (held id listed).resolve_left taken
    | inr apart =>
        have lock := sound.locks other later apart.2 id listed
        have untaken : id ∉ ids := by
          intro taken
          cases free id taken with
          | inl unlocked => rw [unlocked] at lock; cases lock
          | inr own => exact apart.1 (Option.some.inj (lock.symm.trans own))
        simp only [untaken, if_false]
        exact lock
  · intro other began phase opened
    cases cases_ other _ opened with
    | inl own => exact rows began phase own.2.symm
    | inr apart => exact sound.rows other began phase apart.2
  · intro other began phase opened
    cases cases_ other _ opened with
    | inl own => exact reads began phase own.2.symm
    | inr apart => exact sound.reads other began phase apart.2

/-- A batch goes on with the rows it holds. -/
theorem batchOnward (sound : Sound resolve world) {began later : ℚ}
    {phase next : Phase Claim Answer} (opened : world.opened tx = some (.batch began phase))
    (same : next.rows = phase.rows) (reads : next.Reads resolve world.claims) :
    Sound resolve (world.onward tx (.batch later next)) := by
  have held := sound.locks tx _ opened
  have unlocked : world.locked tx [] = world := by
    simp only [World.locked, List.not_mem_nil, if_false]
  have onward := sound.onward [] (.batch later next)
    (fun _ none_ => by cases none_)
    (fun id listed => .inr (held id (by
      simp only [Transaction.held, same] at listed
      exact listed) : world.locks id = some tx))
    (fun _ _ own row rowHeld => by
      cases own
      exact sound.rows tx began phase opened row (same ▸ rowHeld))
    (fun _ _ own => by
      cases own
      exact reads)
  rw [unlocked] at onward
  exact onward

/-- What a batch holds, no other transaction has touched. -/
theorem apart (sound : Sound resolve world) {transaction : Transaction Claim Answer}
    (opened : world.opened tx = some transaction) {other : Nat} {began : ℚ}
    {phase : Phase Claim Answer} (batch : world.opened other = some (.batch began phase))
    (differs : transaction ≠ .batch began phase) :
    ∀ row ∈ phase.rows, row.listingId ∉ transaction.held := by
  intro row held shared
  have lock := sound.locks other _ batch row.listingId (List.mem_map_of_mem held)
  have own := sound.locks tx _ opened row.listingId shared
  have same : other = tx := Option.some.inj (lock.symm.trans own)
  rw [same] at batch
  exact differs (Option.some.inj (opened.symm.trans batch))

theorem commitProducer [DecidableEq Claim] (sound : Sound resolve world) {began : ℚ}
    {changes : List (Change Claim)} (opened : world.opened tx = some (.producer began changes)) :
    Sound resolve { world with
      claims := applyChanges world.claims changes
      dirty := changes.foldl (bump began) world.dirty } where
  keyed := keyed_bumps changes sound.keyed
  answered := by
    intro id evidence bare
    have unchanged : id ∉ changes.map Change.listingId := by
      intro changed
      obtain ⟨row, held, own⟩ := own_bumps changes changed
      exact bare row held own
    have same := applyChanges_other changes world.claims unchanged
    simp only [same] at evidence ⊢
    apply sound.answered id evidence
    intro row held own
    obtain ⟨later, laterHeld, stays⟩ := has_bumps began changes held
    exact bare later laterHeld (stays.trans own)
  locks := sound.locks
  rows := by
    intro other start phase batch row held
    have untouched := sound.apart opened batch (by intro same; cases same) row held
    exact kept_bumps changes (sound.rows other start phase batch row held) untouched
  reads := by
    intro other start phase batch
    apply (sound.reads other start phase batch).congr
    intro row held
    have untouched := sound.apart opened batch (by intro same; cases same) row held
    exact applyChanges_other changes world.claims untouched

theorem commitWindow (sound : Sound resolve world) (began : ℚ) (ids : List Nat) :
    Sound resolve { world with dirty := ids.foldl (enqueue began) world.dirty } where
  keyed := keyed_enqueues sound.keyed
  answered := by
    intro id evidence bare
    apply sound.answered id evidence
    intro row held
    exact bare row (kept_enqueues held)
  locks := sound.locks
  rows := fun other start phase batch row held =>
    kept_enqueues (sound.rows other start phase batch row held)
  reads := sound.reads

/-- Behind the batch's commit a row is gone only with its answer written. -/
theorem finishBatch (sound : Sound resolve world) {began : ℚ} {rows : List DirtyRow}
    {slice : Nat → List Claim} {resolved : List (DirtyRow × Answer)} {failed : List DirtyRow}
    (opened : world.opened tx = some (.batch began (.writing rows slice [] resolved failed)))
    (single : ∀ other start phase, world.opened other = some (.batch start phase) → other ≠ tx →
      ∀ row ∈ phase.rows, ∀ own ∈ rows, own.listingId ≠ row.listingId) :
    Sound resolve ((world.finishBatch began resolved failed).ended tx) := by
  obtain ⟨read, _, done, failures⟩ := sound.reads tx began _ opened
  have resolvedRows : ∀ claimed ∈ resolved.map Prod.fst, claimed ∈ rows := by
    intro claimed listed
    obtain ⟨pair, held, rfl⟩ := List.mem_map.mp listed
    exact (done pair held).1
  have keyed : Keyed DirtyRow.listingId (deleteRows (resolved.map Prod.fst) world.dirty) :=
    sound.keyed.filter _
  have others : ∀ other transaction, ((world.finishBatch began resolved failed).ended tx).opened
      other = some transaction → other ≠ tx ∧ world.opened other = some transaction := by
    intro other transaction opened
    by_cases own : other = tx
    · simp only [World.ended, own, Function.update_self] at opened
      cases opened
    · simp only [World.ended, Function.update_of_ne own] at opened
      exact ⟨own, opened⟩
  refine ⟨keyed_fails keyed, ?_, ?_, ?_, ?_⟩
  · intro id evidence bare
    have absent : ∀ row ∈ deleteRows (resolved.map Prod.fst) world.dirty, row.listingId ≠ id := by
      intro row held own
      obtain ⟨later, laterHeld, stays⟩ := has_fails began failed held
      exact bare later laterHeld (stays.trans own)
    change ((resolved.find? fun done => done.1.listingId == id).map Prod.snd).or
      (world.answers id) = some (resolve id (world.claims id))
    cases found : resolved.find? fun done => done.1.listingId == id with
    | some pair =>
        have held := List.mem_of_find?_eq_some found
        have own : pair.1.listingId = id := by simpa using List.find?_some found
        obtain ⟨inRows, answer⟩ := done pair held
        rw [answer]
        simp only [resolveRow, Option.map_some, Option.some_or, own]
        rw [← own, read pair.1 inRows]
    | none =>
        simp only [Option.map_none, Option.none_or]
        apply sound.answered id evidence
        intro row held own
        by_cases kept : row ∈ deleteRows (resolved.map Prod.fst) world.dirty
        · exact absent row kept own
        · obtain ⟨claimed, listed, same⟩ := done_of_deleted held kept
          obtain ⟨pair, pairHeld, rfl⟩ := List.mem_map.mp listed
          have missed := List.find?_eq_none.mp found pair pairHeld
          exact missed (beq_iff_eq.mpr (same.trans own))
  · exact sound.ended.locks
  · intro other start phase batch row held
    obtain ⟨differs, before⟩ := others other _ batch
    have foreign := single other start phase before differs row held
    apply kept_fails
    · apply kept_deleteRows (sound.rows other start phase before row held)
      exact fun claimed listed => foreign claimed (resolvedRows claimed listed)
    · exact fun claimed listed => foreign claimed (failures claimed listed)
  · intro other start phase batch
    exact sound.reads other start phase (others other _ batch).2

theorem single (sound : Sound resolve world) {began : ℚ} {own : Phase Claim Answer}
    (opened : world.opened tx = some (.batch began own)) (other : Nat) (start : ℚ)
    (phase : Phase Claim Answer) (batch : world.opened other = some (.batch start phase))
    (differs : other ≠ tx) :
    ∀ row ∈ phase.rows, ∀ mine ∈ own.rows, mine.listingId ≠ row.listingId := by
  intro row held mine mineHeld same
  have lock := sound.locks other _ batch row.listingId (List.mem_map_of_mem held)
  have ownLock := sound.locks tx _ opened mine.listingId (List.mem_map_of_mem mineHeld)
  rw [same] at ownLock
  exact differs (Option.some.inj (lock.symm.trans ownLock))

theorem claim (sound : Sound resolve world) {began : ℚ} (size : Nat) :
    Sound resolve ((world.locked tx ((world.claimSlice began size).map DirtyRow.listingId)).onward
      tx (.batch began (.claimed (world.claimSlice began size)))) := by
  have picked : ∀ row ∈ world.claimSlice began size,
      row ∈ world.dirty ∧ world.locks row.listingId = none := by
    intro row held
    obtain ⟨listed, eligible⟩ := List.mem_filter.mp (mem_sortedBy.mp (List.mem_of_mem_take held))
    rw [Bool.and_eq_true, Option.isNone_iff_eq_none] at eligible
    exact ⟨listed, eligible.2⟩
  apply sound.onward
  · intro id listed
    obtain ⟨row, held, rfl⟩ := List.mem_map.mp listed
    exact .inl (picked row held).2
  · exact fun id listed => .inl listed
  · intro start phase same row held
    cases same
    exact (picked row held).1
  · intro start phase same
    cases same
    trivial

theorem exclusive (sound : Sound resolve world) : Exclusive world := by
  intro tx other began start phase later opened batch row held row' held' same
  by_contra differs
  exact sound.single opened other start later batch (Ne.symm differs) row' held' row held same

theorem begin_ (sound : Sound resolve world) {transaction : Transaction Claim Answer}
    {after : World Claim Answer} (bare : transaction.held = [])
    (fits : ∀ began phase, transaction = .batch began phase → phase = .begun)
    (taken : world.begin_ tx transaction = some after) : Sound resolve after := by
  simp only [World.begin_] at taken
  split_ifs at taken
  cases taken
  have unlocked : world.locked tx [] = world := by
    simp only [World.locked, List.not_mem_nil, if_false]
  rw [← unlocked]
  apply sound.onward
  · intro id none_
    cases none_
  · intro id listed
    rw [bare] at listed
    cases listed
  · intro start phase same row held
    rw [fits start phase same] at held
    cases held
  · intro start phase same
    rw [fits start phase same]
    trivial

theorem batchStep (sound : Sound resolve world) {began : ℚ} {phase : Phase Claim Answer}
    (opened : world.opened tx = some (.batch began phase)) {action : Action Claim}
    {after : World Claim Answer}
    (taken : batchStep resolve world tx began phase action = some after) :
    Sound resolve after := by
  have reads := sound.reads tx began phase opened
  cases action with
  | claim _ size =>
      cases phase with
      | begun =>
          simp only [DrainQueue.batchStep] at taken
          split_ifs at taken
          · cases taken
            exact sound.ended
          · cases taken
            exact sound.claim size
      | _ => cases taken
  | prefetch _ =>
      cases phase with
      | claimed rows =>
          cases taken
          exact sound.batchOnward opened rfl fun _ _ => rfl
      | _ => cases taken
  | writeSlice _ =>
      cases phase with
      | read rows slice =>
          cases taken
          refine sound.batchOnward opened rfl ⟨reads, (by simp), ?_, (by simp)⟩
          intro done listed
          obtain ⟨row, held, rfl⟩ := List.mem_map.mp listed
          exact ⟨held, rfl⟩
      | _ => cases taken
  | fallBack _ =>
      cases phase with
      | read rows slice =>
          cases taken
          exact sound.batchOnward opened rfl ⟨reads, fun _ held => held,
            (by simp), (by simp)⟩
      | _ => cases taken
  | resolveOne _ =>
      cases phase with
      | writing rows slice waiting resolved failed =>
          cases waiting with
          | nil => cases taken
          | cons row waiting =>
              cases taken
              obtain ⟨read, waits, done, failures⟩ := reads
              refine sound.batchOnward opened rfl
                ⟨read, fun _ later => waits _ (List.mem_cons_of_mem _ later), ?_, failures⟩
              intro pair listed
              cases List.mem_append.mp listed with
              | inl before => exact done pair before
              | inr new =>
                  cases List.mem_singleton.mp new
                  exact ⟨waits row List.mem_cons_self, rfl⟩
      | _ => cases taken
  | failOne _ =>
      cases phase with
      | writing rows slice waiting resolved failed =>
          cases waiting with
          | nil => cases taken
          | cons row waiting =>
              cases taken
              obtain ⟨read, waits, done, failures⟩ := reads
              refine sound.batchOnward opened rfl
                ⟨read, fun _ later => waits _ (List.mem_cons_of_mem _ later), done, ?_⟩
              intro claimed listed
              cases List.mem_append.mp listed with
              | inl before => exact failures claimed before
              | inr new =>
                  cases List.mem_singleton.mp new
                  exact waits row List.mem_cons_self
      | _ => cases taken
  | commit _ =>
      cases phase with
      | writing rows slice waiting resolved failed =>
          cases waiting with
          | nil =>
              cases taken
              exact sound.finishBatch opened (sound.single opened)
          | cons row waiting => cases taken
      | _ => cases taken
  | _ => cases taken

variable [DecidableEq Claim]

theorem transactionStep (sound : Sound resolve world) {transaction : Transaction Claim Answer}
    (opened : world.opened tx = some transaction) {action : Action Claim}
    {after : World Claim Answer}
    (taken : transactionStep resolve world tx action transaction = some after) :
    Sound resolve after := by
  have held := sound.locks tx transaction opened
  cases transaction with
  | producer began changes =>
      cases action with
      | write _ change =>
          simp only [DrainQueue.transactionStep] at taken
          split_ifs at taken with busy unchanged
          · cases taken
            exact sound
          · cases taken
            apply sound.onward
            · intro id listed
              cases List.mem_singleton.mp listed
              by_contra taken_
              exact busy (not_or.mp taken_)
            · intro id listed
              simp only [Transaction.held, List.map_append, List.mem_append, List.map_cons,
                List.map_nil] at listed
              exact listed.symm.imp_right (held id)
            · intro start phase same
              cases same
            · intro start phase same
              cases same
      | commit _ =>
          cases taken
          exact (sound.commitProducer opened).ended
      | _ => cases taken
  | window began ids =>
      cases action with
      | insert _ listingId =>
          simp only [DrainQueue.transactionStep] at taken
          split_ifs at taken with queued busy
          · cases taken
            exact sound
          · cases taken
            apply sound.onward
            · intro id listed
              cases List.mem_singleton.mp listed
              exact .inl (not_not.mp busy)
            · intro id listed
              exact (List.mem_append.mp listed).symm.imp_right (held id)
            · intro start phase same
              cases same
            · intro start phase same
              cases same
      | commit _ =>
          cases taken
          exact (sound.commitWindow began ids).ended
      | _ => cases taken
  | batch began phase => exact sound.batchStep opened taken

theorem step (sound : Sound resolve world) {action : Action Claim} {after : World Claim Answer}
    (taken : step resolve world action = some after) : Sound resolve after := by
  cases action with
  | wait seconds =>
      simp only [DrainQueue.step] at taken
      split_ifs at taken
      cases taken
      exact ⟨sound.keyed, sound.answered, sound.locks, sound.rows, sound.reads⟩
  | beginProducer tx => exact sound.begin_ rfl (fun _ _ same => by cases same) taken
  | beginWindow tx => exact sound.begin_ rfl (fun _ _ same => by cases same) taken
  | beginBatch tx => exact sound.begin_ rfl (fun _ _ same => by cases same; rfl) taken
  | rollback tx =>
      obtain ⟨_, _, rfl⟩ := Option.map_eq_some_iff.mp taken
      exact sound.ended
  | _ =>
      obtain ⟨transaction, opened, moved⟩ := Option.bind_eq_some_iff.mp taken
      exact sound.transactionStep opened moved

theorem failsClean (sound : Sound resolve world) : FailsClean resolve world := by
  intro tx began phase after opened taken row held
  obtain ⟨_, _, rfl⟩ := Option.map_eq_some_iff.mp taken
  exact sound.rows tx began phase opened row held

end Sound

/-! ### Runs -/

/-- No transaction is open, one row a listing, and the queue is true. -/
structure World.Initial (resolve : Nat → List Claim → Answer) (world : World Claim Answer) :
    Prop where
  idle : ∀ tx, world.opened tx = none
  keyed : Keyed DirtyRow.listingId world.dirty
  answered : Answered resolve world

theorem World.Initial.sound {world : World Claim Answer} (initial : world.Initial resolve) :
    Sound resolve world where
  keyed := initial.keyed
  answered := initial.answered
  locks := fun tx _ opened => by rw [initial.idle tx] at opened; cases opened
  rows := fun tx _ _ opened => by rw [initial.idle tx] at opened; cases opened
  reads := fun tx _ _ opened => by rw [initial.idle tx] at opened; cases opened

theorem queue_loses_no_evidence [DecidableEq Claim] (resolve : Nat → List Claim → Answer)
    (start world : World Claim Answer) (initial : start.Initial resolve)
    (reached : Reaches (step resolve) (fun _ _ => True) start world) :
    Answered resolve world ∧ Exclusive world ∧ FailsClean resolve world := by
  have sound : Sound resolve world := reached.invariant (Sound resolve) initial.sound
    fun _ _ _ sound _ taken => sound.step taken
  exact ⟨sound.answered, sound.exclusive, sound.failsClean⟩

/-! ### Evidence behind a slice's claim -/

/-- Claims are numbers here, and the answer repeats them. -/
def echo (_ : Nat) (claims : List Nat) : List Nat := claims

def queuedOnce : World Nat (List Nat) where
  now := 100
  claims := fun id => if id = 1 then [10] else []
  answers := fun _ => none
  dirty := [{ listingId := 1, enqueuedAt := 50, reason := .claimInsert, attempts := 0,
              nextEligibleAt := 50 }]
  locks := fun _ => none
  opened := fun _ => none

theorem queuedOnce_initial : queuedOnce.Initial echo where
  idle := fun _ => rfl
  keyed := List.nodup_singleton _
  answered := by
    intro id evidence bare
    simp only [queuedOnce] at evidence bare
    split_ifs at evidence with first
    · exact absurd first.symm (bare _ (List.mem_singleton_self _))
    · exact absurd rfl evidence

/-- A producer that began before the slice was claimed writes behind it; a second batch finds
nothing; the first one falls back, and the row queued behind it is resolved next. -/
def lateEvidence : List (Action Nat) :=
  [.beginProducer 1, .wait 5, .beginBatch 2, .claim 2 10, .beginBatch 3, .claim 3 10, .prefetch 2,
    .fallBack 2, .resolveOne 2, .commit 2, .beginWindow 4, .insert 4 2, .commit 4,
    .write 1 { listingId := 1, reason := .claimInsert, inserted := [10, 11], deleted := [] },
    .commit 1, .beginBatch 5, .claim 5 1, .prefetch 5, .rollback 5, .beginBatch 6, .claim 6 10,
    .prefetch 6, .writeSlice 6, .commit 6]

theorem late_evidence_is_answered :
    ∃ final, replay (step echo) queuedOnce lateEvidence = some final ∧ final.dirty = [] ∧
      final.answers 1 = some [10, 11] ∧
        Answered echo final ∧ Exclusive final ∧ FailsClean echo final := by
  obtain ⟨final, replayed⟩ : ∃ final, replay (step echo) queuedOnce lateEvidence = some final :=
    Option.isSome_iff_exists.mp (by decide +kernel)
  have facts : (replay (step echo) queuedOnce lateEvidence).all fun final =>
      decide (final.dirty = []) && decide (final.answers 1 = some [10, 11]) := by decide +kernel
  rw [replayed, Option.all_some, Bool.and_eq_true, decide_eq_true_iff, decide_eq_true_iff] at facts
  exact ⟨final, replayed, facts.1, facts.2,
    queue_loses_no_evidence echo queuedOnce final queuedOnce_initial
      (reaches_of_replay replayed (allowedAll_true (step echo) queuedOnce lateEvidence))⟩

end Sreality.LocationData.DrainQueue
