import Sreality.Foundation.Tables
import Sreality.Scraper.Liveness

/-! A property reads active exactly when an advert of it is, once the queue is drained, unless a
commit revives a listing behind the drain without queueing its property again. -/

set_option autoImplicit false

namespace Sreality.Scraper.Liveness

open Sreality.Foundation

variable {world : World}

/-! ### The queue -/

theorem owed_iff {propertyId : Nat} {active : Bool} : world.owed propertyId active = true ↔
    ∃ row ∈ world.dirty, row.propertyId = propertyId ∧
      ∀ open_ ∈ world.slices, open_.2.settles row active = true := by
  simp only [World.owed, List.any_eq_true, Bool.and_eq_true, decide_eq_true_iff, List.all_eq_true]

/-- A row no slice has spent is settled whatever the flag is to read. -/
theorem settles_of_unspent {slice : Slice} {row : DirtyRow} (active : Bool)
    (unspent : slice.spent row = false) : slice.settles row active = true := by
  obtain ⟨claimed, phase⟩ := slice
  cases phase with
  | claimed => rfl
  | recomputing reads =>
      have unclaimed : row ∉ claimed := by simpa [Slice.spent] using unspent
      simp only [Slice.settles, unclaimed, not_false_eq_true, decide_true, Bool.true_or]
  | recomputed =>
      have unclaimed : row ∉ claimed := by simpa [Slice.spent] using unspent
      simp only [Slice.settles, unclaimed, not_false_eq_true, decide_true]

theorem marked_mem_mark {markedAt : ℚ} {propertyIds : List Nat} {propertyId : Nat}
    (marked : propertyId ∈ propertyIds) :
    { propertyId := propertyId, markedAt := markedAt } ∈ world.mark markedAt propertyIds := by
  apply List.mem_append_right
  exact List.mem_map.mpr ⟨propertyId, List.mem_eraseDups.mpr marked, rfl⟩

theorem kept_mem_mark {markedAt : ℚ} {propertyIds : List Nat} {row : DirtyRow}
    (held : row ∈ world.dirty) (other : row.propertyId ∉ propertyIds) :
    row ∈ world.mark markedAt propertyIds :=
  List.mem_append_left _ (List.mem_filter.mpr ⟨held, decide_eq_true other⟩)

/-! ### Adverts -/

theorem mem_adverts {propertyId : Nat} {listing : Listing} :
    listing ∈ world.adverts propertyId ↔
      listing ∈ world.listings ∧ listing.propertyId = some propertyId := by
  simp only [World.adverts, List.mem_filter, decide_eq_true_iff]

theorem mem_propertiesOf {ids : List Nat} {listing : Listing} {propertyId : Nat}
    (listed : listing ∈ world.listings) (of : listing.propertyId = some propertyId)
    (taken : listing.id ∈ ids) : propertyId ∈ world.propertiesOf ids := by
  apply List.mem_filterMap.mpr
  exact ⟨listing, List.mem_filter.mpr ⟨listed, decide_eq_true taken⟩, of⟩

theorem lookup_readSlice {claimed : List DirtyRow} {row : DirtyRow} (held : row ∈ claimed)
    (advertised : world.adverts row.propertyId ≠ []) :
    (world.readSlice claimed).lookup row.propertyId = some (world.anyActive row.propertyId) := by
  cases found : (world.readSlice claimed).lookup row.propertyId with
  | some active =>
      obtain ⟨other, _, read⟩ := List.mem_filterMap.mp (mem_of_lookup found)
      split_ifs at read
      cases read
      rfl
  | none =>
      have absent := lookup_eq_none_iff_key.mp found
      exfalso
      apply absent
      apply List.mem_map.mpr
      refine ⟨(row.propertyId, world.anyActive row.propertyId), ?_, rfl⟩
      apply List.mem_filterMap.mpr
      refine ⟨row.propertyId, List.mem_map_of_mem held, ?_⟩
      rw [if_neg advertised]

/-! ### The invariant -/

/-- A property with an advert is owed the flag its adverts say, or reads it. -/
def Sound (world : World) : Prop :=
  ∀ propertyId, world.adverts propertyId ≠ [] →
    world.owed propertyId (world.anyActive propertyId) = true ∨
      world.isActive propertyId = world.anyActive propertyId

/-- Both worlds have the same listings, flags, queue and slices. -/
structure World.Same (world after : World) : Prop where
  listings : after.listings = world.listings
  isActive : after.isActive = world.isActive
  dirty : after.dirty = world.dirty
  slices : after.slices = world.slices

/-- Every slice still open in the one world is open in the other, or settles the row there. -/
theorem owed_of_rows {after : World} {propertyId : Nat} {active : Bool}
    (rows : ∀ row ∈ world.dirty, row.propertyId = propertyId →
      (∀ open_ ∈ world.slices, open_.2.settles row active = true) →
        row ∈ after.dirty ∧ ∀ open_ ∈ after.slices, open_.2.settles row active = true)
    (owed : world.owed propertyId active = true) : after.owed propertyId active = true := by
  obtain ⟨row, held, of, settled⟩ := owed_iff.mp owed
  obtain ⟨stays, still⟩ := rows row held of settled
  exact owed_iff.mpr ⟨row, stays, of, still⟩

theorem mem_withoutSlice {runner : Nat} {open_ : Nat × Slice}
    (held : open_ ∈ (world.withoutSlice runner).slices) : open_ ∈ world.slices :=
  (List.mem_filter.mp held).1

theorem mem_of_sliceOf {runner : Nat} {slice : Slice} (opened : world.sliceOf runner = some slice) :
    (runner, slice) ∈ world.slices :=
  mem_of_lookup opened

/-- A slice is taken on: it settles what the slice before it settled, and the others are as they
were. -/
theorem settles_withSlice {runner : Nat} {slice : Slice} {row : DirtyRow} {active : Bool}
    (settled : ∀ open_ ∈ world.slices, open_.2.settles row active = true)
    (own : slice.settles row active = true) :
    ∀ open_ ∈ (world.withSlice runner slice).slices, open_.2.settles row active = true := by
  intro open_ held
  cases List.mem_cons.mp held with
  | inl same => rw [same]; exact own
  | inr other => exact settled open_ (mem_withoutSlice other)

namespace Sound

theorem same {after : World} (sound : Sound world) (same : world.Same after) : Sound after := by
  obtain ⟨now, listings, isActive, dirty, locks, transactions, slices⟩ := after
  obtain ⟨rfl, rfl, rfl, rfl⟩ := same
  exact sound

theorem claim (sound : Sound world) (runner : Nat) (claimed : List DirtyRow) :
    Sound (world.withSlice runner { claimed := claimed, phase := .claimed }) := by
  intro propertyId advertised
  refine (sound propertyId advertised).imp_left (owed_of_rows ?_)
  intro row held _ settled
  exact ⟨held, settles_withSlice settled rfl⟩

theorem recompute (sound : Sound world) (runner : Nat) (slice : Slice) :
    Sound (world.withSlice runner
      (slice.onward (.recomputing (world.readSlice slice.claimed)))) := by
  intro propertyId advertised
  refine (sound propertyId advertised).imp_left (owed_of_rows ?_)
  rintro row held rfl settled
  refine ⟨held, settles_withSlice settled ?_⟩
  by_cases listed : row ∈ slice.claimed
  · have read := @lookup_readSlice world _ _ listed advertised
    exact Bool.or_eq_true_iff.mpr (.inr (decide_eq_true read))
  · simp only [Slice.settles, Slice.onward, listed, not_false_eq_true, decide_true, Bool.true_or]

/-- A flag the slice writes is the one its adverts say, or the property stays owed. -/
theorem commitRecompute (sound : Sound world) {runner : Nat} {slice : Slice}
    {reads : List (Nat × Bool)} (opened : world.sliceOf runner = some slice)
    (phase : slice.phase = .recomputing reads) (carried : Carried world (.commitRecompute runner)) :
    Sound ({ world with isActive := fun propertyId =>
      (reads.lookup propertyId).getD (world.isActive propertyId) }.withSlice runner
        (slice.onward .recomputed)) := by
  have readOf : world.readOf runner = reads := by
    simp only [World.readOf, opened, Option.map_some, phase]
  -- What the slice does not set right it has not claimed the row of.
  have kept : ∀ propertyId active, reads.lookup propertyId ≠ some active →
      world.owed propertyId active = true →
        ({ world with isActive := fun propertyId =>
          (reads.lookup propertyId).getD (world.isActive propertyId) }.withSlice runner
            (slice.onward .recomputed)).owed propertyId active = true := by
    intro propertyId active unread owed
    refine owed_of_rows ?_ owed
    rintro row held rfl settled
    refine ⟨held, settles_withSlice settled ?_⟩
    have before := settled (runner, slice) (mem_of_sliceOf opened)
    simp only [Slice.settles, phase, Bool.or_eq_true, decide_eq_true_iff, unread, or_false]
      at before
    simp only [Slice.settles, Slice.onward, before, not_false_eq_true, decide_true]
  intro propertyId advertised
  cases read : reads.lookup propertyId with
  | some active =>
      by_cases right : active = world.anyActive propertyId
      · right
        show (reads.lookup propertyId).getD _ = world.anyActive propertyId
        rw [read, ← right]
        rfl
      · left
        have stale := carried (propertyId, active) (by rw [readOf]; exact mem_of_lookup read)
        refine kept propertyId _ ?_ (stale.resolve_left right)
        rw [read]
        exact fun same => right (Option.some.inj same)
  | none =>
      refine (sound propertyId advertised).imp (kept propertyId _ ?_) ?_
      · rw [read]
        exact nofun
      · intro right
        show (reads.lookup propertyId).getD _ = world.anyActive propertyId
        rw [read]
        exact right

theorem dequeue (sound : Sound world) {runner : Nat} {slice : Slice}
    (opened : world.sliceOf runner = some slice) (phase : slice.phase = .recomputed) :
    Sound ({ world with
      dirty := world.dirty.filter fun row => decide (row ∉ slice.claimed) }.withoutSlice runner) := by
  intro propertyId advertised
  refine (sound propertyId advertised).imp_left (owed_of_rows ?_)
  intro row held _ settled
  have unclaimed := settled (runner, slice) (mem_of_sliceOf opened)
  simp only [Slice.settles, phase] at unclaimed
  exact ⟨List.mem_filter.mpr ⟨held, unclaimed⟩,
    fun open_ other => settled open_ (mem_withoutSlice other)⟩

/-- A slice that ends early leaves its rows. -/
theorem abort (sound : Sound world) (runner : Nat) : Sound (world.withoutSlice runner) := by
  intro propertyId advertised
  refine (sound propertyId advertised).imp_left (owed_of_rows ?_)
  intro row held _ settled
  exact ⟨held, fun open_ other => settled open_ (mem_withoutSlice other)⟩

end Sound

/-! ### A commit -/

section Commit

variable {transaction : Transaction}

theorem adverts_committed (propertyId : Nat) :
    (world.committed transaction).adverts propertyId =
      (world.adverts propertyId).map fun listing =>
        if listing.id ∈ transaction.taken then
          { listing with isActive := decide (transaction.kind ≠ .close) }
        else listing := by
  simp only [World.adverts, World.committed, World.setActive, List.filter_map]
  congr 1
  apply List.filter_congr
  intro listing _
  simp only [Function.comp_apply]
  split_ifs <;> rfl

/-- What is owed and not marked anew stays owed. -/
theorem owed_committed {propertyId : Nat} {active : Bool}
    (unmarked : propertyId ∉ world.marks transaction)
    (owed : world.owed propertyId active = true) :
    (world.committed transaction).owed propertyId active = true := by
  refine owed_of_rows ?_ owed
  rintro row held rfl settled
  exact ⟨kept_mem_mark held unmarked, settled⟩

/-- A revival or a closing marks the properties of all it takes. -/
theorem marks_of_flip {listing : Listing} {propertyId : Nat} (listed : listing ∈ world.listings)
    (of : listing.propertyId = some propertyId) (taken : listing.id ∈ transaction.taken) :
    propertyId ∈ world.marks transaction ∨ transaction.kind ≠ .close := by
  cases kind : transaction.kind with
  | close =>
      left
      simp only [World.marks, kind]
      exact mem_propertiesOf listed of taken
  | revive chunk => exact .inr (by intro same; cases same)
  | touch => exact .inr (by intro same; cases same)
  | write prior marked => exact .inr (by intro same; cases same)

theorem Sound.committed (sound : Sound world) {tx : Nat}
    (opened : world.opened tx = some transaction) (carried : Carried world (.commit tx)) :
    Sound (world.committed transaction) := by
  obtain ⟨fresh, revived⟩ := carried transaction opened
  intro propertyId advertised
  by_cases marked : propertyId ∈ world.marks transaction
  · left
    refine owed_iff.mpr ⟨_, marked_mem_mark marked, rfl, ?_⟩
    intro open_ held
    exact settles_of_unspent _ (fresh propertyId marked open_ held)
  have before : world.adverts propertyId ≠ [] := by
    rw [adverts_committed] at advertised
    exact fun none_ => advertised (by rw [none_]; rfl)
  by_cases woken : ∃ listing ∈ world.adverts propertyId, listing.id ∈ transaction.taken ∧
      listing.isActive = false
  · -- Revived without its property marked: the condition is on this listing.
    obtain ⟨listing, advert, taken, asleep⟩ := woken
    obtain ⟨listed, of⟩ := mem_adverts.mp advert
    have opens := (marks_of_flip listed of taken).resolve_left marked
    have awake : (world.committed transaction).anyActive propertyId = true := by
      apply List.any_eq_true.mpr
      rw [adverts_committed]
      refine ⟨_, List.mem_map_of_mem advert, ?_⟩
      rw [if_pos taken]
      exact decide_eq_true opens
    rw [awake]
    exact ((revived listing listed taken asleep propertyId of).resolve_left marked).imp_left
      (owed_committed marked)
  · have still : ∀ listing ∈ world.adverts propertyId,
        (if listing.id ∈ transaction.taken then
          { listing with isActive := decide (transaction.kind ≠ .close) } else listing) =
          listing := by
      intro listing advert
      split_ifs with taken
      · obtain ⟨listed, of⟩ := mem_adverts.mp advert
        have opens := (marks_of_flip listed of taken).resolve_left marked
        have awake : listing.isActive = true := by
          by_contra asleep
          exact woken ⟨listing, advert, taken, Bool.eq_false_iff.mpr asleep⟩
        rw [decide_eq_true opens, ← awake]
      · rfl
    have unchanged : (world.committed transaction).anyActive propertyId =
        world.anyActive propertyId := by
      simp only [World.anyActive, adverts_committed]
      rw [List.map_congr_left (g := id) still, List.map_id]
    rw [unchanged]
    exact (sound propertyId before).imp_left (owed_committed marked)

end Commit

/-! ### Runs -/

theorem Sound.step (sound : Sound world) {action : Action} {after : World}
    (carried : Carried world action) (taken : step world action = some after) : Sound after := by
  have begun : ∀ tx kind waiting, world.begin_ tx kind waiting = some after → Sound after := by
    intro tx kind waiting opened
    simp only [World.begin_] at opened
    split_ifs at opened
    cases opened
    exact sound.same ⟨rfl, rfl, rfl, rfl⟩
  cases action with
  | wait seconds =>
      simp only [Liveness.step] at taken
      split_ifs at taken
      cases taken
      exact sound.same ⟨rfl, rfl, rfl, rfl⟩
  | touch tx chunk => exact begun _ _ _ taken
  | close tx id => exact begun _ _ _ taken
  | write tx ids => exact begun _ _ _ taken
  | lockRow tx =>
      obtain ⟨transaction, _, moved⟩ := Option.bind_eq_some_iff.mp taken
      simp only [World.lockRow] at moved
      split at moved
      case h_1 => cases moved
      case h_2 id rest _ =>
          split_ifs at moved
          all_goals
            cases moved
            exact sound.same ⟨rfl, rfl, rfl, rfl⟩
  | markProperties tx appended =>
      obtain ⟨transaction, _, moved⟩ := Option.bind_eq_some_iff.mp taken
      split at moved
      case h_1 prior _ =>
          split_ifs at moved
          cases moved
          exact sound.same ⟨rfl, rfl, rfl, rfl⟩
      case h_2 => cases moved
  | commit tx =>
      obtain ⟨transaction, opened, moved⟩ := Option.bind_eq_some_iff.mp taken
      have committed := sound.committed opened carried
      simp only [World.commit] at moved
      split_ifs at moved
      split at moved
      case h_1 => cases moved
      case h_2 chunk _ =>
          cases moved
          exact committed.same ⟨rfl, rfl, rfl, rfl⟩
      case h_3 =>
          cases moved
          exact committed.same ⟨rfl, rfl, rfl, rfl⟩
  | rollback tx =>
      obtain ⟨_, _, rfl⟩ := Option.map_eq_some_iff.mp taken
      exact sound.same ⟨rfl, rfl, rfl, rfl⟩
  | claim runner cutoff size =>
      simp only [Liveness.step] at taken
      split_ifs at taken
      cases taken
      exact sound.claim runner _
  | recompute runner =>
      obtain ⟨slice, _, moved⟩ := Option.bind_eq_some_iff.mp taken
      simp only [World.recompute] at moved
      split_ifs at moved
      cases moved
      exact sound.recompute runner slice
  | commitRecompute runner =>
      obtain ⟨slice, opened, moved⟩ := Option.bind_eq_some_iff.mp taken
      simp only [World.commitRecompute] at moved
      split at moved
      case h_1 reads phase =>
          cases moved
          exact sound.commitRecompute opened phase carried
      case h_2 => cases moved
  | dequeue runner =>
      obtain ⟨slice, opened, moved⟩ := Option.bind_eq_some_iff.mp taken
      simp only [World.dequeue] at moved
      split_ifs at moved with phase
      cases moved
      exact sound.dequeue opened phase
  | abort runner =>
      obtain ⟨_, _, rfl⟩ := Option.map_eq_some_iff.mp taken
      exact sound.abort runner

/-- Nothing is open, and the flags are true where nothing is queued. -/
structure World.Initial (world : World) : Prop where
  idle : world.transactions = []
  drained : world.slices = []
  settled : ∀ propertyId, world.adverts propertyId ≠ [] →
    (∀ row ∈ world.dirty, row.propertyId ≠ propertyId) →
      world.isActive propertyId = world.anyActive propertyId

theorem World.Initial.sound (initial : world.Initial) : Sound world := by
  intro propertyId advertised
  by_cases queued : ∃ row ∈ world.dirty, row.propertyId = propertyId
  · left
    obtain ⟨row, held, of⟩ := queued
    refine owed_iff.mpr ⟨row, held, of, ?_⟩
    rw [initial.drained]
    exact nofun
  · right
    exact initial.settled propertyId advertised fun row held of => queued ⟨row, held, of⟩

theorem liveness_reaches_the_property (start world : World) (initial : start.Initial)
    (reached : Reaches step Carried start world) : Reached world := by
  have sound : Sound world := reached.invariant Sound initial.sound
    fun _ _ _ sound carried taken => sound.step carried taken
  intro _ _ propertyId advertised bare
  cases sound propertyId advertised with
  | inl owed =>
      obtain ⟨row, held, of, _⟩ := owed_iff.mp owed
      exact absurd of (bare row held)
  | inr right =>
      rw [right]
      exact List.any_eq_true

/-! ### A revival behind a closing -/

/-- One property with two adverts, one of them active. -/
def twoAdverts : World where
  now := 100
  listings := [{ id := 1, propertyId := some 7, isActive := true },
    { id := 2, propertyId := some 7, isActive := false }]
  isActive := fun _ => true
  dirty := []
  locks := fun _ => none
  transactions := []
  slices := []

theorem twoAdverts_initial : twoAdverts.Initial where
  idle := rfl
  drained := rfl
  settled := by
    intro propertyId advertised _
    by_cases own : propertyId = 7
    · rw [own]
      rfl
    · have none_ : twoAdverts.adverts propertyId = [] := by
        have differs : some 7 ≠ some propertyId := fun same => own (Option.some.inj same).symm
        simp only [twoAdverts, World.adverts]
        rw [List.filter_cons_of_neg (by simpa using differs),
          List.filter_cons_of_neg (by simpa using differs), List.filter_nil]
      exact absurd none_ advertised

/-- A closing and the slice it causes, then a touch and a write behind it, whose marks a second
runner claims before the first one is done. -/
def carriedRun : List Action :=
  [.close 1 1, .lockRow 1, .commit 1, .wait 1, .claim 1 101 10, .recompute 1, .touch 2 [1, 2],
    .lockRow 2, .wait 1, .write 3 [1], .lockRow 2, .commit 2, .claim 2 101 10, .lockRow 2,
    .lockRow 2, .commitRecompute 1, .commit 2, .recompute 2, .dequeue 1, .lockRow 3,
    .commitRecompute 2, .markProperties 3 [], .commit 3, .dequeue 2, .claim 1 102 10, .recompute 1,
    .commitRecompute 1, .dequeue 1]

theorem liveness_reaches_the_property_of_two_adverts :
    ∃ final, replay step twoAdverts carriedRun = some final ∧ final.dirty = [] ∧ Reached final := by
  obtain ⟨final, replayed⟩ : ∃ final, replay step twoAdverts carriedRun = some final :=
    Option.isSome_iff_exists.mp (by decide +kernel)
  have empty : (replay step twoAdverts carriedRun).all fun final => decide (final.dirty = []) := by
    decide +kernel
  rw [replayed, Option.all_some, decide_eq_true_iff] at empty
  have carried : allowedAll step Carried twoAdverts carriedRun := by decide +kernel
  exact ⟨final, replayed, empty, liveness_reaches_the_property twoAdverts final twoAdverts_initial
    (reaches_of_replay replayed carried)⟩

/-- Between the two statements of a touch the advert is closed and the closing drained. -/
def touchedBehind : List Action :=
  [.touch 1 [1], .commit 1, .wait 1, .close 2 1, .lockRow 2, .commit 2, .claim 1 101 10,
    .recompute 1, .commitRecompute 1, .dequeue 1, .lockRow 1, .commit 1]

theorem touched_behind_is_hidden :
    ¬ ∀ start world : World, start.Initial → Reaches step (fun _ _ => True) start world →
      Reached world := by
  intro all
  obtain ⟨final, replayed⟩ : ∃ final, replay step twoAdverts touchedBehind = some final :=
    Option.isSome_iff_exists.mp (by decide +kernel)
  have reached := reaches_of_replay replayed (allowedAll_true step twoAdverts touchedBehind)
  have facts : (replay step twoAdverts touchedBehind).all fun final =>
      decide (final.transactions = []) && decide (final.slices = []) && decide (final.dirty = []) &&
        (final.adverts 7).any Listing.isActive && !final.isActive 7 := by decide +kernel
  rw [replayed, Option.all_some] at facts
  simp only [Bool.and_eq_true, decide_eq_true_iff, Bool.not_eq_true', List.any_eq_true] at facts
  obtain ⟨⟨⟨⟨closed, drained⟩, empty⟩, active⟩, hidden⟩ := facts
  have advertised : final.adverts 7 ≠ [] := by
    obtain ⟨listing, held, _⟩ := active
    exact List.ne_nil_of_mem held
  have reads := (all twoAdverts final twoAdverts_initial reached closed drained 7 advertised
    (by rw [empty]; intro row held; cases held)).mpr active
  rw [hidden] at reads
  cases reads

end Sreality.Scraper.Liveness
