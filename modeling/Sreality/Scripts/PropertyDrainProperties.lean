import Mathlib.Data.List.Induction
import Sreality.Foundation.Ranked
import Sreality.Scripts.PropertyDrain

/-! The drain ends and drops no mark: a removed row carries the mark of its claim, which the
recompute saw, and the last mark of a property is in the queue or was claimed. -/

set_option autoImplicit false

namespace Sreality.Scripts.PropertyDrain

open Sreality.Foundation
open Sreality.Scripts.PropertySweep (DirtyRow)

/-! ### Marks -/

/-- The mark of a row is a writer's. -/
def Writer.Marks (writer : Writer) (row : DirtyRow) : Prop :=
  row.markedAt = writer.startedAt ∧ row.propertyId ∈ writer.properties

/-- The mark was left by one of the committed transactions. -/
def Stamped (committed : List Writer) (row : DirtyRow) : Prop :=
  ∃ writer ∈ committed, writer.Marks row

/-- The mark was left by the last of them on its property. -/
def LastStamp (committed : List Writer) (row : DirtyRow) : Prop :=
  ∃ before writer after, committed = before ++ writer :: after ∧ writer.Marks row ∧
    ∀ later ∈ after, row.propertyId ∉ later.properties

theorem LastStamp.stamped {committed : List Writer} {row : DirtyRow}
    (last : LastStamp committed row) : Stamped committed row := by
  obtain ⟨before, writer, after, rfl, marks, _⟩ := last
  exact ⟨writer, by simp, marks⟩

theorem Stamped.mono {committed others : List Writer} {row : DirtyRow}
    (stamped : Stamped committed row) (within : committed <+: others) : Stamped others row := by
  obtain ⟨writer, held, marks⟩ := stamped
  exact ⟨writer, within.subset held, marks⟩

theorem lastStamp_concat {committed : List Writer} {writer : Writer} {row : DirtyRow} :
    LastStamp (committed ++ [writer]) row ↔
      writer.Marks row ∨ row.propertyId ∉ writer.properties ∧ LastStamp committed row := by
  constructor
  · rintro ⟨before, last, after, shape, marks, none_⟩
    cases after using List.reverseRecOn with
    | nil =>
        obtain ⟨_, same⟩ := List.append_inj' shape rfl
        cases same
        exact .inl marks
    | append_singleton front newest =>
        have parts : committed ++ [writer] = (before ++ last :: front) ++ [newest] := by
          rw [shape]
          simp
        obtain ⟨same, one⟩ := List.append_inj' parts rfl
        cases one
        exact .inr ⟨none_ writer (by simp), before, last, front, same, marks,
          fun later held => none_ later (List.mem_append_left _ held)⟩
  · rintro (marks | ⟨out, before, last, after, rfl, marks, none_⟩)
    · exact ⟨committed, writer, [], rfl, marks, by simp⟩
    · refine ⟨before, last, after ++ [writer], by simp, marks, fun later held => ?_⟩
      rcases List.mem_append.mp held with early | newest
      · exact none_ later early
      · rw [List.mem_singleton.mp newest]
        exact out

theorem mem_markDirty {writer : Writer} {dirty : List DirtyRow} {row : DirtyRow} :
    row ∈ markDirty writer dirty ↔
      writer.Marks row ∨ row.propertyId ∉ writer.properties ∧ row ∈ dirty := by
  unfold markDirty
  rw [List.mem_append, mem_updateRows, List.mem_map]
  constructor
  · rintro (⟨old, held, same⟩ | ⟨id, fresh, rfl⟩)
    · by_cases marked : old.propertyId ∈ writer.properties
      · rw [if_pos (List.contains_iff_mem.mpr marked)] at same
        subst same
        exact .inl ⟨rfl, marked⟩
      · rw [if_neg fun listed => marked (List.contains_iff_mem.mp listed)] at same
        subst same
        exact .inr ⟨marked, held⟩
    · exact .inl ⟨rfl, List.mem_dedup.mp (List.mem_of_mem_filter fresh)⟩
  · rintro (⟨mark, listed⟩ | ⟨out, held⟩)
    · by_cases queued : ∃ old ∈ dirty, old.propertyId = row.propertyId
      · obtain ⟨old, held, same⟩ := queued
        refine .inl ⟨old, held, ?_⟩
        rw [if_pos (List.contains_iff_mem.mpr (same ▸ listed))]
        cases row
        cases mark
        cases same
        rfl
      · refine .inr ⟨row.propertyId, List.mem_filter.mpr ⟨List.mem_dedup.mpr listed, ?_⟩, ?_⟩
        · rw [Bool.not_eq_true', List.any_eq_false]
          intro old held same
          exact queued ⟨old, held, of_decide_eq_true same⟩
        · cases row
          cases mark
          rfl
    · exact .inl ⟨row, held, (if_neg fun listed => out (List.contains_iff_mem.mp listed)).symm⟩

theorem keyed_markDirty {writer : Writer} {dirty : List DirtyRow}
    (keyed : Keyed DirtyRow.propertyId dirty) :
    Keyed DirtyRow.propertyId (markDirty writer dirty) := by
  unfold markDirty Keyed
  rw [List.map_append, List.map_map]
  refine List.nodup_append.mpr ⟨keyed.updateRows fun _ => rfl, ?_, ?_⟩
  · have ids := (List.nodup_dedup writer.properties).filter fun id =>
      !dirty.any fun row => decide (row.propertyId = id)
    exact (List.map_id _).symm ▸ ids
  · intro id oneIn other otherIn same
    obtain ⟨row, held, rfl⟩ := List.mem_map.mp oneIn
    obtain ⟨old, listed, rfl⟩ := mem_updateRows.mp held
    obtain ⟨fresh, freshIn, rfl⟩ := List.mem_map.mp otherIn
    have absent := (List.mem_filter.mp freshIn).2
    rw [Bool.not_eq_true', List.any_eq_false] at absent
    refine absent old listed (decide_eq_true ?_)
    rw [← show fresh = fresh from rfl]
    change _ = fresh at same
    rw [← same]
    split <;> rfl

theorem dequeued_iff {rows : List DirtyRow} {row : DirtyRow} :
    dequeued rows row = true ↔ row ∈ rows := by
  unfold dequeued
  rw [List.any_eq_true]
  constructor
  · rintro ⟨claimed, listed, same⟩
    rw [Bool.and_eq_true, decide_eq_true_eq, decide_eq_true_eq] at same
    have one : row = claimed := by
      cases row
      cases claimed
      cases same.1
      cases same.2
      rfl
    exact one ▸ listed
  · intro listed
    exact ⟨row, listed, by simp⟩

/-! ### What holds of every state -/

structure SliceSound (committed : List Writer) (slice : Slice) : Prop where
  some_ : slice.claimed ≠ []
  removed : ∀ row ∈ slice.removed, row ∈ slice.claimed
  stamped : ∀ row ∈ slice.claimed, Stamped slice.visible row
  seen : slice.visible <+: slice.computedFrom
  within : slice.computedFrom <+: committed

/-- The slice in hand: its rows and what its claim and its recompute saw. -/
def World.flight (world : World) : Option (List DirtyRow × List Writer × List Writer) :=
  match world.phase with
  | .claimed rows visible => some (rows, visible, visible)
  | .recomputed rows visible computedFrom => some (rows, visible, computedFrom)
  | _ => none

structure Flight (world : World) (rows : List DirtyRow) (visible computedFrom : List Writer) :
    Prop where
  some_ : rows ≠ []
  distinct : rows.Nodup
  stamped : ∀ row ∈ rows, Stamped visible row
  seen : visible <+: computedFrom
  within : computedFrom <+: world.committed
  after : ∀ slice ∈ world.slices, slice.visible <+: visible
  fresh : ∀ slice ∈ world.slices, ∀ row ∈ rows, row ∉ slice.claimed

structure Sound (writers : List Writer) (world : World) : Prop where
  same : (world.committed ++ world.pending).Perm writers
  keyed : Keyed DirtyRow.propertyId world.dirty
  stamped : ∀ row ∈ world.dirty, LastStamp world.committed row
  kept : ∀ row, LastStamp world.committed row →
    row ∈ world.dirty ∨ ∃ slice ∈ world.slices, row ∈ slice.removed
  slices : ∀ slice ∈ world.slices, SliceSound world.committed slice
  order : world.slices.Pairwise fun earlier later => earlier.visible <+: later.visible
  gone : ∀ slice ∈ world.slices, ∀ row ∈ slice.claimed, row ∉ world.dirty
  distinct : (world.slices.flatMap (·.claimed)).Nodup
  flight : ∀ rows visible computedFrom, world.flight = some (rows, visible, computedFrom) →
    Flight world rows visible computedFrom

variable {writers : List Writer} {world after : World} {cutoff : ℚ} {batchSize : Nat}

theorem sound_start : Sound writers (start writers) where
  same := List.Perm.refl _
  keyed := List.nodup_nil
  stamped := fun row held => by cases held
  kept := by
    rintro row ⟨before, writer, after, shape, _⟩
    simp [start] at shape
  slices := fun slice held => by cases held
  order := List.Pairwise.nil
  gone := fun slice held => by cases held
  distinct := List.nodup_nil
  flight := fun rows visible computedFrom inHand => by cases inHand

namespace Sound

/-- A commit marks the properties of its transaction. -/
theorem commit (starts : Keyed Writer.startedAt writers) (sound : Sound writers world)
    {writer : Writer} (held : writer ∈ world.pending) :
    Sound writers { world with
      pending := world.pending.filter fun other => decide (other.startedAt ≠ writer.startedAt)
      committed := world.committed ++ [writer]
      dirty := markDirty writer world.dirty } := by
  have keys : Keyed Writer.startedAt (world.committed ++ world.pending) :=
    (sound.same.map Writer.startedAt).nodup_iff.mpr starts
  have grows : world.committed <+: world.committed ++ [writer] := List.prefix_append _ _
  -- No row in hand or behind carries the mark of a transaction that had not committed.
  have unmarked : ∀ row, Stamped world.committed row → ¬writer.Marks row := by
    rintro row ⟨other, committed, marks⟩ own
    unfold Keyed at keys
    rw [List.map_append] at keys
    have apart := (List.nodup_append.mp keys).2.2
    exact apart _ (List.mem_map_of_mem committed) _ (List.mem_map_of_mem held)
      (marks.1.symm.trans own.1)
  refine ⟨?_, keyed_markDirty sound.keyed, fun row marked => ?_, fun row last => ?_,
    fun slice listed => ?_, sound.order, fun slice listed row claimed marked => ?_,
    sound.distinct, fun rows visible computedFrom inHand => ?_⟩
  · have waiting : Keyed Writer.startedAt world.pending :=
      keys.sublist ((List.sublist_append_right _ _).map _)
    have split := List.filter_append_perm
      (fun other : Writer => other.startedAt == writer.startedAt) world.pending
    rw [waiting.filter_key held] at split
    have rest : (world.pending.filter fun other => decide (other.startedAt ≠ writer.startedAt)) =
        world.pending.filter fun other => !(other.startedAt == writer.startedAt) := by
      apply List.filter_congr
      intro other _
      rw [decide_not, beq_eq_decide]
    dsimp only
    rw [rest, List.append_assoc]
    exact (split.append_left world.committed).trans sound.same
  · exact lastStamp_concat.mpr ((mem_markDirty.mp marked).imp id fun both =>
      ⟨both.1, sound.stamped row both.2⟩)
  · rcases lastStamp_concat.mp last with marks | ⟨out, before⟩
    · exact .inl (mem_markDirty.mpr (.inl marks))
    · exact (sound.kept row before).imp (fun queued => mem_markDirty.mpr (.inr ⟨out, queued⟩)) id
  · have old := sound.slices slice listed
    exact ⟨old.some_, old.removed, old.stamped, old.seen, old.within.trans grows⟩
  · have old := sound.slices slice listed
    rcases mem_markDirty.mp marked with marks | ⟨_, queued⟩
    · exact unmarked row ((old.stamped row claimed).mono (old.seen.trans old.within)) marks
    · exact sound.gone slice listed row claimed queued
  · have old := sound.flight rows visible computedFrom inHand
    exact ⟨old.some_, old.distinct, old.stamped, old.seen, old.within.trans grows, old.after,
      old.fresh⟩

/-- A claim takes rows of the queue that no earlier slice had. -/
theorem claim (sound : Sound writers world) {rows : List DirtyRow} (some_ : rows ≠ [])
    (claims : Claims cutoff batchSize world.dirty rows) :
    Sound writers { world with phase := .claimed rows world.committed } := by
  refine ⟨sound.same, sound.keyed, sound.stamped, sound.kept, sound.slices, sound.order,
    sound.gone, sound.distinct, fun _ _ _ inHand => ?_⟩
  cases inHand
  obtain ⟨distinct, queued, _⟩ := claims
  exact ⟨some_, distinct, fun row listed => (sound.stamped row (queued row listed).1).stamped,
    List.prefix_rfl, List.prefix_rfl, fun slice listed =>
      (sound.slices slice listed).seen.trans (sound.slices slice listed).within,
    fun slice listed row held claimed =>
      sound.gone slice listed row claimed (queued row held).1⟩

theorem recompute (sound : Sound writers world) {rows : List DirtyRow} {visible : List Writer}
    (phase : world.phase = .claimed rows visible) :
    Sound writers { world with phase := .recomputed rows visible world.committed } := by
  refine ⟨sound.same, sound.keyed, sound.stamped, sound.kept, sound.slices, sound.order,
    sound.gone, sound.distinct, fun _ _ _ inHand => ?_⟩
  cases inHand
  have old := sound.flight rows visible visible (by unfold World.flight; rw [phase])
  exact ⟨old.some_, old.distinct, old.stamped, old.within, List.prefix_rfl, old.after, old.fresh⟩

/-- The dequeue leaves no claimed row with the mark of its claim. -/
theorem dequeue (sound : Sound writers world) {rows : List DirtyRow}
    {visible computedFrom : List Writer}
    (phase : world.phase = .recomputed rows visible computedFrom) :
    Sound writers { world with
      dirty := world.dirty.filter fun row => !dequeued rows row
      slices := world.slices ++
        [{ claimed := rows, visible := visible, computedFrom := computedFrom
           removed := world.dirty.filter (dequeued rows) }]
      total := world.total + rows.length
      phase := .claiming } := by
  have old := sound.flight rows visible computedFrom (by unfold World.flight; rw [phase])
  refine ⟨sound.same, sound.keyed.filter _, fun row held => ?_, fun row last => ?_,
    fun slice listed => ?_, ?_, fun slice listed row claimed held => ?_, ?_,
    fun _ _ _ inHand => by cases inHand⟩
  · exact sound.stamped row (List.mem_of_mem_filter held)
  · rcases sound.kept row last with queued | ⟨slice, listed, removed⟩
    · cases taken : dequeued rows row with
      | true =>
          exact .inr ⟨_, List.mem_append_right _ (List.mem_singleton_self _),
            List.mem_filter.mpr ⟨queued, taken⟩⟩
      | false => exact .inl (List.mem_filter.mpr ⟨queued, by rw [taken]; rfl⟩)
    · exact .inr ⟨slice, List.mem_append_left _ listed, removed⟩
  · rcases List.mem_append.mp listed with before | newest
    · exact sound.slices slice before
    · rw [List.mem_singleton.mp newest]
      exact ⟨old.some_, fun row removed => dequeued_iff.mp (List.mem_filter.mp removed).2,
        old.stamped, old.seen, old.within⟩
  · refine List.pairwise_append.mpr ⟨sound.order, List.pairwise_singleton _ _,
      fun slice listed newest held => ?_⟩
    rw [List.mem_singleton.mp held]
    exact old.after slice listed
  · obtain ⟨queued, left⟩ := List.mem_filter.mp held
    rcases List.mem_append.mp listed with before | newest
    · exact sound.gone slice before row claimed queued
    · rw [List.mem_singleton.mp newest] at claimed
      rw [dequeued_iff.mpr claimed] at left
      cases left
  · rw [List.flatMap_append, List.nodup_append]
    refine ⟨sound.distinct, by simpa using old.distinct, fun row earlier same now together => ?_⟩
    obtain ⟨slice, listed, claimed⟩ := List.mem_flatMap.mp earlier
    have held : row ∈ rows := by simpa [together] using now
    exact old.fresh slice listed row held claimed

/-- The run ends, by its empty claim or by a failure. -/
theorem settledAtEnd (sound : Sound writers world) {phase : Phase}
    (ended : ({ world with phase := phase } : World).flight = none) :
    Sound writers { world with phase := phase } := by
  refine ⟨sound.same, sound.keyed, sound.stamped, sound.kept, sound.slices, sound.order,
    sound.gone, sound.distinct, fun _ _ _ inHand => ?_⟩
  rw [ended] at inHand
  cases inHand

end Sound

/-! ### The steps -/

/-- What is left of a run: transactions to commit, marks to claim and statements to come. -/
def Phase.rank : Phase → Nat
  | .claiming => 3
  | .claimed _ _ => 2
  | .recomputed _ _ _ => 1
  | .returned => 0
  | .failed => 0

/-- The marks the transactions leave. -/
def marks (writers : List Writer) : List DirtyRow :=
  writers.flatMap fun writer => writer.properties.dedup.map fun id =>
    { propertyId := id, markedAt := writer.startedAt }

def World.claimed (world : World) : Nat := (world.slices.flatMap (·.claimed)).length

def World.left (writers : List Writer) (world : World) : Nat :=
  world.pending.length + 3 * ((marks writers).length - world.claimed) + world.phase.rank

theorem mem_marks {row : DirtyRow} (stamped : Stamped writers row) : row ∈ marks writers := by
  obtain ⟨writer, held, mark, listed⟩ := stamped
  refine List.mem_flatMap.mpr ⟨writer, held, List.mem_map.mpr
    ⟨row.propertyId, List.mem_dedup.mpr listed, ?_⟩⟩
  cases row
  cases mark
  rfl

theorem Sound.claimed_le (sound : Sound writers world) : world.claimed ≤ (marks writers).length := by
  refine (sound.distinct.subperm fun row claimed => ?_).length_le
  obtain ⟨slice, listed, held⟩ := List.mem_flatMap.mp claimed
  have old := sound.slices slice listed
  obtain ⟨writer, committed, own⟩ :=
    (old.stamped row held).mono (old.seen.trans old.within)
  exact mem_marks ⟨writer, sound.same.subset (List.mem_append_left _ committed), own⟩

/-- A step keeps the invariant, and there is less left after it. -/
theorem Sound.step (starts : Keyed Writer.startedAt writers) (sound : Sound writers world)
    {action : Action} (taken : PropertyDrain.step cutoff batchSize world action = some after) :
    Sound writers after ∧ after.left writers < world.left writers := by
  cases action with
  | commit startedAt =>
      simp only [PropertyDrain.step] at taken
      split at taken
      · cases taken
      · rename_i writer found
        cases taken
        have held := List.mem_of_find?_eq_some found
        have own := List.find?_some found
        have same : writer.startedAt = startedAt := of_decide_eq_true own
        subst same
        refine ⟨sound.commit starts held, ?_⟩
        have fewer : (world.pending.filter fun other =>
            decide (other.startedAt ≠ writer.startedAt)).length < world.pending.length :=
          List.length_filter_lt_length_iff_exists.mpr ⟨writer, held, by simp⟩
        simp only [World.left, World.claimed]
        omega
  | claim rows =>
      simp only [PropertyDrain.step] at taken
      split at taken
      · rename_i phase
        split at taken
        · rename_i claims
          split at taken
          · cases taken
            refine ⟨sound.settledAtEnd rfl, ?_⟩
            simp only [World.left, World.claimed, phase, Phase.rank]
            omega
          · rename_i some_
            cases taken
            refine ⟨sound.claim some_ claims, ?_⟩
            simp only [World.left, World.claimed, phase, Phase.rank]
            omega
        · cases taken
      · cases taken
  | recompute =>
      simp only [PropertyDrain.step] at taken
      split at taken
      · rename_i rows visible phase
        cases taken
        refine ⟨sound.recompute phase, ?_⟩
        simp only [World.left, World.claimed, phase, Phase.rank]
        omega
      · cases taken
  | dequeue =>
      simp only [PropertyDrain.step] at taken
      split at taken
      · rename_i rows visible computedFrom phase
        cases taken
        have kept := sound.dequeue phase
        refine ⟨kept, ?_⟩
        have bounded := kept.claimed_le
        have some_ := List.length_pos_iff.mpr
          (sound.flight rows visible computedFrom (by unfold World.flight; rw [phase])).some_
        simp only [World.left, World.claimed, phase, Phase.rank, List.flatMap_append,
          List.length_append, List.flatMap_cons, List.flatMap_nil, List.append_nil] at bounded ⊢
        omega
      · cases taken
  | fail =>
      simp only [PropertyDrain.step] at taken
      split at taken
      · cases taken
      · cases taken
      · rename_i returned failed
        cases taken
        refine ⟨sound.settledAtEnd rfl, ?_⟩
        simp only [World.left, World.claimed]
        cases phase : world.phase with
        | claiming => simp [Phase.rank]
        | claimed rows visible => simp [Phase.rank]
        | recomputed rows visible computedFrom => simp [Phase.rank]
        | returned => exact absurd phase returned
        | failed => exact absurd phase failed

theorem sound_replay (starts : Keyed Writer.startedAt writers) : ∀ {actions : List Action}
    {world after : World}, Sound writers world →
      replay (step cutoff batchSize) world actions = some after →
        Sound writers after ∧ actions.length + after.left writers ≤ world.left writers := by
  intro actions
  induction actions with
  | nil =>
      intro world after sound replayed
      cases replayed
      exact ⟨sound, by simp⟩
  | cons action rest ih =>
      intro world after sound replayed
      obtain ⟨middle, taken, onward⟩ := Option.bind_eq_some_iff.mp replayed
      obtain ⟨kept, falls⟩ := sound.step starts taken
      obtain ⟨last, fewer⟩ := ih kept onward
      refine ⟨last, ?_⟩
      rw [List.length_cons]
      omega

/-- A statement of the drain, done. -/
def Action.own : Action → Bool
  | .claim _ => true
  | .recompute => true
  | .dequeue => true
  | _ => false

/-- As long as the run is not over, its next statement can be taken. -/
theorem goes_on (keyed : Keyed DirtyRow.propertyId world.dirty) (running : world.phase ≠ .returned)
    (sane : world.phase ≠ .failed) :
    ∃ action : Action, action.own = true ∧ (step cutoff batchSize world action).isSome := by
  cases phase : world.phase with
  | claiming =>
      have waiting : (world.dirty.filter fun row => decide (row.markedAt ≤ cutoff)).Nodup :=
        keyed.nodup.filter _
      obtain ⟨rows, claims⟩ : ∃ rows, Claims cutoff batchSize world.dirty rows := by
        refine ⟨firstBy DirtyRow.markedAt batchSize
            (world.dirty.filter fun row => decide (row.markedAt ≤ cutoff)),
          nodup_firstBy waiting, fun row taken => ?_, length_firstBy,
          (pairwise_sortedBy _ _).sublist (List.take_sublist _ _), fun row held due left taken
            first => ?_⟩
        · obtain ⟨held, due⟩ := List.mem_filter.mp (mem_of_mem_firstBy taken)
          exact ⟨held, of_decide_eq_true due⟩
        · exact le_of_mem_firstBy first (List.mem_filter.mpr ⟨held, decide_eq_true due⟩) left
      refine ⟨.claim rows, rfl, ?_⟩
      simp only [step, phase]
      rw [if_pos claims]
      split <;> rfl
  | claimed rows visible =>
      refine ⟨.recompute, rfl, ?_⟩
      simp only [step, phase]
      rfl
  | recomputed rows visible computedFrom =>
      refine ⟨.dequeue, rfl, ?_⟩
      simp only [step, phase]
      rfl
  | returned => exact absurd phase running
  | failed => exact absurd phase sane

/-! ### No mark is dropped -/

/-- A row removed by a slice has the mark of its claim, and the recompute of the slice saw every
transaction that had marked its property by then. -/
structure Removed (slice : Slice) (row : DirtyRow) : Prop where
  claimed : row ∈ slice.claimed
  seen : ∀ writer ∈ slice.visible, row.propertyId ∈ writer.properties →
    writer ∈ slice.computedFrom

/-- Where a mark of a transaction that committed after a claim has gone: the queue, a later slice,
or a mark that committed later still. -/
def Restamped (world : World) (later : List Slice) (writer : Writer) (id : Nat) : Prop :=
  ({ propertyId := id, markedAt := writer.startedAt } : DirtyRow) ∈ world.dirty ∨
    (∃ slice ∈ later, ({ propertyId := id, markedAt := writer.startedAt } : DirtyRow) ∈
      slice.claimed) ∨
    ∃ before after, world.committed = before ++ writer :: after ∧
      ∃ newer ∈ after, id ∈ newer.properties

theorem Sound.restamped (starts : Keyed Writer.startedAt writers) (sound : Sound writers world)
    {front back : List Slice} {slice : Slice} (shape : world.slices = front ++ slice :: back)
    {writer : Writer} (committed : writer ∈ world.committed) (behind : writer ∉ slice.visible)
    {id : Nat} (marked : id ∈ writer.properties) : Restamped world back writer id := by
  obtain ⟨before, rest, parts⟩ := List.append_of_mem committed
  by_cases newer : ∃ other ∈ rest, id ∈ other.properties
  · exact .inr (.inr ⟨before, rest, parts, newer⟩)
  · have last : LastStamp world.committed { propertyId := id, markedAt := writer.startedAt } :=
      ⟨before, writer, rest, parts, ⟨rfl, marked⟩, fun other held listed =>
        newer ⟨other, held, listed⟩⟩
    rcases sound.kept _ last with queued | ⟨other, listed, removed⟩
    · exact .inl queued
    · refine .inr (.inl ⟨other, ?_, (sound.slices other listed).removed _ removed⟩)
      -- The slice that claimed the mark saw its transaction, so it is no earlier one.
      have old := sound.slices other listed
      obtain ⟨twin, seen, mark, _⟩ := old.stamped _ (old.removed _ removed)
      have keys : Keyed Writer.startedAt (world.committed ++ world.pending) :=
        (sound.same.map Writer.startedAt).nodup_iff.mpr starts
      have one : twin = writer :=
        keys.eq (List.mem_append_left _ ((old.seen.trans old.within).subset seen))
          (List.mem_append_left _ committed) mark.symm
      rw [one] at seen
      rw [shape] at listed
      rcases List.mem_append.mp listed with early | here
      · have order := sound.order
        rw [shape] at order
        have within := (List.pairwise_append.mp order).2.2 other early slice List.mem_cons_self
        exact absurd (within.subset seen) behind
      · rcases List.mem_cons.mp here with same | later
        · exact absurd (same ▸ seen) behind
        · exact later

/-- A run of the drain among the transactions of the writers. -/
structure DrainKeeps (cutoff : ℚ) (batchSize : Nat) (writers : List Writer) : Prop where
  ends : ∀ {actions : List Action} {world : World},
    replay (step cutoff batchSize) (start writers) actions = some world →
      actions.length ≤ writers.length + 3 * (marks writers).length + 3
  goesOn : ∀ {actions : List Action} {world : World},
    replay (step cutoff batchSize) (start writers) actions = some world →
      world.phase ≠ .returned → world.phase ≠ .failed →
        ∃ action : Action, action.own = true ∧ (step cutoff batchSize world action).isSome
  removed : ∀ {actions : List Action} {world : World},
    replay (step cutoff batchSize) (start writers) actions = some world →
      ∀ slice ∈ world.slices, ∀ row ∈ slice.removed, Removed slice row
  restamped : ∀ {actions : List Action} {world : World},
    replay (step cutoff batchSize) (start writers) actions = some world →
      ∀ front slice back, world.slices = front ++ slice :: back → ∀ row ∈ slice.claimed,
        ∀ writer ∈ world.committed, writer ∉ slice.visible →
          row.propertyId ∈ writer.properties → Restamped world back writer row.propertyId

theorem drain_keeps (cutoff : ℚ) (batchSize : Nat) {writers : List Writer}
    (starts : Keyed Writer.startedAt writers) : DrainKeeps cutoff batchSize writers where
  ends := fun replayed => by
    obtain ⟨_, fewer⟩ := sound_replay starts sound_start replayed
    simp only [World.left, World.claimed, start, Phase.rank, List.flatMap_nil,
      List.length_nil] at fewer
    omega
  goesOn := fun replayed running sane =>
    goes_on (sound_replay starts sound_start replayed).1.keyed running sane
  removed := fun replayed slice listed row removed => by
    have old := (sound_replay starts sound_start replayed).1.slices slice listed
    exact ⟨old.removed row removed, fun writer seen _ => old.seen.subset seen⟩
  restamped := fun replayed _ _ _ shape _ _ _ committed behind marked =>
    (sound_replay starts sound_start replayed).1.restamped starts shape committed behind marked

/-- Of two marks that commit after a claim the first is neither in the queue at the end nor claimed
by a later slice: the second one took its row. -/
theorem restamp_replaced : ∃ world,
    replay (step 1 10) (start [⟨1, [7]⟩, ⟨2, [7]⟩, ⟨3, [7]⟩])
      [.commit 1, .claim [⟨7, 1⟩], .commit 2, .commit 3, .recompute, .dequeue, .claim []] =
        some world ∧
    world.phase = .returned ∧
    ¬∀ front slice back, world.slices = front ++ slice :: back → ∀ row ∈ slice.claimed,
      ∀ writer ∈ world.committed, writer ∉ slice.visible → row.propertyId ∈ writer.properties →
        ({ propertyId := row.propertyId, markedAt := writer.startedAt } : DirtyRow) ∈
          world.dirty ∨
        ∃ later ∈ back, ({ propertyId := row.propertyId, markedAt := writer.startedAt } :
          DirtyRow) ∈ later.claimed := by
  refine ⟨_, rfl, by decide, fun kept => ?_⟩
  have lost := kept [] _ [] rfl ⟨7, 1⟩ (by decide) ⟨2, [7]⟩ (by decide) (by decide) (by decide)
  revert lost
  decide

theorem drain_keeps_sample : Keyed Writer.startedAt [⟨1, [7, 8]⟩, ⟨2, [7]⟩, ⟨3, [8]⟩] ∧
    DrainKeeps 2 1 [⟨1, [7, 8]⟩, ⟨2, [7]⟩, ⟨3, [8]⟩] := by
  have starts : Keyed Writer.startedAt [⟨1, [7, 8]⟩, ⟨2, [7]⟩, ⟨3, [8]⟩] := by
    unfold Keyed
    decide
  exact ⟨starts, drain_keeps 2 1 starts⟩

end Sreality.Scripts.PropertyDrain
