import Mathlib.Data.List.Pairwise
import Mathlib.Tactic.Linarith
import Sreality.Scraper.DetailQueueLedger

/-! Who holds a row of the detail queue: one drain, and no newer request is thrown away, while
each drain works on the rows it still has. A claim carries no owner, so a drain that outlives
its claim acts on whichever row has the id. -/

set_option autoImplicit false

namespace Sreality.Scraper.DetailQueue

open Sreality.Foundation

namespace World

variable {world after : World}

/-! ### The claims -/

/-- A claim is over the cutoff or its row still carries its stamp, and then no enqueue changed
the row since; two claims of one row are the cutoff apart. -/
structure Held (world : World) : Prop where
  stamped : ∀ hold ∈ world.holds, hold.claimedAt + staleSeconds < world.now ∨
    ∃ row ∈ world.rows, row.nativeId = hold.nativeId ∧ row.claimedAt = some hold.claimedAt
  spaced : world.holds.Pairwise fun earlier later =>
    earlier.nativeId = later.nativeId → earlier.claimedAt + staleSeconds < later.claimedAt
  unchanged : ∀ hold ∈ world.holds, ∀ row ∈ world.rows, row.nativeId = hold.nativeId →
    row.claimedAt = some hold.claimedAt → hold.request = requests world.history hold.nativeId

/-- One stamp on one row is one claim. -/
theorem Held.one (held : world.Held) {hold other : Hold} (holdHeld : hold ∈ world.holds)
    (otherHeld : other ∈ world.holds) (row : hold.nativeId = other.nativeId)
    (stamp : hold.claimedAt = other.claimedAt) : hold = other := by
  by_contra differ
  have either : Std.Symm fun one two : Hold => one.nativeId = two.nativeId →
      one.claimedAt + staleSeconds < two.claimedAt ∨
        two.claimedAt + staleSeconds < one.claimedAt :=
    ⟨fun _ _ apart same => (apart same.symm).symm⟩
  have spaced := (held.spaced.imp fun apart same => .inl (apart same) :
    world.holds.Pairwise fun one two => one.nativeId = two.nativeId →
      one.claimedAt + staleSeconds < two.claimedAt ∨ two.claimedAt + staleSeconds < one.claimedAt)
  have apart := spaced.forall holdHeld otherHeld differ row
  rw [stamp] at apart
  have positive : (0 : ℚ) < staleSeconds := by norm_num [staleSeconds]
  cases apart with
  | inl before => linarith
  | inr before => linarith

/-- A step keeps the claims when each stamp of a hold stays or is over the cutoff, and each
stamp left is an old one on a row no enqueue changed. -/
theorem Held.of_stamps (held : world.Held) (holds : after.holds.Sublist world.holds)
    (now : world.now ≤ after.now)
    (stays : ∀ hold ∈ after.holds, ∀ row ∈ world.rows, row.nativeId = hold.nativeId →
      row.claimedAt = some hold.claimedAt → hold.claimedAt + staleSeconds < after.now ∨
        ∃ other ∈ after.rows, other.nativeId = hold.nativeId ∧
          other.claimedAt = some hold.claimedAt)
    (came : ∀ other ∈ after.rows, ∀ claimedAt, other.claimedAt = some claimedAt →
      ∃ row ∈ world.rows, row.nativeId = other.nativeId ∧ row.claimedAt = some claimedAt ∧
        requests after.history row.nativeId = requests world.history row.nativeId) :
    after.Held where
  stamped := by
    intro hold holdHeld
    cases held.stamped hold (holds.subset holdHeld) with
    | inl old => exact .inl (old.trans_le now)
    | inr current =>
        obtain ⟨row, rowHeld, same, stamp⟩ := current
        exact stays hold holdHeld row rowHeld same stamp
  spaced := held.spaced.sublist holds
  unchanged := by
    intro hold holdHeld other otherHeld same stamp
    obtain ⟨row, rowHeld, named, rowStamp, asked⟩ := came other otherHeld _ stamp
    have known := held.unchanged hold (holds.subset holdHeld) row rowHeld (named.trans same) rowStamp
    rw [known, ← same, ← named, asked]

/-- An update that keeps every id and, where it applies, the stamp; the enqueues it records
are of unclaimed rows. -/
theorem Held.retouch (held : world.Held) {applies : QueueRow → Bool}
    {change : QueueRow → QueueRow} {history : List Event}
    (keeps : ∀ row, (change row).nativeId = row.nativeId ∧ (change row).claimedAt = row.claimedAt)
    (asked : ∀ row ∈ world.rows, row.claimedAt.isSome →
      requests history row.nativeId = requests world.history row.nativeId) :
    Held { world with rows := updateRows applies change world.rows, history := history } := by
  have image : ∀ row, (if applies row then change row else row).nativeId = row.nativeId ∧
      (if applies row then change row else row).claimedAt = row.claimedAt := by
    intro row
    by_cases applied : applies row <;> simp [applied, keeps]
  apply held.of_stamps
  · exact List.Sublist.refl _
  · exact le_refl _
  · intro hold _ row rowHeld same stamp
    obtain ⟨id, claimedAt⟩ := image row
    exact .inr ⟨_, mem_updateRows.mpr ⟨row, rowHeld, rfl⟩, id.trans same, claimedAt.trans stamp⟩
  · intro other otherHeld claimedAt stamp
    obtain ⟨row, rowHeld, rfl⟩ := mem_updateRows.mp otherHeld
    obtain ⟨id, same⟩ := image row
    rw [same] at stamp
    exact ⟨row, rowHeld, id.symm, stamp, asked row rowHeld (by simp [stamp])⟩

theorem upsert_held (kept : world.Kept) (held : world.Held) (entry : Entry) :
    (world.upsert entry).Held := by
  obtain ⟨fresh, inserted⟩ | ⟨⟨found, foundHeld, named, free⟩, refreshed⟩ | untouched :=
    upsert_cases world entry
  · rw [inserted]
    apply held.of_stamps
    · exact List.Sublist.refl _
    · exact le_refl _
    · intro hold _ row rowHeld same stamp
      exact .inr ⟨row, List.mem_append_left _ rowHeld, same, stamp⟩
    · intro other otherHeld claimedAt stamp
      cases List.mem_append.mp otherHeld with
      | inl old =>
          refine ⟨other, old, rfl, stamp, ?_⟩
          apply requests_append_of_unrelated
          simp [fresh other old]
      | inr new =>
          cases List.mem_singleton.mp new
          cases stamp
  · rw [refreshed]
    apply held.retouch
    · exact fun _ => ⟨rfl, rfl⟩
    · intro row rowHeld claimed
      apply requests_append_of_unrelated
      intro asked
      have same : row.nativeId = entry.nativeId := by simpa using asked
      rw [kept.keyed.eq rowHeld foundHeld (same.trans named.symm), free] at claimed
      cases claimed
  · rw [untouched]
    exact held

theorem enqueueDetail_held (kept : world.Kept) (held : world.Held) (entries : List Entry) :
    (world.enqueueDetail entries).Held := by
  unfold enqueueDetail
  induction accepted entries generalizing world with
  | nil => exact held
  | cons entry rest ih => exact ih (upsert_kept kept entry).1 (upsert_held kept held entry)

theorem rearm_held (kept : world.Kept) (held : world.Held) : world.rearm.Held := by
  apply held.retouch
  · exact fun _ => ⟨rfl, rfl⟩
  · intro row rowHeld claimed
    rw [requests_append_of_unrelated, requests_append_of_unrelated]
    · intro asked
      obtain ⟨_, _, clash⟩ := List.mem_map.mp asked
      cases clash
    · intro asked
      obtain ⟨id, chosen, same⟩ := List.mem_map.mp asked
      cases same
      obtain ⟨other, otherChosen, same⟩ := List.mem_map.mp chosen
      obtain ⟨otherHeld, _, free⟩ := mem_rearmed otherChosen
      rw [← kept.keyed.eq otherHeld rowHeld same, free] at claimed
      cases claimed

theorem enqueuePresenceChecks_held (kept : world.Kept) (held : world.Held)
    (candidates : List (String × Option String × Option Int)) (budget : Nat) :
    (world.enqueuePresenceChecks candidates budget).Held := by
  unfold enqueuePresenceChecks
  split_ifs
  · exact held
  · exact rearm_held (enqueueDetail_kept kept _).1 (enqueueDetail_held kept held _)

/-- A claim stamps rows no drain has: what drains held on them before is over the cutoff. -/
theorem claimDetailBatch_held (kept : world.Kept) (held : world.Held) (drain limit : Nat)
    (reserve : Float64) : (world.claimDetailBatch drain limit reserve).Held := by
  have inBatch : ∀ row ∈ world.rows, row.nativeId ∈
      (claimBatch world.rows limit reserve).map (·.nativeId) → row.claimedAt = none := by
    intro row rowHeld named
    obtain ⟨taken, takenIn, same⟩ := List.mem_map.mp named
    obtain ⟨takenHeld, free, _⟩ := mem_claimBatch takenIn
    rw [← kept.keyed.eq takenHeld rowHeld same]
    exact free
  have past_ : ∀ hold ∈ world.holds, hold.nativeId ∈
      (claimBatch world.rows limit reserve).map (·.nativeId) →
        hold.claimedAt + staleSeconds < world.now := by
    intro hold holdHeld named
    cases held.stamped hold holdHeld with
    | inl old => exact old
    | inr current =>
        obtain ⟨row, rowHeld, same, stamp⟩ := current
        rw [inBatch row rowHeld (same ▸ named)] at stamp
        cases stamp
  constructor
  · intro hold holdHeld
    cases List.mem_append.mp holdHeld with
    | inl before =>
        cases held.stamped hold before with
        | inl old => exact .inl old
        | inr current =>
            obtain ⟨row, rowHeld, same, stamp⟩ := current
            refine .inr ⟨row, mem_updateRows.mpr ⟨row, rowHeld, ?_⟩, same, stamp⟩
            rw [if_neg]
            intro named
            rw [inBatch row rowHeld (of_decide_eq_true named)] at stamp
            cases stamp
    | inr new =>
        obtain ⟨row, taken, rfl⟩ := List.mem_map.mp new
        refine .inr ⟨{ row with claimedAt := some world.now },
          mem_updateRows.mpr ⟨row, (mem_claimBatch taken).1, ?_⟩, rfl, rfl⟩
        rw [if_pos (decide_eq_true (List.mem_map_of_mem taken))]
  · apply List.pairwise_append.mpr
    refine ⟨held.spaced, ?_, ?_⟩
    · apply List.pairwise_map.mpr
      have distinct := List.pairwise_map.mp (claimBatch_nodup kept.keyed limit reserve)
      exact distinct.imp fun differ same => absurd same differ
    · intro earlier before later new same
      obtain ⟨row, taken, rfl⟩ := List.mem_map.mp new
      exact past_ earlier before (same ▸ List.mem_map_of_mem taken)
  · intro hold holdHeld other otherHeld same stamp
    obtain ⟨row, rowHeld, rfl⟩ := mem_updateRows.mp otherHeld
    cases List.mem_append.mp holdHeld with
    | inl before =>
        by_cases taken : row.nativeId ∈ (claimBatch world.rows limit reserve).map (·.nativeId)
        · rw [if_pos (decide_eq_true taken)] at same stamp
          have past := past_ hold before (same ▸ taken)
          have stamped : world.now = hold.claimedAt := Option.some.inj stamp
          have positive : (0 : ℚ) < staleSeconds := by norm_num [staleSeconds]
          linarith
        · rw [if_neg (by simpa using taken)] at same stamp
          exact held.unchanged hold before row rowHeld same stamp
    | inr new =>
        obtain ⟨taken, _, rfl⟩ := List.mem_map.mp new
        rfl

/-- Rows handed back under the drain's items: another claim on them is over the cutoff. -/
theorem Held.letGo (held : world.Held) {drain : Nat} {items : List Hold}
    (holding : world.Holding drain items) {applies : QueueRow → Bool}
    {change : QueueRow → QueueRow} {history : List Event}
    (covers : ∀ row, applies row = true → row.nativeId ∈ items.map (·.nativeId))
    (clears : ∀ row, (change row).nativeId = row.nativeId ∧ (change row).claimedAt = none)
    (asked : ∀ id, requests history id = requests world.history id)
    (current : ∀ row ∈ world.rows, row.nativeId ∈ items.map (·.nativeId) →
      ∀ claimedAt ∈ row.claimedAt, claimedAt + staleSeconds < world.now ∨
        ∃ item ∈ items, item.nativeId = row.nativeId ∧ item.claimedAt = claimedAt) :
    (World.drop { world with rows := updateRows applies change world.rows, history := history }
      items).Held := by
  apply held.of_stamps
  · exact List.filter_sublist
  · exact le_refl _
  · intro hold holdHeld row rowHeld same stamp
    obtain ⟨before, kept⟩ := List.mem_filter.mp holdHeld
    by_cases applied : applies row = true
    · cases current row rowHeld (covers row applied) hold.claimedAt stamp with
      | inl old => exact .inl old
      | inr own =>
          obtain ⟨item, itemIn, named, stamped⟩ := own
          have one := held.one before (holding item itemIn).1 (same.symm.trans named.symm)
            stamped.symm
          exact absurd (one ▸ itemIn) (of_decide_eq_true kept)
    · exact .inr ⟨row, mem_updateRows.mpr ⟨row, rowHeld, (if_neg applied).symm⟩, same, stamp⟩
  · intro other otherHeld claimedAt stamp
    obtain ⟨row, rowHeld, rfl⟩ := mem_updateRows.mp otherHeld
    by_cases applied : applies row = true
    · rw [if_pos applied, (clears row).2] at stamp
      cases stamp
    · rw [if_neg applied] at stamp ⊢
      exact ⟨row, rowHeld, rfl, stamp, asked _⟩

theorem completeDetail_held (held : world.Held) {drain : Nat} {items : List Hold}
    {outcome : Outcome} (holding : world.Holding drain items)
    (current : world.Current (.complete drain items outcome)) :
    ((world.completeDetail (items.map (·.nativeId)) outcome).drop items).Held := by
  apply held.of_stamps
  · exact List.filter_sublist
  · exact le_refl _
  · intro hold holdHeld row rowHeld same stamp
    obtain ⟨before, kept⟩ := List.mem_filter.mp holdHeld
    by_cases covered : row.nativeId ∈ items.map (·.nativeId)
    · obtain ⟨item, itemIn, named, stamped⟩ := current row rowHeld covered
      have one := held.one before (holding item itemIn).1 (same.symm.trans named.symm)
        (Option.some.inj (stamp.symm.trans stamped))
      exact absurd (one ▸ itemIn) (of_decide_eq_true kept)
    · exact .inr ⟨row, List.mem_filter.mpr ⟨rowHeld, decide_eq_true covered⟩, same, stamp⟩
  · intro other otherHeld claimedAt stamp
    exact ⟨other, List.mem_of_mem_filter otherHeld, rfl, stamp, rfl⟩

/-- What a drain deletes it claimed after the last enqueue of the row. -/
theorem Held.completes (held : world.Held) {drain : Nat} {items : List Hold} {outcome : Outcome}
    (holding : world.Holding drain items)
    (current : world.Current (.complete drain items outcome)) :
    world.CompletesWhatItFetched (.complete drain items outcome) := by
  intro row rowHeld covered
  obtain ⟨item, itemIn, named, stamped⟩ := current row rowHeld covered
  obtain ⟨itemHeld, own⟩ := holding item itemIn
  refine ⟨item, itemIn, itemHeld, own, named, ?_⟩
  rw [held.unchanged item itemHeld row rowHeld named.symm stamped, named]

theorem reclaimStaleClaims_held (held : world.Held) : world.reclaimStaleClaims.Held := by
  apply held.of_stamps
  · exact List.Sublist.refl _
  · exact le_refl _
  · intro hold _ row rowHeld same stamp
    by_cases old : stale world.now row = true
    · rw [stale, stamp, Option.any_some, Bool.and_eq_true, decide_eq_true_iff] at old
      apply Or.inl
      change hold.claimedAt + staleSeconds < world.now
      linarith [old.2]
    · exact .inr ⟨row, mem_updateRows.mpr ⟨row, rowHeld, (if_neg old).symm⟩, same, stamp⟩
  · intro other otherHeld claimedAt stamp
    obtain ⟨row, rowHeld, rfl⟩ := mem_updateRows.mp otherHeld
    by_cases old : stale world.now row = true
    · rw [if_pos old] at stamp
      cases stamp
    · rw [if_neg old] at stamp ⊢
      exact ⟨row, rowHeld, rfl, stamp, rfl⟩

/-- Each step by drains that act on the rows they still have keeps the claims apart. -/
theorem Held.step (kept : world.Kept) (held : world.Held) {action : Action}
    (current : world.Current action) (taken : world.step action = some after) :
    after.Held ∧ world.CompletesWhatItFetched action := by
  cases action with
  | tick seconds =>
      dsimp only [World.step] at taken
      split_ifs at taken with forward
      cases taken
      refine ⟨?_, trivial⟩
      apply held.of_stamps
      · exact List.Sublist.refl _
      · change world.now ≤ world.now + seconds
        linarith
      · exact fun hold _ row rowHeld same stamp => .inr ⟨row, rowHeld, same, stamp⟩
      · exact fun other otherHeld _ stamp => ⟨other, otherHeld, rfl, stamp, rfl⟩
  | enqueue entries =>
      cases taken
      exact ⟨enqueueDetail_held kept held entries, trivial⟩
  | presence candidates budget =>
      cases taken
      exact ⟨enqueuePresenceChecks_held kept held candidates budget, trivial⟩
  | claim drain limit reserve =>
      cases taken
      exact ⟨claimDetailBatch_held kept held drain limit reserve, trivial⟩
  | complete drain items outcome =>
      dsimp only [World.step] at taken
      split_ifs at taken with done
      cases taken
      exact ⟨completeDetail_held held done.1 current, held.completes done.1 current⟩
  | fail drain items error =>
      dsimp only [World.step] at taken
      split_ifs at taken with holding
      cases taken
      refine ⟨?_, trivial⟩
      have letGo : (World.drop
          { world with
            rows := updateRows (fun row => decide (row.nativeId ∈ items.map (·.nativeId)))
              (failed error) world.rows
            history := (world.failDetail (items.map (·.nativeId)) error).history }
          items).Held := by
        apply held.letGo holding
        · exact fun row covered => of_decide_eq_true covered
        · exact fun _ => ⟨rfl, rfl⟩
        · intro id
          apply requests_append_of_unrelated
          intro asked
          obtain ⟨_, _, clash⟩ := List.mem_map.mp asked
          cases clash
        · exact current
      exact ⟨letGo.stamped, letGo.spaced, letGo.unchanged⟩
  | release drain items =>
      dsimp only [World.step] at taken
      split_ifs at taken with holding
      cases taken
      refine ⟨?_, trivial⟩
      apply held.letGo holding
      · intro row covered
        rw [Bool.and_eq_true] at covered
        exact of_decide_eq_true covered.1
      · exact fun _ => ⟨rfl, rfl⟩
      · exact fun _ => rfl
      · exact current
  | reclaim =>
      cases taken
      exact ⟨reclaimStaleClaims_held held, trivial⟩

/-! ### The runs -/

theorem Initial.kept (initial : world.Initial) : world.Kept where
  keyed := by
    rw [initial.rows]
    exact Keyed.nil
  counted := by simp [initial.rows]
  given := by simp [initial.rows]
  numbered := by simp [initial.completions]

theorem Initial.held (initial : world.Initial) : world.Held where
  stamped := by simp [initial.holds]
  spaced := by simp [initial.holds]
  unchanged := by simp [initial.holds]

theorem Kept.run {allowed : World → Action → Prop} {final : World} (initial : world.Initial)
    (run : Reaches World.step allowed world final) : final.Kept :=
  run.invariant Kept initial.kept fun _ _ _ kept _ taken => (kept.step taken).1

theorem Held.run {final : World} (initial : world.Initial)
    (run : Reaches World.step Current world final) : final.Kept ∧ final.Held := by
  apply run.invariant (fun state => state.Kept ∧ state.Held) ⟨initial.kept, initial.held⟩
  intro _ _ _ both current taken
  exact ⟨(both.1.step taken).1, (both.2.step both.1 current taken).1⟩

/-- The ledger accounts for each step of every run, whatever the drains do. -/
theorem every_step_accounted (final : World) (initial : world.Initial)
    (run : Reaches World.step (fun _ _ => True) world final) (action : Action)
    (taken : World.step final action = some after) : final.Accounted action after :=
  ((Kept.run initial run).step taken).2

/-- Drains that act on the rows they still have: one holder a row, no newer request deleted with
an older fetch, each row that leaves or is given up logged once. -/
theorem queue_loses_no_request (world final : World) (initial : world.Initial)
    (run : Reaches World.step Current world final) :
    final.OneHolder ∧ ∀ action after, final.Current action →
      World.step final action = some after →
        final.CompletesWhatItFetched action ∧ final.Accounted action after := by
  obtain ⟨kept, held⟩ := Held.run initial run
  constructor
  · exact held.spaced.imp fun apart same _ => apart same
  · intro action after current taken
    exact ⟨(held.step kept current taken).2, (kept.step taken).2⟩

def emptyQueue : World where
  now := 0
  rows := []
  completions := []
  nextCompletion := 1
  history := []
  holds := []

theorem emptyQueue_initial : emptyQueue.Initial := ⟨rfl, rfl, rfl, rfl⟩

def advert : Entry where
  nativeId := "7"
  detailRef := none
  indexPriceCzk := some 5000000
  priority := priorityNew

/-- The advert as a drain claimed it at `claimedAt`. -/
def claimOf (drain : Nat) (claimedAt : ℚ) (request : Nat) : Hold where
  nativeId := "7"
  detailRef := none
  indexPriceCzk := some 5000000
  enqueuedAt := 0
  drain := drain
  claimedAt := claimedAt
  request := request

/-- The second drain takes over after the cutoff; the first one hands nothing back. -/
def tookOver : List Action :=
  [.enqueue [advert], .claim 1 10 acquisitionReserve, .tick 1801, .reclaim,
    .claim 2 10 acquisitionReserve, .fail 2 [claimOf 2 1801 1] "timeout", .enqueue [advert],
    .claim 2 10 acquisitionReserve]

/-- The first drain is still at its fetch when the second one took its row over and completed
it, and a walk asked for the advert again. -/
def outlived : List Action :=
  [.enqueue [advert], .claim 1 10 acquisitionReserve, .tick 1801, .reclaim,
    .claim 2 10 acquisitionReserve, .complete 2 [claimOf 2 1801 1] .written, .enqueue [advert]]

theorem queue_loses_no_request_when_taken_over :
    ∃ final, replay World.step emptyQueue tookOver = some final ∧ final.OneHolder ∧
      ∀ action after, final.Current action → World.step final action = some after →
        final.CompletesWhatItFetched action ∧ final.Accounted action after := by
  obtain ⟨final, replayed⟩ : ∃ final, replay World.step emptyQueue tookOver = some final :=
    Option.isSome_iff_exists.mp (by decide +kernel)
  have run := reaches_of_replay replayed
    (by decide +kernel : allowedAll World.step Current emptyQueue tookOver)
  exact ⟨final, replayed, queue_loses_no_request emptyQueue final emptyQueue_initial run⟩

theorem request_lost_when_outlived :
    ¬ ∀ (world final : World), world.Initial → Reaches World.step (fun _ _ => True) world final →
      final.OneHolder ∧ ∀ action after, World.step final action = some after →
        final.CompletesWhatItFetched action ∧ final.Accounted action after := by
  intro all
  obtain ⟨final, replayed⟩ : ∃ final, replay World.step emptyQueue outlived = some final :=
    Option.isSome_iff_exists.mp (by decide +kernel)
  have run : Reaches World.step (fun _ _ => True) emptyQueue final :=
    reaches_of_replay replayed (by decide +kernel)
  have reached : (replay World.step emptyQueue outlived).all fun final =>
      (World.step final (.complete 1 [claimOf 1 0 1] .written)).isSome &&
        decide (final.rows.map (·.nativeId) = ["7"] ∧ requests final.history "7" = 2) := by
    decide +kernel
  rw [replayed, Option.all_some, Bool.and_eq_true, decide_eq_true_iff] at reached
  obtain ⟨enabled, ids, asked⟩ := reached
  obtain ⟨after, taken⟩ := Option.isSome_iff_exists.mp enabled
  have completes := ((all emptyQueue final emptyQueue_initial run).2 _ after taken).1
  obtain ⟨row, rowHeld, named⟩ : ∃ row ∈ final.rows, row.nativeId = "7" :=
    List.mem_map.mp (ids ▸ List.mem_singleton_self "7")
  obtain ⟨item, itemIn, _, _, _, request⟩ := completes row rowHeld (named ▸ List.mem_singleton_self _)
  cases List.mem_singleton.mp itemIn
  rw [named, asked] at request
  cases request

end World

end Sreality.Scraper.DetailQueue
