import Mathlib.Tactic.Linarith
import Sreality.Scraper.DetailQueueLedger
import Sreality.Scraper.GoneVerdict

/-! An advert is closed on a gone verdict at least the dwell old that no sighting refuted when
the evidence was read. A sighting that commits after the reading and before the flip is the
one the flip does not see. -/

set_option autoImplicit false

namespace Sreality.Scraper.GoneVerdict

open Sreality.Foundation

/-! ### The queue only adds to its ledger -/

theorem upsert_ledger (queue : DetailQueue.World) (entry : DetailQueue.Entry) :
    (queue.upsert entry).completions = queue.completions ∧ (queue.upsert entry).now = queue.now := by
  obtain ⟨_, inserted⟩ | ⟨_, refreshed⟩ | untouched := DetailQueue.World.upsert_cases queue entry
  · rw [inserted]
    exact ⟨rfl, rfl⟩
  · rw [refreshed]
    exact ⟨rfl, rfl⟩
  · rw [untouched]
    exact ⟨rfl, rfl⟩

theorem enqueueDetail_ledger (queue : DetailQueue.World) (entries : List DetailQueue.Entry) :
    (queue.enqueueDetail entries).completions = queue.completions ∧
      (queue.enqueueDetail entries).now = queue.now := by
  unfold DetailQueue.World.enqueueDetail
  induction DetailQueue.World.accepted entries generalizing queue with
  | nil => exact ⟨rfl, rfl⟩
  | cons entry rest ih =>
      obtain ⟨completions, now⟩ := upsert_ledger queue entry
      obtain ⟨later, onward⟩ := ih (queue.upsert entry)
      exact ⟨later.trans completions, onward.trans now⟩

theorem completeDetail_ledger (queue : DetailQueue.World) (ids : List String)
    (outcome : DetailQueue.Outcome) : ∀ completion ∈ queue.completions,
      completion ∈ (queue.completeDetail ids outcome).completions :=
  fun _ held => List.mem_append_left _ held

theorem queueStep_ledger {queue after : DetailQueue.World} {action : DetailQueue.Action}
    (taken : World.queueStep queue action = some after) :
    (∀ completion ∈ queue.completions, completion ∈ after.completions) ∧
      queue.now ≤ after.now := by
  cases action with
  | tick seconds =>
      dsimp only [World.queueStep, DetailQueue.World.step] at taken
      split_ifs at taken with forward
      cases taken
      refine ⟨fun _ held => held, ?_⟩
      change queue.now ≤ queue.now + seconds
      linarith
  | enqueue entries =>
      cases taken
      obtain ⟨completions, now⟩ := enqueueDetail_ledger queue entries
      rw [completions, now]
      exact ⟨fun _ held => held, le_refl _⟩
  | presence candidates budget =>
      cases taken
      unfold DetailQueue.World.enqueuePresenceChecks
      split_ifs
      · exact ⟨fun _ held => held, le_refl _⟩
      · have enqueued := enqueueDetail_ledger queue
        refine ⟨fun completion held => ?_, (enqueued _).2.symm.le⟩
        exact Eq.mp (congrArg (completion ∈ ·) (enqueued _).1.symm) held
  | claim drain limit reserve =>
      cases taken
      exact ⟨fun _ held => held, le_refl _⟩
  | complete drain items outcome => cases taken
  | fail drain items error =>
      dsimp only [World.queueStep, DetailQueue.World.step] at taken
      split_ifs at taken
      cases taken
      exact ⟨fun _ held => List.mem_append_left _ held, le_refl _⟩
  | release drain items =>
      dsimp only [World.queueStep, DetailQueue.World.step] at taken
      split_ifs at taken
      cases taken
      exact ⟨fun _ held => held, le_refl _⟩
  | reclaim => cases taken

/-! ### The evidence -/

theorem mem_unrefuted {completions : List DetailQueue.Completion} {nativeId : String}
    {lastSeenAt : Option ℚ} {at_ : ℚ} (held : at_ ∈ unrefuted completions nativeId lastSeenAt) :
    (∃ completion ∈ completions, completion.nativeId = nativeId ∧ completion.outcome = .gone ∧
      completion.completedAt = at_) ∧ ∀ seen ∈ lastSeenAt, seen < at_ := by
  obtain ⟨completion, chosen, rfl⟩ := List.mem_map.mp held
  obtain ⟨listed, fits⟩ := List.mem_filter.mp chosen
  rw [Bool.and_eq_true, decide_eq_true_iff] at fits
  obtain ⟨⟨own, gone⟩, newer⟩ := fits
  refine ⟨⟨completion, listed, own, gone, rfl⟩, ?_⟩
  intro seen sighted
  cases sighted
  exact of_decide_eq_true newer

/-- What a reading of the evidence that confirms knows. -/
theorem goneEvidence_confirmed {completions : List DetailQueue.Completion} {nativeId : String}
    {listing : Option Listing} {first : ℚ}
    (evidence : goneEvidence completions nativeId listing = (true, some first)) :
    (∃ completion ∈ completions, completion.nativeId = nativeId ∧ completion.outcome = .gone ∧
      completion.completedAt = first) ∧
      ∀ row ∈ listing, ∀ seen ∈ row.lastSeenAt, seen < first := by
  have earliest : (unrefuted completions nativeId (listing.bind (·.lastSeenAt))).min? =
      some first := congrArg Prod.snd evidence
  obtain ⟨held, newer⟩ := mem_unrefuted (List.min?_mem earliest)
  refine ⟨held, ?_⟩
  intro row known seen sighted
  cases known
  exact newer seen sighted

namespace World

variable {nativeId : String} {world after : World}

/-- The row carries every sighting; a call about to flip read a verdict at least the dwell old,
with every sighting it knew of before it. -/
structure Sound (nativeId : String) (world : World) : Prop where
  carried : ∀ sighting ∈ world.sightings, ∃ row ∈ world.listing, ∃ seen ∈ row.lastSeenAt,
    sighting ≤ seen
  past : ∀ sighting ∈ world.sightings, sighting ≤ world.now
  began : ∀ call ∈ world.calls, call.now ≤ world.now
  known : ∀ call ∈ world.calls, ∀ first seen, call.stage = .flipping first seen →
    (∃ completion ∈ world.queue.completions, completion.nativeId = nativeId ∧
      completion.outcome = .gone ∧ completion.completedAt = first) ∧
    goneDwell ≤ call.now - first ∧ seen ≤ world.sightings.length ∧
    ∀ sighting ∈ world.sightings.take seen, sighting < first

/-- A step of the queue: its ledger grows, its clock runs on. -/
theorem Sound.queue (sound : Sound nativeId world) {queue : DetailQueue.World}
    (ledger : ∀ completion ∈ world.queue.completions, completion ∈ queue.completions)
    (now : world.queue.now ≤ queue.now) : Sound nativeId { world with queue := queue } where
  carried := sound.carried
  past := fun sighting held => (sound.past sighting held).trans now
  began := fun call held => (sound.began call held).trans now
  known := by
    intro call held first seen stage
    obtain ⟨⟨completion, listed, rest⟩, others⟩ := sound.known call held first seen stage
    exact ⟨⟨completion, ledger completion listed, rest⟩, others⟩

theorem Sound.sight (sound : Sound nativeId world) : Sound nativeId world.sight where
  carried := by
    intro sighting held
    refine ⟨sighted world.now, rfl, world.now, rfl, ?_⟩
    cases List.mem_append.mp held with
    | inl before => exact sound.past sighting before
    | inr new => exact (List.mem_singleton.mp new).le
  past := by
    intro sighting held
    cases List.mem_append.mp held with
    | inl before => exact sound.past sighting before
    | inr new => exact (List.mem_singleton.mp new).le
  began := sound.began
  known := by
    intro call held first seen stage
    obtain ⟨evidence, dwell, within, before⟩ := sound.known call held first seen stage
    refine ⟨evidence, dwell, ?_, ?_⟩
    · exact within.trans (by simp [World.sight])
    · change ∀ sighting ∈ (world.sightings ++ [world.now]).take seen, sighting < first
      rw [List.take_append_of_le_length within]
      exact before

/-- A call moves on: to a stage that flips, with what it read; or to another. -/
theorem Sound.setCall (sound : Sound nativeId world) {index : Nat} {call : Call}
    (began : call.now ≤ world.now)
    (known : ∀ first seen, call.stage = .flipping first seen →
      (∃ completion ∈ world.queue.completions, completion.nativeId = nativeId ∧
        completion.outcome = .gone ∧ completion.completedAt = first) ∧
      goneDwell ≤ call.now - first ∧ seen ≤ world.sightings.length ∧
      ∀ sighting ∈ world.sightings.take seen, sighting < first) :
    Sound nativeId (world.setCall index call) where
  carried := sound.carried
  past := sound.past
  began := by
    intro other held
    cases List.mem_or_eq_of_mem_set held with
    | inl before => exact sound.began other before
    | inr new => exact new ▸ began
  known := by
    intro other held
    cases List.mem_or_eq_of_mem_set held with
    | inl before => exact sound.known other before
    | inr new => exact new ▸ known

theorem Sound.readEvidence (sound : Sound nativeId world) {index : Nat} {call : Call}
    (held : call ∈ world.calls) :
    Sound nativeId (world.setCall index
      { call with
        stage := nextStage (goneEvidence world.queue.completions nativeId world.listing)
          call.now world.sightings.length }) := by
  apply sound.setCall
  · exact sound.began call held
  · intro first seen stage
    have confirmed : goneEvidence world.queue.completions nativeId world.listing =
        (true, some first) ∧ goneDwell ≤ call.now - first ∧ seen = world.sightings.length := by
      unfold nextStage at stage
      split at stage
      · cases stage
      · cases stage
      · rename_i other evidence
        dsimp only at stage
        split_ifs at stage with confirmed
        cases stage
        exact ⟨evidence, of_decide_eq_true confirmed, rfl⟩
    obtain ⟨evidence, dwell, rfl⟩ := confirmed
    obtain ⟨listed, unseen⟩ := goneEvidence_confirmed evidence
    refine ⟨listed, dwell, le_refl _, ?_⟩
    intro sighting known
    obtain ⟨row, rowHeld, last, lastHeld, before⟩ :=
      sound.carried sighting (List.mem_of_mem_take known)
    exact before.trans_lt (unseen row rowHeld last lastHeld)

/-- The flip changes neither the sightings nor when the row was last seen. -/
theorem Sound.flip (sound : Sound nativeId world) :
    Sound nativeId { world with listing := (markListingInactive world.listing world.now).1 } where
  carried := by
    intro sighting held
    obtain ⟨row, known, seen, last, before⟩ := sound.carried sighting held
    have kept : ∃ other, (markListingInactive world.listing world.now).1 = some other ∧
        other.lastSeenAt = row.lastSeenAt := by
      rw [known]
      by_cases active : row.isActive = true
      · exact ⟨{ row with isActive := false, inactiveAt := some world.now },
          by rw [markListingInactive, if_pos active], rfl⟩
      · exact ⟨row, by rw [markListingInactive, if_neg active], rfl⟩
    obtain ⟨other, flipped, same⟩ := kept
    exact ⟨other, flipped, seen, same ▸ last, before⟩
  past := sound.past
  began := sound.began
  known := sound.known

theorem Sound.step (sound : Sound nativeId world) {action : Action}
    (taken : World.step nativeId world action = some after) : Sound nativeId after := by
  cases action with
  | queue action =>
      obtain ⟨queue, moved, rfl⟩ := Option.map_eq_some_iff.mp taken
      obtain ⟨ledger, now⟩ := queueStep_ledger moved
      exact sound.queue ledger now
  | react =>
      obtain ⟨row, _, acted⟩ := Option.bind_eq_some_iff.mp taken
      split_ifs at acted
      cases acted
      exact sound.sight
  | touch =>
      obtain ⟨row, _, rfl⟩ := Option.map_eq_some_iff.mp taken
      exact sound.sight
  | write =>
      cases taken
      exact sound.sight
  | completeWritten =>
      cases taken
      exact sound.queue (completeDetail_ledger _ _ _) (le_refl _)
  | begin_ =>
      cases taken
      constructor
      · exact sound.carried
      · exact sound.past
      · intro call held
        cases List.mem_append.mp held with
        | inl before => exact sound.began call before
        | inr new =>
            cases List.mem_singleton.mp new
            exact le_refl _
      · intro call held first seen stage
        cases List.mem_append.mp held with
        | inl before => exact sound.known call before first seen stage
        | inr new =>
            cases List.mem_singleton.mp new
            cases stage
  | readEvidence index =>
      obtain ⟨call, held, acted⟩ := Option.bind_eq_some_iff.mp taken
      split_ifs at acted
      cases acted
      exact sound.readEvidence (List.mem_of_getElem? held)
  | flip index =>
      obtain ⟨call, held, acted⟩ := Option.bind_eq_some_iff.mp taken
      cases stage : call.stage with
      | flipping first seen =>
          rw [stage] at acted
          cases acted
          have moved : Sound nativeId (world.setCall index
              { call with
                stage := .completing (if (markListingInactive world.listing world.now).2 =
                  some true then .flipped else .closed) }) :=
            sound.setCall (sound.began call (List.mem_of_getElem? held))
              fun _ _ stage => nomatch stage
          exact moved.flip
      | _ =>
          rw [stage] at acted
          cases acted
  | complete index =>
      obtain ⟨call, held, acted⟩ := Option.bind_eq_some_iff.mp taken
      cases stage : call.stage with
      | completing verdict =>
          rw [stage] at acted
          cases acted
          have moved : Sound nativeId (world.setCall index { call with stage := .done }) :=
            sound.setCall (sound.began call (List.mem_of_getElem? held))
              fun _ _ stage => nomatch stage
          exact moved.queue (completeDetail_ledger _ _ _) (le_refl _)
      | _ =>
          rw [stage] at acted
          cases acted
  | replay index =>
      obtain ⟨call, held, rfl⟩ := Option.map_eq_some_iff.mp taken
      exact sound.setCall (sound.began call (List.mem_of_getElem? held))
        fun _ _ stage => nomatch stage

/-- A flip with no sighting since its evidence is confirmed. -/
theorem Sound.confirmed (sound : Sound nativeId world) {action : Action}
    (unseen : world.Unseen action) (taken : World.step nativeId world action = some after) :
    Confirmed nativeId world action := by
  cases action with
  | flip index =>
      obtain ⟨call, held, acted⟩ := Option.bind_eq_some_iff.mp taken
      cases stage : call.stage with
      | flipping first seen =>
          intro other otherHeld _
          cases Option.mem_unique held otherHeld
          have listed := List.mem_of_getElem? held
          obtain ⟨⟨completion, known, own, gone, at_⟩, dwell, _, before⟩ :=
            sound.known call listed first seen stage
          have all := unseen call held seen (by simp [stage, Stage.seen?])
          rw [all, List.take_length] at before
          rw [← at_] at dwell before
          exact ⟨completion, known, own, gone, dwell, sound.began call listed, before⟩
      | _ =>
          rw [stage] at acted
          cases acted
  | _ => trivial

theorem Initial.sound (initial : world.Initial) : Sound nativeId world where
  carried := initial.carried
  past := initial.past
  began := by simp [initial.calls]
  known := by simp [initial.calls]

/-- When no sighting commits between a call's evidence and its flip, an advert is closed only on
two gone verdicts with no sighting between them. -/
theorem closed_on_two_verdicts (nativeId : String) (world final : World)
    (initial : world.Initial) (run : Reaches (World.step nativeId) Unseen world final) :
    ∀ action after, final.Unseen action → World.step nativeId final action = some after →
      Confirmed nativeId final action := by
  have sound : Sound nativeId final :=
    run.invariant (Sound nativeId) initial.sound fun _ _ _ sound _ taken => sound.step taken
  exact fun action after unseen taken => sound.confirmed unseen taken

/-! ### Two runs -/

/-- An advert seen at the start, in the queue; nothing on the ledger. -/
def seenOnce : World where
  queue :=
    { now := 0, rows := [], completions := [], nextCompletion := 1, history := [], holds := [] }
  listing := some (sighted 0)
  calls := []
  sightings := [0]

theorem seenOnce_initial : seenOnce.Initial where
  calls := rfl
  carried := by
    intro sighting held
    exact ⟨sighted 0, rfl, 0, rfl, (List.mem_singleton.mp held).le⟩
  past := fun sighting held => (List.mem_singleton.mp held).le

def queued : DetailQueue.Entry where
  nativeId := "7"
  detailRef := none
  indexPriceCzk := none
  priority := DetailQueue.priorityVerify

/-- A first gone verdict an hour after the sighting, and the evidence of a second one. -/
def twoVerdicts : List Action :=
  [.queue (.tick 3600), .queue (.enqueue [queued]), .begin_, .readEvidence 0, .complete 0,
    .queue (.tick 50000), .queue (.enqueue [queued]), .begin_, .readEvidence 1]

theorem closed_on_two_verdicts_at_the_second :
    ∃ final, replay (World.step "7") seenOnce twoVerdicts = some final ∧
      (∃ row ∈ final.listing, row.isActive = true) ∧ (World.step "7" final (.flip 1)).isSome ∧
        Confirmed "7" final (.flip 1) := by
  obtain ⟨final, replayed⟩ : ∃ final, replay (World.step "7") seenOnce twoVerdicts = some final :=
    Option.isSome_iff_exists.mp (by decide +kernel)
  have reached : (replay (World.step "7") seenOnce twoVerdicts).all fun final =>
      final.listing.any (·.isActive) && (World.step "7" final (.flip 1)).isSome &&
        decide (final.Unseen (.flip 1)) := by decide +kernel
  rw [replayed, Option.all_some, Bool.and_eq_true, Bool.and_eq_true, decide_eq_true_iff] at reached
  obtain ⟨⟨active, enabled⟩, unseen⟩ := reached
  have run := reaches_of_replay replayed
    (by decide +kernel : allowedAll (World.step "7") Unseen seenOnce twoVerdicts)
  obtain ⟨after, taken⟩ := Option.isSome_iff_exists.mp enabled
  exact ⟨final, replayed, (Option.any_eq_true _ _).mp active, enabled,
    closed_on_two_verdicts "7" seenOnce final seenOnce_initial run _ after unseen taken⟩

/-- A touch between the evidence and the flip: no gone verdict at all is behind every sighting. -/
theorem closed_beside_a_sighting :
    ¬ ∀ (nativeId : String) (world final : World), world.Initial →
      Reaches (World.step nativeId) (fun _ _ => True) world final →
        ∀ index after, World.step nativeId final (.flip index) = some after →
          ∀ call ∈ final.calls[index]?, (∃ row ∈ final.listing, row.isActive = true) →
            ∃ completion ∈ final.queue.completions, completion.nativeId = nativeId ∧
              completion.outcome = .gone ∧
                ∀ sighting ∈ final.sightings, sighting < completion.completedAt := by
  intro all
  obtain ⟨final, replayed⟩ : ∃ final,
      replay (World.step "7") seenOnce (twoVerdicts ++ [.touch]) = some final :=
    Option.isSome_iff_exists.mp (by decide +kernel)
  have run : Reaches (World.step "7") (fun _ _ => True) seenOnce final :=
    reaches_of_replay replayed (by decide +kernel)
  have reached : (replay (World.step "7") seenOnce (twoVerdicts ++ [.touch])).all fun final =>
      (World.step "7" final (.flip 1)).isSome && final.listing.any (·.isActive) &&
        (final.calls[1]?).isSome && decide ((53600 : ℚ) ∈ final.sightings) &&
        final.queue.completions.all fun completion => decide (completion.completedAt ≤ 53600) := by
    decide +kernel
  rw [replayed, Option.all_some] at reached
  simp only [Bool.and_eq_true, decide_eq_true_iff, List.all_eq_true] at reached
  obtain ⟨⟨⟨⟨enabled, active⟩, called⟩, touched⟩, earlier⟩ := reached
  obtain ⟨after, taken⟩ := Option.isSome_iff_exists.mp enabled
  obtain ⟨call, held⟩ := Option.isSome_iff_exists.mp called
  obtain ⟨completion, known, _, _, before⟩ :=
    all "7" seenOnce final seenOnce_initial run 1 after taken call held
      ((Option.any_eq_true _ _).mp active)
  have late := before 53600 touched
  have early := earlier completion known
  linarith

end World

end Sreality.Scraper.GoneVerdict
