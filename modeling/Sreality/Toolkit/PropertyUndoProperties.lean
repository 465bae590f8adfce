import Sreality.Toolkit.PropertyLedgerProperties
import Sreality.Toolkit.PropertyUndo

/-! A merge is taken back by a detach of its group: every advert it moved finds its own
row newest and its origin merged into where it sits, whichever of them goes first. -/

set_option autoImplicit false

namespace Sreality.Toolkit

open Sreality.Foundation

namespace Identity

/-! ### What one merge did -/

theorem SameGrouping.standing {next state : Identity} (same : next.SameGrouping state)
    (property : Nat) : next.standing property = state.standing property :=
  same.statuses property

/-- The tables after a merge of a set, from those before it. -/
structure MergedSet (group : GroupId) (survivor : Nat) (retired : List Nat)
    (reason : LedgerReason) (before after : Identity) : Prop where
  adverts : after.adverts = before.adverts
  moved : ∀ listing, ∀ property ∈ retired, before.place listing = some property →
    after.place listing = some survivor
  kept : ∀ listing, (∀ property ∈ retired, before.place listing ≠ some property) →
    after.place listing = before.place listing
  merged : ∀ property ∈ retired, after.standing property =
    (before.standing property).map fun _ => (.mergedAway, some survivor)
  others : ∀ property, property ∉ retired → after.standing property = before.standing property
  rows : ∀ listing, before.knows listing = true → ∀ property ∈ retired,
    before.place listing = some property → ∃ event, after.liveMoves listing =
      before.liveMoves listing ++ [moveRow group survivor property reason listing event]
  keptRows : ∀ listing, (before.knows listing = true →
      ∀ property ∈ retired, before.place listing ≠ some property) →
    after.liveMoves listing = before.liveMoves listing

section MergeSpec

variable {group : GroupId} {survivor : Nat} {reason : LedgerReason}

theorem mergeSteps_mergedSet {retired : List Nat} :
    ∀ {state : Identity}, state.Ordered → retired.Nodup → survivor ∉ retired →
      MergedSet group survivor retired reason state
        (retired.foldl (mergePair group survivor reason) state) := by
  induction retired with
  | nil =>
      intro state _ _ _
      exact ⟨rfl, by simp, fun _ _ => rfl, by simp, fun _ _ => rfl, by simp, fun _ _ => rfl⟩
  | cons first rest ih =>
      intro state ordered distinct apart
      obtain ⟨fresh, restDistinct⟩ := List.nodup_cons.mp distinct
      obtain ⟨differ, restApart⟩ := List.ne_and_not_mem_of_not_mem_cons apart
      have merged := mergePair_merged ordered group survivor first reason
      have later := ih merged.ordered restDistinct restApart
      rw [List.foldl_cons]
      generalize mergePair group survivor reason state first = middle at merged later
      generalize rest.foldl (mergePair group survivor reason) middle = after at later
      -- Once on the survivor an advert is no later member's.
      have landed : ∀ listing, middle.place listing = some survivor →
          ∀ property ∈ rest, middle.place listing ≠ some property := by
        intro listing here property listed there
        exact restApart (Option.some.inj (here.symm.trans there) ▸ listed)
      have carried : ∀ listing, state.place listing = some first →
          middle.place listing = some survivor := fun listing here => by
        rw [merged.place, if_pos here]
      have uncarried : ∀ listing, state.place listing ≠ some first →
          middle.place listing = state.place listing := fun listing here => by
        rw [merged.place, if_neg here]
      have unlike : ∀ property ∈ rest, property ≠ first := fun property listed same =>
        fresh (same ▸ listed)
      refine ⟨later.adverts.trans merged.adverts, ?_, ?_, ?_, ?_, ?_, ?_⟩
      · intro listing property listed here
        rcases List.mem_cons.mp listed with rfl | listed
        · rw [later.kept listing (landed listing (carried listing here)), carried listing here]
        · refine later.moved listing property listed ((uncarried listing ?_).trans here)
          rw [here]
          exact fun same => unlike property listed (Option.some.inj same)
      · intro listing elsewhere
        have notFirst := elsewhere first List.mem_cons_self
        rw [later.kept listing fun property listed => ?_, uncarried listing notFirst]
        rw [uncarried listing notFirst]
        exact elsewhere property (List.mem_cons_of_mem _ listed)
      · intro property listed
        rcases List.mem_cons.mp listed with rfl | listed
        · rw [later.others property fresh]
          unfold standing
          rw [merged.property, if_pos rfl, Option.map_map, Option.map_map]
          rfl
        · rw [later.merged property listed, standing, merged.property,
            if_neg (unlike property listed)]
          rfl
      · intro property apart
        obtain ⟨unlikeFirst, unlisted⟩ := List.ne_and_not_mem_of_not_mem_cons apart
        rw [later.others property unlisted, standing, merged.property, if_neg unlikeFirst]
        rfl
      · intro listing known property listed here
        have knownLater : middle.knows listing = true := (merged.knows listing).trans known
        obtain ⟨event, rows⟩ := merged.rows listing
        rcases List.mem_cons.mp listed with rfl | listed
        · refine ⟨event, ?_⟩
          rw [later.keptRows listing fun _ => landed listing (carried listing here), rows,
            if_pos ⟨known, here⟩]
        · have notFirst : state.place listing ≠ some first := by
            rw [here]
            exact fun same => unlike property listed (Option.some.inj same)
          obtain ⟨event, laterRows⟩ := later.rows listing knownLater property listed
            ((uncarried listing notFirst).trans here)
          refine ⟨event, ?_⟩
          rw [laterRows, rows, if_neg fun held => notFirst held.2, List.append_nil]
      · intro listing elsewhere
        obtain ⟨event, rows⟩ := merged.rows listing
        have notFirst : ¬(state.knows listing = true ∧ state.place listing = some first) :=
          fun held => elsewhere held.1 first List.mem_cons_self held.2
        rw [later.keptRows listing fun known property listed => ?_, rows, if_neg notFirst,
          List.append_nil]
        have known := (merged.knows listing).symm.trans known
        rw [uncarried listing fun here => notFirst ⟨known, here⟩]
        exact elsewhere known property (List.mem_cons_of_mem _ listed)

/-- A merge call, with the members it retired. -/
theorem merge_mergedSet {state next : Identity} (sound : state.Sound) {call : MergeCall}
    {survivor : Nat} {retired : List Nat}
    (chosen : state.mergeMembers call.propertyIds call.source call.decidedBy =
      .ok (survivor, retired)) (merged : state.merge call = .ok next) :
    MergedSet call.group survivor retired (.merge call.reason) state next ∧
      survivor ∉ retired ∧
      ∀ property ∈ retired, property ∈ call.propertyIds ∧
        state.standing property = some (.active, none) := by
  have members := mergeMembers_members chosen
  obtain ⟨_, _, sameChosen, rfl⟩ := mergePropertySet_cases merged
  obtain ⟨rfl, rfl⟩ := Prod.mk.inj (Except.ok.inj (chosen.symm.trans sameChosen))
  have apart : survivor ∉ retired := fun held => ((members.mem_retired survivor).mp held).2 rfl
  have stepped := @mergeSteps_mergedSet call.group survivor (.merge call.reason) retired state
    sound.toOrdered members.distinct apart
  refine ⟨?_, apart, fun property listed => ?_⟩
  · refine ⟨stepped.adverts, stepped.moved, stepped.kept, ?_, ?_, stepped.rows, stepped.keptRows⟩
    · intro property listed
      rw [standing_propertiesChanged, stepped.merged property listed]
    · intro property unlisted
      rw [standing_propertiesChanged, stepped.others property unlisted]
  · have listed := ((members.mem_retired property).mp listed).1
    obtain ⟨row, known, status⟩ := isActive_iff.mp (members.active property listed)
    exact ⟨listed, standing_eq_some_iff.mpr
      ⟨row, known, status, sound.rooted property row known status⟩⟩

end MergeSpec

/-! ### Taking one merge back -/

section Undo

variable {group : GroupId} {survivor : Nat} {retired : List Nat} {reason : LedgerReason}
  {before after : Identity}

/-- A merge half taken back: the adverts of `done` are home, and so are the properties
that held them. -/
structure Undoing (before after : Identity) (done : List Nat) (state : Identity) : Prop where
  sound : state.Sound
  adverts : state.adverts = before.adverts
  home : ∀ listing ∈ done, state.place listing = before.place listing
  away : ∀ listing, before.knows listing = true → listing ∉ done →
    state.place listing = after.place listing
  rows : ∀ listing, state.liveMoves listing =
    if listing ∈ done then before.liveMoves listing else after.liveMoves listing
  restored : ∀ property, (∃ listing ∈ done, before.place listing = some property) →
    state.standing property = before.standing property
  others : ∀ property, (∀ listing ∈ done, before.place listing ≠ some property) →
    state.standing property = after.standing property

/-- The property an advert came from is there to go back to. -/
theorem Undoing.origin_stays (merged : MergedSet group survivor retired reason before after)
    {done : List Nat} {state : Identity} (undoing : Undoing before after done state)
    {listing property : Nat} (listed : property ∈ retired)
    (standing : before.standing property = some (.active, none)) (event : Nat) :
    originGone (state.property property)
      [moveRow group survivor property reason listing event] = false := by
  have stands : state.standing property = some (.active, none) ∨
      state.standing property = some (.mergedAway, some survivor) := by
    by_cases home : ∃ other ∈ done, before.place other = some property
    · exact .inl ((undoing.restored property home).trans standing)
    · refine .inr ((undoing.others property fun other held there =>
        home ⟨other, held, there⟩).trans ?_)
      rw [merged.merged property listed, standing, Option.map_some]
  rcases stands with stands | stands
  · obtain ⟨row, found, status, _⟩ := standing_eq_some_iff.mp stands
    rw [found]
    simp [originGone, status]
  · obtain ⟨row, found, _, pointer⟩ := standing_eq_some_iff.mp stands
    rw [found]
    simp [originGone, pointer, moveRow]

/-- One more advert is home. -/
theorem Undoing.homecoming {done : List Nat} {state next : Identity}
    (undoing : Undoing before after done state) {listing property : Nat}
    (moved : Moved listing property (before.liveMoves listing) state next)
    (standing : before.standing property = some (.active, none))
    (here : before.place listing = some property) :
    Undoing before after (done ++ [listing]) next := by
  refine ⟨moved.sound undoing.sound, moved.adverts.trans undoing.adverts, ?_, ?_, ?_, ?_, ?_⟩
  · intro other held
    rw [moved.place]
    split_ifs with same
    · rw [same, here]
    · rcases List.mem_append.mp held with held | held
      · exact undoing.home other held
      · exact absurd (List.mem_singleton.mp held) same
  · intro other knownOther unlisted
    rw [List.mem_append, not_or, List.mem_singleton] at unlisted
    rw [moved.place, if_neg unlisted.2]
    exact undoing.away other knownOther unlisted.1
  · intro other
    rw [moved.rows, undoing.rows]
    by_cases same : other = listing
    · simp [same]
    · simp [same]
  · intro other home
    by_cases same : other = property
    · rw [same, moved.stands, standing]
    · rw [moved.others other same]
      refine undoing.restored other ?_
      obtain ⟨held, listedHeld, there⟩ := home
      rcases List.mem_append.mp listedHeld with earlier | new
      · exact ⟨held, earlier, there⟩
      · rw [List.mem_singleton.mp new, here] at there
        exact absurd (Option.some.inj there).symm same
  · intro other unhoused
    have same : other ≠ property := fun same =>
      unhoused listing (List.mem_append_right _ List.mem_cons_self) (same ▸ here)
    rw [moved.others other same]
    exact undoing.others other fun held listedHeld =>
      unhoused held (List.mem_append_left _ listedHeld)

theorem Undoing.detachOne (merged : MergedSet group survivor retired reason before after)
    (apart : survivor ∉ retired) {done : List Nat} {state : Identity}
    (undoing : Undoing before after done state) {listing property : Nat}
    (known : before.knows listing = true) (listed : property ∈ retired)
    (standing : before.standing property = some (.active, none))
    (here : before.place listing = some property) (fresh : listing ∉ done)
    (birthGroup : GroupId) :
    Undoing before after (done ++ [listing])
        (state.detachOne listing (state.place listing) (some group) false birthGroup).1 ∧
      (state.detachOne listing (state.place listing) (some group) false birthGroup).2.listing =
        listing ∧
      (state.detachOne listing (state.place listing) (some group) false birthGroup).2.outcome =
        .detached := by
  have knownHere : state.knows listing = true := by
    unfold knows
    rw [undoing.adverts]
    exact known
  have place : state.place listing = some survivor :=
    (undoing.away listing known fresh).trans (merged.moved listing property listed here)
  obtain ⟨event, carried⟩ := merged.rows listing known property listed here
  have live : state.liveMoves listing = before.liveMoves listing ++
      [moveRow group survivor property reason listing event] := by
    rw [undoing.rows, if_neg fresh, carried]
  have differ : property ≠ survivor := fun same => apart (same ▸ listed)
  obtain ⟨size, planned⟩ := planDetach_some knownHere (some group)
  have plan : detachPlan (state.place listing) (state.liveMoves listing) (some group) size =
      { current := some survivor, outcome := .detached,
        undo := [moveRow group survivor property reason listing event],
        target := some property } := by
    have first : ∃ first, (before.liveMoves listing ++
        [moveRow group survivor property reason listing event]).head? = some first := by
      cases before.liveMoves listing with
      | nil => exact ⟨_, rfl⟩
      | cons first _ => exact ⟨first, rfl⟩
    obtain ⟨first, starts⟩ := first
    rw [place, live, detachPlan, starts, List.getLast?_append_cons, List.getLast?_singleton]
    simp [moveRow, differ]
  rw [plan] at planned
  have stays : originGone (state.property property)
      [moveRow group survivor property reason listing event] = false :=
    undoing.origin_stays merged listed standing event
  have linked : state.moveAdvert (some property) listing survivor =
      some (state.movedTo (some property) listing) := if_pos place
  unfold Identity.detachOne
  rw [planned, Option.getD_some]
  dsimp only
  rw [if_neg (not_not_intro place.symm)]
  dsimp only
  rw [if_neg (by simp), if_pos rfl, Option.bind_some, if_neg (by simp [stays]), linked]
  refine ⟨?_, rfl, rfl⟩
  have moved := @homecoming_moved state undoing.sound listing property
    (before.liveMoves listing) [moveRow group survivor property reason listing event] _ knownHere
    live rfl rfl stays
  exact undoing.homecoming moved standing here

/-- The adverts of one call go home one by one. -/
theorem Undoing.detachEach (merged : MergedSet group survivor retired reason before after)
    (apart : survivor ∉ retired)
    (standing : ∀ property ∈ retired, before.standing property = some (.active, none))
    {places : Nat → Option Nat} {births : Nat → GroupId} {listings : List Nat} :
    ∀ {home : List Nat} {done : Identity × List Detached}, Undoing before after home done.1 →
      listings.Nodup →
      (∀ listing ∈ listings, listing ∉ home ∧ before.knows listing = true ∧
        (∃ property ∈ retired, before.place listing = some property) ∧
        places listing = after.place listing) →
      let final := listings.foldl (fun (done : Identity × List Detached) listing =>
        ((done.1.detachOne listing (places listing) (some group) false (births listing)).1,
          done.2 ++ [(done.1.detachOne listing (places listing) (some group) false
            (births listing)).2])) done
      Undoing before after (home ++ listings) final.1 ∧
        final.2.map (fun answer => (answer.listing, answer.outcome)) =
          done.2.map (fun answer => (answer.listing, answer.outcome)) ++
            listings.map fun listing => (listing, .detached) := by
  induction listings with
  | nil =>
      intro home done undoing _ _
      exact ⟨by rwa [List.append_nil], by rw [List.map_nil, List.append_nil]; rfl⟩
  | cons listing rest ih =>
      intro home done undoing distinct each
      obtain ⟨unlisted, restDistinct⟩ := List.nodup_cons.mp distinct
      obtain ⟨fresh, known, ⟨property, listed, here⟩, read⟩ := each listing List.mem_cons_self
      have found : places listing = done.1.place listing :=
        read.trans (undoing.away listing known fresh).symm
      obtain ⟨undone, named, outcome⟩ := undoing.detachOne merged apart known listed
        (standing property listed) here fresh (births listing)
      rw [List.foldl_cons, found]
      obtain ⟨final, answers⟩ := @ih (home ++ [listing])
        ((done.1.detachOne listing (done.1.place listing) (some group) false (births listing)).1,
          done.2 ++ [(done.1.detachOne listing (done.1.place listing) (some group) false
            (births listing)).2]) undone restDistinct fun other otherListed => by
          obtain ⟨otherFresh, rest⟩ := each other (List.mem_cons_of_mem _ otherListed)
          refine ⟨fun held => ?_, rest⟩
          rcases List.mem_append.mp held with held | held
          · exact otherFresh held
          · exact unlisted (List.mem_singleton.mp held ▸ otherListed)
      refine ⟨by rwa [List.append_assoc] at final, answers.trans ?_⟩
      rw [List.map_append, List.map_singleton, named, outcome, List.append_assoc]
      rfl

end Undo

end Identity

/-! ### A sequence taken back -/

namespace MergeStep

open Identity

variable {step : MergeStep}

/-- The adverts a merge moved are those the members it retired held. -/
theorem mem_moved {group : GroupId} {survivor : Nat} {retired : List Nat} {reason : LedgerReason}
    (merged : MergedSet group survivor retired reason step.before step.after)
    (apart : survivor ∉ retired) {listing : Nat} :
    listing ∈ step.moved ↔ step.before.knows listing = true ∧
      ∃ property ∈ retired, step.before.place listing = some property := by
  unfold moved
  rw [List.mem_filter, List.mem_map, ← knows_iff, decide_eq_true_eq]
  refine and_congr_right fun known => ⟨fun changed => ?_, ?_⟩
  · by_contra elsewhere
    exact changed (merged.kept listing fun property listed here =>
      elsewhere ⟨property, listed, here⟩).symm
  · rintro ⟨property, listed, here⟩ same
    rw [merged.moved listing property listed here, here] at same
    exact apart (Option.some.inj same ▸ listed)

/-- From any tables grouped as the merge left them, its undo answers `detached` for every
advert and leaves them grouped as the merge found them. -/
theorem undo_restores (made : step.Made) (beforeSound : step.before.Sound) {state : Identity}
    (sound : state.Sound) (same : state.SameGrouping step.after) {call : DetachCall}
    (undoes : step.Undoes call) :
    ∃ next answers, state.detach call = some (next, answers) ∧ next.Sound ∧
      next.SameGrouping step.before ∧
      answers.map (fun answer => (answer.listing, answer.outcome)) =
        call.listingIds.eraseDups.map fun listing => (listing, .detached) := by
  obtain ⟨survivor, retired, chosen, _⟩ := mergePropertySet_cases made.merged
  obtain ⟨merged, apart, members⟩ := merge_mergedSet beforeSound chosen made.merged
  have standing := fun property listed => (members property listed).2
  have member : ∀ listing, listing ∈ call.listingIds.eraseDups ↔
      step.before.knows listing = true ∧
        ∃ property ∈ retired, step.before.place listing = some property := fun listing => by
    rw [List.mem_eraseDups, undoes.listed, mem_moved merged apart]
  have sameAdverts : state.adverts = step.before.adverts := same.adverts.trans merged.adverts
  have knownAfter : ∀ listing, step.after.knows listing = step.before.knows listing :=
    fun listing => by unfold knows; rw [merged.adverts]
  have started : Undoing step.before step.after [] state :=
    ⟨sound, sameAdverts, by simp,
      fun listing known _ => same.place listing ((knownAfter listing).trans known),
      fun listing => by rw [if_neg (by simp)]; exact same.rows listing,
      by simp, fun property _ => same.standing property⟩
  obtain ⟨undone, answers⟩ := @Undoing.detachEach _ _ _ _ _ _ merged apart standing
    state.place call.births call.listingIds.eraseDups [] (state, []) started (nodup_eraseDups _)
    fun listing listed => by
      obtain ⟨known, held⟩ := (member listing).mp listed
      exact ⟨by simp, known, held, same.place listing ((knownAfter listing).trans known)⟩
  rw [List.nil_append] at undone
  have known : ∀ listing ∈ call.listingIds, state.knows listing = true := by
    intro listing listed
    unfold knows
    rw [sameAdverts]
    exact ((member listing).mp (List.mem_eraseDups.mpr listed)).1
  obtain ⟨ids, called⟩ := @detachListings_eq state _ (some step.call.group) [] call.births known
  refine ⟨_, _, ?_, undone.sound.propertiesChanged ids, ?_, answers⟩
  · unfold detach
    rw [undoes.group, undoes.named, called]
    rfl
  · refine ⟨undone.adverts, fun listing known => ?_, fun property => ?_, fun listing => ?_⟩
    · by_cases listed : listing ∈ call.listingIds.eraseDups
      · exact undone.home listing listed
      · refine (undone.away listing known listed).trans (merged.kept listing ?_)
        exact fun property held here => listed ((member listing).mpr ⟨known, property, held, here⟩)
    · refine (standing_propertiesChanged _ property).trans ?_
      by_cases home : ∃ listing ∈ call.listingIds.eraseDups,
          step.before.place listing = some property
      · exact undone.restored property home
      · refine (undone.others property fun listing listed here =>
          home ⟨listing, listed, here⟩).trans (merged.others property fun listed => home ?_)
        obtain ⟨advert, held⟩ := List.exists_mem_of_ne_nil _
          (made.held property (members property listed).1)
        obtain ⟨known, here⟩ := mem_membersOf.mp held
        exact ⟨advert.listing, (member _).mpr
          ⟨knows_iff.mpr ⟨advert, known, rfl⟩, property, listed, here⟩, here⟩
    · refine (undone.rows listing).trans ?_
      split_ifs with listed
      · rfl
      · exact merged.keptRows listing fun known property held here =>
          listed ((member listing).mpr ⟨known, property, held, here⟩)

end MergeStep

section Sequence

open Identity

/-- The tables between the merges keep the invariant. -/
theorem MadeFrom.sound {steps : List MergeStep} :
    ∀ {start : Identity}, MadeFrom start steps → start.Sound →
      ∀ step ∈ steps, step.before.Sound ∧ step.after.Sound := by
  induction steps with
  | nil => exact fun _ _ _ held => absurd held (by simp)
  | cons first rest ih =>
      intro start made sound step listed
      have begins : first.before = start := made.starts first rfl
      have firstSound : first.before.Sound ∧ first.after.Sound :=
        ⟨begins ▸ sound, mergePropertySet_sound (begins ▸ sound)
          (made.made first List.mem_cons_self).merged⟩
      rcases List.mem_cons.mp listed with rfl | listed
      · exact firstSound
      · refine ih ⟨fun next held => ?_, made.successive.tail, fun other held =>
          made.made other (List.mem_cons_of_mem _ held)⟩ firstSound.2 step listed
        cases rest with
        | nil => exact absurd held (by simp)
        | cons head _ =>
            obtain rfl := Option.some.inj held
            exact (List.isChain_cons_cons.mp made.successive).1

/-- Undone newest first, a sequence ends where its oldest merge began. -/
theorem detachAll_restores {steps : List MergeStep} {undos : List DetachCall}
    (undoes : List.Forall₂ MergeStep.Undoes steps undos) :
    ∀ {state : Identity}, state.Sound →
      steps.IsChain (fun newer older => newer.before = older.after) →
      (∀ step ∈ steps, step.Made ∧ step.before.Sound) →
      (∀ newest ∈ steps.head?, state.SameGrouping newest.after) →
      ∃ restored answers, state.detachAll undos = some (restored, answers) ∧
        (∀ oldest ∈ steps.getLast?, restored.SameGrouping oldest.before) ∧
        answers.map (fun answer => (answer.listing, answer.outcome)) =
          (undos.flatMap fun call => call.listingIds.eraseDups).map
            fun listing => (listing, .detached) := by
  induction undoes with
  | nil => exact fun _ _ _ _ => ⟨_, [], rfl, fun _ held => absurd held (by simp), rfl⟩
  | @cons step call steps undos undoes older ih =>
      intro state sound chain each same
      obtain ⟨made, beforeSound⟩ := each step List.mem_cons_self
      obtain ⟨next, answers, detached, nextSound, home, answered⟩ :=
        MergeStep.undo_restores made beforeSound sound (same step rfl) undoes
      obtain ⟨restored, rest, others, oldest, othersAnswered⟩ := ih nextSound chain.tail
        (fun other listed => each other (List.mem_cons_of_mem _ listed)) fun newest held => by
          cases steps with
          | nil => exact absurd held (by simp)
          | cons head _ =>
              obtain rfl := Option.some.inj held
              exact (List.isChain_cons_cons.mp chain).1 ▸ home
      refine ⟨restored, answers ++ rest, ?_, fun last held => ?_, ?_⟩
      · rw [detachAll, detached, Option.bind_some, others]
        rfl
      · cases steps with
        | nil =>
            cases older
            obtain rfl : step = last := by simpa using held
            obtain ⟨rfl, _⟩ := Prod.mk.inj (Option.some.inj others)
            exact home
        | cons head tail => exact oldest last (by simpa using held)
      · rw [List.map_append, answered, othersAnswered, List.flatMap_cons, List.map_append]

/-- After any run, a sequence of merges undone newest first down to one of them leaves the
tables grouped as that merge found them, every advert answered `detached`. -/
theorem undo_restores_grouping {start : Identity} (initial : start.Initial) (calls : List Call)
    {earlier later : List MergeStep} {step : MergeStep}
    (made : MadeFrom (start.run calls) (earlier ++ step :: later)) {undos : List DetachCall}
    (newestFirst : List.Forall₂ MergeStep.Undoes (step :: later).reverse undos) :
    ∃ restored answers,
      ((step :: later).getLast (by simp)).after.detachAll undos = some (restored, answers) ∧
        restored.SameGrouping step.before ∧
        answers.map (fun answer => (answer.listing, answer.outcome)) =
          (undos.flatMap fun call => call.listingIds.eraseDups).map
            fun listing => (listing, .detached) := by
  have sound := made.sound (initial.sound.run calls)
  have listed : ∀ other ∈ (step :: later).reverse, other ∈ earlier ++ step :: later :=
    fun other held => List.mem_append_right _ (List.mem_reverse.mp held)
  have newest : (step :: later).getLast (by simp) ∈ earlier ++ step :: later :=
    List.mem_append_right _ (List.getLast_mem _)
  obtain ⟨restored, answers, detached, oldest, answered⟩ := detachAll_restores newestFirst
    (sound _ newest).2
    (List.isChain_reverse.mpr (made.successive.right_of_append))
    (fun other held => ⟨made.made other (listed other held), (sound other (listed other held)).1⟩)
    fun last held => by
      rw [List.head?_reverse, List.getLast?_eq_getLast_of_ne_nil (by simp)] at held
      obtain rfl := Option.some.inj held
      exact ⟨rfl, fun _ _ => rfl, fun _ => rfl, fun _ => rfl⟩
  exact ⟨restored, answers, detached, oldest step (by rw [List.getLast?_reverse]; rfl), answered⟩

/-- A merge step of the homes, from the tables it finds. -/
def homesStep (before : Identity) (homes : List Nat) (group : GroupId) : MergeStep where
  before := before
  call := joinHomes homes group
  after := before.apply (.merge (joinHomes homes group))

def takeBack (listings : List Nat) (group : GroupId) : DetachCall where
  listingIds := listings
  group := some group
  births := fun _ => 9

theorem homesStep_made {before : Identity} {homes : List Nat} {group : GroupId}
    (merges : (before.merge (joinHomes homes group)).isOk = true)
    (held : (homes.all fun property => !(before.membersOf property).isEmpty) = true) :
    (homesStep before homes group).Made where
  merged := by
    change before.merge (joinHomes homes group) = .ok (before.apply (.merge (joinHomes homes group)))
    unfold Identity.apply
    dsimp only
    cases outcome : before.merge (joinHomes homes group) with
    | ok next => rfl
    | error refusal =>
        rw [outcome] at merges
        exact absurd merges (by simp [Except.isOk, Except.toBool])
  held := by
    intro property listed empty
    have nonempty := List.all_eq_true.mp held property listed
    change before.membersOf property = [] at empty
    rw [empty] at nonempty
    exact absurd nonempty (by simp)

theorem takeBack_undoes {step : MergeStep} {listings : List Nat}
    (moved : step.moved = listings) : step.Undoes (takeBack listings step.call.group) where
  group := rfl
  named := rfl
  listed := fun _ => moved ▸ Iff.rfl

/-- The second merge carries the first one's adverts on, and both are taken back. -/
theorem undo_restores_grouping_at_threeHomes :
    ∃ restored answers,
      (homesStep (homesStep threeHomes [2, 3] 1).after [1, 2] 2).after.detachAll
          [takeBack [2, 3] 2, takeBack [3] 1] = some (restored, answers) ∧
        restored.SameGrouping threeHomes ∧
        answers.map (fun answer => (answer.listing, answer.outcome)) =
          [(2, .detached), (3, .detached), (3, .detached)] :=
  @undo_restores_grouping threeHomes threeHomes_initial [] []
    [homesStep (homesStep threeHomes [2, 3] 1).after [1, 2] 2] (homesStep threeHomes [2, 3] 1)
    ⟨fun first held => by obtain rfl := Option.some.inj held; rfl,
      List.isChain_cons_cons.mpr ⟨rfl, List.isChain_singleton _⟩,
      List.forall_mem_cons.mpr ⟨homesStep_made (by decide +kernel) (by decide +kernel),
        List.forall_mem_singleton.mpr (homesStep_made (by decide +kernel) (by decide +kernel))⟩⟩
    [takeBack [2, 3] 2, takeBack [3] 1]
    (.cons (takeBack_undoes (by decide +kernel)) (.cons (takeBack_undoes (by decide +kernel)) .nil))

end Sequence

end Sreality.Toolkit
