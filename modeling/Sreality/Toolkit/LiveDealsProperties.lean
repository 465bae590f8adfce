import Sreality.Foundation.Runs
import Sreality.Toolkit.CarrierProperties
import Sreality.Toolkit.CurationSplit
import Sreality.Toolkit.PropertyIdentityProperties

/-! A live deal and a dismissal never coexist (rules 18, 22): each merge lifts what the card it
placed meets, and a detach lifts it on every property it touched. -/

set_option autoImplicit false

namespace Sreality.Toolkit

open Sreality.Foundation

namespace Curation

variable {state next : Curation} {survivor retired : Nat}

/-- No account has an active dismissal beside a card in a non-terminal stage. -/
def Apart (state : Curation) : Prop :=
  ∀ account property, (state.dismissal account property).isSome = true →
    state.live account property = false

/-! ### The lift -/

@[simp] theorem liftLiveDeals_live (state : Curation) (property : Nat) (account : AccountId)
    (other : Nat) : (state.liftLiveDeals property).live account other = state.live account other :=
  rfl

theorem liftLiveDeals_dismissal (state : Curation) (property : Nat) (account : AccountId)
    (other : Nat) :
    (state.liftLiveDeals property).dismissal account other =
      if other = property ∧ state.live account property = true then none
      else state.dismissal account other := rfl

/-- A lift leaves nothing to lift on its property, and adds no dismissal anywhere. -/
theorem liftLiveDeals_apart_at (state : Curation) (property : Nat) (account : AccountId)
    (dismissed : ((state.liftLiveDeals property).dismissal account property).isSome = true) :
    state.live account property = false := by
  rw [liftLiveDeals_dismissal] at dismissed
  by_cases live : state.live account property = true
  · rw [if_pos ⟨rfl, live⟩] at dismissed
    cases dismissed
  · simpa using live

theorem of_liftLiveDeals {property other : Nat} {account : AccountId}
    (dismissed : ((state.liftLiveDeals property).dismissal account other).isSome = true) :
    (state.dismissal account other).isSome = true := by
  rw [liftLiveDeals_dismissal] at dismissed
  split at dismissed
  · cases dismissed
  · exact dismissed

/-! ### A merge -/

theorem Joined.apart {survivor retired : Nat} (joined : Joined survivor retired state next)
    (apart : state.Apart) : next.Apart := by
  intro account property dismissed
  rw [joined.dismissal account] at dismissed
  unfold joinedAt at dismissed
  by_cases gone : property = retired
  · rw [if_pos gone] at dismissed
    cases dismissed
  · rw [if_neg gone] at dismissed
    by_cases kept : property = survivor
    · subst kept
      rw [if_pos rfl] at dismissed
      by_cases live : next.live account property = true
      · rw [if_pos live] at dismissed
        cases dismissed
      · simpa using live
    · rw [if_neg kept] at dismissed
      have card : next.card account property = state.card account property := by
        rw [joined.card account, joinedAt, if_neg gone, if_neg kept]
      rw [live_congr joined.stages card]
      exact apart account property dismissed

/-! ### A detach -/

/-- The same cards and dismissals but on the properties named. -/
structure AgreeOff (places : List Nat) (state next : Curation) : Prop where
  stages : next.stages = state.stages
  card : ∀ account, ∀ property ∉ places, next.card account property = state.card account property
  dismissal : ∀ account, ∀ property ∉ places,
    next.dismissal account property = state.dismissal account property

namespace AgreeOff

variable {places : List Nat} {middle : Curation}

theorem refl (places : List Nat) (state : Curation) : AgreeOff places state state where
  stages := rfl
  card := fun _ _ _ => rfl
  dismissal := fun _ _ _ => rfl

theorem trans (first : AgreeOff places state middle) (second : AgreeOff places middle next) :
    AgreeOff places state next where
  stages := second.stages.trans first.stages
  card := fun account property off =>
    (second.card account property off).trans (first.card account property off)
  dismissal := fun account property off =>
    (second.dismissal account property off).trans (first.dismissal account property off)

theorem setCard {account : AccountId} {property : Nat} {card : Option Card}
    (named : property ∈ places) : AgreeOff places state (state.setCard account property card) where
  stages := rfl
  card := fun _ _ off => if_neg (by rintro ⟨_, rfl⟩; exact off named)
  dismissal := fun _ _ _ => rfl

theorem setEntry {table : SetTable} {key property : Nat} {at_ : Option Timestamp} :
    AgreeOff places state (state.setEntry table key property at_) where
  stages := rfl
  card := fun _ _ _ => rfl
  dismissal := fun _ _ _ => rfl

theorem setDismissal {account : AccountId} {property : Nat} {dismissal : Option Dismissal}
    (named : property ∈ places) :
    AgreeOff places state (state.setDismissal account property dismissal) where
  stages := rfl
  card := fun _ _ _ => rfl
  dismissal := fun _ _ off => if_neg (by rintro ⟨_, rfl⟩; exact off named)

end AgreeOff

variable {places : List Nat}

theorem moveRoute_off {left target : Nat} {route : Route} (leaves : left ∈ places)
    (lands : target ∈ places) (moved : state.moveRoute left target route = some next) :
    AgreeOff places state next := by
  unfold moveRoute at moved
  cases table : route.table with
  | set table_ =>
      simp only [table, Option.bind_eq_some_iff] at moved
      obtain ⟨key, _, moved⟩ := moved
      split at moved
      · cases moved
        exact AgreeOff.setEntry.trans .setEntry
      · cases moved
  | pipeline =>
      simp only [table] at moved
      split at moved
      · cases moved
        exact (AgreeOff.setCard leaves).trans (.setCard lands)
      · cases moved
  | dismissals =>
      simp only [table] at moved
      split at moved
      · split at moved
        · cases moved
          exact (AgreeOff.setDismissal leaves).trans (.setDismissal lands)
        · cases moved
      · cases moved

theorem insertRoute_off {now : Timestamp} {target : Nat} {route : Route} (lands : target ∈ places)
    (inserted : state.insertRoute now target route = some next) : AgreeOff places state next := by
  unfold insertRoute at inserted
  cases table : route.table with
  | set table_ =>
      simp only [table, Option.bind_eq_some_iff] at inserted
      obtain ⟨key, _, inserted⟩ := inserted
      split at inserted
      · cases inserted
      · cases inserted
        exact .setEntry
  | pipeline =>
      simp only [table, Option.bind_eq_some_iff] at inserted
      obtain ⟨stage, _, inserted⟩ := inserted
      split at inserted
      · cases inserted
      · cases inserted
        exact .setCard lands
  | dismissals =>
      simp only [table] at inserted
      split at inserted
      · cases inserted
      · cases inserted
        have set_ := @AgreeOff.setDismissal state places route.account target
          (some { id := state.nextDismissal, dismissedAt := now }) lands
        exact ⟨set_.stages, set_.card, set_.dismissal⟩

/-- The properties a detach's routing lifts on. -/
def touched (left : Nat) (landed : List (Nat × Nat)) : List Nat :=
  sortedIds (left :: landed.map Prod.snd).dedup

theorem mem_touched {left property : Nat} {landed : List (Nat × Nat)} :
    property ∈ touched left landed ↔ property = left ∨ property ∈ landed.map Prod.snd := by
  simp [touched]

theorem writeRoute_off {now : Timestamp} {left : Nat} {landed : List (Nat × Nat)} {route : Route}
    (written : state.writeRoute now left landed route = some next) :
    AgreeOff (touched left landed) state next := by
  have leaves : left ∈ touched left landed := mem_touched.mpr (.inl rfl)
  have lands : ((route.anchor.bind fun ad => landed.lookup ad).getD left) ∈
      touched left landed := by
    cases found : route.anchor.bind fun ad => landed.lookup ad with
    | none => exact leaves
    | some property =>
        obtain ⟨ad, _, held⟩ := Option.bind_eq_some_iff.mp found
        exact mem_touched.mpr (.inr (List.mem_map.mpr ⟨(ad, property), mem_of_lookup held, rfl⟩))
  unfold writeRoute at written
  dsimp only at written
  split at written
  · exact moveRoute_off leaves lands written
  · exact insertRoute_off lands written

theorem routes_off {now : Timestamp} {left : Nat} {landed : List (Nat × Nat)}
    (routes : List (Route × Nat)) (done : Curation × List Nat) :
    AgreeOff (touched left landed) done.1 (routes.foldl (routeOne now left landed) done).1 := by
  induction routes generalizing done with
  | nil => exact .refl _ _
  | cons route rest ih =>
      refine AgreeOff.trans ?_ (ih _)
      unfold routeOne
      cases written : done.1.writeRoute now left landed route.1 with
      | none => exact .refl _ _
      | some next => exact writeRoute_off written

/-- The lifts of a routing: nothing is left to lift on their properties, nothing else changes. -/
theorem lifts_apart {state : Curation} (lifted : List Nat)
    (elsewhere : ∀ account, ∀ property ∉ lifted,
      (state.dismissal account property).isSome = true → state.live account property = false) :
    (lifted.foldl liftLiveDeals state).Apart := by
  induction lifted generalizing state with
  | nil => exact fun account property => elsewhere account property List.not_mem_nil
  | cons first rest ih =>
      apply ih
      intro account property off dismissed
      rw [liftLiveDeals_live]
      by_cases here : property = first
      · subst here
        exact liftLiveDeals_apart_at state property account dismissed
      · exact elsewhere account property
          (fun listed => (List.mem_cons.mp listed).elim here off) (of_liftLiveDeals dismissed)

theorem routeCuration_apart (apart : state.Apart) (now : Timestamp) (left : Nat)
    (landed : List (Nat × Nat)) (routes : List Route) :
    (state.routeCuration now left landed routes).Apart := by
  have off := @routes_off now left landed (dueRoutes landed routes) (state, [])
  apply lifts_apart
  intro account property free dismissed
  have dismissal := off.dismissal account property free
  have live := live_congr off.stages (off.card account property free)
  exact live.trans (apart account property (dismissal ▸ dismissed))

end Curation

/-! ### The writers -/

namespace Database

variable {state after : Database}

theorem mergeSteps_apart {group : GroupId} {survivor : Nat} {reason : LedgerReason}
    (retired : List Nat) (differ : ∀ property ∈ retired, property ≠ survivor)
    (apart : state.curation.Apart) :
    (retired.foldl (mergePair group survivor reason) state).curation.Apart := by
  induction retired generalizing state with
  | nil => exact apart
  | cons first rest ih =>
      apply ih fun property listed => differ property (List.mem_cons_of_mem _ listed)
      have apart_ := (differ first List.mem_cons_self).symm
      exact (Curation.onMerge_joined _ group apart_).apart apart

/-- What a successful merge of a set did. -/
theorem merge_cases {call : MergeCall} (merged : state.merge call = .ok after) :
    ∃ survivor retired,
      state.identity.mergeMembers call.propertyIds call.source call.decidedBy =
        .ok (survivor, retired) ∧
      after =
        { retired.foldl (mergePair call.group survivor (.merge call.reason)) state with
          identity := (retired.foldl (mergePair call.group survivor (.merge call.reason))
            state).identity.propertiesChanged (survivor :: retired) } := by
  unfold merge at merged
  cases chosen : state.identity.mergeMembers call.propertyIds call.source call.decidedBy with
  | error refusal => simp [chosen, bind, Except.bind] at merged
  | ok members =>
      simp only [chosen, bind, Except.bind, Except.ok.injEq] at merged
      exact ⟨members.1, members.2, rfl, merged.symm⟩

theorem merge_apart (apart : state.curation.Apart) {call : MergeCall}
    (merged : state.merge call = .ok after) : after.curation.Apart := by
  obtain ⟨survivor, retired, chosen, rfl⟩ := merge_cases merged
  have members := Identity.mergeMembers_members chosen
  exact mergeSteps_apart retired
    (fun property listed => ((members.mem_retired property).mp listed).2) apart

theorem detach_cases {call : DetachCall} {picks : Option Picks} {now : Timestamp}
    {answers : List Detached} (detached : state.detach call picks now = some (after, answers)) :
    state.identity.detach call = some (after.identity, answers) ∧
      ∃ (plans : List (Nat × List Route)) (landed : List (Nat × Nat)),
        after.curation = plans.foldl (fun curation plan =>
          curation.routeCuration now plan.1 landed plan.2) state.curation := by
  unfold detach at detached
  dsimp only at detached
  split at detached
  · cases detached
  · obtain ⟨done, answered, equal⟩ := Option.map_eq_some_iff.mp detached
    cases equal
    exact ⟨answered, _, _, rfl⟩

theorem detach_apart (apart : state.curation.Apart) {call : DetachCall} {picks : Option Picks}
    {now : Timestamp} {answers : List Detached}
    (detached : state.detach call picks now = some (after, answers)) : after.curation.Apart := by
  obtain ⟨_, plans, landed, routed⟩ := detach_cases detached
  rw [routed]
  have routes : ∀ (plans : List (Nat × List Route)) (curation : Curation), curation.Apart →
      (plans.foldl (fun curation plan =>
        curation.routeCuration now plan.1 landed plan.2) curation).Apart := by
    intro plans
    induction plans with
    | nil => exact fun _ held => held
    | cons plan rest ih =>
        exact fun curation held =>
          ih _ (Curation.routeCuration_apart held now plan.1 landed plan.2)
  exact routes plans state.curation apart

/-! The writers over all their tables do to the adverts what the writers over the adverts do. -/

theorem mergeSteps_identity {group : GroupId} {survivor : Nat} {reason : LedgerReason}
    (retired : List Nat) (state : Database) :
    (retired.foldl (mergePair group survivor reason) state).identity =
      retired.foldl (Identity.mergePair group survivor reason) state.identity := by
  induction retired generalizing state with
  | nil => rfl
  | cons first rest ih => exact ih (mergePair group survivor reason state first)

theorem merge_identity {call : MergeCall} (merged : state.merge call = .ok after) :
    state.identity.merge call = .ok after.identity := by
  obtain ⟨survivor, retired, chosen, rfl⟩ := merge_cases merged
  simp only [Identity.merge, Identity.mergePropertySet, chosen, bind, Except.bind,
    mergeSteps_identity]

theorem mergeLetters_identity {statement : Letters} {groups : Char → GroupId}
    {decidedBy reason : String}
    (merged : state.mergeLetters statement groups decidedBy reason = .ok after) :
    state.identity.mergeLetters statement groups decidedBy reason = .ok after.identity := by
  unfold mergeLetters at merged
  unfold Identity.mergeLetters
  generalize (letterSets statement).filter (fun set => 2 ≤ set.2.length) = sets at merged ⊢
  induction sets generalizing state with
  | nil =>
      cases merged
      rfl
  | cons set rest ih =>
      rw [List.foldlM_cons] at merged ⊢
      obtain ⟨middle, first, onward⟩ := bind_eq_ok merged
      have step := merge_identity first
      simp only [Identity.merge] at step
      rw [step]
      exact ih onward

/-- A split is one detach with the user's choices and the merges that join its letters. -/
theorem splitProperty_cases {call : SplitCall} {picks : Picks} {now : Timestamp}
    (done : state.splitProperty call picks now = .ok after) :
    ∃ (moves : DetachCall) (detached : Database) (answers : List Detached) (statement : Letters),
      state.detach moves (some picks) now = some (detached, answers) ∧
        detached.mergeLetters statement call.groups call.decidedBy "operator_split" = .ok after ∧
        ∀ next, detached.identity.mergeLetters statement call.groups call.decidedBy
          "operator_split" = .ok next → state.identity.splitProperty call = .ok next := by
  obtain ⟨letters, accepted, done⟩ := bind_eq_ok done
  cases named : state.identity.resolveActive call.property with
  | none => simp [named] at done
  | some record =>
      simp only [named] at done
      obtain ⟨_, checked, done⟩ := bind_eq_ok done
      cases ruled : state.identity.letterLandings record call.canonical letters with
      | none => simp [ruled] at done
      | some landings =>
          simp only [ruled] at done
          split_ifs at done with stale
          split at done
          · cases done
          · next detached answers moved =>
              split_ifs at done with stuck
              obtain ⟨statement, stated, done⟩ := bind_eq_ok done
              split at done
              · next merged joined =>
                  cases done
                  refine ⟨_, detached, answers, statement, moved, joined, ?_⟩
                  intro next onward
                  have took := (detach_cases moved).1
                  simp only [Identity.detach] at took
                  simp only [Identity.splitProperty, accepted, named, checked, ruled, stale, took,
                    stuck, stated, onward, bind, Except.bind]
                  simp
              · cases done

theorem splitProperty_identity {call : SplitCall} {picks : Picks} {now : Timestamp}
    (done : state.splitProperty call picks now = .ok after) :
    state.identity.splitProperty call = .ok after.identity := by
  obtain ⟨_, _, _, _, _, joined, onward⟩ := splitProperty_cases done
  exact onward after.identity (mergeLetters_identity joined)

theorem splitProperty_apart (apart : state.curation.Apart) {call : SplitCall} {picks : Picks}
    {now : Timestamp} (done : state.splitProperty call picks now = .ok after) :
    after.curation.Apart := by
  obtain ⟨_, _, _, _, moved, joined, _⟩ := splitProperty_cases done
  exact foldlM_invariant (fun next => next.curation.Apart)
    (fun _ _ _ held merged => merge_apart held merged) (detach_apart apart moved) joined

/-- What each writer leaves behind. -/
structure KeepsApart (state : Database) : Prop where
  merge : ∀ call after, state.merge call = .ok after → after.curation.Apart
  detach : ∀ call picks now after answers, state.detach call picks now = some (after, answers) →
    after.curation.Apart
  split : ∀ call picks now after, state.splitProperty call picks now = .ok after →
    after.curation.Apart

/-- No writer leaves a dismissal beside a live deal, whatever the user chose. -/
theorem keeps_apart (state : Database) (apart : state.curation.Apart) : state.KeepsApart where
  merge := fun _ _ merged => merge_apart apart merged
  detach := fun _ _ _ _ _ detached => detach_apart apart detached
  split := fun _ _ _ _ done => splitProperty_apart apart done

/-- Two homes: the account deals with the one and has dismissed the other. -/
def dealAndDismissal : Database where
  identity :=
    { adverts := [{ listing := 10, firstSeen := some 1 }, { listing := 20, firstSeen := some 2 }]
      distinct := by decide
      place := fun listing => if listing = 10 then some 1 else if listing = 20 then some 2 else none
      property := fun property =>
        if property = 1 then some { firstSeen := some 1 }
        else if property = 2 then some { firstSeen := some 2 } else none
      ledger := []
      nextProperty := 3
      nextEvent := 0 }
  curation :=
    { accounts := [0]
      shelves := fun _ => []
      stages := fun stage =>
        if stage = 0 then some { account := 0, position := 0, isTerminal := false } else none
      entry := fun _ _ _ => none
      card := fun account property =>
        if account = 0 ∧ property = 1 then some { stage := 0, addedAt := 5, updatedAt := 5 } else none
      dismissal := fun account property =>
        if account = 0 ∧ property = 2 then some { id := 0, dismissedAt := 6 } else none
      carries := []
      nextCarry := 0
      nextDismissal := 1 }

def joinDeal : MergeCall where
  propertyIds := [1, 2]
  source := .operator
  reason := "same home"
  group := 7
  decidedBy := some "operator"

theorem dealAndDismissal_apart : dealAndDismissal.curation.Apart := by
  intro account property dismissed
  simp only [dealAndDismissal, Option.isSome_ite] at dismissed
  obtain ⟨rfl, rfl⟩ := dismissed
  decide

/-- The join lifts the dismissal the live card meets. -/
theorem deal_kept_apart :
    dealAndDismissal.KeepsApart ∧
      (dealAndDismissal.merge joinDeal).toOption.map
        (fun after => (after.curation.dismissal 0 1, after.curation.dismissal 0 2,
          after.curation.live 0 1)) = some (none, none, true) :=
  ⟨keeps_apart dealAndDismissal dealAndDismissal_apart, by decide +kernel⟩

end Database

end Sreality.Toolkit
