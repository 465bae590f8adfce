import Sreality.Toolkit.PropertyCarriers

/-! What one retired property leaves on its survivor: its entries beside the survivor's, the winning
card of each account, and a dismissal of either side unless a live card meets it. -/

set_option autoImplicit false

namespace Sreality.Toolkit

open Sreality.Foundation

namespace Curation

variable {state : Curation} {survivor retired : Nat}

/-- The card an account keeps of the survivor's and the retired one's. -/
def winner (state : Curation) (account : AccountId) (own other : Option Card) : Option Card :=
  match own, other with
  | some own, some other => if state.beats account other own then some other else some own
  | own, other => own.or other

theorem live_congr {next : Curation} {account : AccountId} {property : Nat}
    (stages : next.stages = state.stages)
    (card : next.card account property = state.card account property) :
    next.live account property = state.live account property := by
  unfold live
  rw [stages, card]

/-- A row per property after a step: the retired one's gone, the survivor's joined. -/
def joinedAt {α : Type} (survivor retired : Nat) (rows : Nat → α) (none_ joined : α) : Nat → α :=
  fun property =>
    if property = retired then none_ else if property = survivor then joined else rows property

/-- What a merge step does to the rows. -/
structure Joined (survivor retired : Nat) (state next : Curation) : Prop where
  stages : next.stages = state.stages
  entry : ∀ table key, next.entry table key =
    joinedAt survivor retired (state.entry table key) none
      ((state.entry table key survivor).or (state.entry table key retired))
  card : ∀ account, next.card account =
    joinedAt survivor retired (state.card account) none
      (state.winner account (state.card account survivor) (state.card account retired))
  dismissal : ∀ account, next.dismissal account =
    joinedAt survivor retired (state.dismissal account) none
      (if next.live account survivor then none
        else (state.dismissal account survivor).or (state.dismissal account retired))

theorem joinedAt_congr {α : Type} {rows other : Nat → α} {none_ joined joint : α}
    (same : ∀ property, property ≠ retired → property ≠ survivor → rows property = other property)
    (equal : joined = joint) :
    joinedAt survivor retired rows none_ joined = joinedAt survivor retired other none_ joint := by
  funext property
  unfold joinedAt
  split_ifs with gone kept
  · rfl
  · exact equal
  · exact same property gone kept

theorem repointed_eq {α : Type} (rows : Nat → Option α) (survivor retired : Nat) :
    repointed rows survivor retired =
      joinedAt survivor retired rows none ((rows retired).or (rows survivor)) := rfl

/-! ### The carriers -/

theorem carryEntries_entry (table : SetTable) (key : Nat) (differ : survivor ≠ retired) :
    (state.carryEntries table survivor retired).1.entry table key =
      joinedAt survivor retired (state.entry table key) none
        ((state.entry table key survivor).or (state.entry table key retired)) := by
  simp only [carryEntries, if_pos, repointed_eq]
  apply joinedAt_congr
  · exact fun property gone _ => if_neg fun folded => gone folded.1
  · cases state.entry table key survivor <;> simp [differ]

theorem carryEntries_other {table other : SetTable} (apart : other ≠ table) (key : Nat) :
    (state.carryEntries table survivor retired).1.entry other key = state.entry other key := by
  simp only [carryEntries, if_neg apart]

theorem reconcilePipeline_card (ledger : List LedgerRow) (account : AccountId)
    (differ : survivor ≠ retired) :
    (state.reconcilePipeline ledger survivor retired).1.card account =
      joinedAt survivor retired (state.card account) none
        (state.winner account (state.card account survivor) (state.card account retired)) := by
  simp only [reconcilePipeline, repointed_eq]
  apply joinedAt_congr
  · intro property gone other
    rw [if_neg fun folded => gone folded.1, if_neg fun folded => other folded.1]
  · rcases Option.eq_none_or_eq_some (state.card account survivor) with own | ⟨card, own⟩
    · simp [own, winner, differ.symm]
    · rcases Option.eq_none_or_eq_some (state.card account retired) with other | ⟨rival, other⟩
      · simp [own, other, winner, differ]
      · by_cases beaten : state.beats account rival card = true
        · simp [own, other, winner, differ.symm, beaten]
        · simp [own, other, winner, differ, beaten]

theorem carryDismissals_dismissal (ledger : List LedgerRow) (account : AccountId)
    (differ : survivor ≠ retired) :
    (state.carryDismissals ledger survivor retired).1.dismissal account =
      joinedAt survivor retired (state.dismissal account) none
        (if state.live account survivor then none
          else (state.dismissal account survivor).or (state.dismissal account retired)) := by
  have alive : ∀ dismissal : AccountId → Nat → Option Dismissal,
      ({ state with dismissal := dismissal } : Curation).live = state.live := fun _ => rfl
  simp only [carryDismissals, liftLiveDeals, repointed_eq, alive]
  funext property
  unfold joinedAt
  by_cases gone : property = retired
  · simp [gone]
  · by_cases kept : property = survivor
    · subst kept
      by_cases live : state.live account property = true
      · simp [live, gone]
      · cases state.dismissal account property <;> simp [live, gone]
    · simp [gone, kept]

theorem onMerge_joined (ledger : List LedgerRow) (group : GroupId) (differ : survivor ≠ retired) :
    Joined survivor retired state (state.onMerge ledger group survivor retired) := by
  constructor
  · rfl
  · intro table key
    cases table with
    | collectionProperties =>
        exact carryEntries_entry .collectionProperties key differ
    | propertyTags =>
        have tagged := @carryEntries_entry
          (state.carryEntries .collectionProperties survivor retired).1 survivor retired
          .propertyTags key differ
        have before := @carryEntries_other state survivor retired .collectionProperties .propertyTags
          (by decide) key
        rw [before] at tagged
        exact tagged
  · exact fun account => reconcilePipeline_card ledger account differ
  · exact fun account => carryDismissals_dismissal ledger account differ

/-! ### No re-point trips a key

Of the two rows a key may have, one is gone before the statement that re-points the other. -/

/-- Rows re-pointed with no key on both sides, each a row there was. -/
def Unclashed {α : Type} (survivor retired : Nat) (before after : Nat → Option α) : Prop :=
  ∃ rows, after = repointed rows survivor retired ∧
    (rows survivor = none ∨ rows retired = none) ∧
    ∀ property, rows property = none ∨ rows property = before property

theorem carryEntries_unclashed (table : SetTable) (key : Nat) (differ : survivor ≠ retired) :
    Unclashed survivor retired (state.entry table key)
      ((state.carryEntries table survivor retired).1.entry table key) := by
  refine ⟨fun property => if property = retired ∧ (state.entry table key survivor).isSome then none
    else state.entry table key property, by simp only [carryEntries, if_pos], ?_, ?_⟩
  · cases own : state.entry table key survivor <;> simp [own, differ]
  · intro property
    exact (ite_eq_or_eq _ _ _)

theorem reconcilePipeline_unclashed (ledger : List LedgerRow) (account : AccountId)
    (differ : survivor ≠ retired) :
    Unclashed survivor retired (state.card account)
      ((state.reconcilePipeline ledger survivor retired).1.card account) := by
  refine ⟨_, rfl, ?_, ?_⟩
  · rcases Option.eq_none_or_eq_some (state.card account survivor) with own | ⟨card, own⟩
    · exact .inl (by simp [own])
    · rcases Option.eq_none_or_eq_some (state.card account retired) with other | ⟨rival, other⟩
      · exact .inr (by simp [own, other])
      · by_cases beaten : state.beats account rival card = true
        · exact .inl (by simp [own, other, beaten, differ])
        · exact .inr (by simp [own, other, beaten])
  · intro property
    dsimp only
    split_ifs <;> simp

/-- The dismissals too, before the lift. -/
theorem carryDismissals_unclashed (ledger : List LedgerRow) (account : AccountId)
    (differ : survivor ≠ retired) :
    ∃ joined, Unclashed survivor retired (state.dismissal account) joined ∧
      (state.carryDismissals ledger survivor retired).1.dismissal account = fun property =>
        if property = survivor ∧ state.live account survivor = true then none
        else joined property := by
  refine ⟨_, ⟨fun property => if property = retired ∧ (state.dismissal account survivor).isSome then
    none else state.dismissal account property, rfl, ?_, ?_⟩, rfl⟩
  · cases own : state.dismissal account survivor <;> simp [own, differ]
  · intro property
    exact (ite_eq_or_eq _ _ _)

end Curation

end Sreality.Toolkit
