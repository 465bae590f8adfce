import Sreality.Autodedup.Decide

/-! The layers of a decision only filter where they say they filter. -/

set_option autoImplicit false

namespace Sreality.Autodedup.Decide

open Sreality.Foundation

variable {Rest : Type} {readers : Readers Rest} {dials : Dials Rest} {settings : Settings Rest}
  {pair : PairInput} {decision : Decision}

@[simp] theorem moved_zone (decision : Decision) (zone : Zone) (reason : String)
    (evidence : Dict String String) :
    (decision.moved zone reason evidence).zone = zone := rfl

/-! ### The context rule -/

/-- The context rule reads the band alone. -/
theorem applyContextRule_outside (outside : decision.zone ≠ .band) :
    applyContextRule dials pair decision = decision :=
  if_pos (.inr outside)

theorem applyContextRule_named {name : String} (never : name ∈ contextRuleNeverOverrides)
    (named : names decision.reason name = true) :
    applyContextRule dials pair decision = decision := by
  have refused : contextRuleMayPromote decision.reason = false := by
    simp only [contextRuleMayPromote, Bool.not_eq_false']
    exact List.any_eq_true.mpr ⟨name, never, named⟩
  unfold applyContextRule
  rw [if_pos refused, ite_self]

theorem applyContextRule_blind (limbs : censusLimbsConfigured dials = true)
    (blind : pair.context = none) : applyContextRule dials pair decision = decision := by
  unfold applyContextRule
  simp only [blind, Option.map_none, limbs, if_true]
  split
  · rfl
  · split
    · rfl
    · split <;> rfl

/-! ### The D43 rule -/

theorem applyD43Rule_outside (notMerge : decision.zone ≠ .merge) (notBand : decision.zone ≠ .band) :
    applyD43Rule readers settings pair decision = decision := by
  unfold applyD43Rule
  rw [if_neg fun gated => notMerge gated.1, if_neg fun banded => notBand banded.1]

/-- A pair leaves the D43 rule merged because no fact demotes it, or because it was promoted. -/
theorem applyD43Rule_merge_iff :
    (applyD43Rule readers settings pair decision).zone = .merge ↔
      decision.zone = .merge ∧ (settings.d43Gate = true →
        readers.distinguishingFacts settings.toDials .gate pair.la pair.lb pair.feats = []) ∨
      decision.zone = .band ∧ settings.d43Promote = true ∧
        promotionWarrant readers pair.la pair.lb pair.feats settings.toDials ≠ none ∧
        demonstrationRefusal readers pair.la pair.lb pair.feats settings = none := by
  unfold applyD43Rule
  by_cases merged : decision.zone = .merge
  · by_cases gate : settings.d43Gate = true
    · rw [if_pos ⟨merged, gate⟩]
      cases facts : readers.distinguishingFacts settings.toDials .gate pair.la pair.lb
          pair.feats with
      | nil => simp [merged]
      | cons fact others => simp [merged, gate]
    · rw [if_neg fun gated => gate gated.2]
      simp [merged, gate]
  · rw [if_neg fun gated => merged gated.1]
    by_cases promotes : decision.zone = .band ∧ settings.d43Promote = true
    · rw [if_pos promotes]
      cases promotionWarrant readers pair.la pair.lb pair.feats settings.toDials with
      | none => simp [merged]
      | some warrant =>
          cases demonstrationRefusal readers pair.la pair.lb pair.feats settings with
          | none => simp [promotes.1, promotes.2]
          | some refusal => simp [merged]
    · rw [if_neg promotes]
      simp only [merged, false_and, false_or, false_iff]
      exact fun promoted => promotes ⟨promoted.1, promoted.2.1⟩

/-! ### The merge policy -/

theorem applyMergePolicy_outside (notMerge : decision.zone ≠ .merge) :
    applyMergePolicy settings pair decision = decision :=
  if_pos notMerge

/-- The policy holds a merge back exactly when one side's cell proposes. -/
theorem applyMergePolicy_merge_iff :
    (applyMergePolicy settings pair decision).zone = .merge ↔
      decision.zone = .merge ∧ ∀ listing ∈ [pair.la, pair.lb],
        mergePolicyVerdict listing settings.mergePolicy ≠ some "propose" := by
  by_cases merged : decision.zone = .merge
  · unfold applyMergePolicy
    rw [if_neg fun other => other merged]
    cases held : [pair.la, pair.lb].find? fun listing =>
        decide (mergePolicyVerdict listing settings.mergePolicy = some "propose") with
    | none =>
        have free := List.find?_eq_none.mp held
        simp only [merged, true_and, true_iff]
        exact fun listing side proposes => free listing side (decide_eq_true proposes)
    | some listing =>
        have proposes : mergePolicyVerdict listing settings.mergePolicy = some "propose" := by
          simpa using List.find?_some held
        simp only [moved_zone, reduceCtorEq, false_iff, not_and]
        exact fun _ free => free listing (List.mem_of_find?_eq_some held) proposes
  · rw [applyMergePolicy_outside merged]
    exact ⟨fun zone => absurd zone merged, fun zone => zone.1⟩

/-! ### Stricter settings -/

/-- The second settings demand the demonstration, the gate or more of the policy. -/
structure Stricter (loose strict : Settings Rest) : Prop where
  dials : strict.toDials = loose.toDials
  demonstrates : loose.demonstrateIdentity = true → strict.demonstrateIdentity = true
  gates : loose.d43Gate = true → strict.d43Gate = true
  policy : ∀ key, strict.mergePolicy key = loose.mergePolicy key ∨
    strict.mergePolicy key = some "propose"

namespace Stricter

variable {loose strict : Settings Rest}

theorem verdict (stricter : Stricter loose strict) {listing : Listing}
    (proposes : mergePolicyVerdict listing loose.mergePolicy = some "propose") :
    mergePolicyVerdict listing strict.mergePolicy = some "propose" := by
  unfold mergePolicyVerdict at proposes ⊢
  generalize mergePolicyCells listing = cells at proposes ⊢
  induction cells with
  | nil => cases proposes
  | cons key rest ih =>
      rw [List.findSome?_cons] at proposes ⊢
      rcases stricter.policy key with same | added
      · rw [same]
        cases entry : loose.mergePolicy key with
        | none =>
            rw [entry] at proposes
            exact ih proposes
        | some value =>
            rw [entry] at proposes
            exact proposes
      · rw [added]

theorem refusal (stricter : Stricter loose strict) {la lb : Listing} {feats : Feats}
    (free : demonstrationRefusal readers la lb feats strict = none) :
    demonstrationRefusal readers la lb feats loose = none := by
  by_cases demonstrates : loose.demonstrateIdentity = true
  · have same : demonstrationRefusal readers la lb feats loose =
        demonstrationRefusal readers la lb feats strict := by
      unfold demonstrationRefusal
      rw [stricter.dials, demonstrates, stricter.demonstrates demonstrates]
    rw [same]
    exact free
  · unfold demonstrationRefusal
    exact if_pos (by simpa using demonstrates)

/-- What stricter settings merge, the looser ones merge. -/
theorem merges (stricter : Stricter loose strict)
    (merged : (decidePair readers strict pair).zone = .merge) :
    (decidePair readers loose pair).zone = .merge := by
  obtain ⟨decided, free⟩ := applyMergePolicy_merge_iff.mp merged
  apply applyMergePolicy_merge_iff.mpr
  constructor
  · rw [applyD43Rule_merge_iff] at decided ⊢
    rw [stricter.dials] at decided
    rcases decided with ⟨zone, factless⟩ | ⟨zone, promotes, warrant, refusal⟩
    · exact .inl ⟨zone, fun gate => factless (stricter.gates gate)⟩
    · exact .inr ⟨zone, promotes, warrant, stricter.refusal refusal⟩
  · exact fun listing side proposes => free listing side (stricter.verdict proposes)

end Stricter

/-! ### What each layer may do -/

structure LayersFilter (readers : Readers Rest) (settings : Settings Rest) (pair : PairInput) :
    Prop where
  floorStands : (decideLayers readers settings.toDials pair).zone = .veto ∨
      (decideLayers readers settings.toDials pair).zone = .reject →
    decidePair readers settings pair = decideLayers readers settings.toDials pair
  policyHolds : ∀ listing ∈ [pair.la, pair.lb],
    mergePolicyVerdict listing settings.mergePolicy = some "propose" →
      (decidePair readers settings pair).zone ≠ .merge
  gateHolds : settings.d43Gate = true →
    readers.distinguishingFacts settings.toDials .gate pair.la pair.lb pair.feats ≠ [] →
    (decideContext readers settings.toDials pair).zone = .merge →
      (decidePair readers settings pair).zone ≠ .merge
  stricter : ∀ strict : Settings Rest, Stricter settings strict →
    (decidePair readers strict pair).zone = .merge → (decidePair readers settings pair).zone = .merge
  neverOverrides : ∀ decision : Decision, decision.zone = .band →
    ∀ name ∈ contextRuleNeverOverrides, names decision.reason name = true →
      (applyContextRule settings.toDials pair decision).zone ≠ .merge
  blind : censusLimbsConfigured settings.toDials = true → pair.context = none →
    ∀ decision : Decision, decision.zone = .band →
      (applyContextRule settings.toDials pair decision).zone ≠ .merge

theorem layers_filter (readers : Readers Rest) (settings : Settings Rest) (pair : PairInput) :
    LayersFilter readers settings pair := by
  constructor
  · intro floor
    have notBand : (decideLayers readers settings.toDials pair).zone ≠ .band := by
      rcases floor with zone | zone <;> simp [zone]
    have notMerge : (decideLayers readers settings.toDials pair).zone ≠ .merge := by
      rcases floor with zone | zone <;> simp [zone]
    unfold decidePair decideContext
    rw [applyContextRule_outside notBand, applyD43Rule_outside notMerge notBand,
      applyMergePolicy_outside notMerge]
  · intro listing side proposes merged
    exact (applyMergePolicy_merge_iff.mp merged).2 listing side proposes
  · intro gate facts contextual merged
    rcases applyD43Rule_merge_iff.mp (applyMergePolicy_merge_iff.mp merged).1 with
      ⟨_, factless⟩ | ⟨banded, _⟩
    · exact facts (factless gate)
    · rw [contextual] at banded
      cases banded
  · exact fun _ stricter merged => stricter.merges merged
  · intro decision banded name never named
    rw [applyContextRule_named never named, banded]
    decide
  · intro limbs blind decision banded
    rw [applyContextRule_blind limbs blind, banded]
    decide

end Sreality.Autodedup.Decide
