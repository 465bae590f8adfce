import Sreality.LocationData.BindProperties

/-! The forms a candidate of BIND can take, off the code alone: no register need be consistent. -/

set_option autoImplicit false

namespace Sreality.LocationData

open Sreality.Foundation

namespace Ladder

variable (ctx : ResolverContext) (ladder : Ladder)

/-- A candidate of the claims' words: a door, a part, a street or a kept town. -/
inductive Worded : Candidate → Prop where
  | door {door : AddressPoint} {rung : Rung} {agreed : List Agreed} {claimIds : List Nat}
      {relaxations : List Qualifier} (rungs : rung = .r0 ∨ rung = .r1)
      (fields : 3 ≤ agreed.length) :
      Worded (pointCandidate door rung agreed claimIds relaxations)
  | part {word : PartWord} (said : word ∈ ladder.parts ctx) :
      Worded (adminCandidate word.unit .r4 .castObceOrQuarter word.claimIds word.qualifiers
        word.agreed)
  | street {street : Street} {relaxations : List Qualifier} :
      Worded (streetCandidate street .r2 ladder.constraints 0 relaxations)
  | fuzzy {street : Street} {similarity : Float64} (alike : trgmThreshold ≤ similarity)
      (unsaid : (ladder.line ctx).reason ≠ .streetNamesPart) :
      Worded (streetCandidate street .r3 ladder.constraints similarity [.streetUnaccentFuzzy])
  | town {unit : AdminUnit} (kept : unit ∈ ladder.towns.units) :
      Worded (adminCandidate unit ladder.towns.rung .obec
        (ladder.constraints.ids [.obecName, .psc]) ladder.towns.applied none)

/-- A candidate inferred where the words give none: a town off the pin, or a region. -/
inductive Inferred : Candidate → Prop where
  | pin {unit : AdminUnit} {rung : Rung} {claimIds : List Nat} {qualifiers : List Qualifier}
      (rungs : rung = .r7 ∨ rung = .r8) :
      Inferred (adminCandidate unit rung .obec claimIds qualifiers none)
  | region {unit : AdminUnit} {granularity : Granularity} {claimIds : List Nat}
      {qualifiers : List Qualifier} (grains : granularity = .okres ∨ granularity = .kraj) :
      Inferred (adminCandidate unit .r9 granularity claimIds qualifiers none)

variable {ctx ladder} {candidate : Candidate}

theorem streetCandidates_worded {bound : Option BoundStreet} {relaxed : List Qualifier}
    (held : candidate ∈ streetCandidates ctx ladder.constraints bound relaxed) :
    ladder.Worded ctx candidate := by
  cases bound with
  | none => cases held
  | some line =>
      unfold streetCandidates at held
      dsimp only at held
      split_ifs at held with numbered
      all_goals
        first
        | cases List.mem_singleton.mp held
          exact .street
        | obtain ⟨door, _, rfl⟩ := List.mem_map.mp held
          exact .door (.inr rfl) (by
            rw [List.length_append]
            exact Nat.le_add_right 3 _)

theorem fuzzyCandidates_worded {reason : StreetReason} {boundExactly : Bool}
    (unsaid : reason ≠ .streetNamesPart → (ladder.line ctx).reason ≠ .streetNamesPart)
    (held : candidate ∈ fuzzyCandidates ctx ladder.constraints ladder.kods reason boundExactly) :
    ladder.Worded ctx candidate := by
  unfold fuzzyCandidates at held
  cases key : truthy ladder.constraints.streetKey with
  | none =>
      rw [key] at held
      cases held
  | some text =>
      rw [key] at held
      dsimp only at held
      split_ifs at held with stopped
      · cases held
      · have unnamed := unsaid fun same => stopped (.inr (.inr (.inr same)))
        have alike : ∀ entry ∈ sortedBy fuzzyOrder
            (((ladder.kods.flatMap ctx.registry.streetsInObec).map fun street =>
              (trigramSimilarity ctx.text text street.nameNorm, street)).filter fun entry =>
                decide (trgmThreshold ≤ entry.1)), trgmThreshold ≤ entry.1 := by
          intro entry listed
          exact of_decide_eq_true (List.mem_filter.mp (mem_sortedBy.mp listed)).2
        revert held alike
        generalize sortedBy fuzzyOrder _ = fuzzy
        intro held alike
        cases fuzzy with
        | nil => cases held
        | cons best others =>
            have top := alike best List.mem_cons_self
            cases others with
            | nil =>
                cases List.mem_singleton.mp held
                exact .fuzzy top unnamed
            | cons next rest =>
                dsimp only at held
                cases List.mem_singleton.mp (List.mem_ite_nil_right.mp held).2
                exact .fuzzy top unnamed

theorem numberInPart_worded {part : Option AdminUnit} {pinBlurred hasDoor : Bool}
    (held : candidate ∈ numberInPart ctx ladder.constraints part pinBlurred hasDoor) :
    ladder.Worded ctx candidate := by
  cases part with
  | none => cases held
  | some unit =>
      unfold numberInPart at held
      dsimp only at held
      cases climbs : ctx.registry.obecOf unit with
      | none =>
          rw [climbs] at held
          cases held
      | some obec =>
          rw [climbs] at held
          dsimp only at held
          have listed := (List.mem_ite_nil_left.mp held).2
          split at listed
          · cases List.mem_singleton.mp (List.mem_ite_nil_right.mp listed).2
            exact .door (.inr rfl) le_rfl
          · cases listed

/-- A street 1d settles comes of a tie, so no line of it names a part. -/
theorem settledStreet_reason {part : Option AdminUnit} {line : StreetBind} {bound : BoundStreet}
    {relaxed : List Qualifier} (settled : settledStreet ctx part line = (some bound, relaxed)) :
    line.reason = .ambiguousStreets ∨ line.bound = some bound := by
  unfold settledStreet at settled
  split_ifs at settled with tied
  · exact .inr (Prod.mk.inj settled).1
  · exact .inl (not_not.mp tied)

theorem worded_form (named : ∀ bound, (ladder.line ctx).bound = some bound →
      (ladder.line ctx).reason ≠ .streetNamesPart) (held : candidate ∈ ladder.worded ctx) :
    ladder.Worded ctx candidate := by
  unfold worded at held
  dsimp only at held
  rcases List.mem_append.mp held with listed | inPart
  · rcases List.mem_append.mp listed with exactly | town
    · rcases List.mem_append.mp exactly with bound | fuzzy
      · rcases List.mem_append.mp bound with wordy | street
        · rcases List.mem_append.mp wordy with key | part
          · obtain ⟨door, _, rfl⟩ := Option.map_eq_some_iff.mp (Option.mem_toList.mp key)
            exact .door (.inl rfl) (by decide)
          · obtain ⟨word, said, rfl⟩ := List.mem_map.mp part
            exact .part said
        · exact streetCandidates_worded street
      · refine fuzzyCandidates_worded ?_ fuzzy
        intro unsaid
        cases settled : settledStreet ctx (oneCast (ladder.parts ctx)) (ladder.line ctx) with
        | mk bound relaxed =>
            rw [settled] at unsaid
            cases bound with
            | none => exact unsaid
            | some bound =>
                rcases settledStreet_reason settled with tied | bound_
                · rw [tied]
                  nofun
                · exact named bound bound_
    · obtain ⟨unit, kept, rfl⟩ := List.mem_map.mp town
      exact .town kept
  · exact numberInPart_worded inPart

theorem candidates_form (named : ∀ bound, (ladder.line ctx).bound = some bound →
      (ladder.line ctx).reason ≠ .streetNamesPart) (held : candidate ∈ ladder.candidates ctx) :
    ladder.Worded ctx candidate ∨ ladder.worded ctx = [] ∧ Inferred candidate := by
  unfold candidates at held
  dsimp only at held
  split_ifs at held with some_ pinned
  · exact .inl (worded_form named held)
  · refine .inr ⟨not_not.mp some_, ?_⟩
    unfold pinCandidates at held
    split at held
    · cases held
    · split at held
      · cases List.mem_singleton.mp held
        exact .pin (.inl rfl)
      · split at held
        · cases List.mem_singleton.mp held
          exact .pin (.inr rfl)
        · cases held
  · refine .inr ⟨not_not.mp some_, ?_⟩
    unfold regionCandidates at held
    dsimp only at held
    split_ifs at held
    all_goals
      unfold regionsNamed at held
      obtain ⟨key, _, byKey⟩ := List.mem_flatMap.mp held
      obtain ⟨unit, _, rfl⟩ := List.mem_map.mp byKey
    · exact .region (.inl rfl)
    · exact .region (.inr rfl)

end Ladder

end Sreality.LocationData
