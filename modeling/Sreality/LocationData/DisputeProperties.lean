import Sreality.LocationData.ResolveProperties
import Sreality.LocationData.CandidateProperties

/-! What a row in dispute may be graded: the caps of GRADE against the disputes of CHECK. -/

set_option autoImplicit false

namespace Sreality.LocationData

open Sreality.Foundation

/-! ### The winner's fields -/

section Winner

variable {ctx : ResolverContext}

/-- A street line that binds a street names no part. -/
theorem streetLine_bound {constraints : Constraints} {kods : List Kod} {placeLines : List String}
    {bound : BoundStreet} (binds : (streetLine ctx constraints kods placeLines).bound = some bound) :
    (streetLine ctx constraints kods placeLines).reason ≠ .streetNamesPart := by
  unfold streetLine at binds ⊢
  split_ifs at binds ⊢
  · unfold resolveStreet at binds ⊢
    dsimp only at binds ⊢
    split at binds
    · cases binds
    · nofun
    · cases binds

theorem Ladder.bind_won (ctx : ResolverContext) (ladder : Ladder) :
    ladder.bind ctx = {} ∨ ∃ top ∈ ladder.candidates ctx, ∃ rest,
      ladder.bind ctx = bindingOf ctx ladder.towns.named top rest := by
  unfold Ladder.bind
  cases ranked : rankCandidates (ladder.candidates ctx) with
  | nil => exact .inl rfl
  | cons top rest =>
      refine .inr ⟨top, ?_, rest, rfl⟩
      have listed : top ∈ rankCandidates (ladder.candidates ctx) :=
        ranked ▸ List.mem_cons_self
      exact mem_sortedBy.mp listed

/-- A candidate is of some kind, and a door agrees in at least three fields. -/
theorem Ladder.candidates_fields {ladder : Ladder} {candidate : Candidate}
    (held : candidate ∈ ladder.candidates ctx) :
    candidate.targetKind ≠ .none ∧
      (candidate.targetKind = .addressPoint → 3 ≤ candidate.agreed.length) := by
  have named := fun bound => @streetLine_bound ctx ladder.constraints ladder.kods
    ladder.placeLines bound
  rcases Ladder.candidates_form named held with worded | ⟨_, inferred⟩
  · cases worded with
    | door _ fields => exact ⟨nofun, fun _ => fields⟩
    | part _ => exact ⟨nofun, nofun⟩
    | street => exact ⟨nofun, nofun⟩
    | fuzzy _ _ => exact ⟨nofun, nofun⟩
    | town _ => exact ⟨nofun, nofun⟩
  · cases inferred with
    | pin _ => exact ⟨nofun, nofun⟩
    | region _ => exact ⟨nofun, nofun⟩

/-- A door bound agrees in at least three fields. -/
theorem Ladder.bind_door {ladder : Ladder}
    (door : (ladder.bind ctx).targetKind = .addressPoint) :
    3 ≤ (ladder.bind ctx).agreed.length := by
  rcases ladder.bind_won ctx with nothing | ⟨top, held, rest, won⟩
  · rw [nothing] at door
    cases door
  · rw [won] at door ⊢
    exact (Ladder.candidates_fields held).2 door

/-- Where nothing is bound the chain is empty. -/
theorem Ladder.bind_unbound {ladder : Ladder} (unbound : (ladder.bind ctx).bound = false) :
    bindingChain ctx (ladder.bind ctx) = [] := by
  rcases ladder.bind_won ctx with nothing | ⟨top, held, rest, won⟩
  · rw [nothing]
    rfl
  · rw [won] at unbound
    have none_ : top.targetKind = .none := by
      simpa [Binding.bound, bindingOf] using unbound
    exact absurd none_ (Ladder.candidates_fields held).1

end Winner

/-! ### The caps -/

section Caps

variable (ctx : ResolverContext)

/-- How far a pin may stand off the bound door or street before the two disagree. -/
def Binding.reachM (binding : Binding) : Option ℚ :=
  match binding.targetKind with
  | .addressPoint => some registryPinConflictM
  | .street => some (max registryPinConflictM (binding.streetExtentM.getD 0))
  | .adminUnit | .none => none

/-- The pin stands farther off the bound door or street than that. -/
def pinElsewhere (binding : Binding) (pin : Option Point) : Bool :=
  (ctx.distanceBetween binding.point pin).any fun metres =>
    binding.reachM.any fun reach => decide (reach < metres)

variable {ctx} {binding : Binding}

theorem distanceBetween_pinless (one : Option Point) : ctx.distanceBetween one none = none := by
  cases one with
  | none => rfl
  | some _ => rfl

theorem pinElsewhere_pinless : pinElsewhere ctx binding none = false := by
  unfold pinElsewhere
  rw [distanceBetween_pinless]
  rfl

/-- What a position says against the pin: GRADE caps on either. -/
def Position.capped (position : Position) : Bool :=
  position.pinConflicts || position.pinOverridden

theorem fillPosition_uncapped (filled : Fill) :
    (fillPosition filled binding).capped = false := by
  unfold fillPosition
  split
  · rfl
  · rfl

/-- The pin's own position, or none, speaks against nothing. -/
theorem place_unplaced_uncapped (pinClaim : Option Claim) (declared : DeclaredPrecision)
    (pinInside : Option Bool)
    (unplaced : ¬ ((binding.targetKind = .addressPoint ∨ binding.targetKind = .street) ∧
      binding.point.isSome = true)) :
    (place ctx binding pinClaim declared pinInside).capped = false := by
  unfold place
  dsimp only
  rw [if_neg fun door => unplaced ⟨.inl door.1, door.2⟩,
    if_neg fun street => unplaced ⟨.inr street.1, street.2⟩]
  split
  · split_ifs
    · rfl
    · rfl
  · rfl

theorem place_door_capped (pinClaim : Option Claim) (declared : DeclaredPrecision)
    (pinInside : Option Bool) (door : binding.targetKind = .addressPoint)
    (placed : binding.point.isSome = true) :
    (place ctx binding pinClaim declared pinInside).capped =
      pinElsewhere ctx binding (pinClaim.bind Claim.point) := by
  unfold place
  dsimp only
  rw [if_pos ⟨door, placed⟩]
  unfold Position.capped Position.pinConflicts pinElsewhere Binding.reachM
  rw [door]
  exact Bool.or_false _

/-- Off its street an exact pin is overridden; within its reach it is the position. -/
theorem place_street_capped (pinClaim : Option Claim) {declared : DeclaredPrecision}
    (pinInside : Option Bool) (street : binding.targetKind = .street)
    (placed : binding.point.isSome = true) (sharp : declared.blurred = false) :
    (place ctx binding pinClaim declared pinInside).capped =
      pinElsewhere ctx binding (pinClaim.bind Claim.point) := by
  have other : ¬ (binding.targetKind = .addressPoint ∧ binding.point.isSome = true) := by
    rw [street]
    exact fun door => nomatch door.1
  unfold place
  dsimp only
  rw [if_neg other, if_pos ⟨street, placed⟩]
  cases pinClaim with
  | none =>
      rw [Option.bind_none, pinElsewhere_pinless, distanceBetween_pinless]
      rfl
  | some claim =>
      cases pin : claim.point with
      | none =>
          rw [Option.bind_some, pin, pinElsewhere_pinless, distanceBetween_pinless]
          rfl
      | some spot =>
          simp only [Option.bind_some, pin, sharp, Bool.false_or, Bool.not_false, Bool.and_true]
          have elsewhere : pinElsewhere ctx binding (some spot) =
              (ctx.distanceBetween binding.point (some spot)).any fun metres =>
                decide (max registryPinConflictM (binding.streetExtentM.getD 0) < metres) := by
            unfold pinElsewhere Binding.reachM
            rw [street]
            rfl
          rw [elsewhere]
          split_ifs with off
          · unfold Position.capped
            rw [off]
            exact Bool.or_true _
          · rw [Bool.not_eq_true] at off
            rw [off]
            rfl

theorem pinElsewhere_placed {pin : Option Point}
    (unplaced : ¬ ((binding.targetKind = .addressPoint ∨ binding.targetKind = .street) ∧
      binding.point.isSome = true)) : pinElsewhere ctx binding pin = false := by
  unfold pinElsewhere
  cases point : binding.point with
  | none => rfl
  | some spot =>
      have other : binding.reachM = none := by
        unfold Binding.reachM
        cases kind : binding.targetKind with
        | addressPoint => exact absurd ⟨.inl kind, by rw [point]; rfl⟩ unplaced
        | street => exact absurd ⟨.inr kind, by rw [point]; rfl⟩ unplaced
        | adminUnit => rfl
        | none => rfl
      rw [other]
      exact Option.any_false

theorem place_capped (pinClaim : Option Claim) {declared : DeclaredPrecision}
    (pinInside : Option Bool) (sharp : declared.blurred = false) :
    (place ctx binding pinClaim declared pinInside).capped =
      pinElsewhere ctx binding (pinClaim.bind Claim.point) := by
  by_cases placed : (binding.targetKind = .addressPoint ∨ binding.targetKind = .street) ∧
      binding.point.isSome = true
  · rcases placed.1 with door | street
    · exact place_door_capped pinClaim declared pinInside door placed.2
    · exact place_street_capped pinClaim pinInside street placed.2 sharp
  · rw [place_unplaced_uncapped pinClaim declared pinInside placed, pinElsewhere_placed placed]

theorem place_overridden {pinClaim : Option Claim} {declared : DeclaredPrecision}
    {pinInside : Option Bool}
    (pointless : (place ctx binding pinClaim declared pinInside).point.isSome = false) :
    (place ctx binding pinClaim declared pinInside).capped = false := by
  by_cases placed : (binding.targetKind = .addressPoint ∨ binding.targetKind = .street) ∧
      binding.point.isSome = true
  · exfalso
    have somewhere : (place ctx binding pinClaim declared pinInside).point.isSome = true := by
      unfold place
      dsimp only
      rcases placed.1 with door | street
      · rw [if_pos ⟨door, placed.2⟩]
        exact placed.2
      · rw [if_neg (fun door => by rw [street] at door; cases door.1), if_pos ⟨street, placed.2⟩]
        split
        · rename_i pin
          split_ifs
          · exact placed.2
          · rw [pin]
            rfl
        · exact placed.2
    rw [somewhere] at pointless
    cases pointless
  · exact place_unplaced_uncapped pinClaim declared pinInside placed

end Caps

/-! ### The grade and the verdict -/

section Graded

/-- Nothing lowers the grade below the fields that agreed. -/
structure Uncapped (binding : Binding) (blurred elsewhere : Bool) : Prop where
  fields : 2 ≤ binding.agreed.length
  single : binding.ambiguous = false
  firm : binding.relaxations.any Qualifier.lowConfidence = false
  sharp : blurred = false
  near : elsewhere = false

theorem capConfidence_medium (value : Confidence) :
    capConfidence value .medium = .medium ∨ capConfidence value .medium = .low := by
  cases value <;> decide

/-- A grade stands above `medium` exactly for a bind of two fields that nothing caps; a door
agrees in more than two. -/
theorem confidenceOf_above {binding : Binding} {position : Position} {blurred : Bool}
    (bound : binding.bound = true)
    (door : binding.targetKind = .addressPoint → 3 ≤ binding.agreed.length) :
    (confidenceOf binding position blurred = .medium ∨
        confidenceOf binding position blurred = .low) ↔
      ¬ Uncapped binding blurred position.capped := by
  unfold confidenceOf
  rw [if_neg (by rw [bound]; nofun)]
  by_cases weak : (binding.ambiguous || binding.relaxations.any Qualifier.lowConfidence) = true
  · rw [if_pos weak]
    refine ⟨fun _ uncapped => ?_, fun _ => .inr rfl⟩
    rw [uncapped.single, uncapped.firm] at weak
    cases weak
  · rw [if_neg weak]
    obtain ⟨single, firm⟩ := Bool.or_eq_false_iff.mp (Bool.not_eq_true _ ▸ weak)
    dsimp only
    generalize valued : (if binding.targetKind = .addressPoint ∧ position.pinCorroborates = true
      then Confidence.exact else if 2 ≤ binding.agreed.length then .high
      else if binding.agreed.length = 1 then .medium else .low) = value
    have above : (value = .medium ∨ value = .low) ↔ ¬ 2 ≤ binding.agreed.length := by
      rw [← valued]
      split_ifs with exact_ full one
      · have fields := door exact_.1
        exact ⟨nofun, fun short => absurd (by omega) short⟩
      · exact ⟨nofun, fun short => absurd full short⟩
      · exact ⟨fun _ => full, fun _ => .inl rfl⟩
      · exact ⟨fun _ => full, fun _ => .inr rfl⟩
    by_cases lowered : (blurred || position.pinConflicts || position.pinOverridden) = true
    · rw [if_pos lowered]
      refine ⟨fun _ uncapped => ?_, fun _ => capConfidence_medium value⟩
      rw [Bool.or_assoc, uncapped.sharp] at lowered
      exact absurd (lowered.symm.trans uncapped.near) nofun
    · rw [if_neg lowered, above]
      rw [Bool.not_eq_true, Bool.or_assoc, Bool.or_eq_false_iff] at lowered
      exact ⟨fun short uncapped => short uncapped.fields,
        fun capped fields => capped ⟨fields, single, firm, lowered.1, lowered.2⟩⟩

/-- CHECK disputes a row exactly where a Czech unit is bound and a foreign country, a pin out of
the state, a pin out of the town or an overridden pin speaks against it. -/
theorem check_disputed (ctx : ResolverContext) (claims : List Claim)
    (normalized : Nat → Option NormalizedClaim) (filled : Fill) (position : Position)
    (granularity : Granularity) (pinClaim : Option Claim) (pinInside : Option Bool) :
    (check ctx claims normalized filled position granularity pinClaim pinInside).disputed ≠ none ↔
      (filled.obecKod.isSome || filled.okresKod.isSome || filled.krajKod.isSome) = true ∧
        (((countryCodes ctx claims normalized).filter fun code => code != "CZ") ≠ [] ∨
          (pinClaim.bind Claim.point).bind ctx.registry.inCzechiaPolygon = some false ∨
          pinInside = some false ∨ position.pinOverridden = true) := by
  unfold check
  dsimp only
  by_cases bound :
      (filled.obecKod.isSome || filled.okresKod.isSome || filled.krajKod.isSome) = false
  · rw [if_pos bound]
    refine ⟨fun disputed => ?_, fun held => absurd (held.1.symm.trans bound) nofun⟩
    split_ifs at disputed
    all_goals exact absurd rfl disputed
  · rw [if_neg bound]
    rw [Bool.not_eq_false] at bound
    split_ifs with foreign outside inside placed overridden
    · exact ⟨fun _ => ⟨bound, .inl foreign⟩, nofun⟩
    · exact ⟨fun _ => ⟨bound, .inr (.inl outside)⟩, nofun⟩
    · exact ⟨fun _ => ⟨bound, .inr (.inr (.inl inside))⟩, nofun⟩
    · exact ⟨fun _ => ⟨bound, .inr (.inr (.inl inside))⟩, nofun⟩
    · exact ⟨fun _ => ⟨bound, .inr (.inr (.inr overridden))⟩, nofun⟩
    · refine ⟨fun disputed => absurd rfl disputed, fun held => ?_⟩
      rcases held.2 with code | out | town | pin
      · exact absurd code foreign
      · exact absurd out outside
      · exact absurd town inside
      · exact absurd pin overridden

end Graded

/-! ### The row in dispute -/

namespace Prepared

variable (ctx : ResolverContext) (prepared : Prepared)

/-- A unit of the Czech register is bound: an obec, an okres or a kraj. -/
def boundCz : Bool :=
  let chain := bindingChain ctx (prepared.binding ctx)
  (fieldUnit chain .obec).isSome || (fieldUnit chain .okres).isSome ||
    (fieldUnit chain .kraj).isSome

/-- A foreign country is named, or the pin stands out of the state or of the bound town. -/
def Contested : Prop :=
  ((countryCodes ctx prepared.ordered prepared.normalized).filter fun code => code != "CZ") ≠ [] ∨
    (prepared.pinClaim.bind Claim.point).bind ctx.registry.inCzechiaPolygon = some false ∨
    prepared.pinInside ctx = some false

/-- The bind of two fields or more that no cap of GRADE lowers. -/
def Trusted : Prop :=
  Uncapped (prepared.binding ctx) prepared.declared.blurred
    (pinElsewhere ctx (prepared.binding ctx) (prepared.pinClaim.bind Claim.point))

variable {ctx prepared}

theorem filled_boundCz :
    ((prepared.filled ctx).obecKod.isSome || (prepared.filled ctx).okresKod.isSome ||
      (prepared.filled ctx).krajKod.isSome) = prepared.boundCz ctx := by
  unfold filled fill boundCz
  simp only [Option.isSome_map]

theorem boundCz_bound (czech : prepared.boundCz ctx = true) :
    (prepared.binding ctx).bound = true := by
  cases bound : (prepared.binding ctx).bound with
  | true => rfl
  | false =>
      have chain := @Ladder.bind_unbound ctx _ bound
      unfold boundCz at czech
      dsimp only at czech
      unfold binding at czech
      rw [chain] at czech
      cases czech

/-- Where the pin is not declared blurred, the row stands against it exactly where it is off the
bound door or street. -/
theorem position_capped (sharp : prepared.declared.blurred = false) :
    (prepared.position ctx).capped =
      pinElsewhere ctx (prepared.binding ctx) (prepared.pinClaim.bind Claim.point) := by
  have placed := @place_capped ctx (prepared.binding ctx) prepared.pinClaim _
    (prepared.pinInside ctx) sharp
  unfold position
  split_ifs with somewhere
  · exact placed
  · rw [fillPosition_uncapped, ← placed]
    exact (place_overridden (Bool.not_eq_true _ ▸ somewhere)).symm

theorem trusted_iff :
    Uncapped (prepared.binding ctx) prepared.declared.blurred (prepared.position ctx).capped ↔
      prepared.Trusted ctx := by
  unfold Trusted
  constructor
  · intro uncapped
    exact { uncapped with near := position_capped uncapped.sharp ▸ uncapped.near }
  · intro uncapped
    exact { uncapped with near := (position_capped uncapped.sharp).trans uncapped.near }

theorem verdict_disputed :
    (prepared.verdict ctx).disputed ≠ none ↔ prepared.boundCz ctx = true ∧
      (prepared.Contested ctx ∨ (prepared.position ctx).pinOverridden = true) := by
  unfold verdict
  rw [check_disputed, filled_boundCz]
  unfold Contested
  rw [or_assoc, or_assoc]

theorem row_dispute (listingId : Nat) (source : String) :
    (prepared.row ctx listingId source).disputed = (prepared.verdict ctx).disputed := by
  simp only [row]

theorem graded_confidence :
    (prepared.graded ctx).matchConfidence =
      confidenceOf (prepared.binding ctx) (prepared.position ctx) prepared.declared.blurred := by
  simp only [graded, gradeOf]

theorem binding_door (door : (prepared.binding ctx).targetKind = .addressPoint) :
    3 ≤ (prepared.binding ctx).agreed.length := by
  unfold binding at door ⊢
  exact Ladder.bind_door door

/-- A disputed row is Czech, and its confidence is the grade's. -/
theorem row_disputed (listingId : Nat) (source : String)
    (disputed : (prepared.verdict ctx).disputed ≠ none) :
    (prepared.row ctx listingId source).matchConfidence =
      (prepared.graded ctx).matchConfidence := by
  rcases prepared.verdict_cases ctx with ⟨_, calm, _⟩ | ⟨home, _⟩
  · exact absurd calm disputed
  · unfold row
    simp only [decide_eq_true home, if_true]

end Prepared

/-- A disputed row is graded `medium` or `low`, but for a row whose bind of two fields nothing
caps: a foreign country named beside it, or a pin out of the state or of the town that stands
near enough to the bound door or street, leaves its grade above `medium`. -/
theorem disputed_capped_iff (ctx : ResolverContext) (claims : List Claim) (listingId : Option Nat)
    (source : Option String) :
    ((resolve ctx claims listingId source).disputed ≠ none →
        (resolve ctx claims listingId source).matchConfidence = .medium ∨
          (resolve ctx claims listingId source).matchConfidence = .low) ↔
      ¬ ((prepare ctx claims).boundCz ctx = true ∧ (prepare ctx claims).Contested ctx ∧
        (prepare ctx claims).Trusted ctx) := by
  unfold resolve
  dsimp only
  generalize prepare ctx claims = prepared
  rw [Prepared.row_dispute]
  have graded : prepared.boundCz ctx = true →
      (((prepared.graded ctx).matchConfidence = .medium ∨
        (prepared.graded ctx).matchConfidence = .low) ↔ ¬ prepared.Trusted ctx) := by
    intro czech
    rw [← Prepared.trusted_iff, Prepared.graded_confidence]
    exact confidenceOf_above (Prepared.boundCz_bound czech) Prepared.binding_door
  constructor
  · rintro capped ⟨czech, contested, trusted⟩
    have disputed := Prepared.verdict_disputed.mpr ⟨czech, .inl contested⟩
    have low := capped disputed
    rw [Prepared.row_disputed _ _ disputed] at low
    exact (graded czech).mp low trusted
  · intro calm disputed
    rw [Prepared.row_disputed _ _ disputed]
    obtain ⟨czech, against⟩ := Prepared.verdict_disputed.mp disputed
    refine (graded czech).mpr fun trusted => ?_
    rcases against with contested | overridden
    · exact calm ⟨czech, contested, trusted⟩
    · have capped := (Prepared.trusted_iff.mpr trusted).near
      unfold Position.capped at capped
      rw [overridden, Bool.or_true] at capped
      cases capped

def abroadClaim : Claim where
  id := 4
  listingId := 9
  source := "sreality"
  claimType := .foreignIndicator
  valueText := some "polsko"

/-- A door bound by its registry key is graded `high` beside a word for another country. -/
theorem foreign_word_beside_a_door :
    ¬ ((resolve lhotaContext [townClaim, doorClaim, abroadClaim] none none).disputed ≠ none →
      (resolve lhotaContext [townClaim, doorClaim, abroadClaim] none none).matchConfidence =
          .medium ∨
        (resolve lhotaContext [townClaim, doorClaim, abroadClaim] none none).matchConfidence =
          .low) := by
  decide +kernel

end Sreality.LocationData
