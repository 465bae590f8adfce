import Sreality.Foundation.Rounds
import Sreality.LocationData.ResolveProperties

/-! The two passes of the normalization. The second only refuses street claims, and no town of
the town rule is read off a street but where several towns share the PSČ. -/

set_option autoImplicit false

namespace Sreality.LocationData

open Sreality.Foundation

/-! ### The second pass refuses street claims -/

section Normalize

variable {text : Text}

theorem normalizeClaim_unread (tests : Option PlaceTests) {claim : Claim}
    (other : claim.claimType ≠ .streetName) :
    normalizeClaim text tests claim = normalizeClaim text none claim := by
  unfold normalizeClaim
  cases claim.valueText with
  | none => rfl
  | some verbatim =>
      have reading : readClaim text tests claim.claimType verbatim =
          readClaim text none claim.claimType verbatim := by
        unfold readClaim
        split
        · exact absurd ‹_› other
        all_goals rfl
      simp only [reading]

/-- A street claim reads the same but for its refusal as a place name. -/
theorem normalizeClaim_street (tests : PlaceTests) (claim : Claim) :
    normalizeClaim text (some tests) claim = normalizeClaim text none claim ∨
      claim.claimType = .streetName ∧ (normalizeClaim text none claim).rejections = [] ∧
        normalizeClaim text (some tests) claim =
          { normalizeClaim text none claim with rejections := [.townAsStreet] } := by
  by_cases street : claim.claimType = .streetName
  · unfold normalizeClaim
    cases claim.valueText with
    | none => exact .inl rfl
    | some verbatim =>
        simp only [readClaim, street]
        unfold readStreetName
        dsimp only
        split_ifs with empty refused
        · exact .inl rfl
        · exact .inr ⟨trivial, rfl, rfl⟩
        · exact .inl rfl
  · exact .inl (normalizeClaim_unread _ street)

end Normalize

/-! ### What the town rule reads -/

/-- Constraints the town rule cannot tell apart, but for the streets of a shared PSČ. -/
structure AgreeOnTowns (one other : Constraints) : Prop where
  psc : one.psc = other.psc
  okresKeys : one.okresKeys = other.okresKeys
  krajKeys : one.krajKeys = other.krajKeys
  obecKeys : one.obecKeys = other.obecKeys
  obecLines : one.obecLines = other.obecLines
  castObceKeys : one.castObceKeys = other.castObceKeys
  pin : one.pin = other.pin

namespace AgreeOnTowns

variable {one other third : Constraints}

theorem refl (constraints : Constraints) : AgreeOnTowns constraints constraints :=
  ⟨rfl, rfl, rfl, rfl, rfl, rfl, rfl⟩

theorem symm (agree : AgreeOnTowns one other) : AgreeOnTowns other one :=
  ⟨agree.psc.symm, agree.okresKeys.symm, agree.krajKeys.symm, agree.obecKeys.symm,
    agree.obecLines.symm, agree.castObceKeys.symm, agree.pin.symm⟩

theorem trans (first : AgreeOnTowns one other) (second : AgreeOnTowns other third) :
    AgreeOnTowns one third :=
  ⟨first.psc.trans second.psc, first.okresKeys.trans second.okresKeys,
    first.krajKeys.trans second.krajKeys, first.obecKeys.trans second.obecKeys,
    first.obecLines.trans second.obecLines, first.castObceKeys.trans second.castObceKeys,
    first.pin.trans second.pin⟩

theorem note (constraints : Constraints) (kind : NoteKind) (claim : Claim) :
    AgreeOnTowns (constraints.note kind claim) constraints :=
  ⟨rfl, rfl, rfl, rfl, rfl, rfl, rfl⟩

theorem withNumber (ctx : ResolverContext) (constraints : Constraints) (slots : Slots) :
    AgreeOnTowns (constraints.withNumber ctx slots) constraints := by
  unfold Constraints.withNumber
  split_ifs
  · exact refl constraints
  · exact ⟨rfl, rfl, rfl, rfl, rfl, rfl, rfl⟩

end AgreeOnTowns

section Collect

variable {ctx : ResolverContext} {normalized others : Nat → Option NormalizedClaim}
  {pinClaimId : Option Nat}

/-- A claim is read through its own normalization alone. -/
theorem collectClaim_congr {claim : Claim} (same : normalized claim.id = others claim.id)
    (constraints : Constraints) :
    collectClaim ctx normalized pinClaimId constraints claim =
      collectClaim ctx others pinClaimId constraints claim := by
  unfold collectClaim
  rw [same]

/-- A street claim says nothing the town rule reads. -/
theorem collectClaim_street {claim : Claim} (street : claim.claimType = .streetName)
    (constraints : Constraints) :
    AgreeOnTowns (collectClaim ctx normalized pinClaimId constraints claim) constraints := by
  have numbered : ∀ lined : Constraints, AgreeOnTowns lined constraints → ∀ slots number key,
      AgreeOnTowns { lined.withNumber ctx slots with cisloOrientacni := number, streetKey := key }
        constraints := by
    intro lined agree slots number key
    obtain ⟨psc, okresKeys, krajKeys, obecKeys, obecLines, castObceKeys, pin⟩ :=
      (AgreeOnTowns.withNumber ctx lined slots).trans agree
    exact ⟨psc, okresKeys, krajKeys, obecKeys, obecLines, castObceKeys, pin⟩
  unfold collectClaim
  simp only [street]
  by_cases rejected : ((normalized claim.id).any fun norm => !norm.rejections.isEmpty) = true
  · rw [if_pos rejected]
    exact .refl constraints
  · rw [if_neg rejected]
    by_cases blank : ctx.text.strip (claim.valueText.getD "") = ""
    · simp only [if_pos blank]
      exact numbered _ (.refl constraints) _ _ _
    · simp only [if_neg blank]
      have lined : AgreeOnTowns ({ constraints with
          streetLines := constraints.streetLines ++ [claim.valueText.getD ""] }.note .street claim)
          constraints := ⟨rfl, rfl, rfl, rfl, rfl, rfl, rfl⟩
      exact numbered _ lined _ _ _

/-- Any other claim adds the same to constraints the town rule cannot tell apart. -/
theorem collectClaim_agree {claim : Claim} (other : claim.claimType ≠ .streetName)
    {left right : Constraints} (agree : AgreeOnTowns left right) :
    AgreeOnTowns (collectClaim ctx normalized pinClaimId left claim)
      (collectClaim ctx normalized pinClaimId right claim) := by
  obtain ⟨psc, okresKeys, krajKeys, obecKeys, obecLines, castObceKeys, pin⟩ := agree
  unfold collectClaim
  dsimp only
  cases kind : claim.claimType with
  | streetName => exact absurd kind other
  | addressPointId => cases truthy claim.valueText <;> exact ⟨psc, okresKeys, krajKeys, obecKeys,
      obecLines, castObceKeys, pin⟩
  | psc =>
      dsimp only
      split
      · exact ⟨by simp only [Constraints.note, psc], okresKeys, krajKeys, obecKeys, obecLines,
          castObceKeys, pin⟩
      · exact ⟨psc, okresKeys, krajKeys, obecKeys, obecLines, castObceKeys, pin⟩
  | houseNumberCp =>
      exact ((AgreeOnTowns.note _ _ claim).trans (.withNumber ctx left _)).trans
        (AgreeOnTowns.trans ⟨psc, okresKeys, krajKeys, obecKeys, obecLines, castObceKeys, pin⟩
          ((AgreeOnTowns.note _ _ claim).trans (.withNumber ctx right _)).symm)
  | houseNumberCo => exact ⟨psc, okresKeys, krajKeys, obecKeys, obecLines, castObceKeys, pin⟩
  | obecName =>
      dsimp only
      split
      · split_ifs
        · exact ⟨psc, okresKeys, krajKeys, obecKeys, obecLines, castObceKeys, pin⟩
        · exact ⟨psc, okresKeys, krajKeys, by simp only [Constraints.note, obecKeys],
            by simp only [Constraints.note, obecLines], castObceKeys, pin⟩
      · exact ⟨psc, okresKeys, krajKeys, obecKeys, obecLines, castObceKeys, pin⟩
  | castObceName =>
      dsimp only
      split
      · exact ⟨psc, okresKeys, krajKeys, obecKeys, obecLines,
          by simp only [Constraints.note, castObceKeys], pin⟩
      · exact ⟨psc, okresKeys, krajKeys, obecKeys, obecLines, castObceKeys, pin⟩
  | okresName =>
      dsimp only
      split
      · exact ⟨psc, by simp only [Constraints.note, okresKeys], krajKeys, obecKeys, obecLines,
          castObceKeys, pin⟩
      · exact ⟨psc, okresKeys, krajKeys, obecKeys, obecLines, castObceKeys, pin⟩
  | krajName =>
      dsimp only
      split
      · exact ⟨psc, okresKeys, by simp only [Constraints.note, krajKeys], obecKeys, obecLines,
          castObceKeys, pin⟩
      · exact ⟨psc, okresKeys, krajKeys, obecKeys, obecLines, castObceKeys, pin⟩
  | coordinate =>
      dsimp only
      rw [pin]
      split
      · split_ifs
        · exact ⟨psc, okresKeys, krajKeys, obecKeys, obecLines, castObceKeys, rfl⟩
        · exact ⟨psc, okresKeys, krajKeys, obecKeys, obecLines, castObceKeys, pin⟩
      · exact ⟨psc, okresKeys, krajKeys, obecKeys, obecLines, castObceKeys, pin⟩
  | _ => exact ⟨psc, okresKeys, krajKeys, obecKeys, obecLines, castObceKeys, pin⟩

end Collect

/-! ### The town rule on them -/

section Rule

variable {ctx : ResolverContext} {one other : Ground}

/-- Two grounds the town rule cannot tell apart. -/
structure Ground.Agree (one other : Ground) : Prop where
  constraints : AgreeOnTowns one.constraints other.constraints
  pinIsPrecise : one.pinIsPrecise = other.pinIsPrecise

theorem reach_agree (agree : one.Agree other) : one.reach = other.reach := by
  unfold Ground.reach
  rw [agree.constraints.psc, agree.constraints.pin, agree.pinIsPrecise]

theorem narrowTowns_agree (agree : one.Agree other) (towns : List AdminUnit)
    (applied : List Qualifier) (reach : Option Point) :
    narrowTowns ctx towns one applied reach = narrowTowns ctx towns other applied reach := by
  unfold narrowTowns
  rw [agree.constraints.krajKeys, agree.constraints.okresKeys, agree.constraints.pin,
    agree.pinIsPrecise]

theorem bindTowns_agree (agree : one.Agree other) (keys : List String) (levels : List Level)
    (qualifier : Option String) :
    bindTowns ctx keys levels one qualifier = bindTowns ctx keys levels other qualifier := by
  unfold bindTowns
  simp only [narrowTowns_agree agree, reach_agree agree, agree.constraints.psc]

theorem admits_agree (agree : one.Agree other) (town : AdminUnit) :
    admits ctx town one = admits ctx town other := by
  unfold admits
  rw [agree.constraints.psc, reach_agree agree]

theorem bindStripped_agree (agree : one.Agree other) (key : String) :
    bindStripped ctx one key = bindStripped ctx other key := by
  unfold bindStripped
  simp only [bindTowns_agree agree]

theorem ownTowns_agree (agree : one.Agree other) : ownTowns ctx one = ownTowns ctx other := by
  have stripped : bindStripped ctx one = bindStripped ctx other :=
    funext (bindStripped_agree agree)
  unfold ownTowns
  simp only [bindTowns_agree agree, admits_agree agree, stripped, agree.constraints.obecKeys,
    agree.constraints.obecLines]

/-- The rung is the same, and off R6 everything the rule says. -/
theorem constrainingTowns_agree (agree : one.Agree other) :
    (constrainingTowns ctx one).rung = (constrainingTowns ctx other).rung ∧
      ((constrainingTowns ctx other).rung ≠ .r6 →
        constrainingTowns ctx one = constrainingTowns ctx other) := by
  unfold constrainingTowns
  rw [ownTowns_agree agree, agree.constraints.castObceKeys]
  obtain ⟨composite, named⟩ := ownTowns ctx other
  cases named with
  | some named => exact ⟨rfl, fun _ => rfl⟩
  | none =>
      dsimp only
      rw [bindTowns_agree agree]
      split_ifs with parts
      · exact ⟨rfl, fun _ => rfl⟩
      · exact ⟨rfl, fun off => absurd rfl off⟩

end Rule

/-! ### The two passes -/

section Passes

variable (ctx : ResolverContext)

/-- The ground the first pass asks the town rule about. -/
def Prepared.firstGround (prepared : Prepared) : Ground where
  constraints := collectConstraints ctx (firstAdmissible ctx prepared.ordered)
    (normalizeAll ctx.text none prepared.ordered) (prepared.pinClaim.map Claim.id)
  pinIsPrecise := prepared.declared.precise

variable {ctx}

/-- Of rows keyed by id a claim's normalization is its own. -/
theorem normalizeAll_of_mem {tests : Option PlaceTests} {claims : List Claim}
    (distinct : Keyed Claim.id claims) {claim : Claim} (listed : claim ∈ claims) :
    normalizeAll ctx.text tests claims claim.id = some (normalizeClaim ctx.text tests claim) := by
  have only : (claims.filter fun row => decide (row.id = claim.id)) = [claim] := by
    have found := distinct.filter_key listed
    rw [← found]
    exact List.filter_congr fun row _ => by rw [beq_eq_decide]
  unfold normalizeAll
  rw [only]
  rfl

theorem collectClaim_passes {tests : PlaceTests} {ordered : List Claim}
    (distinct : Keyed Claim.id ordered) {claim : Claim} (listed : claim ∈ ordered)
    (pinClaimId : Option Nat) {left right : Constraints} (agree : AgreeOnTowns left right) :
    let first := normalizeAll ctx.text none ordered
    let second := normalizeAll ctx.text (some tests) ordered
    AgreeOnTowns
      (if (admissible claim (first claim.id)).isNone = true then
        collectClaim ctx first pinClaimId left claim else left)
      (if (admissible claim (second claim.id)).isNone = true then
        collectClaim ctx second pinClaimId right claim else right) := by
  intro first second
  by_cases street : claim.claimType = .streetName
  · -- Refused or not, in either pass.
    have readFirst : AgreeOnTowns (collectClaim ctx first pinClaimId left claim) left :=
      collectClaim_street street left
    have readSecond : AgreeOnTowns (collectClaim ctx second pinClaimId right claim) right :=
      collectClaim_street street right
    split_ifs
    · exact (readFirst.trans agree).trans readSecond.symm
    · exact readFirst.trans agree
    · exact agree.trans readSecond.symm
    · exact agree
  · have same : first claim.id = second claim.id := by
      have own : first claim.id = _ := normalizeAll_of_mem distinct listed
      have again : second claim.id = _ := normalizeAll_of_mem distinct listed
      rw [own, again, normalizeClaim_unread (some tests) street]
    rw [same]
    split_ifs
    · rw [collectClaim_congr same]
      exact collectClaim_agree street agree
    · exact agree

/-- The constraints of the two passes differ in what the street claims say alone. -/
theorem grounds_agree {claims : List Claim} (distinct : Keyed Claim.id claims) :
    ((prepare ctx claims).firstGround ctx).Agree ((prepare ctx claims).ground ctx) where
  pinIsPrecise := rfl
  constraints := by
    have sorted : Keyed Claim.id (sortedBy Claim.id claims) :=
      (((sortedBy_perm Claim.id claims).map Claim.id).nodup_iff).mpr distinct
    have inOrder : ∀ keep : Claim → Bool,
        sortedBy Claim.id ((sortedBy Claim.id claims).filter keep) =
          (sortedBy Claim.id claims).filter keep := by
      intro keep
      rw [← filter_sortedBy, sortedBy_sortedBy]
    have read : ∀ tests : PlaceTests, AgreeOnTowns
        ((admissibleClaims (sortedBy Claim.id claims)
          (normalizeAll ctx.text none (sortedBy Claim.id claims))).foldl
            (collectClaim ctx (normalizeAll ctx.text none (sortedBy Claim.id claims))
              ((prepare ctx claims).pinClaim.map Claim.id)) {})
        ((admissibleClaims (sortedBy Claim.id claims)
          (normalizeAll ctx.text (some tests) (sortedBy Claim.id claims))).foldl
            (collectClaim ctx (normalizeAll ctx.text (some tests) (sortedBy Claim.id claims))
              ((prepare ctx claims).pinClaim.map Claim.id)) {}) :=
      fun tests => foldl_filter_related AgreeOnTowns
        (fun _ _ agree _ listed => collectClaim_passes sorted listed _ agree) (.refl {})
    obtain ⟨psc, okresKeys, krajKeys, obecKeys, obecLines, castObceKeys, pin⟩ := read
      { isPlaceName := isPlaceName ctx
        streetExists := streetExists ctx ((firstTowns ctx (prepare ctx claims).ordered
          (prepare ctx claims).pinClaim (prepare ctx claims).declared).map AdminUnit.code) }
    unfold Prepared.firstGround Prepared.ground collectConstraints firstAdmissible
    dsimp only [prepare]
    unfold admissibleClaims
    rw [inOrder, inOrder]
    exact ⟨psc, congrArg List.eraseDups okresKeys, congrArg List.eraseDups krajKeys,
      congrArg List.eraseDups obecKeys,
      congrArg (fun lines => (lines.filter fun line => line != "").eraseDups) obecLines,
      congrArg List.eraseDups castObceKeys, pin⟩

/-- Of distinct claims the towns that decide which street claims are place names are the towns
BIND binds in, but where only the PSČ gives any; and the second normalization refuses street
claims and does nothing else. -/
theorem passes_agree_on_towns (ctx : ResolverContext) (claims : List Claim)
    (distinct : Keyed Claim.id claims) :
    let prepared := prepare ctx claims
    let first := constrainingTowns ctx (prepared.firstGround ctx)
    (firstTowns ctx prepared.ordered prepared.pinClaim prepared.declared = first.units ∧
      first.rung = (prepared.towns ctx).rung ∧
        ((prepared.towns ctx).rung ≠ .r6 → first = prepared.towns ctx)) ∧
      ∀ id, prepared.normalized id = normalizeAll ctx.text none prepared.ordered id ∨
        ∃ norm, normalizeAll ctx.text none prepared.ordered id = some norm ∧
          norm.claimType = .streetName ∧ norm.rejections = [] ∧
            prepared.normalized id = some { norm with rejections := [.townAsStreet] } := by
  intro prepared first
  refine ⟨⟨rfl, constrainingTowns_agree (grounds_agree distinct)⟩, fun id => ?_⟩
  dsimp only [prepared, prepare]
  unfold normalizeAll
  cases ((sortedBy Claim.id claims).filter fun claim => decide (claim.id = id)).getLast? with
  | none => exact .inl rfl
  | some claim =>
      dsimp only [Option.map_some]
      generalize ({ isPlaceName := _, streetExists := _ } : PlaceTests) = tests
      rcases normalizeClaim_street tests claim with same | ⟨street, clean, refused⟩
      · exact .inl (congrArg some same)
      · have kind : (normalizeClaim ctx.text none claim).claimType = claim.claimType := by
          unfold normalizeClaim
          cases claim.valueText <;> rfl
        exact .inr ⟨_, rfl, kind.trans street, clean, congrArg some refused⟩

/-- A street claim that spells the část obce. -/
def quarterAsStreet : Claim where
  id := 4
  listingId := 9
  source := "sreality"
  claimType := .streetName
  valueText := some "podhaji"

theorem passes_agree_at_dolniLhota :
    let prepared := prepare lhotaContext [townClaim, quarterAsStreet]
    firstTowns lhotaContext prepared.ordered prepared.pinClaim prepared.declared =
        (prepared.towns lhotaContext).units ∧
      (prepared.normalized 4).map NormalizedClaim.rejections = some [.townAsStreet] := by
  have agree := passes_agree_on_towns lhotaContext [townClaim, quarterAsStreet]
    (by unfold Keyed; decide)
  refine ⟨?_, by decide +kernel⟩
  exact agree.1.1.trans (congrArg Towns.units (agree.1.2.2 (by decide +kernel)))

end Passes

end Sreality.LocationData
