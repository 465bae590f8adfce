import Sreality.LocationData.Bind
import Sreality.LocationData.TownRuleProperties

/-! What a candidate of the ladder binds, and in which town: a door, a street or a unit of
the register, in a kept town unless it came of a registry key, of the pin or of a region
alone. -/

set_option autoImplicit false

namespace Sreality.LocationData

open Sreality.Foundation

section Parts

variable {ctx : ResolverContext} {tree : Nat → Option AdminUnit} {ground : Ground}
  {towns : Towns}

/-- The levels a claimed part may be bound at. -/
def quarterLevels : List Level := partLevels ++ [.zsj]

/-- A part in one of the kept towns. -/
def InKept (registry : RegistryView) (towns : Towns) (unit : AdminUnit) : Prop :=
  ∃ town ∈ towns.units, registry.townKod unit.unitId = some town.code

theorem partOfTown_level {level : Level} (listed : level ∈ partOfTownLevels) :
    level ∈ partLevels := by
  unfold partOfTownLevels at listed
  unfold partLevels
  simp only [List.mem_cons, List.not_mem_nil, or_false] at listed ⊢
  rcases listed with cast | momc
  · exact .inl cast
  · exact .inr (.inl momc)

theorem climbedUnit_partOf (consistent : Consistent ctx.registry tree) {town unit part : AdminUnit}
    (inside : Charted ctx.registry unit ∧ ctx.registry.townKod unit.unitId = some town.code)
    (found : climbedUnit ctx town unit = some part) : PartOf ctx.registry town.code part := by
  unfold climbedUnit at found
  obtain ⟨stands, level⟩ := Option.filter_eq_some_iff.mp found
  have placed := partOfTown_level (of_decide_eq_true level)
  split_ifs at stands with katastr
  · dsimp only at stands
    split at stands
    · next spelled single =>
        cases stands
        have listed := mem_of_firstPerKey (single ▸ List.mem_singleton_self part)
        obtain ⟨byName, climbs⟩ := List.mem_filter.mp listed
        exact ⟨(consistent.named _ _ _ byName).2.1, placed,
          climbedTo_town consistent byName (beq_iff_eq.mp climbs)⟩
    · cases stands
  · cases stands
    exact ⟨inside.1, placed, inside.2⟩

theorem climbedPart_partOf (consistent : Consistent ctx.registry tree) {town part : AdminUnit}
    {climbed : List AdminUnit}
    (inside : ∀ unit ∈ climbed, Charted ctx.registry unit ∧
      ctx.registry.townKod unit.unitId = some town.code)
    (found : climbedPart ctx town climbed = some part) : PartOf ctx.registry town.code part := by
  unfold climbedPart at found
  split at found
  · next one single =>
      split_ifs at found
      cases found
      have listed := mem_of_firstPerKey (single ▸ List.mem_singleton_self part)
      obtain ⟨unit, held, stands⟩ := List.mem_filterMap.mp listed
      exact climbedUnit_partOf consistent (inside unit held) stands
  · cases found

theorem partsFound_inKept (consistent : Consistent ctx.registry tree)
    (sound : towns.Sound ctx ground) {constraints : Constraints} {line : StreetBind}
    (within : line.Within ctx.registry (towns.units.map AdminUnit.code)) {word : PartWord}
    (held : word ∈ partsFound ctx constraints towns line) :
    Charted ctx.registry word.unit ∧ word.unit.level ∈ partLevels ∧
      InKept ctx.registry towns word.unit := by
  unfold partsFound at held
  dsimp only at held
  rcases List.mem_append.mp held with climbed | named
  · split at climbed
    · next town single =>
        obtain ⟨part, found, rfl⟩ := Option.map_eq_some_iff.mp (Option.mem_toList.mp climbed)
        have partOf := climbedPart_partOf consistent (fun unit listed => by
          obtain ⟨entry, kept, rfl⟩ := List.mem_map.mp listed
          obtain ⟨climbs, own⟩ := List.mem_filter.mp kept
          obtain ⟨charted, kod⟩ := sound.climbed entry climbs
          rw [of_decide_eq_true own] at kod
          exact ⟨charted, kod⟩) found
        exact ⟨partOf.charted, partOf.level, town, single ▸ List.mem_singleton_self town,
          partOf.town⟩
    · cases climbed
  · obtain ⟨part, listed, rfl⟩ := List.mem_map.mp named
    obtain ⟨charted, level, kod, kept, inside⟩ := within.part part (Option.mem_toList.mp listed)
    obtain ⟨town, units, rfl⟩ := List.mem_map.mp kept
    exact ⟨charted, level, town, units, inside⟩

/-- No claimed part has a row that leaves its obec out and lies in no kept town. -/
def NoStray (ctx : ResolverContext) (constraints : Constraints) (towns : Towns) : Prop :=
  towns.units ≠ [] → ∀ key ∈ constraints.castObceKeys,
    ∀ unit ∈ ctx.registry.adminUnitsByName key quarterLevels, unit.obecKod = none →
      InKept ctx.registry towns unit

theorem partsSaid_charted (consistent : Consistent ctx.registry tree)
    (sound : towns.Sound ctx ground) {constraints : Constraints} {word : PartWord}
    (held : word ∈ partsSaid ctx constraints towns) :
    Charted ctx.registry word.unit ∧ word.unit.level ∈ quarterLevels ∧
      (NoStray ctx constraints towns → InKept ctx.registry towns word.unit) := by
  unfold partsSaid at held
  dsimp only at held
  rcases List.mem_append.mp held with claimed | composite
  · obtain ⟨kept, listed⟩ := List.mem_ite_nil_left.mp claimed
    obtain ⟨key, named, byKey⟩ := List.mem_flatMap.mp listed
    obtain ⟨unit, admitted, rfl⟩ := List.mem_map.mp byKey
    obtain ⟨byName, own⟩ := List.mem_filter.mp admitted
    obtain ⟨level, charted, told⟩ := consistent.named _ _ _ byName
    refine ⟨charted, level, fun clean => ?_⟩
    cases obec : unit.obecKod with
    | none =>
        refine clean (fun none_ => kept ?_) key named unit byName obec
        rw [none_]
        rfl
    | some kod =>
        rw [obec] at own
        have inside : kod ∈ towns.units.map AdminUnit.code := by simpa using own
        obtain ⟨town, units, rfl⟩ := List.mem_map.mp inside
        exact ⟨town, units, told town.code obec⟩
  · obtain ⟨part, listed, rfl⟩ := List.mem_map.mp composite
    obtain ⟨town, units, partOf⟩ := sound.composite part (Option.mem_toList.mp listed)
    exact ⟨partOf.charted, List.mem_append_left _ partOf.level, fun _ => ⟨town, units, partOf.town⟩⟩

theorem mem_reconcileParts {said found : List PartWord} {word : PartWord}
    (held : word ∈ reconcileParts said found) : word ∈ said ∨ word ∈ found := by
  unfold reconcileParts at held
  dsimp only at held
  split_ifs at held
  · cases held
  · cases held
  · rcases List.mem_append.mp held with own | other
    · exact .inl own
    · exact .inr (List.mem_of_mem_filter other)

theorem foldl_merge_unit (words : List PartWord) (unit : AdminUnit) :
    ∀ first : PartWord, (∃ word ∈ first :: words, word.unit = unit) ∨
      (words.foldl PartWord.merge first).unit ≠ unit := by
  induction words with
  | nil =>
      intro first
      by_cases same : first.unit = unit
      · exact .inl ⟨first, List.mem_singleton_self _, same⟩
      · exact .inr same
  | cons word rest ih =>
      intro first
      rcases ih (first.merge word) with ⟨other, held, same⟩ | apart
      · rcases List.mem_cons.mp held with rfl | later
        · exact .inl ⟨word, List.mem_cons_of_mem _ List.mem_cons_self, same⟩
        · exact .inl ⟨other, List.mem_cons_of_mem _ (List.mem_cons_of_mem _ later), same⟩
      · exact .inr apart

/-- A merged word is about the unit of one of the words. -/
theorem mem_mergeParts {words : List PartWord} {word : PartWord} (held : word ∈ mergeParts words) :
    ∃ other ∈ words, other.unit = word.unit := by
  unfold mergeParts at held
  obtain ⟨unitId, _, merged⟩ := List.mem_filterMap.mp held
  split at merged
  · cases merged
  · next first rest listed =>
      cases merged
      rcases foldl_merge_unit rest (rest.foldl PartWord.merge first).unit first with found | apart
      · obtain ⟨other, among, same⟩ := found
        rw [← listed] at among
        exact ⟨other, List.mem_of_mem_filter among, same⟩
      · exact absurd rfl apart

end Parts

/-! ### Candidates -/

section Candidates

variable {ctx : ResolverContext} {tree : Nat → Option AdminUnit} {ground : Ground}

/-- The grain of an admin candidate fits its unit's level. -/
def GrainOf (granularity : Granularity) (level : Level) : Prop :=
  granularity = .castObceOrQuarter ∧ level ∈ quarterLevels ∨
    granularity = .obec ∧ level = .obec ∨ granularity = .okres ∧ level = .okres ∨
      granularity = .kraj ∧ level = .kraj

/-- A candidate binds a door, a street or a unit of the register. -/
inductive Binds (registry : RegistryView) : Candidate → Prop where
  | door {door : AddressPoint} {rung : Rung} {agreed : List Agreed} {claimIds : List Nat}
      {relaxations : List Qualifier} (held : registry.HasDoor door) :
      Binds registry (pointCandidate door rung agreed claimIds relaxations)
  | street {street : Street} {rung : Rung} {constraints : Constraints} {similarity : Float64}
      {relaxations : List Qualifier} (held : registry.HasStreet street) :
      Binds registry (streetCandidate street rung constraints similarity relaxations)
  | unit {unit : AdminUnit} {rung : Rung} {granularity : Granularity} {claimIds : List Nat}
      {qualifiers : List Qualifier} {agreed : Option (List Agreed)}
      (charted : Charted registry unit) (grain : GrainOf granularity unit.level) :
      Binds registry (adminCandidate unit rung granularity claimIds qualifiers agreed)

/-- The town a candidate leads to. -/
def Candidate.townKod (registry : RegistryView) (candidate : Candidate) : Option Kod :=
  match candidate.adminUnitId with
  | some unitId => registry.townKod unitId
  | none => candidate.obecKod

/-- The rungs whose town the rule did not choose: a registry key, the pin, a region. -/
def Rung.unruled : Rung → Bool
  | .r0 | .r7 | .r8 | .r9 => true
  | .r1 | .r2 | .r3 | .r4 | .r6 => false

/-- What a candidate binds, and that its town is a kept one where the rule chose it and no
claimed part strays. -/
structure Candidate.Sound (registry : RegistryView) (towns : Towns) (clean : Prop)
    (candidate : Candidate) : Prop where
  binds : Binds registry candidate
  kept : clean → candidate.rung.unruled = false →
    ∃ town ∈ towns.units, candidate.townKod registry = some town.code

theorem doorCandidate_sound {towns : Towns} {clean : Prop} {door : AddressPoint} {rung : Rung}
    {agreed : List Agreed} {claimIds : List Nat} {relaxations : List Qualifier}
    (held : ctx.registry.HasDoor door)
    (kept : clean → rung.unruled = false → ∃ town ∈ towns.units, door.obecKod = town.code) :
    (pointCandidate door rung agreed claimIds relaxations).Sound ctx.registry towns clean := by
  refine ⟨.door held, fun met ruled => ?_⟩
  obtain ⟨town, units, same⟩ := kept met ruled
  exact ⟨town, units, congrArg some same⟩

theorem streetCandidate_sound {towns : Towns} {clean : Prop} {street : Street} {rung : Rung}
    {constraints : Constraints} {similarity : Float64} {relaxations : List Qualifier}
    (within : StreetIn ctx.registry (towns.units.map AdminUnit.code) street) :
    (streetCandidate street rung constraints similarity relaxations).Sound ctx.registry towns
      clean := by
  refine ⟨.street within.held, fun _ _ => ?_⟩
  obtain ⟨town, units, same⟩ := List.mem_map.mp within.town
  exact ⟨town, units, congrArg some same.symm⟩

theorem mem_typedPoints {doors : List AddressPoint} {door : AddressPoint}
    (held : door ∈ typedPoints doors) : door ∈ doors := by
  unfold typedPoints at held
  dsimp only at held
  split_ifs at held
  · exact held
  · exact List.mem_of_mem_filter held

namespace Ladder

variable {ladder : Ladder}

theorem mem_kods {kod : Kod} :
    kod ∈ ladder.kods ↔ kod ∈ ladder.towns.units.map AdminUnit.code := by
  unfold kods
  rw [mem_sortedBy, List.mem_dedup]

theorem line_within (consistent : Consistent ctx.registry tree) :
    (ladder.line ctx).Within ctx.registry (ladder.towns.units.map AdminUnit.code) := by
  have within : ∀ kods : List Kod, (∀ kod ∈ kods, kod ∈ ladder.towns.units.map AdminUnit.code) →
      ∀ line : StreetBind, line.Within ctx.registry kods →
        line.Within ctx.registry (ladder.towns.units.map AdminUnit.code) := by
    intro kods subset line inside
    refine ⟨fun bound held => ?_, fun candidate held => ?_, fun part held => ?_⟩
    · obtain ⟨street, town⟩ := inside.bound bound held
      exact ⟨street, subset _ town⟩
    · obtain ⟨street, town⟩ := inside.candidates candidate held
      exact ⟨street, subset _ town⟩
    · obtain ⟨charted, level, kod, kept, town⟩ := inside.part part held
      exact ⟨charted, level, kod, subset kod kept, town⟩
  unfold line streetLine
  split_ifs
  · exact within ladder.kods (fun kod held => mem_kods.mp held) _
      (resolveStreet_within consistent _ _ _)
  · exact ⟨fun _ held => (by cases held), fun _ held => (by cases held),
      fun _ held => (by cases held)⟩

/-- A part of the ladder is a unit of the register in a kept town, unless a claimed one strays. -/
theorem parts_charted (consistent : Consistent ctx.registry tree)
    (sound : ladder.towns.Sound ctx ground) {word : PartWord} (held : word ∈ ladder.parts ctx) :
    Charted ctx.registry word.unit ∧ word.unit.level ∈ quarterLevels ∧
      (NoStray ctx ladder.constraints ladder.towns → InKept ctx.registry ladder.towns word.unit) := by
  unfold parts at held
  obtain ⟨other, listed, same⟩ := mem_mergeParts held
  rw [← same]
  rcases mem_reconcileParts listed with said | found
  · exact partsSaid_charted consistent sound said
  · obtain ⟨charted, level, kept⟩ :=
      partsFound_inKept consistent sound (line_within consistent) found
    exact ⟨charted, List.mem_append_left _ level, fun _ => kept⟩

theorem mem_oneCast {words : List PartWord} {part : AdminUnit} (found : oneCast words = some part) :
    ∃ word ∈ words, word.unit = part := by
  unfold oneCast at found
  split at found
  · next word single =>
      cases found
      exact ⟨word, List.mem_of_mem_filter (single ▸ List.mem_singleton_self word), rfl⟩
  · cases found

theorem settledStreet_within {kods : List Kod} {part : Option AdminUnit} {line : StreetBind}
    (within : line.Within ctx.registry kods) {bound : BoundStreet}
    (found : (settledStreet ctx part line).1 = some bound) :
    StreetIn ctx.registry kods bound.street := by
  have inside : ∀ candidate ∈ line.candidates.filter (doorInPart ctx part),
      StreetIn ctx.registry kods candidate.street :=
    fun candidate held => within.candidates candidate (List.mem_of_mem_filter held)
  have spelled : ∀ candidate ∈ line.candidates.filter BoundStreet.spelled,
      StreetIn ctx.registry kods candidate.street :=
    fun candidate held => within.candidates candidate (List.mem_of_mem_filter held)
  unfold settledStreet at found
  dsimp only at found
  by_cases tied : line.reason ≠ .ambiguousStreets
  · rw [if_pos tied] at found
    exact within.bound bound found
  rw [if_neg tied] at found
  split at found
  · next one named single _ =>
      split_ifs at found
      cases found
      exact inside bound (single ▸ List.mem_singleton_self bound)
  · next one single _ =>
      cases found
      exact inside bound (single ▸ List.mem_singleton_self bound)
  · next named single _ =>
      split_ifs at found
      cases found
      exact spelled bound (single ▸ List.mem_singleton_self bound)
  · cases found

theorem streetCandidates_sound (consistent : Consistent ctx.registry tree) {towns : Towns}
    {clean : Prop}
    {constraints : Constraints} {bound : Option BoundStreet} {relaxed : List Qualifier}
    (within : ∀ line ∈ bound,
      StreetIn ctx.registry (towns.units.map AdminUnit.code) line.street)
    {candidate : Candidate} (held : candidate ∈ streetCandidates ctx constraints bound relaxed) :
    candidate.Sound ctx.registry towns clean := by
  cases bound with
  | none => cases held
  | some line =>
      have street := within line rfl
      unfold streetCandidates at held
      dsimp only at held
      generalize (if (truthyInt line.cisloDomovni).isSome = true then
        (line.cisloDomovni, line.typSo)
          else (constraints.cisloDomovni, constraints.typSo)) = number at held
      generalize (truthyInt line.cisloOrientacni).or constraints.cisloOrientacni = orientacni
        at held
      have answered : ∀ door ∈ (if (truthyInt number.1).isSome = true ∨
          (truthyInt orientacni).isSome = true then
            typedPoints (ctx.registry.addressPointsByNumber
              { obecKod := line.street.obecKod
                streetNameNorm := some line.street.nameNorm
                cisloDomovni := number.1
                typSo := number.2
                cisloOrientacni := orientacni })
          else []), ctx.registry.HasDoor door ∧ door.obecKod = line.street.obecKod := by
        intro door listed
        have asked := mem_typedPoints (List.mem_ite_nil_right.mp listed).2
        exact ⟨.inr ⟨_, asked⟩, consistent.doorsByNumber _ door asked⟩
      generalize (if (truthyInt number.1).isSome = true ∨
        (truthyInt orientacni).isSome = true then
          typedPoints (ctx.registry.addressPointsByNumber
            { obecKod := line.street.obecKod
              streetNameNorm := some line.street.nameNorm
              cisloDomovni := number.1
              typSo := number.2
              cisloOrientacni := orientacni })
        else []) = doors at held answered
      by_cases none_ : doors = []
      · rw [if_pos none_] at held
        cases List.mem_singleton.mp held
        exact streetCandidate_sound street
      · rw [if_neg none_] at held
        obtain ⟨door, listed, rfl⟩ := List.mem_map.mp held
        obtain ⟨own, same⟩ := answered door listed
        obtain ⟨town, units, kept⟩ := List.mem_map.mp street.town
        exact doorCandidate_sound own fun _ _ => ⟨town, units, same.trans kept.symm⟩

theorem fuzzyCandidates_sound (consistent : Consistent ctx.registry tree) {clean : Prop}
    {constraints : Constraints} {reason : StreetReason} {boundExactly : Bool}
    {candidate : Candidate}
    (held : candidate ∈ fuzzyCandidates ctx constraints ladder.kods reason boundExactly) :
    candidate.Sound ctx.registry ladder.towns clean := by
  have street : ∀ key, ∀ entry ∈ sortedBy fuzzyOrder
      (((ladder.kods.flatMap ctx.registry.streetsInObec).map fun street =>
        (trigramSimilarity ctx.text key street.nameNorm, street)).filter fun entry =>
          decide (trgmThreshold ≤ entry.1)),
      StreetIn ctx.registry (ladder.towns.units.map AdminUnit.code) entry.2 := by
    intro key entry listed
    obtain ⟨street, inKods, rfl⟩ := List.mem_map.mp (List.mem_of_mem_filter (mem_sortedBy.mp listed))
    obtain ⟨own, kept⟩ := streetIn_of_mem consistent inKods
    exact ⟨own, mem_kods.mp kept⟩
  unfold fuzzyCandidates at held
  split at held
  · cases held
  · next key _ =>
      have listed := (List.mem_ite_nil_left.mp held).2
      have within := street key
      dsimp only at listed
      generalize sortedBy fuzzyOrder
        (((ladder.kods.flatMap ctx.registry.streetsInObec).map fun street =>
          (trigramSimilarity ctx.text key street.nameNorm, street)).filter fun entry =>
            decide (trgmThreshold ≤ entry.1)) = fuzzy at listed within
      cases fuzzy with
      | nil => cases listed
      | cons best others =>
          have top := within best List.mem_cons_self
          cases others with
          | nil =>
              cases List.mem_singleton.mp listed
              exact streetCandidate_sound top
          | cons next rest =>
              dsimp only at listed
              cases List.mem_singleton.mp (List.mem_ite_nil_right.mp listed).2
              exact streetCandidate_sound top

theorem numberInPart_sound (consistent : Consistent ctx.registry tree) {towns : Towns}
    {clean : Prop} {constraints : Constraints} {part : Option AdminUnit}
    (within : ∀ unit ∈ part, Charted ctx.registry unit ∧
      (clean → InKept ctx.registry towns unit))
    {pinBlurred hasDoor : Bool} {candidate : Candidate}
    (held : candidate ∈ numberInPart ctx constraints part pinBlurred hasDoor) :
    candidate.Sound ctx.registry towns clean := by
  cases part with
  | none => cases held
  | some unit =>
      obtain ⟨charted, kept⟩ := within unit rfl
      unfold numberInPart at held
      dsimp only at held
      cases climbs : ctx.registry.obecOf unit with
      | none =>
          rw [climbs] at held
          cases held
      | some obec =>
          rw [climbs] at held
          dsimp only at held
          have listed := (List.mem_ite_nil_left.mp held).2
          split at listed
          · next door single =>
              cases List.mem_singleton.mp (List.mem_ite_nil_right.mp listed).2
              have asked := mem_typedPoints (single ▸ List.mem_singleton_self door)
              refine doorCandidate_sound (.inr ⟨_, asked⟩) fun met _ => ?_
              obtain ⟨town, units, inside⟩ := kept met
              have own := (consistent.obecOf charted climbs).2
              rw [inside] at own
              refine ⟨town, units, ?_⟩
              rw [consistent.doorsByNumber _ door asked]
              exact (Option.some.inj own).symm
          · cases listed

/-- A candidate of the claims' words. -/
theorem worded_sound (consistent : Consistent ctx.registry tree)
    (sound : ladder.towns.Sound ctx ground) {candidate : Candidate}
    (held : candidate ∈ ladder.worded ctx) :
    candidate.Sound ctx.registry ladder.towns (NoStray ctx ladder.constraints ladder.towns) := by
  have keyed : ∀ other ∈ registryKeyCandidates ctx ladder.constraints,
      other.Sound ctx.registry ladder.towns (NoStray ctx ladder.constraints ladder.towns) := by
    intro other listed
    obtain ⟨door, found, rfl⟩ := Option.map_eq_some_iff.mp (Option.mem_toList.mp listed)
    obtain ⟨kod, _, known⟩ := Option.bind_eq_some_iff.mp found
    exact doorCandidate_sound (.inl ⟨kod, known⟩) fun _ ruled => (by cases ruled)
  have parted : ∀ other ∈ ladder.partCandidates ctx,
      other.Sound ctx.registry ladder.towns (NoStray ctx ladder.constraints ladder.towns) := by
    intro other listed
    obtain ⟨word, own, rfl⟩ := List.mem_map.mp listed
    obtain ⟨charted, level, kept⟩ := parts_charted consistent sound own
    exact ⟨.unit charted (.inl ⟨rfl, level⟩), fun met _ => kept met⟩
  have towned : ∀ other ∈ townCandidates ladder.constraints ladder.towns,
      other.Sound ctx.registry ladder.towns (NoStray ctx ladder.constraints ladder.towns) := by
    intro other listed
    obtain ⟨town, units, rfl⟩ := List.mem_map.mp listed
    have isTown := sound.units town units
    exact ⟨.unit isTown.charted (.inr (.inl ⟨rfl, isTown.level⟩)),
      fun _ _ => ⟨town, units, isTown.townKod⟩⟩
  have numbered : ∀ unit ∈ oneCast (ladder.parts ctx), Charted ctx.registry unit ∧
      (NoStray ctx ladder.constraints ladder.towns → InKept ctx.registry ladder.towns unit) := by
    intro unit found
    obtain ⟨word, own, rfl⟩ := mem_oneCast found
    obtain ⟨charted, _, kept⟩ := parts_charted consistent sound own
    exact ⟨charted, kept⟩
  unfold worded at held
  dsimp only at held
  rcases List.mem_append.mp held with named | inPart
  · rcases List.mem_append.mp named with exactly | town
    · rcases List.mem_append.mp exactly with bound | fuzzy
      · rcases List.mem_append.mp bound with wordy | street
        · rcases List.mem_append.mp wordy with key | part
          · exact keyed candidate key
          · exact parted candidate part
        · exact streetCandidates_sound consistent
            (fun line found => settledStreet_within (line_within consistent) found) street
      · exact fuzzyCandidates_sound consistent fuzzy
    · exact towned candidate town
  · exact numberInPart_sound consistent numbered inPart

theorem pinCandidates_sound (consistent : Consistent ctx.registry tree) {towns : Towns}
    {clean : Prop} {constraints : Constraints} {candidate : Candidate}
    (held : candidate ∈ pinCandidates ctx constraints) :
    candidate.Sound ctx.registry towns clean := by
  unfold pinCandidates at held
  split at held
  · cases held
  · next pin _ =>
      split at held
      · next covering found =>
          cases List.mem_singleton.mp held
          obtain ⟨level, charted⟩ := consistent.containing pin covering found
          exact ⟨.unit charted (.inr (.inl ⟨rfl, level⟩)), fun _ ruled => (by cases ruled)⟩
      · split at held
        · next nearest found =>
            cases List.mem_singleton.mp held
            obtain ⟨level, charted⟩ := consistent.nearest pin _ nearest.1 nearest.2 found
            exact ⟨.unit charted (.inr (.inl ⟨rfl, level⟩)), fun _ ruled => (by cases ruled)⟩
        · cases held

theorem regionsNamed_sound (consistent : Consistent ctx.registry tree) {towns : Towns}
    {clean : Prop} {constraints : Constraints} {keys : List String} {level : Level}
    {granularity : Granularity} {kind : NoteKind} (grain : GrainOf granularity level)
    {candidate : Candidate}
    (held : candidate ∈ regionsNamed ctx constraints keys level granularity kind) :
    candidate.Sound ctx.registry towns clean := by
  unfold regionsNamed at held
  obtain ⟨key, _, byKey⟩ := List.mem_flatMap.mp held
  obtain ⟨unit, byName, rfl⟩ := List.mem_map.mp byKey
  obtain ⟨own, charted, _⟩ := consistent.named _ _ _ byName
  rw [← List.mem_singleton.mp own] at grain
  exact ⟨.unit charted grain, fun _ ruled => (by cases ruled)⟩

theorem candidates_sound (consistent : Consistent ctx.registry tree)
    (sound : ladder.towns.Sound ctx ground) {candidate : Candidate}
    (held : candidate ∈ ladder.candidates ctx) :
    candidate.Sound ctx.registry ladder.towns (NoStray ctx ladder.constraints ladder.towns) := by
  unfold candidates at held
  dsimp only at held
  split_ifs at held
  · exact worded_sound consistent sound held
  · exact pinCandidates_sound consistent held
  · unfold regionCandidates at held
    dsimp only at held
    split_ifs at held
    · exact regionsNamed_sound consistent (.inr (.inr (.inl ⟨rfl, rfl⟩))) held
    · exact regionsNamed_sound consistent (.inr (.inr (.inr ⟨rfl, rfl⟩))) held

/-- BIND answers nothing, or off its best candidate. -/
theorem bind_cases (consistent : Consistent ctx.registry tree)
    (sound : ladder.towns.Sound ctx ground) :
    ladder.bind ctx = {} ∨ ∃ top rest, ladder.bind ctx =
        bindingOf ctx ladder.towns.named top rest ∧
      top.Sound ctx.registry ladder.towns (NoStray ctx ladder.constraints ladder.towns) := by
  unfold bind
  cases ranked : rankCandidates (ladder.candidates ctx) with
  | nil => exact .inl rfl
  | cons top rest =>
      refine .inr ⟨top, rest, rfl, candidates_sound consistent sound ?_⟩
      have listed : top ∈ rankCandidates (ladder.candidates ctx) := by
        rw [ranked]
        exact List.mem_cons_self
      exact mem_sortedBy.mp listed

end Ladder

end Candidates

end Sreality.LocationData
