import Sreality.LocationData.TownRule

/-! What the town rule lets through: every town it keeps is an obec of the register, a town
kept on a name carries the PSČ or lies in reach of the pin, and the units a town was climbed
to from lie in it. -/

set_option autoImplicit false

namespace Sreality.LocationData

open Sreality.Foundation

/-! ### Chains -/

section Chains

variable {registry : RegistryView} {tree : Nat → Option AdminUnit}

theorem SameUnit.refl (unit : AdminUnit) : SameUnit unit unit :=
  ⟨rfl, rfl, rfl, rfl⟩

theorem RootPath.known {path : List AdminUnit} (rooted : RootPath tree path) {unit : AdminUnit}
    (held : unit ∈ path) : tree unit.unitId = some unit := by
  induction rooted with
  | root known _ =>
      cases List.mem_singleton.mp held
      exact known
  | child known _ _ ih =>
      rcases List.mem_cons.mp held with rfl | above
      · exact known
      · exact ih above

theorem Consistent.charted_of_mem (consistent : Consistent registry tree) {unitId : Nat}
    {unit : AdminUnit} (held : unit ∈ registry.adminChain unitId) : Charted registry unit := by
  cases chain : registry.adminChain unitId with
  | nil =>
      rw [chain] at held
      cases held
  | cons head rest =>
      rw [chain] at held
      have known := (consistent.chain unitId head rest chain).2.known held
      cases own : registry.adminChain unit.unitId with
      | nil => exact absurd own (consistent.known unit.unitId unit known)
      | cons first others =>
          obtain ⟨same, rooted⟩ := consistent.chain unit.unitId first others own
          have firstKnown := rooted.known List.mem_cons_self
          rw [same, known] at firstKnown
          cases firstKnown
          exact ⟨unit, others, own, SameUnit.refl unit⟩

/-- An obec of the register. -/
structure IsTown (registry : RegistryView) (town : AdminUnit) : Prop where
  level : town.level = .obec
  charted : Charted registry town

theorem IsTown.townKod {town : AdminUnit} (isTown : IsTown registry town) :
    registry.townKod town.unitId = some town.code := by
  obtain ⟨head, rest, chain, same⟩ := isTown.charted
  unfold RegistryView.townKod RegistryView.obecOn
  rw [chain, List.find?_cons_of_pos (by rw [same.level, isTown.level]; rfl), Option.map_some,
    same.code]

theorem obecOn_level {chain : List AdminUnit} {town : AdminUnit}
    (found : RegistryView.obecOn chain = some town) : town.level = .obec := by
  have met := List.find?_some found
  exact beq_iff_eq.mp met

theorem Consistent.obecOf (consistent : Consistent registry tree) {unit town : AdminUnit}
    (charted : Charted registry unit) (found : registry.obecOf unit = some town) :
    IsTown registry town ∧ registry.townKod unit.unitId = some town.code := by
  unfold RegistryView.obecOf at found
  by_cases level : unit.level = .obec
  · rw [if_pos level] at found
    cases found
    exact ⟨⟨level, charted⟩, IsTown.townKod ⟨level, charted⟩⟩
  · rw [if_neg level] at found
    refine ⟨⟨obecOn_level found, consistent.charted_of_mem (List.mem_of_find?_eq_some found)⟩, ?_⟩
    unfold RegistryView.townKod
    rw [found, Option.map_some]

theorem Consistent.obecByCode (consistent : Consistent registry tree) {code : Kod}
    {town : AdminUnit} (found : registry.obecByCode code = some town) :
    IsTown registry town ∧ town.code = code := by
  unfold RegistryView.obecByCode at found
  cases chain : registry.adminChainByCode .obec code with
  | nil =>
      rw [chain] at found
      cases found
  | cons head rest =>
      rw [chain] at found
      cases found
      obtain ⟨level, same, own⟩ := consistent.chainByCode .obec code town rest chain
      exact ⟨⟨level, town, rest, own, SameUnit.refl town⟩, same⟩

theorem Consistent.named_town (consistent : Consistent registry tree) {key : String}
    {levels : List Level} {unit : AdminUnit} (held : unit ∈ registry.adminUnitsByName key levels)
    (level : unit.level = .obec) : IsTown registry unit :=
  ⟨level, (consistent.named key levels unit held).2.1⟩

end Chains

/-! ### Dictionaries -/

section Dictionaries

theorem mem_of_firstPerKey {α κ : Type} [DecidableEq κ] {key : α → κ} {rows : List α} {row : α}
    (held : row ∈ firstPerKey key rows) : row ∈ rows := by
  induction rows with
  | nil => cases held
  | cons first rest ih =>
      unfold firstPerKey at held
      rcases List.mem_cons.mp held with rfl | later
      · exact List.mem_cons_self
      · exact List.mem_cons_of_mem _ (ih (List.mem_of_mem_filter later))

theorem mem_of_lookup_units {registry : RegistryView} {key : String} {levels : List Level}
    {unit : AdminUnit} (held : unit ∈ lookup registry key levels) :
    unit ∈ registry.adminUnitsByName key levels := by
  unfold lookup at held
  split_ifs at held
  · cases held
  · exact mem_of_firstPerKey (mem_sortedBy.mp held)

theorem mem_of_firstMatch {registry : RegistryView} {key : String} {levels : List Level}
    {unit : AdminUnit} (held : unit ∈ firstMatch registry key levels) :
    ∃ level ∈ levels, unit ∈ registry.adminUnitsByName key [level] := by
  induction levels with
  | nil => cases held
  | cons level rest ih =>
      unfold firstMatch at held
      dsimp only at held
      split_ifs at held with none_
      · obtain ⟨other, listed, found⟩ := ih held
        exact ⟨other, List.mem_cons_of_mem _ listed, found⟩
      · exact ⟨level, List.mem_cons_self, mem_of_lookup_units held⟩

end Dictionaries

/-! ### Composite lines -/

section Composite

variable {ctx : ResolverContext} {tree : Nat → Option AdminUnit}

/-- A part of a town, at one of the levels a locality line may name. -/
structure PartOf (registry : RegistryView) (kod : Kod) (part : AdminUnit) : Prop where
  charted : Charted registry part
  level : part.level ∈ partLevels
  town : registry.townKod part.unitId = some kod

/-- What a composite line names is a town and a part of it. -/
structure CompositeBind.Placed (registry : RegistryView) (found : CompositeBind) : Prop where
  town : ∀ town ∈ found.obec, IsTown registry town
  part : ∀ part ∈ found.part, ∃ town ∈ found.obec, PartOf registry town.code part

theorem placed_nothing (registry : RegistryView) :
    CompositeBind.Placed registry ({} : CompositeBind) :=
  ⟨fun _ held => (by cases held), fun _ held => (by cases held)⟩

theorem mem_wholeLevels {level : Level} (listed : level ∈ wholeLevels) (other : level ≠ .obec) :
    level ∈ partLevels := by
  rcases List.mem_cons.mp listed with rfl | part
  · exact absurd rfl other
  · exact part

theorem resolveUp_placed (consistent : Consistent ctx.registry tree) {unit : AdminUnit}
    (charted : Charted ctx.registry unit) (level : unit.level ∈ wholeLevels) :
    (resolveUp ctx unit).Placed ctx.registry := by
  unfold resolveUp
  cases found : ctx.registry.obecOf unit with
  | none => exact placed_nothing ctx.registry
  | some town =>
      obtain ⟨isTown, kod⟩ := consistent.obecOf charted found
      constructor
      · intro other held
        cases held
        exact isTown
      · intro part held
        dsimp only at held
        split_ifs at held with own
        · cases held
        · cases held
          exact ⟨town, rfl, charted, mem_wholeLevels level own, kod⟩

theorem obecAnchor_charted (consistent : Consistent ctx.registry tree) {token : String}
    {unit : AdminUnit} (found : obecAnchor ctx token = some unit) :
    Charted ctx.registry unit ∧ unit.level ∈ wholeLevels := by
  unfold obecAnchor at found
  split at found
  · next town single =>
      cases found
      have listed : unit ∈ lookup ctx.registry (ctx.text.matchKey token) [.obec] := by
        rw [single]
        exact List.mem_singleton_self _
      obtain ⟨level, charted, _⟩ := consistent.named _ _ _ (mem_of_lookup_units listed)
      rw [List.mem_singleton.mp level]
      exact ⟨charted, List.mem_cons_self⟩
  · cases found

theorem partAnchor_charted (consistent : Consistent ctx.registry tree) {token : String}
    {unit : AdminUnit} (found : partAnchor ctx token = some unit) :
    Charted ctx.registry unit ∧ unit.level ∈ wholeLevels := by
  unfold partAnchor at found
  dsimp only at found
  split_ifs at found
  split at found
  · next part single =>
      cases found
      have listed : unit ∈ firstMatch ctx.registry (ctx.text.matchKey token) partLevels := by
        rw [single]
        exact List.mem_singleton_self _
      obtain ⟨level, among, byName⟩ := mem_of_firstMatch listed
      obtain ⟨own, charted, _⟩ := consistent.named _ _ _ byName
      rw [List.mem_singleton.mp own]
      exact ⟨charted, List.mem_cons_of_mem _ among⟩
  · cases found

theorem mem_anchorCandidates (consistent : Consistent ctx.registry tree) {tokens : List String}
    {anchor : Nat × AdminUnit} (held : anchor ∈ anchorCandidates ctx tokens) :
    Charted ctx.registry anchor.2 ∧ anchor.2.level ∈ wholeLevels := by
  unfold anchorCandidates at held
  dsimp only at held
  rcases List.mem_append.mp held with obec | part
  · obtain ⟨entry, _, found⟩ := List.mem_filterMap.mp obec
    obtain ⟨unit, anchored, rfl⟩ := Option.map_eq_some_iff.mp found
    exact obecAnchor_charted consistent anchored
  · obtain ⟨entry, _, found⟩ := List.mem_filterMap.mp part
    obtain ⟨unit, anchored, rfl⟩ := Option.map_eq_some_iff.mp found
    exact partAnchor_charted consistent anchored

theorem tokenInside_partOf (consistent : Consistent ctx.registry tree) {key : String}
    {obec part : AdminUnit} {levels : List Level} (within : ∀ level ∈ levels, level ∈ partLevels)
    (found : tokenInside ctx key obec levels = some part) :
    PartOf ctx.registry obec.code part := by
  induction levels with
  | nil => cases found
  | cons level rest ih =>
      unfold tokenInside at found
      split at found
      · exact ih (fun other held => within other (List.mem_cons_of_mem _ held)) found
      · next unit single =>
          cases found
          have inside : part ∈ namedInside ctx key obec level := by
            rw [single]
            exact List.mem_singleton_self _
          obtain ⟨listed, parented⟩ := List.mem_filter.mp inside
          obtain ⟨own, charted, _⟩ := consistent.named _ _ _ (mem_of_lookup_units listed)
          obtain ⟨parent, climbs, same⟩ := (Option.any_eq_true _ _).mp parented
          obtain ⟨_, kod⟩ := consistent.obecOf charted climbs
          refine ⟨charted, ?_, ?_⟩
          · rw [List.mem_singleton.mp own]
            exact within level List.mem_cons_self
          · rw [kod, beq_iff_eq.mp same]
      · cases found

theorem anchored_placed (consistent : Consistent ctx.registry tree) {tokens : List String}
    {anchor : Nat × AdminUnit} (charted : Charted ctx.registry anchor.2)
    (level : anchor.2.level ∈ wholeLevels) {answer : CompositeBind}
    (found : anchored ctx tokens anchor = some answer) : answer.Placed ctx.registry := by
  unfold anchored at found
  obtain ⟨obec, climbs, rfl⟩ := Option.map_eq_some_iff.mp found
  obtain ⟨isTown, kod⟩ := consistent.obecOf charted climbs
  constructor
  · intro town held
    cases held
    exact isTown
  · intro part held
    refine ⟨obec, rfl, ?_⟩
    dsimp only at held
    cases inside : partInside ctx tokens anchor.1 obec with
    | some other =>
        rw [inside] at held
        cases held
        unfold partInside at inside
        obtain ⟨entry, _, named⟩ := List.exists_of_findSome?_eq_some inside
        dsimp only at named
        split_ifs at named
        exact tokenInside_partOf consistent (fun _ listed => listed) named
    | none =>
        rw [inside, Option.none_or] at held
        split_ifs at held with own
        · cases held
        · cases held
          exact ⟨charted, mem_wholeLevels level own, kod⟩

theorem resolveLocality_placed (consistent : Consistent ctx.registry tree) (value : String) :
    (resolveLocality ctx value).Placed ctx.registry := by
  unfold resolveLocality
  dsimp only
  by_cases empty : ctx.text.matchKey value = ""
  · rw [if_pos empty]
    exact placed_nothing ctx.registry
  rw [if_neg empty]
  split
  · next unit single =>
      have listed : unit ∈ firstMatch ctx.registry (ctx.text.matchKey value) wholeLevels := by
        rw [single]
        exact List.mem_singleton_self _
      obtain ⟨level, among, byName⟩ := mem_of_firstMatch listed
      obtain ⟨own, charted, _⟩ := consistent.named _ _ _ byName
      apply resolveUp_placed consistent charted
      rw [List.mem_singleton.mp own]
      exact among
  · exact placed_nothing ctx.registry
  · split_ifs
    · exact placed_nothing ctx.registry
    · exact placed_nothing ctx.registry
    have answered : ∀ answer ∈ (anchorCandidates ctx (ctx.text.localityTokens value)).filterMap
        (anchored ctx (ctx.text.localityTokens value)), answer.Placed ctx.registry := by
      intro answer held
      obtain ⟨anchor, listed, found⟩ := List.mem_filterMap.mp held
      obtain ⟨charted, level⟩ := mem_anchorCandidates consistent listed
      exact anchored_placed consistent charted level found
    cases preferred : ((anchorCandidates ctx (ctx.text.localityTokens value)).filterMap
        (anchored ctx (ctx.text.localityTokens value))).find? fun answer => answer.part.isSome with
    | some answer =>
        rw [Option.some_or, Option.getD_some]
        exact answered answer (List.mem_of_find?_eq_some preferred)
    | none =>
        rw [Option.none_or]
        cases first : ((anchorCandidates ctx (ctx.text.localityTokens value)).filterMap
            (anchored ctx (ctx.text.localityTokens value))).head? with
        | none => exact placed_nothing ctx.registry
        | some answer => exact answered answer (List.mem_of_head? first)

theorem firstCompositeBind_placed (consistent : Consistent ctx.registry tree)
    (lines : List String) : (firstCompositeBind ctx lines).Placed ctx.registry := by
  unfold firstCompositeBind
  cases found : (lines.map (resolveLocality ctx)).find? fun found => found.obec.isSome with
  | none => exact placed_nothing ctx.registry
  | some answer =>
      obtain ⟨line, _, rfl⟩ := List.mem_map.mp (List.mem_of_find?_eq_some found)
      exact resolveLocality_placed consistent line

end Composite

/-! ### Streets -/

section Streets

variable {ctx : ResolverContext} {tree : Nat → Option AdminUnit}

/-- A street of the register in one of these towns. -/
structure StreetIn (registry : RegistryView) (kods : List Kod) (street : Street) : Prop where
  held : registry.HasStreet street
  town : street.obecKod ∈ kods

theorem streetIn_of_mem (consistent : Consistent ctx.registry tree) {kods : List Kod}
    {street : Street} (held : street ∈ kods.flatMap ctx.registry.streetsInObec) :
    StreetIn ctx.registry kods street := by
  obtain ⟨kod, listed, found⟩ := List.mem_flatMap.mp held
  obtain ⟨own, _⟩ := consistent.streets kod street found
  subst own
  exact ⟨found, listed⟩

theorem mem_matchStreets (consistent : Consistent ctx.registry tree) {value : String}
    {kods : List Kod} {street : Street} (held : street ∈ (matchStreets ctx value kods).1) :
    StreetIn ctx.registry kods street := by
  unfold matchStreets at held
  dsimp only at held
  apply streetIn_of_mem consistent
  split_ifs at held
  · exact List.mem_of_mem_filter (List.mem_of_mem_filter (mem_of_firstPerKey (mem_sortedBy.mp held)))
  · exact List.mem_of_mem_filter (List.mem_of_mem_filter (mem_of_firstPerKey (mem_sortedBy.mp held)))

theorem readLine_streets (consistent : Consistent ctx.registry tree) {kods : List Kod}
    {line : String} {reading : LineReading} (read : readLine ctx kods line = some reading) :
    (∀ street ∈ reading.streets, StreetIn ctx.registry kods street) ∧
      ∀ place ∈ reading.places, ∃ town, ctx.registry.obecOf place = some town ∧
        town.code ∈ kods ∧ Charted ctx.registry place := by
  unfold readLine at read
  by_cases keyless : (streetMatchKeys ctx line).2 = []
  · rw [if_pos keyless] at read
    cases read
  rw [if_neg keyless] at read
  have within : ∀ street ∈ (matchStreets ctx line kods).1, StreetIn ctx.registry kods street :=
    fun street held => mem_matchStreets consistent held
  cases read
  constructor
  · intro street held
    exact within street (List.mem_ite_nil_right.mp held).2
  · intro place held
    have held := (List.mem_ite_nil_left.mp held).2
    unfold placesNamed at held
    obtain ⟨key, _, named⟩ := List.mem_flatMap.mp (mem_of_firstPerKey held)
    obtain ⟨byName, parented⟩ := List.mem_filter.mp named
    obtain ⟨town, climbs, inside⟩ := (Option.any_eq_true _ _).mp parented
    obtain ⟨street, listed, same⟩ := List.mem_map.mp (of_decide_eq_true inside)
    refine ⟨town, climbs, ?_, (consistent.named _ _ _ byName).2.1⟩
    rw [← same]
    exact (within street listed).town

theorem mem_streetsFound {readings : List LineReading} {tier : Tier} {found : Street × Slots}
    (held : found ∈ streetsFound readings tier) :
    ∃ reading ∈ readings, found.1 ∈ reading.streets := by
  unfold streetsFound at held
  obtain ⟨reading, listed, named⟩ :=
    List.mem_flatMap.mp (mem_of_firstPerKey (mem_sortedBy.mp held))
  obtain ⟨street, own, rfl⟩ := List.mem_map.mp named
  exact ⟨reading, List.mem_of_mem_filter listed, own⟩

/-- A part of one of these towns, at a level a street line may name. -/
structure PartIn (registry : RegistryView) (kods : List Kod) (part : AdminUnit) : Prop where
  charted : Charted registry part
  level : part.level ∈ partLevels
  town : ∃ kod ∈ kods, registry.townKod part.unitId = some kod

theorem mem_partsOfTown (consistent : Consistent ctx.registry tree) {kods : List Kod}
    {places : List AdminUnit}
    (within : ∀ place ∈ places, ∃ town, ctx.registry.obecOf place = some town ∧
      town.code ∈ kods ∧ Charted ctx.registry place)
    {part : AdminUnit} (held : part ∈ partsOfTown places) : PartIn ctx.registry kods part := by
  unfold partsOfTown at held
  split_ifs at held
  · cases held
  · obtain ⟨listed, level⟩ := List.mem_filter.mp held
    obtain ⟨town, climbs, kept, charted⟩ := within part listed
    refine ⟨charted, ?_, town.code, kept, (consistent.obecOf charted climbs).2⟩
    have named := of_decide_eq_true level
    unfold partOfTownLevels at named
    unfold partLevels
    simp only [List.mem_cons, List.not_mem_nil, or_false] at named ⊢
    rcases named with cast | momc
    · exact .inl cast
    · exact .inr (.inl momc)

theorem mem_of_onePart {parts : List AdminUnit} {part : AdminUnit}
    (found : onePart parts = some part) : part ∈ parts := by
  unfold onePart at found
  split at found
  · next single =>
      cases found
      exact List.mem_of_mem_filter (single ▸ List.mem_singleton_self _)
  · cases found
  · split at found
    · next single =>
        cases found
        exact List.mem_of_mem_filter (single ▸ List.mem_singleton_self _)
    · cases found

/-- What the street claims name lies in the kept towns. -/
structure StreetBind.Within (registry : RegistryView) (kods : List Kod) (line : StreetBind) :
    Prop where
  bound : ∀ bound ∈ line.bound, StreetIn registry kods bound.street
  candidates : ∀ candidate ∈ line.candidates, StreetIn registry kods candidate.street
  part : ∀ part ∈ line.namedPart, PartIn registry kods part

theorem boundStreet_street (street : Street) (numbers : Slots) (spelled : Bool) :
    (boundStreet ctx street numbers spelled).street = street := rfl

theorem resolveStreet_within (consistent : Consistent ctx.registry tree) (lines : List String)
    (kods : List Kod) (placeLines : List String) :
    (resolveStreet ctx lines kods placeLines).Within ctx.registry kods := by
  have read : ∀ reading ∈ lines.filterMap (readLine ctx kods),
      (∀ street ∈ reading.streets, StreetIn ctx.registry kods street) ∧
        ∀ place ∈ reading.places, ∃ town, ctx.registry.obecOf place = some town ∧
          town.code ∈ kods ∧ Charted ctx.registry place := by
    intro reading held
    obtain ⟨line, _, found⟩ := List.mem_filterMap.mp held
    exact readLine_streets consistent found
  have found : ∀ tier, ∀ entry ∈ streetsFound (lines.filterMap (readLine ctx kods)) tier,
      StreetIn ctx.registry kods entry.1 := by
    intro tier entry held
    obtain ⟨reading, listed, own⟩ := mem_streetsFound held
    exact (read reading listed).1 entry.1 own
  have named : ∀ part ∈ onePart (firstPerKey AdminUnit.unitId
      ((lines.filterMap (readLine ctx kods)).flatMap (fun reading => partsOfTown reading.places) ++
        placeLines.flatMap fun line =>
          partsOfTown (placesNamed ctx (streetMatchKeys ctx line).2 kods))),
      PartIn ctx.registry kods part := by
    intro part held
    rcases List.mem_append.mp (mem_of_firstPerKey (mem_of_onePart held)) with lined | placed
    · obtain ⟨reading, listed, own⟩ := List.mem_flatMap.mp lined
      exact mem_partsOfTown consistent (read reading listed).2 own
    · obtain ⟨line, _, own⟩ := List.mem_flatMap.mp placed
      refine mem_partsOfTown consistent (fun place listed => ?_) own
      unfold placesNamed at listed
      obtain ⟨key, _, byKey⟩ := List.mem_flatMap.mp (mem_of_firstPerKey listed)
      obtain ⟨byName, parented⟩ := List.mem_filter.mp byKey
      obtain ⟨town, climbs, inside⟩ := (Option.any_eq_true _ _).mp parented
      exact ⟨town, climbs, of_decide_eq_true inside, (consistent.named _ _ _ byName).2.1⟩
  unfold resolveStreet
  dsimp only
  split
  · exact ⟨fun _ held => (by cases held), fun _ held => (by cases held), named⟩
  · next entry single =>
      refine ⟨fun bound held => ?_, fun _ held => (by cases held), named⟩
      cases held
      exact found _ entry (single ▸ List.mem_singleton_self _)
  · next entries _ _ =>
      refine ⟨fun _ held => (by cases held), fun candidate held => ?_, named⟩
      obtain ⟨entry, listed, rfl⟩ := List.mem_map.mp held
      rw [boundStreet_street]
      exact found _ entry listed

end Streets

/-! ### The towns kept -/

section Towns

variable {ctx : ResolverContext} {tree : Nat → Option AdminUnit} {ground : Ground}

theorem mem_narrowByRegion {keys : List String} {level : Level}
    {kodOf : AdminUnit → Option Kod} {label : Qualifier}
    {state : List AdminUnit × List Qualifier} {town : AdminUnit}
    (held : town ∈ (narrowByRegion ctx keys level kodOf label state).1) : town ∈ state.1 := by
  unfold narrowByRegion at held
  dsimp only at held
  split_ifs at held
  · exact held
  · exact held
  · exact List.mem_of_mem_filter held

theorem mem_narrowTowns {towns : List AdminUnit} {applied : List Qualifier}
    {reach : Option Point} {town : AdminUnit}
    (held : town ∈ (narrowTowns ctx towns ground applied reach).1) :
    town ∈ towns ∧ reaches ctx town reach = true := by
  have named : ∀ {other : AdminUnit}, other ∈ ((narrowByRegion ctx ground.constraints.krajKeys
      .kraj AdminUnit.krajKod .kraj (narrowByRegion ctx ground.constraints.okresKeys .okres
        AdminUnit.okresKod .okres (towns, applied))).1.filter fun town => reaches ctx town reach) →
      other ∈ towns ∧ reaches ctx other reach = true := by
    intro other listed
    obtain ⟨kept, near⟩ := List.mem_filter.mp listed
    exact ⟨mem_narrowByRegion (mem_narrowByRegion kept), near⟩
  unfold narrowTowns at held
  dsimp only at held
  generalize ((narrowByRegion ctx ground.constraints.krajKeys .kraj AdminUnit.krajKod .kraj
    (narrowByRegion ctx ground.constraints.okresKeys .okres AdminUnit.okresKod .okres
      (towns, applied))).1.filter fun town => reaches ctx town reach) = surviving at held named
  cases pinned : ground.constraints.pin with
  | none =>
      rw [pinned] at held
      exact named held
  | some pin =>
      rw [pinned] at held
      dsimp only at held
      by_cases few : surviving.length ≤ 1
      · rw [if_pos few] at held
        exact named held
      · rw [if_neg few] at held
        dsimp only at held
        split at held
        · have first := Option.mem_toList.mp held
          exact named (mem_sortedBy.mp (List.mem_of_head? first))
        · exact named (List.mem_of_mem_filter held)

/-- The town carries the PSČ, or lies in reach of a pin worth more than the name. -/
def Vouched (ctx : ResolverContext) (ground : Ground) (town : AdminUnit) : Prop :=
  (∃ psc, truthy ground.constraints.psc = some psc ∧
      carries ctx psc (some town) town.code = true) ∨
    reaches ctx town ground.reach = true

theorem mem_townOfCode {towns : List AdminUnit} {code : Kod} {town : AdminUnit}
    (found : townOfCode towns code = some town) : town ∈ towns ∧ town.code = code := by
  have met := List.find?_some found
  exact ⟨List.mem_of_find?_eq_some found, beq_iff_eq.mp met⟩

theorem townAt_cases {direct : List AdminUnit} {code : Kod} {town : AdminUnit}
    (found : townAt ctx direct code = some town) :
    townOfCode direct code = some town ∨
      townOfCode direct code = none ∧ ctx.registry.obecByCode code = some town := by
  unfold townAt at found
  cases own : townOfCode direct code with
  | some first =>
      rw [own] at found
      exact .inl found
  | none =>
      rw [own, Option.none_or] at found
      exact .inr ⟨rfl, found⟩

theorem townAt_town (consistent : Consistent ctx.registry tree) {direct : List AdminUnit}
    (towns : ∀ town ∈ direct, IsTown ctx.registry town) {code : Kod} {town : AdminUnit}
    (found : townAt ctx direct code = some town) :
    IsTown ctx.registry town ∧ town.code = code := by
  rcases townAt_cases found with own | ⟨_, byCode⟩
  · obtain ⟨held, same⟩ := mem_townOfCode own
    exact ⟨towns town held, same⟩
  · exact consistent.obecByCode byCode

/-- A climbed match lies in the town it climbs to. -/
theorem climbedTo_town (consistent : Consistent ctx.registry tree) {key : String}
    {levels : List Level} {unit : AdminUnit}
    (held : unit ∈ ctx.registry.adminUnitsByName key levels) {kod : Kod}
    (climbs : climbedTo ctx unit = some kod) : ctx.registry.townKod unit.unitId = some kod := by
  obtain ⟨_, charted, told⟩ := consistent.named key levels unit held
  unfold climbedTo at climbs
  cases own : truthyInt unit.obecKod with
  | some code =>
      rw [own] at climbs
      cases climbs
      unfold truthyInt at own
      exact told kod (Option.eq_some_of_filter_eq_some own)
  | none =>
      rw [own, Option.none_or] at climbs
      obtain ⟨town, found, rfl⟩ := Option.map_eq_some_iff.mp climbs
      exact (consistent.obecOf charted found).2

theorem namesMatched_direct (consistent : Consistent ctx.registry tree) {keys : List String}
    {levels : List Level} {town : AdminUnit} (held : town ∈ (namesMatched ctx keys levels).direct) :
    IsTown ctx.registry town := by
  unfold namesMatched at held
  obtain ⟨listed, level⟩ := List.mem_filter.mp held
  obtain ⟨key, _, byName⟩ := List.mem_flatMap.mp listed
  exact consistent.named_town byName (beq_iff_eq.mp level)

theorem namesMatched_climbed (consistent : Consistent ctx.registry tree) {keys : List String}
    {levels : List Level} {entry : Kod × AdminUnit}
    (held : entry ∈ (namesMatched ctx keys levels).climbed) :
    Charted ctx.registry entry.2 ∧ ctx.registry.townKod entry.2.unitId = some entry.1 := by
  unfold namesMatched at held
  obtain ⟨unit, listed, found⟩ := List.mem_filterMap.mp held
  obtain ⟨kod, climbs, rfl⟩ := Option.map_eq_some_iff.mp found
  obtain ⟨key, _, byName⟩ := List.mem_flatMap.mp (List.mem_of_mem_filter listed)
  exact ⟨(consistent.named _ _ _ byName).2.1, climbedTo_town consistent byName climbs⟩

/-- The named towns of a key set: towns, each vouched for, and the units climbed to them. -/
structure NamedTowns.Sound (ctx : ResolverContext) (ground : Ground) (named : NamedTowns) :
    Prop where
  units : ∀ town ∈ named.units, IsTown ctx.registry town ∧ Vouched ctx ground town
  climbed : ∀ entry ∈ named.climbed, Charted ctx.registry entry.2 ∧
    ctx.registry.townKod entry.2.unitId = some entry.1

variable (ground) in
/-- The towns that carry the claimed PSC. -/
def carryingTowns (ctx : ResolverContext) (codes : List Kod) (direct : List AdminUnit) :
    List AdminUnit :=
  match truthy ground.constraints.psc with
  | some psc => (carryingPsc ctx codes direct psc).filterMap (townAt ctx direct)
  | none => []

variable (ground) in
theorem bindTowns_sound (consistent : Consistent ctx.registry tree) (keys : List String)
    (levels : List Level) (qualifier : Option String) :
    (bindTowns ctx keys levels ground qualifier).Sound ctx ground := by
  have answered : ∀ (codes : List Kod) (direct : List AdminUnit),
      (∀ town ∈ direct, IsTown ctx.registry town) →
      let carrying := carryingTowns ground ctx codes direct
      let byPsc :=
        if carrying = [] then ([], [])
        else narrowTowns ctx carrying ground (if codes.length > 1 then [.psc] else []) none
      ∀ town ∈ (if byPsc.1 = [] then
          narrowTowns ctx (sortedBy AdminUnit.code (firstPerKey AdminUnit.code direct)) ground []
            ground.reach
        else byPsc).1, IsTown ctx.registry town ∧ Vouched ctx ground town := by
    intro codes direct towns carrying byPsc town held
    by_cases unserved : byPsc.1 = []
    · rw [if_pos unserved] at held
      obtain ⟨listed, near⟩ := mem_narrowTowns held
      exact ⟨towns town (mem_of_firstPerKey (mem_sortedBy.mp listed)), .inr near⟩
    · rw [if_neg unserved] at held
      have listed : town ∈ carrying := by
        by_cases none_ : carrying = []
        · exact absurd (congrArg Prod.fst (if_pos none_ : byPsc = ([], []))) unserved
        · have narrowed : byPsc = narrowTowns ctx carrying ground
              (if codes.length > 1 then [.psc] else []) none := if_neg none_
          rw [narrowed] at held
          exact (mem_narrowTowns held).1
      cases psc_eq : truthy ground.constraints.psc with
      | none =>
          have empty : carrying = [] := by
            change carryingTowns ground ctx codes direct = []
            rw [carryingTowns, psc_eq]
          rw [empty] at listed
          cases listed
      | some psc =>
          have served : carrying =
              (carryingPsc ctx codes direct psc).filterMap (townAt ctx direct) := by
            change carryingTowns ground ctx codes direct = _
            rw [carryingTowns, psc_eq]
          rw [served] at listed
          obtain ⟨code, kept, found⟩ := List.mem_filterMap.mp listed
          obtain ⟨isTown, same⟩ := townAt_town consistent towns found
          refine ⟨isTown, .inl ⟨psc, psc_eq, ?_⟩⟩
          have carried := (List.mem_filter.mp kept).2
          rcases townAt_cases found with own | ⟨none_, _⟩
          · rw [own] at carried
            rw [same]
            exact carried
          · rw [none_] at carried
            unfold carries at carried ⊢
            rw [same]
            exact Bool.or_eq_true_iff.mpr (.inr (by simpa using carried))
  constructor
  · unfold bindTowns
    dsimp only
    cases truthy qualifier with
    | none => exact answered _ _ fun town held => namesMatched_direct consistent held
    | some qualifier =>
        refine answered _ _ fun town held => ?_
        unfold qualified at held
        obtain ⟨code, _, found⟩ := List.mem_filterMap.mp held
        exact (townAt_town consistent
          (fun other listed => namesMatched_direct consistent listed) found).1
  · intro entry held
    unfold bindTowns at held
    exact namesMatched_climbed consistent (List.mem_of_mem_filter held)

theorem bindStripped_sound (consistent : Consistent ctx.registry tree) {key : String}
    {named : NamedTowns} (found : bindStripped ctx ground key = some named) :
    named.Sound ctx ground := by
  unfold bindStripped at found
  obtain ⟨split, _, answered⟩ := Option.bind_eq_some_iff.mp found
  dsimp only at answered
  split_ifs at answered
  cases answered
  have sound := bindTowns_sound ground consistent [split.1] townNameLevels
    (some split.2)
  exact ⟨sound.units, sound.climbed⟩

variable (ground) in
theorem ownTowns_sound (consistent : Consistent ctx.registry tree) :
    (∀ named ∈ (ownTowns ctx ground).2, named.Sound ctx ground ∧
      ∀ part ∈ (ownTowns ctx ground).1.part, ∃ town ∈ named.units,
        PartOf ctx.registry town.code part) ∧
      ((ownTowns ctx ground).2 = none → (ownTowns ctx ground).1.part = none) := by
  have stripped : ∀ named ∈ ground.constraints.obecKeys.findSome? (bindStripped ctx ground),
      named.Sound ctx ground := by
    intro named held
    obtain ⟨key, _, found⟩ := List.exists_of_findSome?_eq_some held
    exact bindStripped_sound consistent found
  have sound := bindTowns_sound ground consistent ground.constraints.obecKeys
    townNameLevels none
  unfold ownTowns
  dsimp only
  split_ifs with direct
  · refine ⟨fun named held => ?_, fun none_ => (by cases none_)⟩
    cases held
    exact ⟨sound, fun part listed => (by cases listed)⟩
  · have placed := firstCompositeBind_placed consistent ground.constraints.obecLines
    cases line : (firstCompositeBind ctx ground.constraints.obecLines).obec with
    | none =>
        dsimp only
        exact ⟨fun named held => ⟨stripped named held, fun part listed => (by cases listed)⟩,
          fun _ => rfl⟩
    | some town =>
        dsimp only
        cases admitted : admits ctx town ground with
        | false =>
            rw [if_neg (by simp)]
            exact ⟨fun named held => ⟨stripped named held, fun part listed => (by cases listed)⟩,
              fun _ => rfl⟩
        | true =>
            rw [if_pos rfl]
            refine ⟨fun named held => ?_, fun none_ => (by cases none_)⟩
            cases held
            refine ⟨⟨fun other single => ?_, sound.climbed⟩, fun part listed => ?_⟩
            · cases List.mem_singleton.mp single
              refine ⟨placed.town town line, ?_⟩
              unfold admits at admitted
              rcases Bool.or_eq_true_iff.mp admitted with served | near
              · obtain ⟨psc, given, carried⟩ := (Option.any_eq_true _ _).mp served
                exact .inl ⟨psc, given, carried⟩
              · exact .inr near
            · obtain ⟨own, found, inside⟩ := placed.part part listed
              rw [line] at found
              cases found
              exact ⟨town, List.mem_singleton_self _, inside⟩

/-- What `constraining_towns` keeps: towns, each vouched for on rung R4, with the part of a
composite line and the climbed units inside them. -/
structure Towns.Sound (ctx : ResolverContext) (ground : Ground) (towns : Towns) : Prop where
  units : ∀ town ∈ towns.units, IsTown ctx.registry town
  rung : towns.rung = .r4 ∨ towns.rung = .r6
  vouched : towns.rung = .r4 → ∀ town ∈ towns.units, Vouched ctx ground town
  composite : ∀ part ∈ towns.composite.part, ∃ town ∈ towns.units,
    PartOf ctx.registry town.code part
  climbed : ∀ entry ∈ towns.climbed, Charted ctx.registry entry.2 ∧
    ctx.registry.townKod entry.2.unitId = some entry.1

theorem pscTowns_towns (consistent : Consistent ctx.registry tree) {town : AdminUnit}
    (held : town ∈ (pscTowns ctx ground).1) : IsTown ctx.registry town := by
  have served : ∀ other ∈ dedupeUnits ((((truthy ground.constraints.psc).map
      ctx.registry.obecCodesForPsc).getD []).filterMap ctx.registry.obecByCode),
      IsTown ctx.registry other := by
    intro other listed
    obtain ⟨code, _, found⟩ := List.mem_filterMap.mp (mem_of_firstPerKey (mem_sortedBy.mp listed))
    exact (consistent.obecByCode found).1
  have holds : ∀ towns : List AdminUnit, (∀ other ∈ towns, IsTown ctx.registry other) →
      ∀ other ∈ (if towns.length > 1 then
        townsHolding ctx towns ground.constraints.streetLines else []),
        IsTown ctx.registry other := by
    intro towns within other listed
    have holding := (List.mem_ite_nil_right.mp listed).2
    unfold townsHolding at holding
    obtain ⟨line, _, kept⟩ := List.mem_flatMap.mp holding
    exact within other (List.mem_of_mem_filter (List.mem_ite_nil_left.mp kept).2)
  unfold pscTowns at held
  dsimp only at held
  generalize dedupeUnits ((((truthy ground.constraints.psc).map
    ctx.registry.obecCodesForPsc).getD []).filterMap ctx.registry.obecByCode) = byPsc
    at held served
  have kept := holds byPsc served
  generalize (if byPsc.length > 1 then
    townsHolding ctx byPsc ground.constraints.streetLines else []) = holding at held kept
  by_cases one : (holding.map AdminUnit.code).dedup.length = 1
  · rw [if_pos one] at held
    have last := Option.mem_toList.mp held
    exact kept town (List.mem_of_getLast? last)
  · rw [if_neg one] at held
    exact served town (mem_narrowTowns held).1

theorem constrainingTowns_sound (consistent : Consistent ctx.registry tree) (ground : Ground) :
    (constrainingTowns ctx ground).Sound ctx ground := by
  obtain ⟨named, unnamed⟩ := ownTowns_sound ground consistent
  unfold constrainingTowns
  rcases own : ownTowns ctx ground with ⟨composite, _ | answer⟩
  · rw [own] at unnamed
    have bare : ∀ part ∈ composite.part, ∃ town ∈ ([] : List AdminUnit),
        PartOf ctx.registry town.code part := by
      intro part held
      rw [unnamed rfl] at held
      cases held
    dsimp only
    split_ifs with parted
    · have sound := bindTowns_sound ground consistent
        ground.constraints.castObceKeys partLevels none
      refine ⟨fun town held => (sound.units town held).1, .inl rfl,
        fun _ town held => (sound.units town held).2, fun part held => ?_,
        fun _ held => (by cases held)⟩
      obtain ⟨_, listed, _⟩ := bare part held
      cases listed
    · refine ⟨fun town held => pscTowns_towns consistent held, .inr rfl,
        fun four => (by cases four), fun part held => ?_, fun _ held => (by cases held)⟩
      obtain ⟨_, listed, _⟩ := bare part held
      cases listed
  · rw [own] at named
    obtain ⟨sound, inside⟩ := named answer rfl
    exact ⟨fun town held => (sound.units town held).1, .inl rfl,
      fun _ town held => (sound.units town held).2, inside, sound.climbed⟩

end Towns

end Sreality.LocationData
