import Sreality.LocationData.Resolve
import Sreality.LocationData.BindProperties

/-! The published row is one path of the register, and its town is one the town rule kept. -/

set_option autoImplicit false

namespace Sreality.LocationData

open Sreality.Foundation

/-! ### Chains -/

section Chains

variable {ctx : ResolverContext} {tree : Nat → Option AdminUnit}

/-- Nothing, or a root path of the unit tree. -/
def Rooted (tree : Nat → Option AdminUnit) (path : List AdminUnit) : Prop :=
  path = [] ∨ RootPath tree path

theorem adminChain_rooted (consistent : Consistent ctx.registry tree) (unitId : Nat) :
    Rooted tree (ctx.registry.adminChain unitId) := by
  cases chain : ctx.registry.adminChain unitId with
  | nil => exact .inl rfl
  | cons head rest => exact .inr (consistent.chain unitId head rest chain).2

theorem adminChainByCode_rooted (consistent : Consistent ctx.registry tree) (level : Level)
    (code : Kod) : Rooted tree (ctx.registry.adminChainByCode level code) := by
  cases chain : ctx.registry.adminChainByCode level code with
  | nil => exact .inl rfl
  | cons head rest =>
      obtain ⟨_, _, own⟩ := consistent.chainByCode level code head rest chain
      exact .inr (consistent.chain head.unitId head rest own).2

/-- The chain of the binding's own unit, or of its obec. -/
def boundChain (ctx : ResolverContext) (binding : Binding) : List AdminUnit :=
  match binding.adminUnitId, binding.obecKod with
  | some unitId, _ => ctx.registry.adminChain unitId
  | none, some obecKod => ctx.registry.adminChainByCode .obec obecKod
  | none, none => []

theorem bindingChain_rooted (consistent : Consistent ctx.registry tree) (binding : Binding) :
    Rooted tree (bindingChain ctx binding) := by
  have behind : Rooted tree (boundChain ctx binding) := by
    unfold boundChain
    split
    · exact adminChain_rooted consistent _
    · exact adminChainByCode_rooted consistent _ _
    · exact .inl rfl
  unfold bindingChain
  dsimp only
  split
  · split_ifs
    · exact behind
    · exact adminChain_rooted consistent _
  · exact behind

theorem fieldUnit_obec (chain : List AdminUnit) :
    fieldUnit chain .obec = RegistryView.obecOn chain := by
  unfold fieldUnit RegistryView.obecOn
  congr 1
  funext unit
  cases unit.level <;> rfl

/-- The ancestors of a unit stand above it in the level order. -/
theorem RootPath.above (consistent : Consistent ctx.registry tree) {path : List AdminUnit}
    (rooted : RootPath tree path) : ∀ head rest, path = head :: rest →
      ∀ unit ∈ rest, unit.level.order < head.level.order := by
  induction rooted with
  | root _ _ =>
      intro head rest same unit held
      cases same
      cases held
  | @child own parent others known below path ih =>
      intro head rest same unit held
      cases same
      have first := consistent.descends own.unitId own parent known below
        (path.known List.mem_cons_self)
      rcases List.mem_cons.mp held with rfl | later
      · exact first
      · exact (ih parent others rfl unit later).trans first

/-- No part stands on the chain of an obec. -/
theorem fieldUnit_part_of_obec (consistent : Consistent ctx.registry tree) {head : AdminUnit}
    {rest : List AdminUnit} (rooted : RootPath tree (head :: rest)) (level : head.level = .obec) :
    fieldUnit (head :: rest) .castObceOrQuarter = none := by
  unfold fieldUnit
  apply List.find?_eq_none.mpr
  intro unit held
  have order : unit.level.order ≤ Level.order .obec := by
    rcases List.mem_cons.mp held with rfl | above
    · exact le_of_eq (congrArg Level.order level)
    · exact le_of_lt (level ▸ rooted.above consistent head rest rfl unit above)
  cases standing : unit.level <;> simp [standing, Level.order, fieldLevels] at order ⊢

/-- The chain of an obec by its code starts at it. -/
theorem obecChain (consistent : Consistent ctx.registry tree) {code : Kod}
    (held : (ctx.registry.obecByCode code).isSome) :
    (RegistryView.obecOn (ctx.registry.adminChainByCode .obec code)).map AdminUnit.code =
        some code ∧
      fieldUnit (ctx.registry.adminChainByCode .obec code) .castObceOrQuarter = none := by
  unfold RegistryView.obecByCode at held
  cases chain : ctx.registry.adminChainByCode .obec code with
  | nil =>
      rw [chain] at held
      cases held
  | cons head rest =>
      obtain ⟨level, same, own⟩ := consistent.chainByCode .obec code head rest chain
      have rooted := (consistent.chain head.unitId head rest own).2
      refine ⟨?_, fieldUnit_part_of_obec consistent rooted level⟩
      unfold RegistryView.obecOn
      rw [List.find?_cons_of_pos (by rw [level]; rfl), Option.map_some, same]

end Chains

/-! ### The hierarchy of a winner -/

section Hierarchy

variable {ctx : ResolverContext} {tree : Nat → Option AdminUnit}

theorem townKod_chain {registry : RegistryView} {unitId : Nat} {code : Kod}
    (placed : registry.townKod unitId = some code) : registry.adminChain unitId ≠ [] := by
  intro none_
  unfold RegistryView.townKod at placed
  rw [none_] at placed
  cases placed

theorem winningPart_door {named : Bool} {door : AddressPoint} {rung : Rung} {agreed : List Agreed}
    {claimIds : List Nat} {relaxations : List Qualifier} :
    winningPart ctx named (pointCandidate door rung agreed claimIds relaxations) =
      door.castObceUnitId := rfl

/-- Q3 takes a part the street's own doors lie in. -/
theorem winningPart_street {named : Bool} {street : Street} {rung : Rung}
    {constraints : Constraints} {similarity : Float64} {relaxations : List Qualifier} {unitId : Nat}
    (won : winningPart ctx named (streetCandidate street rung constraints similarity relaxations) =
      some unitId) :
    ∃ spot, ctx.registry.streetPoint street = some spot ∧ some unitId ∈ spot.partUnitIds := by
  unfold winningPart at won
  have spotted : streetSpot ctx (streetCandidate street rung constraints similarity relaxations) =
      ctx.registry.streetPoint street := rfl
  rw [spotted] at won
  cases point : ctx.registry.streetPoint street with
  | none =>
      rw [point] at won
      cases won
  | some spot =>
      rw [point] at won
      dsimp only at won
      refine ⟨spot, rfl, ?_⟩
      split at won
      · next part single =>
          split_ifs at won
          · rw [single, won]
            exact List.mem_singleton_self _
          · cases won
      · cases won

/-- The chain of a door: its part's, else its obec's. -/
theorem bindingChain_door (consistent : Consistent ctx.registry tree) (named : Bool)
    {door : AddressPoint} {rung : Rung} {agreed : List Agreed} {claimIds : List Nat}
    {relaxations : List Qualifier} (rest : List Candidate) (held : ctx.registry.HasDoor door) :
    let chain := bindingChain ctx
      (bindingOf ctx named (pointCandidate door rung agreed claimIds relaxations) rest)
    (RegistryView.obecOn chain).map AdminUnit.code = some door.obecKod ∧
      ∀ unit, fieldUnit chain .castObceOrQuarter = some unit →
        door.castObceKod = some unit.code := by
  dsimp only
  unfold bindingChain bindingOf
  simp only [winningPart_door]
  cases part : door.castObceUnitId with
  | none =>
      obtain ⟨town, bare⟩ := obecChain consistent (consistent.doors door held)
      refine ⟨town, fun unit found => ?_⟩
      have none_ := bare.symm.trans found
      cases none_
  | some unitId =>
      obtain ⟨town, head, first, level, own⟩ := consistent.doorPart door unitId held part
      dsimp only
      rw [if_neg (townKod_chain town)]
      refine ⟨town, fun unit found => ?_⟩
      cases chain : ctx.registry.adminChain unitId with
      | nil =>
          rw [chain] at first
          cases first
      | cons one others =>
          rw [chain] at first found
          cases first
          unfold fieldUnit at found
          rw [List.find?_cons_of_pos (by rw [level]; rfl)] at found
          cases found
          exact own

/-- The chain of a street: the part its doors lie in, else its obec's. -/
theorem bindingChain_street (consistent : Consistent ctx.registry tree) {named : Bool}
    {street : Street} {rung : Rung} {constraints : Constraints} {similarity : Float64}
    {relaxations : List Qualifier} {rest : List Candidate}
    (held : ctx.registry.HasStreet street) :
    (RegistryView.obecOn (bindingChain ctx (bindingOf ctx named
      (streetCandidate street rung constraints similarity relaxations) rest))).map AdminUnit.code =
        some street.obecKod := by
  unfold bindingChain bindingOf
  dsimp only
  cases part : winningPart ctx named
      (streetCandidate street rung constraints similarity relaxations) with
  | none => exact (obecChain consistent (consistent.streets street.obecKod street held).2).1
  | some unitId =>
      obtain ⟨spot, found, among⟩ := winningPart_street part
      have town := consistent.streetParts street spot unitId held found among
      dsimp only
      rw [if_neg (townKod_chain town)]
      exact town

/-- The obec of the winner's chain is the winner's town. -/
theorem bindingChain_town (consistent : Consistent ctx.registry tree) (named : Bool)
    {top : Candidate} (rest : List Candidate) (binds : Binds ctx.registry top) :
    (RegistryView.obecOn (bindingChain ctx (bindingOf ctx named top rest))).map AdminUnit.code =
      top.townKod ctx.registry := by
  cases binds with
  | door held => exact (bindingChain_door consistent named rest held).1
  | street held => exact bindingChain_street consistent held
  | unit _ _ => rfl

end Hierarchy

/-! ### The verdict -/

section Verdicts

variable {ctx : ResolverContext}

/-- Off the country nothing is bound, nothing is disputed and the granularity says no more than
the country; in it the granularity is the grade's, or coarsened to the obec. -/
theorem check_cases (claims : List Claim) (normalized : Nat → Option NormalizedClaim)
    (filled : Fill) (position : Position) (granularity : Granularity) (pinClaim : Option Claim)
    (pinInside : Option Bool) :
    let verdict := check ctx claims normalized filled position granularity pinClaim pinInside
    verdict.countryStatus ≠ .cz ∧ verdict.disputed = none ∧ filled.obecKod = none ∧
        (verdict.granularity = some .country ∨ verdict.granularity = some .unknown) ∨
      verdict.countryStatus = .cz ∧ (verdict.granularity = some granularity ∨
        verdict.granularity = some (coarserOf granularity .obec)) := by
  dsimp only
  unfold check
  dsimp only
  have unbound : (filled.obecKod.isSome || filled.okresKod.isSome || filled.krajKod.isSome) =
      false → filled.obecKod = none := by
    intro none_
    cases obec : filled.obecKod with
    | none => rfl
    | some kod =>
        rw [obec] at none_
        cases none_
  split_ifs with none_ <;> first
    | exact .inl ⟨nofun, rfl, unbound none_, .inl rfl⟩
    | exact .inl ⟨nofun, rfl, unbound none_, .inr rfl⟩
    | exact .inr ⟨rfl, .inl rfl⟩
    | exact .inr ⟨rfl, .inr rfl⟩

theorem coarserOf_obec {granularity fine : Granularity}
    (same : coarserOf granularity .obec = fine) (finer : Granularity.rank .obec < fine.rank) :
    granularity = fine := by
  unfold coarserOf at same
  split_ifs at same
  · exact same
  · rw [← same] at finer
    exact absurd finer (lt_irrefl _)

end Verdicts

/-! ### A small register

Two towns of one kraj, a část obce of the second whose name row leaves its obec out, a street
and a door of the first. -/

section SmallRegister

def lhotskyKraj : AdminUnit where
  unitId := 1
  level := .kraj
  code := 10
  name := "Lhotsky"
  nameNorm := "lhotsky"

def dolniLhota : AdminUnit where
  unitId := 2
  level := .obec
  code := 1
  name := "Dolni Lhota"
  nameNorm := "dolni lhota"
  parentId := some 1
  obecKod := some 1

def horniLhota : AdminUnit where
  unitId := 3
  level := .obec
  code := 2
  name := "Horni Lhota"
  nameNorm := "horni lhota"
  parentId := some 1
  obecKod := some 2

def podhaji : AdminUnit where
  unitId := 4
  level := .castObce
  code := 21
  name := "Podhaji"
  nameNorm := "podhaji"
  parentId := some 3

def lhotaTree : Nat → Option AdminUnit
  | 1 => some lhotskyKraj
  | 2 => some dolniLhota
  | 3 => some horniLhota
  | 4 => some podhaji
  | _ => none

def lhotaChain : Nat → List AdminUnit
  | 1 => [lhotskyKraj]
  | 2 => [dolniLhota, lhotskyKraj]
  | 3 => [horniLhota, lhotskyKraj]
  | 4 => [podhaji, horniLhota, lhotskyKraj]
  | _ => []

def naPoli : Street where
  code := 5
  name := "Na Poli"
  nameNorm := "na poli"
  obecKod := 1

def naPoliSeven : AddressPoint where
  kodAdm := 100
  obecKod := 1
  psc := "10000"
  uliceKod := some 5
  streetName := some "Na Poli"
  cisloDomovni := some 7

def lhotaRegistry : RegistryView where
  addressPoint := fun kod => if kod = 100 then some naPoliSeven else none
  addressPointsByNumber := fun query =>
    if query.obecKod = 1 ∧ query.cisloDomovni = some 7 then [naPoliSeven] else []
  streetsInObec := fun kod => if kod = 1 then [naPoli] else []
  streetPoint := fun _ => none
  partPoint := fun _ => none
  adminUnitsByName := fun key levels =>
    [lhotskyKraj, dolniLhota, horniLhota, podhaji].filter fun unit =>
      decide (unit.nameNorm = key ∧ unit.level ∈ levels)
  adminChain := lhotaChain
  adminChainByCode := fun level kod =>
    if level = .obec ∧ kod = 1 then lhotaChain 2
    else if level = .obec ∧ kod = 2 then lhotaChain 3 else []
  obecCodesForPsc := fun _ => []
  containingObec := fun _ => none
  nearestObecWithin := fun _ _ => none
  inCzechiaPolygon := fun _ => none

theorem lhotaChain_cases {unitId : Nat} {head : AdminUnit} {rest : List AdminUnit}
    (chain : lhotaChain unitId = head :: rest) :
    unitId = 1 ∨ unitId = 2 ∨ unitId = 3 ∨ unitId = 4 := by
  unfold lhotaChain at chain
  split at chain
  · exact .inl rfl
  · exact .inr (.inl rfl)
  · exact .inr (.inr (.inl rfl))
  · exact .inr (.inr (.inr rfl))
  · cases chain

theorem lhotaTree_cases {unitId : Nat} {unit : AdminUnit} (known : lhotaTree unitId = some unit) :
    unitId = 1 ∨ unitId = 2 ∨ unitId = 3 ∨ unitId = 4 := by
  unfold lhotaTree at known
  split at known
  · exact .inl rfl
  · exact .inr (.inl rfl)
  · exact .inr (.inr (.inl rfl))
  · exact .inr (.inr (.inr rfl))
  · cases known

theorem lhotskyKraj_path : RootPath lhotaTree [lhotskyKraj] :=
  .root rfl rfl

theorem horniLhota_path : RootPath lhotaTree [horniLhota, lhotskyKraj] :=
  .child rfl rfl lhotskyKraj_path

theorem lhotaRegistry_named {key : String} {levels : List Level} {unit : AdminUnit}
    (held : unit ∈ lhotaRegistry.adminUnitsByName key levels) :
    unit.level ∈ levels ∧ Charted lhotaRegistry unit ∧
      ∀ code, unit.obecKod = some code → lhotaRegistry.townKod unit.unitId = some code := by
  obtain ⟨listed, met⟩ := List.mem_filter.mp held
  refine ⟨(of_decide_eq_true met).2, ?_⟩
  simp only [List.mem_cons, List.not_mem_nil, or_false] at listed
  rcases listed with rfl | rfl | rfl | rfl
  · exact ⟨⟨_, _, rfl, SameUnit.refl _⟩, fun code none_ => (by cases none_)⟩
  · exact ⟨⟨_, _, rfl, SameUnit.refl _⟩, fun code own => (by cases own; rfl)⟩
  · exact ⟨⟨_, _, rfl, SameUnit.refl _⟩, fun code own => (by cases own; rfl)⟩
  · exact ⟨⟨_, _, rfl, SameUnit.refl _⟩, fun code none_ => (by cases none_)⟩

theorem lhotaRegistry_door {door : AddressPoint} (held : lhotaRegistry.HasDoor door) :
    door = naPoliSeven := by
  rcases held with ⟨kod, known⟩ | ⟨query, listed⟩
  · have found := (Option.ite_none_right_eq_some.mp known).2
    exact (Option.some.inj found).symm
  · exact List.mem_singleton.mp (List.mem_ite_nil_right.mp listed).2

theorem lhotaRegistry_street {code : Kod} {street : Street}
    (held : street ∈ lhotaRegistry.streetsInObec code) : code = 1 ∧ street = naPoli := by
  obtain ⟨own, listed⟩ := List.mem_ite_nil_right.mp held
  exact ⟨own, List.mem_singleton.mp listed⟩

theorem lhotaRegistry_consistent : Consistent lhotaRegistry lhotaTree where
  chain := by
    intro unitId head rest chain
    change lhotaChain unitId = _ at chain
    rcases lhotaChain_cases chain with rfl | rfl | rfl | rfl
    · cases chain
      exact ⟨rfl, lhotskyKraj_path⟩
    · cases chain
      exact ⟨rfl, .child rfl rfl lhotskyKraj_path⟩
    · cases chain
      exact ⟨rfl, horniLhota_path⟩
    · cases chain
      exact ⟨rfl, .child rfl rfl horniLhota_path⟩
  known := by
    intro unitId unit known
    rcases lhotaTree_cases known with rfl | rfl | rfl | rfl <;> exact List.cons_ne_nil _ _
  descends := by
    intro unitId unit parent known below above
    rcases lhotaTree_cases known with rfl | rfl | rfl | rfl
    · cases known
      cases below
    · cases known
      rw [← Option.some.inj below] at above
      cases above
      decide
    · cases known
      rw [← Option.some.inj below] at above
      cases above
      decide
    · cases known
      rw [← Option.some.inj below] at above
      cases above
      decide
  chainByCode := by
    intro level code head rest chain
    change (if level = .obec ∧ code = 1 then lhotaChain 2
      else if level = .obec ∧ code = 2 then lhotaChain 3 else []) = _ at chain
    split_ifs at chain with one two
    · obtain ⟨rfl, rfl⟩ := one
      cases chain
      exact ⟨rfl, rfl, rfl⟩
    · obtain ⟨rfl, rfl⟩ := two
      cases chain
      exact ⟨rfl, rfl, rfl⟩
  named := fun _ _ _ held => lhotaRegistry_named held
  containing := fun _ _ found => (by cases found)
  nearest := fun _ _ _ _ found => (by cases found)
  streets := by
    intro code street held
    obtain ⟨rfl, rfl⟩ := lhotaRegistry_street held
    exact ⟨rfl, rfl⟩
  streetParts := fun _ _ _ _ found => (by cases found)
  doorsByNumber := by
    intro query door held
    obtain ⟨asked, listed⟩ := List.mem_ite_nil_right.mp held
    rw [List.mem_singleton.mp listed]
    exact asked.1.symm
  doors := by
    intro door held
    rw [lhotaRegistry_door held]
    rfl
  doorStreet := by
    intro door uliceKod held own
    rw [lhotaRegistry_door held] at own ⊢
    cases own
    exact ⟨naPoli, List.mem_singleton_self _, rfl⟩
  doorPart := by
    intro door unitId held own
    rw [lhotaRegistry_door held] at own
    cases own

def plainText : Text where
  matchKey := id
  caseFold := id
  deaccent := id
  splitGlue := id
  strip := id
  lower := id
  upper := id
  isSpace := fun letter => letter == ' '
  isDecimal := fun letter => letter.isDigit
  isAlpha := fun _ => false
  asInt := fun value => if value = "100" then some 100 else none
  digits := fun value => if value = "7" then some 7 else none
  houseNumber := fun value => { cisloDomovni := some value }
  splitStreetAndNumber := fun value => (value, {})
  splitStreetType := fun value => (value, none)
  stripStreetGeneric := id
  foldAbbreviations := id
  splitQualifier := id
  localityTokens := fun value => [value]
  rejectedCountryEvidence := fun _ => false

def lhotaContext : ResolverContext where
  registry := lhotaRegistry
  text := plainText
  haversineM := fun _ _ => 0

def townClaim : Claim where
  id := 1
  listingId := 9
  source := "sreality"
  claimType := .obecName
  valueText := some "dolni lhota"

def partClaim : Claim where
  id := 2
  listingId := 9
  source := "sreality"
  claimType := .castObceName
  valueText := some "podhaji"

/-- The town the část obce lies in. -/
def partTownClaim : Claim where
  id := 1
  listingId := 9
  source := "sreality"
  claimType := .obecName
  valueText := some "horni lhota"

def doorClaim : Claim where
  id := 3
  listingId := 9
  source := "sreality"
  claimType := .addressPointId
  valueText := some "100"

end SmallRegister

/-! ### The row -/

section Rows

variable {ctx : ResolverContext} {tree : Nat → Option AdminUnit}

/-- A published code and name: neither, or those of a unit of the path at the field's levels. -/
def FieldOn (path : List AdminUnit) (field : Granularity) (code : Option Kod)
    (name : Option String) : Prop :=
  code = none ∧ name = none ∨
    ∃ unit ∈ path, unit.level ∈ fieldLevels field ∧ code = some unit.code ∧ name = some unit.name

/-- A row that answers no place of the register. -/
structure Blank (row : Resolution) : Prop where
  codes : row.krajKod = none ∧ row.okresKod = none ∧ row.obecKod = none ∧
    row.castObceKod = none ∧ row.uliceKod = none ∧ row.ruianAdmKod = none ∧ row.katastrKod = none
  names : row.krajName = none ∧ row.okresName = none ∧ row.obecName = none ∧
    row.castObceName = none ∧ row.streetName = none
  numbers : row.houseNumberCp = none ∧ row.houseNumberCo = none ∧ row.psc = none
  disputed : row.disputed = none
  low : row.matchConfidence = .low

/-- The row says one path of the register, and no more than what BIND bound. -/
structure OnPath (registry : RegistryView) (binding : Binding) (row : Resolution)
    (path : List AdminUnit) : Prop where
  kraj : FieldOn path .kraj row.krajKod row.krajName
  okres : FieldOn path .okres row.okresKod row.okresName
  obec : FieldOn path .obec row.obecKod row.obecName
  castObce : FieldOn path .castObceOrQuarter row.castObceKod row.castObceName
  street : ∀ kod, row.uliceKod = some kod → ∃ obecKod, row.obecKod = some obecKod ∧
    ∃ street ∈ registry.streetsInObec obecKod, street.code = kod
  door : ∀ kod, row.ruianAdmKod = some kod → ∃ door, registry.HasDoor door ∧ door.kodAdm = kod ∧
    row.obecKod = some door.obecKod ∧
      ∀ part, row.castObceKod = some part → door.castObceKod = some part
  addressPoint : row.granularity = .addressPoint →
    binding.targetKind = .addressPoint ∧ row.ruianAdmKod.isSome
  streetGrain : row.granularity = .street → binding.targetKind = .street ∧ row.uliceKod.isSome
  quarter : row.granularity = .castObceOrQuarter → ∃ unit rest,
    binding.adminUnitId = some unit.unitId ∧ path = unit :: rest ∧ unit.level ∈ quarterLevels
  abroad : row.countryStatus ≠ .cz → Blank row

theorem fieldOn_none (path : List AdminUnit) (field : Granularity) : FieldOn path field none none :=
  .inl ⟨rfl, rfl⟩

theorem fieldOn_chain (chain : List AdminUnit) (field : Granularity) :
    FieldOn chain field ((fieldUnit chain field).map AdminUnit.code)
      ((fieldUnit chain field).map AdminUnit.name) := by
  cases found : fieldUnit chain field with
  | none => exact fieldOn_none chain field
  | some unit =>
      unfold fieldUnit at found
      have level := List.find?_some found
      exact .inr ⟨unit, List.mem_of_find?_eq_some found, of_decide_eq_true level, rfl, rfl⟩

/-- What FILL says of a winner, over the winner's chain. -/
structure FilledFrom (registry : RegistryView) (binding : Binding) (filled : Fill)
    (path : List AdminUnit) : Prop where
  kraj : FieldOn path .kraj filled.krajKod filled.krajName
  okres : FieldOn path .okres filled.okresKod filled.okresName
  obec : FieldOn path .obec filled.obecKod filled.obecName
  castObce : FieldOn path .castObceOrQuarter filled.castObceKod filled.castObceName
  street : ∀ kod, filled.uliceKod = some kod → ∃ obecKod, filled.obecKod = some obecKod ∧
    ∃ street ∈ registry.streetsInObec obecKod, street.code = kod
  door : ∀ kod, filled.ruianAdmKod = some kod → ∃ door, registry.HasDoor door ∧
    door.kodAdm = kod ∧ filled.obecKod = some door.obecKod ∧
      ∀ part, filled.castObceKod = some part → door.castObceKod = some part
  addressPoint : binding.granularity = .addressPoint →
    binding.targetKind = .addressPoint ∧ filled.ruianAdmKod.isSome
  streetGrain : binding.granularity = .street →
    binding.targetKind = .street ∧ filled.uliceKod.isSome
  quarter : binding.granularity = .castObceOrQuarter → ∃ unit rest,
    binding.adminUnitId = some unit.unitId ∧ path = unit :: rest ∧ unit.level ∈ quarterLevels

theorem fill_obecKod (binding : Binding) (constraints : Constraints)
    (operator : ClaimType → Option String) (placing : Bool) :
    (fill ctx binding constraints operator placing).obecKod =
      (RegistryView.obecOn (bindingChain ctx binding)).map AdminUnit.code := by
  rw [← fieldUnit_obec]
  rfl

theorem fill_nothing (constraints : Constraints) (operator : ClaimType → Option String)
    (placing : Bool) :
    FilledFrom ctx.registry {} (fill ctx {} constraints operator placing) [] where
  kraj := fieldOn_none [] .kraj
  okres := fieldOn_none [] .okres
  obec := fieldOn_none [] .obec
  castObce := fieldOn_none [] .castObceOrQuarter
  street := fun _ held => (by cases held)
  door := fun _ held => (by cases held)
  addressPoint := fun grain => (by cases grain)
  streetGrain := fun grain => (by cases grain)
  quarter := fun grain => (by cases grain)

theorem GrainOf.coarse {granularity : Granularity} {level : Level}
    (grain : GrainOf granularity level) :
    granularity ≠ .addressPoint ∧ granularity ≠ .street ∧
      (granularity = .castObceOrQuarter → level ∈ quarterLevels) := by
  rcases grain with ⟨rfl, own⟩ | ⟨rfl, _⟩ | ⟨rfl, _⟩ | ⟨rfl, _⟩
  · exact ⟨by decide, by decide, fun _ => own⟩
  · exact ⟨by decide, by decide, fun same => (by cases same)⟩
  · exact ⟨by decide, by decide, fun same => (by cases same)⟩
  · exact ⟨by decide, by decide, fun same => (by cases same)⟩

/-- A charted unit is the head of its own chain. -/
theorem Charted.head {registry : RegistryView} {unit : AdminUnit} (charted : Charted registry unit) :
    ∃ head rest, unit.unitId = head.unitId ∧ registry.adminChain unit.unitId = head :: rest ∧
      head.level = unit.level := by
  obtain ⟨head, rest, chain, same⟩ := charted
  exact ⟨head, rest, same.unitId.symm, chain, same.level⟩

/-- FILL over a winner. -/
theorem fill_winner (consistent : Consistent ctx.registry tree) {named : Bool} {top : Candidate}
    {rest : List Candidate} (binds : Binds ctx.registry top) (constraints : Constraints)
    (operator : ClaimType → Option String) (placing : Bool) :
    FilledFrom ctx.registry (bindingOf ctx named top rest)
      (fill ctx (bindingOf ctx named top rest) constraints operator placing)
      (bindingChain ctx (bindingOf ctx named top rest)) := by
  have town := bindingChain_town consistent named rest binds
  rw [← fill_obecKod (bindingOf ctx named top rest) constraints operator placing] at town
  refine ⟨fieldOn_chain _ .kraj, fieldOn_chain _ .okres, fieldOn_chain _ .obec,
    fieldOn_chain _ .castObceOrQuarter, ?_, ?_, ?_, ?_, ?_⟩
  · intro kod held
    cases binds with
    | @door door _ _ _ _ own =>
        obtain ⟨street, listed, code⟩ := consistent.doorStreet door kod own held
        exact ⟨door.obecKod, town, street, listed, code⟩
    | @street street _ _ _ _ own =>
        cases held
        exact ⟨street.obecKod, town, street, own, rfl⟩
    | unit _ _ => cases held
  · intro kod held
    cases binds with
    | @door door _ _ _ _ own =>
        cases held
        refine ⟨door, own, rfl, town, fun part found => ?_⟩
        obtain ⟨unit, at_, code⟩ := Option.map_eq_some_iff.mp found
        have said := (bindingChain_door consistent named rest own).2 unit at_
        exact said.trans (congrArg some code)
    | street _ => cases held
    | unit _ _ => cases held
  · intro grain
    cases binds with
    | door _ => exact ⟨rfl, rfl⟩
    | street _ => cases grain
    | unit _ own => exact absurd grain own.coarse.1
  · intro grain
    cases binds with
    | door _ => cases grain
    | street _ => exact ⟨rfl, rfl⟩
    | unit _ own => exact absurd grain own.coarse.2.1
  · intro grain
    cases binds with
    | door _ => cases grain
    | street _ => cases grain
    | @unit unit _ _ _ _ _ charted own =>
        obtain ⟨head, others, same, chain, level⟩ := charted.head
        exact ⟨head, others, congrArg some same, chain, level ▸ own.coarse.2.2 grain⟩

section Prepared

variable {prepared : Prepared}

theorem Prepared.verdict_cases (ctx : ResolverContext) (prepared : Prepared) :
    (prepared.verdict ctx).countryStatus ≠ .cz ∧ (prepared.verdict ctx).disputed = none ∧
        (prepared.filled ctx).obecKod = none ∧
        ((prepared.verdict ctx).granularity = some .country ∨
          (prepared.verdict ctx).granularity = some .unknown) ∨
      (prepared.verdict ctx).countryStatus = .cz ∧
        ((prepared.verdict ctx).granularity = some (prepared.graded ctx).granularity ∨
          (prepared.verdict ctx).granularity =
            some (coarserOf (prepared.graded ctx).granularity .obec)) :=
  check_cases _ _ _ _ _ _ _

theorem Prepared.row_abroad (listingId : Nat) (source : String)
    (abroad : (prepared.verdict ctx).countryStatus ≠ .cz)
    (calm : (prepared.verdict ctx).disputed = none) :
    Blank (prepared.row ctx listingId source) := by
  unfold Prepared.row
  simp only [decide_eq_false abroad, Bool.false_eq_true, ↓reduceIte, calm]
  exact ⟨⟨rfl, rfl, rfl, rfl, rfl, rfl, rfl⟩, ⟨rfl, rfl, rfl, rfl, rfl⟩, ⟨rfl, rfl, rfl⟩, rfl, rfl⟩

/-- A Czech row publishes what FILL says. -/
theorem Prepared.row_home (prepared : Prepared) (listingId : Nat) (source : String)
    (home : (prepared.verdict ctx).countryStatus = .cz) :
    (prepared.row ctx listingId source).krajKod = (prepared.filled ctx).krajKod ∧
    (prepared.row ctx listingId source).krajName = (prepared.filled ctx).krajName ∧
    (prepared.row ctx listingId source).okresKod = (prepared.filled ctx).okresKod ∧
    (prepared.row ctx listingId source).okresName = (prepared.filled ctx).okresName ∧
    (prepared.row ctx listingId source).obecKod = (prepared.filled ctx).obecKod ∧
    (prepared.row ctx listingId source).obecName = (prepared.filled ctx).obecName ∧
    (prepared.row ctx listingId source).castObceKod = (prepared.filled ctx).castObceKod ∧
    (prepared.row ctx listingId source).castObceName = (prepared.filled ctx).castObceName ∧
    (prepared.row ctx listingId source).uliceKod = (prepared.filled ctx).uliceKod ∧
    (prepared.row ctx listingId source).ruianAdmKod = (prepared.filled ctx).ruianAdmKod := by
  unfold Prepared.row
  simp only [decide_eq_true home, ↓reduceIte, and_self]

theorem Prepared.row_countryStatus (listingId : Nat) (source : String) :
    (prepared.row ctx listingId source).countryStatus = (prepared.verdict ctx).countryStatus := by
  simp only [Prepared.row]

theorem Prepared.row_granularity (listingId : Nat) (source : String) :
    (prepared.row ctx listingId source).granularity =
      (prepared.verdict ctx).granularity.getD (prepared.graded ctx).granularity := by
  simp only [Prepared.row]

theorem Prepared.graded_granularity :
    (prepared.graded ctx).granularity =
      if (prepared.binding ctx).bound then (prepared.binding ctx).granularity else .unknown := by
  simp only [Prepared.graded, gradeOf]

/-- A grain finer than the obec is the winner's own. -/
theorem Prepared.row_grain (listingId : Nat) (source : String) {fine : Granularity}
    (finer : Granularity.rank .obec < fine.rank)
    (grain : (prepared.row ctx listingId source).granularity = fine) :
    (prepared.verdict ctx).countryStatus = .cz ∧ (prepared.binding ctx).granularity = fine := by
  rw [Prepared.row_granularity] at grain
  have own : (prepared.graded ctx).granularity = fine →
      (prepared.binding ctx).granularity = fine := by
    intro graded
    rw [Prepared.graded_granularity] at graded
    split_ifs at graded
    · exact graded
    · rw [← graded] at finer
      exact absurd finer (by decide)
  have said : ∀ value, (prepared.verdict ctx).granularity = some value → value = fine := by
    intro value granularity
    rw [granularity] at grain
    exact grain
  rcases Prepared.verdict_cases ctx prepared with ⟨_, _, _, country | unknown⟩ | ⟨home, same⟩
  · cases said .country country
    exact absurd finer (by decide)
  · cases said .unknown unknown
    exact absurd finer (by decide)
  · refine ⟨home, own ?_⟩
    rcases same with same | coarser
    · exact said _ same
    · exact coarserOf_obec (said _ coarser) finer

/-- The row of a filled winner. -/
theorem Prepared.row_onPath (listingId : Nat) (source : String) {path : List AdminUnit}
    (filled : FilledFrom ctx.registry (prepared.binding ctx) (prepared.filled ctx) path) :
    OnPath ctx.registry (prepared.binding ctx) (prepared.row ctx listingId source) path := by
  rcases Prepared.verdict_cases ctx prepared with ⟨abroad, calm, _, _⟩ | ⟨home, _⟩
  · have blank := Prepared.row_abroad listingId source abroad calm
    obtain ⟨kraj, okres, obec, castObce, ulice, door, _⟩ := blank.codes
    obtain ⟨krajName, okresName, obecName, castObceName, _⟩ := blank.names
    have coarse : ∀ fine : Granularity, Granularity.rank .obec < fine.rank →
        (prepared.row ctx listingId source).granularity ≠ fine :=
      fun fine finer grain => abroad (Prepared.row_grain listingId source finer grain).1
    refine ⟨.inl ⟨kraj, krajName⟩, .inl ⟨okres, okresName⟩, .inl ⟨obec, obecName⟩,
      .inl ⟨castObce, castObceName⟩, fun kod held => ?_, fun kod held => ?_,
      fun grain => absurd grain (coarse _ (by decide)),
      fun grain => absurd grain (coarse _ (by decide)),
      fun grain => absurd grain (coarse _ (by decide)), fun _ => blank⟩
    · rw [ulice] at held
      cases held
    · rw [door] at held
      cases held
  · obtain ⟨kraj, krajName, okres, okresName, obec, obecName, castObce, castObceName, ulice, door⟩ :=
      Prepared.row_home prepared listingId source home
    constructor
    · rw [kraj, krajName]
      exact filled.kraj
    · rw [okres, okresName]
      exact filled.okres
    · rw [obec, obecName]
      exact filled.obec
    · rw [castObce, castObceName]
      exact filled.castObce
    · rw [ulice, obec]
      exact filled.street
    · rw [door, obec, castObce]
      exact filled.door
    · intro grain
      rw [door]
      exact filled.addressPoint (Prepared.row_grain listingId source (by decide) grain).2
    · intro grain
      rw [ulice]
      exact filled.streetGrain (Prepared.row_grain listingId source (by decide) grain).2
    · intro grain
      exact filled.quarter (Prepared.row_grain listingId source (by decide) grain).2
    · intro abroad
      rw [Prepared.row_countryStatus] at abroad
      exact absurd home abroad

theorem Prepared.towns_sound (consistent : Consistent ctx.registry tree) (prepared : Prepared) :
    (prepared.ladder ctx).towns.Sound ctx (prepared.ground ctx) :=
  constrainingTowns_sound consistent (prepared.ground ctx)

end Prepared

/-- The resolved address is one path of the register. -/
theorem resolve_onePath (consistent : Consistent ctx.registry tree) (claims : List Claim)
    (listingId : Option Nat) (source : Option String) :
    ∃ path, Rooted tree path ∧ OnPath ctx.registry ((prepare ctx claims).binding ctx)
      (resolve ctx claims listingId source) path := by
  refine ⟨bindingChain ctx ((prepare ctx claims).binding ctx),
    bindingChain_rooted consistent _, ?_⟩
  unfold resolve
  apply Prepared.row_onPath
  have cases_ := Ladder.bind_cases consistent
    (Prepared.towns_sound consistent (prepare ctx claims))
  unfold Prepared.filled
  generalize (prepare ctx claims).bound ctx = bound
  unfold Prepared.binding
  rcases cases_ with none_ | ⟨top, rest, won, sound⟩
  · rw [none_]
    exact fill_nothing _ _ _
  · rw [won]
    exact fill_winner consistent sound.binds _ _ _

theorem resolve_onePath_at_naPoli :
    ∃ path, Rooted lhotaTree path ∧
      OnPath lhotaRegistry ((prepare lhotaContext [townClaim, doorClaim]).binding lhotaContext)
        (resolve lhotaContext [townClaim, doorClaim] none none) path :=
  @resolve_onePath lhotaContext _ lhotaRegistry_consistent [townClaim, doorClaim] none none

/-- The bound town is a kept one, unless a registry key, the pin or a region alone chose it, and
a kept town of rung R4 carries the PSČ or lies in reach of the pin. -/
structure Ruled (ctx : ResolverContext) (prepared : Prepared) (row : Resolution) : Prop where
  kept : ∀ rung, (prepared.binding ctx).rung = some rung → rung.unruled = false →
    ∃ town ∈ (prepared.towns ctx).units, row.obecKod = some town.code
  carried : (prepared.towns ctx).rung = .r4 → ∀ town ∈ (prepared.towns ctx).units,
    ∀ psc, truthy (prepared.ground ctx).constraints.psc = some psc →
      carries ctx psc (some town) town.code = true ∨
        reaches ctx town (prepared.ground ctx).constraints.pin = true
  reached : (prepared.towns ctx).rung = .r4 → prepared.declared.precise = true →
    ∀ town ∈ (prepared.towns ctx).units,
      (∃ psc, truthy (prepared.ground ctx).constraints.psc = some psc ∧
        carries ctx psc (some town) town.code = true) ∨
        reaches ctx town (prepared.ground ctx).constraints.pin = true

/-- The pin a town is tried against, where it is worth more than the name. -/
theorem Ground.reach_pin {ground : Ground}
    (worth : (truthy ground.constraints.psc).isSome ∨ ground.pinIsPrecise = true) :
    ground.reach = ground.constraints.pin :=
  if_pos worth

theorem Prepared.towns_carried (consistent : Consistent ctx.registry tree) (prepared : Prepared)
    (rung : (prepared.towns ctx).rung = .r4) {town : AdminUnit}
    (held : town ∈ (prepared.towns ctx).units) {psc : String}
    (given : truthy (prepared.ground ctx).constraints.psc = some psc) :
    carries ctx psc (some town) town.code = true ∨
      reaches ctx town (prepared.ground ctx).constraints.pin = true := by
  rcases (Prepared.towns_sound consistent prepared).vouched rung town held with
    ⟨other, named, carried⟩ | near
  · rw [given] at named
    cases named
    exact .inl carried
  · rw [Ground.reach_pin (.inl (by rw [given]; rfl))] at near
    exact .inr near

theorem Prepared.towns_reached (consistent : Consistent ctx.registry tree) (prepared : Prepared)
    (rung : (prepared.towns ctx).rung = .r4) (precise : prepared.declared.precise = true)
    {town : AdminUnit} (held : town ∈ (prepared.towns ctx).units) :
    (∃ psc, truthy (prepared.ground ctx).constraints.psc = some psc ∧
      carries ctx psc (some town) town.code = true) ∨
      reaches ctx town (prepared.ground ctx).constraints.pin = true := by
  rcases (Prepared.towns_sound consistent prepared).vouched rung town held with carried | near
  · exact .inl carried
  · rw [Ground.reach_pin (.inr precise)] at near
    exact .inr near

/-- A bound town makes the row Czech. -/
theorem Prepared.row_town (prepared : Prepared) (listingId : Nat) (source : String) {code : Kod}
    (filled : (prepared.filled ctx).obecKod = some code) :
    (prepared.row ctx listingId source).obecKod = some code := by
  rcases Prepared.verdict_cases ctx prepared with ⟨_, _, none_, _⟩ | ⟨home, _⟩
  · rw [none_] at filled
    cases filled
  · obtain ⟨_, _, _, _, obec, _⟩ := Prepared.row_home prepared listingId source home
    exact obec.trans filled

/-- The town rule holds of every claim set none of whose claimed parts strays. -/
theorem resolve_ruled (consistent : Consistent ctx.registry tree) (claims : List Claim)
    (listingId : Option Nat) (source : Option String)
    (clean : NoStray ctx ((prepare ctx claims).ground ctx).constraints
      ((prepare ctx claims).towns ctx)) :
    Ruled ctx (prepare ctx claims) (resolve ctx claims listingId source) := by
  refine ⟨fun rung won ruled => ?_,
    fun four town held psc given => Prepared.towns_carried consistent _ four held given,
    fun four precise town held => Prepared.towns_reached consistent _ four precise held⟩
  unfold resolve
  dsimp only
  generalize prepare ctx claims = prepared at won clean ⊢
  rcases Ladder.bind_cases consistent (Prepared.towns_sound consistent prepared) with
    none_ | ⟨top, rest, bound, sound⟩
  · have nothing : (prepared.binding ctx).rung = none := congrArg Binding.rung none_
    rw [nothing] at won
    cases won
  · have same : prepared.binding ctx = bindingOf ctx (prepared.ladder ctx).towns.named top rest :=
      bound
    have topRung : top.rung = rung := by
      rw [same] at won
      exact Option.some.inj won
    obtain ⟨town, units, kod⟩ := sound.kept clean (topRung ▸ ruled)
    refine ⟨town, units, Prepared.row_town prepared _ _ ?_⟩
    unfold Prepared.filled
    rw [fill_obecKod, same, bindingChain_town consistent _ rest sound.binds]
    exact kod

theorem horniLhota_clean :
    let prepared := prepare lhotaContext [partTownClaim, partClaim]
    NoStray lhotaContext (prepared.ground lhotaContext).constraints
      (prepared.towns lhotaContext) := by
  intro prepared _ key named unit listed _
  have keys : (prepared.ground lhotaContext).constraints.castObceKeys = ["podhaji"] := by
    decide +kernel
  have towns : (prepared.towns lhotaContext).units.map AdminUnit.code = [2] := by decide +kernel
  rw [keys, List.mem_singleton] at named
  subst named
  have found : (lhotaRegistry.adminUnitsByName "podhaji" quarterLevels).map AdminUnit.unitId =
      [4] := by decide +kernel
  have fourth := List.mem_map_of_mem (f := AdminUnit.unitId) listed
  rw [show lhotaContext.registry = lhotaRegistry from rfl, found, List.mem_singleton] at fourth
  obtain ⟨town, held, two⟩ := List.mem_map.mp (towns ▸ List.mem_singleton.mpr rfl :
    2 ∈ (prepared.towns lhotaContext).units.map AdminUnit.code)
  refine ⟨town, held, ?_⟩
  rw [two, fourth]
  decide

theorem resolve_ruled_at_horniLhota :
    Ruled lhotaContext (prepare lhotaContext [partTownClaim, partClaim])
        (resolve lhotaContext [partTownClaim, partClaim] none none) ∧
      (resolve lhotaContext [partTownClaim, partClaim] none none).obecKod = some 2 ∧
      (resolve lhotaContext [partTownClaim, partClaim] none none).castObceKod = some 21 :=
  ⟨@resolve_ruled lhotaContext _ lhotaRegistry_consistent [partTownClaim, partClaim] none none
    horniLhota_clean, by decide +kernel, by decide +kernel⟩

/-- A claimed part of the other town wins where its name row leaves its obec out. -/
theorem stray_part_binds_another_town :
    Consistent lhotaRegistry lhotaTree ∧
      ¬ Ruled lhotaContext (prepare lhotaContext [townClaim, partClaim])
        (resolve lhotaContext [townClaim, partClaim] none none) := by
  refine ⟨lhotaRegistry_consistent, fun ruled => ?_⟩
  obtain ⟨town, held, kod⟩ := ruled.kept .r4 (by decide +kernel) rfl
  have published : (resolve lhotaContext [townClaim, partClaim] none none).obecKod = some 2 := by
    decide +kernel
  have kept : ((prepare lhotaContext [townClaim, partClaim]).towns lhotaContext).units.map
      AdminUnit.code = [1] := by decide +kernel
  have among := List.mem_map_of_mem (f := AdminUnit.code) held
  rw [kept] at among
  rw [published] at kod
  have same := (Option.some.inj kod).trans (List.mem_singleton.mp among)
  cases same

end Rows

end Sreality.LocationData