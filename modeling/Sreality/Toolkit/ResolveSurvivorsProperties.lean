import Sreality.Toolkit.PropertyLedgerProperties

/-! `resolve_active_property_ids` on every state a run reaches: a chain of merge pointers is
followed to its active end, unless it is longer than the depth guard. -/

set_option autoImplicit false

namespace Sreality.Toolkit.Identity

open Sreality.Foundation

variable {state : Identity}

/-- A number of merge pointers from one property to another. -/
inductive Hops (state : Identity) : Nat → Nat → Nat → Prop where
  | here (property : Nat) : Hops state 0 property property
  | hop {property target last count : Nat} (points : state.PointsTo property target)
      (rest : Hops state count target last) : Hops state (count + 1) property last

theorem hops_of_chain {property last : Nat}
    (chain : Relation.ReflTransGen state.PointsTo property last) :
    ∃ count, Hops state count property last := by
  induction chain using Relation.ReflTransGen.head_induction_on with
  | refl => exact ⟨0, .here last⟩
  | head points _ ih =>
      obtain ⟨count, rest⟩ := ih
      exact ⟨count + 1, .hop points rest⟩

theorem Hops.chain {property last count : Nat} (hops : Hops state count property last) :
    Relation.ReflTransGen state.PointsTo property last := by
  induction hops with
  | here property => exact .refl
  | hop points _ ih => exact .head points ih

theorem PointsTo.unique {property one other : Nat} (first : state.PointsTo property one)
    (second : state.PointsTo property other) : one = other := by
  obtain ⟨row, known, pointer⟩ := first
  obtain ⟨same, alsoKnown, also⟩ := second
  obtain rfl := Option.some.inj (known.symm.trans alsoKnown)
  exact Option.some.inj (pointer.symm.trans also)

/-- An active property ends its chain. -/
theorem Hops.of_active (sound : state.Sound) {property last count : Nat}
    (standing : state.isActive property = true) (hops : Hops state count property last) :
    count = 0 ∧ last = property := by
  cases hops with
  | here => exact ⟨rfl, rfl⟩
  | hop points _ => exact absurd points (not_pointsTo_of_active sound standing _)

/-- Two chains to active ends are one. -/
theorem Hops.unique (sound : state.Sound) {property one count : Nat}
    (first : Hops state count property one) (standing : state.isActive one = true) :
    ∀ {other more : Nat}, Hops state more property other → state.isActive other = true →
      count = more ∧ one = other := by
  induction first with
  | here property =>
      intro other more second _
      obtain ⟨rfl, rfl⟩ := second.of_active sound standing
      exact ⟨rfl, rfl⟩
  | hop points rest ih =>
      intro other more second ends
      cases second with
      | here => exact absurd points (not_pointsTo_of_active sound ends _)
      | hop also later =>
          obtain rfl := points.unique also
          obtain ⟨rfl, rfl⟩ := ih standing later ends
          exact ⟨rfl, rfl⟩

/-- The end of a chain is the end of what it leads to. -/
theorem Hops.suffix (sound : state.Sound) {property middle last count total : Nat}
    (first : Hops state count property middle) (whole : Hops state total property last)
    (ends : state.isActive last = true) :
    ∃ rest, total = count + rest ∧ Hops state rest middle last := by
  induction first generalizing total with
  | here property => exact ⟨total, (Nat.zero_add _).symm, whole⟩
  | hop points _ ih =>
      cases whole with
      | here => exact absurd points (not_pointsTo_of_active sound ends _)
      | hop also later =>
          obtain rfl := points.unique also
          obtain ⟨rest, rfl, suffix⟩ := ih later
          exact ⟨rest, by omega, suffix⟩

/-- The recursive query finds the active ends within its depth. -/
theorem resolveFrom_eq_some_iff (sound : state.Sound) {fuel : Nat} :
    ∀ {property last : Nat}, state.resolveFrom fuel property = some last ↔
      ∃ count ≤ fuel, Hops state count property last ∧ state.isActive last = true := by
  induction fuel with
  | zero =>
      intro property last
      unfold resolveFrom
      split_ifs with standing
      · constructor
        · rintro ⟨⟩
          exact ⟨0, le_refl _, .here _, standing⟩
        · rintro ⟨_, _, hops, _⟩
          rw [(hops.of_active sound standing).2]
      · constructor
        · rintro ⟨⟩
        · rintro ⟨count, few, hops, ends⟩
          obtain rfl := Nat.le_zero.mp few
          cases hops
          exact absurd ends standing
  | succ fuel ih =>
      intro property last
      unfold resolveFrom
      cases known : state.property property with
      | none =>
          constructor
          · rintro ⟨⟩
          · rintro ⟨_, _, hops, ends⟩
            cases hops with
            | here =>
                obtain ⟨row, found, _⟩ := isActive_iff.mp ends
                rw [known] at found
                cases found
            | hop points _ =>
                obtain ⟨row, found, _⟩ := points
                rw [known] at found
                cases found
      | some row =>
          dsimp only
          split_ifs with status
          · have standing : state.isActive property = true := isActive_iff.mpr ⟨row, known, status⟩
            constructor
            · rintro ⟨⟩
              exact ⟨0, Nat.zero_le _, .here _, standing⟩
            · rintro ⟨_, _, hops, _⟩
              rw [(hops.of_active sound standing).2]
          · constructor
            · intro found
              obtain ⟨target, pointer, later⟩ := Option.bind_eq_some_iff.mp found
              obtain ⟨count, few, hops, ends⟩ := ih.mp later
              exact ⟨count + 1, by omega, .hop ⟨row, known, pointer⟩ hops, ends⟩
            · rintro ⟨_, few, hops, ends⟩
              cases hops with
              | here =>
                  obtain ⟨same, found, active⟩ := isActive_iff.mp ends
                  rw [known] at found
                  cases found
                  exact absurd active status
              | @hop _ target _ count points rest =>
                  obtain ⟨same, found, pointer⟩ := points
                  rw [known] at found
                  cases found
                  exact Option.bind_eq_some_iff.mpr
                    ⟨target, pointer, ih.mpr ⟨count, by omega, rest, ends⟩⟩

/-! ### Every state a run reaches -/

/-- Every property is mapped to the active end of its chain, and what was merged into one property
is mapped alike. -/
structure FollowsMerges (state : Identity) : Prop where
  mapped : ∀ property row, state.property property = some row →
    ∃ last, Relation.ReflTransGen state.PointsTo property last ∧ state.isActive last = true ∧
      state.resolveActive property = some last
  alike : ∀ one other target row, state.property target = some row →
    Relation.ReflTransGen state.PointsTo one target →
      Relation.ReflTransGen state.PointsTo other target →
        state.resolveActive one = state.resolveActive other

/-- No chain of merge pointers is longer than twenty. -/
def Shallow (state : Identity) : Prop :=
  ∀ count property last, Hops state count property last → count ≤ 20

theorem Sound.active_end (sound : state.Sound) {property : Nat} {row : Property}
    (known : state.property property = some row) :
    ∃ count last, Hops state count property last ∧ state.isActive last = true := by
  obtain ⟨last, chain, ends, _⟩ := (sound.grounded property row known).settles sound
  obtain ⟨count, hops⟩ := hops_of_chain chain
  exact ⟨count, last, hops, ends⟩

theorem known_of_hops {count property last : Nat} (hops : Hops state count property last)
    (positive : count ≠ 0) :
    ∃ row, state.property property = some row := by
  cases hops with
  | here => exact absurd rfl positive
  | hop points _ =>
      obtain ⟨row, known, _⟩ := points
      exact ⟨row, known⟩

theorem Sound.followsMerges_iff (sound : state.Sound) : state.FollowsMerges ↔ state.Shallow := by
  constructor
  · intro follows count property last hops
    by_contra deep
    obtain ⟨row, known⟩ := known_of_hops hops (by omega)
    obtain ⟨reached, chain, ends, resolved⟩ := follows.mapped property row known
    obtain ⟨few, shallow, short, _⟩ := (resolveFrom_eq_some_iff sound).mp resolved
    obtain ⟨rest, total, _⟩ := hops.suffix sound short ends
    omega
  · intro shallow
    have resolves : ∀ {count property last : Nat}, Hops state count property last →
        state.isActive last = true → state.resolveActive property = some last :=
      fun hops ends => (resolveFrom_eq_some_iff sound).mpr ⟨_, shallow _ _ _ hops, hops, ends⟩
    constructor
    · intro property row known
      obtain ⟨count, last, hops, ends⟩ := sound.active_end known
      exact ⟨last, hops.chain, ends, resolves hops ends⟩
    · intro one other target row known first second
      obtain ⟨count, last, hops, ends⟩ := sound.active_end known
      obtain ⟨_, oneHops⟩ := hops_of_chain (first.trans hops.chain)
      obtain ⟨_, otherHops⟩ := hops_of_chain (second.trans hops.chain)
      rw [resolves oneHops ends, resolves otherHops ends]

/-- In every state a run of the writers reaches, each property is resolved to the active end of
its chain exactly when no chain is longer than the depth guard. -/
theorem resolve_follows_merges_iff {state : Identity} (initial : state.Initial)
    (calls : List Call) : (state.run calls).FollowsMerges ↔ (state.run calls).Shallow :=
  (initial.sound.run calls).followsMerges_iff

theorem resolve_follows_merges_at_threeHomes :
    (threeHomes.run [.merge (joinHomes [2, 3] 1), .merge (joinHomes [1, 2] 2)]).FollowsMerges ↔
      (threeHomes.run [.merge (joinHomes [2, 3] 1), .merge (joinHomes [1, 2] 2)]).Shallow :=
  resolve_follows_merges_iff threeHomes_initial _

/-! ### A chain past the guard -/

/-- One advert on each of twenty-two properties. -/
def street : Identity where
  adverts := (List.range' 1 22).map fun listing => { listing := listing }
  distinct := by decide
  place := fun listing => if 0 < listing ∧ listing ≤ 22 then some listing else none
  property := fun property => if 0 < property ∧ property ≤ 22 then some {} else none
  ledger := []
  nextProperty := 23
  nextEvent := 1

/-- Each property is merged into the one before it, the last first. -/
def downTheStreet : List Call :=
  (List.range 21).map fun step => .merge (joinHomes [21 - step, 22 - step] (step + 1))

theorem street_initial : street.Initial where
  active := by
    intro property row known
    unfold street at known
    dsimp only at known
    split_ifs at known
    obtain rfl := Option.some.inj known
    exact ⟨rfl, rfl⟩
  housed := by
    intro listing known
    obtain ⟨advert, held, rfl⟩ := knows_iff.mp known
    obtain ⟨listing, listed, rfl⟩ := List.mem_map.mp held
    have inside : 0 < listing ∧ listing ≤ 22 := by
      rw [List.mem_range'_1] at listed
      omega
    exact ⟨listing, {}, if_pos inside, if_pos inside⟩
  empty := rfl
  sequence := by
    intro property fresh
    change 23 ≤ property at fresh
    exact if_neg (by omega)

/-- The last of the street is merged into the first, and not found. -/
theorem street_lost_past_the_guard : street.Initial ∧
    ((street.run downTheStreet).property 22).isSome = true ∧
      (street.run downTheStreet).resolveActive 22 = none ∧
        ¬(street.run downTheStreet).FollowsMerges := by
  have unresolved : (street.run downTheStreet).resolveActive 22 = none := by decide +kernel
  have known : ((street.run downTheStreet).property 22).isSome = true := by decide +kernel
  refine ⟨street_initial, known, unresolved, fun follows => ?_⟩
  obtain ⟨row, found⟩ := Option.isSome_iff_exists.mp known
  obtain ⟨last, _, _, resolved⟩ := follows.mapped 22 row found
  rw [unresolved] at resolved
  cases resolved

end Sreality.Toolkit.Identity
