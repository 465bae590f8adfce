import Sreality.Toolkit.PropertyIdentityProperties

/-! The ledger describes every table a run of the writers reaches: each call keeps the
invariant of `PropertyIdentityProperties`, and the invariant says what a reader of the
ledger relies on. -/

set_option autoImplicit false

namespace Sreality.Toolkit

open Sreality.Foundation

namespace Identity

/-! ### The split -/

section Split

variable {state next : Identity}

theorem mergeLetterSets_sound {groups : Char → GroupId} {decidedBy reason : String}
    {sets : List (Char × List Nat)} :
    ∀ {state : Identity}, state.Sound →
      sets.foldlM (fun (next : Identity) set =>
        next.mergePropertySet set.2 .operator reason (groups set.1) (some decidedBy)) state =
          .ok next → next.Sound := by
  induction sets with
  | nil =>
      intro state sound merged
      obtain rfl : state = next := Except.ok.inj merged
      exact sound
  | cons set rest ih =>
      intro state sound merged
      rw [List.foldlM_cons] at merged
      cases first : state.mergePropertySet set.2 .operator reason (groups set.1)
          (some decidedBy) with
      | error refusal =>
          rw [first] at merged
          exact absurd merged (by simp [bind, Except.bind])
      | ok middle =>
          rw [first] at merged
          exact ih (mergePropertySet_sound sound first) merged

/-- A split is one detach and the merges that join its letters. -/
theorem splitProperty_cases {call : SplitCall}
    (done : state.splitProperty call = .ok next) :
    ∃ (movers named : List Nat) (detached : Identity) (answers : List Detached)
      (statement : Letters),
      state.detachListings movers none named call.births = some (detached, answers) ∧
        detached.mergeLetters statement call.groups call.decidedBy "operator_split" = .ok next := by
  unfold splitProperty at done
  cases letters : statementLetters call.letters with
  | error refusal => simp [letters, bind, Except.bind] at done
  | ok letters' =>
      cases resolved : state.resolveActive call.property with
      | none => simp [letters, resolved, bind, Except.bind] at done
      | some record =>
          cases checked : state.checkAds record letters' with
          | error refusal => simp [letters, resolved, checked, bind, Except.bind] at done
          | ok _ =>
              cases landed : state.letterLandings record call.canonical letters' with
              | none => simp [letters, resolved, checked, landed, bind, Except.bind] at done
              | some landings =>
                  simp only [letters, resolved, checked, landed, bind, Except.bind] at done
                  split_ifs at done with stale
                  split at done
                  · exact absurd done (by simp)
                  · next detached answers took =>
                      split_ifs at done with stuck
                      split at done
                      · exact absurd done (by simp)
                      · next statement joined =>
                          split at done
                          · next merged ended =>
                              obtain rfl := Except.ok.inj done
                              exact ⟨_, _, detached, answers, statement, took, ended⟩
                          · exact absurd done (by simp)

theorem splitProperty_sound (sound : state.Sound) {call : SplitCall}
    (done : state.splitProperty call = .ok next) : next.Sound := by
  obtain ⟨_, _, _, _, _, took, joined⟩ := splitProperty_cases done
  exact mergeLetterSets_sound (detachListings_sound sound took).1 joined

end Split

/-! ### Runs -/

section Runs

variable {state : Identity}

theorem Initial.sound (initial : state.Initial) : state.Sound where
  ascending := by simp [initial.empty]
  recent := by simp [initial.empty]
  placed := by
    intro listing known
    obtain ⟨property, row, here, held⟩ := initial.housed listing known
    exact ⟨property, here, isActive_iff.mpr ⟨row, held, (initial.active property row held).1⟩⟩
  grounded := fun property row known =>
    .active (isActive_iff.mpr ⟨row, known, (initial.active property row known).1⟩)
  rooted := fun property row known _ => (initial.active property row known).2
  bounded := initial.sequence
  chained := by
    intro listing _
    unfold liveMoves
    rw [initial.empty]
    exact ⟨.nil, fun _ held => absurd held (by simp)⟩

/-- Every call keeps the invariant. -/
theorem Sound.apply (sound : state.Sound) (call : Call) : (state.apply call).Sound := by
  cases call with
  | merge call =>
      unfold Identity.apply
      dsimp only
      split
      · next merged => exact mergePropertySet_sound sound merged
      · exact sound
  | detach call =>
      unfold Identity.apply
      dsimp only
      split
      · next detached => exact (detachListings_sound sound detached).1
      · exact sound
  | split call =>
      unfold Identity.apply
      dsimp only
      split
      · next done => exact splitProperty_sound sound done
      · exact sound

theorem Sound.run (calls : List Call) : ∀ {state : Identity}, state.Sound →
    (state.run calls).Sound := by
  induction calls with
  | nil => exact fun sound => sound
  | cons call rest ih => exact fun sound => ih (sound.apply call)

end Runs

/-! ### What the invariant says -/

section Described

variable {state : Identity}

theorem not_pointsTo_of_active (sound : state.Sound) {property : Nat}
    (active : state.isActive property = true) (target : Nat) : ¬state.PointsTo property target := by
  rintro ⟨row, known, pointer⟩
  obtain ⟨other, found, status⟩ := isActive_iff.mp active
  obtain rfl := Option.some.inj (known.symm.trans found)
  rw [sound.rooted property row known status] at pointer
  exact absurd pointer (by simp)

theorem Grounded.settles (sound : state.Sound) {property : Nat}
    (grounded : state.Grounded property) :
    ∃ last, Relation.ReflTransGen state.PointsTo property last ∧ state.isActive last = true ∧
      ∀ target, ¬state.PointsTo last target := by
  induction grounded with
  | active standing => exact ⟨_, .refl, standing, not_pointsTo_of_active sound standing⟩
  | away known pointer _ ih =>
      obtain ⟨last, chain, rest⟩ := ih
      exact ⟨last, chain.head ⟨_, known, pointer⟩, rest⟩

/-- A cycle through a property is one through the property it points to. -/
theorem Grounded.acyclic (sound : state.Sound) {property : Nat}
    (grounded : state.Grounded property) :
    ¬Relation.TransGen state.PointsTo property property := by
  induction grounded with
  | active standing =>
      intro cycle
      obtain ⟨next, step, _⟩ := Relation.TransGen.head'_iff.mp cycle
      exact not_pointsTo_of_active sound standing next step
  | @away property target row known pointer _ ih =>
      intro cycle
      obtain ⟨next, ⟨other, found, pointed⟩, back⟩ := Relation.TransGen.head'_iff.mp cycle
      obtain rfl := Option.some.inj (known.symm.trans found)
      obtain rfl := Option.some.inj (pointer.symm.trans pointed)
      exact ih (Relation.TransGen.tail' back ⟨row, known, pointer⟩)

theorem Sound.described (sound : state.Sound) : state.Described where
  placed := sound.placed
  acyclic := by
    intro property cycle
    obtain ⟨_, ⟨row, known, _⟩, _⟩ := Relation.TransGen.head'_iff.mp cycle
    exact (sound.grounded property row known).acyclic sound cycle
  settled := fun property row known => (sound.grounded property row known).settles sound
  chained := by
    intro listing known
    refine ⟨?_, sound.chained listing known⟩
    exact sound.ascending.sublist (List.filter_sublist.map _)
  uncontended := fun _ _ _ detached => (detachListings_sound sound detached).2

end Described

/-- In every state a run reaches, each advert sits on an active property, merge pointers end
in active properties without a cycle, and live ledger rows lead to where their adverts sit. -/
theorem ledger_describes_places {state : Identity} (initial : state.Initial) (calls : List Call) :
    (state.run calls).Described :=
  (initial.sound.run calls).described

/-- Three adverts, each on a property of its own. -/
def threeHomes : Identity where
  adverts := [{ listing := 1 }, { listing := 2 }, { listing := 3 }]
  distinct := by decide
  place := fun listing => if listing ∈ [1, 2, 3] then some listing else none
  property := fun property => if property ∈ [1, 2, 3] then some {} else none
  ledger := []
  nextProperty := 4
  nextEvent := 1

theorem threeHomes_initial : threeHomes.Initial where
  active := by
    intro property row known
    unfold threeHomes at known
    dsimp only at known
    split_ifs at known
    obtain rfl := Option.some.inj known
    exact ⟨rfl, rfl⟩
  housed := by
    intro listing known
    have listed : listing ∈ [1, 2, 3] := by
      obtain ⟨advert, held, rfl⟩ := knows_iff.mp known
      exact List.mem_map.mpr ⟨advert, held, rfl⟩
    exact ⟨listing, {}, if_pos listed, if_pos listed⟩
  empty := rfl
  sequence := by
    intro property fresh
    refine if_neg fun listed => ?_
    change 4 ≤ property at fresh
    simp only [List.mem_cons, List.not_mem_nil, or_false] at listed
    omega

def joinHomes (homes : List Nat) (group : GroupId) : MergeCall where
  propertyIds := homes
  source := .auto
  reason := "street_disposition_v1"
  group := group
  decidedBy := none

def takeOff (listing : Nat) (group : Option GroupId) : Call :=
  .detach { listingIds := [listing], group := group, births := fun _ => 9 }

theorem ledger_describes_places_at_threeHomes :
    (threeHomes.run [.merge (joinHomes [2, 3] 1), .merge (joinHomes [1, 2] 2),
      takeOff 3 (some 2), takeOff 3 none]).Described :=
  ledger_describes_places threeHomes_initial _

/-- The full detach takes the advert past both of its merges, a group's past that one. -/
example :
    let joined := threeHomes.run [.merge (joinHomes [2, 3] 1), .merge (joinHomes [1, 2] 2)]
    ((joined.apply (takeOff 3 none)).place 3, (joined.apply (takeOff 3 (some 2))).place 3) =
      (some 3, some 2) := by
  decide +kernel

end Identity

end Sreality.Toolkit
