import Sreality.Toolkit.PropertyLedgerProperties

/-! Whether an active property is left without adverts. A merge never leaves one so, nor does a
native advert's detach; an advert sent home may have been the last one where it sat. -/

set_option autoImplicit false

namespace Sreality.Toolkit.Identity

open Sreality.Foundation

variable {state next : Identity}

/-- Every active property holds an advert. -/
def Housed (state : Identity) : Prop :=
  ∀ property, state.isActive property = true →
    ∃ listing, state.knows listing = true ∧ state.place listing = some property

/-- Every active property holds an advert no live ledger row moved there. -/
def Owned (state : Identity) : Prop :=
  ∀ property, state.isActive property = true →
    ∃ listing, state.knows listing = true ∧ state.place listing = some property ∧
      state.liveMoves listing = []

theorem Owned.housed (owned : state.Owned) : state.Housed := by
  intro property standing
  obtain ⟨listing, known, placed, _⟩ := owned property standing
  exact ⟨listing, known, placed⟩

/-- Another advert on the same property. -/
def Accompanied (state : Identity) (listing : Nat) : Prop :=
  ∃ other, state.knows other = true ∧ other ≠ listing ∧ state.place other = state.place listing

/-- The plan sends the advert to its origin, which stands or waits for it. -/
def SentHome (state : Identity) (listing : Nat) (group : Option GroupId) : Prop :=
  ∃ plan, state.planDetach listing group = some plan ∧ plan.outcome = .detached ∧
    originGone (plan.target.bind state.property) plan.undo = false

/-! ### Merges -/

theorem Merged.housed {group : GroupId} {survivor retired : Nat} {reason : LedgerReason}
    (merged : Merged group survivor retired reason state next) (housed : state.Housed)
    (differ : survivor ≠ retired) : next.Housed := by
  intro property standing
  have other : property ≠ retired := by
    rintro rfl
    obtain ⟨row, known, active⟩ := isActive_iff.mp standing
    rw [merged.property, if_pos rfl] at known
    obtain ⟨_, _, rfl⟩ := Option.map_eq_some_iff.mp known
    cases active
  obtain ⟨listing, known, placed⟩ := housed property ((merged.isActive other).symm.trans standing)
  refine ⟨listing, (merged.knows listing).trans known, ?_⟩
  rw [merged.place, placed, if_neg fun same => other (Option.some.inj same)]

theorem mergeSteps_housed {group : GroupId} {survivor : Nat} {reason : LedgerReason}
    {retired : List Nat} :
    ∀ {state : Identity}, state.Ordered → state.Housed → (∀ property ∈ retired, property ≠ survivor) →
      (retired.foldl (mergePair group survivor reason) state).Housed := by
  induction retired with
  | nil => exact fun _ housed _ => housed
  | cons first rest ih =>
      intro state ordered housed apart
      have merged := mergePair_merged ordered group survivor first reason
      exact ih merged.ordered (merged.housed housed (apart first List.mem_cons_self).symm)
        fun property listed => apart property (List.mem_cons_of_mem _ listed)

theorem Housed.congr (housed : state.Housed) (adverts : next.adverts = state.adverts)
    (place : next.place = state.place)
    (same : ∀ property, next.standing property = state.standing property) : next.Housed := by
  intro property standing
  obtain ⟨listing, known, placed⟩ := housed property ((isActive_congr same property).symm.trans standing)
  refine ⟨listing, ?_, by rw [place, placed]⟩
  unfold Identity.knows at known ⊢
  rwa [adverts]

theorem mergePropertySet_housed (sound : state.Sound) (housed : state.Housed)
    {propertyIds : List Nat} {source : MergeSource} {reason : String} {group : GroupId}
    {decidedBy : Option String}
    (merged : state.mergePropertySet propertyIds source reason group decidedBy = .ok next) :
    next.Housed := by
  obtain ⟨survivor, retired, chosen, rfl⟩ := mergePropertySet_cases merged
  have apart : ∀ property ∈ retired, property ≠ survivor :=
    fun property listed => (((mergeMembers_members chosen).mem_retired property).mp listed).2
  exact (mergeSteps_housed sound.toOrdered housed apart).congr rfl rfl
    (standing_propertiesChanged _)

/-! ### One advert's turn -/

/-- What the turn of an advert no caller names does. -/
inductive Turn (listing : Nat) (group : Option GroupId) (state next : Identity) : Prop where
  | stayed (same : next = state) (idle : ¬state.SentHome listing group)
  | born {target : Nat} {kept : List LedgerRow} (moved : Moved listing target kept state next)
      (company : state.Accompanied listing) (idle : ¬state.SentHome listing group)
  | home {target : Nat} {kept : List LedgerRow} (moved : Moved listing target kept state next)
      (apart : state.place listing ≠ some target) (sent : state.SentHome listing group)

theorem size_of_splitNative {current : Option Nat} {moves : List LedgerRow} {size : Nat × Nat}
    (native : (detachPlan current moves none size).outcome = .splitNative) :
    moves = [] ∧ 2 ≤ size.1 := by
  unfold detachPlan at native
  cases ends : moves.getLast? with
  | none =>
      obtain rfl := List.getLast?_eq_none_iff.mp ends
      dsimp only [List.head?_nil, List.getLast?_nil] at native
      refine ⟨rfl, ?_⟩
      split_ifs at native with few own
      · simp [stays] at native
      · simp [stays] at native
      · by_contra small
        exact few (by simp; omega)
  | some last =>
      obtain ⟨first, rest, rfl⟩ : ∃ first rest, moves = first :: rest :=
        List.exists_cons_of_ne_nil fun empty => by simp [empty] at ends
      rw [ends] at native
      dsimp only [List.head?_cons] at native
      split_ifs at native
      all_goals simp [stays] at native

/-- A detached advert goes elsewhere. -/
theorem target_ne_of_detached {current : Option Nat} {moves : List LedgerRow}
    {group : Option GroupId} {size : Nat × Nat}
    (detached : (detachPlan current moves group size).outcome = .detached) :
    (detachPlan current moves group size).target ≠ current := by
  unfold detachPlan at detached ⊢
  cases ends : moves.getLast? with
  | none =>
      obtain rfl := List.getLast?_eq_none_iff.mp ends
      dsimp only [List.head?_nil, List.getLast?_nil] at detached
      split_ifs at detached
      all_goals simp [stays] at detached
  | some last =>
      obtain ⟨first, rest, rfl⟩ : ∃ first rest, moves = first :: rest :=
        List.exists_cons_of_ne_nil fun empty => by simp [empty] at ends
      rw [ends] at detached
      dsimp only [List.head?_cons] at detached ⊢
      cases group with
      | none =>
          dsimp only at detached ⊢
          split_ifs at detached ⊢ with since home
          · simp [stays] at detached
          · simp [stays] at detached
          · exact home
      | some asked =>
          dsimp only at detached ⊢
          split_ifs at detached ⊢ with other live since home
          · simp [stays] at detached
          · simp [stays] at detached
          · simp [stays] at detached
          · simp [stays] at detached
          · exact home

/-- A native advert leaves only while another stays. -/
theorem accompanied_of_splitNative {listing current : Nat} {plan : DetachPlan}
    (here : state.place listing = some current)
    (planned : state.planDetach listing none = some plan) (native : plan.outcome = .splitNative) :
    state.Accompanied listing := by
  have several : 2 ≤ (state.advertsOn current).length := by
    unfold planDetach at planned
    split_ifs at planned with known
    dsimp only at planned
    cases planned
    obtain ⟨empty, many⟩ := size_of_splitNative native
    rw [here, empty] at many
    exact many
  have distinct : (state.advertsOn current).Nodup :=
    nodup_sortedBy.mpr (state.distinct.sublist ((List.filter_sublist).map _))
  obtain ⟨other, listed, differ⟩ : ∃ other ∈ state.advertsOn current, other ≠ listing := by
    by_contra alone
    push Not at alone
    have few : (state.advertsOn current).length ≤ [listing].length :=
      (distinct.subperm fun other held => List.mem_singleton.mpr (alone other held)).length_le
    simp only [List.length_singleton] at few
    omega
  obtain ⟨advert, member, rfl⟩ := List.mem_map.mp (mem_sortedBy.mp listed)
  obtain ⟨held, placed⟩ := mem_membersOf.mp member
  exact ⟨advert.listing, knows_iff.mpr ⟨advert, held, rfl⟩, differ, placed.trans here.symm⟩

theorem detachOne_turn (sound : state.Sound) {listing : Nat} {group : Option GroupId}
    {birthGroup : GroupId} (known : state.knows listing = true) :
    Turn listing group state
      (state.detachOne listing (state.place listing) group false birthGroup).1 := by
  obtain ⟨current, here, _⟩ := sound.placed listing known
  obtain ⟨size, planned⟩ := planDetach_some known group
  obtain ⟨place, cases⟩ := @detachPlan_cases _ _ group size (sound.chained listing known)
  generalize shape : detachPlan (state.place listing) (state.liveMoves listing) group size = plan
    at planned place cases
  have sits : plan.current = some current := place.trans here
  have unsent : plan.outcome ≠ .detached → ¬state.SentHome listing group := by
    rintro outcome ⟨other, found, detached, _⟩
    rw [planned] at found
    cases found
    exact outcome detached
  unfold detachOne
  rw [planned, Option.getD_some]
  dsimp only
  rw [if_neg (not_not_intro place), sits]
  dsimp only
  split_ifs with birth detached gone
  · have native : plan.outcome = .splitNative := by simpa using birth
    rcases cases with ⟨still, _⟩ | ⟨_, rfl, _⟩ | ⟨detached, _⟩
    · rw [native] at still
      exact absurd still (by simp [Outcome.moves])
    · obtain ⟨moved, _⟩ := @bear_moved _ sound _ _ false birthGroup known here
        (.inr (by rw [planned, Option.map_some, native]))
      exact .born moved (accompanied_of_splitNative here planned native)
        (unsent (by rw [native]; decide))
    · rw [native] at detached
      exact absurd detached (by simp)
  · refine .stayed rfl ?_
    rintro ⟨other, found, _, stands⟩
    rw [planned] at found
    cases found
    rw [gone] at stands
    cases stands
  · rcases cases with ⟨still, _⟩ | ⟨native, _⟩ | ⟨_, kept, first, target, split, starts, home, goes⟩
    · rw [detached] at still
      exact absurd still (by simp [Outcome.moves])
    · rw [detached] at native
      exact absurd native (by simp)
    · have sent : state.SentHome listing group :=
        ⟨plan, planned, detached, by simpa using gone⟩
      rw [goes, Option.bind_some] at gone
      have linked : state.moveAdvert (some target) listing current =
          some (state.movedTo (some target) listing) := if_pos here
      rw [goes, linked]
      refine .home (homecoming_moved sound known split starts home (by simpa using gone)) ?_ sent
      rw [← goes, ← shape]
      exact (target_ne_of_detached (by rw [shape, detached])).symm
  · exact .stayed rfl (unsent detached)

theorem Moved.housed {listing target : Nat} {kept : List LedgerRow}
    (moved : Moved listing target kept state next) (known : state.knows listing = true)
    (housed : state.Housed) (company : state.Accompanied listing) : next.Housed := by
  intro property standing
  by_cases arrived : property = target
  · exact ⟨listing, (moved.knows listing).trans known, by rw [moved.place, if_pos rfl, arrived]⟩
  · have before : state.isActive property = true := by
      rw [isActive_iff_standing, ← moved.others property arrived, ← isActive_iff_standing]
      exact standing
    obtain ⟨own, ownKnown, placed⟩ := housed property before
    by_cases mine : own = listing
    · obtain ⟨other, otherKnown, differ, beside⟩ := company
      refine ⟨other, (moved.knows other).trans otherKnown, ?_⟩
      rw [moved.place, if_neg differ, beside, ← mine, placed]
    · refine ⟨own, (moved.knows own).trans ownKnown, ?_⟩
      rw [moved.place, if_neg mine, placed]

theorem Moved.accompanied {listing target : Nat} {kept : List LedgerRow}
    (moved : Moved listing target kept state next) (sound : state.Sound)
    (known : state.knows listing = true) (apart : state.place listing ≠ some target)
    (housed : next.Housed) : state.Accompanied listing := by
  obtain ⟨current, here, standing⟩ := sound.placed listing known
  obtain ⟨other, otherKnown, placed⟩ := housed current (moved.isActive standing)
  rw [moved.place] at placed
  split_ifs at placed with same
  · exact absurd (here.trans placed.symm) apart
  · exact ⟨other, (moved.knows other).symm.trans otherKnown, same, placed.trans here.symm⟩

/-- A turn keeps every active property housed exactly when an advert sent home has company. -/
theorem Turn.housed_iff {listing : Nat} {group : Option GroupId}
    (turn : Turn listing group state next) (sound : state.Sound)
    (known : state.knows listing = true) (housed : state.Housed) :
    next.Housed ↔ (state.SentHome listing group → state.Accompanied listing) := by
  cases turn with
  | stayed same idle => exact ⟨fun _ sent => absurd sent idle, fun _ => same ▸ housed⟩
  | born moved company idle =>
      exact ⟨fun _ sent => absurd sent idle, fun _ => moved.housed known housed company⟩
  | home moved apart sent =>
      exact ⟨fun after _ => moved.accompanied sound known apart after,
        fun company => moved.housed known housed (company sent)⟩

/-! ### Runs -/

/-- Each advert of a call that its turn sends home leaves another behind. -/
def LeaveCompany (places : Nat → Option Nat) (group : Option GroupId) (births : Nat → GroupId) :
    Identity → List Nat → Prop
  | _, [] => True
  | state, listing :: rest =>
      (state.SentHome listing group → state.Accompanied listing) ∧
        LeaveCompany places group births
          (state.detachOne listing (places listing) group false (births listing)).1 rest

/-- A merge, or a detach that names no advert for a new record and leaves company behind. -/
def Considerate (state : Identity) : Call → Prop
  | .merge _ => True
  | .detach call =>
      call.named = [] ∧ LeaveCompany state.place call.group call.births state
        call.listingIds.eraseDups
  | .split _ => False

/-- Every call of the run is considerate where it is made. -/
def AllConsiderate : Identity → List Call → Prop
  | _, [] => True
  | state, call :: rest => state.Considerate call ∧ AllConsiderate (state.apply call) rest

theorem detachEach_housed {places : Nat → Option Nat} {group : Option GroupId}
    {births : Nat → GroupId} {listings : List Nat} :
    ∀ {done : Identity × List Detached}, done.1.Sound → done.1.Housed → listings.Nodup →
      (∀ listing ∈ listings, done.1.knows listing = true ∧
        places listing = done.1.place listing) →
      LeaveCompany places group births done.1 listings →
        (listings.foldl (fun (done : Identity × List Detached) listing =>
          ((done.1.detachOne listing (places listing) group (([] : List Nat).contains listing)
              (births listing)).1,
            done.2 ++ [(done.1.detachOne listing (places listing) group
              (([] : List Nat).contains listing) (births listing)).2])) done).1.Housed := by
  induction listings with
  | nil => exact fun _ housed _ _ _ => housed
  | cons listing rest ih =>
      intro done sound housed distinct known company
      obtain ⟨fresh, restDistinct⟩ := List.nodup_cons.mp distinct
      obtain ⟨mine, placed⟩ := known listing List.mem_cons_self
      have turn := @detachOne_turn _ sound _ group (births listing) mine
      rw [← placed] at turn
      have answered := @detachOne_answered _ sound _ _ group false (births listing) mine placed
      obtain ⟨nextSound, adverts, others, _⟩ := answered.sound sound
      refine @ih (_, _) nextSound ((turn.housed_iff sound mine housed).mpr company.1) restDistinct
        ?_ company.2
      intro other listed
      have differ : other ≠ listing := fun same => fresh (same ▸ listed)
      obtain ⟨held, read⟩ := known other (List.mem_cons_of_mem _ listed)
      have still : (done.1.detachOne listing (places listing) group false (births listing)).1.knows
          other = true := by
        unfold Identity.knows at held ⊢
        rw [adverts]
        exact held
      exact ⟨still, read.trans (others other differ).symm⟩

theorem detach_housed (sound : state.Sound) (housed : state.Housed) {call : DetachCall}
    (considerate : state.Considerate (.detach call)) {answers : List Detached}
    (detached : state.detach call = some (next, answers)) : next.Housed := by
  obtain ⟨listingIds, group, named, births⟩ := call
  obtain ⟨plain, company⟩ := considerate
  dsimp only at plain company
  subst plain
  have known : ∀ listing ∈ listingIds, state.knows listing = true := by
    intro listing listed
    by_contra missing
    unfold Identity.detach detachListings at detached
    dsimp only at detached
    rw [if_pos (List.any_eq_true.mpr
      ⟨listing, List.mem_eraseDups.mpr listed, by simpa using missing⟩)] at detached
    cases detached
  obtain ⟨ids, called⟩ := @detachListings_eq state _ group [] births known
  obtain ⟨rfl, rfl⟩ := Prod.mk.inj (Option.some.inj (called.symm.trans detached))
  have each := @detachEach_housed state.place group births listingIds.eraseDups (state, []) sound
    housed (nodup_eraseDups _)
    (fun listing listed => ⟨known listing (List.mem_eraseDups.mp listed), rfl⟩) company
  exact each.congr rfl rfl (standing_propertiesChanged _)

theorem apply_housed (sound : state.Sound) (housed : state.Housed) {call : Call}
    (considerate : state.Considerate call) : (state.apply call).Housed := by
  cases call with
  | merge call =>
      unfold apply
      dsimp only
      cases merged : state.merge call with
      | ok next => exact mergePropertySet_housed sound housed merged
      | error refusal => exact housed
  | detach call =>
      unfold apply
      dsimp only
      cases detached : state.detach call with
      | none => exact housed
      | some answered => exact detach_housed sound housed considerate detached
  | split call => exact considerate.elim

theorem run_housed {calls : List Call} :
    ∀ {state : Identity}, state.Sound → state.Housed → AllConsiderate state calls →
      (state.run calls).Housed := by
  induction calls with
  | nil => exact fun _ housed _ => housed
  | cons call rest ih =>
      intro state sound housed considerate
      exact ih (sound.run [call]) (apply_housed sound housed considerate.1) considerate.2

/-- From any tables the writers reached with every active property owning an advert, a run whose
detaches leave company behind leaves no active property without adverts. -/
theorem no_property_left_without_adverts {state : Identity} (initial : state.Initial)
    (before calls : List Call) (owned : (state.run before).Owned)
    (considerate : AllConsiderate (state.run before) calls) :
    ∀ property, ((state.run before).run calls).isActive property = true →
      ∃ listing, ((state.run before).run calls).knows listing = true ∧
        ((state.run before).run calls).place listing = some property :=
  run_housed (initial.sound.run before) owned.housed considerate

/-! ### An advert taken past a property it brought back -/

theorem threeHomes_owned : threeHomes.Owned := by
  intro property standing
  obtain ⟨row, known, _⟩ := isActive_iff.mp standing
  unfold threeHomes at known
  dsimp only at known
  split_ifs at known with listed
  have advertised : ∀ home ∈ [1, 2, 3], threeHomes.knows home = true := by decide
  exact ⟨property, advertised property listed, if_pos listed, rfl⟩

/-- The last home's advert leaves the one its merges took it to, with the other two there. -/
theorem adverts_kept_at_threeHomes :
    ∃ listing, ((threeHomes.run []).run [.merge (joinHomes [2, 3] 1),
        .merge (joinHomes [1, 2] 2), takeOff 3 (some 2)]).knows listing = true ∧
      ((threeHomes.run []).run [.merge (joinHomes [2, 3] 1), .merge (joinHomes [1, 2] 2),
        takeOff 3 (some 2)]).place listing = some 1 :=
  no_property_left_without_adverts threeHomes_initial []
    [.merge (joinHomes [2, 3] 1), .merge (joinHomes [1, 2] 2), takeOff 3 (some 2)] threeHomes_owned
    ⟨trivial, trivial, ⟨rfl, fun _ => ⟨1, by decide +kernel, by decide, by decide +kernel⟩, trivial⟩,
      trivial⟩ 1 (by decide +kernel)

/-- The middle home comes back with the last one's advert alone, which then goes home. -/
theorem middle_home_left_empty : threeHomes.Initial ∧ threeHomes.Owned ∧
    (threeHomes.run [.merge (joinHomes [2, 3] 1), .merge (joinHomes [1, 2] 2),
      takeOff 3 (some 2), takeOff 3 none]).isActive 2 = true ∧
    ¬∃ listing, (threeHomes.run [.merge (joinHomes [2, 3] 1), .merge (joinHomes [1, 2] 2),
        takeOff 3 (some 2), takeOff 3 none]).knows listing = true ∧
      (threeHomes.run [.merge (joinHomes [2, 3] 1), .merge (joinHomes [1, 2] 2),
        takeOff 3 (some 2), takeOff 3 none]).place listing = some 2 := by
  refine ⟨threeHomes_initial, threeHomes_owned, by decide +kernel, ?_⟩
  rintro ⟨listing, known, placed⟩
  have listed : listing ∈ [1, 2, 3] := by
    obtain ⟨advert, held, rfl⟩ := knows_iff.mp known
    exact List.mem_map.mpr ⟨advert, held, rfl⟩
  have elsewhere : ∀ other ∈ [1, 2, 3], (threeHomes.run [.merge (joinHomes [2, 3] 1),
      .merge (joinHomes [1, 2] 2), takeOff 3 (some 2), takeOff 3 none]).place other ≠ some 2 := by
    decide +kernel
  exact elsewhere listing listed placed

end Sreality.Toolkit.Identity
