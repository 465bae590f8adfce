import Sreality.Foundation.Tables
import Sreality.Toolkit.PropertyLedger

/-! The merge ledger describes where adverts are. Every writer keeps one invariant:
adverts sit on active properties, retired ones point to where they went, and an
advert's live ledger rows lead, one into the next, to where it sits. -/

set_option autoImplicit false

namespace Sreality.Toolkit

open Sreality.Foundation

/-! ### The invariant -/

namespace Identity

/-- A property's merge pointers lead to an active property. -/
inductive Grounded (state : Identity) : Nat → Prop where
  | active {property : Nat} (standing : state.isActive property = true) : Grounded state property
  | away {property target : Nat} {row : Property} (known : state.property property = some row)
      (pointer : row.mergedInto = some target) (rest : Grounded state target) :
      Grounded state property

/-- The ledger is read in the order of its event ids. -/
structure Ordered (state : Identity) : Prop where
  ascending : (state.ledger.map LedgerRow.event).Pairwise (· < ·)
  recent : ∀ row ∈ state.ledger, row.event < state.nextEvent

/-- What every writer keeps. -/
structure Sound (state : Identity) : Prop extends Ordered state where
  placed : ∀ listing, state.knows listing = true →
    ∃ property, state.place listing = some property ∧ state.isActive property = true
  grounded : ∀ property row, state.property property = some row → state.Grounded property
  rooted : ∀ property row, state.property property = some row → row.status = .active →
    row.mergedInto = none
  bounded : ∀ property, state.nextProperty ≤ property → state.property property = none
  chained : ∀ listing, state.knows listing = true →
    Continuous (state.liveMoves listing) (state.place listing)

section Reads

variable {state : Identity}

theorem isActive_iff {property : Nat} :
    state.isActive property = true ↔
      ∃ row, state.property property = some row ∧ row.status = .active := by
  unfold isActive
  cases state.property property with
  | none => simp
  | some row => simp

theorem knows_iff {listing : Nat} :
    state.knows listing = true ↔ ∃ advert ∈ state.adverts, advert.listing = listing := by
  simp [knows]

theorem mem_membersOf {property : Nat} {advert : Advert} :
    advert ∈ state.membersOf property ↔
      advert ∈ state.adverts ∧ state.place advert.listing = some property := by
  simp [membersOf]

theorem mem_liveMoves {listing : Nat} {row : LedgerRow} :
    row ∈ state.liveMoves listing ↔
      row ∈ state.ledger ∧ row.listing = listing ∧ row.undone = false := by
  simp [liveMoves]

theorem Ordered.event_inj (ordered : state.Ordered) {left right : LedgerRow}
    (leftListed : left ∈ state.ledger) (rightListed : right ∈ state.ledger)
    (same : left.event = right.event) : left = right :=
  List.inj_on_of_nodup_map (ordered.ascending.imp ne_of_lt) leftListed rightListed same

end Reads

/-! ### The primitive writes -/

section Writes

variable {state : Identity}

@[simp] theorem knows_appendRow (row : Nat → LedgerRow) (listing : Nat) :
    (state.appendRow row).knows listing = state.knows listing := rfl

@[simp] theorem place_appendRow (row : Nat → LedgerRow) :
    (state.appendRow row).place = state.place := rfl

@[simp] theorem property_appendRow (row : Nat → LedgerRow) :
    (state.appendRow row).property = state.property := rfl

theorem liveMoves_appendRow (row : Nat → LedgerRow) (listing : Nat) :
    (state.appendRow row).liveMoves listing =
      state.liveMoves listing ++
        if (row state.nextEvent).listing = listing ∧ (row state.nextEvent).undone = false then
          [row state.nextEvent] else [] := by
  unfold liveMoves appendRow
  dsimp only
  rw [List.filter_append]
  congr 1
  by_cases same : (row state.nextEvent).listing = listing <;>
    cases open_ : (row state.nextEvent).undone <;> simp [same, open_]

/-- Marking rows undone takes exactly them out of every advert's live rows. -/
theorem liveMoves_undoRows (events : List Nat) (listing : Nat) :
    (state.undoRows events).liveMoves listing =
      (state.liveMoves listing).filter fun row => row.event ∉ events := by
  unfold liveMoves undoRows
  dsimp only
  induction state.ledger with
  | nil => rfl
  | cons row rest ih =>
      rw [List.map_cons, List.filter_cons, ih]
      by_cases marked : row.event ∈ events <;>
        by_cases mine : row.listing = listing <;>
          cases closed : row.undone <;> simp [marked, mine, closed]

@[simp] theorem place_undoRows (events : List Nat) : (state.undoRows events).place = state.place :=
  rfl

@[simp] theorem property_undoRows (events : List Nat) :
    (state.undoRows events).property = state.property := rfl

@[simp] theorem knows_undoRows (events : List Nat) (listing : Nat) :
    (state.undoRows events).knows listing = state.knows listing := rfl

theorem Ordered.appendRow (ordered : state.Ordered) {row : Nat → LedgerRow}
    (numbered : ∀ event, (row event).event = event) : (state.appendRow row).Ordered where
  ascending := by
    unfold Identity.appendRow
    dsimp only
    rw [List.map_append, List.pairwise_append]
    refine ⟨ordered.ascending, List.pairwise_singleton _ _, ?_⟩
    intro earlier listed later new
    obtain ⟨held, known, rfl⟩ := List.mem_map.mp listed
    rw [List.map_singleton, List.mem_singleton, numbered] at new
    exact new ▸ ordered.recent held known
  recent := by
    intro other listed
    change other.event < state.nextEvent + 1
    rcases List.mem_append.mp listed with earlier | new
    · exact Nat.lt_succ_of_lt (ordered.recent other earlier)
    · rw [List.mem_singleton.mp new, numbered]
      exact Nat.lt_succ_self _

theorem Ordered.undoRows (ordered : state.Ordered) (events : List Nat) :
    (state.undoRows events).Ordered := by
  have sameEvent : ∀ row : LedgerRow,
      (if row.event ∈ events then { row with undone := true } else row).event = row.event := by
    intro row
    split_ifs <;> rfl
  constructor
  · unfold Identity.undoRows
    dsimp only
    rw [List.map_map, show (LedgerRow.event ∘ fun row : LedgerRow =>
      if row.event ∈ events then { row with undone := true } else row) = LedgerRow.event from
        funext sameEvent]
    exact ordered.ascending
  · intro row listed
    obtain ⟨earlier, known, rfl⟩ := List.mem_map.mp listed
    rw [sameEvent]
    exact ordered.recent earlier known

end Writes

/-! ### One merge step -/

section Merge

variable {state : Identity}

/-- The rows appended for a list of adverts: one at the end of each one's live rows. -/
theorem appendRows_spec {group : GroupId} {survivor retired : Nat} {reason : LedgerReason}
    {adverts : List Advert} :
    ∀ {state : Identity}, (adverts.map Advert.listing).Nodup → state.Ordered →
      let next := adverts.foldl (fun next advert =>
        next.appendRow (moveRow group survivor retired reason advert.listing)) state
      next.Ordered ∧ next.adverts = state.adverts ∧ next.place = state.place ∧
        next.property = state.property ∧ next.nextProperty = state.nextProperty ∧
        ∀ listing, ∃ event, next.liveMoves listing = state.liveMoves listing ++
          if listing ∈ adverts.map Advert.listing then
            [moveRow group survivor retired reason listing event] else [] := by
  induction adverts with
  | nil =>
      intro state _ ordered
      exact ⟨ordered, rfl, rfl, rfl, rfl, fun _ => ⟨0, by simp⟩⟩
  | cons advert rest ih =>
      intro state distinct ordered
      rw [List.map_cons, List.nodup_cons] at distinct
      obtain ⟨fresh, restDistinct⟩ := distinct
      have appended : (state.appendRow
          (moveRow group survivor retired reason advert.listing)).Ordered :=
        ordered.appendRow fun _ => rfl
      obtain ⟨nextOrdered, adverts, place, property, newest, rows⟩ := ih restDistinct appended
      refine ⟨nextOrdered, adverts, place, property, newest, fun listing => ?_⟩
      obtain ⟨event, equal⟩ := rows listing
      rw [liveMoves_appendRow] at equal
      by_cases here : advert.listing = listing
      · subst here
        refine ⟨state.nextEvent, ?_⟩
        rw [List.foldl_cons, equal, if_neg fresh]
        simp [moveRow]
      · refine ⟨event, ?_⟩
        rw [List.foldl_cons, equal]
        simp [moveRow, here, Ne.symm here]

/-- What one retired property into a survivor does. -/
structure Merged (group : GroupId) (survivor retired : Nat) (reason : LedgerReason)
    (state next : Identity) : Prop where
  ordered : next.Ordered
  adverts : next.adverts = state.adverts
  nextProperty : next.nextProperty = state.nextProperty
  place : ∀ listing, next.place listing =
    if state.place listing = some retired then some survivor else state.place listing
  property : ∀ property, next.property property =
    if property = retired then
      (state.property property).map fun row =>
        { row with status := .mergedAway, mergedInto := some survivor }
    else state.property property
  rows : ∀ listing, ∃ event, next.liveMoves listing = state.liveMoves listing ++
    if state.knows listing = true ∧ state.place listing = some retired then
      [moveRow group survivor retired reason listing event] else []

theorem mergePair_merged (ordered : state.Ordered) (group : GroupId) (survivor retired : Nat)
    (reason : LedgerReason) :
    Merged group survivor retired reason state
      (mergePair group survivor reason state retired) := by
  have distinct : ((state.membersOf retired).map Advert.listing).Nodup :=
    state.distinct.sublist ((List.filter_sublist).map _)
  obtain ⟨nextOrdered, adverts, place, property, newest, rows⟩ :=
    @appendRows_spec group survivor retired reason _ state distinct ordered
  refine ⟨⟨nextOrdered.ascending, nextOrdered.recent⟩, adverts, newest, ?_, ?_, ?_⟩
  · intro listing
    exact congrFun (congrArg (fun place : Nat → Option Nat => fun listing =>
      if place listing = some retired then some survivor else place listing) place) listing
  · intro other
    exact congrFun (congrArg (fun property : Nat → Option Property => fun other =>
      if other = retired then (property other).map _ else property other) property) other
  · intro listing
    obtain ⟨event, equal⟩ := rows listing
    refine ⟨event, equal.trans ?_⟩
    have held : listing ∈ (state.membersOf retired).map Advert.listing ↔
        state.knows listing = true ∧ state.place listing = some retired := by
      rw [List.mem_map, knows_iff]
      constructor
      · rintro ⟨advert, member, rfl⟩
        obtain ⟨listed, here⟩ := mem_membersOf.mp member
        exact ⟨⟨advert, listed, rfl⟩, here⟩
      · rintro ⟨⟨advert, listed, rfl⟩, here⟩
        exact ⟨advert, mem_membersOf.mpr ⟨listed, here⟩, rfl⟩
    rw [if_congr held rfl rfl]

namespace Merged

variable {group : GroupId} {survivor retired : Nat} {reason : LedgerReason} {next : Identity}

theorem knows (merged : Merged group survivor retired reason state next) (listing : Nat) :
    next.knows listing = state.knows listing := by
  unfold Identity.knows
  rw [merged.adverts]

theorem isActive (merged : Merged group survivor retired reason state next) {property : Nat}
    (other : property ≠ retired) : next.isActive property = state.isActive property := by
  unfold Identity.isActive
  rw [merged.property, if_neg other]

theorem grounded (merged : Merged group survivor retired reason state next)
    (rooted : ∀ property row, state.property property = some row → row.status = .active →
      row.mergedInto = none)
    (standing : state.isActive survivor = true) (retiring : state.isActive retired = true)
    (differ : survivor ≠ retired) {property : Nat} (held : state.Grounded property) :
    next.Grounded property := by
  have keeper : next.Grounded survivor := .active ((merged.isActive differ).trans standing)
  induction held with
  | @active property active =>
      by_cases same : property = retired
      · subst same
        obtain ⟨row, known, _⟩ := isActive_iff.mp active
        have pointed : next.property property =
            some { row with status := .mergedAway, mergedInto := some survivor } := by
          rw [merged.property, if_pos rfl, known, Option.map_some]
        exact .away pointed rfl keeper
      · exact .active ((merged.isActive same).trans active)
  | @away property target row known pointer _ ih =>
      -- A retired property was active, and an active one points nowhere.
      have other : property ≠ retired := by
        rintro rfl
        obtain ⟨active, activeKnown, status⟩ := isActive_iff.mp retiring
        obtain rfl := Option.some.inj (known.symm.trans activeKnown)
        rw [rooted _ _ known status] at pointer
        exact absurd pointer (by simp)
      exact .away (by rw [merged.property, if_neg other]; exact known) pointer ih

theorem sound (merged : Merged group survivor retired reason state next) (held : state.Sound)
    (standing : state.isActive survivor = true) (retiring : state.isActive retired = true)
    (differ : survivor ≠ retired) : next.Sound where
  toOrdered := merged.ordered
  placed := by
    intro listing known
    rw [merged.knows] at known
    obtain ⟨property, placed, active⟩ := held.placed listing known
    rw [merged.place, placed]
    by_cases same : property = retired
    · refine ⟨survivor, by rw [same, if_pos rfl], ?_⟩
      exact (merged.isActive differ).trans standing
    · refine ⟨property, if_neg fun equal => same (Option.some.inj equal), ?_⟩
      exact (merged.isActive same).trans active
  grounded := by
    intro property row known
    refine merged.grounded held.rooted standing retiring differ ?_
    rw [merged.property] at known
    split_ifs at known
    · obtain ⟨earlier, earlierKnown, _⟩ := Option.map_eq_some_iff.mp known
      exact held.grounded property earlier earlierKnown
    · exact held.grounded property row known
  rooted := by
    intro property row known status
    rw [merged.property] at known
    split_ifs at known
    · obtain ⟨earlier, _, rfl⟩ := Option.map_eq_some_iff.mp known
      exact absurd status (by simp)
    · exact held.rooted property row known status
  bounded := by
    intro property fresh
    rw [merged.nextProperty] at fresh
    rw [merged.property, held.bounded property fresh]
    simp
  chained := by
    intro listing known
    rw [merged.knows] at known
    obtain ⟨event, rows⟩ := merged.rows listing
    obtain ⟨chain, ends⟩ := held.chained listing known
    rw [rows, merged.place]
    by_cases here : state.place listing = some retired
    · rw [if_pos ⟨known, here⟩, if_pos here]
      refine ⟨List.isChain_append.mpr ⟨chain, List.isChain_singleton _, ?_⟩, ?_⟩
      · intro last lastHeld row rowHeld
        obtain rfl : moveRow group survivor retired reason listing event = row := by
          simpa using rowHeld
        exact (Option.some.inj (here.symm.trans (ends last lastHeld))).symm
      · intro last lastHeld
        obtain rfl : moveRow group survivor retired reason listing event = last := by
          simpa using lastHeld
        rfl
    · rw [if_neg fun held : _ ∧ _ => here held.2, if_neg here, List.append_nil]
      exact ⟨chain, ends⟩

end Merged

end Merge

/-! ### The rollup -/

section Rollup

variable {state next : Identity}

/-- A property's status and where it was merged into. -/
def standing (state : Identity) (property : Nat) : Option (Status × Option Nat) :=
  (state.property property).map fun row => (row.status, row.mergedInto)

theorem standing_eq_some_iff {property : Nat} {status : Status} {target : Option Nat} :
    state.standing property = some (status, target) ↔
      ∃ row, state.property property = some row ∧ row.status = status ∧
        row.mergedInto = target := by
  simp [standing, Option.map_eq_some_iff]

theorem standing_eq_none_iff {property : Nat} :
    state.standing property = none ↔ state.property property = none := by
  simp [standing]

theorem isActive_iff_standing {property : Nat} :
    state.isActive property = true ↔ ∃ target, state.standing property = some (.active, target) := by
  rw [isActive_iff]
  constructor
  · rintro ⟨row, known, active⟩
    exact ⟨row.mergedInto, standing_eq_some_iff.mpr ⟨row, known, active, rfl⟩⟩
  · rintro ⟨target, known⟩
    obtain ⟨row, found, active, _⟩ := standing_eq_some_iff.mp known
    exact ⟨row, found, active⟩

theorem isActive_congr (same : ∀ property, next.standing property = state.standing property)
    (property : Nat) : next.isActive property = state.isActive property := by
  rw [Bool.eq_iff_iff, isActive_iff_standing, isActive_iff_standing, same]

theorem Grounded.congr (same : ∀ property, next.standing property = state.standing property)
    {property : Nat} (grounded : state.Grounded property) : next.Grounded property := by
  induction grounded with
  | active standing => exact .active ((isActive_congr same _).trans standing)
  | @away property target row known pointer _ ih =>
      have held : next.standing property = some (row.status, some target) := by
        rw [same]
        exact standing_eq_some_iff.mpr ⟨row, known, rfl, pointer⟩
      obtain ⟨other, found, _, pointed⟩ := standing_eq_some_iff.mp held
      exact .away found pointed ih

/-- The invariant reads adverts, places, standings and the ledger alone. -/
theorem Sound.congr (sound : state.Sound) (adverts : next.adverts = state.adverts)
    (place : next.place = state.place)
    (same : ∀ property, next.standing property = state.standing property)
    (newest : next.nextProperty = state.nextProperty) (ledger : next.ledger = state.ledger)
    (event : next.nextEvent = state.nextEvent) : next.Sound := by
  have knows : ∀ listing, next.knows listing = state.knows listing := fun listing => by
    unfold Identity.knows
    rw [adverts]
  refine ⟨⟨ledger ▸ sound.ascending, ?_⟩, ?_, ?_, ?_, ?_, ?_⟩
  · rw [ledger, event]
    exact sound.recent
  · intro listing known
    obtain ⟨property, placed, active⟩ := sound.placed listing ((knows listing).symm.trans known)
    exact ⟨property, place ▸ placed, (isActive_congr same property).trans active⟩
  · intro property row known
    have held := (standing_eq_some_iff.mpr ⟨row, known, rfl, rfl⟩ : next.standing property = _)
    rw [same] at held
    obtain ⟨earlier, found, _⟩ := standing_eq_some_iff.mp held
    exact (sound.grounded property earlier found).congr same
  · intro property row known active
    have held := (standing_eq_some_iff.mpr ⟨row, known, rfl, rfl⟩ : next.standing property = _)
    rw [same] at held
    obtain ⟨earlier, found, status, pointer⟩ := standing_eq_some_iff.mp held
    exact pointer.symm.trans (sound.rooted property earlier found (status.trans active))
  · intro property fresh
    rw [newest] at fresh
    have none_ := standing_eq_none_iff.mpr (sound.bounded property fresh)
    exact standing_eq_none_iff.mp ((same property).trans none_)
  · intro listing known
    have chained := sound.chained listing ((knows listing).symm.trans known)
    unfold liveMoves
    rw [ledger, place]
    exact chained

theorem standing_propertiesChanged (ids : List Nat) (property : Nat) :
    (state.propertiesChanged ids).standing property = state.standing property := by
  have kept : ∀ row, ((state.recomputed property row).status,
      (state.recomputed property row).mergedInto) = (row.status, row.mergedInto) := by
    intro row
    unfold recomputed
    split <;> rfl
  unfold standing propertiesChanged
  dsimp only
  split_ifs
  · rw [Option.map_map]
    exact Option.map_congr fun row _ => kept row
  · rfl

theorem Sound.propertiesChanged (sound : state.Sound) (ids : List Nat) :
    (state.propertiesChanged ids).Sound :=
  sound.congr rfl rfl (standing_propertiesChanged ids) rfl rfl rfl

end Rollup

/-! ### The merge of a set -/

section MergeSet

variable {state : Identity}

/-- The steps of one merge: the survivor stays active, each step retires one more member. -/
theorem mergeSteps_sound {group : GroupId} {survivor : Nat} {reason : LedgerReason}
    {retired : List Nat} :
    ∀ {state : Identity}, state.Sound → state.isActive survivor = true → retired.Nodup →
      (∀ property ∈ retired, property ≠ survivor ∧ state.isActive property = true) →
        (retired.foldl (mergePair group survivor reason) state).Sound ∧
          (retired.foldl (mergePair group survivor reason) state).isActive survivor = true := by
  induction retired with
  | nil => exact fun sound active _ _ => ⟨sound, active⟩
  | cons first rest ih =>
      intro state sound active distinct retiring
      obtain ⟨fresh, restDistinct⟩ := List.nodup_cons.mp distinct
      obtain ⟨differ, firstActive⟩ := retiring first List.mem_cons_self
      have merged := mergePair_merged sound.toOrdered group survivor first reason
      refine ih (merged.sound sound active firstActive differ.symm)
        ((merged.isActive differ.symm).trans active) restDistinct fun property listed => ?_
      obtain ⟨other, otherActive⟩ := retiring property (List.mem_cons_of_mem _ listed)
      have unlike : property ≠ first := fun same => fresh (same ▸ listed)
      exact ⟨other, (merged.isActive unlike).trans otherActive⟩

/-- The members of a merge that is not refused. -/
structure Members (state : Identity) (propertyIds : List Nat) (survivor : Nat)
    (retired : List Nat) : Prop where
  distinct : retired.Nodup
  survives : survivor ∈ propertyIds
  mem_retired : ∀ property, property ∈ retired ↔ property ∈ propertyIds ∧ property ≠ survivor
  active : ∀ property ∈ propertyIds, state.isActive property = true

theorem mergeMembers_members {propertyIds : List Nat} {source : MergeSource}
    {decidedBy : Option String} {survivor : Nat} {retired : List Nat}
    (chosen : state.mergeMembers propertyIds source decidedBy = .ok (survivor, retired)) :
    Members state propertyIds survivor retired := by
  have member : ∀ property, property ∈ sortedIds propertyIds.dedup ↔ property ∈ propertyIds :=
    fun property => by rw [mem_sortedBy, List.mem_dedup]
  unfold mergeMembers at chosen
  dsimp only at chosen
  split_ifs at chosen
  cases gate : state.mergeGate (sortedIds propertyIds.dedup) with
  | error refusal => simp [gate, bind, Except.bind] at chosen
  | ok _ =>
      cases oldest : state.survivorOf (sortedIds propertyIds.dedup) with
      | none => simp [gate, oldest, bind, Except.bind] at chosen
      | some kept =>
          simp only [gate, oldest, bind, Except.bind, Except.ok.injEq] at chosen
          obtain ⟨rfl, rfl⟩ := Prod.mk.inj chosen
          refine ⟨(nodup_sortedBy.mpr (List.nodup_dedup _)).filter _,
            (member kept).mp (mem_sortedBy.mp (List.mem_of_mem_head? oldest)), ?_, ?_⟩
          · intro property
            rw [List.mem_filter, member, decide_eq_true_eq]
          · intro property listed
            by_contra inactive
            have refused : (sortedIds propertyIds.dedup).any
                (fun property => !state.isActive property) = true :=
              List.any_eq_true.mpr ⟨property, (member property).mpr listed, by simpa using inactive⟩
            rw [mergeGate, if_pos refused] at gate
            exact absurd gate (by simp)

/-- What a successful merge of a set did: one step for each member it retired. -/
theorem mergePropertySet_cases {propertyIds : List Nat} {source : MergeSource} {reason : String}
    {group : GroupId} {decidedBy : Option String} {next : Identity}
    (merged : state.mergePropertySet propertyIds source reason group decidedBy = .ok next) :
    ∃ survivor retired, state.mergeMembers propertyIds source decidedBy = .ok (survivor, retired) ∧
      next = (retired.foldl (mergePair group survivor (.merge reason)) state).propertiesChanged
        (survivor :: retired) := by
  unfold mergePropertySet at merged
  cases chosen : state.mergeMembers propertyIds source decidedBy with
  | error refusal => simp [chosen, bind, Except.bind] at merged
  | ok members =>
      simp only [chosen, bind, Except.bind, Except.ok.injEq] at merged
      exact ⟨members.1, members.2, rfl, merged.symm⟩

theorem mergePropertySet_sound (sound : state.Sound) {propertyIds : List Nat}
    {source : MergeSource} {reason : String} {group : GroupId} {decidedBy : Option String}
    {next : Identity}
    (merged : state.mergePropertySet propertyIds source reason group decidedBy = .ok next) :
    next.Sound := by
  obtain ⟨survivor, retired, chosen, rfl⟩ := mergePropertySet_cases merged
  have members := mergeMembers_members chosen
  refine (mergeSteps_sound sound (members.active survivor members.survives) members.distinct
    ?_).1.propertiesChanged _
  intro property listed
  obtain ⟨held, differ⟩ := (members.mem_retired property).mp listed
  exact ⟨differ, members.active property held⟩

end MergeSet

/-! ### One advert detached -/

section Detach

variable {state next : Identity}

/-- What a moved advert's detach does: it sits on its target, which stands, and keeps
the rows before those the detach took back. -/
structure Moved (listing target : Nat) (kept : List LedgerRow) (state next : Identity) : Prop where
  ordered : next.Ordered
  adverts : next.adverts = state.adverts
  place : ∀ other, next.place other = if other = listing then some target else state.place other
  rows : ∀ other, next.liveMoves other = if other = listing then kept else state.liveMoves other
  stands : next.standing target = some (.active, none)
  others : ∀ property, property ≠ target → next.standing property = state.standing property
  bounded : ∀ property, next.nextProperty ≤ property → next.property property = none
  continuous : Continuous kept (some target)

namespace Moved

variable {listing target : Nat} {kept : List LedgerRow}

theorem knows (moved : Moved listing target kept state next) (other : Nat) :
    next.knows other = state.knows other := by
  unfold Identity.knows
  rw [moved.adverts]

theorem isActive (moved : Moved listing target kept state next) {property : Nat}
    (active : state.isActive property = true) : next.isActive property = true := by
  by_cases same : property = target
  · rw [isActive_iff_standing]
    exact ⟨none, same ▸ moved.stands⟩
  · rw [isActive_iff_standing, moved.others property same, ← isActive_iff_standing]
    exact active

theorem grounded (moved : Moved listing target kept state next) {property : Nat}
    (grounded : state.Grounded property) : next.Grounded property := by
  induction grounded with
  | active standing => exact .active (moved.isActive standing)
  | @away property other row known pointer _ ih =>
      by_cases same : property = target
      · exact .active (isActive_iff_standing.mpr ⟨none, same ▸ moved.stands⟩)
      · have held : next.standing property = some (row.status, some other) := by
          rw [moved.others property same]
          exact standing_eq_some_iff.mpr ⟨row, known, rfl, pointer⟩
        obtain ⟨later, found, _, pointed⟩ := standing_eq_some_iff.mp held
        exact .away found pointed ih

theorem sound (moved : Moved listing target kept state next) (held : state.Sound) :
    next.Sound where
  toOrdered := moved.ordered
  placed := by
    intro other known
    rw [moved.place]
    split_ifs
    · exact ⟨target, rfl, isActive_iff_standing.mpr ⟨none, moved.stands⟩⟩
    · obtain ⟨property, placed, active⟩ :=
        held.placed other ((moved.knows other).symm.trans known)
      exact ⟨property, placed, moved.isActive active⟩
  grounded := by
    intro property row known
    by_cases same : property = target
    · exact .active (isActive_iff_standing.mpr ⟨none, same ▸ moved.stands⟩)
    · have stood := (standing_eq_some_iff.mpr ⟨row, known, rfl, rfl⟩ : next.standing property = _)
      rw [moved.others property same] at stood
      obtain ⟨earlier, found, _⟩ := standing_eq_some_iff.mp stood
      exact moved.grounded (held.grounded property earlier found)
  rooted := by
    intro property row known active
    have stood := (standing_eq_some_iff.mpr ⟨row, known, active, rfl⟩ : next.standing property = _)
    by_cases same : property = target
    · rw [same, moved.stands] at stood
      exact (Prod.mk.inj (Option.some.inj stood)).2.symm
    · rw [moved.others property same] at stood
      obtain ⟨earlier, found, status, pointer⟩ := standing_eq_some_iff.mp stood
      exact pointer.symm.trans (held.rooted property earlier found status)
  bounded := moved.bounded
  chained := by
    intro other known
    rw [moved.rows, moved.place]
    split_ifs
    · exact moved.continuous
    · exact held.chained other ((moved.knows other).symm.trans known)

end Moved

/-- Taking back the last of an advert's live rows leaves the others', and every other advert's. -/
theorem Ordered.liveMoves_undo (ordered : state.Ordered) {listing : Nat}
    {kept undo : List LedgerRow} (split : state.liveMoves listing = kept ++ undo) (other : Nat) :
    (state.undoRows (undo.map LedgerRow.event)).liveMoves other =
      if other = listing then kept else state.liveMoves other := by
  have distinct : (kept ++ undo).Nodup := by
    rw [← split]
    exact (List.Nodup.of_map _ (ordered.ascending.imp ne_of_lt)).filter _
  have mine : ∀ row ∈ undo, row ∈ state.ledger ∧ row.listing = listing := by
    intro row held
    have live : row ∈ state.liveMoves listing := split ▸ List.mem_append_right _ held
    exact ⟨(mem_liveMoves.mp live).1, (mem_liveMoves.mp live).2.1⟩
  have marked : ∀ row ∈ state.ledger, row.event ∈ undo.map LedgerRow.event → row ∈ undo := by
    intro row listed event
    obtain ⟨undone, held, same⟩ := List.mem_map.mp event
    exact ordered.event_inj (mine undone held).1 listed same ▸ held
  rw [liveMoves_undoRows]
  split_ifs with here
  · subst here
    rw [split, List.filter_append]
    have keeps : kept.filter (fun row => row.event ∉ undo.map LedgerRow.event) = kept := by
      refine List.filter_eq_self.mpr fun row held => decide_eq_true fun event => ?_
      have live : row ∈ state.liveMoves other := split ▸ List.mem_append_left _ held
      exact (List.nodup_append'.mp distinct).2.2 held (marked row (mem_liveMoves.mp live).1 event)
    have drops : undo.filter (fun row => row.event ∉ undo.map LedgerRow.event) = [] := by
      refine List.filter_eq_nil_iff.mpr fun row held => ?_
      simpa using ⟨row, held, rfl⟩
    rw [keeps, drops, List.append_nil]
  · refine List.filter_eq_self.mpr fun row held => decide_eq_true fun event => ?_
    obtain ⟨listed, own, _⟩ := mem_liveMoves.mp held
    exact here (own.symm.trans (mine row (marked row listed event)).2)

/-- An advert sent home: its origin stands again, and the rows it keeps end there. -/
theorem homecoming_moved (sound : state.Sound) {listing target : Nat} {kept undo : List LedgerRow}
    {first : LedgerRow} (known : state.knows listing = true)
    (split : state.liveMoves listing = kept ++ undo) (starts : undo.head? = some first)
    (home : first.prev = target) (stays : originGone (state.property target) undo = false) :
    Moved listing target kept state
      (((state.movedTo (some target) listing).undoRows (undo.map LedgerRow.event)).reactivate
        target) := by
  obtain ⟨chain, _⟩ := sound.chained listing known
  rw [split] at chain
  refine ⟨?_, rfl, fun _ => rfl, ?_, ?_, ?_, ?_, chain.left_of_append, ?_⟩
  · exact ⟨(sound.toOrdered.undoRows _).ascending, (sound.toOrdered.undoRows _).recent⟩
  · exact fun other => sound.toOrdered.liveMoves_undo split other
  · unfold originGone at stays
    cases found : state.property target with
    | none => rw [found] at stays; exact absurd stays (by simp)
    | some row =>
        refine standing_eq_some_iff.mpr
          ⟨if row.status = .mergedAway then { row with status := .active, mergedInto := none }
            else row, ?_, ?_, ?_⟩
        · change (if target = target then (state.property target).map _
            else state.property target) = _
          rw [if_pos rfl, found]
          rfl
        · split_ifs with away
          · rfl
          · cases status : row.status with
            | active => rfl
            | mergedAway => exact absurd status away
        · split_ifs with away
          · rfl
          · refine sound.rooted target row found ?_
            cases status : row.status with
            | active => rfl
            | mergedAway => exact absurd status away
  · intro property other
    change ((if property = target then (state.property property).map _
      else state.property property).map _) = _
    rw [if_neg other]
    rfl
  · intro property fresh
    change (if property = target then (state.property property).map _
      else state.property property) = none
    rw [sound.bounded property fresh]
    simp
  · intro last lastHeld
    have linked := (List.isChain_append.mp chain).2.2 last lastHeld first starts
    rw [← home, linked]

/-- An advert born anew: its live rows are closed, and the birth's own row with them. -/
theorem birth_moved (sound : state.Sound) (listing left : Nat) (group : GroupId)
    (reason : LedgerReason) {closed : Identity}
    (closing : closed = (state.movedTo none listing).undoRows
        ((state.liveMoves listing).map LedgerRow.event) ∨
      state.liveMoves listing = [] ∧ closed = state.movedTo none listing) :
    Moved listing state.nextProperty [] state
      ((closed.bearSingleton listing).2.appendRow
        (birthRow group left (closed.bearSingleton listing).1 reason listing)) := by
  have same : closed.Ordered ∧ closed.adverts = state.adverts ∧
      closed.place = (state.movedTo none listing).place ∧ closed.property = state.property ∧
      closed.nextProperty = state.nextProperty ∧
      ∀ other, closed.liveMoves other = if other = listing then [] else state.liveMoves other := by
    rcases closing with rfl | ⟨native, rfl⟩
    · have closed := sound.toOrdered.undoRows ((state.liveMoves listing).map LedgerRow.event)
      refine ⟨⟨closed.ascending, closed.recent⟩, rfl, rfl, rfl, rfl, fun other => ?_⟩
      exact sound.toOrdered.liveMoves_undo (List.nil_append _).symm other
    · refine ⟨⟨sound.ascending, sound.recent⟩, rfl, rfl, rfl, rfl, fun other => ?_⟩
      change state.liveMoves other = _
      split_ifs with here
      · rw [here, native]
      · rfl
  obtain ⟨ordered, adverts, place, property, newest, rows⟩ := same
  have linked : (closed.bearSingleton listing).2.Ordered := ⟨ordered.ascending, ordered.recent⟩
  have appended : ((closed.bearSingleton listing).2.appendRow
      (birthRow group left (closed.bearSingleton listing).1 reason listing)).Ordered :=
    linked.appendRow fun _ => rfl
  refine ⟨appended, adverts, ?_, ?_, ?_, ?_, ?_, .nil, fun _ held => absurd held (by simp)⟩
  · intro other
    change (if other = listing then some closed.nextProperty else closed.place other) = _
    rw [place, newest]
    unfold movedTo
    dsimp only
    split_ifs <;> rfl
  · intro other
    rw [liveMoves_appendRow, if_neg fun held : _ ∧ _ => absurd held.2 (by simp [birthRow]),
      List.append_nil]
    exact rows other
  · change (if state.nextProperty = closed.nextProperty then some ({} : Property)
      else closed.property state.nextProperty).map _ = _
    rw [newest, if_pos rfl]
    rfl
  · intro other unlike
    change (if other = closed.nextProperty then some ({} : Property)
      else closed.property other).map _ = _
    rw [newest, if_neg unlike, property]
    rfl
  · intro other fresh
    change closed.nextProperty + 1 ≤ other at fresh
    change (if other = closed.nextProperty then some ({} : Property)
      else closed.property other) = none
    rw [newest] at fresh ⊢
    rw [if_neg (by omega), property]
    exact sound.bounded other (by omega)

/-- What a plan over continuous rows answers: the advert stays and nothing moved it since,
a native one is to be born anew, or the last of its rows are taken back to where they began. -/
theorem detachPlan_cases {current : Option Nat} {moves : List LedgerRow} {group : Option GroupId}
    {size : Nat × Nat} (continuous : Continuous moves current) :
    (detachPlan current moves group size).current = current ∧
    (((detachPlan current moves group size).outcome.moves = false ∧
        (detachPlan current moves group size).outcome ≠ .movedSince) ∨
      ((detachPlan current moves group size).outcome = .splitNative ∧ group = none ∧ moves = []) ∨
      ((detachPlan current moves group size).outcome = .detached ∧
        ∃ kept first target, moves = kept ++ (detachPlan current moves group size).undo ∧
          (detachPlan current moves group size).undo.head? = some first ∧ first.prev = target ∧
          (detachPlan current moves group size).target = some target)) := by
  unfold detachPlan
  cases ends : moves.getLast? with
  | none =>
      obtain rfl := List.getLast?_eq_none_iff.mp ends
      dsimp only [List.head?_nil]
      split_ifs with asked owned
      · exact ⟨rfl, .inl ⟨rfl, by simp [stays]⟩⟩
      · exact ⟨rfl, .inl ⟨rfl, by simp [stays]⟩⟩
      · refine ⟨rfl, .inr (.inl ⟨rfl, ?_, rfl⟩)⟩
        cases group with
        | none => rfl
        | some _ => exact absurd (by simp) asked
  | some last =>
      have nonempty : moves ≠ [] := by
        rintro rfl
        simp at ends
      obtain ⟨first, rest, rfl⟩ := List.exists_cons_of_ne_nil nonempty
      have placed := continuous.2 last ends
      dsimp only [List.head?_cons]
      cases group with
      | none =>
          dsimp only
          split_ifs with moved home
          · exact absurd placed moved
          · exact ⟨rfl, .inl ⟨rfl, by simp [stays]⟩⟩
          · exact ⟨rfl, .inr (.inr ⟨rfl, [], first, first.prev, rfl, rfl, rfl, rfl⟩)⟩
      | some asked =>
          dsimp only
          split_ifs with other live moved home
          · exact ⟨rfl, .inl ⟨rfl, by simp [stays]⟩⟩
          · exact ⟨rfl, .inl ⟨rfl, by simp [stays]⟩⟩
          · exact absurd placed moved
          · exact ⟨rfl, .inl ⟨rfl, by simp [stays]⟩⟩
          · have split : first :: rest = (first :: rest).dropLast ++ [last] :=
              (List.dropLast_append_getLast? last ends).symm
            exact ⟨rfl, .inr (.inr ⟨rfl, _, last, last.prev, split, rfl, rfl, rfl⟩)⟩

theorem planDetach_some {listing : Nat} (known : state.knows listing = true)
    (group : Option GroupId) : ∃ size, state.planDetach listing group =
      some (detachPlan (state.place listing) (state.liveMoves listing) group size) := by
  unfold planDetach
  rw [if_pos known]
  exact ⟨_, rfl⟩

/-- A birth moves its advert to the new record, with no live row left. -/
theorem bear_moved (sound : state.Sound) {listing current : Nat} {named : Bool} {group : GroupId}
    (known : state.knows listing = true) (here : state.place listing = some current)
    (asked : named = true ∨
      (state.planDetach listing none).map DetachPlan.outcome = some .splitNative) :
    Moved listing state.nextProperty [] state (state.bear listing current named group).1 ∧
      (state.bear listing current named group).2.1.moves = true := by
  obtain ⟨size, planned⟩ := planDetach_some known none
  have found := (@detachPlan_cases _ _ none size (sound.chained listing known)).1
  rw [planned, Option.map_some] at asked
  have wanted : ¬((!named && (detachPlan (state.place listing) (state.liveMoves listing) none
      size).outcome != .splitNative) = true) := by
    rcases asked with named | native
    · simp [named]
    · simp [Option.some.inj native]
  have linked : state.moveAdvert none listing current = some (state.movedTo none listing) :=
    if_pos here
  unfold bear
  rw [planned]
  dsimp only
  rw [if_neg (not_not_intro (found.trans here)), if_neg wanted, linked]
  dsimp only
  refine ⟨birth_moved sound listing current group _ ?_, ?_⟩
  · split_ifs with native
    · exact .inr ⟨List.isEmpty_iff.mp native, rfl⟩
    · exact .inl rfl
  · split_ifs <;> rfl

/-- The two ends of a detach no other writer crosses. -/
inductive Answered (listing : Nat) (state next : Identity) (answer : Detached) : Prop where
  | stayed (same : next = state) (still : answer.outcome.moves = false)
      (uncontended : answer.outcome ≠ .movedSince) : Answered listing state next answer
  | left {target : Nat} {kept : List LedgerRow} (moved : Moved listing target kept state next)
      (moves : answer.outcome.moves = true) : Answered listing state next answer

theorem detachOne_answered (sound : state.Sound) {listing : Nat} {found : Option Nat}
    {group : Option GroupId} {named : Bool} {birthGroup : GroupId}
    (known : state.knows listing = true) (fresh : found = state.place listing) :
    Answered listing state (state.detachOne listing found group named birthGroup).1
      (state.detachOne listing found group named birthGroup).2 := by
  obtain ⟨current, here, _⟩ := sound.placed listing known
  obtain ⟨size, planned⟩ := planDetach_some known group
  obtain ⟨place, cases⟩ := @detachPlan_cases _ _ group size (sound.chained listing known)
  generalize detachPlan (state.place listing) (state.liveMoves listing) group size = plan
    at planned place cases
  have sits : plan.current = some current := place.trans here
  unfold detachOne
  rw [planned, Option.getD_some]
  dsimp only
  rw [if_neg (not_not_intro (place.trans fresh.symm)), sits]
  dsimp only
  split_ifs with birth detached gone
  · have asked : named = true ∨
        (state.planDetach listing none).map DetachPlan.outcome = some .splitNative := by
      rcases Bool.or_eq_true_iff.mp birth with named | native
      · exact .inl named
      · have native : plan.outcome = .splitNative := by simpa using native
        rcases cases with ⟨still, _⟩ | ⟨_, rfl, _⟩ | ⟨detached, _⟩
        · rw [native] at still
          exact absurd still (by simp [Outcome.moves])
        · exact .inr (by rw [planned, Option.map_some, native])
        · rw [native] at detached
          exact absurd detached (by simp)
    obtain ⟨moved, moves⟩ := @bear_moved _ sound _ _ _ birthGroup known here asked
    exact .left moved moves
  · exact .stayed rfl rfl (by simp)
  · rcases cases with ⟨still, _⟩ | ⟨native, _⟩ | ⟨_, kept, first, target, split, starts, home, goes⟩
    · rw [detached] at still
      exact absurd still (by simp [Outcome.moves])
    · rw [detached] at native
      exact absurd native (by simp)
    · rw [goes, Option.bind_some] at gone
      have linked : state.moveAdvert (some target) listing current =
          some (state.movedTo (some target) listing) := if_pos here
      rw [goes, linked]
      exact .left (homecoming_moved sound known split starts home (by simpa using gone)) rfl
  · rcases cases with ⟨still, unmoved⟩ | ⟨native, _⟩ | ⟨outcome, _⟩
    · exact .stayed rfl still unmoved
    · exact absurd (by simp [native]) birth
    · exact absurd outcome detached

/-- One detach keeps the invariant and every other advert's place, and nothing moved the advert
since. -/
theorem Answered.sound {listing : Nat} {answer : Detached}
    (answered : Answered listing state next answer) (held : state.Sound) :
    next.Sound ∧ next.adverts = state.adverts ∧
      (∀ other, other ≠ listing → next.place other = state.place other) ∧
      answer.outcome ≠ .movedSince := by
  cases answered with
  | stayed same _ uncontended => exact ⟨same ▸ held, by rw [same], fun _ _ => by rw [same], uncontended⟩
  | left moved moves =>
      refine ⟨moved.sound held, moved.adverts, fun other differ => ?_, fun since => ?_⟩
      · rw [moved.place, if_neg differ]
      · rw [since] at moves
        exact absurd moves (by simp [Outcome.moves])

/-- The adverts of one call: each is found where the call first read it. -/
theorem detachEach_sound {places : Nat → Option Nat} {group : Option GroupId} {named : List Nat}
    {births : Nat → GroupId} {listings : List Nat} :
    ∀ {done : Identity × List Detached}, done.1.Sound → listings.Nodup →
      (∀ listing ∈ listings, done.1.knows listing = true ∧
        places listing = done.1.place listing) →
      (∀ answer ∈ done.2, answer.outcome ≠ .movedSince) →
      let after := listings.foldl (fun (done : Identity × List Detached) listing =>
        ((done.1.detachOne listing (places listing) group (named.contains listing)
            (births listing)).1,
          done.2 ++ [(done.1.detachOne listing (places listing) group (named.contains listing)
            (births listing)).2])) done
      after.1.Sound ∧ after.1.adverts = done.1.adverts ∧
        ∀ answer ∈ after.2, answer.outcome ≠ .movedSince := by
  induction listings with
  | nil => exact fun sound _ _ clean => ⟨sound, rfl, clean⟩
  | cons listing rest ih =>
      intro done sound distinct known clean
      obtain ⟨fresh, restDistinct⟩ := List.nodup_cons.mp distinct
      obtain ⟨mine, placed⟩ := known listing List.mem_cons_self
      have answered := @detachOne_answered _ sound _ _ group (named.contains listing)
        (births listing) mine placed
      obtain ⟨nextSound, adverts, others, uncontended⟩ := answered.sound sound
      have later : ∀ other ∈ rest, (done.1.detachOne listing (places listing) group
          (named.contains listing) (births listing)).1.knows other = true ∧
          places other = (done.1.detachOne listing (places listing) group
            (named.contains listing) (births listing)).1.place other := by
        intro other listed
        have differ : other ≠ listing := fun same => fresh (same ▸ listed)
        obtain ⟨held, read⟩ := known other (List.mem_cons_of_mem _ listed)
        refine ⟨?_, read.trans (others other differ).symm⟩
        unfold Identity.knows at held ⊢
        rw [adverts]
        exact held
      have stillClean : ∀ answer ∈ done.2 ++ [(done.1.detachOne listing (places listing) group
          (named.contains listing) (births listing)).2], answer.outcome ≠ .movedSince := by
        intro answer listed
        rcases List.mem_append.mp listed with earlier | new
        · exact clean answer earlier
        · rw [List.mem_singleton.mp new]
          exact uncontended
      obtain ⟨afterSound, afterAdverts, afterClean⟩ :=
        @ih (_, _) nextSound restDistinct later stillClean
      exact ⟨afterSound, afterAdverts.trans adverts, afterClean⟩

/-- A call over known adverts is answered, one advert after another. -/
theorem detachListings_eq {listingIds : List Nat} {group : Option GroupId} {named : List Nat}
    {births : Nat → GroupId} (known : ∀ listing ∈ listingIds, state.knows listing = true) :
    ∃ ids, state.detachListings listingIds group named births =
      some ((state.detachEach state.place group named births listingIds.eraseDups).1.propertiesChanged
        ids, (state.detachEach state.place group named births listingIds.eraseDups).2) := by
  have accepted : ¬(listingIds.eraseDups.any fun listing => !state.knows listing) = true := by
    rw [List.any_eq_true]
    rintro ⟨listing, listed, unknown⟩
    rw [known listing (List.mem_eraseDups.mp listed)] at unknown
    exact absurd unknown (by simp)
  unfold detachListings
  dsimp only
  rw [if_neg accepted]
  exact ⟨_, rfl⟩

theorem detachListings_sound (sound : state.Sound) {listingIds : List Nat}
    {group : Option GroupId} {named : List Nat} {births : Nat → GroupId}
    {answers : List Detached}
    (detached : state.detachListings listingIds group named births = some (next, answers)) :
    next.Sound ∧ ∀ answer ∈ answers, answer.outcome ≠ .movedSince := by
  have known : ∀ listing ∈ listingIds, state.knows listing = true := by
    intro listing listed
    by_contra missing
    unfold detachListings at detached
    dsimp only at detached
    rw [if_pos (List.any_eq_true.mpr
      ⟨listing, List.mem_eraseDups.mpr listed, by simpa using missing⟩)] at detached
    exact absurd detached (by simp)
  obtain ⟨ids, called⟩ := @detachListings_eq state _ group named births known
  obtain ⟨each, _, clean⟩ := @detachEach_sound state.place group named births
    listingIds.eraseDups (state, []) sound (nodup_eraseDups _)
    (fun listing listed => ⟨known listing (List.mem_eraseDups.mp listed), rfl⟩) (by simp)
  obtain ⟨rfl, rfl⟩ := Prod.mk.inj (Option.some.inj (called.symm.trans detached))
  exact ⟨each.propertiesChanged _, clean⟩

end Detach

end Identity

end Sreality.Toolkit
