import Mathlib.Tactic.FinCases
import Sreality.Toolkit.Dispatches
import Sreality.Toolkit.PropertyUndoProperties
import Sreality.Toolkit.ResolveSurvivorsProperties

/-! No alert is lost or told twice by a merge: each event of a member stands once on the property
the member's chain ends in. -/

set_option autoImplicit false

namespace Sreality.Toolkit

open Sreality.Foundation

variable {alerts : List Dispatch} {survivor retired : Nat}

/-- On a property each event has one row that is not a repeat at most, and a repeat names it. -/
structure AlertsSound (alerts : List Dispatch) : Prop where
  keyed : Keyed Dispatch.id alerts
  single : ∀ one ∈ alerts, ∀ other ∈ alerts, ∀ property, one.propertyId = some property →
    other.propertyId = some property → one.identity = other.identity →
      one.duplicateOf = none → other.duplicateOf = none → one = other
  pointed : ∀ row ∈ alerts, ∀ property twin, row.propertyId = some property →
    row.duplicateOf = some twin → ∃ other ∈ alerts, other.id = twin ∧
      other.propertyId = some property ∧ other.identity = row.identity ∧ other.duplicateOf = none

/-! ### One statement -/

theorem twinOf_eq_none {identity : EventIdentity} : twinOf alerts survivor identity = none ↔
    ∀ row ∈ alerts, row.propertyId = some survivor → row.identity = identity →
      row.duplicateOf ≠ none := by
  unfold twinOf
  rw [Option.map_eq_none_iff, List.head?_eq_none_iff]
  constructor
  · intro empty row listed placed same unmarked
    have held : row ∈ sortedBy (fun row => toLex (row.dispatchedAt, row.id)) (alerts.filter
        fun row => row.propertyId == some survivor && row.duplicateOf.isNone &&
          row.identity == identity) := by
      rw [mem_sortedBy, List.mem_filter]
      simp [listed, placed, same, unmarked]
    rw [empty] at held
    cases held
  · intro marked
    rw [List.eq_nil_iff_forall_not_mem]
    intro row held
    rw [mem_sortedBy, List.mem_filter] at held
    simp only [Bool.and_eq_true, beq_iff_eq, Option.isNone_iff_eq_none] at held
    exact marked row held.1 held.2.1.1 held.2.2 held.2.1.2

theorem mem_of_twinOf {identity : EventIdentity} {twin : Nat}
    (found : twinOf alerts survivor identity = some twin) :
    ∃ row ∈ alerts, row.id = twin ∧ row.propertyId = some survivor ∧ row.identity = identity ∧
      row.duplicateOf = none := by
  obtain ⟨row, first, rfl⟩ := Option.map_eq_some_iff.mp found
  have held := (least_of_head?_sortedBy first).1
  rw [List.mem_filter] at held
  simp only [Bool.and_eq_true, beq_iff_eq, Option.isNone_iff_eq_none] at held
  exact ⟨row, held.1, rfl, held.2.1.1, held.2.2, held.2.1.2⟩

variable (alerts survivor retired) in
/-- What the statement makes of one row. -/
def afterMove (row : Dispatch) : Dispatch :=
  if row.propertyId = some retired then
    { row with
      propertyId := some survivor
      duplicateOf := (twinOf alerts survivor row.identity).or row.duplicateOf }
  else row

theorem mem_repointAlerts {row : Dispatch} : row ∈ repointAlerts survivor alerts retired ↔
    ∃ old ∈ alerts, afterMove alerts survivor retired old = row :=
  List.mem_map

theorem afterMove_id (row : Dispatch) : (afterMove alerts survivor retired row).id = row.id := by
  unfold afterMove
  split_ifs <;> rfl

theorem afterMove_identity (row : Dispatch) :
    (afterMove alerts survivor retired row).identity = row.identity := by
  unfold afterMove
  split_ifs <;> rfl

theorem afterMove_other {row : Dispatch} (elsewhere : row.propertyId ≠ some retired) :
    afterMove alerts survivor retired row = row :=
  if_neg elsewhere

theorem afterMove_moved {row : Dispatch} (here : row.propertyId = some retired) :
    (afterMove alerts survivor retired row).propertyId = some survivor ∧
      (afterMove alerts survivor retired row).duplicateOf =
        (twinOf alerts survivor row.identity).or row.duplicateOf := by
  unfold afterMove
  rw [if_pos here]
  exact ⟨rfl, rfl⟩

/-- A row that moves unmarked has no twin where it lands. -/
theorem alone_of_unmarked {row : Dispatch} (here : row.propertyId = some retired)
    (unmarked : (afterMove alerts survivor retired row).duplicateOf = none) :
    twinOf alerts survivor row.identity = none ∧ row.duplicateOf = none := by
  rw [(afterMove_moved here).2] at unmarked
  exact Option.or_eq_none_iff.mp unmarked

theorem AlertsSound.repoint (sound : AlertsSound alerts) (differ : survivor ≠ retired) :
    AlertsSound (repointAlerts survivor alerts retired) where
  keyed := by
    unfold Keyed
    have ids : (repointAlerts survivor alerts retired).map Dispatch.id = alerts.map Dispatch.id := by
      change (alerts.map (afterMove alerts survivor retired)).map Dispatch.id = _
      rw [List.map_map]
      exact List.map_congr_left fun row _ => afterMove_id row
    rw [ids]
    exact sound.keyed
  single := by
    intro one oneListed other otherListed property onePlaced otherPlaced same oneUnmarked
      otherUnmarked
    obtain ⟨one, oneOld, rfl⟩ := mem_repointAlerts.mp oneListed
    obtain ⟨other, otherOld, rfl⟩ := mem_repointAlerts.mp otherListed
    rw [afterMove_identity, afterMove_identity] at same
    -- A row that moved meets one that was there: the one there is its twin.
    have meets : ∀ mover ∈ alerts, ∀ stander ∈ alerts, mover.propertyId = some retired →
        stander.propertyId = some survivor → mover.identity = stander.identity →
          (afterMove alerts survivor retired mover).duplicateOf = none →
            stander.duplicateOf ≠ none := by
      intro mover _ stander listed moves stands alike unmarked
      exact twinOf_eq_none.mp (alone_of_unmarked moves unmarked).1 stander listed stands alike.symm
    by_cases oneMoves : one.propertyId = some retired
    · by_cases otherMoves : other.propertyId = some retired
      · rw [sound.single one oneOld other otherOld retired oneMoves otherMoves same
          (alone_of_unmarked oneMoves oneUnmarked).2 (alone_of_unmarked otherMoves otherUnmarked).2]
      · rw [(afterMove_moved oneMoves).1] at onePlaced
        rw [afterMove_other otherMoves] at otherPlaced otherUnmarked
        exact absurd otherUnmarked (meets one oneOld other otherOld oneMoves
          (otherPlaced.trans onePlaced.symm) same oneUnmarked)
    · by_cases otherMoves : other.propertyId = some retired
      · rw [(afterMove_moved otherMoves).1] at otherPlaced
        rw [afterMove_other oneMoves] at onePlaced oneUnmarked
        exact absurd oneUnmarked (meets other otherOld one oneOld otherMoves
          (onePlaced.trans otherPlaced.symm) same.symm otherUnmarked)
      · rw [afterMove_other oneMoves] at onePlaced oneUnmarked ⊢
        rw [afterMove_other otherMoves] at otherPlaced otherUnmarked ⊢
        exact sound.single one oneOld other otherOld property onePlaced otherPlaced same oneUnmarked
          otherUnmarked
  pointed := by
    intro row listed property twin placed marked
    obtain ⟨row, old, rfl⟩ := mem_repointAlerts.mp listed
    by_cases moves : row.propertyId = some retired
    · obtain ⟨lands, becomes⟩ := @afterMove_moved alerts survivor retired row moves
      rw [lands] at placed
      rw [becomes] at marked
      cases found : twinOf alerts survivor row.identity with
      | some met =>
          rw [found, Option.some_or] at marked
          obtain ⟨other, otherOld, otherId, stands, alike, unmarked⟩ := mem_of_twinOf found
          have stays : other.propertyId ≠ some retired := by
            rw [stands]
            exact fun same => differ (Option.some.inj same)
          refine ⟨_, mem_repointAlerts.mpr ⟨other, otherOld, afterMove_other stays⟩,
            otherId.trans (Option.some.inj marked), stands.trans placed, ?_, unmarked⟩
          rw [afterMove_identity, alike]
      | none =>
          rw [found, Option.none_or] at marked
          obtain ⟨other, otherOld, otherId, beside, alike, unmarked⟩ :=
            sound.pointed row old retired twin moves marked
          obtain ⟨otherLands, otherBecomes⟩ := @afterMove_moved alerts survivor retired other beside
          refine ⟨_, mem_repointAlerts.mpr ⟨other, otherOld, rfl⟩, ?_, otherLands.trans placed, ?_, ?_⟩
          · rw [afterMove_id, otherId]
          · rw [afterMove_identity, afterMove_identity, alike]
          · rw [otherBecomes, alike, found, unmarked]
            rfl
    · rw [afterMove_other moves] at placed marked ⊢
      obtain ⟨other, otherOld, otherId, beside, alike, unmarked⟩ :=
        sound.pointed row old property twin placed marked
      have stays : other.propertyId ≠ some retired := by
        rw [beside, ← placed]
        exact moves
      exact ⟨_, mem_repointAlerts.mpr ⟨other, otherOld, afterMove_other stays⟩, otherId, beside,
        alike, unmarked⟩

/-! ### The set of a merge -/

theorem AlertsSound.repointAll {retired : List Nat} :
    ∀ {alerts : List Dispatch}, AlertsSound alerts → survivor ∉ retired →
      AlertsSound (retired.foldl (repointAlerts survivor) alerts) := by
  induction retired with
  | nil => exact fun sound _ => sound
  | cons first rest ih =>
      intro alerts sound apart
      obtain ⟨differ, later⟩ := List.ne_and_not_mem_of_not_mem_cons apart
      exact ih (sound.repoint differ) later

/-- What a row keeps whatever merges: its id, its event and its time. -/
def kept (row : Dispatch) : Nat × EventIdentity × Timestamp :=
  (row.id, row.identity, row.dispatchedAt)

theorem kept_repointAll {retired : List Nat} :
    ∀ {alerts : List Dispatch}, (retired.foldl (repointAlerts survivor) alerts).map kept =
      alerts.map kept := by
  induction retired with
  | nil => exact rfl
  | cons first rest ih =>
      intro alerts
      rw [List.foldl_cons, ih]
      change (alerts.map (afterMove alerts survivor first)).map kept = _
      rw [List.map_map]
      refine List.map_congr_left fun row _ => ?_
      change kept (afterMove alerts survivor first row) = kept row
      unfold afterMove
      split_ifs <;> rfl

/-- Where the rows of a property land. -/
def landing (survivor : Nat) (retired : List Nat) (property : Nat) : Nat :=
  if property ∈ retired then survivor else property

theorem lands_repointAll {retired : List Nat} :
    ∀ {alerts : List Dispatch}, survivor ∉ retired → ∀ row ∈ alerts, ∀ property,
      row.propertyId = some property →
        ∃ later ∈ retired.foldl (repointAlerts survivor) alerts,
          later.identity = row.identity ∧
            later.propertyId = some (landing survivor retired property) := by
  induction retired with
  | nil => exact fun _ row listed property placed => ⟨row, listed, rfl, placed⟩
  | cons first rest ih =>
      intro alerts apart row listed property placed
      obtain ⟨differ, later⟩ := List.ne_and_not_mem_of_not_mem_cons apart
      have member : afterMove alerts survivor first row ∈ repointAlerts survivor alerts first :=
        mem_repointAlerts.mpr ⟨row, listed, rfl⟩
      by_cases moves : property = first
      · subst moves
        obtain ⟨found, inside, alike, lands⟩ := ih later _ member survivor (afterMove_moved placed).1
        refine ⟨found, inside, alike.trans (afterMove_identity row), ?_⟩
        rw [lands, landing, landing, if_neg later, if_pos List.mem_cons_self]
      · have elsewhere : row.propertyId ≠ some first := by
          rw [placed]
          exact fun same => moves (Option.some.inj same)
        have stays : (afterMove alerts survivor first row).propertyId = some property := by
          rw [afterMove_other elsewhere, placed]
        obtain ⟨found, inside, alike, lands⟩ := ih later _ member property stays
        refine ⟨found, inside, alike.trans (afterMove_identity row), ?_⟩
        rw [lands]
        simp only [landing, List.mem_cons, moves, false_or]

/-! ### Runs -/

namespace Alerted

variable {world : Alerted}

/-- A refused merge, or the set's tables with its alerts on the survivor. -/
theorem merge_cases (world : Alerted) (call : MergeCall) :
    world.merge call = world ∨ ∃ survivor retired next,
      world.identity.mergeMembers call.propertyIds call.source call.decidedBy =
        .ok (survivor, retired) ∧ world.identity.merge call = .ok next ∧
      world.merge call =
        { identity := next, alerts := retired.foldl (repointAlerts survivor) world.alerts } := by
  unfold merge
  cases chosen : world.identity.mergeMembers call.propertyIds call.source call.decidedBy with
  | error refusal => exact .inl rfl
  | ok members =>
      cases merged : world.identity.merge call with
      | error refusal => exact .inl rfl
      | ok next => exact .inr ⟨members.1, members.2, next, rfl, rfl, rfl⟩

theorem merge_sound (sound : world.identity.Sound) (alerts : AlertsSound world.alerts)
    (call : MergeCall) :
    (world.merge call).identity.Sound ∧ AlertsSound (world.merge call).alerts ∧
      (world.merge call).alerts.map kept = world.alerts.map kept := by
  rcases merge_cases world call with same | ⟨survivor, retired, next, chosen, merged, becomes⟩
  · rw [same]
    exact ⟨sound, alerts, rfl⟩
  · rw [becomes]
    have apart := (Identity.merge_mergedSet sound chosen merged).2.1
    exact ⟨Identity.mergePropertySet_sound sound merged, alerts.repointAll apart, kept_repointAll⟩

theorem run_sound {calls : List MergeCall} :
    ∀ {world : Alerted}, world.identity.Sound → AlertsSound world.alerts →
      (world.run calls).identity.Sound ∧ AlertsSound (world.run calls).alerts ∧
        (world.run calls).alerts.map kept = world.alerts.map kept := by
  induction calls with
  | nil => exact fun sound alerts => ⟨sound, alerts, rfl⟩
  | cons call rest ih =>
      intro world sound alerts
      obtain ⟨nextSound, nextAlerts, same⟩ := merge_sound sound alerts call
      obtain ⟨afterSound, afterAlerts, alsoSame⟩ := ih nextSound nextAlerts
      exact ⟨afterSound, afterAlerts, alsoSame.trans same⟩

/-- A retired property stays where it was merged. -/
theorem merge_standing (sound : world.identity.Sound) (call : MergeCall) {property : Nat}
    {target : Option Nat} (away : world.identity.standing property = some (.mergedAway, target)) :
    (world.merge call).identity.standing property = some (.mergedAway, target) := by
  rcases merge_cases world call with same | ⟨survivor, retired, next, chosen, merged, becomes⟩
  · rwa [same]
  · obtain ⟨set, _, active⟩ := Identity.merge_mergedSet sound chosen merged
    have unlisted : property ∉ retired := by
      intro listed
      rw [(active property listed).2] at away
      cases away
    rw [becomes]
    exact (set.others property unlisted).trans away

theorem run_standing {calls : List MergeCall} {property : Nat} {target : Option Nat} :
    ∀ {world : Alerted}, world.identity.Sound → AlertsSound world.alerts →
      world.identity.standing property = some (.mergedAway, target) →
        (world.run calls).identity.standing property = some (.mergedAway, target) := by
  induction calls with
  | nil => exact fun _ _ away => away
  | cons call rest ih =>
      intro world sound alerts away
      obtain ⟨nextSound, nextAlerts, _⟩ := merge_sound sound alerts call
      exact ih nextSound nextAlerts (merge_standing sound call away)

/-- Where one merge takes a property that stands, and its alerts. -/
theorem merge_lands (sound : world.identity.Sound) (call : MergeCall) {property : Nat}
    (standing : world.identity.isActive property = true) :
    ∃ target, (world.merge call).identity.isActive target = true ∧
      (target = property ∨ (world.merge call).identity.standing property =
        some (.mergedAway, some target)) ∧
      ∀ row ∈ world.alerts, row.propertyId = some property →
        ∃ later ∈ (world.merge call).alerts, later.identity = row.identity ∧
          later.propertyId = some target := by
  rcases merge_cases world call with same | ⟨survivor, retired, next, chosen, merged, becomes⟩
  · rw [same]
    exact ⟨property, standing, .inl rfl, fun row listed placed => ⟨row, listed, rfl, placed⟩⟩
  · obtain ⟨set, apart, active⟩ := Identity.merge_mergedSet sound chosen merged
    rw [becomes]
    refine ⟨landing survivor retired property, ?_, ?_, ?_⟩
    · have survives : world.identity.isActive survivor = true := by
        have members := Identity.mergeMembers_members chosen
        exact members.active survivor members.survives
      unfold landing
      split_ifs with listed
      · rw [Identity.isActive_iff_standing, set.others survivor apart,
          ← Identity.isActive_iff_standing]
        exact survives
      · rw [Identity.isActive_iff_standing, set.others property listed,
          ← Identity.isActive_iff_standing]
        exact standing
    · unfold landing
      split_ifs with listed
      · refine .inr ?_
        rw [set.merged property listed, (active property listed).2]
        rfl
      · exact .inl rfl
    · intro row listed placed
      exact lands_repointAll apart row listed property placed

theorem pointsTo_of_standing {state : Identity} {property target : Nat} {status : Status}
    (away : state.standing property = some (status, some target)) :
    state.PointsTo property target := by
  obtain ⟨row, known, _, pointer⟩ := Identity.standing_eq_some_iff.mp away
  exact ⟨row, known, pointer⟩

theorem run_lands {calls : List MergeCall} :
    ∀ {world : Alerted}, world.identity.Sound → AlertsSound world.alerts → ∀ {property : Nat},
      world.identity.isActive property = true →
        ∃ last, Relation.ReflTransGen (world.run calls).identity.PointsTo property last ∧
          (world.run calls).identity.isActive last = true ∧
          ∀ row ∈ world.alerts, row.propertyId = some property →
            ∃ later ∈ (world.run calls).alerts, later.identity = row.identity ∧
              later.propertyId = some last := by
  induction calls with
  | nil =>
      intro world _ _ property standing
      exact ⟨property, .refl, standing, fun row listed placed => ⟨row, listed, rfl, placed⟩⟩
  | cons call rest ih =>
      intro world sound alerts property standing
      obtain ⟨nextSound, nextAlerts, _⟩ := merge_sound sound alerts call
      obtain ⟨target, stands, step, lands⟩ := merge_lands sound call standing
      obtain ⟨last, chain, ends, later⟩ := ih nextSound nextAlerts stands
      refine ⟨last, ?_, ends, ?_⟩
      · rcases step with rfl | away
        · exact chain
        · have stays : ((world.merge call).run rest).identity.standing property =
              some (.mergedAway, some target) := run_standing nextSound nextAlerts away
          exact .head (pointsTo_of_standing stays) chain
      · intro row listed placed
        obtain ⟨middle, middleListed, alike, middlePlaced⟩ := lands row listed placed
        obtain ⟨found, foundListed, same, foundPlaced⟩ := later middle middleListed middlePlaced
        exact ⟨found, foundListed, same.trans alike, foundPlaced⟩

end Alerted

/-- One row of an event on a property is the one that is not a repeat. -/
theorem AlertsSound.stands_once (sound : AlertsSound alerts) {row : Dispatch} (listed : row ∈ alerts)
    {property : Nat} (placed : row.propertyId = some property) :
    ∃! other, other ∈ alerts ∧ other.propertyId = some property ∧
      other.identity = row.identity ∧ other.duplicateOf = none := by
  obtain ⟨stander, standerListed, stands, alike, unmarked⟩ : ∃ other ∈ alerts,
      other.propertyId = some property ∧ other.identity = row.identity ∧
        other.duplicateOf = none := by
    cases marked : row.duplicateOf with
    | none => exact ⟨row, listed, placed, rfl, marked⟩
    | some twin =>
        obtain ⟨other, otherListed, _, stands, alike, unmarked⟩ :=
          sound.pointed row listed property twin placed marked
        exact ⟨other, otherListed, stands, alike, unmarked⟩
  refine ⟨stander, ⟨standerListed, stands, alike, unmarked⟩, ?_⟩
  rintro other ⟨otherListed, otherStands, otherAlike, otherUnmarked⟩
  exact sound.single other otherListed stander standerListed property otherStands stands
    (otherAlike.trans alike.symm) otherUnmarked unmarked

/-- The alerts of properties merged in any sequence. -/
structure AlertsSurvive (before after : Alerted) : Prop where
  sound : AlertsSound after.alerts
  kept : after.alerts.map (fun row => (row.id, row.identity, row.dispatchedAt)) =
    before.alerts.map fun row => (row.id, row.identity, row.dispatchedAt)
  told : ∀ property, before.identity.isActive property = true → ∀ last,
    Relation.ReflTransGen after.identity.PointsTo property last →
      after.identity.isActive last = true →
        ∀ row ∈ before.alerts, row.propertyId = some property →
          ∃! other, other ∈ after.alerts ∧ other.propertyId = some last ∧
            other.identity = row.identity ∧ other.duplicateOf = none

/-- From the tables any run reached, a sequence of merges loses no alert and tells none twice. -/
theorem alerts_survive_merges {state : Identity} (initial : state.Initial) (before : List Call)
    (alerts : List Dispatch) (sound : AlertsSound alerts) (calls : List MergeCall) :
    AlertsSurvive { identity := state.run before, alerts := alerts }
      (Alerted.run { identity := state.run before, alerts := alerts } calls) := by
  have start : (state.run before).Sound := initial.sound.run before
  obtain ⟨afterSound, afterAlerts, same⟩ :=
    @Alerted.run_sound calls { identity := state.run before, alerts := alerts } start sound
  refine ⟨afterAlerts, same, ?_⟩
  intro property standing last chain ends row listed placed
  obtain ⟨reached, reachedChain, reachedEnds, lands⟩ :=
    @Alerted.run_lands calls { identity := state.run before, alerts := alerts } start sound property
      standing
  obtain ⟨_, one⟩ := Identity.hops_of_chain chain
  obtain ⟨_, other⟩ := Identity.hops_of_chain reachedChain
  obtain rfl := (one.unique afterSound ends other reachedEnds).2
  obtain ⟨later, laterListed, alike, laterPlaced⟩ := lands row listed placed
  rw [← alike]
  exact afterAlerts.stands_once laterListed laterPlaced

/-! ### One event told on each home -/

def toldOnce : EventIdentity where
  accountId := some 1
  sourceKind := some "watchdog"
  subscriptionId := some 7
  collectionId := none
  changeKind := some "price_drop"
  eventRef := some "42"
  actorAccountId := none

/-- The event stands on every home, and once more as a repeat on the last. -/
def homeAlerts : List Dispatch :=
  [{ id := 1, propertyId := some 1, identity := toldOnce, dispatchedAt := 5, duplicateOf := none },
    { id := 2, propertyId := some 2, identity := toldOnce, dispatchedAt := 3, duplicateOf := none },
    { id := 3, propertyId := some 3, identity := toldOnce, dispatchedAt := 1, duplicateOf := none },
    { id := 4, propertyId := some 3, identity := toldOnce, dispatchedAt := 2,
      duplicateOf := some 3 }]

theorem homeAlerts_sound : AlertsSound homeAlerts where
  keyed := by unfold Keyed; decide
  single := by
    intro one oneListed other otherListed property
    fin_cases oneListed <;> fin_cases otherListed <;> rintro ⟨⟩ placed <;> simp_all
  pointed := by
    intro row listed property twin
    fin_cases listed <;> rintro ⟨⟩ ⟨⟩
    exact ⟨_, List.mem_cons_of_mem _ (List.mem_cons_of_mem _ List.mem_cons_self), rfl, rfl, rfl, rfl⟩

theorem home_alerts_survive :
    AlertsSurvive { identity := Identity.threeHomes.run [], alerts := homeAlerts }
      (Alerted.run { identity := Identity.threeHomes.run [], alerts := homeAlerts }
        [Identity.joinHomes [2, 3] 1, Identity.joinHomes [1, 2] 2]) :=
  alerts_survive_merges Identity.threeHomes_initial [] homeAlerts homeAlerts_sound _

end Sreality.Toolkit
