import Sreality.Autodedup.ContextRail
import Sreality.Foundation.Tables

/-! What the rail re-opens: every overtaken merge filed under a block the pass touched, the capped
ones apart, and no merge filed under another block. -/

set_option autoImplicit false

namespace Sreality.Autodedup

open Sreality.Foundation

/-! ### The plan -/

namespace RailPlan

variable {settings : RailSettings} {index : ContextIndex} {listings : Nat → Option CensusListing}

/-- The plan re-opens a merge or defers it. -/
def Takes (plan : RailPlan) (merge : StampedMerge) : Prop :=
  (∃ action ∈ plan.actions, action.lo = merge.lo ∧ action.hi = merge.hi) ∨ merge ∈ plan.deferred

/-- One merge adds at most itself. -/
theorem step_cases (plan : RailPlan) (merge : StampedMerge) :
    step settings index listings plan merge = plan ∨
    step settings index listings plan merge =
      { plan with deferred := plan.deferred ++ [merge] } ∨
    ∃ perBlock limb current, step settings index listings plan merge =
      { plan with
        perBlock := perBlock
        actions := plan.actions ++
          [⟨merge.lo, merge.hi, limb, merge.block, merge.stamp, current⟩] } := by
  rw [step]
  by_cases exempt : merge.certified = true
  · rw [if_pos exempt]
    exact Or.inl rfl
  · rw [if_neg exempt]
    split
    · dsimp only
      split
      · exact Or.inl rfl
      · split_ifs
        · exact Or.inr (Or.inl rfl)
        · exact Or.inr (Or.inr ⟨_, _, _, rfl⟩)
    · exact Or.inl rfl

theorem step_keeps {plan : RailPlan} {earlier : StampedMerge} (merge : StampedMerge)
    (taken : plan.Takes earlier) :
    (step settings index listings plan merge).Takes earlier := by
  rcases @step_cases settings index listings plan merge with same | deferred | ⟨_, _, _, reopened⟩
  · rw [same]
    exact taken
  · rw [deferred]
    rcases taken with ⟨action, held, of⟩ | held
    · exact Or.inl ⟨action, held, of⟩
    · exact Or.inr (List.mem_append_left _ held)
  · rw [reopened]
    rcases taken with ⟨action, held, of⟩ | held
    · exact Or.inl ⟨action, List.mem_append_left _ held, of⟩
    · exact Or.inr held

theorem step_takes {plan : RailPlan} {merge : StampedMerge} {a b : CensusListing}
    {limb : RailLimb} (uncertified : merge.certified = false)
    (lo : listings merge.lo = some a) (hi : listings merge.hi = some b)
    (crossed : railReopen settings merge.stamp (index.stamp merge.lo merge.hi a b) = some limb) :
    (step settings index listings plan merge).Takes merge := by
  rw [step, if_neg (by simp [uncertified]), lo, hi]
  dsimp only
  rw [crossed]
  dsimp only
  split_ifs
  · exact Or.inr (List.mem_append_right _ (List.mem_singleton_self _))
  · exact Or.inl ⟨_, List.mem_append_right _ (List.mem_singleton_self _), rfl, rfl⟩

/-- A plan over some merges takes only merges of them. -/
structure From (merges : List StampedMerge) (plan : RailPlan) : Prop where
  actions : ∀ action ∈ plan.actions, ∃ merge ∈ merges, merge.lo = action.lo ∧ merge.hi = action.hi
  deferred : ∀ merge ∈ plan.deferred, merge ∈ merges

theorem step_from {merges : List StampedMerge} {plan : RailPlan} (taken : plan.From merges)
    {merge : StampedMerge} (listed : merge ∈ merges) :
    (step settings index listings plan merge).From merges := by
  rcases @step_cases settings index listings plan merge with same | deferred | ⟨_, _, _, reopened⟩
  · rw [same]
    exact taken
  · rw [deferred]
    refine ⟨taken.actions, fun other held => ?_⟩
    rcases List.mem_append.mp held with earlier | last
    · exact taken.deferred other earlier
    · rw [List.mem_singleton.mp last]
      exact listed
  · rw [reopened]
    refine ⟨fun action held => ?_, taken.deferred⟩
    rcases List.mem_append.mp held with earlier | last
    · exact taken.actions action earlier
    · rw [List.mem_singleton.mp last]
      exact ⟨merge, listed, rfl, rfl⟩

theorem run_keeps {plan : RailPlan} {earlier : StampedMerge} (merges : List StampedMerge)
    (taken : plan.Takes earlier) :
    (merges.foldl (step settings index listings) plan).Takes earlier := by
  induction merges generalizing plan with
  | nil => exact taken
  | cons head rest ih => exact ih (step_keeps head taken)

theorem run_from {merges all : List StampedMerge} {plan : RailPlan} (taken : plan.From all)
    (listed : ∀ merge ∈ merges, merge ∈ all) :
    (merges.foldl (step settings index listings) plan).From all := by
  induction merges generalizing plan with
  | nil => exact taken
  | cons head rest ih =>
      exact ih (step_from taken (listed head List.mem_cons_self)) fun merge later =>
        listed merge (List.mem_cons_of_mem _ later)

theorem run_takes {merges : List StampedMerge} {plan : RailPlan} {merge : StampedMerge}
    (listed : merge ∈ merges) {a b : CensusListing} {limb : RailLimb}
    (uncertified : merge.certified = false)
    (lo : listings merge.lo = some a) (hi : listings merge.hi = some b)
    (crossed : railReopen settings merge.stamp (index.stamp merge.lo merge.hi a b) = some limb) :
    (merges.foldl (step settings index listings) plan).Takes merge := by
  induction merges generalizing plan with
  | nil => cases listed
  | cons head rest ih =>
      rcases List.mem_cons.mp listed with rfl | later
      · exact run_keeps rest (step_takes uncertified lo hi crossed)
      · exact ih later

end RailPlan

theorem railPlan_takes {settings : RailSettings} {index : ContextIndex}
    {listings : Nat → Option CensusListing} {merges : List StampedMerge} {merge : StampedMerge}
    (listed : merge ∈ merges) {a b : CensusListing} {limb : RailLimb}
    (uncertified : merge.certified = false)
    (lo : listings merge.lo = some a) (hi : listings merge.hi = some b)
    (crossed : railReopen settings merge.stamp (index.stamp merge.lo merge.hi a b) = some limb) :
    (railPlan settings index listings merges).Takes merge :=
  RailPlan.run_takes (mem_sortedBy.mpr listed) uncertified lo hi crossed

theorem railPlan_from (settings : RailSettings) (index : ContextIndex)
    (listings : Nat → Option CensusListing) (merges : List StampedMerge) :
    (railPlan settings index listings merges).From merges :=
  RailPlan.run_from ⟨fun _ held => absurd held List.not_mem_nil,
    fun _ held => absurd held List.not_mem_nil⟩ fun _ listed => mem_sortedBy.mp listed

/-! ### The working set and its census -/

theorem lookup_read (facts : Nat → Option CensusFacts) {ids : List Nat} {listing : Nat}
    (asked : listing ∈ ids) :
    (ids.filterMap fun listing => (facts listing).map fun read => (listing, read)).lookup listing =
      facts listing := by
  induction ids with
  | nil => cases asked
  | cons head rest ih =>
      by_cases same : listing = head
      · subst same
        cases found : facts listing with
        | some read => simp [found]
        | none =>
            rw [List.filterMap_cons_none (by simp [found]), lookup_eq_none_iff_key]
            intro held
            obtain ⟨entry, inside, of⟩ := List.mem_map.mp held
            obtain ⟨other, -, read⟩ := List.mem_filterMap.mp inside
            obtain ⟨facts', found', rfl⟩ := Option.map_eq_some_iff.mp read
            subst of
            rw [found] at found'
            cases found'
      · have later : listing ∈ rest := (List.mem_cons.mp asked).resolve_left same
        cases found : facts head with
        | none => rw [List.filterMap_cons_none (by simp [found]), ih later]
        | some read =>
            rw [List.filterMap_cons_some (b := (head, read)) (by simp [found]), List.lookup_cons,
              beq_false_of_ne same]
            exact ih later

/-- A side the rail asks for is the one held, else the one read. -/
theorem lookup_ensureHeld (facts : Nat → Option CensusFacts) (held : List (Nat × CensusFacts))
    {ids : List Nat} {listing : Nat} (asked : listing ∈ ids) :
    (ensureHeld facts held ids).lookup listing = (held.lookup listing).or (facts listing) := by
  rw [ensureHeld, List.lookup_append]
  cases found : held.lookup listing with
  | some read => rfl
  | none =>
      rw [lookup_read facts]
      exact List.mem_filter.mpr ⟨List.mem_dedup.mpr asked, by simp [found]⟩

/-- The census of a pair held is the wider of its two cells' counts. -/
theorem census_cellSize {store : MemoryStore RowContext} {held : List (Nat × CensusFacts)}
    {lo hi : Nat} {a b : CensusFacts} (loHeld : held.lookup lo = some a)
    (hiHeld : held.lookup hi = some b) :
    (census store held).cellSize a.listing b.listing =
      max (store.nListings a.listing.cell) (store.nListings b.listing.cell) := by
  have counted : ∀ {listing : Nat} {facts : CensusFacts}, held.lookup listing = some facts →
      (census store held).cells facts.listing.cell = store.cell facts.listing.cell := by
    intro listing facts found
    exact if_pos (List.mem_map.mpr ⟨_, mem_of_lookup found, rfl⟩)
  rw [ContextIndex.cellSize, ContextIndex.pairCell, counted loHeld, counted hiHeld,
    MemoryStore.nListings, MemoryStore.nListings]
  cases store.cell a.listing.cell with
  | none => simp
  | some left =>
      cases store.cell b.listing.cell with
      | none => simp
      | some right =>
          dsimp only [Option.map_some, Option.getD_some]
          split_ifs with wider
          · exact (max_eq_right wider.le).symm
          · exact (max_eq_left (not_lt.mp wider)).symm

/-! ### The rows a rail leaves -/

abbrev PairRow.key (row : PairRow RowContext) : Nat × Nat := (row.lo, row.hi)

section Rows

variable {store : MemoryStore RowContext}

theorem pairAt_of_mem (keyed : Keyed PairRow.key store.pairs) {row : PairRow RowContext}
    (held : row ∈ store.pairs) : store.pairAt row.lo row.hi = some row := by
  cases found : store.pairAt row.lo row.hi with
  | none => simpa using List.find?_eq_none.mp found row held
  | some other =>
      have same : other.lo = row.lo ∧ other.hi = row.hi := by simpa using List.find?_some found
      exact congrArg some (keyed.eq (List.mem_of_find?_eq_some found) held
        (Prod.ext same.1 same.2))

theorem mem_of_pairAt {lo hi : Nat} {row : PairRow RowContext}
    (found : store.pairAt lo hi = some row) : row ∈ store.pairs ∧ row.lo = lo ∧ row.hi = hi := by
  have same : row.lo = lo ∧ row.hi = hi := by simpa using List.find?_some found
  exact ⟨List.mem_of_find?_eq_some found, same⟩

/-- A row a rail writes is one of the store's, back in the band. -/
theorem demotion_some {action : RailAction} {row : PairRow RowContext}
    (demoted : demotion store action = some row) :
    row.zone = .band ∧ row.key = (action.lo, action.hi) ∧
      ∃ old ∈ store.pairs, old.key = row.key := by
  rw [demotion] at demoted
  split at demoted
  · next old found =>
    split_ifs at demoted
    obtain ⟨held, lo, hi⟩ := mem_of_pairAt found
    cases demoted
    exact ⟨rfl, Prod.ext lo hi, old, held, rfl⟩
  · cases demoted

/-- What a store's rows are once some of them are written back in the band. -/
structure Demoted (before after : List (PairRow RowContext)) (keys : List (Nat × Nat)) : Prop where
  keys_eq : after.map PairRow.key = before.map PairRow.key
  kept : ∀ row ∈ after, row.key ∉ keys → row ∈ before
  band : ∀ row ∈ after, row.key ∈ keys → row.zone = .band

theorem foldl_upsertPair {rows : List (PairRow RowContext)}
    (band : ∀ row ∈ rows, row.zone = .band)
    (known : ∀ row ∈ rows, row.key ∈ store.pairs.map PairRow.key) :
    Demoted store.pairs (rows.foldl MemoryStore.upsertPair store).pairs (rows.map PairRow.key) := by
  induction rows generalizing store with
  | nil => exact ⟨rfl, fun row held _ => held, fun row _ none => absurd none List.not_mem_nil⟩
  | cons head rest ih =>
      have present : (store.pairAt head.lo head.hi).isSome = true := by
        obtain ⟨old, held, same⟩ := List.mem_map.mp (known head List.mem_cons_self)
        rw [MemoryStore.pairAt, List.find?_isSome]
        refine ⟨old, held, ?_⟩
        simpa [PairRow.key] using same
      have written : (store.upsertPair head).pairs = store.pairs.map fun other =>
          if other.lo = head.lo ∧ other.hi = head.hi then head else other := if_pos present
      have keys : (store.upsertPair head).pairs.map PairRow.key = store.pairs.map PairRow.key := by
        rw [written, List.map_map]
        apply List.map_congr_left
        intro other _
        dsimp only [Function.comp]
        split_ifs with same
        · exact Prod.ext same.1.symm same.2.symm
        · rfl
      have later := ih (fun row held => band row (List.mem_cons_of_mem _ held))
        fun row held => keys.symm ▸ known row (List.mem_cons_of_mem _ held)
      have once : ∀ row ∈ (store.upsertPair head).pairs,
          row = head ∨ row.key ≠ head.key ∧ row ∈ store.pairs := by
        intro row held
        rw [written] at held
        obtain ⟨other, otherHeld, rfl⟩ := List.mem_map.mp held
        split_ifs with same
        · exact Or.inl rfl
        · exact Or.inr ⟨fun equal => same ⟨congrArg Prod.fst equal, congrArg Prod.snd equal⟩,
            otherHeld⟩
      refine ⟨later.keys_eq.trans keys, fun row held apart => ?_, fun row held named => ?_⟩
      · rw [List.map_cons, List.mem_cons, not_or] at apart
        rcases once row (later.kept row held apart.2) with rfl | ⟨-, earlier⟩
        · exact absurd rfl apart.1
        · exact earlier
      · by_cases again : row.key ∈ rest.map PairRow.key
        · exact later.band row held again
        · rcases once row (later.kept row held again) with rfl | ⟨other, -⟩
          · exact band row List.mem_cons_self
          · rw [List.map_cons, List.mem_cons] at named
            exact absurd (named.resolve_right again) other

theorem mem_stampedMerges {blocks : List String} {merge : StampedMerge} :
    merge ∈ store.stampedMerges blocks ↔
      ∃ row ∈ store.pairs, row.zone = .merge ∧ row.detail.block ∈ blocks ∧
        ∃ stamp, ContextStamp.fromEvidence row.evidence = some stamp ∧
          merge = ⟨row.lo, row.hi, stamp, row.detail.block, row.certified⟩ := by
  rw [MemoryStore.stampedMerges, List.mem_filterMap]
  constructor
  · rintro ⟨row, held, listed⟩
    split_ifs at listed with skipped
    obtain ⟨stamp, read, rfl⟩ := Option.map_eq_some_iff.mp listed
    rw [not_or, not_not, not_not] at skipped
    exact ⟨row, held, skipped.1, skipped.2, stamp, read, rfl⟩
  · rintro ⟨row, held, merged, inside, stamp, read, rfl⟩
    refine ⟨row, held, ?_⟩
    rw [if_neg (by simp [merged, inside]), read]
    rfl

end Rows

/-- The facts a rail reads of a listing: those held, else those the source hands over. -/
def sideFacts (facts : Nat → Option CensusFacts) (held : List (Nat × CensusFacts))
    (listing : Nat) : Option CensusFacts :=
  (held.lookup listing).or (facts listing)

/-- A stored merge the rail owes: uncertified, stamped below the block limb, and overtaken by the
wider of its two cells, one of them touched. -/
def Owed (settings : RailSettings) (store : MemoryStore RowContext)
    (facts : Nat → Option CensusFacts) (held : List (Nat × CensusFacts)) (touched : List CellKey)
    (row : PairRow RowContext) : Prop :=
  row ∈ store.pairs ∧ row.zone = .merge ∧ row.certified = false ∧
    ∃ least stamp a b, settings.blockMin = some least ∧
      ContextStamp.fromEvidence row.evidence = some stamp ∧ stamp.cellN < least ∧
      sideFacts facts held row.lo = some a ∧ sideFacts facts held row.hi = some b ∧
      least ≤ max (store.nListings a.listing.cell) (store.nListings b.listing.cell) ∧
      (a.listing.cell ∈ touched ∨ b.listing.cell ∈ touched)

/-- The rail sent a row back to the band, or the cap deferred it. -/
def Handled (outcome : RailOutcome) (row : PairRow RowContext) : Prop :=
  (∃ after ∈ outcome.store.pairs, after.key = row.key ∧ after.zone = .band) ∨
    ∃ merge ∈ outcome.deferred, merge.lo = row.lo ∧ merge.hi = row.hi

section Rail

variable {settings : RailSettings} {store : MemoryStore RowContext}
  {facts : Nat → Option CensusFacts} {held : List (Nat × CensusFacts)} {blocks : List String}
  {recluster : MemoryStore RowContext → List Nat → List (Nat × List Nat)}

/-- The plan a rail acts on. -/
def plannedRail (settings : RailSettings) (store : MemoryStore RowContext)
    (facts : Nat → Option CensusFacts) (held : List (Nat × CensusFacts)) (blocks : List String) :
    RailPlan :=
  let working := ensureHeld facts held
    ((store.stampedMerges blocks).flatMap fun merge => [merge.lo, merge.hi])
  railPlan settings (census store working)
    (fun listing => (working.lookup listing).map CensusFacts.listing) (store.stampedMerges blocks)

/-- A rail leaves its rows as they were but for those its plan re-opens. -/
theorem runRail_cases (settings : RailSettings) (store : MemoryStore RowContext)
    (facts : Nat → Option CensusFacts) (held : List (Nat × CensusFacts)) (blocks : List String)
    (recluster : MemoryStore RowContext → List Nat → List (Nat × List Nat)) :
    (((settings.blockMin = none ∧ settings.imagePopulationMin = none) ∨
        store.stampedMerges blocks = []) ∧
      runRail settings store facts held blocks recluster = ⟨store, [], []⟩) ∨
    (runRail settings store facts held blocks recluster).store.pairs =
        (((plannedRail settings store facts held blocks).actions.filterMap
          (demotion store)).foldl MemoryStore.upsertPair store).pairs ∧
      (runRail settings store facts held blocks recluster).deferred =
        (plannedRail settings store facts held blocks).deferred := by
  rw [runRail]
  by_cases off : (settings.blockMin = none ∧ settings.imagePopulationMin = none) ∨ blocks = []
  · rw [if_pos off]
    refine Or.inl ⟨off.imp_right fun none => ?_, rfl⟩
    subst none
    rw [MemoryStore.stampedMerges, List.filterMap_eq_nil_iff]
    intro row _
    exact if_pos (Or.inr List.not_mem_nil)
  · rw [if_neg off]
    dsimp only
    by_cases none : (store.stampedMerges blocks).isEmpty = true
    · rw [if_pos none]
      exact Or.inl ⟨Or.inr (List.isEmpty_iff.mp none), rfl⟩
    · rw [if_neg none]
      refine Or.inr ?_
      split_ifs with still
      · refine ⟨?_, rfl⟩
        rw [plannedRail, List.isEmpty_iff.mp still]
        rfl
      · exact ⟨rfl, rfl⟩

theorem plannedRail_from (settings : RailSettings) (store : MemoryStore RowContext)
    (facts : Nat → Option CensusFacts) (held : List (Nat × CensusFacts)) (blocks : List String) :
    (plannedRail settings store facts held blocks).From (store.stampedMerges blocks) :=
  railPlan_from _ _ _ _

/-- Each row an action names goes back to the band, and no other row moves. -/
theorem planned_rows (settings : RailSettings) (facts : Nat → Option CensusFacts)
    (held : List (Nat × CensusFacts)) (blocks : List String)
    (keyed : Keyed PairRow.key store.pairs) :
    Demoted store.pairs
      (((plannedRail settings store facts held blocks).actions.filterMap
        (demotion store)).foldl MemoryStore.upsertPair store).pairs
      ((plannedRail settings store facts held blocks).actions.map
        fun action => (action.lo, action.hi)) := by
  have taken := plannedRail_from settings store facts held blocks
  have each : ∀ action ∈ (plannedRail settings store facts held blocks).actions,
      ∃ row, demotion store action = some row := by
    intro action planned
    obtain ⟨merge, listed, lo, hi⟩ := taken.actions action planned
    obtain ⟨row, rowHeld, merged, -, stamp, -, rfl⟩ := mem_stampedMerges.mp listed
    rw [demotion, ← lo, ← hi, pairAt_of_mem keyed rowHeld]
    exact ⟨_, if_pos merged⟩
  have keys : ((plannedRail settings store facts held blocks).actions.filterMap
      (demotion store)).map PairRow.key =
      (plannedRail settings store facts held blocks).actions.map
        fun action => (action.lo, action.hi) := by
    generalize (plannedRail settings store facts held blocks).actions = actions at each
    induction actions with
    | nil => rfl
    | cons head rest ih =>
        obtain ⟨row, demoted⟩ := each head List.mem_cons_self
        rw [List.filterMap_cons_some demoted, List.map_cons, List.map_cons,
          (demotion_some demoted).2.1, ih fun action later =>
            each action (List.mem_cons_of_mem _ later)]
  rw [← keys]
  apply foldl_upsertPair
  · intro row written
    obtain ⟨action, -, demoted⟩ := List.mem_filterMap.mp written
    exact (demotion_some demoted).1
  · intro row written
    obtain ⟨action, -, demoted⟩ := List.mem_filterMap.mp written
    obtain ⟨old, oldHeld, same⟩ := (demotion_some demoted).2.2
    exact List.mem_map.mpr ⟨old, oldHeld, same⟩

/-- An overtaken merge filed under one of the blocks is taken. -/
theorem planned_takes {touched : List CellKey} {row : PairRow RowContext}
    (owed : Owed settings store facts held touched row) (filed : row.detail.block ∈ blocks) :
    ∃ merge ∈ store.stampedMerges blocks, merge.lo = row.lo ∧ merge.hi = row.hi ∧
      (plannedRail settings store facts held blocks).Takes merge := by
  obtain ⟨rowHeld, merged, uncertified, least, stamp, a, b, limb, read, under, lo, hi, grown, -⟩ :=
    owed
  have listed : ⟨row.lo, row.hi, stamp, row.detail.block, row.certified⟩ ∈
      store.stampedMerges blocks :=
    mem_stampedMerges.mpr ⟨row, rowHeld, merged, filed, stamp, read, rfl⟩
  refine ⟨_, listed, rfl, rfl, ?_⟩
  have asked : ∀ listing ∈ [row.lo, row.hi], listing ∈
      (store.stampedMerges blocks).flatMap fun merge => [merge.lo, merge.hi] :=
    fun listing side => List.mem_flatMap.mpr ⟨_, listed, side⟩
  have loRead := lookup_ensureHeld facts held (asked row.lo List.mem_cons_self)
  have hiRead := lookup_ensureHeld facts held
    (asked row.hi (List.mem_cons_of_mem _ (List.mem_singleton_self _)))
  rw [show (held.lookup row.lo).or (facts row.lo) = some a from lo] at loRead
  rw [show (held.lookup row.hi).or (facts row.hi) = some b from hi] at hiRead
  have crossed : railReopen settings stamp ((census store (ensureHeld facts held
      ((store.stampedMerges blocks).flatMap fun merge => [merge.lo, merge.hi]))).stamp
        row.lo row.hi a.listing b.listing) = some .catalogueBlock := by
    rw [railReopen, limb]
    refine if_pos (decide_eq_true ⟨under, ?_⟩)
    rw [ContextIndex.stamp, census_cellSize loRead hiRead]
    exact_mod_cast grown
  exact railPlan_takes listed uncertified (congrArg _ loRead) (congrArg _ hiRead) crossed

theorem runRail_handles (keyed : Keyed PairRow.key store.pairs) {touched : List CellKey}
    {row : PairRow RowContext} (owed : Owed settings store facts held touched row)
    (filed : row.detail.block ∈ blocks) :
    Handled (runRail settings store facts held blocks recluster) row := by
  obtain ⟨merge, listed, lo, hi, taken⟩ := planned_takes owed filed
  rcases runRail_cases settings store facts held blocks recluster with
    ⟨off | none, -⟩ | ⟨pairs, deferred⟩
  · obtain ⟨-, -, -, least, -, -, -, limb, -⟩ := owed
    rw [off.1] at limb
    cases limb
  · rw [none] at listed
    cases listed
  · rcases taken with ⟨action, planned, of⟩ | put
    · refine Or.inl ?_
      have rows := planned_rows settings facts held blocks keyed
      rw [← pairs] at rows
      have named : row.key ∈ (runRail settings store facts held blocks
          recluster).store.pairs.map PairRow.key := by
        rw [rows.keys_eq]
        exact List.mem_map_of_mem owed.1
      obtain ⟨after, afterHeld, same⟩ := List.mem_map.mp named
      refine ⟨after, afterHeld, same, rows.band after afterHeld ?_⟩
      rw [same]
      exact List.mem_map.mpr ⟨action, planned, Prod.ext (of.1.trans lo) (of.2.trans hi)⟩
    · refine Or.inr ⟨merge, ?_, lo, hi⟩
      rw [deferred]
      exact put

/-- A merge filed under no touched block stays as it is. -/
theorem runRail_passes_by (keyed : Keyed PairRow.key store.pairs) {row : PairRow RowContext}
    (rowHeld : row ∈ store.pairs) (merged : row.zone = .merge) (unfiled : row.detail.block ∉ blocks) :
    ¬ Handled (runRail settings store facts held blocks recluster) row := by
  have unlisted : ∀ merge ∈ store.stampedMerges blocks, (merge.lo, merge.hi) ≠ row.key := by
    intro merge listed same
    obtain ⟨other, otherHeld, -, filed, stamp, -, rfl⟩ := mem_stampedMerges.mp listed
    rw [keyed.eq otherHeld rowHeld same] at filed
    exact unfiled filed
  have stays : ∀ {after : List (PairRow RowContext)},
      Keyed PairRow.key after → row ∈ after →
        ¬ ∃ other ∈ after, other.key = row.key ∧ other.zone = .band := by
    rintro after afterKeyed inside ⟨other, otherHeld, same, band⟩
    rw [afterKeyed.eq otherHeld inside same, merged] at band
    cases band
  have taken := plannedRail_from settings store facts held blocks
  rcases runRail_cases settings store facts held blocks recluster with
    ⟨-, same⟩ | ⟨pairs, deferred⟩
  · rw [same]
    rintro (moved | ⟨merge, put, -⟩)
    · exact stays keyed rowHeld moved
    · cases put
  · have rows := planned_rows settings facts held blocks keyed
    rw [← pairs] at rows
    rintro (moved | ⟨merge, put, lo, hi⟩)
    · have afterKeyed : Keyed PairRow.key
          (runRail settings store facts held blocks recluster).store.pairs := by
        rw [Keyed, rows.keys_eq]
        exact keyed
      obtain ⟨other, otherHeld, sameKey, band⟩ := moved
      have unnamed : other.key ∉ (plannedRail settings store facts held blocks).actions.map
          fun action => (action.lo, action.hi) := by
        intro named
        obtain ⟨action, planned, key⟩ := List.mem_map.mp named
        obtain ⟨merge, listed, lo, hi⟩ := taken.actions action planned
        exact unlisted merge listed ((Prod.ext lo hi : (merge.lo, merge.hi) = _).trans
          (key.trans sameKey))
      have before := rows.kept other otherHeld unnamed
      rw [keyed.eq before rowHeld sameKey, merged] at band
      cases band
    · rw [deferred] at put
      exact unlisted merge (taken.deferred merge put) (Prod.ext lo hi)

end Rail

/-- The rail of a pass handles a merge it owes exactly if the block on its row is one the pass
touched. -/
theorem rail_handles_iff (settings : RailSettings) (store : MemoryStore RowContext)
    (items : List WorkItem) (read : Nat → Option ReadListing)
    (settle : MemoryStore RowContext → MemoryStore RowContext)
    (facts : Nat → Option CensusFacts) (held : List (Nat × CensusFacts))
    (recluster : MemoryStore RowContext → List Nat → List (Nat × List Nat))
    (keyed : Keyed PairRow.key (settle (refreshed store items read).apply).pairs)
    (row : PairRow RowContext)
    (owed : Owed settings (settle (refreshed store items read).apply) facts held
      (touchedCells store items read) row) :
    Handled (passRail settings store items read settle facts held recluster) row ↔
      row.detail.block ∈ (touchedCells store items read).map Prod.fst := by
  have blocks : row.detail.block ∈ touchedBlocks store items read ↔
      row.detail.block ∈ (touchedCells store items read).map Prod.fst := by
    rw [touchedBlocks, mem_sortedBy, List.mem_dedup]
  rw [← blocks]
  constructor
  · intro handled
    by_contra unfiled
    exact runRail_passes_by keyed owed.1 owed.2.1 unfiled handled
  · exact runRail_handles keyed owed

/-! ### A merge of two blocks -/

def advertIn (block : String) : CensusListing where
  block := block
  group := "byt|prodej"
  shape := "2+kk"
  brokerKey := none
  sourceIdNative := none

/-- A promotion taken under a cell of two, filed under its lo side's block. -/
def promotion : PairRow RowContext where
  lo := 1
  hi := 2
  probes := ["street"]
  fromLo := true
  fromHi := true
  zone := .merge
  certificate := none
  veto := none
  reason := "rule"
  evidence := [("context_cell_n", "2"), ("context_image_pop_min", "0")]
  detail := ⟨2, 0, false, "Husova"⟩

/-- Two adverts in each of two blocks, and one promotion across them. -/
def twoBlocks : MemoryStore RowContext where
  now := none
  postings := fun _ => []
  keys := fun _ => none
  fp := fun _ => none
  cell := fun cell =>
    if cell = ("Husova", "byt|prodej") ∨ cell = ("Dlouhá", "byt|prodej") then
      some { nListings := 2 }
    else none
  pairs := [promotion]
  clusters := [(1, [1, 2])]

/-- A third advert of a block. -/
def thirdAdvert (block : String) : ReadListing where
  guard := { listingId := 3 }
  digest := "f3"
  dd := "d3"
  census := advertIn block
  isActive := true
  indexKeys := []

def twoBlockFacts (listing : Nat) : Option CensusFacts :=
  if listing = 1 then some ⟨advertIn "Husova", []⟩
  else if listing = 2 then some ⟨advertIn "Dlouhá", []⟩
  else none

/-- The block limb alone, at three. -/
def blockLimb : RailSettings where
  blockMin := some 3
  imagePopulationMin := none
  maxReopenPerBlock := 5

theorem promotion_owed {block : String} (inside : block = "Husova" ∨ block = "Dlouhá") :
    Owed blockLimb (refreshed twoBlocks [⟨3, false, false⟩] fun _ => some (thirdAdvert block)).apply
      twoBlockFacts [] (touchedCells twoBlocks [⟨3, false, false⟩] fun _ => some (thirdAdvert block))
      promotion := by
  rcases inside with rfl | rfl
  · refine ⟨List.mem_singleton_self _, rfl, rfl, 3, ⟨2, 0⟩, ⟨advertIn "Husova", []⟩,
      ⟨advertIn "Dlouhá", []⟩, rfl, ?_, by decide, rfl, rfl, ?_, Or.inl ?_⟩
    · decide +kernel
    · decide +kernel
    · decide +kernel
  · refine ⟨List.mem_singleton_self _, rfl, rfl, 3, ⟨2, 0⟩, ⟨advertIn "Husova", []⟩,
      ⟨advertIn "Dlouhá", []⟩, rfl, ?_, by decide, rfl, rfl, ?_, Or.inr ?_⟩
    · decide +kernel
    · decide +kernel
    · decide +kernel

theorem rail_handles_lo_block :
    Handled (passRail blockLimb twoBlocks [⟨3, false, false⟩] (fun _ => some (thirdAdvert "Husova"))
      id twoBlockFacts [] fun store _ => store.clusters) promotion :=
  (rail_handles_iff blockLimb twoBlocks [⟨3, false, false⟩]
    (fun _ => some (thirdAdvert "Husova")) id twoBlockFacts [] (fun store _ => store.clusters)
    (List.nodup_singleton _) promotion (promotion_owed (Or.inl rfl))).mpr (by decide +kernel)

/-- The hi side's block grows past the limb, and the rail does not look. -/
theorem hi_block_overlooked :
    Owed blockLimb (refreshed twoBlocks [⟨3, false, false⟩] fun _ =>
        some (thirdAdvert "Dlouhá")).apply
      twoBlockFacts []
      (touchedCells twoBlocks [⟨3, false, false⟩] fun _ => some (thirdAdvert "Dlouhá")) promotion ∧
    ¬ Handled (passRail blockLimb twoBlocks [⟨3, false, false⟩]
      (fun _ => some (thirdAdvert "Dlouhá")) id twoBlockFacts [] fun store _ => store.clusters)
      promotion := by
  refine ⟨promotion_owed (Or.inr rfl), ?_⟩
  apply runRail_passes_by
  · exact List.nodup_singleton _
  · exact List.mem_singleton_self _
  · rfl
  · decide +kernel

end Sreality.Autodedup
