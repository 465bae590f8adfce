import Mathlib.Data.List.Infix
import Mathlib.Tactic.Linarith
import Sreality.Scraper.WalkCycle

/-! What an index walk nominates it proved unseen: a group after each of its units reached the
end in the run, the orphans after each group did since the anchor, however the runs before
were cut, crashed, narrowed or timed out. -/

set_option autoImplicit false

namespace Sreality.Scraper.WalkCycle

open Sreality.Foundation

/-! ### Scopes -/

theorem columnTerm_true (label : Option String) (column : Option (Option String)) :
    (∀ term ∈ columnTerm label column, term = some true) ↔ ∀ value ∈ column, label = value := by
  cases column with
  | none => simp [columnTerm]
  | some value =>
      cases value with
      | none => cases label <;> simp [columnTerm]
      | some value => cases label <;> simp [columnTerm]

/-- A scope's predicate is true of exactly the rows that satisfy it. -/
theorem scopeSql_true (scope : Scope) (labels : Labels) :
    scopeSql scope labels = some true ↔ World.Satisfies labels scope := by
  rw [scopeSql, allOf_eq_true, World.Satisfies, List.forall_mem_append, List.forall_mem_append,
    columnTerm_true, columnTerm_true, columnTerm_true, and_assoc]

theorem orphanSql_true {scopes : List Scope} {labels : Labels}
    (orphan : orphanSql scopes labels = true) :
    ∀ scope ∈ scopes, ¬ World.Satisfies labels scope := by
  intro scope held satisfied
  have covered : anyOf (scopes.map fun scope => scopeSql scope labels) = some true := by
    rw [anyOf_eq_true]
    exact List.mem_map.mpr ⟨scope, held, (scopeSql_true scope labels).mpr satisfied⟩
  rw [orphanSql, covered] at orphan
  cases orphan

theorem mem_nominate {now : ℚ} {rows : List Row} {where_ unseen : Row → Bool} {row : Row}
    (nominated : row ∈ nominate now rows where_ unseen) :
    row ∈ rows ∧ row.isActive = true ∧ where_ row = true ∧ unseen row = true := by
  rw [nominate, mem_sortedBy, List.mem_filter] at nominated
  simp only [Bool.and_eq_true] at nominated
  obtain ⟨held, ⟨⟨active, chosen⟩, missing⟩, _⟩ := nominated
  exact ⟨held, active, chosen, missing⟩

theorem mem_presenceCandidates {now : ℚ} {rows : List Row} {scope : Scope} {seen : List String}
    {row : Row} (nominated : row ∈ presenceCandidates now rows scope seen) :
    row ∈ rows ∧ row.isActive = true ∧ World.Satisfies row.labels scope ∧
      ∀ name ∈ row.key, name ∉ seen := by
  obtain ⟨held, active, chosen, missing⟩ := mem_nominate nominated
  refine ⟨held, active, (scopeSql_true _ _).mp (of_decide_eq_true chosen), ?_⟩
  intro name own
  rw [Option.mem_def.mp own] at missing
  exact of_decide_eq_true missing

theorem presenceCandidates_named {now : ℚ} {rows : List Row} {scope : Scope} {seen : List String}
    {row : Row} (nominated : row ∈ presenceCandidates now rows scope seen) :
    ∃ name, row.key = some name := by
  obtain ⟨_, _, _, missing⟩ := mem_nominate nominated
  cases key : row.key with
  | none =>
      rw [key] at missing
      cases missing
  | some name => exact ⟨name, rfl⟩

theorem mem_orphanCandidates {now : ℚ} {rows : List Row} {scopes : List Scope} {anchor : ℚ}
    {row : Row} (nominated : row ∈ orphanCandidates now rows scopes anchor) :
    row ∈ rows ∧ row.isActive = true ∧ (∀ scope ∈ scopes, ¬ World.Satisfies row.labels scope) ∧
      ∀ seen ∈ row.lastSeenAt, seen < anchor := by
  obtain ⟨held, active, chosen, missing⟩ := mem_nominate nominated
  refine ⟨held, active, orphanSql_true chosen, ?_⟩
  intro seen own
  rw [Option.mem_def.mp own] at missing
  exact of_decide_eq_true missing

/-! ### Groups -/

variable {portal : Portal}

/-- The units of one group in a plan that takes each group whole. -/
theorem filter_planned {keys : List GroupKey} (distinct : keys.Nodup) (key : GroupKey) :
    (keys.flatMap (groupUnits portal.units)).filter (fun unit => decide (unit.scope = key)) =
      if key ∈ keys then groupUnits portal.units key else [] := by
  induction keys with
  | nil => rfl
  | cons first rest ih =>
      obtain ⟨fresh, distinct⟩ := List.nodup_cons.mp distinct
      rw [List.flatMap_cons, List.filter_append, ih distinct]
      by_cases same : first = key
      · subst same
        have own : (groupUnits portal.units first).filter
            (fun unit => decide (unit.scope = first)) = groupUnits portal.units first := by
          apply List.filter_eq_self.mpr
          exact fun unit held => (List.mem_filter.mp held).2
        rw [own, if_neg fresh, List.append_nil, if_pos List.mem_cons_self]
      · have other : (groupUnits portal.units first).filter
            (fun unit => decide (unit.scope = key)) = [] := by
          apply List.filter_eq_nil_iff.mpr
          intro unit held chosen
          have scope := of_decide_eq_true (List.mem_filter.mp held).2
          exact same (scope.symm.trans (of_decide_eq_true chosen))
        rw [other, List.nil_append]
        simp only [List.mem_cons, Ne.symm same, false_or]

/-- The outcomes of the units of one group. -/
def ofGroup (outcomes : List Outcome) (key : GroupKey) : List Outcome :=
  outcomes.filter fun outcome => decide (outcome.unit.scope = key)

theorem ofGroup_append (outcomes : List Outcome) (outcome : Outcome) (key : GroupKey) :
    ofGroup (outcomes ++ [outcome]) key =
      if outcome.unit.scope = key then ofGroup outcomes key ++ [outcome] else ofGroup outcomes key := by
  rw [ofGroup, List.filter_append]
  split_ifs with same
  · rw [List.filter_cons_of_pos (by simpa using same), List.filter_nil]
    rfl
  · rw [List.filter_cons_of_neg (by simpa using same), List.filter_nil, List.append_nil]
    rfl

/-- The outcomes follow the plan: each group's units in their order, each at most once. -/
def Followed (portal : Portal) (outcomes : List Outcome) : Prop :=
  ∀ key, ((ofGroup outcomes key).map (·.unit)).IsPrefix (groupUnits portal.units key)

theorem followed_of_planned {outcomes : List Outcome} {keys : List GroupKey} {rest : List WalkUnit}
    (distinct : keys.Nodup)
    (planned : outcomes.map (·.unit) ++ rest = keys.flatMap (groupUnits portal.units)) :
    Followed portal outcomes := by
  intro key
  have filtered : (ofGroup outcomes key).map (·.unit) ++
      rest.filter (fun unit => decide (unit.scope = key)) =
      if key ∈ keys then groupUnits portal.units key else [] := by
    rw [← filter_planned distinct key, ← planned, List.filter_append, List.filter_map]
    rfl
  split_ifs at filtered with among
  · exact ⟨_, filtered⟩
  · rw [(List.append_eq_nil_iff.mp filtered).1]
    exact List.nil_prefix

/-- A group walked to its last unit, each at the end. -/
theorem walked_of_full {outcomes : List Outcome} (followed : Followed portal outcomes)
    {key : GroupKey} (full : (ofGroup outcomes key).length = (groupUnits portal.units key).length)
    (reached : ∀ outcome ∈ outcomes, outcome.unit.scope = key → outcome.reached = true) :
    World.Walked portal outcomes key :=
  ⟨(followed key).eq_of_length (by rw [List.length_map, full]), reached⟩

theorem Walked.full {outcomes : List Outcome} {key : GroupKey}
    (walked : World.Walked portal outcomes key) :
    (ofGroup outcomes key).length = (groupUnits portal.units key).length := by
  have units := congrArg List.length walked.1
  rw [List.length_map] at units
  exact units

/-! ### The ledger -/

theorem runReached_isSome {entries : List Entry} {size : GroupKey → Nat} {key : GroupKey}
    (reached : (runReached entries size key).isSome) :
    entries.filter (fun entry => !entry.closes && decide (entry.scope = key)) ≠ [] ∧
    (entries.filter fun entry => !entry.closes && decide (entry.scope = key)).length = size key ∧
    (entries.filter fun entry => !entry.closes && decide (entry.scope = key)).all (·.reached) := by
  by_contra short
  rw [runReached, if_neg short] at reached
  cases reached

/-- The groups a ledger run reached, of those whose units it was sized by. -/
theorem walked_of_runReached {entries : List Entry} {outcomes : List Outcome}
    (followed : Followed portal outcomes)
    (recorded : (entries.filter fun entry => !entry.closes).Sublist
      ((outcomes.map Outcome.entry).filter fun entry => !entry.closes))
    {keys : List GroupKey} {key : GroupKey}
    (reached : (runReached entries (sizes portal keys) key).isSome) :
    World.Walked portal outcomes key := by
  obtain ⟨some_, sized, ended⟩ := runReached_isSome reached
  have among : (groupUnits portal.units key).length =
      (entries.filter fun entry => !entry.closes && decide (entry.scope = key)).length := by
    unfold sizes at sized
    by_cases configured : key ∈ keys
    · rw [if_pos configured] at sized
      exact sized.symm
    · rw [if_neg configured] at sized
      exact absurd (List.eq_nil_of_length_eq_zero sized) some_
  have own : (entries.filter fun entry => !entry.closes && decide (entry.scope = key)).Sublist
      ((ofGroup outcomes key).map Outcome.entry) := by
    have kept := recorded.filter fun entry => decide (entry.scope = key)
    rw [List.filter_filter, List.filter_filter] at kept
    have within : ((outcomes.map Outcome.entry).filter fun entry =>
        decide (entry.scope = key) && !entry.closes).Sublist
        ((outcomes.map Outcome.entry).filter fun entry => decide (entry.scope = key)) := by
      apply List.monotone_filter_right
      intro entry held
      exact (Bool.and_eq_true_iff.mp held).1
    have named : (outcomes.map Outcome.entry).filter (fun entry => decide (entry.scope = key)) =
        (ofGroup outcomes key).map Outcome.entry := by
      rw [ofGroup, List.filter_map]
      rfl
    rw [named] at within
    have commuted : (entries.filter fun entry => !entry.closes && decide (entry.scope = key)) =
        entries.filter fun entry => decide (entry.scope = key) && !entry.closes := by
      apply List.filter_congr
      intro entry _
      exact Bool.and_comm _ _
    rw [commuted]
    exact kept.trans within
  have bounded := (followed key).length_le
  rw [List.length_map] at bounded
  have whole := own.eq_of_length_le (by rw [List.length_map, ← among]; exact bounded)
  apply walked_of_full followed
  · have lengths := congrArg List.length whole
    rw [List.length_map] at lengths
    rw [← lengths, among]
  · intro outcome held scope
    have entered : outcome.entry ∈
        entries.filter fun entry => !entry.closes && decide (entry.scope = key) := by
      rw [whole]
      exact List.mem_map_of_mem (List.mem_filter.mpr ⟨held, decide_eq_true scope⟩)
    exact List.all_eq_true.mp ended _ entered

/-! ### The open cycle -/

theorem sinceEnd_concat (ledger : List LedgerRun) (run : LedgerRun) :
    sinceEnd (ledger ++ [run]) =
      if run.entries.any Entry.closes then []
      else sinceEnd ledger ++ if run.entries = [] then [] else [run] := by
  unfold sinceEnd
  rw [List.reverse_concat, List.takeWhile_cons]
  by_cases closes : run.entries.any Entry.closes = true
  · rw [if_pos closes, closes]
    rfl
  · rw [if_neg closes, Bool.not_eq_true _ |>.mp closes]
    by_cases empty : run.entries = []
    · simp [empty]
    · simp [empty]

theorem sinceEnd_sublist (ledger : List LedgerRun) : (sinceEnd ledger).Sublist ledger := by
  unfold sinceEnd
  have kept := (List.takeWhile_sublist (fun run : LedgerRun => !run.entries.any Entry.closes)
    (l := ledger.reverse)).reverse
  rw [List.reverse_reverse] at kept
  exact List.filter_sublist.trans kept

/-- The fold over the ledger reads the runs since the newest cycle end. -/
theorem foldl_readRun (size : GroupKey → Nat) (ledger : List LedgerRun) :
    (ledger.foldl (readRun size) {}).anchor = (sinceEnd ledger).head?.map (·.started) ∧
      ∀ key, ((ledger.foldl (readRun size) {}).reached key).isSome →
        ∃ run ∈ sinceEnd ledger, (runReached run.entries size key).isSome := by
  induction ledger using List.reverseRecOn with
  | nil => exact ⟨rfl, fun key held => nomatch held⟩
  | append_singleton ledger run ih =>
      obtain ⟨anchored, found⟩ := ih
      rw [List.foldl_concat, sinceEnd_concat]
      generalize ledger.foldl (readRun size) {} = reading at anchored found
      unfold readRun
      by_cases empty : run.entries = []
      · rw [if_pos empty, if_neg (by simp [empty]), if_pos empty, List.append_nil]
        exact ⟨anchored, found⟩
      rw [if_neg empty, if_neg empty]
      by_cases closes : run.entries.any Entry.closes = true
      · rw [if_pos closes, if_pos closes]
        exact ⟨rfl, fun key held => nomatch held⟩
      rw [if_neg closes, if_neg closes]
      constructor
      · dsimp only
        rw [anchored]
        cases sinceEnd ledger <;> rfl
      · intro key held
        cases now : runReached run.entries size key with
        | some collected =>
            exact ⟨run, List.mem_append_right _ (List.mem_singleton_self run), by rw [now]; rfl⟩
        | none =>
            have old : (reading.reached key).isSome := by simpa [now] using held
            obtain ⟨other, listed, reached⟩ := found key old
            exact ⟨other, List.mem_append_left _ listed, reached⟩

/-- The cycle a run walks in is the open one, and each group it may skip was found in one run of
it. -/
theorem cycleOf_found (size : GroupKey → Nat) (timeout start : ℚ) (ledger : List LedgerRun) :
    (cycleOf size timeout start ledger).1.anchor = anchorOf timeout ledger start ∧
      ∀ key, ((cycleOf size timeout start ledger).1.reached key).isSome →
        ∃ run ∈ openCycle timeout ledger start, (runReached run.entries size key).isSome := by
  obtain ⟨anchored, found⟩ := foldl_readRun size ledger
  unfold cycleOf anchorOf openCycle
  dsimp only
  rw [anchored]
  cases first : (sinceEnd ledger).head? with
  | none => exact ⟨rfl, fun key held => nomatch held⟩
  | some run =>
      rw [Option.map_some, Option.any_some]
      dsimp only
      by_cases young : start - run.started < timeout
      · rw [if_pos young, if_pos (decide_eq_true young), first]
        exact ⟨rfl, found⟩
      · rw [if_neg young, if_neg (by simpa using young)]
        exact ⟨rfl, fun key held => nomatch held⟩

theorem openCycle_sublist (timeout : ℚ) (ledger : List LedgerRun) (start : ℚ) :
    (openCycle timeout ledger start).Sublist ledger := by
  unfold openCycle
  split_ifs
  · exact sinceEnd_sublist ledger
  · exact List.nil_sublist ledger

/-- No run of the open cycle started before its anchor. -/
theorem anchorOf_le_started {timeout start : ℚ} {ledger : List LedgerRun}
    (ordered : ledger.Pairwise fun run later => run.started ≤ later.started) {run : LedgerRun}
    (opened : run ∈ openCycle timeout ledger start) :
    anchorOf timeout ledger start ≤ run.started := by
  have sorted := ordered.sublist (openCycle_sublist timeout ledger start)
  unfold anchorOf
  cases cycle : openCycle timeout ledger start with
  | nil =>
      rw [cycle] at opened
      cases opened
  | cons first rest =>
      rw [cycle] at opened sorted
      rcases List.mem_cons.mp opened with rfl | later
      · exact le_refl _
      · exact (List.pairwise_cons.mp sorted).1 run later

theorem anchorOf_le {timeout start : ℚ} {ledger : List LedgerRun}
    (past : ∀ run ∈ ledger, run.started ≤ start) : anchorOf timeout ledger start ≤ start := by
  unfold anchorOf
  cases cycle : openCycle timeout ledger start with
  | nil => exact le_refl _
  | cons first rest =>
      apply past first
      apply (openCycle_sublist timeout ledger start).subset
      rw [cycle]
      exact List.mem_cons_self

namespace World

variable {world after : World}

/-- A run under way follows its plan, and knows which groups it walked to the end. -/
structure Walking (portal : Portal) (world : World) (walk : Walk) : Prop where
  started : walk.started ≤ world.now
  cycle : ∀ cycle ∈ walk.cycle, cycle.anchor = anchorTo portal world walk.started ∧
    cycle.anchor ≤ walk.started ∧
      ∀ key, (cycle.reached key).isSome → ReachedOpen portal world walk.started key
  planned : ∃ (keys : List GroupKey) (rest : List WalkUnit), keys.Nodup ∧
    walk.outcomes.map (·.unit) ++ walk.left ++ rest = keys.flatMap (groupUnits portal.units) ∧
    ∀ key ∈ keys, (walk.groups key).left + (ofGroup walk.outcomes key).length =
      (groupUnits portal.units key).length
  allReached : ∀ key, (walk.groups key).allReached = true → ∀ outcome ∈ walk.outcomes,
    outcome.unit.scope = key → outcome.reached = true
  named : ∀ outcome ∈ walk.outcomes, outcome.reached = true → ∀ name, some name ∈ outcome.seen →
    name ∈ (walk.groups outcome.unit.scope).seen
  reachedNow : ∀ key, (walk.reachedNow key).isSome → Walked portal walk.outcomes key
  saved : walk.saved.Sublist (walk.outcomes.map Outcome.entry)
  whole : walk.narrowed = false → walk.keys = groupKeys portal.units

/-- The ledger records what the runs returned, a listing carries its latest sighting. -/
structure Sound (portal : Portal) (world : World) : Prop where
  past : ∀ run ∈ world.past, run.started ≤ world.now
  ledger : world.runs = world.past.filterMap PastRun.ledgerRun
  recorded : ∀ went ∈ world.past, ∀ run ∈ went.ledgerRun, Followed portal went.outcomes ∧
    (run.entries.filter fun entry => !entry.closes).Sublist
      ((went.outcomes.map Outcome.entry).filter fun entry => !entry.closes)
  sighted : ∀ sighting ∈ world.sightings, sighting.2 ≤ world.now ∧ ∀ row ∈ world.rows,
    row.id = sighting.1 → ∃ seen ∈ row.lastSeenAt, sighting.2 ≤ seen
  walking : ∀ walk ∈ world.walk, Walking portal world walk

theorem Walking.followed {walk : Walk} (walking : Walking portal world walk) :
    Followed portal walk.outcomes := by
  obtain ⟨keys, rest, distinct, planned, _⟩ := walking.planned
  rw [List.append_assoc] at planned
  exact followed_of_planned distinct planned

/-- More runs behind keep what was reached. -/
theorem ReachedSince.mono {anchor : ℚ} {key : GroupKey}
    (reached : ReachedSince portal world anchor key)
    (kept : ∀ run ∈ world.past, run ∈ after.past) : ReachedSince portal after anchor key := by
  obtain ⟨run, held, rest⟩ := reached
  exact ⟨run, kept run held, rest⟩

theorem ReachedOpen.since {start : ℚ} {key : GroupKey}
    (reached : ReachedOpen portal world start key) :
    ReachedSince portal world (anchorTo portal world start) key := by
  obtain ⟨went, held, run, recorded, _, since, walked⟩ := reached
  obtain ⟨entries, _, rfl⟩ := Option.map_eq_some_iff.mp recorded
  exact ⟨went, held, since, walked⟩

/-- What a ledger says of the open cycle it says in any world of the same ledger. -/
theorem ReachedOpen.mono {start : ℚ} {key : GroupKey}
    (reached : ReachedOpen portal world start key) (runs : after.runs = world.runs)
    (kept : ∀ run ∈ world.past, run ∈ after.past) : ReachedOpen portal after start key := by
  obtain ⟨went, held, run, recorded, opened, since, walked⟩ := reached
  refine ⟨went, kept went held, run, recorded, ?_, ?_, walked⟩
  · unfold openTo at opened ⊢
    rw [runs]
    exact opened
  · unfold anchorTo at since ⊢
    rw [runs]
    exact since

theorem Walking.later {walk : Walk} (walking : Walking portal world walk)
    (now : world.now ≤ after.now) (runs : after.runs = world.runs)
    (kept : ∀ run ∈ world.past, run ∈ after.past) : Walking portal after walk where
  started := walking.started.trans now
  cycle := by
    intro cycle held
    obtain ⟨anchored, begun, reached⟩ := walking.cycle cycle held
    refine ⟨?_, begun, fun key known => (reached key known).mono runs kept⟩
    unfold anchorTo at anchored ⊢
    rw [runs]
    exact anchored
  planned := walking.planned
  allReached := walking.allReached
  named := walking.named
  reachedNow := walking.reachedNow
  saved := walking.saved
  whole := walking.whole

/-! ### A run starts -/

theorem plan_spec (keys : List GroupKey) (lastWalked : GroupKey → Option ℚ) (skip : GroupKey → Bool)
    (distinct : keys.Nodup) : (plan keys lastWalked skip).Nodup ∧
      ∀ key, key ∈ plan keys lastWalked skip ↔ key ∈ keys ∧ skip key = false := by
  constructor
  · exact nodup_sortedBy.mpr (distinct.filter _)
  · intro key
    rw [plan, mem_sortedBy, List.mem_filter, Bool.not_eq_true']

theorem groupKeys_nodup (units : List WalkUnit) : (groupKeys units).Nodup :=
  nodup_eraseDups _

/-- What a reading of the ledger found reached, a run of the open cycle reached. -/
theorem Sound.cycle (sound : Sound portal world) (keys : List GroupKey) :
    (cycleOf (sizes portal keys) portal.walkTimeout world.now
      (walkLedger world.runs world.now)).1.anchor = anchorTo portal world world.now ∧
    (cycleOf (sizes portal keys) portal.walkTimeout world.now
      (walkLedger world.runs world.now)).1.anchor ≤ world.now ∧
    ∀ key, ((cycleOf (sizes portal keys) portal.walkTimeout world.now
      (walkLedger world.runs world.now)).1.reached key).isSome →
        ReachedOpen portal world world.now key := by
  have listed : ∀ run ∈ walkLedger world.runs world.now,
      ∃ went ∈ world.past, went.ledgerRun = some run := by
    intro run held
    rw [walkLedger, mem_sortedBy] at held
    have known := List.mem_of_mem_filter held
    rw [sound.ledger] at known
    exact List.mem_filterMap.mp known
  have ordered : (walkLedger world.runs world.now).Pairwise
      fun run later => run.started ≤ later.started := pairwise_sortedBy _ _
  obtain ⟨anchored, found⟩ := cycleOf_found (sizes portal keys) portal.walkTimeout world.now
    (walkLedger world.runs world.now)
  refine ⟨anchored, ?_, ?_⟩
  · rw [anchored]
    apply anchorOf_le
    intro run held
    obtain ⟨went, wentHeld, recorded⟩ := listed run held
    obtain ⟨entries, _, rfl⟩ := Option.map_eq_some_iff.mp recorded
    exact sound.past went wentHeld
  · intro key held
    obtain ⟨run, opened, reached⟩ := found key held
    obtain ⟨went, wentHeld, recorded⟩ := listed run ((openCycle_sublist _ _ _).subset opened)
    obtain ⟨followed, entered⟩ := sound.recorded went wentHeld run recorded
    exact ⟨went, wentHeld, run, recorded, opened, anchorOf_le_started ordered opened,
      walked_of_runReached followed entered reached⟩

theorem start_keys_nodup (narrowed : Option (List GroupKey)) :
    ((groupKeys portal.units).filter fun key =>
      narrowed.all fun chosen => decide (key ∈ chosen)).Nodup :=
  (groupKeys_nodup _).filter _

/-- A run starts with its cycle and its plan. -/
theorem Sound.start (sound : Sound portal world) (recorded readable : Bool)
    (narrowed : Option (List GroupKey)) :
    Walking portal world (world.start portal recorded readable narrowed) where
  started := le_refl _
  cycle := by
    intro cycle held
    have found := sound.cycle ((groupKeys portal.units).filter fun key =>
      narrowed.all fun chosen => decide (key ∈ chosen))
    cases readable with
    | false => cases held
    | true =>
        cases held
        exact found
  planned := by
    obtain ⟨distinct, _⟩ := plan_spec _
      (if readable then (cycleOf (sizes portal ((groupKeys portal.units).filter fun key =>
        narrowed.all fun chosen => decide (key ∈ chosen))) portal.walkTimeout world.now
          (walkLedger world.runs world.now)).2 else fun _ => none)
      (fun key => narrowed.isNone &&
        (world.start portal recorded readable narrowed).cycle.any fun cycle =>
          (cycle.reached key).isSome)
      (start_keys_nodup narrowed)
    refine ⟨_, [], distinct, ?_, ?_⟩
    · rw [List.append_nil]
      exact List.nil_append _
    · intro key planned
      have fresh : (world.start portal recorded readable narrowed).groups key =
          { left := (groupUnits portal.units key).length } := if_pos planned
      rw [fresh]
      rfl
  allReached := fun key _ outcome held => nomatch held
  named := fun outcome held => nomatch held
  reachedNow := fun key held => nomatch held
  saved := List.Sublist.refl _
  whole := by
    intro whole
    cases narrowed with
    | none => exact List.filter_eq_self.mpr fun _ _ => rfl
    | some chosen => cases whole

/-- A group left out of the plan was found reached in the open cycle. -/
theorem Sound.start_skips (sound : Sound portal world) (recorded readable : Bool)
    (narrowed : Option (List GroupKey)) {unit : WalkUnit} (configured : unit ∈ portal.units)
    (among : unit.scope ∈ (world.start portal recorded readable narrowed).keys)
    (skipped : unit ∉ (world.start portal recorded readable narrowed).left) :
    ReachedOpen portal world world.now unit.scope := by
  have walking := sound.start recorded readable narrowed
  by_contra none_
  apply skipped
  refine List.mem_flatMap.mpr ⟨unit.scope, ?_,
    List.mem_filter.mpr ⟨configured, decide_eq_true rfl⟩⟩
  obtain ⟨_, planned⟩ := plan_spec _
    (if readable then (cycleOf (sizes portal ((groupKeys portal.units).filter fun key =>
      narrowed.all fun chosen => decide (key ∈ chosen))) portal.walkTimeout world.now
        (walkLedger world.runs world.now)).2 else fun _ => none)
    (fun key => narrowed.isNone &&
      (world.start portal recorded readable narrowed).cycle.any fun cycle =>
        (cycle.reached key).isSome)
    (start_keys_nodup narrowed)
  apply (planned unit.scope).mpr
  refine ⟨among, ?_⟩
  rw [← Bool.not_eq_true, Bool.and_eq_true]
  rintro ⟨_, skip⟩
  obtain ⟨cycle, held, reached⟩ := (Option.any_eq_true _ _).mp skip
  exact none_ ((walking.cycle cycle held).2.2 _ reached)

/-! ### A unit returns -/

theorem Walked.other {outcomes : List Outcome} {outcome : Outcome} {key : GroupKey}
    (walked : Walked portal outcomes key) (other : outcome.unit.scope ≠ key) :
    Walked portal (outcomes ++ [outcome]) key := by
  have same : ofGroup (outcomes ++ [outcome]) key = ofGroup outcomes key := by
    rw [ofGroup_append, if_neg other]
  refine ⟨(congrArg (List.map (·.unit)) same).trans walked.1, ?_⟩
  intro next held scope
  cases List.mem_append.mp held with
  | inl before => exact walked.2 next before scope
  | inr new =>
      cases List.mem_singleton.mp new
      exact absurd scope other

section Unit

variable {walk : Walk} {unit : WalkUnit} {rest : List WalkUnit} (seen : List (Option String))
  (reached : Bool)

/-- The plan goes on past one unit, whose group had it left. -/
theorem Walking.next (walking : Walking portal world walk) (left : walk.left = unit :: rest) :
    ∃ (keys : List GroupKey) (later : List WalkUnit), keys.Nodup ∧ unit.scope ∈ keys ∧
      (walk.outcomes ++ [Outcome.mk unit seen reached]).map (·.unit) ++ rest ++ later =
        keys.flatMap (groupUnits portal.units) ∧
      ∀ key ∈ keys, ((walk.groups key).left + (ofGroup walk.outcomes key).length =
        (groupUnits portal.units key).length) ∧
        (ofGroup (walk.outcomes ++ [Outcome.mk unit seen reached]) key).length ≤
          (groupUnits portal.units key).length := by
  obtain ⟨keys, later, distinct, planned, counted⟩ := walking.planned
  have onward : (walk.outcomes ++ [Outcome.mk unit seen reached]).map (·.unit) ++ rest ++ later =
      keys.flatMap (groupUnits portal.units) := by
    rw [← planned, left]
    simp
  have among : unit.scope ∈ keys := by
    have inPlan : unit ∈ keys.flatMap (groupUnits portal.units) := by
      rw [← onward]
      simp
    obtain ⟨key, held, own⟩ := List.mem_flatMap.mp inPlan
    rw [of_decide_eq_true (List.mem_filter.mp own).2]
    exact held
  refine ⟨keys, later, distinct, among, onward, ?_⟩
  intro key held
  refine ⟨counted key held, ?_⟩
  rw [List.append_assoc] at onward
  have bounded := (followed_of_planned distinct onward key).length_le
  rw [List.length_map] at bounded
  exact bounded

/-- The groups after a unit returned. -/
def groupsAfter (walk : Walk) (outcome : Outcome) (key : GroupKey) : ScopeGroup :=
  if key = outcome.unit.scope then (walk.groups outcome.unit.scope).walked outcome
  else walk.groups key

theorem groupsAfter_left (walking : Walking portal world walk) (left : walk.left = unit :: rest) :
    ∃ (keys : List GroupKey) (later : List WalkUnit), keys.Nodup ∧ unit.scope ∈ keys ∧
      (walk.outcomes ++ [Outcome.mk unit seen reached]).map (·.unit) ++ rest ++ later =
        keys.flatMap (groupUnits portal.units) ∧
      ∀ key ∈ keys, (groupsAfter walk (Outcome.mk unit seen reached) key).left +
        (ofGroup (walk.outcomes ++ [Outcome.mk unit seen reached]) key).length =
          (groupUnits portal.units key).length := by
  obtain ⟨keys, later, distinct, among, onward, counted⟩ :=
    walking.next seen reached left
  refine ⟨keys, later, distinct, among, onward, ?_⟩
  intro key held
  obtain ⟨before, bounded⟩ := counted key held
  rw [ofGroup_append] at bounded ⊢
  unfold groupsAfter
  dsimp only at bounded ⊢
  by_cases same : key = unit.scope
  · subst same
    rw [if_pos rfl, List.length_append] at bounded
    rw [if_pos rfl, if_pos rfl, List.length_append]
    change (walk.groups unit.scope).left - 1 + _ = _
    simp only [List.length_singleton] at bounded ⊢
    omega
  · rw [if_neg (Ne.symm same)] at bounded ⊢
    rw [if_neg same]
    exact before

theorem groupsAfter_allReached (walking : Walking portal world walk) (key : GroupKey)
    (all : (groupsAfter walk (Outcome.mk unit seen reached) key).allReached = true) :
    ∀ outcome ∈ walk.outcomes ++ [Outcome.mk unit seen reached],
      outcome.unit.scope = key → outcome.reached = true := by
  intro outcome held scope
  unfold groupsAfter at all
  dsimp only at all
  by_cases same : key = unit.scope
  · rw [if_pos same, ScopeGroup.walked, Bool.and_eq_true] at all
    cases List.mem_append.mp held with
    | inl before => exact walking.allReached unit.scope all.1 outcome before (scope.trans same)
    | inr new =>
        cases List.mem_singleton.mp new
        exact all.2
  · rw [if_neg same] at all
    cases List.mem_append.mp held with
    | inl before => exact walking.allReached key all outcome before scope
    | inr new =>
        cases List.mem_singleton.mp new
        exact absurd scope.symm same

theorem groupsAfter_named (walking : Walking portal world walk) :
    ∀ outcome ∈ walk.outcomes ++ [Outcome.mk unit seen reached], outcome.reached = true →
      ∀ name, some name ∈ outcome.seen →
        name ∈ (groupsAfter walk (Outcome.mk unit seen reached) outcome.unit.scope).seen := by
  intro outcome held ended name saw
  unfold groupsAfter
  dsimp only
  cases List.mem_append.mp held with
  | inl before =>
      have known := walking.named outcome before ended name saw
      split_ifs with same
      · rw [same] at known
        unfold ScopeGroup.walked
        dsimp only
        split_ifs
        · exact List.mem_append_left _ known
        · exact known
      · exact known
  | inr new =>
      cases List.mem_singleton.mp new
      rw [if_pos rfl, ScopeGroup.walked]
      dsimp only at ended saw ⊢
      rw [if_pos ended]
      exact List.mem_append_right _ (List.mem_filterMap.mpr ⟨some name, saw, rfl⟩)

/-- A group with no unit left, each of them at the end, is walked. -/
theorem groupsAfter_walked (walking : Walking portal world walk) (left : walk.left = unit :: rest)
    (ended : (groupsAfter walk (Outcome.mk unit seen reached) unit.scope).reached = true) :
    Walked portal (walk.outcomes ++ [Outcome.mk unit seen reached]) unit.scope := by
  rw [ScopeGroup.reached, Bool.and_eq_true, decide_eq_true_iff] at ended
  obtain ⟨keys, later, distinct, among, onward, counted⟩ :=
    groupsAfter_left seen reached walking left
  have full := counted unit.scope among
  rw [ended.1, Nat.zero_add] at full
  rw [List.append_assoc] at onward
  exact walked_of_full (followed_of_planned distinct onward) full
    (groupsAfter_allReached seen reached walking unit.scope ended.2)

/-- The run under way after a unit returned, in the world it returned to. -/
theorem Walking.unitReturned (walking : Walking portal world walk) (left : walk.left = unit :: rest)
    (late saved fails : Bool) :
    ∀ next ∈ (world.walkUnit walk (Outcome.mk unit seen reached) rest late saved fails).walk,
      Walking portal (world.walkUnit walk (Outcome.mk unit seen reached) rest late saved fails)
        next := by
  intro next held
  cases held
  obtain ⟨keys, later, distinct, among, onward, counted⟩ :=
    groupsAfter_left seen reached walking left
  constructor
  · exact walking.started
  · exact walking.cycle
  · exact ⟨keys, later, distinct, onward, counted⟩
  · exact groupsAfter_allReached seen reached walking
  · exact groupsAfter_named seen reached walking
  · intro key known
    dsimp only at known ⊢
    split_ifs at known with now
    · rw [now.1]
      apply groupsAfter_walked seen reached walking left
      rw [groupsAfter, if_pos rfl]
      exact now.2
    · have before := walking.reachedNow key known
      have other : unit.scope ≠ key := by
        intro same
        subst same
        obtain ⟨_, _, _, member, _, bounds⟩ :=
          walking.next seen reached left
        have bounded := (bounds unit.scope member).2
        rw [ofGroup_append, if_pos rfl, List.length_append, Walked.full before] at bounded
        simp only [List.length_singleton] at bounded
        omega
      exact before.other other
  · dsimp only
    rw [List.map_append]
    split_ifs
    · exact walking.saved.append (List.Sublist.refl _)
    · exact walking.saved.trans (List.sublist_append_left _ _)
  · exact walking.whole

/-- A group nominates after each of its units reached the end, and only what none of them saw. -/
theorem Walking.presence (walking : Walking portal world walk) (left : walk.left = unit :: rest)
    (late saved fails : Bool) :
    ∀ nomination ∈ (world.walkUnit walk (Outcome.mk unit seen reached) rest late saved
      fails).nominated, nomination ∈ world.nominated ∨ Justified portal world
        (world.walkUnit walk (Outcome.mk unit seen reached) rest late saved fails) nomination := by
  intro nomination held
  cases List.mem_append.mp held with
  | inl before => exact .inl before
  | inr new =>
      apply Or.inr
      split_ifs at new with ended
      · cases scope : unit.scope with
        | none =>
            dsimp only at new
            rw [scope] at new
            cases new
        | some own =>
            dsimp only at new
            simp only [scope, presenceChecks] at new
            split_ifs at new with checks
            · cases List.mem_singleton.mp new
              rw [Bool.and_eq_true] at checks
              have after : groupsAfter walk (Outcome.mk unit seen reached) unit.scope =
                  (walk.groups (some own)).walked (Outcome.mk unit seen reached) := by
                rw [groupsAfter, if_pos rfl, scope]
              have walked := groupsAfter_walked seen reached walking left
                (by rw [after]; exact checks.1)
              refine ⟨_, rfl, scope ▸ walked, ?_⟩
              intro row nominated
              obtain ⟨known, active, satisfied, missing⟩ := mem_presenceCandidates nominated
              refine ⟨known, active, satisfied, ?_⟩
              intro outcome returned same saw
              obtain ⟨name, key⟩ := presenceCandidates_named nominated
              have named := groupsAfter_named seen reached walking outcome
                returned (walked.2 outcome returned (same.trans scope.symm)) name (key ▸ saw)
              rw [same, ← scope, after] at named
              exact missing name key named
            · cases new
      · cases new

end Unit

/-! ### A run ends -/

section Closing

variable {walk : Walk}

/-- What a run leaves in the ledger is part of what its units returned. -/
theorem Sound.close (sound : Sound portal world) (held : world.walk = some walk)
    {entries : List Entry} (recorded : (entries.filter fun entry => !entry.closes).Sublist
      ((walk.outcomes.map Outcome.entry).filter fun entry => !entry.closes))
    (nominated : List Nomination) : Sound portal (world.close walk entries nominated) where
  past := by
    intro run among
    cases List.mem_append.mp among with
    | inl before => exact sound.past run before
    | inr new =>
        cases List.mem_singleton.mp new
        exact (sound.walking walk held).started
  ledger := by
    unfold World.close
    dsimp only
    rw [List.filterMap_append, ← sound.ledger]
    split_ifs
    · rfl
    · exact (List.append_nil _).symm
  recorded := by
    intro went among run kept
    cases List.mem_append.mp among with
    | inl before => exact sound.recorded went before run kept
    | inr new =>
        cases List.mem_singleton.mp new
        obtain ⟨own, same, rfl⟩ := Option.map_eq_some_iff.mp kept
        dsimp only at same
        split_ifs at same
        cases same
        exact ⟨(sound.walking walk held).followed, recorded⟩
  sighted := sound.sighted
  walking := fun _ none_ => nomatch none_

/-- The groups of an ending cycle: reached in this run, or found reached in the open one. -/
theorem Walking.ended (walking : Walking portal world walk) {cycle : Cycle}
    (held : cycle ∈ walk.cycle) {key : GroupKey}
    (reached : ((walk.reachedNow key).or (cycle.reached key)).isSome) :
    ReachedIn portal world walk key := by
  cases now : walk.reachedNow key with
  | some collected => exact .inr (walking.reachedNow key (by rw [now]; rfl))
  | none =>
      rw [now, Option.none_or] at reached
      exact .inl ((walking.cycle cycle held).2.2 key reached)

theorem ReachedIn.since {key : GroupKey} (reached : ReachedIn portal world walk key)
    (begun : anchorTo portal world walk.started ≤ walk.started) (entries : List Entry)
    (nominated : List Nomination) :
    ReachedSince portal (world.close walk entries nominated)
      (anchorTo portal world walk.started) key := by
  rcases reached with earlier | now
  · exact earlier.since.mono fun run before => List.mem_append_left _ before
  · exact ⟨_, List.mem_append_right _ (List.mem_singleton.mpr rfl), begun, now⟩

theorem endCycle_reached {cycle : Cycle} {fails : Bool}
    (closed : (world.endCycle portal walk cycle fails).1.reached = true) :
    ∀ key ∈ walk.keys, ((walk.reachedNow key).or (cycle.reached key)).isSome := by
  intro key among
  unfold endCycle at closed
  dsimp only at closed
  split_ifs at closed with short
  rw [Bool.or_eq_true, Bool.or_eq_true, not_or, not_or, List.any_eq_true] at short
  rw [← Option.not_isNone, Bool.not_eq_true']
  exact Bool.eq_false_iff.mpr fun missing => short.1.1 ⟨key, among, missing⟩

theorem endCycle_nominated {cycle : Cycle} {fails : Bool} {nomination : Nomination}
    (nominated : nomination ∈ (world.endCycle portal walk cycle fails).2) :
    (world.endCycle portal walk cycle fails).1.reached = true ∧
      nomination = .orphans cycle.anchor
        (orphanCandidates world.now world.rows (walk.keys.filterMap id) cycle.anchor) := by
  unfold endCycle at nominated ⊢
  dsimp only at nominated ⊢
  split_ifs at nominated ⊢
  · cases nominated
  · exact ⟨rfl, List.mem_singleton.mp nominated⟩

/-- The orphans are nominated after each group reached the end in the cycle. -/
theorem Sound.orphans (sound : Sound portal world) (held : world.walk = some walk)
    (whole : walk.narrowed = false) {cycle : Cycle} (walks : cycle ∈ walk.cycle) {fails : Bool}
    (entries : List Entry) {nomination : Nomination}
    (nominated : nomination ∈ (world.endCycle portal walk cycle fails).2) :
    Justified portal world
      (world.close walk entries (world.endCycle portal walk cycle fails).2) nomination := by
  have walking := sound.walking walk held
  obtain ⟨anchored, begun, _⟩ := walking.cycle cycle walks
  obtain ⟨closed, named⟩ := endCycle_nominated nominated
  have all := endCycle_reached closed
  rw [walking.whole whole] at all
  have reached : ∀ key ∈ groupKeys portal.units, ReachedIn portal world walk key :=
    fun key configured => walking.ended walks (all key configured)
  rw [named]
  refine ⟨⟨walk, held, anchored, reached⟩, fun key configured => ?_, ?_⟩
  · rw [anchored] at begun ⊢
    exact (reached key configured).since begun entries _
  intro row orphan
  obtain ⟨known, active, outside, before⟩ := mem_orphanCandidates orphan
  refine ⟨known, active, ?_, ?_⟩
  · intro scope configured
    apply outside
    rw [walking.whole whole]
    exact List.mem_filterMap.mpr ⟨some scope, configured, rfl⟩
  · intro sighting seen same
    obtain ⟨last, carried, latest⟩ := (sound.sighted sighting seen).2 row known same.symm
    exact lt_of_le_of_lt latest (before last carried)

end Closing

/-! ### Every step -/

theorem closes_endCycle (walk : Walk) (cycle : Cycle) (fails : Bool) :
    (world.endCycle portal walk cycle fails).1.closes = true := by
  unfold endCycle
  dsimp only
  split_ifs <;> rfl

/-- What a run that finishes records: its units' entries, or those saved so far, and the end of
its cycle after them once it walked its whole plan. -/
inductive Finished (portal : Portal) (world : World) (walk : Walk) (fails saved finalized : Bool) :
    List Entry → List Nomination → Prop where
  | open_ (short : walk.cycle = none ∨ walk.keys = [] ∨ walk.cut = true ∨ walk.narrowed = true) :
      Finished portal world walk fails saved finalized
        (if finalized then walk.outcomes.map Outcome.entry else walk.saved) []
  | ended (cycle : Cycle) (walks : walk.cycle = some cycle) (uncut : walk.cut = false)
      (whole : walk.narrowed = false) :
      Finished portal world walk fails saved finalized
        (if finalized then
          walk.outcomes.map Outcome.entry ++ [(world.endCycle portal walk cycle fails).1]
        else walk.saved ++ if saved then [(world.endCycle portal walk cycle fails).1] else [])
        (world.endCycle portal walk cycle fails).2

/-- How a run that finishes closes. -/
theorem finish_cases {fails saved finalized : Bool}
    (taken : world.step portal (.finish fails saved finalized) = some after) :
    ∃ walk entries nominated, world.walk = some walk ∧ walk.left = [] ∧
      after = world.close walk entries nominated ∧
      Finished portal world walk fails saved finalized entries nominated := by
  obtain ⟨walk, held, taken⟩ := Option.bind_eq_some_iff.mp taken
  obtain ⟨planned, taken⟩ := Option.ite_none_right_eq_some.mp taken
  cases walks : walk.cycle with
  | none =>
      simp only [walks, Option.some.injEq] at taken
      exact ⟨walk, _, _, held, planned, taken.symm, .open_ (.inl walks)⟩
  | some cycle =>
      simp only [walks] at taken
      by_cases ends : walk.keys ≠ [] ∧ walk.cut = false ∧ walk.narrowed = false
      · rw [if_pos ends, Option.some.injEq] at taken
        exact ⟨walk, _, _, held, planned, taken.symm, .ended cycle walks ends.2.1 ends.2.2⟩
      · rw [if_neg ends, Option.some.injEq] at taken
        refine ⟨walk, _, _, held, planned, taken.symm, .open_ (.inr ?_)⟩
        by_contra short
        simp only [not_or, Bool.not_eq_true] at short
        exact ends short

section Finished

variable {walk : Walk} {fails saved finalized : Bool} {entries : List Entry}
  {nominated : List Nomination}

/-- But for a cycle's end the entries are those of the units. -/
theorem Finished.recorded (finished : Finished portal world walk fails saved finalized entries
      nominated) (part : walk.saved.Sublist (walk.outcomes.map Outcome.entry)) :
    (entries.filter fun entry => !entry.closes).Sublist
      ((walk.outcomes.map Outcome.entry).filter fun entry => !entry.closes) := by
  cases finished with
  | open_ short =>
      split_ifs
      · exact List.Sublist.refl _
      · exact part.filter _
  | ended cycle walks uncut whole =>
      have closing := @closes_endCycle portal world walk cycle fails
      split_ifs
      · simp [closing]
      · simpa [closing] using part.filter _
      · simpa using part.filter _

/-- An entry that closes is a unit's own, or ends the cycle the run walked to its end. -/
theorem Finished.entry (finished : Finished portal world walk fails saved finalized entries
      nominated) (walking : Walking portal world walk) (planned : walk.left = []) {entry : Entry}
    (listed : entry ∈ entries) :
    entry ∈ walk.outcomes.map Outcome.entry ∨ EndsCycle portal world walk entry := by
  have own : ∀ entry ∈ walk.saved, entry ∈ walk.outcomes.map Outcome.entry :=
    fun entry saved => walking.saved.subset saved
  cases finished with
  | open_ short =>
      split_ifs at listed
      · exact .inl listed
      · exact .inl (own entry listed)
  | ended cycle walks uncut whole =>
      have ends : EndsCycle portal world walk (world.endCycle portal walk cycle fails).1 := by
        refine ⟨by rw [walks]; rfl, planned, uncut, whole, fun reached key configured => ?_⟩
        rw [← walking.whole whole] at configured
        exact walking.ended walks (endCycle_reached reached key configured)
      split_ifs at listed
      · rcases List.mem_append.mp listed with unit | last
        · exact .inl unit
        · cases List.mem_singleton.mp last
          exact .inr ends
      · rcases List.mem_append.mp listed with unit | last
        · exact .inl (own entry unit)
        · cases List.mem_singleton.mp last
          exact .inr ends
      · rw [List.append_nil] at listed
        exact .inl (own entry listed)

/-- A run that walked its whole plan records the end of its cycle. -/
theorem Finished.closes (finished : Finished portal world walk fails saved finalized entries
      nominated) (walks : walk.cycle.isSome) (some_ : walk.keys ≠ []) (uncut : walk.cut = false)
    (whole : walk.narrowed = false) (kept : saved = true ∨ finalized = true) :
    ∃ entry ∈ entries, entry.closes = true := by
  cases finished with
  | open_ short =>
      rcases short with none_ | empty | cut | narrowed
      · rw [none_] at walks
        cases walks
      · exact absurd empty some_
      · rw [uncut] at cut
        cases cut
      · rw [whole] at narrowed
        cases narrowed
  | ended cycle walks uncut whole =>
      refine ⟨_, ?_, @closes_endCycle portal world walk cycle fails⟩
      rcases kept with rfl | rfl
      · cases finalized <;> simp
      · simp

end Finished

/-- A step that leaves the run, the ledger and the clock's past as they are. -/
theorem Sound.beside (sound : Sound portal world) (now : world.now ≤ after.now)
    (past : after.past = world.past) (runs : after.runs = world.runs)
    (walk : after.walk = world.walk)
    (sighted : ∀ sighting ∈ after.sightings, sighting.2 ≤ after.now ∧ ∀ row ∈ after.rows,
      row.id = sighting.1 → ∃ seen ∈ row.lastSeenAt, sighting.2 ≤ seen) :
    Sound portal after where
  past := by
    intro run held
    rw [past] at held
    exact (sound.past run held).trans now
  ledger := by
    rw [runs, past]
    exact sound.ledger
  recorded := by
    intro went held
    rw [past] at held
    exact sound.recorded went held
  sighted := sighted
  walking := by
    intro own held
    rw [walk] at held
    apply (sound.walking own held).later now runs
    intro run known
    rw [past]
    exact known

theorem Sound.tick (sound : Sound portal world) {seconds : ℚ} (forward : 0 ≤ seconds) :
    Sound portal { world with now := world.now + seconds } := by
  have later : world.now ≤ world.now + seconds := le_add_of_nonneg_right forward
  refine sound.beside later rfl rfl rfl ?_
  intro sighting held
  obtain ⟨past, latest⟩ := sound.sighted sighting held
  exact ⟨past.trans later, latest⟩

theorem Sound.appear (sound : Sound portal world) {row : Row}
    (unsighted : ∀ sighting ∈ world.sightings, sighting.1 ≠ row.id) :
    Sound portal { world with rows := world.rows ++ [row] } := by
  refine sound.beside (le_refl _) rfl rfl rfl ?_
  intro sighting held
  obtain ⟨past, latest⟩ := sound.sighted sighting held
  refine ⟨past, ?_⟩
  intro other among same
  cases List.mem_append.mp among with
  | inl before => exact latest other before same
  | inr new =>
      cases List.mem_singleton.mp new
      exact absurd same.symm (unsighted sighting held)

theorem Sound.sight (sound : Sound portal world) (id : Nat) :
    Sound portal
      { world with
        rows := updateRows (fun row => decide (row.id = id))
          (fun row => { row with lastSeenAt := some world.now, isActive := true }) world.rows
        sightings := world.sightings ++ [(id, world.now)] } := by
  refine sound.beside (le_refl _) rfl rfl rfl ?_
  intro sighting held
  have past : sighting.2 ≤ world.now := by
    cases List.mem_append.mp held with
    | inl before => exact (sound.sighted sighting before).1
    | inr new =>
        cases List.mem_singleton.mp new
        exact le_refl _
  refine ⟨past, ?_⟩
  intro row among same
  obtain ⟨old, known, updated⟩ := mem_updateRows.mp among
  by_cases sighted : old.id = id
  · rw [if_pos (decide_eq_true sighted)] at updated
    rw [updated]
    exact ⟨world.now, rfl, past⟩
  · rw [if_neg (by simpa using sighted)] at updated
    subst updated
    cases List.mem_append.mp held with
    | inl before => exact (sound.sighted sighting before).2 row known same
    | inr new =>
        cases List.mem_singleton.mp new
        exact absurd same sighted

theorem Sound.edit (sound : Sound portal world) (id : Nat) {change : Row → Row}
    (keeps : ∀ row, (change row).id = row.id ∧ (change row).lastSeenAt = row.lastSeenAt) :
    Sound portal
      { world with rows := updateRows (fun row => decide (row.id = id)) change world.rows } := by
  refine sound.beside (le_refl _) rfl rfl rfl ?_
  intro sighting held
  obtain ⟨past, latest⟩ := sound.sighted sighting held
  refine ⟨past, ?_⟩
  intro row among same
  obtain ⟨old, known, updated⟩ := mem_updateRows.mp among
  rw [updated] at same ⊢
  split_ifs at same ⊢
  · obtain ⟨own, seen⟩ := keeps old
    rw [seen]
    exact latest old known (own.symm.trans same)
  · exact latest old known same

theorem Sound.begun (sound : Sound portal world) (recorded readable : Bool)
    (narrowed : Option (List GroupKey)) :
    Sound portal { world with walk := some (world.start portal recorded readable narrowed) } where
  past := sound.past
  ledger := sound.ledger
  recorded := sound.recorded
  sighted := sound.sighted
  walking := by
    intro walk held
    cases held
    exact (sound.start recorded readable narrowed).later (le_refl _) rfl fun _ held => held

theorem Sound.unitReturned (sound : Sound portal world) {walk : Walk}
    (held : world.walk = some walk) {unit : WalkUnit} {rest : List WalkUnit}
    (left : walk.left = unit :: rest) (seen : List (Option String)) (reached late saved fails : Bool) :
    Sound portal (world.walkUnit walk (Outcome.mk unit seen reached) rest late saved fails) where
  past := sound.past
  ledger := sound.ledger
  recorded := sound.recorded
  sighted := sound.sighted
  walking := (sound.walking walk held).unitReturned seen reached left late saved fails

theorem Sound.cut (sound : Sound portal world) {walk : Walk} (held : world.walk = some walk) :
    Sound portal { world with walk := some { walk with left := [], cut := true } } where
  past := sound.past
  ledger := sound.ledger
  recorded := sound.recorded
  sighted := sound.sighted
  walking := by
    intro next same
    cases same
    have walking := (sound.walking walk held).later (le_refl _) rfl fun _ held => held
    obtain ⟨keys, rest, distinct, planned, counted⟩ := (sound.walking walk held).planned
    constructor
    · exact walking.started
    · exact walking.cycle
    · refine ⟨keys, walk.left ++ rest, distinct, ?_, counted⟩
      rw [List.append_nil, ← List.append_assoc]
      exact planned
    · exact walking.allReached
    · exact walking.named
    · exact walking.reachedNow
    · exact walking.saved
    · exact walking.whole

/-- Every step keeps the ledger true to what the runs returned. -/
theorem Sound.step (sound : Sound portal world) {action : Action}
    (taken : world.step portal action = some after) : Sound portal after := by
  cases action with
  | tick seconds =>
      simp only [World.step] at taken
      split_ifs at taken with forward
      cases taken
      exact sound.tick forward
  | appear row =>
      simp only [World.step] at taken
      split_ifs at taken with fresh
      cases taken
      exact sound.appear fresh.2
  | sight id =>
      cases taken
      exact sound.sight id
  | edit id labels isActive queued completedAt =>
      cases taken
      exact sound.edit id fun _ => ⟨rfl, rfl⟩
  | start recorded readable narrowed =>
      simp only [World.step] at taken
      split_ifs at taken
      cases taken
      exact sound.begun recorded readable narrowed
  | unit seen reached late saved fails =>
      obtain ⟨walk, held, taken⟩ := Option.bind_eq_some_iff.mp taken
      split at taken
      · rename_i unit rest left
        cases taken
        exact sound.unitReturned held left seen reached late saved fails
      · cases taken
  | cut =>
      obtain ⟨walk, held, taken⟩ := Option.bind_eq_some_iff.mp taken
      split_ifs at taken
      cases taken
      exact sound.cut held
  | finish fails saved finalized =>
      obtain ⟨walk, entries, nominated, held, _, rfl, finished⟩ := finish_cases taken
      exact sound.close held (finished.recorded (sound.walking walk held).saved) nominated
  | crash =>
      obtain ⟨walk, held, rfl⟩ := Option.map_eq_some_iff.mp taken
      exact sound.close held ((sound.walking walk held).saved.filter _) []

theorem Initial.sound (initial : world.Initial) : Sound portal world where
  past := by
    rw [initial.past]
    exact fun _ held => nomatch held
  ledger := by
    rw [initial.runs, initial.past]
    rfl
  recorded := by
    rw [initial.past]
    exact fun _ held => nomatch held
  sighted := by
    rw [initial.sightings]
    exact fun _ held => nomatch held
  walking := by
    rw [initial.walk]
    exact fun _ held => nomatch held

/-- What a step nominates is justified where it is nominated. -/
theorem Sound.nominates (sound : Sound portal world) {action : Action}
    (taken : world.step portal action = some after) {nomination : Nomination}
    (nominated : nomination ∈ after.nominated) :
    nomination ∈ world.nominated ∨ Justified portal world after nomination := by
  cases action with
  | tick seconds =>
      simp only [World.step] at taken
      split_ifs at taken
      cases taken
      exact .inl nominated
  | appear row =>
      simp only [World.step] at taken
      split_ifs at taken
      cases taken
      exact .inl nominated
  | sight id =>
      cases taken
      exact .inl nominated
  | edit id labels isActive queued completedAt =>
      cases taken
      exact .inl nominated
  | start recorded readable narrowed =>
      simp only [World.step] at taken
      split_ifs at taken
      cases taken
      exact .inl nominated
  | unit seen reached late saved fails =>
      obtain ⟨walk, held, taken⟩ := Option.bind_eq_some_iff.mp taken
      split at taken
      · rename_i unit rest left
        cases taken
        exact (sound.walking walk held).presence seen reached left late saved fails nomination
          nominated
      · cases taken
  | cut =>
      obtain ⟨walk, held, taken⟩ := Option.bind_eq_some_iff.mp taken
      split_ifs at taken
      cases taken
      exact .inl nominated
  | finish fails saved finalized =>
      obtain ⟨walk, entries, added, held, _, rfl, finished⟩ := finish_cases taken
      cases List.mem_append.mp nominated with
      | inl before => exact .inl before
      | inr new =>
          cases finished with
          | open_ short => cases new
          | ended cycle walks uncut whole =>
              exact .inr (sound.orphans held whole walks _ new)
  | crash =>
      obtain ⟨walk, held, rfl⟩ := Option.map_eq_some_iff.mp taken
      cases List.mem_append.mp nominated with
      | inl before => exact .inl before
      | inr new => cases new

/-- A run that starts is the only step that puts a run under way. -/
theorem started_of_walk {action : Action} (taken : world.step portal action = some after)
    (idle : world.walk = none) {walk : Walk} (held : walk ∈ after.walk) :
    ∃ recorded readable narrowed, walk = world.start portal recorded readable narrowed := by
  have none_ : ∀ walk ∈ world.walk, False := by
    rw [idle]
    exact fun _ held => nomatch held
  cases action with
  | tick seconds =>
      simp only [World.step] at taken
      split_ifs at taken
      cases taken
      exact (none_ walk held).elim
  | appear row =>
      simp only [World.step] at taken
      split_ifs at taken
      cases taken
      exact (none_ walk held).elim
  | sight id =>
      cases taken
      exact (none_ walk held).elim
  | edit id labels isActive queued completedAt =>
      cases taken
      exact (none_ walk held).elim
  | start recorded readable narrowed =>
      simp only [World.step] at taken
      split_ifs at taken
      cases taken
      cases held
      exact ⟨recorded, readable, narrowed, rfl⟩
  | unit seen reached late saved fails =>
      obtain ⟨own, under, _⟩ := Option.bind_eq_some_iff.mp taken
      exact (none_ own under).elim
  | cut =>
      obtain ⟨own, under, _⟩ := Option.bind_eq_some_iff.mp taken
      exact (none_ own under).elim
  | finish fails saved finalized =>
      obtain ⟨own, under, _⟩ := Option.bind_eq_some_iff.mp taken
      exact (none_ own under).elim
  | crash =>
      obtain ⟨own, under, _⟩ := Option.map_eq_some_iff.mp taken
      exact (none_ own under).elim

/-- Only a run that closes adds to the ledger. -/
theorem closed_of_runs {action : Action} (sound : Sound portal world)
    (taken : world.step portal action = some after) {walk : Walk} (held : world.walk = some walk)
    {run : LedgerRun} (added : after.runs = world.runs ++ [run]) :
    run.started = walk.started ∧ ∀ entry ∈ run.entries,
      entry ∈ walk.outcomes.map Outcome.entry ∨ EndsCycle portal world walk entry := by
  have walking := sound.walking walk held
  have unchanged : after.runs ≠ world.runs := by
    rw [added]
    simp
  have recorded : ∀ {entries : List Entry} {nominated : List Nomination},
      after = world.close walk entries nominated →
        run = { started := walk.started, entries := entries } := by
    intro entries nominated same
    rw [same] at added unchanged
    unfold World.close at added unchanged
    dsimp only at added unchanged
    split_ifs at added unchanged
    · exact (List.singleton_inj.mp (List.append_cancel_left added)).symm
    · exact absurd rfl unchanged
  cases action with
  | finish fails saved finalized =>
      obtain ⟨own, entries, nominated, same, planned, closed, finished⟩ := finish_cases taken
      rw [held] at same
      cases same
      obtain rfl := recorded closed
      exact ⟨rfl, fun entry listed => finished.entry walking planned listed⟩
  | crash =>
      obtain ⟨own, same, closed⟩ := Option.map_eq_some_iff.mp taken
      rw [held] at same
      cases same
      obtain rfl := recorded closed.symm
      exact ⟨rfl, fun entry listed => .inl (walking.saved.subset listed)⟩
  | tick seconds =>
      simp only [World.step] at taken
      split_ifs at taken
      cases taken
      exact absurd rfl unchanged
  | appear row =>
      simp only [World.step] at taken
      split_ifs at taken
      cases taken
      exact absurd rfl unchanged
  | sight id =>
      cases taken
      exact absurd rfl unchanged
  | edit id labels isActive queued completedAt =>
      cases taken
      exact absurd rfl unchanged
  | start recorded readable narrowed =>
      simp only [World.step] at taken
      split_ifs at taken
      cases taken
      exact absurd rfl unchanged
  | unit seen reached late saved fails =>
      obtain ⟨own, _, taken⟩ := Option.bind_eq_some_iff.mp taken
      split at taken
      · cases taken
        exact absurd rfl unchanged
      · cases taken
  | cut =>
      obtain ⟨own, _, taken⟩ := Option.bind_eq_some_iff.mp taken
      split_ifs at taken
      cases taken
      exact absurd rfl unchanged

theorem Sound.proven (sound : Sound portal world) {action : Action}
    (taken : world.step portal action = some after) : Proven portal world action after where
  ledger := (sound.step taken).ledger
  nominates := fun nomination nominated => sound.nominates taken nominated
  skips := by
    intro idle walk held
    obtain ⟨recorded, readable, narrowed, rfl⟩ := started_of_walk taken idle held
    exact ⟨rfl, fun unit configured among skipped =>
      sound.start_skips recorded readable narrowed configured among skipped⟩
  ends := by
    intro walk held run added
    obtain ⟨started, own⟩ := closed_of_runs sound taken held added
    exact ⟨started, fun entry listed _ => own entry listed⟩
  closes := by
    intro fails saved finalized finishes walk held recorded walks some_ uncut whole kept
    subst finishes
    obtain ⟨own, entries, added, same, _, rfl, finished⟩ := finish_cases taken
    rw [Option.mem_def.mp held] at same
    cases same
    refine ⟨{ started := walk.started, entries := entries }, ?_,
      finished.closes walks some_ uncut whole kept⟩
    exact if_pos recorded

/-- In every history of runs, a walk nominates what it proved unseen, skips what reached the end
since its cycle's anchor, and closes a cycle that every group of the portal reached the end in. -/
theorem nominates_proved_unseen (portal : Portal) (world final : World) (initial : world.Initial)
    (run : Reaches (World.step portal) (fun _ _ => True) world final) (action : Action)
    (after : World) (taken : final.step portal action = some after) :
    Proven portal final action after := by
  have sound : Sound portal final :=
    run.invariant (Sound portal) initial.sound fun _ _ _ sound _ taken => sound.step taken
  exact sound.proven taken

/-! A portal of two groups: a first run is cut after one of them, the second resumes its cycle. -/

def flats : Scope where
  categoryMain := some (some "byt")

def houses : Scope where
  categoryMain := some (some "dum")

def twoGroups : Portal where
  units := [{ category := 0, scope := some flats }, { category := 1, scope := some houses }]
  walkTimeout := 86400

def freshPortal : World where
  now := 0
  rows := []
  runs := []
  walk := none
  nominated := []
  past := []
  sightings := []

theorem freshPortal_initial : freshPortal.Initial := ⟨rfl, rfl, rfl, rfl, rfl⟩

/-- A listing the walk does not see, of the given category. -/
def unseenRow (id : Nat) (categoryMain : Option String) : Row where
  id := id
  key := some (toString id)
  isActive := true
  labels := { categoryMain := categoryMain, categoryType := none, subtype := none }
  lastSeenAt := none
  queued := false
  completedAt := none

def resumedCycle : List Action :=
  [.appear (unseenRow 1 (some "byt")), .appear (unseenRow 2 none), .tick 60,
    .start true true none, .unit [some "7"] true false true false, .cut, .finish false true true,
    .tick 3600, .start true true none, .unit [some "8"] true false true false]

/-- The second run walks only the houses of the cycle the first began, unless that one has timed
out, and ends it; the next run walks both groups again. -/
theorem nominates_proved_unseen_when_resumed :
    ∃ final after, replay (World.step twoGroups) freshPortal resumedCycle = some final ∧
      final.step twoGroups (.finish false true true) = some after ∧
      (∃ walk ∈ final.walk, walk.left = [] ∧ walk.outcomes.length = 1 ∧
        anchorTo twoGroups final walk.started = 60) ∧
      (final.start twoGroups true true none).left.length = 1 ∧
      ({ final with now := 86460 }.start twoGroups true true none).left.length = 2 ∧
      (after.start twoGroups true true none).left.length = 2 ∧
      after.nominated.length = 3 ∧ Proven twoGroups final (.finish false true true) after := by
  obtain ⟨final, replayed⟩ : ∃ final,
      replay (World.step twoGroups) freshPortal resumedCycle = some final :=
    Option.isSome_iff_exists.mp (by decide +kernel)
  have reached : (replay (World.step twoGroups) freshPortal resumedCycle).all fun final =>
      (final.walk.any fun walk => decide (walk.left = [] ∧ walk.outcomes.length = 1 ∧
          anchorTo twoGroups final walk.started = 60)) &&
        (decide ((final.start twoGroups true true none).left.length = 1 ∧
          ({ final with now := 86460 }.start twoGroups true true none).left.length = 2) &&
        (final.step twoGroups (.finish false true true)).any fun after =>
          decide ((after.start twoGroups true true none).left.length = 2 ∧
            after.nominated.length = 3)) := by decide +kernel
  rw [replayed, Option.all_some, Bool.and_eq_true, Bool.and_eq_true] at reached
  obtain ⟨walking, starts, ends⟩ := reached
  obtain ⟨walk, held, short⟩ := (Option.any_eq_true _ _).mp walking
  obtain ⟨resumed, timedOut⟩ := of_decide_eq_true starts
  obtain ⟨after, taken, last⟩ := (Option.any_eq_true _ _).mp ends
  obtain ⟨again, three⟩ := of_decide_eq_true last
  have run := reaches_of_replay replayed
    (by decide +kernel : allowedAll (World.step twoGroups) (fun _ _ => True) freshPortal resumedCycle)
  exact ⟨final, after, replayed, taken, ⟨walk, held, of_decide_eq_true short⟩, resumed, timedOut,
    again, three,
    nominates_proved_unseen twoGroups freshPortal final freshPortal_initial run _ after taken⟩

end World

end Sreality.Scraper.WalkCycle
