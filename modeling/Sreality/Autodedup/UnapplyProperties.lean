import Sreality.Autodedup.ApplyPlanProperties
import Sreality.Autodedup.Unapply
import Sreality.Toolkit.GroupDetachProperties

/-! The dry run of an undo reads every group from the tables as they stand; the live run
reads each after the newer ones were undone. Undoing only ever frees: a survivor comes back,
an advert can go home, a later merge can move its own. The two runs say the same exactly
where none of that decides about an older group of the run, and a group merged into another
of the same run is where they part. -/

set_option autoImplicit false

namespace Sreality.Autodedup

open Sreality.Foundation Sreality.Toolkit

/-! ### The tables after some groups of a run were undone -/

/-- The tables `now` after the groups of `undone` were taken back from `start`. -/
structure Follows (start now : Database) (undone : List GroupId) : Prop where
  sound : now.identity.Sound
  grouped : now.identity.Grouped
  adverts : now.identity.adverts = start.identity.adverts
  rows : ∀ listing, ∃ gone, start.identity.liveMoves listing =
    now.identity.liveMoves listing ++ gone ∧ ∀ row ∈ gone, row.group ∈ undone
  standing : ∀ property, now.identity.standing property = start.identity.standing property ∨
    now.identity.standing property = some (.active, none)
  appliedMerges : now.appliedMerges = undone.foldr ledgerUndo start.appliedMerges

theorem Follows.refl {start : Database} (sound : start.identity.Sound)
    (grouped : start.identity.Grouped) : Follows start start [] :=
  ⟨sound, grouped, rfl, fun _ => ⟨[], by simp⟩, fun _ => .inl rfl, rfl⟩

section LaterMerges

theorem live_undone (row : AppliedMerge) :
    ({ row with undone := true } : AppliedMerge).live = false := by
  simp [AppliedMerge.live]

/-- Reading the live rows after an undo leaves its group out. -/
theorem filter_ledgerUndo (group : GroupId) (picks : AppliedMerge → Bool)
    (rows : List AppliedMerge) :
    (ledgerUndo group rows).filter (fun row => row.live && picks row) =
      (rows.filter fun row => row.live && picks row).filter fun row =>
        decide (row.group ≠ some group) := by
  unfold ledgerUndo updateRows
  induction rows with
  | nil => rfl
  | cons row rest ih =>
      rw [List.map_cons, List.filter_cons, List.filter_cons, ih]
      by_cases marked : (decide (row.group = some group) && row.live) = true
      · obtain ⟨own, live⟩ := Bool.and_eq_true_iff.mp marked
        rw [if_pos marked, live_undone]
        cases picked : picks row <;> simp [of_decide_eq_true own, live]
      · rw [if_neg marked]
        cases live : row.live with
        | false => simp
        | true =>
            rw [live, Bool.and_true] at marked
            cases picked : picks row <;> simp [of_decide_eq_false (Bool.not_eq_true _ ▸ marked)]

theorem filter_ledgerUndos (picks : AppliedMerge → Bool) (undone : List GroupId)
    (rows : List AppliedMerge) :
    (undone.foldr ledgerUndo rows).filter (fun row => row.live && picks row) =
      (rows.filter fun row => row.live && picks row).filter fun row =>
        decide (∀ group ∈ undone, row.group ≠ some group) := by
  induction undone with
  | nil => simp
  | cons group rest ih =>
      rw [List.foldr_cons, filter_ledgerUndo, ih, List.filter_filter]
      apply List.filter_congr
      intro row _
      by_cases own : row.group = some group <;> simp [own]

/-- One entry a group of rows given in id order. -/
def laterOf (rows : List AppliedMerge) : List LaterMerge :=
  (rows.filterMap AppliedMerge.group).eraseDups.filterMap fun group =>
    let own := rows.filter fun row => row.group == some group
    own.head?.map fun first =>
      let retired := own.filterMap AppliedMerge.retired
      { group := group
        survivor := first.survivor
        retired := retired
        appliedAt := first.appliedAt
        moved := recordedMoves first.placement retired }

theorem laterLiveMerges_eq (database : Database) (after survivor : Nat) :
    laterLiveMerges database after survivor =
      laterOf (sortedBy AppliedMerge.id (database.appliedMerges.filter fun row =>
        row.live && (decide (after < row.id) &&
          decide (row.survivor = some survivor ∨ row.retired = some survivor)))) := by
  unfold laterLiveMerges laterOf
  simp only [Bool.and_assoc]

theorem laterOf_filter (groups : List GroupId) (rows : List AppliedMerge) :
    laterOf (rows.filter fun row => decide (∀ group ∈ groups, row.group ≠ some group)) =
      (laterOf rows).filter fun later => decide (later.group ∉ groups) := by
  have keys : (rows.filter fun row => decide (∀ group ∈ groups, row.group ≠ some group)).filterMap
      AppliedMerge.group =
        (rows.filterMap AppliedMerge.group).filter fun group => decide (group ∉ groups) := by
    rw [List.filter_filterMap, List.filterMap_filter]
    apply List.filterMap_congr
    intro row _
    cases own : row.group with
    | none => simp
    | some group =>
        by_cases held : group ∈ groups
        · have met : ¬∀ other ∈ groups, some group ≠ some other := fun apart => apart group held rfl
          rw [decide_eq_false met, Option.filter_some, decide_eq_false (not_not_intro held)]
        · have apart : ∀ other ∈ groups, some group ≠ some other := fun other listed same =>
            held (Option.some.inj same ▸ listed)
          rw [decide_eq_true apart, Option.filter_some, decide_eq_true held]
  have own : ∀ group ∉ groups,
      (rows.filter fun row => decide (∀ group ∈ groups, row.group ≠ some group)).filter
        (fun row => row.group == some group) = rows.filter fun row => row.group == some group := by
    intro group apart
    rw [List.filter_filter]
    apply List.filter_congr
    intro row _
    by_cases same : row.group = some group
    · have kept : ∀ other ∈ groups, row.group ≠ some other := by
        intro other held equal
        rw [same] at equal
        exact apart (Option.some.inj equal ▸ held)
      simp [same] at kept ⊢
      exact kept
    · simp [same]
  unfold laterOf
  rw [keys, filter_eraseDups, List.filter_filterMap, List.filterMap_filter]
  apply List.filterMap_congr
  intro group _
  by_cases held : group ∈ groups
  · rw [if_neg (by simpa using held)]
    dsimp only
    cases (rows.filter fun row => row.group == some group).head? with
    | none => rfl
    | some first => rw [Option.map_some, Option.filter_some, if_neg (by simpa using held)]
  · rw [if_pos (by simpa using held), own group held]
    dsimp only
    cases (rows.filter fun row => row.group == some group).head? with
    | none => rfl
    | some first => rw [Option.map_some, Option.filter_some, if_pos (by simpa using held)]

/-- The later merges read once some groups were undone. -/
theorem Follows.laterLiveMerges {start now : Database} {undone : List GroupId}
    (follows : Follows start now undone) (after survivor : Nat) :
    laterLiveMerges now after survivor =
      (laterLiveMerges start after survivor).filter fun later => decide (later.group ∉ undone) := by
  rw [laterLiveMerges_eq, laterLiveMerges_eq, follows.appliedMerges, filter_ledgerUndos,
    ← filter_sortedBy, ← laterOf_filter]

end LaterMerges

section Steps

variable {start now : Database} {undone : List GroupId}

/-- The tables once one more group is taken back. -/
theorem Follows.step (follows : Follows start now undone) {group : GroupId} {moved : List Nat}
    {next : Identity} {answers : List Detached}
    (taken : Identity.TakenBack now.identity group moved next answers)
    (mergedAt : Nat → Option Timestamp) :
    Follows start
      { now with
        identity := next
        mergedAt := mergedAt
        appliedMerges := ledgerUndo group now.appliedMerges } (group :: undone) := by
  refine ⟨taken.sound, taken.grouped follows.grouped, taken.adverts.trans follows.adverts, ?_, ?_,
    congrArg (ledgerUndo group) follows.appliedMerges⟩
  · intro listing
    obtain ⟨gone, rows, undone_⟩ := follows.rows listing
    have earlier : ∀ row ∈ gone, row.group ∈ group :: undone :=
      fun row held => List.mem_cons_of_mem _ (undone_ row held)
    by_cases back : listing ∈ moved ∧ now.identity.backTo group listing ≠ none
    · obtain ⟨property, home⟩ := Option.ne_none_iff_exists'.mp back.2
      obtain ⟨kept, last, newest, own, rfl, _⟩ := Identity.backTo_eq_some follows.sound home
      refine ⟨last :: gone, ?_, List.forall_mem_cons.mpr ⟨own ▸ List.mem_cons_self, earlier⟩⟩
      rw [rows, newest, taken.home listing back.1 kept last newest home, List.append_assoc]
      rfl
    · refine ⟨gone, ?_, earlier⟩
      rw [rows, (taken.stayed listing fun held => by_contra fun moves => back ⟨held, moves⟩).2]
  · intro property
    by_cases back : ∃ listing ∈ moved, now.identity.backTo group listing = some property
    · obtain ⟨listing, held, home⟩ := back
      exact .inr (taken.revived listing held property home)
    · rw [taken.others property fun listing held home => back ⟨listing, held, home⟩]
      exact follows.standing property

/-! ### What undoing newer groups can change of a reading -/

theorem Follows.mergedBy_iff (follows : Follows start now undone) {group : GroupId}
    (fresh : group ∉ undone) (listing : Nat) :
    now.identity.MergedBy group listing ↔ start.identity.MergedBy group listing := by
  obtain ⟨gone, rows, undone_⟩ := follows.rows listing
  unfold Identity.MergedBy Identity.knows
  rw [follows.adverts, rows]
  refine and_congr_right fun _ => ⟨fun ⟨row, held, own⟩ => ?_, fun ⟨row, held, own⟩ => ?_⟩
  · exact ⟨row, List.mem_append_left _ held, own⟩
  · rcases List.mem_append.mp held with kept | taken
    · exact ⟨row, kept, own⟩
    · exact absurd (own ▸ undone_ row taken) fresh

/-- An advert the rule would have moved still moves. -/
theorem Follows.still_moves (follows : Follows start now undone) (sound : start.identity.Sound)
    {group : GroupId} (fresh : group ∉ undone) {listing : Nat}
    (moves : movesBack start.identity group listing = true) :
    movesBack now.identity group listing = true := by
  unfold movesBack at moves ⊢
  rw [beq_iff_eq] at moves ⊢
  refine Identity.detached_of_rows sound follows.sound follows.adverts ?_ follows.standing moves
  obtain ⟨property, home⟩ := Identity.exists_backTo sound moves
  obtain ⟨kept, last, newest, own, _⟩ := Identity.backTo_eq_some sound home
  obtain ⟨gone, rows, undone_⟩ := follows.rows listing
  rcases List.eq_nil_or_concat gone with none_ | ⟨others, final, shape⟩
  · rw [rows, none_, List.append_nil]
  · -- The newest row is the group's own, which no undo took.
    rw [List.concat_eq_append] at shape
    rw [newest, shape, ← List.append_assoc] at rows
    have same := (List.append_inj' rows rfl).2
    cases List.singleton_inj.mp same
    exact absurd (own ▸ undone_ last (by simp [shape])) fresh

theorem conflicting_iff {state : Identity} (sound : state.Sound) {group : GroupId} {listing : Nat} :
    conflicting state group listing = true ↔
      state.MergedBy group listing ∧ movesBack state group listing = false := by
  rw [← Identity.detachOutcome_mergedBy_iff sound]
  unfold conflicting movesBack
  cases state.detachOutcome group listing with
  | none => simp
  | some outcome => cases outcome <;> simp

theorem movesBack_mergedBy {state : Identity} (sound : state.Sound) {group : GroupId}
    {listing : Nat} (moves : movesBack state group listing = true) :
    state.MergedBy group listing := by
  rw [← Identity.detachOutcome_mergedBy_iff sound]
  unfold movesBack at moves
  rw [beq_iff_eq] at moves
  simp [moves]

theorem undone_iff {database : Database} (sound : database.identity.Sound)
    {survivor : Option Nat} {group : GroupId} {members moved : List Nat} :
    (undoState database survivor group members moved).undone = true ↔
      ∀ listing ∈ moved, ¬ database.identity.MergedBy group listing := by
  unfold UndoState.undone undoState
  simp only [Bool.and_eq_true, List.isEmpty_iff, List.filter_eq_nil_iff]
  constructor
  · rintro ⟨back, conflicts⟩ listing held merged
    exact conflicts listing held ((conflicting_iff sound).mpr
      ⟨merged, Bool.eq_false_iff.mpr (back listing held)⟩)
  · intro apart
    exact ⟨fun listing held moves => apart listing held (movesBack_mergedBy sound moves),
      fun listing held met => apart listing held ((conflicting_iff sound).mp met).1⟩

theorem length_filter_add {α : Type} {picks others : α → Bool} {values : List α}
    (apart : ∀ value ∈ values, picks value = true → others value = false) :
    (values.filter picks).length + (values.filter others).length =
      (values.filter fun value => picks value || others value).length := by
  induction values with
  | nil => rfl
  | cons head rest ih =>
      have tail := ih fun value held => apart value (List.mem_cons_of_mem _ held)
      cases picked : picks head with
      | true =>
          have other := apart head List.mem_cons_self picked
          simp only [List.filter_cons, picked, other, Bool.true_or, if_true, List.length_cons,
            Bool.false_eq_true, if_false]
          omega
      | false =>
          cases other : others head <;>
            simp only [List.filter_cons, picked, other, Bool.or_false, Bool.or_true, if_true,
              List.length_cons, Bool.false_eq_true, if_false] <;> omega

/-- What a reading of a group the run has not come to can become. -/
structure Grown (before after : UndoState) : Prop where
  undone : after.undone = before.undone
  back : before.back.Sublist after.back
  spread : after.back.length + after.conflicts.length =
    before.back.length + before.conflicts.length

theorem Follows.grown (follows : Follows start now undone) (sound : start.identity.Sound)
    {group : GroupId} (fresh : group ∉ undone) (survivor : Option Nat) (members moved : List Nat) :
    Grown (undoState start survivor group members moved)
      (undoState now survivor group members moved) where
  undone := by
    rw [Bool.eq_iff_iff, undone_iff follows.sound, undone_iff sound]
    exact forall₂_congr fun listing _ => not_congr (follows.mergedBy_iff fresh listing)
  back := List.monotone_filter_right moved fun _ moves => follows.still_moves sound fresh moves
  spread := by
    have apart : ∀ {database : Database}, database.identity.Sound → ∀ listing ∈ moved,
        movesBack database.identity group listing = true →
          conflicting database.identity group listing = false := by
      intro database whole listing _ moves
      rw [Bool.eq_false_iff]
      intro met
      rw [((conflicting_iff whole).mp met).2] at moves
      cases moves
    have either : ∀ {database : Database}, database.identity.Sound → ∀ listing,
        (movesBack database.identity group listing ||
          conflicting database.identity group listing) = true ↔
            database.identity.MergedBy group listing := by
      intro database whole listing
      rw [Bool.or_eq_true, conflicting_iff whole]
      refine ⟨fun found => found.elim (movesBack_mergedBy whole) And.left, fun merged => ?_⟩
      cases moves : movesBack database.identity group listing with
      | true => exact .inl rfl
      | false => exact .inr ⟨merged, rfl⟩
    unfold undoState
    dsimp only
    rw [length_filter_add (apart follows.sound), length_filter_add (apart sound)]
    congr 1
    refine List.filter_congr fun listing _ => ?_
    rw [Bool.eq_iff_iff, either follows.sound, either sound]
    exact follows.mergedBy_iff fresh listing

theorem Grown.movesNothingBack {before after : UndoState} (grown : Grown before after)
    (moves : before.movesNothingBack = false) : after.movesNothingBack = false := by
  have same := grown.undone
  unfold UndoState.undone at same
  unfold UndoState.movesNothingBack at moves ⊢
  cases kept : before.back with
  | cons listing rest =>
      have held : listing ∈ after.back := grown.back.subset (by simp [kept])
      simp [List.ne_nil_of_mem held]
  | nil =>
      rw [kept] at moves same
      simp only [List.isEmpty_nil, Bool.and_true, Bool.not_eq_false', Bool.true_and] at moves same
      rw [moves, Bool.and_eq_true] at same
      simp [same.2]

theorem stands_iff {database : Database} {target : Target} :
    target.stands database = true ↔ ∃ survivor ∈ target.survivor,
      ∃ into, database.identity.standing survivor = some (.active, into) := by
  unfold Target.stands Target.state undoState Database.propertyState Identity.standing
  cases target.survivor with
  | none => simp
  | some survivor =>
      simp only [Option.bind_some, Option.mem_some_iff, exists_eq_left']
      cases database.identity.property survivor with
      | none => simp
      | some row => simp [Option.any_some, beq_iff_eq]

/-- An active survivor stays active. -/
theorem Follows.stands (follows : Follows start now undone) {target : Target}
    (stands : target.stands start = true) : target.stands now = true := by
  obtain ⟨survivor, named, into, active⟩ := stands_iff.mp stands
  refine stands_iff.mpr ⟨survivor, named, ?_⟩
  rcases follows.standing survivor with same | revived
  · exact ⟨into, same.trans active⟩
  · exact ⟨none, revived⟩

/-- A survivor that a later merge held is held still. -/
theorem Follows.held (follows : Follows start now undone) (sound : start.identity.Sound)
    {target : Target} (held : target.held start undone = true) :
    target.held now [] = true := by
  unfold Target.held at held ⊢
  rw [Option.any_eq_true] at held ⊢
  obtain ⟨survivor, named, found⟩ := held
  refine ⟨survivor, named, ?_⟩
  rw [List.any_eq_true] at found ⊢
  obtain ⟨later, listed, kept⟩ := found
  obtain ⟨fresh, onto⟩ := Bool.and_eq_true_iff.mp kept
  refine ⟨later, ?_, ?_⟩
  · rw [follows.laterLiveMerges]
    exact List.mem_filter.mpr ⟨listed, fresh⟩
  · have grown := follows.grown sound (of_decide_eq_true fresh) (some survivor) [] later.moved
    unfold LaterMerge.onto at onto ⊢
    simp only [Bool.and_eq_true, Bool.not_eq_true'] at onto
    simp [onto.1, grown.movesNothingBack onto.2]

/-- A group is not blocked where it names no survivor, is undone already or is free. -/
theorem undoBlock_eq_none_iff {database : Database} {target : Target} {expected : List GroupId} :
    undoBlock database target expected (target.state database) = none ↔
      target.survivor = none ∨ (target.state database).undone = true ∨
        target.Free database expected := by
  unfold undoBlock
  cases named : target.survivor with
  | none => simp
  | some survivor =>
      dsimp only
      by_cases undone : (target.state database).undone = true
      · simp [undone]
      rw [if_neg undone]
      have stands : (target.state database).survivor.map PropertyState.status = some .active ↔
          target.stands database = true := by
        unfold Target.stands
        cases (target.state database).survivor <;> simp
      have nothing : (target.state database).movesNothingBack = true ↔
          (target.state database).back = [] := by
        unfold UndoState.undone at undone
        unfold UndoState.movesNothingBack
        cases back : (target.state database).back with
        | nil =>
            rw [back] at undone
            simpa using undone
        | cons listing rest => simp
      have onto : ((laterLiveMerges database target.lastId survivor).filter fun later =>
          decide (later.group ∉ expected)).filter (fun later => later.onto database survivor) = [] ↔
            target.held database expected = false := by
        unfold Target.held
        rw [named, Option.any_some, List.filter_filter, List.filter_eq_nil_iff,
          List.any_eq_false]
        simp only [Bool.and_comm]
      simp only [Target.Free, stands, nothing, onto, undone, reduceCtorEq, false_or,
        Bool.false_eq_true]
      split_ifs with both active free
      · simp [both.2]
      · simpa [active, free] using fun none_ => both ⟨active, none_⟩
      · simp [free]
      · simp [active]
      · simp [active]

end Steps
/-! ### One group under both runs -/

theorem answers_back {state next : Identity} {group : GroupId} {moved : List Nat}
    {answers : List Detached} (sound : state.Sound)
    (taken : Identity.TakenBack state group moved next answers) :
    (answers.filter fun answer => answer.outcome.moves).map Detached.listing =
      moved.filter (movesBack state group) := by
  refine (taken.answers_filter Outcome.moves).trans (List.filter_congr fun listing _ => ?_)
  unfold movesBack
  cases told : state.detachOutcome group listing with
  | none => rfl
  | some outcome =>
      rw [Option.any_some, Bool.eq_iff_iff, Identity.moves_iff_detached sound told, beq_iff_eq,
        Option.some_inj]

theorem answers_conflicts {state next : Identity} {group : GroupId} {moved : List Nat}
    {answers : List Detached} (sound : state.Sound)
    (taken : Identity.TakenBack state group moved next answers) :
    (answers.filter fun answer => !answer.outcome.moves && answer.outcome != .notMerged).map
        Detached.listing = moved.filter (conflicting state group) := by
  refine (taken.answers_filter fun outcome => !outcome.moves && outcome != .notMerged).trans
    (List.filter_congr fun listing _ => ?_)
  unfold conflicting
  cases told : state.detachOutcome group listing with
  | none => rfl
  | some outcome =>
      have kind : outcome.moves = (outcome == .detached) := by
        rw [Bool.eq_iff_iff, Identity.moves_iff_detached sound told, beq_iff_eq]
      rw [Option.any_some, Option.getD_some, kind]
      rfl

section Group

variable {start now : Database} {undone : List GroupId} {target : Target}

/-- A group's own transaction answers what the group's reading says. -/
theorem Follows.undoGroup (follows : Follows start now undone)
    (known : ∀ listing ∈ target.moved, now.identity.knows listing = true)
    (distinct : target.moved.Nodup) (births : Nat → GroupId) :
    ∃ detached noted, undoGroup now births target = some (
        if (target.state now).back ≠ [] then
          (noted, .undone (target.state now).back (target.state now).conflicts
            (target.state now).taken)
        else if (target.state now).conflicts ≠ [] then
          (detached, .blocked (.nothingBack (target.state now).conflicts))
        else (noted, .alreadyUndone)) ∧
      Follows start noted (target.group :: undone) := by
  obtain ⟨next, answers, called, taken⟩ := @Identity.detachListings_group now.identity
    target.group follows.sound follows.grouped target.moved known distinct births
  unfold Autodedup.undoGroup
  rw [called, Option.map_some]
  dsimp only
  rw [answers_back follows.sound taken, answers_conflicts follows.sound taken]
  exact ⟨_, _, rfl, follows.step taken _⟩

theorem undoGroup_unknown {births : Nat → GroupId} {listing : Nat} (held : listing ∈ target.moved)
    (unknown : now.identity.knows listing = false) : undoGroup now births target = none := by
  have refused : (target.moved.eraseDups.any fun listing => !now.identity.knows listing) = true :=
    List.any_eq_true.mpr ⟨listing, List.mem_eraseDups.mpr held, by simp [unknown]⟩
  unfold undoGroup Identity.detachListings
  dsimp only
  rw [if_pos refused]
  rfl

/-- How the two runs stand on one group: both block it, both find it undone, both take it back,
the live run perhaps more of it, or they part and it was not foreseen. -/
inductive Compared (start now : Database) (undone : List GroupId) (births : Nat → GroupId)
    (target : Target) : Prop where
  | blocked {why was : UndoBlock}
      (live : undoTarget now births target = some (now, .blocked why))
      (dry : previewTarget start undone target = .blocked was)
      (foreseen : Foreseen start now undone target)
  | already {next : Database}
      (live : undoTarget now births target = some (next, .alreadyUndone))
      (dry : previewTarget start undone target = .alreadyUndone)
      (follows : Follows start next (target.group :: undone))
      (foreseen : Foreseen start now undone target)
  | taken {next : Database} {back conflicts took expected left stayed : List Nat}
      (live : undoTarget now births target = some (next, .undone back conflicts took))
      (dry : previewTarget start undone target = .undone expected left stayed)
      (follows : Follows start next (target.group :: undone))
      (more : expected.length ≤ back.length)
      (spread : back.length + conflicts.length = expected.length + left.length)
      (foreseen : Foreseen start now undone target ↔ back.length = expected.length)
  | parted (differ : ∀ done ∈ undoTarget now births target,
        done.2.isBlocked ≠ (previewTarget start undone target).isBlocked)
      (unforeseen : ¬ Foreseen start now undone target)

theorem previewTarget_isBlocked :
    (previewTarget start undone target).isBlocked = false ↔
      target.survivor = none ∨ (target.state start).undone = true ∨ target.Free start undone := by
  rw [← undoBlock_eq_none_iff]
  unfold previewTarget
  dsimp only
  cases undoBlock start target undone (target.state start) with
  | some block => simp [Report.isBlocked]
  | none => simp only [iff_true]; split_ifs <;> rfl

theorem previewTarget_undone
    (unblocked : undoBlock start target undone (target.state start) = none)
    (left : (target.state start).undone = false) :
    previewTarget start undone target = .undone (target.state start).back
      (target.state start).conflicts (target.state start).taken := by
  unfold previewTarget
  dsimp only
  rw [unblocked, left]
  rfl

/-- Undoing the newer groups frees no group of the first tables less. -/
theorem Follows.free (follows : Follows start now undone) (sound : start.identity.Sound)
    (fresh : target.group ∉ undone) (free : target.Free start undone)
    (unheld : target.held now [] = false) : target.Free now [] := by
  obtain ⟨stands, back, _⟩ := free
  refine ⟨follows.stands stands, fun none_ => back ?_, unheld⟩
  have grown := (follows.grown sound fresh target.survivor target.members target.moved).back
  exact List.eq_nil_of_subset_nil (none_ ▸ grown.subset)

/-- A group that goes now, and whose survivor and adverts would have gone, was free. -/
theorem Follows.wasFree (follows : Follows start now undone) (sound : start.identity.Sound)
    (free : target.Free now []) (stood : target.stands start = true)
    (same : (target.state now).back = (target.state start).back) : target.Free start undone := by
  refine ⟨stood, same ▸ free.2.1, ?_⟩
  rw [Bool.eq_false_iff]
  intro held
  have still := follows.held sound held
  rw [free.2.2] at still
  cases still

theorem not_free_of_unnamed {database : Database} (named : target.survivor = none) :
    ¬ target.Free database undone := by
  intro free
  obtain ⟨survivor, held, _⟩ := stands_iff.mp free.1
  rw [named] at held
  cases held

/-- The live run leaves the group blocked. -/
theorem Follows.compared_blocked (follows : Follows start now undone)
    (sound : start.identity.Sound) (fresh : target.group ∉ undone) (births : Nat → GroupId)
    {why : UndoBlock} (live : Autodedup.undoBlock now target [] (target.state now) = some why) :
    Compared start now undone births target := by
  have grown := follows.grown sound fresh target.survivor target.members target.moved
  have still : undoTarget now births target = some (now, .blocked why) := by
    unfold undoTarget
    rw [live]
  have idle : ¬(target.survivor = none ∨ (target.state now).undone = true ∨
      target.Free now []) := by
    rw [← undoBlock_eq_none_iff, live]
    simp
  simp only [not_or, Bool.not_eq_true] at idle
  obtain ⟨named, left, stuck⟩ := idle
  cases shown : (previewTarget start undone target).isBlocked with
  | true =>
      obtain ⟨was, dry⟩ : ∃ was, previewTarget start undone target = .blocked was := by
        cases report : previewTarget start undone target with
        | blocked was => exact ⟨was, rfl⟩
        | alreadyUndone => rw [report] at shown; cases shown
        | undone => rw [report] at shown; cases shown
      refine .blocked still dry ⟨?_, fun none_ => absurd none_ named,
        fun free => absurd free stuck, ?_, ?_⟩
      · rintro (done | none_ | free)
        · rw [left] at done
          cases done
        · exact absurd none_ named
        · exact absurd free stuck
      · rintro (none_ | free)
        · exact absurd none_ named
        · exact absurd free stuck
      · intro free
        rw [previewTarget_isBlocked.mpr (.inr (.inr free))] at shown
        cases shown
  | false =>
      -- The first tables let the group go, and a later merge holds it now.
      have free : target.Free start undone := by
        rcases previewTarget_isBlocked.mp shown with none_ | done | free
        · exact absurd none_ named
        · have same := grown.undone
          change (target.state now).undone = (target.state start).undone at same
          rw [done, left] at same
          cases same
        · exact free
      refine .parted ?_ fun foreseen => ?_
      · intro done ran
        rw [still] at ran
        cases ran
        rw [shown]
        exact Bool.false_ne_true.symm
      · exact stuck (follows.free sound fresh free (foreseen.held free))

/-- The live run takes the group back, or finds it undone. -/
theorem Follows.compared_unblocked (follows : Follows start now undone)
    (sound : start.identity.Sound) (fresh : target.group ∉ undone)
    (distinct : target.moved.Nodup) (births : Nat → GroupId)
    (known : ∀ listing ∈ target.moved, now.identity.knows listing = true)
    (live : Autodedup.undoBlock now target [] (target.state now) = none) :
    Compared start now undone births target := by
  have grown : Grown (target.state start) (target.state now) :=
    follows.grown sound fresh target.survivor target.members target.moved
  obtain ⟨detached, noted, ran, followed⟩ := follows.undoGroup known distinct births
  have gone : undoTarget now births target = Autodedup.undoGroup now births target := by
    unfold undoTarget
    rw [live]
  rw [← gone] at ran
  have goes := undoBlock_eq_none_iff.mp live
  cases left : (target.state now).undone with
  | true =>
      have empty := left
      unfold UndoState.undone at empty
      simp only [Bool.and_eq_true, List.isEmpty_iff] at empty
      have before := grown.undone
      rw [left] at before
      have none_ : (target.state start).back = [] :=
        List.eq_nil_of_subset_nil (empty.1 ▸ grown.back.subset)
      have dry : previewTarget start undone target = .alreadyUndone := by
        have unblocked := (@undoBlock_eq_none_iff start target undone).mpr (.inr (.inl before.symm))
        unfold previewTarget
        dsimp only
        rw [unblocked, ← before]
        rfl
      rw [if_neg (not_not_intro empty.1), if_neg (not_not_intro empty.2)] at ran
      refine .already ran dry followed ⟨fun _ => known, ?_, fun free => absurd empty.1 free.2.1,
        fun _ => empty.1.trans none_.symm, fun free => absurd none_ free.2.1⟩
      intro _ some_
      rw [left] at some_
      cases some_
  | false =>
      by_cases stuck : (target.state now).back = []
      · -- Only a merge of no recorded survivor comes this far with nothing to move.
        have named : target.survivor = none := by
          rcases goes with named | done | free
          · exact named
          · rw [left] at done
            cases done
          · exact absurd stuck free.2.1
        have met : (target.state now).conflicts ≠ [] := by
          unfold UndoState.undone at left
          simpa [stuck] using left
        rw [if_neg (not_not_intro stuck), if_pos met] at ran
        refine .parted ?_ fun foreseen => foreseen.unnamed named left stuck
        intro done told
        rw [ran] at told
        cases told
        rw [previewTarget_isBlocked.mpr (.inl named)]
        exact Bool.false_ne_true.symm
      · rw [if_pos stuck] at ran
        have either : target.survivor = none ∨ target.Free now [] := by
          rcases goes with named | done | free
          · exact .inl named
          · rw [left] at done
            cases done
          · exact .inr free
        cases shown : (previewTarget start undone target).isBlocked with
        | true =>
            refine .parted ?_ fun foreseen => ?_
            · intro done told
              rw [ran] at told
              cases told
              rw [shown]
              exact Bool.false_ne_true
            · -- What goes now would have gone: the preview does not block it.
              rw [← Bool.not_eq_false] at shown
              rcases either with named | free
              · exact shown (previewTarget_isBlocked.mpr (.inl named))
              · exact shown (previewTarget_isBlocked.mpr (.inr (.inr
                  (follows.wasFree sound free (foreseen.stood free) (foreseen.same (.inr free))))))
        | false =>
            have before := grown.undone
            rw [left] at before
            have unblocked := undoBlock_eq_none_iff.mpr (previewTarget_isBlocked.mp shown)
            refine .taken ran (previewTarget_undone unblocked before.symm) followed
              grown.back.length_le grown.spread ⟨fun foreseen => ?_, fun same => ?_⟩
            · rw [foreseen.same either]
            · have equal := (grown.back.eq_of_length same.symm).symm
              refine ⟨fun _ => known, fun _ _ => stuck, fun free => ?_, fun _ => equal, fun free => ?_⟩
              · rcases previewTarget_isBlocked.mp shown with named | done | was
                · exact absurd free (not_free_of_unnamed named)
                · rw [← before] at done
                  cases done
                · exact was.1
              · rcases either with named | now_
                · exact absurd free (not_free_of_unnamed named)
                · exact now_.2.2

theorem Follows.compared (follows : Follows start now undone) (sound : start.identity.Sound)
    (fresh : target.group ∉ undone) (distinct : target.moved.Nodup) (births : Nat → GroupId) :
    Compared start now undone births target := by
  cases live : Autodedup.undoBlock now target [] (target.state now) with
  | some why => exact follows.compared_blocked sound fresh births live
  | none =>
      by_cases known : ∀ listing ∈ target.moved, now.identity.knows listing = true
      · exact follows.compared_unblocked sound fresh distinct births known live
      · push Not at known
        obtain ⟨listing, held, unknown⟩ := known
        have raised : undoTarget now births target = none := by
          unfold undoTarget
          rw [live]
          exact undoGroup_unknown held (Bool.not_eq_true _ ▸ unknown)
        refine .parted (fun done ran => ?_) fun foreseen => ?_
        · rw [raised] at ran
          cases ran
        · have turn := undoBlock_eq_none_iff.mp live
          exact unknown (foreseen.known (by tauto) listing held)

end Group

/-! ### The run and its preview -/

section Run

variable {start : Database}

theorem tallyOf_cons (target : Target) (targets : List Target) (report : Report)
    (reports : List Report) :
    tallyOf (target :: targets) (report :: reports) =
      report.tally target.group (tallyOf targets reports) := rfl

theorem blocked_subset (targets : List Target) (reports : List Report) :
    (tallyOf targets reports).blocked ⊆ targets.map Target.group := by
  induction targets generalizing reports with
  | nil => simp [tallyOf]
  | cons target rest ih =>
      cases reports with
      | nil => simp [tallyOf]
      | cons report reports =>
          rw [tallyOf_cons]
          have later := List.Subset.trans (ih reports)
            (List.subset_cons_self target.group (rest.map Target.group))
          cases report with
          | blocked why => exact List.cons_subset.mpr ⟨List.mem_cons_self, later⟩
          | alreadyUndone => exact later
          | undone back conflicts took => exact later

/-- Where one run blocks the first group and the other does not, what they block differs. -/
theorem blocked_ne {target : Target} {targets : List Target}
    (fresh : target.group ∉ targets.map Target.group) {one other : Report}
    (differ : one.isBlocked ≠ other.isBlocked) (ones others : List Report) :
    (tallyOf (target :: targets) (one :: ones)).blocked ≠
      (tallyOf (target :: targets) (other :: others)).blocked := by
  rw [tallyOf_cons, tallyOf_cons]
  have without : ∀ {report : Report} {reports : List Report}, report.isBlocked = false →
      target.group ∉ (report.tally target.group (tallyOf targets reports)).blocked := by
    intro report reports free held
    refine fresh (blocked_subset targets reports ?_)
    cases report with
    | blocked why => cases free
    | alreadyUndone => exact held
    | undone back conflicts took => exact held
  have within : ∀ {report : Report} {reports : List Report}, report.isBlocked = true →
      target.group ∈ (report.tally target.group (tallyOf targets reports)).blocked := by
    intro report reports blocked
    cases report with
    | blocked why => exact List.mem_cons_self
    | alreadyUndone => cases blocked
    | undone back conflicts took => cases blocked
  intro same
  cases first : one.isBlocked with
  | true =>
      have second : other.isBlocked = false := by
        rw [first] at differ
        exact Bool.eq_false_iff.mpr differ.symm
      exact without second (same ▸ within first)
  | false =>
      have second : other.isBlocked = true := by
        rw [first] at differ
        exact Bool.not_eq_false _ ▸ differ.symm
      exact without first (same.symm ▸ within second)

theorem tally_blocked_inj {group : GroupId} {why was : UndoBlock} {one other : Tally} :
    (Report.blocked why).tally group one = (Report.blocked was).tally group other ↔
      one = other := by
  cases one
  cases other
  simp [Report.tally]

theorem tally_already_inj {group : GroupId} {one other : Tally} :
    Report.alreadyUndone.tally group one = Report.alreadyUndone.tally group other ↔
      one = other := by
  cases one
  cases other
  simp [Report.tally]

/-- Of two counts of one group's adverts, where neither the group nor the rest moves fewer in
the one, the totals are equal only where both are. -/
theorem tally_undone_inj {group : GroupId} {back conflicts took expected left stayed : List Nat}
    {one other : Tally} (more : expected.length ≤ back.length)
    (spread : back.length + conflicts.length = expected.length + left.length)
    (covers : one.blocked = other.blocked → other.movedBack ≤ one.movedBack) :
    (Report.undone back conflicts took).tally group one =
        (Report.undone expected left stayed).tally group other ↔
      back.length = expected.length ∧ one = other := by
  cases one
  cases other
  simp only [Report.tally, Tally.mk.injEq]
  dsimp only at covers
  constructor
  · rintro ⟨blocked, already, moved, stayed_⟩
    have covered := covers blocked
    exact ⟨by omega, blocked, already, by omega, by omega⟩
  · rintro ⟨same, blocked, already, moved, stayed_⟩
    exact ⟨blocked, already, by omega, by omega⟩

theorem unapplyLive_cons {now next : Database} {births : Nat → GroupId} {target : Target}
    {report : Report} (live : undoTarget now births target = some (next, report))
    {rest : List Target} {after : Database × List Report} :
    unapplyLive now births (target :: rest) = some after ↔
      ∃ later, unapplyLive next births rest = some later ∧
        (later.1, report :: later.2) = after := by
  rw [unapplyLive, live, Option.bind_some, Option.map_eq_some_iff]

theorem unapplyLive_cons_exists {now next : Database} {births : Nat → GroupId} {target : Target}
    {report : Report} (live : undoTarget now births target = some (next, report))
    {rest : List Target} {agrees : List Report → Prop} :
    (∃ after reports, unapplyLive now births (target :: rest) = some (after, reports) ∧
        agrees reports) ↔
      ∃ after reports, unapplyLive next births rest = some (after, reports) ∧
        agrees (report :: reports) := by
  constructor
  · rintro ⟨after, reports, ran, same⟩
    obtain ⟨later, laterRan, shape⟩ := (unapplyLive_cons live).mp ran
    cases shape
    exact ⟨later.1, later.2, laterRan, same⟩
  · rintro ⟨after, reports, ran, same⟩
    exact ⟨after, report :: reports, (unapplyLive_cons live).mpr ⟨_, ran, rfl⟩, same⟩

/-- The groups of a run are all still to come, and each names its adverts once. -/
structure Coming (undone : List GroupId) (targets : List Target) : Prop where
  fresh : ∀ target ∈ targets, target.group ∉ undone
  groups : (targets.map Target.group).Nodup
  distinct : ∀ target ∈ targets, target.moved.Nodup

theorem Coming.head {undone : List GroupId} {target : Target} {rest : List Target}
    (coming : Coming undone (target :: rest)) :
    target.group ∉ undone ∧ target.moved.Nodup ∧ target.group ∉ rest.map Target.group :=
  ⟨coming.fresh target List.mem_cons_self, coming.distinct target List.mem_cons_self,
    (List.nodup_cons.mp coming.groups).1⟩

theorem Coming.left {undone : List GroupId} {target : Target} {rest : List Target}
    (coming : Coming undone (target :: rest)) : Coming undone rest where
  fresh := fun other held => coming.fresh other (List.mem_cons_of_mem _ held)
  groups := (List.nodup_cons.mp coming.groups).2
  distinct := fun other held => coming.distinct other (List.mem_cons_of_mem _ held)

theorem Coming.undone {undone : List GroupId} {target : Target} {rest : List Target}
    (coming : Coming undone (target :: rest)) : Coming (target.group :: undone) rest where
  fresh := by
    intro other held listed
    rcases List.mem_cons.mp listed with same | earlier
    · exact coming.head.2.2 (same ▸ List.mem_map_of_mem held)
    · exact coming.left.fresh other held earlier
  groups := coming.left.groups
  distinct := coming.left.distinct

/-- Where the two runs block the same groups, the live run moves at least what the dry run
says. -/
theorem live_covers_preview (sound : start.identity.Sound) (births : Nat → GroupId)
    (targets : List Target) :
    ∀ {now : Database} {undone : List GroupId}, Follows start now undone → Coming undone targets →
      ∀ {after reports}, unapplyLive now births targets = some (after, reports) →
        (tallyOf targets reports).blocked =
            (tallyOf targets (unapplyDry start undone targets)).blocked →
          (tallyOf targets (unapplyDry start undone targets)).movedBack ≤
              (tallyOf targets reports).movedBack := by
  induction targets with
  | nil => exact fun _ _ _ _ _ _ => le_rfl
  | cons target rest ih =>
      intro now undone follows coming after reports ran same
      obtain ⟨fresh, distinct, apart⟩ := coming.head
      rw [unapplyDry] at same ⊢
      cases follows.compared sound fresh distinct births with
      | blocked live dry _ =>
          obtain ⟨later, laterRan, shape⟩ := (unapplyLive_cons live).mp ran
          cases shape
          rw [dry] at same ⊢
          exact ih follows coming.left laterRan (List.cons.inj same).2
      | already live dry followed _ =>
          obtain ⟨later, laterRan, shape⟩ := (unapplyLive_cons live).mp ran
          cases shape
          rw [dry] at same ⊢
          exact ih followed coming.undone laterRan same
      | taken live dry followed more _ _ =>
          obtain ⟨later, laterRan, shape⟩ := (unapplyLive_cons live).mp ran
          cases shape
          rw [dry] at same ⊢
          exact Nat.add_le_add (ih followed coming.undone laterRan same) more
      | parted differ _ =>
          cases live : undoTarget now births target with
          | none => rw [unapplyLive, live] at ran; cases ran
          | some done =>
              obtain ⟨later, laterRan, shape⟩ := (unapplyLive_cons live).mp ran
              cases shape
              exact absurd same (blocked_ne apart (differ done live) _ _)

/-- From the tables the newer groups left, the rest of the run answers as previewed exactly
when every group of it was foreseen. -/
theorem rest_as_previewed_iff (sound : start.identity.Sound) (births : Nat → GroupId)
    (targets : List Target) :
    ∀ {now : Database} {undone : List GroupId}, Follows start now undone → Coming undone targets →
      ((∃ after reports, unapplyLive now births targets = some (after, reports) ∧
          tallyOf targets reports = tallyOf targets (unapplyDry start undone targets)) ↔
        Foretold start births now undone targets) := by
  induction targets with
  | nil => exact fun _ _ => iff_of_true ⟨_, [], rfl, rfl⟩ trivial
  | cons target rest ih =>
      intro now undone follows coming
      obtain ⟨fresh, distinct, apart⟩ := coming.head
      rw [Foretold, unapplyDry]
      cases follows.compared sound fresh distinct births with
      | blocked live dry foreseen =>
          rw [unapplyLive_cons_exists live, live, dry]
          simp only [Option.mem_some_iff, forall_eq', Report.isBlocked, if_true, tallyOf_cons,
            tally_blocked_inj, and_iff_right foreseen]
          exact ih follows coming.left
      | already live dry followed foreseen =>
          rw [unapplyLive_cons_exists live, live, dry]
          simp only [Option.mem_some_iff, forall_eq', Report.isBlocked, Bool.false_eq_true, if_false,
            tallyOf_cons, tally_already_inj, and_iff_right foreseen]
          exact ih followed coming.undone
      | taken live dry followed more spread foreseen =>
          have later := ih followed coming.undone
          rw [unapplyLive_cons_exists live, live, dry, foreseen]
          simp only [Option.mem_some_iff, forall_eq', Report.isBlocked, Bool.false_eq_true, if_false,
            tallyOf_cons, ← later]
          constructor
          · rintro ⟨after, reports, ran, same⟩
            have counts := (tally_undone_inj more spread
              (live_covers_preview sound births rest followed coming.undone ran)).mp same
            exact ⟨counts.1, after, reports, ran, counts.2⟩
          · rintro ⟨told, after, reports, ran, same⟩
            exact ⟨after, reports, ran, (tally_undone_inj more spread
              (live_covers_preview sound births rest followed coming.undone ran)).mpr ⟨told, same⟩⟩
      | parted differ unforeseen =>
          refine iff_of_false ?_ fun foretold => unforeseen foretold.1
          rintro ⟨after, reports, ran, same⟩
          cases live : undoTarget now births target with
          | none => rw [unapplyLive, live] at ran; cases ran
          | some done =>
              obtain ⟨later, laterRan, shape⟩ := (unapplyLive_cons live).mp ran
              cases shape
              exact blocked_ne apart (differ done live) _ _ (congrArg Tally.blocked same)

/-- The targets of a selection: each merge group once, and each advert once of a group. -/
theorem unapplyTargets_coming {database : Database} (keyed : database.OneKey)
    (selected : AppliedMerge → Bool) : Coming [] (unapplyTargets database selected) := by
  unfold unapplyTargets
  dsimp only
  generalize listed : sortedBy AppliedMerge.id
    (database.appliedMerges.filter fun row => row.live && selected row) = rows
  have known : ∀ row ∈ rows, row ∈ database.appliedMerges := by
    intro row held
    rw [← listed, mem_sortedBy] at held
    exact List.mem_of_mem_filter held
  refine ⟨fun _ _ => List.not_mem_nil, ?_, ?_⟩
  · rw [((sortedBy_perm _ _).map Target.group).nodup_iff, List.map_map]
    refine List.Nodup.map_on ?_ (List.nodup_dedup _)
    intro one oneHeld other otherHeld same
    rw [List.mem_dedup, List.mem_filterMap] at oneHeld otherHeld
    obtain ⟨row, rowHeld, named⟩ := oneHeld
    obtain ⟨second, secondHeld, secondNamed⟩ := otherHeld
    obtain ⟨group, own, rfl⟩ := Option.map_eq_some_iff.mp named
    obtain ⟨secondGroup, secondOwn, rfl⟩ := Option.map_eq_some_iff.mp secondNamed
    obtain rfl : group = secondGroup := same
    have key := keyed row (known row rowHeld) second (known second secondHeld)
      (own.trans secondOwn.symm) (by simp [own])
    rw [key]
  · intro target held
    rw [mem_sortedBy] at held
    obtain ⟨key, _, rfl⟩ := List.mem_map.mp held
    exact nodup_sortedBy.mpr (List.nodup_dedup _)

/-- The dry run says what the live run does, the groups blocked, those already undone and how
many adverts move back or moved on, exactly where every group of the run is foreseen. -/
theorem unapply_as_previewed (database : Database) (sound : database.identity.Sound)
    (grouped : database.identity.Grouped) (keyed : database.OneKey)
    (selected : AppliedMerge → Bool) (births : Nat → GroupId) :
    (∃ after reports,
        unapplyLive database births (unapplyTargets database selected) = some (after, reports) ∧
          tallyOf (unapplyTargets database selected) reports =
            tallyOf (unapplyTargets database selected)
              (unapplyDry database [] (unapplyTargets database selected))) ↔
      Foretold database births database [] (unapplyTargets database selected) :=
  rest_as_previewed_iff sound births _ (Follows.refl sound grouped)
    (unapplyTargets_coming keyed selected)

/-- Two merges onto property 1, of 2 and then of 3. -/
def twoOntoOne : Database where
  identity := Identity.threeHomes.run
    [.merge (Identity.joinHomes [1, 2] 1), .merge (Identity.joinHomes [1, 3] 2)]
  keyed := Keyed.nil
  appliedMerges :=
    [{ id := 1, generation := "g1", clusterKey := 7, survivor := some 1, retired := some 2
       group := some 1, dryRun := false, outcome := .applied, members := [1, 2]
       placement := [(1, [1]), (2, [2])], appliedAt := 0, undone := false },
     { id := 2, generation := "g1", clusterKey := 8, survivor := some 1, retired := some 3
       group := some 2, dryRun := false, outcome := .applied, members := [1, 2, 3]
       placement := [(1, [1, 2]), (3, [3])], appliedAt := 10, undone := false }]

theorem unapply_as_previewed_at_twoOntoOne :
    ∃ after reports,
      unapplyLive twoOntoOne (fun _ => 0) (unapplyTargets twoOntoOne fun _ => true) =
          some (after, reports) ∧
        tallyOf (unapplyTargets twoOntoOne fun _ => true) reports =
          tallyOf (unapplyTargets twoOntoOne fun _ => true)
            (unapplyDry twoOntoOne [] (unapplyTargets twoOntoOne fun _ => true)) :=
  (unapply_as_previewed twoOntoOne (Identity.threeHomes_initial.sound.run _) (by decide +kernel)
    (by decide +kernel) (fun _ => true) (fun _ => 0)).mpr (by decide +kernel)

/-- Both groups are undone, the older although the newer stands on its survivor. -/
example : tallyOf (unapplyTargets twoOntoOne fun _ => true)
    (unapplyDry twoOntoOne [] (unapplyTargets twoOntoOne fun _ => true)) =
      { blocked := [], alreadyUndone := [], movedBack := 2, conflicts := 0 } := by
  decide +kernel

end Run

/-! ### Where the preview and the run part -/

section Stacked

def threeFlats : Database where
  identity :=
    { adverts := [saleFlat 1, saleFlat 2, saleFlat 3]
      distinct := saleFlats_distinct
      place := fun listing => if listing ∈ [1, 2, 3] then some listing else none
      property := fun property => if property ∈ [1, 2, 3] then some {} else none
      ledger := []
      nextProperty := 4
      nextEvent := 1 }
  keyed := Keyed.nil

def groupOn (key : Nat) (properties listings : List Nat) : GroupPlan where
  clusterKey := key
  memberIds := listings
  propertyIds := properties
  survivorId := none
  retiredIds := []
  reasons := []
  listingIds := listings.toFinset
  placement := []

/-- Property 3 merged into 2, and then 2 into 1. -/
def oneOnAnother : Database :=
  let first := (applyGroup threeFlats (groupOn 7 [2, 3] [2, 3]) saleSetting.scope "g1" 1 0).2
  (applyGroup first (groupOn 8 [1, 2] [1, 2, 3]) saleSetting.scope "g1" 2 10).2

/-- The dry run blocks the older group, whose survivor the newer one retired; the live run
undoes the newer first and finds the survivor back. -/
theorem preview_blocks_what_the_run_undoes :
    ∃ after reports,
      unapplyLive oneOnAnother (fun _ => 0) (unapplyTargets oneOnAnother fun _ => true) =
          some (after, reports) ∧
        tallyOf (unapplyTargets oneOnAnother fun _ => true) reports =
          { blocked := [], alreadyUndone := [], movedBack := 3, conflicts := 0 } ∧
        tallyOf (unapplyTargets oneOnAnother fun _ => true)
            (unapplyDry oneOnAnother [] (unapplyTargets oneOnAnother fun _ => true)) =
          { blocked := [1], alreadyUndone := [], movedBack := 2, conflicts := 0 } := by
  have run : (unapplyLive oneOnAnother (fun _ => 0)
      (unapplyTargets oneOnAnother fun _ => true)).map (fun done =>
        tallyOf (unapplyTargets oneOnAnother fun _ => true) done.2) =
          some { blocked := [], alreadyUndone := [], movedBack := 3, conflicts := 0 } := by
    decide +kernel
  obtain ⟨done, ran, told⟩ := Option.map_eq_some_iff.mp run
  exact ⟨done.1, done.2, ran, told, by decide +kernel⟩

end Stacked

end Sreality.Autodedup
