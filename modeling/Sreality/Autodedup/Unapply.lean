import Mathlib.Data.List.Lex
import Mathlib.Data.String.Basic
import Sreality.Autodedup.AppliedMerges
import Sreality.Toolkit.PropertyUndo

/-! `autodedup.apply.unapply`: the merges of a selection undone newest first, each as one
detach over the adverts its merge moved, and the dry run that says beforehand what the
live run would do with each group. -/

set_option autoImplicit false

namespace Sreality.Autodedup

open Sreality.Foundation Sreality.Toolkit

/-- One merge to undo: a row of `UNAPPLY_TARGETS_SQL`. -/
structure Target where
  group : GroupId
  generation : String
  clusterKey : Nat
  survivor : Option Nat
  retired : List Nat
  members : List Nat
  lastId : Nat
  moved : List Nat
  deriving DecidableEq

/-- `SAME_MERGE_TOLERANCE`: one second, in microseconds. -/
def sameMergeTolerance : Nat := 1000000

/-- `_recorded_moves`: the listings the merge moved off its retired properties. -/
def recordedMoves (placement : List (Nat × List Nat)) (retired : List Nat) : List Nat :=
  sortedIds ((placement.filter fun entry => decide (entry.1 ∈ retired)).flatMap Prod.snd).dedup

/-- The target of one group's rows, given in id order. -/
def targetOf (group : GroupId) (clusterKey : Nat) (rows : List AppliedMerge) : Target :=
  let retired := rows.filterMap AppliedMerge.retired
  { group := group
    generation := ((rows.map AppliedMerge.generation).max?).getD ""
    clusterKey := clusterKey
    survivor := (rows.filterMap AppliedMerge.survivor).max?
    retired := retired
    members := sortedIds (((rows.map AppliedMerge.members).max?).getD [])
    lastId := ((rows.map AppliedMerge.id).max?).getD 0
    moved := recordedMoves ((rows.head?.map AppliedMerge.placement).getD []) retired }

/-- `UNAPPLY_TARGETS_SQL`, newest first; an applied row names its group. -/
def unapplyTargets (database : Database) (selected : AppliedMerge → Bool) : List Target :=
  let rows := sortedBy AppliedMerge.id
    (database.appliedMerges.filter fun row => row.live && selected row)
  let keys := (rows.filterMap fun row => row.group.map fun group => (group, row.clusterKey)).dedup
  sortedBy (fun target => OrderDual.toDual target.lastId) (keys.map fun key =>
    targetOf key.1 key.2 (rows.filter fun row =>
      decide (row.group = some key.1 ∧ row.clusterKey = key.2)))

/-- What a property's row says: its status, what it is merged into and when. -/
structure PropertyState where
  status : Status
  mergedInto : Option Nat
  mergedAt : Option Timestamp
  deriving DecidableEq

/-- `PROPERTY_STATE_SQL` of one property. -/
def Database.propertyState (database : Database) (property : Nat) : Option PropertyState :=
  (database.identity.property property).map fun row =>
    { status := row.status, mergedInto := row.mergedInto, mergedAt := database.mergedAt property }

/-- `_merge_stands`: still merged into `into`, by the merge recorded at `appliedAt`. -/
def mergeStands (state : Option PropertyState) (into : Option Nat) (appliedAt : Timestamp) : Bool :=
  match state, into with
  | some row, some target =>
      row.mergedInto == some target &&
        match row.mergedAt with
        | some mergedAt => decide ((mergedAt - appliedAt).natAbs ≤ sameMergeTolerance)
        | none => true
  | _, _ => false

/-- The advert would move back. -/
def movesBack (state : Identity) (group : GroupId) (listing : Nat) : Bool :=
  state.detachOutcome group listing == some .detached

/-- The advert moved on since the merge. -/
def conflicting (state : Identity) (group : GroupId) (listing : Nat) : Bool :=
  let outcome := (state.detachOutcome group listing).getD .notMerged
  outcome != .detached && outcome != .notMerged

/-- Where a group stands (`_undo_state`). -/
structure UndoState where
  survivor : Option PropertyState
  taken : List Nat
  back : List Nat
  conflicts : List Nat
  deriving DecidableEq

/-- Nothing live at all: someone undid every advert of it. -/
def UndoState.undone (state : UndoState) : Bool :=
  state.back.isEmpty && state.conflicts.isEmpty

/-- `_moves_nothing_back`. -/
def UndoState.movesNothingBack (state : UndoState) : Bool :=
  !state.conflicts.isEmpty && state.back.isEmpty

def undoState (database : Database) (survivor : Option Nat) (group : GroupId)
    (members moved : List Nat) : UndoState where
  survivor := survivor.bind database.propertyState
  taken := members.filter fun listing => database.identity.place listing != survivor
  back := moved.filter (movesBack database.identity group)
  conflicts := moved.filter (conflicting database.identity group)

def Target.state (target : Target) (database : Database) : UndoState :=
  undoState database target.survivor target.group target.members target.moved

/-- A later live merge about a group's survivor. -/
structure LaterMerge where
  group : GroupId
  survivor : Option Nat
  retired : List Nat
  appliedAt : Timestamp
  moved : List Nat
  deriving DecidableEq

/-- `LATER_LIVE_MERGES_SQL`, one entry a group, in the order of their first rows. -/
def laterLiveMerges (database : Database) (after : Nat) (survivor : Nat) : List LaterMerge :=
  let rows := sortedBy AppliedMerge.id (database.appliedMerges.filter fun row =>
    row.live && decide (after < row.id) &&
      decide (row.survivor = some survivor ∨ row.retired = some survivor))
  (rows.filterMap AppliedMerge.group).eraseDups.filterMap fun group =>
    let own := rows.filter fun row => row.group == some group
    own.head?.map fun first =>
      let retired := own.filterMap AppliedMerge.retired
      { group := group
        survivor := first.survivor
        retired := retired
        appliedAt := first.appliedAt
        moved := recordedMoves first.placement retired }

/-- The undo of a later merge would free the survivor: it put more listings on it and is not
itself refused for moving nothing back. -/
def LaterMerge.onto (later : LaterMerge) (database : Database) (survivor : Nat) : Bool :=
  decide (later.survivor = some survivor) &&
    !(undoState database (some survivor) later.group [] later.moved).movesNothingBack

/-- A later merge retired the survivor, and stands. -/
def LaterMerge.retires (later : LaterMerge) (survivor : Nat) (state : Option PropertyState) : Bool :=
  decide (later.survivor ≠ some survivor) && decide (survivor ∈ later.retired) &&
    mergeStands state later.survivor later.appliedAt

/-- Why a group cannot be undone. -/
inductive UndoBlock where
  | nothingBack (conflicts : List Nat)
  | laterOnto (unapplyFirst : List GroupId)
  | laterRetired (unapplyFirst : List GroupId)
  | takenApart (status : Option Status) (taken : List Nat)
  deriving DecidableEq

/-- `_undo_block`; the later groups of `undoneInRun` are left out. -/
def undoBlock (database : Database) (target : Target) (undoneInRun : List GroupId)
    (state : UndoState) : Option UndoBlock :=
  match target.survivor with
  | none => none
  | some survivor =>
      if state.undone then none
      else
        let status := state.survivor.map PropertyState.status
        if status = some .active ∧ state.movesNothingBack = true then
          some (.nothingBack state.conflicts)
        else
          let later := (laterLiveMerges database target.lastId survivor).filter fun later =>
            decide (later.group ∉ undoneInRun)
          let onto := later.filter fun later => later.onto database survivor
          let retiring := later.filter fun later => later.retires survivor state.survivor
          if status = some .active then
            if onto = [] then none else some (.laterOnto (onto.map LaterMerge.group))
          else if retiring ≠ [] then some (.laterRetired (retiring.map LaterMerge.group))
          else some (.takenApart status state.taken)

/-- What a run says of one group. -/
inductive Report where
  | blocked (why : UndoBlock)
  | alreadyUndone
  | undone (back conflicts taken : List Nat)
  deriving DecidableEq

def Report.isBlocked : Report → Bool
  | .blocked _ => true
  | .alreadyUndone | .undone _ _ _ => false

/-- What the dry run says of one group. -/
def previewTarget (database : Database) (expected : List GroupId) (target : Target) : Report :=
  let state := target.state database
  match undoBlock database target expected state with
  | some block => .blocked block
  | none =>
      if state.undone then .alreadyUndone
      else .undone state.back state.conflicts state.taken

/-- The dry run: every group read from the tables as they stand, the later groups it expects
the live run to undo left out. -/
def unapplyDry (database : Database) (expected : List GroupId) : List Target → List Report
  | [] => []
  | target :: rest =>
      let report := previewTarget database expected target
      report :: unapplyDry database
        (if report.isBlocked then expected else target.group :: expected) rest

/-- `LEDGER_UNDO_SQL`. -/
def ledgerUndo (group : GroupId) (rows : List AppliedMerge) : List AppliedMerge :=
  updateRows (fun row => decide (row.group = some group) && row.live)
    (fun row => { row with undone := true }) rows

/-- A property its own detach brought back is merged nowhere, and never was. -/
def reactivated (before : Identity) (answers : List Detached) (property : Nat) : Bool :=
  answers.any fun answer => answer.outcome == .detached && answer.target == some property &&
    !before.isActive property

/-- One group undone in its own transaction; none where the detach raises. -/
def undoGroup (database : Database) (births : Nat → GroupId) (target : Target) :
    Option (Database × Report) :=
  (database.identity.detachListings target.moved (some target.group) [] births).map
    fun (done : Identity × List Detached) =>
      let back := (done.2.filter fun answer => answer.outcome.moves).map Detached.listing
      let conflicts := (done.2.filter fun answer =>
        !answer.outcome.moves && answer.outcome != .notMerged).map Detached.listing
      let taken := target.members.filter fun listing =>
        database.identity.place listing != target.survivor
      let detached := { database with
        identity := done.1
        mergedAt := fun property =>
          if reactivated database.identity done.2 property then none
          else database.mergedAt property }
      let noted := { detached with
        appliedMerges := ledgerUndo target.group database.appliedMerges }
      if back ≠ [] then (noted, .undone back conflicts taken)
      else if conflicts ≠ [] then (detached, .blocked (.nothingBack conflicts))
      else (noted, .alreadyUndone)

/-- What the live run does with one group, read just before it is undone. -/
def undoTarget (database : Database) (births : Nat → GroupId) (target : Target) :
    Option (Database × Report) :=
  match undoBlock database target [] (target.state database) with
  | some block => some (database, .blocked block)
  | none => undoGroup database births target

/-- The live run (`_unapply_live`). -/
def unapplyLive (database : Database) (births : Nat → GroupId) :
    List Target → Option (Database × List Report)
  | [] => some (database, [])
  | target :: rest =>
      (undoTarget database births target).bind fun done =>
        (unapplyLive done.1 births rest).map fun after => (after.1, done.2 :: after.2)

/-! ### Groups that stand on one another -/

/-- The group's survivor is an active property. -/
def Target.stands (target : Target) (database : Database) : Bool :=
  (target.state database).survivor.any fun row => row.status == .active

/-- A later live merge, none of `undone`, put more listings on the survivor and would move
some of its own back. -/
def Target.held (target : Target) (database : Database) (undone : List GroupId) : Bool :=
  target.survivor.any fun survivor =>
    (laterLiveMerges database target.lastId survivor).any fun later =>
      decide (later.group ∉ undone) && later.onto database survivor

/-- The tables let the group's adverts go: the survivor stands, some advert would move back
and no later merge holds the survivor. -/
def Target.Free (target : Target) (database : Database) (undone : List GroupId) : Prop :=
  target.stands database = true ∧ (target.state database).back ≠ [] ∧
    target.held database undone = false

instance (target : Target) (database : Database) (undone : List GroupId) :
    Decidable (target.Free database undone) :=
  inferInstanceAs (Decidable (_ ∧ _ ∧ _))

/-- When a group's turn comes, undoing the newer ones has changed nothing that decides about
it. `start` are the first tables, `now` those it is read from, `undone` the groups undone. -/
structure Foreseen (start now : Database) (undone : List GroupId) (target : Target) : Prop where
  /-- A detach names no advert that is gone. -/
  known : (target.state now).undone = true ∨ target.survivor = none ∨ target.Free now [] →
    ∀ listing ∈ target.moved, now.identity.knows listing = true
  /-- A merge of no recorded survivor, which nothing blocks beforehand, moves some advert. -/
  unnamed : target.survivor = none → (target.state now).undone = false →
    (target.state now).back ≠ []
  /-- No survivor came back. -/
  stood : target.Free now [] → target.stands start = true
  /-- No advert was freed. -/
  same : (target.survivor = none ∨ target.Free now []) →
    (target.state now).back = (target.state start).back
  /-- No later merge that would have moved nothing can now move its own. -/
  held : target.Free start undone → target.held now [] = false

instance (start now : Database) (undone : List GroupId) (target : Target) :
    Decidable (Foreseen start now undone target) :=
  decidable_of_iff
    (((target.state now).undone = true ∨ target.survivor = none ∨ target.Free now [] →
        ∀ listing ∈ target.moved, now.identity.knows listing = true) ∧
      (target.survivor = none → (target.state now).undone = false →
        (target.state now).back ≠ []) ∧
      (target.Free now [] → target.stands start = true) ∧
      (target.survivor = none ∨ target.Free now [] →
        (target.state now).back = (target.state start).back) ∧
      (target.Free start undone → target.held now [] = false))
    ⟨fun ⟨known, unnamed, stood, same, held⟩ => ⟨known, unnamed, stood, same, held⟩,
      fun foreseen => ⟨foreseen.known, foreseen.unnamed, foreseen.stood, foreseen.same,
        foreseen.held⟩⟩

/-- Every group of the run is foreseen from the tables the newer ones leave. -/
def Foretold (start : Database) (births : Nat → GroupId) :
    Database → List GroupId → List Target → Prop
  | _, _, [] => True
  | now, undone, target :: rest =>
      Foreseen start now undone target ∧
        ∀ done ∈ undoTarget now births target,
          Foretold start births done.1
            (if done.2.isBlocked then undone else target.group :: undone) rest

instance decidableForetold (start : Database) (births : Nat → GroupId) :
    ∀ (now : Database) (undone : List GroupId) (targets : List Target),
      Decidable (Foretold start births now undone targets)
  | _, _, [] => isTrue trivial
  | now, undone, target :: rest =>
      have : ∀ done : Database × Report, Decidable (Foretold start births done.1
          (if done.2.isBlocked then undone else target.group :: undone) rest) :=
        fun done => decidableForetold start births done.1 _ rest
      inferInstanceAs (Decidable (_ ∧ ∀ done ∈ undoTarget now births target, _))

/-- The rows of one merge group are of one group of the generation. -/
def Database.OneKey (database : Database) : Prop :=
  ∀ one ∈ database.appliedMerges, ∀ other ∈ database.appliedMerges,
    one.group = other.group → one.group ≠ none → one.clusterKey = other.clusterKey

instance (database : Database) : Decidable database.OneKey :=
  inferInstanceAs (Decidable (∀ one ∈ database.appliedMerges, ∀ other ∈ database.appliedMerges,
    one.group = other.group → one.group ≠ none → one.clusterKey = other.clusterKey))

/-! ### What the operator reads of a run -/

/-- The groups blocked and already undone, and how many listings moved back or moved on. -/
structure Tally where
  blocked : List GroupId
  alreadyUndone : List GroupId
  movedBack : Nat
  conflicts : Nat
  deriving DecidableEq

def Report.tally (group : GroupId) (report : Report) (tally : Tally) : Tally :=
  match report with
  | .blocked _ => { tally with blocked := group :: tally.blocked }
  | .alreadyUndone => { tally with alreadyUndone := group :: tally.alreadyUndone }
  | .undone back conflicts _ =>
      { tally with
        movedBack := tally.movedBack + back.length
        conflicts := tally.conflicts + conflicts.length }

def tallyOf (targets : List Target) (reports : List Report) : Tally :=
  (targets.zip reports).foldr (fun entry => entry.2.tally entry.1.group)
    { blocked := [], alreadyUndone := [], movedBack := 0, conflicts := 0 }

end Sreality.Autodedup
