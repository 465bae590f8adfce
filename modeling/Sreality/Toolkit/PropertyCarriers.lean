import Mathlib.Data.String.Basic
import Sreality.Toolkit.PropertyIdentity

/-! What follows a property across a merge (`toolkit/property_carriers.py`,
`toolkit/pipeline_identity.py`): collection entries, tags, the pipeline card and the
active dismissal, each with its carry row, and the routing that gives them back on a
detach. A table is read by its primary key; the notes, files, links and alerts, which no
read here meets, and the lifted dismissals, which are history, are left out. -/

set_option autoImplicit false

namespace Sreality.Toolkit

open Sreality.Foundation

abbrev AccountId := Nat

/-! ### The tables -/

/-- The SET tables of the carry record. -/
inductive SetTable where
  | collectionProperties
  | propertyTags
  deriving DecidableEq

inductive CarriedTable where
  | set (table : SetTable)
  | pipeline
  | dismissals
  deriving DecidableEq

/-- A collection or a tag, and the account that owns it. -/
structure Shelf where
  key : Nat
  account : AccountId
  deriving DecidableEq

structure Stage where
  account : AccountId
  position : Int
  isTerminal : Bool
  archived : Bool := false
  deriving DecidableEq

structure Card where
  stage : Nat
  addedAt : Timestamp
  updatedAt : Timestamp
  deriving DecidableEq

structure Dismissal where
  id : Nat
  dismissedAt : Timestamp
  deriving DecidableEq

inductive CarryKind where
  | moved
  | folded
  deriving DecidableEq

/-- One curation row a step moved or folded onto its survivor; of a folded card's snapshot,
the stage. -/
structure Carried where
  table : CarriedTable
  rowKey : Option Nat
  rowAt : Timestamp
  account : AccountId
  origin : Nat
  kind : CarryKind
  stage : Option Nat := none
  deriving DecidableEq

/-- A carry record row; `undone` once a split has taken it back. -/
structure Carry where
  id : Nat
  group : GroupId
  row : Carried
  target : Nat
  undone : Bool := false
  deriving DecidableEq

/-- The curation tables: entries by collection or tag and property, cards and active
dismissals by account and property. -/
structure Curation where
  accounts : List AccountId
  shelves : SetTable → List Shelf
  stages : Nat → Option Stage
  entry : SetTable → Nat → Nat → Option Timestamp
  card : AccountId → Nat → Option Card
  dismissal : AccountId → Nat → Option Dismissal
  carries : List Carry
  nextCarry : Nat
  nextDismissal : Nat

/-- `STANDING_CARRY`: not undone, and its merge step stands. -/
def standing (ledger : List LedgerRow) (carry : Carry) : Bool :=
  !carry.undone && ledger.any fun row =>
    row.group == carry.group && row.retired == carry.row.origin && !row.undone

/-- `UPDATE … SET property_id = survivor WHERE property_id = retired`, where the survivor
holds no row of the key. -/
def repointed {α : Type} (rows : Nat → Option α) (survivor retired : Nat) : Nat → Option α :=
  fun property =>
    if property = retired then none
    else if property = survivor then (rows retired).or (rows survivor)
    else rows property

namespace Curation

/-- The account's card on the property is at a non-terminal stage. -/
def live (state : Curation) (account : AccountId) (property : Nat) : Bool :=
  (state.card account property).any fun card =>
    (state.stages card.stage).any fun stage => !stage.isTerminal

/-! ### The carriers -/

/-- `CurationTable.on_merge` of a SET table: a retired entry whose twin the survivor holds
collapses, the rest move. -/
def carryEntries (state : Curation) (table : SetTable) (survivor retired : Nat) :
    Curation × List Carried :=
  let held := state.entry table
  let carried (kind : CarryKind) (shelf : Shelf) (at_ : Timestamp) : Carried :=
    { table := .set table, rowKey := some shelf.key, rowAt := at_, account := shelf.account,
      origin := retired, kind := kind }
  let folded := (state.shelves table).filterMap fun shelf =>
    if (held shelf.key survivor).isSome then
      (held shelf.key retired).map (carried .folded shelf)
    else none
  let collapsed := fun key property =>
    if property = retired ∧ (held key survivor).isSome then none else held key property
  let moved := (state.shelves table).filterMap fun shelf =>
    (collapsed shelf.key retired).map (carried .moved shelf)
  ({ state with entry := fun other =>
      if other = table then fun key => repointed (collapsed key) survivor retired
      else state.entry other },
    folded ++ moved)

/-- The retired side's card wins: active over terminal, then the higher position, then the
later update. -/
def beats (state : Curation) (account : AccountId) (retired survivor : Card) : Bool :=
  match state.stages retired.stage, state.stages survivor.stage with
  | some rs, some ss =>
      rs.account == account && ss.account == account &&
        ((!rs.isTerminal && ss.isTerminal) ||
          (rs.isTerminal == ss.isTerminal &&
            (decide (ss.position < rs.position) ||
              (rs.position == ss.position && decide (survivor.updatedAt < retired.updatedAt)))))
  | _, _ => false

/-- Where a merge moved the survivor's card from, by its newest standing carry row. -/
def cardCame (state : Curation) (ledger : List LedgerRow) (survivor : Nat) (account : AccountId)
    (card : Card) : Option Nat :=
  ((state.carries.filter fun carry => carry.row.table == .pipeline && carry.target == survivor &&
    carry.row.account == account && carry.row.rowAt == card.addedAt &&
    carry.row.kind == .moved && standing ledger carry).getLast?).map fun carry => carry.row.origin

/-- `reconcile_pipeline_on_merge`: each account's winning card on the survivor, the loser
folded. -/
def reconcilePipeline (state : Curation) (ledger : List LedgerRow) (survivor retired : Nat) :
    Curation × List Carried :=
  let carried (kind : CarryKind) (account : AccountId) (origin : Nat) (card : Card) : Carried :=
    { table := .pipeline, rowKey := none, rowAt := card.addedAt, account := account,
      origin := origin, kind := kind
      stage := if kind = .folded then some card.stage else none }
  let beaten (account : AccountId) : Option Card :=
    match state.card account survivor, state.card account retired with
    | some own, some other => if state.beats account other own then some own else none
    | _, _ => none
  let foldedSurvivor := state.accounts.filterMap fun account =>
    (beaten account).map fun own =>
      carried .folded account ((state.cardCame ledger survivor account own).getD survivor) own
  let first := fun account property =>
    if property = survivor ∧ (beaten account).isSome then none else state.card account property
  let foldedRetired := state.accounts.filterMap fun account =>
    if (first account survivor).isSome then
      (first account retired).map (carried .folded account retired)
    else none
  let second := fun account property =>
    if property = retired ∧ (first account survivor).isSome then none else first account property
  let moved := state.accounts.filterMap fun account =>
    (second account retired).map (carried .moved account retired)
  ({ state with card := fun account => repointed (second account) survivor retired },
    foldedSurvivor ++ foldedRetired ++ moved)

/-- Where a merge moved an active dismissal from, by its newest standing carry row. -/
def dismissalCame (state : Curation) (ledger : List LedgerRow) (property : Nat)
    (dismissal : Dismissal) : Option Nat :=
  ((state.carries.filter fun carry => carry.row.table == .dismissals &&
    carry.target == property && carry.row.rowKey == some dismissal.id &&
    standing ledger carry).getLast?).map fun carry => carry.row.origin

/-- `_DISMISSAL_LIFT_LIVE_DEAL_SQL` on one property. -/
def liftLiveDeals (state : Curation) (property : Nat) : Curation :=
  { state with dismissal := fun account other =>
      if other = property ∧ state.live account property = true then none
      else state.dismissal account other }

/-- One carry row per dismissal, its last kind. -/
def lastKinds (rows lifted : List Carried) : List Carried :=
  rows.map (fun row => (lifted.find? fun other => other.rowKey == row.rowKey).getD row) ++
    lifted.filter fun other => rows.all fun row => row.rowKey != other.rowKey

/-- `Dismissals.on_merge`: where both sides hold one the retired's is lifted, the rest move,
then a live card on the survivor lifts what it meets. -/
def carryDismissals (state : Curation) (ledger : List LedgerRow) (survivor retired : Nat) :
    Curation × List Carried :=
  let carried (kind : CarryKind) (account : AccountId) (origin : Nat) (dismissal : Dismissal) :
      Carried :=
    { table := .dismissals, rowKey := some dismissal.id, rowAt := dismissal.dismissedAt,
      account := account, origin := origin, kind := kind }
  let held := state.dismissal
  let duplicates := state.accounts.filterMap fun account =>
    if (held account survivor).isSome then
      (held account retired).map (carried .folded account retired)
    else none
  let lifted := fun account property =>
    if property = retired ∧ (held account survivor).isSome then none else held account property
  let moved := state.accounts.filterMap fun account =>
    (lifted account retired).map (carried .moved account retired)
  let rows := duplicates ++ moved
  let joined := { state with dismissal := fun account => repointed (lifted account) survivor retired }
  let dealt := state.accounts.filterMap fun account =>
    if joined.live account survivor then
      (joined.dismissal account survivor).map fun dismissal =>
        carried .folded account
          (if rows.any fun row => row.rowKey == some dismissal.id then retired
            else (joined.dismissalCame ledger survivor dismissal).getD survivor) dismissal
    else none
  (joined.liftLiveDeals survivor, lastKinds rows dealt)

/-- `_CARRY_SQL`: the carry rows of a step, numbered as they are written. -/
def recordCarries (state : Curation) (group : GroupId) (survivor : Nat) (rows : List Carried) :
    Curation :=
  { state with
    carries := state.carries ++ rows.zipIdx.map fun numbered =>
      { id := state.nextCarry + numbered.2, group := group, row := numbered.1, target := survivor }
    nextCarry := state.nextCarry + rows.length }

/-- Every carrier in order, then the carry record of what they moved or folded. -/
def onMerge (state : Curation) (ledger : List LedgerRow) (group : GroupId)
    (survivor retired : Nat) : Curation :=
  let (collected, collectionRows) := state.carryEntries .collectionProperties survivor retired
  let (tagged, tagRows) := collected.carryEntries .propertyTags survivor retired
  let (carded, cardRows) := tagged.reconcilePipeline ledger survivor retired
  let (dismissed, dismissalRows) := carded.carryDismissals ledger survivor retired
  dismissed.recordCarries group survivor (collectionRows ++ tagRows ++ cardRows ++ dismissalRows)

end Curation

end Sreality.Toolkit
