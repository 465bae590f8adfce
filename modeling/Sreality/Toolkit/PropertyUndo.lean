import Sreality.Toolkit.PropertyLedger

/-! Undoing merges: a sequence of merges with nothing between them, and the detaches
that take it back, the newest group first. -/

set_option autoImplicit false

namespace Sreality.Toolkit

/-- One merge, with the tables it found and the tables it left. -/
structure MergeStep where
  before : Identity
  call : MergeCall
  after : Identity

namespace MergeStep

/-- The merge was made, over properties that each hold an advert. -/
structure Made (step : MergeStep) : Prop where
  merged : step.before.merge step.call = .ok step.after
  held : ∀ property ∈ step.call.propertyIds, step.before.membersOf property ≠ []

/-- The adverts the merge moved. -/
def moved (step : MergeStep) : List Nat :=
  (step.before.adverts.map Advert.listing).filter fun listing =>
    step.before.place listing ≠ step.after.place listing

/-- A detach of the merge's group over every advert it moved, in any order. -/
structure Undoes (step : MergeStep) (call : DetachCall) : Prop where
  group : call.group = some step.call.group
  named : call.named = []
  listed : ∀ listing, listing ∈ call.listingIds ↔ listing ∈ step.moved

end MergeStep

/-- Merges made one after another from `start`, with nothing between them. -/
structure MadeFrom (start : Identity) (steps : List MergeStep) : Prop where
  starts : ∀ first ∈ steps.head?, first.before = start
  successive : steps.IsChain fun step next => next.before = step.after
  made : ∀ step ∈ steps, step.Made

namespace Identity

/-- The calls one after another; none when one of them is refused. -/
def detachAll (state : Identity) : List DetachCall → Option (Identity × List Detached)
  | [] => some (state, [])
  | call :: rest =>
      (state.detach call).bind fun done =>
        (done.1.detachAll rest).map fun after => (after.1, done.2 ++ after.2)

/-- `detach_outcomes` of one advert under a group; an unknown advert has none. -/
def detachOutcome (state : Identity) (group : GroupId) (listing : Nat) : Option Outcome :=
  (state.planDetach listing (some group)).map fun plan =>
    if plan.outcome = .detached ∧ originGone (plan.target.bind state.property) plan.undo = true then
      .originMovedOn
    else plan.outcome

/-- Where the group's detach takes the advert; none where the advert stays. -/
def backTo (state : Identity) (group : GroupId) (listing : Nat) : Option Nat :=
  if state.detachOutcome group listing = some .detached then
    ((state.liveMoves listing).getLast?).map LedgerRow.prev
  else none

/-- The rows of one group name one survivor: the group is the uuid its merge drew. -/
def Grouped (state : Identity) : Prop :=
  ∀ one ∈ state.ledger, ∀ other ∈ state.ledger, one.group = other.group →
    one.survivor = other.survivor

instance (state : Identity) : Decidable state.Grouped :=
  inferInstanceAs (Decidable (∀ one ∈ state.ledger, ∀ other ∈ state.ledger,
    one.group = other.group → one.survivor = other.survivor))

/-- Two tables that group the adverts alike: each advert on the same property, each
property's status and `merged_into`, and the live ledger rows of every advert. -/
structure SameGrouping (next state : Identity) : Prop where
  adverts : next.adverts = state.adverts
  place : ∀ listing, state.knows listing = true → next.place listing = state.place listing
  statuses : ∀ property, (next.property property).map (fun row => (row.status, row.mergedInto)) =
    (state.property property).map fun row => (row.status, row.mergedInto)
  rows : ∀ listing, next.liveMoves listing = state.liveMoves listing

end Identity

end Sreality.Toolkit
