import Mathlib.Data.List.Chain
import Mathlib.Logic.Relation
import Sreality.Toolkit.PropertySplit

/-! Runs of the property writers with no other writer between them: merges, detaches
and splits in any order, from tables no merge has touched, and what the merge ledger
says of the tables a run reaches. -/

set_option autoImplicit false

namespace Sreality.Toolkit

/-! ### Calls -/

structure MergeCall where
  propertyIds : List Nat
  source : MergeSource
  reason : String
  group : GroupId
  decidedBy : Option String

structure DetachCall where
  listingIds : List Nat
  group : Option GroupId
  named : List Nat := []
  births : Nat → GroupId

inductive Call where
  | merge (call : MergeCall)
  | detach (call : DetachCall)
  | split (call : SplitCall)

/-- Each row starts where the one before it ended, and the last ends at the advert's place. -/
def Continuous (rows : List LedgerRow) (place : Option Nat) : Prop :=
  rows.IsChain (fun row next => row.survivor = next.prev) ∧
    ∀ last ∈ rows.getLast?, place = some last.survivor

namespace Identity

def merge (state : Identity) (call : MergeCall) : Except MergeRefusal Identity :=
  state.mergePropertySet call.propertyIds call.source call.reason call.group call.decidedBy

def detach (state : Identity) (call : DetachCall) : Option (Identity × List Detached) :=
  state.detachListings call.listingIds call.group call.named call.births

/-- A refused call leaves the tables as they were. -/
def apply (state : Identity) : Call → Identity
  | .merge call =>
      match state.merge call with
      | .ok next => next
      | .error _ => state
  | .detach call =>
      match state.detach call with
      | some (next, _) => next
      | none => state
  | .split call =>
      match state.splitProperty call with
      | .ok next => next
      | .error _ => state

def run (state : Identity) (calls : List Call) : Identity :=
  calls.foldl apply state

/-! ### What the ledger says -/

/-- Tables no merge has touched: every property active, every advert on one, no ledger row,
and the id sequence past every property. -/
structure Initial (state : Identity) : Prop where
  active : ∀ property row, state.property property = some row →
    row.status = .active ∧ row.mergedInto = none
  housed : ∀ listing, state.knows listing = true →
    ∃ property row, state.place listing = some property ∧ state.property property = some row
  empty : state.ledger = []
  sequence : ∀ property, state.nextProperty ≤ property → state.property property = none

/-- A property's `merged_into`. -/
def PointsTo (state : Identity) (property target : Nat) : Prop :=
  ∃ row, state.property property = some row ∧ row.mergedInto = some target

/-- The tables agree with the ledger. -/
structure Described (state : Identity) : Prop where
  placed : ∀ listing, state.knows listing = true →
    ∃ property, state.place listing = some property ∧ state.isActive property = true
  acyclic : ∀ property, ¬Relation.TransGen state.PointsTo property property
  settled : ∀ property row, state.property property = some row →
    ∃ last, Relation.ReflTransGen state.PointsTo property last ∧ state.isActive last = true ∧
      ∀ target, ¬state.PointsTo last target
  chained : ∀ listing, state.knows listing = true →
    ((state.liveMoves listing).map LedgerRow.event).Pairwise (· < ·) ∧
      Continuous (state.liveMoves listing) (state.place listing)
  uncontended : ∀ call next answers, state.detach call = some (next, answers) →
    ∀ answer ∈ answers, answer.outcome ≠ .movedSince

end Identity

end Sreality.Toolkit
