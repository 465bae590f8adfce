import Mathlib.Data.Prod.Lex
import Sreality.Toolkit.PropertyLedger

/-! The alerts that follow a property across a merge (`Dispatches`,
toolkit/property_carriers.py). -/

set_option autoImplicit false

namespace Sreality.Toolkit

open Sreality.Foundation

/-- `Dispatches.IDENTITY`: two missing values are equal. -/
structure EventIdentity where
  accountId : Option Nat
  sourceKind : Option String
  subscriptionId : Option Nat
  collectionId : Option Nat
  changeKind : Option String
  eventRef : Option String
  actorAccountId : Option Nat
  deriving DecidableEq

/-- `notification_dispatches`. -/
structure Dispatch where
  id : Nat
  propertyId : Option Nat
  identity : EventIdentity
  dispatchedAt : Timestamp
  duplicateOf : Option Nat
  deriving DecidableEq

/-- The earliest row of the event on the survivor that is not itself a repeat. -/
def twinOf (alerts : List Dispatch) (survivor : Nat) (identity : EventIdentity) : Option Nat :=
  ((sortedBy (fun row => toLex (row.dispatchedAt, row.id)) (alerts.filter fun row =>
    row.propertyId == some survivor && row.duplicateOf.isNone && row.identity == identity)).head?).map
      Dispatch.id

/-- `REPOINT_SQL`, the twins read before any row moves. -/
def repointAlerts (survivor : Nat) (alerts : List Dispatch) (retired : Nat) : List Dispatch :=
  alerts.map fun row =>
    if row.propertyId = some retired then
      { row with
        propertyId := some survivor
        duplicateOf := (twinOf alerts survivor row.identity).or row.duplicateOf }
    else row

/-- The properties and their alerts. -/
structure Alerted where
  identity : Identity
  alerts : List Dispatch

namespace Alerted

/-- A merge and its alerts' carrier, one retired property after another; a refused merge writes
nothing. -/
def merge (world : Alerted) (call : MergeCall) : Alerted :=
  match world.identity.mergeMembers call.propertyIds call.source call.decidedBy,
      world.identity.merge call with
  | .ok (survivor, retired), .ok next =>
      { identity := next, alerts := retired.foldl (repointAlerts survivor) world.alerts }
  | _, _ => world

def run (world : Alerted) (calls : List MergeCall) : Alerted :=
  calls.foldl merge world

end Alerted

end Sreality.Toolkit
