import Mathlib.Algebra.Order.Field.Rat
import Sreality.Foundation.DisjointSets
import Sreality.Foundation.Tables

/-! Applying auto-merge groups at broker grain (`_apply_merges`, scripts/resolve_brokers.py):
groups of identities are chained into components of brokers, each component is refused or merged
onto its least broker with every identity its brokers hold. -/

set_option autoImplicit false

namespace Sreality.Scripts.BrokerMerges

open Sreality.Foundation

inductive BrokerStatus where
  | active
  | mergedAway
  deriving DecidableEq

/-- `brokers`. -/
structure Broker where
  id : Nat
  status : BrokerStatus
  mergedInto : Option Nat
  mergedAt : Option ℚ
  deriving DecidableEq

/-- `broker_identities`. -/
structure Identity where
  id : Nat
  brokerId : Option Nat
  deriving DecidableEq

/-- `broker_merge_events`. -/
structure MergeEvent where
  mergeGroupId : String
  survivorBrokerId : Nat
  retiredBrokerId : Nat
  identityId : Nat
  prevBrokerId : Nat
  reason : String
  source : String
  bridgeKind : Option String
  bridgeValue : Option String
  deriving DecidableEq

/-- `broker_merge_suppressions`. -/
structure Suppression where
  identityLo : Nat
  identityHi : Nat
  liftedAt : Option ℚ
  deriving DecidableEq

structure Book where
  brokers : List Broker
  identities : List Identity
  events : List MergeEvent
  suppressions : List Suppression
  deriving DecidableEq

/-- The arguments of a run, its `now()` and the group id it draws for a component. -/
structure MergeArguments where
  groups : List (List Nat)
  suppressedPairs : List (Nat × Nat)
  groupBridges : List Nat → Option (String × String)
  groupReasons : List Nat → Option String
  uuid4 : List Nat → String
  now : ℚ

def maxAutoMergeComponent : Nat := 20

def reasonOrder : List String := ["contact_name", "name_firm", "name_rarity"]

def mergeReasonFallback : String := "auto_merge"

namespace Book

variable (book : Book)

/-- `_broker_of`. -/
def brokerOf (identityId : Nat) : Option Nat :=
  (book.identities.find? fun identity => identity.id == identityId).bind Identity.brokerId

/-- `_identities_of`. -/
def identitiesOf (brokerId : Nat) : List Nat :=
  sortedIds ((book.identities.filter fun identity =>
    decide (identity.brokerId = some brokerId)).map Identity.id)

/-- `_SUPPRESSED_PAIRS_SQL`. -/
def suppressedPairs : List (Nat × Nat) :=
  (book.suppressions.filter fun row => row.liftedAt.isNone).map fun row =>
    (row.identityLo, row.identityHi)

end Book

/-! ### Components -/

section Components

variable (groups : List (List Nat)) (brokerOf : Nat → Option Nat)

/-- The brokers of a group, ascending. -/
def brokersIn (group : List Nat) : List Nat :=
  sortedIds (group.filterMap brokerOf).dedup

def links : List (Nat × Nat) :=
  groups.flatMap fun group => chain (brokersIn brokerOf group)

def brokersTouched : List Nat :=
  (groups.flatMap (brokersIn brokerOf)).dedup

/-- `_broker_components`: a root is the least of its class, so the components ascend by their
survivors. The compression of paths in `find` moves no root. -/
def brokerComponents : List (List Nat) :=
  ((sortedGroups (Forest.singletons.linkAll (links groups brokerOf)).find
    (brokersTouched groups brokerOf)).map Prod.snd).filter fun component =>
      decide (1 < component.length)

end Components

/-! ### The rails -/

/-- `owner`: the brokers of the identities the components hold. -/
def ownerIn (brokerOf : Nat → Option Nat) (components : List (List Nat)) (identityId : Nat) :
    Option Nat :=
  (brokerOf identityId).filter fun broker => decide (broker ∈ components.flatten)

/-- `by_identity`: the pairs whose two identities the components hold, from either side. -/
def partners (active : List (Nat × Nat)) (owner : Nat → Option Nat) (identityId : Nat) : List Nat :=
  ((active.filter fun pair => (owner pair.1).isSome && (owner pair.2).isSome).flatMap fun pair =>
    (if pair.1 = identityId then [pair.2] else []) ++
      if pair.2 = identityId then [pair.1] else []).dedup

/-- `_blocked_component`. -/
def blockedComponent (identitiesIn : List Nat) (owner : Nat → Option Nat)
    (byIdentity : Nat → List Nat) : Option (Nat × Nat) :=
  (sortedIds identitiesIn).findSome? fun identity =>
    (sortedIds (byIdentity identity)).findSome? fun other =>
      if other ∈ identitiesIn ∧ owner identity ≠ owner other then
        some (if identity < other then (identity, other) else (other, identity))
      else none

/-- What the loop does with a component. -/
inductive Verdict where
  | oversized
  | dropped
  | merged
  deriving DecidableEq

section Plan

variable (book : Book) (arguments : MergeArguments)

/-- The brokers the run chains together. -/
def components : List (List Nat) :=
  brokerComponents arguments.groups book.brokerOf

/-- The fresh read and the snapshot. -/
def activePairs : List (Nat × Nat) :=
  book.suppressedPairs ++ arguments.suppressedPairs

def verdict (component : List Nat) : Verdict :=
  if maxAutoMergeComponent < component.length then .oversized
  else
    let owner := ownerIn book.brokerOf (components book arguments)
    if (blockedComponent (component.flatMap book.identitiesOf) owner
        (partners (activePairs book arguments) owner)).isSome then .dropped
    else .merged

/-- The groups that hold an identity of one of the component's brokers. -/
def spanning (component : List Nat) : List (List Nat) :=
  arguments.groups.filter fun group =>
    (group.filterMap book.brokerOf).any fun broker => decide (broker ∈ component)

/-- `_component_reason`. -/
def componentReason (spanned : List (List Nat)) : String :=
  let parts := spanned.flatMap fun group => ((arguments.groupReasons group).getD "").splitOn "+"
  let reason := "+".intercalate (reasonOrder.filter fun part => decide (part ∈ parts))
  if reason = "" then mergeReasonFallback else reason

/-- The stamp of a component that one group spans, for the identities of that group. -/
def bridgeOf (spanned : List (List Nat)) (identityId : Nat) : Option (String × String) :=
  match spanned with
  | [group] => if identityId ∈ group then arguments.groupBridges group else none
  | _ => none

/-- The ledger rows of a merged component: one for each identity of a loser. -/
def ledgerRows (component : List Nat) : List MergeEvent :=
  match component with
  | [] => []
  | survivor :: rest =>
      let spanned := spanning book arguments component
      rest.flatMap fun loser => (book.identitiesOf loser).map fun identityId =>
        { mergeGroupId := arguments.uuid4 component
          survivorBrokerId := survivor
          retiredBrokerId := loser
          identityId := identityId
          prevBrokerId := loser
          reason := componentReason arguments spanned
          source := "auto"
          bridgeKind := (bridgeOf arguments spanned identityId).map Prod.fst
          bridgeValue := (bridgeOf arguments spanned identityId).map Prod.snd }

end Plan

/-- Each loser of a merged component with the survivor. -/
def losersOf : List Nat → List (Nat × Nat)
  | [] => []
  | survivor :: rest => rest.map fun loser => (loser, survivor)

/-! ### The writes -/

/-- `UPDATE broker_identities` on a row. -/
def Identity.repointed (identity : Identity) (rows : List MergeEvent) : Identity :=
  match rows.find? fun row => row.identityId == identity.id with
  | some row => { identity with brokerId := some row.survivorBrokerId }
  | none => identity

/-- `UPDATE brokers` on a row. -/
def Broker.retired (broker : Broker) (losers : List (Nat × Nat)) (now : ℚ) : Broker :=
  match losers.lookup broker.id with
  | some survivor =>
      { broker with status := .mergedAway, mergedInto := some survivor, mergedAt := some now }
  | none => broker

/-- The three statements: the ledger, the identities re-pointed, the losers retired. -/
def Book.write (book : Book) (rows : List MergeEvent) (losers : List (Nat × Nat)) (now : ℚ) : Book :=
  { book with
    events := book.events ++ rows
    identities := book.identities.map (Identity.repointed · rows)
    brokers := book.brokers.map (Broker.retired · losers now) }

/-- The book after a run, and what it returns: brokers retired, components dropped by the
backstop, components over the cap. -/
structure MergeResult where
  book : Book
  retired : Nat
  dropped : Nat
  oversized : Nat
  deriving DecidableEq

/-- `_apply_merges`. -/
def applyMerges (book : Book) (arguments : MergeArguments) : MergeResult :=
  if arguments.groups = [] then { book := book, retired := 0, dropped := 0, oversized := 0 }
  else
    let components := components book arguments
    if components = [] then { book := book, retired := 0, dropped := 0, oversized := 0 }
    else
      let dropped := components.countP fun component => verdict book arguments component = .dropped
      let oversized :=
        components.countP fun component => verdict book arguments component = .oversized
      let merged := components.filter fun component => verdict book arguments component = .merged
      let losers := merged.flatMap losersOf
      if losers = [] then
        { book := book, retired := 0, dropped := dropped, oversized := oversized }
      else
        { book := book.write (merged.flatMap (ledgerRows book arguments)) losers arguments.now
          retired := losers.length
          dropped := dropped
          oversized := oversized }

end Sreality.Scripts.BrokerMerges
