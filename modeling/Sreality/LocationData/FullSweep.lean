import Mathlib.Data.List.Basic
import Sreality.Foundation.Runs

/-! The corpus sweep of the resolver (`enqueue_full_sweep` and `reconcile`,
location_data/resolver/drain.py) beside writers that switch listings, producers that enqueue
and drain batches. A window statement reads its snapshot first and inserts afterwards. -/

set_option autoImplicit false

namespace Sreality.LocationData.FullSweep

open Sreality.Foundation

/-- A (resolver version, registry label) pair; `listing_location` rows are stamped with one. -/
structure Pair where
  resolverVersion : String
  registryVersion : String
  deriving DecidableEq

/-- `listings`; the ids are drawn from a sequence. -/
structure Listing where
  id : Nat
  isActive : Bool
  drawn : 0 < id
  deriving DecidableEq

/-- Where `enqueue_full_sweep` is: before a window, between its read and its insert, or at its
return with the count. -/
inductive Phase where
  | walking (active : Bool) (after : Nat)
  | writing (active : Bool) (after : Nat) (chosen : List Nat)
  | returned
  deriving DecidableEq

structure Sweep where
  window : Nat
  upper : Nat
  enqueued : Nat
  phase : Phase
  deriving DecidableEq

/-- `answers` is `listing_location`, `dirty` the keys of `dirty_locations` and `sweptPair` the
pair this process last swept. -/
structure World where
  listings : List Listing
  answers : Nat → Option Pair
  dirty : List Nat
  sweptPair : Option Pair
  sweep : Option Sweep

/-- The end of the window that starts past `after`. -/
def Sweep.hi (sweep : Sweep) (after : Nat) : Nat :=
  min (after + sweep.window) sweep.upper

def Sweep.start (window upper : Nat) : Sweep where
  window := window
  upper := upper
  enqueued := 0
  phase := .walking true 0

/-- `_SWEEP_UPPER_BOUND_SQL`. -/
def upperBound (listings : List Listing) : Nat :=
  (listings.map Listing.id).foldr max 0

namespace World

variable (world : World) (pair : Pair)

/-- The `SELECT` of `_SWEEP_SQL`. -/
def stale (active : Bool) (after hi : Nat) : List Nat :=
  (world.listings.filter fun listing =>
    (world.answers listing.id).all
        (fun stamp => decide (stamp.resolverVersion ≠ pair.resolverVersion) ||
          decide (stamp.registryVersion ≠ pair.registryVersion)) &&
      decide (listing.isActive = active) && decide (after < listing.id) &&
      decide (listing.id ≤ hi) && decide (listing.id ∉ world.dirty)).map Listing.id

/-- `INSERT … ON CONFLICT (listing_id) DO NOTHING`. -/
def enqueue (ids : List Nat) : World :=
  { world with dirty := world.dirty ++ ids.eraseDups.filter fun id => decide (id ∉ world.dirty) }

/-- The sweep goes on in another phase. -/
def onward (sweep : Sweep) (phase : Phase) : World :=
  { world with sweep := some { sweep with phase := phase } }

/-- The rows a window's insert adds are counted, and the walk moves past it. -/
def writeWindow (sweep : Sweep) (active : Bool) (after : Nat) (chosen : List Nat) : World :=
  let inserted := chosen.filter fun id => decide (id ∉ world.dirty)
  (world.enqueue chosen).onward { sweep with enqueued := sweep.enqueued + inserted.length }
    (.walking active (sweep.hi after))

/-- A drain batch commits: answers for the rows it resolved, and the rows it finished gone. -/
def drain (resolved finished : List Nat) : World :=
  { world with
    answers := fun id => if id ∈ resolved then some pair else world.answers id
    dirty := world.dirty.filter fun id => decide (id ∉ finished) }

/-- A writer switches `is_active`. -/
def switch (id : Nat) (active : Bool) : World :=
  { world with listings := world.listings.map fun listing =>
      if listing.id = id then { listing with isActive := active } else listing }

end World

inductive Action where
  /-- `reconcile` finds its pair new and `enqueue_full_sweep` reads the upper bound. -/
  | reconcile (window : Nat)
  | readWindow
  | writeWindow
  /-- A lock wait rolls the window back. -/
  | retryWindow
  /-- The walk has come to the upper bound. -/
  | turn
  | record
  /-- The sweep ends by an exception or by the fence. -/
  | abandon
  | restart
  | switch (id : Nat) (active : Bool)
  | born (id : Nat) (active : Bool)
  | enqueue (ids : List Nat)
  | drain (resolved finished : List Nat)

/-- What the sweep's own statements do in its phase. -/
def sweepStep (pair : Pair) (world : World) (sweep : Sweep) : Action → Option World
  | .readWindow =>
      match sweep.phase with
      | .walking active after =>
          if after < sweep.upper then
            some (world.onward sweep (.writing active after
              (world.stale pair active after (sweep.hi after))))
          else none
      | _ => none
  | .writeWindow =>
      match sweep.phase with
      | .writing active after chosen => some (world.writeWindow sweep active after chosen)
      | _ => none
  | .retryWindow =>
      match sweep.phase with
      | .writing active after _ => some (world.onward sweep (.walking active after))
      | _ => none
  | .turn =>
      match sweep.phase with
      | .walking active after =>
          if after < sweep.upper then none
          else some (world.onward sweep (if active then .walking false 0 else .returned))
      | _ => none
  | .record =>
      if sweep.phase = .returned then some { world with sweptPair := some pair, sweep := none }
      else none
  | .abandon => some { world with sweep := none }
  | _ => none

def step (pair : Pair) (world : World) : Action → Option World
  | .reconcile window =>
      if world.sweptPair = some pair ∨ world.sweep.isSome ∨ window = 0 then none
      else some { world with sweep := some (Sweep.start window (upperBound world.listings)) }
  | .switch id active => some (world.switch id active)
  | .born id active =>
      if drawn : 0 < id ∧ id ∉ world.listings.map Listing.id then
        some { world with listings := world.listings ++
          [{ id := id, isActive := active, drawn := drawn.1 }] }
      else none
  | .enqueue ids => some (world.enqueue ids)
  | .drain resolved finished =>
      -- A batch resolves rows it holds; a row bumped under it stays.
      if (∀ id ∈ resolved, id ∈ world.dirty) ∧ ∀ id ∈ finished, id ∈ resolved then
        some (world.drain pair resolved finished)
      else none
  | .restart => some { world with sweptPair := none, sweep := none }
  | action => world.sweep.bind fun sweep => sweepStep pair world sweep action

/-- The listing is stamped with the pair or queued. -/
def World.Settled (world : World) (pair : Pair) (id : Nat) : Prop :=
  world.answers id = some pair ∨ id ∈ world.dirty

instance (world : World) (pair : Pair) (id : Nat) : Decidable (world.Settled pair id) :=
  inferInstanceAs (Decidable (world.answers id = some pair ∨ id ∈ world.dirty))

/-- A walk of the flag that has come past `passed` will still read a listing of the id. -/
def due (walk : Bool) (passed id : Nat) (active : Bool) : Prop :=
  if walk then active = false ∨ passed < id else active = false ∧ passed < id

instance (walk : Bool) (passed id : Nat) (active : Bool) : Decidable (due walk passed id active) :=
  match walk with
  | true => inferInstanceAs (Decidable (active = false ∨ passed < id))
  | false => inferInstanceAs (Decidable (active = false ∧ passed < id))

/-- The sweep will still read the listing, or has it among the rows it is about to insert. -/
def Sweep.ahead (sweep : Sweep) (id : Nat) (active : Bool) : Prop :=
  match sweep.phase with
  | .walking walk after => due walk after id active
  | .writing walk after chosen => id ∈ chosen ∨ due walk (sweep.hi after) id active
  | .returned => False

instance (sweep : Sweep) (id : Nat) (active : Bool) : Decidable (sweep.ahead id active) :=
  match sweep with
  | ⟨_, _, _, .walking walk after⟩ => inferInstanceAs (Decidable (due walk after id active))
  | ⟨window, upper, enqueued, .writing walk after chosen⟩ => inferInstanceAs (Decidable
      (id ∈ chosen ∨ due walk
        (Sweep.hi ⟨window, upper, enqueued, .writing walk after chosen⟩ after) id active))
  | ⟨_, _, _, .returned⟩ => inferInstanceAs (Decidable False)

/-- A window that is rolled back will read the listing again. -/
def Sweep.readsAgain (sweep : Sweep) (id : Nat) (active : Bool) : Prop :=
  match sweep.phase with
  | .writing walk after chosen => id ∈ chosen → due walk after id active
  | _ => True

instance (sweep : Sweep) (id : Nat) (active : Bool) : Decidable (sweep.readsAgain id active) :=
  match sweep with
  | ⟨_, _, _, .writing walk after chosen⟩ =>
      inferInstanceAs (Decidable (id ∈ chosen → due walk after id active))
  | ⟨_, _, _, .walking _ _⟩ | ⟨_, _, _, .returned⟩ => inferInstanceAs (Decidable True)

/-- No unqueued stale listing up to the sweep's bound turns active, or appears, behind the
windows that would have read it; nor does a window lose one to its rollback. -/
def NotBehind (pair : Pair) (world : World) : Action → Prop
  | .switch id true => ∀ sweep ∈ world.sweep, id ≤ sweep.upper →
      world.Settled pair id ∨ sweep.ahead id true
  | .born id active => ∀ sweep ∈ world.sweep, id ≤ sweep.upper →
      world.Settled pair id ∨ sweep.ahead id active
  | .retryWindow => ∀ sweep ∈ world.sweep, ∀ listing ∈ world.listings,
      world.Settled pair listing.id ∨ sweep.readsAgain listing.id listing.isActive
  | _ => True

instance (pair : Pair) (world : World) : ∀ action, Decidable (NotBehind pair world action)
  | .switch id true => inferInstanceAs (Decidable (∀ sweep ∈ world.sweep, id ≤ sweep.upper →
      world.Settled pair id ∨ sweep.ahead id true))
  | .born id active => inferInstanceAs (Decidable (∀ sweep ∈ world.sweep, id ≤ sweep.upper →
      world.Settled pair id ∨ sweep.ahead id active))
  | .retryWindow => inferInstanceAs (Decidable (∀ sweep ∈ world.sweep,
      ∀ listing ∈ world.listings,
        world.Settled pair listing.id ∨ sweep.readsAgain listing.id listing.isActive))
  | .switch _ false | .reconcile _ | .readWindow | .writeWindow | .turn | .record | .abandon
  | .restart | .enqueue _ | .drain _ _ => inferInstanceAs (Decidable True)

end Sreality.LocationData.FullSweep
