import Sreality.Scraper.DetailQueue

/-! Closing one advert (`record_gone_verdict`, scraper/portal_runner.py): any number of drains
record gone verdicts on it, statement by statement and again from the top after a dropped
connection, while walks touch the row and other drains write it. -/

set_option autoImplicit false

namespace Sreality.Scraper.GoneVerdict

open Sreality.Foundation

def goneDwell : ℚ := 12 * 60 * 60

/-- `listings`: what the rule of closing reads and writes. -/
structure Listing where
  isActive : Bool
  lastSeenAt : Option ℚ
  inactiveAt : Option ℚ
  deriving DecidableEq

inductive Verdict where
  | noRow
  | flipped
  | closed
  | pending
  deriving DecidableEq

/-- `record_gone_verdict` between two of its statements; `seen` counts the sightings committed
when the evidence was read. -/
inductive Stage where
  | started
  | flipping (firstGoneAt : ℚ) (seen : Nat)
  | completing (verdict : Verdict)
  | done
  deriving DecidableEq

/-- The sightings a call knew of when it decided to flip. -/
def Stage.seen? : Stage → Option Nat
  | .flipping _ seen => some seen
  | _ => none

/-- A gone item of a drain: the client's time when it began, kept over every replay. -/
structure Call where
  now : ℚ
  stage : Stage
  deriving DecidableEq

/-- The advert's row, the queue with its ledger, and the gone items the drains work on;
`sightings` are the times of the touches and writes committed so far. -/
structure World where
  queue : DetailQueue.World
  listing : Option Listing
  calls : List Call
  sightings : List ℚ

inductive Action where
  | queue (action : DetailQueue.Action)
  | react
  | touch
  | write
  | completeWritten
  | begin_
  | readEvidence (call : Nat)
  | flip (call : Nat)
  | complete (call : Nat)
  | replay (call : Nat)
  deriving DecidableEq

/-- The gone verdicts on the advert that no sighting refuted. -/
def unrefuted (completions : List DetailQueue.Completion) (nativeId : String)
    (lastSeenAt : Option ℚ) : List ℚ :=
  (completions.filter fun completion =>
    decide (completion.nativeId = nativeId ∧ completion.outcome = .gone) &&
      lastSeenAt.all fun seen => decide (seen < completion.completedAt)).map (·.completedAt)

/-- `gone_evidence`: whether the row exists, the earliest unrefuted gone verdict. -/
def goneEvidence (completions : List DetailQueue.Completion) (nativeId : String)
    (listing : Option Listing) : Bool × Option ℚ :=
  (listing.isSome, (unrefuted completions nativeId (listing.bind (·.lastSeenAt))).min?)

/-- `gone_confirmed`. -/
def goneConfirmed (firstGoneAt : Option ℚ) (now : ℚ) : Bool :=
  firstGoneAt.any fun first => decide (goneDwell ≤ now - first)

/-- What `record_gone_verdict` does with the evidence it read. -/
def nextStage (evidence : Bool × Option ℚ) (now : ℚ) (seen : Nat) : Stage :=
  match evidence with
  | (false, _) => .completing .noRow
  | (true, none) => .completing .pending
  | (true, some first) =>
      if goneConfirmed (some first) now then .flipping first seen else .completing .pending

/-- `mark_listing_inactive`: the row after it, and whether this call flipped it. -/
def markListingInactive (listing : Option Listing) (now : ℚ) : Option Listing × Option Bool :=
  match listing with
  | none => (none, none)
  | some row =>
      if row.isActive then (some { row with isActive := false, inactiveAt := some now }, some true)
      else (some row, some false)

/-- A sighting of the row: a touch, or the upsert of `write_listings`. -/
def sighted (now : ℚ) : Listing where
  isActive := true
  lastSeenAt := some now
  inactiveAt := none

namespace World

def now (world : World) : ℚ := world.queue.now

def setCall (world : World) (index : Nat) (call : Call) : World :=
  { world with calls := world.calls.set index call }

def sight (world : World) : World :=
  { world with listing := some (sighted world.now), sightings := world.sightings ++ [world.now] }

/-- The other calls on the queue; its completions are steps of their own, and its ledger keeps
every line. -/
def queueStep (queue : DetailQueue.World) : DetailQueue.Action → Option DetailQueue.World
  | .complete _ _ _ => none
  | .reclaim => none
  | action => queue.step action

/-- One statement or transaction of a drain or a walk, or the clock. -/
def step (nativeId : String) (world : World) : Action → Option World
  | .queue action => (queueStep world.queue action).map fun queue => { world with queue := queue }
  | .react => world.listing.bind fun row => if row.isActive then none else some world.sight
  | .touch => world.listing.map fun _ => world.sight
  | .write => some world.sight
  | .completeWritten =>
      some { world with queue := world.queue.completeDetail [nativeId] .written }
  | .begin_ => some { world with calls := world.calls ++ [{ now := world.now, stage := .started }] }
  | .readEvidence index =>
      world.calls[index]?.bind fun call =>
        if call.stage = .started then
          some (world.setCall index
            { call with
              stage := nextStage (goneEvidence world.queue.completions nativeId world.listing)
                call.now world.sightings.length })
        else none
  | .flip index =>
      world.calls[index]?.bind fun call =>
        match call.stage with
        | .flipping _ _ =>
            let (listing, flipped) := markListingInactive world.listing world.now
            some { world.setCall index
                { call with
                  stage := .completing (if flipped = some true then .flipped else .closed) } with
              listing := listing }
        | _ => none
  | .complete index =>
      world.calls[index]?.bind fun call =>
        match call.stage with
        | .completing verdict =>
            some { world.setCall index { call with stage := .done } with
              queue := world.queue.completeDetail [nativeId]
                (if verdict = .flipped then .flipped else .gone) }
        | _ => none
  | .replay index =>
      world.calls[index]?.map fun call => world.setCall index { call with stage := .started }

/-- Nothing is under way, and the row carries its latest sighting. -/
structure Initial (world : World) : Prop where
  calls : world.calls = []
  carried : ∀ sighting ∈ world.sightings, ∃ row ∈ world.listing, ∃ seen ∈ row.lastSeenAt,
    sighting ≤ seen
  past : ∀ sighting ∈ world.sightings, sighting ≤ world.now

/-- A call that sets the row inactive has a gone verdict behind it that was at least the dwell old
when the call began, and every sighting committed so far is older than that verdict. -/
def Confirmed (nativeId : String) (world : World) : Action → Prop
  | .flip index => ∀ call ∈ world.calls[index]?, (∃ row ∈ world.listing, row.isActive = true) →
      ∃ completion ∈ world.queue.completions, completion.nativeId = nativeId ∧
        completion.outcome = .gone ∧
        goneDwell ≤ call.now - completion.completedAt ∧ call.now ≤ world.now ∧
        ∀ sighting ∈ world.sightings, sighting < completion.completedAt
  | _ => True

/-- No sighting commits between a call's evidence and its flip. -/
def Unseen (world : World) : Action → Prop
  | .flip index => ∀ call ∈ world.calls[index]?, ∀ seen ∈ call.stage.seen?,
      seen = world.sightings.length
  | _ => True

instance (world : World) (action : Action) : Decidable (world.Unseen action) := by
  unfold Unseen
  cases action <;> infer_instance

end World

end Sreality.Scraper.GoneVerdict
