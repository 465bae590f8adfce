import Sreality.Toolkit.PropertyIdentity

/-! The operator's split by letters (`toolkit/property_split.py`): one letter keeps
the property, every other leaves by one detach, and a letter that lands on several
properties is joined by one merge. All of it or nothing. -/

set_option autoImplicit false

namespace Sreality.Toolkit

open Sreality.Foundation

/-- Each advert with its letter. -/
abbrev Letters := List (Nat × Char)

inductive SplitRefusal where
  | invalid
  | notFound
  | stale
  | refused (refusal : MergeRefusal)
  deriving DecidableEq

/-- `_join`: rule 15's refusal propagates, any other says the preview is stale. -/
def SplitRefusal.ofMerge : MergeRefusal → SplitRefusal
  | .categoryClash field members ads => .refused (.categoryClash field members ads)
  | .tooFew | .rulerMissing | .missingOrInactive => .stale

/-- Every advert with its letter, or a refusal. -/
def statementLetters (letters : Letters) : Except SplitRefusal Letters :=
  let ads := letters.map Prod.fst
  let used := letters.map Prod.snd
  if letters.length < 1 ∨ 100 < letters.length then .error .invalid
  else if ¬ads.Nodup then .error .invalid
  else if used.any fun letter => !letter.isUpper then .error .invalid
  else if used.dedup.length < 2 then .error .invalid
  else .ok (sortedBy Prod.fst letters)

/-- The letter named most often, the earliest on a tie. -/
def mostNamed (letters : List Char) : Option Char :=
  (sortedBy (fun letter : Char => toLex (-(letters.count letter : Int), letter.toNat))
    letters.dedup).head?

/-- Where a split's letters land: the letter that keeps the property, each leaving advert
that goes back to its origin, and each born a new property. -/
structure Landings where
  staying : Char
  origin : List (Nat × Nat)
  new : List Nat
  deriving DecidableEq

/-- Where an advert lands before the joins. -/
inductive Slot where
  | kept
  | origin (property : Nat)
  | new (listing : Nat)
  deriving DecidableEq

def slotOf (landings : Landings) (ad : Nat × Char) : Slot :=
  if ad.2 = landings.staying then .kept
  else
    match landings.origin.lookup ad.1 with
    | some origin => .origin origin
    | none => .new ad.1

/-- The letters that land on several properties. -/
def joinedLetters (landings : Landings) (letters : Letters) : List Char :=
  (letters.map Prod.snd).dedup.filter fun letter =>
    1 < (((letters.filter fun ad => ad.2 = letter).map (slotOf landings)).dedup).length

/-- A statement's letters with their properties ascending, by each letter's lowest. -/
def letterSets (statement : Letters) : List (Char × List Nat) :=
  sortedBy (fun set => set.2.headD 0) ((statement.map Prod.snd).dedup.map fun letter =>
    (letter, sortedIds ((statement.filter fun entry => entry.2 = letter).map Prod.fst)))

/-- What a split is given beside its letters: the advert the Browse card shows, whether
the preview's digest still holds and the picks are the preview's, and the uuids it draws. -/
structure SplitCall where
  property : Nat
  letters : Letters
  canonical : Option Nat
  expected : Bool
  births : Nat → GroupId
  groups : Char → GroupId
  decidedBy : String

namespace Identity

/-- The letter holding most of the property's own adverts keeps it, the canonical advert's
where none holds one. -/
def stayingLetter (state : Identity) (canonical : Option Nat) (letters : Letters) : Option Char :=
  match mostNamed ((letters.filter fun ad => (state.liveMoves ad.1).isEmpty).map Prod.snd) with
  | some letter => some letter
  | none =>
      match letters.find? fun ad => canonical == some ad.1 with
      | some ad => some ad.2
      | none => (sortedBy Char.toNat (letters.map Prod.snd)).head?

/-- The origin a leaving advert could go back to: still merged away, its chain ends at the
property, and a detach would take the advert there. -/
def fitOrigin (state : Identity) (record listing : Nat) : Option Nat :=
  let moves := state.liveMoves listing
  match moves.head?, moves.getLast? with
  | some first, some last =>
      let origin := first.prev
      if last.survivor = record ∧ origin ≠ record ∧
          ((state.property origin).map Property.status) = some .mergedAway ∧
          originGone (state.property origin) moves = false ∧
          state.resolveActive origin = some record then some origin
      else none
  | _, _ => none

/-- The split's rule, read. -/
def letterLandings (state : Identity) (record : Nat) (canonical : Option Nat) (letters : Letters) :
    Option Landings :=
  (state.stayingLetter canonical letters).map fun staying =>
    let leaving := letters.filter fun ad => ad.2 ≠ staying
    let fit := leaving.filterMap fun ad =>
      (state.fitOrigin record ad.1).map fun origin => (ad, origin)
    let taker (origin : Nat) : Option Char :=
      mostNamed ((fit.filter fun entry => entry.2 = origin).map fun entry => entry.1.2)
    let origin := (fit.filter fun entry => taker entry.2 = some entry.1.2).map fun entry =>
      (entry.1.1, entry.2)
    { staying := staying
      origin := origin
      new := (leaving.map Prod.fst).filter fun ad => ad ∉ origin.map Prod.fst }

/-- The landings of the joined letters as a statement over properties; a property claimed
by two letters is stale. -/
def joinStatement (state : Identity) (movers : List Nat) (joins : List Char) (letters : Letters) :
    Except SplitRefusal Letters :=
  letters.foldlM (fun (statement : Letters) ad =>
    if joins.contains ad.2 && movers.contains ad.1 then
      match state.place ad.1 with
      | none => .ok statement
      | some property =>
          match statement.lookup property with
          | none => .ok (statement ++ [(property, ad.2)])
          | some letter => if letter = ad.2 then .ok statement else .error .stale
    else .ok statement) []

/-- `merge_letters`: each letter on two or more properties through one operator merge. -/
def mergeLetters (state : Identity) (statement : Letters) (groups : Char → GroupId)
    (decidedBy : String) (reason : String) : Except MergeRefusal Identity :=
  ((letterSets statement).filter fun set => 2 ≤ set.2.length).foldlM
    (fun (next : Identity) set =>
      next.mergePropertySet set.2 .operator reason (groups set.1) (some decidedBy)) state

/-- The letters name every advert on the property and no other. -/
def checkAds (state : Identity) (record : Nat) (letters : Letters) : Except SplitRefusal Unit :=
  if letters.any fun ad => !state.knows ad.1 then .error .notFound
  else if state.advertsOn record ≠ sortedIds (letters.map Prod.fst) then .error .stale
  else .ok ()

/-- The split, all or nothing. -/
def splitProperty (state : Identity) (call : SplitCall) : Except SplitRefusal Identity := do
  let letters ← statementLetters call.letters
  match state.resolveActive call.property with
  | none => .error .notFound
  | some record =>
      state.checkAds record letters
      match state.letterLandings record call.canonical letters with
      | none => .error .stale
      | some landings =>
          if call.expected = false then .error .stale
          else
            let movers := (letters.filter fun ad => ad.2 ≠ landings.staying).map Prod.fst
            match state.detachListings movers none landings.new call.births with
            | none => .error .stale
            | some (detached, answers) =>
                let stuck := answers.any fun answer => !answer.outcome.moves ||
                  ((landings.origin.lookup answer.listing).any fun origin =>
                    answer.target != some origin)
                if stuck then .error .stale
                else
                  let joins := joinedLetters landings letters
                  let statement ← detached.joinStatement movers joins letters
                  match detached.mergeLetters statement call.groups call.decidedBy
                    "operator_split" with
                  | .ok merged => .ok merged
                  | .error refusal => .error (.ofMerge refusal)

end Identity

end Sreality.Toolkit
