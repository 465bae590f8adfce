import Sreality.Toolkit.PropertyLedger

/-! The split's preview (`split_preview`): where each letter would land and which
landing its join keeps, read from the tables before anything moves, with rule 15's
refusal of a letter that would put two properties' adverts together. -/

set_option autoImplicit false

namespace Sreality.Toolkit

open Sreality.Foundation

/-- `_slot_order`: existing properties by id, then the newborns in birth order. -/
def slotOrder (record : Nat) : Slot → Bool ×ₗ Nat
  | .kept => toLex (false, record)
  | .origin property => toLex (false, property)
  | .new listing => toLex (true, listing)

/-- The landings of one letter, each once. -/
def letterSlots (landings : Landings) (letters : Letters) (letter : Char) : List Slot :=
  ((letters.filter fun ad => ad.2 = letter).map (slotOf landings)).dedup

/-- The adverts of one landing of a letter, ascending as the statement is. -/
def landingAds (landings : Landings) (letters : Letters) (letter : Char) (slot : Slot) : List Nat :=
  (letters.filter fun ad => ad.2 = letter ∧ slotOf landings ad = slot).map Prod.fst

/-- The first row of each member and category. -/
def firstOfEach {α : Type} [DecidableEq α] (rows : List (GateAd α)) : List (GateAd α) :=
  rows.foldl (fun seen row =>
    if seen.any fun other => other.member = row.member ∧ other.category = row.category then seen
    else seen ++ [row]) []

/-- A letter as the preview shows it: where its join leaves it, how many properties it
joins, and rule 15's refusal of that join. -/
structure LetterPlan where
  letter : Char
  listings : List Nat
  kept : Slot
  joins : Nat
  refused : Option (ClashField × Nat × Nat)
  deriving DecidableEq

structure SplitPlan where
  property : Nat
  staying : Char
  letters : List LetterPlan
  deriving DecidableEq

namespace Identity

/-- `ad_categories` of one advert. -/
def adFacts (state : Identity) (listing : Nat) : Option Advert :=
  state.adverts.find? fun advert => advert.listing == listing

/-- When the recompute will date a landing: its adverts' earliest. -/
def dated (state : Identity) (ads : List Nat) : Option Timestamp :=
  (ads.filterMap fun ad => (state.adFacts ad).bind Advert.firstSeen).min?

/-- `_keeps`: decision 17 over a letter's landings. -/
def keeps (state : Identity) (record : Nat) (landings : Landings) (letters : Letters)
    (letter : Char) : Option Slot :=
  (sortedBy (fun slot =>
    let date := state.dated (landingAds landings letters letter slot)
    toLex (date.isNone, toLex (date.getD 0, slotOrder record slot)))
      (letterSlots landings letters letter)).head?

/-- What rule 15 reads of a letter's landings: their contentful adverts, in landing order. -/
def slotRows (state : Identity) (record : Nat) (landings : Landings) (letters : Letters)
    (letter : Char) : List (GateAd Slot) :=
  firstOfEach ((sortedBy (slotOrder record) (letterSlots landings letters letter)).flatMap
    fun slot => (landingAds landings letters letter slot).filterMap fun ad =>
      (state.adFacts ad).bind fun advert =>
        if advert.contentless then none
        else some
          { member := slot, category := (advert.categoryType, advert.categoryMain), listing := ad })

/-- One letter of the plan; none for a letter nothing carries. -/
def letterPlan (state : Identity) (record : Nat) (landings : Landings) (letters : Letters)
    (letter : Char) : Option LetterPlan :=
  let joins := (letterSlots landings letters letter).length
  (state.keeps record landings letters letter).map fun landing =>
    { letter := letter
      listings := (letters.filter fun ad => ad.2 = letter).map Prod.fst
      kept := landing
      joins := if 1 < joins then joins else 0
      refused :=
        if 1 < joins then
          (firstClash (state.slotRows record landings letters letter)).map fun clash =>
            (clash.1, clash.2.1.listing, clash.2.2.listing)
        else none }

/-- `split_preview`, in what it shows of the adverts. -/
def splitPreview (state : Identity) (property : Nat) (canonical : Option Nat) (letters : Letters) :
    Except SplitRefusal SplitPlan := do
  let letters ← statementLetters letters
  match state.resolveActive property with
  | none => .error .notFound
  | some record =>
      state.checkAds record letters
      match state.letterLandings record canonical letters with
      | none => .error .stale
      | some landings =>
          .ok
            { property := record
              staying := landings.staying
              letters := (sortedIds (letters.map Prod.snd).dedup).filterMap
                (state.letterPlan record landings letters) }

/-- The advert's landing is the one shown: the record, an existing property, or one born
in the split. -/
def LandsAt (before after : Identity) (record listing : Nat) : Slot → Prop
  | .kept => after.place listing = some record
  | .origin property => after.place listing = some property
  | .new _ => ∃ born, after.place listing = some born ∧ before.property born = none

/-- A split went as its preview showed it. -/
structure AsPreviewed (before : Identity) (letters : Letters) (plan : SplitPlan)
    (after : Identity) : Prop where
  together : ∀ left ∈ letters, ∀ right ∈ letters,
    after.place left.1 = after.place right.1 ↔ left.2 = right.2
  staying : ∀ ad ∈ letters, ad.2 = plan.staying → after.place ad.1 = some plan.property
  shown : ∀ ad ∈ letters, ∃ shown ∈ plan.letters, shown.letter = ad.2
  landed : ∀ shown ∈ plan.letters, ∀ ad ∈ letters, ad.2 = shown.letter →
    LandsAt before after plan.property ad.1 shown.kept
  others : ∀ listing, before.knows listing = true → before.place listing ≠ some plan.property →
    after.place listing = before.place listing

end Identity

end Sreality.Toolkit
