import Sreality.Toolkit.PropertyRouting

/-! The split by letters over all the tables (`split_property`): the curation its adverts take is
planned with the user's choices before the detach, and each join carries what the letters hold. -/

set_option autoImplicit false

namespace Sreality.Toolkit

open Sreality.Foundation

namespace Database

/-- `merge_letters`. -/
def mergeLetters (state : Database) (statement : Letters) (groups : Char → GroupId)
    (decidedBy : String) (reason : String) : Except MergeRefusal Database :=
  ((letterSets statement).filter fun set => 2 ≤ set.2.length).foldlM
    (fun (next : Database) set =>
      next.merge
        { propertyIds := set.2, source := .operator, reason := reason, group := groups set.1
          decidedBy := some decidedBy }) state

/-- The split, all or nothing; `picks` are the acting account's choices, by their anchors. -/
def splitProperty (state : Database) (call : SplitCall) (picks : Picks) (now : Timestamp) :
    Except SplitRefusal Database := do
  let letters ← statementLetters call.letters
  match state.identity.resolveActive call.property with
  | none => .error .notFound
  | some record =>
      state.identity.checkAds record letters
      match state.identity.letterLandings record call.canonical letters with
      | none => .error .stale
      | some landings =>
          if call.expected = false then .error .stale
          else
            let movers := (letters.filter fun ad => ad.2 ≠ landings.staying).map Prod.fst
            match state.detach
                { listingIds := movers, group := none, named := landings.new
                  births := call.births } (some picks) now with
            | none => .error .stale
            | some (detached, answers) =>
                let stuck := answers.any fun answer => !answer.outcome.moves ||
                  ((landings.origin.lookup answer.listing).any fun origin =>
                    answer.target != some origin)
                if stuck then .error .stale
                else
                  let joins := joinedLetters landings letters
                  let statement ← detached.identity.joinStatement movers joins letters
                  match detached.mergeLetters statement call.groups call.decidedBy
                    "operator_split" with
                  | .ok merged => .ok merged
                  | .error refusal => .error (.ofMerge refusal)

end Database

end Sreality.Toolkit
