import Sreality.Autodedup.GroundsProperties

/-! Grounds that agree on a selection of adverts refuse every part of it alike:
each limb reads the members it is given, and what the grounds say of them. -/

set_option autoImplicit false

namespace Sreality.Autodedup

open Sreality.Foundation

/-- Two relations that state the same facts of the adverts selected. -/
structure ClusterRelation.AgreeOn (keep : Nat → Bool) (whole part : ClusterRelation) : Prop where
  mode : part.mode = whole.mode
  readable : ∀ listing, keep listing = true → part.readable listing = whole.readable listing
  separates : ∀ mode left right, keep left = true → keep right = true →
    part.separates mode (left, right) = whole.separates mode (left, right)
  printed : ∀ left right, keep left = true → keep right = true →
    part.printedAreasPrevail left right = whole.printedAreasPrevail left right

structure BoundRelation.AgreeOn (keep : Nat → Bool) (whole part : BoundRelation) : Prop where
  stated : ClusterRelation.AgreeOn keep whole.toClusterRelation part.toClusterRelation
  closureOf : ∀ listing, keep listing = true → part.closureOf listing = whole.closureOf listing

/-- Grounds that say the same of the adverts selected, and of pairs of them. -/
structure Grounds.AgreeOn (keep : Nat → Bool) (whole part : Grounds) : Prop where
  settings : part.settings = whole.settings
  get : ∀ listing, keep listing = true → part.fps.get listing = whole.fps.get listing
  closureOf : ∀ listing, keep listing = true → part.closureOf listing = whole.closureOf listing
  refused : ∀ left right, keep left = true → keep right = true →
    ((left, right) ∈ part.mustNotLink ↔ (left, right) ∈ whole.mustNotLink)
  relation : Option.Rel (BoundRelation.AgreeOn keep) whole.relation part.relation

section Agreement

variable {keep : Nat → Bool}

theorem Grounds.AgreeOn.refl (keep : Nat → Bool) (grounds : Grounds) :
    Grounds.AgreeOn keep grounds grounds where
  settings := rfl
  get := fun _ _ => rfl
  closureOf := fun _ _ => rfl
  refused := fun _ _ _ _ => Iff.rfl
  relation := by
    cases grounds.relation with
    | none => exact .none
    | some bound =>
        exact .some ⟨⟨rfl, fun _ _ => rfl, fun _ _ _ _ _ => rfl, fun _ _ _ _ => rfl⟩,
          fun _ _ => rfl⟩

theorem sameClosure_agree {whole part : Nat → Option Nat}
    (agree : ∀ listing, keep listing = true → part listing = whole listing) {left right : Nat}
    (leftKept : keep left = true) (rightKept : keep right = true) :
    sameClosure part left right = sameClosure whole left right := by
  unfold sameClosure
  rw [agree left leftKept, agree right rightKept]

theorem pairKey_kept {left right : Nat} (leftKept : keep left = true)
    (rightKept : keep right = true) :
    keep (pairKey left right).1 = true ∧ keep (pairKey left right).2 = true := by
  unfold pairKey
  split_ifs
  · exact ⟨leftKept, rightKept⟩
  · exact ⟨rightKept, leftKept⟩

namespace BoundRelation.AgreeOn

variable {whole part : BoundRelation} (agree : BoundRelation.AgreeOn keep whole part)

include agree

theorem ok {left right : Nat} (leftKept : keep left = true) (rightKept : keep right = true) :
    part.ok left right = whole.ok left right := by
  obtain ⟨lowKept, highKept⟩ := pairKey_kept leftKept rightKept
  unfold BoundRelation.ok
  dsimp only
  rw [sameClosure_agree agree.closureOf leftKept rightKept, agree.stated.readable _ lowKept,
    agree.stated.readable _ highKept, agree.stated.mode,
    agree.stated.separates _ _ _ lowKept highKept]

theorem violatingPair {ids : List Nat} (kept : ∀ listing ∈ ids, keep listing = true) :
    part.violatingPair ids = whole.violatingPair ids := by
  unfold BoundRelation.violatingPair
  refine findPair_congr ?_
  intro left leftHeld right rightHeld
  rw [agree.ok (kept left (mem_sortedBy.mp leftHeld)) (kept right (mem_sortedBy.mp rightHeld))]

theorem strict : BoundRelation.AgreeOn keep whole.strict part.strict where
  stated := ⟨rfl, agree.stated.readable, agree.stated.separates, agree.stated.printed⟩
  closureOf := agree.closureOf

end BoundRelation.AgreeOn

/-- The values beside an advert are only read pair by pair or at the extremes. -/
theorem apart_agree {α : Type} [LinearOrder α] {whole part : Nat → Option Nat}
    (agree : ∀ listing, keep listing = true → part listing = whole listing)
    {values : List (Nat × α)} (kept : ∀ value ∈ values, keep value.1 = true)
    (far : α → α → Bool) : apart values part far = apart values whole far := by
  have keys : (values.filterMap fun value => part value.1) =
      values.filterMap fun value => whole value.1 :=
    List.filterMap_congr fun value held => agree value.1 (kept value held)
  unfold apart
  dsimp only
  rw [keys]
  split_ifs
  · rfl
  · refine anyPair_congr fun left leftHeld right rightHeld => ?_
    rw [sameClosure_agree agree (kept left leftHeld) (kept right rightHeld)]

theorem statedValues_kept {α : Type} {read : Fingerprint → Option α} {members : List Fingerprint}
    (kept : ∀ fp ∈ members, keep fp.listingId = true) :
    ∀ value ∈ statedValues read members, keep value.1 = true := by
  intro value listed
  obtain ⟨fp, held, found⟩ := List.mem_filterMap.mp listed
  obtain ⟨_, _, rfl⟩ := Option.map_eq_some_iff.mp found
  exact kept fp held

theorem Option.Rel.any_eq {α β : Type} {related : α → β → Prop} {left : Option α} {right : Option β}
    (rel : Option.Rel related left right) {test : α → Bool} {other : β → Bool}
    (same : ∀ one two, related one two → other two = test one) :
    right.any other = left.any test := by
  cases rel with
  | some held => exact same _ _ held
  | none => rfl

theorem Grounds.AgreeOn.refusal {whole part : Grounds} (agree : Grounds.AgreeOn keep whole part)
    {members : List Nat} (kept : ∀ member ∈ members, keep member = true) :
    part.refusal members = whole.refusal members := by
  have read : members.filterMap part.fps.get = members.filterMap whole.fps.get :=
    List.filterMap_congr fun member held => agree.get member (kept member held)
  have keptFps : ∀ fp ∈ members.filterMap whole.fps.get, keep fp.listingId = true := by
    intro fp held
    obtain ⟨member, listed, found⟩ := List.mem_filterMap.mp held
    rw [whole.fps.keyed member fp found]
    exact kept member listed
  unfold Grounds.refusal
  rw [read, agree.settings]
  generalize members.filterMap whole.fps.get = fps at keptFps
  have keptIds : ∀ listing ∈ fps.map Fingerprint.listingId, keep listing = true := by
    intro listing listed
    obtain ⟨fp, held, rfl⟩ := List.mem_map.mp listed
    exact keptFps fp held
  have printed : (part.relation.any fun bound =>
        spreadIsPrintedOne fps whole.settings bound part.closureOf) =
      whole.relation.any fun bound =>
        spreadIsPrintedOne fps whole.settings bound whole.closureOf := by
    refine Option.Rel.any_eq agree.relation fun one two bound => ?_
    unfold spreadIsPrintedOne
    refine congrArg not (anyPair_congr fun left leftHeld right rightHeld => ?_)
    have leftKept := statedValues_kept keptFps left leftHeld
    have rightKept := statedValues_kept keptFps right rightHeld
    rw [sameClosure_agree agree.closureOf leftKept rightKept, bound.stated.readable _ leftKept,
      bound.stated.readable _ rightKept, bound.stated.printed _ _ leftKept rightKept]
  have ruled : anyPair (fun left right => decide (pairKey left right ∈ part.mustNotLink))
        (fps.map Fingerprint.listingId) =
      anyPair (fun left right => decide (pairKey left right ∈ whole.mustNotLink))
        (fps.map Fingerprint.listingId) := by
    refine anyPair_congr fun left leftHeld right rightHeld => ?_
    obtain ⟨lowKept, highKept⟩ := pairKey_kept (keptIds left leftHeld) (keptIds right rightHeld)
    rw [decide_eq_decide]
    exact agree.refused _ _ lowKept highKept
  have stated : (part.relation.any fun bound =>
        (bound.violatingPair (fps.map Fingerprint.listingId)).isSome) =
      whole.relation.any fun bound =>
        (bound.violatingPair (fps.map Fingerprint.listingId)).isSome := by
    refine Option.Rel.any_eq agree.relation fun one two bound => ?_
    rw [bound.violatingPair keptIds]
  unfold clusterInvariantsOk
  dsimp only
  rw [apart_agree agree.closureOf (statedValues_kept keptFps),
    apart_agree agree.closureOf (statedValues_kept keptFps),
    apart_agree agree.closureOf (statedValues_kept keptFps), printed, ruled, stated]

/-- The grounds one closure is judged on: its own spreads are not read. -/
def closureGrounds (fps : Fingerprints) (settings : Settings) (mustNotLink : List Pair)
    (closure : Nat × List Nat) : Grounds where
  fps := fps
  settings := settings
  mustNotLink := mustNotLink
  relation := none
  closureOf := fun member => if member ∈ closure.2 then some closure.1 else none

theorem closureRefusal_agree {fps others : Fingerprints} {settings : Settings}
    {mustNotLink otherNotLink : List Pair}
    (get : ∀ listing, keep listing = true → others.get listing = fps.get listing)
    (ruled : ∀ left right, keep left = true → keep right = true →
      ((left, right) ∈ otherNotLink ↔ (left, right) ∈ mustNotLink))
    {closure : Nat × List Nat} (kept : ∀ member ∈ closure.2, keep member = true) :
    closureRefusal others settings otherNotLink closure =
      closureRefusal fps settings mustNotLink closure := by
  have agree : Grounds.AgreeOn keep (closureGrounds fps settings mustNotLink closure)
      (closureGrounds others settings otherNotLink closure) :=
    ⟨rfl, get, fun _ _ => rfl, ruled, .none⟩
  exact agree.refusal kept

end Agreement

end Sreality.Autodedup
