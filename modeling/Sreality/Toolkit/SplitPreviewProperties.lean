import Sreality.Toolkit.GroupDetachProperties
import Sreality.Toolkit.SplitPreview

/-! A split does what its preview showed. The detach takes every leaving advert where the
landings say, so the properties a join finds are the landings the preview dated and gated,
under ids in the preview's own order. -/

set_option autoImplicit false

namespace Sreality.Toolkit

open Sreality.Foundation

/-! ### Rule 15, whichever rows stand for the members -/

section Clash

variable {α β : Type} [DecidableEq α] [DecidableEq β]

theorem categoryClash_comm {left right : AdCategory} :
    (categoryClash left right).isSome = (categoryClash right left).isSome := by
  unfold categoryClash
  rw [categoryMainCompatible_comm left.2 right.2]
  cases left.1 with
  | none => cases right.1 <;> split_ifs <;> rfl
  | some one =>
      cases right.1 with
      | none => rfl
      | some other =>
          by_cases same : one = other
          · simp [same]
          · simp [same, Ne.symm same]

theorem heldTogether_iff {ads : List (GateAd α)} {left right : AdCategory} :
    heldTogether ads left right = true ↔
      ∃ one ∈ ads, ∃ other ∈ ads, one.member = other.member ∧ one.category = left ∧
        other.category = right := by
  unfold heldTogether
  simp only [List.any_eq_true, Bool.and_eq_true, Bool.or_eq_true, beq_iff_eq]
  constructor
  · rintro ⟨one, oneHeld, other, otherHeld, same, ⟨first, second⟩ | ⟨first, second⟩⟩
    · exact ⟨one, oneHeld, other, otherHeld, same, first, second⟩
    · exact ⟨other, otherHeld, one, oneHeld, same.symm, second, first⟩
  · rintro ⟨one, oneHeld, other, otherHeld, same, first, second⟩
    exact ⟨one, oneHeld, other, otherHeld, same, .inl ⟨first, second⟩⟩

theorem heldTogether_comm {ads : List (GateAd α)} {left right : AdCategory} :
    heldTogether ads left right = heldTogether ads right left := by
  rw [Bool.eq_iff_iff, heldTogether_iff, heldTogether_iff]
  constructor <;>
  · rintro ⟨one, oneHeld, other, otherHeld, same, first, second⟩
    exact ⟨other, otherHeld, one, oneHeld, same.symm, second, first⟩

/-- The gate does not refuse these two beside each other. -/
def Borne (ads : List (GateAd α)) (one other : GateAd α) : Prop :=
  one.member ≠ other.member → heldTogether ads one.category other.category = false →
    categoryClash one.category other.category = none

instance (ads : List (GateAd α)) : Std.Symm (Borne ads) where
  symm one other borne differ alone := by
    have quiet := borne differ.symm (heldTogether_comm.trans alone)
    rw [← Option.isNone_iff_eq_none, ← Option.not_isSome, categoryClash_comm, quiet]
    rfl

theorem firstClash_go_isSome {ads rows : List (GateAd α)} :
    (firstClash.go ads rows).isSome = true ↔ ¬rows.Pairwise (Borne ads) := by
  induction rows with
  | nil => simp [firstClash.go]
  | cons head rest ih =>
      rw [List.pairwise_cons, firstClash.go]
      split
      · next clash found =>
          obtain ⟨other, listed, picked⟩ := List.exists_of_findSome?_eq_some found
          simp only [Option.isSome_some, true_iff, not_and]
          intro clean
          split_ifs at picked with apart
          rw [clean other listed apart.1 apart.2] at picked
          cases picked
      · next clean =>
          rw [ih]
          rw [List.findSome?_eq_none_iff] at clean
          have headClean : ∀ other ∈ rest, Borne ads head other := by
            intro other listed differ alone
            have quiet := clean other listed
            rw [if_pos ⟨differ, alone⟩, Option.map_eq_none_iff] at quiet
            exact quiet
          exact not_congr ⟨fun later => ⟨headClean, later⟩, And.right⟩

theorem firstClash_eq_none_iff {ads : List (GateAd α)} :
    firstClash ads = none ↔ ∀ one ∈ ads, ∀ other ∈ ads, Borne ads one other := by
  have clash := @firstClash_go_isSome _ _ ads ads
  rw [← not_iff_not, not_not, Option.isSome_iff_ne_none, not_not] at clash
  unfold firstClash
  rw [clash]
  constructor
  · intro clean
    exact List.Pairwise.forall_of_forall (fun _ _ differ => absurd rfl differ) clean
  · intro borne
    exact List.pairwise_of_forall_mem_list borne

/-- The gate reads which member holds which categories, under any names for the members. -/
theorem firstClash_congr {ads : List (GateAd α)} {others : List (GateAd β)} {home : α → β}
    (injective : ∀ one ∈ ads, ∀ other ∈ ads, home one.member = home other.member →
      one.member = other.member)
    (listed : ∀ ad ∈ ads, ∃ other ∈ others, other.member = home ad.member ∧
      other.category = ad.category)
    (named : ∀ other ∈ others, ∃ ad ∈ ads, other.member = home ad.member ∧
      other.category = ad.category) : firstClash ads = none ↔ firstClash others = none := by
  have together : ∀ left right, heldTogether ads left right = heldTogether others left right := by
    intro left right
    rw [Bool.eq_iff_iff, heldTogether_iff, heldTogether_iff]
    constructor
    · rintro ⟨one, oneHeld, other, otherHeld, same, rfl, rfl⟩
      obtain ⟨image, imageHeld, member, category⟩ := listed one oneHeld
      obtain ⟨second, secondHeld, secondMember, secondCategory⟩ := listed other otherHeld
      exact ⟨image, imageHeld, second, secondHeld, by rw [member, secondMember, same], category,
        secondCategory⟩
    · rintro ⟨one, oneHeld, other, otherHeld, same, rfl, rfl⟩
      obtain ⟨source, sourceHeld, member, category⟩ := named one oneHeld
      obtain ⟨second, secondHeld, secondMember, secondCategory⟩ := named other otherHeld
      refine ⟨source, sourceHeld, second, secondHeld, ?_, category.symm, secondCategory.symm⟩
      exact injective source sourceHeld second secondHeld (by rw [← member, ← secondMember, same])
  rw [firstClash_eq_none_iff, firstClash_eq_none_iff]
  constructor
  · intro clean one oneHeld other otherHeld differ alone
    obtain ⟨source, sourceHeld, member, category⟩ := named one oneHeld
    obtain ⟨second, secondHeld, secondMember, secondCategory⟩ := named other otherHeld
    rw [category, secondCategory] at alone ⊢
    refine clean source sourceHeld second secondHeld (fun same => differ ?_) ?_
    · rw [member, secondMember, same]
    · rw [together]
      exact alone
  · intro clean one oneHeld other otherHeld differ alone
    obtain ⟨image, imageHeld, member, category⟩ := listed one oneHeld
    obtain ⟨second, secondHeld, secondMember, secondCategory⟩ := listed other otherHeld
    rw [← category, ← secondCategory] at alone ⊢
    refine clean image imageHeld second secondHeld (fun same => differ ?_) ?_
    · rw [member, secondMember] at same
      exact injective one oneHeld other otherHeld same
    · rw [← together]
      exact alone

theorem firstOfEach_spec (rows : List (GateAd α)) :
    (∀ row ∈ firstOfEach rows, row ∈ rows) ∧
      ∀ row ∈ rows, ∃ first ∈ firstOfEach rows, first.member = row.member ∧
        first.category = row.category := by
  suffices steps : ∀ (rest done seen : List (GateAd α)),
      ((∀ row ∈ seen, row ∈ done) ∧ ∀ row ∈ done, ∃ first ∈ seen, first.member = row.member ∧
        first.category = row.category) →
      let final := rest.foldl (fun seen row =>
        if seen.any fun other => other.member = row.member ∧ other.category = row.category then seen
        else seen ++ [row]) seen
      (∀ row ∈ final, row ∈ done ++ rest) ∧ ∀ row ∈ done ++ rest, ∃ first ∈ final,
        first.member = row.member ∧ first.category = row.category from
    steps rows [] [] (by simp)
  intro rest
  induction rest with
  | nil =>
      intro done seen held
      rw [List.append_nil]
      exact held
  | cons row rest ih =>
      intro done seen held
      rw [List.foldl_cons, show done ++ row :: rest = (done ++ [row]) ++ rest by simp]
      refine ih (done ++ [row]) _ ?_
      by_cases known : (seen.any fun other => other.member = row.member ∧
          other.category = row.category) = true
      · rw [if_pos known]
        obtain ⟨first, listed, same⟩ := List.any_eq_true.mp known
        refine ⟨fun other otherHeld => List.mem_append_left _ (held.1 other otherHeld), ?_⟩
        intro other otherHeld
        rcases List.mem_append.mp otherHeld with earlier | new
        · exact held.2 other earlier
        · cases List.mem_singleton.mp new
          exact ⟨first, listed, of_decide_eq_true same⟩
      · rw [if_neg known]
        constructor
        · intro other otherHeld
          rcases List.mem_append.mp otherHeld with earlier | new
          · exact List.mem_append_left _ (held.1 other earlier)
          · exact List.mem_append_right _ new
        · intro other otherHeld
          rcases List.mem_append.mp otherHeld with earlier | new
          · obtain ⟨first, listed, same⟩ := held.2 other earlier
            exact ⟨first, List.mem_append_left _ listed, same⟩
          · exact ⟨other, List.mem_append_right _ new, rfl, rfl⟩

end Clash

namespace Identity

/-! ### One leaving advert -/

section Leaving

variable {state next : Identity} {record listing origin : Nat}

/-- What makes an advert's origin fit to take it back. -/
structure Fit (state : Identity) (record listing origin : Nat) : Prop where
  first : ∃ first, (state.liveMoves listing).head? = some first ∧ first.prev = origin
  last : ∃ last, (state.liveMoves listing).getLast? = some last ∧ last.survivor = record
  differ : origin ≠ record
  away : ∃ target, state.standing origin = some (.mergedAway, target)
  stays : originGone (state.property origin) (state.liveMoves listing) = false

theorem fitOrigin_fit (fit : state.fitOrigin record listing = some origin) :
    Fit state record listing origin := by
  unfold fitOrigin at fit
  dsimp only at fit
  split at fit
  · next first last starts ends =>
      split_ifs at fit with held
      obtain ⟨survives, differ, away, stays, _⟩ := held
      cases Option.some.inj fit
      obtain ⟨row, known, status⟩ := Option.map_eq_some_iff.mp away
      exact ⟨⟨first, starts, rfl⟩, ⟨last, ends, survives⟩, differ,
        ⟨row.mergedInto, standing_eq_some_iff.mpr ⟨row, known, status, rfl⟩⟩, stays⟩
  · cases fit

/-- An advert whose origin fits goes home, and all its live rows are taken back. -/
theorem detachOne_home (sound : state.Sound) (known : state.knows listing = true)
    (here : state.place listing = some record) (birthGroup : GroupId)
    {first last : LedgerRow} (starts : (state.liveMoves listing).head? = some first)
    (home : first.prev = origin) (ends : (state.liveMoves listing).getLast? = some last)
    (survives : last.survivor = record) (differ : origin ≠ record)
    (stays : originGone (state.property origin) (state.liveMoves listing) = false) :
    Moved listing origin [] state
        (state.detachOne listing (some record) none false birthGroup).1 ∧
      (state.detachOne listing (some record) none false birthGroup).1.nextProperty =
        state.nextProperty ∧
      (state.detachOne listing (some record) none false birthGroup).2 =
        { listing := listing, outcome := .detached, left := some record, target := some origin,
          undo := state.liveMoves listing } := by
  obtain ⟨size, planned⟩ := planDetach_some known none
  have plan : detachPlan (state.place listing) (state.liveMoves listing) none size =
      { current := some record, outcome := .detached, undo := state.liveMoves listing,
        target := some origin } := by
    rw [here, detachPlan, starts, ends]
    simp [survives, home, differ]
  rw [plan] at planned
  have linked : state.moveAdvert (some origin) listing record =
      some (state.movedTo (some origin) listing) := if_pos here
  unfold detachOne
  rw [planned, Option.getD_some]
  dsimp only
  rw [if_neg (not_not_intro rfl)]
  dsimp only
  rw [if_neg (by simp), if_pos rfl, Option.bind_some, if_neg (by simp [stays]), linked]
  exact ⟨homecoming_moved sound known (List.nil_append _).symm starts home stays, rfl, rfl⟩

/-- An advert the caller names is born anew. -/
theorem detachOne_born (sound : state.Sound) (known : state.knows listing = true)
    (here : state.place listing = some record) (birthGroup : GroupId) :
    Moved listing state.nextProperty [] state
        (state.detachOne listing (some record) none true birthGroup).1 ∧
      (state.detachOne listing (some record) none true birthGroup).2.outcome.moves = true ∧
      (state.detachOne listing (some record) none true birthGroup).2.listing = listing ∧
      (state.detachOne listing (some record) none true birthGroup).2.left = some record ∧
      (state.detachOne listing (some record) none true birthGroup).2.target =
        some state.nextProperty := by
  obtain ⟨size, planned⟩ := planDetach_some known none
  have sits : (detachPlan (state.place listing) (state.liveMoves listing) none size).current =
      some record := (detachPlan_cases (sound.chained listing known)).1.trans here
  obtain ⟨moved, moves⟩ := @bear_moved _ sound listing record true birthGroup known here (.inl rfl)
  have target : (state.bear listing record true birthGroup).2.2.2 = some state.nextProperty := by
    have linked : state.moveAdvert none listing record = some (state.movedTo none listing) :=
      if_pos here
    unfold bear
    rw [planned]
    dsimp only
    rw [if_neg (not_not_intro sits), if_neg (by simp), linked]
    dsimp only
    split_ifs <;> rfl
  unfold detachOne
  rw [planned, Option.getD_some]
  dsimp only
  rw [if_neg (not_not_intro sits), sits]
  dsimp only
  rw [if_pos (by simp)]
  exact ⟨moved, moves, rfl, rfl, target⟩

/-- A split half detached: the adverts of `done` sit on their origins or on records born
in the order of `done`, and each has answered with where it went. -/
structure Departed (state : Identity) (record : Nat) (origins : List (Nat × Nat))
    (done : List Nat) (next : Identity) (answers : List Detached) : Prop where
  sound : next.Sound
  adverts : next.adverts = state.adverts
  stayed : ∀ listing, listing ∉ done →
    next.place listing = state.place listing ∧ next.liveMoves listing = state.liveMoves listing
  home : ∀ listing ∈ done, ∀ origin, origins.lookup listing = some origin →
    next.place listing = some origin
  born : ∀ listing ∈ done, origins.lookup listing = none → ∃ born,
    next.place listing = some born ∧ state.nextProperty ≤ born ∧ born < next.nextProperty
  later : state.nextProperty ≤ next.nextProperty
  ascending : ∀ left ∈ done, ∀ right ∈ done, origins.lookup left = none →
    origins.lookup right = none → left < right → ∀ one other, next.place left = some one →
      next.place right = some other → one < other
  standing : ∀ property < state.nextProperty,
    next.standing property = state.standing property ∨
      next.standing property = some (.active, none)
  answered : ∀ answer ∈ answers, answer.outcome.moves = true ∧ answer.listing ∈ done ∧
    answer.left = some record ∧ answer.target = next.place answer.listing
  answers : ∀ listing ∈ done, ∃ answer ∈ answers, answer.listing = listing

/-- One more advert is off to `target`. -/
theorem Departed.move {origins : List (Nat × Nat)} {done : List Nat} {answers : List Detached}
    {after : Identity} {target : Nat} {answer : Detached}
    (departed : Departed state record origins done next answers)
    (moved : Moved listing target [] next after) (fresh : listing ∉ done)
    (last : ∀ other ∈ done, other < listing)
    (grows : next.nextProperty ≤ after.nextProperty)
    (home : ∀ origin, origins.lookup listing = some origin → target = origin)
    (born : origins.lookup listing = none →
      target = next.nextProperty ∧ next.nextProperty < after.nextProperty)
    (moves : answer.outcome.moves = true) (named : answer.listing = listing)
    (left : answer.left = some record) (reached : answer.target = some target) :
    Departed state record origins (done ++ [listing]) after (answers ++ [answer]) := by
  have elsewhere : ∀ other ∈ done, after.place other = next.place other := by
    intro other held
    have differ : other ≠ listing := fun same => fresh (same ▸ held)
    rw [moved.place, if_neg differ]
  have landed : after.place listing = some target := by rw [moved.place, if_pos rfl]
  have cases_ : ∀ other ∈ done ++ [listing], other ∈ done ∨ other = listing := by
    intro other held
    simpa using held
  refine ⟨moved.sound departed.sound, moved.adverts.trans departed.adverts, ?_, ?_, ?_,
    departed.later.trans grows, ?_, ?_, ?_, ?_⟩
  · intro other unlisted
    rw [List.mem_append, not_or, List.mem_singleton] at unlisted
    rw [moved.place, moved.rows, if_neg unlisted.2, if_neg unlisted.2]
    exact departed.stayed other unlisted.1
  · intro other held origin found
    rcases cases_ other held with earlier | rfl
    · rw [elsewhere other earlier]
      exact departed.home other earlier origin found
    · rw [landed, home origin found]
  · intro other held unfound
    rcases cases_ other held with earlier | rfl
    · obtain ⟨birth, placed, above, below⟩ := departed.born other earlier unfound
      exact ⟨birth, (elsewhere other earlier).trans placed, above, below.trans_le grows⟩
    · obtain ⟨rfl, grown⟩ := born unfound
      exact ⟨next.nextProperty, landed, departed.later, grown⟩
  · intro one oneHeld other otherHeld oneNew otherNew below first second firstPlace secondPlace
    rcases cases_ one oneHeld with oneEarlier | rfl
    · rw [elsewhere one oneEarlier] at firstPlace
      rcases cases_ other otherHeld with otherEarlier | rfl
      · rw [elsewhere other otherEarlier] at secondPlace
        exact departed.ascending one oneEarlier other otherEarlier oneNew otherNew below first second
          firstPlace secondPlace
      · obtain ⟨birth, placed, _, small⟩ := departed.born one oneEarlier oneNew
        cases Option.some.inj (firstPlace.symm.trans placed)
        cases Option.some.inj (secondPlace.symm.trans landed)
        exact (born otherNew).1 ▸ small
    · rcases cases_ other otherHeld with otherEarlier | rfl
      · exact absurd below (last other otherEarlier).asymm
      · exact absurd below (lt_irrefl _)
  · intro property known
    by_cases same : property = target
    · rw [same]
      exact .inr moved.stands
    · rw [moved.others property same]
      exact departed.standing property known
  · intro other held
    rcases List.mem_append.mp held with earlier | new
    · obtain ⟨moves, listed, left, reached⟩ := departed.answered other earlier
      exact ⟨moves, List.mem_append_left _ listed, left,
        reached.trans (elsewhere other.listing listed).symm⟩
    · cases List.mem_singleton.mp new
      rw [named, landed]
      exact ⟨moves, List.mem_append_right _ List.mem_cons_self, left, reached⟩
  · intro other held
    rcases cases_ other held with earlier | rfl
    · obtain ⟨found, listed, same⟩ := departed.answers other earlier
      exact ⟨found, List.mem_append_left _ listed, same⟩
    · exact ⟨answer, List.mem_append_right _ List.mem_cons_self, named⟩

/-- The leaving adverts in ascending order, each where the landings say. -/
theorem Departed.detachEach {origins : List (Nat × Nat)} {new : List Nat}
    {births : Nat → GroupId} {listings : List Nat} (sound : state.Sound)
    {places : Nat → Option Nat} :
    ∀ {done : List Nat} {each : Identity × List Detached},
      Departed state record origins done each.1 each.2 →
      (done ++ listings).Pairwise (· < ·) →
      (∀ listing ∈ listings, state.knows listing = true ∧ state.place listing = some record ∧
        places listing = some record ∧
        (new.contains listing = true ↔ origins.lookup listing = none) ∧
        ∀ origin, origins.lookup listing = some origin → Fit state record listing origin) →
      let final := listings.foldl (fun (each : Identity × List Detached) listing =>
        ((each.1.detachOne listing (places listing) none (new.contains listing)
            (births listing)).1,
          each.2 ++ [(each.1.detachOne listing (places listing) none (new.contains listing)
            (births listing)).2])) each
      Departed state record origins (done ++ listings) final.1 final.2 := by
  induction listings with
  | nil =>
      intro done each departed _ _
      rw [List.append_nil]
      exact departed
  | cons listing rest ih =>
      intro done each departed ascending leaving
      obtain ⟨known, here, read, naming, fitting⟩ := leaving listing List.mem_cons_self
      have apart := (List.pairwise_append.mp ascending).2.2
      have last : ∀ other ∈ done, other < listing := fun other held =>
        apart other held listing List.mem_cons_self
      have fresh : listing ∉ done := fun held => lt_irrefl _ (last listing held)
      obtain ⟨placed, rows⟩ := departed.stayed listing fresh
      have knownHere : each.1.knows listing = true := by
        unfold knows
        rw [departed.adverts]
        exact known
      have step : Departed state record origins (done ++ [listing])
          (each.1.detachOne listing (places listing) none (new.contains listing)
            (births listing)).1
          (each.2 ++ [(each.1.detachOne listing (places listing) none (new.contains listing)
            (births listing)).2]) := by
        rw [read]
        cases found : origins.lookup listing with
        | none =>
            rw [naming.mpr found]
            obtain ⟨moved, moves, named, left, target⟩ := detachOne_born departed.sound knownHere
              (placed.trans here) (births listing)
            have grows : each.1.nextProperty < (each.1.detachOne listing (some record) none true
                (births listing)).1.nextProperty := by
              by_contra small
              have gone := moved.bounded each.1.nextProperty (not_lt.mp small)
              rw [← standing_eq_none_iff, moved.stands] at gone
              cases gone
            refine departed.move moved fresh last grows.le ?_ (fun _ => ⟨rfl, grows⟩) moves named
              left target
            intro origin other
            rw [found] at other
            cases other
        | some origin =>
            have unnamed : new.contains listing = false := by
              rw [← Bool.not_eq_true, naming, found]
              exact Option.some_ne_none origin
            rw [unnamed]
            have fit := fitting origin found
            obtain ⟨first, starts, homeward⟩ := fit.first
            obtain ⟨final, ends, survives⟩ := fit.last
            obtain ⟨target, away⟩ := fit.away
            have stays : originGone (each.1.property origin) (each.1.liveMoves listing) = false := by
              have earlier : origin < state.nextProperty := by
                by_contra large
                have gone := sound.bounded origin (not_lt.mp large)
                rw [← standing_eq_none_iff, away] at gone
                cases gone
              rcases departed.standing origin earlier with same | active
              · rw [rows, originGone_congr same]
                exact fit.stays
              · exact originGone_active active
            obtain ⟨moved, size, answered⟩ := detachOne_home departed.sound knownHere
              (placed.trans here) (births listing) (by rw [rows]; exact starts) homeward
              (by rw [rows]; exact ends) survives fit.differ stays
            rw [answered]
            refine departed.move moved fresh last size.ge ?_ ?_ rfl rfl rfl rfl
            · intro other same
              rw [found] at same
              exact Option.some.inj same
            · intro none_
              rw [found] at none_
              cases none_
      rw [List.foldl_cons]
      have ordered : ((done ++ [listing]) ++ rest).Pairwise (· < ·) := by
        rw [List.append_assoc]
        exact ascending
      have rested := @ih (done ++ [listing]) (_, _) step ordered fun other listed => leaving other (List.mem_cons_of_mem _ listed)
      rw [List.append_assoc] at rested
      exact rested

end Leaving

/-! ### The joins -/

section Joins

variable {state : Identity}

/-- Decision 17's rank of a property, as the tables hold it. -/
def rankOf (state : Identity) (property : Nat) : Bool ×ₗ Timestamp ×ₗ Nat :=
  survivorRank ((state.property property).bind Property.firstSeen) property

theorem rankOf_injective {one other : Nat} (same : state.rankOf one = state.rankOf other) :
    one = other := by
  unfold rankOf survivorRank at same
  have pairs := toLex.injective same
  exact (Prod.mk.inj (toLex.injective (Prod.mk.inj pairs).2)).2

theorem survivorOf_spec {ids : List Nat} {survivor : Nat}
    (chosen : state.survivorOf ids = some survivor) :
    survivor ∈ ids ∧ ∀ property ∈ ids, state.rankOf survivor ≤ state.rankOf property :=
  least_of_head?_sortedBy chosen

/-- A set of properties a merge can be asked to join. -/
structure Joinable (state : Identity) (ids : List Nat) : Prop where
  distinct : ids.Nodup
  several : 2 ≤ ids.length
  active : ∀ property ∈ ids, state.isActive property = true

theorem Joinable.long {ids : List Nat} (joinable : state.Joinable ids) :
    ¬(sortedIds ids.dedup).length < 2 := by
  rw [length_sortedBy, List.Nodup.dedup joinable.distinct]
  exact not_lt.mpr joinable.several

theorem Joinable.gate {ids : List Nat} (joinable : state.Joinable ids) :
    state.mergeGate (sortedIds ids.dedup) =
      match firstClash (state.setAds (sortedIds ids)) with
      | some (field, one, other) =>
          .error (.categoryClash field (one.member, other.member) (one.listing, other.listing))
      | none => .ok () := by
  have standing : ¬((sortedIds ids.dedup).any fun property => !state.isActive property) = true := by
    rw [List.any_eq_true]
    rintro ⟨property, listed, inactive⟩
    rw [mem_sortedBy, List.mem_dedup] at listed
    rw [joinable.active property listed] at inactive
    cases inactive
  have dedup : ids.dedup = ids := List.Nodup.dedup joinable.distinct
  unfold mergeGate
  rw [if_neg standing]
  cases clash : firstClash (state.setAds (sortedIds ids)) with
  | none => simp only [dedup, clash]
  | some found => simp only [dedup, clash]

/-- The gate's answer is the merge's. -/
theorem mergePropertySet_refused {ids : List Nat} (joinable : state.Joinable ids)
    {decidedBy : String} (ruler : decidedBy ≠ "") {reason : String} {group : GroupId}
    (clash : firstClash (state.setAds (sortedIds ids)) ≠ none) :
    ∃ field members ads, state.mergePropertySet ids .operator reason group (some decidedBy) =
      .error (.categoryClash field members ads) := by
  obtain ⟨⟨field, one, other⟩, found⟩ := Option.ne_none_iff_exists'.mp clash
  have gate := joinable.gate
  rw [found] at gate
  refine ⟨field, (one.member, other.member), (one.listing, other.listing), ?_⟩
  unfold mergePropertySet mergeMembers
  dsimp only
  rw [if_neg joinable.long, if_neg (by simp [String.isEmpty_iff, ruler]), gate]
  rfl

theorem mergeSteps_property {group : GroupId} {survivor : Nat} {reason : LedgerReason}
    {retired : List Nat} :
    ∀ {state : Identity}, state.Ordered → ∀ property, property ∉ retired →
      (retired.foldl (mergePair group survivor reason) state).property property =
        state.property property := by
  induction retired with
  | nil => exact fun _ _ _ => rfl
  | cons first rest ih =>
      intro state ordered property unlisted
      obtain ⟨differ, later⟩ := List.ne_and_not_mem_of_not_mem_cons unlisted
      have merged := mergePair_merged ordered group survivor first reason
      rw [List.foldl_cons, ih merged.ordered property later, merged.property, if_neg differ]

/-- What a join does to the adverts: those of the set are on its oldest property, the others
and their properties as they were. -/
structure JoinedOn (ids : List Nat) (survivor : Nat) (before after : Identity) : Prop where
  sound : after.Sound
  adverts : after.adverts = before.adverts
  survives : survivor ∈ ids
  oldest : ∀ property ∈ ids, before.rankOf survivor ≤ before.rankOf property
  moved : ∀ listing, ∀ property ∈ ids, before.place listing = some property →
    after.place listing = some survivor
  kept : ∀ listing, (∀ property ∈ ids, before.place listing ≠ some property) →
    after.place listing = before.place listing
  others : ∀ property, property ∉ ids → after.property property = before.property property

theorem mergePropertySet_joined (sound : state.Sound) {ids : List Nat}
    (joinable : state.Joinable ids) {decidedBy : String} (ruler : decidedBy ≠ "")
    {reason : String} {group : GroupId} (clean : firstClash (state.setAds (sortedIds ids)) = none) :
    ∃ next survivor,
      state.mergePropertySet ids .operator reason group (some decidedBy) = .ok next ∧
        JoinedOn ids survivor state next := by
  have distinct := List.Nodup.dedup joinable.distinct
  have gate := joinable.gate
  rw [clean] at gate
  obtain ⟨survivor, oldest⟩ : ∃ survivor, state.survivorOf (sortedIds ids.dedup) = some survivor := by
    unfold survivorOf
    refine Option.ne_none_iff_exists'.mp fun empty => ?_
    rw [List.head?_eq_none_iff, sortedBy_eq_nil, sortedBy_eq_nil, distinct] at empty
    have several := joinable.several
    rw [empty] at several
    exact absurd several (by simp)
  have chosen : state.mergeMembers ids .operator (some decidedBy) =
      .ok (survivor, (sortedIds ids.dedup).filter (· ≠ survivor)) := by
    unfold mergeMembers
    dsimp only
    rw [if_neg joinable.long, if_neg (by simp [String.isEmpty_iff, ruler]), gate]
    simp only [oldest, bind, Except.bind]
  obtain ⟨next, merged⟩ : ∃ next,
      state.mergePropertySet ids .operator reason group (some decidedBy) = .ok next := by
    unfold mergePropertySet
    rw [chosen]
    exact ⟨_, rfl⟩
  refine ⟨next, survivor, merged, ?_⟩
  have nextSound := mergePropertySet_sound sound merged
  have members := mergeMembers_members chosen
  obtain ⟨kept, retired, same, rfl⟩ := mergePropertySet_cases merged
  obtain ⟨rfl, rfl⟩ := Prod.mk.inj (Except.ok.inj (chosen.symm.trans same))
  have apart : survivor ∉ (sortedIds ids.dedup).filter (· ≠ survivor) := fun held =>
    ((members.mem_retired survivor).mp held).2 rfl
  have stepped := @mergeSteps_mergedSet group survivor (.merge reason) _ state sound.toOrdered
    members.distinct apart
  refine ⟨nextSound, stepped.adverts, members.survives, ?_, ?_, ?_, ?_⟩
  · intro property listed
    refine (survivorOf_spec oldest).2 property ?_
    rw [mem_sortedBy, List.mem_dedup]
    exact listed
  · intro listing property listed here
    by_cases same : property = survivor
    · refine (stepped.kept listing fun other held there => ?_).trans (same ▸ here)
      rw [here] at there
      cases Option.some.inj there
      exact apart (same ▸ held)
    · exact stepped.moved listing property ((members.mem_retired property).mpr ⟨listed, same⟩) here
  · intro listing elsewhere
    exact stepped.kept listing fun property held =>
      elsewhere property ((members.mem_retired property).mp held).1
  · intro property unlisted
    have unretired : property ∉ (sortedIds ids.dedup).filter (· ≠ survivor) := fun held =>
      unlisted ((members.mem_retired property).mp held).1
    have unchanged : property ∉ survivor :: (sortedIds ids.dedup).filter (· ≠ survivor) := by
      rw [List.mem_cons, not_or]
      exact ⟨fun same => unlisted (same ▸ members.survives), unretired⟩
    exact (if_neg unchanged).trans (mergeSteps_property sound.toOrdered property unretired)

/-- The landings of the joined letters, each property under its one letter. -/
structure Stated (state : Identity) (picked : Nat × Char → Bool) (letters statement : Letters) :
    Prop where
  keyed : Keyed Prod.fst statement
  entries : ∀ property letter, (property, letter) ∈ statement ↔
    ∃ ad ∈ letters, ad.2 = letter ∧ picked ad = true ∧ state.place ad.1 = some property

/-- What one advert adds to the statement. -/
def joinAdvert (state : Identity) (movers : List Nat) (joins : List Char) (statement : Letters)
    (ad : Nat × Char) : Except SplitRefusal Letters :=
  if joins.contains ad.2 && movers.contains ad.1 then
    match state.place ad.1 with
    | none => .ok statement
    | some property =>
        match statement.lookup property with
        | none => .ok (statement ++ [(property, ad.2)])
        | some letter => if letter = ad.2 then .ok statement else .error .stale
  else .ok statement

theorem joinStatement_stated {movers : List Nat} {joins : List Char} {letters : Letters}
    (apart : ∀ left ∈ letters, ∀ right ∈ letters, ∀ property, state.place left.1 = some property →
      state.place right.1 = some property → left.2 = right.2) :
    ∃ statement, state.joinStatement movers joins letters = .ok statement ∧
      Stated state (fun ad => joins.contains ad.2 && movers.contains ad.1) letters statement := by
  suffices steps : ∀ (rest done : Letters) (statement : Letters), letters = done ++ rest →
      Stated state (fun ad => joins.contains ad.2 && movers.contains ad.1) done statement →
      ∃ final, rest.foldlM (joinAdvert state movers joins) statement = .ok final ∧
        Stated state (fun ad => joins.contains ad.2 && movers.contains ad.1) letters final from
    steps letters [] [] rfl ⟨.nil, by simp⟩
  intro rest
  induction rest with
  | nil =>
      intro done statement whole stated
      rw [List.append_nil] at whole
      exact ⟨statement, rfl, whole ▸ stated⟩
  | cons ad rest ih =>
      intro done statement whole stated
      have wholeNext : letters = (done ++ [ad]) ++ rest := by simp [whole]
      rw [List.foldlM_cons, joinAdvert]
      -- An advert that adds no entry leaves the statement as it is.
      have unchanged : (∀ property, (joins.contains ad.2 && movers.contains ad.1) = true →
          state.place ad.1 = some property → (property, ad.2) ∈ statement) →
          Stated state (fun ad => joins.contains ad.2 && movers.contains ad.1) (done ++ [ad])
            statement := by
        intro listed
        refine ⟨stated.keyed, fun property letter => ?_⟩
        rw [stated.entries]
        constructor
        · rintro ⟨other, held, facts⟩
          exact ⟨other, List.mem_append_left _ held, facts⟩
        · rintro ⟨other, held, rfl, picked, here⟩
          rcases List.mem_append.mp held with earlier | new
          · exact ⟨other, earlier, rfl, picked, here⟩
          · cases List.mem_singleton.mp new
            exact (stated.entries property ad.2).mp (listed property picked here)
      by_cases picked : (joins.contains ad.2 && movers.contains ad.1) = true
      · rw [if_pos picked]
        cases here : state.place ad.1 with
        | none =>
            refine ih (done ++ [ad]) statement wholeNext (unchanged fun property _ there => ?_)
            rw [here] at there
            cases there
        | some property =>
            dsimp only
            cases found : statement.lookup property with
            | none =>
                refine ih (done ++ [ad]) (statement ++ [(property, ad.2)]) wholeNext ⟨?_, ?_⟩
                · refine stated.keyed.insert fun other listed same => ?_
                  exact lookup_eq_none_iff_key.mp found (List.mem_map.mpr ⟨other, listed, same⟩)
                · intro other letter
                  rw [List.mem_append, stated.entries, List.mem_singleton]
                  constructor
                  · rintro (⟨one, held, facts⟩ | new)
                    · exact ⟨one, List.mem_append_left _ held, facts⟩
                    · obtain ⟨rfl, rfl⟩ := Prod.mk.inj new
                      exact ⟨ad, List.mem_append_right _ List.mem_cons_self, rfl, picked, here⟩
                  · rintro ⟨one, held, rfl, onePicked, there⟩
                    rcases List.mem_append.mp held with earlier | new
                    · exact .inl ⟨one, earlier, rfl, onePicked, there⟩
                    · cases List.mem_singleton.mp new
                      rw [here] at there
                      exact .inr (by rw [Option.some.inj there])
            | some letter =>
                have listed := mem_of_lookup found
                obtain ⟨one, held, same, _, there⟩ := (stated.entries property letter).mp listed
                have known : one ∈ letters := whole ▸ List.mem_append_left _ held
                have adKnown : ad ∈ letters := whole ▸ List.mem_append_right _ List.mem_cons_self
                have letters_ : letter = ad.2 :=
                  same.symm.trans (apart one known ad adKnown property there here)
                dsimp only
                rw [if_pos letters_]
                refine ih (done ++ [ad]) statement wholeNext (unchanged fun other _ there => ?_)
                rw [here] at there
                rw [← Option.some.inj there, ← letters_]
                exact listed
      · rw [if_neg picked]
        exact ih (done ++ [ad]) statement wholeNext (unchanged fun _ chosen _ => absurd chosen picked)

/-- A letter's properties, each once. -/
theorem mem_letterSets {statement : Letters} (keyed : Keyed Prod.fst statement)
    {set : Char × List Nat} (listed : set ∈ letterSets statement) :
    set.2.Nodup ∧ ∀ property, property ∈ set.2 ↔ (property, set.1) ∈ statement := by
  unfold letterSets at listed
  rw [mem_sortedBy, List.mem_map] at listed
  obtain ⟨letter, _, rfl⟩ := listed
  constructor
  · exact nodup_sortedBy.mpr (keyed.filter _)
  · intro property
    rw [mem_sortedBy, List.mem_map]
    constructor
    · rintro ⟨entry, held, rfl⟩
      obtain ⟨held, same⟩ := List.mem_filter.mp held
      rw [← of_decide_eq_true same]
      exact held
    · intro held
      exact ⟨(property, letter), List.mem_filter.mpr ⟨held, decide_eq_true rfl⟩, rfl⟩

theorem letterSets_disjoint {statement : Letters} (keyed : Keyed Prod.fst statement) :
    (letterSets statement).Pairwise fun one other => List.Disjoint one.2 other.2 := by
  have letters : (letterSets statement).Pairwise fun one other => one.1 ≠ other.1 := by
    have distinct : ((letterSets statement).map Prod.fst).Nodup := by
      unfold letterSets
      refine ((sortedBy_perm _ _).map Prod.fst).nodup_iff.mpr ?_
      rw [List.map_map]
      exact (List.map_id' (statement.map Prod.snd).dedup).symm ▸ List.nodup_dedup _
    exact List.pairwise_map.mp distinct
  refine letters.imp_of_mem fun oneHeld otherHeld differ property first second => ?_
  have one := ((mem_letterSets keyed oneHeld).2 property).mp first
  have other := ((mem_letterSets keyed otherHeld).2 property).mp second
  exact differ (Prod.mk.inj (keyed.eq one other rfl)).2

theorem letterSet_listed {statement : Letters} {property : Nat} {letter : Char}
    (held : (property, letter) ∈ statement) : ∃ set ∈ letterSets statement, set.1 = letter := by
  have used : letter ∈ (statement.map Prod.snd).dedup :=
    List.mem_dedup.mpr (List.mem_map.mpr ⟨_, held, rfl⟩)
  exact ⟨(letter, sortedIds ((statement.filter fun entry => entry.2 = letter).map Prod.fst)),
    mem_sortedBy.mpr (List.mem_map.mpr ⟨letter, used, rfl⟩), rfl⟩

/-- Two disjoint sets do not see each other's join. -/
theorem JoinedOn.setAds {joined ids : List Nat} {survivor : Nat} {before after : Identity}
    (done : JoinedOn joined survivor before after) (disjoint : List.Disjoint joined ids) :
    after.setAds (sortedIds ids) = before.setAds (sortedIds ids) := by
  have members : ∀ property ∈ sortedIds ids, after.membersOf property = before.membersOf property := by
    intro property listed
    rw [mem_sortedBy] at listed
    unfold membersOf
    rw [done.adverts]
    apply List.filter_congr
    intro advert _
    by_cases here : ∃ other ∈ joined, before.place advert.listing = some other
    · obtain ⟨other, held, there⟩ := here
      rw [done.moved advert.listing other held there, there]
      have apart : ∀ one ∈ joined, (some one == some property) = false := by
        intro one oneHeld
        exact beq_eq_false_iff_ne.mpr fun same => disjoint oneHeld (Option.some.inj same ▸ listed)
      rw [apart survivor done.survives, apart other held]
    · rw [done.kept advert.listing fun other held there => here ⟨other, held, there⟩]
  unfold Identity.setAds
  rw [List.flatMap_congr fun property listed => by rw [members property listed]]

theorem JoinedOn.joinable {joined ids : List Nat} {survivor : Nat} {before after : Identity}
    (done : JoinedOn joined survivor before after) (disjoint : List.Disjoint joined ids)
    (joinable : before.Joinable ids) : after.Joinable ids where
  distinct := joinable.distinct
  several := joinable.several
  active := by
    intro property listed
    unfold isActive
    rw [done.others property fun held => disjoint held listed]
    exact joinable.active property listed

/-- The letters' sets can be joined one after another: none shares a property with another. -/
structure Sets (state : Identity) (sets : List (Char × List Nat)) : Prop where
  disjoint : sets.Pairwise fun one other => List.Disjoint one.2 other.2
  joinable : ∀ set ∈ sets, state.Joinable set.2

/-- What the joins of a statement do to the adverts. -/
structure AllJoined (sets : List (Char × List Nat)) (before after : Identity) : Prop where
  moved : ∀ set ∈ sets, ∃ survivor ∈ set.2,
    (∀ property ∈ set.2, before.rankOf survivor ≤ before.rankOf property) ∧
      ∀ listing, ∀ property ∈ set.2, before.place listing = some property →
        after.place listing = some survivor
  kept : ∀ listing, (∀ set ∈ sets, ∀ property ∈ set.2, before.place listing ≠ some property) →
    after.place listing = before.place listing

/-- The sets a statement's letters join, one merge after another: refused as soon as the gate
refuses one of them, else each on its oldest property. -/
theorem mergeSets_spec {groups : Char → GroupId} {decidedBy reason : String}
    (ruler : decidedBy ≠ "") {sets : List (Char × List Nat)} :
    ∀ {state : Identity}, state.Sound → state.Sets sets →
      let merged := sets.foldlM (fun (next : Identity) set =>
        next.mergePropertySet set.2 .operator reason (groups set.1) (some decidedBy)) state
      ((∃ set ∈ sets, firstClash (state.setAds (sortedIds set.2)) ≠ none) →
        ∃ field members ads, merged = .error (.categoryClash field members ads)) ∧
      ((∀ set ∈ sets, firstClash (state.setAds (sortedIds set.2)) = none) →
        ∃ next, merged = .ok next ∧ AllJoined sets state next) := by
  induction sets with
  | nil =>
      intro state _ _
      refine ⟨?_, fun _ => ⟨state, rfl, by simp, fun _ _ => rfl⟩⟩
      rintro ⟨set, listed, _⟩
      cases listed
  | cons set rest ih =>
      intro state sound sets
      obtain ⟨headApart, restApart⟩ := List.pairwise_cons.mp sets.disjoint
      have first := sets.joinable set List.mem_cons_self
      dsimp only
      rw [List.foldlM_cons]
      cases clash : firstClash (state.setAds (sortedIds set.2)) with
      | some found =>
          have refused : firstClash (state.setAds (sortedIds set.2)) ≠ none := by simp [clash]
          obtain ⟨field, members, ads, error⟩ := @mergePropertySet_refused _ _ first _ ruler reason
            (groups set.1) refused
          rw [error]
          refine ⟨fun _ => ⟨field, members, ads, rfl⟩, fun clean => ?_⟩
          exact absurd (clean set List.mem_cons_self) refused
      | none =>
          obtain ⟨middle, survivor, ok, joined⟩ := @mergePropertySet_joined _ sound _ first _ ruler
            reason (groups set.1) clash
          rw [ok]
          have same : ∀ other ∈ rest,
              middle.setAds (sortedIds other.2) = state.setAds (sortedIds other.2) :=
            fun other listed => joined.setAds (headApart other listed)
          have restSets : middle.Sets rest := by
            refine ⟨restApart, fun other listed => ?_⟩
            exact joined.joinable (headApart other listed)
              (sets.joinable other (List.mem_cons_of_mem _ listed))
          obtain ⟨refusing, joining⟩ := @ih middle joined.sound restSets
          constructor
          · rintro ⟨other, listed, refused⟩
            rcases List.mem_cons.mp listed with rfl | later
            · exact absurd clash refused
            · exact refusing ⟨other, later, by rw [same other later]; exact refused⟩
          · intro clean
            obtain ⟨next, merged, all⟩ := joining fun other listed => by
              rw [same other listed]
              exact clean other (List.mem_cons_of_mem _ listed)
            refine ⟨next, merged, ?_, ?_⟩
            · intro other listed
              rcases List.mem_cons.mp listed with rfl | later
              · refine ⟨survivor, joined.survives, joined.oldest, fun listing property held here => ?_⟩
                have landed := joined.moved listing property held here
                refine (all.kept listing fun other later property held there => ?_).trans landed
                rw [landed] at there
                exact headApart other later joined.survives (Option.some.inj there ▸ held)
              · obtain ⟨oldest, survives, least, moved⟩ := all.moved other later
                have ranks : ∀ property ∈ other.2,
                    middle.rankOf property = state.rankOf property := by
                  intro property held
                  unfold rankOf
                  rw [joined.others property fun first => headApart other later first held]
                refine ⟨oldest, survives, fun property held => ?_, fun listing property held here => ?_⟩
                · rw [← ranks property held, ← ranks oldest survives]
                  exact least property held
                · refine moved listing property held ((joined.kept listing ?_).trans here)
                  intro one oneHeld there
                  rw [here] at there
                  exact headApart other later oneHeld (Option.some.inj there ▸ held)
            · intro listing elsewhere
              have firstKept := joined.kept listing (elsewhere set List.mem_cons_self)
              refine (all.kept listing fun other later property held => ?_).trans firstKept
              rw [firstKept]
              exact elsewhere other (List.mem_cons_of_mem _ later) property held

end Joins

/-! ### What the preview reads -/

section Addressed

variable {state : Identity} {record : Nat} {landings : Landings} {letters : Letters}

/-- The statement names exactly the record's adverts, and every landing is one a detach
can reach. -/
structure Addressed (state : Identity) (record : Nat) (landings : Landings) (letters : Letters) :
    Prop where
  ascending : (letters.map Prod.fst).Pairwise (· < ·)
  standing : state.isActive record = true
  known : ∀ ad ∈ letters, state.knows ad.1 = true
  here : ∀ listing, state.knows listing = true →
    (state.place listing = some record ↔ listing ∈ letters.map Prod.fst)
  fits : ∀ ad ∈ letters, ∀ origin, landings.origin.lookup ad.1 = some origin →
    ad.2 ≠ landings.staying ∧ Fit state record ad.1 origin
  taken : ∀ left ∈ letters, ∀ right ∈ letters, ∀ origin,
    landings.origin.lookup left.1 = some origin → landings.origin.lookup right.1 = some origin →
      left.2 = right.2
  named : ∀ ad ∈ letters, ad.2 ≠ landings.staying →
    (landings.new.contains ad.1 = true ↔ landings.origin.lookup ad.1 = none)

theorem statementLetters_ascending {stated : Letters}
    (accepted : statementLetters stated = .ok letters) :
    letters = sortedBy Prod.fst stated ∧ (letters.map Prod.fst).Pairwise (· < ·) := by
  unfold statementLetters at accepted
  dsimp only at accepted
  split_ifs at accepted with short repeats
  cases Except.ok.inj accepted
  refine ⟨rfl, ?_⟩
  have distinct : ((sortedBy Prod.fst stated).map Prod.fst).Nodup :=
    ((sortedBy_perm Prod.fst stated).map Prod.fst).nodup_iff.mpr repeats
  have weakly : ((sortedBy Prod.fst stated).map Prod.fst).Pairwise (· ≤ ·) :=
    List.pairwise_map.mpr (pairwise_sortedBy Prod.fst stated)
  exact (List.Pairwise.and weakly distinct).imp fun both => lt_of_le_of_ne both.1 both.2

theorem checkAds_here (checked : state.checkAds record letters = .ok ()) :
    (∀ ad ∈ letters, state.knows ad.1 = true) ∧
      ∀ listing, state.knows listing = true →
        (state.place listing = some record ↔ listing ∈ letters.map Prod.fst) := by
  unfold checkAds at checked
  split_ifs at checked with missing moved
  constructor
  · intro ad listed
    by_contra unknown
    exact missing (List.any_eq_true.mpr ⟨ad, listed, by simpa using unknown⟩)
  · intro listing known
    obtain ⟨advert, listed, rfl⟩ := knows_iff.mp known
    have same := not_not.mp moved
    have read : advert.listing ∈ state.advertsOn record ↔ advert.listing ∈ letters.map Prod.fst := by
      rw [same, mem_sortedBy]
    rw [← read, advertsOn, mem_sortedBy, List.mem_map]
    constructor
    · intro here
      exact ⟨advert, mem_membersOf.mpr ⟨listed, here⟩, rfl⟩
    · rintro ⟨other, held, same⟩
      rw [← same]
      exact (mem_membersOf.mp held).2

/-- The leaving adverts with the origins that could take them back. -/
def fitting (state : Identity) (record : Nat) (staying : Char) (letters : Letters) :
    List ((Nat × Char) × Nat) :=
  (letters.filter fun ad => ad.2 ≠ staying).filterMap fun ad =>
    (state.fitOrigin record ad.1).map fun origin => (ad, origin)

/-- The letter an origin goes to. -/
def taker (fits : List ((Nat × Char) × Nat)) (origin : Nat) : Option Char :=
  mostNamed ((fits.filter fun entry => entry.2 = origin).map fun entry => entry.1.2)

theorem letterLandings_cases {canonical : Option Nat}
    (landed : state.letterLandings record canonical letters = some landings) :
    let fits := state.fitting record landings.staying letters
    landings.origin = (fits.filter fun entry => taker fits entry.2 = some entry.1.2).map
        (fun entry => (entry.1.1, entry.2)) ∧
      landings.new = ((letters.filter fun ad => ad.2 ≠ landings.staying).map Prod.fst).filter
        fun ad => ad ∉ landings.origin.map Prod.fst := by
  unfold letterLandings at landed
  obtain ⟨staying, _, rfl⟩ := Option.map_eq_some_iff.mp landed
  exact ⟨rfl, rfl⟩

theorem letterLandings_addressed {canonical : Option Nat}
    (landed : state.letterLandings record canonical letters = some landings)
    (distinct : Keyed Prod.fst letters) :
    (∀ ad ∈ letters, ∀ origin, landings.origin.lookup ad.1 = some origin →
      ad.2 ≠ landings.staying ∧ Fit state record ad.1 origin) ∧
    (∀ left ∈ letters, ∀ right ∈ letters, ∀ origin,
      landings.origin.lookup left.1 = some origin → landings.origin.lookup right.1 = some origin →
        left.2 = right.2) ∧
    ∀ ad ∈ letters, ad.2 ≠ landings.staying →
      (landings.new.contains ad.1 = true ↔ landings.origin.lookup ad.1 = none) := by
  obtain ⟨origins, births⟩ := letterLandings_cases landed
  -- An origin's entry comes from one leaving advert, of the letter that takes the origin.
  have entry : ∀ ad ∈ letters, ∀ origin, landings.origin.lookup ad.1 = some origin →
      ad.2 ≠ landings.staying ∧ state.fitOrigin record ad.1 = some origin ∧
        taker (state.fitting record landings.staying letters) origin = some ad.2 := by
    intro ad listed origin found
    have looked := mem_of_lookup found
    rw [origins] at looked
    obtain ⟨⟨leaver, home⟩, held, same⟩ := List.mem_map.mp looked
    obtain ⟨fit, taken⟩ := List.mem_filter.mp held
    obtain ⟨sameAd, rfl⟩ := Prod.mk.inj same
    obtain ⟨leaving, leavingHeld, picked⟩ := List.mem_filterMap.mp fit
    obtain ⟨origin, fitting, both⟩ := Option.map_eq_some_iff.mp picked
    obtain ⟨rfl, rfl⟩ := Prod.mk.inj both
    obtain ⟨leavingListed, left⟩ := List.mem_filter.mp leavingHeld
    cases distinct.eq leavingListed listed sameAd
    exact ⟨of_decide_eq_true left, fitting, of_decide_eq_true taken⟩
  refine ⟨fun ad listed origin found => ?_, fun left leftListed right rightListed origin one other => ?_,
    fun ad listed leaves => ?_⟩
  · obtain ⟨leaves, fit, _⟩ := entry ad listed origin found
    exact ⟨leaves, fitOrigin_fit fit⟩
  · obtain ⟨_, _, leftTakes⟩ := entry left leftListed origin one
    obtain ⟨_, _, rightTakes⟩ := entry right rightListed origin other
    exact Option.some.inj (leftTakes.symm.trans rightTakes)
  · rw [lookup_eq_none_iff_key, List.contains_iff_mem, births, List.mem_filter, List.mem_map]
    constructor
    · rintro ⟨_, outside⟩
      exact of_decide_eq_true outside
    · intro outside
      exact ⟨⟨ad, List.mem_filter.mpr ⟨listed, decide_eq_true leaves⟩, rfl⟩, decide_eq_true outside⟩

end Addressed

/-! ### The landings after the detach -/

section Landed

variable {state next : Identity} {record : Nat} {landings : Landings} {letters : Letters}

/-- The adverts that leave. -/
def moversOf (landings : Landings) (letters : Letters) : List Nat :=
  (letters.filter fun ad => ad.2 ≠ landings.staying).map Prod.fst

/-- The property a landing turned out to be. -/
def homeOf (next : Identity) (record : Nat) : Slot → Nat
  | .kept => record
  | .origin property => property
  | .new listing => (next.place listing).getD 0

/-- The three landings of an advert. -/
theorem slotOf_cases (landings : Landings) (ad : Nat × Char) :
    (ad.2 = landings.staying ∧ slotOf landings ad = .kept) ∨
      ad.2 ≠ landings.staying ∧
        ((∃ origin, landings.origin.lookup ad.1 = some origin ∧ slotOf landings ad = .origin origin) ∨
          landings.origin.lookup ad.1 = none ∧ slotOf landings ad = .new ad.1) := by
  unfold slotOf
  by_cases stays : ad.2 = landings.staying
  · exact .inl ⟨stays, if_pos stays⟩
  · rw [if_neg stays]
    refine .inr ⟨stays, ?_⟩
    cases found : landings.origin.lookup ad.1 with
    | none => exact .inr ⟨rfl, rfl⟩
    | some origin => exact .inl ⟨origin, rfl, rfl⟩

theorem Addressed.keyed (addressed : Addressed state record landings letters) :
    Keyed Prod.fst letters :=
  addressed.ascending.imp ne_of_lt

theorem Addressed.mem_movers (addressed : Addressed state record landings letters)
    {ad : Nat × Char} (listed : ad ∈ letters) :
    ad.1 ∈ moversOf landings letters ↔ ad.2 ≠ landings.staying := by
  unfold moversOf
  constructor
  · intro moving
    obtain ⟨other, held, same⟩ := List.mem_map.mp moving
    obtain ⟨otherListed, leaves⟩ := List.mem_filter.mp held
    cases addressed.keyed.eq otherListed listed same
    exact of_decide_eq_true leaves
  · intro leaves
    exact List.mem_map.mpr ⟨ad, List.mem_filter.mpr ⟨listed, decide_eq_true leaves⟩, rfl⟩

/-- Landings of one letter are not shared with another. -/
theorem Addressed.letter_eq (addressed : Addressed state record landings letters)
    {left right : Nat × Char} (leftListed : left ∈ letters) (rightListed : right ∈ letters)
    (same : slotOf landings left = slotOf landings right) : left.2 = right.2 := by
  rcases slotOf_cases landings left with ⟨stays, slot⟩ | ⟨_, ⟨origin, found, slot⟩ | ⟨_, slot⟩⟩ <;>
    rcases slotOf_cases landings right with
      ⟨otherStays, other⟩ | ⟨_, ⟨otherOrigin, otherFound, other⟩ | ⟨_, other⟩⟩ <;>
    rw [slot, other] at same
  · exact stays.trans otherStays.symm
  · cases same
  · cases same
  · cases same
  · cases Slot.origin.inj same
    exact addressed.taken left leftListed right rightListed origin found otherFound
  · cases same
  · cases same
  · cases same
  · rw [addressed.keyed.eq leftListed rightListed (Slot.new.inj same)]

/-- Every landing holds exactly the adverts the preview put there, under an id in the
preview's order. -/
structure Landed (state : Identity) (record : Nat) (landings : Landings) (letters : Letters)
    (next : Identity) : Prop where
  sound : next.Sound
  adverts : next.adverts = state.adverts
  place : ∀ ad ∈ letters, next.place ad.1 = some (next.homeOf record (slotOf landings ad))
  others : ∀ listing, listing ∉ letters.map Prod.fst → next.place listing = state.place listing
  ordered : ∀ left ∈ letters, ∀ right ∈ letters,
    slotOrder record (slotOf landings left) < slotOrder record (slotOf landings right) →
      next.homeOf record (slotOf landings left) < next.homeOf record (slotOf landings right)
  separate : ∀ left ∈ letters, ∀ right ∈ letters,
    slotOrder record (slotOf landings left) = slotOrder record (slotOf landings right) →
      slotOf landings left = slotOf landings right
  born : ∀ ad ∈ letters, slotOf landings ad = .new ad.1 →
    state.property (next.homeOf record (slotOf landings ad)) = none
  occupants : ∀ ad ∈ letters, ∀ listing, state.knows listing = true →
    next.place listing = some (next.homeOf record (slotOf landings ad)) →
      listing ∈ letters.map Prod.fst

theorem Sound.active_lt (sound : state.Sound) {property : Nat}
    (active : state.isActive property = true) : property < state.nextProperty := by
  by_contra large
  obtain ⟨row, known, _⟩ := isActive_iff.mp active
  rw [sound.bounded property (not_lt.mp large)] at known
  cases known

theorem Addressed.origin_lt (addressed : Addressed state record landings letters)
    (sound : state.Sound) {ad : Nat × Char} (listed : ad ∈ letters) {origin : Nat}
    (found : landings.origin.lookup ad.1 = some origin) : origin < state.nextProperty := by
  obtain ⟨_, away⟩ := (addressed.fits ad listed origin found).2.away
  by_contra large
  have gone := sound.bounded origin (not_lt.mp large)
  rw [← standing_eq_none_iff, away] at gone
  cases gone

/-- Two landings of one rank are one. -/
theorem Addressed.slot_eq (addressed : Addressed state record landings letters)
    {left right : Nat × Char} (leftListed : left ∈ letters) (rightListed : right ∈ letters)
    (same : slotOrder record (slotOf landings left) = slotOrder record (slotOf landings right)) :
    slotOf landings left = slotOf landings right := by
  rcases slotOf_cases landings left with
    ⟨_, slot⟩ | ⟨_, ⟨origin, found, slot⟩ | ⟨_, slot⟩⟩ <;>
    rcases slotOf_cases landings right with
      ⟨_, other⟩ | ⟨_, ⟨otherOrigin, otherFound, other⟩ | ⟨_, other⟩⟩ <;>
    rw [slot, other] at same ⊢ <;>
    have ids := Prod.mk.inj (toLex.injective same)
  · exact absurd ids.2.symm (addressed.fits right rightListed otherOrigin otherFound).2.differ
  · exact absurd ids.1 (by decide)
  · exact absurd ids.2 (addressed.fits left leftListed origin found).2.differ
  · rw [ids.2]
  · exact absurd ids.1 (by decide)
  · exact absurd ids.1 (by decide)
  · exact absurd ids.1 (by decide)
  · rw [ids.2]

namespace Departed

variable {answers : List Detached}
  (departed : Departed state record landings.origin (moversOf landings letters) next answers)

include departed

theorem outside {listing : Nat} (unlisted : listing ∉ letters.map Prod.fst) :
    next.place listing = state.place listing := by
  refine (departed.stayed listing fun moving => unlisted ?_).1
  obtain ⟨ad, held, rfl⟩ := List.mem_map.mp moving
  exact List.mem_map.mpr ⟨ad, List.mem_of_mem_filter held, rfl⟩

theorem bornPlace (addressed : Addressed state record landings letters) {ad : Nat × Char}
    (listed : ad ∈ letters) (leaves : ad.2 ≠ landings.staying)
    (unfound : landings.origin.lookup ad.1 = none) :
    ∃ born, next.place ad.1 = some born ∧ state.nextProperty ≤ born := by
  obtain ⟨born, placed, above, _⟩ :=
    departed.born ad.1 ((addressed.mem_movers listed).mpr leaves) unfound
  exact ⟨born, placed, above⟩

/-- An advert is where its landing is. -/
theorem place_eq (addressed : Addressed state record landings letters) {ad : Nat × Char}
    (listed : ad ∈ letters) :
    next.place ad.1 = some (next.homeOf record (slotOf landings ad)) := by
  rcases slotOf_cases landings ad with
    ⟨stays, slot⟩ | ⟨leaves, ⟨origin, found, slot⟩ | ⟨unfound, slot⟩⟩
  · rw [slot]
    have unmoved : ad.1 ∉ moversOf landings letters := fun moving =>
      (addressed.mem_movers listed).mp moving stays
    refine (departed.stayed ad.1 unmoved).1.trans ?_
    exact (addressed.here ad.1 (addressed.known ad listed)).mpr
      (List.mem_map.mpr ⟨ad, listed, rfl⟩)
  · rw [slot]
    exact departed.home ad.1 ((addressed.mem_movers listed).mpr leaves) origin found
  · obtain ⟨born, placed, _⟩ := departed.bornPlace addressed listed leaves unfound
    rw [slot, homeOf, placed]
    rfl

/-- An existing landing ranks by its own id, a newborn by its advert's, past them all. -/
theorem rank_cases (sound : state.Sound) (addressed : Addressed state record landings letters)
    {ad : Nat × Char} (listed : ad ∈ letters) :
    (slotOrder record (slotOf landings ad) =
        toLex (false, next.homeOf record (slotOf landings ad)) ∧
      next.homeOf record (slotOf landings ad) < state.nextProperty) ∨
    (slotOrder record (slotOf landings ad) = toLex (true, ad.1) ∧ ad.2 ≠ landings.staying ∧
      landings.origin.lookup ad.1 = none ∧
      state.nextProperty ≤ next.homeOf record (slotOf landings ad)) := by
  have placed := departed.place_eq addressed listed
  rcases slotOf_cases landings ad with
    ⟨stays, slot⟩ | ⟨leaves, ⟨origin, found, slot⟩ | ⟨unfound, slot⟩⟩
  · rw [slot]
    exact .inl ⟨rfl, sound.active_lt addressed.standing⟩
  · rw [slot]
    exact .inl ⟨rfl, addressed.origin_lt sound listed found⟩
  · obtain ⟨born, here, above⟩ := departed.bornPlace addressed listed leaves unfound
    rw [slot] at placed ⊢
    rw [placed] at here
    rw [Option.some.inj here]
    exact .inr ⟨rfl, leaves, unfound, above⟩

theorem ordered (sound : state.Sound) (addressed : Addressed state record landings letters)
    {left right : Nat × Char} (leftListed : left ∈ letters) (rightListed : right ∈ letters)
    (before : slotOrder record (slotOf landings left) < slotOrder record (slotOf landings right)) :
    next.homeOf record (slotOf landings left) < next.homeOf record (slotOf landings right) := by
  rcases departed.rank_cases sound addressed leftListed with
    ⟨slot, small⟩ | ⟨slot, leaves, unfound, _⟩ <;>
    rcases departed.rank_cases sound addressed rightListed with
      ⟨other, _⟩ | ⟨other, otherLeaves, otherUnfound, large⟩ <;>
    rw [slot, other, Prod.Lex.toLex_lt_toLex] at before
  · exact (before.resolve_left (lt_irrefl _)).2
  · exact small.trans_le large
  · rcases before with before | ⟨same, _⟩
    · exact absurd (show (true : Bool) < false from before) (by decide)
    · cases same
  · exact departed.ascending left.1 ((addressed.mem_movers leftListed).mpr leaves) right.1
      ((addressed.mem_movers rightListed).mpr otherLeaves) unfound otherUnfound
      (before.resolve_left (lt_irrefl _)).2 _ _ (departed.place_eq addressed leftListed)
      (departed.place_eq addressed rightListed)

/-- Who sits on a landing is named by the letters. -/
theorem occupant (sound : state.Sound) (addressed : Addressed state record landings letters)
    {ad : Nat × Char} (listed : ad ∈ letters) {listing : Nat} (known : state.knows listing = true)
    (here : next.place listing = some (next.homeOf record (slotOf landings ad))) :
    listing ∈ letters.map Prod.fst := by
  by_contra unlisted
  have stayed := (departed.outside unlisted).symm.trans here
  obtain ⟨property, placed, active⟩ := sound.placed listing known
  cases Option.some.inj (placed.symm.trans stayed)
  rcases slotOf_cases landings ad with
    ⟨stays, slot⟩ | ⟨leaves, ⟨origin, found, slot⟩ | ⟨unfound, slot⟩⟩
  · rw [slot] at stayed
    exact unlisted ((addressed.here listing known).mp stayed)
  · rw [slot] at active
    obtain ⟨target, away⟩ := (addressed.fits ad listed origin found).2.away
    obtain ⟨pointer, stands⟩ := isActive_iff_standing.mp active
    rw [homeOf, away] at stands
    cases (Prod.mk.inj (Option.some.inj stands)).1
  · rcases departed.rank_cases sound addressed listed with ⟨other, _⟩ | ⟨_, _, _, above⟩
    · rw [slot] at other
      exact absurd (Prod.mk.inj (toLex.injective other)).1 (by decide)
    · exact absurd (sound.active_lt active) (not_lt.mpr above)

theorem landed (sound : state.Sound) (addressed : Addressed state record landings letters) :
    Landed state record landings letters next where
  sound := departed.sound
  adverts := departed.adverts
  place := fun _ listed => departed.place_eq addressed listed
  others := fun _ unlisted => departed.outside unlisted
  ordered := fun _ leftListed _ rightListed =>
    departed.ordered sound addressed leftListed rightListed
  separate := fun _ leftListed _ rightListed => addressed.slot_eq leftListed rightListed
  born := fun ad listed newborn => by
    rcases departed.rank_cases sound addressed listed with ⟨slot, _⟩ | ⟨_, _, _, above⟩
    · rw [newborn] at slot
      exact absurd (Prod.mk.inj (toLex.injective slot)).1 (by decide)
    · exact sound.bounded _ above
  occupants := fun _ listed _ known here =>
    departed.occupant sound addressed listed known here

end Departed

theorem adFacts_eq {advert : Advert} (listed : advert ∈ state.adverts) :
    state.adFacts advert.listing = some advert := by
  unfold adFacts
  cases found : state.adverts.find? fun other => other.listing == advert.listing with
  | none =>
      have absent := List.find?_eq_none.mp found advert listed
      simp at absent
  | some other =>
      have same := List.find?_some found
      rw [List.inj_on_of_nodup_map state.distinct (List.mem_of_find?_eq_some found) listed
        (by simpa using same)]

theorem min?_congr {left right : List Int} (same : ∀ value, value ∈ left ↔ value ∈ right) :
    left.min? = right.min? := by
  cases least : left.min? with
  | none =>
      rw [List.min?_eq_none_iff] at least
      rw [eq_comm, List.min?_eq_none_iff, List.eq_nil_iff_forall_not_mem]
      intro value listed
      rw [← same, least] at listed
      cases listed
  | some value =>
      obtain ⟨listed, lowest⟩ := List.min?_eq_some_iff.mp least
      exact (List.min?_eq_some_iff.mpr ⟨(same value).mp listed,
        fun other held => lowest other ((same other).mpr held)⟩).symm

namespace Landed

theorem home_inj (landed : Landed state record landings letters next) {left right : Nat × Char}
    (leftListed : left ∈ letters) (rightListed : right ∈ letters)
    (same : next.homeOf record (slotOf landings left) = next.homeOf record (slotOf landings right)) :
    slotOf landings left = slotOf landings right := by
  rcases lt_trichotomy (slotOrder record (slotOf landings left))
    (slotOrder record (slotOf landings right)) with before | equal | after
  · exact absurd same (landed.ordered left leftListed right rightListed before).ne
  · exact landed.separate left leftListed right rightListed equal
  · exact absurd same (landed.ordered right rightListed left leftListed after).ne'

theorem home_le (landed : Landed state record landings letters next) {left right : Nat × Char}
    (leftListed : left ∈ letters) (rightListed : right ∈ letters) :
    slotOrder record (slotOf landings left) ≤ slotOrder record (slotOf landings right) ↔
      next.homeOf record (slotOf landings left) ≤ next.homeOf record (slotOf landings right) := by
  constructor
  · intro below
    rcases below.lt_or_eq with before | equal
    · exact (landed.ordered left leftListed right rightListed before).le
    · rw [landed.separate left leftListed right rightListed equal]
  · intro below
    by_contra above
    exact absurd (landed.ordered right rightListed left leftListed (not_le.mp above))
      (not_lt.mpr below)

theorem propertiesChanged (landed : Landed state record landings letters next) (ids : List Nat) :
    Landed state record landings letters (next.propertiesChanged ids) :=
  ⟨landed.sound.propertiesChanged ids, landed.adverts, landed.place, landed.others, landed.ordered,
    landed.separate, landed.born, landed.occupants⟩

/-- The adverts on a landing's property. -/
theorem mem_home (landed : Landed state record landings letters next) {ad : Nat × Char}
    (listed : ad ∈ letters) {advert : Advert} (known : advert ∈ state.adverts) :
    next.place advert.listing = some (next.homeOf record (slotOf landings ad)) ↔
      ∃ other ∈ letters, other.1 = advert.listing ∧ slotOf landings other = slotOf landings ad := by
  constructor
  · intro here
    have named := landed.occupants ad listed advert.listing (knows_iff.mpr ⟨advert, known, rfl⟩) here
    obtain ⟨other, otherListed, same⟩ := List.mem_map.mp named
    have there := landed.place other otherListed
    rw [same, here] at there
    exact ⟨other, otherListed, same, (landed.home_inj listed otherListed (Option.some.inj there)).symm⟩
  · rintro ⟨other, otherListed, same, slot⟩
    rw [← same, landed.place other otherListed, slot]

/-- The recompute dates a landing's property as the preview did. -/
theorem firstSeen (landed : Landed state record landings letters next)
    (addressed : Addressed state record landings letters) {ad : Nat × Char} (listed : ad ∈ letters)
    {ids : List Nat} (changed : next.homeOf record (slotOf landings ad) ∈ ids) :
    (((next.propertiesChanged ids).property (next.homeOf record (slotOf landings ad))).bind
        Property.firstSeen) =
      state.dated (landingAds landings letters ad.2 (slotOf landings ad)) := by
  obtain ⟨advert, known, same⟩ := knows_iff.mp (addressed.known ad listed)
  have here : advert ∈ next.membersOf (next.homeOf record (slotOf landings ad)) := by
    refine mem_membersOf.mpr ⟨landed.adverts ▸ known, ?_⟩
    rw [same]
    exact landed.place ad listed
  obtain ⟨property, placed, active⟩ := landed.sound.placed ad.1 (by
    unfold knows
    rw [landed.adverts]
    exact addressed.known ad listed)
  cases Option.some.inj ((landed.place ad listed).symm.trans placed)
  obtain ⟨row, held, _⟩ := isActive_iff.mp active
  have recomputed : (next.propertiesChanged ids).property
      (next.homeOf record (slotOf landings ad)) = some { row with
        firstSeen := ((next.membersOf (next.homeOf record (slotOf landings ad))).filterMap
          Advert.firstSeen).min? } := by
    refine (if_pos changed).trans ?_
    rw [held, Option.map_some]
    unfold Identity.recomputed
    cases members : next.membersOf (next.homeOf record (slotOf landings ad)) with
    | nil =>
        rw [members] at here
        cases here
    | cons first rest => rfl
  rw [recomputed, Option.bind_some]
  apply min?_congr
  intro date
  rw [List.mem_filterMap, List.mem_filterMap]
  constructor
  · rintro ⟨member, memberHeld, dated⟩
    obtain ⟨memberKnown, there⟩ := mem_membersOf.mp memberHeld
    rw [landed.adverts] at memberKnown
    obtain ⟨other, otherListed, named, slot⟩ := (landed.mem_home listed memberKnown).mp there
    refine ⟨member.listing, List.mem_map.mpr ⟨other, List.mem_filter.mpr ⟨otherListed, ?_⟩, named⟩, ?_⟩
    · exact decide_eq_true ⟨addressed.letter_eq otherListed listed slot, slot⟩
    · rw [adFacts_eq memberKnown]
      exact dated
  · rintro ⟨listing, listingHeld, dated⟩
    obtain ⟨other, otherHeld, rfl⟩ := List.mem_map.mp listingHeld
    obtain ⟨otherListed, both⟩ := List.mem_filter.mp otherHeld
    obtain ⟨member, memberKnown, named⟩ := knows_iff.mp (addressed.known other otherListed)
    rw [← named, adFacts_eq memberKnown] at dated
    refine ⟨member, mem_membersOf.mpr ⟨landed.adverts ▸ memberKnown, ?_⟩, dated⟩
    exact (landed.mem_home listed memberKnown).mpr
      ⟨other, otherListed, named.symm, (of_decide_eq_true both).2⟩

/-- The landing the preview keeps is the property a join of the letter leaves. -/
theorem keeps_survivor (landed : Landed state record landings letters next) {letter : Char}
    {slot : Slot} (kept : state.keeps record landings letters letter = some slot)
    (dates : ∀ ad ∈ letters, ad.2 = letter →
      (next.property (next.homeOf record (slotOf landings ad))).bind Property.firstSeen =
        state.dated (landingAds landings letters letter (slotOf landings ad)))
    {survivor : Nat}
    (survives : ∃ ad ∈ letters, ad.2 = letter ∧ next.homeOf record (slotOf landings ad) = survivor)
    (oldest : ∀ ad ∈ letters, ad.2 = letter →
      next.rankOf survivor ≤ next.rankOf (next.homeOf record (slotOf landings ad))) :
    survivor = next.homeOf record slot := by
  obtain ⟨one, oneListed, oneLetter, rfl⟩ := survives
  obtain ⟨held, least⟩ := least_of_head?_sortedBy kept
  have slots : ∀ ad ∈ letters, ad.2 = letter →
      slotOf landings ad ∈ letterSlots landings letters letter := fun ad listed same =>
    List.mem_dedup.mpr (List.mem_map.mpr ⟨ad, List.mem_filter.mpr ⟨listed, decide_eq_true same⟩, rfl⟩)
  obtain ⟨ad, adHeld, rfl⟩ := List.mem_map.mp (List.mem_dedup.mp held)
  obtain ⟨listed, letter_⟩ := List.mem_filter.mp adHeld
  have sameLetter : ad.2 = letter := of_decide_eq_true letter_
  have before := least (slotOf landings one) (slots one oneListed oneLetter)
  have after := oldest ad listed sameLetter
  apply rankOf_injective
  apply le_antisymm after
  dsimp only at before
  rw [rankOf, rankOf, survivorRank, survivorRank, dates ad listed sameLetter,
    dates one oneListed oneLetter]
  rw [Prod.Lex.toLex_le_toLex, Prod.Lex.toLex_le_toLex] at before ⊢
  rw [landed.home_le listed oneListed] at before
  exact before

/-- Every contentful advert of a set stands in the gate's rows by its categories. -/
theorem setAds_covers {table : Identity} {ids : List Nat} {property : Nat} (listed : property ∈ ids)
    {advert : Advert} (held : advert ∈ table.membersOf property)
    (contentful : advert.contentless = false) :
    ∃ row ∈ table.setAds ids, row.member = property ∧
      row.category = (advert.categoryType, advert.categoryMain) := by
  suffices lower : ∀ (bound : Nat) (advert : Advert), advert.listing ≤ bound →
      advert ∈ table.membersOf property → advert.contentless = false →
      ∃ row ∈ table.setAds ids, row.member = property ∧
        row.category = (advert.categoryType, advert.categoryMain) from
    lower advert.listing advert le_rfl held contentful
  have rows : ∀ other : Advert, other ∈ table.membersOf property → other.contentless = false →
      ({ member := property, category := (other.categoryType, other.categoryMain),
         listing := other.listing } : GateAd Nat) ∈ ids.flatMap fun property =>
        ((table.membersOf property).filter fun advert => !advert.contentless).map fun advert =>
          ({ member := property, category := (advert.categoryType, advert.categoryMain),
             listing := advert.listing } : GateAd Nat) := by
    intro other otherHeld otherContentful
    refine List.mem_flatMap.mpr ⟨property, listed, List.mem_map.mpr ⟨other, ?_, rfl⟩⟩
    exact List.mem_filter.mpr ⟨otherHeld, by simp [otherContentful]⟩
  intro bound
  -- The lowest advert of its categories is the one the set keeps.
  induction bound with
  | zero =>
      intro advert small held contentful
      refine ⟨_, mem_sortedBy.mpr (List.mem_filter.mpr ⟨rows advert held contentful, ?_⟩), rfl, rfl⟩
      refine List.all_eq_true.mpr fun other _ => ?_
      simp [Nat.le_zero.mp small]
  | succ bound ih =>
      intro advert small held contentful
      by_cases lowest : ∃ other ∈ table.membersOf property, other.contentless = false ∧
          other.categoryType = advert.categoryType ∧ other.categoryMain = advert.categoryMain ∧
          other.listing < advert.listing
      · obtain ⟨other, otherHeld, otherContentful, sameType, sameMain, below⟩ := lowest
        obtain ⟨row, kept, member, category⟩ :=
          ih other (Nat.lt_succ_iff.mp (below.trans_le small)) otherHeld otherContentful
        exact ⟨row, kept, member, category.trans (by rw [sameType, sameMain])⟩
      · refine ⟨_, mem_sortedBy.mpr (List.mem_filter.mpr ⟨rows advert held contentful, ?_⟩), rfl, rfl⟩
        refine List.all_eq_true.mpr fun other otherListed => ?_
        obtain ⟨home, _, otherRow⟩ := List.mem_flatMap.mp otherListed
        obtain ⟨member, memberHeld, rfl⟩ := List.mem_map.mp otherRow
        obtain ⟨memberListed, filled⟩ := List.mem_filter.mp memberHeld
        by_contra kept
        simp only [Bool.or_eq_true, bne_iff_ne, decide_eq_true_eq, not_or, not_not, not_le] at kept
        obtain ⟨⟨rfl, categories⟩, below⟩ := kept
        obtain ⟨sameType, sameMain⟩ := Prod.mk.inj categories
        exact lowest ⟨member, memberListed, by simpa using filled, sameType, sameMain, below⟩

/-- The preview refuses a letter exactly when the gate refuses its join. -/
theorem refused_iff (landed : Landed state record landings letters next)
    (addressed : Addressed state record landings letters) {letter : Char} {ids : List Nat}
    (homes : ∀ property, property ∈ ids ↔
      ∃ ad ∈ letters, ad.2 = letter ∧ next.homeOf record (slotOf landings ad) = property) :
    firstClash (state.slotRows record landings letters letter) = none ↔
      firstClash (next.setAds (sortedIds ids)) = none := by
  -- What stands behind a row of the preview.
  have behind : ∀ row ∈ (sortedBy (slotOrder record) (letterSlots landings letters letter)).flatMap
      fun slot => (landingAds landings letters letter slot).filterMap fun ad =>
        (state.adFacts ad).bind fun advert =>
          if advert.contentless then none
          else some ({ member := slot, category := (advert.categoryType, advert.categoryMain),
                       listing := ad } : GateAd Slot),
      ∃ ad ∈ letters, ∃ advert ∈ state.adverts, ad.2 = letter ∧ advert.listing = ad.1 ∧
        advert.contentless = false ∧ row.member = slotOf landings ad ∧
        row.category = (advert.categoryType, advert.categoryMain) := by
    intro row listed
    obtain ⟨slot, _, rowHeld⟩ := List.mem_flatMap.mp listed
    obtain ⟨listing, listingHeld, made⟩ := List.mem_filterMap.mp rowHeld
    obtain ⟨ad, adHeld, rfl⟩ := List.mem_map.mp listingHeld
    obtain ⟨adListed, both⟩ := List.mem_filter.mp adHeld
    obtain ⟨sameLetter, rfl⟩ := of_decide_eq_true both
    obtain ⟨advert, known, named⟩ := knows_iff.mp (addressed.known ad adListed)
    rw [← named, adFacts_eq known, Option.bind_some] at made
    split_ifs at made with empty
    cases Option.some.inj made
    exact ⟨ad, adListed, advert, known, sameLetter, named, by simpa using empty, rfl, rfl⟩
  have shown : ∀ ad ∈ letters, ad.2 = letter → ∀ advert ∈ state.adverts, advert.listing = ad.1 →
      advert.contentless = false → ∃ row ∈ state.slotRows record landings letters letter,
        row.member = slotOf landings ad ∧
          row.category = (advert.categoryType, advert.categoryMain) := by
    intro ad adListed sameLetter advert known named contentful
    refine (firstOfEach_spec _).2 ⟨slotOf landings ad, (advert.categoryType, advert.categoryMain), ad.1⟩ ?_
    refine List.mem_flatMap.mpr ⟨slotOf landings ad, mem_sortedBy.mpr (List.mem_dedup.mpr
      (List.mem_map.mpr ⟨ad, List.mem_filter.mpr ⟨adListed, decide_eq_true sameLetter⟩, rfl⟩)), ?_⟩
    refine List.mem_filterMap.mpr ⟨ad.1, List.mem_map.mpr ⟨ad, List.mem_filter.mpr
      ⟨adListed, decide_eq_true ⟨sameLetter, rfl⟩⟩, rfl⟩, ?_⟩
    rw [← named, adFacts_eq known, Option.bind_some, if_neg (by simp [contentful])]
  refine @firstClash_congr _ _ _ _ _ _ (next.homeOf record) ?_ ?_ ?_
  · intro one oneHeld other otherHeld same
    obtain ⟨ad, adListed, _, _, _, _, _, member, _⟩ :=
      behind one ((firstOfEach_spec _).1 one oneHeld)
    obtain ⟨second, secondListed, _, _, _, _, _, secondMember, _⟩ :=
      behind other ((firstOfEach_spec _).1 other otherHeld)
    rw [member, secondMember] at same ⊢
    exact landed.home_inj adListed secondListed same
  · intro row rowHeld
    obtain ⟨ad, adListed, advert, known, sameLetter, named, contentful, member, category⟩ :=
      behind row ((firstOfEach_spec _).1 row rowHeld)
    have here : advert ∈ next.membersOf (next.homeOf record (slotOf landings ad)) := by
      refine mem_membersOf.mpr ⟨landed.adverts ▸ known, ?_⟩
      rw [named]
      exact landed.place ad adListed
    have joined : next.homeOf record (slotOf landings ad) ∈ sortedIds ids :=
      mem_sortedBy.mpr ((homes _).mpr ⟨ad, adListed, sameLetter, rfl⟩)
    obtain ⟨gateRow, held, gateMember, gateCategory⟩ := setAds_covers joined here contentful
    exact ⟨gateRow, held, gateMember.trans (by rw [member]), gateCategory.trans category.symm⟩
  · intro row rowHeld
    unfold setAds at rowHeld
    obtain ⟨property, listed, made⟩ :=
      List.mem_flatMap.mp (List.mem_of_mem_filter (mem_sortedBy.mp rowHeld))
    obtain ⟨advert, advertHeld, rfl⟩ := List.mem_map.mp made
    obtain ⟨memberHeld, filled⟩ := List.mem_filter.mp advertHeld
    obtain ⟨known, there⟩ := mem_membersOf.mp memberHeld
    rw [landed.adverts] at known
    obtain ⟨ad, adListed, sameLetter, rfl⟩ := (homes property).mp (mem_sortedBy.mp listed)
    obtain ⟨other, otherListed, named, slot⟩ := (landed.mem_home adListed known).mp there
    have otherLetter := (addressed.letter_eq otherListed adListed slot).trans sameLetter
    obtain ⟨shownRow, held, member, category⟩ := shown other otherListed otherLetter advert known
      named.symm (by simpa using filled)
    exact ⟨shownRow, held, by rw [member, slot], category.symm⟩

end Landed

end Landed

/-! ### The joins of the landings -/

section Split

variable {state detached : Identity} {record : Nat} {landings : Landings}
  {letters statement : Letters}

theorem mem_joinedLetters {letter : Char} :
    letter ∈ joinedLetters landings letters ↔
      letter ∈ letters.map Prod.snd ∧ 1 < (letterSlots landings letters letter).length := by
  unfold joinedLetters letterSlots
  rw [List.mem_filter, List.mem_dedup, decide_eq_true_eq]

theorem mem_letterSlots {letter : Char} {slot : Slot} :
    slot ∈ letterSlots landings letters letter ↔
      ∃ ad ∈ letters, ad.2 = letter ∧ slotOf landings ad = slot := by
  unfold letterSlots
  rw [List.mem_dedup, List.mem_map]
  constructor
  · rintro ⟨ad, held, same⟩
    obtain ⟨listed, letter_⟩ := List.mem_filter.mp held
    exact ⟨ad, listed, of_decide_eq_true letter_, same⟩
  · rintro ⟨ad, listed, letter_, same⟩
    exact ⟨ad, List.mem_filter.mpr ⟨listed, decide_eq_true letter_⟩, same⟩

/-- The letter that stays lands on one property alone. -/
theorem joined_leaves {letter : Char} (joined : letter ∈ joinedLetters landings letters) :
    letter ≠ landings.staying := by
  rintro rfl
  obtain ⟨_, several⟩ := mem_joinedLetters.mp joined
  have alike : ∀ slot ∈ letterSlots landings letters landings.staying, slot = .kept := by
    intro slot held
    obtain ⟨ad, _, stays, rfl⟩ := mem_letterSlots.mp held
    exact if_pos stays
  have distinct : (letterSlots landings letters landings.staying).Nodup := List.nodup_dedup _
  match shape : letterSlots landings letters landings.staying, several with
  | first :: second :: rest, _ =>
      rw [shape] at alike distinct
      have same : first = second :=
        (alike first List.mem_cons_self).trans
          (alike second (List.mem_cons_of_mem _ List.mem_cons_self)).symm
      exact (List.nodup_cons.mp distinct).1 (same ▸ List.mem_cons_self)

/-- What the sets of a statement are: each joined letter with the properties it landed on. -/
structure JoinSets (landings : Landings) (letters : Letters) (record : Nat) (detached : Identity)
    (sets : List (Char × List Nat)) : Prop where
  mergeable : detached.Sets sets
  homes : ∀ set ∈ sets, set.1 ∈ joinedLetters landings letters ∧ ∀ property, property ∈ set.2 ↔
    ∃ ad ∈ letters, ad.2 = set.1 ∧ detached.homeOf record (slotOf landings ad) = property
  listed : ∀ letter ∈ joinedLetters landings letters, ∃ set ∈ sets, set.1 = letter

theorem Landed.joinSets (landed : Landed state record landings letters detached)
    (addressed : Addressed state record landings letters)
    (stated : Stated detached (fun ad => (joinedLetters landings letters).contains ad.2 &&
      (moversOf landings letters).contains ad.1) letters statement) :
    JoinSets landings letters record detached
      ((letterSets statement).filter fun set => 2 ≤ set.2.length) := by
  have entries : ∀ property letter, (property, letter) ∈ statement ↔
      letter ∈ joinedLetters landings letters ∧ ∃ ad ∈ letters, ad.2 = letter ∧
        detached.homeOf record (slotOf landings ad) = property := by
    intro property letter
    rw [stated.entries]
    constructor
    · rintro ⟨ad, listed, rfl, picked, here⟩
      have joined := (Bool.and_eq_true_iff.mp picked).1
      rw [landed.place ad listed] at here
      exact ⟨List.contains_iff_mem.mp joined, ad, listed, rfl, Option.some.inj here⟩
    · rintro ⟨joined, ad, listed, rfl, rfl⟩
      have moving := (addressed.mem_movers listed).mpr (joined_leaves joined)
      exact ⟨ad, listed, rfl, Bool.and_eq_true_iff.mpr
        ⟨List.contains_iff_mem.mpr joined, List.contains_iff_mem.mpr moving⟩, landed.place ad listed⟩
  have known : ∀ set ∈ letterSets statement, set.1 ∈ joinedLetters landings letters := by
    intro set held
    unfold letterSets at held
    rw [mem_sortedBy, List.mem_map] at held
    obtain ⟨letter, used, rfl⟩ := held
    obtain ⟨entry, entryHeld, rfl⟩ := List.mem_map.mp (List.mem_dedup.mp used)
    exact ((entries entry.1 entry.2).mp entryHeld).1
  have homes : ∀ set ∈ letterSets statement, ∀ property, property ∈ set.2 ↔
      ∃ ad ∈ letters, ad.2 = set.1 ∧ detached.homeOf record (slotOf landings ad) = property := by
    intro set held property
    rw [(mem_letterSets stated.keyed held).2, entries]
    exact ⟨And.right, fun found => ⟨known set held, found⟩⟩
  refine ⟨⟨(letterSets_disjoint stated.keyed).filter _, fun set held => ?_⟩, fun set held => ?_,
    fun letter joined => ?_⟩
  · obtain ⟨listed, several⟩ := List.mem_filter.mp held
    refine ⟨(mem_letterSets stated.keyed listed).1, of_decide_eq_true several, fun property owned => ?_⟩
    obtain ⟨ad, adListed, _, rfl⟩ := (homes set listed property).mp owned
    obtain ⟨place, placed, active⟩ := landed.sound.placed ad.1 (by
      unfold knows
      rw [landed.adverts]
      exact addressed.known ad adListed)
    cases Option.some.inj ((landed.place ad adListed).symm.trans placed)
    exact active
  · have listed := List.mem_of_mem_filter held
    exact ⟨known set listed, homes set listed⟩
  · obtain ⟨used, several⟩ := mem_joinedLetters.mp joined
    obtain ⟨one, oneHeld, other, otherHeld, differ⟩ :
        ∃ one ∈ letterSlots landings letters letter, ∃ other ∈ letterSlots landings letters letter,
          one ≠ other := by
      have distinct : (letterSlots landings letters letter).Nodup := List.nodup_dedup _
      match shape : letterSlots landings letters letter, several with
      | first :: second :: rest, _ =>
          rw [shape] at distinct
          refine ⟨first, List.mem_cons_self, second, List.mem_cons_of_mem _ List.mem_cons_self, ?_⟩
          exact fun same => (List.nodup_cons.mp distinct).1 (same ▸ List.mem_cons_self)
    obtain ⟨left, leftListed, leftLetter, rfl⟩ := mem_letterSlots.mp oneHeld
    obtain ⟨right, rightListed, rightLetter, rfl⟩ := mem_letterSlots.mp otherHeld
    have entry := (entries _ letter).mpr ⟨joined, left, leftListed, leftLetter, rfl⟩
    obtain ⟨set, held, rfl⟩ := letterSet_listed entry
    refine ⟨set, List.mem_filter.mpr ⟨held, decide_eq_true ?_⟩, rfl⟩
    have leftIn := (homes set held _).mpr ⟨left, leftListed, leftLetter, rfl⟩
    have rightIn := (homes set held _).mpr ⟨right, rightListed, rightLetter, rfl⟩
    have apart : detached.homeOf record (slotOf landings left) ≠
        detached.homeOf record (slotOf landings right) := fun same =>
      differ (landed.home_inj leftListed rightListed same)
    match set.2, leftIn, rightIn with
    | [_], leftIn, rightIn =>
        exact absurd ((List.mem_singleton.mp leftIn).trans (List.mem_singleton.mp rightIn).symm) apart
    | _ :: _ :: rest, _, _ => simp

/-- Each letter ends on one of its own landings' properties, the one the preview kept. -/
theorem Landed.letter_home (landed : Landed state record landings letters detached)
    (addressed : Addressed state record landings letters) {sets : List (Char × List Nat)}
    (joins : JoinSets landings letters record detached sets) {next : Identity}
    (joined : AllJoined sets detached next)
    (dates : ∀ ad ∈ letters, ad.2 ≠ landings.staying →
      (detached.property (detached.homeOf record (slotOf landings ad))).bind Property.firstSeen =
        state.dated (landingAds landings letters ad.2 (slotOf landings ad)))
    {letter : Char} {slot : Slot}
    (kept : state.keeps record landings letters letter = some slot) :
    ∀ ad ∈ letters, ad.2 = letter → next.place ad.1 = some (detached.homeOf record slot) := by
  intro ad listed sameLetter
  by_cases several : letter ∈ joinedLetters landings letters
  · obtain ⟨set, held, rfl⟩ := joins.listed letter several
    obtain ⟨survivor, survives, oldest, moved⟩ := joined.moved set held
    have homes := (joins.homes set held).2
    have survivorHome := landed.keeps_survivor kept (fun one oneListed oneLetter => by
      have leaves : one.2 ≠ landings.staying := oneLetter ▸ joined_leaves several
      rw [dates one oneListed leaves, oneLetter])
      ((homes survivor).mp survives) (fun one oneListed oneLetter =>
        oldest _ ((homes _).mpr ⟨one, oneListed, oneLetter, rfl⟩))
    rw [← survivorHome]
    exact moved ad.1 _ ((homes _).mpr ⟨ad, listed, sameLetter, rfl⟩) (landed.place ad listed)
  · have alone : slotOf landings ad = slot := by
      obtain ⟨held, _⟩ := least_of_head?_sortedBy kept
      have mine : slotOf landings ad ∈ letterSlots landings letters letter :=
        mem_letterSlots.mpr ⟨ad, listed, sameLetter, rfl⟩
      rw [mem_joinedLetters, not_and] at several
      have short := several (List.mem_map.mpr ⟨ad, listed, sameLetter⟩)
      match shape : letterSlots landings letters letter with
      | [] =>
          rw [shape] at mine
          cases mine
      | [first] =>
          rw [shape] at mine held
          exact (List.mem_singleton.mp mine).trans (List.mem_singleton.mp held).symm
      | first :: second :: rest =>
          rw [shape] at short
          exact absurd (by simp) short
    rw [← alone]
    refine (joined.kept ad.1 fun set held property owned here => ?_).trans (landed.place ad listed)
    obtain ⟨setJoined, homes⟩ := joins.homes set held
    obtain ⟨other, otherListed, otherLetter, rfl⟩ := (homes property).mp owned
    rw [landed.place ad listed] at here
    have slots := landed.home_inj listed otherListed (Option.some.inj here)
    have letters_ := addressed.letter_eq listed otherListed slots
    rw [otherLetter, sameLetter] at letters_
    exact several (letters_ ▸ setJoined)

theorem keeps_some {ad : Nat × Char} (listed : ad ∈ letters) :
    ∃ slot, state.keeps record landings letters ad.2 = some slot := by
  refine Option.ne_none_iff_exists'.mp fun empty => ?_
  unfold keeps at empty
  rw [List.head?_eq_none_iff, sortedBy_eq_nil] at empty
  have held : slotOf landings ad ∈ letterSlots landings letters ad.2 :=
    mem_letterSlots.mpr ⟨ad, listed, rfl, rfl⟩
  rw [empty] at held
  cases held

theorem letterPlan_cases {letter : Char} {shown : LetterPlan}
    (planned : state.letterPlan record landings letters letter = some shown) :
    shown.letter = letter ∧ state.keeps record landings letters letter = some shown.kept ∧
      (shown.refused ≠ none ↔ 1 < (letterSlots landings letters letter).length ∧
        firstClash (state.slotRows record landings letters letter) ≠ none) := by
  obtain ⟨slot, kept, rfl⟩ := Option.map_eq_some_iff.mp planned
  refine ⟨rfl, kept, ?_⟩
  dsimp only
  split_ifs with several
  · rw [Ne, Option.map_eq_none_iff]
    exact ⟨fun refused => ⟨several, refused⟩, And.right⟩
  · exact ⟨fun refused => absurd rfl refused, fun both => absurd both.1 several⟩

theorem letterPlan_some {ad : Nat × Char} (listed : ad ∈ letters) :
    ∃ shown, state.letterPlan record landings letters ad.2 = some shown := by
  obtain ⟨slot, kept⟩ := @keeps_some state record landings letters ad listed
  exact ⟨_, Option.map_eq_some_iff.mpr ⟨slot, kept, rfl⟩⟩

/-- The plan's entries, one for each letter in use. -/
theorem mem_planned {shown : LetterPlan} :
    shown ∈ (sortedIds (letters.map Prod.snd).dedup).filterMap
        (state.letterPlan record landings letters) ↔
      shown.letter ∈ letters.map Prod.snd ∧
        state.letterPlan record landings letters shown.letter = some shown := by
  rw [List.mem_filterMap]
  constructor
  · rintro ⟨letter, used, planned⟩
    rw [mem_sortedBy, List.mem_dedup] at used
    rw [(letterPlan_cases planned).1]
    exact ⟨used, planned⟩
  · rintro ⟨used, planned⟩
    exact ⟨shown.letter, mem_sortedBy.mpr (List.mem_dedup.mpr used), planned⟩

/-- What the preview read to answer. -/
theorem splitPreview_cases {property : Nat} {canonical : Option Nat} {stated : Letters}
    {plan : SplitPlan} (previewed : state.splitPreview property canonical stated = .ok plan) :
    ∃ letters record landings, statementLetters stated = .ok letters ∧
      state.resolveActive property = some record ∧ state.checkAds record letters = .ok () ∧
      state.letterLandings record canonical letters = some landings ∧
      plan = { property := record
               staying := landings.staying
               letters := (sortedIds (letters.map Prod.snd).dedup).filterMap
                 (state.letterPlan record landings letters) } := by
  unfold splitPreview at previewed
  cases accepted : statementLetters stated with
  | error refusal => simp [accepted, bind, Except.bind] at previewed
  | ok letters =>
      cases resolved : state.resolveActive property with
      | none => simp [accepted, resolved, bind, Except.bind] at previewed
      | some record =>
          cases checked : state.checkAds record letters with
          | error refusal => simp [accepted, resolved, checked, bind, Except.bind] at previewed
          | ok _ =>
              cases landed : state.letterLandings record canonical letters with
              | none => simp [accepted, resolved, checked, landed, bind, Except.bind] at previewed
              | some landings =>
                  simp only [accepted, resolved, checked, landed, bind, Except.bind] at previewed
                  exact ⟨letters, record, landings, rfl, rfl, checked, landed,
                    (Except.ok.inj previewed).symm⟩

theorem resolveFrom_active {fuel : Nat} :
    ∀ {property found : Nat}, state.resolveFrom fuel property = some found →
      state.isActive found = true := by
  induction fuel with
  | zero =>
      intro property found resolved
      unfold resolveFrom at resolved
      split_ifs at resolved with active
      cases Option.some.inj resolved
      exact active
  | succ fuel ih =>
      intro property found resolved
      unfold resolveFrom at resolved
      cases known : state.property property with
      | none => simp [known] at resolved
      | some row =>
          simp only [known] at resolved
          split_ifs at resolved with active
          · cases Option.some.inj resolved
            exact isActive_iff.mpr ⟨row, known, active⟩
          · obtain ⟨target, _, rest⟩ := Option.bind_eq_some_iff.mp resolved
            exact ih rest

theorem previewed_addressed {property : Nat} {canonical : Option Nat} {stated : Letters}
    (accepted : statementLetters stated = .ok letters)
    (resolved : state.resolveActive property = some record)
    (checked : state.checkAds record letters = .ok ())
    (landed : state.letterLandings record canonical letters = some landings) :
    Addressed state record landings letters := by
  obtain ⟨_, ascending⟩ := statementLetters_ascending accepted
  obtain ⟨known, here⟩ := checkAds_here checked
  obtain ⟨fits, taken, named⟩ := letterLandings_addressed landed (ascending.imp ne_of_lt)
  exact ⟨ascending, resolveFrom_active resolved, known, here, fits, taken, named⟩

/-- The one detach of a split: every leaving advert moves where the landings say, and the
recompute dates the properties they reach. -/
theorem Addressed.detach (sound : state.Sound)
    (addressed : Addressed state record landings letters) (births : Nat → GroupId) :
    ∃ detached answers,
      state.detachListings (moversOf landings letters) none landings.new births =
        some (detached, answers) ∧
      Landed state record landings letters detached ∧
      (∀ ad ∈ letters, ad.2 ≠ landings.staying →
        (detached.property (detached.homeOf record (slotOf landings ad))).bind Property.firstSeen =
          state.dated (landingAds landings letters ad.2 (slotOf landings ad))) ∧
      (answers.any fun answer => !answer.outcome.moves ||
        ((landings.origin.lookup answer.listing).any fun origin =>
          answer.target != some origin)) = false := by
  have sublist : (moversOf landings letters).Sublist (letters.map Prod.fst) :=
    List.filter_sublist.map _
  have ascending := addressed.ascending.sublist sublist
  have same : (moversOf landings letters).eraseDups = moversOf landings letters :=
    eraseDups_of_nodup (ascending.imp ne_of_lt)
  have entry : ∀ listing ∈ moversOf landings letters, ∃ ad ∈ letters, ad.1 = listing ∧
      ad.2 ≠ landings.staying := by
    intro listing held
    obtain ⟨ad, adHeld, rfl⟩ := List.mem_map.mp held
    obtain ⟨listed, leaves⟩ := List.mem_filter.mp adHeld
    exact ⟨ad, listed, rfl, of_decide_eq_true leaves⟩
  have known : ¬((moversOf landings letters).any fun listing => !state.knows listing) = true := by
    rw [List.any_eq_true]
    rintro ⟨listing, held, unknown⟩
    obtain ⟨ad, listed, rfl, _⟩ := entry listing held
    rw [addressed.known ad listed] at unknown
    cases unknown
  have departed := @Departed.detachEach state record landings.origin landings.new births
    (moversOf landings letters) sound state.place [] (state, [])
    ⟨sound, rfl, fun _ _ => ⟨rfl, rfl⟩, by simp, by simp, le_rfl, by simp, fun _ _ => .inl rfl,
      by simp, by simp⟩ ascending (fun listing held => by
        obtain ⟨ad, listed, rfl, leaves⟩ := entry listing held
        have here := (addressed.here ad.1 (addressed.known ad listed)).mpr
          (List.mem_map.mpr ⟨ad, listed, rfl⟩)
        exact ⟨addressed.known ad listed, here, here, addressed.named ad listed leaves,
          fun origin found => (addressed.fits ad listed origin found).2⟩)
  rw [List.nil_append] at departed
  have detached : state.detachListings (moversOf landings letters) none landings.new births =
      some ((state.detachEach state.place none landings.new births
          (moversOf landings letters)).1.propertiesChanged
        (((state.detachEach state.place none landings.new births
          (moversOf landings letters)).2.filter fun answer => answer.outcome.moves).flatMap
            fun answer => answer.left.toList ++ answer.target.toList),
        (state.detachEach state.place none landings.new births (moversOf landings letters)).2) := by
    unfold detachListings
    dsimp only
    rw [same, if_neg known]
  change Departed state record landings.origin (moversOf landings letters)
    (state.detachEach state.place none landings.new births (moversOf landings letters)).1
    (state.detachEach state.place none landings.new births (moversOf landings letters)).2 at departed
  generalize state.detachEach state.place none landings.new births (moversOf landings letters) = each
    at departed detached
  have landed := departed.landed sound addressed
  refine ⟨_, _, detached, landed.propertiesChanged _, ?_, ?_⟩
  · intro ad listed leaves
    refine landed.firstSeen addressed listed ?_
    obtain ⟨answer, held, named⟩ :=
      departed.answers ad.1 ((addressed.mem_movers listed).mpr leaves)
    obtain ⟨moves, _, _, reached⟩ := departed.answered answer held
    rw [named, landed.place ad listed] at reached
    refine List.mem_flatMap.mpr ⟨answer, List.mem_filter.mpr ⟨held, moves⟩, ?_⟩
    rw [reached]
    exact List.mem_append_right _ List.mem_cons_self
  · rw [← Bool.not_eq_true, List.any_eq_true]
    rintro ⟨answer, held, stuck⟩
    obtain ⟨moves, moving, _, reached⟩ := departed.answered answer held
    rw [moves] at stuck
    cases found : landings.origin.lookup answer.listing with
    | none => simp [found] at stuck
    | some origin =>
        rw [departed.home answer.listing moving origin found] at reached
        simp [found, reached] at stuck

/-- The landings joined letter by letter are the plan's. -/
theorem Landed.asPreviewed (landed : Landed state record landings letters detached)
    (addressed : Addressed state record landings letters)
    {sets : List (Char × List Nat)} (joins : JoinSets landings letters record detached sets)
    {next : Identity} (joined : AllJoined sets detached next)
    (dates : ∀ ad ∈ letters, ad.2 ≠ landings.staying →
      (detached.property (detached.homeOf record (slotOf landings ad))).bind Property.firstSeen =
        state.dated (landingAds landings letters ad.2 (slotOf landings ad))) :
    AsPreviewed state letters
      { property := record
        staying := landings.staying
        letters := (sortedIds (letters.map Prod.snd).dedup).filterMap
          (state.letterPlan record landings letters) } next := by
  have home : ∀ ad ∈ letters, ∃ other ∈ letters, other.2 = ad.2 ∧
      state.keeps record landings letters ad.2 = some (slotOf landings other) := by
    intro ad listed
    obtain ⟨slot, kept⟩ := @keeps_some state record landings letters ad listed
    obtain ⟨other, otherListed, same, rfl⟩ := mem_letterSlots.mp (least_of_head?_sortedBy kept).1
    exact ⟨other, otherListed, same, kept⟩
  have ends := fun {letter} {slot} kept =>
    @Landed.letter_home state detached record landings letters landed addressed sets joins next
      joined dates letter slot kept
  refine ⟨?_, ?_, ?_, ?_, ?_⟩
  · intro left leftListed right rightListed
    obtain ⟨one, oneListed, oneLetter, leftKept⟩ := home left leftListed
    obtain ⟨other, otherListed, otherLetter, rightKept⟩ := home right rightListed
    have leftEnds := ends leftKept left leftListed rfl
    have rightEnds := ends rightKept right rightListed rfl
    constructor
    · intro same
      rw [leftEnds, rightEnds] at same
      have slots := landed.home_inj oneListed otherListed (Option.some.inj same)
      exact oneLetter.symm.trans ((addressed.letter_eq oneListed otherListed slots).trans otherLetter)
    · intro same
      rw [same] at leftKept
      rw [ends leftKept left leftListed same, ends leftKept right rightListed rfl]
  · intro ad listed stays
    obtain ⟨other, otherListed, same, kept⟩ := home ad listed
    have slot : slotOf landings other = .kept := if_pos (same.trans stays)
    rw [slot] at kept
    exact ends kept ad listed rfl
  · intro ad listed
    obtain ⟨shown, planned⟩ := @letterPlan_some state record landings letters ad listed
    obtain ⟨own, _⟩ := letterPlan_cases planned
    refine ⟨shown, mem_planned.mpr ⟨List.mem_map.mpr ⟨ad, listed, own.symm⟩, ?_⟩, own⟩
    rw [own]
    exact planned
  · intro shown planned ad listed same
    obtain ⟨_, made⟩ := mem_planned.mp planned
    obtain ⟨_, kept, _⟩ := letterPlan_cases made
    obtain ⟨other, otherListed, otherLetter, lands⟩ :=
      mem_letterSlots.mp (least_of_head?_sortedBy kept).1
    have placed := ends kept ad listed same
    rw [← lands] at placed ⊢
    rcases slotOf_cases landings other with
      ⟨_, slot⟩ | ⟨_, ⟨origin, _, slot⟩ | ⟨_, slot⟩⟩
    · rw [slot] at placed ⊢
      exact placed
    · rw [slot] at placed ⊢
      exact placed
    · have newborn := landed.born other otherListed slot
      rw [slot] at placed newborn ⊢
      exact ⟨_, placed, newborn⟩
  · intro listing known elsewhere
    have unlisted : listing ∉ letters.map Prod.fst := fun listed =>
      elsewhere ((addressed.here listing known).mpr listed)
    refine (joined.kept listing fun set held property owned here => ?_).trans
      (landed.others listing unlisted)
    obtain ⟨ad, adListed, _, rfl⟩ := ((joins.homes set held).2 property).mp owned
    exact unlisted (landed.occupants ad adListed listing known here)

/-- The call once its reads are settled: the detach, then the joins or their refusal. -/
theorem splitProperty_eq {call : SplitCall} {detached : Identity} {answers : List Detached}
    (accepted : statementLetters call.letters = .ok letters)
    (resolved : state.resolveActive call.property = some record)
    (checked : state.checkAds record letters = .ok ())
    (landed : state.letterLandings record call.canonical letters = some landings)
    (fresh : call.expected = true)
    (took : state.detachListings (moversOf landings letters) none landings.new call.births =
      some (detached, answers))
    (unstuck : (answers.any fun answer => !answer.outcome.moves ||
      ((landings.origin.lookup answer.listing).any fun origin =>
        answer.target != some origin)) = false)
    (joined : detached.joinStatement (moversOf landings letters) (joinedLetters landings letters)
      letters = .ok statement) :
    state.splitProperty call =
      match detached.mergeLetters statement call.groups call.decidedBy "operator_split" with
      | .ok merged => .ok merged
      | .error refusal => .error (.ofMerge refusal) := by
  unfold splitProperty
  unfold moversOf at took joined
  simp only [accepted, resolved, checked, landed, fresh, bind, Except.bind]
  rw [if_neg (by simp), took]
  dsimp only
  rw [unstuck, joined]
  rfl

/-- The split from any sound tables, against what its preview showed. -/
theorem split_of_sound (sound : state.Sound) (call : SplitCall) {plan : SplitPlan}
    (previewed : state.splitPreview call.property call.canonical call.letters = .ok plan)
    (fresh : call.expected = true) (ruler : call.decidedBy ≠ "") :
    (∀ next, state.splitProperty call = .ok next → AsPreviewed state call.letters plan next) ∧
    ((∃ field members ads, state.splitProperty call =
        .error (.refused (.categoryClash field members ads))) ↔
      ∃ shown ∈ plan.letters, shown.refused ≠ none) := by
  obtain ⟨letters, record, landings, accepted, resolved, checked, landed, rfl⟩ :=
    splitPreview_cases previewed
  have addressed := previewed_addressed accepted resolved checked landed
  obtain ⟨detached, answers, took, reached, dates, unstuck⟩ := addressed.detach sound call.births
  obtain ⟨statement, stating, stated⟩ := @joinStatement_stated detached
    (moversOf landings letters) (joinedLetters landings letters) letters
    (fun left leftListed right rightListed property leftHere rightHere => by
      rw [reached.place left leftListed] at leftHere
      rw [reached.place right rightListed] at rightHere
      refine addressed.letter_eq leftListed rightListed (reached.home_inj leftListed rightListed ?_)
      rw [Option.some.inj leftHere, Option.some.inj rightHere])
  have called := splitProperty_eq accepted resolved checked landed fresh took unstuck stating
  have joins := reached.joinSets addressed stated
  obtain ⟨refusing, joining⟩ := @mergeSets_spec call.groups call.decidedBy "operator_split" ruler _
    detached reached.sound joins.mergeable
  change ((∃ set ∈ _, _) → ∃ field members ads, detached.mergeLetters statement call.groups
    call.decidedBy "operator_split" = _) at refusing
  change ((∀ set ∈ _, _) → ∃ next, detached.mergeLetters statement call.groups call.decidedBy
    "operator_split" = _ ∧ _) at joining
  -- The gate refuses a set exactly when the preview refuses its letter.
  have gate : ∀ set ∈ (letterSets statement).filter fun set => 2 ≤ set.2.length,
      (firstClash (state.slotRows record landings letters set.1) = none ↔
        firstClash (detached.setAds (sortedIds set.2)) = none) := fun set held =>
    reached.refused_iff addressed (joins.homes set held).2
  have shownRefused : (∃ shown ∈ (sortedIds (letters.map Prod.snd).dedup).filterMap
        (state.letterPlan record landings letters), shown.refused ≠ none) ↔
      ∃ set ∈ (letterSets statement).filter fun set => 2 ≤ set.2.length,
        firstClash (detached.setAds (sortedIds set.2)) ≠ none := by
    constructor
    · rintro ⟨shown, listed, refused⟩
      obtain ⟨used, planned⟩ := mem_planned.mp listed
      obtain ⟨several, clash⟩ := (letterPlan_cases planned).2.2.mp refused
      obtain ⟨set, held, same⟩ := joins.listed shown.letter (mem_joinedLetters.mpr ⟨used, several⟩)
      rw [← same, Ne, gate set held] at clash
      exact ⟨set, held, clash⟩
    · rintro ⟨set, held, refused⟩
      obtain ⟨used, several⟩ := mem_joinedLetters.mp (joins.homes set held).1
      obtain ⟨ad, listed, same⟩ := List.mem_map.mp used
      obtain ⟨shown, planned⟩ := @letterPlan_some state record landings letters ad listed
      rw [same] at planned
      obtain ⟨own, _, refusal⟩ := letterPlan_cases planned
      rw [Ne, ← gate set held] at refused
      exact ⟨shown, mem_planned.mpr ⟨own ▸ used, own.symm ▸ planned⟩, refusal.mpr ⟨several, refused⟩⟩
  constructor
  · intro next done
    have clean : ∀ set ∈ (letterSets statement).filter fun set => 2 ≤ set.2.length,
        firstClash (detached.setAds (sortedIds set.2)) = none := by
      intro set held
      by_contra refused
      obtain ⟨field, members, ads, error⟩ := refusing ⟨set, held, refused⟩
      rw [called, error] at done
      cases done
    obtain ⟨after, merged, joined⟩ := joining clean
    rw [called, merged] at done
    cases Except.ok.inj done
    have same : ∀ ad, ad ∈ letters ↔ ad ∈ call.letters := by
      intro ad
      rw [(statementLetters_ascending accepted).1, mem_sortedBy]
    have previewed := reached.asPreviewed addressed joins joined dates
    exact ⟨fun left one right other => previewed.together left ((same left).mpr one) right
        ((same right).mpr other),
      fun ad listed => previewed.staying ad ((same ad).mpr listed),
      fun ad listed => previewed.shown ad ((same ad).mpr listed),
      fun shown planned ad listed => previewed.landed shown planned ad ((same ad).mpr listed),
      previewed.others⟩
  · rw [shownRefused, called]
    constructor
    · rintro ⟨field, members, ads, error⟩
      by_contra none_
      obtain ⟨after, merged, _⟩ := joining fun set held => by
        by_contra refused
        exact none_ ⟨set, held, refused⟩
      rw [merged] at error
      cases error
    · intro refused
      obtain ⟨field, members, ads, error⟩ := refusing refused
      refine ⟨field, members, ads, ?_⟩
      rw [error]
      rfl

end Split

/-- From every state a run reaches, a split called with its preview's digest and nothing
written since does what the preview showed, and rule 15 refuses it exactly when the
preview marks a letter refused. -/
theorem split_follows_preview {start : Identity} (initial : start.Initial) (calls : List Call)
    (call : SplitCall) {plan : SplitPlan}
    (previewed : (start.run calls).splitPreview call.property call.canonical call.letters = .ok plan)
    (fresh : call.expected = true) (ruler : call.decidedBy ≠ "") :
    (∀ next, (start.run calls).splitProperty call = .ok next →
      AsPreviewed (start.run calls) call.letters plan next) ∧
    ((∃ field members ads, (start.run calls).splitProperty call =
        .error (.refused (.categoryClash field members ads))) ↔
      ∃ shown ∈ plan.letters, shown.refused ≠ none) :=
  split_of_sound (initial.sound.run calls) call previewed fresh ruler

/-- The second and third advert leave together, for the older of their own properties. -/
def partTwo : SplitCall where
  property := 1
  letters := [(1, 'A'), (2, 'B'), (3, 'B')]
  canonical := none
  expected := true
  births := fun _ => 9
  groups := fun _ => 8
  decidedBy := "operator"

def partTwoPlan : SplitPlan where
  property := 1
  staying := 'A'
  letters :=
    [{ letter := 'A', listings := [1], kept := .kept, joins := 0, refused := none },
      { letter := 'B', listings := [2, 3], kept := .origin 2, joins := 2, refused := none }]

theorem split_follows_preview_at_threeHomes :
    (∀ next, (threeHomes.run [.merge (joinHomes [1, 2, 3] 1)]).splitProperty partTwo = .ok next →
      AsPreviewed (threeHomes.run [.merge (joinHomes [1, 2, 3] 1)]) partTwo.letters partTwoPlan
        next) ∧
    ((∃ field members ads, (threeHomes.run [.merge (joinHomes [1, 2, 3] 1)]).splitProperty partTwo =
        .error (.refused (.categoryClash field members ads))) ↔
      ∃ shown ∈ partTwoPlan.letters, shown.refused ≠ none) :=
  split_follows_preview threeHomes_initial [.merge (joinHomes [1, 2, 3] 1)] partTwo
    (by decide +kernel) rfl (by decide)

end Identity

end Sreality.Toolkit
