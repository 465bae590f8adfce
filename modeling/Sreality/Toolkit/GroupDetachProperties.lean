import Sreality.Toolkit.PropertyUndoProperties

/-! One group detached over any adverts: each answers what the read-only rule said of it
before the call, whichever of them go first, and what a call leaves of the tables the
next group's rule reads. -/

set_option autoImplicit false

namespace Sreality.Toolkit

open Sreality.Foundation

namespace Identity

section Outcomes

variable {state : Identity} {group : GroupId} {listing : Nat}

theorem originGone_congr {one other : Option Property} {undo : List LedgerRow}
    (same : one.map (fun row => (row.status, row.mergedInto)) =
      other.map fun row => (row.status, row.mergedInto)) :
    originGone one undo = originGone other undo := by
  cases one with
  | none => cases other with
    | none => rfl
    | some _ => cases same
  | some row => cases other with
    | none => cases same
    | some kept =>
        obtain ⟨status, pointer⟩ := Prod.mk.inj (Option.some.inj same)
        simp only [originGone, status, pointer]

theorem originGone_active {property : Nat} {undo : List LedgerRow}
    (active : state.standing property = some (.active, none)) :
    originGone (state.property property) undo = false := by
  obtain ⟨row, known, status, _⟩ := standing_eq_some_iff.mp active
  rw [known]
  simp [originGone, status]

theorem planDetach_group (known : state.knows listing = true) :
    state.planDetach listing (some group) =
      some (detachPlan (state.place listing) (state.liveMoves listing) (some group) (0, 0)) := by
  unfold planDetach
  rw [if_pos known]
  cases state.place listing <;> rfl

theorem detachOutcome_known {outcome : Outcome}
    (answered : state.detachOutcome group listing = some outcome) : state.knows listing = true := by
  by_contra unknown
  unfold detachOutcome planDetach at answered
  rw [if_neg unknown] at answered
  cases answered

/-- What a group's rule finds of an advert: no live row of the group, its newest row the
group's, leading home or to where it is, or rows of later merges past the group's. -/
inductive GroupRule (state : Identity) (group : GroupId) (listing : Nat) : Prop where
  | unmerged (foreign : ∀ row ∈ state.liveMoves listing, row.group ≠ group)
      (plan : state.planDetach listing (some group) =
        some (stays (state.place listing) .notMerged))
  | newest {kept : List LedgerRow} {last : LedgerRow}
      (rows : state.liveMoves listing = kept ++ [last]) (own : last.group = group)
      (plan : state.planDetach listing (some group) =
        some { current := state.place listing, outcome := .detached, undo := [last],
               target := some last.prev })
  | onOrigin {kept : List LedgerRow} {last : LedgerRow}
      (rows : state.liveMoves listing = kept ++ [last]) (own : last.group = group)
      (plan : state.planDetach listing (some group) =
        some (stays (state.place listing) .onOrigin))
  | movedOn {kept : List LedgerRow} {last : LedgerRow}
      (rows : state.liveMoves listing = kept ++ [last])
      (among : ∃ row ∈ state.liveMoves listing, row.group = group)
      (plan : state.planDetach listing (some group) =
        some (stays (state.place listing) .movedOn))

theorem groupRule (sound : state.Sound) (known : state.knows listing = true) (group : GroupId) :
    GroupRule state group listing := by
  have planned := @planDetach_group state group listing known
  rcases List.eq_nil_or_concat (state.liveMoves listing) with native | ⟨kept, last, rows⟩
  · refine .unmerged (by simp [native]) (planned.trans ?_)
    rw [native]
    rfl
  rw [List.concat_eq_append] at rows
  have ends : (state.liveMoves listing).getLast? = some last := by simp [rows]
  have here := (sound.chained listing known).2 last ends
  obtain ⟨first, starts⟩ : ∃ first, (state.liveMoves listing).head? = some first := by
    rw [rows]
    cases kept with
    | nil => exact ⟨last, rfl⟩
    | cons first rest => exact ⟨first, rfl⟩
  have plan : detachPlan (state.place listing) (state.liveMoves listing) (some group) (0, 0) =
      if last.group ≠ group then
        stays (state.place listing)
          (if (state.liveMoves listing).any fun row => row.group == group then .movedOn
            else .notMerged)
      else if some last.prev = state.place listing then stays (state.place listing) .onOrigin
      else { current := state.place listing, outcome := .detached, undo := [last],
             target := some last.prev } := by
    unfold detachPlan
    rw [starts, ends]
    dsimp only
    rw [if_neg (not_not_intro here)]
  rw [plan] at planned
  by_cases own : last.group = group
  · rw [if_neg (not_not_intro own)] at planned
    by_cases home : some last.prev = state.place listing
    · rw [if_pos home] at planned
      exact .onOrigin rows own planned
    · rw [if_neg home] at planned
      exact .newest rows own planned
  · rw [if_pos own] at planned
    cases among : (state.liveMoves listing).any fun row => row.group == group with
    | true =>
        rw [among] at planned
        obtain ⟨row, held, same⟩ := List.any_eq_true.mp among
        exact .movedOn rows ⟨row, held, beq_iff_eq.mp same⟩ planned
    | false =>
        rw [among] at planned
        refine .unmerged (fun row held same => ?_) planned
        rw [List.any_eq_false] at among
        exact among row held (beq_iff_eq.mpr same)

theorem detachOutcome_of_stays {outcome : Outcome} (still : outcome ≠ .detached)
    (plan : state.planDetach listing (some group) = some (stays (state.place listing) outcome)) :
    state.detachOutcome group listing = some outcome := by
  unfold detachOutcome
  rw [plan, Option.map_some]
  exact congrArg some (if_neg fun both => still both.1)

theorem detachOutcome_of_newest {last : LedgerRow}
    (plan : state.planDetach listing (some group) =
      some { current := state.place listing, outcome := .detached, undo := [last],
             target := some last.prev }) :
    state.detachOutcome group listing =
      some (if originGone (state.property last.prev) [last] = true then .originMovedOn
        else .detached) := by
  unfold detachOutcome
  rw [plan, Option.map_some]
  simp

theorem backTo_of_detached {kept : List LedgerRow} {last : LedgerRow}
    (rows : state.liveMoves listing = kept ++ [last])
    (answer : state.detachOutcome group listing = some .detached) :
    state.backTo group listing = some last.prev := by
  unfold backTo
  rw [if_pos answer, rows]
  simp

theorem backTo_of_stays {outcome : Outcome} (still : outcome ≠ .detached)
    (answer : state.detachOutcome group listing = some outcome) :
    state.backTo group listing = none := by
  unfold backTo
  rw [answer, if_neg fun same => still (Option.some.inj same)]

/-- The rule moves the advert: it has somewhere to go. -/
theorem exists_backTo (sound : state.Sound)
    (moves : state.detachOutcome group listing = some .detached) :
    ∃ property, state.backTo group listing = some property := by
  cases groupRule sound (detachOutcome_known moves) group with
  | unmerged _ plan =>
      rw [detachOutcome_of_stays (by simp) plan] at moves
      cases moves
  | newest rows _ _ => exact ⟨_, backTo_of_detached rows moves⟩
  | onOrigin _ _ plan =>
      rw [detachOutcome_of_stays (by simp) plan] at moves
      cases moves
  | movedOn _ _ plan =>
      rw [detachOutcome_of_stays (by simp) plan] at moves
      cases moves

/-- A group's rule moves an advert home or nowhere: it splits none off. -/
theorem moves_iff_detached (sound : state.Sound) {outcome : Outcome}
    (told : state.detachOutcome group listing = some outcome) :
    outcome.moves = true ↔ outcome = .detached := by
  have known := detachOutcome_known told
  cases groupRule sound known group with
  | unmerged _ plan =>
      rw [detachOutcome_of_stays (by simp) plan] at told
      cases told
      exact iff_of_false (by simp [Outcome.moves]) (by simp)
  | newest _ _ plan =>
      rw [detachOutcome_of_newest plan] at told
      split_ifs at told
      · cases told
        exact iff_of_false (by simp [Outcome.moves]) (by simp)
      · cases told
        exact iff_of_true rfl rfl
  | onOrigin _ _ plan =>
      rw [detachOutcome_of_stays (by simp) plan] at told
      cases told
      exact iff_of_false (by simp [Outcome.moves]) (by simp)
  | movedOn _ _ plan =>
      rw [detachOutcome_of_stays (by simp) plan] at told
      cases told
      exact iff_of_false (by simp [Outcome.moves]) (by simp)

/-- An advert of a group taken back: the rows it keeps, and the row that led here. -/
theorem backTo_eq_some (sound : state.Sound) {property : Nat}
    (back : state.backTo group listing = some property) :
    ∃ kept last, state.liveMoves listing = kept ++ [last] ∧ last.group = group ∧
      last.prev = property ∧ originGone (state.property property) [last] = false ∧
      state.detachOutcome group listing = some .detached := by
  have moves : state.detachOutcome group listing = some .detached := by
    by_contra other
    unfold backTo at back
    rw [if_neg other] at back
    cases back
  cases groupRule sound (detachOutcome_known moves) group with
  | unmerged _ plan =>
      rw [detachOutcome_of_stays (by simp) plan] at moves
      cases moves
  | newest rows own plan =>
      have answer := moves
      rw [detachOutcome_of_newest plan] at answer
      rw [backTo_of_detached rows moves] at back
      cases Option.some.inj back
      refine ⟨_, _, rows, own, rfl, ?_, moves⟩
      rw [← Bool.not_eq_true]
      intro gone
      rw [if_pos gone] at answer
      cases answer
  | onOrigin _ _ plan =>
      rw [detachOutcome_of_stays (by simp) plan] at moves
      cases moves
  | movedOn _ _ plan =>
      rw [detachOutcome_of_stays (by simp) plan] at moves
      cases moves

/-- A live row of the group names the advert. -/
def MergedBy (state : Identity) (group : GroupId) (listing : Nat) : Prop :=
  state.knows listing = true ∧ ∃ row ∈ state.liveMoves listing, row.group = group

theorem detachOutcome_mergedBy_iff (sound : state.Sound) :
    (state.detachOutcome group listing).getD .notMerged ≠ .notMerged ↔
      state.MergedBy group listing := by
  unfold MergedBy
  by_cases known : state.knows listing = true
  swap
  · unfold detachOutcome planDetach
    simp [known]
  cases groupRule sound known group with
  | unmerged foreign plan =>
      rw [detachOutcome_of_stays (by simp) plan]
      simpa [known] using foreign
  | newest rows own plan =>
      rw [detachOutcome_of_newest plan, Option.getD_some]
      refine iff_of_true ?_ ⟨known, _, by rw [rows]; exact List.mem_concat_self, own⟩
      split_ifs <;> simp
  | onOrigin rows own plan =>
      rw [detachOutcome_of_stays (by simp) plan]
      exact iff_of_true (by simp) ⟨known, _, by rw [rows]; exact List.mem_concat_self, own⟩
  | movedOn _ among plan =>
      rw [detachOutcome_of_stays (by simp) plan]
      exact iff_of_true (by simp) ⟨known, among⟩

/-- The rule still moves an advert whose rows stand, whatever properties came back since. -/
theorem detached_of_rows {next : Identity} (sound : state.Sound) (nextSound : next.Sound)
    (adverts : next.adverts = state.adverts)
    (rows : next.liveMoves listing = state.liveMoves listing)
    (standing : ∀ property, next.standing property = state.standing property ∨
      next.standing property = some (.active, none))
    (moves : state.detachOutcome group listing = some .detached) :
    next.detachOutcome group listing = some .detached := by
  have known := detachOutcome_known moves
  have knownNext : next.knows listing = true := by
    unfold knows
    rw [adverts]
    exact known
  obtain ⟨property, home⟩ := exists_backTo sound moves
  obtain ⟨kept, last, newest, own, leads, stays_, _⟩ := backTo_eq_some sound home
  have ends : (state.liveMoves listing).getLast? = some last := by simp [newest]
  have place : next.place listing = state.place listing :=
    ((nextSound.chained listing knownNext).2 last (rows ▸ ends)).trans
      ((sound.chained listing known).2 last ends).symm
  have plan : next.planDetach listing (some group) = state.planDetach listing (some group) := by
    rw [planDetach_group knownNext, planDetach_group known, place, rows]
  cases groupRule sound known group with
  | unmerged foreign _ => exact absurd own (foreign last (by simp [newest]))
  | onOrigin _ _ still =>
      rw [detachOutcome_of_stays (by simp) still] at moves
      cases moves
  | movedOn _ _ still =>
      rw [detachOutcome_of_stays (by simp) still] at moves
      cases moves
  | @newest _ final finalRows _ goes =>
      obtain rfl : last = final := by
        rw [newest] at finalRows
        exact List.singleton_inj.mp (List.append_inj' finalRows rfl).2
      rw [detachOutcome_of_newest (place.symm ▸ plan.trans goes)]
      have gone : originGone (next.property last.prev) [last] = false := by
        rcases standing last.prev with same | revived
        · rw [originGone_congr same, leads]
          exact stays_
        · exact originGone_active revived
      rw [gone]
      rfl

/-- The rule's answer is the call's. -/
inductive Answers (group : GroupId) (listing : Nat) (state next : Identity) (answer : Detached) :
    Prop where
  | back {kept : List LedgerRow} {last : LedgerRow}
      (rows : state.liveMoves listing = kept ++ [last])
      (home : state.backTo group listing = some last.prev)
      (moved : Moved listing last.prev kept state next)
      (ledger : ∀ row ∈ next.ledger, ∃ old ∈ state.ledger,
        row.group = old.group ∧ row.survivor = old.survivor)
      (told : answer.outcome = .detached) (target : answer.target = some last.prev)
  | stayed (still : state.backTo group listing = none) (same : next = state)
      (told : some answer.outcome = state.detachOutcome group listing)

theorem detachOne_answers (sound : state.Sound) (known : state.knows listing = true)
    (group birthGroup : GroupId) :
    Answers group listing state
        (state.detachOne listing (state.place listing) (some group) false birthGroup).1
        (state.detachOne listing (state.place listing) (some group) false birthGroup).2 ∧
      (state.detachOne listing (state.place listing) (some group) false birthGroup).2.listing =
        listing := by
  obtain ⟨current, here, _⟩ := sound.placed listing known
  have stayed : ∀ outcome : Outcome, outcome ≠ .detached → outcome ≠ .splitNative →
      state.planDetach listing (some group) = some (stays (state.place listing) outcome) →
      Answers group listing state
          (state.detachOne listing (state.place listing) (some group) false birthGroup).1
          (state.detachOne listing (state.place listing) (some group) false birthGroup).2 ∧
        (state.detachOne listing (state.place listing) (some group) false birthGroup).2.listing =
          listing := by
    intro outcome still native plan
    have told := detachOutcome_of_stays still plan
    have unmoved := backTo_of_stays still told
    unfold detachOne
    rw [plan, Option.getD_some]
    dsimp only [stays]
    rw [if_neg (not_not_intro rfl), here]
    dsimp only
    rw [if_neg (by simp [native]), if_neg still]
    exact ⟨.stayed unmoved rfl told.symm, rfl⟩
  cases groupRule sound known group with
  | unmerged _ plan => exact stayed _ (by simp) (by simp) plan
  | onOrigin _ _ plan => exact stayed _ (by simp) (by simp) plan
  | movedOn _ _ plan => exact stayed _ (by simp) (by simp) plan
  | @newest kept last rows own plan =>
      have told := detachOutcome_of_newest plan
      have linked : state.moveAdvert (some last.prev) listing current =
          some (state.movedTo (some last.prev) listing) := if_pos here
      unfold detachOne
      rw [plan, Option.getD_some]
      dsimp only
      rw [if_neg (not_not_intro rfl), here]
      dsimp only
      rw [if_neg (by simp), if_pos rfl, Option.bind_some]
      cases leaves : originGone (state.property last.prev) [last] with
      | true =>
          rw [leaves, if_pos rfl] at told
          rw [if_pos rfl]
          exact ⟨.stayed (backTo_of_stays (by simp) told) rfl told.symm, rfl⟩
      | false =>
          rw [leaves, if_neg (by simp)] at told
          rw [if_neg (by simp), linked]
          refine ⟨.back rows (backTo_of_detached rows told)
            (homecoming_moved sound known rows rfl rfl leaves) ?_ rfl rfl, rfl⟩
          intro row held
          obtain ⟨old, listed, rfl⟩ := List.mem_map.mp held
          refine ⟨old, listed, ?_⟩
          split_ifs <;> exact ⟨rfl, rfl⟩

end Outcomes

/-! ### A call over a group's adverts -/

section Call

variable {state next : Identity} {group : GroupId}

/-- A group half taken back: the adverts of `done` the rule sends home are home, and every
other advert and property is as it was. -/
structure TakenBack (state : Identity) (group : GroupId) (done : List Nat) (next : Identity)
    (answers : List Detached) : Prop where
  sound : next.Sound
  adverts : next.adverts = state.adverts
  ledger : ∀ row ∈ next.ledger, ∃ old ∈ state.ledger,
    row.group = old.group ∧ row.survivor = old.survivor
  stayed : ∀ listing, (listing ∈ done → state.backTo group listing = none) →
    next.place listing = state.place listing ∧ next.liveMoves listing = state.liveMoves listing
  home : ∀ listing ∈ done, ∀ kept last, state.liveMoves listing = kept ++ [last] →
    state.backTo group listing = some last.prev → next.liveMoves listing = kept
  revived : ∀ listing ∈ done, ∀ property, state.backTo group listing = some property →
    next.standing property = some (.active, none)
  others : ∀ property, (∀ listing ∈ done, state.backTo group listing ≠ some property) →
    next.standing property = state.standing property
  told : answers.map (fun answer => (answer.listing, some answer.outcome)) =
    done.map fun listing => (listing, state.detachOutcome group listing)
  targets : ∀ answer ∈ answers, answer.outcome = .detached →
    answer.target = state.backTo group answer.listing

/-- Taking a group back leaves another rule's answer for an advert as it was, unless it took
the advert past a live row of that rule's group or brought its gone origin back. -/
theorem TakenBack.detachOutcome (sound : state.Sound) {done : List Nat} {answers : List Detached}
    (taken : TakenBack state group done next answers) {listing : Nat} {asked : GroupId}
    (apart : listing ∈ done → state.backTo group listing ≠ none →
      ∀ row ∈ state.liveMoves listing, row.group ≠ asked)
    (homes : ∀ kept last, state.liveMoves listing = kept ++ [last] → last.group = asked →
      originGone (state.property last.prev) [last] = true →
        ∀ other ∈ done, state.backTo group other ≠ some last.prev) :
    next.detachOutcome asked listing = state.detachOutcome asked listing := by
  have sameKnown : next.knows listing = state.knows listing := by
    unfold knows
    rw [taken.adverts]
  by_cases known : state.knows listing = true
  swap
  · unfold Identity.detachOutcome planDetach
    rw [sameKnown, if_neg known, if_neg known]
    rfl
  have knownNext : next.knows listing = true := sameKnown.trans known
  by_cases moved : listing ∈ done ∧ state.backTo group listing ≠ none
  · obtain ⟨held, back⟩ := moved
    obtain ⟨property, home⟩ := Option.ne_none_iff_exists'.mp back
    obtain ⟨kept, last, rows, _, rfl, _, _⟩ := backTo_eq_some sound home
    have foreign := apart held back
    have keptRows := taken.home listing held kept last rows home
    have unmerged : ∀ {table : Identity}, table.Sound → table.knows listing = true →
        (∀ row ∈ table.liveMoves listing, row.group ≠ asked) →
        table.detachOutcome asked listing = some .notMerged := by
      intro table tableSound tableKnown others
      cases groupRule tableSound tableKnown asked with
      | unmerged _ plan => exact detachOutcome_of_stays (by simp) plan
      | newest rows own _ => exact absurd own (others _ (by simp [rows]))
      | onOrigin rows own _ => exact absurd own (others _ (by simp [rows]))
      | movedOn _ among _ =>
          obtain ⟨row, held, same⟩ := among
          exact absurd same (others row held)
    rw [unmerged taken.sound knownNext ?_, unmerged sound known foreign]
    intro row live
    rw [keptRows] at live
    exact foreign row (rows ▸ List.mem_append_left _ live)
  · have still : listing ∈ done → state.backTo group listing = none := by
      intro held
      by_contra back
      exact moved ⟨held, back⟩
    obtain ⟨place, live⟩ := taken.stayed listing still
    have plan : next.planDetach listing (some asked) = state.planDetach listing (some asked) := by
      rw [planDetach_group knownNext, planDetach_group known, place, live]
    cases groupRule sound known asked with
    | unmerged _ stays_ =>
        rw [detachOutcome_of_stays (by simp) stays_,
          detachOutcome_of_stays (by simp) (place.symm ▸ plan.trans stays_)]
    | onOrigin _ _ stays_ =>
        rw [detachOutcome_of_stays (by simp) stays_,
          detachOutcome_of_stays (by simp) (place.symm ▸ plan.trans stays_)]
    | movedOn _ _ stays_ =>
        rw [detachOutcome_of_stays (by simp) stays_,
          detachOutcome_of_stays (by simp) (place.symm ▸ plan.trans stays_)]
    | @newest kept last rows own newest =>
        rw [detachOutcome_of_newest newest,
          detachOutcome_of_newest (place.symm ▸ plan.trans newest)]
        have same : originGone (next.property last.prev) [last] =
            originGone (state.property last.prev) [last] := by
          by_cases revived : ∃ other ∈ done, state.backTo group other = some last.prev
          · obtain ⟨other, held, home⟩ := revived
            rw [originGone_active (taken.revived other held last.prev home)]
            cases gone : originGone (state.property last.prev) [last] with
            | false => rfl
            | true => exact absurd home (homes kept last rows own gone other held)
          · refine originGone_congr (taken.others last.prev fun other held home => ?_)
            exact revived ⟨other, held, home⟩
        rw [same]

theorem TakenBack.backTo (sound : state.Sound) (grouped : state.Grouped) {done : List Nat}
    {answers : List Detached} (taken : TakenBack state group done next answers) {listing : Nat}
    (fresh : listing ∉ done) :
    next.detachOutcome group listing = state.detachOutcome group listing ∧
      next.backTo group listing = state.backTo group listing := by
  have outcome : next.detachOutcome group listing = state.detachOutcome group listing := by
    refine taken.detachOutcome sound (fun held => absurd held fresh) ?_
    -- Two rows of the group name one survivor, so an origin is gone for both or for neither.
    intro kept last rows own gone other held home
    obtain ⟨otherKept, otherLast, otherRows, otherOwn, _, stays_, _⟩ := backTo_eq_some sound home
    have lastHeld : last ∈ state.ledger :=
      (mem_liveMoves.mp (by rw [rows]; exact List.mem_append_right _ List.mem_cons_self)).1
    have otherHeld : otherLast ∈ state.ledger :=
      (mem_liveMoves.mp (by rw [otherRows]; exact List.mem_append_right _ List.mem_cons_self)).1
    have survivor := grouped last lastHeld otherLast otherHeld (own.trans otherOwn.symm)
    unfold originGone at gone stays_
    rw [List.head?_cons, Option.map_some] at gone stays_
    rw [survivor] at gone
    rw [gone] at stays_
    cases stays_
  refine ⟨outcome, ?_⟩
  unfold Identity.backTo
  rw [outcome, (taken.stayed listing fun held => absurd held fresh).2]

theorem TakenBack.told_concat {done : List Nat} {answers : List Detached}
    (taken : TakenBack state group done next answers) {answer : Detached}
    (same : some answer.outcome = state.detachOutcome group answer.listing) :
    (answers ++ [answer]).map (fun answer => (answer.listing, some answer.outcome)) =
      (done ++ [answer.listing]).map fun listing => (listing, state.detachOutcome group listing) := by
  rw [List.map_append, List.map_append, taken.told, List.map_singleton, List.map_singleton, same]

/-- One more advert, which the rule leaves where it is. -/
theorem TakenBack.stay (sound : state.Sound) {done : List Nat} {answers : List Detached}
    (taken : TakenBack state group done next answers) {answer : Detached}
    (still : state.backTo group answer.listing = none)
    (told : some answer.outcome = state.detachOutcome group answer.listing) :
    TakenBack state group (done ++ [answer.listing]) next (answers ++ [answer]) := by
  refine ⟨taken.sound, taken.adverts, taken.ledger, ?_, ?_, ?_, ?_, taken.told_concat told, ?_⟩
  · exact fun other held => taken.stayed other fun earlier =>
      held (List.mem_append_left _ earlier)
  · intro other held kept last rows home
    cases List.mem_append.mp held with
    | inl earlier => exact taken.home other earlier kept last rows home
    | inr new =>
        rw [List.mem_singleton.mp new, still] at home
        cases home
  · intro other held property home
    cases List.mem_append.mp held with
    | inl earlier => exact taken.revived other earlier property home
    | inr new =>
        rw [List.mem_singleton.mp new, still] at home
        cases home
  · exact fun property apart => taken.others property fun other held =>
      apart other (List.mem_append_left _ held)
  · intro other held detached
    cases List.mem_append.mp held with
    | inl earlier => exact taken.targets other earlier detached
    | inr new =>
        cases List.mem_singleton.mp new
        rw [detached] at told
        obtain ⟨last, ends⟩ := exists_backTo sound told.symm
        rw [ends] at still
        cases still

/-- One more advert, which the rule sends home. -/
theorem TakenBack.goHome {done : List Nat} {answers : List Detached}
    (taken : TakenBack state group done next answers) {after : Identity} {answer : Detached}
    (fresh : answer.listing ∉ done) {kept : List LedgerRow} {last : LedgerRow}
    (rows : state.liveMoves answer.listing = kept ++ [last])
    (home : state.backTo group answer.listing = some last.prev)
    (moved : Moved answer.listing last.prev kept next after)
    (ledger : ∀ row ∈ after.ledger, ∃ old ∈ next.ledger,
      row.group = old.group ∧ row.survivor = old.survivor)
    (told : some answer.outcome = state.detachOutcome group answer.listing)
    (target : answer.target = some last.prev) :
    TakenBack state group (done ++ [answer.listing]) after (answers ++ [answer]) := by
  refine ⟨moved.sound taken.sound, moved.adverts.trans taken.adverts, ?_, ?_, ?_, ?_, ?_,
    taken.told_concat told, ?_⟩
  · intro row held
    obtain ⟨middle, middleHeld, group_, survivor⟩ := ledger row held
    obtain ⟨old, oldHeld, oldGroup, oldSurvivor⟩ := taken.ledger middle middleHeld
    exact ⟨old, oldHeld, group_.trans oldGroup, survivor.trans oldSurvivor⟩
  · intro other held
    have differ : other ≠ answer.listing := by
      rintro rfl
      have none_ := held (List.mem_append_right _ List.mem_cons_self)
      rw [home] at none_
      cases none_
    rw [moved.place, moved.rows, if_neg differ, if_neg differ]
    exact taken.stayed other fun earlier => held (List.mem_append_left _ earlier)
  · intro other held otherKept otherLast otherRows otherHome
    rw [moved.rows]
    cases List.mem_append.mp held with
    | inl earlier =>
        have differ : other ≠ answer.listing := fun same => fresh (same ▸ earlier)
        rw [if_neg differ]
        exact taken.home other earlier otherKept otherLast otherRows otherHome
    | inr new =>
        cases List.mem_singleton.mp new
        rw [if_pos rfl]
        rw [rows] at otherRows
        exact List.append_inj_left' otherRows rfl
  · intro other held property otherHome
    by_cases same : property = last.prev
    · rw [same]
      exact moved.stands
    · rw [moved.others property same]
      cases List.mem_append.mp held with
      | inl earlier => exact taken.revived other earlier property otherHome
      | inr new =>
          rw [List.mem_singleton.mp new, home] at otherHome
          exact absurd (Option.some.inj otherHome).symm same
  · intro property apart
    have same : property ≠ last.prev := by
      rintro rfl
      exact apart answer.listing (List.mem_append_right _ List.mem_cons_self) home
    rw [moved.others property same]
    exact taken.others property fun other held => apart other (List.mem_append_left _ held)
  · intro other held detached
    cases List.mem_append.mp held with
    | inl earlier => exact taken.targets other earlier detached
    | inr new =>
        cases List.mem_singleton.mp new
        rw [target, home]

/-- One more advert of the group. -/
theorem TakenBack.step (sound : state.Sound) (grouped : state.Grouped) {done : List Nat}
    {answers : List Detached} (taken : TakenBack state group done next answers) {listing : Nat}
    (known : state.knows listing = true) (fresh : listing ∉ done) (birthGroup : GroupId) :
    TakenBack state group (done ++ [listing])
      (next.detachOne listing (state.place listing) (some group) false birthGroup).1
      (answers ++
        [(next.detachOne listing (state.place listing) (some group) false birthGroup).2]) := by
  have knownNext : next.knows listing = true := by
    unfold knows
    rw [taken.adverts]
    exact known
  obtain ⟨place, rows_⟩ := taken.stayed listing fun held => absurd held fresh
  obtain ⟨outcome, home_⟩ := taken.backTo sound grouped fresh
  obtain ⟨answered, named⟩ := detachOne_answers taken.sound knownNext group birthGroup
  rw [place] at answered named
  generalize next.detachOne listing (state.place listing) (some group) false birthGroup = turn
    at answered named
  obtain ⟨after, answer⟩ := turn
  subst named
  cases answered with
  | stayed still same told =>
      obtain rfl : after = next := same
      exact taken.stay sound (home_.symm.trans still) (told.trans outcome)
  | @back kept last rows home moved ledger detached target =>
      have went := home_.symm.trans home
      obtain ⟨_, _, _, _, _, _, mine⟩ := backTo_eq_some sound went
      refine taken.goHome fresh (rows_.symm.trans rows) went moved ledger ?_ target
      rw [mine]
      exact congrArg some detached

theorem TakenBack.grouped (grouped : state.Grouped) {done : List Nat} {answers : List Detached}
    (taken : TakenBack state group done next answers) : next.Grouped := by
  intro one oneHeld other otherHeld same
  obtain ⟨old, oldHeld, oldGroup, oldSurvivor⟩ := taken.ledger one oneHeld
  obtain ⟨second, secondHeld, secondGroup, secondSurvivor⟩ := taken.ledger other otherHeld
  rw [oldSurvivor, secondSurvivor]
  exact grouped old oldHeld second secondHeld (by rw [← oldGroup, ← secondGroup, same])

/-- The answers of one kind are those the rule gives the adverts. -/
theorem TakenBack.answers_filter {done : List Nat} {answers : List Detached}
    (taken : TakenBack state group done next answers) (picks : Outcome → Bool) :
    (answers.filter fun answer => picks answer.outcome).map Detached.listing =
      done.filter fun listing => (state.detachOutcome group listing).any picks := by
  have told := taken.told
  clear taken
  induction answers generalizing done with
  | nil =>
      cases done with
      | nil => rfl
      | cons listing rest => cases told
  | cons answer answers ih =>
      cases done with
      | nil => cases told
      | cons listing rest =>
          obtain ⟨first, others⟩ := List.cons.inj told
          obtain ⟨named, outcome⟩ := Prod.mk.inj first
          rw [List.filter_cons, List.filter_cons, ← outcome, Option.any_some, ← ih others, ← named]
          split_ifs <;> rfl

theorem TakenBack.propertiesChanged {done : List Nat} {answers : List Detached}
    (taken : TakenBack state group done next answers) (ids : List Nat) :
    TakenBack state group done (next.propertiesChanged ids) answers :=
  ⟨taken.sound.propertiesChanged ids, taken.adverts, taken.ledger, taken.stayed, taken.home,
    fun listing held property home =>
      (standing_propertiesChanged ids property).trans (taken.revived listing held property home),
    fun property apart =>
      (standing_propertiesChanged ids property).trans (taken.others property apart),
    taken.told, taken.targets⟩

/-- A group's detach over known adverts answers the rule for each, and takes back what it says. -/
theorem detachListings_group (sound : state.Sound) (grouped : state.Grouped) {listings : List Nat}
    (known : ∀ listing ∈ listings, state.knows listing = true) (distinct : listings.Nodup)
    (births : Nat → GroupId) :
    ∃ next answers, state.detachListings listings (some group) [] births =
        some (next, answers) ∧
      TakenBack state group listings next answers := by
  obtain ⟨ids, called⟩ := @detachListings_eq state listings (some group) [] births known
  rw [eraseDups_of_nodup distinct] at called
  refine ⟨_, _, called, TakenBack.propertiesChanged ?_ ids⟩
  have steps : ∀ (rest done : List Nat) (each : Identity × List Detached),
      TakenBack state group done each.1 each.2 → (done ++ rest).Nodup →
      (∀ listing ∈ rest, state.knows listing = true) →
      let final := rest.foldl (fun (each : Identity × List Detached) listing =>
        ((each.1.detachOne listing (state.place listing) (some group) (List.contains [] listing)
            (births listing)).1,
          each.2 ++ [(each.1.detachOne listing (state.place listing) (some group)
            (List.contains [] listing) (births listing)).2])) each
      TakenBack state group (done ++ rest) final.1 final.2 := by
    intro rest
    induction rest with
    | nil =>
        intro done each taken _ _
        rw [List.append_nil]
        exact taken
    | cons listing rest ih =>
        intro done each taken apart known
        have fresh : listing ∉ done := fun held =>
          (List.nodup_append'.mp apart).2.2 held List.mem_cons_self
        have stepped := taken.step sound grouped (known listing List.mem_cons_self) fresh
          (births listing)
        have order : done ++ listing :: rest = (done ++ [listing]) ++ rest := by simp
        rw [List.foldl_cons, order]
        exact ih (done ++ [listing]) _ stepped (order ▸ apart) fun other held =>
          known other (List.mem_cons_of_mem _ held)
  exact steps listings [] (state, [])
    ⟨sound, rfl, fun row held => ⟨row, held, rfl, rfl⟩, fun _ _ => ⟨rfl, rfl⟩, by simp, by simp,
      fun _ _ => rfl, rfl, by simp⟩
    (by simpa using distinct) known

end Call

end Identity

end Sreality.Toolkit
