import Mathlib.Data.List.Induction
import Mathlib.Order.CompletePartialOrder
import Mathlib.Order.Interval.Set.Basic
import Mathlib.Tactic.FieldSimp
import Mathlib.Tactic.Linarith
import Mathlib.Tactic.Ring
import Sreality.Foundation.Ranked
import Sreality.Scripts.PriceLineage

/-! The price history telescopes: the lineage falls through adverts that never ran at one time, and
the steps counted over it compound to the change from the oldest priced price to the last. -/

set_option autoImplicit false

namespace Sreality.Scripts.PriceLineage

open Sreality.Foundation

/-! ### The lineage -/

variable {adverts : List Advert} {canonical link : Advert}

theorem predecessor_some {earlier : Advert} (found : predecessor adverts link = some earlier) :
    earlier ∈ adverts ∧ earlier.source = link.source ∧ earlier.lastSeenAt < link.firstSeenAt ∧
      earlier.firstSeenAt < link.firstSeenAt := by
  obtain ⟨held, fits⟩ := List.mem_filter.mp (least_of_head?_sortedBy found).1
  exact ⟨held, of_decide_eq_true fits⟩

/-- The adverts first seen before a link: so many hops at most are left. -/
def before (adverts : List Advert) (link : Advert) : List Advert :=
  adverts.filter fun advert => decide (advert.firstSeenAt < link.firstSeenAt)

theorem before_falls {earlier : Advert} (found : predecessor adverts link = some earlier) :
    (before adverts earlier).length < (before adverts link).length := by
  obtain ⟨held, _, _, older⟩ := predecessor_some found
  have kept : before adverts earlier =
      (before adverts link).filter fun advert =>
        decide (advert.firstSeenAt < earlier.firstSeenAt) := by
    unfold before
    rw [List.filter_filter]
    apply List.filter_congr
    intro advert _
    by_cases less : advert.firstSeenAt < earlier.firstSeenAt
    · simp [less, less.trans older]
    · simp [less]
  rw [kept]
  apply List.length_filter_lt_length_iff_exists.mpr
  refine ⟨earlier, List.mem_filter.mpr ⟨held, decide_eq_true older⟩, ?_⟩
  simp

theorem head_linksFrom (hops : Nat) : (linksFrom adverts hops link).head? = some link := by
  cases hops <;> rfl

/-- The recursion has come to its end within so many hops. -/
theorem linksFrom_ends {hops : Nat} : ∀ {link last : Advert},
    (before adverts link).length ≤ hops → (linksFrom adverts hops link).getLast? = some last →
      predecessor adverts last = none := by
  induction hops with
  | zero =>
      intro link last few found
      have same : link = last := by simpa [linksFrom] using found
      subst same
      cases earlier : predecessor adverts link with
      | none => rfl
      | some other =>
          have fewer := before_falls earlier
          omega
  | succ hops ih =>
      intro link last few found
      unfold linksFrom at found
      cases earlier : predecessor adverts link with
      | none =>
          rw [earlier] at found
          cases found
          exact earlier
      | some other =>
          rw [earlier] at found
          dsimp only at found
          have fewer := before_falls earlier
          have begun := @head_linksFrom adverts other hops
          obtain ⟨rest, shape⟩ := List.head?_eq_some_iff.mp begun
          refine @ih other last (by omega) ?_
          rw [shape] at found ⊢
          rw [← found, List.getLast?_cons_cons]

/-- What holds of every link after the first, of those before it too. -/
theorem linksFrom_falls {hops : Nat} : ∀ {link : Advert}, link ∈ adverts →
    (∀ other ∈ linksFrom adverts hops link, other ∈ adverts ∧ other.source = link.source ∧
      (other = link ∨ other.lastSeenAt < link.firstSeenAt ∧
        other.firstSeenAt < link.firstSeenAt)) ∧
    (linksFrom adverts hops link).Pairwise fun newer older =>
      older.lastSeenAt < newer.firstSeenAt ∧ older.firstSeenAt < newer.firstSeenAt := by
  induction hops with
  | zero =>
      intro link held
      refine ⟨fun other listed => ?_, List.pairwise_singleton _ _⟩
      rw [List.mem_singleton.mp listed]
      exact ⟨held, rfl, .inl rfl⟩
  | succ hops ih =>
      intro link held
      unfold linksFrom
      cases earlier : predecessor adverts link with
      | none =>
          refine ⟨fun other listed => ?_, List.pairwise_singleton _ _⟩
          rw [List.mem_singleton.mp listed]
          exact ⟨held, rfl, .inl rfl⟩
      | some next =>
          obtain ⟨nextHeld, portal, apart, older⟩ := predecessor_some earlier
          obtain ⟨facts, falls⟩ := ih nextHeld
          have below : ∀ other ∈ linksFrom adverts hops next,
              other.lastSeenAt < link.firstSeenAt ∧ other.firstSeenAt < link.firstSeenAt := by
            intro other listed
            rcases (facts other listed).2.2 with rfl | ⟨last, first⟩
            · exact ⟨apart, older⟩
            · exact ⟨last.trans older, first.trans older⟩
          refine ⟨fun other listed => ?_, List.pairwise_cons.mpr ⟨below, falls⟩⟩
          rcases List.mem_cons.mp listed with rfl | later
          · exact ⟨held, rfl, .inl rfl⟩
          · exact ⟨(facts other later).1, (facts other later).2.1.trans portal,
              .inr (below other later)⟩

/-- The lineage of a canonical advert. -/
structure LineageSound (adverts : List Advert) (canonical : Advert) (links : List Advert) :
    Prop where
  begins : links.head? = some canonical
  ends : ∀ last, links.getLast? = some last → predecessor adverts last = none
  listed : ∀ link ∈ links, link ∈ adverts
  distinct : (links.map (·.id)).Nodup
  portal : ∀ link ∈ links, link.source = canonical.source
  falls : links.Pairwise fun newer older => older.firstSeenAt < newer.firstSeenAt
  apart : links.Pairwise fun newer older =>
    Disjoint (Set.Icc newer.firstSeenAt newer.lastSeenAt)
      (Set.Icc older.firstSeenAt older.lastSeenAt)

theorem lineage_sound (keyed : Keyed Advert.id adverts) (held : canonical ∈ adverts) :
    LineageSound adverts canonical (lineage adverts canonical) := by
  obtain ⟨facts, falls⟩ := @linksFrom_falls adverts adverts.length canonical held
  have links : ∀ link ∈ lineage adverts canonical, link ∈ adverts := fun link listed =>
    (facts link listed).1
  refine ⟨head_linksFrom _, fun last found => ?_, links, ?_, fun link listed =>
    (facts link listed).2.1, falls.imp fun both => both.2, falls.imp fun both => ?_⟩
  · exact linksFrom_ends (List.length_filter_le _ _) found
  · refine List.Nodup.map_on (fun one oneIn other otherIn same =>
      keyed.eq (links one oneIn) (links other otherIn) same) ?_
    refine falls.imp fun both same => ?_
    rw [same] at both
    exact both.2.false
  · rw [Set.disjoint_left]
    intro time newer older
    linarith [newer.1, older.2, both.1]

/-! ### The points of an advert -/

def Step.ratio (step : Step) : ℚ := (step.price : ℚ) / step.prevPrice

/-- Priced snapshots of distinct ids, each price positive. -/
structure Points (points : List PricePoint) : Prop where
  keyed : Keyed PricePoint.id points
  positive : ∀ point ∈ points, 0 < point.price

/-- In the order of `scraped_at, id`. -/
def Chronological (points : List PricePoint) : Prop :=
  points.Pairwise fun earlier later => earlier.order < later.order

variable {points : List PricePoint}

namespace Points

theorem order_inj (sound : Points points) : ∀ one ∈ points, ∀ other ∈ points,
    one.order = other.order → one = other := by
  intro one oneIn other otherIn same
  have ids := congrArg (fun order => (ofLex order).2) same
  exact sound.keyed.eq oneIn otherIn (by simpa [PricePoint.order] using ids)

theorem orderDesc_inj (sound : Points points) : ∀ one ∈ points, ∀ other ∈ points,
    one.orderDesc = other.orderDesc → one = other := by
  intro one oneIn other otherIn same
  have ids := congrArg (fun order => (ofLex order).2) same
  exact sound.keyed.eq oneIn otherIn (by simpa [PricePoint.orderDesc] using ids)

theorem chronological (sound : Points points) :
    Chronological (sortedBy PricePoint.order points) := by
  have weak := pairwise_sortedBy PricePoint.order points
  have apart : (sortedBy PricePoint.order points).Pairwise fun one other => one ≠ other :=
    nodup_sortedBy.mpr sound.keyed.nodup
  refine (weak.and apart).imp_of_mem fun {one other} oneIn otherIn both => ?_
  refine lt_of_le_of_ne both.1 fun same => both.2 ?_
  exact sound.order_inj one (mem_sortedBy.mp oneIn) other (mem_sortedBy.mp otherIn) same

theorem of_perm (sound : Points points) {others : List PricePoint} (same : points.Perm others) :
    Points others where
  keyed := (same.map PricePoint.id).nodup_iff.mp sound.keyed
  positive := fun point held => sound.positive point (same.mem_iff.mpr held)

/-- The lateral does not read the order of the snapshots. -/
theorem previous_perm (sound : Points points) {others : List PricePoint}
    (same : points.Perm others) (point : PricePoint) :
    previous points point = previous others point := by
  unfold previous
  rw [sortedBy_eq_of_perm (same.filter _)]
  intro one oneIn other otherIn
  exact sound.orderDesc_inj one (List.mem_of_mem_filter oneIn) other
    (List.mem_of_mem_filter otherIn)

end Points

theorem orderDesc_lt {one other : PricePoint} (before : one.order < other.order) :
    other.orderDesc < one.orderDesc := by
  rw [PricePoint.order, PricePoint.order, Prod.Lex.toLex_lt_toLex] at before
  rw [PricePoint.orderDesc, PricePoint.orderDesc, Prod.Lex.toLex_lt_toLex]
  rcases before with time | ⟨time, id⟩
  · exact .inl (neg_lt_neg time)
  · exact .inr ⟨congrArg (fun value : ℚ => -value) time.symm, neg_lt_neg id⟩

theorem scrapedAt_le {one other : PricePoint} (before : one.order < other.order) :
    one.scrapedAt ≤ other.scrapedAt := by
  rw [PricePoint.order, PricePoint.order, Prod.Lex.toLex_lt_toLex] at before
  rcases before with time | ⟨time, _⟩
  · exact time.le
  · exact time.le

namespace Chronological

theorem newest_first (ordered : Chronological points) :
    (sortedBy PricePoint.orderDesc points).head? = points.getLast? := by
  rw [sortedBy_of_falls (ordered.imp orderDesc_lt), List.head?_reverse]

/-- The point before the last, and before each of the others as if the last were not there. -/
theorem previous_concat {last : PricePoint} (ordered : Chronological (points ++ [last])) :
    previous (points ++ [last]) last = points.getLast? ∧
      ∀ point ∈ points, previous (points ++ [last]) point = previous points point := by
  obtain ⟨front, _, below⟩ := List.pairwise_append.mp ordered
  have under : ∀ point ∈ points, point.order < last.order := fun point held =>
    below point held last (List.mem_singleton_self _)
  constructor
  · unfold previous
    have early : (points.filter fun earlier =>
        decide (earlier.scrapedAt ≤ last.scrapedAt ∧ earlier.order < last.order)) = points := by
      rw [List.filter_eq_self]
      intro point held
      exact decide_eq_true ⟨scrapedAt_le (under point held), under point held⟩
    rw [List.filter_append, early, List.filter_cons_of_neg (by simp), List.filter_nil,
      List.append_nil]
    exact newest_first front
  · intro point held
    unfold previous
    have late : ¬last.order < point.order := (under point held).asymm
    rw [List.filter_append, List.filter_cons_of_neg (by simp [late]), List.filter_nil,
      List.append_nil]

end Chronological

/-! ### The steps of an advert compound -/

/-- The ratios of a list of steps, multiplied. -/
def compound (steps : List Step) : ℚ := (steps.map Step.ratio).prod

theorem compound_append (first second : List Step) :
    compound (first ++ second) = compound first * compound second := by
  unfold compound
  rw [List.map_append, List.prod_append]

/-- The step into a point, when its price differs from the previous one. -/
def stepInto (points : List PricePoint) (point : PricePoint) : Option Step :=
  match previous points point with
  | none => none
  | some earlier =>
      if point.price ≠ earlier.price then
        some { scrapedAt := point.scrapedAt, price := point.price, prevPrice := earlier.price }
      else none

theorem ownSteps_eq : ownSteps points = points.filterMap (stepInto points) := rfl

theorem ownSteps_perm (sound : Points points) {others : List PricePoint}
    (same : points.Perm others) : (ownSteps points).Perm (ownSteps others) := by
  have alike : stepInto points = stepInto others := by
    funext point
    unfold stepInto
    rw [sound.previous_perm same point]
  rw [ownSteps_eq, ownSteps_eq, alike]
  exact same.filterMap _

theorem ownSteps_concat {last : PricePoint} (ordered : Chronological (points ++ [last])) :
    ownSteps (points ++ [last]) =
      ownSteps points ++ (stepInto (points ++ [last]) last).toList := by
  rw [ownSteps_eq, ownSteps_eq, List.filterMap_append]
  have early : points.filterMap (stepInto (points ++ [last])) =
      points.filterMap (stepInto points) := by
    apply List.filterMap_congr
    intro point held
    unfold stepInto
    rw [ordered.previous_concat.2 point held]
  rw [early]
  cases into : stepInto (points ++ [last]) last <;> simp [into]

/-- A step left out is one of equal prices. -/
theorem compound_stepInto {point earlier : PricePoint}
    (found : previous points point = some earlier) (positive : 0 < earlier.price) :
    compound (stepInto points point).toList = (point.price : ℚ) / earlier.price := by
  unfold stepInto
  rw [found]
  by_cases same : point.price = earlier.price
  · have one : (earlier.price : ℚ) ≠ 0 := by exact_mod_cast positive.ne'
    simp [compound, same, one]
  · simp [compound, same, Step.ratio]

theorem compound_chronological : ∀ {points : List PricePoint} {first last : PricePoint},
    Chronological points → (∀ point ∈ points, 0 < point.price) → points.head? = some first →
      points.getLast? = some last →
        compound (ownSteps points) = (last.price : ℚ) / first.price := by
  intro points
  induction points using List.reverseRecOn with
  | nil =>
      intro first last _ _ begins
      cases begins
  | append_singleton front newest ih =>
      intro first last ordered positive begins ends
      rw [List.getLast?_concat] at ends
      cases ends
      obtain ⟨early, _, _⟩ := List.pairwise_append.mp ordered
      have held : ∀ point ∈ front, 0 < point.price := fun point listed =>
        positive point (List.mem_append_left _ listed)
      have into := ordered.previous_concat.1
      rw [ownSteps_concat ordered, compound_append]
      cases shape : front.getLast? with
      | none =>
          rw [List.getLast?_eq_none_iff] at shape
          subst shape
          cases begins
          have one : (newest.price : ℚ) ≠ 0 := by
            exact_mod_cast (positive newest (by simp)).ne'
          have alone : previous [newest] newest = none := into
          have nothing : stepInto [newest] newest = none := by
            unfold stepInto
            rw [alone]
          have none_ : ownSteps ([] : List PricePoint) = [] := rfl
          rw [List.nil_append, nothing, none_, div_self one]
          simp [compound]
      | some earlier =>
          rw [shape] at into
          have listed := List.mem_of_getLast? shape
          have begun : front.head? = some first := by
            rw [List.head?_append_of_ne_nil _ (List.ne_nil_of_mem listed)] at begins
            exact begins
          have firstIn := List.mem_of_head? begun
          have one : (first.price : ℚ) ≠ 0 := by exact_mod_cast (held first firstIn).ne'
          have two : (earlier.price : ℚ) ≠ 0 := by exact_mod_cast (held earlier listed).ne'
          rw [ih early held begun shape, compound_stepInto into (held earlier listed)]
          field_simp

/-- The steps of an advert compound to its last price over its first. -/
theorem compound_ownSteps (sound : Points points) {hop : Nat} {member : Member}
    (counts : memberOf points hop = some member) :
    compound (ownSteps points) = (member.lastPrice : ℚ) / member.firstPrice ∧
      0 < member.firstPrice ∧ 0 < member.lastPrice ∧ member.hop = hop := by
  have ordered := sound.chronological
  have same := sortedBy_perm PricePoint.order points
  have sorted := sound.of_perm same.symm
  have newest : (sortedBy PricePoint.orderDesc points).head? =
      (sortedBy PricePoint.order points).getLast? := by
    rw [← ordered.newest_first, sortedBy_eq_of_perm same sorted.orderDesc_inj]
  unfold memberOf at counts
  rw [newest] at counts
  split at counts
  · rename_i first last firstAt begins ends _
    cases counts
    have firstIn := List.mem_of_head? begins
    have lastIn := List.mem_of_getLast? ends
    refine ⟨?_, sorted.positive first firstIn, sorted.positive last lastIn, rfl⟩
    unfold compound
    rw [((ownSteps_perm sound same.symm).map Step.ratio).prod_eq]
    exact compound_chronological ordered sorted.positive begins ends
  · cases counts

/-- An advert without a priced snapshot has no step. -/
theorem memberOf_eq_none {hop : Nat} : memberOf points hop = none ↔ points = [] := by
  constructor
  · intro absent
    by_contra some_
    obtain ⟨point, held⟩ := List.exists_mem_of_ne_nil _ some_
    have first : (sortedBy PricePoint.order points).head? ≠ none := by
      rw [Ne, List.head?_eq_none_iff, sortedBy_eq_nil]
      exact some_
    have last : (sortedBy PricePoint.orderDesc points).head? ≠ none := by
      rw [Ne, List.head?_eq_none_iff, sortedBy_eq_nil]
      exact some_
    have firstAt : (points.map (·.scrapedAt)).min? ≠ none := by
      rw [Ne, List.min?_eq_none_iff, List.map_eq_nil_iff]
      exact some_
    obtain ⟨one, begins⟩ := Option.ne_none_iff_exists'.mp first
    obtain ⟨two, ends⟩ := Option.ne_none_iff_exists'.mp last
    obtain ⟨three, starts⟩ := Option.ne_none_iff_exists'.mp firstAt
    unfold memberOf at absent
    rw [begins, ends, starts] at absent
    cases absent
  · rintro rfl
    rfl

/-! ### The steps of the lineage compound -/

/-- What a member counts for with its own steps. -/
def Member.own (member : Member) : ℚ := (member.lastPrice : ℚ) / member.firstPrice

structure Member.Positive (member : Member) : Prop where
  first : 0 < member.firstPrice
  last : 0 < member.lastPrice

/-- The handovers bridge the members' own steps. -/
theorem compound_handovers : ∀ {newest : Member} {older : List Member} {oldest : Member},
    (∀ member ∈ newest :: older, member.Positive) → (newest :: older).getLast? = some oldest →
      compound (handovers (newest :: older)) * ((newest :: older).map Member.own).prod =
        (newest.lastPrice : ℚ) / oldest.firstPrice := by
  intro newest older
  induction older generalizing newest with
  | nil =>
      intro oldest positive ends
      cases ends
      simp [compound, handovers, Member.own]
  | cons next rest ih =>
      intro oldest positive ends
      have last : (next :: rest).getLast? = some oldest := by
        rw [← ends, List.getLast?_cons_cons]
      have later := ih (fun member listed => positive member (List.mem_cons_of_mem _ listed)) last
      have bridge : compound (handovers (newest :: next :: rest)) =
          (newest.firstPrice : ℚ) / next.lastPrice * compound (handovers (next :: rest)) := by
        have two : (next.lastPrice : ℚ) ≠ 0 := by
          exact_mod_cast (positive next (by simp)).last.ne'
        by_cases same : newest.firstPrice = next.lastPrice
        · simp [handovers, compound, same, two]
        · simp [handovers, compound, same, Step.ratio]
      have one : (newest.firstPrice : ℚ) ≠ 0 := by
        exact_mod_cast (positive newest (by simp)).first.ne'
      have two : (next.lastPrice : ℚ) ≠ 0 := by
        exact_mod_cast (positive next (by simp)).last.ne'
      calc compound (handovers (newest :: next :: rest)) *
            ((newest :: next :: rest).map Member.own).prod
          = (newest.firstPrice : ℚ) / next.lastPrice * newest.own *
              (compound (handovers (next :: rest)) * ((next :: rest).map Member.own).prod) := by
            rw [bridge, List.map_cons, List.prod_cons]
            ring
        _ = (newest.firstPrice : ℚ) / next.lastPrice * newest.own *
              ((next.lastPrice : ℚ) / oldest.firstPrice) := by rw [later]
        _ = (newest.lastPrice : ℚ) / oldest.firstPrice := by
            unfold Member.own
            field_simp

section Property

variable {snapshots : List Snapshot} {links : List Advert}

/-- `members` from a hop on. -/
def membersFrom (snapshots : List Snapshot) (hop : Nat) (links : List Advert) : List Member :=
  (links.zipIdx hop).filterMap fun link => memberOf (priced snapshots link.1) link.2

theorem membersFrom_cons {hop : Nat} {link : Advert} {rest : List Advert} :
    membersFrom snapshots hop (link :: rest) =
      (memberOf (priced snapshots link) hop).toList ++ membersFrom snapshots (hop + 1) rest := by
  unfold membersFrom
  rw [List.zipIdx_cons]
  cases counts : memberOf (priced snapshots link) hop <;> simp [counts]

/-- The snapshots have distinct ids, and a price is positive. -/
structure Snapshots (snapshots : List Snapshot) : Prop where
  keyed : Keyed Snapshot.id snapshots
  positive : ∀ snapshot ∈ snapshots, ∀ price, snapshot.priceCzk = some price → 0 < price

theorem Snapshots.priced (sound : Snapshots snapshots) (link : Advert) :
    Points (priced snapshots link) := by
  constructor
  · have ids : (snapshots.filter fun snapshot =>
        decide (snapshot.listingId = link.id)).Pairwise fun one other => one.id ≠ other.id :=
      List.pairwise_map.mp (sound.keyed.filter _)
    refine List.pairwise_map.mpr (List.pairwise_filterMap.mpr
      (ids.imp fun apart one oneMade other otherMade same => ?_))
    obtain ⟨_, _, rfl⟩ := Option.map_eq_some_iff.mp oneMade
    obtain ⟨_, _, rfl⟩ := Option.map_eq_some_iff.mp otherMade
    exact apart same
  · intro point held
    obtain ⟨snapshot, listed, priced⟩ := List.mem_filterMap.mp held
    obtain ⟨price, known, rfl⟩ := Option.map_eq_some_iff.mp priced
    exact sound.positive snapshot (List.mem_of_mem_filter listed) price known

theorem mem_membersFrom {hop : Nat} {member : Member}
    (counted : member ∈ membersFrom snapshots hop links) :
    ∃ link ∈ links, ∃ own, hop ≤ own ∧ memberOf (priced snapshots link) own = some member := by
  obtain ⟨⟨link, own⟩, listed, counts⟩ := List.mem_filterMap.mp counted
  obtain ⟨from_, _, here⟩ := List.mem_zipIdx listed
  exact ⟨link, here ▸ List.getElem_mem _, own, from_, counts⟩

theorem Snapshots.member_positive (sound : Snapshots snapshots) {hop : Nat} {member : Member}
    (counted : member ∈ membersFrom snapshots hop links) :
    member.Positive ∧ hop ≤ member.hop := by
  obtain ⟨link, _, own, from_, counts⟩ := mem_membersFrom counted
  obtain ⟨_, first, last, same⟩ := compound_ownSteps (sound.priced link) counts
  exact ⟨⟨first, last⟩, same ▸ from_⟩

/-- The own steps of the links compound to what the members count for. -/
theorem compound_links (sound : Snapshots snapshots) (hop : Nat) :
    compound (links.flatMap fun link => ownSteps (priced snapshots link)) =
      ((membersFrom snapshots hop links).map Member.own).prod := by
  induction links generalizing hop with
  | nil => rfl
  | cons link rest ih =>
      rw [List.flatMap_cons, compound_append, ih (hop + 1), membersFrom_cons, List.map_append,
        List.prod_append]
      congr 1
      cases counts : memberOf (priced snapshots link) hop with
      | none =>
          rw [memberOf_eq_none.mp counts]
          rfl
      | some member =>
          rw [(compound_ownSteps (sound.priced link) counts).1]
          simp [Member.own]

/-- The members stand in the order of their hops. -/
theorem Snapshots.hops_rise (sound : Snapshots snapshots) (hop : Nat) :
    (membersFrom snapshots hop links).Pairwise fun newer older => newer.hop < older.hop := by
  induction links generalizing hop with
  | nil => exact List.Pairwise.nil
  | cons link rest ih =>
      rw [membersFrom_cons]
      cases counts : memberOf (PriceLineage.priced snapshots link) hop with
      | none => simpa using ih (hop + 1)
      | some member =>
          rw [Option.toList_some, List.singleton_append]
          refine List.pairwise_cons.mpr ⟨fun older listed => ?_, ih (hop + 1)⟩
          have later := (sound.member_positive listed).2
          have own := (compound_ownSteps (sound.priced link) counts).2.2.2
          omega

/-- With a priced canonical advert the steps compound to the last price over the first. -/
theorem compound_steps (sound : Snapshots snapshots) {canonical : Advert}
    (begins : links.head? = some canonical) (known : priced snapshots canonical ≠ []) :
    ∃ first last : Nat, (lineageSpan (members snapshots links)).firstPrice = some first ∧
      (lineageSpan (members snapshots links)).lastPrice = some last ∧ 0 < first ∧
        compound (steps snapshots links) = (last : ℚ) / first := by
  obtain ⟨rest, rfl⟩ := List.head?_eq_some_iff.mp begins
  cases counts : memberOf (priced snapshots canonical) 0 with
  | none => exact absurd (memberOf_eq_none.mp counts) known
  | some newest =>
      have shape : members snapshots (canonical :: rest) =
          newest :: membersFrom snapshots 1 rest := by
        change membersFrom snapshots 0 (canonical :: rest) = _
        rw [membersFrom_cons, counts]
        rfl
      have rise : (members snapshots (canonical :: rest)).Pairwise fun newer older =>
          newer.hop < older.hop := sound.hops_rise 0
      have positive : ∀ member ∈ newest :: membersFrom snapshots 1 rest, member.Positive := by
        intro member listed
        rw [← shape] at listed
        exact (@Snapshots.member_positive snapshots (canonical :: rest) sound 0 member listed).1
      obtain ⟨oldest, last⟩ : ∃ oldest,
          (newest :: membersFrom snapshots 1 rest).getLast? = some oldest :=
        Option.ne_none_iff_exists'.mp (by simp)
      have first := positive oldest (List.mem_of_getLast? last)
      have hop : newest.hop = 0 := (compound_ownSteps (sound.priced canonical) counts).2.2.2
      refine ⟨oldest.firstPrice, newest.lastPrice, ?_, ?_, first.first, ?_⟩
      · have falls : (members snapshots (canonical :: rest)).Pairwise fun newer older =>
            -(older.hop : ℤ) < -(newer.hop : ℤ) := rise.imp fun less => by omega
        simp only [lineageSpan]
        rw [sortedBy_of_falls falls, List.head?_reverse, shape, last]
        rfl
      · simp only [lineageSpan]
        rw [shape, List.filter_cons_of_pos (by simpa using hop)]
        rfl
      · unfold steps
        rw [compound_append, compound_links sound 0, shape, mul_comm]
        change _ * ((members snapshots (canonical :: rest)).map Member.own).prod = _
        rw [shape]
        exact compound_handovers positive last

/-! ### The columns -/

/-- A counted step changes the price. -/
theorem step_changes {step : Step} (counted : step ∈ steps snapshots links) :
    step.price ≠ step.prevPrice := by
  unfold steps at counted
  rcases List.mem_append.mp counted with own | handed
  · obtain ⟨link, _, listed⟩ := List.mem_flatMap.mp own
    obtain ⟨point, _, into⟩ := List.mem_filterMap.mp listed
    split at into
    · cases into
    · split at into
      · cases into
        assumption
      · cases into
  · obtain ⟨pair, _, into⟩ := List.mem_filterMap.mp handed
    split at into
    · cases into
      assumption
    · cases into

theorem falls_add_rises : ∀ {counted : List Step},
    (∀ step ∈ counted, step.price ≠ step.prevPrice) →
      counted.length = (counted.filter Step.falls).length +
        (counted.filter Step.rises).length := by
  intro counted changes
  rw [List.length_eq_length_filter_add Step.falls]
  congr 2
  apply List.filter_congr
  intro step held
  have apart := changes step held
  unfold Step.falls Step.rises
  rcases Nat.lt_or_gt_of_ne apart with down | up
  · simp [down, down.le]
  · simp [up, up.le]

/-- The price history of a property, over the lineage of its canonical advert. -/
structure Telescopes (now : ℚ) (adverts : List Advert) (canonical : Advert)
    (snapshots : List Snapshot) : Prop where
  sound : LineageSound adverts canonical (lineage adverts canonical)
  compounds : priced snapshots canonical ≠ [] → ∃ first last : Nat,
    (lineageSpan (members snapshots (lineage adverts canonical))).firstPrice = some first ∧
    (lineageSpan (members snapshots (lineage adverts canonical))).lastPrice = some last ∧
    0 < first ∧
    compound (steps snapshots (lineage adverts canonical)) = (last : ℚ) / first
  total : priced snapshots canonical ≠ [] →
    (priceColumns snapshots (lineage adverts canonical) now).totalPriceChangePct =
      if 2 ≤ (lineageSpan (members snapshots (lineage adverts canonical))).pricePoints then
        some ((compound (steps snapshots (lineage adverts canonical)) - 1) * 100)
      else none
  counts : (priceColumns snapshots (lineage adverts canonical) now).priceChangeCount =
    (priceColumns snapshots (lineage adverts canonical) now).priceDropCount +
      (priceColumns snapshots (lineage adverts canonical) now).priceRiseCount

end Property

theorem price_history_telescopes (now : ℚ) {adverts : List Advert} {canonical : Advert}
    {snapshots : List Snapshot} (keyed : Keyed Advert.id adverts) (held : canonical ∈ adverts)
    (sound : Snapshots snapshots) : Telescopes now adverts canonical snapshots := by
  have begins : (lineage adverts canonical).head? = some canonical := head_linksFrom _
  refine ⟨lineage_sound keyed held, fun known => compound_steps sound begins known,
    fun known => ?_, falls_add_rises fun step counted => step_changes counted⟩
  obtain ⟨first, last, firstPrice, lastPrice, positive, ratio⟩ :=
    compound_steps sound begins known
  have nonzero : (first : ℚ) ≠ 0 := by exact_mod_cast positive.ne'
  simp only [priceColumns, totalPriceChangePct]
  rw [firstPrice, lastPrice, ratio]
  simp only [positive, and_true]
  congr 2
  field_simp

/-- Two adverts of one portal after each other, the older with a snapshot without a price between
two of one time; the third ran beside the canonical one. -/
theorem price_history_relisted :
    (priceColumns
      [⟨1, 10, 1, some 100⟩, ⟨2, 10, 2, none⟩, ⟨3, 10, 2, some 80⟩, ⟨4, 10, 2, some 90⟩,
        ⟨5, 11, 6, some 120⟩]
      (lineage [⟨10, "bazos", 1, 3⟩, ⟨11, "bazos", 5, 9⟩, ⟨12, "bazos", 4, 6⟩]
        ⟨11, "bazos", 5, 9⟩) 0).totalPriceChangePct = some 20 ∧
    Telescopes 0 [⟨10, "bazos", 1, 3⟩, ⟨11, "bazos", 5, 9⟩, ⟨12, "bazos", 4, 6⟩]
      ⟨11, "bazos", 5, 9⟩
      [⟨1, 10, 1, some 100⟩, ⟨2, 10, 2, none⟩, ⟨3, 10, 2, some 80⟩, ⟨4, 10, 2, some 90⟩,
        ⟨5, 11, 6, some 120⟩] := by
  refine ⟨by decide +kernel, ?_⟩
  apply price_history_telescopes 0
  · unfold Keyed
    decide
  · decide
  · constructor
    · unfold Keyed
      decide
    · decide

end Sreality.Scripts.PriceLineage
