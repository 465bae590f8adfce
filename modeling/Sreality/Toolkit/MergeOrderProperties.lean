import Sreality.Foundation.Blocks
import Sreality.Toolkit.LiveDealsProperties
import Sreality.Toolkit.SplitPreviewProperties

/-! The order of the merges of a set does not matter: whatever sub-sets are merged first, each
property left stands for a block of the set, oldest first, with the block's adverts, entries, best
cards and, unless a live card met it, its dismissal. -/

set_option autoImplicit false

namespace Sreality.Toolkit

open Sreality.Foundation

/-! ### The order of the cards -/

namespace Curation

/-- What a card is compared by: active over terminal, then the higher position, then the later
update. -/
def cardRank (stage : Stage) (card : Card) : Bool ×ₗ Int ×ₗ Timestamp :=
  toLex (!stage.isTerminal, toLex (stage.position, card.updatedAt))

theorem cardRank_lt {one other : Stage} {own rival : Card} :
    cardRank one own < cardRank other rival ↔
      (other.isTerminal = false ∧ one.isTerminal = true) ∨ (other.isTerminal = one.isTerminal ∧
        (one.position < other.position ∨
          (one.position = other.position ∧ own.updatedAt < rival.updatedAt))) := by
  unfold cardRank
  rw [Prod.Lex.toLex_lt_toLex, Prod.Lex.toLex_lt_toLex]
  cases one.isTerminal <;> cases other.isTerminal <;> simp

variable {state next : Curation} {account : AccountId} {own rival third : Card}

theorem beats_iff : state.beats account own rival = true ↔
    ∃ one other, state.stages own.stage = some one ∧ state.stages rival.stage = some other ∧
      one.account = account ∧ other.account = account ∧ cardRank other rival < cardRank one own := by
  unfold beats
  rcases Option.eq_none_or_eq_some (state.stages own.stage) with none_ | ⟨one, owned⟩
  · simp [none_]
  · rcases Option.eq_none_or_eq_some (state.stages rival.stage) with none_ | ⟨other, held⟩
    · simp [none_, owned]
    · simp only [owned, held, Option.some.injEq, exists_and_left, exists_eq_left', cardRank_lt,
        Bool.and_eq_true, Bool.or_eq_true, beq_iff_eq, decide_eq_true_eq, Bool.not_eq_true',
        eq_comm (a := other.position)]
      tauto

theorem beats_trans (first : state.beats account own rival = true)
    (second : state.beats account rival third = true) : state.beats account own third = true := by
  obtain ⟨one, other, owned, held, mine, _, above⟩ := beats_iff.mp first
  obtain ⟨other_, last, held_, found, _, theirs, below⟩ := beats_iff.mp second
  cases Option.some.inj (held.symm.trans held_)
  exact beats_iff.mpr ⟨one, last, owned, found, mine, theirs, below.trans above⟩

theorem beats_asymm (first : state.beats account own rival = true) :
    ¬state.beats account rival own = true := by
  intro second
  obtain ⟨one, other, owned, held, _, _, above⟩ := beats_iff.mp (beats_trans first second)
  cases Option.some.inj (owned.symm.trans held)
  exact lt_irrefl _ above

/-- The card's stage is one of its account's. -/
def Owned (state : Curation) (account : AccountId) (card : Card) : Prop :=
  ∃ stage, state.stages card.stage = some stage ∧ stage.account = account

theorem beats_total (mine : state.Owned account own) (theirs : state.Owned account rival)
    (apart : own.updatedAt ≠ rival.updatedAt) :
    state.beats account own rival = true ∨ state.beats account rival own = true := by
  obtain ⟨one, owned, holder⟩ := mine
  obtain ⟨other, held, second⟩ := theirs
  have differ : cardRank one own ≠ cardRank other rival := by
    intro same
    exact apart (Prod.mk.inj (toLex.injective (Prod.mk.inj (toLex.injective same)).2)).2
  rcases lt_or_gt_of_ne differ with below | above
  · exact .inr (beats_iff.mpr ⟨other, one, held, owned, second, holder, below⟩)
  · exact .inl (beats_iff.mpr ⟨one, other, owned, held, holder, second, above⟩)

/-- A card that beats a live one is live. -/
theorem beats_live (wins : state.beats account own rival = true)
    (live : (state.stages rival.stage).any (fun stage => !stage.isTerminal) = true) :
    (state.stages own.stage).any (fun stage => !stage.isTerminal) = true := by
  obtain ⟨one, other, owned, held, _, _, above⟩ := beats_iff.mp wins
  rw [held, Option.any_some] at live
  rw [owned, Option.any_some]
  rcases cardRank_lt.mp above with ⟨active, _⟩ | ⟨same, _⟩
  · simp [active]
  · rw [same]
    exact live

theorem beats_congr (stages : next.stages = state.stages) : next.beats = state.beats := by
  funext account own rival
  unfold beats
  rw [stages]

theorem winner_congr (stages : next.stages = state.stages) : next.winner = state.winner := by
  funext account own rival
  unfold winner
  rw [beats_congr stages]

/-- The card an account keeps of two properties' is the best of both. -/
theorem winner_best {left right : Nat → Prop} {rows : Nat → Option Card}
    {first second : Option Card} (owned : ∀ property, left property ∨ right property →
      ∀ card, rows property = some card → state.Owned account card)
    (apart : ∀ one other, left one → right other → ∀ own rival, rows one = some own →
      rows other = some rival → own.updatedAt ≠ rival.updatedAt)
    (lead : Best (fun own rival => state.beats account own rival = true) left rows first)
    (follow : Best (fun own rival => state.beats account own rival = true) right rows second) :
    Best (fun own rival => state.beats account own rival = true)
      (fun member => left member ∨ right member) rows (state.winner account first second) := by
  cases first with
  | none =>
      simp only [winner, Option.none_or]
      exact (follow.join_none lead).swap
  | some own =>
      cases second with
      | none =>
          simp only [winner, Option.some_or]
          exact lead.join_none follow
      | some rival =>
          have chain : ∀ one two three, state.beats account one two = true →
              state.beats account two three = true → state.beats account one three = true :=
            fun _ _ _ => beats_trans
          unfold winner
          dsimp only
          split_ifs with beaten
          · exact (follow.join chain lead (.inl beaten)).swap
          · refine lead.join chain follow ?_
            obtain ⟨one, here, held⟩ := lead.held
            obtain ⟨other, there, found⟩ := follow.held
            rcases beats_total (owned one (.inl here) own held) (owned other (.inr there) rival found)
              (apart one other here there own rival held found) with wins | loses
            · exact .inl wins
            · exact absurd loses beaten

/-- The best card of a block is live where one of its cards is. -/
theorem live_best {block : Nat → Prop} {property : Nat} (stages : next.stages = state.stages)
    (best : Best (fun own rival => state.beats account own rival = true) block
      (state.card account) (next.card account property)) :
    next.live account property = true ↔
      ∃ member, block member ∧ state.live account member = true := by
  simp only [live, stages, Option.any_eq_true]
  constructor
  · rintro ⟨card, kept, active⟩
    rw [kept] at best
    obtain ⟨member, inside, found⟩ := best.held
    exact ⟨member, inside, card, found, active⟩
  · rintro ⟨member, inside, card, found, active⟩
    cases kept : next.card account property with
    | none =>
        rw [kept] at best
        cases best with
        | vacant empty =>
            rw [empty member inside] at found
            cases found
    | some top =>
        rw [kept] at best
        refine ⟨top, rfl, ?_⟩
        cases best with
        | taken _ _ _ tops =>
            rcases tops member card inside found with same | wins
            · rw [← same]
              exact active
            · exact (Option.any_eq_true _ _).mp
                (beats_live wins ((Option.any_eq_true _ _).mpr active))

end Curation

/-! ### One step over the adverts -/

namespace Identity

variable {state : Identity}

theorem recordMoves_tables (group : GroupId) (survivor retired : Nat) (reason : LedgerReason) :
    (state.recordMoves group survivor retired reason).adverts = state.adverts ∧
      (state.recordMoves group survivor retired reason).place = state.place ∧
      (state.recordMoves group survivor retired reason).property = state.property := by
  unfold recordMoves
  generalize state.membersOf retired = adverts
  induction adverts generalizing state with
  | nil => exact ⟨rfl, rfl, rfl⟩
  | cons advert rest ih => exact @ih (state.appendRow _)

/-- A property's date is the earliest of its adverts', as the rollup leaves it. -/
def Dated (state : Identity) (property : Nat) : Prop :=
  (state.property property).bind Property.firstSeen =
    ((state.membersOf property).filterMap Advert.firstSeen).min?

/-- A property that comes first is dated where the other is, and no later. -/
theorem rankOf_le_date {one other : Nat} (first : state.rankOf one ≤ state.rankOf other)
    {date : Timestamp} (dated : (state.property other).bind Property.firstSeen = some date) :
    ∃ earlier, (state.property one).bind Property.firstSeen = some earlier ∧ earlier ≤ date := by
  unfold rankOf survivorRank at first
  rw [Prod.Lex.toLex_le_toLex, Prod.Lex.toLex_le_toLex, dated] at first
  cases own : (state.property one).bind Property.firstSeen with
  | none => exact absurd (own ▸ first) (by simp)
  | some earlier =>
      refine ⟨earlier, rfl, ?_⟩
      simp only [own, Option.isNone_some, lt_self_iff_false, Option.getD_some, true_and,
        false_or] at first
      exact first.elim le_of_lt fun same => same.1.le

theorem mergeMembers_oldest {propertyIds : List Nat} {source : MergeSource}
    {decidedBy : Option String} {survivor : Nat} {retired : List Nat}
    (chosen : state.mergeMembers propertyIds source decidedBy = .ok (survivor, retired)) :
    ∀ property ∈ propertyIds, state.rankOf survivor ≤ state.rankOf property := by
  unfold mergeMembers at chosen
  dsimp only at chosen
  split_ifs at chosen
  obtain ⟨_, _, chosen⟩ := bind_eq_ok chosen
  cases oldest : state.survivorOf (sortedIds propertyIds.dedup) with
  | none => simp [oldest] at chosen
  | some kept =>
      simp only [oldest, Except.ok.injEq, Prod.mk.injEq] at chosen
      obtain ⟨rfl, _⟩ := chosen
      intro property listed
      apply (survivorOf_spec oldest).2
      rw [mem_sortedBy, List.mem_dedup]
      exact listed

end Identity

/-! ### The blocks of a set -/

namespace Database

/-- The set's blocks in a state reached from `start`: `home` names each member's property. -/
structure Gathered (members : List Nat) (start : Database) (home : Nat → Nat)
    (state : Database) : Prop where
  listed : ∀ member ∈ members, home member ∈ members
  rooted : ∀ member, home (home member) = home member
  outside : ∀ property, property ∉ members → home property = property
  adverts : state.identity.adverts = start.identity.adverts
  stages : state.curation.stages = start.curation.stages
  place : ∀ listing, state.identity.place listing = (start.identity.place listing).map home
  active : ∀ member ∈ members, state.identity.isActive member = true ↔ home member = member
  least : ∀ member ∈ members,
    start.identity.rankOf (home member) ≤ start.identity.rankOf member
  seen : ∀ member ∈ members, home member = member →
    state.identity.rankOf member = start.identity.rankOf member
  entries : ∀ table key, ∀ root ∈ members, home root = root →
    ((state.curation.entry table key root).isSome = true ↔
      ∃ member ∈ members, home member = root ∧
        (start.curation.entry table key member).isSome = true)
  cards : ∀ account, ∀ root ∈ members, home root = root →
    Best (fun own rival => start.curation.beats account own rival = true)
      (fun member => member ∈ members ∧ home member = root) (start.curation.card account)
      (state.curation.card account root)
  dismissals : ∀ account, ∀ root ∈ members, home root = root →
    ((state.curation.dismissal account root).isSome = true ↔
      (∃ member ∈ members, home member = root ∧
        (start.curation.dismissal account member).isSome = true) ∧
      ((∀ member ∈ members, home member = root → member = root) ∨
        ∀ member ∈ members, home member = root → start.curation.live account member = false))

/-- What the set is when its merges start: active properties dated by their adverts, each card at
its own account's stage, no two cards of an account updated at one time. -/
structure Mergeable (members : List Nat) (start : Database) : Prop where
  active : ∀ member ∈ members, start.identity.isActive member = true
  dated : ∀ member ∈ members, start.identity.Dated member
  owned : ∀ account, ∀ member ∈ members, ∀ card, start.curation.card account member = some card →
    start.curation.Owned account card
  apart : ∀ account, ∀ one ∈ members, ∀ other ∈ members, one ≠ other → ∀ own rival,
    start.curation.card account one = some own → start.curation.card account other = some rival →
    own.updatedAt ≠ rival.updatedAt

variable {members : List Nat} {start state after : Database} {home : Nat → Nat}

theorem Mergeable.gathered (mergeable : Mergeable members start) :
    Gathered members start id start where
  listed := fun _ held => held
  rooted := fun _ => rfl
  outside := fun _ _ => rfl
  adverts := rfl
  stages := rfl
  place := fun _ => by simp
  active := fun member held => by simp [mergeable.active member held]
  least := fun _ _ => le_rfl
  seen := fun _ _ _ => rfl
  entries := fun table key root held _ => by
    constructor
    · exact fun some_ => ⟨root, held, rfl, some_⟩
    · rintro ⟨member, _, rfl, some_⟩
      exact some_
  cards := fun account root held _ => by
    apply Best.single
    intro other
    constructor
    · exact fun inside => inside.2
    · rintro rfl
      exact ⟨held, rfl⟩
  dismissals := fun account root held _ => by
    constructor
    · exact fun some_ => ⟨⟨root, held, rfl, some_⟩, .inl fun _ _ same => same⟩
    · rintro ⟨⟨member, _, rfl, some_⟩, _⟩
      exact some_

namespace Gathered

section Pair

variable {survivor retired : Nat}

/-- The roots a step leaves: the survivor, with both blocks, and the others, with their own. -/
theorem root_cases (differ : survivor ≠ retired) (survives : home survivor = survivor)
    {root : Nat} (rooted : joinBlocks home survivor retired root = root) :
    root ≠ retired ∧ home root = root := by
  obtain ⟨fixed, stays⟩ := (joinBlocks_root survives).mp rooted
  exact ⟨stays.elim id fun same => same ▸ differ, fixed⟩

theorem pair_entries (gathered : Gathered members start home state) (differ : survivor ≠ retired)
    (kept : survivor ∈ members) (survives : home survivor = survivor) (gone : retired ∈ members)
    (leaves : home retired = retired) {next : Curation}
    (joined : Curation.Joined survivor retired state.curation next) (table : SetTable) (key : Nat)
    {root : Nat} (held : root ∈ members)
    (rooted : joinBlocks home survivor retired root = root) :
    (next.entry table key root).isSome = true ↔
      ∃ member ∈ members, joinBlocks home survivor retired member = root ∧
        (start.curation.entry table key member).isSome = true := by
  obtain ⟨stays, fixed⟩ := root_cases differ survives rooted
  rw [joined.entry, Curation.joinedAt, if_neg stays]
  by_cases same : root = survivor
  · subst same
    rw [if_pos rfl, Option.isSome_or, Bool.or_eq_true,
      gathered.entries table key root kept survives, gathered.entries table key retired gone leaves]
    simp only [joinBlocks_eq_survivor, ← exists_or, or_and_right, and_or_left]
  · rw [if_neg same, gathered.entries table key root held fixed]
    simp only [joinBlocks_eq_other same stays]

theorem pair_cards (mergeable : Mergeable members start)
    (gathered : Gathered members start home state) (differ : survivor ≠ retired)
    (kept : survivor ∈ members) (survives : home survivor = survivor) (gone : retired ∈ members)
    (leaves : home retired = retired) {next : Curation}
    (joined : Curation.Joined survivor retired state.curation next) (account : AccountId)
    {root : Nat} (held : root ∈ members)
    (rooted : joinBlocks home survivor retired root = root) :
    Best (fun own rival => start.curation.beats account own rival = true)
      (fun member => member ∈ members ∧ joinBlocks home survivor retired member = root)
      (start.curation.card account) (next.card account root) := by
  obtain ⟨stays, fixed⟩ := root_cases differ survives rooted
  rw [joined.card, Curation.joinedAt, if_neg stays]
  by_cases same : root = survivor
  · subst same
    rw [if_pos rfl]
    have lead := gathered.cards account root kept survives
    have follow := gathered.cards account retired gone leaves
    have best := Curation.winner_best
      (by
        rintro property (inside | inside) card found
        · exact mergeable.owned account property inside.1 card found
        · exact mergeable.owned account property inside.1 card found)
      (by
        rintro one other here there own rival
        refine mergeable.apart account one here.1 other there.1 ?_ own rival
        rintro rfl
        exact differ (here.2.symm.trans there.2)) lead follow
    rw [Curation.winner_congr gathered.stages]
    refine best.congr fun member => ?_
    rw [joinBlocks_eq_survivor, and_or_left]
  · rw [if_neg same]
    refine (gathered.cards account root held fixed).congr fun member => ?_
    rw [joinBlocks_eq_other same stays]

theorem pair_dismissals (gathered : Gathered members start home state) (differ : survivor ≠ retired)
    (kept : survivor ∈ members) (survives : home survivor = survivor) (gone : retired ∈ members)
    (leaves : home retired = retired) {next : Curation}
    (joined : Curation.Joined survivor retired state.curation next) (account : AccountId)
    (live : next.live account survivor = true ↔ ∃ member ∈ members,
      joinBlocks home survivor retired member = survivor ∧
        start.curation.live account member = true)
    {root : Nat} (held : root ∈ members)
    (rooted : joinBlocks home survivor retired root = root) :
    (next.dismissal account root).isSome = true ↔
      (∃ member ∈ members, joinBlocks home survivor retired member = root ∧
        (start.curation.dismissal account member).isSome = true) ∧
      ((∀ member ∈ members, joinBlocks home survivor retired member = root → member = root) ∨
        ∀ member ∈ members, joinBlocks home survivor retired member = root →
          start.curation.live account member = false) := by
  obtain ⟨stays, fixed⟩ := root_cases differ survives rooted
  rw [joined.dismissal, Curation.joinedAt, if_neg stays]
  by_cases same : root = survivor
  · subst same
    rw [if_pos rfl]
    -- Both blocks are in the survivor's, so the lift is what decides.
    have several : ¬∀ member ∈ members,
        joinBlocks home root retired member = root → member = root := fun alone =>
      differ (alone retired gone (joinBlocks_eq_survivor.mpr (.inr leaves))).symm
    have dead : next.live account root = false ↔ ∀ member ∈ members,
        joinBlocks home root retired member = root → start.curation.live account member = false := by
      rw [← Bool.not_eq_true, live]
      simp only [not_exists, not_and, Bool.not_eq_true]
    by_cases alive : next.live account root = true
    · have still : ¬∀ member ∈ members, joinBlocks home root retired member = root →
          start.curation.live account member = false := fun quiet => by
        rw [dead.mpr quiet] at alive
        cases alive
      simp [alive, several, still]
    · have quiet := dead.mp (by simpa using alive)
      have own := gathered.dismissals account root kept survives
      have other := gathered.dismissals account retired gone leaves
      have ownQuiet : ∀ member ∈ members, home member = root →
          start.curation.live account member = false := fun member listed here =>
        quiet member listed (joinBlocks_eq_survivor.mpr (.inl here))
      have otherQuiet : ∀ member ∈ members, home member = retired →
          start.curation.live account member = false := fun member listed here =>
        quiet member listed (joinBlocks_eq_survivor.mpr (.inr here))
      rw [and_iff_left (.inr ownQuiet)] at own
      rw [and_iff_left (.inr otherQuiet)] at other
      rw [and_iff_left (.inr quiet), if_neg alive, Option.isSome_or, Bool.or_eq_true, own, other]
      simp only [joinBlocks_eq_survivor, ← exists_or, or_and_right, and_or_left]
  · rw [if_neg same, gathered.dismissals account root held fixed]
    simp only [joinBlocks_eq_other same stays]

theorem isActive_mergePair {group : GroupId} {reason : LedgerReason} (property : Nat) :
    (mergePair group survivor reason state retired).identity.isActive property = true ↔
      state.identity.isActive property = true ∧ property ≠ retired := by
  have tables := @Identity.recordMoves_tables state.identity group survivor retired reason
  simp only [mergePair, Identity.isActive, Identity.retire, Identity.updateProperty,
    Identity.repoint, tables.2.2]
  by_cases gone : property = retired
  · subst gone
    cases state.identity.property property <;> simp
  · simp [gone]

theorem rankOf_mergePair {group : GroupId} {reason : LedgerReason} (property : Nat) :
    (mergePair group survivor reason state retired).identity.rankOf property =
      state.identity.rankOf property := by
  have tables := @Identity.recordMoves_tables state.identity group survivor retired reason
  simp only [mergePair, Identity.rankOf, Identity.retire, Identity.updateProperty,
    Identity.repoint, tables.2.2]
  split_ifs with gone
  · cases state.identity.property property <;> rfl
  · rfl

/-- One retired property into the survivor joins their blocks. -/
theorem pair (mergeable : Mergeable members start) (gathered : Gathered members start home state)
    (differ : survivor ≠ retired) (kept : survivor ∈ members) (survives : home survivor = survivor)
    (gone : retired ∈ members) (leaves : home retired = retired)
    (first : start.identity.rankOf survivor ≤ start.identity.rankOf retired) (group : GroupId)
    (reason : LedgerReason) :
    Gathered members start (joinBlocks home survivor retired)
      (mergePair group survivor reason state retired) := by
  have tables := @Identity.recordMoves_tables state.identity group survivor retired reason
  have joined := @Curation.onMerge_joined state.curation survivor retired
    ((state.identity.recordMoves group survivor retired reason).repoint survivor retired).ledger
    group differ
  have stages := joined.stages.trans gathered.stages
  have cards := fun account root held rooted =>
    @pair_cards _ _ _ _ _ _ mergeable gathered differ kept survives gone leaves _ joined account
      root held rooted
  have still : joinBlocks home survivor retired survivor = survivor :=
    joinBlocks_of_survivor survives
  constructor
  · intro member held
    unfold joinBlocks
    split_ifs
    · exact kept
    · exact gathered.listed member held
  · intro member
    by_cases here : home member = retired
    · rw [joinBlocks_eq_survivor.mpr (.inr here), still]
    · have same : joinBlocks home survivor retired member = home member := if_neg here
      rw [same, joinBlocks, gathered.rooted, if_neg here]
  · intro property unlisted
    have fixed := gathered.outside property unlisted
    refine (if_neg fun same => unlisted ?_).trans fixed
    rw [← fixed, same]
    exact gone
  · exact tables.1.trans gathered.adverts
  · exact stages
  · intro listing
    have placed := congrFun tables.2.1 listing
    simp only [mergePair, Identity.retire, Identity.updateProperty, Identity.repoint, placed,
      gathered.place]
    cases start.identity.place listing with
    | none => simp
    | some property => simp [joinBlocks, apply_ite some]
  · intro member held
    rw [isActive_mergePair, gathered.active member held, joinBlocks_root survives]
    refine and_congr_right fun _ => ?_
    constructor
    · exact .inl
    · rintro (stays | rfl)
      · exact stays
      · exact differ
  · intro member held
    have before := gathered.least member held
    by_cases here : home member = retired
    · rw [joinBlocks_eq_survivor.mpr (.inr here)]
      exact first.trans (here ▸ before)
    · rw [joinBlocks, if_neg here]
      exact before
  · intro member held rooted
    rw [rankOf_mergePair]
    exact gathered.seen member held (root_cases differ survives rooted).2
  · exact fun table key root held rooted =>
      gathered.pair_entries differ kept survives gone leaves joined table key held rooted
  · exact cards
  · intro account root held rooted
    refine gathered.pair_dismissals differ kept survives gone leaves joined account ?_ held rooted
    rw [Curation.live_best stages (cards account survivor kept still)]
    simp only [and_assoc]

end Pair

/-- The steps of a call join its members' blocks into the survivor's. -/
theorem steps (mergeable : Mergeable members start) {survivor : Nat} (kept : survivor ∈ members)
    (group : GroupId) (reason : LedgerReason) {retired : List Nat} :
    ∀ {home : Nat → Nat} {state : Database}, Gathered members start home state →
      home survivor = survivor → retired.Nodup →
      (∀ property ∈ retired, property ∈ members ∧ home property = property ∧
        property ≠ survivor ∧ start.identity.rankOf survivor ≤ start.identity.rankOf property) →
      ∃ homes, Gathered members start homes
          (retired.foldl (mergePair group survivor reason) state) ∧
        (∀ property, home property = survivor → homes property = survivor) ∧
        ∀ property ∈ retired, homes property = survivor := by
  induction retired with
  | nil => exact fun gathered _ _ _ => ⟨_, gathered, fun _ same => same, by simp⟩
  | cons first rest ih =>
      intro home state gathered survives distinct leaving
      obtain ⟨fresh, restDistinct⟩ := List.nodup_cons.mp distinct
      obtain ⟨gone, leaves, differ, older⟩ := leaving first List.mem_cons_self
      have next := gathered.pair mergeable differ.symm kept survives gone leaves older group reason
      obtain ⟨homes, done, stays, moved⟩ := ih next (joinBlocks_of_survivor survives) restDistinct
        (by
          intro property listed
          obtain ⟨member, fixed, other, rank⟩ := leaving property (List.mem_cons_of_mem _ listed)
          have unlike : property ≠ first := fun same => fresh (same ▸ listed)
          exact ⟨member, (joinBlocks_eq_other other unlike).mpr fixed, other, rank⟩)
      refine ⟨homes, done, fun property same => stays property (joinBlocks_of_survivor same), ?_⟩
      intro property listed
      rcases List.mem_cons.mp listed with rfl | later
      · exact stays property (joinBlocks_eq_survivor.mpr (.inr leaves))
      · exact moved property later

theorem mem_root (gathered : Gathered members start home state) {root : Nat} (held : root ∈ members)
    {advert : Advert} :
    advert ∈ state.identity.membersOf root ↔
      ∃ member ∈ members, home member = root ∧ advert ∈ start.identity.membersOf member := by
  simp only [Identity.mem_membersOf, gathered.adverts, gathered.place, Option.map_eq_some_iff]
  constructor
  · rintro ⟨known, member, here, same⟩
    refine ⟨member, ?_, same, known, here⟩
    by_contra unlisted
    rw [gathered.outside member unlisted] at same
    exact unlisted (same ▸ held)
  · rintro ⟨member, _, same, known, here⟩
    exact ⟨known, member, here, same⟩

/-- The earliest advert of a block is its root's own. -/
theorem min?_root (mergeable : Mergeable members start)
    (gathered : Gathered members start home state) {root : Nat} (held : root ∈ members)
    (rooted : home root = root) :
    ((state.identity.membersOf root).filterMap Advert.firstSeen).min? =
      (start.identity.property root).bind Property.firstSeen := by
  have own := mergeable.dated root held
  -- An advert of the block is dated no earlier than the root.
  have later : ∀ advert ∈ state.identity.membersOf root, ∀ date, advert.firstSeen = some date →
      ∃ earlier, (start.identity.property root).bind Property.firstSeen = some earlier ∧
        earlier ≤ date := by
    intro advert listed date dated
    obtain ⟨member, inside, here, known⟩ := (gathered.mem_root held).mp listed
    have dates : date ∈ (start.identity.membersOf member).filterMap Advert.firstSeen :=
      List.mem_filterMap.mpr ⟨advert, known, dated⟩
    obtain ⟨least, found⟩ : ∃ least,
        ((start.identity.membersOf member).filterMap Advert.firstSeen).min? = some least := by
      rw [← Option.ne_none_iff_exists', ne_eq, List.min?_eq_none_iff]
      exact List.ne_nil_of_mem dates
    have lowest := (List.min?_eq_some_iff.mp found).2 date dates
    have first := gathered.least member inside
    rw [here] at first
    obtain ⟨earlier, same, before⟩ := Identity.rankOf_le_date first
      ((mergeable.dated member inside).trans found)
    exact ⟨earlier, same, before.trans lowest⟩
  cases seen : (start.identity.property root).bind Property.firstSeen with
  | none =>
      rw [List.min?_eq_none_iff, List.filterMap_eq_nil_iff]
      intro advert listed
      by_contra dated
      obtain ⟨date, dated⟩ := Option.ne_none_iff_exists'.mp dated
      obtain ⟨earlier, same, _⟩ := later advert listed date dated
      rw [seen] at same
      cases same
  | some earliest =>
      obtain ⟨listed, _⟩ := List.min?_eq_some_iff.mp (own.symm.trans seen)
      obtain ⟨advert, known, dated⟩ := List.mem_filterMap.mp listed
      refine List.min?_eq_some_iff.mpr ⟨List.mem_filterMap.mpr ⟨advert, ?_, dated⟩, ?_⟩
      · exact (gathered.mem_root held).mpr ⟨root, held, rooted, known⟩
      · intro date found
        obtain ⟨other, there, otherDated⟩ := List.mem_filterMap.mp found
        obtain ⟨earlier, same, before⟩ := later other there date otherDated
        rw [seen] at same
        cases same
        exact before

/-- The rollup leaves a root dated as it was. -/
theorem rankOf_propertiesChanged (mergeable : Mergeable members start)
    (gathered : Gathered members start home state) (ids : List Nat) {root : Nat}
    (held : root ∈ members) (rooted : home root = root) :
    (state.identity.propertiesChanged ids).rankOf root = start.identity.rankOf root := by
  have seen := gathered.seen root held rooted
  obtain ⟨row, known, _⟩ := Identity.isActive_iff.mp ((gathered.active root held).mpr rooted)
  have earliest := gathered.min?_root mergeable held rooted
  by_cases changed : root ∈ ids
  · have property : (state.identity.propertiesChanged ids).property root =
        some (state.identity.recomputed root row) := by
      simp only [Identity.propertiesChanged, if_pos changed, known, Option.map_some]
    unfold Identity.rankOf at seen ⊢
    rw [property, Option.bind_some, Identity.recomputed]
    rw [known, Option.bind_some] at seen
    split
    · exact seen
    · next listed =>
        dsimp only
        rw [earliest]
  · refine Eq.trans ?_ seen
    unfold Identity.rankOf
    simp only [Identity.propertiesChanged, if_neg changed]

/-- One call over members of the set joins the blocks of those it names. -/
theorem merge (mergeable : Mergeable members start) (gathered : Gathered members start home state)
    {call : MergeCall} (within : ∀ property ∈ call.propertyIds, property ∈ members)
    (merged : state.merge call = .ok after) :
    ∃ homes survivor, Gathered members start homes after ∧
      ∀ property ∈ call.propertyIds, homes property = survivor := by
  obtain ⟨survivor, retired, chosen, rfl⟩ := merge_cases merged
  have called := Identity.mergeMembers_members chosen
  have root : ∀ property ∈ call.propertyIds, home property = property := fun property listed =>
    (gathered.active property (within property listed)).mp (called.active property listed)
  have survives := root survivor called.survives
  obtain ⟨homes, done, stays, moved⟩ := gathered.steps mergeable (within survivor called.survives)
    call.group (.merge call.reason) survives called.distinct (by
      intro property listed
      obtain ⟨named, differ⟩ := (called.mem_retired property).mp listed
      refine ⟨within property named, root property named, differ, ?_⟩
      rw [← gathered.seen survivor (within survivor called.survives) survives,
        ← gathered.seen property (within property named) (root property named)]
      exact Identity.mergeMembers_oldest chosen property named)
  refine ⟨homes, survivor, ?_, ?_⟩
  · exact { done with
      active := fun member held => by
        rw [Identity.isActive_congr (Identity.standing_propertiesChanged _), done.active member held]
      seen := fun member held rooted => done.rankOf_propertiesChanged mergeable _ held rooted }
  · intro property named
    by_cases same : property = survivor
    · exact stays property (same ▸ survives)
    · exact moved property ((called.mem_retired property).mpr ⟨named, same⟩)

/-- Every call over the set keeps its blocks. -/
theorem run (mergeable : Mergeable members start) {calls : List MergeCall}
    (within : ∀ call ∈ calls, ∀ property ∈ call.propertyIds, property ∈ members) :
    ∀ {home : Nat → Nat} {state : Database}, Gathered members start home state →
      calls.foldlM Database.merge state = .ok after → ∃ homes, Gathered members start homes after := by
  induction calls with
  | nil =>
      intro home state gathered done
      cases done
      exact ⟨home, gathered⟩
  | cons call rest ih =>
      intro home state gathered done
      rw [List.foldlM_cons] at done
      obtain ⟨middle, first, onward⟩ := bind_eq_ok done
      obtain ⟨homes, _, joined, _⟩ := gathered.merge mergeable (within call List.mem_cons_self) first
      exact ih (fun later listed => within later (List.mem_cons_of_mem _ listed)) joined onward

/-- Where one property is left, it is the oldest of the set. -/
theorem alone (gathered : Gathered members start home state) {last : Nat} (held : last ∈ members)
    (one : ∀ member ∈ members, home member = last) {other : Nat} (listed : other ∈ members)
    (oldest : ∀ member ∈ members,
      start.identity.rankOf other ≤ start.identity.rankOf member) : last = other := by
  have first := gathered.least other listed
  rw [one other listed] at first
  exact Identity.rankOf_injective (le_antisymm first (oldest last held))

end Gathered

/-! ### Any order -/

/-- Two states hold the set as the same one property. -/
structure SameMerge (members : List Nat) (after joined : Database) (survivor : Nat) : Prop where
  member : survivor ∈ members
  stepwise : ∀ property ∈ members,
    after.identity.isActive property = true ↔ property = survivor
  once : ∀ property ∈ members, joined.identity.isActive property = true ↔ property = survivor
  placement : after.identity.place = joined.identity.place
  entries : ∀ table key, (after.curation.entry table key survivor).isSome =
    (joined.curation.entry table key survivor).isSome
  cards : ∀ account, after.curation.card account survivor = joined.curation.card account survivor
  dismissals : ∀ account, (after.curation.dismissal account survivor).isSome =
    (joined.curation.dismissal account survivor).isSome

theorem Gathered.same {homes : Nat → Nat} {joined : Database} {last : Nat}
    (first : Gathered members start home after) (second : Gathered members start homes joined)
    (held : last ∈ members) (one : ∀ member ∈ members, home member = last)
    (other : ∀ member ∈ members, homes member = last) : SameMerge members after joined last where
  member := held
  stepwise := fun property listed => by
    rw [first.active property listed, one property listed, eq_comm]
  once := fun property listed => by
    rw [second.active property listed, other property listed, eq_comm]
  placement := by
    funext listing
    rw [first.place, second.place]
    refine Option.map_congr fun property _ => ?_
    by_cases listed : property ∈ members
    · rw [one property listed, other property listed]
    · rw [first.outside property listed, second.outside property listed]
  entries := fun table key => by
    rw [Bool.eq_iff_iff, first.entries table key last held (one last held),
      second.entries table key last held (other last held)]
    refine exists_congr fun member => and_congr_right fun listed => ?_
    rw [one member listed, other member listed]
  cards := fun account => by
    have best := second.cards account last held (other last held)
    refine (first.cards account last held (one last held)).unique
      (fun _ _ => Curation.beats_asymm) (best.congr fun member => and_congr_right fun listed => ?_)
    rw [one member listed, other member listed]
  dismissals := fun account => by
    rw [Bool.eq_iff_iff, first.dismissals account last held (one last held),
      second.dismissals account last held (other last held)]
    have same : ∀ member ∈ members, home member = last ↔ homes member = last :=
      fun member listed => by rw [one member listed, other member listed]
    refine and_congr ?_ (or_congr ?_ ?_)
    · refine exists_congr fun member => and_congr_right fun listed => ?_
      rw [same member listed]
    · exact forall₂_congr fun member listed => by rw [same member listed]
    · exact forall₂_congr fun member listed => by rw [same member listed]

/-- A set merged into one property by any calls over its sub-sets ends as when it is merged in one
call. -/
theorem merge_order (mergeable : Mergeable members start) {calls : List MergeCall}
    (within : ∀ call ∈ calls, ∀ property ∈ call.propertyIds, property ∈ members)
    (stepwise : calls.foldlM Database.merge start = .ok after) {last : Nat} (held : last ∈ members)
    (one : ∀ property ∈ members, after.identity.isActive property = true → property = last)
    {whole : MergeCall} (all : ∀ property, property ∈ whole.propertyIds ↔ property ∈ members)
    {joined : Database} (once : start.merge whole = .ok joined) :
    SameMerge members after joined last := by
  obtain ⟨home, first⟩ := Gathered.run mergeable within mergeable.gathered stepwise
  obtain ⟨homes, survivor, second, here⟩ := mergeable.gathered.merge mergeable
    (fun property => (all property).mp) once
  have alone : ∀ member ∈ members, home member = last := fun member listed =>
    one _ (first.listed member listed)
      ((first.active _ (first.listed member listed)).mpr (first.rooted member))
  have joint : ∀ member ∈ members, homes member = survivor := fun member listed =>
    here member ((all member).mpr listed)
  have survives : survivor ∈ members := joint last held ▸ second.listed last held
  have same : last = survivor := by
    refine first.alone held alone survives fun member listed => ?_
    have oldest := second.least member listed
    rw [joint member listed] at oldest
    exact oldest
  subst same
  exact first.same second held alone joint

/-- Three homes: the account deals with the second and the third, and has dismissed the first. -/
def threeDeals : Database where
  identity :=
    { adverts := [{ listing := 10, firstSeen := some 1 }, { listing := 20, firstSeen := some 2 },
        { listing := 30, firstSeen := some 3 }]
      distinct := by decide
      place := fun listing =>
        if listing = 10 then some 1 else if listing = 20 then some 2
        else if listing = 30 then some 3 else none
      property := fun property =>
        if property = 1 then some { firstSeen := some 1 }
        else if property = 2 then some { firstSeen := some 2 }
        else if property = 3 then some { firstSeen := some 3 } else none
      ledger := []
      nextProperty := 4
      nextEvent := 0 }
  curation :=
    { accounts := [0]
      shelves := fun _ => []
      stages := fun stage =>
        if stage = 0 then some { account := 0, position := 0, isTerminal := false }
        else if stage = 1 then some { account := 0, position := 1, isTerminal := true } else none
      entry := fun _ _ _ => none
      card := fun account property =>
        if account = 0 ∧ property = 2 then some { stage := 1, addedAt := 5, updatedAt := 5 }
        else if account = 0 ∧ property = 3 then some { stage := 0, addedAt := 6, updatedAt := 6 }
        else none
      dismissal := fun account property =>
        if account = 0 ∧ property = 1 then some { id := 0, dismissedAt := 7 } else none
      carries := []
      nextCarry := 0
      nextDismissal := 1 }

def joinDeals (propertyIds : List Nat) (group : GroupId) : MergeCall where
  propertyIds := propertyIds
  source := .operator
  reason := "same home"
  group := group
  decidedBy := some "operator"

theorem threeDeals_mergeable : Mergeable [1, 2, 3] threeDeals where
  active := by decide
  dated := by
    unfold Identity.Dated
    decide
  owned := by
    intro account member _ card held
    simp only [threeDeals] at held
    split_ifs at held with first second
    · cases held
      exact ⟨{ account := 0, position := 1, isTerminal := true }, rfl, first.1.symm⟩
    · cases held
      exact ⟨{ account := 0, position := 0, isTerminal := false }, rfl, second.1.symm⟩
  apart := by
    intro account one _ other _ differ own rival held found
    simp only [threeDeals] at held found
    split_ifs at held found with first second third fourth
    all_goals
      cases held
      cases found
      first
        | decide
        | omega

/-- The two later homes first, then the oldest, ends as the three at once. -/
theorem threeDeals_merge_order :
    ∃ after joined,
      [joinDeals [2, 3] 1, joinDeals [1, 2] 2].foldlM Database.merge threeDeals = .ok after ∧
        threeDeals.merge (joinDeals [1, 2, 3] 3) = .ok joined ∧
        SameMerge [1, 2, 3] after joined 1 := by
  have stepwise : ([joinDeals [2, 3] 1, joinDeals [1, 2] 2].foldlM Database.merge
      threeDeals).toOption.any (fun after =>
        [1, 2, 3].all fun property => !after.identity.isActive property || property == 1) = true := by
    decide +kernel
  have once : (threeDeals.merge (joinDeals [1, 2, 3] 3)).toOption.isSome = true := by
    decide +kernel
  cases first : [joinDeals [2, 3] 1, joinDeals [1, 2] 2].foldlM Database.merge threeDeals with
  | error refusal => simp [first, Except.toOption] at stepwise
  | ok after =>
      cases second : threeDeals.merge (joinDeals [1, 2, 3] 3) with
      | error refusal => simp [second, Except.toOption] at once
      | ok joined =>
          refine ⟨after, joined, rfl, rfl, merge_order threeDeals_mergeable ?_ first (by simp) ?_ ?_
            second⟩
          · simp [joinDeals]
          · rw [first] at stepwise
            intro property listed active
            have left := List.all_eq_true.mp stepwise property listed
            simpa [active] using left
          · simp [joinDeals]

end Database

end Sreality.Toolkit
