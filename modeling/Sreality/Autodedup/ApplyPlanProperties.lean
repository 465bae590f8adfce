import Sreality.Autodedup.ApplyPlan
import Sreality.Toolkit.PropertyIdentityProperties

/-! What the engine merges was allowed: the rulings, categories and scope hold over the rows
the group's own transaction locks, and what the plan vouched for is carried over by the test
that the listings are the ones planned. -/

set_option autoImplicit false

namespace Sreality.Autodedup

open Sreality.Foundation Sreality.Toolkit

/-! ### The newest ruling -/

/-- The newest of the rulings on one thing. -/
def Newest (rulings : List Ruling) (about : Ruling → Prop) (ruling : Ruling) : Prop :=
  ruling ∈ rulings ∧ about ruling ∧
    ∀ other ∈ rulings, about other → other.order ≤ ruling.order

def NegativePair (database : Database) (lo hi : Nat) : Prop :=
  ∃ ruling, Newest database.rulings (fun other => other.ruled = .pair lo hi) ruling ∧
    ruling.verdict.negative = true

/-- A group ruling on exactly this set, under whichever key it was taken. -/
def Ruling.OnSet (ruling : Ruling) (set : Finset Nat) : Prop :=
  ∃ key members, ruling.ruled = .cluster key (some members) ∧ members.toFinset = set

def NegativeSet (database : Database) (set : Finset Nat) : Prop :=
  ∃ ruling, Newest database.rulings (fun other => other.OnSet set) ruling ∧
    ruling.verdict.negative = true

variable {database : Database}

theorem order_injective (database : Database) {one other : Ruling} (held : one ∈ database.rulings)
    (otherHeld : other ∈ database.rulings) (same : one.order = other.order) : one = other :=
  database.keyed.eq held otherHeld (congrArg (fun order => (ofLex order).2) same)

theorem pair_eq_some {ruling : Ruling} {lo hi : Nat} :
    ruling.pair = some (lo, hi) ↔ ruling.ruled = .pair lo hi := by
  unfold Ruling.pair
  cases ruling.ruled with
  | pair first second => simp
  | cluster key members => simp

theorem set_eq_some {ruling : Ruling} {set : Finset Nat} (two : 2 ≤ set.card) :
    ruling.set = some set ↔ ruling.OnSet set := by
  unfold Ruling.set Ruling.OnSet
  cases ruling.ruled with
  | pair first second => simp
  | cluster key members =>
      cases members with
      | none => simp
      | some members =>
          constructor
          · intro named
            dsimp only at named
            split_ifs at named
            cases named
            exact ⟨key, members, rfl, rfl⟩
          · rintro ⟨_, _, same, rfl⟩
            cases same
            exact if_neg (Nat.not_lt.mpr two)

/-- The newest ruling of a thing stands among the rows of any read that holds all of them. -/
theorem Newest.stands {Key : Type} [DecidableEq Key] {about : Ruling → Prop} {ruling : Ruling}
    (newest : Newest database.rulings about ruling) (key : Ruling → Key)
    (names : ∀ other, key other = key ruling → about other) {keep : Ruling → Bool}
    (kept : keep ruling = true) :
    ruling ∈ distinctOn key Ruling.order (database.rulings.filter keep) := by
  obtain ⟨held, _, highest⟩ := newest
  rw [mem_distinctOn]
  · refine ⟨List.mem_filter.mpr ⟨held, kept⟩, ?_⟩
    intro other among same
    exact highest other (List.mem_of_mem_filter among) (names other same)
  · intro one oneHeld other otherHeld
    exact order_injective database (List.mem_of_mem_filter oneHeld)
      (List.mem_of_mem_filter otherHeld)

namespace Negatives

variable {listings : Finset Nat} {keys : List Nat} {clusterKey : Nat}

theorem refusal_eq_nil {reason : SkipReason} {stands : Bool} :
    refusal reason stands = [] ↔ stands = false := by
  cases stands <;> simp [refusal]

/-- Negatives that refuse nothing contradict none of the listings. -/
theorem hits_eq_nil {negatives : Negatives} (clear : negatives.hits listings clusterKey = []) :
    (∀ lo ∈ listings, ∀ ruled ∈ negatives.sets lo, ¬ ruled ⊆ listings) ∧
    (∀ lo ∈ listings, ∀ hi ∈ negatives.pairs lo, hi ∉ listings) ∧
    ∀ lo ∈ listings, ∀ hi ∈ negatives.mustNotLink lo, hi ∉ listings := by
  unfold hits at clear
  dsimp only at clear
  rw [List.append_eq_nil_iff, List.append_eq_nil_iff, refusal_eq_nil, refusal_eq_nil,
    refusal_eq_nil, Bool.or_eq_false_iff] at clear
  obtain ⟨⟨⟨sets, _⟩, pairs⟩, mustNotLink⟩ := clear
  refine ⟨?_, ?_, ?_⟩
  · intro lo held ruled listed
    have refused := List.any_eq_false.mp sets lo (mem_ascending.mpr held)
    exact fun within => refused (List.any_eq_true.mpr ⟨ruled, listed, decide_eq_true within⟩)
  · intro lo held hi listed
    have refused := List.any_eq_false.mp pairs lo (mem_ascending.mpr held)
    exact fun among => refused (List.any_eq_true.mpr ⟨hi, listed, decide_eq_true among⟩)
  · intro lo held hi listed
    have refused := List.any_eq_false.mp mustNotLink lo (mem_ascending.mpr held)
    exact fun among => refused (List.any_eq_true.mpr ⟨hi, listed, decide_eq_true among⟩)

theorem ascending_ne_nil {lo : Nat} (held : lo ∈ listings) : (ascending listings) ≠ [] :=
  List.ne_nil_of_mem (mem_ascending.mpr held)

/-- A set whose negatives refuse nothing holds no pair the operator ruled apart. -/
theorem clear_of_pair (clear : (Negatives.read database (ascending listings) keys).hits listings
    clusterKey = []) {lo hi : Nat} (loHeld : lo ∈ listings) (hiHeld : hi ∈ listings) :
    ¬ NegativePair database lo hi := by
  rintro ⟨ruling, newest, negative⟩
  have named : ruling.pair = some (lo, hi) := pair_eq_some.mpr newest.2.1
  have stands : ruling ∈ distinctOn Ruling.pair Ruling.order (database.rulings.filter fun ruling =>
      ruling.pair.any fun pair => decide (pair.1 ∈ (ascending listings) ∧ pair.2 ∈ (ascending listings))) := by
    apply newest.stands
    · intro other same
      exact pair_eq_some.mp (same.trans named)
    · rw [named]
      simp [loHeld, hiHeld]
  have listed : (lo, hi) ∈ pairRulings database (ascending listings) :=
    List.mem_filterMap.mpr ⟨ruling, List.mem_filter.mpr ⟨stands, negative⟩, named⟩
  apply (hits_eq_nil clear).2.1 lo loHeld hi _ hiHeld
  rw [read, if_neg (ascending_ne_nil loHeld)]
  exact List.mem_map.mpr ⟨(lo, hi), List.mem_filter.mpr ⟨listed, decide_eq_true rfl⟩, rfl⟩

theorem clear_of_mustNotLink (clear : (Negatives.read database (ascending listings) keys).hits listings
    clusterKey = []) {lo hi : Nat} (loHeld : lo ∈ listings) (hiHeld : hi ∈ listings) :
    (lo, hi) ∉ database.mustNotLink := by
  intro held
  apply (hits_eq_nil clear).2.2 lo loHeld hi _ hiHeld
  rw [read, if_neg (ascending_ne_nil loHeld)]
  refine List.mem_map.mpr ⟨(lo, hi), List.mem_filter.mpr ⟨held, ?_⟩, rfl⟩
  simp [loHeld, hiHeld]

/-- Nor a whole set of two or more the operator ruled not one property. -/
theorem clear_of_set (clear : (Negatives.read database (ascending listings) keys).hits listings
    clusterKey = []) {set : Finset Nat} (two : 2 ≤ set.card) (within : set ⊆ listings) :
    ¬ NegativeSet database set := by
  rintro ⟨ruling, newest, negative⟩
  have named : ruling.set = some set := (set_eq_some two).mpr newest.2.1
  obtain ⟨lo, lowest⟩ := Finset.min_of_nonempty (Finset.card_pos.mp (by omega : 0 < set.card))
  have loHeld : lo ∈ listings := within (Finset.mem_of_min lowest)
  have stands : ruling ∈ distinctOn Ruling.set Ruling.order
      ((clusterRulings database (ascending listings) keys).filter fun row => row.set.isSome) := by
    unfold clusterRulings
    rw [List.filter_filter]
    apply newest.stands
    · intro other same
      exact (set_eq_some two).mp (same.trans named)
    · obtain ⟨key, members, ruled, rfl⟩ := newest.2.1
      have member := List.mem_toFinset.mp (Finset.mem_of_min lowest)
      rw [named, ruled, Option.isSome_some, Bool.true_and]
      exact List.any_eq_true.mpr ⟨lo, member, decide_eq_true (mem_ascending.mpr loHeld)⟩
  apply (hits_eq_nil clear).1 lo loHeld set _ within
  rw [read, if_neg (ascending_ne_nil loHeld)]
  refine List.mem_filter.mpr ⟨List.mem_filterMap.mpr ⟨ruling, ?_, named⟩, decide_eq_true lowest⟩
  exact List.mem_filter.mpr ⟨stands, negative⟩

end Negatives

/-! ### The checks of a set -/

variable {facts : List Member} {properties : List AdCategory} {scope : Scope}

private instance compatibleSymm :
    Std.Symm fun one other : Option String => categoryMainCompatible one other = true where
  symm := by
    intro one other held
    rw [categoryMainCompatible_comm]
    exact held

theorem pairwise_dedup_compatible {mains : List (Option String)}
    (compatible : mains.dedup.Pairwise fun one other => categoryMainCompatible one other = true)
    {one other : Option String} (held : one ∈ mains) (otherHeld : other ∈ mains) :
    categoryMainCompatible one other = true :=
  compatible.forall_of_forall (fun own _ => categoryMainCompatible_self own)
    (List.mem_dedup.mpr held) (List.mem_dedup.mpr otherHeld)

/-- Facts nothing refuses: one deal type, compatible categories, all inside the scope. -/
theorem setReasons_eq_nil (clear : setReasons facts properties scope = []) :
    (∀ one ∈ facts, ∀ other ∈ facts, ∀ own ∈ one.categoryType, ∀ its ∈ other.categoryType,
      own = its) ∧
    (∀ one ∈ facts, ∀ other ∈ facts,
      categoryMainCompatible one.categoryMain other.categoryMain = true) ∧
    ∀ fact ∈ facts, scope.Inside fact := by
  unfold setReasons at clear
  dsimp only at clear
  rw [List.append_eq_nil_iff, List.append_eq_nil_iff, Negatives.refusal_eq_nil,
    Negatives.refusal_eq_nil, Negatives.refusal_eq_nil] at clear
  obtain ⟨⟨types, mains⟩, inside⟩ := clear
  refine ⟨?_, ?_, ?_⟩
  · intro one held other otherHeld own named its itsNamed
    have short : (facts.filterMap Member.categoryType ++
        properties.filterMap (·.1)).dedup.length ≤ 1 := by
      simpa using types
    have ownListed : own ∈ (facts.filterMap Member.categoryType ++
        properties.filterMap (·.1)).dedup :=
      List.mem_dedup.mpr (List.mem_append_left _ (List.mem_filterMap.mpr ⟨one, held, named⟩))
    have itsListed : its ∈ (facts.filterMap Member.categoryType ++
        properties.filterMap (·.1)).dedup :=
      List.mem_dedup.mpr (List.mem_append_left _
        (List.mem_filterMap.mpr ⟨other, otherHeld, itsNamed⟩))
    match distinct : (facts.filterMap Member.categoryType ++
        properties.filterMap (·.1)).dedup with
    | [] =>
        rw [distinct] at ownListed
        cases ownListed
    | [only] =>
        rw [distinct] at ownListed itsListed
        exact (List.mem_singleton.mp ownListed).trans (List.mem_singleton.mp itsListed).symm
    | _ :: _ :: _ =>
        rw [distinct] at short
        simp at short
  · intro one held other otherHeld
    have compatible := not_not.mp (of_decide_eq_false mains)
    exact pairwise_dedup_compatible compatible
      (List.mem_append_left _ (List.mem_map_of_mem held))
      (List.mem_append_left _ (List.mem_map_of_mem otherHeld))
  · intro fact held
    have refused := List.any_eq_false.mp inside fact held
    exact Scope.inside_of_outside (Option.not_isSome_iff_eq_none.mp refused)

/-! ### The adverts a merge puts on the survivor -/

theorem mem_propertyListings {properties : List Nat} {row : Member} :
    row ∈ database.propertyListings properties ↔
      ∃ advert ∈ database.identity.adverts, database.member advert = row ∧
        ∃ own ∈ database.identity.place advert.listing, own ∈ properties := by
  rw [Database.propertyListings, List.mem_map]
  constructor
  · rintro ⟨advert, held, same⟩
    obtain ⟨held, placed⟩ := List.mem_filter.mp held
    obtain ⟨own, known, among⟩ := (Option.any_eq_true _ _).mp placed
    exact ⟨advert, held, same, own, known, of_decide_eq_true among⟩
  · rintro ⟨advert, held, same, own, known, among⟩
    refine ⟨advert, List.mem_filter.mpr ⟨held, ?_⟩, same⟩
    exact (Option.any_eq_true _ _).mpr ⟨own, known, decide_eq_true among⟩

theorem place_mergePair (group : GroupId) (survivor : Nat) (reason : LedgerReason)
    (state : Identity) (retired listing : Nat) :
    (Identity.mergePair group survivor reason state retired).place listing =
      (if state.place listing = some retired then some survivor else state.place listing) ∧
    (Identity.mergePair group survivor reason state retired).adverts = state.adverts := by
  have recorded : (state.recordMoves group survivor retired reason).place = state.place ∧
      (state.recordMoves group survivor retired reason).adverts = state.adverts :=
    foldl_invariant (fun next : Identity => next.place = state.place ∧ next.adverts = state.adverts)
      (fun _ held _ _ => held) ⟨rfl, rfl⟩
  refine ⟨?_, recorded.2⟩
  change (if (state.recordMoves group survivor retired reason).place listing = some retired then
    some survivor else (state.recordMoves group survivor retired reason).place listing) = _
  rw [recorded.1]

theorem place_mergeSteps {group : GroupId} {survivor : Nat} {reason : LedgerReason}
    {retired : List Nat} (apart : survivor ∉ retired) (listing : Nat) (state : Identity) :
    (retired.foldl (Identity.mergePair group survivor reason) state).place listing =
      (if ∃ own ∈ state.place listing, own ∈ retired then some survivor
        else state.place listing) ∧
    (retired.foldl (Identity.mergePair group survivor reason) state).adverts = state.adverts := by
  induction retired generalizing state with
  | nil => simp
  | cons first rest ih =>
      obtain ⟨other, restApart⟩ := List.ne_and_not_mem_of_not_mem_cons apart
      obtain ⟨place, adverts⟩ := place_mergePair group survivor reason state first listing
      obtain ⟨later, kept⟩ := ih restApart (Identity.mergePair group survivor reason state first)
      rw [List.foldl_cons]
      refine ⟨?_, kept.trans adverts⟩
      rw [later, place]
      cases here : state.place listing with
      | none => simp
      | some own =>
          by_cases same : own = first
          · subst same
            simp [restApart]
          · simp [same]

/-- The adverts on the survivor of a merge: those of the properties merged. -/
theorem place_of_merged {state after : Identity} {properties : List Nat} {source : MergeSource}
    {reason : String} {group : GroupId} {decidedBy : Option String} {survivor : Nat}
    {retired : List Nat}
    (chosen : state.mergeMembers properties source decidedBy = .ok (survivor, retired))
    (merged : state.mergePropertySet properties source reason group decidedBy = .ok after)
    {advert : Advert} (held : advert ∈ after.membersOf survivor) :
    advert ∈ state.adverts ∧ ∃ own ∈ state.place advert.listing, own ∈ properties := by
  have members := Identity.mergeMembers_members chosen
  obtain ⟨_, _, same, rfl⟩ := Identity.mergePropertySet_cases merged
  obtain ⟨rfl, rfl⟩ := Prod.mk.inj (Except.ok.inj (chosen.symm.trans same))
  have apart : survivor ∉ retired := fun held => ((members.mem_retired survivor).mp held).2 rfl
  obtain ⟨known, placed⟩ := Identity.mem_membersOf.mp held
  obtain ⟨place, adverts⟩ := @place_mergeSteps group survivor (.merge reason) retired apart
    advert.listing state
  refine ⟨adverts ▸ known, ?_⟩
  replace placed : (retired.foldl (Identity.mergePair group survivor (.merge reason)) state).place
    advert.listing = some survivor := placed
  rw [place] at placed
  split_ifs at placed with moved
  · obtain ⟨own, here, among⟩ := moved
    exact ⟨own, here, ((members.mem_retired own).mp among).1⟩
  · exact ⟨survivor, placed, members.survives⟩

/-! ### What this engine vouched for -/

/-- The listings the engine put, merge by merge, on the property of a member. -/
inductive Vouched (database : Database) (members : Finset Nat) : Nat → Prop where
  | member {listing : Nat} (own : listing ∈ members) : Vouched database members listing
  | beside {anchor listing : Nat} {row : AppliedMerge} (vouched : Vouched database members anchor)
      (known : row ∈ database.appliedMerges) (live : row.live = true) (first : anchor ∈ row.members)
      (second : listing ∈ row.members) (placed : (database.identity.place listing).isSome)
      (shared : database.identity.place anchor = database.identity.place listing) :
      Vouched database members listing

/-- Whoever is vouched for shares a property with a member. -/
theorem Vouched.shares {members : Finset Nat} {listing : Nat}
    (vouched : Vouched database members listing) : listing ∈ members ∨
      ∃ member ∈ members, (database.identity.place listing).isSome ∧
        database.identity.place member = database.identity.place listing := by
  induction vouched with
  | member own => exact .inl own
  | @beside anchor listing _ _ _ _ _ _ placed shared ih =>
      apply Or.inr
      cases ih with
      | inl own => exact ⟨anchor, own, placed, shared⟩
      | inr earlier =>
          obtain ⟨member, own, _, same⟩ := earlier
          exact ⟨member, own, placed, same.trans shared⟩

theorem mem_engineMerges {listings : Finset Nat} {merge : EngineMerge}
    (listed : merge ∈ engineMerges database listings) :
    ∃ row ∈ database.appliedMerges, row.live = true ∧ merge.members = row.members.toFinset := by
  obtain ⟨row, among, rfl⟩ := List.mem_map.mp listed
  obtain ⟨own, _, found⟩ := List.mem_filterMap.mp among
  have held := List.mem_of_mem_filter (newestOf_spec found).1
  obtain ⟨known, chosen⟩ := List.mem_filter.mp held
  exact ⟨row, known, (Bool.and_eq_true_iff.mp chosen).1, rfl⟩

theorem engineVouched_vouched {members extended listings : Finset Nat}
    {propertyOf : Nat → Option Nat}
    (placed : ∀ listing property, propertyOf listing = some property →
      database.identity.place listing = some property) {listing : Nat}
    (vouched : listing ∈ engineVouched members extended propertyOf
      (engineMerges database listings)) : Vouched database members listing := by
  have all : ∀ listing ∈ engineVouched members extended propertyOf
      (engineMerges database listings), Vouched database members listing := by
    unfold engineVouched
    apply rounds_invariant (fun vouched : Finset Nat =>
      ∀ listing ∈ vouched, Vouched database members listing)
    · intro vouched held
      apply foldl_invariant (fun state : Finset Nat × Bool =>
        ∀ listing ∈ state.1, Vouched database members listing)
      · intro state held merge listed listing among
        cases Finset.mem_union.mp among with
        | inl before => exact held listing before
        | inr new =>
            obtain ⟨row, known, live, same⟩ := mem_engineMerges listed
            obtain ⟨here, some_, anchor, anchored, shared⟩ := Finset.mem_filter.mp new
            obtain ⟨property, own⟩ := Option.isSome_iff_exists.mp some_
            have there := placed listing property own
            have anchorThere := placed anchor property (shared.trans own)
            have first := (Finset.mem_inter.mp anchored).1
            have second := (Finset.mem_inter.mp (Finset.mem_sdiff.mp here).1).1
            rw [same, List.mem_toFinset] at first second
            exact .beside (held anchor (Finset.mem_inter.mp anchored).2) known live first second
              (by rw [there]; rfl) (anchorThere.trans there.symm)
      · exact held
    · exact fun listing own => .member own
  exact all listing vouched

/-- A sweep over the merges adds listings of the extended set, and reports that it did. -/
theorem vouchSteps_spec {extended : Finset Nat} {propertyOf : Nat → Option Nat}
    {merges : List EngineMerge} {vouched : Finset Nat} :
    vouched ⊆ (merges.foldl (vouchStep extended propertyOf) (vouched, false)).1 ∧
    (merges.foldl (vouchStep extended propertyOf) (vouched, false)).1 ⊆ vouched ∪ extended ∧
    ((merges.foldl (vouchStep extended propertyOf) (vouched, false)).2 = true ↔
      (merges.foldl (vouchStep extended propertyOf) (vouched, false)).1 ≠ vouched) := by
  apply foldl_invariant (fun state : Finset Nat × Bool => vouched ⊆ state.1 ∧
    state.1 ⊆ vouched ∪ extended ∧ (state.2 = true ↔ state.1 ≠ vouched))
  · intro state held merge _
    obtain ⟨kept, bounded, flagged⟩ := held
    have fresh : ∀ listing ∈ vouchedBy extended propertyOf state.1 merge,
        listing ∈ extended ∧ listing ∉ state.1 := by
      intro listing among
      have new := Finset.mem_sdiff.mp (Finset.mem_filter.mp among).1
      exact ⟨(Finset.mem_inter.mp new.1).2, new.2⟩
    refine ⟨kept.trans Finset.subset_union_left, ?_, ?_⟩
    · apply Finset.union_subset bounded
      exact fun listing among => Finset.mem_union_right _ (fresh listing among).1
    · change (state.2 || decide (vouchedBy extended propertyOf state.1 merge ≠ ∅)) = true ↔
        state.1 ∪ vouchedBy extended propertyOf state.1 merge ≠ vouched
      rw [Bool.or_eq_true, flagged, decide_eq_true_iff]
      constructor
      · rintro moved same
        cases moved with
        | inl before =>
            exact before (Finset.Subset.antisymm (same ▸ Finset.subset_union_left) kept)
        | inr some_ =>
            obtain ⟨listing, among⟩ := Finset.nonempty_iff_ne_empty.mpr some_
            have known : listing ∈ vouched := same ▸ Finset.mem_union_right _ among
            exact (fresh listing among).2 (kept known)
      · intro moved
        by_contra nothing
        obtain ⟨before, none_⟩ := not_or.mp nothing
        rw [not_not.mp none_, Finset.union_empty] at moved
        exact moved (not_not.mp before)
  · refine ⟨Finset.Subset.refl _, Finset.subset_union_left, ?_⟩
    simp

/-- The fuel is enough: no engine merge vouches for anything more. -/
theorem engineVouched_closed (members extended : Finset Nat) (propertyOf : Nat → Option Nat)
    (merges : List EngineMerge) :
    (merges.foldl (vouchStep extended propertyOf)
      (engineVouched members extended propertyOf merges, false)).2 = false := by
  refine @rounds_settled (Finset Nat)
    (fun vouched => merges.foldl (vouchStep extended propertyOf) (vouched, false))
    (fun vouched => (extended \ vouched).card) ?_ ?_ (extended.card + 1) members ?_
  · intro vouched moved
    obtain ⟨kept, bounded, flagged⟩ := @vouchSteps_spec extended propertyOf merges vouched
    apply Finset.card_lt_card
    refine Finset.ssubset_iff_subset_ne.mpr ⟨Finset.sdiff_subset_sdiff (Finset.Subset.refl _) kept, ?_⟩
    intro same
    apply flagged.mp moved
    apply Finset.Subset.antisymm _ kept
    intro listing among
    cases Finset.mem_union.mp (bounded among) with
    | inl before => exact before
    | inr inside =>
        by_contra missing
        have left := Finset.mem_sdiff.mpr ⟨inside, missing⟩
        rw [← same] at left
        exact (Finset.mem_sdiff.mp left).2 among
  · intro vouched still
    have flagged := (@vouchSteps_spec extended propertyOf merges vouched).2.2
    by_contra moved
    rw [flagged.mpr moved] at still
    cases still
  · exact Nat.lt_succ_of_le (Finset.card_le_card Finset.sdiff_subset)

/-! ### A planned group -/

/-- The groups handed to the plan are the generation's, and so is what answers for the rest. -/
structure HandedFrom (database : Database) (handed : Handed)
    (groupOf : Option (Nat → Option Nat)) : Prop where
  members : ∀ entry ∈ handed.membersBy, entry.2 = database.membersOf entry.1
  groupOf : groupOf = none ∨ groupOf = some database.groupOf

theorem listing_memberRow (listing : Nat) : (database.memberRow listing).listing = listing := by
  unfold Database.memberRow
  split
  · rename_i advert found
    have named := List.find?_some found
    exact of_decide_eq_true named
  · rfl

theorem mem_membersOf {key listing : Nat} (held : (key, listing) ∈ database.memberships) :
    ∃ member ∈ database.membersOf key, member.listing = listing := by
  refine ⟨database.memberRow listing, ?_, listing_memberRow listing⟩
  exact List.mem_map.mpr ⟨(key, listing), List.mem_filter.mpr ⟨held, decide_eq_true rfl⟩, rfl⟩

theorem mem_of_groupOf {key listing : Nat} (grouped : database.groupOf listing = some key) :
    (key, listing) ∈ database.memberships := by
  obtain ⟨row, last, rfl⟩ := Option.map_eq_some_iff.mp grouped
  obtain ⟨held, same⟩ := List.mem_filter.mp (List.mem_of_getLast? last)
  rw [← of_decide_eq_true same]
  exact held

namespace Handed

variable {handed : Handed} {groupOf : Option (Nat → Option Nat)}

theorem members_eq (from_ : HandedFrom database handed groupOf) {key : Nat}
    (some_ : handed.members key ≠ []) : handed.members key = database.membersOf key := by
  unfold members at some_ ⊢
  cases found : handed.membersBy.lookup key with
  | none =>
      rw [found] at some_
      exact absurd rfl some_
  | some members =>
      obtain ⟨left, right, split, _⟩ := List.lookup_eq_some_iff.mp found
      have held : (key, members) ∈ handed.membersBy := by
        rw [split]
        simp
      exact from_.members (key, members) held

theorem mem_of_listingGroup {listing key : Nat}
    (grouped : handed.listingGroup listing = some key) :
    ∃ entry ∈ handed.membersBy, entry.1 = key ∧
      ∃ member ∈ entry.2, member.listing = listing := by
  obtain ⟨entry, last, same⟩ := Option.map_eq_some_iff.mp grouped
  obtain ⟨held, among⟩ := List.mem_filter.mp (List.mem_of_getLast? last)
  obtain ⟨member, own, named⟩ := List.any_eq_true.mp among
  exact ⟨entry, held, same, member, own, of_decide_eq_true named⟩

theorem unlisted_of_listingGroup {listing : Nat} (free : handed.listingGroup listing = none) :
    ∀ entry ∈ handed.membersBy, ∀ member ∈ entry.2, member.listing ≠ listing := by
  intro entry held member own named
  have last := List.getLast?_eq_none_iff.mp (Option.map_eq_none_iff.mp free)
  have among : entry ∈ handed.membersBy.filter fun entry =>
      entry.2.any fun member => decide (member.listing = listing) :=
    List.mem_filter.mpr ⟨held, List.any_eq_true.mpr ⟨member, own, decide_eq_true named⟩⟩
  rw [last] at among
  cases among

end Handed

/-- A group nothing refuses carries what its own group holds or the engine vouched for. -/
theorem Reads.candidate_carries {reads : Reads} {scope : Scope} {key : Nat} {members : List Member}
    (clear : (reads.candidateGroup scope key members).reasons = []) {listing : Nat}
    (held : listing ∈ (reads.candidateGroup scope key members).listingIds)
    (carried : listing ∉ (members.map Member.listing).toFinset) :
    reads.groupOf listing = some key ∨ (reads.groupOf listing = none ∧
      listing ∈ engineVouched (members.map Member.listing).toFinset
        (reads.extended members \ reads.held) reads.propertyOf
        (engineMerges reads.database (reads.extended members))) := by
  simp only [candidateGroup, List.append_eq_nil_iff, Negatives.refusal_eq_nil] at clear
  obtain ⟨⟨⟨_, spans⟩, ungrouped⟩, _⟩ := clear
  have among : listing ∈ ascending (reads.extended members) := mem_ascending.mpr held
  have carries : listing ∈ reads.extended members \ (members.map Member.listing).toFinset :=
    Finset.mem_sdiff.mpr ⟨held, carried⟩
  have own := List.any_eq_false.mp spans listing among
  have vouched := List.any_eq_false.mp ungrouped listing among
  cases grouped : reads.groupOf listing with
  | some other =>
      rw [grouped, Bool.and_eq_true, not_and] at own
      have same := own (decide_eq_true carries)
      exact .inl (congrArg some (by simpa using same))
  | none =>
      rw [grouped, Bool.and_eq_true, not_and] at vouched
      refine .inr ⟨rfl, ?_⟩
      by_contra missing
      exact vouched (decide_eq_true (Finset.mem_sdiff.mpr ⟨carries, missing⟩)) rfl

theorem Reads.settled_refused {reads : Reads} {key property : Nat} {members : List Member}
    {group : GroupPlan} (reported : reads.settledGroup key members property = some group) :
    group.reasons ≠ [] := by
  unfold settledGroup at reported
  dsimp only at reported
  split_ifs at reported
  cases reported
  exact List.cons_ne_nil _ _

/-- What the plan vouches for: its members, and what the engine put beside them that no group
handed to the plan holds. -/
structure PlannedGroup (database : Database) (handed : Handed) (group : GroupPlan) : Prop where
  own : group.memberIds = sortedIds ((handed.members group.clusterKey).map Member.listing)
  listings : ∀ listing ∈ group.listingIds, listing ∈ group.memberIds ∨
    (Vouched database group.memberIds.toFinset listing ∧
      ∀ entry ∈ handed.membersBy, ∀ member ∈ entry.2, member.listing ≠ listing)

theorem mem_memberIds {members : List Member} {listing : Nat} :
    listing ∈ sortedIds (members.map Member.listing) ↔
      listing ∈ (members.map Member.listing).toFinset := by
  rw [mem_sortedBy, List.mem_toFinset]

theorem toFinset_memberIds (members : List Member) :
    (sortedIds (members.map Member.listing)).toFinset = (members.map Member.listing).toFinset :=
  List.toFinset_eq_of_perm _ _ (sortedBy_perm id _)

/-- Which group the plan reads a listing in: one of those handed, else the generation's. -/
theorem groupOf_planReads {handed : Handed} {groupOf : Option (Nat → Option Nat)}
    (from_ : HandedFrom database handed groupOf) (generation : String) (realTime : Bool)
    (everyone : List Nat) (listing : Nat) :
    (∀ key, (planReads database generation realTime handed groupOf everyone).groupOf listing =
      some key → ∃ member ∈ database.membersOf key, member.listing = listing) ∧
    ((planReads database generation realTime handed groupOf everyone).groupOf listing = none →
      ∀ entry ∈ handed.membersBy, ∀ member ∈ entry.2, member.listing ≠ listing) := by
  constructor
  · intro key grouped
    replace grouped : (handed.listingGroup listing).or (groupOf.bind fun groupOf =>
      if listing ∈ _ then groupOf listing else none) = some key := grouped
    cases listed : handed.listingGroup listing with
    | some other =>
        rw [listed, Option.some_or, Option.some.injEq] at grouped
        obtain ⟨entry, among, named, member, own, is⟩ := Handed.mem_of_listingGroup listed
        have same := from_.members entry among
        rw [named, grouped] at same
        exact ⟨member, same ▸ own, is⟩
    | none =>
        rw [listed, Option.none_or] at grouped
        obtain ⟨answers, given, found⟩ := Option.bind_eq_some_iff.mp grouped
        split_ifs at found
        cases from_.groupOf with
        | inl batch =>
            rw [batch] at given
            cases given
        | inr lane =>
            rw [lane] at given
            cases given
            exact mem_membersOf (mem_of_groupOf found)
  · intro free
    exact Handed.unlisted_of_listingGroup (Option.or_eq_none_iff.mp free).1

theorem propertyOf_place {reads : Reads} {listing property : Nat}
    (placed : reads.propertyOf listing = some property) :
    reads.database.identity.place listing = some property := by
  unfold Reads.propertyOf at placed
  split_ifs at placed
  exact (Option.filter_eq_some_iff.mp placed).1

/-- The groups to apply are candidates that nothing refused. -/
theorem mem_toApply {generation : String} {realTime : Bool} {handed : Handed} {scope : Scope}
    {groupOf : Option (Nat → Option Nat)} {cap : Bool} {group : GroupPlan}
    (planned : group ∈ (planGroups database generation realTime handed scope groupOf cap).toApply) :
    ∃ everyone key, handed.members key ≠ [] ∧ group.reasons = [] ∧
      group = (planReads database generation realTime handed groupOf everyone).candidateGroup scope
        key (handed.members key) := by
  obtain ⟨listed, clear⟩ := List.mem_filter.mp planned
  replace clear := of_decide_eq_true clear
  have grouped := List.mem_of_mem_filter listed
  rw [mem_sortedBy] at grouped
  cases List.mem_append.mp grouped with
  | inl reported =>
      obtain ⟨key, _, settled⟩ := List.mem_filterMap.mp reported
      obtain ⟨property, _, settled⟩ := Option.bind_eq_some_iff.mp settled
      exact absurd clear (Reads.settled_refused settled)
  | inr candidate =>
      obtain ⟨key, chosen, same⟩ := List.mem_map.mp candidate
      obtain ⟨row, picked, rfl⟩ := List.mem_map.mp (List.mem_of_mem_filter chosen)
      have conditions := (List.mem_filter.mp picked).2
      simp only [Bool.and_eq_true, decide_eq_true_eq] at conditions
      exact ⟨_, row.key, conditions.1.2, clear, same.symm⟩

theorem plannedGroup {generation : String} {realTime : Bool} {handed : Handed} {scope : Scope}
    {groupOf : Option (Nat → Option Nat)} {cap : Bool}
    (from_ : HandedFrom database handed groupOf) {group : GroupPlan}
    (planned : group ∈ (planGroups database generation realTime handed scope groupOf cap).toApply) :
    PlannedGroup database handed group := by
  obtain ⟨everyone, key, some_, clear, rfl⟩ := mem_toApply planned
  have members := Handed.members_eq from_ some_
  refine ⟨rfl, ?_⟩
  intro listing held
  obtain ⟨grouped, free⟩ := groupOf_planReads from_ generation realTime everyone listing
  rw [or_iff_not_imp_left]
  intro carried
  have outside := fun own => carried (mem_memberIds.mpr own)
  cases Reads.candidate_carries clear held outside with
  | inl own =>
      obtain ⟨member, listed, named⟩ := grouped key own
      rw [← members] at listed
      exact absurd (List.mem_toFinset.mpr (List.mem_map.mpr ⟨member, listed, named⟩)) outside
  | inr carries =>
      obtain ⟨unlisted, vouched⟩ := carries
      refine ⟨?_, free unlisted⟩
      change Vouched database (sortedIds ((handed.members key).map Member.listing)).toFinset listing
      rw [toFinset_memberIds]
      exact engineVouched_vouched (fun _ _ placed => propertyOf_place placed) vouched

/-! ### What a merge puts on the survivor -/

/-- What a live run may merge: the adverts moved contradict no ruling of a set of at least
`least` listings nor of a pair, are of one deal type and compatible categories, lie inside the
operator's setting, and are the group's own or vouched for. -/
structure Allowed (least : Nat) (setting : ScopeFields) (planned now : Database) (handed : Handed)
    (group : GroupPlan) (moved : List Advert) : Prop where
  sets : ∀ set : Finset Nat, least ≤ set.card →
    (∀ listing ∈ set, ∃ advert ∈ moved, advert.listing = listing) → ¬ NegativeSet now set
  pairs : ∀ one ∈ moved, ∀ other ∈ moved, ¬ NegativePair now one.listing other.listing
  mustNotLink : ∀ one ∈ moved, ∀ other ∈ moved, (one.listing, other.listing) ∉ now.mustNotLink
  categoryType : ∀ one ∈ moved, ∀ other ∈ moved, ∀ own ∈ one.categoryType,
    ∀ its ∈ other.categoryType, own = its
  categoryMain : ∀ one ∈ moved, ∀ other ∈ moved,
    categoryMainCompatible one.categoryMain other.categoryMain = true
  scope : ∀ advert ∈ moved, setting.scope.Inside (now.member advert)
  vouched : ∀ advert ∈ moved, advert.listing ∈ group.memberIds ∨
    (Vouched planned group.memberIds.toFinset advert.listing ∧
      (∃ member ∈ group.memberIds, planned.identity.place member =
        planned.identity.place advert.listing) ∧
      ∀ entry ∈ handed.membersBy, ∀ member ∈ entry.2, member.listing ≠ advert.listing)

/-- A re-check that refuses nothing, over the listings planned. -/
theorem recheckGroup_eq_nil {group : GroupPlan} {scope : Scope}
    (clear : (recheckGroup database group scope).1 = []) :
    ((database.propertyListings group.propertyIds).map Member.listing).toFinset =
        group.listingIds ∧
      (Negatives.read database (ascending group.listingIds) [group.clusterKey]).hits group.listingIds
        group.clusterKey = [] ∧
      ∃ properties, setReasons (database.propertyListings group.propertyIds) properties scope =
        [] := by
  unfold recheckGroup at clear
  dsimp only at clear
  split_ifs at clear with changed
  have same := not_not.mp changed
  rw [same, List.append_eq_nil_iff, List.append_eq_nil_iff] at clear
  exact ⟨same, clear.1.2, _, clear.2⟩

/-- A group that applied passed its re-check, and merged the properties it locked. -/
theorem applyGroup_applied {group : GroupPlan} {scope : Scope} {generation : String}
    {mergeGroup : GroupId} {at_ : Timestamp} {survivor : Nat} {after : Database}
    (applied : applyGroup database group scope generation mergeGroup at_ =
      (.applied survivor, after)) :
    (recheckGroup database group scope).1 = [] ∧ ∃ retired reason,
      database.identity.mergeMembers group.propertyIds .autodedup none = .ok (survivor, retired) ∧
      database.identity.mergePropertySet group.propertyIds .autodedup reason mergeGroup none =
        .ok after.identity := by
  unfold applyGroup at applied
  dsimp only at applied
  have named : ∀ refusal, (ofRefusal refusal).1 ≠ .applied survivor := by
    intro refusal
    cases refusal <;> exact ApplyOutcome.noConfusion
  split_ifs at applied with refused
  · cases (Prod.mk.inj applied).1
  · refine ⟨not_not.mp refused, ?_⟩
    split at applied
    · exact absurd (Prod.mk.inj applied).1 (named _)
    · rename_i own retired chosen
      split at applied
      · exact absurd (Prod.mk.inj applied).1 (named _)
      · rename_i identity merged
        obtain ⟨same, rfl⟩ := Prod.mk.inj applied
        cases same
        exact ⟨retired, _, chosen, merged⟩

/-- Whenever a live run ends a group as applied, what it merged was allowed. -/
theorem applied_was_allowed (planned now : Database) (generation : String) (realTime : Bool)
    (setting override : ScopeFields) (scope : Scope)
    (live : effectiveScope (some setting) override true = .ok scope) (handed : Handed)
    (groupOf : Option (Nat → Option Nat)) (from_ : HandedFrom planned handed groupOf) (cap : Bool)
    (planScope : Scope) (group : GroupPlan)
    (chosen : group ∈
      (planGroups planned generation realTime handed planScope groupOf cap).toApply)
    (mergeGroup : GroupId) (at_ : Timestamp) (survivor : Nat) (after : Database)
    (applied : applyGroup now group scope generation mergeGroup at_ =
      (.applied survivor, after)) :
    Allowed 2 setting planned now handed group (after.identity.membersOf survivor) := by
  obtain ⟨clear, retired, reason, members, merged⟩ := applyGroup_applied applied
  obtain ⟨same, hits, properties, checks⟩ := recheckGroup_eq_nil clear
  obtain ⟨types, mains, inside⟩ := setReasons_eq_nil checks
  have plan := plannedGroup from_ chosen
  have fact : ∀ advert ∈ after.identity.membersOf survivor,
      now.member advert ∈ now.propertyListings group.propertyIds := by
    intro advert moved
    obtain ⟨known, own, here, among⟩ := place_of_merged members merged moved
    exact mem_propertyListings.mpr ⟨advert, known, rfl, own, here, among⟩
  have listed : ∀ advert ∈ after.identity.membersOf survivor,
      advert.listing ∈ group.listingIds := by
    intro advert moved
    rw [← same, List.mem_toFinset]
    exact List.mem_map.mpr ⟨now.member advert, fact advert moved, rfl⟩
  constructor
  · intro set two within
    apply Negatives.clear_of_set hits two
    intro listing held
    obtain ⟨advert, moved, rfl⟩ := within listing held
    exact listed advert moved
  · intro one oneMoved other otherMoved
    exact Negatives.clear_of_pair hits (listed one oneMoved) (listed other otherMoved)
  · intro one oneMoved other otherMoved
    exact Negatives.clear_of_mustNotLink hits (listed one oneMoved) (listed other otherMoved)
  · intro one oneMoved other otherMoved
    exact types _ (fact one oneMoved) _ (fact other otherMoved)
  · intro one oneMoved other otherMoved
    exact mains _ (fact one oneMoved) _ (fact other otherMoved)
  · intro advert moved
    exact effectiveScope_inside live (inside _ (fact advert moved))
  · intro advert moved
    rw [or_iff_not_imp_left]
    intro carried
    obtain ⟨vouched, free⟩ := (plan.listings _ (listed advert moved)).resolve_left carried
    refine ⟨vouched, ?_, free⟩
    obtain ⟨member, own, _, shared⟩ := vouched.shares.resolve_left
      fun own => carried (List.mem_toFinset.mp own)
    exact ⟨member, List.mem_toFinset.mp own, shared⟩

/-! Two adverts of one group, a third the engine put beside the first, and a ruling on the
first alone. -/

def saleFlat (listing : Nat) : Advert where
  listing := listing
  categoryType := some "prodej"
  categoryMain := some "byt"

theorem saleFlats_distinct :
    ([saleFlat 1, saleFlat 2, saleFlat 3].map Advert.listing).Nodup := by decide

def pairDatabase : Database where
  identity :=
    { adverts := [saleFlat 1, saleFlat 2, saleFlat 3]
      distinct := saleFlats_distinct
      place := fun listing => if listing = 3 then some 1 else some listing
      property := fun property => if property = 1 ∨ property = 2 then some {} else none
      ledger := []
      nextProperty := 3
      nextEvent := 1 }
  memberships := [(7, 1), (7, 2)]
  rulings := [{ id := 1, ruled := .cluster 7 (some [1]), verdict := .different, decidedAt := 0 }]
  keyed := by
    unfold Keyed
    decide
  appliedMerges :=
    [{ id := 1, generation := "g1", clusterKey := 7, survivor := some 1, retired := some 3
       group := some 1, dryRun := false, outcome := .applied, members := [1, 3]
       placement := [], appliedAt := 0, undone := false }]

def saleSetting : ScopeFields where
  categoryTypes := some {"prodej"}
  allBlocks := some true

def pairHanded : Handed where
  clusterRows := [{ key := 7, proposed := true }]
  membersBy := [(7, pairDatabase.membersOf 7)]

theorem pairHanded_from : HandedFrom pairDatabase pairHanded none where
  members := by
    intro entry held
    cases List.mem_singleton.mp held
    rfl
  groupOf := .inl rfl

/-- The one group planned: three listings onto property 1. -/
def pairPlan : GroupPlan :=
  (planReads pairDatabase "g2" false pairHanded none [7]).candidateGroup saleSetting.scope 7
    (pairHanded.members 7)

theorem pairPlan_chosen : pairPlan ∈ (planGroups pairDatabase "g2" false pairHanded
    saleSetting.scope none true).toApply := by
  have clear : pairPlan.reasons = [] := by decide +kernel
  have deferred : (planGroups pairDatabase "g2" false pairHanded saleSetting.scope none
      true).deferred = [] := by decide +kernel
  have planned : pairPlan ∈ (planGroups pairDatabase "g2" false pairHanded saleSetting.scope none
      true).groups := by
    refine List.mem_filter.mpr ⟨mem_sortedBy.mpr (List.mem_append_right _ ?_), ?_⟩
    · exact List.mem_map.mpr ⟨7, by decide +kernel, rfl⟩
    · change decide (pairPlan.clusterKey ∉ (planGroups pairDatabase "g2" false pairHanded
        saleSetting.scope none true).deferred) = true
      rw [deferred]
      exact decide_eq_true List.not_mem_nil
  exact List.mem_filter.mpr ⟨planned, decide_eq_true clear⟩

theorem pairPlan_applied : (applyGroup pairDatabase pairPlan saleSetting.scope "g2" 9 0).1 =
    .applied 1 := by decide +kernel

theorem saleSetting_live : effectiveScope (some saleSetting) {} true = .ok saleSetting.scope := rfl

theorem applied_was_allowed_beside :
    Allowed 2 saleSetting pairDatabase pairDatabase pairHanded pairPlan
      ((applyGroup pairDatabase pairPlan saleSetting.scope "g2" 9 0).2.identity.membersOf 1) :=
  applied_was_allowed pairDatabase pairDatabase "g2" false saleSetting {} saleSetting.scope
    saleSetting_live pairHanded none pairHanded_from true saleSetting.scope pairPlan
    pairPlan_chosen 9 0 1 _ (Prod.ext pairPlan_applied rfl)

theorem ruling_on_one_advert_merged :
    ¬ ∀ (planned now : Database) (generation : String) (realTime : Bool)
      (setting override : ScopeFields) (scope : Scope),
      effectiveScope (some setting) override true = .ok scope → ∀ (handed : Handed)
      (groupOf : Option (Nat → Option Nat)), HandedFrom planned handed groupOf →
      ∀ (cap : Bool) (planScope : Scope), ∀ group ∈
        (planGroups planned generation realTime handed planScope groupOf cap).toApply,
      ∀ (mergeGroup : GroupId) (at_ : Timestamp) (survivor : Nat) (after : Database),
      applyGroup now group scope generation mergeGroup at_ = (.applied survivor, after) →
      Allowed 0 setting planned now handed group (after.identity.membersOf survivor) := by
  intro all
  have allowed := all pairDatabase pairDatabase "g2" false saleSetting {} saleSetting.scope
    saleSetting_live pairHanded none pairHanded_from true saleSetting.scope pairPlan
    pairPlan_chosen 9 0 1 _ (Prod.ext pairPlan_applied rfl)
  have moved : ((applyGroup pairDatabase pairPlan saleSetting.scope "g2" 9 0).2.identity.membersOf
      1).any fun advert => decide (advert.listing = 1) := by decide +kernel
  apply allowed.sets {1} (Nat.zero_le _)
  · intro listing held
    cases Finset.mem_singleton.mp held
    obtain ⟨advert, own, named⟩ := List.any_eq_true.mp moved
    exact ⟨advert, own, of_decide_eq_true named⟩
  · refine ⟨_, ⟨List.mem_singleton.mpr rfl, ⟨7, [1], rfl, rfl⟩, ?_⟩, rfl⟩
    intro other held _
    cases List.mem_singleton.mp held
    exact le_refl _

end Sreality.Autodedup
