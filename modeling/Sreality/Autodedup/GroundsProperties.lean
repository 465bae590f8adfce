import Sreality.Autodedup.ClosureProperties

/-! Validity of a set of adverts on the grounds of a pass: it does not depend on
the order they are listed in, one advert is valid, and so is every closure kept
whole. -/

set_option autoImplicit false

namespace Sreality.Autodedup

open Sreality.Foundation

/-- The grounds a clustering uses, its closures read off the rulings. -/
def groundsOf (fps : Fingerprints) (settings : Settings) (mustNotLink : List Pair)
    (relation : Option ClusterRelation) (mustLink machineVetoes : List Pair) : Grounds :=
  clusterGrounds fps settings mustNotLink relation
    (validClosures mustLink fps settings mustNotLink).1 machineVetoes

namespace Grounds

variable {grounds : Grounds}

def Valid (grounds : Grounds) (members : List Nat) : Prop :=
  ClusterValid grounds.settings grounds.mustNotLink grounds.relation grounds.closureOf
    (members.filterMap grounds.fps.get)

theorem refusal_eq_none_iff {members : List Nat} :
    grounds.refusal members = none ↔ grounds.Valid members :=
  clusterInvariantsOk_eq_none_iff

theorem Valid.perm {members others : List Nat} (valid : grounds.Valid members)
    (same : members.Perm others) : grounds.Valid others :=
  ClusterValid.perm valid (same.filterMap _)

theorem valid_nil : grounds.Valid [] :=
  ⟨Nat.zero_le _, areasHeld_of_length_le (Nat.zero_le _), List.Pairwise.nil,
    fun _ _ => List.Pairwise.nil⟩

theorem valid_singleton (listing : Nat) : grounds.Valid [listing] := by
  have size := grounds.settings.sizeAtLeastTwo
  cases held : grounds.fps.get listing with
  | none =>
      have read : [listing].filterMap grounds.fps.get = [] := by simp [held]
      unfold Valid
      rw [read]
      exact valid_nil
  | some fp =>
      have read : [listing].filterMap grounds.fps.get = [fp] := by simp [held]
      unfold Valid
      rw [read]
      exact ⟨by simpa using (by omega : 1 ≤ grounds.settings.maxClusterSize),
        areasHeld_of_length_le le_rfl, List.pairwise_singleton _ _,
        fun _ _ => List.pairwise_singleton _ _⟩

theorem valid_of_length_le {members : List Nat} (single : members.length ≤ 1) :
    grounds.Valid members := by
  cases members with
  | nil => exact valid_nil
  | cons only rest =>
      have alone : rest = [] := List.eq_nil_of_length_eq_zero (by simpa using single)
      rw [alone]
      exact valid_singleton only

/-- A wider set takes in one that a limb refuses, the limb lifted: a land advert of the wider
set keeps the dispositions from being read, or the areas lie apart by their rounded gap. -/
def Lifts (grounds : Grounds) (part whole : List Nat) : Prop :=
  part ⊆ whole ∧ (grounds.refusal part = some .areaSpread ∨
    grounds.refusal part = some .disposition ∧
      ∃ fp ∈ whole.filterMap grounds.fps.get, fp.isLand = true)

instance (grounds : Grounds) (part whole : List Nat) : Decidable (grounds.Lifts part whole) :=
  inferInstanceAs (Decidable (_ ∧ _))

/-- A set is refused inside an accepted one only where a limb is lifted. -/
theorem lifts_of_refused {part whole : List Nat} (valid : grounds.Valid whole)
    (distinct : part.Nodup) (inside : part ⊆ whole) (refused : grounds.refusal part ≠ none) :
    grounds.Lifts part whole := by
  obtain ⟨invariant, broken⟩ := Option.ne_none_iff_exists'.mp refused
  obtain ⟨listed, same, sublist⟩ := List.subperm_of_subset distinct inside
  have read : (part.filterMap grounds.fps.get).Subperm (whole.filterMap grounds.fps.get) :=
    ⟨listed.filterMap grounds.fps.get, same.filterMap _, sublist.filterMap _⟩
  refine ⟨inside, ?_⟩
  rcases valid.part_refused read broken with rfl | ⟨rfl, land⟩
  · exact .inl broken
  · exact .inr ⟨broken, land⟩

end Grounds

/-! ### Closures are valid -/

section Closures

variable {fps : Fingerprints} {settings : Settings} {mustNotLink mustLink machineVetoes : List Pair}
  {relation : Option ClusterRelation}

theorem validClosures_family (mustLink : List Pair) (fps : Fingerprints) (settings : Settings)
    (mustNotLink : List Pair) : ClosureFamily (validClosures mustLink fps settings mustNotLink).1 :=
  (mustLinkClosures_family mustLink _).filter _

/-- A kept closure passes every limb of the pass: the spreads, the facts and the
machine vetoes are not read inside it. -/
theorem closure_valid {closure : Nat × List Nat}
    (kept : closure ∈ (validClosures mustLink fps settings mustNotLink).1) :
    (groundsOf fps settings mustNotLink relation mustLink machineVetoes).Valid closure.2 := by
  have family := validClosures_family mustLink fps settings mustNotLink
  have accepted : closureRefusal fps settings mustNotLink closure = none := by
    simpa using (List.mem_filter.mp kept).2
  have hard := clusterInvariantsOk_eq_none_iff.mp accepted
  have member : ∀ fp ∈ closure.2.filterMap fps.get, fp.listingId ∈ closure.2 := by
    intro fp fpMember
    obtain ⟨listing, held, found⟩ := List.mem_filterMap.mp fpMember
    rwa [fps.keyed listing fp found]
  have same : ∀ one ∈ closure.2.filterMap fps.get, ∀ other ∈ closure.2.filterMap fps.get,
      sameClosure (closureOf (validClosures mustLink fps settings mustNotLink).1)
        one.listingId other.listingId = true := by
    intro one oneMember other otherMember
    exact sameClosure_eq_true_iff.mpr ⟨closure.1,
      family.closureOf_eq_some_iff.mpr ⟨closure, kept, rfl, member one oneMember⟩,
      family.closureOf_eq_some_iff.mpr ⟨closure, kept, rfl, member other otherMember⟩⟩
  refine ⟨hard.size, areasHeld_of_sameClosure same, ?_, ?_⟩
  · refine List.Pairwise.imp_of_mem ?_ hard.pairs
    intro one other oneMember otherMember compatible
    have closed := same one oneMember other otherMember
    refine ⟨compatible.dealType, compatible.category, ?_, ?_, ?_⟩
    · exact fun _ _ _ _ _ _ => closed
    · intro refused
      rcases List.mem_append.mp refused with ruled | vetoed
      · exact compatible.ruling ruled
      · have crossing := (List.mem_filter.mp vetoed).2
        unfold pairKey at crossing
        split_ifs at crossing
        · simp [closed] at crossing
        · rw [sameClosure_comm] at crossing
          simp [closed] at crossing
    · intro bound held
      refine BoundRelation.ok_of_sameClosure ?_
      obtain ⟨read, _, rfl⟩ := Option.map_eq_some_iff.mp held
      exact closed
  · intro _ _
    refine List.pairwise_of_forall_mem_list fun one oneMember other otherMember => ?_
    exact fun _ _ _ _ _ => same one oneMember other otherMember

end Closures

end Sreality.Autodedup
