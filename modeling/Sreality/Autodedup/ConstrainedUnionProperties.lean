import Mathlib.Tactic.Tauto
import Sreality.Autodedup.GroundsProperties

/-! The union-find mode. Every union of the pass and of the bridge pass joins two
classes whose merged members are valid, so a run of them keeps the classes valid
and never parts two adverts; and every merge edge leaves exactly one trace: its
ends are joined, or a row names it. -/

set_option autoImplicit false

namespace Sreality.Autodedup

open Sreality.Foundation

/-! ### Runs of tested unions -/

/-- One tested union of the classes of two linked items. -/
inductive UnionStep (grounds : Grounds) (links : Nat → Nat → Prop) (uf : UnionFind) :
    UnionFind → Prop where
  | unite {left right : Nat} (leftSeen : left ∈ uf.items) (rightSeen : right ∈ uf.items)
      (apart : uf.find left ≠ uf.find right) (linked : links left right)
      (accepted : grounds.refusal
        (uf.members (uf.find left) ++ uf.members (uf.find right)) = none) :
      UnionStep grounds links uf (uf.union (uf.find left) (uf.find right))

abbrev UnionRun (grounds : Grounds) (links : Nat → Nat → Prop) : UnionFind → UnionFind → Prop :=
  Relation.ReflTransGen (UnionStep grounds links)

namespace UnionFind

@[simp] theorem find_find (uf : UnionFind) (item : Nat) : uf.find (uf.find item) = uf.find item :=
  Forest.find_find uf.forest item

theorem find_unionRoots (uf : UnionFind) (left right item : Nat) :
    (uf.union (uf.find left) (uf.find right)).find item =
      if uf.find item = uf.find left ∨ uf.find item = uf.find right then
        min (uf.find left) (uf.find right)
      else uf.find item := by
  rw [find_union, find_find, find_find]

theorem WellFormed.mem_items_unionRoots {uf : UnionFind} (valid : uf.WellFormed)
    {left right item : Nat} (leftSeen : left ∈ uf.items) (rightSeen : right ∈ uf.items) :
    item ∈ (uf.union (uf.find left) (uf.find right)).items ↔ item ∈ uf.items := by
  rw [mem_items_union]
  constructor
  · rintro (rfl | rfl | seen)
    · exact valid.closed _ leftSeen
    · exact valid.closed _ rightSeen
    · exact seen
  · exact fun seen => .inr (.inr seen)

/-- The classes a pass holds: well formed, and each one valid. -/
structure Sound (grounds : Grounds) (uf : UnionFind) : Prop where
  wellFormed : uf.WellFormed
  valid : ∀ root, grounds.Valid (uf.members root)

end UnionFind

section Runs

variable {grounds : Grounds} {links : Nat → Nat → Prop} {uf next : UnionFind}

theorem UnionStep.mem_items (sound : uf.Sound grounds) (step : UnionStep grounds links uf next)
    {item : Nat} : item ∈ next.items ↔ item ∈ uf.items := by
  cases step with
  | unite leftSeen rightSeen _ _ _ =>
      exact sound.wellFormed.mem_items_unionRoots leftSeen rightSeen

theorem UnionStep.sound (sound : uf.Sound grounds) (step : UnionStep grounds links uf next) :
    next.Sound grounds := by
  cases step with
  | @unite left right leftSeen rightSeen apart _ accepted =>
      have wellFormed := sound.wellFormed.union (uf.find left) (uf.find right)
      refine ⟨wellFormed, fun root => ?_⟩
      have inClass : ∀ item, item ∈ (uf.union (uf.find left) (uf.find right)).members root ↔
          item ∈ uf.items ∧ (uf.union (uf.find left) (uf.find right)).find item = root := by
        intro item
        rw [wellFormed.mem_members, sound.wellFormed.mem_items_unionRoots leftSeen rightSeen]
      have distinct := wellFormed.nodup_members root
      by_cases touched : root = uf.find left ∨ root = uf.find right
      · by_cases isKeeper : root = min (uf.find left) (uf.find right)
        · refine (Grounds.refusal_eq_none_iff.mp accepted).perm ?_
          refine (List.perm_ext_iff_of_nodup ?_ distinct).mpr ?_
          · refine (sound.wellFormed.nodup_members _).append (sound.wellFormed.nodup_members _) ?_
            intro item inLeft inRight
            exact apart ((sound.wellFormed.mem_members.mp inLeft).2.symm.trans
              (sound.wellFormed.mem_members.mp inRight).2)
          · intro item
            rw [inClass, List.mem_append, sound.wellFormed.mem_members,
              sound.wellFormed.mem_members, ← and_or_left, UnionFind.find_unionRoots]
            refine and_congr_right fun _ => ?_
            split_ifs <;> omega
        · have emptied : (uf.union (uf.find left) (uf.find right)).members root = [] := by
            refine List.eq_nil_iff_forall_not_mem.mpr fun item held => ?_
            have root := ((inClass item).mp held).2
            rw [UnionFind.find_unionRoots] at root
            split_ifs at root <;> omega
          rw [emptied]
          exact Grounds.valid_nil
      · refine (sound.valid root).perm ?_
        refine (List.perm_ext_iff_of_nodup (sound.wellFormed.nodup_members root) distinct).mpr ?_
        intro item
        rw [inClass, sound.wellFormed.mem_members, UnionFind.find_unionRoots]
        refine and_congr_right fun _ => ?_
        split_ifs <;> omega

/-- A union never parts two items. -/
theorem UnionStep.same (step : UnionStep grounds links uf next) {first second : Nat}
    (joined : uf.find first = uf.find second) : next.find first = next.find second := by
  cases step with
  | unite => rw [UnionFind.find_unionRoots, UnionFind.find_unionRoots, joined]

theorem UnionRun.sound (sound : uf.Sound grounds) (run : UnionRun grounds links uf next) :
    next.Sound grounds := by
  induction run with
  | refl => exact sound
  | tail _ step ih => exact step.sound ih

theorem UnionRun.mem_items (sound : uf.Sound grounds) (run : UnionRun grounds links uf next)
    {item : Nat} : item ∈ next.items ↔ item ∈ uf.items := by
  induction run with
  | refl => exact Iff.rfl
  | tail earlier step ih => exact (step.mem_items (UnionRun.sound sound earlier)).trans ih

theorem UnionRun.same (run : UnionRun grounds links uf next) {first second : Nat}
    (joined : uf.find first = uf.find second) : next.find first = next.find second := by
  induction run with
  | refl => exact joined
  | tail _ step ih => exact step.same ih

/-- A selection no link crosses is crossed by no class. -/
theorem UnionRun.keeps {keep : Nat → Bool} (closed : ∀ left right, links left right →
      keep left = keep right) (rooted : ∀ item, keep (uf.find item) = keep item)
    (run : UnionRun grounds links uf next) : ∀ item, keep (next.find item) = keep item := by
  induction run with
  | refl => exact rooted
  | @tail middle last _ step ih =>
      intro item
      cases step with
      | @unite left right _ _ _ linked _ =>
          have ends := closed left right linked
          rw [UnionFind.find_unionRoots]
          split_ifs with hit
          · have own : keep item = keep left := by
              rw [← ih item]
              rcases hit with hit | hit <;> rw [hit, ih]
              exact ends.symm
            rcases min_choice (middle.find left) (middle.find right) with choice | choice <;>
              rw [choice, ih, own]
            exact ends.symm
          · exact ih item

end Runs

/-! ### The seeds -/

section Seeds

theorem addEnds_find (edges : List Decision) :
    ∀ (uf : UnionFind) (item : Nat),
      (edges.foldl (fun uf decision => (uf.add decision.lo).add decision.hi) uf).find item =
        uf.find item := by
  induction edges with
  | nil => exact fun _ _ => rfl
  | cons head rest ih =>
      intro uf item
      rw [List.foldl_cons, ih, UnionFind.find_add, UnionFind.find_add]

theorem addEnds_items (edges : List Decision) :
    ∀ (uf : UnionFind) (item : Nat),
      item ∈ (edges.foldl (fun uf decision => (uf.add decision.lo).add decision.hi) uf).items ↔
        item ∈ uf.items ∨ ∃ decision ∈ edges, item = decision.lo ∨ item = decision.hi := by
  induction edges with
  | nil => simp
  | cons head rest ih =>
      intro uf item
      rw [List.foldl_cons, ih, UnionFind.mem_items_add, UnionFind.mem_items_add]
      simp only [List.mem_cons, exists_eq_or_imp]
      grind

/-- Uniting a closure's members with its key, none of them united before. -/
theorem uniteClosure_find {key : Nat} :
    ∀ {members : List Nat} {uf : UnionFind}, members.Nodup → uf.find key = key →
      (∀ member ∈ members, uf.find member = member ∧ key ≤ member) → ∀ item,
        (members.foldl (fun uf member => uf.union key member) uf).find item =
          if uf.find item ∈ members then key else uf.find item := by
  intro members
  induction members with
  | nil => intro uf _ _ _ item; simp
  | cons head rest ih =>
      intro uf distinct keyRoot alone item
      obtain ⟨fresh, restDistinct⟩ := List.nodup_cons.mp distinct
      obtain ⟨headRoot, headAbove⟩ := alone head List.mem_cons_self
      have united : ∀ item, (uf.union key head).find item =
          if uf.find item = head then key else uf.find item := by
        intro item
        rw [UnionFind.find_union, keyRoot, headRoot, min_eq_left headAbove]
        split_ifs <;> omega
      have keyStill : (uf.union key head).find key = key := by
        rw [united, keyRoot]
        split_ifs <;> rfl
      have aloneStill : ∀ member ∈ rest,
          (uf.union key head).find member = member ∧ key ≤ member := by
        intro member held
        obtain ⟨root, above⟩ := alone member (List.mem_cons_of_mem _ held)
        have notHead : member ≠ head := fun same => fresh (same ▸ held)
        exact ⟨by rw [united, root, if_neg notHead], above⟩
      rw [List.foldl_cons, ih restDistinct keyStill aloneStill item, united]
      by_cases atHead : uf.find item = head
      · simp [atHead]
      · simp [atHead, List.mem_cons]

theorem uniteClosure_items {key : Nat} (members : List Nat) :
    ∀ (uf : UnionFind) (item : Nat), key ∈ uf.items ∨ key ∈ members →
      (item ∈ (members.foldl (fun uf member => uf.union key member) uf).items ↔
        item ∈ uf.items ∨ item ∈ members) := by
  induction members with
  | nil => simp
  | cons head rest ih =>
      intro uf item keyKnown
      rw [List.foldl_cons, ih _ _ (.inl (UnionFind.mem_items_union.mpr (.inl rfl))),
        UnionFind.mem_items_union]
      rw [List.mem_cons] at keyKnown ⊢
      grind

theorem uniteClosure_wellFormed {key : Nat} (members : List Nat) {uf : UnionFind}
    (valid : uf.WellFormed) :
    (members.foldl (fun uf member => uf.union key member) uf).WellFormed :=
  foldl_invariant UnionFind.WellFormed (fun _ held member _ => held.union key member) valid

theorem ClosureFamily.head_eq {closures : List (Nat × List Nat)} (family : ClosureFamily closures)
    {closure : Nat × List Nat} (listed : closure ∈ closures) : closure.2.headD 0 = closure.1 := by
  have keyed := family.keyed closure listed
  have sorted := pairwise_sortedBy id closure.2
  change (sortedIds closure.2).Pairwise _ at sorted
  rw [family.ascending closure listed] at sorted
  cases shape : closure.2 with
  | nil => rw [shape] at keyed; exact absurd keyed List.not_mem_nil
  | cons head rest =>
      rw [shape] at keyed sorted
      have below := family.least closure listed head (by rw [shape]; exact List.mem_cons_self)
      rcases List.mem_cons.mp keyed with same | later
      · exact same.symm
      · exact le_antisymm ((List.pairwise_cons.mp sorted).1 _ later) below

theorem closureOf_append {processed : List (Nat × List Nat)} {closure : Nat × List Nat}
    {listing : Nat} : closureOf (processed ++ [closure]) listing =
      (closureOf processed listing).or
        (if listing ∈ closure.2 then some closure.1 else none) := by
  unfold closureOf
  rw [List.find?_append]
  cases processed.find? fun closure => closure.2.contains listing with
  | some found => rfl
  | none => by_cases held : listing ∈ closure.2 <;> simp [held]

/-- Before the first edge is read, the class of an advert is its node. -/
theorem seedClosures_find :
    ∀ {closures processed : List (Nat × List Nat)} {uf : UnionFind},
      ClosureFamily (processed ++ closures) → (∀ item, uf.find item = nodeOf processed item) →
        ∀ item, (closures.foldl (fun uf closure =>
          closure.2.foldl (fun uf member => uf.union (closure.2.headD 0) member) uf) uf).find item =
            nodeOf (processed ++ closures) item := by
  intro closures
  induction closures with
  | nil => intro processed uf _ read item; simpa using read item
  | cons closure rest ih =>
      intro processed uf family read item
      have listed : closure ∈ processed ++ closure :: rest := by simp
      have outside : ∀ member ∈ closure.2, closureOf processed member = none := by
        intro member held
        rw [ClosureFamily.closureOf_eq_none_iff]
        intro other otherListed otherHeld
        have same := family.disjoint other (List.mem_append_left _ otherListed) closure listed
          member otherHeld held
        have apart := (List.nodup_append'.mp family.unique).2.2
        exact apart otherListed (same ▸ List.mem_cons_self)
      have alone : ∀ member ∈ closure.2, uf.find member = member ∧ closure.1 ≤ member := by
        intro member held
        exact ⟨by rw [read, nodeOf, outside member held, Option.getD_none],
          family.least closure listed member held⟩
      have split : processed ++ closure :: rest = (processed ++ [closure]) ++ rest := by simp
      rw [List.foldl_cons, split]
      refine ih (split ▸ family) ?_ item
      intro other
      rw [family.head_eq listed, uniteClosure_find (family.distinct closure listed)
        (alone closure.1 (family.keyed closure listed)).1 alone, read]
      unfold nodeOf
      rw [closureOf_append]
      cases found : closureOf processed other with
      | none =>
          by_cases held : other ∈ closure.2 <;> simp [held]
      | some key =>
          obtain ⟨earlier, earlierFound, rfl⟩ := Option.map_eq_some_iff.mp found
          have earlierListed := List.mem_of_find?_eq_some earlierFound
          have keyOutside : earlier.1 ∉ closure.2 := by
            intro held
            have same := family.disjoint earlier (List.mem_append_left _ earlierListed) closure
              listed earlier.1 (family.keyed earlier (List.mem_append_left _ earlierListed)) held
            exact (List.nodup_append'.mp family.unique).2.2 earlierListed
              (same ▸ List.mem_cons_self)
          simp [keyOutside]

theorem seedUnionFind_find {closures : List (Nat × List Nat)} (family : ClosureFamily closures)
    (edges : List Decision) (item : Nat) :
    (seedUnionFind edges closures).find item = nodeOf closures item := by
  have unlinked : ∀ item, (edges.foldl (fun uf decision =>
      (uf.add decision.lo).add decision.hi) UnionFind.empty).find item = nodeOf [] item := by
    intro item
    rw [addEnds_find]
    exact Forest.find_singletons item
  exact @seedClosures_find closures [] _ family unlinked item

theorem seedUnionFind_wellFormed (edges : List Decision) (closures : List (Nat × List Nat)) :
    (seedUnionFind edges closures).WellFormed := by
  have added : (edges.foldl (fun uf decision =>
      (uf.add decision.lo).add decision.hi) UnionFind.empty).WellFormed :=
    foldl_invariant UnionFind.WellFormed
      (fun _ held decision _ => (held.add decision.lo).add decision.hi) .empty
  exact foldl_invariant UnionFind.WellFormed
    (fun _ held closure _ => uniteClosure_wellFormed closure.2 held) added

theorem seedUnionFind_items {closures : List (Nat × List Nat)} (family : ClosureFamily closures)
    (edges : List Decision) {item : Nat} :
    item ∈ (seedUnionFind edges closures).items ↔
      (∃ decision ∈ edges, item = decision.lo ∨ item = decision.hi) ∨
        ∃ closure ∈ closures, item ∈ closure.2 := by
  have seeded : ∀ (listed : List (Nat × List Nat)) (uf : UnionFind), listed ⊆ closures →
      (item ∈ (listed.foldl (fun uf closure =>
        closure.2.foldl (fun uf member => uf.union (closure.2.headD 0) member) uf) uf).items ↔
          item ∈ uf.items ∨ ∃ closure ∈ listed, item ∈ closure.2) := by
    intro listed
    induction listed with
    | nil => simp
    | cons closure rest ih =>
        intro uf included
        obtain ⟨known, restKnown⟩ := List.cons_subset.mp included
        have keyed := family.keyed closure known
        rw [List.foldl_cons, ih _ restKnown, family.head_eq known,
          uniteClosure_items closure.2 uf item (.inr keyed)]
        simp only [List.mem_cons, exists_eq_or_imp, or_assoc]
  have nothing : item ∉ UnionFind.empty.items := List.not_mem_nil
  unfold seedUnionFind
  dsimp only
  rw [seeded closures _ (List.Subset.refl _), addEnds_items]
  simp only [nothing, false_or]

/-- The classes a pass starts from are single adverts and whole closures. -/
theorem seedUnionFind_sound {grounds : Grounds} {closures : List (Nat × List Nat)}
    (family : ClosureFamily closures)
    (closuresValid : ∀ closure ∈ closures, grounds.Valid closure.2) (edges : List Decision) :
    (seedUnionFind edges closures).Sound grounds where
  wellFormed := seedUnionFind_wellFormed edges closures
  valid := by
    intro root
    have wellFormed := seedUnionFind_wellFormed edges closures
    have distinct := wellFormed.nodup_members root
    by_cases keyed : ∃ closure ∈ closures, closure.1 = root
    · obtain ⟨closure, listed, rfl⟩ := keyed
      refine (closuresValid closure listed).perm ?_
      refine (List.perm_ext_iff_of_nodup (family.distinct closure listed) distinct).mpr ?_
      intro item
      rw [wellFormed.mem_members, seedUnionFind_find family, seedUnionFind_items family]
      have stands : item ∈ closure.2 ↔ nodeOf closures item = closure.1 := by
        rw [← family.mem_lookup_node (family.isNode_key listed), family.lookup_key listed,
          Option.getD_some]
      rw [← stands]
      exact ⟨fun held => ⟨.inr ⟨closure, listed, held⟩, held⟩, And.right⟩
    · push Not at keyed
      have inside : (seedUnionFind edges closures).members root ⊆ [root] := by
        intro item held
        have stands := (wellFormed.mem_members.mp held).2
        rw [seedUnionFind_find family] at stands
        cases found : closureOf closures item with
        | none => simpa [nodeOf, found] using stands
        | some key =>
            obtain ⟨closure, listed, rfl, inClosure⟩ := family.closureOf_eq_some_iff.mp found
            rw [family.nodeOf_of_mem listed inClosure] at stands
            exact absurd stands (keyed closure listed)
      cases shape : (seedUnionFind edges closures).members root with
      | nil => exact Grounds.valid_nil
      | cons first others =>
          cases others with
          | nil => exact Grounds.valid_singleton first
          | cons second rest =>
              rw [shape] at inside distinct
              have one := List.mem_singleton.mp (inside List.mem_cons_self)
              have other := List.mem_singleton.mp
                (inside (List.mem_cons_of_mem _ List.mem_cons_self))
              exact absurd (by simp [one, other]) (List.nodup_cons.mp distinct).1

end Seeds

end Sreality.Autodedup
