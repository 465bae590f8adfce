import Sreality.Autodedup.Cluster
import Sreality.Autodedup.GuardsProperties

/-! The must-link closures: disjoint sets of adverts keyed by their smallest,
read off the rulings as a set, and local to any selection no ruling crosses. -/

set_option autoImplicit false

namespace Sreality.Autodedup

open Sreality.Foundation

/-- Disjoint groups of several adverts, each ascending under its smallest. -/
structure ClosureFamily (closures : List (Nat × List Nat)) : Prop where
  unique : closures.Nodup
  keyed : ∀ closure ∈ closures, closure.1 ∈ closure.2
  least : ∀ closure ∈ closures, ∀ member ∈ closure.2, closure.1 ≤ member
  disjoint : ∀ closure ∈ closures, ∀ other ∈ closures, ∀ member,
    member ∈ closure.2 → member ∈ other.2 → closure = other
  ascending : ∀ closure ∈ closures, sortedIds closure.2 = closure.2
  distinct : ∀ closure ∈ closures, closure.2.Nodup
  several : ∀ closure ∈ closures, 1 < closure.2.length

namespace ClosureFamily

variable {closures : List (Nat × List Nat)}

theorem filter (family : ClosureFamily closures) (keep : Nat × List Nat → Bool) :
    ClosureFamily (closures.filter keep) where
  unique := family.unique.filter keep
  keyed := fun closure listed => family.keyed closure (List.mem_of_mem_filter listed)
  least := fun closure listed => family.least closure (List.mem_of_mem_filter listed)
  disjoint := fun closure listed other otherListed =>
    family.disjoint closure (List.mem_of_mem_filter listed) other
      (List.mem_of_mem_filter otherListed)
  ascending := fun closure listed => family.ascending closure (List.mem_of_mem_filter listed)
  distinct := fun closure listed => family.distinct closure (List.mem_of_mem_filter listed)
  several := fun closure listed => family.several closure (List.mem_of_mem_filter listed)

theorem closureOf_eq_some_iff (family : ClosureFamily closures) {listing key : Nat} :
    closureOf closures listing = some key ↔
      ∃ closure ∈ closures, closure.1 = key ∧ listing ∈ closure.2 := by
  unfold closureOf
  rw [Option.map_eq_some_iff]
  constructor
  · rintro ⟨closure, found, rfl⟩
    exact ⟨closure, List.mem_of_find?_eq_some found, rfl, by simpa using List.find?_some found⟩
  · rintro ⟨closure, listed, rfl, held⟩
    cases found : closures.find? fun closure => closure.2.contains listing with
    | none => exact absurd held (by simpa using List.find?_eq_none.mp found closure listed)
    | some other =>
        have otherHeld : listing ∈ other.2 := by simpa using List.find?_some found
        rw [family.disjoint other (List.mem_of_find?_eq_some found) closure listed listing
          otherHeld held]
        exact ⟨closure, rfl, rfl⟩

theorem closureOf_eq_none_iff {listing : Nat} :
    closureOf closures listing = none ↔ ∀ closure ∈ closures, listing ∉ closure.2 := by
  unfold closureOf
  rw [Option.map_eq_none_iff, List.find?_eq_none]
  simp

theorem lookup_key (family : ClosureFamily closures) {closure : Nat × List Nat}
    (listed : closure ∈ closures) : closures.lookup closure.1 = some closure.2 := by
  induction closures with
  | nil => exact absurd listed List.not_mem_nil
  | cons head rest ih =>
      rw [List.lookup_cons]
      by_cases same : closure.1 = head.1
      · have headKey := family.keyed head List.mem_cons_self
        have equal := family.disjoint closure listed head List.mem_cons_self closure.1
          (family.keyed closure listed) (same ▸ headKey)
        simp [equal]
      · have later : closure ∈ rest := by
          rcases List.mem_cons.mp listed with rfl | later
          · exact absurd rfl same
          · exact later
        have tail : ClosureFamily rest := by
          refine ⟨(List.nodup_cons.mp family.unique).2, ?_, ?_, ?_, ?_, ?_, ?_⟩
          · exact fun other held => family.keyed other (List.mem_cons_of_mem _ held)
          · exact fun other held => family.least other (List.mem_cons_of_mem _ held)
          · exact fun other held another anotherHeld => family.disjoint other
              (List.mem_cons_of_mem _ held) another (List.mem_cons_of_mem _ anotherHeld)
          · exact fun other held => family.ascending other (List.mem_cons_of_mem _ held)
          · exact fun other held => family.distinct other (List.mem_cons_of_mem _ held)
          · exact fun other held => family.several other (List.mem_cons_of_mem _ held)
        have unlike : (closure.1 == head.1) = false := by simpa using same
        simp [unlike, ih tail later]

theorem lookup_eq_none {node : Nat} (unkeyed : ∀ closure ∈ closures, closure.1 ≠ node) :
    closures.lookup node = none := by
  rw [List.lookup_eq_none_iff]
  intro closure listed
  simpa using (unkeyed closure listed).symm

/-- A node is a closure's key, or an advert no closure holds. -/
def IsNode (closures : List (Nat × List Nat)) (node : Nat) : Prop :=
  nodeOf closures node = node

theorem nodeOf_of_mem (family : ClosureFamily closures) {closure : Nat × List Nat}
    (listed : closure ∈ closures) {member : Nat} (held : member ∈ closure.2) :
    nodeOf closures member = closure.1 := by
  unfold nodeOf
  rw [family.closureOf_eq_some_iff.mpr ⟨closure, listed, rfl, held⟩, Option.getD_some]

theorem isNode_key (family : ClosureFamily closures) {closure : Nat × List Nat}
    (listed : closure ∈ closures) : IsNode closures closure.1 :=
  family.nodeOf_of_mem listed (family.keyed closure listed)

theorem isNode_nodeOf (family : ClosureFamily closures) (listing : Nat) :
    IsNode closures (nodeOf closures listing) := by
  cases found : closureOf closures listing with
  | none =>
      have self : nodeOf closures listing = listing := by simp [nodeOf, found]
      rw [self]
      exact self
  | some key =>
      obtain ⟨closure, listed, rfl, held⟩ := family.closureOf_eq_some_iff.mp found
      rw [family.nodeOf_of_mem listed held]
      exact family.isNode_key listed

/-- The adverts a node stands for are those standing in it. -/
theorem mem_lookup_node (family : ClosureFamily closures) {node member : Nat}
    (isNode : IsNode closures node) :
    member ∈ (closures.lookup node).getD [node] ↔ nodeOf closures member = node := by
  by_cases keyed : ∃ closure ∈ closures, closure.1 = node
  · obtain ⟨closure, listed, rfl⟩ := keyed
    rw [family.lookup_key listed, Option.getD_some]
    constructor
    · exact fun held => family.nodeOf_of_mem listed held
    · intro stands
      cases found : closureOf closures member with
      | none =>
          have self : nodeOf closures member = member := by simp [nodeOf, found]
          exact (self.symm.trans stands) ▸ family.keyed closure listed
      | some key =>
          obtain ⟨other, otherListed, rfl, held⟩ := family.closureOf_eq_some_iff.mp found
          have same : other = closure := by
            refine family.disjoint other otherListed closure listed closure.1 ?_
              (family.keyed closure listed)
            rw [← stands, family.nodeOf_of_mem otherListed held]
            exact family.keyed other otherListed
          exact same ▸ held
  · push Not at keyed
    rw [lookup_eq_none keyed, Option.getD_none, List.mem_singleton]
    constructor
    · rintro rfl
      exact isNode
    · intro stands
      cases found : closureOf closures member with
      | none =>
          have self : nodeOf closures member = member := by simp [nodeOf, found]
          exact self.symm.trans stands
      | some key =>
          obtain ⟨other, otherListed, rfl, held⟩ := family.closureOf_eq_some_iff.mp found
          rw [family.nodeOf_of_mem otherListed held] at stands
          exact absurd stands (keyed other otherListed)

theorem mem_expand (family : ClosureFamily closures) {nodes : List Nat} {member : Nat}
    (areNodes : ∀ node ∈ nodes, IsNode closures node) :
    member ∈ expand closures nodes ↔ nodeOf closures member ∈ nodes := by
  unfold expand
  rw [mem_sortedBy, List.mem_flatMap]
  constructor
  · rintro ⟨node, listed, held⟩
    rwa [(family.mem_lookup_node (areNodes node listed)).mp held]
  · exact fun listed => ⟨_, listed, (family.mem_lookup_node (areNodes _ listed)).mpr rfl⟩

theorem nodup_expand (family : ClosureFamily closures) {nodes : List Nat}
    (areNodes : ∀ node ∈ nodes, IsNode closures node) (distinct : nodes.Nodup) :
    (expand closures nodes).Nodup := by
  unfold expand
  rw [nodup_sortedBy, List.nodup_flatMap]
  refine ⟨?_, ?_⟩
  · intro node _
    cases found : closures.lookup node with
    | none => simp
    | some members =>
        obtain ⟨before, after, equal, _⟩ := List.lookup_eq_some_iff.mp found
        exact family.distinct (node, members) (equal ▸ by simp)
  · refine distinct.imp_of_mem ?_
    intro left right leftListed rightListed differ member inLeft inRight
    exact differ (((family.mem_lookup_node (areNodes left leftListed)).mp inLeft).symm.trans
      ((family.mem_lookup_node (areNodes right rightListed)).mp inRight))

end ClosureFamily

/-! ### Closures of rulings -/

theorem mem_linkingPairs {mustLink : List Pair} {known : Nat → Bool} {pair : Pair} :
    pair ∈ linkingPairs mustLink known ↔
      pair ∈ mustLink ∧ pair.1 ≠ pair.2 ∧ known pair.1 = true ∧ known pair.2 = true := by
  simp [linkingPairs, and_assoc]

theorem mem_endsOf {pairs : List Pair} {item : Nat} :
    item ∈ endsOf pairs ↔ ∃ pair ∈ pairs, item = pair.1 ∨ item = pair.2 := by
  simp [endsOf]

theorem nodup_endsOf (pairs : List Pair) : (endsOf pairs).Nodup := List.nodup_dedup _

/-- Every class of several is made of ends alone. -/
theorem find_mem_endsOf {pairs : List Pair} {item : Nat} :
    (Forest.singletons.linkAll pairs).find item ∈ endsOf pairs ↔ item ∈ endsOf pairs := by
  rw [← decide_eq_decide]
  refine Forest.keep_find_linkAll (fun item => decide (item ∈ endsOf pairs)) ?_ item
  intro pair listed
  have first : pair.1 ∈ endsOf pairs := mem_endsOf.mpr ⟨pair, listed, .inl rfl⟩
  have second : pair.2 ∈ endsOf pairs := mem_endsOf.mpr ⟨pair, listed, .inr rfl⟩
  rw [decide_eq_true first, decide_eq_true second]

theorem mustLinkClosures_family (mustLink : List Pair) (known : Nat → Bool) :
    ClosureFamily (mustLinkClosures mustLink known) := by
  unfold mustLinkClosures
  dsimp only
  generalize linkingPairs mustLink known = pairs
  have classOf : ∀ closure ∈ (sortedGroups (Forest.singletons.linkAll pairs).find
      (endsOf pairs)).filter (fun closure => decide (1 < closure.2.length)),
      closure.2 = sortedIds ((endsOf pairs).filter fun item =>
        (Forest.singletons.linkAll pairs).find item = closure.1) :=
    fun closure listed => (mem_sortedGroups.mp (List.mem_of_mem_filter listed)).2
  have members : ∀ closure ∈ (sortedGroups (Forest.singletons.linkAll pairs).find
      (endsOf pairs)).filter (fun closure => decide (1 < closure.2.length)),
      ∀ member ∈ closure.2, (Forest.singletons.linkAll pairs).find member = closure.1 := by
    intro closure listed member held
    rw [classOf closure listed, mem_sortedBy, List.mem_filter] at held
    exact of_decide_eq_true held.2
  refine ⟨(sortedGroups_nodup _ _).filter _, ?_, ?_, ?_, ?_, ?_, ?_⟩
  · intro closure listed
    obtain ⟨⟨item, itemListed, root⟩, _⟩ :=
      mem_sortedGroups.mp (List.mem_of_mem_filter listed)
    have rooted := find_mem_endsOf.mpr itemListed
    rw [root] at rooted
    rw [classOf closure listed, mem_sortedBy, List.mem_filter]
    refine ⟨rooted, decide_eq_true ?_⟩
    rw [← root, Forest.find_find]
  · intro closure listed member held
    rw [← members closure listed member held]
    exact Forest.find_le _ _
  · intro closure listed other otherListed member held otherHeld
    have same : closure.1 = other.1 :=
      (members closure listed member held).symm.trans (members other otherListed member otherHeld)
    exact Prod.ext same (by rw [classOf closure listed, classOf other otherListed, same])
  · intro closure listed
    rw [classOf closure listed]
    exact sortedBy_sortedBy id _
  · intro closure listed
    rw [classOf closure listed, nodup_sortedBy]
    exact (nodup_endsOf pairs).filter _
  · intro closure listed
    simpa using (List.mem_filter.mp listed).2

/-- The closures inside a selection no ruling crosses are those of the rulings
inside it. -/
theorem mustLinkClosures_restrict {mustLink others : List Pair} {known otherKnown : Nat → Bool}
    {keep : Nat → Bool}
    (closed : ∀ pair ∈ linkingPairs mustLink known, keep pair.1 = keep pair.2)
    (same : linkingPairs others otherKnown =
      (linkingPairs mustLink known).filter fun pair => keep pair.1) :
    mustLinkClosures others otherKnown =
      (mustLinkClosures mustLink known).filter fun closure => keep closure.1 := by
  unfold mustLinkClosures
  dsimp only
  rw [same]
  generalize linkingPairs mustLink known = pairs at closed
  obtain ⟨rooted, agree⟩ := Forest.find_linkAll_filter closed
    (fun item => congrArg keep (Forest.find_singletons item))
    (fun item _ => (rfl : Forest.singletons.find item = _))
  have ends : (endsOf (pairs.filter fun pair => keep pair.1)).Perm
      ((endsOf pairs).filter keep) := by
    refine (List.perm_ext_iff_of_nodup (nodup_endsOf _) ((nodup_endsOf pairs).filter keep)).mpr ?_
    intro item
    rw [List.mem_filter, mem_endsOf, mem_endsOf]
    constructor
    · rintro ⟨pair, listed, end_⟩
      obtain ⟨held, kept⟩ := List.mem_filter.mp listed
      refine ⟨⟨pair, held, end_⟩, ?_⟩
      rcases end_ with rfl | rfl
      · exact kept
      · exact (closed pair held) ▸ kept
    · rintro ⟨⟨pair, held, end_⟩, kept⟩
      refine ⟨pair, List.mem_filter.mpr ⟨held, ?_⟩, end_⟩
      rcases end_ with rfl | rfl
      · exact kept
      · exact (closed pair held).trans kept
  have read : sortedGroups (Forest.singletons.linkAll
        (pairs.filter fun pair => keep pair.1)).find ((endsOf pairs).filter keep) =
      sortedGroups (Forest.singletons.linkAll pairs).find ((endsOf pairs).filter keep) :=
    sortedGroups_congr fun item listed => agree item (List.mem_filter.mp listed).2
  rw [sortedGroups_perm ends, read,
    sortedGroups_filter fun item _ => (rooted item).symm, List.filter_filter, List.filter_filter]
  simp only [Bool.and_comm]

/-- The members of a closure are joined by rulings the pass can read. -/
theorem mem_closure_iff {mustLink : List Pair} {known : Nat → Bool} {closure : Nat × List Nat}
    (listed : closure ∈ mustLinkClosures mustLink known) {item : Nat} :
    item ∈ closure.2 ↔ Forest.Joined (linkingPairs mustLink known) closure.1 item := by
  have family := mustLinkClosures_family mustLink known
  have keyed := family.keyed closure listed
  obtain ⟨_, equal⟩ := mem_sortedGroups.mp (List.mem_of_mem_filter listed)
  rw [← Forest.find_linkAll_eq_iff]
  rw [equal, mem_sortedBy, List.mem_filter, decide_eq_true_eq] at keyed
  rw [equal, mem_sortedBy, List.mem_filter, decide_eq_true_eq, keyed.2]
  constructor
  · exact fun held => held.2.symm
  · intro same
    refine ⟨?_, same.symm⟩
    exact find_mem_endsOf.mp (same ▸ keyed.1)

/-! ### The closures of a selection -/

/-- No closure crosses the selection. -/
def ClosuresInside (keep : Nat → Bool) (closures : List (Nat × List Nat)) : Prop :=
  ∀ closure ∈ closures, ∀ member ∈ closure.2, keep member = keep closure.1

/-- The closures inside a selection. -/
def closuresWithin (keep : Nat → Bool) (closures : List (Nat × List Nat)) :
    List (Nat × List Nat) :=
  closures.filter fun closure => keep closure.1

section Selection

variable {keep : Nat → Bool} {closures : List (Nat × List Nat)}

theorem ClosureFamily.within (family : ClosureFamily closures) (keep : Nat → Bool) :
    ClosureFamily (closuresWithin keep closures) :=
  family.filter _

theorem closureOf_within (family : ClosureFamily closures) (inside : ClosuresInside keep closures)
    {listing : Nat} (kept : keep listing = true) :
    closureOf (closuresWithin keep closures) listing = closureOf closures listing := by
  refine Option.ext fun key => ?_
  rw [(family.within keep).closureOf_eq_some_iff, family.closureOf_eq_some_iff]
  constructor
  · rintro ⟨closure, listed, same, held⟩
    exact ⟨closure, List.mem_of_mem_filter listed, same, held⟩
  · rintro ⟨closure, listed, same, held⟩
    have keyKept := (inside closure listed listing held).symm.trans kept
    exact ⟨closure, List.mem_filter.mpr ⟨listed, keyKept⟩, same, held⟩

theorem nodeOf_within (family : ClosureFamily closures) (inside : ClosuresInside keep closures)
    {listing : Nat} (kept : keep listing = true) :
    nodeOf (closuresWithin keep closures) listing = nodeOf closures listing := by
  unfold nodeOf
  rw [closureOf_within family inside kept]

theorem keep_nodeOf (family : ClosureFamily closures) (inside : ClosuresInside keep closures)
    (listing : Nat) : keep (nodeOf closures listing) = keep listing := by
  cases found : closureOf closures listing with
  | none => simp [nodeOf, found]
  | some key =>
      obtain ⟨closure, listed, rfl, held⟩ := family.closureOf_eq_some_iff.mp found
      rw [family.nodeOf_of_mem listed held, inside closure listed listing held]

theorem lookup_within {node : Nat} (kept : keep node = true) :
    (closuresWithin keep closures).lookup node = closures.lookup node := by
  induction closures with
  | nil => rfl
  | cons closure rest ih =>
      unfold closuresWithin at ih ⊢
      rw [List.filter_cons]
      by_cases same : node = closure.1
      · rw [if_pos (same ▸ kept), List.lookup_cons, List.lookup_cons, beq_iff_eq.mpr same]
      · have unlike : (node == closure.1) = false := by simpa using same
        split_ifs
        · rw [List.lookup_cons, List.lookup_cons, unlike, ih]
        · rw [List.lookup_cons, unlike, ih]

/-- Nodes of the selection stand for the same adverts. -/
theorem expand_within {nodes : List Nat} (kept : ∀ node ∈ nodes, keep node = true) :
    expand (closuresWithin keep closures) nodes = expand closures nodes := by
  unfold expand
  have read : (nodes.flatMap fun node =>
        ((closuresWithin keep closures).lookup node).getD [node]) =
      nodes.flatMap fun node => (closures.lookup node).getD [node] :=
    List.flatMap_congr fun node held => by rw [lookup_within (kept node held)]
  rw [read]

theorem keep_expand (family : ClosureFamily closures) (inside : ClosuresInside keep closures)
    {nodes : List Nat} (areNodes : ∀ node ∈ nodes, ClosureFamily.IsNode closures node)
    (kept : ∀ node ∈ nodes, keep node = true) : ∀ member ∈ expand closures nodes,
      keep member = true := by
  intro member held
  rw [← keep_nodeOf family inside]
  exact kept _ ((family.mem_expand areNodes).mp held)

end Selection

end Sreality.Autodedup
