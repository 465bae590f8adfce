import Sreality.Autodedup.ClusterClosureProperties
import Sreality.Autodedup.RepartitionLocalityProperties

/-! The clusters over the whole edge set are those of its merge components, each
clustered alone: from its own decisions, fingerprints, rulings and vetoes. -/

set_option autoImplicit false

namespace Sreality.Autodedup

open Sreality.Foundation

/-- What a clustering is given, its settings apart. -/
structure ClusterInputs where
  decisions : List Decision
  fps : Fingerprints
  mustNotLink : List Pair
  relation : Option ClusterRelation
  mustLink : List Pair
  machineVetoes : List Pair

namespace ClusterInputs

def clusters (inputs : ClusterInputs) (settings : Settings) : List (Nat × List Nat) :=
  (clusterPairs inputs.decisions inputs.fps settings inputs.mustNotLink inputs.relation
    inputs.mustLink inputs.machineVetoes).clusters

def grounds (inputs : ClusterInputs) (settings : Settings) : Grounds :=
  groundsOf inputs.fps settings inputs.mustNotLink inputs.relation inputs.mustLink
    inputs.machineVetoes

def closures (inputs : ClusterInputs) (settings : Settings) : List (Nat × List Nat) :=
  (validClosures inputs.mustLink inputs.fps settings inputs.mustNotLink).1

/-- The rulings a pass can read. -/
def links (inputs : ClusterInputs) : List Pair :=
  linkingPairs inputs.mustLink fun listing => (inputs.fps.get listing).isSome

/-- Nothing that joins adverts crosses the selection. -/
structure Separated (keep : Nat → Bool) (inputs : ClusterInputs) : Prop where
  edges : ∀ decision ∈ mergeEdges inputs.decisions, keep decision.lo = keep decision.hi
  links : ∀ pair ∈ inputs.links, keep pair.1 = keep pair.2

/-- Inputs that hold of the adverts selected what the whole inputs hold of them. -/
structure LocalTo (keep : Nat → Bool) (whole part : ClusterInputs) : Prop where
  edges : mergeEdges part.decisions = edgesKept keep (mergeEdges whole.decisions)
  links : part.links = whole.links.filter fun pair => keep pair.1
  get : ∀ listing, keep listing = true → part.fps.get listing = whole.fps.get listing
  ruled : ∀ left right, keep left = true → keep right = true →
    ((left, right) ∈ part.mustNotLink ↔ (left, right) ∈ whole.mustNotLink)
  vetoed : ∀ left right, keep left = true → keep right = true →
    ((left, right) ∈ part.machineVetoes ↔ (left, right) ∈ whole.machineVetoes)
  relation : Option.Rel (ClusterRelation.AgreeOn keep) whole.relation part.relation

section Local

variable {keep : Nat → Bool} {whole part : ClusterInputs} {settings : Settings}

theorem closures_family (inputs : ClusterInputs) (settings : Settings) :
    ClosureFamily (inputs.closures settings) :=
  validClosures_family _ _ _ _

theorem mustLinkClosures_inside (separated : Separated keep whole) :
    ClosuresInside keep
      (mustLinkClosures whole.mustLink fun listing => (whole.fps.get listing).isSome) := by
  intro closure listed member held
  have joined := Forest.find_linkAll_eq_iff.mpr ((mem_closure_iff listed).mp held)
  have rooted := Forest.keep_find_linkAll keep separated.links
  unfold links at rooted
  rw [← rooted member, ← rooted closure.1, joined]

theorem closures_inside (settings : Settings) (separated : Separated keep whole) :
    ClosuresInside keep (whole.closures settings) :=
  fun closure listed => mustLinkClosures_inside separated closure (List.mem_of_mem_filter listed)

/-- The closures of the selection are judged on the same fingerprints and rulings. -/
theorem closures_local (separated : Separated keep whole) (locals : LocalTo keep whole part) :
    part.closures settings = closuresWithin keep (whole.closures settings) := by
  unfold closures closuresWithin validClosures
  dsimp only
  rw [mustLinkClosures_restrict separated.links locals.links, List.filter_filter,
    List.filter_filter]
  refine List.filter_congr fun closure listed => ?_
  cases kept : keep closure.1 with
  | false => simp
  | true =>
      have members : ∀ member ∈ closure.2, keep member = true := fun member held =>
        (mustLinkClosures_inside separated closure listed member held).trans kept
      rw [closureRefusal_agree locals.get locals.ruled members, Bool.true_and, Bool.and_true]

theorem grounds_agree (settings : Settings) (separated : Separated keep whole) (locals : LocalTo keep whole part) :
    Grounds.AgreeOn keep (whole.grounds settings) (part.grounds settings) := by
  have family := closures_family whole settings
  have inside := closures_inside settings separated
  have read : ∀ listing, keep listing = true →
      closureOf (part.closures settings) listing = closureOf (whole.closures settings) listing := by
    intro listing kept
    rw [closures_local separated locals]
    exact closureOf_within family inside kept
  refine ⟨rfl, locals.get, read, ?_, ?_⟩
  · intro left right leftKept rightKept
    change (left, right) ∈ refusedPairs (part.closures settings) _ _ ↔
      (left, right) ∈ refusedPairs (whole.closures settings) _ _
    unfold refusedPairs
    rw [List.mem_append, List.mem_append, List.mem_filter, List.mem_filter,
      locals.ruled left right leftKept rightKept, locals.vetoed left right leftKept rightKept]
    dsimp only
    rw [sameClosure_agree read leftKept rightKept]
  · change Option.Rel _ (whole.relation.map _) (part.relation.map _)
    have stated := locals.relation
    generalize whole.relation = wide at stated
    generalize part.relation = narrow at stated
    cases stated with
    | none => exact .none
    | some held => exact .some ⟨held, read⟩

theorem clusters_unionFind (inputs : ClusterInputs) (off : settings.repartition = false) :
    inputs.clusters settings =
      (applyBridges (inputs.grounds settings)
        (constrainedPass (inputs.grounds settings) (inputs.closures settings)
          (mergeEdges inputs.decisions)).unionFind
        (constrainedPass (inputs.grounds settings) (inputs.closures settings)
          (mergeEdges inputs.decisions)).bridges).1.clusters := by
  unfold clusters clusterPairs
  dsimp only
  rw [off]
  rfl

theorem clusters_groups (inputs : ClusterInputs) (on : settings.repartition = true) :
    inputs.clusters settings =
      sortedBy Prod.fst ((repartitionGroups (inputs.grounds settings) (inputs.closures settings)
        (mergeEdges inputs.decisions)).filter fun group => 1 < group.2.length) :=
  clusterPairs_repartitioned on

/-- A selection nothing crosses is clustered alike from what holds of it alone. -/
theorem clusters_local (separated : Separated keep whole) (locals : LocalTo keep whole part) :
    part.clusters settings = (whole.clusters settings).filter fun cluster => keep cluster.1 := by
  have family := closures_family whole settings
  have inside := closures_inside settings separated
  have agree := grounds_agree settings separated locals
  cases mode : settings.repartition with
  | false =>
      rw [clusters_unionFind part mode, clusters_unionFind whole mode,
        ← (constrained_local agree family inside separated.edges).clusters, locals.edges,
        closures_local separated locals]
  | true =>
      rw [clusters_groups part mode, clusters_groups whole mode, locals.edges,
        closures_local separated locals,
        repartitionGroups_local agree family inside separated.edges, filter_sortedBy,
        List.filter_comm]

/-- No cluster crosses a selection nothing crosses. -/
theorem clusters_inside (separated : Separated keep whole) :
    ∀ cluster ∈ whole.clusters settings, ∀ member ∈ cluster.2, keep member = keep cluster.1 := by
  have family := closures_family whole settings
  have inside := closures_inside settings separated
  intro cluster listed member held
  cases mode : settings.repartition with
  | false =>
      rw [clusters_unionFind whole mode] at listed
      have restricts := constrained_local (Grounds.AgreeOn.refl keep (whole.grounds settings))
        family inside separated.edges
      obtain ⟨equal, _⟩ := restricts.wholeValid.mem_clusters.mp listed
      rw [equal, restricts.wholeValid.mem_members] at held
      rw [← restricts.rooted member, held.2]
  | true =>
      rw [clusters_groups whole mode, mem_sortedBy] at listed
      have group := List.mem_of_mem_filter listed
      exact group_inside family inside separated.edges group held (group_key_mem family group)

/-- A cluster is filed under one of its adverts, and holds several. -/
theorem clusters_keyed : ∀ cluster ∈ whole.clusters settings,
    cluster.1 ∈ cluster.2 ∧ cluster.2.Nodup ∧ 1 < cluster.2.length := by
  have family := closures_family whole settings
  intro cluster listed
  cases mode : settings.repartition with
  | false =>
      obtain ⟨final, sound, _, clusters, _⟩ := @clusterPairs_constrained whole.decisions whole.fps
        settings whole.mustNotLink whole.mustLink whole.machineVetoes whole.relation mode
      unfold ClusterInputs.clusters at listed
      rw [clusters] at listed
      have valid := sound.wellFormed
      obtain ⟨equal, several⟩ := valid.mem_clusters.mp listed
      refine ⟨?_, equal ▸ valid.nodup_members _, several⟩
      obtain ⟨member, held⟩ := List.exists_mem_of_length_pos (by omega : 0 < cluster.2.length)
      rw [equal] at held ⊢
      obtain ⟨seen, root⟩ := valid.mem_members.mp held
      exact valid.mem_members.mpr ⟨root ▸ valid.closed member seen,
        root ▸ UnionFind.find_find final member⟩
  | true =>
      rw [clusters_groups whole mode, mem_sortedBy, List.mem_filter, decide_eq_true_eq] at listed
      exact ⟨group_key_mem family listed.1, group_nodup family listed.1, listed.2⟩

theorem clusters_unique {left right : Nat × List Nat} (leftListed : left ∈ whole.clusters settings)
    (rightListed : right ∈ whole.clusters settings) (same : left.1 = right.1) : left = right := by
  have family := closures_family whole settings
  have inLeft := (clusters_keyed left leftListed).1
  have inRight := (clusters_keyed right rightListed).1
  cases mode : settings.repartition with
  | false =>
      obtain ⟨final, sound, _, clusters, _⟩ := @clusterPairs_constrained whole.decisions whole.fps
        settings whole.mustNotLink whole.mustLink whole.machineVetoes whole.relation mode
      unfold ClusterInputs.clusters at leftListed rightListed
      rw [clusters] at leftListed rightListed
      have leftMembers := (sound.wellFormed.mem_clusters.mp leftListed).1
      have rightMembers := (sound.wellFormed.mem_clusters.mp rightListed).1
      exact Prod.ext same (by rw [leftMembers, rightMembers, same])
  | true =>
      rw [clusters_groups whole mode, mem_sortedBy] at leftListed rightListed
      exact group_eq_of_mem family (List.mem_of_mem_filter leftListed)
        (List.mem_of_mem_filter rightListed) inLeft (same ▸ inRight)

theorem clusters_sorted (inputs : ClusterInputs) (settings : Settings) :
    sortedBy Prod.fst (inputs.clusters settings) = inputs.clusters settings := by
  cases mode : settings.repartition with
  | false =>
      obtain ⟨final, sound, _, clusters, _⟩ := @clusterPairs_constrained inputs.decisions
        inputs.fps settings inputs.mustNotLink inputs.mustLink inputs.machineVetoes
        inputs.relation mode
      unfold ClusterInputs.clusters
      rw [clusters, sound.wellFormed.clusters_eq, ← filter_sortedBy, sortedBy_sortedGroups]
  | true => rw [clusters_groups inputs mode, sortedBy_sortedBy]

end Local

/-! ### One component at a time -/

/-- Both ends of a pair are selected. -/
def bothKept (keep : Nat → Bool) (pair : Pair) : Bool := keep pair.1 && keep pair.2

/-- The inputs that lie inside a selection; the relation is read as it is. -/
def within (keep : Nat → Bool) (inputs : ClusterInputs) : ClusterInputs where
  decisions := inputs.decisions.filter fun decision => bothKept keep decision.ends
  fps := inputs.fps.restrict keep
  mustNotLink := inputs.mustNotLink.filter (bothKept keep)
  relation := inputs.relation
  mustLink := inputs.mustLink.filter (bothKept keep)
  machineVetoes := inputs.machineVetoes.filter (bothKept keep)

section Components

variable {keep : Nat → Bool} {inputs : ClusterInputs} {settings : Settings}

theorem separated_of_closed
    (edges : ∀ decision ∈ mergeEdges inputs.decisions, keep decision.lo = keep decision.hi)
    (rulings : ∀ pair ∈ inputs.mustLink, keep pair.1 = keep pair.2) : Separated keep inputs where
  edges := edges
  links := fun pair listed => rulings pair (mem_linkingPairs.mp listed).1

theorem within_local
    (edges : ∀ decision ∈ mergeEdges inputs.decisions, keep decision.lo = keep decision.hi)
    (rulings : ∀ pair ∈ inputs.mustLink, keep pair.1 = keep pair.2) :
    LocalTo keep inputs (inputs.within keep) where
  edges := by
    unfold within edgesKept mergeEdges
    dsimp only
    rw [List.filter_comm, ← filter_sortedBy]
    refine List.filter_congr fun decision listed => ?_
    have same := edges decision listed
    simp [bothKept, Decision.ends, ← same]
  links := by
    unfold links within linkingPairs
    dsimp only
    rw [← filter_sortedBy, List.filter_filter, List.filter_filter]
    refine List.filter_congr fun pair listed => ?_
    have same := rulings pair (mem_sortedBy.mp listed)
    cases kept : keep pair.1 <;> simp [bothKept, Fingerprints.restrict, ← same, kept]
  get := by
    intro listing kept
    simp [within, Fingerprints.restrict, kept]
  ruled := by
    intro left right leftKept rightKept
    simp [within, bothKept, leftKept, rightKept]
  vetoed := by
    intro left right leftKept rightKept
    simp [within, bothKept, leftKept, rightKept]
  relation := by
    change Option.Rel _ inputs.relation inputs.relation
    cases inputs.relation with
    | none => exact .none
    | some read =>
        exact .some ⟨rfl, fun _ _ => rfl, fun _ _ _ _ _ => rfl, fun _ _ _ _ => rfl⟩

/-- The selection of one merge component. -/
def inComponent (inputs : ClusterInputs) (component item : Nat) : Bool :=
  mergeComponent inputs.decisions inputs.mustLink item == component

theorem component_separated (inputs : ClusterInputs) (component : Nat) :
    (∀ decision ∈ mergeEdges inputs.decisions,
      inputs.inComponent component decision.lo = inputs.inComponent component decision.hi) ∧
    ∀ pair ∈ inputs.mustLink,
      inputs.inComponent component pair.1 = inputs.inComponent component pair.2 := by
  constructor
  · intro decision listed
    exact congrArg (· == component) (mergeComponent_of_edge listed)
  · intro pair listed
    have linked : pair ∈ mergeLinks inputs.decisions inputs.mustLink :=
      List.mem_append_right _ listed
    exact congrArg (· == component) (Forest.find_linkAll_pair linked)

/-- The components that hold a merge edge or a ruling. -/
def mergeComponents (inputs : ClusterInputs) : List Nat :=
  sortedIds ((endsOf (mergeLinks inputs.decisions inputs.mustLink)).map
    (mergeComponent inputs.decisions inputs.mustLink)).dedup

theorem component_listed {cluster : Nat × List Nat} (listed : cluster ∈ inputs.clusters settings) :
    mergeComponent inputs.decisions inputs.mustLink cluster.1 ∈ inputs.mergeComponents := by
  obtain ⟨keyed, distinct, several⟩ := clusters_keyed cluster listed
  obtain ⟨edges, rulings⟩ := component_separated inputs
    (mergeComponent inputs.decisions inputs.mustLink cluster.1)
  obtain ⟨other, held, differ⟩ := exists_other_mem distinct several cluster.1
  have together := clusters_inside (separated_of_closed edges rulings) cluster listed other held
  have sameRoot : mergeComponent inputs.decisions inputs.mustLink cluster.1 =
      mergeComponent inputs.decisions inputs.mustLink other := by
    unfold inComponent at together
    rw [beq_self_eq_true, beq_iff_eq] at together
    exact together.symm
  have ends : cluster.1 ∈ endsOf (mergeLinks inputs.decisions inputs.mustLink) := by
    rcases joined_ends (Forest.find_linkAll_eq_iff.mp sameRoot) with same | ends
    · exact absurd same differ
    · exact ends.1
  unfold mergeComponents
  rw [mem_sortedBy, List.mem_dedup]
  exact List.mem_map_of_mem ends

/-- The clusters over the whole edge set are the clusters of the merge components,
each given its own decisions, fingerprints, rulings and vetoes alone; and a
component's clusters hold its own adverts. -/
theorem clusters_componentwise (inputs : ClusterInputs) (settings : Settings) :
    inputs.clusters settings = sortedBy Prod.fst (inputs.mergeComponents.flatMap fun component =>
      (inputs.within (inputs.inComponent component)).clusters settings) ∧
    ∀ component, ∀ cluster ∈ (inputs.within (inputs.inComponent component)).clusters settings,
      ∀ member ∈ cluster.2,
        mergeComponent inputs.decisions inputs.mustLink member = component := by
  have alone : ∀ component, (inputs.within (inputs.inComponent component)).clusters settings =
      (inputs.clusters settings).filter fun cluster =>
        inputs.inComponent component cluster.1 := by
    intro component
    obtain ⟨edges, rulings⟩ := component_separated inputs component
    exact clusters_local (separated_of_closed edges rulings) (within_local edges rulings)
  constructor
  · have parts : inputs.mergeComponents.flatMap (fun component =>
          (inputs.within (inputs.inComponent component)).clusters settings) =
        inputs.mergeComponents.flatMap fun component =>
          (inputs.clusters settings).filter fun cluster =>
            mergeComponent inputs.decisions inputs.mustLink cluster.1 == component :=
      List.flatMap_congr fun component _ => alone component
    have distinct : inputs.mergeComponents.Nodup := nodup_sortedBy.mpr (List.nodup_dedup _)
    have whole := perm_flatMap_classes distinct
      fun cluster (listed : cluster ∈ inputs.clusters settings) => component_listed listed
    rw [parts, sortedBy_eq_of_perm whole fun left leftListed right rightListed same =>
      clusters_unique (whole.mem_iff.mp leftListed) (whole.mem_iff.mp rightListed) same,
      clusters_sorted]
  · intro component cluster listed member held
    rw [alone component] at listed
    obtain ⟨known, inside⟩ := List.mem_filter.mp listed
    obtain ⟨edges, rulings⟩ := component_separated inputs component
    have same := clusters_inside (separated_of_closed edges rulings) cluster known member held
    exact beq_iff_eq.mp (same.trans inside)

end Components

end ClusterInputs

end Sreality.Autodedup
