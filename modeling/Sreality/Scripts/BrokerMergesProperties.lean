import Mathlib.Data.List.Flatten
import Sreality.Scripts.BrokerMerges

/-! A run of the auto-merges keeps the broker book consistent: every identity goes where its
broker goes, a broker goes to the survivor of its component, and no rail is broken. -/

set_option autoImplicit false

namespace Sreality.Scripts.BrokerMerges

open Sreality.Foundation

/-! ### Components -/

section Components

variable {groups : List (List Nat)} {brokerOf : Nat → Option Nat}

theorem mem_brokersIn {group : List Nat} {broker : Nat} :
    broker ∈ brokersIn brokerOf group ↔ ∃ identity ∈ group, brokerOf identity = some broker := by
  rw [brokersIn, mem_sortedBy, List.mem_dedup, List.mem_filterMap]

theorem mem_brokersTouched {broker : Nat} : broker ∈ brokersTouched groups brokerOf ↔
    ∃ group ∈ groups, broker ∈ brokersIn brokerOf group := by
  rw [brokersTouched, List.mem_dedup, List.mem_flatMap]

theorem mem_links {link : Nat × Nat} : link ∈ links groups brokerOf ↔
    ∃ group ∈ groups, link ∈ chain (brokersIn brokerOf group) := by
  rw [links, List.mem_flatMap]

variable (groups brokerOf) in
/-- The survivor a broker's class would have. -/
def rootOf (broker : Nat) : Nat :=
  (Forest.singletons.linkAll (links groups brokerOf)).find broker

/-- The brokers of one group are of one class. -/
theorem rootOf_group {group : List Nat} (listed : group ∈ groups) {left right : Nat}
    (inLeft : left ∈ brokersIn brokerOf group) (inRight : right ∈ brokersIn brokerOf group) :
    rootOf groups brokerOf left = rootOf groups brokerOf right := by
  cases among : brokersIn brokerOf group with
  | nil =>
      rw [among] at inLeft
      cases inLeft
  | cons first rest =>
      have united : ∀ broker ∈ first :: rest,
          rootOf groups brokerOf broker = rootOf groups brokerOf first := by
        intro broker held
        cases List.mem_cons.mp held with
        | inl same => rw [same]
        | inr later =>
            have link : (first, broker) ∈ links groups brokerOf := by
              refine mem_links.mpr ⟨group, listed, ?_⟩
              rw [among]
              exact List.mem_map_of_mem later
            exact (Forest.find_linkAll_pair link).symm
      rw [among] at inLeft inRight
      rw [united left inLeft, united right inRight]

theorem rootOf_link {link : Nat × Nat} (listed : link ∈ links groups brokerOf) :
    rootOf groups brokerOf link.1 = rootOf groups brokerOf link.2 := by
  obtain ⟨group, held, chained⟩ := mem_links.mp listed
  obtain ⟨first, second⟩ := mem_of_chain chained
  exact rootOf_group held first second

theorem mem_brokerComponents {component : List Nat} :
    component ∈ brokerComponents groups brokerOf ↔ 1 < component.length ∧
      ∃ broker ∈ brokersTouched groups brokerOf, component =
        sortedIds ((brokersTouched groups brokerOf).filter fun other =>
          rootOf groups brokerOf other = rootOf groups brokerOf broker) := by
  rw [brokerComponents, List.mem_filter, mem_classes, decide_eq_true_iff, and_comm]
  rfl

theorem component_touched {component : List Nat}
    (listed : component ∈ brokerComponents groups brokerOf) {broker : Nat}
    (held : broker ∈ component) : broker ∈ brokersTouched groups brokerOf := by
  obtain ⟨_, first, _, rfl⟩ := mem_brokerComponents.mp listed
  exact List.mem_of_mem_filter (mem_sortedBy.mp held)

/-- A component is the whole class of each of its brokers. -/
theorem component_closed {component : List Nat}
    (listed : component ∈ brokerComponents groups brokerOf) {broker other : Nat}
    (held : broker ∈ component) : other ∈ component ↔
      other ∈ brokersTouched groups brokerOf ∧
        rootOf groups brokerOf other = rootOf groups brokerOf broker := by
  obtain ⟨_, first, _, rfl⟩ := mem_brokerComponents.mp listed
  rw [mem_sortedBy, List.mem_filter, decide_eq_true_iff] at held ⊢
  rw [held.2]

theorem component_eq {left right : List Nat} (inLeft : left ∈ brokerComponents groups brokerOf)
    (inRight : right ∈ brokerComponents groups brokerOf) {broker : Nat} (first : broker ∈ left)
    (second : broker ∈ right) : left = right := by
  obtain ⟨_, one, _, rfl⟩ := mem_brokerComponents.mp inLeft
  obtain ⟨_, two, _, rfl⟩ := mem_brokerComponents.mp inRight
  rw [mem_sortedBy, List.mem_filter, decide_eq_true_iff] at first second
  rw [← first.2, second.2]

theorem nodup_flatten_components : (brokerComponents groups brokerOf).flatten.Nodup :=
  (nodup_flatten_classes (List.nodup_dedup _)).sublist
    (List.Sublist.flatten List.filter_sublist)

/-- Two brokers of one group are in one component. -/
theorem component_of_group {group : List Nat} (listed : group ∈ groups) {left right : Nat}
    (inLeft : left ∈ brokersIn brokerOf group) (inRight : right ∈ brokersIn brokerOf group)
    (apart : left ≠ right) :
    ∃ component ∈ brokerComponents groups brokerOf, left ∈ component ∧ right ∈ component := by
  have touched : ∀ broker ∈ brokersIn brokerOf group, broker ∈ brokersTouched groups brokerOf :=
    fun broker held => mem_brokersTouched.mpr ⟨group, listed, held⟩
  have both : ∀ broker, broker = left ∨ broker = right → broker ∈
      sortedIds ((brokersTouched groups brokerOf).filter fun other =>
        rootOf groups brokerOf other = rootOf groups brokerOf left) := by
    intro broker which
    rw [mem_sortedBy, List.mem_filter, decide_eq_true_iff]
    rcases which with rfl | rfl
    · exact ⟨touched broker inLeft, rfl⟩
    · exact ⟨touched broker inRight, rootOf_group listed inRight inLeft⟩
  refine ⟨_, mem_brokerComponents.mpr ⟨?_, left, touched left inLeft, rfl⟩, both left (.inl rfl),
    both right (.inr rfl)⟩
  have pair : [left, right].Subperm (sortedIds ((brokersTouched groups brokerOf).filter fun other =>
      rootOf groups brokerOf other = rootOf groups brokerOf left)) := by
    apply List.subperm_of_subset
    · simpa using apart
    · intro broker listed
      exact both broker (by simpa using listed)
  exact pair.length_le

end Components

/-! ### Where a broker goes -/

section Destination

variable {book : Book} {arguments : MergeArguments}

/-- The components the run merges. -/
def mergedComponents (book : Book) (arguments : MergeArguments) : List (List Nat) :=
  (components book arguments).filter fun component => verdict book arguments component = .merged

/-- The survivor of a broker's component when it is merged, else the broker. -/
def destination (book : Book) (arguments : MergeArguments) (broker : Nat) : Nat :=
  (((mergedComponents book arguments).flatMap losersOf).lookup broker).getD broker

theorem mem_mergedComponents {component : List Nat} :
    component ∈ mergedComponents book arguments ↔
      component ∈ components book arguments ∧ verdict book arguments component = .merged := by
  rw [mergedComponents, List.mem_filter, decide_eq_true_iff]

theorem mem_losersOf {component : List Nat} {loser survivor : Nat} :
    (loser, survivor) ∈ losersOf component ↔
      ∃ rest, component = survivor :: rest ∧ loser ∈ rest := by
  cases component with
  | nil => simp [losersOf]
  | cons first rest =>
      simp only [losersOf, List.mem_map, Prod.mk.injEq, List.cons.injEq]
      constructor
      · rintro ⟨_, held, rfl, rfl⟩
        exact ⟨rest, ⟨rfl, rfl⟩, held⟩
      · rintro ⟨_, ⟨rfl, rfl⟩, held⟩
        exact ⟨loser, held, rfl, rfl⟩

theorem losersOf_fst (component : List Nat) : (losersOf component).map Prod.fst = component.tail := by
  cases component with
  | nil => rfl
  | cons first rest => simp [losersOf, Function.comp_def]

theorem nodup_tails : ((mergedComponents book arguments).flatMap List.tail).Nodup := by
  have whole : ((mergedComponents book arguments).flatMap id).Nodup := by
    rw [List.flatMap_id]
    exact nodup_flatten_components.sublist (List.Sublist.flatten List.filter_sublist)
  exact whole.sublist (List.Sublist.flatMap_right _ fun component _ => List.tail_sublist component)

theorem keyed_losers : Keyed Prod.fst ((mergedComponents book arguments).flatMap losersOf) := by
  unfold Keyed
  rw [List.map_flatMap]
  simp only [losersOf_fst]
  exact nodup_tails

theorem lookup_loser {broker survivor : Nat} :
    ((mergedComponents book arguments).flatMap losersOf).lookup broker = some survivor ↔
      ∃ rest, survivor :: rest ∈ mergedComponents book arguments ∧ broker ∈ rest := by
  rw [keyed_losers.lookup, List.mem_flatMap]
  constructor
  · rintro ⟨component, merged, listed⟩
    obtain ⟨rest, rfl, held⟩ := mem_losersOf.mp listed
    exact ⟨rest, merged, held⟩
  · rintro ⟨rest, merged, held⟩
    exact ⟨_, merged, mem_losersOf.mpr ⟨rest, rfl, held⟩⟩

/-- A survivor is no loser, of its component or another. -/
theorem survivor_stays {survivor : Nat} {rest : List Nat}
    (merged : survivor :: rest ∈ mergedComponents book arguments) :
    ((mergedComponents book arguments).flatMap losersOf).lookup survivor = none := by
  cases found : ((mergedComponents book arguments).flatMap losersOf).lookup survivor with
  | none => rfl
  | some other =>
      obtain ⟨others, listed, held⟩ := lookup_loser.mp found
      have own := (mem_mergedComponents.mp merged).1
      have same := component_eq own (mem_mergedComponents.mp listed).1 List.mem_cons_self
        (List.mem_cons_of_mem _ held)
      cases same
      obtain ⟨_, _, _, sorted⟩ := mem_brokerComponents.mp own
      have distinct : (survivor :: rest).Nodup := by
        rw [sorted]
        exact nodup_sortedBy.mpr ((List.nodup_dedup _).filter _)
      exact absurd held (List.nodup_cons.mp distinct).1

theorem destination_of_mem {survivor : Nat} {rest : List Nat}
    (merged : survivor :: rest ∈ mergedComponents book arguments) {broker : Nat}
    (held : broker ∈ survivor :: rest) : destination book arguments broker = survivor := by
  unfold destination
  cases List.mem_cons.mp held with
  | inl same =>
      rw [same, survivor_stays merged]
      rfl
  | inr later =>
      rw [lookup_loser.mpr ⟨rest, merged, later⟩]
      rfl

theorem destination_of_not_mem {broker : Nat}
    (outside : ∀ component ∈ mergedComponents book arguments, broker ∉ component) :
    destination book arguments broker = broker := by
  unfold destination
  cases found : ((mergedComponents book arguments).flatMap losersOf).lookup broker with
  | none => rfl
  | some survivor =>
      obtain ⟨rest, merged, held⟩ := lookup_loser.mp found
      exact absurd (List.mem_cons_of_mem _ held) (outside _ merged)

variable (book arguments) in
/-- A broker that goes elsewhere goes to the survivor of its component. -/
theorem destination_cases (broker : Nat) :
    destination book arguments broker = broker ∨ ∃ survivor rest,
      survivor :: rest ∈ mergedComponents book arguments ∧ broker ∈ rest ∧
        destination book arguments broker = survivor := by
  unfold destination
  cases found : ((mergedComponents book arguments).flatMap losersOf).lookup broker with
  | none => exact .inl rfl
  | some survivor =>
      obtain ⟨rest, merged, held⟩ := lookup_loser.mp found
      exact .inr ⟨survivor, rest, merged, held, rfl⟩

end Destination

/-! ### The book -/

/-- Rows under their keys, and identities on active brokers. -/
structure Book.Valid (book : Book) : Prop where
  identities : Keyed Identity.id book.identities
  brokers : Keyed Broker.id book.brokers
  owned : ∀ identity ∈ book.identities, ∀ brokerId ∈ identity.brokerId,
    ∃ broker ∈ book.brokers, broker.id = brokerId ∧ broker.status = .active

section Books

variable {book : Book} {arguments : MergeArguments}

theorem brokerOf_iff (keyed : Keyed Identity.id book.identities) {identityId broker : Nat} :
    book.brokerOf identityId = some broker ↔ ∃ identity ∈ book.identities,
      identity.id = identityId ∧ identity.brokerId = some broker := by
  unfold Book.brokerOf
  rw [Option.bind_eq_some_iff]
  constructor
  · rintro ⟨identity, found, owned⟩
    exact ⟨identity, List.mem_of_find?_eq_some found, by simpa using List.find?_some found, owned⟩
  · rintro ⟨identity, held, rfl, owned⟩
    refine ⟨identity, ?_, owned⟩
    cases found : book.identities.find? fun other => other.id == identity.id with
    | none =>
        have missed := List.find?_eq_none.mp found identity held
        simp at missed
    | some other =>
        have same : other.id = identity.id := by simpa using List.find?_some found
        rw [keyed.eq (List.mem_of_find?_eq_some found) held same]

theorem mem_identitiesOf (keyed : Keyed Identity.id book.identities) {identityId broker : Nat} :
    identityId ∈ book.identitiesOf broker ↔ book.brokerOf identityId = some broker := by
  rw [brokerOf_iff keyed, Book.identitiesOf, mem_sortedBy, List.mem_map]
  simp only [List.mem_filter, decide_eq_true_iff]
  constructor
  · rintro ⟨identity, ⟨held, owned⟩, rfl⟩
    exact ⟨identity, held, rfl, owned⟩
  · rintro ⟨identity, held, rfl, owned⟩
    exact ⟨identity, ⟨held, owned⟩, rfl⟩

/-- The rows a run adds to the ledger. -/
def rowsOf (book : Book) (arguments : MergeArguments) : List MergeEvent :=
  (mergedComponents book arguments).flatMap (ledgerRows book arguments)

theorem mem_rowsOf (keyed : Keyed Identity.id book.identities) {row : MergeEvent}
    (listed : row ∈ rowsOf book arguments) : row.prevBrokerId = row.retiredBrokerId ∧
      book.brokerOf row.identityId = some row.retiredBrokerId ∧
        ((mergedComponents book arguments).flatMap losersOf).lookup row.retiredBrokerId =
          some row.survivorBrokerId := by
  obtain ⟨component, merged, among⟩ := List.mem_flatMap.mp listed
  cases component with
  | nil => cases among
  | cons survivor rest =>
      obtain ⟨loser, held, made⟩ := List.mem_flatMap.mp among
      obtain ⟨identityId, carried, rfl⟩ := List.mem_map.mp made
      exact ⟨rfl, (mem_identitiesOf keyed).mp carried, lookup_loser.mpr ⟨rest, merged, held⟩⟩

theorem exists_row (keyed : Keyed Identity.id book.identities) {identityId broker survivor : Nat}
    (owned : book.brokerOf identityId = some broker)
    (loses : ((mergedComponents book arguments).flatMap losersOf).lookup broker = some survivor) :
    ∃ row ∈ rowsOf book arguments, row.identityId = identityId := by
  obtain ⟨rest, merged, held⟩ := lookup_loser.mp loses
  refine ⟨_, List.mem_flatMap.mpr ⟨_, merged, List.mem_flatMap.mpr ⟨broker, held,
    List.mem_map_of_mem ((mem_identitiesOf keyed).mpr owned)⟩⟩, rfl⟩

theorem ledgerRows_ids (component : List Nat) :
    (ledgerRows book arguments component).map MergeEvent.identityId =
      component.tail.flatMap book.identitiesOf := by
  cases component with
  | nil => rfl
  | cons survivor rest => simp [ledgerRows, List.map_flatMap, Function.comp_def]

/-- One row for each identity. -/
theorem keyed_rowsOf (keyed : Keyed Identity.id book.identities) :
    Keyed MergeEvent.identityId (rowsOf book arguments) := by
  unfold Keyed rowsOf
  rw [List.map_flatMap]
  simp only [ledgerRows_ids]
  rw [← List.flatMap_assoc, List.nodup_flatMap]
  constructor
  · intro broker _
    exact nodup_sortedBy.mpr (keyed.filter _)
  · refine nodup_tails.imp ?_
    intro left right apart identityId inLeft inRight
    have one := (mem_identitiesOf keyed).mp inLeft
    rw [(mem_identitiesOf keyed).mp inRight] at one
    exact apart (Option.some.inj one).symm

theorem write_nil (now : ℚ) : book.write [] [] now = book := by
  have identities : (Identity.repointed · []) = id := rfl
  have brokers : (Broker.retired · [] now) = id := rfl
  unfold Book.write
  rw [identities, brokers, List.map_id, List.map_id, List.append_nil]

/-- The early returns are the case of nothing to write. -/
theorem applyMerges_eq (book : Book) (arguments : MergeArguments) :
    applyMerges book arguments =
      { book := book.write (rowsOf book arguments)
          ((mergedComponents book arguments).flatMap losersOf) arguments.now
        retired := ((mergedComponents book arguments).flatMap losersOf).length
        dropped := (components book arguments).countP fun component =>
          verdict book arguments component = .dropped
        oversized := (components book arguments).countP fun component =>
          verdict book arguments component = .oversized } := by
  have bare : components book arguments = [] → mergedComponents book arguments = [] := by
    intro none_
    rw [mergedComponents, none_]
    rfl
  unfold applyMerges
  dsimp only
  split_ifs with noGroups noComponents noLosers
  · have none_ : components book arguments = [] := by
      unfold components brokerComponents brokersTouched
      rw [noGroups]
      rfl
    rw [rowsOf, bare none_, none_]
    simp [write_nil]
  · rw [rowsOf, bare noComponents, noComponents]
    simp [write_nil]
  · have none_ : mergedComponents book arguments = [] := by
      rw [List.eq_nil_iff_forall_not_mem]
      intro component merged
      have several := (mem_brokerComponents.mp (mem_mergedComponents.mp merged).1).1
      have nothing := List.flatMap_eq_nil_iff.mp noLosers component merged
      cases component with
      | nil => cases several
      | cons survivor rest =>
          cases rest with
          | nil => exact absurd several (lt_irrefl _)
          | cons loser others => cases nothing
    rw [rowsOf, none_]
    simp [write_nil]
  · rfl

@[simp] theorem repointed_id (identity : Identity) (rows : List MergeEvent) :
    (identity.repointed rows).id = identity.id := by
  unfold Identity.repointed
  split <;> rfl

@[simp] theorem retired_id (broker : Broker) (losers : List (Nat × Nat)) (now : ℚ) :
    (broker.retired losers now).id = broker.id := by
  unfold Broker.retired
  split <;> rfl

theorem keyed_applyMerges (valid : book.Valid) :
    Keyed Identity.id (applyMerges book arguments).book.identities ∧
      Keyed Broker.id (applyMerges book arguments).book.brokers := by
  have identities : Identity.id ∘ (Identity.repointed · (rowsOf book arguments)) = Identity.id :=
    funext fun identity => repointed_id identity _
  have brokers : Broker.id ∘ (Broker.retired ·
      ((mergedComponents book arguments).flatMap losersOf) arguments.now) = Broker.id :=
    funext fun broker => retired_id broker _ _
  rw [applyMerges_eq]
  unfold Keyed Book.write
  rw [List.map_map, List.map_map, identities, brokers]
  exact ⟨valid.identities, valid.brokers⟩

/-- An identity ends on its broker's destination. -/
theorem repointed_brokerId (keyed : Keyed Identity.id book.identities) {identity : Identity}
    (held : identity ∈ book.identities) :
    (identity.repointed (rowsOf book arguments)).brokerId =
      identity.brokerId.map (destination book arguments) := by
  have owned : book.brokerOf identity.id = identity.brokerId := by
    apply Option.ext
    intro broker
    rw [brokerOf_iff keyed]
    constructor
    · rintro ⟨other, listed, same, owned⟩
      rw [keyed.eq held listed same.symm]
      exact owned
    · exact fun owned => ⟨identity, held, rfl, owned⟩
  unfold Identity.repointed
  split
  case h_1 row found =>
      have listed := List.mem_of_find?_eq_some found
      have own : row.identityId = identity.id := by simpa using List.find?_some found
      obtain ⟨_, carried, loses⟩ := mem_rowsOf keyed listed
      rw [own, owned] at carried
      unfold destination
      rw [carried, Option.map_some, loses]
      rfl
  case h_2 absent =>
      cases on : identity.brokerId with
      | none => rfl
      | some broker =>
          rw [Option.map_some]
          unfold destination
          cases loses : ((mergedComponents book arguments).flatMap losersOf).lookup broker with
          | none => rfl
          | some survivor =>
              obtain ⟨row, listed, own⟩ := exists_row keyed (owned.trans on) loses
              have missed := List.find?_eq_none.mp absent row listed
              simp [own] at missed

/-- Every identity goes where its broker goes. -/
theorem brokerOf_applyMerges (valid : book.Valid) (identityId : Nat) :
    (applyMerges book arguments).book.brokerOf identityId =
      (book.brokerOf identityId).map (destination book arguments) := by
  apply Option.ext
  intro broker
  rw [brokerOf_iff (keyed_applyMerges valid).1, Option.map_eq_some_iff]
  have identities : (applyMerges book arguments).book.identities =
      book.identities.map (Identity.repointed · (rowsOf book arguments)) := by
    rw [applyMerges_eq]
    rfl
  rw [identities]
  simp only [List.mem_map, exists_exists_and_eq_and, repointed_id]
  constructor
  · rintro ⟨identity, held, own, owned⟩
    rw [repointed_brokerId valid.identities held, Option.map_eq_some_iff] at owned
    obtain ⟨before, on, goes⟩ := owned
    exact ⟨before, (brokerOf_iff valid.identities).mpr ⟨identity, held, own, on⟩, goes⟩
  · rintro ⟨before, on, goes⟩
    obtain ⟨identity, held, own, owned⟩ := (brokerOf_iff valid.identities).mp on
    refine ⟨identity, held, own, ?_⟩
    rw [repointed_brokerId valid.identities held, owned, Option.map_some, goes]

end Books

/-! ### The rails -/

section Rails

variable {book : Book} {arguments : MergeArguments}

theorem mem_partners {active : List (Nat × Nat)} {owner : Nat → Option Nat} {identity other : Nat} :
    other ∈ partners active owner identity ↔ (owner identity).isSome = true ∧
      (owner other).isSome = true ∧ ((identity, other) ∈ active ∨ (other, identity) ∈ active) := by
  unfold partners
  rw [List.mem_dedup, List.mem_flatMap]
  simp only [List.mem_filter, Bool.and_eq_true, List.mem_append, List.mem_ite_nil_right,
    List.mem_singleton]
  constructor
  · rintro ⟨⟨lo, hi⟩, ⟨listed, known⟩, ⟨rfl, rfl⟩ | ⟨rfl, rfl⟩⟩
    · exact ⟨known.1, known.2, .inl listed⟩
    · exact ⟨known.2, known.1, .inr listed⟩
  · rintro ⟨one, two, listed | listed⟩
    · exact ⟨_, ⟨listed, one, two⟩, .inl ⟨rfl, rfl⟩⟩
    · exact ⟨_, ⟨listed, two, one⟩, .inr ⟨rfl, rfl⟩⟩

/-- A component is blocked by an active pair on two of its brokers. -/
theorem blocked_iff (keyed : Keyed Identity.id book.identities) {component : List Nat}
    (listed : component ∈ components book arguments) (active : List (Nat × Nat)) :
    (blockedComponent (component.flatMap book.identitiesOf)
      (ownerIn book.brokerOf (components book arguments))
      (partners active (ownerIn book.brokerOf (components book arguments)))).isSome = true ↔
      ∃ pair ∈ active, ∃ left ∈ component, ∃ right ∈ component,
        book.brokerOf pair.1 = some left ∧ book.brokerOf pair.2 = some right ∧ left ≠ right := by
  have carried : ∀ identity, identity ∈ component.flatMap book.identitiesOf ↔
      ∃ broker ∈ component, book.brokerOf identity = some broker := by
    intro identity
    simp only [List.mem_flatMap, mem_identitiesOf keyed]
  have owned : ∀ identity broker, broker ∈ component → book.brokerOf identity = some broker →
      ownerIn book.brokerOf (components book arguments) identity = some broker := by
    intro identity broker held on
    unfold ownerIn
    rw [on, Option.filter_some,
      if_pos (decide_eq_true (List.mem_flatten.mpr ⟨component, listed, held⟩))]
  unfold blockedComponent
  simp only [List.findSome?_isSome_iff, mem_sortedBy, mem_partners]
  constructor
  · rintro ⟨identity, inside, other, ⟨_, _, pair⟩, blocked⟩
    have apart : other ∈ component.flatMap book.identitiesOf ∧
        ownerIn book.brokerOf (components book arguments) identity ≠
          ownerIn book.brokerOf (components book arguments) other := by
      by_contra together
      rw [if_neg together] at blocked
      cases blocked
    obtain ⟨left, leftHeld, leftOn⟩ := (carried identity).mp inside
    obtain ⟨right, rightHeld, rightOn⟩ := (carried other).mp apart.1
    have differ : left ≠ right := by
      rintro rfl
      exact apart.2 ((owned identity left leftHeld leftOn).trans
        (owned other left rightHeld rightOn).symm)
    cases pair with
    | inl forth => exact ⟨_, forth, left, leftHeld, right, rightHeld, leftOn, rightOn, differ⟩
    | inr back => exact ⟨_, back, right, rightHeld, left, leftHeld, rightOn, leftOn, differ.symm⟩
  · rintro ⟨pair, active_, left, leftHeld, right, rightHeld, leftOn, rightOn, differ⟩
    have leftOwned := owned pair.1 left leftHeld leftOn
    have rightOwned := owned pair.2 right rightHeld rightOn
    refine ⟨pair.1, (carried _).mpr ⟨left, leftHeld, leftOn⟩, pair.2,
      ⟨by rw [leftOwned]; rfl, by rw [rightOwned]; rfl, .inl active_⟩, ?_⟩
    have apart : ownerIn book.brokerOf (components book arguments) pair.1 ≠
        ownerIn book.brokerOf (components book arguments) pair.2 := by
      rw [leftOwned, rightOwned]
      exact fun same => differ (Option.some.inj same)
    rw [if_pos ⟨(carried _).mpr ⟨right, rightHeld, rightOn⟩, apart⟩]
    rfl

theorem verdict_merged_iff (keyed : Keyed Identity.id book.identities) {component : List Nat}
    (listed : component ∈ components book arguments) :
    verdict book arguments component = .merged ↔ component.length ≤ maxAutoMergeComponent ∧
      ¬ ∃ pair ∈ activePairs book arguments, ∃ left ∈ component, ∃ right ∈ component,
        book.brokerOf pair.1 = some left ∧ book.brokerOf pair.2 = some right ∧ left ≠ right := by
  rw [← blocked_iff keyed listed, ← not_lt]
  unfold verdict
  dsimp only
  split_ifs with large blocked
  · simp [large]
  · simp [large, blocked]
  · simp [large, blocked]

end Rails

/-! ### Retired brokers -/

/-- Active before the run, merged away after it. -/
def Retired (book after : Book) (brokerId : Nat) : Prop :=
  (∃ old ∈ book.brokers, old.id = brokerId ∧ old.status = .active) ∧
    ∃ new ∈ after.brokers, new.id = brokerId ∧ new.status = .mergedAway

section Retirement

variable {book : Book} {arguments : MergeArguments}

theorem brokers_applyMerges : (applyMerges book arguments).book.brokers =
    book.brokers.map (Broker.retired ·
      ((mergedComponents book arguments).flatMap losersOf) arguments.now) := by
  rw [applyMerges_eq]
  rfl

theorem active_of_component (valid : book.Valid) {component : List Nat}
    (listed : component ∈ components book arguments) {brokerId : Nat} (held : brokerId ∈ component) :
    ∃ broker ∈ book.brokers, broker.id = brokerId ∧ broker.status = .active := by
  obtain ⟨group, _, among⟩ := mem_brokersTouched.mp (component_touched listed held)
  obtain ⟨identityId, _, on⟩ := mem_brokersIn.mp among
  obtain ⟨identity, inBook, _, owned⟩ := (brokerOf_iff valid.identities).mp on
  exact valid.owned identity inBook brokerId owned

theorem mergedInto_of_loser {brokerId survivor : Nat}
    (loses : ((mergedComponents book arguments).flatMap losersOf).lookup brokerId = some survivor)
    {broker : Broker} (held : broker ∈ (applyMerges book arguments).book.brokers)
    (own : broker.id = brokerId) : broker.status = .mergedAway ∧ broker.mergedInto = some survivor := by
  rw [brokers_applyMerges] at held
  obtain ⟨before, _, rfl⟩ := List.mem_map.mp held
  rw [retired_id] at own
  unfold Broker.retired
  rw [own, loses]
  exact ⟨rfl, rfl⟩

theorem unchanged_of_lookup {brokerId : Nat}
    (stays : ((mergedComponents book arguments).flatMap losersOf).lookup brokerId = none)
    {broker : Broker} (held : broker ∈ book.brokers) (own : broker.id = brokerId) :
    broker ∈ (applyMerges book arguments).book.brokers := by
  rw [brokers_applyMerges]
  refine List.mem_map.mpr ⟨broker, held, ?_⟩
  unfold Broker.retired
  rw [own, stays]

theorem retired_iff (valid : book.Valid) {brokerId : Nat} :
    Retired book (applyMerges book arguments).book brokerId ↔ ∃ survivor,
      ((mergedComponents book arguments).flatMap losersOf).lookup brokerId = some survivor := by
  constructor
  · rintro ⟨⟨old, oldHeld, oldId, active⟩, new, newHeld, newId, away⟩
    rw [← Option.ne_none_iff_exists']
    intro stays
    have same := (keyed_applyMerges valid).2.eq newHeld (unchanged_of_lookup stays oldHeld oldId)
      (newId.trans oldId.symm)
    rw [same, active] at away
    cases away
  · rintro ⟨survivor, loses⟩
    obtain ⟨rest, merged, held⟩ := lookup_loser.mp loses
    obtain ⟨old, oldHeld, own, active⟩ := active_of_component valid
      (mem_mergedComponents.mp merged).1 (List.mem_cons_of_mem survivor held)
    have after : old.retired ((mergedComponents book arguments).flatMap losersOf) arguments.now ∈
        (applyMerges book arguments).book.brokers := by
      rw [brokers_applyMerges]
      exact List.mem_map_of_mem oldHeld
    have ownAfter := (retired_id old ((mergedComponents book arguments).flatMap losersOf)
      arguments.now).trans own
    exact ⟨⟨old, oldHeld, own, active⟩, _, after, ownAfter,
      (mergedInto_of_loser loses after ownAfter).1⟩

end Retirement

/-! ### A second run -/

section Rerun

variable {book : Book} {arguments again : MergeArguments}

/-- The broker is of no merged component. -/
def Outside (book : Book) (arguments : MergeArguments) (broker : Nat) : Prop :=
  ∀ component ∈ mergedComponents book arguments, broker ∉ component

instance (book : Book) (arguments : MergeArguments) (broker : Nat) :
    Decidable (Outside book arguments broker) :=
  inferInstanceAs (Decidable (∀ component ∈ mergedComponents book arguments, broker ∉ component))

/-- A broker of a merged component goes to its survivor, which is of it. -/
theorem merged_of_not_outside {broker : Nat} (inside : ¬ Outside book arguments broker) :
    ∃ component ∈ mergedComponents book arguments, broker ∈ component ∧
      destination book arguments broker ∈ component := by
  unfold Outside at inside
  push Not at inside
  obtain ⟨component, merged, held⟩ := inside
  refine ⟨component, merged, held, ?_⟩
  cases component with
  | nil => cases held
  | cons survivor rest =>
      rw [destination_of_mem merged held]
      exact List.mem_cons_self

theorem outside_destination {broker : Nat}
    (outside : Outside book arguments (destination book arguments broker)) :
    destination book arguments broker = broker := by
  by_cases own : Outside book arguments broker
  · exact destination_of_not_mem own
  · obtain ⟨component, merged, _, held⟩ := merged_of_not_outside own
    exact absurd held (outside component merged)

/-- Brokers of one class are outside together. -/
theorem outside_of_root {left right : Nat}
    (touched : left ∈ brokersTouched arguments.groups book.brokerOf)
    (root : rootOf arguments.groups book.brokerOf left =
      rootOf arguments.groups book.brokerOf right)
    (outside : Outside book arguments left) : Outside book arguments right := by
  intro component merged held
  exact outside component merged
    ((component_closed (mem_mergedComponents.mp merged).1 held).mpr ⟨touched, root⟩)

theorem link_touched {link : Nat × Nat} (listed : link ∈ links arguments.groups book.brokerOf) :
    link.1 ∈ brokersTouched arguments.groups book.brokerOf ∧
      link.2 ∈ brokersTouched arguments.groups book.brokerOf := by
  obtain ⟨group, held, chained⟩ := mem_links.mp listed
  obtain ⟨first, second⟩ := mem_of_chain chained
  exact ⟨mem_brokersTouched.mpr ⟨group, held, first⟩, mem_brokersTouched.mpr ⟨group, held, second⟩⟩

section After

variable (valid : book.Valid)
include valid

theorem mem_brokersIn_after {group : List Nat} {broker : Nat} :
    broker ∈ brokersIn (applyMerges book arguments).book.brokerOf group ↔
      ∃ before ∈ brokersIn book.brokerOf group, destination book arguments before = broker := by
  simp only [mem_brokersIn, brokerOf_applyMerges valid, Option.map_eq_some_iff]
  constructor
  · rintro ⟨identityId, listed, before, on, goes⟩
    exact ⟨before, ⟨identityId, listed, on⟩, goes⟩
  · rintro ⟨before, ⟨identityId, listed, on⟩, goes⟩
    exact ⟨identityId, listed, before, on, goes⟩

/-- A group with a broker outside keeps its brokers. -/
theorem brokersIn_after {group : List Nat} (listed : group ∈ arguments.groups)
    (outside : ∃ broker ∈ brokersIn book.brokerOf group, Outside book arguments broker) :
    brokersIn (applyMerges book arguments).book.brokerOf group = brokersIn book.brokerOf group := by
  obtain ⟨broker, held, own⟩ := outside
  have stays : ∀ other ∈ brokersIn book.brokerOf group,
      destination book arguments other = other := by
    intro other otherHeld
    apply destination_of_not_mem
    exact outside_of_root (mem_brokersTouched.mpr ⟨group, listed, held⟩)
      (rootOf_group listed held otherHeld) own
  have distinct : ∀ brokerOf, ((group.filterMap brokerOf).dedup : List Nat).Nodup :=
    fun _ => List.nodup_dedup _
  refine sortedIds_eq_of_mem_iff (distinct _) (distinct _) ?_
  intro other
  have after := @mem_brokersIn_after book arguments valid group other
  rw [brokersIn, mem_sortedBy] at after
  rw [after]
  constructor
  · rintro ⟨before, beforeHeld, rfl⟩
    rw [stays before beforeHeld]
    rwa [brokersIn, mem_sortedBy] at beforeHeld
  · intro among
    have known : other ∈ brokersIn book.brokerOf group := by rwa [brokersIn, mem_sortedBy]
    exact ⟨other, known, stays other known⟩

/-- The links of a second run are those of the first outside what it merged. -/
theorem mem_links_after {link : Nat × Nat} :
    link ∈ links arguments.groups (applyMerges book arguments).book.brokerOf ↔
      link ∈ links arguments.groups book.brokerOf ∧ Outside book arguments link.1 := by
  constructor
  · intro listed
    obtain ⟨group, held, chained⟩ := mem_links.mp listed
    by_cases outside : ∃ broker ∈ brokersIn book.brokerOf group, Outside book arguments broker
    · rw [brokersIn_after valid held outside] at chained
      refine ⟨mem_links.mpr ⟨group, held, chained⟩, ?_⟩
      obtain ⟨broker, among, own⟩ := outside
      exact outside_of_root (mem_brokersTouched.mpr ⟨group, held, among⟩)
        (rootOf_group held among (mem_of_chain chained).1) own
    · -- All brokers of the group are in one merged component, and went to its survivor.
      exfalso
      push Not at outside
      obtain ⟨inFirst, inSecond⟩ := mem_of_chain chained
      obtain ⟨first, firstHeld, firstGoes⟩ := (mem_brokersIn_after valid).mp inFirst
      obtain ⟨second, secondHeld, secondGoes⟩ := (mem_brokersIn_after valid).mp inSecond
      obtain ⟨component, merged, own, _⟩ := merged_of_not_outside (outside first firstHeld)
      have other : second ∈ component :=
        (component_closed (mem_mergedComponents.mp merged).1 own).mpr
          ⟨mem_brokersTouched.mpr ⟨group, held, secondHeld⟩, rootOf_group held secondHeld firstHeld⟩
      apply chain_apart (nodup_sortedBy.mpr (List.nodup_dedup _)) chained
      cases component with
      | nil => cases own
      | cons survivor rest =>
          rw [← firstGoes, ← secondGoes, destination_of_mem merged own,
            destination_of_mem merged other]
  · rintro ⟨listed, outside⟩
    obtain ⟨group, held, chained⟩ := mem_links.mp listed
    refine mem_links.mpr ⟨group, held, ?_⟩
    rw [brokersIn_after valid held ⟨link.1, (mem_of_chain chained).1, outside⟩]
    exact chained

/-- Outside, a second run has the roots of the first. -/
theorem rootOf_after {broker : Nat} (outside : Outside book arguments broker) :
    rootOf arguments.groups (applyMerges book arguments).book.brokerOf broker =
      rootOf arguments.groups book.brokerOf broker := by
  have closed : ∀ link ∈ links arguments.groups book.brokerOf,
      decide (Outside book arguments link.1) = decide (Outside book arguments link.2) := by
    intro link listed
    obtain ⟨first, second⟩ := link_touched listed
    have root := rootOf_link listed
    rw [decide_eq_decide]
    exact ⟨outside_of_root first root, outside_of_root second root.symm⟩
  unfold rootOf
  rw [← Forest.find_linkAll_keep (fun broker => decide (Outside book arguments broker)) closed
    (decide_eq_true outside)]
  apply Forest.find_linkAll_congr
  intro left right
  have members : ∀ link, link ∈ links arguments.groups
      (applyMerges book arguments).book.brokerOf ↔
        link ∈ (links arguments.groups book.brokerOf).filter fun link =>
          decide (Outside book arguments link.1) := by
    intro link
    rw [mem_links_after valid, List.mem_filter, decide_eq_true_iff]
  exact ⟨Forest.Joined.mono fun link listed => (members link).mp listed,
    Forest.Joined.mono fun link listed => (members link).mpr listed⟩

/-- Inside, it joins nothing. -/
theorem rootOf_after_inside {broker other : Nat} (inside : ¬ Outside book arguments broker)
    (root : rootOf arguments.groups (applyMerges book arguments).book.brokerOf other =
      rootOf arguments.groups (applyMerges book arguments).book.brokerOf broker) :
    other = broker := by
  have closed : ∀ link ∈ links arguments.groups (applyMerges book arguments).book.brokerOf,
      decide (link.1 = broker) = decide (link.2 = broker) := by
    intro link listed
    obtain ⟨before, outside⟩ := (mem_links_after valid).mp listed
    have second := outside_of_root (link_touched before).1 (rootOf_link before) outside
    rw [decide_eq_decide]
    constructor
    · rintro rfl
      exact absurd outside inside
    · rintro rfl
      exact absurd second inside
  have kept := Forest.keep_find_linkAll (fun item => decide (item = broker)) closed
  have own := kept broker
  have others := kept other
  unfold rootOf at root
  rw [root, own] at others
  simpa using others.symm

/-- What a second run would merge is a component the first refused. -/
theorem components_after {component : List Nat}
    (listed : component ∈ brokerComponents arguments.groups
      (applyMerges book arguments).book.brokerOf) :
    component ∈ components book arguments ∧ ∀ broker ∈ component, Outside book arguments broker := by
  obtain ⟨several, first, touched, shape⟩ := mem_brokerComponents.mp listed
  have own : first ∈ component := by
    rw [shape, mem_sortedBy, List.mem_filter]
    exact ⟨touched, decide_eq_true rfl⟩
  have stays : ∀ broker, Outside book arguments broker →
      broker ∈ brokersTouched arguments.groups (applyMerges book arguments).book.brokerOf →
        broker ∈ brokersTouched arguments.groups book.brokerOf := by
    intro broker out held
    obtain ⟨group, among, inGroup⟩ := mem_brokersTouched.mp held
    obtain ⟨before, beforeHeld, rfl⟩ := (mem_brokersIn_after valid).mp inGroup
    rw [outside_destination out]
    exact mem_brokersTouched.mpr ⟨group, among, beforeHeld⟩
  have outside : ∀ broker ∈ component, Outside book arguments broker := by
    intro broker held
    by_contra inside
    have alone : ∀ other ∈ component, other = broker := by
      intro other otherHeld
      exact rootOf_after_inside valid inside ((component_closed listed held).mp otherHeld).2
    have single : component.Nodup := by
      rw [shape]
      exact nodup_sortedBy.mpr ((List.nodup_dedup _).filter _)
    have within : component ⊆ [broker] := fun other otherHeld =>
      List.mem_singleton.mpr (alone other otherHeld)
    exact absurd several (not_lt.mpr (List.subperm_of_subset single within).length_le)
  refine ⟨mem_brokerComponents.mpr ⟨several, first, ?_, ?_⟩, outside⟩
  · exact stays first (outside first own) touched
  · rw [shape]
    refine sortedIds_eq_of_mem_iff ((List.nodup_dedup _).filter _) ((List.nodup_dedup _).filter _) ?_
    intro broker
    simp only [List.mem_filter, decide_eq_true_iff]
    constructor
    · rintro ⟨held, root⟩
      have out : Outside book arguments broker :=
        outside broker ((component_closed listed own).mpr ⟨held, root⟩)
      rw [rootOf_after valid out, rootOf_after valid (outside first own)] at root
      exact ⟨stays broker out held, root⟩
    · rintro ⟨held, root⟩
      have out : Outside book arguments broker :=
        outside_of_root (stays first (outside first own) touched) root.symm (outside first own)
      refine ⟨?_, ?_⟩
      · obtain ⟨group, among, inGroup⟩ := mem_brokersTouched.mp held
        refine mem_brokersTouched.mpr ⟨group, among, ?_⟩
        rw [brokersIn_after valid among ⟨broker, inGroup, out⟩]
        exact inGroup
      · rw [rootOf_after valid out, rootOf_after valid (outside first own)]
        exact root

theorem rerun_merges_nothing (groups : again.groups = arguments.groups)
    (pairs : again.suppressedPairs = arguments.suppressedPairs) :
    mergedComponents (applyMerges book arguments).book again = [] := by
  have suppressions : (applyMerges book arguments).book.suppressions = book.suppressions := by
    rw [applyMerges_eq]
    rfl
  have active : activePairs (applyMerges book arguments).book again =
      activePairs book arguments := by
    unfold activePairs Book.suppressedPairs
    rw [suppressions, pairs]
  rw [List.eq_nil_iff_forall_not_mem]
  intro component merged
  obtain ⟨listed, verdictAfter⟩ := mem_mergedComponents.mp merged
  obtain ⟨small, clear⟩ := (verdict_merged_iff (keyed_applyMerges valid).1 listed).mp verdictAfter
  rw [active] at clear
  unfold components at listed
  rw [groups] at listed
  obtain ⟨before, outside⟩ := components_after valid listed
  obtain ⟨first, held⟩ : ∃ first, first ∈ component :=
    List.exists_mem_of_length_pos (lt_trans Nat.zero_lt_one (mem_brokerComponents.mp listed).1)
  refine outside first held component (mem_mergedComponents.mpr ⟨before, ?_⟩) held
  refine (verdict_merged_iff valid.identities before).mpr ⟨small, ?_⟩
  rintro ⟨pair, active_, left, leftHeld, right, rightHeld, leftOn, rightOn, apart⟩
  apply clear
  refine ⟨pair, active_, left, leftHeld, right, rightHeld, ?_, ?_, apart⟩
  · rw [brokerOf_applyMerges valid, leftOn, Option.map_some,
      destination_of_not_mem (outside left leftHeld)]
  · rw [brokerOf_applyMerges valid, rightOn, Option.map_some,
      destination_of_not_mem (outside right rightHeld)]

end After

end Rerun

/-! ### Consistency -/

/-- The rows a run added. -/
def newRows (book after : Book) : List MergeEvent := after.events.drop book.events.length

/-- What a run of the merges keeps of the book. -/
structure Consistent (book : Book) (arguments : MergeArguments) (result : MergeResult) : Prop where
  /-- No active pair on two brokers comes to sit on one. -/
  suppressed : ∀ pair ∈ activePairs book arguments, ∀ left right,
    book.brokerOf pair.1 = some left → book.brokerOf pair.2 = some right → left ≠ right →
      result.book.brokerOf pair.1 ≠ result.book.brokerOf pair.2
  /-- A retired broker is empty, and was merged into an active one. -/
  retired : ∀ brokerId, Retired book result.book brokerId →
    result.book.identitiesOf brokerId = [] ∧ ∃ survivor,
      (∀ broker ∈ result.book.brokers, broker.id = brokerId → broker.mergedInto = some survivor) ∧
        (∃ keeper ∈ result.book.brokers, keeper.id = survivor ∧ keeper.status = .active) ∧
          ¬ Retired book result.book survivor
  ledger : result.book.events = book.events ++ newRows book result.book
  /-- Its identities are on that survivor, each with one new row. -/
  moved : ∀ brokerId, Retired book result.book brokerId → ∀ broker ∈ result.book.brokers,
    broker.id = brokerId → ∀ identityId, book.brokerOf identityId = some brokerId →
      result.book.brokerOf identityId = broker.mergedInto ∧ ∃ row,
        (newRows book result.book).filter (fun row => row.identityId == identityId) = [row] ∧
          row.prevBrokerId = brokerId ∧ some row.survivorBrokerId = broker.mergedInto
  kept : ∀ identityId, (∀ brokerId, book.brokerOf identityId = some brokerId →
    ¬ Retired book result.book brokerId) →
      result.book.brokerOf identityId = book.brokerOf identityId ∧
        ∀ row ∈ newRows book result.book, row.identityId ≠ identityId
  /-- A group ends on one broker, but for the components counted as refused. -/
  together : ∀ group ∈ arguments.groups, ∀ one ∈ group, ∀ other ∈ group, ∀ left right,
    book.brokerOf one = some left → book.brokerOf other = some right → left ≠ right →
      result.book.brokerOf one = result.book.brokerOf other ∨
        ∃ component ∈ components book arguments, left ∈ component ∧ right ∈ component ∧
          (verdict book arguments component = .dropped ∨
            verdict book arguments component = .oversized)
  dropped : result.dropped = ((components book arguments).filter fun component =>
    verdict book arguments component = .dropped).length
  oversized : result.oversized = ((components book arguments).filter fun component =>
    verdict book arguments component = .oversized).length
  /-- The survivor counts among the brokers that end on it. -/
  bounded : ∀ survivor, ∀ brokerIds : List Nat, brokerIds.Nodup →
    (∀ brokerId ∈ brokerIds, Retired book result.book brokerId ∧
      ∃ broker ∈ result.book.brokers, broker.id = brokerId ∧
        broker.mergedInto = some survivor) → brokerIds.length + 1 ≤ maxAutoMergeComponent
  settled : ∀ again : MergeArguments, again.groups = arguments.groups →
    again.suppressedPairs = arguments.suppressedPairs →
      (applyMerges result.book again).book = result.book ∧
        (applyMerges result.book again).retired = 0

section Parts

variable {book : Book} {arguments : MergeArguments}

theorem newRows_applyMerges : newRows book (applyMerges book arguments).book =
    rowsOf book arguments := by
  rw [applyMerges_eq]
  exact List.drop_left

theorem suppressed_applyMerges (valid : book.Valid) {pair : Nat × Nat}
    (active : pair ∈ activePairs book arguments) {left right : Nat}
    (leftOn : book.brokerOf pair.1 = some left) (rightOn : book.brokerOf pair.2 = some right)
    (apart : left ≠ right) : (applyMerges book arguments).book.brokerOf pair.1 ≠
      (applyMerges book arguments).book.brokerOf pair.2 := by
  rw [brokerOf_applyMerges valid, brokerOf_applyMerges valid, leftOn, rightOn, Option.map_some,
    Option.map_some]
  intro met
  have same := Option.some.inj met
  -- Two brokers that meet are of one merged component.
  have meets : ∃ component ∈ mergedComponents book arguments,
      left ∈ component ∧ right ∈ component := by
    by_cases outside : Outside book arguments left
    · rw [destination_of_not_mem outside] at same
      have other : Outside book arguments right := by
        by_contra inside
        obtain ⟨component, merged, _, held⟩ := merged_of_not_outside inside
        exact outside component merged (same ▸ held)
      rw [destination_of_not_mem other] at same
      exact absurd same apart
    · obtain ⟨component, merged, held, goes⟩ := merged_of_not_outside outside
      refine ⟨component, merged, held, ?_⟩
      rw [same] at goes
      by_cases other : Outside book arguments right
      · rw [destination_of_not_mem other] at goes
        exact absurd goes (other component merged)
      · obtain ⟨second, secondMerged, secondHeld, secondGoes⟩ := merged_of_not_outside other
        have one := component_eq (mem_mergedComponents.mp merged).1
          (mem_mergedComponents.mp secondMerged).1 goes secondGoes
        exact one ▸ secondHeld
  obtain ⟨component, merged, leftHeld, rightHeld⟩ := meets
  obtain ⟨listed, judged⟩ := mem_mergedComponents.mp merged
  exact ((verdict_merged_iff valid.identities listed).mp judged).2
    ⟨pair, active, left, leftHeld, right, rightHeld, leftOn, rightOn, apart⟩

theorem retired_applyMerges (valid : book.Valid) {brokerId : Nat}
    (retired : Retired book (applyMerges book arguments).book brokerId) :
    (applyMerges book arguments).book.identitiesOf brokerId = [] ∧ ∃ survivor,
      (∀ broker ∈ (applyMerges book arguments).book.brokers, broker.id = brokerId →
        broker.mergedInto = some survivor) ∧
        (∃ keeper ∈ (applyMerges book arguments).book.brokers,
          keeper.id = survivor ∧ keeper.status = .active) ∧
          ¬ Retired book (applyMerges book arguments).book survivor := by
  obtain ⟨survivor, loses⟩ := (retired_iff valid).mp retired
  obtain ⟨rest, merged, held⟩ := lookup_loser.mp loses
  have stays := survivor_stays merged
  refine ⟨?_, survivor, fun broker listed own => (mergedInto_of_loser loses listed own).2, ?_, ?_⟩
  · rw [List.eq_nil_iff_forall_not_mem]
    intro identityId carried
    rw [mem_identitiesOf (keyed_applyMerges valid).1, brokerOf_applyMerges valid,
      Option.map_eq_some_iff] at carried
    obtain ⟨before, _, goes⟩ := carried
    -- Nobody goes to a loser.
    have outside : ∀ component ∈ mergedComponents book arguments, brokerId ∈ component →
        component = survivor :: rest := fun component other among =>
      component_eq (mem_mergedComponents.mp other).1 (mem_mergedComponents.mp merged).1 among
        (List.mem_cons_of_mem _ held)
    have away : destination book arguments brokerId = survivor :=
      destination_of_mem merged (List.mem_cons_of_mem _ held)
    have differ : survivor ≠ brokerId := by
      rintro rfl
      rw [stays] at loses
      cases loses
    cases destination_cases book arguments before with
    | inl same =>
        rw [same] at goes
        rw [goes] at same
        exact differ (away.symm.trans same)
    | inr elsewhere =>
        obtain ⟨other, others, otherMerged, _, met⟩ := elsewhere
        have shape := outside _ otherMerged (by rw [← goes, met]; exact List.mem_cons_self)
        cases shape
        exact differ (met.symm.trans goes)
  · obtain ⟨keeper, inBook, own, active⟩ := active_of_component valid
      (mem_mergedComponents.mp merged).1 List.mem_cons_self
    exact ⟨keeper, unchanged_of_lookup stays inBook own, own, active⟩
  · intro also
    obtain ⟨other, goes⟩ := (retired_iff valid).mp also
    rw [stays] at goes
    cases goes

theorem moved_applyMerges (valid : book.Valid) {brokerId : Nat}
    (retired : Retired book (applyMerges book arguments).book brokerId) {broker : Broker}
    (held : broker ∈ (applyMerges book arguments).book.brokers) (own : broker.id = brokerId)
    {identityId : Nat} (on : book.brokerOf identityId = some brokerId) :
    (applyMerges book arguments).book.brokerOf identityId = broker.mergedInto ∧ ∃ row,
      (newRows book (applyMerges book arguments).book).filter
        (fun row => row.identityId == identityId) = [row] ∧
          row.prevBrokerId = brokerId ∧ some row.survivorBrokerId = broker.mergedInto := by
  obtain ⟨survivor, loses⟩ := (retired_iff valid).mp retired
  obtain ⟨row, listed, same⟩ := exists_row valid.identities on loses
  obtain ⟨prev, carried, goes⟩ := mem_rowsOf valid.identities listed
  rw [same, on] at carried
  cases carried
  rw [loses] at goes
  cases goes
  rw [(mergedInto_of_loser loses held own).2, newRows_applyMerges]
  refine ⟨?_, row, ?_, prev, rfl⟩
  · rw [brokerOf_applyMerges valid, on, Option.map_some]
    unfold destination
    rw [loses]
    rfl
  · rw [← same]
    exact (keyed_rowsOf valid.identities).filter_key listed

theorem kept_applyMerges (valid : book.Valid) {identityId : Nat}
    (stays : ∀ brokerId, book.brokerOf identityId = some brokerId →
      ¬ Retired book (applyMerges book arguments).book brokerId) :
    (applyMerges book arguments).book.brokerOf identityId = book.brokerOf identityId ∧
      ∀ row ∈ newRows book (applyMerges book arguments).book, row.identityId ≠ identityId := by
  constructor
  · rw [brokerOf_applyMerges valid]
    cases on : book.brokerOf identityId with
    | none => rfl
    | some brokerId =>
        rw [Option.map_some]
        unfold destination
        cases loses : ((mergedComponents book arguments).flatMap losersOf).lookup brokerId with
        | none => rfl
        | some survivor => exact absurd ((retired_iff valid).mpr ⟨survivor, loses⟩) (stays brokerId on)
  · rw [newRows_applyMerges]
    rintro row listed rfl
    obtain ⟨_, carried, loses⟩ := mem_rowsOf valid.identities listed
    exact stays _ carried ((retired_iff valid).mpr ⟨_, loses⟩)

theorem together_applyMerges (valid : book.Valid) {group : List Nat}
    (listed : group ∈ arguments.groups) {one other : Nat} (inOne : one ∈ group)
    (inOther : other ∈ group) {left right : Nat} (leftOn : book.brokerOf one = some left)
    (rightOn : book.brokerOf other = some right) (apart : left ≠ right) :
    (applyMerges book arguments).book.brokerOf one =
        (applyMerges book arguments).book.brokerOf other ∨
      ∃ component ∈ components book arguments, left ∈ component ∧ right ∈ component ∧
        (verdict book arguments component = .dropped ∨
          verdict book arguments component = .oversized) := by
  obtain ⟨component, known, leftHeld, rightHeld⟩ := component_of_group listed
    (mem_brokersIn.mpr ⟨one, inOne, leftOn⟩) (mem_brokersIn.mpr ⟨other, inOther, rightOn⟩) apart
  cases judged : verdict book arguments component with
  | oversized => exact .inr ⟨component, known, leftHeld, rightHeld, .inr judged⟩
  | dropped => exact .inr ⟨component, known, leftHeld, rightHeld, .inl judged⟩
  | merged =>
      left
      rw [brokerOf_applyMerges valid, brokerOf_applyMerges valid, leftOn, rightOn, Option.map_some,
        Option.map_some]
      have merged := mem_mergedComponents.mpr ⟨known, judged⟩
      cases component with
      | nil => cases leftHeld
      | cons survivor rest =>
          rw [destination_of_mem merged leftHeld, destination_of_mem merged rightHeld]

theorem bounded_applyMerges (valid : book.Valid) {survivor : Nat} {brokerIds : List Nat}
    (distinct : brokerIds.Nodup)
    (retired : ∀ brokerId ∈ brokerIds, Retired book (applyMerges book arguments).book brokerId ∧
      ∃ broker ∈ (applyMerges book arguments).book.brokers, broker.id = brokerId ∧
        broker.mergedInto = some survivor) : brokerIds.length + 1 ≤ maxAutoMergeComponent := by
  have losers : ∀ brokerId ∈ brokerIds, ∃ rest,
      survivor :: rest ∈ mergedComponents book arguments ∧ brokerId ∈ rest := by
    intro brokerId listed
    obtain ⟨gone, broker, held, own, into⟩ := retired brokerId listed
    obtain ⟨other, loses⟩ := (retired_iff valid).mp gone
    rw [(mergedInto_of_loser loses held own).2] at into
    cases into
    exact lookup_loser.mp loses
  cases brokerIds with
  | nil => decide
  | cons first others =>
      obtain ⟨rest, merged, _⟩ := losers first List.mem_cons_self
      have within : first :: others ⊆ rest := by
        intro brokerId listed
        obtain ⟨tail, otherMerged, held⟩ := losers brokerId listed
        cases component_eq (mem_mergedComponents.mp merged).1 (mem_mergedComponents.mp otherMerged).1
          List.mem_cons_self List.mem_cons_self
        exact held
      obtain ⟨known, judged⟩ := mem_mergedComponents.mp merged
      have small := ((verdict_merged_iff valid.identities known).mp judged).1
      rw [List.length_cons] at small
      exact (Nat.succ_le_succ (List.subperm_of_subset distinct within).length_le).trans small

end Parts

theorem merges_keep_book_consistent (book : Book) (valid : book.Valid) (arguments : MergeArguments) :
    Consistent book arguments (applyMerges book arguments) where
  suppressed := fun _ active _ _ leftOn rightOn apart =>
    suppressed_applyMerges valid active leftOn rightOn apart
  retired := fun _ retired => retired_applyMerges valid retired
  ledger := by
    rw [newRows_applyMerges, applyMerges_eq]
    rfl
  moved := fun _ retired _ held own _ on => moved_applyMerges valid retired held own on
  kept := fun _ stays => kept_applyMerges valid stays
  together := fun _ listed _ inOne _ inOther _ _ leftOn rightOn apart =>
    together_applyMerges valid listed inOne inOther leftOn rightOn apart
  dropped := by
    rw [applyMerges_eq, ← List.countP_eq_length_filter]
  oversized := by
    rw [applyMerges_eq, ← List.countP_eq_length_filter]
  bounded := fun _ _ distinct retired => bounded_applyMerges valid distinct retired
  settled := by
    intro again groups pairs
    have nothing := rerun_merges_nothing valid groups pairs
    rw [applyMerges_eq (applyMerges book arguments).book again, rowsOf, nothing]
    exact ⟨write_nil _, rfl⟩

/-! ### A chain over a shared broker, beside a standing no -/

def activeBroker (id : Nat) : Broker where
  id := id
  status := .active
  mergedInto := none
  mergedAt := none

/-- Broker 2 holds an identity of each of the first two groups. -/
def chainedBook : Book where
  brokers := [1, 2, 3, 4, 5].map activeBroker
  identities := [⟨11, some 1⟩, ⟨12, some 2⟩, ⟨13, some 2⟩, ⟨14, some 3⟩, ⟨15, some 4⟩, ⟨16, some 5⟩,
    ⟨17, some 3⟩, ⟨18, none⟩]
  events := []
  suppressions := [⟨15, 16, none⟩, ⟨11, 14, some 5⟩]

def threeGroups : MergeArguments where
  groups := [[11, 12], [13, 14], [15, 16, 18]]
  suppressedPairs := []
  groupBridges := fun _ => none
  groupReasons := fun _ => some "contact_name+name_firm"
  uuid4 := fun _ => "g"
  now := 9

theorem chainedBook_valid : chainedBook.Valid where
  identities := by unfold Keyed; decide
  brokers := by unfold Keyed; decide
  owned := by decide

theorem chained_groups_stay_consistent :
    Consistent chainedBook threeGroups (applyMerges chainedBook threeGroups) ∧
      (applyMerges chainedBook threeGroups).retired = 2 ∧
        (applyMerges chainedBook threeGroups).dropped = 1 ∧
          (applyMerges chainedBook threeGroups).book.brokerOf 17 = some 1 :=
  ⟨merges_keep_book_consistent chainedBook chainedBook_valid threeGroups, by decide +kernel,
    by decide +kernel, by decide +kernel⟩

end Sreality.Scripts.BrokerMerges
