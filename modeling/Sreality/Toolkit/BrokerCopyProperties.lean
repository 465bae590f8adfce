import Sreality.Toolkit.BrokerQuestionsProperties

/-! A copy of an identity under a fresh id: the maps of the corpus read it as they read the
original, so the evidence among the other identities stays what it was. -/

set_option autoImplicit false

namespace Sreality.Toolkit.BrokerResolver

open Sreality.Foundation Sreality.Foundation.Forest

variable {unicode : Unicode} {corpus : Corpus} {blocked : Finset (Nat × Nat)}

namespace Corpus

/-- The corpus with a copy of an identity and of its contacts. -/
def withCopy (corpus : Corpus) (original : Identity) (id : Nat) : Corpus where
  identities := corpus.identities ++ [{ original with id := id }]
  contacts := corpus.contacts ++
    (corpus.contacts.filter fun contact => decide (contact.identityId = original.id)).map
      fun contact => { contact with identityId := id }

/-! ### Maps of the corpus, by their members -/

theorem mem_carriers {value : ContactValue} {id : Nat} : id ∈ corpus.carriers value ↔
    (corpus.byId id).isSome ∧ ∃ contact ∈ corpus.contacts, contact.identityId = id ∧
      (contact.kind, contact.value) = value := by
  unfold carriers carrying known
  rw [List.mem_toFinset, List.mem_map]
  constructor
  · rintro ⟨contact, held, rfl⟩
    obtain ⟨inside, same⟩ := List.mem_filter.mp held
    obtain ⟨listed, given⟩ := List.mem_filter.mp inside
    exact ⟨given, contact, listed, rfl, eq_of_beq same⟩
  · rintro ⟨given, contact, listed, rfl, same⟩
    exact ⟨contact, List.mem_filter.mpr ⟨List.mem_filter.mpr ⟨listed, given⟩,
      beq_iff_eq.mpr same⟩, rfl⟩

theorem mem_values {value : ContactValue} :
    value ∈ corpus.values ↔ ∃ id, id ∈ corpus.carriers value := by
  unfold values known
  rw [List.mem_eraseDups, List.mem_map]
  constructor
  · rintro ⟨contact, held, same⟩
    obtain ⟨listed, given⟩ := List.mem_filter.mp held
    exact ⟨contact.identityId, mem_carriers.mpr ⟨given, contact, listed, rfl, same⟩⟩
  · rintro ⟨id, carries⟩
    obtain ⟨given, contact, listed, rfl, same⟩ := mem_carriers.mp carries
    exact ⟨contact, List.mem_filter.mpr ⟨listed, given⟩, same⟩

theorem mem_namesAt {value : ContactValue} {key : String} : key ∈ corpus.namesAt unicode value ↔
    ∃ id ∈ corpus.carriers value, corpus.keyOf unicode id = some key := by
  unfold namesAt carriers
  rw [List.mem_toFinset, List.mem_filterMap]
  constructor
  · rintro ⟨contact, held, named⟩
    exact ⟨contact.identityId, List.mem_toFinset.mpr (List.mem_map_of_mem held), named⟩
  · rintro ⟨id, carries, named⟩
    obtain ⟨contact, held, rfl⟩ := List.mem_map.mp (List.mem_toFinset.mp carries)
    exact ⟨contact, held, named⟩

theorem mem_firmsOfName {key : String} {firm : Nat} : firm ∈ corpus.firmsOfName unicode key ↔
    ∃ identity ∈ corpus.identities, corpus.keyOf unicode identity.id = some key ∧
      identity.firmId = some firm := by
  unfold firmsOfName
  simp only [List.mem_toFinset, List.mem_filterMap, List.mem_filter, beq_iff_eq, and_assoc]

theorem mem_emailsOf {id : Nat} {mail : String} : mail ∈ corpus.emailsOf id ↔
    id ∈ corpus.carriers (.email, mail) := by
  unfold emailsOf known
  rw [mem_carriers, List.mem_map]
  constructor
  · rintro ⟨contact, held, rfl⟩
    obtain ⟨inside, both⟩ := List.mem_filter.mp held
    obtain ⟨listed, given⟩ := List.mem_filter.mp inside
    rw [Bool.and_eq_true, beq_iff_eq, beq_iff_eq] at both
    obtain ⟨rfl, kind⟩ := both
    exact ⟨given, contact, listed, rfl, Prod.ext kind rfl⟩
  · rintro ⟨given, contact, listed, rfl, same⟩
    obtain ⟨kind, rfl⟩ := Prod.mk.inj same
    refine ⟨contact, List.mem_filter.mpr ⟨List.mem_filter.mpr ⟨listed, given⟩, ?_⟩, rfl⟩
    rw [Bool.and_eq_true, beq_iff_eq, beq_iff_eq]
    exact ⟨rfl, kind⟩

theorem mem_discriminating {holder : Nat} {kind : ContactKind} {text : String} :
    text ∈ corpus.discriminating unicode holder kind ↔
      (corpus.namesAt unicode (kind, text)).card = 1 ∧ holder ∈ corpus.carriers (kind, text) ∧
        corpus.desk holder (kind, text) = false := by
  unfold discriminating
  rw [List.mem_toFinset, List.mem_map]
  constructor
  · rintro ⟨value, held, rfl⟩
    obtain ⟨_, all⟩ := List.mem_filter.mp held
    rw [Bool.and_eq_true, Bool.and_eq_true, beq_iff_eq, decide_eq_true_iff,
      Bool.not_eq_true'] at all
    obtain ⟨⟨rfl, single, carries⟩, own⟩ := all
    exact ⟨single, carries, own⟩
  · rintro ⟨single, carries, own⟩
    refine ⟨(kind, text), List.mem_filter.mpr ⟨mem_values.mpr ⟨holder, carries⟩, ?_⟩, rfl⟩
    rw [Bool.and_eq_true, Bool.and_eq_true, beq_iff_eq, decide_eq_true_iff, Bool.not_eq_true']
    exact ⟨⟨rfl, single, carries⟩, own⟩

theorem mem_byKey_iff (keyed : Keyed Identity.id corpus.identities) {key : String} {id : Nat} :
    id ∈ corpus.byKey unicode key ↔ Bearer unicode corpus id key := by
  constructor
  · exact mem_byKey keyed
  · intro bears
    obtain ⟨identity, listed, rfl, mergeable, _⟩ := bears.identity
    refine List.mem_toFinset.mpr (List.mem_map.mpr ⟨identity, List.mem_filter.mpr
      ⟨listed, ?_⟩, rfl⟩)
    rw [Bool.and_eq_true, beq_iff_eq]
    exact ⟨mergeable, bears.1⟩

/-- The firm of an identity, by its id. -/
def firmOf (corpus : Corpus) (id : Nat) : Option Nat := (corpus.byId id).bind Identity.firmId

theorem mem_atFirm_iff (keyed : Keyed Identity.id corpus.identities) {cohort : String × Nat}
    {id : Nat} : id ∈ corpus.atFirm unicode cohort ↔
      Bearer unicode corpus id cohort.1 ∧ corpus.firmOf id = some cohort.2 := by
  unfold firmOf
  constructor
  · intro held
    refine ⟨mem_atFirm keyed held, ?_⟩
    obtain ⟨identity, kept, rfl⟩ := List.mem_map.mp (List.mem_toFinset.mp held)
    obtain ⟨listed, holds⟩ := List.mem_filter.mp kept
    rw [Bool.and_eq_true, beq_iff_eq] at holds
    rw [byId_of_mem keyed listed]
    exact holds.2
  · rintro ⟨bears, firm⟩
    obtain ⟨identity, listed, rfl, mergeable, _⟩ := bears.identity
    rw [byId_of_mem keyed listed] at firm
    refine List.mem_toFinset.mpr (List.mem_map.mpr ⟨identity, List.mem_filter.mpr
      ⟨listed, ?_⟩, rfl⟩)
    rw [Bool.and_eq_true, Bool.and_eq_true, beq_iff_eq, beq_iff_eq]
    exact ⟨⟨mergeable, bears.1⟩, firm⟩

theorem mem_mergeableKeys (keyed : Keyed Identity.id corpus.identities) {key : String} :
    key ∈ corpus.mergeableKeys unicode ↔ ∃ id, Bearer unicode corpus id key := by
  unfold mergeableKeys
  rw [List.mem_eraseDups, List.mem_filterMap]
  constructor
  · rintro ⟨identity, held, named⟩
    obtain ⟨listed, mergeable⟩ := List.mem_filter.mp held
    exact ⟨identity.id, bearer_of_mem keyed listed mergeable named⟩
  · rintro ⟨id, bears⟩
    obtain ⟨identity, listed, rfl, mergeable, _⟩ := bears.identity
    exact ⟨identity, List.mem_filter.mpr ⟨listed, mergeable⟩, bears.1⟩

theorem mem_firmKeys (keyed : Keyed Identity.id corpus.identities) {cohort : String × Nat} :
    cohort ∈ corpus.firmKeys unicode ↔ ∃ id, id ∈ corpus.atFirm unicode cohort := by
  unfold firmKeys
  rw [List.mem_eraseDups, List.mem_filterMap]
  constructor
  · rintro ⟨identity, held, made⟩
    obtain ⟨listed, mergeable⟩ := List.mem_filter.mp held
    obtain ⟨key, named, made⟩ := Option.bind_eq_some_iff.mp made
    obtain ⟨firm, own, rfl⟩ := Option.map_eq_some_iff.mp made
    refine ⟨identity.id, (mem_atFirm_iff keyed).mpr
      ⟨bearer_of_mem keyed listed mergeable named, ?_⟩⟩
    unfold firmOf
    rw [byId_of_mem keyed listed]
    exact own
  · rintro ⟨id, held⟩
    obtain ⟨bears, firm⟩ := (mem_atFirm_iff keyed).mp held
    obtain ⟨identity, listed, rfl, mergeable, _⟩ := bears.identity
    unfold firmOf at firm
    rw [byId_of_mem keyed listed] at firm
    refine ⟨identity, List.mem_filter.mpr ⟨listed, mergeable⟩, ?_⟩
    rw [bears.1, Option.bind_some, show identity.firmId = some cohort.2 from firm]
    rfl

/-! ### The contradiction, by the set of the members -/

theorem mem_common {first : Finset String} {rest : List (Finset String)} {text : String} :
    text ∈ common (first :: rest) ↔ ∀ values ∈ first :: rest, text ∈ values := by
  change text ∈ rest.foldl (· ∩ ·) first ↔ _
  induction rest generalizing first with
  | nil => simp
  | cons second rest ih =>
      rw [List.foldl_cons, ih]
      simp only [List.forall_mem_cons, Finset.mem_inter, and_assoc]

/-- One holder of the kind, and for each value one that does not have it. -/
theorem contradicted_iff {members : List Nat} : corpus.contradicted unicode members = true ↔
    ∃ kind, (∃ member ∈ members, corpus.discriminating unicode member kind ≠ ∅) ∧
      ∀ text, ∃ member ∈ members, corpus.discriminating unicode member kind ≠ ∅ ∧
        text ∉ corpus.discriminating unicode member kind := by
  have kinds : corpus.contradicted unicode members = true ↔ ∃ kind : ContactKind,
      1 < ((members.map fun member => corpus.discriminating unicode member kind).filter
        fun values => decide (values ≠ ∅)).length ∧
      common ((members.map fun member => corpus.discriminating unicode member kind).filter
        fun values => decide (values ≠ ∅)) = ∅ := by
    unfold contradicted
    rw [List.any_eq_true]
    constructor
    · rintro ⟨kind, _, holds⟩
      exact ⟨kind, of_decide_eq_true holds⟩
    · rintro ⟨kind, holds⟩
      refine ⟨kind, ?_, decide_eq_true holds⟩
      cases kind <;> simp
  rw [kinds]
  refine exists_congr fun kind => ?_
  have mem : ∀ values, values ∈ (members.map fun member =>
      corpus.discriminating unicode member kind).filter (fun values => decide (values ≠ ∅)) ↔
      ∃ member ∈ members, corpus.discriminating unicode member kind ≠ ∅ ∧
        corpus.discriminating unicode member kind = values := by
    intro values
    rw [List.mem_filter, List.mem_map, decide_eq_true_iff]
    constructor
    · rintro ⟨⟨member, listed, rfl⟩, some_⟩
      exact ⟨member, listed, some_, rfl⟩
    · rintro ⟨member, listed, some_, rfl⟩
      exact ⟨⟨member, listed, rfl⟩, some_⟩
  cases shape : (members.map fun member => corpus.discriminating unicode member kind).filter
      fun values => decide (values ≠ ∅) with
  | nil =>
      rw [shape] at mem
      constructor
      · rintro ⟨long, _⟩
        simp at long
      · rintro ⟨⟨member, listed, some_⟩, _⟩
        exact absurd ((mem _).mpr ⟨member, listed, some_, rfl⟩) List.not_mem_nil
  | cons first rest =>
      rw [shape] at mem
      obtain ⟨holder, holderIn, holds, own⟩ := (mem first).mp List.mem_cons_self
      constructor
      · rintro ⟨_, none_⟩
        refine ⟨⟨holder, holderIn, holds⟩, fun text => ?_⟩
        have out : text ∉ common (first :: rest) := by simp [none_]
        rw [mem_common] at out
        push Not at out
        obtain ⟨values, listed, lacks⟩ := out
        obtain ⟨member, memberIn, some_, rfl⟩ := (mem values).mp listed
        exact ⟨member, memberIn, some_, lacks⟩
      · rintro ⟨_, lacked⟩
        have none_ : common (first :: rest) = ∅ := by
          rw [Finset.eq_empty_iff_forall_notMem]
          intro text shared
          obtain ⟨member, memberIn, some_, lacks⟩ := lacked text
          exact lacks (mem_common.mp shared _ ((mem _).mpr ⟨member, memberIn, some_, rfl⟩))
        refine ⟨?_, none_⟩
        -- A single set is its own intersection.
        cases rest with
        | nil => exact absurd (own.trans none_) holds
        | cons second rest => simp

/-! ### The copy -/

/-- An identity that can be merged, and an id larger than all others, which no contact names. -/
structure Fresh (corpus : Corpus) (original : Identity) (copy : Nat) : Prop where
  keyed : Keyed Identity.id corpus.identities
  held : original ∈ corpus.identities
  mergeable : original.mergeable = true
  larger : ∀ identity ∈ corpus.identities, identity.id < copy
  unnamed : ∀ contact ∈ corpus.contacts, contact.identityId ≠ copy

/-- The copy reads as the original, every other id as itself. -/
def mirror (original : Identity) (copy id : Nat) : Nat := if id = copy then original.id else id

variable {original : Identity} {copy : Nat}

theorem mirror_copy : mirror original copy copy = original.id := if_pos rfl

theorem mirror_of_ne {id : Nat} (apart : id ≠ copy) : mirror original copy id = id := if_neg apart

theorem byId_of_ne {id : Nat} (apart : id ≠ copy) :
    (corpus.withCopy original copy).byId id = corpus.byId id := by
  unfold byId withCopy
  rw [List.filter_append, List.filter_cons_of_neg (by simpa using apart.symm), List.filter_nil,
    List.append_nil]

/-- What some id reads, the ids of the corpus read. -/
theorem exists_mirror {holds : Nat → Prop} (given : ∀ id, holds id → id ≠ copy) :
    (∃ id, holds (mirror original copy id)) ↔ ∃ id, holds id := by
  constructor
  · rintro ⟨id, own⟩
    exact ⟨_, own⟩
  · rintro ⟨id, own⟩
    refine ⟨id, ?_⟩
    rw [mirror_of_ne (given id own)]
    exact own

theorem Evidence.left_self {left right : Nat} (evidence : Evidence unicode corpus left right) :
    Evidence unicode corpus left left := by
  cases evidence with
  | contact value key listed only leftBears _ =>
      exact .contact value key listed only leftBears leftBears
  | rarity key listed rare clear leftHeld _ => exact .rarity key listed rare clear leftHeld leftHeld
  | firm cohort listed clear leftHeld _ => exact .firm cohort listed clear leftHeld leftHeld

theorem Evidence.right_self {left right : Nat} (evidence : Evidence unicode corpus left right) :
    Evidence unicode corpus right right := by
  cases evidence with
  | contact value key listed only _ rightBears =>
      exact .contact value key listed only rightBears rightBears
  | rarity key listed rare clear _ rightHeld =>
      exact .rarity key listed rare clear rightHeld rightHeld
  | firm cohort listed clear _ rightHeld => exact .firm cohort listed clear rightHeld rightHeld

namespace Fresh

variable (fresh : Fresh corpus original copy)

include fresh

theorem ne_copy {id : Nat} (given : (corpus.byId id).isSome) : id ≠ copy := by
  rintro rfl
  obtain ⟨identity, found⟩ := Option.isSome_iff_exists.mp given
  obtain ⟨listed, same⟩ := mem_of_byId found
  exact (fresh.larger identity listed).ne same

theorem original_ne : original.id ≠ copy := (fresh.larger original fresh.held).ne

theorem keyed_copy : Keyed Identity.id (corpus.withCopy original copy).identities :=
  fresh.keyed.insert fun other held => (fresh.larger other held).ne

theorem byId_copy : (corpus.withCopy original copy).byId copy =
    some { original with id := copy } :=
  byId_of_mem fresh.keyed_copy
    (List.mem_append_right corpus.identities (List.mem_singleton_self { original with id := copy }))

theorem byId_original : corpus.byId original.id = some original := byId_of_mem fresh.keyed fresh.held

theorem isSome_byId (id : Nat) : ((corpus.withCopy original copy).byId id).isSome =
    (corpus.byId (mirror original copy id)).isSome := by
  by_cases same : id = copy
  · subst same
    rw [fresh.byId_copy, mirror_copy, fresh.byId_original]
    rfl
  · rw [byId_of_ne same, mirror_of_ne same]

theorem keyOf (id : Nat) : (corpus.withCopy original copy).keyOf unicode id =
    corpus.keyOf unicode (mirror original copy id) := by
  unfold Corpus.keyOf
  by_cases same : id = copy
  · subst same
    rw [fresh.byId_copy, mirror_copy, fresh.byId_original]
    rfl
  · rw [byId_of_ne same, mirror_of_ne same]

theorem bearer {id : Nat} {key : String} : Bearer unicode (corpus.withCopy original copy) id key ↔
    Bearer unicode corpus (mirror original copy id) key := by
  unfold Bearer mergeableId
  rw [fresh.keyOf]
  by_cases same : id = copy
  · subst same
    rw [fresh.byId_copy, mirror_copy, fresh.byId_original]
    rfl
  · rw [byId_of_ne same, mirror_of_ne same]

theorem firmOf (id : Nat) : (corpus.withCopy original copy).firmOf id =
    corpus.firmOf (mirror original copy id) := by
  unfold Corpus.firmOf
  by_cases same : id = copy
  · subst same
    rw [fresh.byId_copy, mirror_copy, fresh.byId_original]
    rfl
  · rw [byId_of_ne same, mirror_of_ne same]

theorem carriers {value : ContactValue} {id : Nat} :
    id ∈ (corpus.withCopy original copy).carriers value ↔
      mirror original copy id ∈ corpus.carriers value := by
  rw [mem_carriers, mem_carriers, fresh.isSome_byId]
  refine and_congr_right fun _ => ?_
  by_cases same : id = copy
  · subst same
    rw [mirror_copy]
    constructor
    · rintro ⟨contact, listed, own, stated⟩
      rcases List.mem_append.mp listed with old | added
      · exact absurd own (fresh.unnamed contact old)
      · obtain ⟨first, held, rfl⟩ := List.mem_map.mp added
        obtain ⟨inside, whose⟩ := List.mem_filter.mp held
        exact ⟨first, inside, of_decide_eq_true whose, stated⟩
    · rintro ⟨contact, listed, own, stated⟩
      exact ⟨{ contact with identityId := id }, List.mem_append_right _ (List.mem_map.mpr
        ⟨contact, List.mem_filter.mpr ⟨listed, decide_eq_true own⟩, rfl⟩), rfl, stated⟩
  · rw [mirror_of_ne same]
    constructor
    · rintro ⟨contact, listed, own, stated⟩
      rcases List.mem_append.mp listed with old | added
      · exact ⟨contact, old, own, stated⟩
      · obtain ⟨first, _, rfl⟩ := List.mem_map.mp added
        exact absurd own.symm same
    · rintro ⟨contact, listed, own, stated⟩
      exact ⟨contact, List.mem_append_left _ listed, own, stated⟩

theorem carrier_ne {value : ContactValue} {id : Nat} (carries : id ∈ corpus.carriers value) :
    id ≠ copy := fresh.ne_copy (mem_carriers.mp carries).1

theorem values {value : ContactValue} :
    value ∈ (corpus.withCopy original copy).values ↔ value ∈ corpus.values := by
  rw [mem_values, mem_values]
  simp only [fresh.carriers]
  exact exists_mirror fun id carries => fresh.carrier_ne carries

theorem namesAt (value : ContactValue) :
    (corpus.withCopy original copy).namesAt unicode value = corpus.namesAt unicode value := by
  ext key
  rw [mem_namesAt, mem_namesAt]
  simp only [fresh.carriers, fresh.keyOf]
  exact @exists_mirror original copy (fun id => id ∈ corpus.carriers value ∧
    corpus.keyOf unicode id = some key) fun id both => fresh.carrier_ne both.1

theorem firmsOfName (key : String) : (corpus.withCopy original copy).firmsOfName unicode key =
    corpus.firmsOfName unicode key := by
  ext firm
  rw [mem_firmsOfName, mem_firmsOfName]
  simp only [fresh.keyOf]
  constructor
  · rintro ⟨identity, listed, named, own⟩
    rcases List.mem_append.mp listed with old | added
    · rw [mirror_of_ne (fresh.larger identity old).ne] at named
      exact ⟨identity, old, named, own⟩
    · rw [List.mem_singleton.mp added] at named own
      dsimp only at named own
      rw [mirror_copy] at named
      exact ⟨original, fresh.held, named, own⟩
  · rintro ⟨identity, listed, named, own⟩
    refine ⟨identity, List.mem_append_left _ listed, ?_, own⟩
    rw [mirror_of_ne (fresh.larger identity listed).ne]
    exact named

theorem desk (id : Nat) (value : ContactValue) : (corpus.withCopy original copy).desk id value =
    corpus.desk (mirror original copy id) value := by
  have mails : ∀ mail, mail ∈ (corpus.withCopy original copy).emailsOf id ↔
      mail ∈ corpus.emailsOf (mirror original copy id) := by
    intro mail
    rw [mem_emailsOf, mem_emailsOf, fresh.carriers]
  have empty : ((corpus.withCopy original copy).emailsOf id).isEmpty =
      (corpus.emailsOf (mirror original copy id)).isEmpty := by
    rw [Bool.eq_iff_iff, List.isEmpty_iff, List.isEmpty_iff, List.eq_nil_iff_forall_not_mem,
      List.eq_nil_iff_forall_not_mem]
    exact forall_congr' fun mail => (mails mail).not
  have all : ((corpus.withCopy original copy).emailsOf id).all roleEmail =
      (corpus.emailsOf (mirror original copy id)).all roleEmail := by
    rw [Bool.eq_iff_iff, List.all_eq_true, List.all_eq_true]
    exact forall_congr' fun mail => imp_congr_left (mails mail)
  unfold Corpus.desk
  rw [empty, all]

theorem discriminating (id : Nat) (kind : ContactKind) :
    (corpus.withCopy original copy).discriminating unicode id kind =
      corpus.discriminating unicode (mirror original copy id) kind := by
  ext text
  rw [mem_discriminating, mem_discriminating, fresh.namesAt, fresh.carriers, fresh.desk]

/-- A cohort and its copy are contradicted alike. -/
theorem contradicted {members others : List Nat} (given : ∀ id ∈ members, id ≠ copy)
    (mirrors : ∀ id, id ∈ others ↔ mirror original copy id ∈ members) :
    (corpus.withCopy original copy).contradicted unicode others =
      corpus.contradicted unicode members := by
  rw [Bool.eq_iff_iff, contradicted_iff, contradicted_iff]
  simp only [fresh.discriminating, mirrors]
  refine exists_congr fun kind => and_congr ?_ (forall_congr' fun text => ?_)
  · exact @exists_mirror original copy (fun id => id ∈ members ∧
      corpus.discriminating unicode id kind ≠ ∅) fun id both => given id both.1
  · exact @exists_mirror original copy (fun id => id ∈ members ∧
      corpus.discriminating unicode id kind ≠ ∅ ∧
        text ∉ corpus.discriminating unicode id kind) fun id both => given id both.1

/-! ### The evidence -/

theorem bearer_ne {id : Nat} {key : String} (bears : Bearer unicode corpus id key) : id ≠ copy := by
  obtain ⟨identity, listed, rfl, _⟩ := bears.identity
  exact (fresh.larger identity listed).ne

theorem bearers {value : ContactValue} {key : String} {id : Nat} :
    id ∈ (corpus.withCopy original copy).bearers unicode value key ↔
      mirror original copy id ∈ corpus.bearers unicode value key := by
  rw [mem_bearers, mem_bearers, fresh.carriers, fresh.bearer]

theorem byKey {key : String} {id : Nat} :
    id ∈ (corpus.withCopy original copy).byKey unicode key ↔
      mirror original copy id ∈ corpus.byKey unicode key := by
  rw [mem_byKey_iff fresh.keyed_copy, mem_byKey_iff fresh.keyed, fresh.bearer]

theorem atFirm {cohort : String × Nat} {id : Nat} :
    id ∈ (corpus.withCopy original copy).atFirm unicode cohort ↔
      mirror original copy id ∈ corpus.atFirm unicode cohort := by
  rw [mem_atFirm_iff fresh.keyed_copy, mem_atFirm_iff fresh.keyed, fresh.bearer, fresh.firmOf]

theorem mergeableKeys {key : String} : key ∈ (corpus.withCopy original copy).mergeableKeys unicode ↔
    key ∈ corpus.mergeableKeys unicode := by
  rw [mem_mergeableKeys fresh.keyed_copy, mem_mergeableKeys fresh.keyed]
  simp only [fresh.bearer]
  exact exists_mirror fun id bears => fresh.bearer_ne bears

theorem firmKeys {cohort : String × Nat} :
    cohort ∈ (corpus.withCopy original copy).firmKeys unicode ↔ cohort ∈ corpus.firmKeys unicode := by
  rw [mem_firmKeys fresh.keyed_copy, mem_firmKeys fresh.keyed]
  simp only [fresh.atFirm]
  exact exists_mirror fun id held =>
    fresh.bearer_ne ((mem_atFirm_iff fresh.keyed).mp held).1

theorem contradicted_byKey (key : String) : (corpus.withCopy original copy).contradicted unicode
      (ascending ((corpus.withCopy original copy).byKey unicode key)) =
    corpus.contradicted unicode (ascending (corpus.byKey unicode key)) := by
  refine fresh.contradicted (fun id held => ?_) fun id => ?_
  · exact fresh.bearer_ne ((mem_byKey_iff fresh.keyed).mp (mem_ascending.mp held))
  · rw [mem_ascending, mem_ascending, fresh.byKey]

theorem contradicted_atFirm (cohort : String × Nat) :
    (corpus.withCopy original copy).contradicted unicode
      (ascending ((corpus.withCopy original copy).atFirm unicode cohort)) =
    corpus.contradicted unicode (ascending (corpus.atFirm unicode cohort)) := by
  refine fresh.contradicted (fun id held => ?_) fun id => ?_
  · exact fresh.bearer_ne ((mem_atFirm_iff fresh.keyed).mp (mem_ascending.mp held)).1
  · rw [mem_ascending, mem_ascending, fresh.atFirm]

/-- The evidence with the copy is the evidence about what it mirrors. -/
theorem evidence {left right : Nat} : Evidence unicode (corpus.withCopy original copy) left right ↔
    Evidence unicode corpus (mirror original copy left) (mirror original copy right) := by
  constructor
  · intro evidence
    cases evidence with
    | contact value key listed only leftBears rightBears =>
        rw [fresh.namesAt] at only
        exact .contact value key (fresh.values.mp listed) only (fresh.bearers.mp leftBears)
          (fresh.bearers.mp rightBears)
    | rarity key listed rare clear leftHeld rightHeld =>
        rw [fresh.firmsOfName] at rare
        rw [fresh.contradicted_byKey] at clear
        exact .rarity key (fresh.mergeableKeys.mp listed) rare clear (fresh.byKey.mp leftHeld)
          (fresh.byKey.mp rightHeld)
    | firm cohort listed clear leftHeld rightHeld =>
        rw [fresh.contradicted_atFirm] at clear
        exact .firm cohort (fresh.firmKeys.mp listed) clear (fresh.atFirm.mp leftHeld)
          (fresh.atFirm.mp rightHeld)
  · intro evidence
    cases evidence with
    | contact value key listed only leftBears rightBears =>
        rw [← fresh.namesAt] at only
        exact .contact value key (fresh.values.mpr listed) only (fresh.bearers.mpr leftBears)
          (fresh.bearers.mpr rightBears)
    | rarity key listed rare clear leftHeld rightHeld =>
        rw [← fresh.firmsOfName] at rare
        rw [← fresh.contradicted_byKey] at clear
        exact .rarity key (fresh.mergeableKeys.mpr listed) rare clear (fresh.byKey.mpr leftHeld)
          (fresh.byKey.mpr rightHeld)
    | firm cohort listed clear leftHeld rightHeld =>
        rw [← fresh.contradicted_atFirm] at clear
        exact .firm cohort (fresh.firmKeys.mpr listed) clear (fresh.atFirm.mpr leftHeld)
          (fresh.atFirm.mpr rightHeld)

theorem evidence_ne {left right : Nat} (evidence : Evidence unicode corpus left right) :
    left ≠ copy ∧ right ≠ copy := by
  cases evidence with
  | contact value key _ _ leftBears rightBears =>
      exact ⟨fresh.bearer_ne (mem_bearers.mp leftBears).2,
        fresh.bearer_ne (mem_bearers.mp rightBears).2⟩
  | rarity key _ _ _ leftHeld rightHeld =>
      exact ⟨fresh.bearer_ne (mem_byKey fresh.keyed leftHeld),
        fresh.bearer_ne (mem_byKey fresh.keyed rightHeld)⟩
  | firm cohort _ _ leftHeld rightHeld =>
      exact ⟨fresh.bearer_ne (mem_atFirm fresh.keyed leftHeld),
        fresh.bearer_ne (mem_atFirm fresh.keyed rightHeld)⟩

/-- A way through the copy is a way through the original. -/
theorem joined_mirror {left right : Nat}
    (joined : Joined ((corpus.withCopy original copy).allEdges unicode) left right) :
    Joined (corpus.allEdges unicode) (mirror original copy left) (mirror original copy right) := by
  rw [joined_iff_evidence] at joined ⊢
  induction joined with
  | rel left right linked => exact .rel _ _ (fresh.evidence.mp linked)
  | refl id => exact .refl _
  | symm left right _ ih => exact ih.symm
  | trans left middle right _ _ first second => exact first.trans _ _ _ second

theorem joined_copy {left right : Nat} (joined : Joined (corpus.allEdges unicode) left right) :
    Joined ((corpus.withCopy original copy).allEdges unicode) left right := by
  rw [joined_iff_evidence] at joined ⊢
  refine Relation.EqvGen.mono (fun left right linked => ?_) _ _ joined
  obtain ⟨leftOld, rightOld⟩ := fresh.evidence_ne linked
  rw [fresh.evidence, mirror_of_ne leftOld, mirror_of_ne rightOld]
  exact linked

theorem joined {left right : Nat} (leftOld : left ≠ copy) (rightOld : right ≠ copy) :
    Joined ((corpus.withCopy original copy).allEdges unicode) left right ↔
      Joined (corpus.allEdges unicode) left right := by
  constructor
  · intro joined
    have through := fresh.joined_mirror joined
    rwa [mirror_of_ne leftOld, mirror_of_ne rightOld] at through
  · exact fresh.joined_copy

/-- The copy is joined with the original where some evidence speaks of the original. -/
theorem joined_original :
    Joined ((corpus.withCopy original copy).allEdges unicode) original.id copy ↔
      Evidence unicode corpus original.id original.id := by
  constructor
  · intro joined
    have node := (node_of_apart joined.symm).resolve_left fresh.original_ne.symm
    obtain ⟨edge, listed, ends⟩ := mem_nodes.mp node
    have linked := fresh.evidence.mp (evidence_of_edge listed)
    rcases ends with same | same
    · rw [← same, mirror_copy] at linked
      exact linked.left_self
    · rw [← same, mirror_copy] at linked
      exact linked.right_self
  · intro own
    refine joined_of_evidence (fresh.evidence.mpr ?_)
    rw [mirror_copy, mirror_of_ne fresh.original_ne]
    exact own

end Fresh

end Corpus

/-! ### The groups -/

/-- Two identities in one auto-merge group. -/
def Grouped (unicode : Unicode) (corpus : Corpus) (blocked : Finset (Nat × Nat))
    (left right : Nat) : Prop :=
  ∃ group ∈ (decideMerges unicode corpus blocked).autoMergeGroups, left ∈ group ∧ right ∈ group

/-- No component is over the cap. -/
def Capped (unicode : Unicode) (corpus : Corpus) : Prop :=
  ∀ component ∈ components unicode corpus, component.2.length ≤ maxAutoMergeComponent

/-- A suppressed pair among what the identity is joined with. -/
def Suppressed (unicode : Unicode) (corpus : Corpus) (blocked : Finset (Nat × Nat)) (id : Nat) :
    Prop :=
  ∃ pair ∈ blocked, Joined (corpus.allEdges unicode) id pair.1 ∧
    Joined (corpus.allEdges unicode) id pair.2

/-- Two that are joined lie in one component. -/
theorem within_of_joined (keyed : Keyed Identity.id corpus.identities) {left right : Nat}
    (apart : left ≠ right) (joined : Joined (corpus.allEdges unicode) left right) :
    Within unicode corpus (fun _ => True) (left, right) := by
  obtain ⟨edge, listed, ends⟩ := mem_nodes.mp ((node_of_apart joined).resolve_left apart)
  obtain ⟨component, whole, first, second⟩ := component_of_edge keyed listed
  have own : left ∈ component.2 := by
    rcases ends with rfl | rfl
    · exact first
    · exact second
  exact ⟨component, whole, trivial, own, (component_whole whole own _).mpr joined⟩

theorem grouped_iff (keyed : Keyed Identity.id corpus.identities) (capped : Capped unicode corpus)
    {left right : Nat} (apart : left ≠ right) : Grouped unicode corpus blocked left right ↔
      Joined (corpus.allEdges unicode) left right ∧ ¬Suppressed unicode corpus blocked left := by
  have merged := @merged_iff unicode corpus blocked (left, right)
  rw [show Grouped unicode corpus blocked left right =
    Place.merged.Holds unicode corpus blocked (left, right) from rfl, merged]
  constructor
  · rintro ⟨component, whole, unheld, first, second⟩
    refine ⟨(component_whole whole first _).mp second, ?_⟩
    rintro ⟨pair, standing, one, other⟩
    exact (held_eq_false.mp unheld).1 pair standing
      ⟨(component_whole whole first _).mpr one, (component_whole whole first _).mpr other⟩
  · rintro ⟨joined, clear⟩
    obtain ⟨component, whole, _, first, second⟩ := within_of_joined keyed apart joined
    refine ⟨component, whole, held_eq_false.mpr ⟨?_, capped component whole⟩, first, second⟩
    rintro pair standing ⟨one, other⟩
    exact clear ⟨pair, standing, (component_whole whole first _).mp one,
      (component_whole whole first _).mp other⟩

section Copy

open Corpus

variable {original : Identity} {copy : Nat} (fresh : Fresh corpus original copy)

include fresh

/-- A component of the corpus stays within one of the corpus with the copy. -/
theorem capped_of_copy (capped : Capped unicode (corpus.withCopy original copy)) :
    Capped unicode corpus := by
  intro component whole
  have two : 2 ≤ component.2.length := of_decide_eq_true (List.mem_filter.mp whole).2
  have ascends := component_ascends whole
  obtain ⟨first, rest, shape⟩ := List.exists_cons_of_length_pos (by omega : 0 < component.2.length)
  obtain ⟨second, others, more⟩ : ∃ second others, rest = second :: others := by
    cases rest with
    | nil =>
        rw [shape] at two
        simp at two
    | cons second others => exact ⟨second, others, rfl⟩
  have inside : first ∈ component.2 := by simp [shape]
  have other : second ∈ component.2 := by simp [shape, more]
  have apart : first ≠ second := by
    rw [shape, more] at ascends
    exact ((List.pairwise_cons.mp ascends).1 second List.mem_cons_self).ne
  have joined := (component_whole whole inside second).mp other
  obtain ⟨wider, listed, _, held, _⟩ :=
    within_of_joined fresh.keyed_copy apart (fresh.joined_copy joined)
  have subset : component.2 ⊆ wider.2 := fun id member =>
    (component_whole listed held id).mpr
      (fresh.joined_copy ((component_whole whole inside id).mp member))
  have distinct : component.2.Nodup := ascends.imp ne_of_lt
  exact (distinct.subperm subset).length_le.trans (capped wider listed)

theorem suppressed_copy (clear : ∀ pair ∈ blocked, pair.1 ≠ copy ∧ pair.2 ≠ copy) {id : Nat}
    (old : id ≠ copy) : Suppressed unicode (corpus.withCopy original copy) blocked id ↔
      Suppressed unicode corpus blocked id := by
  unfold Suppressed
  refine exists_congr fun pair => and_congr_right fun standing => ?_
  rw [fresh.joined old (clear pair standing).1, fresh.joined old (clear pair standing).2]

end Copy

/-- What warrants that the copy is merged: a value of the original that its name alone carries, or a
cohort of the name that is not contradicted, at one firm at the most or at the original's. -/
def Warranted (unicode : Unicode) (corpus : Corpus) (original : Identity) (key : String) : Prop :=
  (∃ value, original.id ∈ corpus.carriers value ∧ corpus.namesAt unicode value = {key}) ∨
  ((corpus.firmsOfName unicode key).card ≤ 1 ∧
    corpus.contradicted unicode (ascending (corpus.byKey unicode key)) = false) ∨
  ∃ firm, original.firmId = some firm ∧
    corpus.contradicted unicode (ascending (corpus.atFirm unicode (key, firm))) = false

theorem ascending_eq_singleton {names : Finset String} {key : String} :
    ascending names = [key] ↔ names = {key} := by
  constructor
  · intro listed
    ext name
    rw [← mem_ascending, listed, List.mem_singleton, Finset.mem_singleton]
  · rintro rfl
    exact List.perm_singleton.mp ((sortedBy_perm _ _).trans (by simp))

theorem warranted_iff {original : Identity} {copy : Nat}
    (fresh : Corpus.Fresh corpus original copy) {key : String}
    (named : nameKey unicode original.name = some key) :
    Corpus.Evidence unicode corpus original.id original.id ↔
      Warranted unicode corpus original key := by
  have own : corpus.keyOf unicode original.id = some key := by
    unfold Corpus.keyOf
    rw [fresh.byId_original]
    exact named
  have bears : Corpus.Bearer unicode corpus original.id key :=
    Corpus.bearer_of_mem fresh.keyed fresh.held fresh.mergeable own
  have firm : corpus.firmOf original.id = original.firmId := by
    unfold Corpus.firmOf
    rw [fresh.byId_original]
    rfl
  have single : ∀ {other : String}, Corpus.Bearer unicode corpus original.id other → other = key :=
    fun bearer => Option.some.inj (bearer.1.symm.trans own)
  constructor
  · intro evidence
    cases evidence with
    | contact value other listed only leftBears rightBears =>
        obtain ⟨carries, bearer⟩ := Corpus.mem_bearers.mp leftBears
        rw [single bearer] at only
        exact .inl ⟨value, carries, ascending_eq_singleton.mp only⟩
    | rarity other listed rare clear leftHeld rightHeld =>
        have same := single (Corpus.mem_byKey fresh.keyed leftHeld)
        subst same
        exact .inr (.inl ⟨rare, clear⟩)
    | firm cohort listed clear leftHeld rightHeld =>
        obtain ⟨bearer, at_⟩ := (Corpus.mem_atFirm_iff fresh.keyed).mp leftHeld
        have same := single bearer
        subst same
        exact .inr (.inr ⟨cohort.2, firm.symm.trans at_, clear⟩)
  · rintro (⟨value, carries, only⟩ | ⟨rare, clear⟩ | ⟨office, at_, clear⟩)
    · have held := Corpus.mem_bearers.mpr ⟨carries, bears⟩
      exact .contact value key (value_of_carrier carries) (ascending_eq_singleton.mpr only) held
        held
    · have held := (Corpus.mem_byKey_iff fresh.keyed).mpr bears
      exact .rarity key ((Corpus.mem_mergeableKeys fresh.keyed).mpr ⟨_, bears⟩) rare clear held held
    · have held : original.id ∈ corpus.atFirm unicode (key, office) :=
        (Corpus.mem_atFirm_iff fresh.keyed).mpr ⟨bears, firm.trans at_⟩
      exact .firm (key, office) ((Corpus.mem_firmKeys fresh.keyed).mpr ⟨_, held⟩) clear held held

/-- A copy of an identity, as the merge decides it. -/
structure CopyMerges (unicode : Unicode) (corpus : Corpus) (blocked : Finset (Nat × Nat))
    (original : Identity) (copy : Nat) : Prop where
  unchanged : ∀ left right, left ≠ copy → right ≠ copy → left ≠ right →
    (Grouped unicode (corpus.withCopy original copy) blocked left right ↔
      Grouped unicode corpus blocked left right)
  merged : ∀ key, nameKey unicode original.name = some key →
    (Grouped unicode (corpus.withCopy original copy) blocked original.id copy ↔
      ¬Suppressed unicode corpus blocked original.id ∧ Warranted unicode corpus original key)

theorem copy_merges (unicode : Unicode) (corpus : Corpus) (blocked : Finset (Nat × Nat))
    {original : Identity} {copy : Nat} (fresh : Corpus.Fresh corpus original copy)
    (clear : ∀ pair ∈ blocked, pair.1 ≠ copy ∧ pair.2 ≠ copy)
    (capped : Capped unicode (corpus.withCopy original copy)) :
    CopyMerges unicode corpus blocked original copy := by
  have small := capped_of_copy fresh capped
  constructor
  · intro left right leftOld rightOld apart
    rw [grouped_iff fresh.keyed_copy capped apart, grouped_iff fresh.keyed small apart,
      fresh.joined leftOld rightOld, suppressed_copy fresh clear leftOld]
  · intro key named
    rw [grouped_iff fresh.keyed_copy capped fresh.original_ne, fresh.joined_original,
      suppressed_copy fresh clear fresh.original_ne, warranted_iff fresh named, and_comm]

/-! ### A name at two firms -/

def bareNovak : Identity where
  id := 3
  name := some "Jan Novak"
  firmId := none
  mergeable := true
  primaryFirmId := none

/-- A name at two firms, and a record of it without a firm and a contact. -/
def twoOffices : Corpus where
  identities :=
    [{ id := 1, name := some "Jan Novak", firmId := some 5, mergeable := true
       primaryFirmId := some 5 },
     { id := 2, name := some "Jan Novak", firmId := some 6, mergeable := true
       primaryFirmId := some 6 },
     bareNovak]
  contacts := []

/-- The copy is left alone though no pair is suppressed and the name is not contradicted. -/
theorem copy_left_out : Corpus.Fresh twoOffices bareNovak 4 ∧
    Capped asciiLetters (twoOffices.withCopy bareNovak 4) ∧
    ¬(Grouped asciiLetters (twoOffices.withCopy bareNovak 4) ∅ 3 4 ∨
      Suppressed asciiLetters twoOffices ∅ 3 ∨
      twoOffices.contradicted asciiLetters
        (ascending (twoOffices.byKey asciiLetters "jan novak")) = true) := by
  refine ⟨⟨?_, ?_, rfl, ?_, ?_⟩, ?_, ?_⟩
  · unfold Keyed
    decide
  · decide
  · decide
  · intro contact listed
    cases listed
  · unfold Capped
    decide +kernel
  · rintro (⟨group, listed, _⟩ | ⟨pair, standing, _⟩ | refused)
    · have none_ : (decideMerges asciiLetters (twoOffices.withCopy bareNovak 4)
          ∅).autoMergeGroups = [] := by decide +kernel
      rw [none_] at listed
      cases listed
    · exact Finset.notMem_empty _ standing
    · revert refused
      decide +kernel

/-- A second record of the second Novak. -/
theorem novak_copied : CopyMerges asciiLetters threeNovaks {(1, 3)}
    { id := 2, name := some "Novak Jan", firmId := some 6, mergeable := true
      primaryFirmId := some 6 } 4 := by
  apply copy_merges
  · refine ⟨?_, by decide, rfl, by decide, by decide⟩
    unfold Keyed
    decide
  · decide
  · unfold Capped
    decide +kernel

end Sreality.Toolkit.BrokerResolver
