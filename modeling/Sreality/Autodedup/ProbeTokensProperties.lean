import Mathlib
import Sreality.Autodedup.Retrieval
import Sreality.Foundation.Runs

/-! The lookups of a listing read back from the tokens it is posted under: each token gives its key's
lookups, and sorting the tokens gives their order back, but for the bands of several anchors. -/

set_option autoImplicit false

namespace Sreality.Autodedup

open Sreality.Foundation FanOut

/-! ### Tokens -/

theorem separator_unspelled (n : Int) : ∀ letter ∈ (toString n).toList, letter ≠ separatorChar := by
  have digits : ∀ (m : Nat), ∀ letter ∈ (Nat.repr m).toList, letter ≠ separatorChar := by
    intro m letter listed
    rw [Nat.toList_repr] at listed
    have digit := Nat.isDigit_of_mem_toDigits (by decide) (by decide) listed
    rintro rfl
    exact absurd digit (by decide)
  intro letter listed
  change letter ∈ n.repr.toList at listed
  rw [Int.repr_eq_if] at listed
  split_ifs at listed
  · exact digits _ letter listed
  · rw [String.toList_append, List.mem_append] at listed
    rcases listed with sign | later
    · rintro rfl
      exact absurd sign (by decide)
    · exact digits _ letter later

theorem toInt?_toString (n : Int) : (toString n).toInt? = some n := Int.toInt?_repr n

@[simp] theorem toList_keySeparator : keySeparator.toList = [separatorChar] := rfl

/-- A separator parts what stands before the last one and what stands after it. -/
theorem rpartition_join (head : String) {last : String}
    (clean : ∀ letter ∈ last.toList, letter ≠ separatorChar) :
    rpartition (head ++ keySeparator ++ last) = (head, last) := by
  have token : (head ++ keySeparator ++ last).toList =
      head.toList ++ separatorChar :: last.toList := by
    simp [String.toList_append]
  have after : (head ++ keySeparator ++ last).toList.reverse.takeWhile (· != separatorChar) =
      last.toList.reverse := by
    rw [token, List.reverse_append, List.reverse_cons, List.append_assoc,
      List.takeWhile_append_of_pos]
    · simp
    · intro letter listed
      simpa using clean letter (List.mem_reverse.mp listed)
  have size : head.toList.length + (last.toList.length + 1) - last.toList.length - 1 =
      head.toList.length := by omega
  unfold rpartition
  rw [after, token]
  simp only [List.reverse_reverse, List.length_append, List.length_cons, size, List.take_left',
    String.ofList_toList]

theorem tokenHead_join {head : String} (clean : ∀ letter ∈ head.toList, letter ≠ separatorChar)
    (rest : String) : tokenHead (head ++ keySeparator ++ rest) = head := by
  have token : (head ++ keySeparator ++ rest).toList =
      head.toList ++ separatorChar :: rest.toList := by
    simp [String.toList_append]
  unfold tokenHead
  rw [token, List.takeWhile_append_of_pos]
  · simp
  · exact fun letter listed => by simpa using clean letter listed

theorem token_concat {init : List KeyPart} (some_ : init ≠ []) (part : KeyPart) :
    (ProbeKey.plain (init ++ [part])).token =
      (ProbeKey.plain init).token ++ keySeparator ++ part.token := by
  simp only [ProbeKey.token, List.map_append]
  rw [String.intercalate_append_of_ne_nil (by simpa using some_) (by simp)]
  simp

theorem broker_token (brokerKey : String) (catGroup categoryType : Option String)
    (decile : Option Nat) :
    (ProbeKey.broker brokerKey catGroup categoryType decile).token =
      (ProbeKey.plain [.text brokerKey, .ofText catGroup, .ofText categoryType] :
        ProbeKey Nat).token ++ keySeparator ++
        (decile.elim KeyPart.absent fun value => .number value).token := by
  rw [← token_concat (List.cons_ne_nil _ _)]
  rfl

/-! ### The keys of a listing -/

theorem mem_plainKey {Decile : Type} {probe : Probe} {made : Option (List KeyPart)}
    {key : Probe × ProbeKey Decile} :
    key ∈ plainKey probe made ↔ ∃ parts, made = some parts ∧ key = (probe, .plain parts) := by
  unfold plainKey
  rw [Option.mem_toList, Option.map_eq_some_iff]
  exact exists_congr fun _ => and_congr_right fun _ => eq_comm

/-- What a listing's posted keys look like, probe by probe. -/
inductive Shape (settings : BlockSettings) (fp : CohortFp) : Probe × ProbeKey Nat → Prop
  | alone {probe : Probe} (parts : List KeyPart)
      (single : probe = .addr ∨ probe = .attrDispo ∨ probe = .foreign) :
      Shape settings fp (probe, .plain parts)
  | band {probe : Probe} (number value : Nat) (banded_ : probe ∈ banded) :
      Shape settings fp (probe, .plain [.number number, .number value])
  | broker (brokerKey : String) (decile : Option Nat) :
      Shape settings fp (.broker, .broker brokerKey fp.catGroup fp.categoryType decile)
  | area {probe : Probe} (init : List KeyPart) (some_ : init ≠ []) (band : Int)
      (near : probe = .attrArea ∨ probe = .town ∨ probe = .quarter)
      (grain : probe = .quarter → probesTownKey fp = false)
      (town : probe = .town → settings.attrProbeTownGrain = true ∧ fp.areaBand ≠ none) :
      Shape settings fp (probe, .plain (init ++ [.number band]))

theorem shape_of_mem {settings : BlockSettings} {cuts : Dict Cohort (List ℚ)} {fp : CohortFp}
    {key : Probe × ProbeKey Nat} (listed : key ∈ indexKeys settings cuts fp) :
    Shape settings fp key := by
  unfold indexKeys postingKeys at listed
  simp only [List.mem_append, or_assoc] at listed
  rcases listed with addr | phash | text | broker | dispo | area | foreign_ | town | quarter
  · obtain ⟨parts, _, rfl⟩ := mem_plainKey.mp addr
    exact .alone parts (.inl rfl)
  · obtain ⟨band, _, rfl⟩ := List.mem_map.mp phash
    exact .band band.1 band.2.1 (by decide)
  · split_ifs at text
    · obtain ⟨band, _, rfl⟩ := List.mem_map.mp text
      exact .band band.1 band.2 (by decide)
    · cases text
  · obtain ⟨brokerKey, _, rfl⟩ := Option.map_eq_some_iff.mp (Option.mem_toList.mp broker)
    exact .broker brokerKey _
  · obtain ⟨parts, _, rfl⟩ := mem_plainKey.mp dispo
    exact .alone parts (.inr (.inl rfl))
  · obtain ⟨parts, made, rfl⟩ := mem_plainKey.mp area
    obtain ⟨block, _, made⟩ := Option.bind_eq_some_iff.mp made
    obtain ⟨band, _, rfl⟩ := Option.map_eq_some_iff.mp made
    exact .area (.text block :: categoryParts fp) (List.cons_ne_nil _ _) band (.inl rfl)
      (by simp) (by simp)
  · obtain ⟨parts, _, rfl⟩ := mem_plainKey.mp foreign_
    exact .alone parts (.inr (.inr rfl))
  · obtain ⟨parts, made, rfl⟩ := mem_plainKey.mp town
    split_ifs at made with grain
    obtain ⟨band, known, made⟩ := Option.bind_eq_some_iff.mp made
    obtain ⟨obec, _, rfl⟩ := Option.map_eq_some_iff.mp made
    refine .area (.number obec :: categoryParts fp ++ [.ofText fp.disposition])
      (List.cons_ne_nil _ _) band (.inr (.inl rfl)) (by simp) fun _ => ⟨grain, ?_⟩
    simp [known]
  · obtain ⟨parts, made, rfl⟩ := mem_plainKey.mp quarter
    split_ifs at made with grain
    obtain ⟨band, _, rfl⟩ := Option.map_eq_some_iff.mp made
    exact .area (.ofText fp.blockKey :: categoryParts fp ++ [.ofText fp.disposition])
      (List.cons_ne_nil _ _) band (.inr (.inr rfl)) (fun _ => grain.2) (by simp)

/-- A listing that posts its town posts its quarter where it does not probe the town. -/
theorem quarter_posted {settings : BlockSettings} {cuts : Dict Cohort (List ℚ)} {fp : CohortFp}
    {key : ProbeKey Nat} (town : (Probe.town, key) ∈ indexKeys settings cuts fp) :
    (∃ quarter, (Probe.quarter, quarter) ∈ indexKeys settings cuts fp) ↔
      probesTownKey fp = false := by
  constructor
  · rintro ⟨quarter, listed⟩
    cases shape_of_mem listed with
    | alone _ single => simp at single
    | band _ _ banded_ => simp [banded] at banded_
    | area _ _ _ _ grain => exact grain rfl
  · intro inside
    cases shape_of_mem town with
    | alone _ single => simp at single
    | band _ _ banded_ => simp [banded] at banded_
    | area _ _ _ _ _ posts =>
        obtain ⟨grain, known⟩ := posts rfl
        obtain ⟨band, area⟩ := Option.ne_none_iff_exists'.mp known
        refine ⟨.plain (grainParts fp (.ofText fp.blockKey) band), ?_⟩
        unfold indexKeys postingKeys
        refine List.mem_append_right _ (mem_plainKey.mpr ⟨_, ?_, rfl⟩)
        rw [if_pos ⟨grain, inside⟩, area]
        rfl

theorem length_ne_dedup_iff {Value : Type} [DecidableEq Value] {values : List Value} :
    values.length ≠ values.dedup.length ↔ ¬values.Nodup := by
  refine not_congr ⟨fun whole => ?_, fun distinct => by rw [distinct.dedup]⟩
  rw [← (List.dedup_sublist values).eq_of_length whole.symm]
  exact List.nodup_dedup values

/-! ### The lookups of a posted key -/

theorem nearBands_concat (init : List KeyPart) (band : Int) :
    nearBands (init ++ [.number band]) =
      [-1, 0, 1].map fun offset : Int => init ++ [.number (band + offset)] := by
  unfold nearBands
  rw [List.getLast?_concat, List.dropLast_concat]

theorem nonneg_of_nearDeciles {decile neighbour : Int} (listed : neighbour ∈ nearDeciles decile) :
    0 ≤ neighbour := by
  have kept := (List.mem_filter.mp listed).2
  exact (of_decide_eq_true kept).1

/-- A posted token gives back its key's lookups. -/
theorem spread_posted {settings : BlockSettings} {fp : CohortFp} {key : Probe × ProbeKey Nat}
    (shape : Shape settings fp key) {quarter : Bool}
    (known : key.1 = .town → (quarter = true ↔ probesTownKey fp = false)) :
    spread quarter (Keyer.posted key) = some ((probesOf fp key).map Keyer.posted) := by
  cases shape with
  | alone parts single =>
      rcases single with rfl | rfl | rfl <;> simp [spread, probesOf, Keyer.posted]
  | band number value banded_ =>
      simp only [banded, List.mem_cons, List.not_mem_nil, or_false] at banded_
      rcases banded_ with rfl | rfl <;> simp [spread, probesOf, Keyer.posted]
  | broker brokerKey decile =>
      cases decile with
      | none =>
          have read := @rpartition_join (ProbeKey.plain [.text brokerKey, .ofText fp.catGroup,
            .ofText fp.categoryType] : ProbeKey Nat).token "" (by simp)
          have token := broker_token brokerKey fp.catGroup fp.categoryType none
          simp only [Option.elim_none, KeyPart.token] at token
          rw [← token] at read
          simp [spread, probesOf, Keyer.posted, read]
      | some decile =>
          have token := broker_token brokerKey fp.catGroup fp.categoryType
          have read := rpartition_join (ProbeKey.plain [.text brokerKey, .ofText fp.catGroup,
            .ofText fp.categoryType] : ProbeKey Nat).token (separator_unspelled (decile : Int))
          have number := toInt?_toString (decile : Int)
          have some_ : toString (decile : Int) ≠ "" := Nat.repr_ne_empty
          have posted := token (some decile)
          simp only [Option.elim_some, KeyPart.token] at posted
          rw [← posted] at read
          simp only [spread, probesOf, Keyer.posted, read, number, reduceCtorEq, or_self, if_false,
            true_and, ne_eq, some_, not_false_eq_true, if_true, Option.map_some, List.map_map]
          congr 1
          refine List.map_congr_left fun neighbour listed => ?_
          have nonneg := nonneg_of_nearDeciles listed
          simp only [Function.comp, Keyer.posted, token, Option.elim_some, KeyPart.token,
            Int.toNat_of_nonneg nonneg]
  | area init some_ band near grain town =>
      have token := fun value : Int => @token_concat init some_ (.number value)
      have read := rpartition_join (ProbeKey.plain init : ProbeKey Nat).token
        (separator_unspelled band)
      have number := toInt?_toString band
      have posted := token band
      simp only [KeyPart.token] at posted
      rw [← posted] at read
      have near_ : ∀ probe : Probe, ([-1, 0, 1].map fun offset : Int =>
          (probe, (ProbeKey.plain init : ProbeKey Nat).token ++ keySeparator ++
            toString (band + offset))) =
          (nearBands (init ++ [.number band])).map
            (Keyer.posted ∘ fun near => (probe, ProbeKey.plain near)) := by
        intro probe
        rw [nearBands_concat, List.map_map]
        refine List.map_congr_left fun offset _ => ?_
        exact congrArg (Prod.mk probe) (token (band + offset)).symm
      rcases near with rfl | rfl | rfl
      · simp only [spread, probesOf, Keyer.posted, read, number, true_or, if_true, reduceCtorEq,
          false_and, if_false, Option.map_some, List.map_map]
        exact congrArg some (near_ _)
      · cases probed : probesTownKey fp with
        | false =>
            have here : quarter = true := (known rfl).mpr probed
            simp [spread, probesOf, Keyer.posted, probed, here]
        | true =>
            have elsewhere : ¬quarter = true := fun here => by
              rw [(known rfl).mp here] at probed
              cases probed
            simp only [spread, probesOf, Keyer.posted, read, number, true_or, or_true, if_true,
              elsewhere, Option.map_some, List.map_map, probed]
            exact congrArg some (near_ _)
      · simp only [spread, probesOf, Keyer.posted, read, number, or_true, if_true, reduceCtorEq,
          false_and, if_false, Option.map_some, List.map_map]
        exact congrArg some (near_ _)

theorem tokenHead_band (number value : Nat) :
    tokenHead (ProbeKey.plain [.number number, .number value] : ProbeKey Nat).token =
      toString (number : Int) := by
  have token := @token_concat [.number number] (List.cons_ne_nil _ _) (.number value)
  have one : (ProbeKey.plain [.number number] : ProbeKey Nat).token = toString (number : Int) := by
    simp [ProbeKey.token, KeyPart.token]
  rw [one] at token
  exact (congrArg tokenHead token).trans (tokenHead_join (separator_unspelled number) _)

/-- A banded token leads with its band number. -/
theorem bandNumber_posted {settings : BlockSettings} {fp : CohortFp} {key : Probe × ProbeKey Nat}
    (shape : Shape settings fp key) :
    (bandNumber (Keyer.posted key)).isSome = true := by
  unfold bandNumber
  split_ifs with inside
  · cases shape with
    | alone parts single => rcases single with rfl | rfl | rfl <;> simp [banded, Keyer.posted] at inside
    | broker brokerKey decile => simp [banded, Keyer.posted] at inside
    | area init some_ band near grain town =>
        rcases near with rfl | rfl | rfl <;> simp [banded, Keyer.posted] at inside
    | band number value _ =>
        rw [Keyer.posted, tokenHead_band, toInt?_toString]
        rfl
  · rfl

/-- The place of a posted key in the order of `probe_keys_of`. -/
def place (key : Posted) : String ×ₗ Int ×ₗ String :=
  toLex (key.1.name, toLex ((bandNumber key).getD 0, key.2))

section Lookups

variable {keyer : Keyer} {fp : CohortFp} {posted : List Posted}

theorem mem_indexKeys {key : Posted} :
    key ∈ keyer.indexKeys fp ↔
      ∃ made ∈ Autodedup.indexKeys keyer.settings keyer.cuts fp, Keyer.posted made = key :=
  List.mem_map

/-- Whether the posted keys hold a quarter. -/
def holdsQuarter (posted : List Posted) : Bool := posted.any fun key => key.1 == .quarter

theorem holdsQuarter_iff (same : ∀ key, key ∈ posted ↔ key ∈ keyer.indexKeys fp)
    {key : Probe × ProbeKey Nat}
    (listed : key ∈ Autodedup.indexKeys keyer.settings keyer.cuts fp) (town : key.1 = .town) :
    holdsQuarter posted = true ↔ probesTownKey fp = false := by
  obtain ⟨probe, made⟩ := key
  cases town
  rw [← quarter_posted listed]
  simp only [holdsQuarter, List.any_eq_true, beq_iff_eq]
  constructor
  · rintro ⟨key, held, quarter⟩
    obtain ⟨made, found, rfl⟩ := mem_indexKeys.mp ((same key).mp held)
    obtain ⟨probe, made⟩ := made
    cases quarter
    exact ⟨made, found⟩
  · rintro ⟨quarter, found⟩
    exact ⟨_, (same _).mpr (mem_indexKeys.mpr ⟨_, found, rfl⟩), rfl⟩

/-- The lookups a posted key gives. -/
def lookups (posted : List Posted) (key : Posted) : List Posted :=
  (spread (holdsQuarter posted) key).getD []

theorem spread_lookups (same : ∀ key, key ∈ posted ↔ key ∈ keyer.indexKeys fp)
    {key : Probe × ProbeKey Nat}
    (listed : key ∈ Autodedup.indexKeys keyer.settings keyer.cuts fp) :
    spread (holdsQuarter posted) (Keyer.posted key) =
        some (lookups posted (Keyer.posted key)) ∧
      lookups posted (Keyer.posted key) = (probesOf fp key).map Keyer.posted := by
  have read := spread_posted (shape_of_mem listed) (holdsQuarter_iff same listed)
  unfold lookups
  rw [read]
  exact ⟨rfl, rfl⟩

/-- The keys read off the tokens: the posted ones in their order, each with its lookups. -/
theorem probeKeysOf_eq (same : ∀ key, key ∈ posted ↔ key ∈ keyer.indexKeys fp) :
    probeKeysOf posted = some ((sortedBy place posted.dedup).flatMap (lookups posted)) := by
  have reads : (posted.all fun key => (bandNumber key).isSome) = true := by
    refine List.all_eq_true.mpr fun key held => ?_
    obtain ⟨made, found, rfl⟩ := mem_indexKeys.mp ((same key).mp held)
    exact bandNumber_posted (shape_of_mem found)
  have spreads : (sortedBy place posted.dedup).mapM (spread (holdsQuarter posted)) =
      some ((sortedBy place posted.dedup).map (lookups posted)) := by
    refine mapM_eq_some fun key listed => ?_
    have held := List.mem_dedup.mp (mem_sortedBy.mp listed)
    obtain ⟨made, found, rfl⟩ := mem_indexKeys.mp ((same key).mp held)
    exact (spread_lookups same found).1
  unfold probeKeysOf postedOrder
  rw [if_pos reads, Option.bind_some]
  change ((sortedBy place posted.dedup).mapM (spread (holdsQuarter posted))).map List.flatten = _
  rw [spreads]
  rfl

/-- The lookups of a fingerprint are those of its posted keys. -/
theorem probeKeys_eq (same : ∀ key, key ∈ posted ↔ key ∈ keyer.indexKeys fp) :
    keyer.probeKeys fp = (keyer.indexKeys fp).flatMap (lookups posted) := by
  unfold Keyer.probeKeys Keyer.indexKeys
  rw [List.map_flatMap, List.flatMap_map]
  exact List.flatMap_congr fun key listed => (spread_lookups same listed).2.symm

/-! ### One probe's keys -/

/-- The keys of one probe, as the fingerprint posts them. -/
def under (keyer : Keyer) (fp : CohortFp) (probe : Probe) : List Posted :=
  (keyer.indexKeys fp).filter fun key => key.1 == probe

/-- The posted keys of one probe, in their order. -/
def orderedUnder (posted : List Posted) (probe : Probe) : List Posted :=
  (sortedBy place posted.dedup).filter fun key => key.1 == probe

theorem mem_orderedUnder (same : ∀ key, key ∈ posted ↔ key ∈ keyer.indexKeys fp) {probe : Probe}
    {key : Posted} : key ∈ orderedUnder posted probe ↔ key ∈ under keyer fp probe := by
  unfold orderedUnder under
  rw [List.mem_filter, List.mem_filter, mem_sortedBy, List.mem_dedup, same]

theorem orderedUnder_nodup (posted : List Posted) (probe : Probe) :
    (orderedUnder posted probe).Nodup :=
  (nodup_sortedBy.mpr (List.nodup_dedup posted)).filter _

/-- Keys of one probe that stand in order, each once, are read back as they stand. -/
theorem orderedUnder_eq (same : ∀ key, key ∈ posted ↔ key ∈ keyer.indexKeys fp) {probe : Probe}
    {keys : List Posted} (members : ∀ key, key ∈ under keyer fp probe ↔ key ∈ keys)
    (distinct : keys.Nodup)
    (ascending : keys.Pairwise fun one other => place one ≤ place other) :
    orderedUnder posted probe = keys := by
  have alike : (posted.dedup.filter fun key => key.1 == probe).Perm keys := by
    refine (List.perm_ext_iff_of_nodup ((List.nodup_dedup posted).filter _) distinct).mpr ?_
    intro key
    rw [← members, ← mem_orderedUnder same]
    unfold orderedUnder
    rw [List.mem_filter, List.mem_filter, mem_sortedBy]
  unfold orderedUnder
  rw [filter_sortedBy, sortedBy_eq_of_perm alike, sortedBy_eq_self ascending]
  intro one oneHeld other otherHeld equal
  have probes : one.1 = other.1 :=
    (beq_iff_eq.mp (List.mem_filter.mp oneHeld).2).trans
      (beq_iff_eq.mp (List.mem_filter.mp otherHeld).2).symm
  have tokens := (Prod.mk.inj (toLex.injective (Prod.mk.inj (toLex.injective equal)).2)).2
  exact Prod.ext probes tokens

theorem filter_plainKey {Decile : Type} (probe name : Probe) (made : Option (List KeyPart)) :
    (plainKey name made : List (Probe × ProbeKey Decile)).filter (fun key => key.1 == probe) =
      if name = probe then plainKey name made else [] := by
  unfold plainKey
  cases made with
  | none => simp
  | some parts => by_cases same : name = probe <;> simp [same]

theorem filter_map_named {Value Decile : Type} (probe name : Probe)
    (make : Value → ProbeKey Decile) (values : List Value) :
    (values.map fun value => (name, make value)).filter (fun key => key.1 == probe) =
      if name = probe then values.map fun value => (name, make value) else [] := by
  by_cases same : name = probe
  · simp [same]
  · simp [same]

theorem filter_toList_named {Value Decile : Type} (probe name : Probe)
    (make : Value → ProbeKey Decile) (value : Option Value) :
    ((value.map fun value => (name, make value)).toList).filter (fun key => key.1 == probe) =
      if name = probe then (value.map fun value => (name, make value)).toList else [] := by
  cases value with
  | none => simp
  | some value => by_cases same : name = probe <;> simp [same]

/-- The keys of one probe, as `posting_keys` adds them. -/
theorem filter_indexKeys (settings : BlockSettings) (cuts : Dict Cohort (List ℚ)) (fp : CohortFp)
    (probe : Probe) :
    (probe ∉ banded → ((Autodedup.indexKeys settings cuts fp).filter
        fun key => key.1 == probe).length ≤ 1) ∧
      (probe = .phash → ((Autodedup.indexKeys settings cuts fp).filter fun key => key.1 == probe) =
        fp.anchorBands.map fun band => (.phash, .plain [.number band.1, .number band.2.1])) ∧
      (probe = .text → ((Autodedup.indexKeys settings cuts fp).filter fun key => key.1 == probe) =
        if fp.hasText then
          fp.descBands.map fun band => (.text, .plain [.number band.1, .number band.2])
        else []) := by
  have plain : ∀ (name : Probe) (made : Option (List KeyPart)),
      (plainKey name made : List (Probe × ProbeKey Nat)).length ≤ 1 := by
    intro name made
    unfold plainKey
    cases made <;> simp
  unfold Autodedup.indexKeys postingKeys
  simp only [List.filter_append, filter_plainKey]
  rw [filter_map_named, apply_ite (List.filter _), filter_map_named, filter_toList_named,
    List.filter_nil]
  refine ⟨fun single => ?_, ?_, ?_⟩
  · cases probe with
    | phash | text => exact absurd (by decide) single
    | broker =>
        simp only [reduceCtorEq, if_false, if_true, ite_self, List.nil_append, List.append_nil]
        cases filled fp.brokerKey <;> simp
    | addr | attrDispo | attrArea | foreign | town | quarter =>
        simp only [reduceCtorEq, if_false, if_true, ite_self, List.nil_append, List.append_nil]
        exact plain _ _
  · rintro rfl
    simp only [reduceCtorEq, if_false, if_true, ite_self, List.nil_append, List.append_nil]
  · rintro rfl
    simp only [reduceCtorEq, if_false, if_true, List.nil_append, List.append_nil]

theorem under_eq (probe : Probe) :
    under keyer fp probe = ((Autodedup.indexKeys keyer.settings keyer.cuts fp).filter
      fun key => key.1 == probe).map Keyer.posted := by
  unfold under Keyer.indexKeys
  rw [List.filter_map]
  rfl

/-! ### Bands -/

/-- The keys of some bands. -/
def bandKeys (probe : Probe) (bands : List (Nat × Nat)) : List Posted :=
  bands.map fun band =>
    (probe, (ProbeKey.plain [.number band.1, .number band.2] : ProbeKey Nat).token)

theorem simhashBands_ascend (n bits : Nat) (h : Int) :
    (simhashBands n bits h).Pairwise fun one other => one.1 < other.1 :=
  List.pairwise_map.mpr List.pairwise_lt_range

theorem bandKeys_ascend {probe : Probe} (inside : probe ∈ banded) {bands : List (Nat × Nat)}
    (ascend : bands.Pairwise fun one other => one.1 < other.1) :
    (bandKeys probe bands).Pairwise fun one other => place one < place other := by
  refine List.pairwise_map.mpr (ascend.imp fun {one other} below => ?_)
  have number : ∀ band : Nat × Nat, bandNumber
      (probe, (ProbeKey.plain [.number band.1, .number band.2] : ProbeKey Nat).token) =
        some (band.1 : Int) := by
    intro band
    unfold bandNumber
    rw [if_pos inside, tokenHead_band, toInt?_toString]
  unfold place
  rw [number, number, Prod.Lex.toLex_lt_toLex, Prod.Lex.toLex_lt_toLex]
  exact .inr ⟨rfl, .inl (Int.ofNat_lt.mpr below)⟩

/-- The bands of a listing, as its fingerprint cuts them: of its text, and of its anchor images
one after the other. -/
structure Cut (fp : CohortFp) (n bits : Nat) (anchors : List Int) : Prop where
  text : fp.descBands = [] ∨ ∃ simhash, fp.descBands = simhashBands n bits simhash
  images : fp.anchorBands.map (fun band => (band.1, band.2.1)) =
    anchors.flatMap (simhashBands n bits)

variable {n bits : Nat} {anchors : List Int}

theorem under_phash (cut : Cut fp n bits anchors) :
    under keyer fp .phash = bandKeys .phash (anchors.flatMap (simhashBands n bits)) := by
  rw [under_eq, (filter_indexKeys keyer.settings keyer.cuts fp .phash).2.1 rfl, ← cut.images,
    bandKeys, List.map_map, List.map_map]
  rfl

/-- Under every probe but `phash` the posted keys stand as the fingerprint has them. -/
theorem orderedUnder_eq_under (same : ∀ key, key ∈ posted ↔ key ∈ keyer.indexKeys fp)
    (cut : Cut fp n bits anchors) {probe : Probe} (differ : probe ≠ .phash) :
    orderedUnder posted probe = under keyer fp probe := by
  by_cases single : probe ∈ banded
  · have text : probe = .text := by
      simp only [banded, List.mem_cons, List.not_mem_nil, or_false] at single
      exact single.resolve_right differ
    subst text
    have keys : ∃ bands, under keyer fp .text = bandKeys .text bands ∧
        bands.Pairwise fun one other => one.1 < other.1 := by
      rw [under_eq, (filter_indexKeys keyer.settings keyer.cuts fp .text).2.2 rfl]
      split_ifs
      · refine ⟨fp.descBands, by rw [bandKeys, List.map_map]; rfl, ?_⟩
        rcases cut.text with none_ | ⟨simhash, some_⟩
        · rw [none_]
          exact .nil
        · rw [some_]
          exact simhashBands_ascend n bits simhash
      · exact ⟨[], rfl, .nil⟩
    obtain ⟨bands, made, ascend⟩ := keys
    have ordered := bandKeys_ascend (by decide : Probe.text ∈ banded) ascend
    rw [made]
    exact orderedUnder_eq same (fun key => by rw [made]) (ordered.imp fun below equal => by
      rw [equal] at below
      exact lt_irrefl _ below) (ordered.imp le_of_lt)
  · have few : (under keyer fp probe).length ≤ 1 := by
      rw [under_eq, List.length_map]
      exact (filter_indexKeys keyer.settings keyer.cuts fp probe).1 single
    have one : under keyer fp probe = [] ∨ ∃ key, under keyer fp probe = [key] := by
      cases keys : under keyer fp probe with
      | nil => exact .inl rfl
      | cons key rest =>
          rw [keys, List.length_cons] at few
          exact .inr ⟨key, by rw [List.length_eq_zero_iff.mp (by omega : rest.length = 0)]⟩
    refine orderedUnder_eq same (fun _ => Iff.rfl) ?_ ?_
    · rcases one with none_ | ⟨key, alone⟩
      · rw [none_]
        exact List.nodup_nil
      · rw [alone]
        exact List.nodup_singleton key
    · rcases one with none_ | ⟨key, alone⟩
      · rw [none_]
        exact .nil
      · rw [alone]
        exact List.pairwise_singleton _ _

theorem mem_under_phash (cut : Cut fp n bits anchors) {key : Posted} :
    key ∈ under keyer fp .phash ↔ ∃ phash ∈ anchors, key ∈ bandKeys .phash (simhashBands n bits phash) := by
  rw [under_phash cut]
  simp only [bandKeys, List.mem_map, List.mem_flatMap]
  constructor
  · rintro ⟨band, ⟨phash, anchor, cutBand⟩, made⟩
    exact ⟨phash, anchor, band, cutBand, made⟩
  · rintro ⟨phash, anchor, band, cutBand, made⟩
    exact ⟨band, ⟨phash, anchor, cutBand⟩, made⟩

/-- The key of one band of an image. -/
def bandKey (bits : Nat) (phash : Int) (band : Nat) : Posted :=
  (.phash, (ProbeKey.plain [.number band,
    .number ((phash % 2 ^ 64).toNat / 2 ^ (band * bits) % 2 ^ bits : Nat)] : ProbeKey Nat).token)

theorem mem_bandKeys {phash : Int} {key : Posted} :
    key ∈ bandKeys .phash (simhashBands n bits phash) ↔ ∃ band < n, key = bandKey bits phash band := by
  simp only [bandKeys, simhashBands, List.map_map, List.mem_map, List.mem_range, Function.comp]
  exact exists_congr fun band => and_congr_right fun _ => eq_comm

/-- Where no band number stands twice, every anchor has the bands of the first. -/
theorem under_phash_once (same : ∀ key, key ∈ posted ↔ key ∈ keyer.indexKeys fp)
    (cut : Cut fp n bits anchors)
    (once : ((orderedUnder posted .phash).map fun key => tokenHead key.2).Nodup) :
    ∃ again, under keyer fp .phash = orderedUnder posted .phash ++ again ∧
      ∀ key ∈ again, key ∈ orderedUnder posted .phash := by
  have injective := List.inj_on_of_nodup_map once
  cases anchors with
  | nil =>
      have none_ : under keyer fp .phash = [] := under_phash cut
      refine ⟨[], ?_, by simp⟩
      rw [none_, List.append_nil, eq_comm, List.eq_nil_iff_forall_not_mem]
      intro key held
      rw [mem_orderedUnder same, none_] at held
      cases held
  | cons first rest =>
      have made := @under_phash keyer fp n bits (first :: rest) cut
      rw [List.flatMap_cons, bandKeys, List.map_append] at made
      have ordered := bandKeys_ascend (by decide : Probe.phash ∈ banded)
        (simhashBands_ascend n bits first)
      have inside : ∀ key, key ∈ under keyer fp .phash ↔
          key ∈ bandKeys .phash (simhashBands n bits first) := by
        intro key
        constructor
        · intro held
          obtain ⟨phash, anchor, cutKey⟩ := (mem_under_phash cut).mp held
          obtain ⟨band, below, rfl⟩ := mem_bandKeys.mp cutKey
          have own : bandKey bits first band ∈ bandKeys .phash (simhashBands n bits first) :=
            mem_bandKeys.mpr ⟨band, below, rfl⟩
          have twin : bandKey bits first band ∈ under keyer fp .phash :=
            (mem_under_phash cut).mpr ⟨first, List.mem_cons_self, own⟩
          have equal := injective ((mem_orderedUnder same).mpr held)
            ((mem_orderedUnder same).mpr twin) (by
              unfold bandKey
              rw [tokenHead_band, tokenHead_band])
          rw [equal]
          exact own
        · exact fun held => (mem_under_phash cut).mpr ⟨first, List.mem_cons_self, held⟩
      have stands : orderedUnder posted .phash = bandKeys .phash (simhashBands n bits first) :=
        orderedUnder_eq same inside (ordered.imp fun below equal => by
          rw [equal] at below
          exact lt_irrefl _ below) (ordered.imp le_of_lt)
      refine ⟨_, made.trans (by rw [stands]; rfl), fun key later => ?_⟩
      rw [mem_orderedUnder same, made]
      exact List.mem_append_right _ later

/-- A band number that stands twice is of two anchors. -/
theorem anchors_of_twice (same : ∀ key, key ∈ posted ↔ key ∈ keyer.indexKeys fp)
    (cut : Cut fp n bits anchors)
    (twice : ¬((orderedUnder posted .phash).map fun key => tokenHead key.2).Nodup) :
    ∃ one ∈ anchors, ∃ other ∈ anchors, one ≠ other := by
  by_contra alone
  push Not at alone
  refine twice ((List.nodup_map_iff_inj_on (orderedUnder_nodup posted .phash)).mpr ?_)
  intro left leftHeld right rightHeld heads
  obtain ⟨one, oneAnchor, oneKey⟩ := (mem_under_phash cut).mp ((mem_orderedUnder same).mp leftHeld)
  obtain ⟨other, otherAnchor, otherKey⟩ :=
    (mem_under_phash cut).mp ((mem_orderedUnder same).mp rightHeld)
  obtain ⟨band, _, rfl⟩ := mem_bandKeys.mp oneKey
  obtain ⟨second, _, rfl⟩ := mem_bandKeys.mp otherKey
  unfold bandKey at heads
  rw [tokenHead_band, tokenHead_band] at heads
  have bands := (toInt?_toString band).symm.trans ((congrArg String.toInt? heads).trans
    (toInt?_toString second))
  cases Int.ofNat.inj (Option.some.inj bands)
  rw [alone one oneAnchor other otherAnchor]

/-! ### The postings met -/

theorem probesOf_probe {key one : Probe × ProbeKey Nat} (listed : one ∈ probesOf fp key) :
    one.1 = key.1 := by
  unfold probesOf at listed
  split at listed
  · split_ifs at listed
    · obtain ⟨_, _, rfl⟩ := List.mem_map.mp listed
      rfl
    · cases listed
  all_goals first
    | (obtain ⟨_, _, rfl⟩ := List.mem_map.mp listed
       rfl)
    | (cases List.mem_singleton.mp listed
       rfl)

theorem lookups_probe (same : ∀ key, key ∈ posted ↔ key ∈ keyer.indexKeys fp) {key one : Posted}
    (held : key ∈ posted) (listed : one ∈ lookups posted key) : one.1 = key.1 := by
  obtain ⟨made, found, rfl⟩ := mem_indexKeys.mp ((same key).mp held)
  rw [(spread_lookups same found).2] at listed
  obtain ⟨lookup, near, rfl⟩ := List.mem_map.mp listed
  exact probesOf_probe near

/-- The lookups of the keys of one probe are those among the lookups of all. -/
theorem filter_lookups (same : ∀ key, key ∈ posted ↔ key ∈ keyer.indexKeys fp) (probe : Probe)
    {keys : List Posted} (held : ∀ key ∈ keys, key ∈ posted) :
    (keys.flatMap (lookups posted)).filter (fun key => key.1 == probe) =
      (keys.filter fun key => key.1 == probe).flatMap (lookups posted) := by
  induction keys with
  | nil => rfl
  | cons key rest ih =>
      have later := ih fun other listed => held other (List.mem_cons_of_mem _ listed)
      have own := fun one => @lookups_probe keyer fp posted same key one (held key List.mem_cons_self)
      rw [List.flatMap_cons, List.filter_append, later]
      by_cases here : key.1 = probe
      · rw [List.filter_cons_of_pos (by simpa using here), List.flatMap_cons]
        congr 1
        exact List.filter_eq_self.mpr fun one listed => by simp [own one listed, here]
      · rw [List.filter_cons_of_neg (by simpa using here)]
        have none_ : (lookups posted key).filter (fun one => one.1 == probe) = [] :=
          List.filter_eq_nil_iff.mpr fun one listed => by simp [own one listed, here]
        rw [none_, List.nil_append]

theorem lookups_phash (same : ∀ key, key ∈ posted ↔ key ∈ keyer.indexKeys fp) {key : Posted}
    (held : key ∈ orderedUnder posted .phash) : lookups posted key = [key] := by
  obtain ⟨listed, probe⟩ := List.mem_filter.mp ((mem_orderedUnder same).mp held)
  obtain ⟨⟨name, made⟩, found, rfl⟩ := mem_indexKeys.mp listed
  obtain rfl : name = .phash := beq_iff_eq.mp probe
  rw [(spread_lookups same found).2]
  rfl

end Lookups

end Sreality.Autodedup
