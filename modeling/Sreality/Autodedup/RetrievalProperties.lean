import Sreality.Autodedup.ProbeTokensProperties

/-! Retrieval from the posted keys agrees with retrieval from the fingerprint: the fan-out fills the
same in any order of a probe's tokens, unless the cap turns an admitted candidate away. -/

set_option autoImplicit false

namespace Sreality.Autodedup

open Sreality.Foundation FanOut

namespace Retrieval

variable {Rest : Type} (reading : Retrieval Rest) (side : Fingerprint) (vetoed : Dict Pair String)

/-! ### One posting -/

/-- The rule floor lets the candidate in, as the rows and the refusals a retrieval starts with
have it. -/
def admits (other : Nat) : Bool :=
  decide (other ≠ side.listingId ∧ vetoed.lookup (pairOf side.listingId other) = none) &&
    (reading.guards other).any fun row => (Decide.pairVeto side row reading.dials).isNone

/-- A fan-out on its way: the listing itself is never in it, and it refused no candidate the floor
lets in. -/
structure Sound (fill : Fill) : Prop where
  keyed : Keyed Prod.fst fill.out
  self : fill.out.lookup side.listingId = none
  kept : ∀ other, (vetoed.lookup (pairOf side.listingId other)).isSome = true →
    (fill.vetoed.lookup (pairOf side.listingId other)).isSome = true
  refused : ∀ other, (fill.vetoed.lookup (pairOf side.listingId other)).isSome = true →
    reading.admits side vetoed other = false

variable {reading side vetoed}

theorem pairOf_injective {listing one other : Nat} (same : pairOf listing one = pairOf listing other) :
    one = other := by
  unfold pairOf at same
  split_ifs at same <;> simp only [Prod.mk.injEq] at same <;> omega

theorem sound_start : reading.Sound side vetoed { vetoed := vetoed } where
  keyed := Keyed.nil
  self := rfl
  kept := fun _ held => held
  refused := fun other held => by
    rw [Option.isSome_iff_ne_none] at held
    simp [admits, held]

theorem Sound.fresh {fill : Fill} (sound : reading.Sound side vetoed fill) {other : Nat}
    (unknown : fill.vetoed.lookup (pairOf side.listingId other) = none) :
    vetoed.lookup (pairOf side.listingId other) = none := by
  by_contra known
  have held := sound.kept other (Option.isSome_iff_ne_none.mpr known)
  rw [unknown] at held
  cases held

theorem Sound.hold {fill : Fill} (sound : reading.Sound side vetoed fill) {probe : Probe}
    {other : Nat} (own : other ≠ side.listingId) :
    reading.Sound side vetoed { fill with out := label probe fill.out other } where
  keyed := keyed_label sound.keyed
  self := by
    rw [lookup_label, if_neg (Ne.symm own)]
    exact sound.self
  kept := sound.kept
  refused := sound.refused

theorem Sound.refuse {fill : Fill} (sound : reading.Sound side vetoed fill) {other : Nat}
    (refused : reading.admits side vetoed other = false) (veto : String) :
    reading.Sound side vetoed
      { fill with vetoed := (pairOf side.listingId other, veto) :: fill.vetoed } where
  keyed := sound.keyed
  self := sound.self
  kept := fun one held => by
    rw [List.lookup_cons]
    split
    · rfl
    · exact sound.kept one held
  refused := fun one held => by
    by_cases same : pairOf side.listingId one = pairOf side.listingId other
    · rw [pairOf_injective same]
      exact refused
    · rw [List.lookup_cons, beq_false_of_ne same] at held
      exact sound.refused one held

/-- A posting met is met as the fan-out meets it, or ends a loose read the cap has reached. -/
theorem meet_cases {fill : Fill} (sound : reading.Sound side vetoed fill) (probe : Probe)
    (ordered : Bool) (other : Nat) :
    (∃ next, reading.meet side probe ordered fill other = some next ∧
        reading.Sound side vetoed next ∧
        next.out = meetItem reading.cap (reading.admits side vetoed) probe fill.out other ∧
        (ordered = false → reading.admits side vetoed other = true →
          next.out.lookup other ≠ none)) ∨
      (ordered = false ∧ reading.meet side probe ordered fill other = none ∧
        reading.admits side vetoed other = true ∧ fill.out.lookup other = none ∧
        reading.cap ≤ fill.out.length) := by
  have unkept : ∀ {out : Dict Nat (Finset Probe)} {met : Nat}, out.lookup met = none →
      (reading.admits side vetoed met = true → reading.cap ≤ out.length) →
      meetItem reading.cap (reading.admits side vetoed) probe out met = out := by
    intro out met fresh full
    refine if_neg ?_
    rintro (held | ⟨room, admitted⟩)
    · rw [fresh] at held
      cases held
    · exact absurd room (not_lt.mpr (full admitted))
  unfold meet
  dsimp only
  by_cases own : other = side.listingId
  · subst own
    have refused : reading.admits side vetoed side.listingId = false := by simp [admits]
    rw [if_pos rfl]
    exact .inl ⟨fill, rfl, sound, (unkept sound.self (by simp [refused])).symm, by simp [refused]⟩
  · rw [if_neg own]
    cases held : fill.out.lookup other with
    | some labels =>
        rw [if_pos Option.isSome_some]
        have met : meetItem reading.cap (reading.admits side vetoed) probe fill.out other =
            label probe fill.out other := if_pos (.inl (by rw [held]; rfl))
        refine .inl ⟨_, rfl, sound.hold own, met.symm, fun _ _ => ?_⟩
        dsimp only
        rw [lookup_label, if_pos rfl]
        simp
    | none =>
        rw [if_neg (by simp)]
        by_cases full : reading.cap ≤ fill.out.length
        · rw [if_pos full]
          by_cases stops : ordered = false ∧
              fill.vetoed.lookup (pairOf side.listingId other) = none ∧
              (reading.guards other).any
                (fun row => (Decide.pairVeto side row reading.dials).isNone) = true
          · rw [if_pos stops]
            have fresh := sound.fresh stops.2.1
            exact .inr ⟨stops.1, rfl, by simp [admits, own, fresh, stops.2.2], rfl, full⟩
          · rw [if_neg stops]
            refine .inl ⟨fill, rfl, sound, (unkept held fun _ => full).symm, ?_⟩
            intro loose admitted
            refine absurd ⟨loose, ?_, (Bool.and_eq_true_iff.mp admitted).2⟩ stops
            by_contra known
            have refused := sound.refused other (Option.isSome_iff_ne_none.mpr known)
            rw [refused] at admitted
            cases admitted
        · rw [if_neg full]
          by_cases known : (fill.vetoed.lookup (pairOf side.listingId other)).isSome = true
          · have refused := sound.refused other known
            rw [if_pos known]
            exact .inl ⟨fill, rfl, sound, (unkept held (by simp [refused])).symm, by simp [refused]⟩
          · rw [if_neg known]
            have fresh := @Sound.fresh _ _ _ _ _ sound other (Option.not_isSome_iff_eq_none.mp known)
            cases row : reading.guards other with
            | none =>
                have refused : reading.admits side vetoed other = false := by simp [admits, row]
                exact .inl ⟨fill, rfl, sound, (unkept held (by simp [refused])).symm,
                  by simp [refused]⟩
            | some row_ =>
                cases veto : Decide.pairVeto side row_ reading.dials with
                | some name =>
                    have refused : reading.admits side vetoed other = false := by
                      simp [admits, row, veto]
                    refine .inl ⟨_, by simp only [veto], sound.refuse refused name,
                      (unkept held (by simp [refused])).symm, by simp [refused]⟩
                | none =>
                    have admitted : reading.admits side vetoed other = true := by
                      simp [admits, row, veto, own, fresh]
                    have met : meetItem reading.cap (reading.admits side vetoed) probe fill.out
                        other = label probe fill.out other :=
                      if_pos (.inr ⟨not_le.mp full, admitted⟩)
                    refine .inl ⟨_, by simp only [veto], sound.hold own, met.symm, fun _ _ => ?_⟩
                    dsimp only
                    rw [lookup_label, if_pos rfl]
                    simp

/-! ### One probe -/

/-- The postings under a probe's keys, in the order they are met. -/
def items (reading : Retrieval Rest) (keys : List Posted) (probe : Probe) : List Nat :=
  (keys.filter fun key => key.1 == probe && !reading.isExploded key).flatMap reading.lookup

theorem meets_cases {fill : Fill} (sound : reading.Sound side vetoed fill) (probe : Probe)
    (ordered : Bool) (listed : List Nat) :
    (∃ next, listed.foldlM (reading.meet side probe ordered) fill = some next ∧
        reading.Sound side vetoed next ∧
        next.out = meetAll reading.cap (reading.admits side vetoed) probe fill.out listed ∧
        (ordered = false →
          Roomy reading.cap (reading.admits side vetoed) probe fill.out listed)) ∨
      (ordered = false ∧ listed.foldlM (reading.meet side probe ordered) fill = none ∧
        ¬Roomy reading.cap (reading.admits side vetoed) probe fill.out listed) := by
  induction listed generalizing fill with
  | nil => exact .inl ⟨fill, rfl, sound, rfl, fun _ _ held => absurd held List.not_mem_nil⟩
  | cons other rest ih =>
      rw [List.foldlM_cons]
      rcases meet_cases sound probe ordered other with
        ⟨next, met, nextSound, out, kept⟩ | ⟨loose, ended, admitted, fresh, full⟩
      · rw [met, Option.bind_eq_bind, Option.bind_some]
        rcases ih nextSound with ⟨last, done, lastSound, lastOut, roomy⟩ | ⟨loose, ended, away⟩
        · refine .inl ⟨last, done, lastSound, ?_, ?_⟩
          · rw [lastOut, out]
            rfl
          · intro loose item listed admitted
            change (meetAll reading.cap (reading.admits side vetoed) probe
              (meetItem reading.cap (reading.admits side vetoed) probe fill.out other)
              rest).lookup item ≠ none
            rw [← out]
            rcases List.mem_cons.mp listed with rfl | later
            · obtain ⟨labels, held⟩ := Option.ne_none_iff_exists'.mp (kept loose admitted)
              rw [lookup_meetAll_held held]
              simp
            · exact roomy loose item later admitted
        · refine .inr ⟨loose, ended, fun roomy => away fun item later admitted => ?_⟩
          have held := roomy item (List.mem_cons_of_mem _ later) admitted
          rw [out]
          exact held
      · rw [ended]
        refine .inr ⟨loose, rfl, fun roomy => roomy other List.mem_cons_self admitted ?_⟩
        change (meetAll reading.cap (reading.admits side vetoed) probe
          (meetItem reading.cap (reading.admits side vetoed) probe fill.out other)
          rest).lookup other = none
        exact meetAll_full (full.trans (le_length_meetItem other))
          (meetItem_none.mpr ⟨fresh, fun _ room => absurd room.1 (not_lt.mpr full)⟩)

/-- A probe read in order, or with a cap already reached, fills as the fan-out does. -/
theorem fillProbe_ordered {fill : Fill} (sound : reading.Sound side vetoed fill)
    {loose : Option Probe} {probe : Probe} (keys : List Posted)
    (ordered : loose ≠ some probe ∨ reading.cap ≤ fill.out.length) :
    ∃ next, reading.fillProbe side loose keys fill probe = some next ∧
      reading.Sound side vetoed next ∧
      next.out = meetAll reading.cap (reading.admits side vetoed) probe fill.out
        (reading.items keys probe) := by
  rcases meets_cases sound probe (decide (loose ≠ some probe ∨ reading.cap ≤ fill.out.length))
      (reading.items keys probe) with ⟨next, done, nextSound, out, _⟩ | ⟨unordered, _⟩
  · exact ⟨next, done, nextSound, out⟩
  · rw [decide_eq_false_iff_not] at unordered
    exact absurd ordered unordered

/-- A probe read loose fills as the fan-out does with room for all, or gives no answer. -/
theorem fillProbe_loose {fill : Fill} (sound : reading.Sound side vetoed fill) {probe : Probe}
    (keys : List Posted) (room : fill.out.length < reading.cap) :
    (∃ next, reading.fillProbe side (some probe) keys fill probe = some next ∧
        reading.Sound side vetoed next ∧
        next.out = meetAll reading.cap (reading.admits side vetoed) probe fill.out
          (reading.items keys probe) ∧
        Roomy reading.cap (reading.admits side vetoed) probe fill.out (reading.items keys probe)) ∨
      (reading.fillProbe side (some probe) keys fill probe = none ∧
        ¬Roomy reading.cap (reading.admits side vetoed) probe fill.out
          (reading.items keys probe)) := by
  have unordered : decide (some probe ≠ some probe ∨ reading.cap ≤ fill.out.length) = false := by
    simpa using room
  rcases meets_cases sound probe (decide (some probe ≠ some probe ∨ reading.cap ≤ fill.out.length))
      (reading.items keys probe) with ⟨next, done, nextSound, out, roomy⟩ | ⟨_, ended, away⟩
  · exact .inl ⟨next, done, nextSound, out, roomy unordered⟩
  · exact .inr ⟨ended, away⟩

/-! ### Two reads of one listing -/

/-- How two lists of keys compare under one probe: the same postings, those after the first
list's met before; or, where the probe is read loose, the same postings in some order. -/
def Comparable (reading : Retrieval Rest) (loose : Option Probe) (posted probed : List Posted)
    (probe : Probe) : Prop :=
  (loose ≠ some probe ∧ ∃ again, reading.items probed probe = reading.items posted probe ++ again ∧
      ∀ other ∈ again, other ∈ reading.items posted probe) ∨
    (loose = some probe ∧
      ∀ other, other ∈ reading.items posted probe ↔ other ∈ reading.items probed probe)

/-- The cap turned away a candidate the rule floor lets in, under a probe's keys. -/
def TurnedAway (reading : Retrieval Rest) (side : Fingerprint) (vetoed : Dict Pair String)
    (keys : List Posted) (probe : Probe) (out : Dict Nat (Finset Probe)) : Prop :=
  reading.cap ≤ out.length ∧ ∃ other ∈ reading.items keys probe,
    reading.admits side vetoed other = true ∧ out.lookup other = none

theorem fills_ordered {fill : Fill} (sound : reading.Sound side vetoed fill) (keys : List Posted)
    (probes : List Probe) :
    ∃ next, probes.foldlM (reading.fillProbe side none keys) fill = some next ∧
      reading.Sound side vetoed next ∧ fill.out.length ≤ next.out.length ∧
      (reading.cap ≤ fill.out.length → ∀ other, fill.out.lookup other = none →
        next.out.lookup other = none) := by
  induction probes generalizing fill with
  | nil => exact ⟨fill, rfl, sound, le_rfl, fun _ _ fresh => fresh⟩
  | cons probe rest ih =>
      obtain ⟨next, met, nextSound, out⟩ :=
        fillProbe_ordered sound keys (.inl (by simp : (none : Option Probe) ≠ some probe))
      obtain ⟨last, done, lastSound, longer, full⟩ := ih nextSound
      have grows : fill.out.length ≤ next.out.length := by
        rw [out]
        exact le_length_meetAll _
      refine ⟨last, ?_, lastSound, grows.trans longer, fun capped other fresh => ?_⟩
      · rw [List.foldlM_cons, met]
        exact done
      · refine full (capped.trans grows) other ?_
        rw [out]
        exact meetAll_full capped fresh

theorem fills_agree {loose : Option Probe} {posted probed : List Posted} {probes : List Probe}
    (comparable : ∀ probe ∈ probes, Comparable reading loose posted probed probe) :
    ∀ {left right : Fill}, reading.Sound side vetoed left → reading.Sound side vetoed right →
      Agree left.out right.out →
      ∃ last, probes.foldlM (reading.fillProbe side none probed) right = some last ∧
        ((∃ next, probes.foldlM (reading.fillProbe side loose posted) left = some next ∧
            Agree next.out last.out) ∨
          (probes.foldlM (reading.fillProbe side loose posted) left = none ∧
            ∃ probe, loose = some probe ∧
              TurnedAway reading side vetoed probed probe last.out)) := by
  induction probes with
  | nil => exact fun _ _ agree => ⟨_, rfl, .inl ⟨_, rfl, agree⟩⟩
  | cons probe rest ih =>
      intro left right leftSound rightSound agree
      have later := fun other held => comparable other (List.mem_cons_of_mem probe held)
      obtain ⟨middle, met, middleSound, middleOut⟩ :=
        fillProbe_ordered rightSound probed
          (.inl (by simp : (none : Option Probe) ≠ some probe))
      have steps : (probe :: rest).foldlM (reading.fillProbe side none probed) right =
          rest.foldlM (reading.fillProbe side none probed) middle := by
        rw [List.foldlM_cons, met]
        rfl
      -- What the left read of this probe did decides; the rest is the induction's.
      have onward : ∀ next, reading.fillProbe side loose posted left probe = some next →
          reading.Sound side vetoed next → Agree next.out middle.out →
          ∃ last, (probe :: rest).foldlM (reading.fillProbe side none probed) right = some last ∧
            ((∃ next, (probe :: rest).foldlM (reading.fillProbe side loose posted) left =
                some next ∧ Agree next.out last.out) ∨
              ((probe :: rest).foldlM (reading.fillProbe side loose posted) left = none ∧
                ∃ probe, loose = some probe ∧
                  TurnedAway reading side vetoed probed probe last.out)) := by
        intro next first nextSound close
        obtain ⟨last, done, outcome⟩ := ih later nextSound middleSound close
        refine ⟨last, steps.trans done, ?_⟩
        rw [List.foldlM_cons, first]
        exact outcome
      have same := @Agree.meetAll _ _ _ _ reading.cap (reading.admits side vetoed) probe _ _ agree
        (reading.items posted probe)
      rcases comparable probe List.mem_cons_self with ⟨differ, again, equal, inside⟩ | ⟨rfl, alike⟩
      · obtain ⟨next, first, nextSound, nextOut⟩ :=
          fillProbe_ordered leftSound posted (.inl differ)
        refine onward next first nextSound ?_
        rw [nextOut, middleOut, equal]
        exact same.trans (meetAll_again rightSound.keyed inside).symm
      · by_cases room : left.out.length < reading.cap
        · rcases fillProbe_loose leftSound posted room with
            ⟨next, first, nextSound, nextOut, roomy⟩ | ⟨ended, away⟩
          · refine onward next first nextSound ?_
            rw [nextOut, middleOut]
            refine same.trans (agree_of_order rightSound.keyed alike (.inl ⟨?_, roomy.congr agree⟩))
            exact agree.length ▸ room.le
          · obtain ⟨last, done, _, longer, full⟩ := fills_ordered middleSound probed rest
            refine ⟨last, steps.trans done, .inr ⟨by rw [List.foldlM_cons, ended]; rfl, probe, rfl, ?_⟩⟩
            have turned : ¬Roomy reading.cap (reading.admits side vetoed) probe right.out
                (reading.items probed probe) := fun roomy =>
              away ((roomy.any_order rightSound.keyed (agree.length ▸ room.le)
                fun other => (alike other).symm).congr agree.symm)
            unfold Roomy at turned
            push Not at turned
            obtain ⟨other, listed, admitted, missing⟩ := turned
            have capped := full_of_turnedAway listed admitted missing
            rw [← middleOut] at capped missing
            exact ⟨capped.trans longer, other, listed, admitted, full capped other missing⟩
        · obtain ⟨next, first, nextSound, nextOut⟩ :=
            fillProbe_ordered leftSound posted (.inr (not_lt.mp room))
          refine onward next first nextSound ?_
          rw [nextOut, middleOut]
          exact same.trans (agree_of_order rightSound.keyed alike
            (.inr (agree.length ▸ not_lt.mp room)))

/-! ### Posted keys against the fingerprint -/

section Agreement

variable {fp : ListingFp} {posted : List Posted} {n bits : Nat} {anchors : List Int}

/-- The postings met under some keys' lookups. -/
def met (reading : Retrieval Rest) (posted keys : List Posted) : List Nat :=
  ((keys.flatMap (lookups posted)).filter fun key => !reading.isExploded key).flatMap reading.lookup

theorem met_append (keys more : List Posted) :
    reading.met posted (keys ++ more) = reading.met posted keys ++ reading.met posted more := by
  simp only [met, List.flatMap_append, List.filter_append]

theorem mem_met {keys : List Posted} {other : Nat} :
    other ∈ reading.met posted keys ↔ ∃ key ∈ keys, ∃ one ∈ lookups posted key,
      reading.isExploded one = false ∧ other ∈ reading.lookup one := by
  simp only [met, List.mem_flatMap, List.mem_filter, Bool.not_eq_true']
  constructor
  · rintro ⟨one, ⟨⟨key, held, near⟩, open_⟩, listed⟩
    exact ⟨key, held, one, near, open_, listed⟩
  · rintro ⟨key, held, one, near, open_, listed⟩
    exact ⟨one, ⟨⟨key, held, near⟩, open_⟩, listed⟩

theorem items_lookups (same : ∀ key, key ∈ posted ↔ key ∈ reading.keyer.indexKeys fp.toCohortFp)
    {keys : List Posted} (held : ∀ key ∈ keys, key ∈ posted) (probe : Probe) :
    reading.items (keys.flatMap (lookups posted)) probe =
      reading.met posted (keys.filter fun key => key.1 == probe) := by
  unfold items met
  rw [← filter_lookups same probe held, List.filter_filter]
  congr 2
  funext key
  exact Bool.and_comm _ _

theorem comparable (same : ∀ key, key ∈ posted ↔ key ∈ reading.keyer.indexKeys fp.toCohortFp)
    (cut : Cut fp.toCohortFp n bits anchors) :
    ∃ keys, probeKeysOf posted = some keys ∧
      (∀ probe, Comparable reading (looseProbe keys) keys
        (reading.keyer.probeKeys fp.toCohortFp) probe) ∧
      ∀ probe, looseProbe keys = some probe →
        probe = .phash ∧ ∃ one ∈ anchors, ∃ other ∈ anchors, one ≠ other := by
  have held : ∀ key ∈ sortedBy place posted.dedup, key ∈ posted := fun key listed =>
    List.mem_dedup.mp (mem_sortedBy.mp listed)
  have listed : ∀ key ∈ reading.keyer.indexKeys fp.toCohortFp, key ∈ posted := fun key =>
    (same key).mpr
  refine ⟨_, probeKeysOf_eq same, ?_⟩
  have bands : ((sortedBy place posted.dedup).flatMap (lookups posted)).filter
      (fun key => key.1 == .phash) = orderedUnder posted .phash := by
    rw [filter_lookups same .phash held]
    exact (List.flatMap_congr fun key here => lookups_phash same here).trans
      (List.flatMap_singleton' _)
  have loose : ∀ probe, looseProbe ((sortedBy place posted.dedup).flatMap (lookups posted)) =
      some probe ↔ probe = .phash ∧
        ¬((orderedUnder posted .phash).map fun key => tokenHead key.2).Nodup := by
    intro probe
    unfold looseProbe
    dsimp only
    rw [bands, ← length_ne_dedup_iff]
    split_ifs with twice
    · rw [Option.some.injEq, and_iff_left twice, eq_comm]
    · exact ⟨fun none_ => (by cases none_), fun both => absurd both.2 twice⟩
  have probed : ∀ probe, reading.items (reading.keyer.probeKeys fp.toCohortFp) probe =
      reading.met posted (under reading.keyer fp.toCohortFp probe) := by
    intro probe
    rw [probeKeys_eq same, items_lookups same listed]
    rfl
  have read : ∀ probe, reading.items ((sortedBy place posted.dedup).flatMap (lookups posted)) probe =
      reading.met posted (orderedUnder posted probe) := fun probe => items_lookups same held probe
  refine ⟨fun probe => ?_, fun probe some_ => ?_⟩
  · by_cases image : probe = .phash
    · subst image
      by_cases once : ((orderedUnder posted .phash).map fun key => tokenHead key.2).Nodup
      · obtain ⟨again, whole, before⟩ := under_phash_once same cut once
        refine .inl ⟨fun some_ => ((loose _).mp some_).2 once, reading.met posted again, ?_, ?_⟩
        · rw [probed, read, whole, met_append]
        · intro other there
          rw [read]
          obtain ⟨key, inside, near⟩ := mem_met.mp there
          exact mem_met.mpr ⟨key, before key inside, near⟩
      · refine .inr ⟨(loose _).mpr ⟨rfl, once⟩, fun other => ?_⟩
        rw [read, probed, mem_met, mem_met]
        simp only [mem_orderedUnder same]
    · refine .inl ⟨fun some_ => image ((loose _).mp some_).1, [], ?_, by simp⟩
      rw [probed, read, orderedUnder_eq_under same cut image, List.append_nil]
  · obtain ⟨image, twice⟩ := (loose probe).mp some_
    exact ⟨image, anchors_of_twice same cut twice⟩

/-- What `retrieve_posted` may answer beside what `retrieve` does. -/
structure AsRetrieved (reading : Retrieval Rest) (fp : ListingFp) (anchors : List Int)
    (vetoed : Dict Pair String) (answer : Option (Dict Nat (Finset Probe))) : Prop where
  same : ∀ out, answer = some out → Agree out (reading.retrieve fp vetoed)
  unanswered : answer = none → (∃ one ∈ anchors, ∃ other ∈ anchors, one ≠ other) ∧
    TurnedAway reading (guardRow fp) vetoed (reading.keyer.probeKeys fp.toCohortFp) .phash
      (reading.retrieve fp vetoed)

/-- `retrieve_posted` answers as `retrieve` does, or not at all: where the bands are of several
anchors and the cap turned one of their candidates away. -/
theorem retrievePosted_asRetrieved (reading : Retrieval Rest) (vetoed : Dict Pair String)
    (same : ∀ key, key ∈ posted ↔ key ∈ reading.keyer.indexKeys fp.toCohortFp)
    (cut : Cut fp.toCohortFp n bits anchors) :
    ∃ answer, reading.retrievePosted (guardRow fp) posted vetoed = some answer ∧
      AsRetrieved reading fp anchors vetoed answer := by
  obtain ⟨keys, read, compared, severalAnchors⟩ := comparable same cut
  obtain ⟨last, done, outcome⟩ := @fills_agree _ reading (guardRow fp) vetoed _ _ _
    (probePriority reading.keyer.settings) (fun probe _ => compared probe) _ _ sound_start
    sound_start ⟨rfl, fun _ => rfl⟩
  have retrieved : reading.retrieve fp vetoed = last.out := by
    unfold retrieve fill
    rw [done]
    rfl
  unfold retrievePosted
  rw [read, Option.map_some]
  refine ⟨_, rfl, ?_⟩
  rcases outcome with ⟨next, filled_, agree⟩ | ⟨ended, probe, some_, turned⟩
  · constructor
    · intro out answered
      rw [fill, filled_, Option.map_some] at answered
      rw [← Option.some.inj answered, retrieved]
      exact agree
    · intro unanswered
      rw [fill, filled_] at unanswered
      cases unanswered
  · constructor
    · intro out answered
      rw [fill, ended] at answered
      cases answered
    · intro _
      obtain ⟨rfl, several⟩ := severalAnchors probe some_
      rw [retrieved]
      exact ⟨several, turned⟩

/-- Two anchors whose one band differs, each with a listing beside it, and room for one. -/
def twoAnchors : ListingFp where
  listingId := 1
  anchorBands := [(0, 7, 7), (0, 8, 8)]

deriving instance Inhabited for Decide.Dials

def roomForOne : Retrieval Unit where
  keyer := { settings := ⟨10, false, []⟩, cuts := [], exploded := fun _ => [] }
  lookup := fun key =>
    if key = Keyer.posted (.phash, .plain [.number 0, .number 7]) then [2]
    else if key = Keyer.posted (.phash, .plain [.number 0, .number 8]) then [3] else []
  guards := fun other => some { listingId := other }
  dials := default
  cap := 1

theorem retrievePosted_twoAnchors :
    ∃ answer, roomForOne.retrievePosted (guardRow twoAnchors)
        (roomForOne.keyer.indexKeys twoAnchors.toCohortFp).reverse [] = some answer ∧
      AsRetrieved roomForOne twoAnchors [7, 8] [] answer :=
  @retrievePosted_asRetrieved Unit twoAnchors _ 1 16 [7, 8] roomForOne []
    (fun _ => List.mem_reverse) ⟨.inl rfl, by decide⟩

end Agreement

end Retrieval

end Sreality.Autodedup
