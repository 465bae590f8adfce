import Mathlib.Data.Finset.Insert
import Sreality.Autodedup.CalibrationCut

/-! The streamed cut of a cohort is the cut of the whole: each statistic is a count over the
adverts, read off the list it counts, and the chunks' lists are the cohort's. -/

set_option autoImplicit false

namespace Sreality.Autodedup

open Sreality.Foundation
open Sreality.Foundation.Dict

/-! ### What the counts count -/

section FeatureCounts

variable (settings : BlockSettings) (fps : List (Nat × CohortFp))
  (listings : List (Nat × CohortListing))

/-- The attributes some adverts state, under their blocks. -/
def attrDocs (facts : Nat → Option CohortListing) (fps : List (Nat × CohortFp)) :
    List (String × List (String × String)) :=
  fps.filterMap fun entry =>
    (facts entry.1).map fun listing => (entry.2.block, attrMap settings listing)

theorem foldl_bumpAll {Key : Type} [DecidableEq Key] (keys : Nat × CohortFp → List Key)
    (dict : Dict Key Nat) :
    fps.foldl (fun df entry => Dict.bumpAll df (keys entry)) dict =
      dict.bumpAll (fps.flatMap keys) := by
  rw [bumpAll, List.foldl_flatMap]
  rfl

theorem foldl_countPin (dict : Dict String Nat) :
    fps.foldl (fun pop entry => countPin pop entry.2) dict =
      dict.bumpAll (fps.filterMap fun entry => filled entry.2.pinKey) := by
  induction fps generalizing dict with
  | nil => rfl
  | cons head rest ih =>
      rw [List.foldl_cons, ih, countPin, List.filterMap_cons]
      cases filled head.2.pinKey with
      | none => rfl
      | some pin => rfl

theorem foldl_bumpWithin {Key Item : Type} [DecidableEq Key] [DecidableEq Item]
    {dict : Dict Key (Dict Item Nat)} {docs : List (Key × List Item)}
    (counted : CountsWithin dict docs) (more : List (Key × List Item)) :
    CountsWithin (more.foldl (fun df doc => Dict.bumpWithin df doc.1 doc.2) dict)
      (more ++ docs) := by
  induction more generalizing dict docs with
  | nil => exact counted
  | cons head rest ih =>
      refine (ih (counted.bumpWithin head.1 head.2)).of_perm ?_
      exact List.perm_middle

theorem foldl_countAttrs (dict : Dict String (Dict (String × String) Nat)) :
    fps.foldl (fun df entry => countAttrs settings df entry.2 (listings.lookup entry.1)) dict =
      (attrDocs settings (fun listing => listings.lookup listing) fps).foldl
        (fun df doc => Dict.bumpWithin df doc.1 doc.2) dict := by
  induction fps generalizing dict with
  | nil => rfl
  | cons head rest ih =>
      rw [List.foldl_cons, ih, attrDocs, attrDocs, List.filterMap_cons]
      cases listings.lookup head.1 with
      | none => rfl
      | some listing => rfl

/-- What the counts of a cohort count. -/
structure FeaturesOf (counts : FeatureCounts) (fps : List (Nat × CohortFp))
    (attrs : List (String × List (String × String))) : Prop where
  blockDocs : Counts counts.blockDocs (fps.map fun entry => entry.2.block)
  blockTokenDf : CountsWithin counts.blockTokenDf
    (fps.map fun entry => (entry.2.block, entry.2.descTokens.dedup))
  corpusDocs : counts.corpusDocs = fps.length
  corpusTokenDf : Counts counts.corpusTokenDf (fps.flatMap fun entry => entry.2.descTokens.dedup)
  pinPop : Counts counts.pinPop (fps.filterMap fun entry => filled entry.2.pinKey)
  blockAttrDf : CountsWithin counts.blockAttrDf attrs

theorem lengths_foldl_push {Key Item Entry : Type} [DecidableEq Key] (key : Entry → Key)
    (item : Entry → Item) (entries : List Entry) (dict : Dict Key (List Item)) :
    Dict.mapValues List.length
        (entries.foldl (fun dict entry => Dict.push dict (key entry) (item entry)) dict) =
      (Dict.mapValues List.length dict).bumpAll (entries.map key) := by
  induction entries generalizing dict with
  | nil => rfl
  | cons head rest ih =>
      rw [List.foldl_cons, ih, lengths_push]
      rfl

theorem featureCounts_counts :
    FeaturesOf (featureCounts settings fps listings) fps
      (attrDocs settings (fun listing => listings.lookup listing) fps) where
  blockDocs := by
    rw [featureCounts]
    dsimp only
    rw [lengths_foldl_push (fun entry : Nat × CohortFp => entry.2.block) Prod.fst]
    have counted := Counts.nil.bumpAll (fps.map fun entry => entry.2.block)
    rwa [List.append_nil] at counted
  blockTokenDf := by
    have counted := foldl_bumpWithin CountsWithin.nil
      (fps.map fun entry => (entry.2.block, entry.2.descTokens.dedup))
    rw [List.foldl_map, List.append_nil] at counted
    exact counted
  corpusDocs := rfl
  corpusTokenDf := by
    rw [featureCounts]
    dsimp only
    rw [foldl_bumpAll]
    have counted := Counts.nil.bumpAll (fps.flatMap fun entry => entry.2.descTokens.dedup)
    rwa [List.append_nil] at counted
  pinPop := by
    have counted := Counts.nil.bumpAll (fps.filterMap fun entry => filled entry.2.pinKey)
    rw [List.append_nil] at counted
    rw [featureCounts]
    dsimp only
    rw [foldl_countPin]
    exact counted
  blockAttrDf := by
    have counted := foldl_bumpWithin CountsWithin.nil
      (attrDocs settings (fun listing => listings.lookup listing) fps)
    rw [List.append_nil] at counted
    rw [featureCounts]
    dsimp only
    rw [foldl_countAttrs]
    exact counted

end FeatureCounts

/-! ### Postings -/

/-- The keys posted under one probe. -/
def keysUnder {Decile : Type} (probe : Probe) (posted : List (Probe × ProbeKey Decile)) :
    List (ProbeKey Decile) :=
  (posted.filter fun entry => decide (entry.1 = probe)).map Prod.snd

theorem keysUnder_append {Decile : Type} (probe : Probe)
    (left right : List (Probe × ProbeKey Decile)) :
    keysUnder probe (left ++ right) = keysUnder probe left ++ keysUnder probe right := by
  rw [keysUnder, List.filter_append, List.map_append]
  rfl

section Postings

variable (settings : BlockSettings)

/-- How many listings each key holds is how often it is posted. -/
theorem postingsOf_counts (cuts : Dict Cohort (List ℚ)) (fps : List (Nat × CohortFp))
    (probe : Probe) :
    Counts ((postingsOf settings cuts fps probe).mapValues List.length)
      (keysUnder probe (fps.flatMap fun entry => indexKeys settings cuts entry.2)) := by
  have counted := Counts.nil.bumpAll
    (keysUnder probe (fps.flatMap fun entry => indexKeys settings cuts entry.2))
  rw [List.append_nil] at counted
  refine Eq.mp (congrArg (fun dict => Counts dict _) ?_) counted
  have filtered : ∀ (posted : List ((Probe × ProbeKey Nat) × Nat))
      (bucket : Dict (ProbeKey Nat) (List Nat)),
      Dict.mapValues List.length (posted.foldl (fun bucket posted =>
        if posted.1.1 = probe then Dict.push bucket posted.1.2 posted.2 else bucket) bucket) =
      (Dict.mapValues List.length bucket).bumpAll (keysUnder probe (posted.map Prod.fst)) := by
    intro posted
    induction posted with
    | nil => exact fun _ => rfl
    | cons head rest ih =>
        intro bucket
        rw [List.foldl_cons, ih, keysUnder, keysUnder, List.map_cons, List.filter_cons]
        by_cases same : head.1.1 = probe
        · rw [if_pos same, if_pos (decide_eq_true same), lengths_push]
          rfl
        · rw [if_neg same, if_neg (by simp [same])]
  rw [postingsOf, filtered, List.map_flatMap]
  congr 3
  funext entry
  rw [List.map_map]
  exact (List.map_id _).symm

/-- One chunk's postings counted with those before. -/
theorem countPostings_counts {postings : Probe → Dict (ProbeKey ℚ) Nat} {probe : Probe}
    {held : List (ProbeKey ℚ)} (counted : Counts (postings probe) held)
    (order : List (Nat × CohortFp)) :
    Counts (CalibrationCut.countPostings settings postings order probe)
      (keysUnder probe (order.flatMap fun entry => CalibrationCut.priceKeys settings entry.2) ++
        held) := by
  have filtered : ∀ (posted : List (Probe × ProbeKey ℚ)) {bucket : Dict (ProbeKey ℚ) Nat}
      {held : List (ProbeKey ℚ)}, Counts bucket held →
      Counts (posted.foldl (fun bucket posted =>
        if posted.1 = probe then Dict.bump bucket posted.2 1 else bucket) bucket)
        (keysUnder probe posted ++ held) := by
    intro posted
    induction posted with
    | nil => exact fun counted => counted
    | cons head rest ih =>
        intro bucket held counted
        rw [List.foldl_cons, keysUnder, List.filter_cons]
        by_cases same : head.1 = probe
        · rw [if_pos same, if_pos (decide_eq_true same)]
          refine (ih (counted.bump head.2 Nat.one_pos)).of_perm ?_
          exact List.perm_middle
        · rw [if_neg same, if_neg (by simp [same])]
          exact ih counted
  exact filtered _ counted

/-- A listing's keys are its price keys, each under its decile. -/
theorem indexKeys_eq_map (cuts : Dict Cohort (List ℚ)) (fp : CohortFp) :
    indexKeys settings cuts fp = (CalibrationCut.priceKeys settings fp).map fun posted =>
      (posted.1, CalibrationCut.atDecile cuts posted.2) := by
  have plain : ∀ (probe : Probe) (parts : Option (List KeyPart)),
      (plainKey probe parts : List (Probe × ProbeKey Nat)) =
        (plainKey probe parts : List (Probe × ProbeKey ℚ)).map fun posted =>
          (posted.1, CalibrationCut.atDecile cuts posted.2) := by
    intro probe parts
    cases parts with
    | none => rfl
    | some parts => rfl
  have broker : (((filled fp.brokerKey).map fun broker =>
      (Probe.broker, ProbeKey.broker broker fp.catGroup fp.categoryType
        (if (filled fp.brokerKey).isSome = true then priceDecile cuts fp else none))).toList) =
      ((((filled fp.brokerKey).map fun broker =>
        (Probe.broker, ProbeKey.broker broker fp.catGroup fp.categoryType
          (if (filled fp.brokerKey).isSome = true then fp.price else none))).toList).map
            fun posted => (posted.1, CalibrationCut.atDecile cuts posted.2)) := by
    cases filled fp.brokerKey with
    | none => rfl
    | some broker => rfl
  simp only [indexKeys, CalibrationCut.priceKeys, postingKeys, List.map_append, plain, broker,
    List.map_map]
  congr 7
  · split_ifs
    · rw [List.map_map]
      rfl
    · rfl

end Postings

/-! ### One chunk after another -/

section Folding

variable (referenceCodes : Option String → Finset String) (settings : BlockSettings)
  (facts : Nat → Option CohortListing)

/-- The adverts that print a code. -/
def printing (listings : List (Nat × CohortListing)) : Dict Nat Carrier :=
  (listings.filter fun entry =>
    decide (referenceCodes entry.2.carrier.description ≠ ∅)).map fun entry =>
      (entry.1, entry.2.carrier)

/-- A cut that has folded some adverts, in listing order, and read some facts. -/
structure Folded (seen : List (Nat × CohortFp)) (read : List (Nat × CohortListing))
    (cut : CalibrationCut) : Prop where
  nListings : cut.nListings = seen.length
  lastId : cut.lastId = seen.getLast?.map Prod.fst
  prices : cut.prices = seen.foldl (fun groups entry => addPrice groups entry.2) []
  postings : ∀ probe, Counts (cut.postings probe)
    (keysUnder probe (seen.flatMap fun entry => CalibrationCut.priceKeys settings entry.2))
  blockDocs : Counts cut.blockDocs (seen.map fun entry => entry.2.block)
  blockTokenDf : CountsWithin cut.blockTokenDf
    (seen.map fun entry => (entry.2.block, entry.2.descTokens.dedup))
  corpusDocs : cut.corpusDocs = seen.length
  corpusTokenDf : Counts cut.corpusTokenDf (seen.flatMap fun entry => entry.2.descTokens.dedup)
  blockAttrDf : CountsWithin cut.blockAttrDf (attrDocs settings facts seen)
  pinPop : Counts cut.pinPop (seen.filterMap fun entry => filled entry.2.pinKey)
  carriers : cut.carriers = printing referenceCodes read

theorem Folded.start : Folded referenceCodes settings facts [] [] {} where
  nListings := rfl
  lastId := rfl
  prices := rfl
  postings _ := Counts.nil
  blockDocs := Counts.nil
  blockTokenDf := CountsWithin.nil
  corpusDocs := rfl
  corpusTokenDf := Counts.nil
  blockAttrDf := CountsWithin.nil
  pinPop := Counts.nil
  carriers := rfl

variable {referenceCodes settings facts}

/-- A key not held goes to the end. -/
theorem update_of_absent {Key Value : Type} [DecidableEq Key] {dict : Dict Key Value} {key : Key}
    (absent : key ∉ dict.map Prod.fst) (change : Option Value → Value) :
    dict.update key change = dict ++ [(key, change none)] := if_neg absent

theorem foldl_carriers {read more : List (Nat × CohortListing)}
    (keyed : Keyed Prod.fst (read ++ more)) :
    more.foldl (fun carriers entry =>
      if referenceCodes entry.2.carrier.description ≠ ∅ then
        Dict.update carriers entry.1 fun _ => entry.2.carrier
      else carriers) (printing referenceCodes read) = printing referenceCodes (read ++ more) := by
  induction more generalizing read with
  | nil => rw [List.append_nil]; rfl
  | cons head rest ih =>
      have again : Keyed Prod.fst ((read ++ [head]) ++ rest) := by
        rwa [List.append_assoc]
      have absent : head.1 ∉ (printing referenceCodes read).map Prod.fst := by
        intro held
        obtain ⟨entry, inside, same⟩ := List.mem_map.mp held
        obtain ⟨old, oldHeld, rfl⟩ := List.mem_map.mp inside
        rw [Keyed, List.map_append] at keyed
        exact (List.nodup_append.mp keyed).2.2 old.1
          (List.mem_map_of_mem (List.mem_of_mem_filter oldHeld)) head.1
          (List.mem_map_of_mem List.mem_cons_self) same
      have step : (if referenceCodes head.2.carrier.description ≠ ∅ then
          Dict.update (printing referenceCodes read) head.1 fun _ => head.2.carrier
          else printing referenceCodes read) = printing referenceCodes (read ++ [head]) := by
        rw [printing, printing, List.filter_append, List.map_append]
        split_ifs with prints
        · rw [List.filter_cons, if_pos (decide_eq_true prints)]
          exact update_of_absent absent _
        · rw [List.filter_cons, if_neg (by simpa using prints), List.filter_nil, List.map_nil,
            List.append_nil]
      rw [List.foldl_cons, step, ih again, List.append_assoc]
      rfl

theorem Folded.fold {seen : List (Nat × CohortFp)} {read : List (Nat × CohortListing)}
    {cut : CalibrationCut} (held : Folded referenceCodes settings facts seen read cut)
    {chunk : Chunk}
    (above : ∀ earlier ∈ seen, ∀ entry ∈ chunk.fps, earlier.1 < entry.1)
    (together : ∀ entry ∈ chunk.fps, chunk.listings.lookup entry.1 = facts entry.1)
    (keyed : Keyed Prod.fst (read ++ chunk.listings)) :
    ∃ next, cut.fold referenceCodes settings chunk = .ok next ∧
      Folded referenceCodes settings facts (seen ++ sortedBy Prod.fst chunk.fps)
        (read ++ chunk.listings) next := by
  have order := sortedBy_perm Prod.fst chunk.fps
  have counted := featureCounts_counts settings chunk.fps chunk.listings
  have attrs : attrDocs settings (fun listing => chunk.listings.lookup listing) chunk.fps =
      attrDocs settings facts chunk.fps := by
    apply List.filterMap_congr
    intro entry inside
    exact congrArg (Option.map _) (together entry inside)
  rw [attrs] at counted
  have fresh : ((sortedBy Prod.fst chunk.fps).head?.bind fun first =>
      cut.lastId.bind fun last => if first.1 ≤ last then some (first.1, last) else none) =
        none := by
    cases first : (sortedBy Prod.fst chunk.fps).head? with
    | none => rfl
    | some entry =>
        have inside : entry ∈ chunk.fps := mem_sortedBy.mp (List.mem_of_mem_head? first)
        rw [held.lastId]
        cases last : seen.getLast? with
        | none => rfl
        | some earlier =>
            have before := above earlier (List.mem_of_getLast? last) entry inside
            exact if_neg (not_le.mpr before)
  refine ⟨_, by rw [CalibrationCut.fold]; dsimp only; rw [fresh], ?_⟩
  have moved : (chunk.fps ++ seen).Perm (seen ++ sortedBy Prod.fst chunk.fps) :=
    List.perm_append_comm.trans (order.symm.append_left seen)
  constructor
  · rw [List.length_append, order.length_eq, ← held.nListings]
  · rw [List.getLast?_append, Option.map_or, ← held.lastId]
  · rw [List.foldl_append, ← held.prices]
  · intro probe
    have posted := countPostings_counts settings (held.postings probe)
      (sortedBy Prod.fst chunk.fps)
    rw [List.flatMap_append, keysUnder_append]
    exact posted.of_perm List.perm_append_comm
  · have docs := held.blockDocs.add counted.blockDocs
    rw [← List.map_append] at docs
    exact docs.of_perm (moved.map _)
  · have docs := held.blockTokenDf.addWithin counted.blockTokenDf
    rw [← List.map_append] at docs
    exact docs.of_perm (moved.map _)
  · dsimp only
    rw [held.corpusDocs, counted.corpusDocs, List.length_append, order.length_eq]
  · have tokens := held.corpusTokenDf.add counted.corpusTokenDf
    rw [← List.flatMap_append] at tokens
    exact tokens.of_perm (moved.flatMap_right _)
  · have docs := held.blockAttrDf.addWithin counted.blockAttrDf
    rw [attrDocs, attrDocs, ← List.filterMap_append] at docs
    exact docs.of_perm (moved.filterMap _)
  · have pins := held.pinPop.add counted.pinPop
    rw [← List.filterMap_append] at pins
    exact pins.of_perm (moved.filterMap _)
  · dsimp only
    rw [held.carriers]
    exact foldl_carriers keyed

theorem Folded.foldAll {seen : List (Nat × CohortFp)} {read : List (Nat × CohortListing)}
    {cut : CalibrationCut} (held : Folded referenceCodes settings facts seen read cut)
    {chunks : List Chunk}
    (above : ∀ earlier ∈ seen, ∀ chunk ∈ chunks, ∀ entry ∈ chunk.fps, earlier.1 < entry.1)
    (ascending : chunks.Pairwise fun earlier later =>
      ∀ one ∈ earlier.fps, ∀ other ∈ later.fps, one.1 < other.1)
    (together : ∀ chunk ∈ chunks, ∀ entry ∈ chunk.fps,
      chunk.listings.lookup entry.1 = facts entry.1)
    (keyed : Keyed Prod.fst (read ++ chunks.flatMap Chunk.listings)) :
    ∃ next, cut.foldAll referenceCodes settings chunks = .ok next ∧
      Folded referenceCodes settings facts
        (seen ++ chunks.flatMap fun chunk => sortedBy Prod.fst chunk.fps)
        (read ++ chunks.flatMap Chunk.listings) next := by
  induction chunks generalizing seen read cut with
  | nil =>
      rw [List.flatMap_nil, List.flatMap_nil, List.append_nil, List.append_nil]
      exact ⟨cut, rfl, held⟩
  | cons chunk rest ih =>
      obtain ⟨after, restAscending⟩ := List.pairwise_cons.mp ascending
      rw [List.flatMap_cons, ← List.append_assoc] at keyed
      have chunkKeyed : Keyed Prod.fst (read ++ chunk.listings) := by
        rw [Keyed, List.map_append] at keyed
        exact (List.nodup_append.mp keyed).1
      obtain ⟨next, folded, nextHeld⟩ := held.fold
        (fun earlier inside => above earlier inside chunk List.mem_cons_self)
        (together chunk List.mem_cons_self) chunkKeyed
      have nextAbove : ∀ earlier ∈ seen ++ sortedBy Prod.fst chunk.fps, ∀ later ∈ rest,
          ∀ entry ∈ later.fps, earlier.1 < entry.1 := by
        intro earlier inside later laterHeld
        rcases List.mem_append.mp inside with before | here
        · exact above earlier before later (List.mem_cons_of_mem _ laterHeld)
        · exact after later laterHeld earlier (mem_sortedBy.mp here)
      obtain ⟨last, run, lastHeld⟩ := ih nextHeld nextAbove restAscending
        (fun other later => together other (List.mem_cons_of_mem _ later)) keyed
      refine ⟨last, ?_, ?_⟩
      · rw [CalibrationCut.foldAll, folded]
        exact run
      · rw [List.flatMap_cons, List.flatMap_cons, ← List.append_assoc, ← List.append_assoc]
        exact lastHeld

end Folding

/-- A cohort cut into chunks: each advert in one of them, with its facts, and the ids ascending
from chunk to chunk. -/
structure CutInto (fps : List (Nat × CohortFp)) (listings : List (Nat × CohortListing))
    (chunks : List Chunk) : Prop where
  fpsKeyed : Keyed Prod.fst fps
  listingsKeyed : Keyed Prod.fst listings
  fps_perm : (chunks.flatMap Chunk.fps).Perm fps
  listings_perm : (chunks.flatMap Chunk.listings).Perm listings
  ascending : chunks.Pairwise fun earlier later =>
    ∀ one ∈ earlier.fps, ∀ other ∈ later.fps, one.1 < other.1
  together : ∀ chunk ∈ chunks, ∀ entry ∈ chunk.fps,
    chunk.listings.lookup entry.1 = listings.lookup entry.1

namespace CutInto

variable {fps : List (Nat × CohortFp)} {listings : List (Nat × CohortListing)}
  {chunks : List Chunk}

/-- The chunks in order, each in listing order, are the cohort in listing order. -/
theorem order_eq (cut : CutInto fps listings chunks) :
    chunks.flatMap (fun chunk => sortedBy Prod.fst chunk.fps) = sortedBy Prod.fst fps := by
  have perm : (chunks.flatMap fun chunk => sortedBy Prod.fst chunk.fps).Perm fps :=
    (List.Perm.flatMap_left chunks fun chunk _ => sortedBy_perm Prod.fst chunk.fps).trans
      cut.fps_perm
  have ordered : (chunks.flatMap fun chunk => sortedBy Prod.fst chunk.fps).Pairwise
      fun one other => one.1 ≤ other.1 := by
    have ascending := cut.ascending
    clear perm cut
    induction chunks with
    | nil => exact List.Pairwise.nil
    | cons chunk rest ih =>
        obtain ⟨after, restAscending⟩ := List.pairwise_cons.mp ascending
        rw [List.flatMap_cons]
        refine List.pairwise_append.mpr ⟨pairwise_sortedBy _ _, ih restAscending, ?_⟩
        intro one oneHeld other otherHeld
        obtain ⟨later, laterHeld, inside⟩ := List.mem_flatMap.mp otherHeld
        exact (after later laterHeld one (mem_sortedBy.mp oneHeld) other
          (mem_sortedBy.mp inside)).le
  rw [← sortedBy_eq_self ordered]
  refine sortedBy_eq_of_perm perm fun one oneHeld other otherHeld same => ?_
  exact cut.fpsKeyed.eq (perm.mem_iff.mp oneHeld) (perm.mem_iff.mp otherHeld) same

/-- The whole cohort folded. -/
theorem folded (cut : CutInto fps listings chunks)
    (referenceCodes : Option String → Finset String) (settings : BlockSettings) :
    ∃ next, CalibrationCut.foldAll referenceCodes settings {} chunks = .ok next ∧
      Folded referenceCodes settings (fun listing => listings.lookup listing)
        (sortedBy Prod.fst fps) (chunks.flatMap Chunk.listings) next := by
  have keyed : Keyed Prod.fst (chunks.flatMap Chunk.listings) :=
    (cut.listings_perm.map Prod.fst).nodup_iff.mpr cut.listingsKeyed
  have run := (Folded.start referenceCodes settings fun listing => listings.lookup listing).foldAll
    (fun _ inside => absurd inside List.not_mem_nil) cut.ascending cut.together keyed
  rwa [List.nil_append, List.nil_append, cut.order_eq] at run

end CutInto

/-! ### Exploded keys -/

theorem explodedKeys_perm {Key : Type} [DecidableEq Key] (settings : BlockSettings)
    {left right : Dict Key Nat} {keys more : List Key} (counted : Counts left keys)
    (other : Counts right more) (same : keys.Perm more) :
    (explodedKeys settings left).Perm (explodedKeys settings right) :=
  ((perm_of_lookup_eq counted.keyed other.keyed fun key =>
    counted.lookup_eq other same key).filter _).map _

/-- Only the broker's probe posts a key that ends in a decile. -/
theorem plain_of_postingKeys {Decile : Type} {settings : BlockSettings} {fp : CohortFp}
    {decile : Option Decile} {posted : Probe × ProbeKey Decile}
    (held : posted ∈ postingKeys settings fp decile) (other : posted.1 ≠ .broker) :
    ∃ parts, posted.2 = .plain parts := by
  have plain : ∀ {probe : Probe} {parts : Option (List KeyPart)},
      posted ∈ plainKey probe parts → ∃ parts, posted.2 = .plain parts := by
    intro probe parts inside
    cases parts with
    | none => cases inside
    | some parts => exact ⟨parts, congrArg Prod.snd (List.mem_singleton.mp inside)⟩
  simp only [postingKeys, List.mem_append] at held
  rcases held with (((((((addr | phash) | text) | broker) | dispo) | area) | foreign) | town) |
    quarter
  · exact plain addr
  · obtain ⟨band, -, rfl⟩ := List.mem_map.mp phash
    exact ⟨_, rfl⟩
  · split_ifs at text
    · obtain ⟨band, -, rfl⟩ := List.mem_map.mp text
      exact ⟨_, rfl⟩
    · cases text
  · obtain ⟨key, -, rfl⟩ := Option.map_eq_some_iff.mp (Option.mem_toList.mp broker)
    exact absurd rfl other
  · exact plain dispo
  · exact plain area
  · exact plain foreign
  · exact plain town
  · exact plain quarter

/-- The streamed counts of a probe, under deciles. -/
theorem decileCounts_counts (settings : BlockSettings) (cuts : Dict Cohort (List ℚ))
    (fps : List (Nat × CohortFp)) {probe : Probe} {counts : Dict (ProbeKey ℚ) Nat}
    (counted : Counts counts
      (keysUnder probe (fps.flatMap fun entry => CalibrationCut.priceKeys settings entry.2))) :
    Counts (CalibrationCut.decileCounts cuts probe counts)
      (keysUnder probe (fps.flatMap fun entry => indexKeys settings cuts entry.2)) := by
  have keys : keysUnder probe (fps.flatMap fun entry => indexKeys settings cuts entry.2) =
      (keysUnder probe (fps.flatMap fun entry =>
        CalibrationCut.priceKeys settings entry.2)).map (CalibrationCut.atDecile cuts) := by
    simp only [keysUnder, indexKeys_eq_map, List.map_map, ← List.map_flatMap, List.filter_map]
    rfl
  rw [keys, CalibrationCut.decileCounts]
  split_ifs with broker
  · have summed := Counts.nil.addUnder (CalibrationCut.atDecile cuts) counted
    rwa [List.append_nil] at summed
  · apply counted.map_keys
    have plain : ∀ key ∈ keysUnder probe (fps.flatMap fun entry =>
        CalibrationCut.priceKeys settings entry.2), ∃ parts, key = .plain parts := by
      intro key held
      obtain ⟨posted, inside, rfl⟩ := List.mem_map.mp held
      obtain ⟨listed, same⟩ := List.mem_filter.mp inside
      obtain ⟨entry, -, posting⟩ := List.mem_flatMap.mp listed
      exact plain_of_postingKeys posting ((of_decide_eq_true same).trans_ne broker)
    intro one oneHeld other otherHeld same
    obtain ⟨parts, rfl⟩ := plain one oneHeld
    obtain ⟨parts', rfl⟩ := plain other otherHeld
    exact congrArg ProbeKey.plain (ProbeKey.plain.inj same)

/-! ### Attribute names -/

theorem rekey_eq_map {Key Name Value : Type} [DecidableEq Name] (name : Key → Name)
    {dict : Dict Key Value} (distinct : (dict.map fun row => name row.1).Nodup) :
    rekey name dict = dict.map fun row => (name row.1, row.2) := by
  have onto : ∀ (rows : Dict Key Value) (held : Dict Name Value),
      (held.map Prod.fst ++ rows.map fun row => name row.1).Nodup →
      rows.foldl (fun named row => Dict.update named (name row.1) fun _ => row.2) held =
        held ++ rows.map fun row => (name row.1, row.2) := by
    intro rows
    induction rows with
    | nil => exact fun held _ => (List.append_nil held).symm
    | cons row rest ih =>
        intro held apart
        have absent : name row.1 ∉ held.map Prod.fst := fun inside =>
          (List.nodup_append.mp apart).2.2 _ inside _ List.mem_cons_self rfl
        rw [List.foldl_cons, update_of_absent absent, ih, List.append_assoc]
        · rfl
        · rwa [List.map_append, List.append_assoc]
  exact onto dict [] distinct

/-- Rows under distinct names answer alike, whatever their order. -/
theorem rekey_answers {Key Name Value : Type} [DecidableEq Name] (name : Key → Name)
    {left right : Dict Key Value} (distinct : (left.map fun row => name row.1).Nodup)
    (same : left.Perm right) : (rekey name left).answers = (rekey name right).answers := by
  have rightDistinct : (right.map fun row => name row.1).Nodup :=
    (same.map _).nodup_iff.mp distinct
  have keyed : ∀ {dict : Dict Key Value}, (dict.map fun row => name row.1).Nodup →
      Keyed Prod.fst (dict.map fun row => (name row.1, row.2)) := by
    intro dict distinct
    rw [Keyed, List.map_map]
    exact distinct
  rw [rekey_eq_map name distinct, rekey_eq_map name rightDistinct]
  funext key
  apply Option.ext
  intro value
  rw [answers, answers, (keyed distinct).lookup, (keyed rightDistinct).lookup]
  exact (same.map _).mem_iff

/-- An attribute's name holds no separator, so its token tells it from its value. -/
theorem attrToken_inj {one other : String × String}
    (oneKey : one.1 ∈ attrKeys ++ conflatedAttrKeys)
    (otherKey : other.1 ∈ attrKeys ++ conflatedAttrKeys) (same : attrToken one = attrToken other) :
    one = other := by
  have plain : ∀ key ∈ attrKeys ++ conflatedAttrKeys, '\x1f' ∉ key.toList := by decide +kernel
  have lists : one.1.toList ++ '\x1f' :: one.2.toList =
      other.1.toList ++ '\x1f' :: other.2.toList := by
    have tokens := congrArg String.toList same
    simpa [attrToken, keySeparator] using tokens
  have before : ∀ {key rest : List Char}, '\x1f' ∉ key →
      (key ++ '\x1f' :: rest).takeWhile (fun char => decide (char ≠ '\x1f')) = key := by
    intro key rest absent
    rw [List.takeWhile_append_of_pos, List.takeWhile_cons_of_neg (by simp), List.append_nil]
    intro char held
    exact decide_eq_true fun same => absent (same ▸ held)
  have keys : one.1.toList = other.1.toList := by
    rw [← @before _ one.2.toList (plain one.1 oneKey), lists, before (plain other.1 otherKey)]
  rw [keys] at lists
  have values := (List.cons.inj (List.append_cancel_left lists)).2
  exact Prod.ext (String.toList_inj.mp keys) (String.toList_inj.mp values)

/-! ### Reference codes -/

section Codes

variable {referenceCodes : Option String → Finset String}

/-- The rows of those who print a code. -/
def printersOf (referenceCodes : Option String → Finset String) (carriers : Dict Nat Carrier)
    (code : String) : Dict Nat Carrier :=
  carriers.filter fun entry => decide (code ∈ referenceCodes entry.2.description)

theorem areaSpread_perm {left right : List ℚ} (same : left.Perm right) :
    areaSpread left = areaSpread right := by
  have most : left.max? = right.max? := by
    apply Option.ext
    intro value
    rw [List.max?_eq_some_iff, List.max?_eq_some_iff]
    simp only [same.mem_iff]
  have least : left.min? = right.min? := by
    apply Option.ext
    intro value
    rw [List.min?_eq_some_iff, List.min?_eq_some_iff]
    simp only [same.mem_iff]
  rw [areaSpread, areaSpread, most, least]

/-- What is read of a code's members is read of its printers. -/
theorem membersOf_filterMap {carriers : Dict Nat Carrier} (keyed : Keyed Prod.fst carriers)
    (code : String) {Value : Type} (read : Carrier → Option Value) :
    (membersOf referenceCodes carriers code).filterMap
        (fun listing => (carriers.lookup listing).bind read) =
      (printersOf referenceCodes carriers code).filterMap fun entry => read entry.2 := by
  rw [membersOf, List.filterMap_map, printersOf]
  apply List.filterMap_congr
  intro entry held
  dsimp only [Function.comp]
  rw [keyed.lookup.mpr (List.mem_of_mem_filter held)]
  rfl

/-- The verdict on a code reads its printers, in any order. -/
theorem codeCertifies_eq {left right : Dict Nat Carrier} (leftKeyed : Keyed Prod.fst left)
    (rightKeyed : Keyed Prod.fst right) {code : String}
    (same : (printersOf referenceCodes left code).Perm (printersOf referenceCodes right code)) :
    codeCertifies referenceCodes left code = codeCertifies referenceCodes right code := by
  have count : (membersOf referenceCodes left code).length =
      (membersOf referenceCodes right code).length := by
    rw [membersOf, membersOf, List.length_map, List.length_map]
    exact same.length_eq
  have spread := areaSpread_perm
    ((same.filterMap fun entry => entry.2.areaM2).filter fun area => decide (0 < area))
  have kinds := (same.filterMap fun entry => entry.2.disposition).dedup.length_eq
  rw [codeCertifies, codeCertifies]
  dsimp only
  rw [count, membersOf_filterMap leftKeyed, membersOf_filterMap rightKeyed,
    membersOf_filterMap leftKeyed, membersOf_filterMap rightKeyed, spread, kinds]

/-- The adverts that print a code decide the codes that certify. -/
theorem certifyingCodes_printing {read listings : List (Nat × CohortListing)}
    (same : read.Perm listings) (keyed : Keyed Prod.fst listings) :
    certifyingCodes referenceCodes (printing referenceCodes read) =
      certifyingCodes referenceCodes (listings.map fun entry => (entry.1, entry.2.carrier)) := by
  have wholeKeyed : Keyed Prod.fst (listings.map fun entry => (entry.1, entry.2.carrier)) := by
    rw [Keyed, List.map_map]
    exact keyed
  have readKeyed : Keyed Prod.fst read := (same.map Prod.fst).nodup_iff.mpr keyed
  have printedKeyed : Keyed Prod.fst (printing referenceCodes read) := by
    rw [Keyed, printing, List.map_map]
    exact readKeyed.filter _
  have printers : ∀ code, (printersOf referenceCodes (printing referenceCodes read) code).Perm
      (printersOf referenceCodes (listings.map fun entry => (entry.1, entry.2.carrier)) code) := by
    intro code
    have kept : printersOf referenceCodes (printing referenceCodes read) code =
        printersOf referenceCodes (read.map fun entry => (entry.1, entry.2.carrier)) code := by
      rw [printersOf, printersOf, printing, List.filter_map, List.filter_map, List.filter_filter]
      congr 1
      apply List.filter_congr
      intro entry _
      dsimp only [Function.comp]
      by_cases prints : code ∈ referenceCodes entry.2.carrier.description
      · have some_ : referenceCodes entry.2.carrier.description ≠ ∅ :=
          Finset.ne_empty_of_mem prints
        simp [prints, some_]
      · simp [prints]
    rw [kept]
    exact (same.map _).filter _
  refine sortedIds_eq_of_mem_iff (List.nodup_dedup _) (List.nodup_dedup _) fun code => ?_
  rw [List.mem_dedup, List.mem_dedup, List.mem_flatMap, List.mem_flatMap]
  have certified := codeCertifies_eq printedKeyed wholeKeyed (printers code)
  simp only [List.mem_filter, mem_ascending, certified]
  have named := (printers code)
  constructor
  · rintro ⟨entry, held, prints, verdict⟩
    have inside : entry ∈ printersOf referenceCodes (printing referenceCodes read) code :=
      List.mem_filter.mpr ⟨held, decide_eq_true prints⟩
    exact ⟨entry, List.mem_of_mem_filter (named.mem_iff.mp inside), prints, verdict⟩
  · rintro ⟨entry, held, prints, verdict⟩
    have inside : entry ∈ printersOf referenceCodes
        (listings.map fun entry => (entry.1, entry.2.carrier)) code :=
      List.mem_filter.mpr ⟨held, decide_eq_true prints⟩
    exact ⟨entry, List.mem_of_mem_filter (named.mem_iff.mpr inside), prints, verdict⟩

end Codes

/-! ### The cut -/

/-- Attribute counts answer alike under their tokens. -/
theorem attrTokens_agree {settings : BlockSettings} {facts : Nat → Option CohortListing}
    {fps : List (Nat × CohortFp)} (block : String) {one other : Dict (String × String) Nat}
    (oneCounts : Counts one (itemsUnder (attrDocs settings facts fps) block))
    (otherCounts : Counts other (itemsUnder (attrDocs settings facts fps) block)) :
    (rekey attrToken one).answers = (rekey attrToken other).answers := by
  have named : ∀ pair ∈ itemsUnder (attrDocs settings facts fps) block,
      pair.1 ∈ attrKeys ++ conflatedAttrKeys := by
    intro pair held
    obtain ⟨doc, docHeld, inside⟩ := List.mem_flatMap.mp held
    obtain ⟨entry, -, read⟩ := List.mem_filterMap.mp (List.mem_of_mem_filter docHeld)
    obtain ⟨listing, -, rfl⟩ := Option.map_eq_some_iff.mp read
    obtain ⟨key, keyHeld, token⟩ := List.mem_filterMap.mp inside
    obtain ⟨value, -, rfl⟩ := Option.map_eq_some_iff.mp token
    exact List.mem_of_mem_filter keyHeld
  refine rekey_answers attrToken ?_ (perm_of_lookup_eq oneCounts.keyed otherCounts.keyed fun pair =>
    oneCounts.lookup_eq otherCounts (List.Perm.refl _) pair)
  refine List.Nodup.map_on ?_ oneCounts.keyed.nodup
  intro row held row' held' same
  exact oneCounts.keyed.eq held held' (attrToken_inj (named row.1 (oneCounts.key_mem held))
    (named row'.1 (oneCounts.key_mem held')) same)

/-- However a cohort is cut into chunks of ascending ids, the chunks are taken one after another
and the calibration they build is the cohort's. -/
theorem streamed_cut_eq (referenceCodes : Option String → Finset String)
    (settings : BlockSettings) (generation : String) {fps : List (Nat × CohortFp)}
    {listings : List (Nat × CohortListing)} {chunks : List Chunk}
    (cut : CutInto fps listings chunks) :
    ∃ streamed, CalibrationCut.foldAll referenceCodes settings {} chunks = .ok streamed ∧
      streamed.build referenceCodes settings generation =
        buildCalibration referenceCodes settings fps listings generation := by
  obtain ⟨streamed, run, held⟩ := cut.folded referenceCodes settings
  refine ⟨streamed, run, ?_⟩
  have order := sortedBy_perm Prod.fst fps
  have whole := featureCounts_counts settings fps listings
  have prices : streamed.prices.mapValues decileCuts = priceCutsOf (sortedBy Prod.fst fps) := by
    rw [held.prices]
    rfl
  have exploded : ∀ probe, sortedIds ((explodedKeys settings (CalibrationCut.decileCounts
      (priceCutsOf (sortedBy Prod.fst fps)) probe (streamed.postings probe))).map ProbeKey.token) =
      sortedIds ((explodedKeys settings ((postingsOf settings
        (priceCutsOf (sortedBy Prod.fst fps)) (sortedBy Prod.fst fps) probe).mapValues
          List.length)).map ProbeKey.token) := fun probe =>
    sortedIds_eq_of_perm ((explodedKeys_perm settings
      (decileCounts_counts settings _ _ (held.postings probe))
      (postingsOf_counts settings _ _ probe) (List.Perm.refl _)).map _)
  have attrs := held.blockAttrDf.answersWithin_mapValues_eq (rekey attrToken) whole.blockAttrDf
    (order.filterMap _) fun block _ _ oneCounts otherCounts =>
      attrTokens_agree block oneCounts otherCounts
  rw [CalibrationCut.build, buildCalibration, prices, held.nListings, order.length_eq,
    held.blockDocs.answers_eq whole.blockDocs (order.map _),
    held.blockTokenDf.answersWithin_eq whole.blockTokenDf (order.map _), held.corpusDocs,
    order.length_eq, ← whole.corpusDocs,
    held.corpusTokenDf.answers_eq whole.corpusTokenDf (order.flatMap_right _), attrs,
    held.pinPop.answers_eq whole.pinPop (order.filterMap _), held.carriers,
    certifyingCodes_printing cut.listings_perm cut.listingsKeyed]
  simp only [exploded]

/-- A flat of a broker, at a price. -/
def brokeredFlat (price : ℚ) : CohortFp where
  brokerKey := some "b:1"
  catGroup := some "byt"
  categoryType := some "prodej"
  blockKey := some "obec:563510"
  descTokens := ["prodej", "bytu"]
  price := some price

/-- Its facts, an order code among them. -/
def codedFlat : CohortListing where
  carrier := { description := some "zakázka N11000", disposition := some "2+kk", areaM2 := some 60 }
  slot := fun key => if key = "building_type" then some "cihlova" else none

/-- The codes two adverts print. -/
def printedCodes (text : Option String) : Finset String :=
  if text = some "zakázka N11000" then {"N11000"} else ∅

theorem streamed_cut_of_two :
    ∃ streamed, CalibrationCut.foldAll printedCodes ⟨1, true, ["price_unit"]⟩ {}
        [⟨[(1, brokeredFlat 5)], [(1, codedFlat)]⟩, ⟨[(2, brokeredFlat 7)], [(2, codedFlat)]⟩] =
          .ok streamed ∧
      streamed.build printedCodes ⟨1, true, ["price_unit"]⟩ "g1" =
        buildCalibration printedCodes ⟨1, true, ["price_unit"]⟩
          [(1, brokeredFlat 5), (2, brokeredFlat 7)] [(1, codedFlat), (2, codedFlat)] "g1" := by
  apply streamed_cut_eq
  refine ⟨by unfold Keyed; decide, by unfold Keyed; decide, List.Perm.refl _, List.Perm.refl _,
    ?_, ?_⟩
  · simp
  · intro chunk held entry inside
    rcases List.mem_cons.mp held with rfl | later
    · rw [List.mem_singleton.mp inside]
      rfl
    · rw [List.mem_singleton.mp later] at inside ⊢
      rw [List.mem_singleton.mp inside]
      rfl

end Sreality.Autodedup
