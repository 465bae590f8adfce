import Mathlib.Data.List.Infix
import Sreality.Autodedup.ScoreChunks
import Sreality.Foundation.Rounds
import Sreality.Foundation.Tables

/-! Chunked scoring is invisible: a side is vectored from the first chunk that scores it to the
last, so every pair is scored on its sides' full galleries whatever the chunk size. -/

set_option autoImplicit false

namespace Sreality.Autodedup

open Sreality.Foundation

/-! ### The chunks -/

section Chunks

/-- The sides a chunk scores. -/
def chunkSides (chunk : List (Pair × Nat)) : List Nat :=
  chunk.flatMap fun entry => [entry.1.1, entry.1.2]

def firstIndex (chunk : List (Pair × Nat)) : Nat := (chunk.head?.map Prod.snd).getD 0

def lastIndex (chunk : List (Pair × Nat)) : Nat := (chunk.getLast?.map Prod.snd).getD 0

/-- The last chunk that scores the side. -/
def LastIn (chunks : List (List (Pair × Nat))) (side place : Nat) : Prop :=
  (∃ chunk, chunks[place]? = some chunk ∧ side ∈ chunkSides chunk) ∧
    ∀ later chunk, place < later → chunks[later]? = some chunk → side ∉ chunkSides chunk

/-- The chunks of the pairs scored, in order: none empty or past the size, each opened at its
first pair with its sides, and closed at its last with the sides no later chunk scores. -/
structure Chunked (entries : List (Pair × Nat)) (size : Nat)
    (maps : List (Nat × List Nat) × List (Nat × List Nat)) (chunks : List (List (Pair × Nat))) :
    Prop where
  flat : chunks.flatten = entries
  bounded : ∀ chunk ∈ chunks, 0 < chunk.length ∧ chunk.length ≤ size
  opens : maps.1 = chunks.map fun chunk => (firstIndex chunk, chunkSides chunk)
  closing : maps.2.map Prod.fst = chunks.map lastIndex
  closes : ∀ closed ∈ maps.2, ∃ place chunk, chunks[place]? = some chunk ∧
    closed.1 = lastIndex chunk ∧ ∀ side, side ∈ closed.2 ↔ LastIn chunks side place

theorem firstIndex_concat {chunk : List (Pair × Nat)} (some_ : chunk ≠ []) (entry : Pair × Nat) :
    firstIndex (chunk ++ [entry]) = firstIndex chunk := by
  cases chunk with
  | nil => exact absurd rfl some_
  | cons head rest => rfl

theorem lastIndex_concat (chunk : List (Pair × Nat)) (entry : Pair × Nat) :
    lastIndex (chunk ++ [entry]) = entry.2 := by
  unfold lastIndex
  rw [List.getLast?_concat]
  rfl

theorem mem_chunkSides_concat {chunk : List (Pair × Nat)} {entry : Pair × Nat} {side : Nat} :
    side ∈ chunkSides (chunk ++ [entry]) ↔
      side ∈ chunkSides chunk ∨ side = entry.1.1 ∨ side = entry.1.2 := by
  unfold chunkSides
  rw [List.flatMap_append, List.mem_append, List.flatMap_singleton]
  simp only [List.mem_cons, List.not_mem_nil, or_false]

/-- The last place of a side when a chunk is set after the others. -/
theorem lastIn_concat {front : List (List (Pair × Nat))} {chunk : List (Pair × Nat)}
    {side place : Nat} :
    LastIn (front ++ [chunk]) side place ↔
      side ∈ chunkSides chunk ∧ place = front.length ∨
        side ∉ chunkSides chunk ∧ LastIn front side place := by
  have placed : (front ++ [chunk])[front.length]? = some chunk := List.getElem?_concat_length
  have early : ∀ place, place < front.length → (front ++ [chunk])[place]? = front[place]? :=
    fun place before => List.getElem?_append_left before
  have beyond : ∀ place found, (front ++ [chunk])[place]? = some found →
      place < front.length ∨ place = front.length ∧ found = chunk := by
    intro place found known
    by_cases before : place < front.length
    · exact .inl before
    · have bound := (List.getElem?_eq_some_iff.mp known).1
      rw [List.length_append, List.length_singleton] at bound
      have same : place = front.length := by omega
      rw [same, placed] at known
      exact .inr ⟨same, (Option.some.inj known).symm⟩
  constructor
  · rintro ⟨⟨found, known, held⟩, after⟩
    rcases beyond place found known with before | ⟨same, rfl⟩
    · refine .inr ⟨after front.length chunk before placed, ⟨found, early place before ▸ known, held⟩,
        fun later other follows listed => ?_⟩
      have short := (List.getElem?_eq_some_iff.mp listed).1
      exact after later other follows ((early later short).trans listed)
    · exact .inl ⟨held, same⟩
  · rintro (⟨held, rfl⟩ | ⟨absent, ⟨found, known, held⟩, after⟩)
    · refine ⟨⟨chunk, placed, held⟩, fun later other follows listed => ?_⟩
      rcases beyond later other listed with before | ⟨same, _⟩
      · omega
      · omega
    · have short := (List.getElem?_eq_some_iff.mp known).1
      refine ⟨⟨found, (early place short).trans known, held⟩, fun later other follows listed => ?_⟩
      rcases beyond later other listed with before | ⟨_, rfl⟩
      · exact after later other follows ((early later before).symm.trans listed)
      · exact absent

theorem mem_setLast {last : List (Nat × Nat)} {side place other chunk : Nat} :
    (other, chunk) ∈ setLast last side place ↔
      other = side ∧ chunk = place ∨ other ≠ side ∧ (other, chunk) ∈ last := by
  unfold setLast
  simp only [List.mem_append, List.mem_filter, decide_eq_true_eq, List.mem_singleton,
    Prod.mk.injEq]
  tauto

/-- The running state of the cutting against the chunks it stands for. -/
structure Cutting.Cuts (size : Nat) (entries : List (Pair × Nat))
    (chunks : List (List (Pair × Nat))) (cutting : Cutting) : Prop where
  flat : chunks.flatten = entries
  filled : chunks = [] ∨ ∃ front chunk, chunks = front ++ [chunk] ∧
    (∀ one ∈ front, one.length = size) ∧ 0 < chunk.length ∧ chunk.length ≤ size
  taken : cutting.taken = entries.length
  opens : cutting.opens = chunks.map fun chunk => (firstIndex chunk, chunkSides chunk)
  ends : cutting.ends = chunks.map lastIndex
  last : ∀ side place, (side, place) ∈ cutting.last ↔ LastIn chunks side place

theorem length_flatten_const {size : Nat} {front : List (List (Pair × Nat))} :
    (∀ one ∈ front, one.length = size) → front.flatten.length = front.length * size := by
  induction front with
  | nil => exact fun _ => (Nat.zero_mul size).symm
  | cons chunk rest ih =>
      intro full
      rw [List.flatten_cons, List.length_append, full chunk List.mem_cons_self,
        ih fun one listed => full one (List.mem_cons_of_mem _ listed), List.length_cons,
        Nat.succ_mul, Nat.add_comm]

/-- A chunk is full exactly where the count of pairs taken is a multiple of the size. -/
theorem Cutting.Cuts.full_iff {size : Nat} {entries : List (Pair × Nat)}
    {chunks : List (List (Pair × Nat))} {cutting : Cutting}
    (cuts : cutting.Cuts size entries chunks) :
    chunks = [] ∨ (∃ front chunk, chunks = front ++ [chunk] ∧
      (∀ one ∈ front, one.length = size) ∧ 0 < chunk.length ∧ chunk.length ≤ size ∧
        (cutting.taken % size = 0 ↔ chunk.length = size)) := by
  rcases cuts.filled with none_ | ⟨front, chunk, rfl, full, some_, bound⟩
  · exact .inl none_
  · refine .inr ⟨front, chunk, rfl, full, some_, bound, ?_⟩
    have taken : cutting.taken = front.length * size + chunk.length := by
      rw [cuts.taken, ← cuts.flat, List.flatten_append, List.length_append,
        length_flatten_const full, List.flatten_singleton]
    rw [taken, Nat.mul_add_mod_self_right]
    constructor
    · intro even
      by_contra short
      rw [Nat.mod_eq_of_lt (by omega)] at even
      omega
    · intro same
      rw [same, Nat.mod_self]

theorem widenLast_concat (front : List (Nat × List Nat)) (opened : Nat × List Nat)
    (sides : List Nat) :
    widenLast (front ++ [opened]) sides = front ++ [(opened.1, opened.2 ++ sides)] := by
  unfold widenLast
  rw [List.dropLast_concat, List.getLast?_concat]
  rfl

theorem Cutting.Cuts.skip {scores : Pair → Bool} {size : Nat} {cutting : Cutting}
    {entry : Pair × Nat} (unscored : scores entry.1 = false) :
    cutting.step scores size entry = cutting := if_pos unscored

/-- One scored pair opens a chunk where the last is full, and else joins it. -/
theorem Cutting.Cuts.step {scores : Pair → Bool} {size : Nat} {entries : List (Pair × Nat)}
    {chunks : List (List (Pair × Nat))} {cutting : Cutting} {entry : Pair × Nat}
    (sized : 0 < size) (cuts : cutting.Cuts size entries chunks)
    (counts : scores entry.1 = true) :
    ∃ later, (cutting.step scores size entry).Cuts size (entries ++ [entry]) later := by
  have stepped : ¬ scores entry.1 = false := by
    rw [counts]
    nofun
  have opening : (∀ one ∈ chunks, one.length = size) → cutting.taken % size = 0 →
      (cutting.step scores size entry).Cuts size (entries ++ [entry]) (chunks ++ [[entry]]) := by
    intro full even
    have ends : (cutting.ends ++ [entry.2]).length - 1 = chunks.length := by
      rw [List.length_append, cuts.ends, List.length_map, List.length_singleton]
      omega
    unfold Cutting.step
    rw [if_neg stepped]
    dsimp only
    simp only [if_pos even]
    refine ⟨?_, .inr ⟨chunks, [entry], rfl, full, Nat.one_pos, sized⟩, ?_, ?_, ?_, ?_⟩
    · rw [List.flatten_append, cuts.flat, List.flatten_singleton]
    · change cutting.taken + 1 = (entries ++ [entry]).length
      rw [cuts.taken, List.length_append, List.length_singleton]
    · rw [widenLast_concat, List.map_append, cuts.opens]
      rfl
    · rw [List.dropLast_concat, List.map_append, cuts.ends]
      rfl
    · intro side place
      rw [ends, mem_setLast, mem_setLast, lastIn_concat, cuts.last]
      unfold chunkSides
      rw [List.flatMap_singleton]
      simp only [List.mem_cons, List.not_mem_nil, or_false]
      tauto
  rcases cuts.full_iff with rfl | ⟨front, chunk, rfl, full, some_, bound, even⟩
  · refine ⟨_, opening (fun _ held => nomatch held) ?_⟩
    rw [cuts.taken, ← cuts.flat]
    exact Nat.zero_mod size
  · by_cases whole : chunk.length = size
    · refine ⟨_, opening ?_ (even.mpr whole)⟩
      intro one listed
      rcases List.mem_append.mp listed with early | last
      · exact full one early
      · rw [List.mem_singleton.mp last]
        exact whole
    · have filled : chunk ≠ [] := List.length_pos_iff.mp some_
      have odd : ¬ cutting.taken % size = 0 := fun zero => whole (even.mp zero)
      have ends : cutting.ends.length - 1 = front.length := by
        rw [cuts.ends, List.length_map, List.length_append, List.length_singleton]
        omega
      refine ⟨front ++ [chunk ++ [entry]], ?_⟩
      unfold Cutting.step
      rw [if_neg stepped]
      dsimp only
      simp only [if_neg odd]
      refine ⟨?_, .inr ⟨front, chunk ++ [entry], rfl, full, ?_, ?_⟩, ?_, ?_, ?_, ?_⟩
      · rw [← cuts.flat]
        simp only [List.flatten_append, List.flatten_singleton, List.append_assoc]
      · rw [List.length_append]
        exact Nat.add_pos_left some_ _
      · rw [List.length_append, List.length_singleton]
        omega
      · rw [cuts.taken, List.length_append, List.length_singleton]
      · rw [cuts.opens, List.map_append, List.map_append, List.map_singleton, List.map_singleton,
          widenLast_concat, firstIndex_concat filled]
        unfold chunkSides
        rw [List.flatMap_append, List.flatMap_singleton]
      · rw [cuts.ends, List.map_append, List.map_append, List.map_singleton, List.map_singleton,
          List.dropLast_concat, lastIndex_concat]
      · intro side place
        rw [ends, mem_setLast, mem_setLast, lastIn_concat, cuts.last, lastIn_concat,
          mem_chunkSides_concat]
        constructor
        · rintro (⟨own, here⟩ | ⟨other, ⟨own, here⟩ | ⟨other', ⟨held, here⟩ | ⟨free, before⟩⟩⟩)
          · exact .inl ⟨.inr (.inr own), here⟩
          · exact .inl ⟨.inr (.inl own), here⟩
          · exact .inl ⟨.inl held, here⟩
          · refine .inr ⟨?_, before⟩
            rintro (held | own | own)
            · exact free held
            · exact other' own
            · exact other own
        · rintro (⟨own, here⟩ | ⟨free, before⟩)
          · by_cases second : side = entry.1.2
            · exact .inl ⟨second, here⟩
            · by_cases first : side = entry.1.1
              · exact .inr ⟨second, .inl ⟨first, here⟩⟩
              · refine .inr ⟨second, .inr ⟨first, .inl ⟨?_, here⟩⟩⟩
                exact own.resolve_right (fun either => either.elim first second)
          · push Not at free
            exact .inr ⟨free.2.2, .inr ⟨free.2.1, .inr ⟨free.1, before⟩⟩⟩

/-- `_score_chunks` cuts the pairs scored into chunks. -/
theorem scoreChunks_chunked (ordered : List Pair) (decides : Pair → Bool) (known : Nat → Bool)
    {size : Nat} (sized : 0 < size) :
    ∃ chunks, Chunked (ordered.zipIdx.filter fun entry => scored decides known entry.1) size
      (scoreChunks ordered decides known size) chunks := by
  have cut : ∀ (listed : List (Pair × Nat)) (entries : List (Pair × Nat)) (cutting : Cutting)
      (chunks : List (List (Pair × Nat))), cutting.Cuts size entries chunks →
      ∃ later, (listed.foldl (Cutting.step (scored decides known) size) cutting).Cuts size
        (entries ++ listed.filter fun entry => scored decides known entry.1) later := by
    intro listed
    induction listed with
    | nil =>
        intro entries cutting chunks cuts
        refine ⟨chunks, ?_⟩
        rw [List.filter_nil, List.append_nil]
        exact cuts
    | cons entry rest ih =>
        intro entries cutting chunks cuts
        rw [List.foldl_cons, List.filter_cons]
        cases counts : scored decides known entry.1 with
        | false =>
            rw [Cutting.Cuts.skip counts]
            exact ih entries cutting chunks cuts
        | true =>
            obtain ⟨later, onward⟩ := cuts.step sized counts
            obtain ⟨final, done⟩ := ih _ _ later onward
            refine ⟨final, ?_⟩
            rw [List.append_assoc] at done
            exact done
  obtain ⟨chunks, cuts⟩ := cut ordered.zipIdx [] {} []
    ⟨rfl, .inl rfl, rfl, rfl, rfl, fun _ _ => ⟨nofun, fun held => nomatch held.1.choose_spec.1⟩⟩
  rw [List.nil_append] at cuts
  refine ⟨chunks, cuts.flat, ?_, cuts.opens, ?_, ?_⟩
  · intro chunk listed
    rcases cuts.filled with none_ | ⟨front, last, rfl, full, some_, bound⟩
    · rw [none_] at listed
      cases listed
    · rcases List.mem_append.mp listed with early | final
      · rw [full chunk early]
        exact ⟨sized, le_rfl⟩
      · rw [List.mem_singleton.mp final]
        exact ⟨some_, bound⟩
  · unfold scoreChunks
    dsimp only
    rw [List.map_map, ← cuts.ends]
    exact List.zipIdx_map_fst 0 _
  · intro closed listed
    obtain ⟨⟨finish, place⟩, placed, rfl⟩ := List.mem_map.mp listed
    have at_ := List.mk_mem_zipIdx_iff_getElem?.mp placed
    rw [cuts.ends, List.getElem?_map] at at_
    obtain ⟨chunk, known_, rfl⟩ := Option.map_eq_some_iff.mp at_
    refine ⟨place, chunk, known_, rfl, fun side => ?_⟩
    rw [← cuts.last]
    simp only [List.mem_map, List.mem_filter, decide_eq_true_eq, Prod.exists, exists_and_right,
      exists_eq_right]

/-! #### Where a chunk stands -/

variable {entries : List (Pair × Nat)} {size : Nat}
  {maps : List (Nat × List Nat) × List (Nat × List Nat)} {chunks : List (List (Pair × Nat))}

theorem firstIndex_mem {chunk : List (Pair × Nat)} (some_ : 0 < chunk.length) :
    ∃ entry ∈ chunk, entry.2 = firstIndex chunk := by
  cases chunk with
  | nil => cases some_
  | cons head rest => exact ⟨head, List.mem_cons_self, rfl⟩

theorem lastIndex_mem {chunk : List (Pair × Nat)} (some_ : 0 < chunk.length) :
    ∃ entry ∈ chunk, entry.2 = lastIndex chunk := by
  have filled : chunk ≠ [] := List.length_pos_iff.mp some_
  refine ⟨chunk.getLast filled, List.getLast_mem filled, ?_⟩
  unfold lastIndex
  rw [List.getLast?_eq_some_getLast filled]
  rfl

/-- Entries in the order of their indices. -/
abbrev Ascending (entries : List (Pair × Nat)) : Prop :=
  entries.Pairwise fun one other => one.2 < other.2

theorem between_indices {chunk : List (Pair × Nat)} (ascending : Ascending chunk)
    {entry : Pair × Nat} (held : entry ∈ chunk) :
    firstIndex chunk ≤ entry.2 ∧ entry.2 ≤ lastIndex chunk := by
  constructor
  · cases chunk with
    | nil => cases held
    | cons head rest =>
        rcases List.mem_cons.mp held with rfl | later
        · exact le_rfl
        · exact (List.rel_of_pairwise_cons ascending later).le
  · rcases List.eq_nil_or_concat chunk with rfl | ⟨front, last, rfl⟩
    · cases held
    · rw [List.concat_eq_append] at held ascending ⊢
      rw [lastIndex_concat]
      rcases List.mem_append.mp held with early | final
      · exact ((List.pairwise_append.mp ascending).2.2 entry early last
          List.mem_cons_self).le
      · rw [List.mem_singleton.mp final]

/-- Of two chunks the earlier ends before the later begins. -/
theorem Chunked.apart (cut : Chunked entries size maps chunks) (ascending : Ascending entries)
    {early late : Nat} {one other : List (Pair × Nat)} (before : early < late)
    (oneAt : chunks[early]? = some one) (otherAt : chunks[late]? = some other) :
    lastIndex one < firstIndex other := by
  rw [← cut.flat] at ascending
  have order := (List.pairwise_flatten.mp ascending).2
  obtain ⟨earlyIn, rfl⟩ := List.getElem?_eq_some_iff.mp oneAt
  obtain ⟨lateIn, rfl⟩ := List.getElem?_eq_some_iff.mp otherAt
  obtain ⟨last, lastHeld, lastSame⟩ := lastIndex_mem (cut.bounded _ (List.getElem_mem earlyIn)).1
  obtain ⟨first, firstHeld, firstSame⟩ :=
    firstIndex_mem (cut.bounded _ (List.getElem_mem lateIn)).1
  rw [← lastSame, ← firstSame]
  exact List.pairwise_iff_getElem.mp order early late earlyIn lateIn before last lastHeld first
    firstHeld

theorem Chunked.chunk_ascending (cut : Chunked entries size maps chunks)
    (ascending : Ascending entries) {chunk : List (Pair × Nat)} (listed : chunk ∈ chunks) :
    Ascending chunk := by
  rw [← cut.flat] at ascending
  exact (List.pairwise_flatten.mp ascending).1 chunk listed

/-- The chunk that covers an index is the only one. -/
theorem Chunked.covers_unique (cut : Chunked entries size maps chunks)
    (ascending : Ascending entries) {one other : List (Pair × Nat)} {early late index : Nat}
    (oneAt : chunks[early]? = some one) (otherAt : chunks[late]? = some other)
    (oneCovers : firstIndex one ≤ index ∧ index ≤ lastIndex one)
    (otherCovers : firstIndex other ≤ index ∧ index ≤ lastIndex other) : early = late := by
  rcases Nat.lt_trichotomy early late with before | same | after
  · have apart := cut.apart ascending before oneAt otherAt
    omega
  · exact same
  · have apart := cut.apart ascending after otherAt oneAt
    omega

end Chunks

/-! ### The working set -/

section Gathering

variable {facts : FactSource}

/-- A listing's gallery with its vectors. -/
def FactSource.full (facts : FactSource) (listing : Nat) : List Image :=
  (facts.gallery true listing).getD []

theorem map_withVector_gallery (listing : Nat) :
    ((facts.gallery false listing).getD []).map facts.withVector = facts.full listing := by
  unfold FactSource.full FactSource.gallery
  cases facts.facts listing with
  | none => rfl
  | some images =>
      simp only [Option.map_some, Option.getD_some, List.map_map, Bool.false_eq_true, if_false,
        if_true]
      rfl

theorem bare_withVector (image : Image) : (facts.withVector image.bare).bare = image.bare := by
  unfold FactSource.withVector
  split <;> rfl

theorem map_bare_full (listing : Nat) :
    (facts.full listing).map Image.bare = (facts.gallery false listing).getD [] := by
  unfold FactSource.full FactSource.gallery
  cases facts.facts listing with
  | none => rfl
  | some images =>
      simp only [Option.map_some, Option.getD_some, List.map_map, Bool.false_eq_true, if_false,
        if_true]
      refine List.map_congr_left fun image _ => ?_
      exact bare_withVector image

/-- Every listing held has the gallery its reads gave it: with its vectors or bare. -/
structure Working.Faithful (facts : FactSource) (working : Working) : Prop where
  held : ∀ listing ∈ working.vectored, listing ∈ working.fps
  gallery : ∀ listing ∈ working.fps, working.images listing =
    (facts.gallery (decide (listing ∈ working.vectored)) listing).getD []

namespace Working

variable {working : Working}

theorem Faithful.empty : Working.empty.Faithful facts :=
  ⟨fun _ held => (by cases held), fun _ held => (by cases held)⟩

theorem Faithful.fetch (faithful : working.Faithful facts) (ids : List Nat) (clip : Bool) :
    (working.fetch facts ids clip).Faithful facts := by
  have fresh : ∀ listing, listing ∈ ((ids.filter fun listing =>
      decide (listing ∉ working.fps)).filter fun listing =>
        (facts.gallery clip listing).isSome) → listing ∉ working.fps := by
    intro listing fetched
    exact of_decide_eq_true (List.mem_filter.mp (List.mem_filter.mp fetched).1).2
  unfold Working.fetch
  dsimp only
  revert fresh
  generalize ((ids.filter fun listing => decide (listing ∉ working.fps)).filter fun listing =>
    (facts.gallery clip listing).isSome) = fetched
  intro fresh
  refine ⟨?_, ?_⟩
  · intro listing vectored
    dsimp only at vectored ⊢
    cases clip with
    | false => exact List.mem_append_left _ (faithful.held listing vectored)
    | true =>
        rcases List.mem_append.mp vectored with old | new
        · exact List.mem_append_left _ (faithful.held listing old)
        · exact List.mem_append_right _ new
  · intro listing held
    dsimp only at held ⊢
    by_cases new : listing ∈ fetched
    · have unheld : listing ∉ working.vectored :=
        fun vectored => fresh listing new (faithful.held listing vectored)
      rw [if_pos new]
      cases clip with
      | false => rw [if_neg Bool.false_ne_true, decide_eq_false unheld]
      | true => rw [if_pos rfl, decide_eq_true (List.mem_append_right _ new)]
    · have old : listing ∈ working.fps := (List.mem_append.mp held).resolve_right new
      rw [if_neg new, faithful.gallery listing old]
      cases clip with
      | false => rw [if_neg Bool.false_ne_true]
      | true =>
          have same : (listing ∈ working.vectored ++ fetched) ↔ listing ∈ working.vectored :=
            ⟨fun either => (List.mem_append.mp either).resolve_right new,
              List.mem_append_left _⟩
          rw [if_pos rfl, decide_eq_decide.mpr same]

theorem Faithful.topUp (faithful : working.Faithful facts) (ids : List Nat) :
    (working.topUp facts ids).Faithful facts := by
  unfold Working.topUp
  dsimp only
  refine ⟨?_, ?_⟩
  · intro listing vectored
    rcases List.mem_append.mp vectored with old | new
    · exact faithful.held listing old
    · exact (of_decide_eq_true (List.mem_filter.mp new).2).1
  · intro listing held
    dsimp only
    have own := faithful.gallery listing held
    split_ifs with new
    · have bare := (of_decide_eq_true (List.mem_filter.mp new).2).2
      rw [own, decide_eq_false bare, decide_eq_true (List.mem_append_right _ new),
        map_withVector_gallery]
      rfl
    · have same : (listing ∈ working.vectored ++ ids.filter fun listing =>
          decide (listing ∈ working.fps ∧ listing ∉ working.vectored)) ↔
          listing ∈ working.vectored :=
        ⟨fun either => (List.mem_append.mp either).resolve_right new, List.mem_append_left _⟩
      rw [own, decide_eq_decide.mpr same]

theorem Faithful.ensure (faithful : working.Faithful facts) (ids : List Nat) (clip : Bool) :
    (working.ensure facts ids clip).Faithful facts := by
  unfold Working.ensure
  split_ifs
  · exact (faithful.fetch ids clip).topUp ids
  · exact faithful.fetch ids clip

theorem Faithful.release (faithful : working.Faithful facts) (ids : List Nat) :
    (working.release ids).Faithful facts := by
  unfold Working.release
  refine ⟨?_, ?_⟩
  · intro listing vectored
    exact faithful.held listing (List.mem_filter.mp vectored).1
  · intro listing held
    dsimp only
    have own := faithful.gallery listing held
    have kept : listing ∈ (working.vectored.filter fun listing => decide (listing ∉ ids)) ↔
        listing ∈ working.vectored ∧ listing ∉ ids := by
      rw [List.mem_filter, decide_eq_true_eq]
    split_ifs with given
    · have gone : listing ∉ (working.vectored.filter fun listing => decide (listing ∉ ids)) :=
        fun still => (kept.mp still).2 given.1
      rw [own, decide_eq_true given.2, decide_eq_false gone]
      exact map_bare_full listing
    · have same : listing ∈ (working.vectored.filter fun listing => decide (listing ∉ ids)) ↔
          listing ∈ working.vectored := by
        rw [kept]
        exact ⟨And.left, fun vectored => ⟨vectored, fun asked => given ⟨asked, vectored⟩⟩⟩
      rw [own, decide_eq_decide.mpr same]

/-- A vectored listing has its full gallery. -/
theorem Faithful.full (faithful : working.Faithful facts) {listing : Nat}
    (vectored : listing ∈ working.vectored) : working.images listing = facts.full listing := by
  rw [faithful.gallery listing (faithful.held listing vectored), decide_eq_true vectored]
  rfl

/-- Held listings asked with their vectors get them, and nothing else is read. -/
theorem ensure_held {ids : List Nat} (asked : ∀ listing ∈ ids, listing ∈ working.fps) :
    (working.ensure facts ids true).fps = working.fps ∧
      ∀ listing, listing ∈ (working.ensure facts ids true).vectored ↔
        listing ∈ working.vectored ∨ listing ∈ ids := by
  have nothing : (ids.filter fun listing => decide (listing ∉ working.fps)) = [] := by
    rw [List.filter_eq_nil_iff]
    intro listing listed
    rw [decide_eq_true_eq]
    exact fun absent => absent (asked listing listed)
  unfold ensure
  rw [if_pos rfl]
  unfold fetch topUp
  simp only [nothing, List.filter_nil, List.append_nil, if_true, true_and]
  intro listing
  simp only [List.mem_append, List.mem_filter, decide_eq_true_eq]
  constructor
  · rintro (old | new)
    · exact .inl old
    · exact .inr new.1
  · rintro (old | new)
    · exact .inl old
    · by_cases had : listing ∈ working.vectored
      · exact .inl had
      · exact .inr ⟨new, asked listing new, had⟩

end Working

theorem gathered_faithful (facts : FactSource) (calls : List (List Nat × Bool)) :
    (gathered facts calls).Faithful facts :=
  foldl_invariant (Working.Faithful facts)
    (fun _ faithful call _ => faithful.ensure call.1 call.2) Working.Faithful.empty

end Gathering

/-! ### The loop -/

section Loop

variable {Derived Detail : Type} {work : ScoreWork Derived Detail} {facts : FactSource}
  {fps : List Nat} {size : Nat} {maps : List (Nat × List Nat) × List (Nat × List Nat)}
  {chunks : List (List (Pair × Nat))} {state : ScoreState Derived Detail} {index : Nat}

/-- The row a wanted pair owes, scored over its sides' full galleries. -/
def ScoreWork.rowOf (work : ScoreWork Derived Detail) (facts : FactSource) (fps : List Nat)
    (pair : Pair) : Option (PairRow Detail) :=
  if work.sides pair.1 = false ∨ work.sides pair.2 = false then none
  else if work.decides pair = false then work.standing pair
  else if pair.1 ∉ fps ∨ pair.2 ∉ fps then none
  else some (work.scoredRow pair (facts.full pair.1, work.derived pair.1)
    (facts.full pair.2, work.derived pair.2))

/-- The pairs scored, with their places in the wanted list. -/
def ScoreWork.scoredEntries (work : ScoreWork Derived Detail) (fps : List Nat) :
    List (Pair × Nat) :=
  work.ordered.zipIdx.filter fun entry =>
    scored work.decides (fun listing => decide (listing ∈ fps)) entry.1

theorem ScoreWork.scoredEntries_ascending : Ascending (work.scoredEntries fps) := by
  refine List.Pairwise.filter _ ?_
  rw [List.pairwise_iff_getElem]
  intro one other oneIn otherIn before
  simp only [List.getElem_zipIdx, Nat.zero_add]
  exact before

theorem mem_scoredEntries {pair : Pair} :
    (pair, index) ∈ work.scoredEntries fps ↔ work.ordered[index]? = some pair ∧
      work.decides pair = true ∧ pair.1 ∈ fps ∧ pair.2 ∈ fps := by
  unfold ScoreWork.scoredEntries scored
  simp only [List.mem_filter, List.mk_mem_zipIdx_iff_getElem?, Bool.and_eq_true,
    decide_eq_true_eq, and_assoc]

/-- The state before the pair at the index: the sides of the chunk under way are vectored, and
the derived features of every side still to be scored are kept. -/
structure ScoreState.Sound (work : ScoreWork Derived Detail) (facts : FactSource) (fps : List Nat)
    (chunks : List (List (Pair × Nat))) (index : Nat) (rows : List (PairRow Detail))
    (state : ScoreState Derived Detail) : Prop where
  faithful : state.working.Faithful facts
  same : state.working.fps = fps
  opened : ∀ chunk ∈ chunks, firstIndex chunk < index → index ≤ lastIndex chunk →
    ∀ side ∈ chunkSides chunk, side ∈ state.working.vectored
  kept : ∀ chunk ∈ chunks, index ≤ lastIndex chunk → ∀ side ∈ chunkSides chunk,
    state.derived side = work.derived side
  rows : state.written ++ state.pending = rows
  moved : state.moved = work.movedByAll state.written

theorem Chunked.sides_held (cut : Chunked (work.scoredEntries fps) size maps chunks)
    {chunk : List (Pair × Nat)} (listed : chunk ∈ chunks) {side : Nat}
    (held : side ∈ chunkSides chunk) : side ∈ fps := by
  obtain ⟨⟨pair, place⟩, entered, either⟩ := List.mem_flatMap.mp held
  have counted : (pair, place) ∈ work.scoredEntries fps :=
    cut.flat ▸ List.mem_flatten.mpr ⟨chunk, listed, entered⟩
  obtain ⟨_, _, lo, hi⟩ := mem_scoredEntries.mp counted
  simp only [List.mem_cons, List.not_mem_nil, or_false] at either
  rcases either with rfl | rfl
  · exact lo
  · exact hi

theorem Chunked.opens_keyed (cut : Chunked (work.scoredEntries fps) size maps chunks) :
    Keyed Prod.fst maps.1 := by
  have firsts : (chunks.map firstIndex).Pairwise (· < ·) := by
    rw [List.pairwise_map, List.pairwise_iff_getElem]
    intro early late earlyIn lateIn before
    have apart := cut.apart ScoreWork.scoredEntries_ascending before
      (List.getElem?_eq_getElem earlyIn) (List.getElem?_eq_getElem lateIn)
    obtain ⟨entry, held, first⟩ := firstIndex_mem (cut.bounded _ (List.getElem_mem earlyIn)).1
    have inside := between_indices (cut.chunk_ascending ScoreWork.scoredEntries_ascending
      (List.getElem_mem earlyIn)) held
    omega
  unfold Keyed
  rw [cut.opens, List.map_map]
  exact firsts.imp fun before => before.ne

/-- Once its chunk is opened, an index under way has its sides vectored. -/
theorem ScoreState.Sound.openChunk {rows : List (PairRow Detail)}
    (sound : state.Sound work facts fps chunks index rows)
    (cut : Chunked (work.scoredEntries fps) size maps chunks) :
    (ScoreWork.openChunk facts (maps.1.lookup index) state).Sound work facts fps chunks index rows ∧
      ∀ chunk ∈ chunks, firstIndex chunk ≤ index → index ≤ lastIndex chunk →
        ∀ side ∈ chunkSides chunk,
          side ∈ (ScoreWork.openChunk facts (maps.1.lookup index) state).working.vectored := by
  cases looked : maps.1.lookup index with
  | none =>
      refine ⟨sound, fun chunk listed first last side held => ?_⟩
      have later : firstIndex chunk ≠ index := by
        intro same
        have key : index ∈ maps.1.map Prod.fst := by
          rw [cut.opens, List.map_map]
          exact List.mem_map.mpr ⟨chunk, listed, same⟩
        exact lookup_eq_none_iff_key.mp looked key
      exact sound.opened chunk listed (lt_of_le_of_ne first later) last side held
  | some ids =>
      have entered := mem_of_lookup looked
      rw [cut.opens] at entered
      obtain ⟨opening, listed, same⟩ := List.mem_map.mp entered
      obtain ⟨first, rfl⟩ := Prod.mk.inj same
      have asked : ∀ listing ∈ chunkSides opening, listing ∈ state.working.fps := by
        intro listing held
        rw [sound.same]
        exact cut.sides_held listed held
      obtain ⟨kept, vectored⟩ := @Working.ensure_held facts _ _ asked
      refine ⟨⟨sound.faithful.ensure (chunkSides opening) true, kept.trans sound.same, ?_, sound.kept, sound.rows,
        sound.moved⟩, ?_⟩
      · intro chunk inside early last side held
        exact (vectored side).mpr (.inl (sound.opened chunk inside early last side held))
      · intro chunk inside early last side held
        by_cases started : firstIndex chunk = index
        · have own : (index, chunkSides chunk) ∈ maps.1 := by
            rw [cut.opens]
            exact List.mem_map.mpr ⟨chunk, inside, by rw [started]⟩
          have one := (cut.opens_keyed.lookup.mpr own).symm.trans looked
          rw [Option.some.inj one] at held
          exact (vectored side).mpr (.inr held)
        · exact (vectored side).mpr
            (.inl (sound.opened chunk inside (lt_of_le_of_ne early started) last side held))

theorem ScoreWork.movedByAll_append (rows more : List (PairRow Detail)) :
    work.movedByAll (rows ++ more) = work.movedByAll rows ∪ work.movedByAll more := by
  have folded : ∀ (rows : List (PairRow Detail)) (moved : Finset Nat),
      rows.foldl (fun moved row => moved ∪ work.movedBy row) moved =
        moved ∪ work.movedByAll rows := by
    intro rows
    induction rows with
    | nil => exact fun moved => (Finset.union_empty moved).symm
    | cons row rest ih =>
        intro moved
        unfold ScoreWork.movedByAll
        rw [List.foldl_cons, List.foldl_cons, ih, ih, Finset.empty_union, Finset.union_assoc]
  unfold ScoreWork.movedByAll
  rw [List.foldl_append, folded]
  rfl

/-- Past an index no chunk closes at, the chunk under way is the one before it. -/
theorem ScoreState.Sound.onward {rows : List (PairRow Detail)}
    (sound : state.Sound work facts fps chunks index rows)
    (vectored : ∀ chunk ∈ chunks, firstIndex chunk ≤ index → index ≤ lastIndex chunk →
      ∀ side ∈ chunkSides chunk, side ∈ state.working.vectored)
    (more : List (PairRow Detail)) :
    ({ state with pending := state.pending ++ more } : ScoreState Derived Detail).Sound work facts
      fps chunks (index + 1) (rows ++ more) where
  faithful := sound.faithful
  same := sound.same
  opened := fun chunk listed first last side held =>
    vectored chunk listed (Nat.le_of_lt_succ first) (Nat.le_of_succ_le last) side held
  kept := fun chunk listed last side held =>
    sound.kept chunk listed (Nat.le_of_succ_le last) side held
  rows := by
    rw [← sound.rows, List.append_assoc]
  moved := sound.moved

/-- A chunk's close gives back only sides that no later chunk scores. -/
theorem ScoreState.Sound.closeChunk {rows : List (PairRow Detail)}
    (sound : state.Sound work facts fps chunks (index + 1) rows)
    (cut : Chunked (work.scoredEntries fps) size maps chunks) {ids : List Nat}
    (looked : maps.2.lookup index = some ids) :
    (work.closeChunk ids state).Sound work facts fps chunks (index + 1) rows := by
  obtain ⟨place, closing, closingAt, finish, given⟩ := cut.closes _ (mem_of_lookup looked)
  have ascending := @ScoreWork.scoredEntries_ascending _ _ work fps
  have covers : ∀ chunk ∈ chunks, firstIndex chunk ≤ lastIndex chunk := by
    intro chunk listed
    obtain ⟨entry, held, first⟩ := firstIndex_mem (cut.bounded chunk listed).1
    rw [← first]
    exact (between_indices (cut.chunk_ascending ascending listed) held).2
  -- a chunk that goes on past the index begins after the one that closes
  have beyond : ∀ chunk ∈ chunks, index + 1 ≤ lastIndex chunk →
      ∃ later, place < later ∧ chunks[later]? = some chunk := by
    intro chunk listed last
    obtain ⟨later, laterAt⟩ := List.mem_iff_getElem?.mp listed
    refine ⟨later, ?_, laterAt⟩
    rcases Nat.lt_trichotomy later place with before | same | after
    · have apart := cut.apart ascending before laterAt closingAt
      have inside := covers closing (List.mem_of_getElem? closingAt)
      dsimp only at finish
      omega
    · rw [same, closingAt] at laterAt
      rw [← Option.some.inj laterAt] at last
      dsimp only at finish
      omega
    · exact after
  refine ⟨sound.faithful.release ids, sound.same, ?_, ?_, ?_, ?_⟩
  · intro chunk listed first last side held
    obtain ⟨later, after, laterAt⟩ := beyond chunk listed last
    have apart := cut.apart ascending after closingAt laterAt
    dsimp only at finish
    omega
  · intro chunk listed last side held
    obtain ⟨later, after, laterAt⟩ := beyond chunk listed last
    have stays : side ∉ ids := fun gone =>
      ((given side).mp gone).2 later chunk after laterAt held
    change (if side ∈ ids then none else state.derived side) = work.derived side
    rw [if_neg stays]
    exact sound.kept chunk listed last side held
  · change (state.written ++ state.pending) ++ [] = rows
    rw [List.append_nil]
    exact sound.rows
  · change state.moved ∪ work.movedByAll state.pending =
      work.movedByAll (state.written ++ state.pending)
    rw [ScoreWork.movedByAll_append, sound.moved]

/-- One wanted pair: it is scored on its sides' full galleries, and the run goes on. -/
theorem ScoreState.Sound.scorePair {rows : List (PairRow Detail)} {pair : Pair}
    (sound : state.Sound work facts fps chunks index rows)
    (cut : Chunked (work.scoredEntries fps) size maps chunks)
    (vectored : ∀ chunk ∈ chunks, firstIndex chunk ≤ index → index ≤ lastIndex chunk →
      ∀ side ∈ chunkSides chunk, side ∈ state.working.vectored)
    (wanted : work.ordered[index]? = some pair) :
    ∃ later, work.scorePair (maps.2.lookup index) pair state = .ok later ∧
      later.Sound work facts fps chunks (index + 1) (rows ++ (work.rowOf facts fps pair).toList) := by
  have plain : state.Sound work facts fps chunks (index + 1) rows := by
    have onward := sound.onward vectored []
    rw [List.append_nil, List.append_nil] at onward
    exact onward
  unfold ScoreWork.scorePair ScoreWork.rowOf
  rw [sound.same]
  by_cases unsided : work.sides pair.1 = false ∨ work.sides pair.2 = false
  · rw [if_pos unsided, if_pos unsided]
    refine ⟨state, rfl, ?_⟩
    rw [Option.toList_none, List.append_nil]
    exact plain
  rw [if_neg unsided, if_neg unsided]
  cases decided : work.decides pair with
  | false =>
      rw [if_pos rfl, if_pos rfl]
      exact ⟨_, rfl, sound.onward vectored _⟩
  | true =>
      have stays : ¬ true = false := nofun
      rw [if_neg stays, if_neg stays]
      by_cases unread : pair.1 ∉ fps ∨ pair.2 ∉ fps
      · rw [if_pos unread, if_pos unread]
        refine ⟨state, rfl, ?_⟩
        rw [Option.toList_none, List.append_nil]
        exact plain
      rw [if_neg unread, if_neg unread]
      push Not at unread
      -- the pair lies in the chunk under way
      have entered : (pair, index) ∈ work.scoredEntries fps :=
        mem_scoredEntries.mpr ⟨wanted, decided, unread.1, unread.2⟩
      rw [← cut.flat] at entered
      obtain ⟨chunk, listed, held⟩ := List.mem_flatten.mp entered
      have inside := between_indices
        (cut.chunk_ascending ScoreWork.scoredEntries_ascending listed) held
      have sides : pair.1 ∈ chunkSides chunk ∧ pair.2 ∈ chunkSides chunk :=
        ⟨List.mem_flatMap.mpr ⟨_, held, List.mem_cons_self⟩,
          List.mem_flatMap.mpr ⟨_, held, List.mem_cons_of_mem _ List.mem_cons_self⟩⟩
      have lo := vectored chunk listed inside.1 inside.2 _ sides.1
      have hi := vectored chunk listed inside.1 inside.2 _ sides.2
      have both : ¬ (pair.1 ∉ state.working.vectored ∨ pair.2 ∉ state.working.vectored) :=
        fun either => either.elim (fun absent => absent lo) (fun absent => absent hi)
      rw [if_neg both]
      dsimp only
      rw [sound.faithful.full lo, sound.faithful.full hi, sound.kept chunk listed inside.2 _ sides.1,
        sound.kept chunk listed inside.2 _ sides.2]
      have onward := sound.onward vectored [work.scoredRow pair
        (facts.full pair.1, work.derived pair.1) (facts.full pair.2, work.derived pair.2)]
      cases looked : maps.2.lookup index with
      | none => exact ⟨_, rfl, onward⟩
      | some ids => exact ⟨_, rfl, onward.closeChunk cut looked⟩

/-- The whole loop. -/
theorem ScoreState.Sound.scorePairs (cut : Chunked (work.scoredEntries fps) size maps chunks) :
    ∀ (listed : List Pair) (index : Nat) (rows : List (PairRow Detail))
      (state : ScoreState Derived Detail), work.ordered.drop index = listed →
      state.Sound work facts fps chunks index rows →
      ∃ later, work.scorePairs facts maps.1 maps.2 (listed.zipIdx index) state = .ok later ∧
        later.Sound work facts fps chunks (index + listed.length)
          (rows ++ listed.filterMap (work.rowOf facts fps)) := by
  intro listed
  induction listed with
  | nil =>
      intro index rows state _ sound
      refine ⟨state, rfl, ?_⟩
      rw [List.filterMap_nil, List.append_nil]
      exact sound
  | cons pair rest ih =>
      intro index rows state left sound
      have wanted : work.ordered[index]? = some pair := by
        rw [← List.head?_drop, left]
        rfl
      obtain ⟨opened, vectored⟩ := sound.openChunk cut
      obtain ⟨later, stepped, onward⟩ := opened.scorePair cut vectored wanted
      obtain ⟨final, ran, done⟩ := ih (index + 1) _ later
        (by rw [← List.tail_drop, left]; rfl) onward
      refine ⟨final, ?_, ?_⟩
      · rw [List.zipIdx_cons]
        unfold ScoreWork.scorePairs
        rw [stepped]
        exact ran
      · have rowsSame : rows ++ (pair :: rest).filterMap (work.rowOf facts fps) =
            rows ++ (work.rowOf facts fps pair).toList ++ rest.filterMap (work.rowOf facts fps) := by
          rw [List.append_assoc, List.filterMap_cons]
          cases work.rowOf facts fps pair <;> rfl
        rw [rowsSame, List.length_cons, Nat.add_comm rest.length 1, ← Nat.add_assoc]
        exact done

/-- The loop scores every chunk size alike: it never meets a pair without its vectors, and what
it writes is the rows the wanted pairs owe. -/
theorem ScoreWork.scoreLoop_eq (work : ScoreWork Derived Detail) (facts : FactSource)
    {working : Working} (faithful : working.Faithful facts) (scoreChunk : Nat) :
    work.scoreLoop facts working scoreChunk =
      .ok (work.ordered.filterMap (work.rowOf facts working.fps),
        work.movedByAll (work.ordered.filterMap (work.rowOf facts working.fps))) := by
  obtain ⟨chunks, cut⟩ := scoreChunks_chunked work.ordered work.decides
    (fun listing => decide (listing ∈ working.fps)) (Nat.lt_of_lt_of_le Nat.one_pos
      (Nat.le_max_left 1 scoreChunk))
  have start : ScoreState.Sound work facts working.fps chunks 0 [] { working := working
                                                                     derived := work.derived
                                                                     pending := []
                                                                     written := []
                                                                     moved := ∅ } :=
    ⟨faithful, rfl, fun _ _ early => absurd early (Nat.not_lt_zero _), fun _ _ _ _ _ => rfl, rfl,
      rfl⟩
  obtain ⟨final, ran, done⟩ := ScoreState.Sound.scorePairs cut work.ordered 0 [] _ rfl start
  unfold ScoreWork.scoreLoop
  dsimp only
  rw [ran]
  change Except.ok (final.written ++ final.pending, final.moved ∪ work.movedByAll final.pending) = _
  rw [done.moved, ← ScoreWork.movedByAll_append, done.rows, List.nil_append]

/-- What the chunks of a pass are held to: at every size the decided pairs whose sides are known
are cut into chunks within it, each in one of them, a side is given back by the last chunk that
scores it, and the loop writes the same rows and moves the same listings. -/
structure ChunksInvisible (work : ScoreWork Derived Detail) (facts : FactSource)
    (working : Working) : Prop where
  cut : ∀ size, 1 ≤ size → ∃ chunks,
    Chunked (work.scoredEntries working.fps) size
      (scoreChunks work.ordered work.decides (fun listing => decide (listing ∈ working.fps)) size)
      chunks ∧
    ∀ entry ∈ work.scoredEntries working.fps, ∃! place : Nat, ∃ chunk,
      chunks[place]? = some chunk ∧ entry ∈ chunk
  outcome : ∃ rows moved, ∀ size, 1 ≤ size →
    work.scoreLoop facts working size = .ok (rows, moved)

theorem chunks_invisible (work : ScoreWork Derived Detail) (facts : FactSource)
    (calls : List (List Nat × Bool)) : ChunksInvisible work facts (gathered facts calls) where
  cut := by
    intro size sized
    obtain ⟨chunks, cut⟩ := scoreChunks_chunked work.ordered work.decides
      (fun listing => decide (listing ∈ (gathered facts calls).fps)) sized
    have ascending := @ScoreWork.scoredEntries_ascending _ _ work (gathered facts calls).fps
    refine ⟨chunks, cut, fun entry held => ?_⟩
    change Chunked (work.scoredEntries (gathered facts calls).fps) _ _ _ at cut
    rw [← cut.flat] at held
    obtain ⟨chunk, listed, entered⟩ := List.mem_flatten.mp held
    obtain ⟨place, placed⟩ := List.mem_iff_getElem?.mp listed
    refine ⟨place, ⟨chunk, placed, entered⟩, ?_⟩
    rintro other ⟨found, foundAt, enteredToo⟩
    have foundListed := List.mem_of_getElem? foundAt
    exact cut.covers_unique ascending foundAt placed
      (between_indices (cut.chunk_ascending ascending foundListed) enteredToo)
      (between_indices (cut.chunk_ascending ascending listed) entered)
  outcome := ⟨_, _, fun size _ => work.scoreLoop_eq facts (gathered_faithful facts calls) size⟩

/-- Two pairs of a street of three adverts, scored by whether either gallery has a vector. -/
def streetWork : ScoreWork Unit Unit where
  ordered := [(1, 2), (1, 3), (2, 3)]
  entry := fun _ => { probes := ["street"], fromLo := true, fromHi := false }
  sides := fun listing => decide (listing ≤ 3)
  decides := fun pair => decide (pair = (1, 2) ∨ pair = (2, 3))
  sided := fun pair decided => by
    rcases of_decide_eq_true decided with rfl | rfl <;> exact ⟨rfl, rfl⟩
  stored := fun _ => none
  derived := fun _ => some ()
  judge := fun _ _ lo hi =>
    let seen := (lo.1 ++ hi.1).any fun image => image.clip.isSome
    { zone := if seen then .merge else .band
      certificate := none
      veto := none
      reason := "photos"
      evidence := []
      detail := () }
  refCodes := fun _ _ => ""
  hold := none
  decidedAt := fun _ => none

/-- One photograph to each advert; only the third advert's has a vector. -/
def streetFacts : FactSource where
  facts := fun listing => some [{ imageId := listing }]
  vectors := fun image => if image = 3 then some "v3" else none

theorem chunks_invisible_on_street :
    ChunksInvisible streetWork streetFacts (gathered streetFacts [([1, 2, 3], false)]) ∧
      (streetWork.scoreLoop streetFacts (gathered streetFacts [([1, 2, 3], false)]) 1).toOption.map
          (fun done => (done.1.map fun row => (row.lo, row.hi, row.zone), done.2)) =
        some ([(1, 2, .band), (2, 3, .merge)], {2, 3}) :=
  ⟨chunks_invisible streetWork streetFacts [([1, 2, 3], false)], by decide +kernel⟩

end Loop

end Sreality.Autodedup
