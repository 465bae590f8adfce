import Mathlib.Order.Lattice
import Sreality.LocationData.BodiesPass

/-! What the bodies-first pass leaves behind its cursor: nothing that is the page of a listing
and unmined, as long as no page comes to lie there by an event that gives it no new id. -/

set_option autoImplicit false

namespace Sreality.LocationData.BodiesPass

open Sreality.Foundation

variable {lane : Lane} {world : World} {payload : Payload}

/-! ### Stamped rows -/

section Stamped

variable (payload) (stamps : List (Nat × Nat))

@[simp] theorem stamped_id : (payload.stamped stamps).id = payload.id := by
  unfold Payload.stamped
  split <;> rfl

@[simp] theorem stamped_source : (payload.stamped stamps).source = payload.source := by
  unfold Payload.stamped
  split <;> rfl

@[simp] theorem stamped_key : (payload.stamped stamps).key = payload.key := by
  unfold Payload.stamped
  split <;> rfl

@[simp] theorem stamped_readable : (payload.stamped stamps).readable = payload.readable := by
  unfold Payload.stamped
  split <;> rfl

@[simp] theorem stamped_order : (payload.stamped stamps).order = payload.order := by
  unfold Payload.stamped
  split <;> rfl

variable {payload stamps}

theorem stamped_of_lookup {version : Nat} (found : stamps.lookup payload.id = some version) :
    (payload.stamped stamps).contractVersion = some version := by
  unfold Payload.stamped
  rw [found]

theorem stamped_of_not_mem (absent : payload.id ∉ stamps.map Prod.fst) :
    payload.stamped stamps = payload := by
  unfold Payload.stamped
  rw [lookup_eq_none_iff_key.mpr absent]

end Stamped

/-! ### Pages -/

theorem latest_iff : world.latest payload = true ↔ ∀ other ∈ world.payloads,
    other.readable = true → other.key = payload.key → ¬ payload.order < other.order := by
  simp only [World.latest, Bool.not_eq_true', List.any_eq_false, Bool.and_eq_true,
    decide_eq_true_iff, not_and, and_imp]

theorem current_iff : world.current payload = true ↔
    payload.readable = true ∧ world.latest payload = true ∧ payload.key ∈ world.listings := by
  simp only [World.current, Bool.and_eq_true, decide_eq_true_iff, and_assoc]

/-- Which body is a listing's page is decided by the rows of its key. -/
theorem current_of_rows {after : World} (current : after.current payload = true)
    (rows : ∀ other ∈ world.payloads, other.key = payload.key → other ∈ after.payloads)
    (listed : payload.key ∈ after.listings → payload.key ∈ world.listings) :
    world.current payload = true := by
  obtain ⟨readable, latest, known⟩ := current_iff.mp current
  refine current_iff.mpr ⟨readable, latest_iff.mpr ?_, listed known⟩
  intro other held ok same
  exact latest_iff.mp latest other (rows other held same) ok same

/-- Nor is it decided by what a stamp changes. -/
theorem current_of_map (change : Payload → Payload) {after : World}
    (keeps : ∀ other, (change other).readable = other.readable ∧ (change other).key = other.key ∧
      (change other).order = other.order)
    (current : after.current (change payload) = true)
    (rows : after.payloads = world.payloads.map change)
    (listings : after.listings = world.listings) : world.current payload = true := by
  obtain ⟨readable, latest, known⟩ := current_iff.mp current
  obtain ⟨ok, key, order⟩ := keeps payload
  rw [ok] at readable
  rw [key, listings] at known
  refine current_iff.mpr ⟨readable, latest_iff.mpr ?_, known⟩
  intro other held otherOk same
  obtain ⟨okToo, keyToo, orderToo⟩ := keeps other
  have listed : change other ∈ after.payloads := by
    rw [rows]
    exact List.mem_map_of_mem held
  have later := latest_iff.mp latest (change other) listed (by rw [okToo, otherOk])
    (by rw [keyToo, key, same])
  rwa [orderToo, order] at later

theorem unmined_eq_false_iff : world.unmined payload = false ↔
    ∀ version, world.active payload.source = some version →
      payload.contractVersion = some version := by
  simp only [World.unmined]
  cases world.active payload.source with
  | none => simp
  | some version => simp

/-! ### Windows and cursors -/

theorem le_batchCursor {window : List Nat} {id : Nat} (listed : id ∈ window) :
    id ≤ batchCursor window := by
  induction window with
  | nil => cases listed
  | cons first rest ih =>
      simp only [batchCursor, List.foldr_cons]
      cases List.mem_cons.mp listed with
      | inl same =>
          rw [same]
          exact le_max_left _ _
      | inr later => exact le_trans (ih later) (le_max_right _ _)

theorem batchCursor_lt {window : List Nat} {id : Nat} (bounded : ∀ other ∈ window, other < id)
    (positive : 0 < id) : batchCursor window < id := by
  induction window with
  | nil => exact positive
  | cons first rest ih =>
      simp only [batchCursor, List.foldr_cons]
      exact max_lt (bounded first List.mem_cons_self)
        (ih fun other later => bounded other (List.mem_cons_of_mem _ later))

theorem mem_window {run : Run} {id : Nat} (listed : id ∈ lane.window world run) :
    ∃ payload ∈ world.payloads, payload.id = id ∧ run.after < id := by
  have held := mem_sortedBy.mp (List.mem_of_mem_take listed)
  obtain ⟨payload, eligible, rfl⟩ := List.mem_map.mp held
  obtain ⟨inRows, fits⟩ := List.mem_filter.mp eligible
  simp only [Bool.and_eq_true, decide_eq_true_iff] at fits
  exact ⟨payload, inRows, rfl, fits.1.1.1.1⟩

/-- An unmined body past the cursor is in the window, or past a full window. -/
theorem window_covers {run : Run} (keyed : Keyed Payload.id world.payloads)
    (held : payload ∈ world.payloads) (readable : payload.readable = true)
    (wanted : ∀ source ∈ run.pageSources, source ∈ lane.wanted)
    (inSources : payload.source ∈ run.pageSources) (unmined : world.unmined payload = true)
    (past : run.after < payload.id) :
    payload.id ∈ lane.window world run ∨ run.cap ≤ (lane.window world run).length ∧
      ∀ id ∈ lane.window world run, id < payload.id := by
  have ofSource : lane.source.all (fun source => decide (payload.source = source)) = true := by
    have own := wanted payload.source inSources
    unfold Lane.wanted at own
    cases source : lane.source with
    | none => rfl
    | some source_ =>
        rw [source] at own
        exact decide_eq_true (List.mem_singleton.mp own)
  apply mem_take_sortedIds
  · exact keyed.filter _
  · apply List.mem_map.mpr
    refine ⟨payload, List.mem_filter.mpr ⟨held, ?_⟩, rfl⟩
    simp only [Bool.and_eq_true, decide_eq_true_iff]
    exact ⟨⟨⟨⟨past, readable⟩, inSources⟩, ofSource⟩, unmined⟩

theorem mem_candidates {run : Run} {window : List Nat} {candidate : Nat × Nat} :
    candidate ∈ world.candidates run window ↔ ∃ payload ∈ world.payloads,
      payload.id = candidate.1 ∧ payload.id ∈ window ∧ world.current payload = true ∧
        world.unmined payload = true ∧ payload.source ∈ run.pageSources ∧
          world.active payload.source = some candidate.2 := by
  obtain ⟨id, version⟩ := candidate
  simp only [World.candidates, List.mem_filterMap, List.mem_filter, Bool.and_eq_true,
    decide_eq_true_iff, Option.map_eq_some_iff, Prod.mk.injEq]
  constructor
  · rintro ⟨payload, ⟨held, ⟨⟨inWindow, current⟩, unmined⟩, inSources⟩, _, active, rfl, rfl⟩
    exact ⟨payload, held, rfl, inWindow, current, unmined, inSources, active⟩
  · rintro ⟨payload, held, rfl, inWindow, current, unmined, inSources, active⟩
    exact ⟨payload, ⟨held, ⟨⟨inWindow, current⟩, unmined⟩, inSources⟩, version, active, rfl, rfl⟩

theorem keyed_candidates (keyed : Keyed Payload.id world.payloads) {run : Run} {window : List Nat} :
    Keyed Prod.fst (world.candidates run window) := by
  have ids : ∀ payloads : List Payload, List.Sublist ((payloads.filterMap fun payload =>
      (world.active payload.source).map fun version => (payload.id, version)).map Prod.fst)
        (payloads.map Payload.id) := by
    intro payloads
    induction payloads with
    | nil => exact List.Sublist.refl _
    | cons first rest ih =>
        rw [List.filterMap_cons]
        cases world.active first.source with
        | none => exact ih.cons first.id
        | some version => exact ih.cons_cons first.id
  exact (keyed.filter _).sublist (ids _)

/-! ### The invariant -/

def Phase.Fits (after : Nat) (drawn : List Nat) : Phase → Prop
  | .windowed window => window ≠ [] ∧ ∀ id ∈ window, after < id ∧ id ∈ drawn
  | .mining window candidates => (window ≠ [] ∧ ∀ id ∈ window, after < id ∧ id ∈ drawn) ∧
      (∀ candidate ∈ candidates, candidate.1 ∈ window) ∧ Keyed Prod.fst candidates
  | _ => True

structure Run.Fits (lane : Lane) (drawn : List Nat) (run : Run) : Prop where
  positive : 0 < run.cap
  wanted : ∀ source ∈ run.pageSources, source ∈ lane.wanted
  named : run.dryRun = false → ∀ contract ∈ run.versions, contract.1 ∈ lane.wanted →
    lane.pages contract.1 contract.2 = true → contract.1 ∈ run.pageSources
  unread : run.phase = .loaded → run.after = 0
  storeless : run.hasStore = false → run.after = 0 ∧ (run.phase = .loaded ∨ run.phase = .ended true)
  phase : run.phase.Fits run.after drawn

structure Sound (lane : Lane) (world : World) : Prop where
  keyed : Keyed Payload.id world.payloads
  drawn : ∀ payload ∈ world.payloads, payload.id ∈ world.drawn
  positive : ∀ payload ∈ world.payloads, 0 < payload.id
  contracts : Keyed Prod.fst world.contracts
  kept : ∀ payload ∈ world.payloads, world.current payload = true → KeptBehind lane world payload
  fits : ∀ run ∈ world.run, run.Fits lane world.drawn
  loaded : ∀ run ∈ world.run, run.phase = .loaded → run.hasStore = true → run.dryRun = false →
    ∀ source, lane.capable world source = true ↔ source ∈ run.pageSources
  /-- A body an open batch is mining bears the active version only when the batch has it. -/
  batch : ∀ run ∈ world.run, ∀ payload ∈ world.payloads, ∀ candidate ∈ run.candidates,
    candidate.1 = payload.id → payload.source ∈ run.pageSources ∧
      (run.live → payload.contractVersion = world.active payload.source →
        world.active payload.source = some candidate.2 ∨ world.active payload.source = none)

theorem Run.Fits.grow {drawn later : List Nat} {run : Run} (fits : run.Fits lane drawn)
    (grown : ∀ id ∈ drawn, id ∈ later) : run.Fits lane later := by
  refine ⟨fits.positive, fits.wanted, fits.named, fits.unread, fits.storeless, ?_⟩
  have phase := fits.phase
  cases same : run.phase with
  | windowed window =>
      rw [same] at phase
      exact ⟨phase.1, fun id listed => ⟨(phase.2 id listed).1, grown id (phase.2 id listed).2⟩⟩
  | mining window candidates =>
      rw [same] at phase
      exact ⟨⟨phase.1.1, fun id listed =>
        ⟨(phase.1.2 id listed).1, grown id (phase.1.2 id listed).2⟩⟩, phase.2⟩
  | _ => trivial

/-- What a run will still ask for is past its cursor. -/
theorem Run.Fits.past {drawn : List Nat} {run : Run} (fits : run.Fits lane drawn)
    (ahead : world.ahead run payload) : run.after < payload.id := by
  have phase := fits.phase
  have above : ∀ window, window ≠ [] → (∀ id ∈ window, run.after < id ∧ id ∈ drawn) →
      (∀ id ∈ window, id < payload.id) → run.after < payload.id := by
    intro window some_ past below
    obtain ⟨first, listed⟩ := List.exists_mem_of_ne_nil window some_
    exact (past first listed).1.trans (below first listed)
  unfold World.ahead at ahead
  cases same : run.phase with
  | loaded =>
      rw [same] at ahead
      cases ahead
  | walking =>
      rw [same] at ahead
      exact ahead
  | ended complete =>
      rw [same] at ahead
      exact ahead
  | windowed window =>
      rw [same] at ahead phase
      cases ahead with
      | inl listed => exact (phase.2 payload.id listed).1
      | inr beyond => exact above window phase.1 phase.2 beyond.2
  | mining window candidates =>
      rw [same] at ahead phase
      cases ahead with
      | inl chosen =>
          obtain ⟨candidate, listed, own, _⟩ := chosen
          exact (phase.1.2 payload.id (own ▸ phase.2.1 candidate listed)).1
      | inr beyond => exact above window phase.1.1 phase.1.2 beyond.2

theorem World.handled.settled {run : Run} (handled : world.handled run payload) :
    world.settled payload := by
  cases handled with
  | inl mined => exact .inl mined
  | inr asked =>
      obtain ⟨_, attempt, listed, _, own, missed⟩ := asked
      exact .inr ⟨attempt, listed, own, missed⟩

namespace Sound

variable {run : Run}

/-- Rows of one key change. -/
theorem rows (sound : Sound lane world) {payloads : List Payload} {drawn : List Nat}
    (key : String × String) (keyed : Keyed Payload.id payloads)
    (known : ∀ payload ∈ payloads, payload.id ∈ drawn ∧ 0 < payload.id)
    (grown : ∀ id ∈ world.drawn, id ∈ drawn)
    (others : ∀ payload, payload.key ≠ key → (payload ∈ payloads ↔ payload ∈ world.payloads))
    (old : ∀ payload ∈ payloads, payload.id ∉ world.drawn ∨ ∃ before ∈ world.payloads,
      before.id = payload.id ∧ before.source = payload.source ∧
        before.contractVersion = payload.contractVersion)
    (kept : PageKept lane { world with payloads := payloads, drawn := drawn } key) :
    Sound lane { world with payloads := payloads, drawn := drawn } where
  keyed := keyed
  drawn := fun payload held => (known payload held).1
  positive := fun payload held => (known payload held).2
  contracts := sound.contracts
  kept := by
    intro payload held current
    by_cases own : payload.key = key
    · exact kept payload held own current
    · have before : world.current payload = true :=
        current_of_rows current (fun other listed same =>
          (others other (same ▸ own)).mpr listed) id
      exact sound.kept payload ((others payload own).mp held) before
  fits := fun run opened => (sound.fits run opened).grow grown
  loaded := sound.loaded
  batch := by
    intro run opened payload held candidate listed same
    cases old payload held with
    | inl fresh =>
        exfalso
        apply fresh
        have phase := (sound.fits run opened).phase
        unfold Run.candidates at listed
        split at listed
        case h_1 window candidates mining =>
            rw [mining] at phase
            exact same ▸ (phase.1.2 candidate.1 (phase.2.1 candidate listed)).2
        case h_2 => cases listed
    | inr earlier =>
        obtain ⟨before, beforeHeld, ids, sources, stamps⟩ := earlier
        have bound := sound.batch run opened before beforeHeld candidate listed (same.trans ids.symm)
        rw [sources, stamps] at bound
        exact bound

theorem append (sound : Sound lane world) {row : Payload} {evicted : List Nat} (positive : row.id ≠ 0)
    (fresh : row.id ∉ world.drawn)
    (kept : PageKept lane (world.append row evicted) row.key) :
    Sound lane (world.append row evicted) := by
  unfold World.append at kept ⊢
  split_ifs at kept ⊢ with conflict
  · apply sound.rows row.key _ _ (fun _ listed => listed) _ _ kept
    · exact sound.keyed.updateRows fun _ => rfl
    · intro payload held
      obtain ⟨before, beforeHeld, rfl⟩ := mem_updateRows.mp held
      split_ifs
      · exact ⟨sound.drawn before beforeHeld, sound.positive before beforeHeld⟩
      · exact ⟨sound.drawn before beforeHeld, sound.positive before beforeHeld⟩
    · intro payload other
      have skipped : row.sameBody payload = false := by
        simp only [Payload.sameBody, Bool.and_eq_false_iff, decide_eq_false_iff_not]
        exact .inl (.inl other)
      constructor
      · intro held
        obtain ⟨before, beforeHeld, same⟩ := mem_updateRows.mp held
        split_ifs at same with own
        · rw [same] at other
          simp only [Payload.sameBody, Bool.and_eq_true, decide_eq_true_iff] at own
          exact absurd own.1.1 other
        · exact same ▸ beforeHeld
      · intro held
        apply mem_updateRows.mpr
        refine ⟨payload, held, ?_⟩
        rw [skipped]
        rfl
    · intro payload held
      obtain ⟨before, beforeHeld, rfl⟩ := mem_updateRows.mp held
      right
      refine ⟨before, beforeHeld, ?_⟩
      split_ifs
      · exact ⟨rfl, rfl, rfl⟩
      · exact ⟨rfl, rfl, rfl⟩
  · apply sound.rows row.key _ _ (fun _ listed => List.mem_append_left _ listed) _ _ kept
    · apply (sound.keyed.filter _).insert
      intro other held same
      exact fresh (same ▸ sound.drawn other (List.mem_of_mem_filter held))
    · intro payload held
      cases List.mem_append.mp held with
      | inl old =>
          have before := List.mem_of_mem_filter old
          exact ⟨List.mem_append_left _ (sound.drawn payload before), sound.positive payload before⟩
      | inr new =>
          cases List.mem_singleton.mp new
          exact ⟨List.mem_append_right _ (List.mem_singleton_self _), Nat.pos_of_ne_zero positive⟩
    · intro payload other
      constructor
      · intro held
        cases List.mem_append.mp held with
        | inl old => exact List.mem_of_mem_filter old
        | inr new =>
            cases List.mem_singleton.mp new
            exact absurd rfl other
      · intro held
        apply List.mem_append_left
        refine List.mem_filter.mpr ⟨held, ?_⟩
        rw [decide_eq_false other]
        rfl
    · intro payload held
      cases List.mem_append.mp held with
      | inl old => exact .inr ⟨payload, List.mem_of_mem_filter old, rfl, rfl, rfl⟩
      | inr new =>
          cases List.mem_singleton.mp new
          exact .inl fresh

theorem list (sound : Sound lane world) {source sourceIdNative : String}
    (kept : PageKept lane
      { world with listings := world.listings ++ [(source, sourceIdNative)] }
      (source, sourceIdNative)) :
    Sound lane { world with listings := world.listings ++ [(source, sourceIdNative)] } where
  keyed := sound.keyed
  drawn := sound.drawn
  positive := sound.positive
  contracts := sound.contracts
  kept := by
    intro payload held current
    by_cases own : payload.key = (source, sourceIdNative)
    · exact kept payload held own current
    · have listed : payload.key ∈ world.listings ++ [(source, sourceIdNative)] →
          payload.key ∈ world.listings := fun known =>
        (List.mem_append.mp known).resolve_right fun new => own (List.mem_singleton.mp new)
      have before : world.current payload = true :=
        current_of_rows current (fun _ among _ => among) listed
      exact sound.kept payload held before
  fits := sound.fits
  loaded := sound.loaded
  batch := sound.batch

section Contracts

variable {source : String} {version : Option Nat}

variable (source version) in
theorem keyed_activate (sound : Sound lane world) :
    Keyed Prod.fst (world.activate source version).contracts := by
  unfold World.activate
  cases version with
  | none =>
      simp only [Option.map_none, Option.toList_none, List.append_nil]
      exact sound.contracts.filter _
  | some version =>
      apply (sound.contracts.filter _).insert
      intro other listed same
      exact (of_decide_eq_true (List.mem_filter.mp listed).2) same

variable (version) in
theorem active_activate (sound : Sound lane world) {other : String} (apart : other ≠ source) :
    (world.activate source version).active other = world.active other := by
  have later := sound.keyed_activate source version
  apply Option.ext
  intro known
  unfold World.active
  rw [later.lookup, sound.contracts.lookup]
  simp only [World.activate, List.mem_append, List.mem_filter, Option.mem_toList,
    Option.map_eq_some_iff, Prod.mk.injEq]
  constructor
  · rintro (⟨held, _⟩ | ⟨_, _, same, _⟩)
    · exact held
    · exact absurd same.symm apart
  · intro held
    exact .inl ⟨held, decide_eq_true apart⟩

theorem activate (sound : Sound lane world)
    (kept : ChangeKept lane (world.activate source version) source) :
    Sound lane (world.activate source version) where
  keyed := sound.keyed
  drawn := sound.drawn
  positive := sound.positive
  contracts := sound.keyed_activate source version
  kept := by
    intro payload held current
    refine ⟨fun mark marked same => kept.stamp mark marked same payload held current, ?_⟩
    intro run opened live inSources
    by_cases own : payload.source = source
    · exact kept.walk run opened live (own ▸ inSources) payload held current own
    · have unchanged := sound.active_activate version own
      have before := (sound.kept payload held current).2 run opened live inSources
      unfold World.handled World.ahead World.unmined at before ⊢
      rw [unchanged]
      exact before
  fits := sound.fits
  loaded := by
    intro run opened phase store wet other
    by_cases own : other = source
    · rw [own]
      exact kept.load run opened phase store wet
    · have unchanged := sound.active_activate version own
      have before := sound.loaded run opened phase store wet other
      unfold Lane.capable at before ⊢
      rw [unchanged]
      exact before
  batch := by
    intro run opened payload held candidate listed same
    obtain ⟨inSources, bound⟩ := sound.batch run opened payload held candidate listed same
    refine ⟨inSources, ?_⟩
    intro live bears
    by_cases own : payload.source = source
    · rw [own] at bears ⊢
      exact kept.batch run opened live payload held own bears candidate listed same
    · rw [sound.active_activate version own] at bears ⊢
      exact bound live bears

end Contracts

/-! ### Stamps -/

/-- Stamps at the active versions, of pages that are unmined. -/
theorem mem_pagesMined {ids : List Nat} {stamp : Nat × Nat} (listed : stamp ∈ world.pagesMined ids) :
    ∃ payload ∈ world.payloads, payload.id = stamp.1 ∧ world.current payload = true ∧
      world.unmined payload = true ∧ world.active payload.source = some stamp.2 := by
  obtain ⟨payload, chosen, made⟩ := List.mem_filterMap.mp listed
  obtain ⟨version, active, rfl⟩ := Option.map_eq_some_iff.mp made
  obtain ⟨held, fits⟩ := List.mem_filter.mp chosen
  simp only [Bool.and_eq_true, decide_eq_true_iff] at fits
  exact ⟨payload, held, rfl, fits.1.2, fits.2, active⟩

/-- What an open batch has among its candidates the run has not yet asked for. -/
theorem asks_once (sound : Sound lane world) (opened : world.run = some run)
    {candidate : Nat × Nat} (listed : candidate ∈ run.candidates) :
    run.after < candidate.1 ∧ ∀ payload ∈ world.payloads, payload.id = candidate.1 →
      world.ahead run payload → world.active payload.source = some candidate.2 := by
  have phase := (sound.fits run opened).phase
  unfold Run.candidates at listed
  split at listed
  case h_2 => cases listed
  case h_1 window candidates mining =>
      rw [mining] at phase
      have inWindow := phase.2.1 candidate listed
      refine ⟨(phase.1.2 candidate.1 inWindow).1, ?_⟩
      intro payload held own ahead
      unfold World.ahead at ahead
      rw [mining] at ahead
      cases ahead with
      | inr beyond => exact absurd (beyond.2 candidate.1 inWindow) (own ▸ lt_irrefl _)
      | inl chosen =>
          obtain ⟨other, otherListed, same, active⟩ := chosen
          rw [phase.2.2.eq otherListed listed (same.trans own)] at active
          exact active

theorem mineElsewhere (sound : Sound lane world) (ids : List Nat) :
    Sound lane (world.stamp (world.pagesMined ids)) := by
  -- A stamped body bears its portal's active version.
  have stamped : ∀ payload ∈ world.payloads,
      payload.stamped (world.pagesMined ids) = payload ∨
        world.current payload = true ∧ world.unmined payload = true ∧ ∃ version,
          world.active payload.source = some version ∧
            (payload.stamped (world.pagesMined ids)).contractVersion = some version := by
    intro payload held
    by_cases listed : payload.id ∈ (world.pagesMined ids).map Prod.fst
    · right
      obtain ⟨version, found⟩ : ∃ version,
          (world.pagesMined ids).lookup payload.id = some version := by
        rw [← Option.ne_none_iff_exists']
        exact fun absent => lookup_eq_none_iff_key.mp absent listed
      obtain ⟨other, otherHeld, same, current, unmined, active⟩ := mem_pagesMined (mem_of_lookup found)
      cases sound.keyed.eq otherHeld held same
      exact ⟨current, unmined, version, active, stamped_of_lookup found⟩
    · exact .inl (stamped_of_not_mem listed)
  have mined : ∀ payload ∈ world.payloads,
      payload.stamped (world.pagesMined ids) = payload ∨
        (world.stamp (world.pagesMined ids)).unmined
          (payload.stamped (world.pagesMined ids)) = false := by
    intro payload held
    refine (stamped payload held).imp_right ?_
    rintro ⟨_, _, version, active, bears⟩
    apply unmined_eq_false_iff.mpr
    intro known knownActive
    rw [stamped_source] at knownActive
    rw [bears]
    exact active.symm.trans knownActive
  refine ⟨?_, ?_, ?_, sound.contracts, ?_, sound.fits, sound.loaded, ?_⟩
  · unfold Keyed World.stamp
    rw [List.map_map]
    have same : Payload.id ∘ (Payload.stamped · (world.pagesMined ids)) = Payload.id :=
      funext fun payload => stamped_id payload _
    rw [same]
    exact sound.keyed
  · intro payload held
    obtain ⟨before, beforeHeld, rfl⟩ := List.mem_map.mp held
    rw [stamped_id]
    exact sound.drawn before beforeHeld
  · intro payload held
    obtain ⟨before, beforeHeld, rfl⟩ := List.mem_map.mp held
    rw [stamped_id]
    exact sound.positive before beforeHeld
  · intro payload held current
    obtain ⟨before, beforeHeld, rfl⟩ := List.mem_map.mp held
    have kept := sound.kept before beforeHeld (current_of_map
      (Payload.stamped · (world.pagesMined ids))
      (fun other => ⟨stamped_readable other _, stamped_key other _, stamped_order other _⟩)
      current rfl rfl)
    cases mined before beforeHeld with
    | inl same =>
        rw [same]
        exact kept
    | inr bears => exact ⟨fun _ _ _ _ _ => .inl bears, fun _ _ _ _ => .inl (.inl bears)⟩
  · intro run opened payload held candidate listed same
    obtain ⟨before, beforeHeld, rfl⟩ := List.mem_map.mp held
    rw [stamped_id] at same
    rw [stamped_source]
    obtain ⟨inSources, bound⟩ := sound.batch run opened before beforeHeld candidate listed same
    refine ⟨inSources, ?_⟩
    intro live bears
    cases stamped before beforeHeld with
    | inl unchanged =>
        rw [unchanged] at bears
        exact bound live bears
    | inr fresh =>
        obtain ⟨current, unmined, _⟩ := fresh
        obtain ⟨past, asks⟩ := sound.asks_once opened listed
        left
        apply asks before beforeHeld same.symm
        cases (sound.kept before beforeHeld current).2 run opened live inSources with
        | inr ahead => exact ahead
        | inl handled =>
            cases handled with
            | inl already =>
                rw [unmined] at already
                cases already
            | inr asked => exact absurd (same ▸ asked.1) (not_le.mpr past)

/-! ### The pass -/

theorem begin_ (sound : Sound lane world) (hasStore dryRun : Bool) {cap : Nat}
    (positive : 0 < cap) :
    Sound lane { world with
      runs := world.runs + 1
      run := some {
        number := world.runs + 1
        pageSources := lane.wanted.filter (lane.capable world)
        hasStore := hasStore
        dryRun := dryRun
        cap := cap
        versions := []
        after := 0
        phase := .loaded } } := by
  refine ⟨sound.keyed, sound.drawn, sound.positive, sound.contracts, ?_, ?_, ?_, ?_⟩
  · intro payload held current
    refine ⟨(sound.kept payload held current).1, ?_⟩
    rintro run ⟨rfl⟩ live
    exact absurd rfl live.1
  · rintro run ⟨rfl⟩
    refine ⟨positive, fun source listed => List.mem_of_mem_filter listed, ?_, fun _ => rfl,
      fun _ => ⟨rfl, .inl rfl⟩, trivial⟩
    intro _ contract none_
    cases none_
  · rintro run ⟨rfl⟩ _ _ _ source
    constructor
    · intro capable
      refine List.mem_filter.mpr ⟨?_, capable⟩
      exact (of_decide_eq_true (Bool.and_eq_true _ _ ▸ capable).1)
    · intro listed
      exact (List.mem_filter.mp listed).2
  · rintro run ⟨rfl⟩ payload _ candidate none_
    cases none_

/-- The run goes on with the pages it left behind still kept. -/
theorem onward (sound : Sound lane world) {later : Run} (fits : later.Fits lane world.drawn)
    (walking : later.phase ≠ .loaded)
    (kept : ∀ payload ∈ world.payloads, world.current payload = true → later.live →
      payload.source ∈ later.pageSources →
        world.handled later payload ∨ world.ahead later payload)
    (batch : ∀ payload ∈ world.payloads, ∀ candidate ∈ later.candidates,
      candidate.1 = payload.id → payload.source ∈ later.pageSources ∧
        payload.contractVersion ≠ world.active payload.source) :
    Sound lane (world.onward later) where
  keyed := sound.keyed
  drawn := sound.drawn
  positive := sound.positive
  contracts := sound.contracts
  kept := by
    intro payload held current
    refine ⟨(sound.kept payload held current).1, ?_⟩
    rintro run ⟨rfl⟩ live inSources
    exact kept payload held current live inSources
  fits := by
    rintro run ⟨rfl⟩
    exact fits
  loaded := by
    rintro run ⟨rfl⟩ phase
    exact absurd phase walking
  batch := by
    rintro run ⟨rfl⟩ payload held candidate listed same
    obtain ⟨inSources, apart⟩ := batch payload held candidate listed same
    exact ⟨inSources, fun _ bears => absurd bears apart⟩

/-- The run is over, under the mark it leaves. -/
theorem close (sound : Sound lane world) {mark : Option Mark}
    (kept : ∀ left ∈ mark, left.versions = world.versions → ∀ payload ∈ world.payloads,
      world.current payload = true → lane.capable world payload.source = true →
        payload.id ≤ left.cursor → world.settled payload) :
    Sound lane { world with mark := mark, run := none } where
  keyed := sound.keyed
  drawn := sound.drawn
  positive := sound.positive
  contracts := sound.contracts
  kept := fun payload held current =>
    ⟨fun left marked same => kept left marked same payload held current, by rintro run ⟨⟩⟩
  fits := by rintro run ⟨⟩
  loaded := by rintro run ⟨⟩
  batch := by rintro run ⟨⟩

theorem kill (sound : Sound lane world) : Sound lane { world with run := none } :=
  sound.close fun mark marked same payload held current =>
    (sound.kept payload held current).1 mark marked same

theorem finish (sound : Sound lane world) (opened : world.run = some run) :
    Sound lane { world with mark := run.stampOver world.mark, run := none } := by
  have fits := sound.fits run opened
  apply sound.close
  intro left marked same payload held current capable behind
  unfold Run.stampOver at marked
  split_ifs at marked with dry nowhere
  · exact (sound.kept payload held current).1 left marked same capable behind
  · cases marked
  · cases marked
    have store : run.hasStore = true := by
      cases store : run.hasStore with
      | true => rfl
      | false => exact absurd (fits.storeless store).1 nowhere
    have live : run.live :=
      ⟨fun loaded => nowhere (fits.unread loaded), store, Bool.eq_false_iff.mpr dry⟩
    -- The versions the run read name the portal's page entries.
    have inSources : payload.source ∈ run.pageSources := by
      obtain ⟨wanted, pages⟩ := Bool.and_eq_true_iff.mp capable
      obtain ⟨version, active, paged⟩ := (Option.any_eq_true _ _).mp pages
      have contract : (payload.source, version) ∈ run.versions := by
        change run.versions = world.versions at same
        rw [same]
        exact mem_sortedBy.mpr (mem_of_lookup active)
      exact fits.named live.2.2 _ contract (of_decide_eq_true wanted) paged
    cases (sound.kept payload held current).2 run opened live inSources with
    | inl handled => exact handled.settled
    | inr ahead => exact absurd (fits.past ahead) (not_lt.mpr behind)

theorem resume (sound : Sound lane world) (opened : world.run = some run)
    (loaded : run.phase = .loaded) (store : run.hasStore = true)
    (below : NothingBehind lane world .resume) :
    Sound lane (world.onward { run with
      versions := world.versions, after := world.resumePoint, phase := .walking }) := by
  have fits := sound.fits run opened
  apply sound.onward _ (by simp) _ (by rintro _ _ _ ⟨⟩)
  · refine ⟨fits.positive, fits.wanted, ?_, (by rintro ⟨⟩), ?_, trivial⟩
    · intro wet contract listed wanted paged
      apply (sound.loaded run opened loaded store wet contract.1).mp
      have active : world.active contract.1 = some contract.2 :=
        sound.contracts.lookup.mpr (mem_sortedBy.mp listed)
      exact Bool.and_eq_true_iff.mpr
        ⟨decide_eq_true wanted, (Option.any_eq_true _ _).mpr ⟨contract.2, active, paged⟩⟩
    · intro none_
      rw [store] at none_
      cases none_
  · intro payload held current live inSources
    by_cases unmined : world.unmined payload = true
    · right
      change world.resumePoint < payload.id
      by_contra behind
      have capable := (sound.loaded run opened loaded store live.2.2 payload.source).mpr inSources
      have settled : world.settled payload := by
        unfold World.resumePoint at behind
        cases marked : world.mark with
        | none =>
            rw [marked] at behind
            exact absurd (sound.positive payload held) behind
        | some mark =>
            rw [marked] at behind
            dsimp only at behind
            split_ifs at behind with same
            · exact (sound.kept payload held current).1 mark marked same capable (not_lt.mp behind)
            · exact absurd (sound.positive payload held) behind
      cases settled with
      | inl mined =>
          rw [unmined] at mined
          cases mined
      | inr skipped =>
          exact behind (below run opened store live.2.2 payload held current inSources unmined skipped)
    · exact .inl (.inl (Bool.eq_false_iff.mpr unmined))

theorem readWindow (sound : Sound lane world) (opened : world.run = some run)
    (walking : run.phase = .walking) (some_ : lane.window world run ≠ []) :
    Sound lane (world.onward { run with phase := .windowed (lane.window world run) }) := by
  have fits := sound.fits run opened
  apply sound.onward _ (by simp) _ (by rintro _ _ _ ⟨⟩)
  · refine ⟨fits.positive, fits.wanted, fits.named, (by rintro ⟨⟩), ?_, some_, ?_⟩
    · intro none_
      have idle := (fits.storeless none_).2
      rw [walking] at idle
      cases idle <;> contradiction
    · intro id listed
      obtain ⟨payload, held, rfl, past⟩ := mem_window listed
      exact ⟨past, sound.drawn payload held⟩
  · intro payload held current live inSources
    have walked : run.live := ⟨(by rw [walking]; simp), live.2⟩
    cases (sound.kept payload held current).2 run opened walked inSources with
    | inl handled => exact .inl handled
    | inr ahead =>
        by_cases unmined : world.unmined payload = true
        · right
          exact window_covers sound.keyed held (current_iff.mp current).1 fits.wanted inSources
            unmined (fits.past ahead)
        · exact .inl (.inl (Bool.eq_false_iff.mpr unmined))

theorem readBodies (sound : Sound lane world) (opened : world.run = some run) {window : List Nat}
    (windowed : run.phase = .windowed window) :
    Sound lane (world.onward { run with
      phase := .mining window (world.candidates run window) }) := by
  have fits := sound.fits run opened
  have phase := fits.phase
  rw [windowed] at phase
  apply sound.onward _ (by simp)
  · intro payload held current live inSources
    have walked : run.live := ⟨(by rw [windowed]; simp), live.2⟩
    cases (sound.kept payload held current).2 run opened walked inSources with
    | inl handled => exact .inl handled
    | inr ahead =>
        unfold World.ahead at ahead
        rw [windowed] at ahead
        cases ahead with
        | inr beyond => exact .inr (.inr beyond)
        | inl listed =>
            by_cases unmined : world.unmined payload = true
            · obtain ⟨version, active, _⟩ := (Option.any_eq_true _ _).mp unmined
              exact .inr (.inl ⟨(payload.id, version), mem_candidates.mpr
                ⟨payload, held, rfl, listed, current, unmined, inSources, active⟩, rfl, active⟩)
            · exact .inl (.inl (Bool.eq_false_iff.mpr unmined))
  · intro payload held candidate listed same
    obtain ⟨own, ownHeld, ownId, _, _, unmined, inSources, active⟩ := mem_candidates.mp listed
    cases sound.keyed.eq ownHeld held (ownId.trans same)
    refine ⟨inSources, fun bears => ?_⟩
    rw [active] at bears
    unfold World.unmined at unmined
    rw [active, bears] at unmined
    simp at unmined
  · refine ⟨fits.positive, fits.wanted, fits.named, (by rintro ⟨⟩), ?_, phase, ?_, ?_⟩
    · intro none_
      have idle := (fits.storeless none_).2
      rw [windowed] at idle
      cases idle <;> contradiction
    · intro candidate listed
      obtain ⟨_, _, own, inWindow, _⟩ := mem_candidates.mp listed
      exact own ▸ inWindow
    · exact keyed_candidates sound.keyed

theorem rollback (sound : Sound lane world) (opened : world.run = some run) {phase : Phase}
    (outside : phase = .walking ∨ phase = .ended false) (begun : run.phase ≠ .loaded)
    (within : ∀ complete, run.phase ≠ .ended complete) :
    Sound lane (world.onward { run with phase := phase }) := by
  have fits := sound.fits run opened
  have none_ : Run.candidates { run with phase := phase } = [] := by
    cases outside with
    | inl walking => rw [walking]; rfl
    | inr ended => rw [ended]; rfl
  apply sound.onward
  · refine ⟨fits.positive, fits.wanted, fits.named, ?_, ?_, ?_⟩
    · rintro rfl
      cases outside <;> contradiction
    · intro storeless
      cases (fits.storeless storeless).2 with
      | inl loaded => exact absurd loaded begun
      | inr ended => exact absurd ended (within true)
    · cases outside with
      | inl walking => rw [walking]; trivial
      | inr ended => rw [ended]; trivial
  · rintro rfl
    cases outside <;> contradiction
  · intro payload held current live inSources
    cases (sound.kept payload held current).2 run opened ⟨begun, live.2⟩ inSources with
    | inl handled => exact .inl handled
    | inr ahead =>
        right
        have past := fits.past ahead
        cases outside with
        | inl walking => rw [walking]; exact past
        | inr ended => rw [ended]; exact past
  · intro payload held candidate listed
    rw [none_] at listed
    cases listed

/-- An empty window is the end of the keyset. -/
theorem handled_of_empty (sound : Sound lane world) (opened : world.run = some run)
    (walking : run.phase = .walking) (empty : lane.window world run = [])
    (store : run.hasStore = true) (wet : run.dryRun = false) (held : payload ∈ world.payloads)
    (current : world.current payload = true) (inSources : payload.source ∈ run.pageSources) :
    world.handled run payload := by
  have fits := sound.fits run opened
  have live : run.live := ⟨(by rw [walking]; simp), store, wet⟩
  cases (sound.kept payload held current).2 run opened live inSources with
  | inl handled => exact handled
  | inr ahead =>
      by_cases unmined : world.unmined payload = true
      · have covered := window_covers sound.keyed held (current_iff.mp current).1 fits.wanted
          inSources unmined (fits.past ahead)
        rw [empty] at covered
        cases covered with
        | inl listed => cases listed
        | inr full => exact absurd fits.positive (not_lt.mpr full.1)
      · exact .inl (Bool.eq_false_iff.mpr unmined)

theorem endEmpty (sound : Sound lane world) (opened : world.run = some run)
    (walking : run.phase = .walking) (empty : lane.window world run = []) :
    Sound lane (world.onward { run with phase := .ended true }) := by
  have fits := sound.fits run opened
  apply sound.onward _ (by simp) _ (by rintro _ _ _ ⟨⟩)
  · refine ⟨fits.positive, fits.wanted, fits.named, (by rintro ⟨⟩), ?_, trivial⟩
    exact fun storeless => ⟨(fits.storeless storeless).1, .inr rfl⟩
  · intro payload held current live inSources
    have handled : world.handled run payload :=
      sound.handled_of_empty opened walking empty live.2.1 live.2.2 held current inSources
    exact .inl handled

theorem endUnread (sound : Sound lane world) (opened : world.run = some run)
    (loaded : run.phase = .loaded) (nothing : run.hasStore = false ∨ run.pageSources = []) :
    Sound lane (world.onward { run with phase := .ended true }) := by
  have fits := sound.fits run opened
  apply sound.onward _ (by simp) _ (by rintro _ _ _ ⟨⟩)
  · refine ⟨fits.positive, fits.wanted, fits.named, (by rintro ⟨⟩), ?_, trivial⟩
    exact fun _ => ⟨fits.unread loaded, .inr rfl⟩
  · intro payload held current live inSources
    cases nothing with
    | inl storeless =>
        rw [live.2.1] at storeless
        cases storeless
    | inr none_ =>
        rw [none_] at inSources
        cases inSources

section Batch

variable {window : List Nat} {asked : List ((Nat × Nat) × Outcome)}

/-- The stamps of a batch's mined bodies. -/
def stampsOf (asked : List ((Nat × Nat) × Outcome)) : List (Nat × Nat) :=
  (asked.filter fun ask => decide (ask.2 = .mined)).map Prod.fst

/-- A row as the batch leaves it. -/
def closed (run : Run) (asked : List ((Nat × Nat) × Outcome)) (payload : Payload) : Payload :=
  if run.dryRun then payload else payload.stamped (stampsOf asked)

theorem closed_keeps (payload : Payload) :
    (closed run asked payload).readable = payload.readable ∧
      (closed run asked payload).key = payload.key ∧
        (closed run asked payload).order = payload.order := by
  unfold closed
  split_ifs <;> simp

@[simp] theorem closed_id : (closed run asked payload).id = payload.id := by
  unfold closed
  split_ifs <;> simp

@[simp] theorem closed_source : (closed run asked payload).source = payload.source := by
  unfold closed
  split_ifs <;> simp

theorem closeBatch_eq : world.closeBatch run window asked =
    { world with
      payloads := world.payloads.map (closed run asked)
      attempts := world.attempts ++ asked.map fun ask =>
        { run := run.number, id := ask.1.1, outcome := ask.2 }
      run := some (run.afterBatch window) } := by
  unfold World.closeBatch closed
  cases run.dryRun with
  | true => simp
  | false => rfl

/-- What is mined stays mined under the stamps of a batch. -/
theorem unmined_closed (sound : Sound lane world) (opened : world.run = some run)
    (begun : run.phase ≠ .loaded) (store : run.hasStore = true)
    (listed : ∀ ask ∈ asked, ask.1 ∈ run.candidates) (held : payload ∈ world.payloads)
    (mined : world.unmined payload = false) :
    world.unmined (closed run asked payload) = false := by
  unfold closed
  split_ifs with dry
  · exact mined
  · by_cases stamped : payload.id ∈ (stampsOf asked).map Prod.fst
    · obtain ⟨version, found⟩ : ∃ version, (stampsOf asked).lookup payload.id = some version := by
        rw [← Option.ne_none_iff_exists']
        exact fun absent => lookup_eq_none_iff_key.mp absent stamped
      obtain ⟨ask, asking, same⟩ := List.mem_map.mp (mem_of_lookup found)
      have candidate : (payload.id, version) ∈ run.candidates :=
        same ▸ listed ask (List.mem_of_mem_filter asking)
      have bound := (sound.batch run opened payload held _ candidate rfl).2
        ⟨begun, store, Bool.eq_false_iff.mpr dry⟩
      apply unmined_eq_false_iff.mpr
      intro active known
      rw [stamped_source] at known
      rw [stamped_of_lookup found]
      have bears := unmined_eq_false_iff.mp mined active known
      have agrees := bound (bears.trans known.symm)
      rw [known] at agrees
      cases agrees with
      | inl same => exact same.symm
      | inr none_ => cases none_
    · rw [stamped_of_not_mem stamped]
      exact mined

/-- A page the batch had, or that was handled before it, is handled after it. -/
theorem handled_closeBatch (sound : Sound lane world) (opened : world.run = some run)
    {candidates : List (Nat × Nat)} (mining : run.phase = .mining window candidates)
    (asks : asked.map Prod.fst = candidates) (live : run.live) (held : payload ∈ world.payloads)
    (current : world.current payload = true) (inSources : payload.source ∈ run.pageSources) :
    (world.closeBatch run window asked).handled (run.afterBatch window)
        (closed run asked payload) ∨
      run.cap ≤ window.length ∧ batchCursor window < payload.id := by
  have fits := (sound.fits run opened).phase
  rw [mining] at fits
  obtain ⟨⟨some_, past⟩, inWindow, keyed⟩ := fits
  have listed : ∀ ask ∈ asked, ask.1 ∈ run.candidates := by
    intro ask asking
    unfold Run.candidates
    rw [mining, ← asks]
    exact List.mem_map_of_mem asking
  rw [closeBatch_eq]
  cases (sound.kept payload held current).2 run opened live inSources with
  | inl handled =>
      left
      cases handled with
      | inl mined => exact .inl (sound.unmined_closed opened live.1 live.2.1 listed held mined)
      | inr attempted =>
          obtain ⟨behind, attempt, recorded, own, same, missed⟩ := attempted
          right
          refine ⟨?_, attempt, List.mem_append_left _ recorded, own, ?_, missed⟩
          · obtain ⟨first, among⟩ := List.exists_mem_of_ne_nil window some_
            rw [closed_id]
            exact behind.trans ((past first among).1.le.trans (le_batchCursor among))
          · rw [closed_id]
            exact same
  | inr ahead =>
      unfold World.ahead at ahead
      rw [mining] at ahead
      cases ahead with
      | inr beyond =>
          exact .inr ⟨beyond.1, batchCursor_lt beyond.2 (sound.positive payload held)⟩
      | inl chosen =>
          left
          obtain ⟨candidate, among, own, active⟩ := chosen
          obtain ⟨ask, asking, same⟩ := List.mem_map.mp (asks ▸ among)
          by_cases mined : ask.2 = .mined
          · left
            have stamp : (payload.id, candidate.2) ∈ stampsOf asked := by
              apply List.mem_map.mpr
              refine ⟨ask, List.mem_filter.mpr ⟨asking, decide_eq_true mined⟩, ?_⟩
              rw [same, ← own]
            have once : Keyed Prod.fst (stampsOf asked) := by
              have sub : List.Sublist (stampsOf asked) candidates := by
                rw [← asks]
                exact (List.filter_sublist).map Prod.fst
              exact keyed.sublist (sub.map Prod.fst)
            apply unmined_eq_false_iff.mpr
            intro version known
            change world.active (closed run asked payload).source = some version at known
            rw [closed_source, active] at known
            unfold closed
            rw [if_neg (by rw [live.2.2]; simp), stamped_of_lookup (once.lookup.mpr stamp)]
            exact known
          · right
            refine ⟨?_, _, List.mem_append_right _ (List.mem_map_of_mem asking), rfl, ?_, mined⟩
            · rw [closed_id, ← own]
              exact le_batchCursor (inWindow candidate among)
            · rw [closed_id, same]
              exact own

theorem closeBatch (sound : Sound lane world) (opened : world.run = some run)
    {candidates : List (Nat × Nat)} (mining : run.phase = .mining window candidates)
    (asks : asked.map Prod.fst = candidates) : Sound lane (world.closeBatch run window asked) := by
  have fits := sound.fits run opened
  have begun : run.phase ≠ .loaded := by rw [mining]; simp
  have store : run.hasStore = true := by
    cases store : run.hasStore with
    | true => rfl
    | false =>
        have idle := (fits.storeless store).2
        rw [mining] at idle
        cases idle <;> contradiction
  have listed : ∀ ask ∈ asked, ask.1 ∈ run.candidates := by
    intro ask asking
    unfold Run.candidates
    rw [mining, ← asks]
    exact List.mem_map_of_mem asking
  have earlier : ∀ payload, (world.closeBatch run window asked).current
      (closed run asked payload) = true → world.current payload = true := by
    intro payload current
    rw [closeBatch_eq] at current
    exact current_of_map _ closed_keeps current rfl rfl
  have afterward : (run.afterBatch window).phase ≠ .loaded := by
    unfold Run.afterBatch
    dsimp only
    split_ifs <;> simp
  have rows : (world.closeBatch run window asked).payloads =
      world.payloads.map (closed run asked) := by rw [closeBatch_eq]
  refine ⟨?_, ?_, ?_, ?_, ?_, ?_, ?_, ?_⟩
  · unfold Keyed
    rw [rows, List.map_map]
    have same : Payload.id ∘ closed run asked = Payload.id := funext fun payload => closed_id
    rw [same]
    exact sound.keyed
  · rw [closeBatch_eq]
    intro payload held
    obtain ⟨before, beforeHeld, rfl⟩ := List.mem_map.mp held
    rw [closed_id]
    exact sound.drawn before beforeHeld
  · rw [closeBatch_eq]
    intro payload held
    obtain ⟨before, beforeHeld, rfl⟩ := List.mem_map.mp held
    rw [closed_id]
    exact sound.positive before beforeHeld
  · rw [closeBatch_eq]
    exact sound.contracts
  · intro payload held current
    rw [rows] at held
    obtain ⟨before, beforeHeld, rfl⟩ := List.mem_map.mp held
    have known := earlier before current
    refine ⟨?_, ?_⟩
    · rw [closeBatch_eq]
      intro mark marked same capable behind
      rw [closed_source] at capable
      rw [closed_id] at behind
      cases (sound.kept before beforeHeld known).1 mark marked same capable behind with
      | inl mined => exact .inl (sound.unmined_closed opened begun store listed beforeHeld mined)
      | inr skipped =>
          obtain ⟨attempt, recorded, own, missed⟩ := skipped
          exact .inr ⟨attempt, List.mem_append_left _ recorded, own.trans closed_id.symm, missed⟩
    · intro later opened_ live inSources
      rw [closeBatch_eq] at opened_
      cases opened_
      rw [closed_source] at inSources
      cases sound.handled_closeBatch opened mining asks ⟨begun, live.2⟩ beforeHeld known
        inSources with
      | inl handled => exact .inl handled
      | inr beyond =>
          right
          have wet : ¬ run.dryRun = true := Bool.eq_false_iff.mp live.2.2
          unfold World.ahead Run.afterBatch
          dsimp only
          rw [if_neg wet, if_neg (not_lt.mpr beyond.1), closed_id]
          exact beyond.2
  · rw [closeBatch_eq]
    rintro later ⟨rfl⟩
    refine ⟨fits.positive, fits.wanted, fits.named, ?_, ?_, ?_⟩
    · exact fun loaded => absurd loaded afterward
    · intro storeless
      change run.hasStore = false at storeless
      rw [store] at storeless
      cases storeless
    · unfold Run.afterBatch
      dsimp only
      split_ifs <;> trivial
  · rw [closeBatch_eq]
    rintro later ⟨rfl⟩ loaded
    exact absurd loaded afterward
  · rw [closeBatch_eq]
    rintro later ⟨rfl⟩ payload _ candidate among
    unfold Run.candidates Run.afterBatch at among
    dsimp only at among
    split_ifs at among <;> cases among

end Batch

/-! ### Steps -/

theorem passStep (sound : Sound lane world) (opened : world.run = some run) {action : Action}
    {after : World} (below : NothingBehind lane world action)
    (taken : passStep lane world run action = some after) : Sound lane after := by
  cases action with
  | resume =>
      simp only [BodiesPass.passStep] at taken
      split at taken
      case h_2 => cases taken
      case h_1 loaded =>
          split_ifs at taken with nothing
          · cases taken
            exact sound.endUnread opened loaded nothing
          · cases taken
            push Not at nothing
            exact sound.resume opened loaded (Bool.eq_true_of_not_eq_false nothing.1) below
  | readWindow =>
      simp only [BodiesPass.passStep] at taken
      split at taken
      case h_2 => cases taken
      case h_1 walking =>
          split_ifs at taken with empty
          · cases taken
            exact sound.endEmpty opened walking empty
          · cases taken
            exact sound.readWindow opened walking empty
  | readBodies =>
      simp only [BodiesPass.passStep] at taken
      split at taken
      case h_2 => cases taken
      case h_1 window windowed =>
          cases taken
          exact sound.readBodies opened windowed
  | commit outcomes =>
      simp only [BodiesPass.passStep] at taken
      split at taken
      case h_2 => cases taken
      case h_1 window candidates mining =>
          split_ifs at taken with each
          cases taken
          exact sound.closeBatch opened mining (List.map_fst_zip each.ge)
  | retry =>
      simp only [BodiesPass.passStep] at taken
      split at taken
      case h_1 window windowed =>
          cases taken
          exact sound.rollback opened (.inl rfl) (by rw [windowed]; simp) (by rw [windowed]; simp)
      case h_2 window candidates mining =>
          cases taken
          exact sound.rollback opened (.inl rfl) (by rw [mining]; simp) (by rw [mining]; simp)
      case h_3 => cases taken
  | stop =>
      simp only [BodiesPass.passStep] at taken
      split at taken
      case h_2 => cases taken
      case h_1 walking =>
          cases taken
          exact sound.rollback opened (.inr rfl) (by rw [walking]; simp) (by rw [walking]; simp)
  | finish =>
      cases taken
      exact sound.finish opened
  | kill =>
      cases taken
      exact sound.kill
  | _ => cases taken

theorem step (sound : Sound lane world) {action : Action} {after : World}
    (below : NothingBehind lane world action) (taken : step lane world action = some after) :
    Sound lane after := by
  cases action with
  | append row evicted =>
      simp only [BodiesPass.step] at taken
      split_ifs at taken with known
      cases taken
      push Not at known
      exact sound.append known.1 known.2 below
  | list source sourceIdNative =>
      cases taken
      exact sound.list below
  | activate source version =>
      cases taken
      exact sound.activate below
  | mineElsewhere ids =>
      cases taken
      exact sound.mineElsewhere ids
  | begin_ hasStore dryRun cap =>
      simp only [BodiesPass.step] at taken
      split_ifs at taken with ready
      cases taken
      exact sound.begin_ hasStore dryRun ready.2.1
  | _ =>
      obtain ⟨run, opened, moved⟩ := Option.bind_eq_some_iff.mp taken
      exact sound.passStep opened below moved

end Sound

/-! ### A pass that ends complete -/

/-- The step ends the pass of a run with a store, complete and no dry run. -/
structure Completes (world after : World) (run : Run) : Prop where
  opened : after.run = some run
  complete : run.phase = .ended true
  store : run.hasStore = true
  wet : run.dryRun = false
  new : ∀ before ∈ world.run, before.phase ≠ .ended true

/-- What ends a pass complete: nothing to mine, an empty window, or the batch of a short one. -/
inductive Ends (lane : Lane) (world after : World) (run : Run) : Prop where
  | idle (storeless : run.hasStore = false ∨ run.pageSources = [])
  | empty (before : Run) (opened : world.run = some before) (walking : before.phase = .walking)
      (nothing : lane.window world before = [])
      (same : after = world.onward run) (ended : run = { before with phase := .ended true })
  | batch (before : Run) (window : List Nat) (candidates : List (Nat × Nat))
      (outcomes : List Outcome) (opened : world.run = some before)
      (mining : before.phase = .mining window candidates)
      (each : outcomes.length = candidates.length) (short : window.length < before.cap)
      (same : after = world.closeBatch before window (candidates.zip outcomes))
      (ended : run = before.afterBatch window)

/-- A batch ends a pass complete when its window was short. -/
theorem Run.short_of_afterBatch {before : Run} {window : List Nat}
    (wet : (before.afterBatch window).dryRun = false)
    (complete : (before.afterBatch window).phase = .ended true) : window.length < before.cap := by
  have written : ¬ before.dryRun = true := Bool.eq_false_iff.mp wet
  by_contra full
  unfold Run.afterBatch at complete
  dsimp only at complete
  rw [if_neg written, if_neg full] at complete
  cases complete

theorem Completes.ends {action : Action} {after : World} {run : Run}
    (completes : Completes world after run)
    (taken : BodiesPass.step lane world action = some after) : Ends lane world after run := by
  obtain ⟨opened, complete, store, wet, new⟩ := completes
  have aside : ¬ after.run = world.run := fun same => new run (same ▸ opened) complete
  cases action with
  | append row evicted =>
      simp only [BodiesPass.step] at taken
      split_ifs at taken
      cases taken
      exfalso
      apply aside
      unfold World.append
      split_ifs <;> rfl
  | list source sourceIdNative =>
      cases taken
      exact absurd rfl aside
  | activate source version =>
      cases taken
      exact absurd rfl aside
  | mineElsewhere ids =>
      cases taken
      exact absurd rfl aside
  | begin_ hasStore dryRun cap =>
      simp only [BodiesPass.step] at taken
      split_ifs at taken
      cases taken
      cases opened
      cases complete
  | resume =>
      obtain ⟨before, was, moved⟩ := Option.bind_eq_some_iff.mp taken
      simp only [BodiesPass.passStep] at moved
      split at moved
      case h_2 => cases moved
      case h_1 =>
          split_ifs at moved with nothing
          · cases moved
            cases opened
            exact .idle nothing
          · cases moved
            cases opened
            cases complete
  | readWindow =>
      obtain ⟨before, was, moved⟩ := Option.bind_eq_some_iff.mp taken
      simp only [BodiesPass.passStep] at moved
      split at moved
      case h_2 => cases moved
      case h_1 walking =>
          split_ifs at moved with nothing
          · cases moved
            cases opened
            exact .empty before was walking nothing rfl rfl
          · cases moved
            cases opened
            cases complete
  | readBodies =>
      obtain ⟨before, was, moved⟩ := Option.bind_eq_some_iff.mp taken
      simp only [BodiesPass.passStep] at moved
      split at moved
      case h_2 => cases moved
      case h_1 =>
          cases moved
          cases opened
          cases complete
  | commit outcomes =>
      obtain ⟨before, was, moved⟩ := Option.bind_eq_some_iff.mp taken
      simp only [BodiesPass.passStep] at moved
      split at moved
      case h_2 => cases moved
      case h_1 window candidates mining =>
          split_ifs at moved with each
          cases moved
          have closed := opened
          rw [Sound.closeBatch_eq] at closed
          cases closed
          exact .batch before window candidates outcomes was mining each
            (Run.short_of_afterBatch wet complete) rfl rfl
  | retry =>
      obtain ⟨before, was, moved⟩ := Option.bind_eq_some_iff.mp taken
      simp only [BodiesPass.passStep] at moved
      split at moved
      case h_3 => cases moved
      all_goals
        cases moved
        cases opened
        cases complete
  | stop =>
      obtain ⟨before, was, moved⟩ := Option.bind_eq_some_iff.mp taken
      simp only [BodiesPass.passStep] at moved
      split at moved
      case h_2 => cases moved
      case h_1 =>
          cases moved
          cases opened
          cases complete
  | finish =>
      obtain ⟨before, was, moved⟩ := Option.bind_eq_some_iff.mp taken
      cases moved
      cases opened
  | kill =>
      obtain ⟨before, was, moved⟩ := Option.bind_eq_some_iff.mp taken
      cases moved
      cases opened

theorem Sound.handled_of_completes (sound : Sound lane world) {action : Action} {after : World}
    {run : Run} (taken : BodiesPass.step lane world action = some after)
    (completes : Completes world after run) (held : payload ∈ after.payloads)
    (current : after.current payload = true) (inSources : payload.source ∈ run.pageSources) :
    after.handled run payload := by
  have store := completes.store
  have wet := completes.wet
  cases completes.ends taken with
  | idle storeless =>
      cases storeless with
      | inl storeless =>
          rw [store] at storeless
          cases storeless
      | inr none_ =>
          rw [none_] at inSources
          cases inSources
  | empty before opened walking nothing same ended =>
      subst same ended
      have handled : world.handled before payload :=
        sound.handled_of_empty opened walking nothing store wet held current inSources
      exact handled
  | batch before window candidates outcomes opened mining each short same ended =>
      subst same ended
      rw [closeBatch_eq] at held current
      obtain ⟨old, oldHeld, rfl⟩ := List.mem_map.mp held
      rw [closed_source] at inSources
      have known : world.current old = true := current_of_map _ closed_keeps current rfl rfl
      cases sound.handled_closeBatch opened mining (List.map_fst_zip each.ge)
        ⟨(by rw [mining]; simp), store, wet⟩ oldHeld known inSources with
      | inl handled => exact handled
      | inr full => exact absurd short (not_lt.mpr full.1)

/-- Whatever step ends a pass complete, each page no attempt on which failed bears the active
version of its contract. -/
def MinesPages (lane : Lane) (world : World) : Prop :=
  ∀ action after run, step lane world action = some after → Completes world after run →
    ∀ payload ∈ after.payloads, after.current payload = true → payload.source ∈ run.pageSources →
      (∀ attempt ∈ after.attempts, attempt.id = payload.id → attempt.outcome = .mined) →
        ∀ version, after.active payload.source = some version →
          payload.contractVersion = some version

/-- Then too, a page that an earlier run left unstamped was asked for by a later one. -/
def AsksAgain (lane : Lane) (world : World) : Prop :=
  ∀ action after run, step lane world action = some after → Completes world after run →
    ∀ attempt ∈ after.attempts, attempt.run < run.number → attempt.outcome ≠ .mined →
      ∀ payload ∈ after.payloads, payload.id = attempt.id → after.current payload = true →
        payload.source ∈ run.pageSources → after.unmined payload = true →
          ∃ later ∈ after.attempts, later.id = attempt.id ∧ attempt.run < later.run

theorem Sound.minesPages (sound : Sound lane world) : MinesPages lane world := by
  intro action after run taken completes payload held current inSources served
  cases sound.handled_of_completes taken completes held current inSources with
  | inl mined => exact unmined_eq_false_iff.mp mined
  | inr asked =>
      obtain ⟨_, attempt, listed, _, own, missed⟩ := asked
      exact absurd (served attempt listed own) missed

theorem Sound.asksAgain (sound : Sound lane world) : AsksAgain lane world := by
  intro action after run taken completes attempt _ earlier _ payload held own current inSources
    unmined
  cases sound.handled_of_completes taken completes held current inSources with
  | inl mined =>
      rw [unmined] at mined
      cases mined
  | inr asked =>
      obtain ⟨_, later, listed, number, same, _⟩ := asked
      exact ⟨later, listed, same.trans own, number ▸ earlier⟩

/-! ### Runs -/

/-- An archive under its keys, before the lane's first run. -/
structure World.Initial (world : World) : Prop where
  keyed : Keyed Payload.id world.payloads
  drawn : ∀ payload ∈ world.payloads, payload.id ∈ world.drawn ∧ 0 < payload.id
  contracts : Keyed Prod.fst world.contracts
  unmarked : world.mark = none
  idle : world.run = none

theorem World.Initial.sound (initial : world.Initial) : Sound lane world where
  keyed := initial.keyed
  drawn := fun payload held => (initial.drawn payload held).1
  positive := fun payload held => (initial.drawn payload held).2
  contracts := initial.contracts
  kept := fun _ _ _ => ⟨by rw [initial.unmarked]; rintro mark ⟨⟩, by rw [initial.idle]; rintro run ⟨⟩⟩
  fits := by rw [initial.idle]; rintro run ⟨⟩
  loaded := by rw [initial.idle]; rintro run ⟨⟩
  batch := by rw [initial.idle]; rintro run ⟨⟩

theorem pass_mines_current_pages (lane : Lane) (start world : World) (initial : start.Initial)
    (reached : Reaches (step lane) (NothingBehind lane) start world) :
    MinesPages lane world ∧ AsksAgain lane world := by
  have sound : Sound lane world := reached.invariant (Sound lane) initial.sound
    fun _ _ _ sound below taken => sound.step below taken
  exact ⟨sound.minesPages, sound.asksAgain⟩

/-! ### A page that goes back to a body below the cursor -/

def portal : Lane where
  sources := ["remax"]
  source := none
  pages := fun _ _ => true

def bodyOf (id : Nat) (sha : String) (at_ : ℚ) : Payload where
  id := id
  source := "remax"
  sourceIdNative := "17"
  pageKind := .detail
  payloadSha256 := sha
  httpStatus := some 200
  lastObservedAt := at_
  contractVersion := none

/-- A listing whose page was A and is B. -/
def archived : World where
  payloads := [bodyOf 1 "A" 10, bodyOf 2 "B" 20]
  listings := [("remax", "17")]
  contracts := [("remax", 1)]
  mark := none
  run := none
  drawn := [1, 2]
  runs := 0
  attempts := []

theorem archived_initial : archived.Initial where
  keyed := by unfold Keyed; decide
  drawn := by decide
  contracts := by unfold Keyed; decide
  unmarked := rfl
  idle := rfl

/-- An older body archived late, a refusal of B, a contract bump, and a run whose pass is about to
end on B. -/
def bumped : List Action :=
  [.append (bodyOf 3 "C" 15) [1], .begin_ true false 10, .resume, .readWindow, .readBodies,
    .commit [.refused], .finish, .activate "remax" (some 2), .begin_ true false 10, .resume,
    .readWindow, .readBodies]

theorem bumped_pages_are_mined :
    ∃ world after run, replay (step portal) archived bumped = some world ∧
      step portal world (.commit [.mined]) = some after ∧ Completes world after run ∧
        MinesPages portal world ∧ AsksAgain portal world := by
  obtain ⟨world, replayed⟩ : ∃ world, replay (step portal) archived bumped = some world :=
    Option.isSome_iff_exists.mp (by decide +kernel)
  have facts : (replay (step portal) archived bumped).all fun world =>
      (step portal world (.commit [.mined])).any fun after => after.run.any fun run =>
        decide (run.phase = .ended true) && run.hasStore && !run.dryRun &&
          world.run.all fun before => decide (before.phase ≠ .ended true) := by decide +kernel
  rw [replayed, Option.all_some] at facts
  obtain ⟨after, taken, completing⟩ := (Option.any_eq_true _ _).mp facts
  obtain ⟨run, opened, fits⟩ := (Option.any_eq_true _ _).mp completing
  simp only [Bool.and_eq_true, decide_eq_true_iff, Bool.not_eq_true', Option.all_eq_true] at fits
  obtain ⟨⟨⟨complete, store⟩, wet⟩, new⟩ := fits
  have kept : allowedAll (step portal) (NothingBehind portal) archived bumped := by decide +kernel
  exact ⟨world, after, run, replayed, taken, ⟨opened, complete, store, wet, new⟩,
    pass_mines_current_pages portal archived world archived_initial
      (reaches_of_replay replayed kept)⟩

/-- B is mined, the page goes back to A, and the next run's window is empty. -/
def revisited : List Action :=
  [.begin_ true false 10, .resume, .readWindow, .readBodies, .commit [.mined], .finish,
    .append (bodyOf 3 "A" 30) [], .begin_ true false 10, .resume]

theorem revisited_page_is_left :
    ¬ ∀ (lane : Lane) (start world : World), start.Initial →
      Reaches (step lane) (fun _ _ => True) start world →
        MinesPages lane world ∧ AsksAgain lane world := by
  intro all
  obtain ⟨world, replayed⟩ : ∃ world, replay (step portal) archived revisited = some world :=
    Option.isSome_iff_exists.mp (by decide +kernel)
  have reached := reaches_of_replay replayed (allowedAll_true (step portal) archived revisited)
  have facts : (replay (step portal) archived revisited).all fun world =>
      (step portal world .readWindow).any fun after => after.run.any fun run =>
        (decide (run.phase = .ended true) && run.hasStore && !run.dryRun &&
          world.run.all fun before => decide (before.phase ≠ .ended true)) &&
        (after.payloads.any fun payload => after.current payload &&
          decide (payload.source ∈ run.pageSources) && after.attempts.all (fun attempt =>
            decide (attempt.id = payload.id → attempt.outcome = .mined)) &&
              decide (after.active payload.source = some 1) &&
                decide (payload.contractVersion ≠ some 1)) := by decide +kernel
  rw [replayed, Option.all_some] at facts
  obtain ⟨after, taken, completing⟩ := (Option.any_eq_true _ _).mp facts
  obtain ⟨run, opened, fits⟩ := (Option.any_eq_true _ _).mp completing
  simp only [Bool.and_eq_true, decide_eq_true_iff, Bool.not_eq_true', Option.all_eq_true,
    List.any_eq_true, List.all_eq_true] at fits
  obtain ⟨⟨⟨⟨complete, store⟩, wet⟩, new⟩, payload, held, ⟨⟨⟨current, inSources⟩, served⟩, active⟩,
    unstamped⟩ := fits
  exact unstamped ((all portal archived world archived_initial reached).1 .readWindow after run taken
    ⟨opened, complete, store, wet, new⟩ payload held current inSources served 1 active)

end Sreality.LocationData.BodiesPass
