import Mathlib.Data.List.Chain
import Sreality.Scraper.ListingWrite

/-! The snapshots of a listing are exactly the changes of its content, whatever the writers'
transactions do in between, and the writers never wait in a circle. -/

set_option autoImplicit false

namespace Sreality.Scraper.WriteListings

open Sreality.Foundation

/-! ### The batch -/

theorem sublist_of_filterMap {α κ : Type} {key : α → κ} {pick : κ → Option α}
    (own : ∀ value row, pick value = some row → key row = value) (keys : List κ) :
    ((keys.filterMap pick).map key).Sublist keys := by
  induction keys with
  | nil => exact List.Sublist.slnil
  | cons first rest ih =>
      cases picked : pick first with
      | none =>
          rw [List.filterMap_cons_none picked]
          exact ih.cons first
      | some row =>
          rw [List.filterMap_cons_some picked, List.map_cons, own first row picked]
          exact ih.cons_cons first

section Batch

variable {writes : List ListingWrite}

/-- The last payload of its native id in a batch. -/
def Final (writes : List ListingWrite) (write : ListingWrite) : Prop :=
  ∃ earlier later, writes = earlier ++ write :: later ∧
    ∀ other ∈ later, other.sourceIdNative ≠ write.sourceIdNative

theorem mem_of_lastPayload {native : String} {write : ListingWrite}
    (last : lastPayload writes native = some write) :
    write ∈ writes ∧ write.sourceIdNative = native := by
  have held := List.mem_of_getLast? last
  exact ⟨List.mem_of_mem_filter held, by simpa using List.of_mem_filter held⟩

theorem lastPayload_concat (write : ListingWrite) (native : String) :
    lastPayload (writes ++ [write]) native =
      if write.sourceIdNative = native then some write else lastPayload writes native := by
  unfold lastPayload
  rw [List.filter_append]
  by_cases own : write.sourceIdNative = native
  · rw [if_pos own, List.filter_cons_of_pos (by simpa using own), List.filter_nil,
      List.getLast?_concat]
  · rw [if_neg own, List.filter_cons_of_neg (by simpa using own), List.filter_nil,
      List.append_nil]

theorem lastPayload_eq_some_iff {write : ListingWrite} :
    lastPayload writes write.sourceIdNative = some write ↔ Final writes write := by
  induction writes using List.reverseRecOn with
  | nil =>
      refine ⟨fun none_ => (by cases none_), ?_⟩
      rintro ⟨earlier, later, split, _⟩
      cases earlier <;> cases split
  | append_singleton front final ih =>
      rw [lastPayload_concat]
      constructor
      · intro last
        by_cases own : final.sourceIdNative = write.sourceIdNative
        · rw [if_pos own] at last
          cases last
          exact ⟨front, [], rfl, fun _ held => by cases held⟩
        · rw [if_neg own] at last
          obtain ⟨earlier, later, rfl, apart⟩ := ih.mp last
          refine ⟨earlier, later ++ [final], by simp, fun other held => ?_⟩
          rcases List.mem_append.mp held with before | now
          · exact apart other before
          · cases List.mem_singleton.mp now
            exact own
      · rintro ⟨earlier, later, split, apart⟩
        induction later using List.reverseRecOn with
        | nil =>
            obtain ⟨_, same⟩ := List.append_inj' split rfl
            rw [(List.cons.inj same).1, if_pos rfl]
        | append_singleton rest last _ =>
            rw [← List.cons_append, ← List.append_assoc] at split
            obtain ⟨rfl, same⟩ := List.append_inj' split rfl
            cases same
            rw [if_neg (apart final (List.mem_append_right _ (List.mem_singleton_self _)))]
            exact ih.mpr ⟨earlier, rest, rfl, fun other held =>
              apart other (List.mem_append_left _ held)⟩

theorem lastPayload_of_native {native : String} (listed : native ∈ natives writes) :
    ∃ write, lastPayload writes native = some write := by
  obtain ⟨write, held, rfl⟩ := List.mem_map.mp (List.mem_eraseDups.mp listed)
  cases last : lastPayload writes write.sourceIdNative with
  | some other => exact ⟨other, rfl⟩
  | none =>
      unfold lastPayload at last
      have missed := List.filter_eq_nil_iff.mp (List.getLast?_eq_none_iff.mp last) write held
      simp at missed

theorem mem_stage {write : ListingWrite} : write ∈ stage writes ↔ Final writes write := by
  unfold stage
  rw [mem_sortedBy, List.mem_filterMap, ← lastPayload_eq_some_iff]
  constructor
  · rintro ⟨native, _, last⟩
    obtain ⟨_, rfl⟩ := mem_of_lastPayload last
    exact last
  · intro last
    have held := (mem_of_lastPayload last).1
    exact ⟨_, List.mem_eraseDups.mpr (List.mem_map_of_mem held), last⟩

/-- The upsert takes its rows in ascending order, each once. -/
theorem stage_ascending (writes : List ListingWrite) :
    (stage writes).Pairwise fun one next => one.sourceIdNative < next.sourceIdNative := by
  have own : ∀ native write, lastPayload writes native = some write →
      write.sourceIdNative = native := fun _ _ last => (mem_of_lastPayload last).2
  have distinct := (nodup_eraseDups (writes.map ListingWrite.sourceIdNative)).sublist
    (sublist_of_filterMap own _)
  have sorted := pairwise_sortedBy ListingWrite.sourceIdNative
    ((natives writes).filterMap (lastPayload writes))
  have natives : ((stage writes).map ListingWrite.sourceIdNative).Nodup :=
    ((sortedBy_perm _ _).map _).nodup_iff.mpr distinct
  have apart := List.pairwise_map.mp natives
  exact (List.pairwise_and_iff.mpr ⟨sorted, apart⟩).imp fun both => lt_of_le_of_ne both.1 both.2

end Batch

/-! ### Histories -/

section Histories

variable {snapshots : List Snapshot} {listingId : Nat}

/-- Histories read the listing's own rows only. -/
theorem history_congr {others : List Snapshot}
    (same : snapshots.filter (fun snapshot => snapshot.listingId == listingId) =
      others.filter fun snapshot => snapshot.listingId == listingId) :
    history snapshots listingId = history others listingId := by
  unfold history
  rw [same]

/-- A snapshot no older than the others and of a later id is the newest. -/
theorem history_concat {new : Snapshot} (own : new.listingId = listingId)
    (later : ∀ snapshot ∈ snapshots, snapshot.listingId = listingId →
      snapshot.scrapedAt ≤ new.scrapedAt ∧ snapshot.id < new.id) :
    history (snapshots ++ [new]) listingId = history snapshots listingId ++ [new] := by
  unfold history
  rw [List.filter_append, List.filter_cons_of_pos (by simpa using own), List.filter_nil]
  apply sortedBy_concat
  intro other held
  obtain ⟨listed, mine⟩ := List.mem_filter.mp held
  obtain ⟨stamp, id⟩ := later other listed (beq_iff_eq.mp mine)
  rcases lt_or_eq_of_le stamp with before | together
  · exact le_of_lt (Prod.Lex.lt_iff.mpr (.inl before))
  · exact le_of_lt (Prod.Lex.lt_iff.mpr (.inr ⟨together, id⟩))

/-- Appending a snapshot of another content than the latest keeps neighbours different. -/
theorem changes_concat {new : Snapshot}
    (changes : (history snapshots listingId).IsChain
      fun one next => one.contentHash ≠ next.contentHash)
    (changed : (latest snapshots listingId).map Snapshot.contentHash ≠ some new.contentHash) :
    (history snapshots listingId ++ [new]).IsChain
      fun one next => one.contentHash ≠ next.contentHash := by
  apply changes.append (List.isChain_singleton new)
  intro last held first single same
  cases List.mem_singleton.mp (List.mem_of_mem_head? single)
  apply changed
  unfold latest
  rw [held, Option.map_some, same]

end Histories

/-! ### The invariant -/

/-- The committed tables. -/
structure Sound (world : World) : Prop where
  below : ∀ key id, world.db.listings key = some id → id < world.nextListing
  injective : ∀ key other id, world.db.listings key = some id →
    world.db.listings other = some id → key = other
  owned : ∀ snapshot ∈ world.db.snapshots, ∃ key,
    world.db.listings key = some snapshot.listingId
  stamped : ∀ snapshot ∈ world.db.snapshots,
    snapshot.id < world.nextSnapshot ∧ snapshot.scrapedAt ≤ world.now
  changes : ∀ id, (history world.db.snapshots id).IsChain
    fun one next => one.contentHash ≠ next.contentHash
  newest : ∀ key hash, world.lastWrite key = some hash → ∃ id,
    world.db.listings key = some id ∧
      (latest world.db.snapshots id).map Snapshot.contentHash = some hash

/-- A row the upsert wrote: the committed one of its key, or one only it sees. -/
structure Placed (world : World) (source : String) (row : Upserted) : Prop where
  existing : row.inserted = false →
    world.db.listings (source, row.write.sourceIdNative) = some row.listingId
  inserted : row.inserted = true →
    world.db.listings (source, row.write.sourceIdNative) = none ∧
      row.listingId < world.nextListing ∧ ∀ key, world.db.listings key ≠ some row.listingId

/-- The snapshot statement under way: what it read still is what is committed. -/
structure Appending (world : World) (transaction : Transaction) (scrapedAt : ℚ)
    (judged waiting : List Judged) : Prop where
  rows : judged.map Judged.toUpserted = transaction.upserted
  began : scrapedAt ≤ world.now
  seen : ∀ row ∈ judged, row.latest = latest world.db.snapshots row.listingId
  before : ∀ row ∈ judged, ∀ snapshot ∈ world.db.snapshots,
    snapshot.listingId = row.listingId → snapshot.scrapedAt ≤ scrapedAt
  waits : ∀ row ∈ waiting, row ∈ judged ∧ row.changed = true
  drawn : ∀ snapshot ∈ transaction.appended,
    snapshot.scrapedAt = scrapedAt ∧ snapshot.id < world.nextSnapshot ∧
      (∃ row ∈ judged, row.changed = true ∧ row.listingId = snapshot.listingId ∧
        row.write.contentHash = snapshot.contentHash) ∧
      ∀ other ∈ world.db.snapshots, other.listingId = snapshot.listingId → other.id < snapshot.id
  covered : ∀ row ∈ judged, row.changed = true →
    row ∈ waiting ∨ ∃ snapshot ∈ transaction.appended, snapshot.listingId = row.listingId
  once : (transaction.appended.map Snapshot.listingId ++
    waiting.map fun row => row.listingId).Nodup

def Phase.waiting : Phase → List ListingWrite
  | .upserting waiting => waiting
  | .appending _ _ _ => []

/-- An open transaction: its locks are its rows', taken in ascending order. -/
structure Fits (world : World) (tx : Nat) (transaction : Transaction) : Prop where
  locked : ∀ key, world.locks key = some tx ↔
    ∃ row ∈ transaction.upserted, key = (transaction.source, row.write.sourceIdNative)
  sourced : ∀ write ∈ transaction.batch, write.source = transaction.source
  staged : transaction.upserted.map Upserted.write ++ transaction.phase.waiting =
    stage transaction.batch
  placed : ∀ row ∈ transaction.upserted, Placed world transaction.source row
  distinct : (transaction.upserted.map Upserted.listingId).Nodup
  upserting : ∀ waiting, transaction.phase = .upserting waiting → transaction.appended = []
  appending : ∀ scrapedAt judged waiting,
    transaction.phase = .appending scrapedAt judged waiting →
      Appending world transaction scrapedAt judged waiting

theorem Fits.ascending {world : World} {tx : Nat} {transaction : Transaction}
    (fits : Fits world tx transaction) :
    (transaction.upserted.map Upserted.write ++ transaction.phase.waiting).Pairwise
      fun one next => one.sourceIdNative < next.sourceIdNative := by
  rw [fits.staged]
  exact stage_ascending transaction.batch

structure Coherent (world : World) : Prop where
  sound : Sound world
  fits : ∀ tx transaction, world.opened tx = some transaction → Fits world tx transaction
  idle : ∀ tx, world.opened tx = none → ∀ key, world.locks key ≠ some tx
  apart : ∀ tx other one two, tx ≠ other → world.opened tx = some one →
    world.opened other = some two → ∀ row ∈ one.upserted, ∀ peer ∈ two.upserted,
      row.listingId ≠ peer.listingId

/-! ### What a step leaves of the other transactions -/

/-- A later world that left the rows of a transaction alone. -/
structure Undisturbed (world after : World) (tx : Nat) (transaction : Transaction) : Prop where
  locks : ∀ key, after.locks key = some tx ↔ world.locks key = some tx
  listings : ∀ row ∈ transaction.upserted,
    after.db.listings (transaction.source, row.write.sourceIdNative) =
      world.db.listings (transaction.source, row.write.sourceIdNative)
  unseen : ∀ row ∈ transaction.upserted, row.inserted = true →
    ∀ key, after.db.listings key = world.db.listings key ∨
      after.db.listings key ≠ some row.listingId
  snapshots : ∀ row ∈ transaction.upserted,
    after.db.snapshots.filter (fun snapshot => snapshot.listingId == row.listingId) =
      world.db.snapshots.filter fun snapshot => snapshot.listingId == row.listingId
  nextListing : world.nextListing ≤ after.nextListing
  nextSnapshot : world.nextSnapshot ≤ after.nextSnapshot
  now : world.now ≤ after.now

namespace Undisturbed

variable {world after : World} {tx : Nat} {transaction : Transaction}

theorem mem_snapshots (left : Undisturbed world after tx transaction) {row : Upserted}
    (own : row ∈ transaction.upserted) {snapshot : Snapshot}
    (held : snapshot ∈ after.db.snapshots) (mine : snapshot.listingId = row.listingId) :
    snapshot ∈ world.db.snapshots := by
  have kept : snapshot ∈ after.db.snapshots.filter fun snapshot =>
      snapshot.listingId == row.listingId :=
    List.mem_filter.mpr ⟨held, beq_iff_eq.mpr mine⟩
  rw [left.snapshots row own] at kept
  exact (List.mem_filter.mp kept).1

theorem placed (left : Undisturbed world after tx transaction) {row : Upserted}
    (own : row ∈ transaction.upserted) (placed : Placed world transaction.source row) :
    Placed after transaction.source row := by
  refine ⟨fun existing => ?_, fun inserted => ?_⟩
  · rw [left.listings row own]
    exact placed.existing existing
  · obtain ⟨absent, below, fresh⟩ := placed.inserted inserted
    refine ⟨?_, Nat.lt_of_lt_of_le below left.nextListing, fun key => ?_⟩
    · rw [left.listings row own]
      exact absent
    · rcases left.unseen row own inserted key with same | other
      · rw [same]
        exact fresh key
      · exact other

theorem appending (left : Undisturbed world after tx transaction) {scrapedAt : ℚ}
    {judged waiting : List Judged}
    (under : Appending world transaction scrapedAt judged waiting) :
    Appending after transaction scrapedAt judged waiting := by
  have mine : ∀ row ∈ judged, row.toUpserted ∈ transaction.upserted := by
    intro row held
    rw [← under.rows]
    exact List.mem_map_of_mem held
  refine ⟨under.rows, le_trans under.began left.now, fun row held => ?_,
    fun row held snapshot listed own => ?_, under.waits, fun snapshot held => ?_, under.covered,
    under.once⟩
  · rw [under.seen row held]
    unfold latest
    rw [history_congr (left.snapshots row.toUpserted (mine row held))]
  · exact under.before row held snapshot
      (left.mem_snapshots (mine row held) listed own) own
  · obtain ⟨stamp, below, ⟨row, judgedRow, changed, same, hash⟩, later⟩ :=
      under.drawn snapshot held
    refine ⟨stamp, Nat.lt_of_lt_of_le below left.nextSnapshot,
      ⟨row, judgedRow, changed, same, hash⟩, fun other listed own => later other ?_ own⟩
    exact left.mem_snapshots (mine row judgedRow) listed (own.trans same.symm)

theorem fits (left : Undisturbed world after tx transaction)
    (fits : Fits world tx transaction) : Fits after tx transaction :=
  ⟨fun key => (left.locks key).trans (fits.locked key), fits.sourced, fits.staged,
    fun row own => left.placed own (fits.placed row own), fits.distinct, fits.upserting,
    fun scrapedAt judged waiting phase =>
      left.appending (fits.appending scrapedAt judged waiting phase)⟩

/-- A step that commits nothing. -/
theorem of_same_db (sameDb : after.db = world.db)
    (locks : ∀ key, after.locks key = some tx ↔ world.locks key = some tx)
    (nextListing : world.nextListing ≤ after.nextListing)
    (nextSnapshot : world.nextSnapshot ≤ after.nextSnapshot) (now : world.now ≤ after.now) :
    Undisturbed world after tx transaction := by
  refine ⟨locks, fun row _ => ?_, fun row _ _ key => .inl ?_, fun row _ => ?_, nextListing,
    nextSnapshot, now⟩ <;> rw [sameDb]

end Undisturbed

theorem Placed.of_same_db {world after : World} {source : String} {row : Upserted}
    (placed : Placed world source row) (sameDb : after.db = world.db)
    (nextListing : world.nextListing ≤ after.nextListing) : Placed after source row := by
  refine ⟨fun existing => ?_, fun inserted => ?_⟩
  · rw [sameDb]
    exact placed.existing existing
  · obtain ⟨absent, below, unseen⟩ := placed.inserted inserted
    rw [sameDb]
    exact ⟨absent, Nat.lt_of_lt_of_le below nextListing, unseen⟩

/-- The tables at rest, in a later world of the same tables. -/
theorem Sound.of_same_db {world after : World} (sound : Sound world) (sameDb : after.db = world.db)
    (nextListing : world.nextListing ≤ after.nextListing)
    (nextSnapshot : world.nextSnapshot ≤ after.nextSnapshot) (now : world.now ≤ after.now)
    (lastWrite : after.lastWrite = world.lastWrite) : Sound after := by
  refine ⟨fun key id found => ?_, ?_, ?_, fun snapshot held => ?_, ?_, ?_⟩
  · rw [sameDb] at found
    exact Nat.lt_of_lt_of_le (sound.below key id found) nextListing
  · rw [sameDb]
    exact sound.injective
  · rw [sameDb]
    exact sound.owned
  · rw [sameDb] at held
    obtain ⟨below, stamp⟩ := sound.stamped snapshot held
    exact ⟨Nat.lt_of_lt_of_le below nextSnapshot, le_trans stamp now⟩
  · rw [sameDb]
    exact sound.changes
  · rw [sameDb, lastWrite]
    exact sound.newest

/-! ### One step -/

section Steps

variable {world after : World} {tx : Nat}

/-- A step of one transaction that commits nothing. -/
theorem Coherent.of_update (coherent : Coherent world) {new : Option Transaction}
    (sameDb : after.db = world.db) (lastWrite : after.lastWrite = world.lastWrite)
    (opened : after.opened = Function.update world.opened tx new)
    (locks : ∀ other, other ≠ tx → ∀ key,
      after.locks key = some other ↔ world.locks key = some other)
    (nextListing : world.nextListing ≤ after.nextListing)
    (nextSnapshot : world.nextSnapshot ≤ after.nextSnapshot) (now : world.now ≤ after.now)
    (fits : ∀ transaction, new = some transaction → Fits after tx transaction)
    (idle : new = none → ∀ key, after.locks key ≠ some tx)
    (apart : ∀ transaction, new = some transaction → ∀ other two, other ≠ tx →
      world.opened other = some two → ∀ row ∈ transaction.upserted, ∀ peer ∈ two.upserted,
        row.listingId ≠ peer.listingId) : Coherent after := by
  have elsewhere : ∀ other, other ≠ tx → after.opened other = world.opened other := by
    intro other differ
    rw [opened, Function.update_of_ne differ]
  have here : after.opened tx = new := by rw [opened, Function.update_self]
  refine ⟨coherent.sound.of_same_db sameDb nextListing nextSnapshot now lastWrite,
    fun other transaction found => ?_, fun other closed key => ?_,
    fun one other first second differ foundOne foundTwo => ?_⟩
  · by_cases same : other = tx
    · cases same
      exact fits transaction (here.symm.trans found)
    · rw [elsewhere other same] at found
      exact (Undisturbed.of_same_db sameDb (locks other same) nextListing nextSnapshot now).fits
        (coherent.fits other transaction found)
  · by_cases same : other = tx
    · cases same
      exact idle (here.symm.trans closed) key
    · rw [elsewhere other same] at closed
      exact fun held => coherent.idle other closed key ((locks other same key).mp held)
  · by_cases sameOne : one = tx
    · cases sameOne
      have differ' : other ≠ tx := fun same => differ same.symm
      rw [elsewhere other differ'] at foundTwo
      exact apart first (here.symm.trans foundOne) other second differ' foundTwo
    · rw [elsewhere one sameOne] at foundOne
      by_cases sameTwo : other = tx
      · cases sameTwo
        intro row held peer listed same
        exact apart second (here.symm.trans foundTwo) one first sameOne foundOne peer listed row
          held same.symm
      · rw [elsewhere other sameTwo] at foundTwo
        exact coherent.apart one other first second differ foundOne foundTwo

theorem wait_coherent (coherent : Coherent world) {seconds : ℚ} (forward : 0 ≤ seconds) :
    Coherent { world with now := world.now + seconds } := by
  have now : world.now ≤ world.now + seconds := le_add_of_nonneg_right forward
  refine ⟨coherent.sound.of_same_db rfl (le_refl _) (le_refl _) now rfl,
    fun other transaction found => ?_, coherent.idle, coherent.apart⟩
  have left : Undisturbed world { world with now := world.now + seconds } other transaction :=
    .of_same_db rfl (fun _ => Iff.rfl) (le_refl _) (le_refl _) now
  exact left.fits (coherent.fits other transaction found)

theorem begin_coherent (coherent : Coherent world) {writes : List ListingWrite}
    (taken : world.begin tx writes = some after) : Coherent after := by
  unfold World.begin at taken
  split at taken
  · next source closed sources =>
      cases taken
      refine coherent.of_update rfl rfl rfl (fun _ _ _ => Iff.rfl) (le_refl _) (le_refl _)
        (le_refl _) ?_ ?_ ?_
      · intro transaction own
        cases own
        refine ⟨fun key => ⟨fun held => absurd held (coherent.idle tx closed key), ?_⟩,
          fun write held => ?_, rfl, fun row held => (by cases held), List.nodup_nil,
          fun _ _ => rfl, fun scrapedAt judged waiting phase => (by cases phase)⟩
        · rintro ⟨row, held, _⟩
          cases held
        · have listed := List.mem_eraseDups.mpr (List.mem_map_of_mem (f := ListingWrite.source) held)
          rw [sources] at listed
          exact List.mem_singleton.mp listed
      · intro none_
        cases none_
      · intro transaction own other two _ _ row held
        cases own
        cases held
  · cases taken

/-- The upsert takes a free row. -/
theorem lockRow_cases (taken : world.lockRow tx = some after) :
    ∃ transaction write rest, world.opened tx = some transaction ∧
      transaction.phase = .upserting (write :: rest) ∧
      world.locks (transaction.source, write.sourceIdNative) = none ∧
      after = { world with
        nextListing := world.listingAfter (transaction.source, write.sourceIdNative)
        locks := Function.update world.locks (transaction.source, write.sourceIdNative) (some tx)
        opened := Function.update world.opened tx
          (some { transaction with
            phase := .upserting rest
            upserted := transaction.upserted ++
              [world.upsert (transaction.source, write.sourceIdNative) write] }) } := by
  unfold World.lockRow at taken
  obtain ⟨transaction, found, rest⟩ := Option.bind_eq_some_iff.mp taken
  split at rest
  · next write waiting phase =>
      dsimp only at rest
      split_ifs at rest with held
      cases rest
      exact ⟨transaction, write, waiting, found, phase, by simpa using held, rfl⟩
  · cases rest

theorem le_listingAfter (world : World) (key : Key) :
    world.nextListing ≤ world.listingAfter key := by
  unfold World.listingAfter
  split_ifs
  · exact Nat.le_succ _
  · exact le_refl _

/-- The row a free key is given is none of the rows written so far. -/
theorem upsert_fresh (coherent : Coherent world) {other : Nat} {transaction : Transaction}
    (found : world.opened other = some transaction) {row : Upserted}
    (held : row ∈ transaction.upserted) {key : Key}
    (differ : key ≠ (transaction.source, row.write.sourceIdNative)) (write : ListingWrite) :
    (world.upsert key write).listingId ≠ row.listingId := by
  intro same
  change (world.db.listings key).getD world.nextListing = row.listingId at same
  have placed := (coherent.fits other transaction found).placed row held
  cases listed : world.db.listings key with
  | none =>
      rw [listed] at same
      cases inserted : row.inserted with
      | true =>
          have below := (placed.inserted inserted).2.1
          rw [← same] at below
          exact absurd below (lt_irrefl _)
      | false =>
          have below := coherent.sound.below _ _ (placed.existing inserted)
          rw [← same] at below
          exact absurd below (lt_irrefl _)
  | some id =>
      rw [listed] at same
      dsimp only [Option.getD_some] at same
      cases inserted : row.inserted with
      | true => exact (placed.inserted inserted).2.2 key (same ▸ listed)
      | false =>
          have existing := placed.existing inserted
          rw [← same] at existing
          exact differ (coherent.sound.injective _ _ id listed existing)

/-- The row of a key, once its lock is taken. -/
theorem upsert_placed (sound : Sound world) (source : String) (write : ListingWrite)
    {after : World} (sameDb : after.db = world.db)
    (nextListing : after.nextListing = world.listingAfter (source, write.sourceIdNative)) :
    Placed after source (world.upsert (source, write.sourceIdNative) write) := by
  unfold World.upsert
  cases listed : world.db.listings (source, write.sourceIdNative) with
  | none =>
      refine ⟨fun existing => (by cases existing), fun _ => ⟨?_, ?_, fun key found => ?_⟩⟩
      · rw [sameDb]
        exact listed
      · rw [nextListing]
        unfold World.listingAfter
        rw [listed]
        exact Nat.lt_succ_self _
      · rw [sameDb] at found
        exact absurd (sound.below key _ found) (lt_irrefl _)
  | some id =>
      refine ⟨fun _ => ?_, fun inserted => (by cases inserted)⟩
      rw [sameDb]
      exact listed

theorem lockRow_coherent (coherent : Coherent world) (taken : world.lockRow tx = some after) :
    Coherent after := by
  obtain ⟨transaction, write, rest, found, phase, free, rfl⟩ := lockRow_cases taken
  have own := coherent.fits tx transaction found
  have ascending := own.ascending
  rw [phase] at ascending
  generalize keyed : (transaction.source, write.sourceIdNative) = key at free ⊢
  have fresh : ∀ row ∈ transaction.upserted,
      key ≠ (transaction.source, row.write.sourceIdNative) := by
    intro row held same
    have before := (List.pairwise_append.mp ascending).2.2 row.write (List.mem_map_of_mem held)
      write List.mem_cons_self
    rw [(Prod.mk.inj (keyed.trans same)).2] at before
    exact absurd before (lt_irrefl _)
  have elsewhere : ∀ other, other ≠ tx → ∀ at_,
      (Function.update world.locks key (some tx) at_ = some other ↔
        world.locks at_ = some other) := by
    intro other differ at_
    by_cases same : at_ = key
    · cases same
      rw [Function.update_self, free]
      exact ⟨fun held => absurd (Option.some.inj held).symm differ, fun none_ => by cases none_⟩
    · rw [Function.update_of_ne same]
  refine coherent.of_update rfl rfl rfl elsewhere (le_listingAfter world key) (le_refl _)
    (le_refl _) ?_ (fun none_ => by cases none_) ?_
  · intro updated same
    cases same
    refine ⟨fun at_ => ?_, own.sourced, ?_, fun row held => ?_, ?_,
      fun waiting _ => own.upserting _ phase,
      fun scrapedAt judged waiting other => (by cases other)⟩
    · dsimp only
      by_cases mine : at_ = key
      · cases mine
        rw [Function.update_self]
        exact ⟨fun _ => ⟨_, List.mem_append_right _ (List.mem_singleton_self _), keyed.symm⟩,
          fun _ => rfl⟩
      · rw [Function.update_of_ne mine, own.locked at_]
        constructor
        · rintro ⟨row, held, rfl⟩
          exact ⟨row, List.mem_append_left _ held, rfl⟩
        · rintro ⟨row, held, rfl⟩
          rcases List.mem_append.mp held with earlier | new
          · exact ⟨row, earlier, rfl⟩
          · cases List.mem_singleton.mp new
            exact absurd keyed mine
    · have staged := own.staged
      rw [phase] at staged
      dsimp only
      rw [List.map_append, List.append_assoc]
      exact staged
    · rcases List.mem_append.mp held with earlier | new
      · exact (own.placed row earlier).of_same_db rfl (le_listingAfter world key)
      · cases List.mem_singleton.mp new
        cases keyed
        exact upsert_placed coherent.sound transaction.source write rfl rfl
    · dsimp only
      rw [List.map_append, List.map_singleton]
      refine List.nodup_append.mpr ⟨own.distinct, List.nodup_singleton _, ?_⟩
      intro one oneHeld two twoHeld same
      obtain ⟨row, held, rfl⟩ := List.mem_map.mp oneHeld
      cases List.mem_singleton.mp twoHeld
      exact upsert_fresh coherent found held (fresh row held) write same.symm
  · intro updated same other two differ foundOther row held peer listed equal
    cases same
    rcases List.mem_append.mp held with earlier | new
    · exact coherent.apart tx other transaction two (Ne.symm differ) found foundOther row earlier
        peer listed equal
    · cases List.mem_singleton.mp new
      refine upsert_fresh coherent foundOther listed (fun sameKey => ?_) write equal
      have locked := ((coherent.fits other two foundOther).locked _).mpr ⟨peer, listed, rfl⟩
      rw [← sameKey, free] at locked
      cases locked

theorem judge_coherent (coherent : Coherent world) (taken : world.judge tx = some after) :
    Coherent after := by
  unfold World.judge at taken
  obtain ⟨transaction, found, rest⟩ := Option.bind_eq_some_iff.mp taken
  split at rest
  · next phase =>
      cases rest
      have own := coherent.fits tx transaction found
      have empty := own.upserting _ phase
      have listed : (world.judgedRows transaction).map Judged.toUpserted = transaction.upserted := by
        unfold World.judgedRows
        rw [List.map_map]
        exact List.map_id _
      have ids : ((world.judgedRows transaction).map fun row => row.listingId) =
          transaction.upserted.map Upserted.listingId := by
        rw [← listed, List.map_map]
        rfl
      refine coherent.of_update rfl rfl rfl (fun _ _ _ => Iff.rfl) (le_refl _) (le_refl _)
        (le_refl _) ?_ (fun none_ => by cases none_) ?_
      · intro updated same
        cases same
        have staged := own.staged
        rw [phase] at staged
        refine ⟨own.locked, own.sourced, staged,
          fun row held => (own.placed row held).of_same_db rfl (le_refl _), own.distinct,
          fun waiting other => (by cases other), fun scrapedAt judged waiting same => ?_⟩
        cases same
        refine ⟨listed, le_refl _, fun row held => ?_, fun row _ snapshot seen _ =>
          (coherent.sound.stamped snapshot seen).2, fun row held => ?_, fun snapshot held => ?_,
          fun row held changed => .inl ?_, ?_⟩
        · obtain ⟨upserted, _, rfl⟩ := List.mem_map.mp held
          rfl
        · exact List.mem_filter.mp (mem_sortedBy.mp held)
        · dsimp only at held
          rw [empty] at held
          cases held
        · exact mem_sortedBy.mpr (List.mem_filter.mpr ⟨held, changed⟩)
        · dsimp only
          rw [empty, List.map_nil, List.nil_append]
          have distinct := own.distinct
          rw [← ids] at distinct
          refine ((sortedBy_perm _ _).map _).nodup_iff.mpr ?_
          exact distinct.sublist (List.filter_sublist.map _)
      · intro updated same other two differ foundOther
        cases same
        exact coherent.apart tx other transaction two (Ne.symm differ) found foundOther
  · cases rest

theorem append_coherent (coherent : Coherent world) (taken : world.append tx = some after) :
    Coherent after := by
  unfold World.append at taken
  obtain ⟨transaction, found, rest⟩ := Option.bind_eq_some_iff.mp taken
  split at rest
  · next scrapedAt judged row waiting phase =>
      cases rest
      have own := coherent.fits tx transaction found
      have under := own.appending scrapedAt judged (row :: waiting) phase
      obtain ⟨judgedRow, changed⟩ := under.waits row List.mem_cons_self
      have staged := own.staged
      rw [phase] at staged
      refine coherent.of_update rfl rfl rfl (fun _ _ _ => Iff.rfl) (le_refl _) (Nat.le_succ _)
        (le_refl _) ?_ (fun none_ => by cases none_) ?_
      · intro updated same
        cases same
        refine ⟨own.locked, own.sourced, staged,
          fun row held => (own.placed row held).of_same_db rfl (le_refl _), own.distinct,
          fun others other => (by cases other), fun at_ rows others same => ?_⟩
        cases same
        refine ⟨under.rows, under.began, under.seen, under.before,
          fun next held => under.waits next (List.mem_cons_of_mem _ held), fun snapshot held => ?_,
          fun next held changed => ?_, ?_⟩
        · rcases List.mem_append.mp held with earlier | new
          · obtain ⟨stamp, below, judged_, later⟩ := under.drawn snapshot earlier
            exact ⟨stamp, Nat.lt_succ_of_lt below, judged_, later⟩
          · cases List.mem_singleton.mp new
            exact ⟨rfl, Nat.lt_succ_self _, ⟨row, judgedRow, changed, rfl, rfl⟩,
              fun other listed _ => (coherent.sound.stamped other listed).1⟩
        · rcases under.covered next held changed with waits | ⟨snapshot, drawn, same⟩
          · rcases List.mem_cons.mp waits with rfl | later
            · exact .inr ⟨_, List.mem_append_right _ (List.mem_singleton_self _), rfl⟩
            · exact .inl later
          · exact .inr ⟨snapshot, List.mem_append_left _ drawn, same⟩
        · have once := under.once
          rw [List.map_cons, ← List.singleton_append, ← List.append_assoc] at once
          dsimp only
          rw [List.map_append]
          exact once
      · intro updated same other two differ foundOther
        cases same
        exact coherent.apart tx other transaction two (Ne.symm differ) found foundOther
  · cases rest

theorem released_self (world : World) (tx : Nat) (key : Key) :
    world.released tx key ≠ some tx := by
  unfold World.released
  split_ifs with own
  · exact fun none_ => by cases none_
  · exact own

theorem released_other (world : World) {tx other : Nat} (differ : other ≠ tx) (key : Key) :
    world.released tx key = some other ↔ world.locks key = some other := by
  unfold World.released
  split_ifs with own
  · rw [own]
    exact ⟨fun none_ => (by cases none_), fun same => absurd (Option.some.inj same).symm differ⟩
  · exact Iff.rfl

theorem abort_coherent (coherent : Coherent world) (taken : world.abort tx = some after) :
    Coherent after := by
  unfold World.abort at taken
  obtain ⟨transaction, found, rest⟩ := Option.bind_eq_some_iff.mp taken
  cases rest
  exact coherent.of_update rfl rfl rfl (fun other differ key => released_other world differ key)
    (le_refl _) (le_refl _) (le_refl _) (fun _ none_ => by cases none_)
    (fun _ key => released_self world tx key) (fun _ none_ => by cases none_)

/-! ### The commit -/

theorem rowAt_cases {transaction : Transaction} {key : Key} {row : Upserted}
    (found : transaction.rowAt key = some row) :
    row ∈ transaction.upserted ∧ key = (transaction.source, row.write.sourceIdNative) := by
  unfold Transaction.rowAt at found
  have met := List.find?_some found
  exact ⟨List.mem_of_find?_eq_some found, (beq_iff_eq.mp met).symm⟩

theorem Fits.natives {transaction : Transaction} (fits : Fits world tx transaction) :
    Keyed (fun row : Upserted => row.write.sourceIdNative) transaction.upserted := by
  have rows := (List.pairwise_append.mp fits.ascending).1
  exact List.pairwise_map.mpr ((List.pairwise_map.mp rows).imp fun before => ne_of_lt before)

/-- A transaction wrote one row under a key. -/
theorem Fits.rowAt {transaction : Transaction} (fits : Fits world tx transaction) {row : Upserted}
    (held : row ∈ transaction.upserted) :
    transaction.rowAt (transaction.source, row.write.sourceIdNative) = some row := by
  cases found : transaction.rowAt (transaction.source, row.write.sourceIdNative) with
  | none =>
      unfold Transaction.rowAt at found
      have missed := List.find?_eq_none.mp found row held
      simp at missed
  | some other =>
      obtain ⟨listed, same⟩ := rowAt_cases found
      exact congrArg some (fits.natives.eq listed held (Prod.mk.inj same).2.symm)

/-- Once the upsert is over its rows are the batch. -/
theorem Fits.written {transaction : Transaction} (fits : Fits world tx transaction)
    {scrapedAt : ℚ} {judged waiting : List Judged}
    (phase : transaction.phase = .appending scrapedAt judged waiting) :
    transaction.upserted.map Upserted.write = stage transaction.batch := by
  have staged := fits.staged
  rw [phase] at staged
  exact (List.append_nil _).symm.trans staged

theorem submitted_eq_lastPayload {transaction : Transaction}
    (sourced : ∀ write ∈ transaction.batch, write.source = transaction.source)
    (native : String) :
    transaction.submitted (transaction.source, native) =
      lastPayload transaction.batch native := by
  unfold Transaction.submitted lastPayload
  congr 1
  apply List.filter_congr
  intro write held
  rw [sourced write held]
  simp

/-- What the caller gave under a key is what the upsert wrote there. -/
theorem Fits.submitted {transaction : Transaction} (fits : Fits world tx transaction)
    (written : transaction.upserted.map Upserted.write = stage transaction.batch) (key : Key) :
    transaction.submitted key = (transaction.rowAt key).map Upserted.write := by
  cases found : transaction.rowAt key with
  | some row =>
      obtain ⟨held, rfl⟩ := rowAt_cases found
      rw [submitted_eq_lastPayload fits.sourced]
      apply lastPayload_eq_some_iff.mpr
      rw [← mem_stage, ← written]
      exact List.mem_map_of_mem held
  | none =>
      cases given : transaction.submitted key with
      | none => rfl
      | some write =>
          obtain ⟨held, own⟩ := List.mem_filter.mp (List.mem_of_getLast? given)
          obtain rfl := beq_iff_eq.mp own
          rw [fits.sourced write held, submitted_eq_lastPayload fits.sourced] at given
          have staged := mem_stage.mpr (lastPayload_eq_some_iff.mp given)
          rw [← written] at staged
          obtain ⟨row, listed, rfl⟩ := List.mem_map.mp staged
          rw [fits.sourced row.write held, fits.rowAt listed] at found
          cases found

section Commit

variable {transaction : Transaction}

/-- A committed listing keeps its id. -/
theorem committed_keeps (fits : Fits world tx transaction) {key : Key} {id : Nat}
    (listed : world.db.listings key = some id) :
    (world.committed transaction).listings key = some id := by
  unfold World.committed
  dsimp only
  cases found : transaction.rowAt key with
  | none => exact listed
  | some row =>
      obtain ⟨held, rfl⟩ := rowAt_cases found
      have placed := fits.placed row held
      cases inserted : row.inserted with
      | true =>
          rw [(placed.inserted inserted).1] at listed
          cases listed
      | false =>
          rw [placed.existing inserted] at listed
          exact listed

/-- A listing after the commit was there before, or is one the transaction inserted. -/
theorem committed_cases {key : Key} {id : Nat}
    (listed : (world.committed transaction).listings key = some id)
    (fits : Fits world tx transaction) :
    world.db.listings key = some id ∨ ∃ row ∈ transaction.upserted, row.inserted = true ∧
      row.listingId = id ∧ key = (transaction.source, row.write.sourceIdNative) := by
  unfold World.committed at listed
  dsimp only at listed
  cases found : transaction.rowAt key with
  | none =>
      rw [found] at listed
      exact .inl listed
  | some row =>
      rw [found] at listed
      cases listed
      obtain ⟨held, rfl⟩ := rowAt_cases found
      cases inserted : row.inserted with
      | true => exact .inr ⟨row, held, inserted, rfl, rfl⟩
      | false => exact .inl ((fits.placed row held).existing inserted)

theorem committed_own (fits : Fits world tx transaction) {row : Upserted}
    (held : row ∈ transaction.upserted) :
    (world.committed transaction).listings (transaction.source, row.write.sourceIdNative) =
      some row.listingId := by
  unfold World.committed
  dsimp only
  rw [fits.rowAt held]
  rfl

theorem committed_injective (sound : Sound world) (fits : Fits world tx transaction)
    {key other : Key} {id : Nat} (one : (world.committed transaction).listings key = some id)
    (two : (world.committed transaction).listings other = some id) : key = other := by
  rcases committed_cases one fits with old | ⟨row, held, inserted, same, rfl⟩
  · rcases committed_cases two fits with old' | ⟨row, held, inserted, same, rfl⟩
    · exact sound.injective key other id old old'
    · exact absurd (same ▸ old) (((fits.placed row held).inserted inserted).2.2 key)
  · rcases committed_cases two fits with old' | ⟨row', held', _, same', rfl⟩
    · exact absurd (same ▸ old') (((fits.placed row held).inserted inserted).2.2 other)
    · have equal : row = row' := List.inj_on_of_nodup_map fits.distinct held held'
        (same.trans same'.symm)
      rw [equal]

variable {scrapedAt : ℚ} {judged : List Judged}

theorem judged_eq (fits : Fits world tx transaction)
    (under : Appending world transaction scrapedAt judged []) {row other : Judged}
    (held : row ∈ judged) (listed : other ∈ judged) (same : row.listingId = other.listingId) :
    row = other := by
  have ids : (judged.map fun row => row.listingId).Nodup := by
    have distinct := fits.distinct
    rw [← under.rows, List.map_map] at distinct
    exact distinct
  exact List.inj_on_of_nodup_map ids held listed same

/-- A listing the transaction appended nothing to keeps its history. -/
theorem history_kept {id : Nat}
    (none_ : ∀ snapshot ∈ transaction.appended, snapshot.listingId ≠ id) :
    history (world.committed transaction).snapshots id = history world.db.snapshots id := by
  apply history_congr
  unfold World.committed
  rw [List.filter_append]
  have empty : transaction.appended.filter (fun snapshot => snapshot.listingId == id) = [] := by
    apply List.filter_eq_nil_iff.mpr
    intro snapshot held
    simpa using none_ snapshot held
  rw [empty, List.append_nil]

/-- A listing the transaction appended to has the new snapshot as its newest. -/
theorem history_grown (under : Appending world transaction scrapedAt judged [])
    {snapshot : Snapshot} (held : snapshot ∈ transaction.appended) :
    history (world.committed transaction).snapshots snapshot.listingId =
      history world.db.snapshots snapshot.listingId ++ [snapshot] := by
  have once : Keyed Snapshot.listingId transaction.appended := by
    have once := under.once
    rwa [List.map_nil, List.append_nil] at once
  have alone := once.filter_key held
  obtain ⟨stamp, _, ⟨row, judgedRow, _, same, _⟩, later⟩ := under.drawn snapshot held
  have whole : history (world.committed transaction).snapshots snapshot.listingId =
      history (world.db.snapshots ++ [snapshot]) snapshot.listingId := by
    apply history_congr
    unfold World.committed
    rw [List.filter_append, List.filter_append, alone, List.filter_cons_of_pos (by simp),
      List.filter_nil]
  rw [whole]
  apply history_concat rfl
  intro other listed own
  refine ⟨?_, later other listed own⟩
  rw [stamp]
  exact under.before row judgedRow other listed (own.trans same.symm)

/-- What the latest snapshot of a written listing is after the commit. -/
theorem latest_written (fits : Fits world tx transaction)
    (under : Appending world transaction scrapedAt judged []) {row : Judged}
    (held : row ∈ judged) :
    (latest (world.committed transaction).snapshots row.listingId).map Snapshot.contentHash =
      some row.write.contentHash := by
  cases changed : row.changed with
  | true =>
      rcases under.covered row held changed with waits | ⟨snapshot, drawn, same⟩
      · cases waits
      · obtain ⟨_, _, ⟨other, judgedOther, _, sameId, hash⟩, _⟩ := under.drawn snapshot drawn
        have equal := judged_eq fits under judgedOther held (sameId.trans same)
        unfold latest
        rw [← same, history_grown under drawn, List.getLast?_concat, Option.map_some, ← hash, equal]
  | false =>
      have none_ : ∀ snapshot ∈ transaction.appended, snapshot.listingId ≠ row.listingId := by
        intro snapshot drawn same
        obtain ⟨_, _, ⟨other, judgedOther, changedOther, sameId, _⟩, _⟩ :=
          under.drawn snapshot drawn
        rw [judged_eq fits under judgedOther held (sameId.trans same), changed] at changedOther
        cases changedOther
      unfold latest
      rw [history_kept none_]
      have seen := under.seen row held
      unfold latest at seen
      rw [← seen]
      unfold Judged.changed at changed
      simpa using changed

/-- A snapshot of the transaction is of a row it wrote. -/
theorem drawn_written (under : Appending world transaction scrapedAt judged [])
    {snapshot : Snapshot} (held : snapshot ∈ transaction.appended) :
    ∃ row ∈ transaction.upserted, row.listingId = snapshot.listingId := by
  obtain ⟨_, _, ⟨row, judgedRow, _, same, _⟩, _⟩ := under.drawn snapshot held
  refine ⟨row.toUpserted, ?_, same⟩
  rw [← under.rows]
  exact List.mem_map_of_mem judgedRow

end Commit

theorem commit_cases (taken : world.commit tx = some after) :
    ∃ transaction scrapedAt judged, world.opened tx = some transaction ∧
      transaction.phase = .appending scrapedAt judged [] ∧
      after = { world with
        db := world.committed transaction
        locks := world.released tx
        opened := Function.update world.opened tx none
        lastWrite := fun key =>
          ((transaction.submitted key).map ListingWrite.contentHash).or
            (world.lastWrite key) } := by
  unfold World.commit at taken
  obtain ⟨transaction, found, rest⟩ := Option.bind_eq_some_iff.mp taken
  split at rest
  · next scrapedAt judged phase =>
      cases rest
      exact ⟨transaction, scrapedAt, judged, found, phase, rfl⟩
  · cases rest

theorem commit_sound (coherent : Coherent world) {transaction : Transaction} {scrapedAt : ℚ}
    {judged : List Judged} (found : world.opened tx = some transaction)
    (phase : transaction.phase = .appending scrapedAt judged []) :
    Sound { world with
      db := world.committed transaction
      locks := world.released tx
      opened := Function.update world.opened tx none
      lastWrite := fun key =>
        ((transaction.submitted key).map ListingWrite.contentHash).or
          (world.lastWrite key) } := by
  have fits := coherent.fits tx transaction found
  have under := fits.appending scrapedAt judged [] phase
  constructor
  · intro key id listed
    rcases committed_cases listed fits with old | ⟨row, held, inserted, rfl, _⟩
    · exact coherent.sound.below key id old
    · exact ((fits.placed row held).inserted inserted).2.1
  · exact fun key other id one two => committed_injective coherent.sound fits one two
  · intro snapshot held
    rcases List.mem_append.mp held with old | new
    · obtain ⟨key, listed⟩ := coherent.sound.owned snapshot old
      exact ⟨key, committed_keeps fits listed⟩
    · obtain ⟨row, written, same⟩ := drawn_written under new
      rw [← same]
      exact ⟨_, committed_own fits written⟩
  · intro snapshot held
    rcases List.mem_append.mp held with old | new
    · exact coherent.sound.stamped snapshot old
    · obtain ⟨stamp, below, _⟩ := under.drawn snapshot new
      rw [stamp]
      exact ⟨below, under.began⟩
  · intro id
    by_cases grown : ∃ snapshot ∈ transaction.appended, snapshot.listingId = id
    · obtain ⟨snapshot, drawn, rfl⟩ := grown
      dsimp only
      rw [history_grown under drawn]
      apply changes_concat (coherent.sound.changes snapshot.listingId)
      obtain ⟨_, _, ⟨row, judgedRow, changed, same, hash⟩, _⟩ := under.drawn snapshot drawn
      rw [← same, ← under.seen row judgedRow, ← hash]
      unfold Judged.changed at changed
      simpa using changed
    · dsimp only
      rw [history_kept fun snapshot drawn same => grown ⟨snapshot, drawn, same⟩]
      exact coherent.sound.changes id
  · intro key hash last
    dsimp only at last ⊢
    rw [fits.submitted (fits.written phase)] at last
    cases own : transaction.rowAt key with
    | some row =>
        obtain ⟨held, rfl⟩ := rowAt_cases own
        rw [own] at last
        cases last
        refine ⟨row.listingId, committed_own fits held, ?_⟩
        rw [← under.rows] at held
        obtain ⟨judgedRow, listed, rfl⟩ := List.mem_map.mp held
        exact latest_written fits under listed
    | none =>
        rw [own] at last
        obtain ⟨id, listed, newest⟩ := coherent.sound.newest key hash last
        refine ⟨id, committed_keeps fits listed, ?_⟩
        have none_ : ∀ snapshot ∈ transaction.appended, snapshot.listingId ≠ id := by
          intro snapshot drawn same
          obtain ⟨row, written, sameId⟩ := drawn_written under drawn
          have committed := committed_own fits written
          rw [sameId, same] at committed
          rw [committed_injective coherent.sound fits (committed_keeps fits listed) committed,
            fits.rowAt written] at own
          cases own
        unfold latest at newest ⊢
        rw [history_kept none_]
        exact newest

theorem commit_coherent (coherent : Coherent world) (taken : world.commit tx = some after) :
    Coherent after := by
  obtain ⟨transaction, scrapedAt, judged, found, phase, rfl⟩ := commit_cases taken
  have fits := coherent.fits tx transaction found
  have under := fits.appending scrapedAt judged [] phase
  have elsewhere : ∀ other two, Function.update world.opened tx none other = some two →
      other ≠ tx ∧ world.opened other = some two := by
    intro other two opened
    by_cases same : other = tx
    · cases same
      rw [Function.update_self] at opened
      cases opened
    · rw [Function.update_of_ne same] at opened
      exact ⟨same, opened⟩
  refine ⟨commit_sound coherent found phase, fun other two opened => ?_, fun other closed key => ?_,
    fun one other first second differ foundOne foundTwo => ?_⟩
  · obtain ⟨differ, foundOther⟩ := elsewhere other two opened
    have peers := coherent.fits other two foundOther
    have separate : ∀ row ∈ two.upserted, ∀ peer ∈ transaction.upserted,
        row.listingId ≠ peer.listingId :=
      coherent.apart other tx two transaction differ foundOther found
    refine Undisturbed.fits ?_ peers
    refine ⟨fun key => released_other world differ key, fun row held => ?_,
      fun row held inserted key => ?_, fun row held => ?_, le_refl _, le_refl _, le_refl _⟩
    · have locked := (peers.locked _).mpr ⟨row, held, rfl⟩
      have none_ : transaction.rowAt (two.source, row.write.sourceIdNative) = none := by
        cases own : transaction.rowAt (two.source, row.write.sourceIdNative) with
        | none => rfl
        | some mine =>
            obtain ⟨listed, same⟩ := rowAt_cases own
            have other_ := (fits.locked _).mpr ⟨mine, listed, same⟩
            rw [locked] at other_
            exact absurd (Option.some.inj other_) differ
      unfold World.committed
      dsimp only
      rw [none_]
      rfl
    · by_cases listed : (world.committed transaction).listings key = some row.listingId
      · rcases committed_cases listed fits with old | ⟨mine, written, _, same, _⟩
        · exact absurd old (((peers.placed row held).inserted inserted).2.2 key)
        · exact absurd same.symm (separate row held mine written)
      · exact .inr listed
    · dsimp only
      unfold World.committed
      rw [List.filter_append]
      have none_ : transaction.appended.filter
          (fun snapshot => snapshot.listingId == row.listingId) = [] := by
        apply List.filter_eq_nil_iff.mpr
        intro snapshot drawn same
        obtain ⟨mine, written, sameId⟩ := drawn_written under drawn
        exact separate row held mine written (sameId.trans (beq_iff_eq.mp same)).symm
      rw [none_, List.append_nil]
  · by_cases same : other = tx
    · cases same
      exact released_self world tx key
    · have closed_ : Function.update world.opened tx none other = none := closed
      rw [Function.update_of_ne same] at closed_
      exact fun held => coherent.idle other closed_ key ((released_other world same key).mp held)
  · exact coherent.apart one other first second differ (elsewhere one first foundOne).2
      (elsewhere other second foundTwo).2

theorem step_coherent (coherent : Coherent world) {action : Action}
    (taken : step world action = some after) : Coherent after := by
  cases action with
  | wait seconds =>
      unfold step at taken
      dsimp only at taken
      split_ifs at taken with forward
      cases taken
      exact wait_coherent coherent forward
  | begin tx writes => exact begin_coherent coherent taken
  | lockRow tx => exact lockRow_coherent coherent taken
  | judge tx => exact judge_coherent coherent taken
  | append tx => exact append_coherent coherent taken
  | commit tx => exact commit_coherent coherent taken
  | abort tx => exact abort_coherent coherent taken

end Steps

/-! ### Whole runs -/

/-- Tables no transaction is open on and no write is recorded of. -/
structure Opening (world : World) : Prop where
  sound : Sound world
  closed : ∀ tx, world.opened tx = none
  unlocked : ∀ key, world.locks key = none

theorem Opening.coherent {world : World} (opening : Opening world) : Coherent world := by
  refine ⟨opening.sound, fun tx transaction found => ?_, fun tx _ key held => ?_,
    fun tx other one two _ found => ?_⟩
  · rw [opening.closed tx] at found
    cases found
  · rw [opening.unlocked key] at held
    cases held
  · rw [opening.closed tx] at found
    cases found

/-- The worlds any writers' transactions reach. -/
abbrev Runs (start : World) : World → Prop := Reaches step (fun _ _ => True) start

theorem runs_coherent {start world : World} (opening : Opening start)
    (reached : Runs start world) : Coherent world :=
  reached.invariant Coherent opening.coherent
    fun _ _ _ coherent _ taken => step_coherent coherent taken

/-- What a commit reports of the payloads its caller gave. -/
structure Reports (world after : World) (writes : List ListingWrite)
    (outcomes : List WriteOutcome) : Prop where
  each : outcomes.map WriteOutcome.sourceIdNative = natives writes
  last : ∀ outcome ∈ outcomes, ∃ write, Final writes write ∧ outcome.source = write.source ∧
    outcome.sourceIdNative = write.sourceIdNative ∧ outcome.contentHash = write.contentHash
  written : ∀ outcome ∈ outcomes,
    after.db.listings (outcome.source, outcome.sourceIdNative) = some outcome.listingId ∧
      (latest after.db.snapshots outcome.listingId).map Snapshot.contentHash =
        some outcome.contentHash ∧
      after.lastWrite (outcome.source, outcome.sourceIdNative) = some outcome.contentHash
  unchanged : ∀ outcome ∈ outcomes, outcome.result = .unchanged ↔
    history after.db.snapshots outcome.listingId = history world.db.snapshots outcome.listingId ∧
      (world.db.listings (outcome.source, outcome.sourceIdNative)).isSome

/-- The snapshots are the changes of the content, and a transaction writes the payloads it was
begun with. -/
structure Faithful (world : World) : Prop where
  changes : ∀ listingId, (history world.db.snapshots listingId).IsChain
    fun one next => one.contentHash ≠ next.contentHash
  newest : ∀ key hash, world.lastWrite key = some hash → ∃ listingId,
    world.db.listings key = some listingId ∧
      (latest world.db.snapshots listingId).map Snapshot.contentHash = some hash
  begun : ∀ tx writes after, step world (.begin tx writes) = some after →
    ∃ transaction, after.opened tx = some transaction ∧ transaction.batch = writes
  kept : ∀ action after tx transaction later, step world action = some after →
    world.opened tx = some transaction → after.opened tx = some later →
      later.batch = transaction.batch
  reported : ∀ tx transaction after, world.opened tx = some transaction →
    step world (.commit tx) = some after →
      Reports world after transaction.batch transaction.outcomes
  live : ∀ tx, ¬ Relation.TransGen
    (Waits world.wanted fun other key => world.locks key = some other) tx tx

/-- A listing's outcome, told from the row the snapshot statement judged. -/
theorem outcome_unchanged_iff {world : World} {tx : Nat} {transaction : Transaction}
    {scrapedAt : ℚ} {judged : List Judged} (fits : Fits world tx transaction)
    (under : Appending world transaction scrapedAt judged []) {row : Judged}
    (listed : row ∈ judged) :
    (transaction.outcome row).result = .unchanged ↔
      history (world.committed transaction).snapshots row.listingId =
          history world.db.snapshots row.listingId ∧
        (world.db.listings (transaction.source, row.write.sourceIdNative)).isSome := by
  have written : row.toUpserted ∈ transaction.upserted := by
    rw [← under.rows]
    exact List.mem_map_of_mem listed
  have placed := fits.placed row.toUpserted written
  unfold Transaction.outcome
  dsimp only
  cases inserted : row.inserted with
  | true =>
      rw [if_pos rfl, (placed.inserted inserted).1]
      simp
  | false =>
      rw [if_neg (by simp), placed.existing inserted]
      cases drawn : transaction.appended.find? fun snapshot =>
          snapshot.listingId == row.listingId with
      | some snapshot =>
          have same := List.find?_some drawn
          have grown := history_grown under (List.mem_of_find?_eq_some drawn)
          rw [beq_iff_eq.mp same] at grown
          rw [grown]
          simp
      | none =>
          have none_ : ∀ snapshot ∈ transaction.appended,
              snapshot.listingId ≠ row.listingId := by
            intro snapshot appended same
            have missed := List.find?_eq_none.mp drawn snapshot appended
            simp [same] at missed
          rw [history_kept none_]
          simp

/-- The judged row of a native id of the batch. -/
theorem judged_of_native {world : World} {tx : Nat} {transaction : Transaction} {scrapedAt : ℚ}
    {judged : List Judged} (fits : Fits world tx transaction)
    (phase : transaction.phase = .appending scrapedAt judged []) {native : String}
    (listed : native ∈ natives transaction.batch) :
    ∃ row, judged.find? (fun row => row.write.sourceIdNative == native) = some row ∧
      row ∈ judged ∧ row.write.sourceIdNative = native ∧ Final transaction.batch row.write := by
  have rows := (fits.appending scrapedAt judged [] phase).rows
  have batch : (judged.map Judged.toUpserted).map Upserted.write = stage transaction.batch := by
    rw [rows]
    exact fits.written phase
  obtain ⟨write, last⟩ := lastPayload_of_native listed
  obtain ⟨_, rfl⟩ := mem_of_lastPayload last
  have staged := mem_stage.mpr (lastPayload_eq_some_iff.mp last)
  rw [← batch, List.map_map] at staged
  obtain ⟨own, held, same⟩ := List.mem_map.mp staged
  cases found : judged.find? fun row => row.write.sourceIdNative == write.sourceIdNative with
  | none =>
      have missed := List.find?_eq_none.mp found own held
      rw [← same] at missed
      simp at missed
  | some row =>
      have member := List.mem_of_find?_eq_some found
      have met := List.find?_some found
      refine ⟨row, rfl, member, beq_iff_eq.mp met, ?_⟩
      rw [← mem_stage, ← batch, List.map_map]
      exact List.mem_map_of_mem member

theorem outcomes_reported {world after : World} {tx : Nat} {transaction : Transaction}
    (coherent : Coherent world) (found : world.opened tx = some transaction)
    (taken : world.commit tx = some after) :
    Reports world after transaction.batch transaction.outcomes := by
  obtain ⟨own, scrapedAt, judged, opened, phase, rfl⟩ := commit_cases taken
  rw [found] at opened
  cases opened
  have fits := coherent.fits tx transaction found
  have under := fits.appending scrapedAt judged [] phase
  have outcomes : transaction.outcomes = (natives transaction.batch).filterMap fun native =>
      (judged.find? fun row => row.write.sourceIdNative == native).map transaction.outcome := by
    unfold Transaction.outcomes
    rw [phase]
  have told : ∀ outcome ∈ transaction.outcomes, ∃ row ∈ judged,
      outcome = transaction.outcome row ∧ Final transaction.batch row.write := by
    intro outcome held
    rw [outcomes] at held
    obtain ⟨native, listed, reported⟩ := List.mem_filterMap.mp held
    obtain ⟨row, picked, member, _, final⟩ := judged_of_native fits phase listed
    rw [picked] at reported
    exact ⟨row, member, (Option.some.inj reported).symm, final⟩
  have sourced : ∀ row ∈ judged, Final transaction.batch row.write →
      transaction.source = row.write.source := by
    rintro row _ ⟨earlier, later, split, _⟩
    exact (fits.sourced row.write (split ▸ List.mem_append_right _ List.mem_cons_self)).symm
  constructor
  · rw [outcomes, List.map_filterMap]
    have one : ∀ native ∈ natives transaction.batch,
        ((judged.find? fun row => row.write.sourceIdNative == native).map
          transaction.outcome).map WriteOutcome.sourceIdNative = some native := by
      intro native listed
      obtain ⟨row, picked, _, rfl, _⟩ := judged_of_native fits phase listed
      rw [picked]
      rfl
    rw [List.filterMap_congr one]
    exact List.filterMap_some
  · intro outcome held
    obtain ⟨row, member, rfl, final⟩ := told outcome held
    exact ⟨row.write, final, sourced row member final, rfl, rfl⟩
  · intro outcome held
    obtain ⟨row, member, rfl, final⟩ := told outcome held
    have written : row.toUpserted ∈ transaction.upserted := by
      rw [← under.rows]
      exact List.mem_map_of_mem member
    refine ⟨committed_own fits written, latest_written fits under member, ?_⟩
    change ((transaction.submitted (transaction.source, row.write.sourceIdNative)).map
      ListingWrite.contentHash).or _ = _
    rw [fits.submitted (fits.written phase), fits.rowAt written]
    rfl
  · intro outcome held
    obtain ⟨row, member, rfl, _⟩ := told outcome held
    exact outcome_unchanged_iff fits under member

theorem begin_batch {world after : World} {tx : Nat} {writes : List ListingWrite}
    (taken : world.begin tx writes = some after) :
    ∃ transaction, after.opened tx = some transaction ∧ transaction.batch = writes := by
  unfold World.begin at taken
  split at taken
  · cases taken
    exact ⟨_, Function.update_self .., rfl⟩
  · cases taken

/-- A step of one transaction leaves the batches of all. -/
theorem batch_of_update {world after : World} {tx other : Nat} {own transaction later : Transaction}
    {new : Option Transaction} (opened : after.opened = Function.update world.opened tx new)
    (found : world.opened tx = some own) (same : ∀ next ∈ new, next.batch = own.batch)
    (before : world.opened other = some transaction) (left : after.opened other = some later) :
    later.batch = transaction.batch := by
  rw [opened] at left
  by_cases mine : other = tx
  · cases mine
    rw [Function.update_self] at left
    rw [found] at before
    cases before
    exact same later left
  · rw [Function.update_of_ne mine, before] at left
    cases left
    rfl

theorem batch_kept {world after : World} {action : Action} {tx : Nat}
    {transaction later : Transaction} (taken : step world action = some after)
    (found : world.opened tx = some transaction) (left : after.opened tx = some later) :
    later.batch = transaction.batch := by
  cases action with
  | wait seconds =>
      obtain ⟨_, taken⟩ := Option.ite_none_right_eq_some.mp taken
      cases taken
      rw [found] at left
      cases left
      rfl
  | begin other writes =>
      have taken : world.begin other writes = some after := taken
      unfold World.begin at taken
      split at taken
      · next source closed _ =>
          cases taken
          have differ : tx ≠ other := by
            rintro rfl
            rw [closed] at found
            cases found
          dsimp only at left
          rw [Function.update_of_ne differ, found] at left
          cases left
          rfl
      · cases taken
  | lockRow other =>
      obtain ⟨own, write, rest, opened, _, _, rfl⟩ := lockRow_cases taken
      exact batch_of_update rfl opened (fun next same => by cases same; rfl) found left
  | judge other =>
      obtain ⟨own, opened, rest⟩ := Option.bind_eq_some_iff.mp taken
      split at rest
      · cases rest
        exact batch_of_update rfl opened (fun next same => by cases same; rfl) found left
      · cases rest
  | append other =>
      obtain ⟨own, opened, rest⟩ := Option.bind_eq_some_iff.mp taken
      split at rest
      · cases rest
        exact batch_of_update rfl opened (fun next same => by cases same; rfl) found left
      · cases rest
  | commit other =>
      obtain ⟨own, _, _, opened, _, rfl⟩ := commit_cases taken
      exact batch_of_update rfl opened (fun next none_ => by cases none_) found left
  | abort other =>
      obtain ⟨own, opened, rest⟩ := Option.bind_eq_some_iff.mp taken
      cases rest
      exact batch_of_update rfl opened (fun next none_ => by cases none_) found left

/-- The rows a transaction holds come before the one it wants. -/
theorem wanted_ascending {world : World} (coherent : Coherent world) (tx : Nat) (key own : Key)
    (wanted : world.wanted tx = some key) (held : world.locks own = some tx) :
    own.2 < key.2 := by
  unfold World.wanted at wanted
  obtain ⟨transaction, found, next⟩ := Option.bind_eq_some_iff.mp wanted
  have fits := coherent.fits tx transaction found
  obtain ⟨row, written, rfl⟩ := (fits.locked own).mp held
  split at next
  · next write rest phase =>
      cases next
      have ascending := fits.ascending
      rw [phase] at ascending
      exact (List.pairwise_append.mp ascending).2.2 row.write (List.mem_map_of_mem written) write
        List.mem_cons_self
  · cases next

/-- Whatever the writers do, the snapshots are exactly the changes, every write says what it did
with each payload it was given, and no writers wait in a circle. -/
theorem write_listings_faithful {start world : World} (opening : Opening start)
    (reached : Runs start world) : Faithful world := by
  have coherent := runs_coherent opening reached
  exact ⟨coherent.sound.changes, coherent.sound.newest,
    fun tx writes after taken => begin_batch taken,
    fun action after tx transaction later taken found left => batch_kept taken found left,
    fun tx transaction after found taken => outcomes_reported coherent found taken,
    no_waiting_circle Prod.snd (wanted_ascending coherent)⟩

/-! ### Two writers of one advert -/

def emptyTables : World where
  db := { listings := fun _ => none, snapshots := [] }
  now := 0
  nextListing := 1
  nextSnapshot := 1
  locks := fun _ => none
  opened := fun _ => none
  lastWrite := fun _ => none

def flat (sourceIdNative contentHash : String) : ListingWrite where
  source := "sreality"
  sourceIdNative := sourceIdNative
  priceCzk := some 5000000
  contentHash := contentHash

/-- The second writer begins first, with one advert twice, and takes the row they share when the
first one has committed. -/
def overlappingWrites : List Action :=
  [.begin 2 [flat "7" "b", flat "3" "d", flat "7" "c"], .begin 1 [flat "7" "a"], .lockRow 1,
    .lockRow 2, .wait 1, .judge 1, .append 1, .commit 1, .lockRow 2, .judge 2, .append 2, .append 2]

theorem emptyTables_opening : Opening emptyTables := by
  refine ⟨⟨?_, ?_, ?_, ?_, fun id => List.isChain_nil, ?_⟩, fun _ => rfl, fun _ => rfl⟩
  · exact fun _ _ listed => by cases listed
  · exact fun _ _ _ listed => by cases listed
  · exact fun _ held => by cases held
  · exact fun _ held => by cases held
  · exact fun _ _ last => by cases last

/-- What the second writer is about to report. -/
def overlappingOutcomes (world : World) : List (String × Nat × Result × Option Nat × String) :=
  ((world.opened 2).map fun transaction => transaction.outcomes.map fun outcome =>
    (outcome.sourceIdNative, outcome.listingId, outcome.result, outcome.snapshotId,
      outcome.contentHash)).getD []

theorem write_listings_faithful_at_overlap :
    ∃ world after, replay step emptyTables overlappingWrites = some world ∧
      step world (.commit 2) = some after ∧
      overlappingOutcomes world =
        [("7", 1, .updated, some 2, "c"), ("3", 2, .new, some 3, "d")] ∧
      (history after.db.snapshots 1).map Snapshot.contentHash = ["a", "c"] ∧
      (history after.db.snapshots 2).map Snapshot.contentHash = ["d"] ∧ Faithful world :=
  ⟨_, _, rfl, rfl, by decide +kernel, by decide +kernel, by decide +kernel,
    write_listings_faithful emptyTables_opening
      (reaches_of_replay rfl (allowedAll_true step emptyTables overlappingWrites))⟩

end Sreality.Scraper.WriteListings
