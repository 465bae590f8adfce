import Sreality.Autodedup.IncrementalStoreProperties

/-! The view a pass writes through reads as the store will once the writes land, and until then
the store is untouched. -/

set_option autoImplicit false

namespace Sreality.Autodedup

open Sreality.Foundation

variable {Detail : Type}

/-- What a pass's writes make of one listing. -/
inductive Fate where
  | kept
  | put (row : FpRow) (keys : List PostKey)
  | gone

namespace Fate

def row : Fate → Option FpRow
  | .put row _ => some row
  | .kept | .gone => none

def keys : Fate → Option (List PostKey)
  | .put _ keys => some keys
  | .kept | .gone => none

/-- The keys it leaves, over the stored ones. -/
def settled (stored : List PostKey) : Fate → List PostKey
  | .kept => stored
  | .put _ keys => keys
  | .gone => []

/-- It takes the listing off a key it was posted under. -/
def Drops (key : PostKey) : Fate → Prop
  | .kept => False
  | .put _ keys => key ∉ keys
  | .gone => True

/-- The row it leaves, over the stored one, once the store has stamped it. -/
def landedRow (store : MemoryStore Detail) (listing : Nat) : Fate → Option FpRow
  | .kept => store.fp listing
  | .put row _ => some { row with firstDecidedAt := store.stamp listing row }
  | .gone => none

end Fate

/-- The calls of one pass over a store: a listing once, with the keys and the stamp it is stored
under. -/
structure Issued (store : MemoryStore Detail) (calls : List Call) : Prop where
  once : (calls.filterMap Call.listing).Nodup
  distinct : ∀ listing row keys oldKeys, Call.put listing row keys oldKeys ∈ calls → keys.Nodup
  carried : ∀ listing row keys oldKeys, Call.put listing row keys oldKeys ∈ calls →
    row.firstDecidedAt = (store.fp listing).bind FpRow.firstDecidedAt
  put : ∀ listing row keys oldKeys, Call.put listing row keys oldKeys ∈ calls →
    ∀ key, key ∈ oldKeys ↔ key ∈ store.keysOf listing
  drop : ∀ listing oldKeys, Call.drop listing oldKeys ∈ calls →
    ∀ key, key ∈ oldKeys ↔ key ∈ store.keysOf listing

/-! ### What a view holds -/

@[simp] theorem mem_insertId {listing other : Nat} {ids : List Nat} :
    other ∈ insertId listing ids ↔ other = listing ∨ other ∈ ids := by
  unfold insertId
  split_ifs with held
  · constructor
    · exact Or.inr
    · rintro (rfl | inside)
      · exact held
      · exact inside
  · rw [List.mem_append, List.mem_singleton, or_comm]

@[simp] theorem mem_discardId {listing other : Nat} {ids : List Nat} :
    other ∈ discardId listing ids ↔ other ∈ ids ∧ other ≠ listing := by
  rw [discardId, List.mem_filter, decide_eq_true_iff]

/-- A view that holds back, over a store, what becomes of each listing. -/
structure Buffered (store : MemoryStore Detail) (fate : Nat → Fate) (view : Overlay Detail) :
    Prop where
  store_eq : view.store = store
  fp : ∀ listing, view.fp listing = (fate listing).row
  keys : ∀ listing, view.keys.lookup listing = (fate listing).keys
  unique : Keyed Prod.fst view.keys
  gone : ∀ listing, listing ∈ view.gone ↔ fate listing = .gone
  added : ∀ key listing, listing ∈ view.added key ↔ ∃ keys, (fate listing).keys = some keys ∧
    key ∈ keys
  dropped : ∀ key listing, listing ∈ view.dropped key ↔
    key ∈ store.keysOf listing ∧ (fate listing).Drops key
  counts : ∀ base : MemoryStore Detail, base.cell = store.cell → ∀ cell,
    (view.ops.foldl Overlay.applyOp base).nListings cell = view.nListings cell

theorem Buffered.start (store : MemoryStore Detail) :
    Buffered store (fun _ => .kept) { store := store } where
  store_eq := rfl
  fp _ := rfl
  keys _ := rfl
  unique := Keyed.nil
  gone listing := by simp
  added key listing := by simp [Fate.keys]
  dropped key listing := by simp [Fate.Drops]
  counts base same cell := by
    rw [List.foldl_nil, MemoryStore.nListings, same]
    rfl

namespace Buffered

variable {store : MemoryStore Detail} {fate : Nat → Fate} {view : Overlay Detail}

/-- An untouched listing is nowhere in the buffers. -/
theorem keys_filter (held : Buffered store fate view) {listing : Nat}
    (fresh : fate listing = .kept) :
    (view.keys.filter fun entry => decide (entry.1 ≠ listing)) = view.keys := by
  have absent : listing ∉ view.keys.map Prod.fst := by
    rw [← lookup_eq_none_iff_key, held.keys, fresh]
    rfl
  refine List.filter_eq_self.mpr fun entry inside => decide_eq_true fun same => absent ?_
  exact List.mem_map.mpr ⟨entry, inside, same⟩

theorem putListing (held : Buffered store fate view) {listing : Nat} {row : FpRow}
    {keys oldKeys : List PostKey} (fresh : fate listing = .kept)
    (stored : ∀ key, key ∈ oldKeys ↔ key ∈ store.keysOf listing) :
    Buffered store (Function.update fate listing (.put row keys))
      (view.putListing listing row keys oldKeys) where
  store_eq := held.store_eq
  fp other := by
    rw [Overlay.putListing]
    dsimp only
    rw [Function.update_apply, Function.update_apply]
    split_ifs
    · rfl
    · exact held.fp other
  keys other := by
    rw [Overlay.putListing]
    dsimp only
    rw [held.keys_filter fresh, List.lookup_append, held.keys, Function.update_apply]
    split_ifs with same
    · rw [same, fresh]
      simp [Fate.keys]
    · have last : [(listing, keys)].lookup other = none := by
        rw [List.lookup_cons, beq_false_of_ne same]
        rfl
      rw [last, Option.or_none]
  unique := by
    rw [Overlay.putListing]
    dsimp only
    rw [held.keys_filter fresh]
    refine held.unique.insert fun entry inside same => ?_
    have found : listing ∈ view.keys.map Prod.fst := List.mem_map.mpr ⟨entry, inside, same⟩
    have absent : view.keys.lookup listing = none := by
      rw [held.keys, fresh]
      rfl
    exact lookup_eq_none_iff_key.mp absent found
  gone other := by
    rw [Overlay.putListing]
    dsimp only
    rw [held.gone, Function.update_apply]
    split_ifs with same
    · simp [same, fresh]
    · rfl
  added key other := by
    have before : listing ∉ view.added key := by
      rw [held.added, fresh]
      simp [Fate.keys]
    rw [Overlay.putListing, Function.update_apply]
    dsimp only
    by_cases same : other = listing
    · subst same
      rw [if_pos rfl]
      split_ifs <;> simp_all [Fate.keys]
    · rw [if_neg same, ← held.added]
      split_ifs <;> simp [same]
  dropped key other := by
    have before : listing ∉ view.dropped key := by
      rw [held.dropped, fresh]
      simp [Fate.Drops]
    rw [Overlay.putListing, Function.update_apply]
    dsimp only
    by_cases same : other = listing
    · subst same
      rw [if_pos rfl, ← stored]
      split_ifs <;> simp_all [Fate.Drops]
    · rw [if_neg same, ← held.dropped]
      split_ifs <;> simp [same]
  counts := held.counts

theorem dropListing (held : Buffered store fate view) {listing : Nat} {oldKeys : List PostKey}
    (fresh : fate listing = .kept)
    (stored : ∀ key, key ∈ oldKeys ↔ key ∈ store.keysOf listing) :
    Buffered store (Function.update fate listing .gone) (view.dropListing listing oldKeys) where
  store_eq := held.store_eq
  fp other := by
    rw [Overlay.dropListing]
    dsimp only
    rw [Function.update_apply, Function.update_apply]
    split_ifs
    · rfl
    · exact held.fp other
  keys other := by
    rw [Overlay.dropListing]
    dsimp only
    rw [held.keys_filter fresh, held.keys, Function.update_apply]
    split_ifs with same
    · rw [same, fresh]
      rfl
    · rfl
  unique := held.unique.filter _
  gone other := by
    rw [Overlay.dropListing]
    dsimp only
    rw [mem_insertId, held.gone, Function.update_apply]
    split_ifs with same
    · simp [same]
    · simp [same]
  added key other := by
    have before : listing ∉ view.added key := by
      rw [held.added, fresh]
      simp [Fate.keys]
    rw [Overlay.dropListing, Function.update_apply]
    dsimp only
    by_cases same : other = listing
    · subst same
      rw [if_pos rfl]
      split_ifs <;> simp_all [Fate.keys]
    · rw [if_neg same, ← held.added]
      split_ifs <;> simp [same]
  dropped key other := by
    have before : listing ∉ view.dropped key := by
      rw [held.dropped, fresh]
      simp [Fate.Drops]
    rw [Overlay.dropListing, Function.update_apply]
    dsimp only
    by_cases same : other = listing
    · subst same
      rw [if_pos rfl, ← stored]
      split_ifs <;> simp_all [Fate.Drops]
    · rw [if_neg same, ← held.dropped]
      split_ifs <;> simp [same]
  counts := held.counts

/-- One more operation on the census, counted alike on both sides. -/
theorem census (held : Buffered store fate view) {after : Overlay Detail} {op : CellOp}
    (change : CellKey → Nat → Nat)
    (view_eq : after = { view with cellRows := after.cellRows, ops := view.ops ++ [op] })
    (counted : ∀ cell, after.nListings cell = change cell (view.nListings cell))
    (applied : ∀ (base : MemoryStore Detail) cell,
      (Overlay.applyOp base op).nListings cell = change cell (base.nListings cell)) :
    Buffered store fate after := by
  rw [view_eq]
  refine ⟨held.store_eq, held.fp, held.keys, held.unique, held.gone, held.added, held.dropped, ?_⟩
  intro base same cell
  rw [List.foldl_append, List.foldl_cons, List.foldl_nil, applied, held.counts base same cell,
    ← counted, view_eq]

theorem bumpCell (held : Buffered store fate view) (listing : CensusListing) :
    Buffered store fate (view.bumpCell listing) := by
  refine held.census (fun cell count => if cell = listing.cell then count + 1 else count) rfl ?_
    fun base cell => MemoryStore.nListings_bumpCell listing cell
  intro cell
  rw [Overlay.nListings, Overlay.nListings, Overlay.bumpCell]
  dsimp only
  rw [Function.update_apply]
  split_ifs with same
  · rw [same, Overlay.cellRow]
    cases (view.cellRows listing.cell).or (view.store.cell listing.cell) with
    | none => rfl
    | some row => rfl
  · rfl

theorem unbumpCell (held : Buffered store fate view) (other : CellKey) :
    Buffered store fate (view.unbumpCell other) := by
  refine held.census (fun cell count => if cell = other then count - 1 else count) rfl ?_
    fun base cell => MemoryStore.nListings_unbumpCell other cell
  intro cell
  rw [Overlay.nListings, Overlay.nListings, Overlay.unbumpCell]
  dsimp only
  rw [Function.update_apply]
  split_ifs with same
  · rw [same, Overlay.cellRow]
    cases (view.cellRows other).or (view.store.cell other) with
    | none => rfl
    | some row => rfl
  · rfl

/-- One call of a pass on a listing it has not called on before. -/
theorem issue (held : Buffered store fate view) {calls : List Call} (issued : Issued store calls)
    {call : Call} (called : call ∈ calls)
    (fresh : ∀ listing, call.listing = some listing → fate listing = .kept) :
    ∃ after, Buffered store after (call.issue view) ∧
      (∀ other, call.listing ≠ some other → after other = fate other) ∧
      ∀ other row keys, after other = .put row keys → fate other = .put row keys ∨
        ∃ oldKeys, Call.put other row keys oldKeys ∈ calls := by
  cases call with
  | put listing row keys oldKeys =>
      refine ⟨Function.update fate listing (.put row keys),
        held.putListing (fresh listing rfl) (issued.put listing row keys oldKeys called), ?_, ?_⟩
      · intro other apart
        exact Function.update_of_ne (fun same => apart (congrArg some same.symm)) _ _
      · intro other row' keys' became
        rw [Function.update_apply] at became
        split_ifs at became with same
        · obtain ⟨rfl, rfl⟩ := Fate.put.inj became
          exact Or.inr ⟨oldKeys, same ▸ called⟩
        · exact Or.inl became
  | drop listing oldKeys =>
      refine ⟨Function.update fate listing .gone,
        held.dropListing (fresh listing rfl) (issued.drop listing oldKeys called), ?_, ?_⟩
      · intro other apart
        exact Function.update_of_ne (fun same => apart (congrArg some same.symm)) _ _
      · intro other row' keys' became
        rw [Function.update_apply] at became
        split_ifs at became with same
        exact Or.inl became
  | bump listing =>
      exact ⟨fate, held.bumpCell listing, fun _ _ => rfl, fun _ _ _ same => Or.inl same⟩
  | unbump cell =>
      exact ⟨fate, held.unbumpCell cell, fun _ _ => rfl, fun _ _ _ same => Or.inl same⟩

theorem run (held : Buffered store fate view) {calls all : List Call}
    (issued : Issued store all) (inside : ∀ call ∈ calls, call ∈ all)
    (once : (calls.filterMap Call.listing).Nodup)
    (fresh : ∀ call ∈ calls, ∀ listing, call.listing = some listing → fate listing = .kept) :
    ∃ after, Buffered store after (calls.foldl Call.issue view) ∧
      ∀ other row keys, after other = .put row keys → fate other = .put row keys ∨
        ∃ oldKeys, Call.put other row keys oldKeys ∈ all := by
  induction calls generalizing fate view with
  | nil => exact ⟨fate, held, fun _ _ _ same => Or.inl same⟩
  | cons call rest ih =>
      obtain ⟨next, nextHeld, others, nextPut⟩ := held.issue issued
        (inside call List.mem_cons_self) (fresh call List.mem_cons_self)
      have restOnce : (rest.filterMap Call.listing).Nodup :=
        once.sublist ((List.sublist_cons_self call rest).filterMap Call.listing)
      have restFresh : ∀ other ∈ rest, ∀ listing, other.listing = some listing →
          next listing = .kept := by
        intro other otherHeld listing of
        rw [others listing ?_]
        · exact fresh other (List.mem_cons_of_mem _ otherHeld) listing of
        intro same
        rw [List.filterMap_cons_some same] at once
        exact (List.nodup_cons.mp once).1 (List.mem_filterMap.mpr ⟨other, otherHeld, of⟩)
      obtain ⟨after, afterHeld, afterPut⟩ := ih nextHeld
        (fun other otherHeld => inside other (List.mem_cons_of_mem _ otherHeld)) restOnce restFresh
      refine ⟨after, afterHeld, fun other row keys became => ?_⟩
      rcases afterPut other row keys became with before | called
      · exact nextPut other row keys before
      · exact Or.inr called

end Buffered

/-! ### What lands -/

/-- A store after some writes: the rows and the keys it holds, its census and its clock as
before. -/
structure Landed (before after : MemoryStore Detail) (row : Nat → Option FpRow)
    (keys : Nat → List PostKey) : Prop where
  formed : after.WellFormed
  fp : ∀ listing, after.fp listing = row listing
  keysOf : ∀ listing, after.keysOf listing = keys listing
  cell : after.cell = before.cell
  now : after.now = before.now

theorem drops_landed {store : MemoryStore Detail} (formed : store.WellFormed) (ids : List Nat) :
    Landed store (ids.foldl MemoryStore.dropListing store)
      (fun listing => if listing ∈ ids then none else store.fp listing)
      (fun listing => if listing ∈ ids then [] else store.keysOf listing) := by
  induction ids generalizing store with
  | nil => exact ⟨formed, by simp, by simp, rfl, rfl⟩
  | cons head rest ih =>
      have landed := ih (formed.dropListing head)
      refine ⟨landed.formed, fun listing => ?_, fun listing => ?_, landed.cell, landed.now⟩
      · rw [List.foldl_cons, landed.fp, MemoryStore.dropListing_fp]
        by_cases same : listing = head <;> by_cases later : listing ∈ rest <;> simp [same, later]
      · rw [List.foldl_cons, landed.keysOf, MemoryStore.dropListing_keysOf]
        by_cases same : listing = head <;> by_cases later : listing ∈ rest <;> simp [same, later]

/-- One listing's row and keys into the store. -/
def Overlay.land (view : Overlay Detail) (store : MemoryStore Detail) (listing : Nat) :
    MemoryStore Detail :=
  match view.fp listing, view.keys.lookup listing with
  | some row, some keys => store.putListing listing row keys
  | _, _ => store

theorem puts_landed {store : MemoryStore Detail} (formed : store.WellFormed)
    {view : Overlay Detail} {ids : List Nat} (once : ids.Nodup) {fate : Nat → Fate}
    (fp : ∀ listing, view.fp listing = (fate listing).row)
    (keyed : ∀ listing, view.keys.lookup listing = (fate listing).keys)
    (put : ∀ listing ∈ ids, ∃ row keys, fate listing = .put row keys ∧ keys.Nodup) :
    Landed store (ids.foldl view.land store)
      (fun listing =>
        if listing ∈ ids then (fate listing).landedRow store listing else store.fp listing)
      (fun listing =>
        if listing ∈ ids then (fate listing).settled (store.keysOf listing)
        else store.keysOf listing) := by
  induction ids generalizing store with
  | nil => exact ⟨formed, by simp, by simp, rfl, rfl⟩
  | cons head rest ih =>
      obtain ⟨fresh, restOnce⟩ := List.nodup_cons.mp once
      obtain ⟨row, keys, became, distinct⟩ := put head List.mem_cons_self
      have step : view.land store head = store.putListing head row keys := by
        rw [Overlay.land, fp, keyed, became]
        rfl
      have landed := ih (formed.putListing head row distinct) restOnce fun listing later =>
        put listing (List.mem_cons_of_mem _ later)
      rw [List.foldl_cons, step]
      refine ⟨landed.formed, fun listing => ?_, fun listing => ?_, landed.cell, landed.now⟩
      · rw [landed.fp, MemoryStore.putListing_fp]
        by_cases same : listing = head
        · subst same
          rw [if_neg fresh, if_pos rfl, if_pos List.mem_cons_self, became]
          rfl
        · rw [if_neg same]
          cases fate listing <;>
            simp [same, Fate.landedRow, MemoryStore.stamp, MemoryStore.putListing,
              MemoryStore.dropKeys]
      · rw [landed.keysOf, MemoryStore.putListing_keysOf]
        by_cases same : listing = head
        · subst same
          rw [if_neg fresh, if_pos rfl, if_pos List.mem_cons_self, became]
          rfl
        · simp [same]

/-- The census operations touch the census alone. -/
theorem foldl_applyOp_frame (ops : List CellOp) (base : MemoryStore Detail) :
    ∃ cell, ops.foldl Overlay.applyOp base = { base with cell := cell } := by
  induction ops generalizing base with
  | nil => exact ⟨base.cell, rfl⟩
  | cons op rest ih =>
      cases op with
      | bump listing => exact ih (base.bumpCell listing)
      | unbump cell => exact ih (base.unbumpCell cell)

/-- A view's posting list and a store's, each by its members. -/
theorem mem_posting {view : Overlay Detail} {key : PostKey}
    (distinct : (view.store.postings key).Nodup) {listing : Nat} :
    listing ∈ view.posting key ↔
      (listing ∈ view.store.postings key ∧ listing ∉ view.dropped key) ∨
        listing ∈ view.added key := by
  have erased : ∀ (dropped bucket : List Nat), bucket.Nodup →
      (listing ∈ dropped.foldl (fun ids listing => ids.erase listing) bucket ↔
        listing ∈ bucket ∧ listing ∉ dropped) := by
    intro dropped
    induction dropped with
    | nil => simp
    | cons head rest ih =>
        intro bucket unique
        rw [List.foldl_cons, ih _ (unique.sublist List.erase_sublist), unique.mem_erase_iff,
          List.mem_cons]
        tauto
  have inserted : ∀ (added bucket : List Nat),
      (listing ∈ added.foldl
          (fun ids listing => if listing ∈ ids then ids else insort listing ids) bucket ↔
        listing ∈ bucket ∨ listing ∈ added) := by
    intro added
    induction added with
    | nil => simp
    | cons head rest ih =>
        intro bucket
        rw [List.foldl_cons, ih, List.mem_cons]
        split_ifs with held
        · constructor
          · tauto
          · rintro (inside | rfl | later)
            · exact Or.inl inside
            · exact Or.inl held
            · exact Or.inr later
        · rw [mem_insort]
          tauto
  rw [Overlay.posting, inserted, erased _ _ distinct]

theorem posting_ascending {view : Overlay Detail} {key : PostKey}
    (up : (view.store.postings key).Pairwise (· < ·)) :
    (view.posting key).Pairwise (· < ·) := by
  have erased : ∀ (dropped bucket : List Nat), bucket.Pairwise (· < ·) →
      (dropped.foldl (fun ids listing => ids.erase listing) bucket).Pairwise (· < ·) := by
    intro dropped
    induction dropped with
    | nil => exact fun _ up => up
    | cons head rest ih => exact fun bucket up => ih _ (up.sublist List.erase_sublist)
  have inserted : ∀ (added bucket : List Nat), bucket.Pairwise (· < ·) →
      (added.foldl (fun ids listing => if listing ∈ ids then ids else insort listing ids)
        bucket).Pairwise (· < ·) := by
    intro added
    induction added with
    | nil => exact fun _ up => up
    | cons head rest ih =>
        intro bucket up
        apply ih
        dsimp only
        split_ifs with held
        · exact up
        · exact insort_ascending up held
  exact inserted _ _ (erased _ _ up)

namespace Buffered

variable {store : MemoryStore Detail} {fate : Nat → Fate} {view : Overlay Detail}

theorem mem_keys (held : Buffered store fate view) (listing : Nat) :
    listing ∈ sortedIds (view.keys.map Prod.fst) ↔
      ∃ row keys, fate listing = .put row keys := by
  rw [mem_sortedBy]
  have found := held.keys listing
  cases became : fate listing with
  | put row keys =>
      refine iff_of_true ?_ ⟨row, keys, rfl⟩
      by_contra absent
      rw [lookup_eq_none_iff_key.mpr absent, became] at found
      cases found
  | kept =>
      rw [became] at found
      exact iff_of_false (lookup_eq_none_iff_key.mp found) (by simp)
  | gone =>
      rw [became] at found
      exact iff_of_false (lookup_eq_none_iff_key.mp found) (by simp)

theorem mem_gone (held : Buffered store fate view) (listing : Nat) :
    listing ∈ sortedIds view.gone ↔ fate listing = .gone := by
  rw [mem_sortedBy]
  exact held.gone listing

/-- The store once the rows and the keys have landed. -/
theorem rows_landed (held : Buffered store fate view) (formed : store.WellFormed)
    (distinct : ∀ listing row keys, fate listing = .put row keys → keys.Nodup) :
    Landed store ((sortedIds (view.keys.map Prod.fst)).foldl view.land
        ((sortedIds view.gone).foldl MemoryStore.dropListing store))
      (fun listing => (fate listing).landedRow store listing)
      (fun listing => (fate listing).settled (store.keysOf listing)) := by
  have drops := drops_landed formed (sortedIds view.gone)
  have once : (sortedIds (view.keys.map Prod.fst)).Nodup := nodup_sortedBy.mpr held.unique
  have puts := puts_landed drops.formed once held.fp held.keys (fun listing inside => by
    obtain ⟨row, keys, became⟩ := (held.mem_keys listing).mp inside
    exact ⟨row, keys, became, distinct listing row keys became⟩)
  have dropped : ∀ listing, fate listing ≠ .gone →
      ((sortedIds view.gone).foldl MemoryStore.dropListing store).fp listing = store.fp listing ∧
      ((sortedIds view.gone).foldl MemoryStore.dropListing store).keysOf listing =
        store.keysOf listing := by
    intro listing stays
    have outside : ¬ listing ∈ sortedIds view.gone := fun inside =>
      stays ((held.mem_gone listing).mp inside)
    rw [drops.fp, drops.keysOf, if_neg outside, if_neg outside]
    exact ⟨rfl, rfl⟩
  refine ⟨puts.formed, fun listing => ?_, fun listing => ?_, puts.cell.trans drops.cell,
    puts.now.trans drops.now⟩
  · rw [puts.fp]
    have inPut := held.mem_keys listing
    cases became : fate listing with
    | put row keys =>
        rw [if_pos (inPut.mpr ⟨row, keys, became⟩), Fate.landedRow, Fate.landedRow,
          MemoryStore.stamp, MemoryStore.stamp, (dropped listing (by simp [became])).1, drops.now]
    | kept =>
        rw [if_neg (by simp [inPut, became]), (dropped listing (by simp [became])).1,
          Fate.landedRow]
    | gone =>
        rw [if_neg (by simp [inPut, became]), drops.fp,
          if_pos ((held.mem_gone listing).mpr became), Fate.landedRow]
  · rw [puts.keysOf]
    have inPut := held.mem_keys listing
    cases became : fate listing with
    | put row keys =>
        rw [if_pos (inPut.mpr ⟨row, keys, became⟩), Fate.settled, Fate.settled]
    | kept =>
        rw [if_neg (by simp [inPut, became]), (dropped listing (by simp [became])).2,
          Fate.settled]
    | gone =>
        rw [if_neg (by simp [inPut, became]), drops.keysOf,
          if_pos ((held.mem_gone listing).mpr became), Fate.settled]

/-- The store once the writes have landed. -/
theorem landed (held : Buffered store fate view) (formed : store.WellFormed)
    (distinct : ∀ listing row keys, fate listing = .put row keys → keys.Nodup) :
    view.apply.WellFormed ∧
      (∀ listing, view.apply.fp listing = (fate listing).landedRow store listing) ∧
      (∀ listing, view.apply.keysOf listing = (fate listing).settled (store.keysOf listing)) ∧
      ∀ cell, view.apply.nListings cell = view.nListings cell := by
  have rows := held.rows_landed formed distinct
  have applied : view.apply = view.ops.foldl Overlay.applyOp
      ((sortedIds (view.keys.map Prod.fst)).foldl view.land
        ((sortedIds view.gone).foldl MemoryStore.dropListing store)) := by
    rw [← held.store_eq]
    rfl
  obtain ⟨cell, framed⟩ := foldl_applyOp_frame view.ops
    ((sortedIds (view.keys.map Prod.fst)).foldl view.land
      ((sortedIds view.gone).foldl MemoryStore.dropListing store))
  have counts := held.counts _ rows.cell
  rw [← applied] at framed counts
  refine ⟨?_, fun listing => ?_, fun listing => ?_, counts⟩
  · rw [framed]
    exact ⟨rows.formed.ascending, rows.formed.posted, rows.formed.distinct⟩
  · rw [framed]
    exact rows.fp listing
  · rw [framed]
    exact rows.keysOf listing

end Buffered

/-! ### The calls of a pass -/

section Pass

variable (store : MemoryStore Detail) (items : List WorkItem) (read : Nat → Option ReadListing)

theorem mem_oldKeysOf {listing : Nat} (key : PostKey) :
    key ∈ oldKeysOf store listing ↔ key ∈ store.keysOf listing := by
  rw [oldKeysOf, mem_sortedBy, List.mem_dedup]

theorem retireCalls_listing (listing : Nat) :
    (retireCalls store listing).filterMap Call.listing = [listing] := by
  rw [retireCalls]
  cases store.fp listing with
  | none => rfl
  | some old => rfl

theorem refreshCalls_listing (listing : Nat) :
    ((refreshCalls store items read listing).filterMap Call.listing).Sublist [listing] := by
  rw [refreshCalls]
  cases read listing with
  | none => exact List.nil_sublist _
  | some fresh =>
      dsimp only
      split_ifs
      · exact List.nil_sublist _
      · cases store.fp listing with
        | none => exact List.Sublist.refl _
        | some old => exact List.Sublist.refl _

/-- A pass calls on what it retires, then on what it claims. -/
theorem passCalls_listing :
    ((passCalls store items read).filterMap Call.listing).Sublist
      (sortedIds (store.known (retireIds items).dedup) ++ claimedIds items) := by
  have retired : ∀ ids : List Nat,
      (ids.flatMap (retireCalls store)).filterMap Call.listing = ids := by
    intro ids
    induction ids with
    | nil => rfl
    | cons head rest ih =>
        rw [List.flatMap_cons, List.filterMap_append, retireCalls_listing, ih]
        rfl
  have claimed : ∀ ids : List Nat,
      ((ids.flatMap (refreshCalls store items read)).filterMap Call.listing).Sublist ids := by
    intro ids
    induction ids with
    | nil => exact List.Sublist.refl _
    | cons head rest ih =>
        rw [List.flatMap_cons, List.filterMap_append]
        exact (refreshCalls_listing store items read head).append ih
  rw [passCalls, List.filterMap_append, retired]
  exact (List.Sublist.refl _).append (claimed _)

theorem mem_refreshCalls_put {listing other : Nat} {row : FpRow} {keys oldKeys : List PostKey}
    (called : Call.put listing row keys oldKeys ∈ refreshCalls store items read other) :
    keys.Nodup ∧ oldKeys = oldKeysOf store listing ∧
      row.firstDecidedAt = (store.fp listing).bind FpRow.firstDecidedAt := by
  rw [refreshCalls] at called
  cases found : read other with
  | none =>
      rw [found] at called
      cases called
  | some fresh =>
      rw [found] at called
      dsimp only at called
      split_ifs at called
      · cases called
      · rcases List.mem_append.mp called with unbumped | written
        · simp at unbumped
        · rcases List.mem_cons.mp written with put | bumped
          · obtain ⟨rfl, rfl, rfl, rfl⟩ := Call.put.inj put
            exact ⟨nodup_sortedBy.mpr (List.nodup_dedup _), rfl, rfl⟩
          · simp at bumped

theorem mem_refreshCalls_drop {listing other : Nat} {oldKeys : List PostKey} :
    Call.drop listing oldKeys ∉ refreshCalls store items read other := by
  intro called
  rw [refreshCalls] at called
  cases found : read other with
  | none =>
      rw [found] at called
      cases called
  | some fresh =>
      rw [found] at called
      dsimp only at called
      split_ifs at called
      · cases called
      · simp at called

theorem mem_retireCalls_put {listing other : Nat} {row : FpRow} {keys oldKeys : List PostKey} :
    Call.put listing row keys oldKeys ∉ retireCalls store other := by
  simp [retireCalls]

theorem mem_retireCalls_drop {listing other : Nat} {oldKeys : List PostKey}
    (called : Call.drop listing oldKeys ∈ retireCalls store other) :
    oldKeys = oldKeysOf store listing := by
  have drop : listing = other ∧ oldKeys = oldKeysOf store other := by
    simpa [retireCalls] using called
  rw [drop.2, drop.1]

theorem passCalls_issued : Issued store (passCalls store items read) := by
  have put : ∀ listing row keys oldKeys,
      Call.put listing row keys oldKeys ∈ passCalls store items read →
        keys.Nodup ∧ oldKeys = oldKeysOf store listing ∧
          row.firstDecidedAt = (store.fp listing).bind FpRow.firstDecidedAt := by
    intro listing row keys oldKeys called
    rw [passCalls, List.mem_append, List.mem_flatMap, List.mem_flatMap] at called
    rcases called with ⟨other, -, retire⟩ | ⟨other, -, refresh⟩
    · exact absurd retire (mem_retireCalls_put store)
    · exact mem_refreshCalls_put store items read refresh
  refine ⟨?_, ?_, ?_, ?_, ?_⟩
  · refine List.Nodup.sublist (passCalls_listing store items read) (List.Nodup.append ?_ ?_ ?_)
    · exact nodup_sortedBy.mpr ((List.nodup_dedup _).filter _)
    · exact nodup_eraseDups _
    · intro listing retired claimed
      have gone : listing ∈ retireIds items := by
        have known := List.mem_filter.mp (mem_sortedBy.mp retired)
        exact List.mem_dedup.mp known.1
      have stays := (List.mem_filter.mp (List.mem_eraseDups.mp claimed)).2
      exact of_decide_eq_true stays gone
  · intro listing row keys oldKeys called
    exact (put listing row keys oldKeys called).1
  · intro listing row keys oldKeys called
    exact (put listing row keys oldKeys called).2.2
  · intro listing row keys oldKeys called key
    rw [(put listing row keys oldKeys called).2.1]
    exact mem_oldKeysOf store key
  · intro listing oldKeys called key
    rw [passCalls, List.mem_append, List.mem_flatMap, List.mem_flatMap] at called
    rcases called with ⟨other, -, retire⟩ | ⟨other, -, refresh⟩
    · rw [mem_retireCalls_drop store retire]
      exact mem_oldKeysOf store key
    · exact absurd refresh (mem_refreshCalls_drop store items read)

end Pass

/-! ### Reads -/

/-- A row the view holds back, as the store will stamp it: its own stamp, else the store's
clock. -/
def Overlay.stamped (view : Overlay Detail) (listing : Nat) (row : FpRow) : FpRow :=
  if (view.fp listing).isSome = true then
    { row with firstDecidedAt := row.firstDecidedAt.or view.store.now }
  else row

/-- A view reads as its store once its writes have landed, the stamp of a first decision apart;
its store is as it was. -/
structure ReadsAsLanded (store : MemoryStore Detail) (view : Overlay Detail) : Prop where
  lookups : ∀ keys, view.apply.lookupMany keys = view.lookupMany keys
  ascending : ∀ key, (view.posting key).Pairwise (· < ·)
  rows : ∀ ids, view.apply.rows ids =
    (view.rows ids).map fun entry => (entry.1, view.stamped entry.1 entry.2)
  known : ∀ ids, view.apply.known ids = view.known ids
  counts : ∀ cell, view.apply.nListings cell = view.nListings cell
  untouched : view.store = store

namespace Buffered

variable {store : MemoryStore Detail} {fate : Nat → Fate} {view : Overlay Detail}

theorem readsAsLanded (held : Buffered store fate view) (formed : store.WellFormed)
    (distinct : ∀ listing row keys, fate listing = .put row keys → keys.Nodup)
    (carried : ∀ listing row keys, fate listing = .put row keys →
      row.firstDecidedAt = (store.fp listing).bind FpRow.firstDecidedAt) :
    ReadsAsLanded store view := by
  obtain ⟨landed, fp, keysOf, counts⟩ := held.landed formed distinct
  have up : ∀ key, (view.store.postings key).Pairwise (· < ·) := fun key => by
    rw [held.store_eq]
    exact formed.ascending key
  have postings : ∀ key, view.apply.postings key = view.posting key := by
    intro key
    refine ascending_ext (landed.ascending key) (posting_ascending (up key)) fun listing => ?_
    rw [landed.posted, keysOf, mem_posting ((up key).imp fun before => before.ne),
      held.dropped, held.added, held.store_eq, formed.posted]
    cases fate listing with
    | kept => simp [Fate.settled, Fate.Drops, Fate.keys]
    | put row keys =>
        simp only [Fate.settled, Fate.Drops, Fate.keys, Option.some.injEq, exists_eq_left']
        tauto
    | gone => simp [Fate.settled, Fate.Drops, Fate.keys]
  have rows : ∀ listing, view.apply.fp listing =
      (view.row listing).map (view.stamped listing) := by
    intro listing
    have gone := held.gone listing
    have buffered := held.fp listing
    rw [fp, Overlay.row, held.store_eq, buffered]
    cases became : fate listing with
    | kept =>
        have asStored : ∀ row, view.stamped listing row = row := fun row => by
          rw [Overlay.stamped, buffered, became]
          rfl
        rw [if_neg (by simp [gone, became]), Fate.landedRow, Fate.row, Option.none_or]
        cases store.fp listing with
        | none => rfl
        | some row => exact congrArg some (asStored row).symm
    | put row keys =>
        have stamped : view.stamped listing row =
            { row with firstDecidedAt := row.firstDecidedAt.or store.now } := by
          rw [Overlay.stamped, buffered, became, held.store_eq]
          rfl
        rw [if_neg (by simp [gone, became]), Fate.landedRow, Fate.row, Option.some_or,
          Option.map_some, stamped, MemoryStore.stamp, ← carried listing row keys became,
          Option.or_self]
    | gone => rw [if_pos (gone.mpr became), Fate.landedRow, Option.map_none]
  refine ⟨fun keys => ?_, fun key => posting_ascending (up key), fun ids => ?_, fun ids => ?_,
    counts, held.store_eq⟩
  · simp only [MemoryStore.lookupMany, Overlay.lookupMany, postings]
  · rw [MemoryStore.rows, Overlay.rows, List.map_filterMap]
    apply List.filterMap_congr
    intro listing _
    rw [rows, Option.map_map, Option.map_map]
    rfl
  · rw [MemoryStore.known, Overlay.known]
    apply List.filter_congr
    intro listing _
    rw [rows, Option.isSome_map, Overlay.row]
    by_cases gone : listing ∈ view.gone
    · simp [gone]
    · simp [gone, Bool.or_comm]

end Buffered

/-- What the view of a pass promises over a store the lane has written. -/
structure ViewExact (store : MemoryStore Detail) : Prop where
  landed : ∀ calls, Issued store calls →
    ReadsAsLanded store (calls.foldl Call.issue { store := store })
  pass : ∀ items read, Issued store (passCalls store items read)
  refused : ∀ items read pairsToDecide maxPairs rest,
    (passToBudget store items read pairsToDecide maxPairs rest).2 = true →
      (passToBudget store items read pairsToDecide maxPairs rest).1 = store

theorem view_exact {store : MemoryStore Detail} (written : store.Written) : ViewExact store := by
  have landed : ∀ calls, Issued store calls →
      ReadsAsLanded store (calls.foldl Call.issue { store := store }) := by
    intro calls issued
    obtain ⟨fate, held, put⟩ := (Buffered.start store).run issued (fun call inside => inside)
      issued.once fun _ _ _ _ => rfl
    refine held.readsAsLanded written.wellFormed ?_ ?_
    · intro listing row keys became
      rcases put listing row keys became with start | ⟨oldKeys, called⟩
      · cases start
      · exact issued.distinct listing row keys oldKeys called
    · intro listing row keys became
      rcases put listing row keys became with start | ⟨oldKeys, called⟩
      · cases start
      · exact issued.carried listing row keys oldKeys called
  refine ⟨landed, passCalls_issued store, ?_⟩
  intro items read pairsToDecide maxPairs rest refused
  have untouched := (landed _ (passCalls_issued store items read)).untouched
  rw [passToBudget] at refused ⊢
  split_ifs at refused ⊢ with beyond
  exact untouched

/-- An empty store whose clock reads 5. -/
def clockedStore : MemoryStore Unit where
  now := some 5
  postings := fun _ => []
  keys := fun _ => none
  fp := fun _ => none
  cell := fun _ => none
  pairs := []
  clusters := []

/-- A new advert of one key. -/
def firstAdvert : ReadListing where
  guard := { listingId := 1 }
  digest := "f1"
  dd := "d1"
  census :=
    { block := "Brno", group := "byt", shape := "2+kk", brokerKey := none, sourceIdNative := none }
  isActive := true
  indexKeys := [("street", "Brno|Husova")]

theorem clockedStore_written : clockedStore.Written :=
  .fresh (fun _ => rfl) fun _ => rfl

/-- The store once an advert of the same street has been written. -/
def heldStore : MemoryStore Unit :=
  clockedStore.putListing 2
    { guard := { listingId := 2 }, digest := "f2", cell := ("Brno", "byt"), isActive := true,
      evidence := evidenceOf [], dd := "d2" }
    [("street", "Brno|Husova")]

theorem heldStore_written : heldStore.Written :=
  .put 2 _ clockedStore_written (List.nodup_singleton _)

theorem view_exact_held :
    ViewExact heldStore ∧ heldStore.lookupMany firstAdvert.indexKeys =
        [(("street", "Brno|Husova"), [2])] ∧
      (refreshed heldStore [⟨1, false, false⟩, ⟨2, true, false⟩] fun _ =>
          some firstAdvert).lookupMany firstAdvert.indexKeys =
        [(("street", "Brno|Husova"), [1])] :=
  ⟨view_exact heldStore_written, by decide +kernel, by decide +kernel⟩

/-- A pass over a new advert reads its row unstamped until the store has written it. -/
theorem first_row_stamped_late :
    clockedStore.Written ∧
    Issued clockedStore (passCalls clockedStore [⟨1, false, false⟩] fun _ => some firstAdvert) ∧
    ((refreshed clockedStore [⟨1, false, false⟩] fun _ => some firstAdvert).rows [1]).map
        (fun entry => entry.2.firstDecidedAt) = [none] ∧
    ((refreshed clockedStore [⟨1, false, false⟩] fun _ => some firstAdvert).apply.rows [1]).map
        (fun entry => entry.2.firstDecidedAt) = [some 5] := by
  refine ⟨clockedStore_written, passCalls_issued _ _ _, ?_, ?_⟩
  · decide +kernel
  · decide +kernel

end Sreality.Autodedup
