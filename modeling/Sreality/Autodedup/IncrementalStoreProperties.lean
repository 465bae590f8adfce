import Mathlib.Data.List.Nodup
import Sreality.Autodedup.IncrementalStore
import Sreality.Foundation.StableSort
import Sreality.Foundation.Tables

/-! What one write does to the lane's store in memory: its rows, its keys and its posting lists,
which stay ascending and stay the inverse of the keys. -/

set_option autoImplicit false

namespace Sreality.Autodedup

open Sreality.Foundation

/-! ### Ascending lists -/

section Ascending

/-- Two ascending lists of the same members are one list. -/
theorem ascending_ext {left right : List Nat} (leftUp : left.Pairwise (· < ·))
    (rightUp : right.Pairwise (· < ·)) (same : ∀ item, item ∈ left ↔ item ∈ right) :
    left = right := by
  have perm : left.Perm right :=
    (List.perm_ext_iff_of_nodup (leftUp.imp fun before => before.ne)
      (rightUp.imp fun before => before.ne)).mpr same
  exact perm.eq_of_pairwise (fun one other _ _ up down => absurd (up.trans down) (lt_irrefl one))
    leftUp rightUp

theorem pairwise_between {below above : List Nat} {item : Nat}
    (lower : below.Pairwise (· < ·)) (upper : above.Pairwise (· < ·))
    (under : ∀ other ∈ below, other < item) (beyond : ∀ other ∈ above, item < other) :
    (below ++ item :: above).Pairwise (· < ·) := by
  refine List.pairwise_append.mpr ⟨lower, List.pairwise_cons.mpr ⟨beyond, upper⟩, ?_⟩
  intro one oneHeld other otherHeld
  rcases List.mem_cons.mp otherHeld with rfl | later
  · exact under one oneHeld
  · exact (under one oneHeld).trans (beyond other later)

/-- Past its last small element an ascending list has only larger ones. -/
theorem mem_dropWhile_le {bucket : List Nat} {item other : Nat}
    (up : bucket.Pairwise (· < ·)) (absent : item ∉ bucket)
    (held : other ∈ bucket.dropWhile fun other => decide (other ≤ item)) : item < other := by
  induction bucket with
  | nil => cases held
  | cons head rest ih =>
      rw [List.dropWhile_cons] at held
      split_ifs at held with small
      · exact ih up.of_cons (fun inside => absent (List.mem_cons_of_mem _ inside)) held
      · have above : item < head := not_le.mp fun le => small (decide_eq_true le)
        rcases List.mem_cons.mp held with rfl | later
        · exact above
        · exact above.trans (List.rel_of_pairwise_cons up later)

theorem insort_ascending {bucket : List Nat} {item : Nat} (up : bucket.Pairwise (· < ·))
    (absent : item ∉ bucket) : (insort item bucket).Pairwise (· < ·) := by
  refine pairwise_between (up.sublist (List.takeWhile_sublist _))
    (up.sublist (List.dropWhile_sublist _)) ?_ fun other => mem_dropWhile_le up absent
  intro other held
  have le := List.mem_takeWhile_imp (p := fun other => decide (other ≤ item)) held
  have inside := (List.takeWhile_sublist _).subset held
  exact lt_of_le_of_ne (of_decide_eq_true le) fun same => absent (same ▸ inside)

theorem mem_insort {bucket : List Nat} {item other : Nat} :
    other ∈ insort item bucket ↔ other = item ∨ other ∈ bucket := by
  have parts : other ∈ bucket ↔ other ∈ bucket.takeWhile (fun other => decide (other ≤ item)) ∨
      other ∈ bucket.dropWhile fun other => decide (other ≤ item) := by
    rw [← List.mem_append, List.takeWhile_append_dropWhile]
  rw [insort, List.mem_append, List.mem_cons, parts]
  tauto

theorem mem_post {bucket : List Nat} {item other : Nat} :
    other ∈ MemoryStore.post item bucket ↔ other = item ∨ other ∈ bucket := by
  have parts : other ∈ bucket ↔ other ∈ bucket.rdropWhile (fun other => decide (item < other)) ∨
      other ∈ bucket.rtakeWhile fun other => decide (item < other) := by
    rw [← List.mem_append, List.rdropWhile_append_rtakeWhile]
  rw [MemoryStore.post, List.mem_append, List.mem_cons, parts]
  tauto

/-- Before its last large run an ascending list has only smaller elements. -/
theorem mem_rdropWhile_lt {bucket : List Nat} {item other : Nat}
    (up : bucket.Pairwise (· < ·)) (absent : item ∉ bucket)
    (held : other ∈ bucket.rdropWhile fun other => decide (item < other)) : other < item := by
  induction bucket using List.reverseRecOn with
  | nil => cases held
  | append_singleton rest last ih =>
      obtain ⟨restUp, -, before⟩ := List.pairwise_append.mp up
      rw [List.rdropWhile_concat] at held
      split_ifs at held with large
      · exact ih restUp (fun inside => absent (List.mem_append_left _ inside)) held
      · have below : last < item := by
          refine lt_of_le_of_ne (not_lt.mp fun lt => large (decide_eq_true lt)) ?_
          rintro rfl
          exact absent (List.mem_append_right _ (List.mem_singleton_self _))
        rcases List.mem_append.mp held with earlier | final
        · exact (before other earlier last (List.mem_singleton_self _)).trans below
        · rw [List.mem_singleton.mp final]
          exact below

theorem post_ascending {bucket : List Nat} {item : Nat} (up : bucket.Pairwise (· < ·))
    (absent : item ∉ bucket) : (MemoryStore.post item bucket).Pairwise (· < ·) := by
  refine pairwise_between (up.sublist (List.rdropWhile_prefix _ bucket).sublist)
    (up.sublist (List.rtakeWhile_suffix _ bucket).sublist)
    (fun other => mem_rdropWhile_lt up absent) ?_
  intro other held
  have after := List.mem_rtakeWhile_imp (p := fun other => decide (item < other)) held
  exact of_decide_eq_true after

end Ascending

/-- Distinct keys of a table, each changed once. -/
theorem foldl_update {Key Value : Type} [DecidableEq Key] (change : Value → Value)
    {keys : List Key} (distinct : keys.Nodup) (table : Key → Value) (key : Key) :
    (keys.foldl (fun table key => Function.update table key (change (table key))) table) key =
      if key ∈ keys then change (table key) else table key := by
  induction keys generalizing table with
  | nil => rfl
  | cons head rest ih =>
      obtain ⟨fresh, restDistinct⟩ := List.nodup_cons.mp distinct
      rw [List.foldl_cons, ih restDistinct]
      by_cases same : key = head
      · subst same
        rw [if_neg fresh, Function.update_self, if_pos List.mem_cons_self]
      · rw [Function.update_of_ne same]
        simp only [List.mem_cons, same, false_or]

/-! ### The store's own writes -/

namespace MemoryStore

variable {Detail : Type} {store : MemoryStore Detail}

/-- A listing is posted under its keys and no others, and a posting list ascends. -/
structure WellFormed (store : MemoryStore Detail) : Prop where
  ascending : ∀ key, (store.postings key).Pairwise (· < ·)
  posted : ∀ key listing, listing ∈ store.postings key ↔ key ∈ store.keysOf listing
  distinct : ∀ listing, (store.keysOf listing).Nodup

@[simp] theorem dropKeys_fp (listing : Nat) : (store.dropKeys listing).fp = store.fp := rfl

theorem dropKeys_keysOf (listing other : Nat) :
    (store.dropKeys listing).keysOf other = if other = listing then [] else store.keysOf other := by
  by_cases same : other = listing
  · subst same
    rw [if_pos rfl, keysOf, dropKeys]
    dsimp only
    rw [Function.update_self]
    rfl
  · rw [if_neg same, keysOf, dropKeys]
    dsimp only
    rw [Function.update_of_ne same]
    rfl

namespace WellFormed

theorem dropKeys_postings (formed : store.WellFormed) (listing : Nat) (key : PostKey) :
    (store.dropKeys listing).postings key = (store.postings key).erase listing := by
  have folded := foldl_update (fun bucket : List Nat => bucket.erase listing)
    (formed.distinct listing) store.postings key
  rw [MemoryStore.dropKeys]
  dsimp only
  rw [folded]
  split_ifs with posted
  · rfl
  · exact (List.erase_of_not_mem fun held => posted ((formed.posted key listing).mp held)).symm

theorem mem_dropKeys_postings (formed : store.WellFormed) (listing other : Nat) (key : PostKey) :
    other ∈ (store.dropKeys listing).postings key ↔
      other ≠ listing ∧ other ∈ store.postings key := by
  rw [formed.dropKeys_postings,
    List.Nodup.mem_erase_iff ((formed.ascending key).imp fun before => before.ne)]

theorem dropKeys (formed : store.WellFormed) (listing : Nat) :
    (store.dropKeys listing).WellFormed where
  ascending key := by
    rw [formed.dropKeys_postings]
    exact (formed.ascending key).sublist List.erase_sublist
  posted key other := by
    rw [formed.mem_dropKeys_postings, dropKeys_keysOf]
    by_cases same : other = listing
    · simp [same]
    · rw [if_neg same, formed.posted key other]
      simp [same]
  distinct other := by
    rw [dropKeys_keysOf]
    split_ifs
    · exact List.nodup_nil
    · exact formed.distinct other

end WellFormed

theorem putListing_fp (listing : Nat) (row : FpRow) (keys : List PostKey) (other : Nat) :
    (store.putListing listing row keys).fp other =
      if other = listing then some { row with firstDecidedAt := store.stamp listing row }
      else store.fp other := by
  rw [putListing]
  dsimp only
  rw [Function.update_apply, dropKeys_fp]

theorem putListing_keysOf (listing : Nat) (row : FpRow) (keys : List PostKey) (other : Nat) :
    (store.putListing listing row keys).keysOf other =
      if other = listing then keys else store.keysOf other := by
  have dropped := @dropKeys_keysOf Detail store listing other
  rw [keysOf] at dropped
  rw [keysOf, putListing]
  dsimp only
  rw [Function.update_apply]
  split_ifs with same
  · rfl
  · rw [dropped, if_neg same]

theorem dropListing_fp (listing other : Nat) :
    (store.dropListing listing).fp other = if other = listing then none else store.fp other := by
  rw [dropListing]
  dsimp only
  rw [Function.update_apply, dropKeys_fp]

theorem dropListing_keysOf (listing other : Nat) :
    (store.dropListing listing).keysOf other =
      if other = listing then [] else store.keysOf other :=
  dropKeys_keysOf listing other

namespace WellFormed

theorem putListing (formed : store.WellFormed) (listing : Nat) (row : FpRow) {keys : List PostKey}
    (distinct : keys.Nodup) : (store.putListing listing row keys).WellFormed := by
  have dropped := formed.dropKeys listing
  have absent : ∀ key, listing ∉ (store.dropKeys listing).postings key := fun key held =>
    ((formed.mem_dropKeys_postings listing listing key).mp held).1 rfl
  have postings : ∀ key, (store.putListing listing row keys).postings key =
      if key ∈ keys then post listing ((store.dropKeys listing).postings key)
      else (store.dropKeys listing).postings key := by
    intro key
    refine (foldl_update (post listing) distinct (store.dropKeys listing).postings key).trans ?_
    split_ifs
    · rfl
    · rfl
  refine ⟨fun key => ?_, fun key other => ?_, fun other => ?_⟩
  · rw [postings]
    split_ifs
    · exact post_ascending (dropped.ascending key) (absent key)
    · exact dropped.ascending key
  · rw [postings, putListing_keysOf]
    by_cases same : other = listing
    · subst same
      rw [if_pos rfl]
      split_ifs with posted
      · exact iff_of_true (mem_post.mpr (Or.inl rfl)) posted
      · exact iff_of_false (absent key) posted
    · rw [if_neg same]
      have kept : other ∈ (store.dropKeys listing).postings key ↔ key ∈ store.keysOf other := by
        rw [formed.mem_dropKeys_postings, formed.posted]
        exact and_iff_right same
      split_ifs
      · rw [mem_post, kept]
        exact or_iff_right same
      · exact kept
  · rw [putListing_keysOf]
    split_ifs
    · exact distinct
    · exact formed.distinct other

theorem dropListing (formed : store.WellFormed) (listing : Nat) :
    (store.dropListing listing).WellFormed where
  ascending := (formed.dropKeys listing).ascending
  posted := (formed.dropKeys listing).posted
  distinct := (formed.dropKeys listing).distinct

end WellFormed

/-- A store some run of the lane has written: fresh, then puts and drops, with any other write
between them. -/
inductive Written : MemoryStore Detail → Prop where
  | fresh {store : MemoryStore Detail} (postings : ∀ key, store.postings key = [])
      (keys : ∀ listing, store.keys listing = none) : Written store
  | put {store : MemoryStore Detail} (listing : Nat) (row : FpRow) {keys : List PostKey}
      (written : Written store) (distinct : keys.Nodup) :
      Written (store.putListing listing row keys)
  | drop {store : MemoryStore Detail} (listing : Nat) (written : Written store) :
      Written (store.dropListing listing)
  | elsewhere {store after : MemoryStore Detail} (written : Written store)
      (postings : after.postings = store.postings) (keys : after.keys = store.keys) : Written after

theorem Written.wellFormed (written : Written store) : store.WellFormed := by
  induction written with
  | @fresh store postings keys =>
      have none : ∀ listing, store.keysOf listing = [] := fun listing => by
        rw [keysOf, keys]
        rfl
      refine ⟨fun key => ?_, fun key listing => ?_, fun listing => ?_⟩
      · rw [postings]
        exact List.Pairwise.nil
      · rw [postings, none]
        exact iff_of_false List.not_mem_nil List.not_mem_nil
      · rw [none]
        exact List.nodup_nil
  | put listing row _ distinct formed => exact formed.putListing listing row distinct
  | drop listing _ formed => exact formed.dropListing listing
  | @elsewhere store after _ postings keys formed =>
      have same : ∀ listing, after.keysOf listing = store.keysOf listing := fun listing => by
        rw [keysOf, keysOf, keys]
      refine ⟨fun key => ?_, fun key listing => ?_, fun listing => ?_⟩
      · rw [postings]
        exact formed.ascending key
      · rw [postings, same]
        exact formed.posted key listing
      · rw [same]
        exact formed.distinct listing

/-! ### Counts -/

theorem nListings_bumpCell (listing : CensusListing) (cell : CellKey) :
    (store.bumpCell listing).nListings cell =
      if cell = listing.cell then store.nListings cell + 1 else store.nListings cell := by
  rw [nListings, nListings, bumpCell]
  dsimp only
  rw [Function.update_apply]
  split_ifs with same
  · rw [same]
    cases store.cell listing.cell with
    | none => rfl
    | some row => rfl
  · rfl

theorem nListings_unbumpCell (other cell : CellKey) :
    (store.unbumpCell other).nListings cell =
      if cell = other then store.nListings cell - 1 else store.nListings cell := by
  rw [nListings, nListings, unbumpCell]
  dsimp only
  rw [Function.update_apply]
  split_ifs with same
  · rw [same]
    cases store.cell other with
    | none => rfl
    | some row => rfl
  · rfl

end MemoryStore

end Sreality.Autodedup
