import Mathlib.Data.List.Count
import Mathlib.Data.List.Perm.Basic
import Sreality.Foundation.Tables

/-! Dictionaries as the rows of their keys in insertion order, and the counts kept in them. A count
is read off the list it counts: what order the list had, in how many pieces it came and what was
done to its keys in between is then arithmetic of `List.count`. -/

set_option autoImplicit false

namespace Sreality.Foundation

variable {Key Value Other : Type} [DecidableEq Key] [DecidableEq Other]

/-- A dictionary, in insertion order. -/
abbrev Dict (Key Value : Type) : Type := List (Key × Value)

namespace Dict

/-- `d[key] = change(d.get(key))`: in its place where the key is held, at the end where it is
not. -/
def update (dict : Dict Key Value) (key : Key) (change : Option Value → Value) : Dict Key Value :=
  if key ∈ dict.map Prod.fst then
    dict.map fun row => if row.1 = key then (key, change (some row.2)) else row
  else dict ++ [(key, change none)]

theorem map_fst_update (dict : Dict Key Value) (key : Key) (change : Option Value → Value) :
    (dict.update key change).map Prod.fst =
      if key ∈ dict.map Prod.fst then dict.map Prod.fst else dict.map Prod.fst ++ [key] := by
  rw [update]
  split_ifs with held
  · rw [List.map_map]
    apply List.map_congr_left
    intro row _
    dsimp only [Function.comp]
    split_ifs with same
    · exact same.symm
    · rfl
  · rw [List.map_append, List.map_singleton]

theorem keyed_update {dict : Dict Key Value} (keyed : Keyed Prod.fst dict) (key : Key)
    (change : Option Value → Value) : Keyed Prod.fst (dict.update key change) := by
  rw [Keyed, map_fst_update]
  split_ifs with held
  · exact keyed
  · exact List.Nodup.append keyed (List.nodup_singleton _) fun other inside last =>
      held (List.mem_singleton.mp last ▸ inside)

theorem length_update_le (dict : Dict Key Value) (key : Key) (change : Option Value → Value) :
    (dict.update key change).length ≤ dict.length + 1 := by
  rw [update]
  split_ifs
  · rw [List.length_map]
    exact Nat.le_succ _
  · rw [List.length_append]
    exact Nat.le_refl _

theorem length_update {dict : Dict Key Value} {key : Key} {value : Value}
    (found : dict.lookup key = some value) (change : Option Value → Value) :
    (dict.update key change).length = dict.length := by
  rw [update, if_pos (List.mem_map_of_mem (mem_of_lookup found)), List.length_map]

theorem lookup_map_change (dict : Dict Key Value) (key other : Key) (change : Value → Value) :
    (dict.map fun row => if row.1 = key then (key, change row.2) else row).lookup other =
      if other = key then (dict.lookup key).map change else dict.lookup other := by
  induction dict with
  | nil => exact (ite_self none).symm
  | cons row rest ih =>
      rw [List.map_cons]
      by_cases here : row.1 = key
      · rw [if_pos here, List.lookup_cons, ih, List.lookup_cons, List.lookup_cons, here]
        by_cases same : other = key
        · subst same
          simp
        · simp [beq_false_of_ne same, same]
      · rw [if_neg here, List.lookup_cons, ih, List.lookup_cons, List.lookup_cons]
        by_cases same : other = key
        · subst same
          simp [beq_false_of_ne (Ne.symm here)]
        · simp [same]

theorem lookup_update (dict : Dict Key Value) (key other : Key)
    (change : Option Value → Value) :
    (dict.update key change).lookup other =
      if other = key then some (change (dict.lookup key)) else dict.lookup other := by
  rw [update]
  by_cases held : key ∈ dict.map Prod.fst
  · obtain ⟨value, found⟩ : ∃ value, dict.lookup key = some value :=
      Option.ne_none_iff_exists'.mp fun none => lookup_eq_none_iff_key.mp none held
    rw [if_pos held, lookup_map_change dict key other fun value => change (some value), found]
    rfl
  · have absent : dict.lookup key = none := lookup_eq_none_iff_key.mpr held
    rw [if_neg held, List.lookup_append]
    by_cases same : other = key
    · subst same
      rw [if_pos rfl, absent, Option.none_or, List.lookup_cons, beq_self_eq_true]
    · rw [if_neg same, List.lookup_cons, beq_false_of_ne same]
      exact Option.or_none

theorem lookup_filter_ne (dict : Dict Key Value) (key other : Key) :
    (dict.filter fun row => decide (row.1 ≠ key)).lookup other =
      if other = key then none else dict.lookup other := by
  induction dict with
  | nil => exact (ite_self none).symm
  | cons row rest ih =>
      by_cases here : row.1 = key
      · rw [List.filter_cons_of_neg (by simp [here]), ih, List.lookup_cons, here]
        by_cases same : other = key
        · rw [if_pos same, if_pos same]
        · rw [if_neg same, if_neg same, beq_false_of_ne same]
      · rw [List.filter_cons_of_pos (by simp [here]), List.lookup_cons, ih, List.lookup_cons]
        by_cases same : other = key
        · subst same
          simp [beq_false_of_ne (Ne.symm here)]
        · simp [same]

theorem lookup_map {Result : Type} (dict : Dict Key Value) (change : Key → Value → Result)
    (key : Key) : (dict.map fun row => (row.1, change row.1 row.2)).lookup key =
      (dict.lookup key).map (change key) := by
  induction dict with
  | nil => rfl
  | cons row rest ih =>
      rw [List.map_cons, List.lookup_cons, List.lookup_cons, ih]
      by_cases here : key = row.1
      · subst here
        simp
      · simp [beq_false_of_ne here]

/-- The row of a held key apart from the others. -/
theorem exists_split {dict : Dict Key Value} (keyed : Keyed Prod.fst dict) {key : Key}
    {value : Value} (found : dict.lookup key = some value) :
    ∃ before after, dict = before ++ (key, value) :: after ∧
      (∀ change, dict.update key change = before ++ (key, change (some value)) :: after) ∧
        (dict.filter fun row => decide (row.1 ≠ key)) = before ++ after := by
  obtain ⟨before, after, rfl⟩ := List.append_of_mem (mem_of_lookup found)
  have keys : (key :: (before.map Prod.fst ++ after.map Prod.fst)).Nodup := by
    have nodup : ((before ++ (key, value) :: after).map Prod.fst).Nodup := keyed
    rw [List.map_append, List.map_cons] at nodup
    exact List.nodup_middle.mp nodup
  have apart : ∀ row, row ∈ before ∨ row ∈ after → row.1 ≠ key := by
    intro row listed same
    refine (List.nodup_cons.mp keys).1 (same ▸ ?_)
    obtain early | late := listed
    · exact List.mem_append_left _ (List.mem_map_of_mem early)
    · exact List.mem_append_right _ (List.mem_map_of_mem late)
  refine ⟨before, after, rfl, fun change => ?_, ?_⟩
  · have held : key ∈ (before ++ (key, value) :: after).map Prod.fst :=
      List.mem_map_of_mem (mem_of_lookup found)
    have unchanged : ∀ rows : Dict Key Value, (∀ row ∈ rows, row.1 ≠ key) →
        rows.map (fun row => if row.1 = key then (key, change (some row.2)) else row) = rows := by
      intro rows differ
      refine (List.map_congr_left fun row listed => ?_).trans (List.map_id rows)
      exact if_neg (differ row listed)
    rw [update, if_pos held, List.map_append, List.map_cons, if_pos rfl,
      unchanged before fun row listed => apart row (.inl listed),
      unchanged after fun row listed => apart row (.inr listed)]
  · have kept : ∀ rows : Dict Key Value, (∀ row ∈ rows, row.1 ≠ key) →
        rows.filter (fun row => decide (row.1 ≠ key)) = rows :=
      fun rows differ => List.filter_eq_self.mpr fun row listed => decide_eq_true (differ row listed)
    rw [List.filter_append, List.filter_cons_of_neg (by simp),
      kept before fun row listed => apart row (.inl listed),
      kept after fun row listed => apart row (.inr listed)]

/-- Two dictionaries that answer alike hold the same rows. -/
theorem perm_of_lookup_eq {left right : Dict Key Value} (leftKeyed : Keyed Prod.fst left)
    (rightKeyed : Keyed Prod.fst right) (same : ∀ key, left.lookup key = right.lookup key) :
    left.Perm right := by
  refine (List.perm_ext_iff_of_nodup leftKeyed.nodup rightKeyed.nodup).mpr fun row => ?_
  rw [← leftKeyed.lookup, ← rightKeyed.lookup, same]

/-- `d[key] = d.get(key, 0) + n`. -/
def bump (dict : Dict Key Nat) (key : Key) (n : Nat) : Dict Key Nat :=
  dict.update key fun count => count.getD 0 + n

/-- Each of some keys counted once more. -/
def bumpAll (dict : Dict Key Nat) (keys : List Key) : Dict Key Nat :=
  keys.foldl (fun dict key => dict.bump key 1) dict

/-- The counts of one dictionary added to another, under other keys. -/
def addUnder (rename : Other → Key) (into : Dict Key Nat) (counts : Dict Other Nat) :
    Dict Key Nat :=
  counts.foldl (fun into row => into.bump (rename row.1) row.2) into

/-- The counts of one dictionary added to another. -/
def add (into counts : Dict Key Nat) : Dict Key Nat := addUnder id into counts

/-! ### What is counted -/

/-- A dictionary that counts a list: each key of it, and how often it is there. -/
structure Counts (dict : Dict Key Nat) (keys : List Key) : Prop where
  keyed : Keyed Prod.fst dict
  lookup : ∀ key, dict.lookup key = if key ∈ keys then some (keys.count key) else none

namespace Counts

variable {dict counts : Dict Key Nat} {keys more : List Key}

theorem nil : Counts ([] : Dict Key Nat) [] := ⟨Keyed.nil, fun _ => rfl⟩

theorem of_perm (counted : Counts dict keys) (same : keys.Perm more) : Counts dict more where
  keyed := counted.keyed
  lookup key := by
    rw [counted.lookup, same.count_eq]
    exact if_congr same.mem_iff rfl rfl

/-- A key counted `n` more times. -/
theorem bump (counted : Counts dict keys) (key : Key) {n : Nat} (some_ : 0 < n) :
    Counts (dict.bump key n) (List.replicate n key ++ keys) where
  keyed := keyed_update counted.keyed key _
  lookup other := by
    rw [Dict.bump, lookup_update, counted.lookup, counted.lookup]
    have atKey : ((if key ∈ keys then some (keys.count key) else none : Option Nat).getD 0) =
        keys.count key := by
      split_ifs with held
      · rfl
      · exact (List.count_eq_zero.mpr held).symm
    rw [atKey]
    by_cases same : other = key
    · subst same
      have inside : other ∈ List.replicate n other ++ keys :=
        List.mem_append_left _ (List.mem_replicate.mpr ⟨Nat.ne_of_gt some_, rfl⟩)
      rw [if_pos rfl, if_pos inside, List.count_append, List.count_replicate_self, Nat.add_comm]
    · have outside : other ∉ List.replicate n key := fun held =>
        same (List.eq_of_mem_replicate held)
      rw [if_neg same, List.count_append, List.count_eq_zero.mpr outside, Nat.zero_add]
      exact if_congr (by simp [outside]) rfl rfl

theorem bumpAll (counted : Counts dict keys) (more : List Key) :
    Counts (dict.bumpAll more) (more ++ keys) := by
  induction more generalizing dict keys with
  | nil => exact counted
  | cons head rest ih =>
      refine (ih (counted.bump head Nat.one_pos)).of_perm ?_
      exact List.perm_middle

theorem lookup_eq (counted : Counts dict keys) (other : Counts counts more)
    (same : keys.Perm more) (key : Key) : dict.lookup key = counts.lookup key := by
  rw [(counted.of_perm same).lookup, other.lookup]

theorem row_count (counted : Counts dict keys) {row : Key × Nat} (held : row ∈ dict) :
    row.1 ∈ keys ∧ keys.count row.1 = row.2 := by
  have found := counted.keyed.lookup.mpr held
  rw [counted.lookup] at found
  split_ifs at found with inside
  exact ⟨inside, Option.some.inj found⟩

theorem key_mem (counted : Counts dict keys) {row : Key × Nat} (held : row ∈ dict) :
    row.1 ∈ keys := (counted.row_count held).1

theorem pos_of_mem (counted : Counts dict keys) {row : Key × Nat} (held : row ∈ dict) :
    0 < row.2 := by
  rw [← (counted.row_count held).2]
  exact List.count_pos_iff.mpr (counted.key_mem held)

end Counts

/-- The keys a dictionary counts, each as often as it does. -/
def spelled (dict : Dict Key Nat) : List Key := dict.flatMap fun row => List.replicate row.2 row.1

omit [DecidableEq Key] in
theorem spelled_cons (row : Key × Nat) (rest : Dict Key Nat) :
    spelled (row :: rest) = List.replicate row.2 row.1 ++ rest.spelled := List.flatMap_cons

theorem count_spelled {dict : Dict Key Nat} (keyed : Keyed Prod.fst dict) (key : Key) :
    dict.spelled.count key = (dict.lookup key).getD 0 := by
  induction dict with
  | nil => rfl
  | cons row rest ih =>
      obtain ⟨fresh, restKeyed⟩ := List.nodup_cons.mp keyed
      rw [spelled_cons, List.count_append, List.lookup_cons, ih restKeyed]
      by_cases here : key = row.1
      · subst here
        have absent : rest.lookup row.1 = none := lookup_eq_none_iff_key.mpr fresh
        rw [absent, List.count_replicate_self, beq_self_eq_true]
        rfl
      · have outside : key ∉ List.replicate row.2 row.1 := fun held =>
          here (List.eq_of_mem_replicate held)
        rw [List.count_eq_zero.mpr outside, Nat.zero_add, beq_false_of_ne here]

namespace Counts

variable {dict : Dict Key Nat} {keys : List Key} {counts : Dict Other Nat} {others : List Other}

theorem spelled_perm (counted : Counts dict keys) : dict.spelled.Perm keys := by
  refine List.perm_iff_count.mpr fun key => ?_
  rw [count_spelled counted.keyed, counted.lookup]
  split_ifs with held
  · rfl
  · exact (List.count_eq_zero.mpr held).symm

/-- Counts under distinct new names. -/
theorem map_keys (counted : Counts dict keys) {rename : Key → Other}
    (distinct : ∀ one ∈ keys, ∀ other ∈ keys, rename one = rename other → one = other) :
    Counts (dict.map fun row => (rename row.1, row.2)) (keys.map rename) := by
  have keyed : Keyed Prod.fst (dict.map fun row => (rename row.1, row.2)) := by
    rw [Keyed, List.map_map]
    refine List.Nodup.map_on ?_ counted.keyed.nodup
    intro one oneHeld other otherHeld same
    exact counted.keyed.eq oneHeld otherHeld
      (distinct one.1 (counted.key_mem oneHeld) other.1 (counted.key_mem otherHeld) same)
  refine ⟨keyed, fun name => ?_⟩
  split_ifs with named
  · obtain ⟨key, held, rfl⟩ := List.mem_map.mp named
    have count : (keys.map rename).count (rename key) = keys.count key := by
      rw [List.count_eq_countP, List.countP_map, List.count_eq_countP]
      apply List.countP_congr
      intro other otherHeld
      simp only [Function.comp, beq_iff_eq]
      exact ⟨distinct other otherHeld key held, fun same => same ▸ rfl⟩
    rw [count]
    refine keyed.lookup.mpr (List.mem_map.mpr ⟨(key, keys.count key), ?_, rfl⟩)
    rw [← counted.keyed.lookup, counted.lookup, if_pos held]
  · refine lookup_eq_none_iff_key.mpr fun held => named ?_
    obtain ⟨row, rowHeld, rfl⟩ := List.mem_map.mp held
    obtain ⟨old, oldHeld, rfl⟩ := List.mem_map.mp rowHeld
    exact List.mem_map_of_mem (counted.key_mem oldHeld)

/-- Counts renamed and added to others count what both counted. -/
theorem addUnder (counted : Counts dict keys) (rename : Other → Key)
    (added : Counts counts others) :
    Counts (dict.addUnder rename counts) (others.map rename ++ keys) := by
  have spelt : ∀ (rows : Dict Other Nat), (∀ row ∈ rows, 0 < row.2) →
      ∀ {into : Dict Key Nat} {held : List Key}, Counts into held →
        Counts (into.addUnder rename rows) (rows.spelled.map rename ++ held) := by
    intro rows
    induction rows with
    | nil => exact fun _ _ _ into => into
    | cons row rest ih =>
        intro positive into held intoCounted
        have first := intoCounted.bump (rename row.1) (positive row List.mem_cons_self)
        refine (ih (fun other later => positive other (List.mem_cons_of_mem _ later))
          first).of_perm ?_
        rw [spelled_cons, List.map_append, List.map_replicate, ← List.append_assoc]
        exact (List.perm_append_comm).append_right held
  refine (spelt counts (fun row held => added.pos_of_mem held) counted).of_perm ?_
  exact (added.spelled_perm.map rename).append_right keys

theorem add (counted : Counts dict keys) {counts : Dict Key Nat} {others : List Key}
    (added : Counts counts others) : Counts (dict.add counts) (others ++ keys) := by
  have both := counted.addUnder id added
  rwa [List.map_id] at both

end Counts

/-! ### Lists kept under keys -/

/-- The value of each key, changed. -/
def mapValues {Result : Type} (change : Value → Result) (dict : Dict Key Value) :
    Dict Key Result :=
  dict.map fun row => (row.1, change row.2)

theorem lookup_mapValues {Result : Type} (change : Value → Result) (dict : Dict Key Value)
    (key : Key) : (dict.mapValues change).lookup key = (dict.lookup key).map change := by
  induction dict with
  | nil => rfl
  | cons row rest ih =>
      rw [mapValues, List.map_cons, List.lookup_cons, List.lookup_cons]
      cases key == row.1 with
      | true => rfl
      | false => exact ih

/-- `d.setdefault(key, []).append(item)`. -/
def push {Item : Type} (dict : Dict Key (List Item)) (key : Key) (item : Item) :
    Dict Key (List Item) :=
  dict.update key fun items => items.getD [] ++ [item]

/-- The lengths of the lists kept are the counts of their keys. -/
theorem lengths_push {Item : Type} (dict : Dict Key (List Item)) (key : Key) (item : Item) :
    (dict.push key item).mapValues List.length = (dict.mapValues List.length).bump key 1 := by
  have keys : (dict.mapValues List.length).map Prod.fst = dict.map Prod.fst := by
    rw [mapValues, List.map_map]
    rfl
  rw [push, bump, update, update, keys]
  split_ifs with held
  · rw [mapValues, mapValues, List.map_map, List.map_map]
    apply List.map_congr_left
    intro row _
    dsimp only [Function.comp]
    split_ifs
    · simp
    · rfl
  · simp [mapValues]

/-! ### Counts kept under keys -/

/-- What a dictionary answers, whatever the order of its rows. -/
def answers (dict : Dict Key Value) : Key → Option Value := fun key => dict.lookup key

/-- What a dictionary of dictionaries answers. -/
def answersWithin (dict : Dict Key (Dict Other Value)) : Key → Option (Other → Option Value) :=
  fun key => (dict.lookup key).map answers

/-- Some items counted once more under a key, which is held from then on. -/
def bumpWithin (dict : Dict Key (Dict Other Nat)) (key : Key) (items : List Other) :
    Dict Key (Dict Other Nat) :=
  dict.update key fun inner => bumpAll (inner.getD []) items

/-- The counts under each key of one dictionary added to another's. -/
def addWithin (into counts : Dict Key (Dict Other Nat)) : Dict Key (Dict Other Nat) :=
  counts.foldl (fun into row => into.update row.1 fun inner => add (inner.getD []) row.2) into

/-- The items some documents have under a key. -/
def itemsUnder (docs : List (Key × List Other)) (key : Key) : List Other :=
  (docs.filter fun doc => decide (doc.1 = key)).flatMap Prod.snd

/-- A dictionary that counts, under the key of each document, the items of all the documents of
that key. -/
structure CountsWithin (dict : Dict Key (Dict Other Nat)) (docs : List (Key × List Other)) :
    Prop where
  keyed : Keyed Prod.fst dict
  absent : ∀ key, key ∉ docs.map Prod.fst → dict.lookup key = none
  held : ∀ key, key ∈ docs.map Prod.fst →
    ∃ inner, dict.lookup key = some inner ∧ Counts inner (itemsUnder docs key)

namespace CountsWithin

variable {dict counts : Dict Key (Dict Other Nat)} {docs more : List (Key × List Other)}

theorem nil : CountsWithin ([] : Dict Key (Dict Other Nat)) [] :=
  ⟨Keyed.nil, fun _ _ => rfl, fun _ held => absurd held List.not_mem_nil⟩

/-- The counts under a key, none when it is not held. -/
theorem inner (counted : CountsWithin dict docs) (key : Key) :
    Counts ((dict.lookup key).getD []) (itemsUnder docs key) := by
  by_cases inside : key ∈ docs.map Prod.fst
  · obtain ⟨inner, found, innerCounted⟩ := counted.held key inside
    rw [found]
    exact innerCounted
  · have none : itemsUnder docs key = [] := by
      rw [itemsUnder, List.filter_eq_nil_iff.mpr, List.flatMap_nil]
      intro doc held same
      exact inside (List.mem_map.mpr ⟨doc, held, of_decide_eq_true same⟩)
    rw [counted.absent key inside, none]
    exact Counts.nil

theorem of_perm (counted : CountsWithin dict docs) (same : docs.Perm more) :
    CountsWithin dict more where
  keyed := counted.keyed
  absent key outside := counted.absent key fun inside =>
    outside ((same.map Prod.fst).mem_iff.mp inside)
  held key inside := by
    obtain ⟨inner, found, innerCounted⟩ :=
      counted.held key ((same.map Prod.fst).mem_iff.mpr inside)
    exact ⟨inner, found, innerCounted.of_perm ((same.filter _).flatMap_right _)⟩

theorem bumpWithin (counted : CountsWithin dict docs) (key : Key) (items : List Other) :
    CountsWithin (dict.bumpWithin key items) ((key, items) :: docs) where
  keyed := keyed_update counted.keyed key _
  absent other outside := by
    rw [List.map_cons, List.mem_cons, not_or] at outside
    rw [Dict.bumpWithin, lookup_update, if_neg outside.1]
    exact counted.absent other outside.2
  held other inside := by
    rw [Dict.bumpWithin, lookup_update]
    by_cases same : other = key
    · subst same
      refine ⟨_, if_pos rfl, ?_⟩
      have here : itemsUnder ((other, items) :: docs) other = items ++ itemsUnder docs other := by
        simp [itemsUnder]
      rw [here]
      exact (counted.inner other).bumpAll items
    · have elsewhere : itemsUnder ((key, items) :: docs) other = itemsUnder docs other := by
        simp [itemsUnder, Ne.symm same]
      rw [if_neg same, elsewhere]
      exact counted.held other ((List.mem_cons.mp inside).resolve_left same)

/-- Every key of a dictionary updated in another. -/
theorem lookup_foldl_update {Value Result : Type} (change : Value → Option Result → Result)
    {rows : Dict Key Value} (keyed : Keyed Prod.fst rows) (into : Dict Key Result) (key : Key) :
    (rows.foldl (fun into row => update into row.1 (change row.2)) into).lookup key =
      match rows.lookup key with
      | some value => some (change value (into.lookup key))
      | none => into.lookup key := by
  induction rows generalizing into with
  | nil => rfl
  | cons row rest ih =>
      obtain ⟨fresh, restKeyed⟩ := List.nodup_cons.mp keyed
      rw [List.foldl_cons, ih restKeyed, lookup_update, List.lookup_cons]
      by_cases here : key = row.1
      · subst here
        have absent : rest.lookup row.1 = none := lookup_eq_none_iff_key.mpr fresh
        rw [absent, if_pos rfl, beq_self_eq_true]
      · rw [if_neg here, beq_false_of_ne here]

theorem keyed_foldl_update {Value Result : Type} (change : Value → Option Result → Result)
    (rows : Dict Key Value) {into : Dict Key Result} (keyed : Keyed Prod.fst into) :
    Keyed Prod.fst (rows.foldl (fun into row => update into row.1 (change row.2)) into) := by
  induction rows generalizing into with
  | nil => exact keyed
  | cons row rest ih => exact ih (keyed_update keyed row.1 _)

theorem addWithin (counted : CountsWithin dict docs) (added : CountsWithin counts more) :
    CountsWithin (dict.addWithin counts) (more ++ docs) := by
  have items : ∀ key, itemsUnder (more ++ docs) key = itemsUnder more key ++ itemsUnder docs key :=
    fun key => by rw [itemsUnder, List.filter_append, List.flatMap_append]; rfl
  have found := lookup_foldl_update
    (fun (value : Dict Other Nat) (inner : Option (Dict Other Nat)) => add (inner.getD []) value)
    added.keyed dict
  have keyed := keyed_foldl_update
    (fun (value : Dict Other Nat) (inner : Option (Dict Other Nat)) => add (inner.getD []) value)
    counts counted.keyed
  refine ⟨keyed, fun key outside => ?_, fun key inside => ?_⟩
  · rw [List.map_append, List.mem_append, not_or] at outside
    refine (found key).trans ?_
    rw [added.absent key outside.1]
    exact counted.absent key outside.2
  · rw [items]
    by_cases there : key ∈ more.map Prod.fst
    · obtain ⟨inner, innerFound, innerCounted⟩ := added.held key there
      refine ⟨add ((dict.lookup key).getD []) inner, ?_, (counted.inner key).add innerCounted⟩
      refine (found key).trans ?_
      rw [innerFound]
    · rw [List.map_append, List.mem_append] at inside
      obtain ⟨inner, innerFound, innerCounted⟩ := counted.held key (inside.resolve_left there)
      refine ⟨inner, ?_, ?_⟩
      · refine (found key).trans ?_
        rw [added.absent key there]
        exact innerFound
      · have none : itemsUnder more key = [] := by
          rw [itemsUnder, List.filter_eq_nil_iff.mpr, List.flatMap_nil]
          intro doc held same
          exact there (List.mem_map.mpr ⟨doc, held, of_decide_eq_true same⟩)
        rw [none]
        exact innerCounted

/-- Two dictionaries that count the same documents answer alike, whatever is made of the counts
under each key. -/
theorem answersWithin_mapValues_eq {Name : Type} [DecidableEq Name]
    (change : Dict Other Nat → Dict Name Nat) (counted : CountsWithin dict docs)
    (other : CountsWithin counts more) (same : docs.Perm more)
    (agree : ∀ key inner inner', Counts inner (itemsUnder more key) →
      Counts inner' (itemsUnder more key) → (change inner).answers = (change inner').answers) :
    (dict.mapValues change).answersWithin = (counts.mapValues change).answersWithin := by
  funext key
  rw [answersWithin, answersWithin, lookup_mapValues, lookup_mapValues]
  have left := counted.of_perm same
  by_cases inside : key ∈ more.map Prod.fst
  · obtain ⟨inner, found, innerCounted⟩ := left.held key inside
    obtain ⟨inner', found', innerCounted'⟩ := other.held key inside
    rw [found, found']
    exact congrArg some (agree key inner inner' innerCounted innerCounted')
  · rw [left.absent key inside, other.absent key inside]

theorem answersWithin_eq (counted : CountsWithin dict docs) (other : CountsWithin counts more)
    (same : docs.Perm more) : dict.answersWithin = counts.answersWithin := by
  have kept : ∀ rows : Dict Key (Dict Other Nat), rows.mapValues id = rows := fun rows =>
    List.map_id _
  have agree := counted.answersWithin_mapValues_eq id other same
    fun _ _ _ left right => funext fun item => left.lookup_eq right (List.Perm.refl _) item
  rwa [kept, kept] at agree

end CountsWithin

theorem Counts.answers_eq {dict counts : Dict Key Nat} {keys more : List Key}
    (counted : Counts dict keys) (other : Counts counts more) (same : keys.Perm more) :
    dict.answers = counts.answers :=
  funext fun key => counted.lookup_eq other same key

end Dict

end Sreality.Foundation
