import Sreality.Foundation.Pointwise
import Sreality.LocationData.PayloadNorm

/-! What the rules of a profile do to one node: an object's members and a list's elements each see
the rules that reach them, in their order, and a list loses elements besides. -/

set_option autoImplicit false

namespace Sreality.LocationData.PayloadNorm

open Foundation Foundation.JsonText

variable {Float : Type}

/-- A pointer, by its tokens. -/
abbrev Rule : Type := List CodePoints

/-- The rules of a profile, one after the other. -/
def run (rules : List Rule) (node : Json Float) : Option (Json Float) :=
  rules.foldlM (fun node rule => deletePointer rule node) node

@[simp] theorem run_nil (node : Json Float) : run [] node = some node := rfl

theorem run_cons (rule : Rule) (rules : List Rule) (node : Json Float) :
    run (rule :: rules) node = (deletePointer rule node).bind (run rules) :=
  List.foldlM_cons

theorem run_append (rules others : List Rule) (node : Json Float) :
    run (rules ++ others) node = (run rules node).bind (run others) :=
  List.foldlM_append

/-- What a child sees of a rule whose head may choose it. -/
def visit (chooses : CodePoints → Bool) : Rule → Json Float → Option (Json Float)
  | head :: next :: rest, node =>
      if chooses head then deletePointer (next :: rest) node else some node
  | _, node => some node

/-- The rules a child sees. -/
def under (chooses : CodePoints → Bool) (rules : List Rule) : List Rule :=
  rules.filterMap fun
    | head :: next :: rest => if chooses head then some (next :: rest) else none
    | _ => none

theorem run_under_cons (chooses : CodePoints → Bool) (rule : Rule) (rules : List Rule)
    (node : Json Float) :
    run (under chooses (rule :: rules)) node =
      (visit chooses rule node).bind (run (under chooses rules)) := by
  match rule with
  | [] => rfl
  | [_] => rfl
  | head :: next :: rest =>
      by_cases chosen : chooses head = true
      · have more : under chooses ((head :: next :: rest) :: rules) =
            (next :: rest) :: under chooses rules :=
          List.filterMap_cons_some (if_pos chosen)
        rw [more, run_cons, visit, if_pos chosen]
      · have same : under chooses ((head :: next :: rest) :: rules) = under chooses rules :=
          List.filterMap_cons_none (if_neg chosen)
        rw [same, visit, if_neg chosen]
        rfl

theorem under_perm {rules others : List Rule} (order : rules.Perm others)
    (chooses : CodePoints → Bool) : (under chooses rules).Perm (under chooses others) :=
  order.filterMap _

theorem run_scalar {node : Json Float} (leaves : ∀ rule : Rule, deletePointer rule node = some node)
    (rules : List Rule) : run rules node = some node := by
  induction rules with
  | nil => rfl
  | cons rule rest ih => rw [run_cons, leaves, Option.bind_some, ih]

theorem deletePointer_leaf {rule : Rule} {node : Json Float}
    (arr : ∀ items, node ≠ .arr items) (obj : ∀ members, node ≠ .obj members) :
    deletePointer rule node = some node := by
  match rule with
  | [] => rfl
  | [_] => cases node <;> first | rfl | exact absurd rfl (arr _) | exact absurd rfl (obj _)
  | _ :: _ :: _ => cases node <;> first | rfl | exact absurd rfl (arr _) | exact absurd rfl (obj _)

/-! ### Objects -/

/-- The keys a token names in an object. -/
def selects (token key : CodePoints) : Bool :=
  if keyGlob ∈ token then globs token key else decide (key = token)

theorem mem_globKeys {members : List (CodePoints × Json Float)} {token key : CodePoints} :
    key ∈ globKeys members token ↔ key ∈ members.map Prod.fst ∧ globs token key = true :=
  List.mem_filter

theorem deletePointer_obj (head : CodePoints) (rest : Rule)
    (members : List (CodePoints × Json Float)) :
    deletePointer (head :: rest) (.obj members) =
      if rest = [] then some (.obj (members.filter fun member => !selects head member.1))
      else (changeMembers (selects head) (deletePointer rest) members).map .obj := by
  by_cases glob : keyGlob ∈ head
  · have same : ∀ member ∈ members,
        decide (member.1 ∈ globKeys members head) = selects head member.1 := by
      intro member listed
      rw [selects, if_pos glob, Bool.eq_iff_iff, decide_eq_true_iff, mem_globKeys]
      exact and_iff_right (List.mem_map_of_mem listed)
    have changed : changeMembers (· ∈ globKeys members head) (deletePointer rest) members =
        changeMembers (selects head) (deletePointer rest) members :=
      mapM_congr fun member listed => by simp only [same member listed]
    have filtered : members.filter (·.1 ∉ globKeys members head) =
        members.filter fun member => !selects head member.1 :=
      List.filter_congr fun member listed => by rw [← same member listed, decide_not]
    simp only [deletePointer, if_pos glob, changed, filtered]
  · have named : selects head = fun key => decide (key = head) := by
      funext key
      rw [selects, if_neg glob]
    simp only [deletePointer, if_neg glob, drop, changeChild, named, decide_not]

/-- The keys a rule takes out of an object. -/
def drops (rule : Rule) (key : CodePoints) : Bool :=
  match rule with
  | [head] => selects head key
  | _ => false

theorem changeMembers_eq_some {chosen : CodePoints → Bool}
    {change : Json Float → Option (Json Float)} {members after : List (CodePoints × Json Float)} :
    changeMembers chosen change members = some after ↔
      List.Forall₂ (fun member changed => changed.1 = member.1 ∧
        (if chosen member.1 then change member.2 else some member.2) = some changed.2)
          members after := by
  rw [changeMembers, mapM_eq_some_iff]
  refine forall₂_congr fun member changed => ?_
  obtain ⟨key, value⟩ := changed
  split_ifs with selected
  · rw [Option.map_eq_some_iff]
    constructor
    · rintro ⟨result, done, held⟩
      cases held
      exact ⟨rfl, done⟩
    · rintro ⟨rfl, done⟩
      exact ⟨value, done, rfl⟩
  · rw [Option.some.injEq, Prod.ext_iff, Option.some.injEq, eq_comm (a := member.1)]

theorem forall₂_unchanged {kept after : List (CodePoints × Json Float)} :
    List.Forall₂ (fun member changed => changed.1 = member.1 ∧ member.2 = changed.2)
      kept after ↔ kept = after := by
  refine Iff.trans (forall₂_congr fun member changed => ?_)
    (iff_of_eq (congrFun (congrFun List.forall₂_eq_eq_eq kept) after))
  rw [Prod.ext_iff, eq_comm (a := changed.1)]

/-- What a rule does to an object: it takes members out and visits those that stay. -/
theorem deletePointer_obj_iff {rule : Rule} {members : List (CodePoints × Json Float)}
    {node : Json Float} :
    deletePointer rule (.obj members) = some node ↔ ∃ after, node = .obj after ∧
      List.Forall₂ (fun member changed => changed.1 = member.1 ∧
          visit (selects · member.1) rule member.2 = some changed.2)
        (members.filter fun member => !drops rule member.1) after := by
  match rule with
  | [] =>
      have all : members.filter (fun member => !drops [] member.1) = members :=
        List.filter_eq_self.mpr fun _ _ => rfl
      simp only [all, visit, forall₂_unchanged, deletePointer, Option.some.injEq]
      exact ⟨fun same => ⟨members, same.symm, rfl⟩, fun ⟨_, same, rfl⟩ => same.symm⟩
  | [head] =>
      simp only [deletePointer_obj, if_true, drops, visit, forall₂_unchanged, Option.some.injEq]
      exact ⟨fun same => ⟨_, same.symm, rfl⟩, fun ⟨_, same, kept⟩ => by rw [same, kept]⟩
  | head :: next :: rest =>
      have all : members.filter (fun member => !drops (head :: next :: rest) member.1) = members :=
        List.filter_eq_self.mpr fun _ _ => rfl
      rw [all, deletePointer_obj, if_neg (List.cons_ne_nil next rest), Option.map_eq_some_iff]
      simp only [changeMembers_eq_some, visit]
      exact ⟨fun ⟨after, related, same⟩ => ⟨after, same.symm, related⟩,
        fun ⟨after, same, related⟩ => ⟨after, related, same.symm⟩⟩

/-- The members that no rule takes out. -/
def stays (rules : List Rule) (key : CodePoints) : Bool := rules.all fun rule => !drops rule key

theorem stays_cons (rule : Rule) (rules : List Rule) (key : CodePoints) :
    stays (rule :: rules) key = (!drops rule key && stays rules key) := List.all_cons

theorem stays_perm {rules others : List Rule} (order : rules.Perm others) (key : CodePoints) :
    stays rules key = stays others key := order.all_eq

/-- A run that ends leaves the members that stay, each with the rules under its key run on it. -/
theorem run_obj {rules : List Rule} {members : List (CodePoints × Json Float)} {node : Json Float}
    (done : run rules (.obj members) = some node) :
    ∃ after, node = .obj after ∧
      List.Forall₂ (fun member changed => changed.1 = member.1 ∧
          run (under (selects · member.1) rules) member.2 = some changed.2)
        (members.filter fun member => stays rules member.1) after := by
  induction rules generalizing members with
  | nil =>
      have all : members.filter (fun member => stays [] member.1) = members :=
        List.filter_eq_self.mpr fun _ _ => rfl
      rw [all]
      refine ⟨members, (Option.some.inj done).symm, ?_⟩
      exact (forall₂_unchanged.mpr rfl).imp fun _ _ same => ⟨same.1, congrArg some same.2⟩
  | cons rule rest ih =>
      rw [run_cons] at done
      obtain ⟨middle, first, onward⟩ := Option.bind_eq_some_iff.mp done
      obtain ⟨between, rfl, visited⟩ := deletePointer_obj_iff.mp first
      obtain ⟨after, rfl, later⟩ := ih onward
      refine ⟨after, rfl, ?_⟩
      have kept : members.filter (fun member => stays (rule :: rest) member.1) =
          (members.filter fun member => !drops rule member.1).filter
            fun member => stays rest member.1 := by
        rw [List.filter_filter]
        refine List.filter_congr fun member _ => ?_
        rw [stays_cons, Bool.and_comm]
      rw [kept]
      have filtered := @forall₂_filter _ _ _ (fun member => stays rest member.1)
        (fun member => stays rest member.1) _ _ visited
        fun member changed related => by rw [related.1]
      refine (forall₂_comp filtered later).imp fun member changed => ?_
      rintro ⟨middle, ⟨sameKey, visit⟩, finalKey, run⟩
      refine ⟨finalKey.trans sameKey, ?_⟩
      rw [run_under_cons, visit, Option.bind_some, ← sameKey]
      exact run

/-- A run on members of which none is taken out and each runs through. -/
theorem run_obj_of {rules : List Rule} {members after : List (CodePoints × Json Float)}
    (kept : ∀ member ∈ members, stays rules member.1 = true)
    (runs : List.Forall₂ (fun member changed => changed.1 = member.1 ∧
      run (under (selects · member.1) rules) member.2 = some changed.2) members after) :
    run rules (.obj members) = some (.obj after) := by
  induction rules generalizing members with
  | nil =>
      have same := forall₂_unchanged.mp
        (runs.imp fun _ _ held => ⟨held.1, Option.some.inj held.2⟩)
      rw [same, run_nil]
  | cons rule rest ih =>
      have split : List.Forall₂ (fun member changed => ∃ between : CodePoints × Json Float,
          (between.1 = member.1 ∧ visit (selects · member.1) rule member.2 = some between.2) ∧
            changed.1 = between.1 ∧
              run (under (selects · between.1) rest) between.2 = some changed.2) members after := by
        refine runs.imp fun member changed held => ?_
        obtain ⟨sameKey, done⟩ := held
        rw [run_under_cons] at done
        obtain ⟨between, first, onward⟩ := Option.bind_eq_some_iff.mp done
        exact ⟨(member.1, between), ⟨rfl, first⟩, sameKey, onward⟩
      obtain ⟨middle, first, onward⟩ := forall₂_between split
      have both : ∀ member ∈ members, drops rule member.1 = false ∧
          stays rest member.1 = true := by
        intro member listed
        have held := kept member listed
        rw [stays_cons, Bool.and_eq_true, Bool.not_eq_true'] at held
        exact held
      have all : members.filter (fun member => !drops rule member.1) = members :=
        List.filter_eq_self.mpr fun member listed => by rw [(both member listed).1]; rfl
      have step : deletePointer rule (.obj members) = some (.obj middle) :=
        deletePointer_obj_iff.mpr ⟨middle, rfl, all.symm ▸ first⟩
      rw [run_cons, step, Option.bind_some]
      refine ih (fun between listed => ?_) onward
      obtain ⟨member, inside, sameKey, _⟩ := forall₂_mem_right first listed
      rw [sameKey]
      exact (both member inside).2

/-! ### Lists -/

/-- The index that a token names, where `int` reads it. -/
def readIndex (token : CodePoints) : Option Nat := if isdigit token then int token else none

/-- The elements a token names in a list. -/
def reaches (position : Nat) (token : CodePoints) : Bool :=
  decide (token = wildcard) || decide (readIndex token = some position)

/-- The index at which a rule takes an element out. -/
def dropIndex : Rule → Option Nat
  | [head] => readIndex head
  | _ => none

def dropIndexes (rules : List Rule) : List Nat := rules.filterMap dropIndex

/-- A rule whose first token a list can be asked for: `int` reads what `isdigit` accepts. -/
def Readable (rule : Rule) : Prop :=
  ∀ head ∈ rule.head?, isdigit head = true → (int head).isSome = true

theorem readIndex_wildcard : readIndex wildcard = none := by decide

theorem index_eq {head : CodePoints} (readable : isdigit head = true → (int head).isSome = true)
    (length : Nat) : index length head = some ((readIndex head).filter (· < length)) := by
  unfold index readIndex
  split_ifs with digits
  · obtain ⟨value, read⟩ := Option.isSome_iff_exists.mp (readable digits)
    rw [read, Option.map_some, Option.filter_some]
    simp only [decide_eq_true_eq]
  · rfl

theorem readable_of_index {head : CodePoints} {length : Nat} {position : Option Nat}
    (found : index length head = some position) (digits : isdigit head = true) :
    (int head).isSome = true := by
  rw [index, if_pos digits] at found
  obtain ⟨value, read, _⟩ := Option.map_eq_some_iff.mp found
  rw [read]
  rfl

theorem changeAt_eq_some {change : Json Float → Option (Json Float)} {place : Nat}
    {items after : List (Json Float)} (inside : place < items.length) :
    changeAt change place items = some after ↔
      Indexed (fun position item changed =>
        (if position = place then change item else some item) = some changed) items after := by
  induction items generalizing place after with
  | nil => cases inside
  | cons item rest ih =>
      rw [indexed_cons_iff]
      cases place with
      | zero =>
          rw [changeAt, Option.map_eq_some_iff]
          simp only [if_true, if_neg (Nat.succ_ne_zero _), Option.some.injEq, indexed_eq_iff]
          constructor
          · rintro ⟨changed, done, rfl⟩
            exact ⟨changed, rest, rfl, done, rfl⟩
          · rintro ⟨changed, others, rfl, done, rfl⟩
            exact ⟨changed, done, rfl⟩
      | succ place =>
          rw [changeAt, Option.map_eq_some_iff]
          simp only [ih (Nat.lt_of_succ_lt_succ inside), if_neg (Nat.succ_ne_zero place).symm,
            Option.some.injEq, Nat.add_right_cancel_iff]
          constructor
          · rintro ⟨others, done, rfl⟩
            exact ⟨item, others, rfl, rfl, done⟩
          · rintro ⟨changed, others, rfl, rfl, done⟩
            exact ⟨others, done, rfl⟩

/-- What a rule does to a list, read off its first token. -/
inductive ArrStep (rule : Rule) (items : List (Json Float)) : Json Float → Prop where
  | emptied : rule = [wildcard] → ArrStep rule items (.arr [])
  | erased {place : Nat} : dropIndex rule = some place →
      ArrStep rule items (.arr (items.eraseIdx place))
  | visited {after : List (Json Float)} : rule ≠ [wildcard] → dropIndex rule = none →
      Indexed (fun position item changed => visit (reaches position) rule item = some changed)
        items after → ArrStep rule items (.arr after)

theorem readable_of_head {head : CodePoints} {rest : Rule} :
    Readable (head :: rest) ↔ (isdigit head = true → (int head).isSome = true) := by
  constructor
  · exact fun readable => readable head rfl
  · intro readable other found
    cases found
    exact readable

theorem indexed_unchanged {items after : List (Json Float)} :
    Indexed (fun _ item changed => some item = some changed) items after ↔ items = after := by
  simp only [Option.some.injEq, indexed_eq_iff]

theorem index_of_unreadable {head : CodePoints}
    (unreadable : ¬ (isdigit head = true → (int head).isSome = true)) (length : Nat) :
    index length head = none := by
  cases found : index length head with
  | none => rfl
  | some position => exact absurd (readable_of_index found) unreadable

/-- The list once the element at the index read is gone. -/
def listDropped (items : List (Json Float)) : Option Nat → Option (Json Float)
  | none => some (.arr items)
  | some position => some (.arr (items.eraseIdx position))

/-- The list once the element at the index read is changed. -/
def listChanged (change : Json Float → Option (Json Float)) (items : List (Json Float)) :
    Option Nat → Option (Json Float)
  | none => some (.arr items)
  | some position => (changeAt change position items).map .arr

/-- What a terminal rule does to a list. -/
theorem drop_arr_iff {head : CodePoints} {items : List (Json Float)} {node : Json Float}
    (named : head ≠ wildcard) :
    drop head (.arr items) = some node ↔ Readable [head] ∧ ArrStep [head] items node := by
  rw [readable_of_head]
  have other : [head] ≠ [wildcard] := fun same => named (List.cons.inj same).1
  by_cases readable : isdigit head = true → (int head).isSome = true
  · rw [drop, index_eq readable, Option.bind_eq_bind, Option.bind_some, and_iff_right readable]
    cases found : readIndex head with
    | none =>
        rw [Option.filter_none]
        constructor
        · intro done
          cases done
          exact .visited other found (indexed_unchanged.mpr rfl)
        · intro step
          cases step with
          | emptied same => exact absurd same other
          | erased again => cases found.symm.trans again
          | visited _ _ same => rw [indexed_unchanged.mp same]
    | some place =>
        have erased : listDropped items ((some place).filter (· < items.length)) =
            some (.arr (items.eraseIdx place)) := by
          rw [Option.filter_some]
          by_cases inside : place < items.length
          · rw [if_pos (decide_eq_true inside), listDropped]
          · rw [if_neg fun held => inside (of_decide_eq_true held), listDropped,
              List.eraseIdx_of_length_le (Nat.le_of_not_lt inside)]
        refine Iff.trans (iff_of_eq (congrArg (· = some node) erased)) ?_
        constructor
        · intro done
          cases done
          exact .erased found
        · intro step
          cases step with
          | emptied same => exact absurd same other
          | erased again =>
              cases found.symm.trans again
              rfl
          | visited _ none_ _ => cases found.symm.trans none_
  · rw [drop, index_of_unreadable readable]
    exact iff_of_false (fun done => by cases done) fun held => readable held.1

theorem changeChild_arr_iff {head next : CodePoints} {rest : Rule} {items : List (Json Float)}
    {node : Json Float} (named : head ≠ wildcard) :
    changeChild (deletePointer (next :: rest)) head (.arr items) = some node ↔
      Readable (head :: next :: rest) ∧ ArrStep (head :: next :: rest) items node := by
  rw [readable_of_head]
  have other : head :: next :: rest ≠ [wildcard] := fun same => named (List.cons.inj same).1
  have visits : ∀ (position : Nat) (item : Json Float), visit (reaches position)
      (head :: next :: rest) item =
        if readIndex head = some position then deletePointer (next :: rest) item
        else some item := by
    intro position item
    simp only [visit, reaches, decide_eq_false named, Bool.false_or, decide_eq_true_eq]
  by_cases readable : isdigit head = true → (int head).isSome = true
  · rw [changeChild, index_eq readable, Option.bind_eq_bind, Option.bind_some,
      and_iff_right readable]
    -- Whatever the index, the list left is the one whose elements were visited.
    have step : ∀ after : List (Json Float), ArrStep (head :: next :: rest) items (.arr after) ↔
        Indexed (fun position item changed => (if readIndex head = some position then
          deletePointer (next :: rest) item else some item) = some changed) items after := by
      intro after
      simp only [← visits]
      constructor
      · intro step
        cases step with
        | emptied same => exact absurd same other
        | erased found => cases found
        | visited _ _ visited => exact visited
      · exact .visited other rfl
    have list : ∀ node, ArrStep (head :: next :: rest) items node → ∃ after, node = .arr after := by
      intro node step
      cases step <;> exact ⟨_, rfl⟩
    have answer : listChanged (deletePointer (next :: rest)) items
        ((readIndex head).filter (· < items.length)) = some node ↔
          ∃ after, node = .arr after ∧ ArrStep (head :: next :: rest) items (.arr after) := by
      simp only [step]
      cases found : readIndex head with
      | none =>
          simp only [Option.filter_none, reduceCtorEq, if_false, indexed_unchanged, listChanged]
          constructor
          · intro done
            exact ⟨items, (Option.some.inj done).symm, rfl⟩
          · rintro ⟨_, done, same⟩
            rw [done, same]
      | some place =>
          simp only [Option.some.injEq]
          by_cases inside : place < items.length
          · simp only [Option.filter_some, decide_eq_true inside, if_true, Option.map_eq_some_iff,
              changeAt_eq_some inside, eq_comm (a := place), listChanged]
            constructor
            · rintro ⟨after, held, done⟩
              exact ⟨after, done.symm, held⟩
            · rintro ⟨after, done, held⟩
              exact ⟨after, held, done.symm⟩
          · have short : ∀ {after : List (Json Float)}, Indexed (fun position item changed =>
                (if place = position then deletePointer (next :: rest) item else some item) =
                  some changed) items after ↔ items = after := by
              intro after
              rw [← indexed_unchanged]
              refine indexed_congr fun position item changed listed => ?_
              have before : position < items.length := (List.getElem?_eq_some_iff.mp listed).1
              rw [if_neg (by omega)]
            simp only [Option.filter_some, decide_eq_false inside, short, Bool.false_eq_true,
              if_false, listChanged]
            constructor
            · intro done
              exact ⟨items, (Option.some.inj done).symm, rfl⟩
            · rintro ⟨_, done, same⟩
              rw [done, same]
    refine answer.trans ⟨?_, fun held => ?_⟩
    · rintro ⟨after, same, held⟩
      rw [same]
      exact held
    · obtain ⟨after, rfl⟩ := list node held
      exact ⟨after, rfl, held⟩
  · rw [changeChild, index_of_unreadable readable]
    exact iff_of_false (fun done => by cases done) fun held => readable held.1

theorem readable_wildcard (rest : Rule) : Readable (wildcard :: rest) :=
  readable_of_head.mpr fun digits => absurd digits (by decide)

theorem deletePointer_arr_iff {rule : Rule} {items : List (Json Float)} {node : Json Float} :
    deletePointer rule (.arr items) = some node ↔ Readable rule ∧ ArrStep rule items node := by
  match rule with
  | [] =>
      have readable : Readable [] := fun head found => by cases found
      rw [deletePointer, and_iff_right readable]
      constructor
      · intro done
        cases done
        exact .visited (by simp) rfl (indexed_unchanged.mpr rfl)
      · intro step
        cases step with
        | emptied same => cases same
        | erased found => cases found
        | visited _ _ same => rw [indexed_unchanged.mp same]
  | [head] =>
      by_cases every : head = wildcard
      · subst every
        simp only [deletePointer, if_true, and_iff_right (readable_wildcard [])]
        constructor
        · intro done
          cases done
          exact .emptied rfl
        · intro step
          cases step with
          | emptied _ => rfl
          | erased found => cases readIndex_wildcard.symm.trans found
          | visited other _ _ => exact absurd rfl other
      · simp only [deletePointer, if_neg every, if_true]
        exact drop_arr_iff every
  | head :: next :: rest =>
      by_cases every : head = wildcard
      · subst every
        have each : ∀ {after : List (Json Float)}, Indexed (fun position item changed =>
            visit (reaches position) (wildcard :: next :: rest) item = some changed) items after ↔
              items.mapM (deletePointer (next :: rest)) = some after := by
          intro after
          rw [mapM_eq_some_iff, ← indexed_const_iff]
          refine indexed_congr fun position item changed _ => ?_
          rw [visit, reaches, decide_eq_true rfl, Bool.true_or, if_pos rfl]
        simp only [deletePointer, if_true, if_neg (List.cons_ne_nil next rest),
          and_iff_right (readable_wildcard _), Option.map_eq_some_iff]
        constructor
        · rintro ⟨after, changed, rfl⟩
          exact .visited (by simp) rfl (each.mpr changed)
        · intro step
          cases step with
          | emptied same => simp at same
          | erased found => cases found
          | visited _ _ visited => exact ⟨_, each.mp visited, rfl⟩
      · simp only [deletePointer, if_neg every, if_neg (List.cons_ne_nil next rest)]
        exact changeChild_arr_iff every

theorem visit_of_dropIndex {rule : Rule} {place : Nat} (found : dropIndex rule = some place)
    (chooses : CodePoints → Bool) (item : Json Float) : visit chooses rule item = some item := by
  match rule with
  | [] => rfl
  | [_] => rfl
  | _ :: _ :: _ => cases found

/-- The rules of a run on a list can all be read, and the run ends with a list. -/
theorem run_arr_readable {rules : List Rule} {items : List (Json Float)} {node : Json Float}
    (done : run rules (.arr items) = some node) :
    (∃ after, node = .arr after) ∧ ∀ rule ∈ rules, Readable rule := by
  induction rules generalizing items with
  | nil => exact ⟨⟨items, (Option.some.inj done).symm⟩, by simp⟩
  | cons rule rest ih =>
      rw [run_cons] at done
      obtain ⟨middle, first, onward⟩ := Option.bind_eq_some_iff.mp done
      obtain ⟨readable, step⟩ := deletePointer_arr_iff.mp first
      have later : (∃ after, node = .arr after) ∧ ∀ rule ∈ rest, Readable rule := by
        cases step <;> exact ih onward
      exact ⟨later.1, List.forall_mem_cons.mpr ⟨readable, later.2⟩⟩

theorem deletePointer_empty {rule : Rule} (readable : Readable rule) :
    deletePointer rule (.arr ([] : List (Json Float))) = some (.arr []) := by
  refine deletePointer_arr_iff.mpr ⟨readable, ?_⟩
  by_cases every : rule = [wildcard]
  · exact .emptied every
  · cases found : dropIndex rule with
    | none => exact .visited every found (indexed_nil_iff.mpr rfl)
    | some place => exact .erased found

theorem run_empty {rules : List Rule} (readable : ∀ rule ∈ rules, Readable rule) :
    run rules (.arr ([] : List (Json Float))) = some (.arr []) := by
  induction rules with
  | nil => rfl
  | cons rule rest ih =>
      obtain ⟨here, later⟩ := List.forall_mem_cons.mp readable
      rw [run_cons, deletePointer_empty here, Option.bind_some, ih later]

/-- A list that some rule empties is empty whatever the order. -/
theorem run_emptied {rules : List Rule} {items : List (Json Float)} {node : Json Float}
    (emptied : [wildcard] ∈ rules) (done : run rules (.arr items) = some node) :
    node = .arr [] := by
  induction rules generalizing items with
  | nil => cases emptied
  | cons rule rest ih =>
      have readable := (run_arr_readable done).2
      rw [run_cons] at done
      obtain ⟨middle, first, onward⟩ := Option.bind_eq_some_iff.mp done
      obtain ⟨_, step⟩ := deletePointer_arr_iff.mp first
      rcases List.mem_cons.mp emptied with rfl | later
      · cases step with
        | emptied _ =>
            rw [run_empty fun rule listed => readable rule (List.mem_cons_of_mem _ listed)] at onward
            exact (Option.some.inj onward).symm
        | erased found => cases readIndex_wildcard.symm.trans found
        | visited other _ _ => exact absurd rfl other
      · cases step <;> exact ih later onward

/-- What a run leaves of a list whose first elements no rule takes out. -/
structure ArrRun (rules : List Rule) (bound : Nat) (items after : List (Json Float)) : Prop where
  keeps : bound ≤ after.length
  falls : after.length ≤ max bound (items.length - (dropIndexes rules).count bound)
  few : items.length ≤ after.length + (dropIndexes rules).length
  inner : ∀ position < bound, ∀ item, items[position]? = some item →
    ∃ changed, after[position]? = some changed ∧
      run (under (reaches position) rules) item = some changed

theorem dropIndexes_cons_none {rule : Rule} (none_ : dropIndex rule = none) (rules : List Rule) :
    dropIndexes (rule :: rules) = dropIndexes rules := List.filterMap_cons_none none_

theorem dropIndexes_cons_some {rule : Rule} {place : Nat} (found : dropIndex rule = some place)
    (rules : List Rule) : dropIndexes (rule :: rules) = place :: dropIndexes rules :=
  List.filterMap_cons_some found

theorem run_arr {rules : List Rule} {items : List (Json Float)} {node : Json Float} {bound : Nat}
    (full : [wildcard] ∉ rules) (above : ∀ place ∈ dropIndexes rules, bound ≤ place)
    (fits : bound ≤ items.length) (done : run rules (.arr items) = some node) :
    ∃ after, node = .arr after ∧ ArrRun rules bound items after := by
  induction rules generalizing items with
  | nil =>
      refine ⟨items, (Option.some.inj done).symm, fits, ?_, le_rfl, fun _ _ item found =>
        ⟨item, found, rfl⟩⟩
      exact le_max_of_le_right le_rfl
  | cons rule rest ih =>
      rw [run_cons] at done
      obtain ⟨middle, first, onward⟩ := Option.bind_eq_some_iff.mp done
      obtain ⟨_, step⟩ := deletePointer_arr_iff.mp first
      have fullRest : [wildcard] ∉ rest := fun listed => full (List.mem_cons_of_mem _ listed)
      cases step with
      | emptied same => exact absurd (same ▸ List.mem_cons_self) full
      | @erased place found =>
          rw [dropIndexes_cons_some found, List.forall_mem_cons] at above
          have shorter : (items.eraseIdx place).length =
              if place < items.length then items.length - 1 else items.length :=
            List.length_eraseIdx
          have fitsRest : bound ≤ (items.eraseIdx place).length := by
            rw [shorter]
            split_ifs <;> omega
          obtain ⟨after, rfl, held⟩ := ih fullRest above.2 fitsRest onward
          refine ⟨after, rfl, held.keeps, ?_, ?_, ?_⟩
          · have falls := held.falls
            rw [dropIndexes_cons_some found, List.count_cons]
            rw [shorter] at falls
            split_ifs at falls ⊢ <;> simp only [beq_iff_eq] at * <;> omega
          · have few := held.few
            rw [dropIndexes_cons_some found, List.length_cons]
            rw [shorter] at few
            split_ifs at few <;> omega
          · intro position inside item listed
            have same : (items.eraseIdx place)[position]? = some item := by
              rw [List.getElem?_eraseIdx_of_lt (inside.trans_le above.1)]
              exact listed
            obtain ⟨changed, left, visited⟩ := held.inner position inside item same
            refine ⟨changed, left, ?_⟩
            rw [run_under_cons, visit_of_dropIndex found, Option.bind_some]
            exact visited
      | @visited between other none_ visited =>
          rw [dropIndexes_cons_none none_] at above
          obtain ⟨after, rfl, held⟩ := ih fullRest above (visited.length ▸ fits) onward
          refine ⟨after, rfl, held.keeps, ?_, ?_, ?_⟩
          · rw [dropIndexes_cons_none none_, ← visited.length]
            exact held.falls
          · rw [dropIndexes_cons_none none_, ← visited.length]
            exact held.few
          · intro position inside item listed
            have held_ : position < between.length := by
              have := (List.getElem?_eq_some_iff.mp listed).1
              rw [visited.length]
              exact this
            have here := List.getElem?_eq_getElem held_
            obtain ⟨changed, left, onward⟩ := held.inner position inside _ here
            refine ⟨changed, left, ?_⟩
            rw [run_under_cons, visited.at_ position item _ listed here, Option.bind_some]
            exact onward

/-- A run that takes nothing out of a list and runs through in each element. -/
theorem run_arr_of {rules : List Rule} {items after : List (Json Float)}
    (readable : ∀ rule ∈ rules, Readable rule) (full : [wildcard] ∉ rules)
    (above : ∀ place ∈ dropIndexes rules, items.length ≤ place)
    (runs : Indexed (fun position item changed =>
      run (under (reaches position) rules) item = some changed) items after) :
    run rules (.arr items) = some (.arr after) := by
  induction rules generalizing items with
  | nil =>
      have same := indexed_unchanged.mp runs
      rw [same, run_nil]
  | cons rule rest ih =>
      obtain ⟨here, later⟩ := List.forall_mem_cons.mp readable
      have fullRest : [wildcard] ∉ rest := fun listed => full (List.mem_cons_of_mem _ listed)
      have other : rule ≠ [wildcard] := fun same => full (same ▸ List.mem_cons_self)
      simp only [run_under_cons] at runs
      rw [run_cons]
      cases found : dropIndex rule with
      | none =>
          rw [dropIndexes_cons_none found] at above
          have split : Indexed (fun position item changed => ∃ between,
              visit (reaches position) rule item = some between ∧
                run (under (reaches position) rest) between = some changed) items after :=
            runs.imp fun position item changed done => Option.bind_eq_some_iff.mp done
          obtain ⟨middle, first, onward⟩ := indexed_between split
          have step : deletePointer rule (.arr items) = some (.arr middle) :=
            deletePointer_arr_iff.mpr ⟨here, .visited other found first⟩
          rw [step, Option.bind_some]
          exact ih later fullRest (first.length ▸ above) onward
      | some place =>
          rw [dropIndexes_cons_some found, List.forall_mem_cons] at above
          have step : deletePointer rule (.arr items) = some (.arr (items.eraseIdx place)) :=
            deletePointer_arr_iff.mpr ⟨here, .erased found⟩
          rw [List.eraseIdx_of_length_le above.1] at step
          rw [step, Option.bind_some]
          refine ih later fullRest above.2 (runs.imp fun position item changed done => ?_)
          rw [visit_of_dropIndex found, Option.bind_some] at done
          exact done

/-! ### Legible rules -/

/-- Every index a rule names is one that `int` reads. -/
def Legible (rule : Rule) : Prop :=
  ∀ token ∈ rule, isdigit token = true → (int token).isSome = true

instance (rule : Rule) : Decidable (Legible rule) := by
  unfold Legible
  infer_instance

section Legible

variable {change : Json Float → Option (Json Float)}
  (changes : ∀ item, (change item).isSome = true)

include changes

theorem mapM_isSome (items : List (Json Float)) : (items.mapM change).isSome = true := by
  induction items with
  | nil => rfl
  | cons item rest ih =>
      obtain ⟨changed, did⟩ := Option.isSome_iff_exists.mp (changes item)
      obtain ⟨after, done⟩ := Option.isSome_iff_exists.mp ih
      simp [List.mapM_cons, did, done]

theorem changeMembers_isSome (chosen : CodePoints → Bool)
    (members : List (CodePoints × Json Float)) :
    (changeMembers chosen change members).isSome = true := by
  unfold changeMembers
  induction members with
  | nil => rfl
  | cons member rest ih =>
      obtain ⟨changed, did⟩ := Option.isSome_iff_exists.mp (changes member.2)
      obtain ⟨after, done⟩ := Option.isSome_iff_exists.mp ih
      by_cases picked : chosen member.1 = true
      · simp [List.mapM_cons, picked, did, done]
      · simp [List.mapM_cons, picked, done]

theorem changeAt_isSome (place : Nat) (items : List (Json Float)) :
    (changeAt change place items).isSome = true := by
  induction items generalizing place with
  | nil => cases place <;> rfl
  | cons item rest ih =>
      cases place with
      | zero => simp [changeAt, changes item]
      | succ place => simp [changeAt, ih place]

theorem changeChild_isSome {token : CodePoints}
    (reads : isdigit token = true → (int token).isSome = true) (node : Json Float) :
    (changeChild change token node).isSome = true := by
  cases node with
  | obj members =>
      simp [changeChild, changeMembers_isSome changes]
  | arr items =>
      rw [changeChild, index_eq reads, Option.bind_eq_bind, Option.bind_some]
      cases (readIndex token).filter (· < items.length) with
      | none => rfl
      | some position => simp [changeAt_isSome changes]
  | _ => rfl

end Legible

theorem drop_isSome {token : CodePoints}
    (reads : isdigit token = true → (int token).isSome = true) (node : Json Float) :
    (drop token node).isSome = true := by
  cases node with
  | arr items =>
      rw [drop, index_eq reads, Option.bind_eq_bind, Option.bind_some]
      cases (readIndex token).filter (· < items.length) with
      | none => rfl
      | some position => rfl
  | _ => rfl

theorem deletePointer_isSome {rule : Rule} (legible : Legible rule) (node : Json Float) :
    (deletePointer rule node).isSome = true := by
  induction rule generalizing node with
  | nil => simp [deletePointer]
  | cons head rest ih =>
      have reads := legible head List.mem_cons_self
      have deeper := ih fun token listed => legible token (List.mem_cons_of_mem _ listed)
      cases node with
      | arr items =>
          simp only [deletePointer]
          split_ifs
          · rfl
          · rw [Option.isSome_map]
            exact mapM_isSome deeper items
          · exact drop_isSome reads _
          · exact changeChild_isSome deeper reads _
      | obj members =>
          simp only [deletePointer]
          split_ifs
          · rfl
          · rw [Option.isSome_map]
            exact changeMembers_isSome deeper _ members
          · exact drop_isSome reads _
          · exact changeChild_isSome deeper reads _
      | _ =>
          simp only [deletePointer]
          split_ifs
          · exact drop_isSome reads _
          · exact changeChild_isSome deeper reads _

end Sreality.LocationData.PayloadNorm
