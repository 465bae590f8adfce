import Mathlib.Data.List.Lex
import Mathlib.Data.Nat.Digits.Lemmas
import Sreality.Foundation.Dicts
import Sreality.Foundation.StableSort

/-! JSON values as a dynamic language holds them: strings are lists of code points, lone
surrogates included, and an object keeps the order its keys came in. -/

set_option autoImplicit false

namespace Sreality.Foundation

/-- A string, by its code points. -/
abbrev CodePoints : Type := List Nat

inductive Json (Float : Type) where
  | null
  | bool (value : Bool)
  | int (value : Int)
  | float (value : Float)
  | str (text : CodePoints)
  | arr (items : List (Json Float))
  | obj (members : List (CodePoints × Json Float))

/-- The decimal digits of a number, as `str(n)` writes them. -/
def decimal (n : Nat) : CodePoints :=
  if n = 0 then [48] else (Nat.digits 10 n).reverse.map (· + 48)

/-- Above this many digits `int(text)` and `str(n)` refuse. -/
def maxStrDigits : Nat := 4300

namespace Json

variable {Float : Type}

@[elab_as_elim]
theorem induct {motive : Json Float → Prop} (null : motive .null)
    (bool : ∀ value, motive (.bool value)) (int : ∀ value, motive (.int value))
    (float : ∀ value, motive (.float value)) (str : ∀ text, motive (.str text))
    (arr : ∀ items, (∀ item ∈ items, motive item) → motive (.arr items))
    (obj : ∀ members, (∀ member ∈ members, motive member.2) → motive (.obj members))
    (node : Json Float) : motive node := by
  refine @Json.rec Float motive (fun items => ∀ item ∈ items, motive item)
    (fun members => ∀ member ∈ members, motive member.2) (fun member => motive member.2)
    null bool int float str arr obj ?_ ?_ ?_ ?_ (fun _ _ held => held) node
  · simp
  · intro first rest here later item listed
    rcases List.mem_cons.mp listed with rfl | deeper
    · exact here
    · exact later item deeper
  · simp
  · intro first rest here later member listed
    rcases List.mem_cons.mp listed with rfl | deeper
    · exact here
    · exact later member deeper

mutual

/-- The value with the keys of every object ascending, as `sort_keys=True` writes them. -/
def sorted : Json Float → Json Float
  | .null => .null
  | .bool value => .bool value
  | .int value => .int value
  | .float value => .float value
  | .str text => .str text
  | .arr items => .arr (sortedEach items)
  | .obj members => .obj (sortedBy Prod.fst (sortedMembers members))

def sortedEach : List (Json Float) → List (Json Float)
  | [] => []
  | item :: rest => item.sorted :: sortedEach rest

def sortedMembers : List (CodePoints × Json Float) → List (CodePoints × Json Float)
  | [] => []
  | (key, value) :: rest => (key, value.sorted) :: sortedMembers rest

end

theorem sortedEach_eq_map (items : List (Json Float)) : sortedEach items = items.map sorted := by
  induction items with
  | nil => rfl
  | cons item rest ih => rw [sortedEach, ih, List.map_cons]

def sortMember (member : CodePoints × Json Float) : CodePoints × Json Float :=
  (member.1, member.2.sorted)

@[simp] theorem sortMember_fst (member : CodePoints × Json Float) :
    (sortMember member).1 = member.1 := rfl

theorem sortedMembers_eq_map (members : List (CodePoints × Json Float)) :
    sortedMembers members = members.map sortMember := by
  induction members with
  | nil => rfl
  | cons member rest ih =>
      rw [sortedMembers, ih]
      rfl

@[simp] theorem sorted_arr (items : List (Json Float)) :
    sorted (.arr items) = .arr (items.map sorted) := by
  rw [sorted, sortedEach_eq_map]

@[simp] theorem sorted_obj (members : List (CodePoints × Json Float)) :
    sorted (.obj members) = .obj ((sortedBy Prod.fst members).map sortMember) := by
  rw [sorted, sortedMembers_eq_map, sortedBy_map sortMember_fst]

/-- What a reader makes: one value for each key, and integers it has the digits for. -/
inductive WellFormed : Json Float → Prop where
  | null : WellFormed .null
  | bool {value : Bool} : WellFormed (.bool value)
  | int {value : Int} : (decimal value.natAbs).length ≤ maxStrDigits → WellFormed (.int value)
  | float {value : Float} : WellFormed (.float value)
  | str {text : CodePoints} : WellFormed (.str text)
  | arr {items : List (Json Float)} : (∀ item ∈ items, WellFormed item) → WellFormed (.arr items)
  | obj {members : List (CodePoints × Json Float)} : Keyed Prod.fst members →
      (∀ member ∈ members, WellFormed member.2) → WellFormed (.obj members)

theorem keyed_sortMember {members : List (CodePoints × Json Float)}
    (keyed : Keyed Prod.fst members) :
    Keyed Prod.fst ((sortedBy Prod.fst members).map sortMember) := by
  have keys : ((sortedBy Prod.fst members).map sortMember).map Prod.fst =
      (sortedBy Prod.fst members).map Prod.fst := by
    rw [List.map_map]
    rfl
  rw [Keyed, keys]
  exact ((sortedBy_perm Prod.fst members).map Prod.fst).nodup_iff.mpr keyed

end Json

end Sreality.Foundation
