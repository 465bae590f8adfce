import Mathlib.Order.Basic
import Mathlib.Data.Option.Basic

/-! Blocks of a partition named by a representative each: what joining two of them does to the
members, and the best value of a block under a strict order, joined with the blocks. -/

set_option autoImplicit false

namespace Sreality.Foundation

/-! ### Representatives -/

section Homes

variable {Member : Type} [DecidableEq Member] {home : Member → Member}
  {survivor retired member other : Member}

/-- The block of `retired` joined to that of `survivor`. -/
def joinBlocks (home : Member → Member) (survivor retired : Member) : Member → Member :=
  fun member => if home member = retired then survivor else home member

theorem joinBlocks_eq_survivor :
    joinBlocks home survivor retired member = survivor ↔
      home member = survivor ∨ home member = retired := by
  unfold joinBlocks
  split_ifs with gone
  · simp [gone]
  · simp [gone]

theorem joinBlocks_eq_other (kept : other ≠ survivor) (stays : other ≠ retired) :
    joinBlocks home survivor retired member = other ↔ home member = other := by
  unfold joinBlocks
  split_ifs with gone
  · exact ⟨fun same => absurd same.symm kept, fun same => absurd (same.symm.trans gone) stays⟩
  · exact Iff.rfl

theorem joinBlocks_ne_retired (differ : survivor ≠ retired) :
    joinBlocks home survivor retired member ≠ retired := by
  unfold joinBlocks
  split_ifs with gone
  · exact differ
  · exact gone

theorem joinBlocks_of_survivor (here : home member = survivor) :
    joinBlocks home survivor retired member = survivor :=
  joinBlocks_eq_survivor.mpr (.inl here)

/-- A representative stands for itself still, unless it was the one joined away. -/
theorem joinBlocks_root (survives : home survivor = survivor) :
    joinBlocks home survivor retired member = member ↔
      home member = member ∧ (member ≠ retired ∨ member = survivor) := by
  by_cases kept : member = survivor
  · subst kept
    simp [joinBlocks_eq_survivor, survives]
  · by_cases gone : member = retired
    · subst gone
      simp only [kept, ne_eq, not_true_eq_false, or_self, and_false, iff_false]
      exact joinBlocks_ne_retired (Ne.symm kept)
    · simp [joinBlocks_eq_other kept gone, gone]

end Homes

/-! ### The best of a block -/

section Best

variable {Member Value : Type} {beats : Value → Value → Prop} {block joined : Member → Prop}
  {rows : Member → Option Value}

/-- The value of a block that beats every other of its members', none where none has one. -/
inductive Best (beats : Value → Value → Prop) (block : Member → Prop)
    (rows : Member → Option Value) : Option Value → Prop
  | vacant (empty : ∀ member, block member → rows member = none) : Best beats block rows none
  | taken {value : Value} (member : Member) (inside : block member)
      (held : rows member = some value)
      (tops : ∀ other rival, block other → rows other = some rival →
        rival = value ∨ beats value rival) : Best beats block rows (some value)

namespace Best

variable {best other : Option Value}

theorem single {member : Member} (alone : ∀ other, block other ↔ other = member) :
    Best beats block rows (rows member) := by
  cases held : rows member with
  | none => exact .vacant fun other inside => (alone other).mp inside ▸ held
  | some value =>
      refine .taken member ((alone member).mpr rfl) held ?_
      intro other rival inside found
      cases (alone other).mp inside
      rw [held] at found
      exact .inl (Option.some.inj found).symm

theorem held {value : Value} (best_ : Best beats block rows (some value)) :
    ∃ member, block member ∧ rows member = some value := by
  cases best_ with
  | taken member inside held => exact ⟨member, inside, held⟩

theorem congr (same : ∀ member, block member ↔ joined member)
    (best : Best beats block rows other) : Best beats joined rows other := by
  cases best with
  | vacant empty => exact .vacant fun member inside => empty member ((same member).mpr inside)
  | taken member inside held tops =>
      exact .taken member ((same member).mp inside) held
        fun rival value there => tops rival value ((same rival).mpr there)

theorem unique (asymmetric : ∀ left right, beats left right → ¬beats right left)
    (first : Best beats block rows best) (second : Best beats block rows other) :
    best = other := by
  cases first with
  | vacant empty =>
      cases second with
      | vacant => rfl
      | taken member inside held =>
          rw [empty member inside] at held
          cases held
  | taken member inside held tops =>
      cases second with
      | vacant empty =>
          rw [empty member inside] at held
          cases held
      | taken rival there found beaten =>
          rcases tops rival _ there found with same | wins
          · rw [same]
          · rcases beaten member _ inside held with same | loses
            · rw [same]
            · exact absurd loses (asymmetric _ _ wins)

/-- The best of two blocks is the better of their two best. -/
theorem join {left right : Member → Prop} {own rival : Value}
    (transitive : ∀ one two three, beats one two → beats two three → beats one three)
    (first : Best beats left rows (some own)) (second : Best beats right rows (some rival))
    (wins : beats own rival ∨ own = rival) :
    Best beats (fun member => left member ∨ right member) rows (some own) := by
  cases first with
  | taken member inside held tops =>
      refine .taken member (.inl inside) held ?_
      rintro other value (here | there) found
      · exact tops other value here found
      · cases second with
        | taken _ _ _ beaten =>
            have lower := beaten other value there found
            rcases wins with wins | same
            · rcases lower with equal | loses
              · exact .inr (equal ▸ wins)
              · exact .inr (transitive _ _ _ wins loses)
            · rw [same]
              exact lower

theorem join_none {left right : Member → Prop} (first : Best beats left rows best)
    (second : Best beats right rows none) :
    Best beats (fun member => left member ∨ right member) rows best := by
  have empty : ∀ member, right member → rows member = none := by
    cases second with
    | vacant empty => exact empty
  cases first with
  | vacant none_ =>
      exact .vacant fun member inside => inside.elim (none_ member) (empty member)
  | taken member inside held tops =>
      refine .taken member (.inl inside) held ?_
      rintro other value (here | there) found
      · exact tops other value here found
      · rw [empty other there] at found
        cases found

theorem swap {left right : Member → Prop}
    (best_ : Best beats (fun member => left member ∨ right member) rows best) :
    Best beats (fun member => right member ∨ left member) rows best :=
  best_.congr fun _ => or_comm

end Best

end Best

end Sreality.Foundation
