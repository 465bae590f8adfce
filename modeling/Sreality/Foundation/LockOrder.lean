import Mathlib.Logic.Relation
import Mathlib.Order.Basic

/-! Locks taken one by one and held to the end: who waits for whom, and that transactions
which each take their rows in ascending order never wait in a circle. -/

set_option autoImplicit false

namespace Sreality.Foundation

variable {Tx Row κ : Type}

/-- A transaction whose next row another one holds. -/
def Waits (wanted : Tx → Option Row) (held : Tx → Row → Prop) (one other : Tx) : Prop :=
  ∃ row, wanted one = some row ∧ held other row

variable [Preorder κ] (order : Row → κ) {wanted : Tx → Option Row} {held : Tx → Row → Prop}

/-- Along a chain of waits the wanted rows ascend. -/
theorem wanted_lt_of_waits
    (ascending : ∀ tx row own, wanted tx = some row → held tx own → order own < order row)
    {one other : Tx} {first last : Row} (chain : Relation.TransGen (Waits wanted held) one other)
    (wantedOne : wanted one = some first) (wantedOther : wanted other = some last) :
    order first < order last := by
  induction chain generalizing last with
  | single waits =>
      obtain ⟨row, next, own⟩ := waits
      rw [wantedOne] at next
      cases next
      exact ascending _ last first wantedOther own
  | tail _ waits ih =>
      obtain ⟨row, next, own⟩ := waits
      exact (ih next).trans (ascending _ last row wantedOther own)

/-- No circle of waits. -/
theorem no_waiting_circle
    (ascending : ∀ tx row own, wanted tx = some row → held tx own → order own < order row)
    (tx : Tx) : ¬ Relation.TransGen (Waits wanted held) tx tx := by
  intro circle
  have wants : ∃ row, wanted tx = some row := by
    obtain ⟨_, ⟨row, next, _⟩, _⟩ := (Relation.TransGen.head'_iff).mp circle
    exact ⟨row, next⟩
  obtain ⟨row, next⟩ := wants
  exact absurd (wanted_lt_of_waits order ascending circle next next) (lt_irrefl _)

end Sreality.Foundation
