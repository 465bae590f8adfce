import Mathlib.Data.List.Induction

/-! Histories that grow by an event: what each event owes to those before it. -/

set_option autoImplicit false

namespace Sreality.Foundation

variable {Event : Type}

/-- Every event fits what was before it. -/
def EachFits (fits : List Event → Event → Prop) (history : List Event) : Prop :=
  ∀ earlier event later, history = earlier ++ event :: later → fits earlier event

namespace EachFits

variable {fits : List Event → Event → Prop} {history : List Event}

theorem nil : EachFits fits [] := by
  intro earlier event later split
  cases earlier <;> cases split

theorem concat (each : EachFits fits history) {event : Event} (last : fits history event) :
    EachFits fits (history ++ [event]) := by
  intro earlier one later split
  induction later using List.reverseRecOn with
  | nil =>
      obtain ⟨same, final⟩ := List.append_inj' split rfl
      rw [← same, ← (List.cons.inj final).1]
      exact last
  | append_singleton rest final _ =>
      rw [← List.cons_append, ← List.append_assoc] at split
      obtain ⟨same, _⟩ := List.append_inj' split rfl
      exact each earlier one rest same

end EachFits

end Sreality.Foundation
