import Mathlib.Data.List.Basic

/-! Runs of a machine whose actions are enabled or not: the states reached when every
step meets a condition, and the rule that carries an invariant along them. -/

set_option autoImplicit false

namespace Sreality.Foundation

variable {State Action : Type}

/-- The states reached from `start` by enabled actions, each allowed where it was taken. -/
inductive Reaches (step : State → Action → Option State) (allowed : State → Action → Prop)
    (start : State) : State → Prop where
  | start : Reaches step allowed start start
  | next {state after : State} {action : Action} (earlier : Reaches step allowed start state)
      (fit : allowed state action) (taken : step state action = some after) :
      Reaches step allowed start after

namespace Reaches

variable {step : State → Action → Option State} {allowed : State → Action → Prop}
  {start state after : State}

/-- What holds at the start and is kept by each allowed step holds of every state reached. -/
theorem invariant (holds : State → Prop) (initial : holds start)
    (keeps : ∀ state action after, holds state → allowed state action →
      step state action = some after → holds after)
    (reached : Reaches step allowed start state) : holds state := by
  induction reached with
  | start => exact initial
  | next _ fit taken ih => exact keeps _ _ _ ih fit taken

theorem mono {wider : State → Action → Prop}
    (weaker : ∀ state action, allowed state action → wider state action)
    (reached : Reaches step allowed start state) : Reaches step wider start state := by
  induction reached with
  | start => exact .start
  | next _ fit taken ih => exact .next ih (weaker _ _ fit) taken

theorem trans {middle : State} (first : Reaches step allowed start middle)
    (second : Reaches step allowed middle state) : Reaches step allowed start state := by
  induction second with
  | start => exact first
  | next _ fit taken ih => exact .next ih fit taken

end Reaches

/-- The state after a list of actions, none when one of them is not enabled. -/
def replay (step : State → Action → Option State) : State → List Action → Option State
  | state, [] => some state
  | state, action :: rest => (step state action).bind fun after => replay step after rest

/-- Every action of the list is allowed where it is taken. -/
def allowedAll (step : State → Action → Option State) (allowed : State → Action → Prop) :
    State → List Action → Prop
  | _, [] => True
  | state, action :: rest =>
      allowed state action ∧ ∀ after ∈ step state action, allowedAll step allowed after rest

instance decidableAllowedAll (step : State → Action → Option State)
    (allowed : State → Action → Prop) [∀ state action, Decidable (allowed state action)] :
    ∀ (state : State) (actions : List Action), Decidable (allowedAll step allowed state actions)
  | _, [] => .isTrue trivial
  | state, action :: rest =>
      have := fun after => decidableAllowedAll step allowed after rest
      match taken : step state action with
      | none => decidable_of_iff (allowed state action) (by simp [allowedAll, taken])
      | some after =>
          decidable_of_iff (allowed state action ∧ allowedAll step allowed after rest)
            (by simp [allowedAll, taken])

theorem allowedAll_true (step : State → Action → Option State) :
    ∀ (state : State) (actions : List Action),
      allowedAll step (fun _ _ => True) state actions
  | _, [] => trivial
  | _, _ :: rest => ⟨trivial, fun after _ => allowedAll_true step after rest⟩

theorem reaches_of_replay {step : State → Action → Option State}
    {allowed : State → Action → Prop} :
    ∀ {actions : List Action} {start final : State}, replay step start actions = some final →
      allowedAll step allowed start actions → Reaches step allowed start final
  | [], start, final, replayed, _ => by
      cases replayed
      exact .start
  | action :: rest, start, final, replayed, fit => by
      cases taken : step start action with
      | none => simp [replay, taken] at replayed
      | some after =>
          have onward : replay step after rest = some final := by
            simpa [replay, taken] using replayed
          have first : Reaches step allowed start after := .next .start fit.1 taken
          exact first.trans (reaches_of_replay onward (fit.2 after taken))

/-! ### Steps that may be refused -/

section Refused

variable {Refusal Value After : Type}

theorem bind_eq_ok {first : Except Refusal Value} {next : Value → Except Refusal After}
    {after : After} (done : first >>= next = .ok after) :
    ∃ value, first = .ok value ∧ next value = .ok after := by
  cases first with
  | error refusal => cases done
  | ok value => exact ⟨value, rfl, done⟩

/-- What each step keeps holds after a list of them, none refused. -/
theorem foldlM_invariant {step : State → Value → Except Refusal State} {values : List Value}
    (holds : State → Prop)
    (keeps : ∀ state value after, holds state → step state value = .ok after → holds after)
    {start final : State} (initial : holds start) (done : values.foldlM step start = .ok final) :
    holds final := by
  induction values generalizing start with
  | nil =>
      cases done
      exact initial
  | cons value rest ih =>
      rw [List.foldlM_cons] at done
      obtain ⟨middle, first, onward⟩ := bind_eq_ok done
      exact ih (keeps start value middle initial first) onward

/-- A list read by what reads each of its values. -/
theorem mapM_eq_some {read : Value → Option After} {value : Value → After} {values : List Value}
    (reads : ∀ item ∈ values, read item = some (value item)) :
    values.mapM read = some (values.map value) := by
  induction values with
  | nil => rfl
  | cons item rest ih =>
      have later := ih fun other listed => reads other (List.mem_cons_of_mem _ listed)
      rw [List.mapM_cons, reads item List.mem_cons_self, later]
      rfl

end Refused

end Sreality.Foundation
