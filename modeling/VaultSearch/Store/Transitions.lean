/-
Machines whose steps are not always possible: their runs, and what all steps of a run keep.
-/

import Mathlib.Data.List.Basic

set_option autoImplicit false

namespace VaultSearch

namespace Transitions

variable {state event : Type} (step : state → event → Option state)

/-- `none` when one of the events is not possible. -/
def run : state → List event → Option state
  | current, [] => some current
  | current, next :: rest =>
      match step current next with
      | none => none
      | some after => run after rest

/-- Every event of the run meets the condition in the state it finds. -/
def Each (condition : state → event → Prop) : state → List event → Prop
  | _, [] => True
  | current, next :: rest =>
      condition current next ∧
        match step current next with
        | none => True
        | some after => Each condition after rest

instance decidableEach {condition : state → event → Prop}
    [decision : ∀ current next, Decidable (condition current next)] :
    ∀ current events, Decidable (Each step condition current events)
  | _, [] => isTrue trivial
  | current, next :: rest =>
      have : Decidable (match step current next with
          | none => True
          | some after => Each step condition after rest) :=
        match step current next with
        | none => isTrue trivial
        | some after => decidableEach after rest
      inferInstanceAs (Decidable (_ ∧ _))

variable {step}

theorem run_cons {current final : state} {next : event} {rest : List event}
    (ran : run step current (next :: rest) = some final) :
    ∃ after, step current next = some after ∧ run step after rest = some final := by
  unfold run at ran
  cases taken : step current next with
  | none =>
      rw [taken] at ran
      cases ran
  | some after =>
      rw [taken] at ran
      exact ⟨after, rfl, ran⟩

theorem each_cons {condition : state → event → Prop} {current after : state} {next : event}
    {rest : List event} (taken : step current next = some after)
    (each : Each step condition current (next :: rest)) :
    condition current next ∧ Each step condition after rest := by
  obtain ⟨here, later⟩ := each
  rw [taken] at later
  exact ⟨here, later⟩

theorem each_trivial {events : List event} {current : state} :
    Each step (fun _current _next => True) current events := by
  induction events generalizing current with
  | nil => trivial
  | cons next rest ih =>
      apply And.intro trivial
      cases step current next with
      | none => trivial
      | some after => exact ih

theorem each_congr {condition other : state → event → Prop}
    (same : ∀ current next, condition current next ↔ other current next)
    {events : List event} {current : state} :
    Each step condition current events ↔ Each step other current events := by
  induction events generalizing current with
  | nil => rfl
  | cons next rest ih =>
      unfold Each
      rw [same current next]
      cases step current next with
      | none => rfl
      | some after => exact and_congr_right (fun _met => ih)

/-- What each step keeps, if it meets the condition, holds at the end of the run. -/
theorem run_keeps {condition : state → event → Prop} {invariant : state → Prop}
    (kept : ∀ {current after : state} {next : event}, invariant current →
      condition current next → step current next = some after → invariant after)
    {events : List event} {current final : state} (holds : invariant current)
    (each : Each step condition current events)
    (ran : run step current events = some final) : invariant final := by
  induction events generalizing current with
  | nil =>
      cases ran
      exact holds
  | cons next rest ih =>
      obtain ⟨after, taken, later⟩ := run_cons ran
      obtain ⟨met, eachLater⟩ := each_cons taken each
      exact ih (kept holds met taken) eachLater later

end Transitions

end VaultSearch
