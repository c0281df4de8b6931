/-
What a program leaves alone.

A view of the store that no step of a program changes is the same after any run, whatever fails
and whatever the other threads do, as long as these leave the view alone too.
-/

import VaultSearch.Store.Fallible

set_option autoImplicit false

namespace VaultSearch

namespace Fallible

open Acts (act)

variable {label action store frame alpha beta item part : Type}

/-- Every run of a program ends with the view it began with. -/
def Leaves (view : store → part) (body : Fallible label action store alpha) : Prop :=
  ∀ schedule start, view (body schedule start).final = view start

/-- The other threads leave a view alone. -/
def OthersLeave (action : Type) [Acts action store] (view : store → part) : Prop :=
  ∀ (other : action) (here : store), view (act other here) = view here

section Rules

variable {view : store → part}

theorem leaves_ret (value : alpha) :
    Leaves view (ret value : Fallible label action store alpha) :=
  fun _schedule _start => rfl

theorem leaves_raise : Leaves view (raise : Fallible label action store alpha) :=
  fun _schedule _start => rfl

theorem leaves_look (seen : store → alpha) :
    Leaves view (look seen : Fallible label action store alpha) :=
  fun _schedule _start => rfl

theorem Leaves.andThen {first : Fallible label action store alpha}
    {next : alpha → Fallible label action store beta} (before : Leaves view first)
    (after : ∀ value, Leaves view (next value)) : Leaves view (andThen first next) := by
  intro schedule start
  have early := before schedule start
  unfold Fallible.andThen
  cases found : (first schedule start).value with
  | none =>
      simp only [found]
      exact early
  | some value =>
      simp only [found]
      exact (after value schedule _).trans early

theorem Leaves.attempt {body : Fallible label action store alpha} (inside : Leaves view body) :
    Leaves view (attempt body) :=
  fun schedule start => inside schedule start

theorem disturbed_leaves [Acts action store] (others : OthersLeave action view)
    (actions : List action) (start : store) : view (disturbed actions start) = view start := by
  unfold disturbed
  induction actions generalizing start with
  | nil => rfl
  | cons head tail ih =>
      rw [List.foldl_cons, ih]
      exact others head start

theorem leaves_step [Acts action store] (others : OthersLeave action view)
    {name : label} {effect : store → Option (alpha × store)}
    (keeps : ∀ here value later, effect here = some (value, later) → view later = view here) :
    Leaves view (step name effect : Fallible label action store alpha) := by
  intro schedule start
  have meanwhile := disturbed_leaves others (schedule.others name) start
  unfold step
  split
  case isTrue => exact meanwhile
  case isFalse =>
    cases found : effect (disturbed (schedule.others name) start) with
    | none =>
        simp only [found]
        exact meanwhile
    | some pair =>
        simp only [found]
        exact (keeps _ pair.1 pair.2 found).trans meanwhile

theorem leaves_assign [Acts action store] (others : OthersLeave action view)
    {name : label} {change : store → store} (keeps : ∀ here, view (change here) = view here) :
    Leaves view (assign name change : Fallible label action store Unit) :=
  fun schedule start => (keeps _).trans (disturbed_leaves others (schedule.others name) start)

theorem leaves_forEach {body : item → Fallible label action store Unit}
    (each : ∀ entry, Leaves view (body entry)) (items : List item) :
    Leaves view (forEach body items) := by
  induction items with
  | nil => exact leaves_ret ()
  | cons head tail ih => exact (each head).andThen (fun _ => ih)

/-- A fact about the view outlives the program. -/
theorem Leaves.triple {body : Fallible label action store alpha} (inside : Leaves view body)
    (schedule : Schedule label action) (fact : part → Prop) :
    Triple schedule (fun _ => True) (fun here => fact (view here)) body
      (fun _ here => fact (view here)) (fun here => fact (view here)) := by
  intro start holds
  have same := inside schedule start
  constructor
  · intro value _found
    rw [same]
    exact holds
  · constructor
    · intro _failed
      rw [same]
      exact holds
    · exact fun _moment _member => trivial

/-! ### Local variables -/

/-- A view of the store beside local variables. -/
def besideLocals (view : store → part) (pair : store × frame) : part :=
  view pair.1

theorem Leaves.lift {body : Fallible label action store alpha} (inside : Leaves view body) :
    Leaves (besideLocals view) (lift body : Fallible label action (store × frame) alpha) :=
  fun schedule start => inside schedule start.1

theorem leaves_setLocals (change : frame → frame) : Leaves (besideLocals view)
    (setLocals change : Fallible label action (store × frame) Unit) :=
  fun _schedule _start => rfl

theorem Leaves.tryWith {start : frame} {body : Fallible label action (store × frame) alpha}
    {onRaise : frame → Fallible label action store beta}
    {onReturn : alpha → frame → Fallible label action store beta}
    (inside : Leaves (besideLocals view) body) (handled : ∀ here, Leaves view (onRaise here))
    (behind : ∀ value here, Leaves view (onReturn value here)) :
    Leaves view (tryWith start body onRaise onReturn) := by
  intro schedule here
  have early := inside schedule (here, start)
  unfold Fallible.tryWith
  cases found : (body schedule (here, start)).value with
  | none =>
      simp only [found]
      exact (handled _ schedule _).trans early
  | some value =>
      simp only [found]
      exact (behind value _ schedule _).trans early

end Rules

end Fallible

end VaultSearch
