/-
Programs made of atomic steps that can fail, run beside other threads.

A schedule says, by label, which steps raise and what other threads do just before a
step.  A step that raises leaves the store as it found it.  Running a program yields
its value (`none` when an exception leaves it), the final store, and every store
passed through, so that statements can be made about each moment of a run.

`Triple` is a Hoare triple for one schedule with an invariant of every moment; its
precondition has to hold whatever the other threads do.
-/

import Mathlib.Data.List.Basic
import Mathlib.Data.List.Infix

set_option autoImplicit false

namespace VaultSearch

structure Schedule (label action : Type) where
  faults : label → Bool
  /-- what other threads do just before a step, in order -/
  others : label → List action

/-- Actions of other threads on a store. -/
class Acts (action store : Type) where
  act : action → store → store

open Acts (act)

structure Outcome (store alpha : Type) where
  value : Option alpha
  final : store
  passed : List store

def Fallible (label action store alpha : Type) : Type :=
  Schedule label action → store → Outcome store alpha

/-- Local variables are out of reach for other threads. -/
instance {action store frame : Type} [Acts action store] : Acts action (store × frame) where
  act := fun action pair => (act action pair.1, pair.2)

namespace Fallible

variable {label action store frame alpha beta item shape : Type}

/-! ### Programs -/

def ret (value : alpha) : Fallible label action store alpha :=
  fun _ start => { value := some value, final := start, passed := [] }

def raise : Fallible label action store alpha :=
  fun _ start => { value := none, final := start, passed := [] }

def andThen (first : Fallible label action store alpha)
    (next : alpha → Fallible label action store beta) : Fallible label action store beta :=
  fun schedule start =>
    let before := first schedule start
    match before.value with
    | none => { value := none, final := before.final, passed := before.passed }
    | some value =>
        let after := next value schedule before.final
        { after with passed := before.passed ++ after.passed }

instance : Monad (Fallible label action store) where
  pure := ret
  bind := andThen

/-- The stores that the actions of other threads lead through. -/
def meanwhile [Acts action store] : List action → store → List store
  | [], _ => []
  | head :: tail, here => act head here :: meanwhile tail (act head here)

/-- The store after the actions of other threads. -/
def disturbed [Acts action store] (actions : List action) (start : store) : store :=
  actions.foldl (fun here action => act action here) start

/-- One atomic step; `effect` returns `none` when the step is impossible here. -/
def step [Acts action store] (name : label) (effect : store → Option (alpha × store)) :
    Fallible label action store alpha :=
  fun schedule start =>
    let here := disturbed (schedule.others name) start
    let passed := meanwhile (schedule.others name) start
    if schedule.faults name then { value := none, final := here, passed }
    else
      match effect here with
      | none => { value := none, final := here, passed }
      | some (value, later) => { value := some value, final := later, passed := passed ++ [later] }

/-- An assignment, which cannot fail. -/
def assign [Acts action store] (name : label) (change : store → store) :
    Fallible label action store Unit :=
  fun schedule start =>
    let later := change (disturbed (schedule.others name) start)
    { value := some ()
      final := later
      passed := meanwhile (schedule.others name) start ++ [later] }

/-- Read what this thread has just seen or its own variables. -/
def look (view : store → alpha) : Fallible label action store alpha :=
  fun _ start => { value := some (view start), final := start, passed := [] }

/-- `try: body / except Exception: pass`, with the value if there is one. -/
def attempt (body : Fallible label action store alpha) :
    Fallible label action store (Option alpha) :=
  fun schedule start =>
    let outcome := body schedule start
    { value := some outcome.value, final := outcome.final, passed := outcome.passed }

/-- Run a program beside local variables. -/
def lift (body : Fallible label action store alpha) :
    Fallible label action (store × frame) alpha :=
  fun schedule start =>
    let outcome := body schedule start.1
    { value := outcome.value
      final := (outcome.final, start.2)
      passed := outcome.passed.map (fun moment => (moment, start.2)) }

def setLocals (change : frame → frame) : Fallible label action (store × frame) Unit :=
  fun _ start => { value := some (), final := (start.1, change start.2), passed := [] }

def locals : Fallible label action (store × frame) frame :=
  look (fun pair => pair.2)

/-- `try` with local variables: when `body` raises, the handler still sees what the
locals were worth at that moment. -/
def tryWith (start : frame) (body : Fallible label action (store × frame) alpha)
    (onRaise : frame → Fallible label action store beta)
    (onReturn : alpha → frame → Fallible label action store beta) :
    Fallible label action store beta :=
  fun schedule here =>
    let before := body schedule (here, start)
    let after :=
      match before.value with
      | none => onRaise before.final.2 schedule before.final.1
      | some value => onReturn value before.final.2 schedule before.final.1
    { after with passed := before.passed.map (fun pair => pair.1) ++ after.passed }

/-- Run a program for each item in turn. -/
def forEach (body : item → Fallible label action store Unit) :
    List item → Fallible label action store Unit
  | [] => ret ()
  | head :: tail => andThen (body head) (fun _ => forEach body tail)

/-- Two sequences agree that begin alike and go on alike from what the first step returns. -/
theorem andThen_congr {first first' : Fallible label action store alpha}
    {next next' : alpha → Fallible label action store beta} {schedule : Schedule label action}
    {start : store} (same : first schedule start = first' schedule start)
    (later : ∀ value, (first schedule start).value = some value →
      next value schedule (first schedule start).final =
        next' value schedule (first schedule start).final) :
    andThen first next schedule start = andThen first' next' schedule start := by
  unfold andThen
  rw [← same]
  cases found : (first schedule start).value with
  | none => simp only [found]
  | some value => simp only [found, later value found]

theorem andThen_assoc {gamma : Type} (first : Fallible label action store alpha)
    (next : alpha → Fallible label action store beta)
    (last : beta → Fallible label action store gamma) :
    andThen (andThen first next) last = andThen first (fun value => andThen (next value) last) := by
  funext schedule start
  unfold andThen
  cases found : (first schedule start).value with
  | none => simp only [found]
  | some value =>
      simp only [found]
      cases (next value schedule (first schedule start).final).value with
      | none => rfl
      | some other => simp only [List.append_assoc]

/-! ### Triples -/

/-- From a store that satisfies `before`, under one schedule: a value that is returned
satisfies `after` with the final store, the final store of an exception satisfies
`raised`, and every store passed through satisfies `always`. -/
def Triple (schedule : Schedule label action) (always before : store → Prop)
    (body : Fallible label action store alpha) (after : alpha → store → Prop)
    (raised : store → Prop) : Prop :=
  ∀ start, before start →
    (∀ value, (body schedule start).value = some value →
      after value (body schedule start).final) ∧
    ((body schedule start).value = none → raised (body schedule start).final) ∧
    ∀ moment ∈ (body schedule start).passed, always moment

/-- The other threads keep an assertion and the invariant of every moment. -/
def Steady [Acts action store] (schedule : Schedule label action)
    (always before : store → Prop) : Prop :=
  ∀ name, ∀ action ∈ schedule.others name, ∀ here, before here →
    before (act action here) ∧ always (act action here)

section Triples

variable {schedule : Schedule label action} {always before raised : store → Prop}

theorem Triple.weaken {before' raised' : store → Prop} {body : Fallible label action store alpha}
    {after after' : alpha → store → Prop}
    (triple : Triple schedule always before body after raised)
    (stronger : ∀ start, before' start → before start)
    (weaker : ∀ value final, after value final → after' value final)
    (weakerRaised : ∀ final, raised final → raised' final) :
    Triple schedule always before' body after' raised' := by
  intro start holds
  obtain ⟨returned, failed, moments⟩ := triple start (stronger start holds)
  exact ⟨fun value found => weaker _ _ (returned value found),
    fun found => weakerRaised _ (failed found), moments⟩

/-- What is known before a program runs may be used to choose its triple. -/
theorem triple_any (body : Fallible label action store alpha) :
    Triple schedule (fun _ => True) (fun _ => True) body (fun _ _ => True) (fun _ => True) :=
  fun _start _holds => ⟨fun _value _found => trivial, fun _failed => trivial,
    fun _moment _member => trivial⟩

theorem triple_given {known : Prop} {body : Fallible label action store alpha}
    {after : alpha → store → Prop}
    (triple : known → Triple schedule always before body after raised) :
    Triple schedule always (fun here => known ∧ before here) body after raised := by
  rintro start ⟨holds, started⟩
  exact triple holds start started

theorem triple_ret {after : alpha → store → Prop} (value : alpha)
    (holds : ∀ start, before start → after value start) :
    Triple schedule always before (ret value) after raised := by
  intro start started
  refine ⟨?_, ?_, ?_⟩
  · intro other same
    rw [← Option.some.inj same]
    exact holds start started
  · intro impossible
    cases impossible
  · intro moment member
    cases member

theorem triple_raise {after : alpha → store → Prop}
    (holds : ∀ start, before start → raised start) :
    Triple schedule always before (raise : Fallible label action store alpha) after raised := by
  intro start started
  refine ⟨?_, fun _ => holds start started, ?_⟩
  · intro value impossible
    cases impossible
  · intro moment member
    cases member

theorem triple_look {view : store → alpha} {after : alpha → store → Prop}
    (holds : ∀ start, before start → after (view start) start) :
    Triple schedule always before (look view) after raised := by
  intro start started
  refine ⟨?_, ?_, ?_⟩
  · intro value same
    rw [← Option.some.inj same]
    exact holds start started
  · intro impossible
    cases impossible
  · intro moment member
    cases member

theorem triple_andThen {first : Fallible label action store alpha}
    {next : alpha → Fallible label action store beta} {after : beta → store → Prop}
    (middle : alpha → store → Prop)
    (firstTriple : Triple schedule always before first middle raised)
    (nextTriple : ∀ value, Triple schedule always (middle value) (next value) after raised) :
    Triple schedule always before (andThen first next) after raised := by
  intro start started
  obtain ⟨returned, failed, moments⟩ := firstTriple start started
  unfold andThen
  cases found : (first schedule start).value with
  | none =>
      simp only [found]
      refine ⟨?_, fun _ => failed found, moments⟩
      intro value impossible
      cases impossible
  | some value =>
      obtain ⟨laterReturned, laterFailed, laterMoments⟩ := nextTriple value _ (returned value found)
      simp only [found]
      refine ⟨laterReturned, laterFailed, ?_⟩
      intro moment member
      rcases List.mem_append.mp member with early | late
      · exact moments moment early
      · exact laterMoments moment late

theorem disturbed_keeps [Acts action store] {actions : List action}
    (steady : ∀ action ∈ actions, ∀ here, before here →
      before (act action here) ∧ always (act action here)) :
    ∀ start, before start →
      before (disturbed actions start) ∧ ∀ moment ∈ meanwhile actions start, always moment := by
  induction actions with
  | nil =>
      intro start started
      exact ⟨started, by intro moment member; cases member⟩
  | cons head tail ih =>
      intro start started
      obtain ⟨kept, passing⟩ := steady head List.mem_cons_self start started
      obtain ⟨ended, later⟩ :=
        ih (fun action member => steady action (List.mem_cons_of_mem _ member)) _ kept
      refine ⟨ended, ?_⟩
      intro moment member
      rcases List.mem_cons.mp member with same | inside
      · rw [same]
        exact passing
      · exact later moment inside

theorem triple_step [Acts action store] {name : label} {effect : store → Option (alpha × store)}
    {after : alpha → store → Prop} (steady : Steady schedule always before)
    (done : ∀ start value later, before start → schedule.faults name = false →
      effect start = some (value, later) → after value later ∧ always later)
    (failed : ∀ start, before start →
      schedule.faults name = true ∨ effect start = none → raised start) :
    Triple schedule always before (step name effect) after raised := by
  intro start started
  obtain ⟨here, moments⟩ := disturbed_keeps (steady name) start started
  unfold step
  cases broken : schedule.faults name with
  | true =>
      refine ⟨?_, fun _ => failed _ here (Or.inl broken), moments⟩
      intro value impossible
      cases impossible
  | false =>
      cases found : effect (disturbed (schedule.others name) start) with
      | none =>
          simp only [found]
          refine ⟨?_, fun _ => failed _ here (Or.inr found), moments⟩
          intro value impossible
          cases impossible
      | some pair =>
          obtain ⟨ended, kept⟩ := done _ pair.1 pair.2 here broken found
          simp only [found]
          refine ⟨?_, ?_, ?_⟩
          · intro value same
            rw [← Option.some.inj same]
            exact ended
          · intro impossible
            cases impossible
          · intro moment member
            rcases List.mem_append.mp member with early | late
            · exact moments moment early
            · rw [List.mem_singleton.mp late]
              exact kept

theorem triple_assign [Acts action store] {name : label} {change : store → store}
    {after : Unit → store → Prop} (steady : Steady schedule always before)
    (done : ∀ start, before start → after () (change start) ∧ always (change start)) :
    Triple schedule always before (assign name change) after raised := by
  intro start started
  obtain ⟨here, moments⟩ := disturbed_keeps (steady name) start started
  obtain ⟨ended, kept⟩ := done _ here
  refine ⟨fun _ _ => ended, ?_, ?_⟩
  · intro impossible
    cases impossible
  · intro moment member
    rcases List.mem_append.mp member with early | late
    · exact moments moment early
    · rw [List.mem_singleton.mp late]
      exact kept

theorem triple_attempt {body : Fallible label action store alpha}
    {after : Option alpha → store → Prop}
    (triple : Triple schedule always before body (fun value => after (some value)) (after none)) :
    Triple schedule always before (attempt body) after raised := by
  intro start started
  obtain ⟨returned, failed, moments⟩ := triple start started
  refine ⟨?_, ?_, moments⟩
  · intro caught same
    rw [← Option.some.inj same]
    show after (body schedule start).value (body schedule start).final
    cases found : (body schedule start).value with
    | none => exact failed found
    | some value => exact returned value found
  · intro impossible
    cases impossible

/-- A program that leaves the local variables alone. -/
theorem triple_lift {body : Fallible label action store alpha}
    {alwaysPair beforePair raisedPair : store × frame → Prop}
    {after : alpha → store × frame → Prop}
    (triple : ∀ here, Triple schedule (fun moment => alwaysPair (moment, here))
      (fun start => beforePair (start, here)) body
      (fun value final => after value (final, here)) (fun final => raisedPair (final, here))) :
    Triple schedule alwaysPair beforePair (lift body) after raisedPair := by
  intro start started
  obtain ⟨returned, failed, moments⟩ := triple start.2 start.1 started
  refine ⟨returned, failed, ?_⟩
  intro moment member
  obtain ⟨inner, present, same⟩ := List.mem_map.mp member
  rw [← same]
  exact moments inner present

theorem triple_setLocals {change : frame → frame}
    {alwaysPair beforePair raisedPair : store × frame → Prop}
    {after : Unit → store × frame → Prop}
    (done : ∀ start here, beforePair (start, here) → after () (start, change here)) :
    Triple schedule alwaysPair beforePair
      (setLocals change : Fallible label action (store × frame) Unit) after raisedPair := by
  intro start started
  refine ⟨fun _ _ => done start.1 start.2 started, ?_, ?_⟩
  · intro impossible
    cases impossible
  · intro moment member
    cases member

theorem triple_tryWith {start : frame} {body : Fallible label action (store × frame) alpha}
    {onRaise : frame → Fallible label action store beta}
    {onReturn : alpha → frame → Fallible label action store beta}
    {after : beta → store → Prop} (middle : alpha → store × frame → Prop)
    (broken : store × frame → Prop)
    (inside : Triple schedule (fun pair => always pair.1)
      (fun pair => before pair.1 ∧ pair.2 = start) body middle broken)
    (handled : ∀ here, Triple schedule always (fun store => broken (store, here))
      (onRaise here) after raised)
    (behind : ∀ value here, Triple schedule always (fun store => middle value (store, here))
      (onReturn value here) after raised) :
    Triple schedule always before (tryWith start body onRaise onReturn) after raised := by
  intro first started
  obtain ⟨returned, failed, moments⟩ := inside (first, start) ⟨started, rfl⟩
  have early : ∀ moment ∈ (body schedule (first, start)).passed.map (fun pair => pair.1),
      always moment := by
    intro moment member
    obtain ⟨pair, present, same⟩ := List.mem_map.mp member
    rw [← same]
    exact moments pair present
  unfold tryWith
  cases found : (body schedule (first, start)).value with
  | none =>
      obtain ⟨laterReturned, laterFailed, late⟩ := handled _ _ (failed found)
      simp only [found]
      refine ⟨laterReturned, laterFailed, ?_⟩
      intro moment member
      rcases List.mem_append.mp member with former | latter
      · exact early moment former
      · exact late moment latter
  | some value =>
      obtain ⟨laterReturned, laterFailed, late⟩ := behind value _ _ (returned value found)
      simp only [found]
      refine ⟨laterReturned, laterFailed, ?_⟩
      intro moment member
      rcases List.mem_append.mp member with former | latter
      · exact early moment former
      · exact late moment latter

/-- The invariant speaks about the items that are left. -/
theorem triple_forEach {body : item → Fallible label action store Unit}
    (invariant : List item → store → Prop) (items : List item)
    (keeps : ∀ entry rest, (∃ front, items = front ++ entry :: rest) →
      Triple schedule always (invariant (entry :: rest)) (body entry)
        (fun _ final => invariant rest final) raised) :
    Triple schedule always (invariant items) (forEach body items)
      (fun _ final => invariant [] final) raised := by
  induction items with
  | nil => exact triple_ret () (fun _ started => started)
  | cons head tail ih =>
      refine triple_andThen (fun _ => invariant tail) (keeps head tail ⟨[], rfl⟩) ?_
      intro _
      refine ih ?_
      rintro entry rest ⟨front, split⟩
      exact keeps entry rest ⟨head :: front, by rw [split]; rfl⟩

/-- Two triples of one program hold together. -/
theorem Triple.both {body : Fallible label action store alpha} {after : alpha → store → Prop}
    {always' before' raised' : store → Prop} {after' : alpha → store → Prop}
    (left : Triple schedule always before body after raised)
    (right : Triple schedule always' before' body after' raised') :
    Triple schedule (fun here => always here ∧ always' here)
      (fun here => before here ∧ before' here) body
      (fun value here => after value here ∧ after' value here)
      (fun here => raised here ∧ raised' here) := by
  intro start started
  obtain ⟨returned, failed, moments⟩ := left start started.1
  obtain ⟨returned', failed', moments'⟩ := right start started.2
  exact ⟨fun value found => ⟨returned value found, returned' value found⟩,
    fun found => ⟨failed found, failed' found⟩,
    fun moment member => ⟨moments moment member, moments' moment member⟩⟩

/-- From one fixed store, the outcome itself. -/
theorem Triple.exactly {body : Fallible label action store alpha} {after : alpha → store → Prop}
    (triple : Triple schedule always before body after raised) (start : store)
    (started : before start) :
    Triple schedule always (fun here => here = start) body
      (fun value here => after value here ∧ (body schedule start).value = some value ∧
        (body schedule start).final = here)
      (fun here => raised here ∧ (body schedule start).value = none ∧
        (body schedule start).final = here) := by
  intro here same
  subst same
  obtain ⟨returned, failed, moments⟩ := triple here started
  exact ⟨fun value found => ⟨returned value found, found, rfl⟩,
    fun found => ⟨failed found, found, rfl⟩, moments⟩

end Triples

end Fallible

end VaultSearch
