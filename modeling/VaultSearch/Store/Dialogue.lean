/-
Programs in dialogue with a shared store, which they ask one question after the other.

A program is a tree: every question has one branch for each answer.  What it does depends
on the store it runs against only through the answers, and each question names the places
it reads or changes.
-/

import Mathlib.Data.List.Basic
import Mathlib.Data.Set.Basic

set_option autoImplicit false

namespace VaultSearch

inductive Dialogue (request : Type) (response : request → Type) (result : Type) where
  | done (value : result)
  | ask (question : request) (next : response question → Dialogue request response result)

/-- What the questions do to the cells of a store, and the places they name. -/
structure Storage (request : Type) (response : request → Type) (place cell : Type) where
  perform : (question : request) → (place → cell) → response question × (place → cell)
  places : request → List place
  /-- a question changes nothing but the places it names -/
  untouched : ∀ question contents other, other ∉ places question →
    (perform question contents).2 other = contents other
  /-- and what it answers and leaves there depends on them alone -/
  depends : ∀ question contents contents',
    (∀ here ∈ places question, contents here = contents' here) →
      (perform question contents).1 = (perform question contents').1 ∧
        ∀ here ∈ places question,
          (perform question contents).2 here = (perform question contents').2 here

namespace Dialogue

variable {request : Type} {response : request → Type} {result final place cell : Type}

def bind (first : Dialogue request response result)
    (next : result → Dialogue request response final) : Dialogue request response final :=
  match first with
  | .done value => next value
  | .ask question rest => .ask question (fun answer => (rest answer).bind next)

variable (storage : Storage request response place cell)

/-- The result, and the store that the program leaves when nothing interferes. -/
def run : Dialogue request response result → (place → cell) → result × (place → cell)
  | .done value, contents => (value, contents)
  | .ask question next, contents =>
      (next (storage.perform question contents).1).run (storage.perform question contents).2

/-- The questions that the program asks when nothing interferes. -/
def questions : Dialogue request response result → (place → cell) → List request
  | .done _, _ => []
  | .ask question next, contents =>
      question :: (next (storage.perform question contents).1).questions
        (storage.perform question contents).2

/-- What is left of the program after so many questions, and the store at that moment. -/
def advance :
    Nat → Dialogue request response result → (place → cell) →
      Dialogue request response result × (place → cell)
  | 0, program, contents => (program, contents)
  | _ + 1, .done value, contents => (.done value, contents)
  | count + 1, .ask question next, contents =>
      advance count (next (storage.perform question contents).1)
        (storage.perform question contents).2

/-- The run in which something else changes the store before one of the questions. -/
def interrupted (program : Dialogue request response result) (count : Nat)
    (change : (place → cell) → (place → cell)) (contents : place → cell) :
    result × (place → cell) :=
  (advance storage count program contents).1.run storage
    (change (advance storage count program contents).2)

variable {storage}

theorem questions_advance (count : Nat) :
    ∀ (program : Dialogue request response result) (contents : place → cell),
      (advance storage count program contents).1.questions storage
        (advance storage count program contents).2 =
          (program.questions storage contents).drop count := by
  induction count with
  | zero => exact fun _program _contents => rfl
  | succ count ih =>
      intro program contents
      cases program with
      | done value => rfl
      | ask question next => exact ih _ _

theorem run_advance (count : Nat) :
    ∀ (program : Dialogue request response result) (contents : place → cell),
      (advance storage count program contents).1.run storage
        (advance storage count program contents).2 = program.run storage contents := by
  induction count with
  | zero => exact fun _program _contents => rfl
  | succ count ih =>
      intro program contents
      cases program with
      | done value => rfl
      | ask question next => exact ih _ _

/-! ### Footprints -/

/-- Two stores that agree on some places. -/
def Agree (footprint : Set place) (contents contents' : place → cell) : Prop :=
  ∀ here ∈ footprint, contents here = contents' here

variable (storage) in
/-- Every question the program may ask names places of the footprint only. -/
inductive Within (footprint : Set place) : Dialogue request response result → Prop where
  | done (value : result) : Within footprint (.done value)
  | ask {question : request} {next : response question → Dialogue request response result}
      (named : ∀ here ∈ storage.places question, here ∈ footprint)
      (rest : ∀ answer, Within footprint (next answer)) : Within footprint (.ask question next)

/-- One question of a program within a footprint, asked of two stores that agree there. -/
theorem perform_agree {footprint : Set place} {question : request}
    {contents contents' : place → cell}
    (named : ∀ here ∈ storage.places question, here ∈ footprint)
    (agree : Agree footprint contents contents') :
    (storage.perform question contents).1 = (storage.perform question contents').1 ∧
      Agree footprint (storage.perform question contents).2
        (storage.perform question contents').2 := by
  obtain ⟨sameAnswer, sameThere⟩ :=
    storage.depends question contents contents' (fun here member => agree here (named here member))
  refine ⟨sameAnswer, ?_⟩
  intro here member
  by_cases touched : here ∈ storage.places question
  · exact sameThere here touched
  · rw [storage.untouched question contents here touched,
      storage.untouched question contents' here touched]
    exact agree here member

theorem perform_outside {footprint : Set place} {question : request} {contents : place → cell}
    (named : ∀ here ∈ storage.places question, here ∈ footprint) {other : place}
    (outside : other ∉ footprint) :
    (storage.perform question contents).2 other = contents other :=
  storage.untouched question contents other (fun inside => outside (named other inside))

/-- A program sees and changes its footprint only. -/
theorem run_agree {footprint : Set place} {program : Dialogue request response result}
    (within : Within storage footprint program) :
    ∀ {contents contents' : place → cell}, Agree footprint contents contents' →
      (program.run storage contents).1 = (program.run storage contents').1 ∧
        Agree footprint (program.run storage contents).2 (program.run storage contents').2 := by
  induction within with
  | done value =>
      intro contents contents' agree
      exact ⟨rfl, agree⟩
  | ask named _rest ih =>
      intro contents contents' agree
      obtain ⟨sameAnswer, later⟩ := perform_agree named agree
      unfold run
      rw [sameAnswer]
      exact ih _ later

theorem run_outside {footprint : Set place} {program : Dialogue request response result}
    (within : Within storage footprint program) :
    ∀ (contents : place → cell) (other : place), other ∉ footprint →
      (program.run storage contents).2 other = contents other := by
  induction within with
  | done value => exact fun _contents _other _outside => rfl
  | ask named _rest ih =>
      intro contents other outside
      unfold run
      rw [ih _ _ other outside, perform_outside named outside]

/-! ### The questions of a program -/

/-- Every question the program may ask is an allowed one. -/
inductive Asks (allowed : request → Prop) : Dialogue request response result → Prop where
  | done (value : result) : Asks allowed (.done value)
  | ask {question : request} {next : response question → Dialogue request response result}
      (isAllowed : allowed question)
      (rest : ∀ answer, Asks allowed (next answer)) : Asks allowed (.ask question next)

theorem Asks.within {footprint : Set place} {program : Dialogue request response result}
    (asks : Asks (fun question => ∀ here ∈ storage.places question, here ∈ footprint) program) :
    Within storage footprint program := by
  induction asks with
  | done value => exact .done value
  | ask isAllowed _rest ih => exact .ask isAllowed ih

/-- What every allowed question keeps, the program keeps. -/
theorem Asks.run_keeps {allowed : request → Prop} {invariant : (place → cell) → Prop}
    (kept : ∀ question contents, allowed question → invariant contents →
      invariant (storage.perform question contents).2)
    {program : Dialogue request response result} (asks : Asks allowed program) :
    ∀ {contents : place → cell}, invariant contents →
      invariant (program.run storage contents).2 := by
  induction asks with
  | done value => exact fun holds => holds
  | ask isAllowed _rest ih =>
      intro contents holds
      exact ih _ (kept _ contents isAllowed holds)

end Dialogue

end VaultSearch
