/-
Tasks in dialogue with one store, which take turns question by question.

Tasks that are not done yet touch disjoint places, so that a question commutes with all that the
other tasks still do.  What is answered and what is left is then as if the tasks had run one after
the other, in the order in which they began.
-/

import VaultSearch.Store.Dialogue

set_option autoImplicit false

namespace VaultSearch

/-- A program, what its questions do, and the places that it touches. -/
structure Task (request : Type) (response : request → Type) (result place cell : Type) where
  storage : Storage request response place cell
  footprint : Set place
  program : Dialogue request response result
  within : Dialogue.Within storage footprint program

namespace Dialogue

variable {request : Type} {response : request → Type} {result place cell : Type}
  {storage other : Storage request response place cell} {footprint : Set place}

def outcome? : Dialogue request response result → Option result
  | .done value => some value
  | .ask _ _ => none

theorem Within.named {question : request}
    {next : response question → Dialogue request response result}
    (within : Within storage footprint (.ask question next)) :
    ∀ here ∈ storage.places question, here ∈ footprint := by
  cases within with
  | ask named _rest => exact named

theorem Within.rest {question : request}
    {next : response question → Dialogue request response result}
    (within : Within storage footprint (.ask question next))
    (answer : response question) : Within storage footprint (next answer) := by
  cases within with
  | ask _named rest => exact rest answer

/-- A question about other places may be asked before the program or after it. -/
theorem run_perform {program : Dialogue request response result}
    (within : Within storage footprint program) {question : request}
    (apart : ∀ here ∈ other.places question, here ∉ footprint) (contents : place → cell) :
    program.run storage (other.perform question contents).2 =
        ((program.run storage contents).1,
          (other.perform question (program.run storage contents).2).2) ∧
      (other.perform question (program.run storage contents).2).1 =
        (other.perform question contents).1 := by
  have unseen : Agree footprint (other.perform question contents).2 contents :=
    fun here member =>
      other.untouched question contents here (fun named => apart here named member)
  obtain ⟨sameValue, sameInside⟩ := run_agree within unseen
  have kept : ∀ here ∈ other.places question,
      (program.run storage contents).2 here = contents here :=
    fun here named => run_outside within contents here (apart here named)
  obtain ⟨sameAnswer, sameThere⟩ :=
    other.depends question (program.run storage contents).2 contents kept
  constructor
  · apply Prod.ext
    · exact sameValue
    · funext here
      dsimp only
      by_cases named : here ∈ other.places question
      · rw [sameThere here named, run_outside within _ here (apart here named)]
      · rw [other.untouched question _ here named]
        by_cases inside : here ∈ footprint
        · exact sameInside here inside
        · rw [run_outside within _ here inside, run_outside within _ here inside,
            other.untouched question _ here named]
  · exact sameAnswer

end Dialogue

namespace Task

variable {request : Type} {response : request → Type} {result place cell : Type}

/-- The task asks its next question. -/
def next (task : Task request response result place cell) (contents : place → cell) :
    Option (Task request response result place cell × (place → cell)) :=
  match task with
  | { program := .done _, .. } => none
  | { storage, footprint, program := .ask question rest, within } =>
      some ({ storage, footprint
              program := rest (storage.perform question contents).1
              within := within.rest _ },
        (storage.perform question contents).2)

/-- What the tasks answer and leave, one after the other. -/
def runAll : List (Task request response result place cell) → (place → cell) →
    List result × (place → cell)
  | [], contents => ([], contents)
  | task :: later, contents =>
      let (value, after) := task.program.run task.storage contents
      let (values, final) := runAll later after
      (value :: values, final)

theorem runAll_cons (task : Task request response result place cell)
    (later : List (Task request response result place cell)) (contents : place → cell) :
    runAll (task :: later) contents =
      ((task.program.run task.storage contents).1 ::
          (runAll later (task.program.run task.storage contents).2).1,
        (runAll later (task.program.run task.storage contents).2).2) :=
  rfl

theorem runAll_append (earlier later : List (Task request response result place cell)) :
    ∀ contents : place → cell, runAll (earlier ++ later) contents =
      ((runAll earlier contents).1 ++ (runAll later (runAll earlier contents).2).1,
        (runAll later (runAll earlier contents).2).2) := by
  induction earlier with
  | nil => exact fun _contents => rfl
  | cons task earlier ih =>
      intro contents
      rw [List.cons_append, runAll_cons, runAll_cons, ih]
      rfl

/-- A question of one task is about places that another one does not touch any more. -/
def Spares (task : Task request response result place cell)
    (storage : Storage request response place cell) (question : request) : Prop :=
  task.program.outcome? = none → ∀ here ∈ storage.places question, here ∉ task.footprint

theorem run_perform {task : Task request response result place cell}
    {storage : Storage request response place cell} {question : request}
    (spares : task.Spares storage question) (contents : place → cell) :
    task.program.run task.storage (storage.perform question contents).2 =
        ((task.program.run task.storage contents).1,
          (storage.perform question (task.program.run task.storage contents).2).2) ∧
      (storage.perform question (task.program.run task.storage contents).2).1 =
        (storage.perform question contents).1 := by
  cases shape : task.program with
  | done value => exact ⟨rfl, rfl⟩
  | ask first rest =>
      rw [← shape]
      apply Dialogue.run_perform task.within
      exact spares (by rw [shape]; rfl)

theorem runAll_perform {storage : Storage request response place cell} {question : request}
    {tasks : List (Task request response result place cell)}
    (spare : ∀ task ∈ tasks, task.Spares storage question) :
    ∀ contents : place → cell,
      runAll tasks (storage.perform question contents).2 =
          ((runAll tasks contents).1,
            (storage.perform question (runAll tasks contents).2).2) ∧
        (storage.perform question (runAll tasks contents).2).1 =
          (storage.perform question contents).1 := by
  induction tasks with
  | nil => exact fun _contents => ⟨rfl, rfl⟩
  | cons task later ih =>
      intro contents
      obtain ⟨moved, sameAnswer⟩ := run_perform (spare task List.mem_cons_self) contents
      obtain ⟨movedLater, sameLater⟩ :=
        ih (fun other member => spare other (List.mem_cons_of_mem _ member))
          (task.program.run task.storage contents).2
      constructor
      · rw [runAll_cons, runAll_cons, moved, movedLater]
      · rw [runAll_cons]
        exact sameLater.trans sameAnswer

/-! ### Sessions -/

/-- Two tasks that are not done touch no place in common. -/
def Apart (left right : Task request response result place cell) : Prop :=
  left.program.outcome? = none → right.program.outcome? = none →
    ∀ here ∈ left.footprint, here ∉ right.footprint

theorem Apart.symm {left right : Task request response result place cell}
    (apart : Apart left right) : Apart right left :=
  fun rightOpen leftOpen here member other => apart leftOpen rightOpen here other member

/-- `rests` is what is left of the tasks: if they went on one after the other, all would be as if
they had run one after the other from the beginning. -/
structure Serial (initial : place → cell)
    (tasks rests : List (Task request response result place cell)) (contents : place → cell) :
    Prop where
  apart : rests.Pairwise Apart
  same : runAll rests contents = runAll tasks initial

theorem serial_empty (initial : place → cell) :
    Serial initial ([] : List (Task request response result place cell)) []
      initial :=
  ⟨List.Pairwise.nil, rfl⟩

/-- What one question does to the task and to the store. -/
theorem next_some {task later : Task request response result place cell}
    {contents after : place → cell} (asked : task.next contents = some (later, after)) :
    ∃ question rest, task.program = .ask question rest ∧ later.storage = task.storage ∧
      later.footprint = task.footprint ∧
      later.program = rest (task.storage.perform question contents).1 ∧
      after = (task.storage.perform question contents).2 := by
  obtain ⟨storage, footprint, program, within⟩ := task
  cases program with
  | done value => cases asked
  | ask question rest =>
      cases asked
      exact ⟨question, rest, rfl, rfl, rfl, rfl, rfl⟩

/-- A task that is not done when it has asked a question was not done before. -/
theorem Apart.next {task later other : Task request response result place cell}
    {contents after : place → cell} (asked : task.next contents = some (later, after))
    (apart : Apart task other) : Apart later other := by
  obtain ⟨question, rest, shape, _sameStorage, sameFootprint, _program, _after⟩ := next_some asked
  intro _laterOpen otherOpen
  rw [sameFootprint]
  exact apart (by rw [shape]; rfl) otherOpen

theorem Apart.spares {task other : Task request response result place cell}
    {question : request} {rest : response question → Dialogue request response result}
    (shape : task.program = .ask question rest) (apart : Apart other task) :
    other.Spares task.storage question := by
  intro otherOpen here named member
  have within := task.within
  rw [shape] at within
  exact apart otherOpen (by rw [shape]; rfl) here member (within.named here named)

namespace Serial

variable {initial contents after : place → cell}
  {tasks rests : List (Task request response result place cell)}

theorem begin (serial : Serial initial tasks rests contents)
    {task : Task request response result place cell} (apart : ∀ rest ∈ rests, Apart rest task) :
    Serial initial (tasks ++ [task]) (rests ++ [task]) contents := by
  constructor
  · rw [List.pairwise_append]
    refine ⟨serial.apart, List.pairwise_singleton _ _, ?_⟩
    intro rest member other isTask
    rw [List.mem_singleton.mp isTask]
    exact apart rest member
  · rw [runAll_append, runAll_append, serial.same]

theorem ask (serial : Serial initial tasks rests contents) {index : Nat}
    {task later : Task request response result place cell} (found : rests[index]? = some task)
    (asked : task.next contents = some (later, after)) :
    Serial initial tasks (rests.set index later) after := by
  obtain ⟨inRange, isTask⟩ := List.getElem?_eq_some_iff.mp found
  obtain ⟨front, back, split, _length, replaced⟩ := @List.exists_of_set _ _ later _ inRange
  rw [isTask] at split
  have apart := serial.apart
  have same := serial.same
  rw [split] at apart same
  rw [List.pairwise_append] at apart
  obtain ⟨frontApart, backApart, across⟩ := apart
  obtain ⟨taskApart, backApart⟩ := List.pairwise_cons.mp backApart
  rw [replaced]
  constructor
  · rw [List.pairwise_append, List.pairwise_cons]
    refine ⟨frontApart, ⟨fun rest member => (taskApart rest member).next asked, backApart⟩, ?_⟩
    intro rest member next isNext
    rcases List.mem_cons.mp isNext with isLater | behind
    · rw [isLater]
      exact ((across rest member task List.mem_cons_self).symm.next asked).symm
    · exact across rest member next (List.mem_cons_of_mem _ behind)
  · obtain ⟨question, rest, shape, sameStorage, _sameFootprint, program, isAfter⟩ :=
      next_some asked
    have spare : ∀ other ∈ front, other.Spares task.storage question :=
      fun other member => (across other member task List.mem_cons_self).spares shape
    obtain ⟨moved, sameAnswer⟩ := runAll_perform spare contents
    rw [← same, runAll_append, runAll_append, isAfter, moved, runAll_cons, runAll_cons,
      sameStorage, program, shape]
    dsimp only [Dialogue.run]
    rw [sameAnswer]

/-- When all tasks are done, their results and the store are those of running them one after the
other. -/
theorem ended (serial : Serial initial tasks rests contents)
    (done : ∀ rest ∈ rests, rest.program.outcome?.isSome) :
    rests.map (fun rest => rest.program.outcome?) = (runAll tasks initial).1.map some ∧
      contents = (runAll tasks initial).2 := by
  rw [← serial.same]
  clear serial
  induction rests with
  | nil => exact ⟨rfl, rfl⟩
  | cons rest later ih =>
      obtain ⟨results, left⟩ := ih (fun other member => done other (List.mem_cons_of_mem _ member))
      obtain ⟨value, isValue⟩ := Option.isSome_iff_exists.mp (done rest List.mem_cons_self)
      have shape : rest.program = .done value := by
        cases program : rest.program with
        | done other =>
            rw [program] at isValue
            cases isValue
            rfl
        | ask question next =>
            rw [program] at isValue
            cases isValue
      rw [runAll_cons, shape, List.map_cons, List.map_cons, isValue]
      dsimp only [Dialogue.run]
      exact ⟨congrArg _ results, left⟩

end Serial

end Task

end VaultSearch
