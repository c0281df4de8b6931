/-
Programs that keep a state, may raise, and ask the outside world.

What the world answers is not part of the program: a transcript lists the questions of one run
with their answers, and every list of answers is possible.
-/

import VaultSearch.Store.Dialogue

set_option autoImplicit false

namespace VaultSearch

namespace Dialogue

variable {request : Type} {response : request → Type} {result final : Type}

/-- A question of a run with its answer. -/
abbrev Exchange (request : Type) (response : request → Type) : Type :=
  (question : request) × response question

inductive Transcript :
    Dialogue request response result → List (Exchange request response) → result → Prop where
  | done (value : result) : Transcript (.done value) [] value
  | ask {question : request} {next : response question → Dialogue request response result}
      {exchanges : List (Exchange request response)} {value : result}
      (answer : response question) (rest : Transcript (next answer) exchanges value) :
      Transcript (.ask question next) (⟨question, answer⟩ :: exchanges) value

theorem transcript_bind {first : Dialogue request response result}
    {next : result → Dialogue request response final} {value : final} :
    ∀ {exchanges : List (Exchange request response)},
      Transcript (first.bind next) exchanges value ↔
        ∃ earlier later middle, exchanges = earlier ++ later ∧
          Transcript first earlier middle ∧ Transcript (next middle) later value := by
  induction first with
  | done middle =>
      intro exchanges
      constructor
      · intro ran
        exact ⟨[], exchanges, middle, rfl, .done middle, ran⟩
      · intro parts
        obtain ⟨earlier, later, other, split, ended, ran⟩ := parts
        cases ended
        rw [split]
        exact ran
  | ask question rest ih =>
      intro exchanges
      constructor
      · intro ran
        cases ran with
        | ask answer ran =>
            obtain ⟨earlier, later, middle, split, before, after⟩ := (ih answer).mp ran
            refine ⟨⟨question, answer⟩ :: earlier, later, middle, ?_, .ask answer before, after⟩
            rw [split, List.cons_append]
      · intro parts
        obtain ⟨earlier, later, middle, split, before, after⟩ := parts
        cases before with
        | ask answer before =>
            rw [split, List.cons_append]
            exact .ask answer ((ih answer).mpr ⟨_, later, middle, rfl, before, after⟩)

/-- The answers decide the run, so no run is the beginning of another one. -/
theorem transcript_unique {program : Dialogue request response result}
    {exchanges : List (Exchange request response)} {value : result}
    (ran : Transcript program exchanges value) :
    ∀ {other rest rest' : List (Exchange request response)} {value' : result},
      Transcript program other value' → exchanges ++ rest = other ++ rest' →
        value = value' ∧ rest = rest' := by
  induction ran with
  | done value =>
      intro other rest rest' value' ran' same
      cases ran'
      exact ⟨rfl, same⟩
  | ask answer _later ih =>
      intro other rest rest' value' ran' same
      cases ran' with
      | ask answer' later' =>
          rw [List.cons_append, List.cons_append] at same
          obtain ⟨sameHead, sameTail⟩ := List.cons.inj same
          cases sameHead
          exact ih later' sameTail

end Dialogue

open Dialogue (Exchange Transcript)

def Procedure (request : Type) (response : request → Type) (state error result : Type) : Type :=
  state → Dialogue request response (Except error result × state)

namespace Procedure

variable {request : Type} {response : request → Type} {state error result final : Type}

/-! ### Programs -/

def ret (value : result) : Procedure request response state error result :=
  fun here => .done (.ok value, here)

def raise (kind : error) : Procedure request response state error result :=
  fun here => .done (.error kind, here)

/-- What follows a value; an exception ends the program. -/
def onward (next : result → Procedure request response state error final) :
    Except error result × state → Dialogue request response (Except error final × state)
  | (.ok value, here) => next value here
  | (.error kind, here) => .done (.error kind, here)

def andThen (first : Procedure request response state error result)
    (next : result → Procedure request response state error final) :
    Procedure request response state error final :=
  fun here => (first here).bind (onward next)

instance : Monad (Procedure request response state error) where
  pure := ret
  bind := andThen

def rescue (handler : error → Procedure request response state error result) :
    Except error result × state → Dialogue request response (Except error result × state)
  | (.ok value, here) => .done (.ok value, here)
  | (.error kind, here) => handler kind here

/-- `try: body / except: handler`; the handler finds the state as the body left it. -/
def handle (body : Procedure request response state error result)
    (handler : error → Procedure request response state error result) :
    Procedure request response state error result :=
  fun here => (body here).bind (rescue handler)

def ask (question : request) : Procedure request response state error (response question) :=
  fun here => .ask question (fun answer => .done (.ok answer, here))

def current : Procedure request response state error state :=
  fun here => .done (.ok here, here)

def modify (change : state → state) : Procedure request response state error Unit :=
  fun here => .done (.ok (), change here)

/-- A computation that may raise and looks at nothing but its arguments. -/
def lift (outcome : Except error result) : Procedure request response state error result :=
  fun here => .done (outcome, here)

/-! ### Runs -/

/-- One run: the state it starts from, what it hears, how it ends and the state it leaves. -/
def Ran (body : Procedure request response state error result) (before : state)
    (exchanges : List (Exchange request response)) (outcome : Except error result)
    (after : state) : Prop :=
  Transcript (body before) exchanges (outcome, after)

section Runs

variable {body first : Procedure request response state error result}
variable {next : result → Procedure request response state error final}
variable {before after : state} {exchanges : List (Exchange request response)}

theorem ran_done (value : Except error result × state) {outcome : Except error result}
    (ends : body before = .done value) :
    Ran body before exchanges outcome after ↔ exchanges = [] ∧ (outcome, after) = value := by
  unfold Ran
  rw [ends]
  constructor
  · intro ran
    cases ran
    exact ⟨rfl, rfl⟩
  · intro both
    rw [both.1, both.2]
    exact .done value

theorem ran_pure {value : result} {outcome : Except error result} :
    Ran (pure value : Procedure request response state error result) before exchanges outcome after ↔
      exchanges = [] ∧ outcome = .ok value ∧ after = before := by
  rw [ran_done (.ok value, before) rfl, Prod.mk.injEq]

theorem ran_raise {kind : error} {outcome : Except error result} :
    Ran (raise kind : Procedure request response state error result) before exchanges outcome after ↔
      exchanges = [] ∧ outcome = .error kind ∧ after = before := by
  rw [ran_done (.error kind, before) rfl, Prod.mk.injEq]

theorem ran_lift {given outcome : Except error result} :
    Ran (lift given : Procedure request response state error result) before exchanges outcome after ↔
      exchanges = [] ∧ outcome = given ∧ after = before := by
  rw [ran_done (given, before) rfl, Prod.mk.injEq]

theorem ran_current {outcome : Except error state} :
    Ran (current : Procedure request response state error state) before exchanges outcome after ↔
      exchanges = [] ∧ outcome = .ok before ∧ after = before := by
  rw [ran_done (.ok before, before) rfl, Prod.mk.injEq]

theorem ran_modify {change : state → state} {outcome : Except error Unit} :
    Ran (modify change : Procedure request response state error Unit) before exchanges outcome
      after ↔ exchanges = [] ∧ outcome = .ok () ∧ after = change before := by
  rw [ran_done (.ok (), change before) rfl, Prod.mk.injEq]

theorem ran_ask {question : request} {outcome : Except error (response question)} :
    Ran (ask question : Procedure request response state error (response question)) before exchanges
      outcome after ↔
        ∃ answer, exchanges = [⟨question, answer⟩] ∧ outcome = .ok answer ∧ after = before := by
  constructor
  · intro ran
    cases ran with
    | ask answer rest =>
        cases rest
        exact ⟨answer, rfl, rfl, rfl⟩
  · intro found
    obtain ⟨answer, asked, ended, kept⟩ := found
    rw [asked, ended, kept]
    exact .ask answer (.done _)

theorem ran_bind {outcome : Except error final} :
    Ran (first >>= next) before exchanges outcome after ↔
      (∃ kind, outcome = .error kind ∧ Ran first before exchanges (.error kind) after) ∨
        ∃ value middle earlier later, exchanges = earlier ++ later ∧
          Ran first before earlier (.ok value) middle ∧
            Ran (next value) middle later outcome after := by
  change Transcript ((first before).bind (onward next)) exchanges (outcome, after) ↔ _
  rw [Dialogue.transcript_bind]
  constructor
  · intro parts
    obtain ⟨earlier, later, ⟨reached, middle⟩, split, ran, rest⟩ := parts
    cases reached with
    | error kind =>
        cases rest
        rw [List.append_nil] at split
        rw [split]
        exact Or.inl ⟨kind, rfl, ran⟩
    | ok value => exact Or.inr ⟨value, middle, earlier, later, split, ran, rest⟩
  · intro ways
    cases ways with
    | inl raised =>
        obtain ⟨kind, ended, ran⟩ := raised
        rw [ended]
        exact ⟨exchanges, [], _, (List.append_nil exchanges).symm, ran, .done _⟩
    | inr reached =>
        obtain ⟨value, middle, earlier, later, split, ran, rest⟩ := reached
        exact ⟨earlier, later, _, split, ran, rest⟩

theorem ran_handle {handler : error → Procedure request response state error result}
    {outcome : Except error result} :
    Ran (first.handle handler) before exchanges outcome after ↔
      (∃ value, outcome = .ok value ∧ Ran first before exchanges (.ok value) after) ∨
        ∃ kind middle earlier later, exchanges = earlier ++ later ∧
          Ran first before earlier (.error kind) middle ∧
            Ran (handler kind) middle later outcome after := by
  change Transcript ((first before).bind (rescue handler)) exchanges (outcome, after) ↔ _
  rw [Dialogue.transcript_bind]
  constructor
  · intro parts
    obtain ⟨earlier, later, ⟨reached, middle⟩, split, ran, rest⟩ := parts
    cases reached with
    | ok value =>
        cases rest
        rw [List.append_nil] at split
        rw [split]
        exact Or.inl ⟨value, rfl, ran⟩
    | error kind => exact Or.inr ⟨kind, middle, earlier, later, split, ran, rest⟩
  · intro ways
    cases ways with
    | inl returned =>
        obtain ⟨value, ended, ran⟩ := returned
        rw [ended]
        exact ⟨exchanges, [], _, (List.append_nil exchanges).symm, ran, .done _⟩
    | inr raised =>
        obtain ⟨kind, middle, earlier, later, split, ran, rest⟩ := raised
        exact ⟨earlier, later, _, split, ran, rest⟩

/-- What follows a run of the first part that is known. -/
theorem ran_after {outcome : Except error final} {earlier later : List (Exchange request response)}
    {value : result} {middle : state}
    (ran : Ran (first >>= next) before (earlier ++ later) outcome after)
    (known : Ran first before earlier (.ok value) middle) :
    Ran (next value) middle later outcome after := by
  cases ran_bind.mp ran with
  | inl raised =>
      obtain ⟨kind, _ended, other⟩ := raised
      have whole : earlier ++ later = (earlier ++ later) ++ [] := (List.append_nil _).symm
      cases (Dialogue.transcript_unique known other whole).1
  | inr reached =>
      obtain ⟨_value, _middle, earlier', later', split, other, rest⟩ := reached
      have same := Dialogue.transcript_unique known other split
      cases same.1
      rw [same.2]
      exact rest

/-- An assignment before a program returns. -/
theorem ran_modify_pure {change : state → state} {value : result}
    {outcome : Except error result} :
    Ran (modify change >>= fun _done => pure value) before exchanges outcome after ↔
      exchanges = [] ∧ outcome = .ok value ∧ after = change before := by
  rw [ran_done (.ok value, change before) rfl, Prod.mk.injEq]

theorem ran_map {change : result → final} {outcome : Except error final} :
    Ran (change <$> first) before exchanges outcome after ↔
      ∃ reached, outcome = reached.map change ∧ Ran first before exchanges reached after := by
  change Ran (first >>= fun value => pure (change value)) before exchanges outcome after ↔ _
  rw [ran_bind]
  constructor
  · intro ways
    cases ways with
    | inl raised =>
        obtain ⟨kind, ended, ran⟩ := raised
        exact ⟨.error kind, ended, ran⟩
    | inr reached =>
        obtain ⟨value, middle, earlier, later, split, ran, rest⟩ := reached
        obtain ⟨empty, ended, same⟩ := ran_pure.mp rest
        rw [split, empty, List.append_nil, same]
        exact ⟨.ok value, ended, ran⟩
  · intro found
    obtain ⟨reached, ended, ran⟩ := found
    cases reached with
    | error kind => exact Or.inl ⟨kind, ended, ran⟩
    | ok value =>
        refine Or.inr ⟨value, after, exchanges, [], (List.append_nil _).symm, ran, ?_⟩
        exact ran_pure.mpr ⟨rfl, ended, rfl⟩

/-- A value that a program returns comes from both of its parts. -/
theorem ran_bind_ok {value : final} :
    Ran (first >>= next) before exchanges (.ok value) after ↔
      ∃ reached middle earlier later, exchanges = earlier ++ later ∧
        Ran first before earlier (.ok reached) middle ∧
          Ran (next reached) middle later (.ok value) after := by
  rw [ran_bind]
  constructor
  · intro ways
    cases ways with
    | inl raised =>
        obtain ⟨_kind, impossible, _ran⟩ := raised
        cases impossible
    | inr reached => exact reached
  · exact Or.inr

theorem pure_bind (value : result) :
    (pure value : Procedure request response state error result) >>= next = next value := rfl

theorem raise_bind (kind : error) :
    (raise kind : Procedure request response state error result) >>= next = raise kind := rfl

end Runs

/-! ### What all runs of a program have in common -/

/-- Its questions are allowed ones, and it keeps an invariant, also when it raises. -/
structure Abides (allowed : request → Prop) (invariant : state → Prop)
    (body : Procedure request response state error result) : Prop where
  fine : ∀ {before : state} {exchanges : List (Exchange request response)}
    {outcome : Except error result} {after : state},
    Ran body before exchanges outcome after → ∀ exchange ∈ exchanges, allowed exchange.1
  kept : ∀ {before : state} {exchanges : List (Exchange request response)}
    {outcome : Except error result} {after : state},
    Ran body before exchanges outcome after → invariant before → invariant after

section Common

variable {first : Procedure request response state error result}
variable {next : result → Procedure request response state error final}
variable {handler : error → Procedure request response state error result}
variable {allowed allowed' : request → Prop} {invariant : state → Prop}

theorem Abides.weaken (abides : Abides allowed invariant first)
    (weaker : ∀ question, allowed question → allowed' question) :
    Abides allowed' invariant first where
  fine ran exchange member := weaker _ (abides.fine ran exchange member)
  kept := abides.kept

theorem abides_done (ends : ∀ here, ∃ outcome, first here = .done (outcome, here)) :
    Abides allowed invariant first := by
  constructor
  · intro before exchanges outcome after ran exchange member
    obtain ⟨_value, ended⟩ := ends before
    rw [((ran_done _ ended).mp ran).1] at member
    cases member
  · intro before exchanges outcome after ran holds
    obtain ⟨_value, ended⟩ := ends before
    have same := ((ran_done _ ended).mp ran).2
    cases same
    exact holds

theorem abides_modify {change : state → state}
    (kept : ∀ here, invariant here → invariant (change here)) :
    Abides allowed invariant (modify change : Procedure request response state error Unit) := by
  constructor
  · intro before exchanges outcome after ran exchange member
    rw [(ran_modify.mp ran).1] at member
    cases member
  · intro before exchanges outcome after ran holds
    rw [(ran_modify.mp ran).2.2]
    exact kept before holds

theorem abides_ask {question : request} (fine : allowed question) :
    Abides allowed invariant
      (ask question : Procedure request response state error (response question)) := by
  constructor
  · intro before exchanges outcome after ran exchange member
    obtain ⟨answer, asked, _ended⟩ := ran_ask.mp ran
    rw [asked, List.mem_singleton] at member
    rw [member]
    exact fine
  · intro before exchanges outcome after ran holds
    obtain ⟨_answer, _asked, _ended, same⟩ := ran_ask.mp ran
    rw [same]
    exact holds

theorem abides_bind (abidesFirst : Abides allowed invariant first)
    (abidesNext : ∀ value, Abides allowed invariant (next value)) :
    Abides allowed invariant (first >>= next) := by
  constructor
  · intro before exchanges outcome after ran exchange member
    cases ran_bind.mp ran with
    | inl raised =>
        obtain ⟨_kind, _ended, ran⟩ := raised
        exact abidesFirst.fine ran exchange member
    | inr reached =>
        obtain ⟨value, _middle, earlier, later, split, ran, rest⟩ := reached
        rw [split, List.mem_append] at member
        cases member with
        | inl early => exact abidesFirst.fine ran exchange early
        | inr late => exact (abidesNext value).fine rest exchange late
  · intro before exchanges outcome after ran holds
    cases ran_bind.mp ran with
    | inl raised =>
        obtain ⟨_kind, _ended, ran⟩ := raised
        exact abidesFirst.kept ran holds
    | inr reached =>
        obtain ⟨value, _middle, _earlier, _later, _split, ran, rest⟩ := reached
        exact (abidesNext value).kept rest (abidesFirst.kept ran holds)

theorem abides_handle (abidesFirst : Abides allowed invariant first)
    (abidesHandler : ∀ kind, Abides allowed invariant (handler kind)) :
    Abides allowed invariant (first.handle handler) := by
  constructor
  · intro before exchanges outcome after ran exchange member
    cases ran_handle.mp ran with
    | inl returned =>
        obtain ⟨_value, _ended, ran⟩ := returned
        exact abidesFirst.fine ran exchange member
    | inr raised =>
        obtain ⟨kind, _middle, earlier, later, split, ran, rest⟩ := raised
        rw [split, List.mem_append] at member
        cases member with
        | inl early => exact abidesFirst.fine ran exchange early
        | inr late => exact (abidesHandler kind).fine rest exchange late
  · intro before exchanges outcome after ran holds
    cases ran_handle.mp ran with
    | inl returned =>
        obtain ⟨_value, _ended, ran⟩ := returned
        exact abidesFirst.kept ran holds
    | inr raised =>
        obtain ⟨kind, _middle, _earlier, _later, _split, ran, rest⟩ := raised
        exact (abidesHandler kind).kept rest (abidesFirst.kept ran holds)

theorem abides_pure {value : result} :
    Abides allowed invariant (pure value : Procedure request response state error result) :=
  abides_done (fun _here => ⟨_, rfl⟩)

theorem abides_raise {kind : error} :
    Abides allowed invariant (raise kind : Procedure request response state error result) :=
  abides_done (fun _here => ⟨_, rfl⟩)

theorem abides_lift {outcome : Except error result} :
    Abides allowed invariant (lift outcome : Procedure request response state error result) :=
  abides_done (fun _here => ⟨_, rfl⟩)

theorem abides_current :
    Abides allowed invariant (current : Procedure request response state error state) :=
  abides_done (fun _here => ⟨_, rfl⟩)

end Common

/-! ### Programs that never raise -/

/-- From a state that satisfies `pre` the program returns, and `post` holds then. -/
structure Returns (pre : state → Prop) (body : Procedure request response state error result)
    (post : result → state → Prop) : Prop where
  returned : ∀ {before : state} {exchanges : List (Exchange request response)}
    {outcome : Except error result} {after : state},
    Ran body before exchanges outcome after → pre before →
      ∃ value, outcome = .ok value ∧ post value after

section Returning

variable {first : Procedure request response state error result}
variable {next : result → Procedure request response state error final}
variable {pre : state → Prop} {post : result → state → Prop}

theorem returns_pure {value : result} (holds : ∀ here, pre here → post value here) :
    Returns pre (pure value : Procedure request response state error result) post := by
  constructor
  intro before exchanges outcome after ran started
  obtain ⟨_empty, ended, same⟩ := ran_pure.mp ran
  rw [same]
  exact ⟨value, ended, holds before started⟩

theorem returns_modify {change : state → state} :
    Returns pre (modify change : Procedure request response state error Unit)
      (fun _done after => ∃ here, pre here ∧ after = change here) := by
  constructor
  intro before exchanges outcome after ran started
  obtain ⟨_empty, ended, same⟩ := ran_modify.mp ran
  exact ⟨(), ended, before, started, same⟩

theorem returns_current :
    Returns pre (current : Procedure request response state error state)
      (fun seen here => seen = here ∧ pre here) := by
  constructor
  intro before exchanges outcome after ran started
  obtain ⟨_empty, ended, same⟩ := ran_current.mp ran
  rw [same]
  exact ⟨before, ended, rfl, started⟩

theorem returns_ask {question : request} :
    Returns pre (ask question : Procedure request response state error (response question))
      (fun _answer here => pre here) := by
  constructor
  intro before exchanges outcome after ran started
  obtain ⟨answer, _asked, ended, same⟩ := ran_ask.mp ran
  rw [same]
  exact ⟨answer, ended, started⟩

theorem returns_bind {later : final → state → Prop} (returnsFirst : Returns pre first post)
    (returnsNext : ∀ value, Returns (post value) (next value) later) :
    Returns pre (first >>= next) later := by
  constructor
  intro before exchanges outcome after ran started
  cases ran_bind.mp ran with
  | inl raised =>
      obtain ⟨_kind, _ended, ran⟩ := raised
      obtain ⟨_value, impossible, _holds⟩ := returnsFirst.returned ran started
      cases impossible
  | inr reached =>
      obtain ⟨value, _middle, _earlier, _later, _split, ran, rest⟩ := reached
      obtain ⟨_value, same, holds⟩ := returnsFirst.returned ran started
      cases same
      exact (returnsNext value).returned rest holds

end Returning

/-! ### Retries -/

/-- Run the body again after an exception that allows it, at most so many times and until
the answer to a question says that it has taken too long; the last exception is raised. -/
def retry (again : error → Bool) (question : request) (enough : response question → Bool)
    (body : Procedure request response state error result) :
    Nat → Procedure request response state error result
  | 0 => body
  | count + 1 => body.handle (fun kind =>
      if again kind then
        ask question >>= fun answer =>
          if enough answer then raise kind else retry again question enough body count
      else raise kind)

/-- One of the runs of a body that is retried. -/
structure Round (request : Type) (response : request → Type) (state error result : Type) where
  before : state
  exchanges : List (Exchange request response)
  outcome : Except error result
  after : state

/-- The rounds of a call: each but the last one raised, and the last one ended the call. -/
inductive Rounds (question : request) (body : Procedure request response state error result) :
    state → List (Exchange request response) → List (Round request response state error result) →
      Except error result → state → Prop where
  | last {before after : state} {exchanges : List (Exchange request response)}
      {outcome : Except error result} (ran : Ran body before exchanges outcome after) :
      Rounds question body before exchanges [{ before, exchanges, outcome, after }] outcome after
  | late {before after : state} {exchanges : List (Exchange request response)} {kind : error}
      (ran : Ran body before exchanges (.error kind) after) (answer : response question) :
      Rounds question body before (exchanges ++ [⟨question, answer⟩])
        [{ before, exchanges, outcome := .error kind, after }] (.error kind) after
  | again {before middle after : state} {exchanges later : List (Exchange request response)}
      {rounds : List (Round request response state error result)} {kind : error}
      {outcome : Except error result} (ran : Ran body before exchanges (.error kind) middle)
      (answer : response question)
      (rest : Rounds question body middle later rounds outcome after) :
      Rounds question body before (exchanges ++ ⟨question, answer⟩ :: later)
        ({ before, exchanges, outcome := .error kind, after := middle } :: rounds) outcome after

section Retries

variable {again : error → Bool} {question : request} {enough : response question → Bool}
variable {body : Procedure request response state error result}

theorem rounds_of_retry {count : Nat} :
    ∀ {before after : state} {exchanges : List (Exchange request response)}
      {outcome : Except error result},
      Ran (retry again question enough body count) before exchanges outcome after →
        ∃ rounds, Rounds question body before exchanges rounds outcome after := by
  induction count with
  | zero => exact fun ran => ⟨_, .last ran⟩
  | succ count ih =>
      intro before after exchanges outcome ran
      cases ran_handle.mp ran with
      | inl returned =>
          obtain ⟨_value, ended, ran⟩ := returned
          rw [ended]
          exact ⟨_, .last ran⟩
      | inr raised =>
          obtain ⟨kind, middle, earlier, later, split, ran, rest⟩ := raised
          rw [split]
          by_cases retried : again kind = true
          · rw [if_pos retried] at rest
            cases ran_bind.mp rest with
            | inl failed =>
                obtain ⟨_kind, _ended, asked⟩ := failed
                obtain ⟨_answer, _asked, impossible, _same⟩ := ran_ask.mp asked
                cases impossible
            | inr answered =>
                obtain ⟨value, waited, asked, last, split', heard, ended⟩ := answered
                obtain ⟨answer, asks, returned, same⟩ := ran_ask.mp heard
                cases returned
                rw [split', asks, List.singleton_append]
                rw [same] at ended
                by_cases done : enough value = true
                · rw [if_pos done] at ended
                  obtain ⟨empty, raisedKind, kept⟩ := ran_raise.mp ended
                  rw [empty, raisedKind, kept]
                  exact ⟨_, .late ran value⟩
                · rw [if_neg done] at ended
                  obtain ⟨rounds, found⟩ := ih ended
                  exact ⟨_, .again ran value found⟩
          · rw [if_neg retried] at rest
            obtain ⟨empty, raisedKind, same⟩ := ran_raise.mp rest
            rw [empty, List.append_nil, raisedKind, same]
            exact ⟨_, .last ran⟩

/-- What each run of the body keeps holds before each of the rounds. -/
theorem round_ran {allowed : request → Prop} {invariant : state → Prop}
    (abides : Abides allowed invariant body)
    {before after : state} {exchanges : List (Exchange request response)}
    {rounds : List (Round request response state error result)} {outcome : Except error result}
    (called : Rounds question body before exchanges rounds outcome after)
    (holds : invariant before) :
    ∀ round ∈ rounds, invariant round.before ∧
      Ran body round.before round.exchanges round.outcome round.after := by
  induction called with
  | last ran =>
      intro round member
      rw [List.mem_singleton.mp member]
      exact ⟨holds, ran⟩
  | late ran _answer =>
      intro round member
      rw [List.mem_singleton.mp member]
      exact ⟨holds, ran⟩
  | again ran _answer _rest ih =>
      intro round member
      cases List.mem_cons.mp member with
      | inl head =>
          rw [head]
          exact ⟨holds, ran⟩
      | inr tail => exact ih (abides.kept ran holds) round tail

/-- A value that is returned comes from the last round. -/
theorem retry_returns {count : Nat} {before after : state}
    {exchanges : List (Exchange request response)} {value : result}
    (ran : Ran (retry again question enough body count) before exchanges (.ok value) after) :
    ∃ here earlier later, exchanges = earlier ++ later ∧ Ran body here later (.ok value) after := by
  obtain ⟨rounds, called⟩ := rounds_of_retry ran
  clear ran
  generalize ended : (Except.ok value : Except error result) = outcome at called
  induction called with
  | last ran =>
      cases ended
      exact ⟨_, [], _, rfl, ran⟩
  | late _ran _answer => cases ended
  | again _ran answer _rest ih =>
      obtain ⟨here, earlier, later, split, ran⟩ := ih ended
      rw [split, ← List.cons_append, ← List.append_assoc]
      exact ⟨here, _, later, rfl, ran⟩

variable {allowed : request → Prop} {invariant : state → Prop}

theorem abides_retry (abides : Abides allowed invariant body) (fine : allowed question)
    {count : Nat} : Abides allowed invariant (retry again question enough body count) := by
  induction count with
  | zero => exact abides
  | succ count ih =>
      apply abides_handle abides
      intro kind
      by_cases retried : again kind = true
      · rw [if_pos retried]
        apply abides_bind (abides_ask fine)
        intro answer
        by_cases done : enough answer = true
        · rw [if_pos done]
          exact abides_raise
        · rw [if_neg done]
          exact ih
      · rw [if_neg retried]
        exact abides_raise

end Retries

end Procedure

end VaultSearch
