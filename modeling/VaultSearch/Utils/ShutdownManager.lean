/-
`ShutdownManager`: signals, `atexit` and direct calls that all want to shut the process down.

Every caller goes through the same transition, but only one of them starts the thread that runs
the callbacks.  Whatever the order of the callers' steps, and whatever is registered meanwhile, a
callback is called at most once, later ones first, and not before the shutdown shows as requested.
-/

import Mathlib.Data.List.Nodup
import Mathlib.Logic.Function.Basic
import VaultSearch.Store.Transitions

set_option autoImplicit false

namespace VaultSearch

namespace Shutdown

variable {Thread Callback : Type}

/-- Where a thread is in `ShutdownManager.shutdown`. -/
inductive Stage where
  | idle
  | starting
  | requesting
  | spawning
  | joining (worker : Nat)
  deriving DecidableEq

/-- Where a thread of `run_callbacks` is: before it copies the callbacks, between two of them, in
one of them, or ended by an exception that is no `Exception`. -/
inductive Worker (Callback : Type) where
  | waiting
  | between (callbacks todo : List Callback)
  | calling (callbacks todo : List Callback)
  | aborted (callbacks : List Callback)
  deriving DecidableEq

/-- `handlers` are the signal handlers that have requested the shutdown and not gone on, the
innermost first, and `ran` the callbacks that were called, the first one first. -/
structure Manager (Thread Callback : Type) where
  requested : Bool
  inProgress : Bool
  callbacks : List Callback
  stages : Thread → Stage
  handlers : List Nat
  workers : List (Worker Callback)
  ran : List Callback
  exitCode : Option Nat

def initial (Thread Callback : Type) : Manager Thread Callback :=
  { requested := false
    inProgress := false
    callbacks := []
    stages := fun _ => .idle
    handlers := []
    workers := []
    ran := []
    exitCode := none }

/-- How a callback ends: an `Exception` is logged, another one is not caught. -/
inductive Ending where
  | returns
  | raises
  | aborts
  deriving DecidableEq

inductive Event (Thread Callback : Type) where
  | register (callback : Callback)
  | unregister (callback : Callback)
  | request
  | shutdown (thread : Thread)
  | atExit (thread : Thread)
  | signal (number : Nat)
  | handle (thread : Thread)
  | advance (thread : Thread)
  | giveUp (thread : Thread)
  | copy (worker : Nat)
  | begin (worker : Nat)
  | finish (worker : Nat) (ending : Ending)
  deriving DecidableEq

section Steps

variable [DecidableEq Thread] [DecidableEq Callback]

/-- `register_callback` -/
def register (callbacks : List Callback) (callback : Callback) : List Callback :=
  if callback ∈ callbacks then callbacks else callbacks ++ [callback]

def Manager.put (manager : Manager Thread Callback) (thread : Thread) (stage : Stage) :
    Manager Thread Callback :=
  { manager with stages := Function.update manager.stages thread stage }

/-- The next statement of `shutdown`, the transition under its lock being one of them. -/
def advance (manager : Manager Thread Callback) (thread : Thread) :
    Option (Manager Thread Callback) :=
  match manager.stages thread with
  | .idle => none
  | .starting =>
      if manager.inProgress then some (manager.put thread .idle)
      else some { manager.put thread .requesting with inProgress := true }
  | .requesting => some { manager.put thread .spawning with requested := true }
  | .spawning =>
      some { manager.put thread (.joining manager.workers.length) with
        workers := manager.workers ++ [.waiting] }
  | .joining worker =>
      match manager.workers[worker]? with
      | some (.between _ []) | some (.aborted _) => some (manager.put thread .idle)
      | _ => none

def step (manager : Manager Thread Callback) :
    Event Thread Callback → Option (Manager Thread Callback)
  | .register callback =>
      some { manager with callbacks := register manager.callbacks callback }
  | .unregister callback => some { manager with callbacks := manager.callbacks.erase callback }
  | .request => some { manager with requested := true }
  | .shutdown thread =>
      match manager.stages thread with
      | .idle => some (manager.put thread .starting)
      | _ => none
  | .atExit thread =>
      match manager.stages thread with
      | .idle =>
          if manager.inProgress then some manager else some (manager.put thread .starting)
      | _ => none
  | .signal number =>
      some { manager with requested := true, handlers := number :: manager.handlers }
  | .handle thread =>
      match manager.handlers, manager.stages thread with
      | number :: outer, .idle =>
          if manager.inProgress then
            some { manager with handlers := outer, exitCode := some (128 + number) }
          else some { manager.put thread .starting with handlers := outer }
      | _, _ => none
  | .advance thread => advance manager thread
  | .giveUp thread =>
      -- `join` runs into its timeout
      match manager.stages thread with
      | .joining _ => some (manager.put thread .idle)
      | _ => none
  | .copy worker =>
      match manager.workers[worker]? with
      | some .waiting =>
          some { manager with
            workers := manager.workers.set worker
              (.between manager.callbacks manager.callbacks.reverse) }
      | _ => none
  | .begin worker =>
      match manager.workers[worker]? with
      | some (.between callbacks (callback :: todo)) =>
          some { manager with
            workers := manager.workers.set worker (.calling callbacks todo)
            ran := manager.ran ++ [callback] }
      | _ => none
  | .finish worker ending =>
      match manager.workers[worker]? with
      | some (.calling callbacks todo) =>
          some { manager with
            workers := manager.workers.set worker
              (match ending with
              | .returns | .raises => .between callbacks todo
              | .aborts => .aborted callbacks) }
      | _ => none

end Steps

/-! ### What every run keeps -/

/-- A thread has made the transition and not started the callbacks. -/
def Stage.chosen : Stage → Bool
  | .requesting | .spawning => true
  | _ => false

/-- What one worker has called, by where it is. -/
def HasCalled : Worker Callback → List Callback → Prop
  | .waiting, ran => ran = []
  | .between callbacks todo, ran => callbacks.Nodup ∧ ran ++ todo = callbacks.reverse
  | .calling callbacks todo, ran => callbacks.Nodup ∧ ran ++ todo = callbacks.reverse
  | .aborted callbacks, ran => callbacks.Nodup ∧ ran <+: callbacks.reverse

/-- Only one thread starts the callbacks, and only once. -/
structure Orderly (manager : Manager Thread Callback) : Prop where
  registered : manager.callbacks.Nodup
  inProgress : (∃ thread, (manager.stages thread).chosen = true) ∨ manager.workers ≠ [] →
    manager.inProgress = true
  single : ∀ thread other, (manager.stages thread).chosen = true →
    (manager.stages other).chosen = true → thread = other
  before : ∀ thread, (manager.stages thread).chosen = true → manager.workers = []
  requested : ∀ thread, manager.stages thread = .spawning → manager.requested = true
  called : (manager.workers = [] ∧ manager.ran = []) ∨
    (manager.requested = true ∧ ∃ worker, manager.workers = [worker] ∧ HasCalled worker manager.ran)
  exits : manager.exitCode.isSome = true → manager.inProgress = true

section Keeping

variable {manager : Manager Thread Callback}

theorem orderly_initial : Orderly (initial Thread Callback) := by
  constructor
  · exact List.nodup_nil
  · intro some
    rcases some with ⟨thread, chosen⟩ | filled
    · cases chosen
    · exact absurd rfl filled
  · intro thread other chosen
    cases chosen
  · intro thread chosen
    cases chosen
  · intro thread isSpawning
    cases isSpawning
  · exact Or.inl ⟨rfl, rfl⟩
  · intro exited
    cases exited

theorem Orderly.register [DecidableEq Callback] (orderly : Orderly manager) (callback : Callback) :
    Orderly { manager with callbacks := register manager.callbacks callback } := by
  have distinct : (Shutdown.register manager.callbacks callback).Nodup := by
    unfold Shutdown.register
    by_cases known : callback ∈ manager.callbacks
    · rw [if_pos known]
      exact orderly.registered
    · rw [if_neg known]
      apply List.Nodup.append orderly.registered (List.nodup_singleton _)
      intro other inside same
      rw [List.mem_singleton.mp same] at inside
      exact known inside
  exact ⟨distinct, orderly.inProgress, orderly.single, orderly.before, orderly.requested,
    orderly.called, orderly.exits⟩

theorem Orderly.unregister [DecidableEq Callback] (orderly : Orderly manager)
    (callback : Callback) :
    Orderly { manager with callbacks := manager.callbacks.erase callback } :=
  ⟨orderly.registered.erase _, orderly.inProgress, orderly.single, orderly.before,
    orderly.requested, orderly.called, orderly.exits⟩

theorem Orderly.request (orderly : Orderly manager) (handlers : List Nat) :
    Orderly { manager with requested := true, handlers } :=
  ⟨orderly.registered, orderly.inProgress, orderly.single, orderly.before,
    fun _thread _isSpawning => rfl, orderly.called.imp_right (fun some => ⟨rfl, some.2⟩),
    orderly.exits⟩

/-- The only worker, where there is one. -/
theorem Orderly.worker (orderly : Orderly manager) {index : Nat} {worker : Worker Callback}
    (found : manager.workers[index]? = some worker) :
    manager.requested = true ∧ index = 0 ∧ manager.workers = [worker] ∧
      HasCalled worker manager.ran := by
  rcases orderly.called with ⟨none, _ran⟩ | ⟨requested, only, isOnly, called⟩
  · rw [none] at found
    cases found
  · rw [isOnly, List.getElem?_singleton] at found
    split at found
    case isTrue first =>
      have same := Option.some.inj found
      rw [← same]
      exact ⟨requested, first, isOnly, called⟩
    case isFalse => cases found

theorem Orderly.setWorker (orderly : Orderly manager) {index : Nat} {worker : Worker Callback}
    (found : manager.workers[index]? = some worker) (next : Worker Callback)
    (ran : List Callback) (called : HasCalled next ran) :
    Orderly { manager with workers := manager.workers.set index next, ran } := by
  obtain ⟨requested, first, isOnly, _called⟩ := orderly.worker found
  have isNext : manager.workers.set index next = [next] := by
    rw [isOnly, first]
    rfl
  have filled : manager.workers ≠ [] := by
    rw [isOnly]
    exact List.cons_ne_nil _ _
  constructor
  · exact orderly.registered
  · exact fun _some => orderly.inProgress (Or.inr filled)
  · exact orderly.single
  · exact fun thread chosen => absurd (orderly.before thread chosen) filled
  · exact orderly.requested
  · exact Or.inr ⟨requested, next, isNext, called⟩
  · exact orderly.exits

/-- What was called was called once. -/
theorem Orderly.distinct (orderly : Orderly manager) : manager.ran.Nodup := by
  rcases orderly.called with ⟨_none, ran⟩ | ⟨_requested, worker, _isOnly, called⟩
  · rw [ran]
    exact List.nodup_nil
  · cases worker with
    | waiting =>
        rw [show manager.ran = [] from called]
        exact List.nodup_nil
    | between callbacks todo | calling callbacks todo =>
        have all : (manager.ran ++ todo).Nodup := by
          rw [called.2]
          exact List.nodup_reverse.mpr called.1
        exact all.sublist (List.sublist_append_left _ _)
    | aborted callbacks =>
        exact (List.nodup_reverse.mpr called.1).sublist called.2.sublist

variable [DecidableEq Thread] {thread : Thread}

@[simp] theorem put_stage_self (manager : Manager Thread Callback) (thread : Thread)
    (stage : Stage) : (manager.put thread stage).stages thread = stage :=
  Function.update_self ..

theorem put_stage_other (manager : Manager Thread Callback) (stage : Stage) {other thread : Thread}
    (another : other ≠ thread) :
    (manager.put thread stage).stages other = manager.stages other :=
  Function.update_of_ne another ..

/-- A thread that is not chosen behind a step was not needed for anything. -/
theorem Orderly.put (orderly : Orderly manager) {stage : Stage} (unchosen : stage.chosen = false) :
    Orderly (manager.put thread stage) := by
  have older : ∀ other, ((manager.put thread stage).stages other).chosen = true →
      (manager.stages other).chosen = true := by
    intro other chosen
    by_cases same : other = thread
    · rw [same, put_stage_self, unchosen] at chosen
      cases chosen
    · rw [put_stage_other manager stage same] at chosen
      exact chosen
  constructor
  · exact orderly.registered
  · intro some
    apply orderly.inProgress
    rcases some with ⟨other, chosen⟩ | filled
    · exact Or.inl ⟨other, older other chosen⟩
    · exact Or.inr filled
  · exact fun first second chosen alsoChosen =>
      orderly.single first second (older first chosen) (older second alsoChosen)
  · exact fun other chosen => orderly.before other (older other chosen)
  · intro other isSpawning
    apply orderly.requested other
    by_cases same : other = thread
    · rw [same, put_stage_self] at isSpawning
      rw [isSpawning] at unchosen
      cases unchosen
    · rw [put_stage_other manager stage same] at isSpawning
      exact isSpawning
  · exact orderly.called
  · exact orderly.exits

/-- The transition is made once. -/
theorem Orderly.start (orderly : Orderly manager) (free : manager.inProgress = false) :
    Orderly { manager.put thread .requesting with inProgress := true } := by
  have none : ∀ other, (manager.stages other).chosen = true → False := by
    intro other chosen
    rw [orderly.inProgress (Or.inl ⟨other, chosen⟩)] at free
    cases free
  have empty : manager.workers = [] := by
    by_contra filled
    rw [orderly.inProgress (Or.inr filled)] at free
    cases free
  have only : ∀ other, ((manager.put thread .requesting).stages other).chosen = true →
      other = thread := by
    intro other chosen
    by_contra another
    rw [put_stage_other manager _ another] at chosen
    exact none other chosen
  constructor
  · exact orderly.registered
  · exact fun _some => rfl
  · exact fun first second chosen alsoChosen =>
      (only first chosen).trans (only second alsoChosen).symm
  · exact fun _other _chosen => empty
  · intro other isSpawning
    exfalso
    by_cases same : other = thread
    · rw [same] at isSpawning
      change (manager.put thread .requesting).stages thread = .spawning at isSpawning
      rw [put_stage_self] at isSpawning
      cases isSpawning
    · change (manager.put thread .requesting).stages other = .spawning at isSpawning
      rw [put_stage_other manager _ same] at isSpawning
      exact none other (by rw [isSpawning]; rfl)
  · exact orderly.called
  · exact fun _exited => rfl

/-- A thread that has made the transition requests the shutdown. -/
theorem Orderly.requestStarted (orderly : Orderly manager)
    (started : manager.stages thread = .requesting) :
    Orderly { manager.put thread .spawning with requested := true } := by
  have chosen : (manager.stages thread).chosen = true := by
    rw [started]
    rfl
  have older : ∀ other, ((manager.put thread .spawning).stages other).chosen = true →
      (manager.stages other).chosen = true := by
    intro other isChosen
    by_cases same : other = thread
    · rw [same]
      exact chosen
    · rw [put_stage_other manager _ same] at isChosen
      exact isChosen
  constructor
  · exact orderly.registered
  · exact fun _some => orderly.inProgress (Or.inl ⟨thread, chosen⟩)
  · exact fun first second isChosen alsoChosen =>
      orderly.single first second (older first isChosen) (older second alsoChosen)
  · exact fun _other _chosen => orderly.before thread chosen
  · exact fun _other _isSpawning => rfl
  · exact orderly.called.imp_right (fun some => ⟨rfl, some.2⟩)
  · exact orderly.exits

/-- The thread that has made the transition starts the only worker. -/
theorem Orderly.spawn (orderly : Orderly manager)
    (requested : manager.stages thread = .spawning) (worker : Nat) :
    Orderly { manager.put thread (.joining worker) with
      workers := manager.workers ++ [.waiting] } := by
  have chosen : (manager.stages thread).chosen = true := by
    rw [requested]
    rfl
  have empty := orderly.before thread chosen
  have none : ∀ other, ((manager.put thread (.joining worker)).stages other).chosen = true →
      False := by
    intro other isChosen
    by_cases same : other = thread
    · rw [same, put_stage_self] at isChosen
      cases isChosen
    · rw [put_stage_other manager _ same] at isChosen
      exact same (orderly.single other thread isChosen chosen)
  constructor
  · exact orderly.registered
  · exact fun _some => orderly.inProgress (Or.inl ⟨thread, chosen⟩)
  · exact fun first _second isChosen => (none first isChosen).elim
  · exact fun other isChosen => (none other isChosen).elim
  · intro other isSpawning
    exfalso
    apply none other
    change (manager.put thread (.joining worker)).stages other = .spawning at isSpawning
    rw [isSpawning]
    rfl
  · right
    refine ⟨orderly.requested thread requested, .waiting, ?_, ?_⟩
    · change manager.workers ++ [.waiting] = [.waiting]
      rw [empty]
      rfl
    · rcases orderly.called with ⟨_none, ran⟩ | ⟨_requested, only, isOnly, _called⟩
      · exact ran
      · rw [empty] at isOnly
        cases isOnly
  · exact orderly.exits

theorem advance_orderly (orderly : Orderly manager) {after : Manager Thread Callback}
    (advanced : advance manager thread = some after) : Orderly after := by
  unfold advance at advanced
  cases stage : manager.stages thread with
  | idle =>
      rw [stage] at advanced
      cases advanced
  | starting =>
      rw [stage] at advanced
      dsimp only at advanced
      split at advanced
      case isTrue =>
        rw [← Option.some.inj advanced]
        exact orderly.put rfl
      case isFalse free =>
        rw [← Option.some.inj advanced]
        exact orderly.start (eq_false_of_ne_true free)
  | requesting =>
      rw [stage] at advanced
      rw [← Option.some.inj advanced]
      exact orderly.requestStarted stage
  | spawning =>
      rw [stage] at advanced
      rw [← Option.some.inj advanced]
      exact orderly.spawn stage _
  | joining worker =>
      rw [stage] at advanced
      dsimp only at advanced
      split at advanced
      case h_1 =>
        rw [← Option.some.inj advanced]
        exact orderly.put rfl
      case h_2 =>
        rw [← Option.some.inj advanced]
        exact orderly.put rfl
      case h_3 => cases advanced

variable [DecidableEq Callback]

theorem step_orderly (orderly : Orderly manager) {next : Event Thread Callback}
    {after : Manager Thread Callback} (stepped : step manager next = some after) :
    Orderly after := by
  unfold step at stepped
  cases next with
  | register callback =>
      rw [← Option.some.inj stepped]
      exact orderly.register callback
  | unregister callback =>
      rw [← Option.some.inj stepped]
      exact orderly.unregister callback
  | request =>
      rw [← Option.some.inj stepped]
      exact orderly.request manager.handlers
  | shutdown thread =>
      dsimp only at stepped
      split at stepped
      case h_1 =>
        rw [← Option.some.inj stepped]
        exact orderly.put rfl
      case h_2 => cases stepped
  | atExit thread =>
      dsimp only at stepped
      split at stepped
      case h_1 =>
        split at stepped
        case isTrue =>
          rw [← Option.some.inj stepped]
          exact orderly
        case isFalse =>
          rw [← Option.some.inj stepped]
          exact orderly.put rfl
      case h_2 => cases stepped
  | signal number =>
      rw [← Option.some.inj stepped]
      exact orderly.request (number :: manager.handlers)
  | handle thread =>
      dsimp only at stepped
      split at stepped
      case h_1 number outer _some _isIdle =>
        split at stepped
        case isTrue started =>
          rw [← Option.some.inj stepped]
          exact ⟨orderly.registered, orderly.inProgress, orderly.single, orderly.before,
            orderly.requested, orderly.called, fun _exited => started⟩
        case isFalse =>
          rw [← Option.some.inj stepped]
          have later : Orderly (manager.put thread .starting) := orderly.put rfl
          exact ⟨later.registered, later.inProgress, later.single, later.before, later.requested,
            later.called, later.exits⟩
      case h_2 => cases stepped
  | advance thread => exact advance_orderly orderly stepped
  | giveUp thread =>
      dsimp only at stepped
      split at stepped
      case h_1 =>
        rw [← Option.some.inj stepped]
        exact orderly.put rfl
      case h_2 => cases stepped
  | copy index =>
      dsimp only at stepped
      split at stepped
      case h_1 found =>
        rw [← Option.some.inj stepped]
        obtain ⟨_requested, _first, _isOnly, called⟩ := orderly.worker found
        apply orderly.setWorker found _ manager.ran
        refine ⟨orderly.registered, ?_⟩
        rw [show manager.ran = [] from called]
        rfl
      case h_2 => cases stepped
  | begin index =>
      dsimp only at stepped
      split at stepped
      case h_1 callbacks callback todo found =>
        rw [← Option.some.inj stepped]
        obtain ⟨_requested, _first, _isOnly, distinct, called⟩ := orderly.worker found
        apply orderly.setWorker found _ (manager.ran ++ [callback])
        refine ⟨distinct, ?_⟩
        rw [List.append_assoc]
        exact called
      case h_2 => cases stepped
  | finish index ending =>
      dsimp only at stepped
      split at stepped
      case h_1 callbacks todo found =>
        rw [← Option.some.inj stepped]
        obtain ⟨_requested, _first, _isOnly, distinct, called⟩ := orderly.worker found
        apply orderly.setWorker found _ manager.ran
        cases ending with
        | returns => exact ⟨distinct, called⟩
        | raises => exact ⟨distinct, called⟩
        | aborts => exact ⟨distinct, todo, called⟩
      case h_2 => cases stepped

/-- In every order of the steps of signals, exits, direct calls and registrations, no callback is
called before the shutdown is requested, or twice; there is one thread at most that calls them, and
it has called the callbacks that it found, the latest first, up to where it is; and a signal ends
the process only while it is being shut down. -/
theorem shutdown_callsOnce (events : List (Event Thread Callback))
    (final : Manager Thread Callback)
    (ran : Transitions.run step (initial Thread Callback) events = some final) :
    final.ran.Nodup ∧
      ((final.workers = [] ∧ final.ran = []) ∨
        (final.requested = true ∧
          ∃ worker, final.workers = [worker] ∧ HasCalled worker final.ran)) ∧
      (final.exitCode.isSome = true → final.inProgress = true) := by
  have orderly : Orderly final :=
    Transitions.run_keeps (fun holds _met stepped => step_orderly holds stepped) orderly_initial
      Transitions.each_trivial ran
  exact ⟨orderly.distinct, orderly.called, orderly.exits⟩

/-- Two signals and a call at once, the first callback raising an exception. -/
def signalledTwice : List (Event Nat Nat) :=
  [.register 1, .register 2, .register 1, .signal 15, .shutdown 5, .handle 7, .advance 5,
    .advance 7, .signal 2, .handle 9, .advance 5, .advance 5, .copy 0, .begin 0, .register 3,
    .finish 0 .raises, .begin 0, .finish 0 .returns, .advance 5]

theorem shutdown_callsOnce_signalled :
    ∃ final, Transitions.run step (initial Nat Nat) signalledTwice = some final ∧
      final.ran.Nodup ∧
      ((final.workers = [] ∧ final.ran = []) ∨
        (final.requested = true ∧
          ∃ worker, final.workers = [worker] ∧ HasCalled worker final.ran)) ∧
      (final.exitCode.isSome = true → final.inProgress = true) := by
  have ran : (Transitions.run step (initial Nat Nat) signalledTwice).isSome = true := by decide
  obtain ⟨final, isFinal⟩ := Option.isSome_iff_exists.mp ran
  exact ⟨final, isFinal, shutdown_callsOnce signalledTwice final isFinal⟩

end Keeping

end Shutdown

end VaultSearch
