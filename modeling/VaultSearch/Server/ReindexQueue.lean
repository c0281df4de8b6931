/-
The queue of `server/reindex_queue.py`: one worker thread, keys that wait once, and a
version for each key that is waiting or being processed.

What happens under the lock is one step; the worker takes a step for each read of the
stop flag, of the queue and of the versions, and for the start and the end of the
callback.  A run also keeps the history that its properties speak about.
-/

import Mathlib.Data.List.Basic
import Mathlib.Data.List.Nodup
import VaultSearch.Text.Basic

set_option autoImplicit false

namespace VaultSearch

/-! ### The queue -/

inductive EnqueueStatus where
  | stopped
  | coalesced
  | queueFull
  | queued
  deriving DecidableEq

/-- Where the worker thread is in `_worker_loop`. -/
inductive Worker where
  | notStarted
  /-- at `self._stop.is_set()` -/
  | checkingStop
  /-- at `self._queue.empty()` -/
  | checkingEmpty
  /-- at `self._queue.get` -/
  | getting
  /-- a key is taken from the queue, its version is not read yet -/
  | holding (key : Text)
  | observed (key : Text) (version : Nat)
  /-- in the callback -/
  | running (key : Text) (version : Nat)
  /-- at `finally` -/
  | finishing (key : Text) (version : Nat)
  | exited
  deriving DecidableEq

/-- The key that the worker has taken and not given back. -/
def Worker.key : Worker → Option Text
  | .holding key => some key
  | .observed key _ => some key
  | .running key _ => some key
  | .finishing key _ => some key
  | _ => none

def Worker.alive : Worker → Bool
  | .notStarted => false
  | .exited => false
  | _ => true

structure ReindexQueue where
  maxPending : Nat
  queue : List Text := []
  versions : List (Text × Nat) := []
  stop : Bool := false
  worker : Worker := .notStarted
  accepting : Bool := true
  deriving DecidableEq

namespace ReindexQueue

def create (maxPending : Int) : ReindexQueue :=
  { maxPending := (max 1 maxPending).toNat }

def syncKey : Text :=
  '\u0000' :: "sync".toList

def keys (state : ReindexQueue) : List Text :=
  state.versions.map (fun entry => entry.1)

/-- `self._versions[key] += 1`. -/
def bump (key : Text) (versions : List (Text × Nat)) : List (Text × Nat) :=
  versions.map (fun entry => if entry.1 = key then (entry.1, entry.2 + 1) else entry)

/-- `self._versions.pop(key, None)`. -/
def pop (key : Text) (versions : List (Text × Nat)) : List (Text × Nat) :=
  versions.filter (fun entry => entry.1 ≠ key)

/-- `_ensure_worker_locked`. -/
def ensureWorker (state : ReindexQueue) : ReindexQueue :=
  if state.worker.alive then state else { state with worker := .checkingStop }

/-- `_enqueue_key`. -/
def enqueueKey (key : Text) (state : ReindexQueue) : EnqueueStatus × ReindexQueue :=
  if !state.accepting then (.stopped, state)
  else if (state.versions.lookup key).isSome then
    (.coalesced, { state with versions := bump key state.versions })
  else if state.maxPending ≤ state.versions.length then (.queueFull, state)
  else
    (.queued, ensureWorker { state with
      versions := state.versions ++ [(key, 1)]
      queue := state.queue ++ [key] })

def enqueue (path : Text) (state : ReindexQueue) : EnqueueStatus × ReindexQueue :=
  enqueueKey path state

def enqueueSync (state : ReindexQueue) : EnqueueStatus × ReindexQueue :=
  enqueueKey syncKey state

/-! ### Histories -/

inductive Event where
  | accepted (key : Text)
  | refused (key : Text)
  /-- the callback starts -/
  | began (key : Text)
  /-- the callback has returned or raised -/
  | ended (key : Text)
  /-- the version entry is removed -/
  | removed (key : Text)
  deriving DecidableEq

/-- One step of the worker, with what it adds to the history. -/
def work (state : ReindexQueue) : ReindexQueue × List Event :=
  match state.worker with
  | .notStarted => (state, [])
  | .checkingStop =>
      if state.stop then ({ state with worker := .checkingEmpty }, [])
      else ({ state with worker := .getting }, [])
  | .checkingEmpty =>
      if state.queue.isEmpty then ({ state with worker := .exited }, [])
      else ({ state with worker := .getting }, [])
  | .getting =>
      match state.queue with
      -- the timeout of `get` has passed
      | [] => ({ state with worker := .checkingStop }, [])
      | key :: rest => ({ state with queue := rest, worker := .holding key }, [])
  | .holding key =>
      match state.versions.lookup key with
      | none => ({ state with worker := .checkingStop }, [])
      | some version => ({ state with worker := .observed key version }, [])
  | .observed key version => ({ state with worker := .running key version }, [.began key])
  | .running key version => ({ state with worker := .finishing key version }, [.ended key])
  | .finishing key version =>
      match state.versions.lookup key with
      | none => ({ state with worker := .checkingStop }, [])
      | some current =>
          if current = version then
            ({ state with versions := pop key state.versions, worker := .checkingStop },
              [.removed key])
          else ({ state with queue := state.queue ++ [key], worker := .checkingStop }, [])
  | .exited => (state, [])

inductive Action where
  | enqueue (path : Text)
  | enqueueSync
  /-- the locked part of `stop` -/
  | stopAccepting
  /-- `self._stop.set()`, which follows it -/
  | setStop
  | work
  deriving DecidableEq

/-- What an enqueue adds to the history. -/
def enqueued (key : Text) (status : EnqueueStatus) : Event :=
  match status with
  | .stopped => .refused key
  | .queueFull => .refused key
  | .coalesced => .accepted key
  | .queued => .accepted key

structure Run where
  state : ReindexQueue
  history : List Event := []

def Run.enqueueKey (key : Text) (run : Run) : Run :=
  let outcome := ReindexQueue.enqueueKey key run.state
  { state := outcome.2, history := run.history ++ [enqueued key outcome.1] }

def Run.step (run : Run) : Action → Run
  | .enqueue path => run.enqueueKey path
  | .enqueueSync => run.enqueueKey syncKey
  | .stopAccepting => { run with state := { run.state with accepting := false } }
  | .setStop =>
      if run.state.accepting then run else { run with state := { run.state with stop := true } }
  | .work => { state := run.state.work.1, history := run.history ++ run.state.work.2 }

/-- A run from an empty queue; the actions are in the order in which they happen. -/
def run (maxPending : Int) (actions : List Action) : Run :=
  actions.foldl Run.step { state := create maxPending }

/-- Processing of `key` began after it was last accepted. -/
def BeganSince (key : Text) (history : List Event) : Prop :=
  ∃ earlier later, history = earlier ++ .began key :: later ∧ .accepted key ∉ later

/-- A whole processing of `key` came after it was last accepted. -/
def Served (key : Text) (history : List Event) : Prop :=
  ∃ earlier later, history = earlier ++ .began key :: later ∧ .accepted key ∉ later ∧
    .ended key ∈ later

theorem BeganSince.append {key : Text} {history more : List Event}
    (since : BeganSince key history) (quiet : .accepted key ∉ more) :
    BeganSince key (history ++ more) := by
  obtain ⟨earlier, later, same, none⟩ := since
  refine ⟨earlier, later ++ more, by rw [same, List.append_assoc, List.cons_append], ?_⟩
  intro member
  rcases List.mem_append.mp member with former | latter
  · exact none former
  · exact quiet latter

theorem Served.append {key : Text} {history more : List Event} (served : Served key history)
    (quiet : .accepted key ∉ more) : Served key (history ++ more) := by
  obtain ⟨earlier, later, same, none, ended⟩ := served
  refine ⟨earlier, later ++ more, by rw [same, List.append_assoc, List.cons_append], ?_,
    List.mem_append_left _ ended⟩
  intro member
  rcases List.mem_append.mp member with former | latter
  · exact none former
  · exact quiet latter

theorem beganSince_began (key : Text) (history : List Event) :
    BeganSince key (history ++ [.began key]) :=
  ⟨history, [], rfl, List.not_mem_nil⟩

theorem BeganSince.served {key : Text} {history : List Event} (since : BeganSince key history) :
    Served key (history ++ [.ended key]) := by
  obtain ⟨earlier, later, same, none⟩ := since
  refine ⟨earlier, later ++ [.ended key], by rw [same, List.append_assoc, List.cons_append], ?_,
    List.mem_append_right _ (List.mem_singleton.mpr rfl)⟩
  intro member
  rcases List.mem_append.mp member with former | latter
  · exact none former
  · cases List.mem_singleton.mp latter

/-! ### Versions -/

theorem lookup_isSome_iff {versions : List (Text × Nat)} {key : Text} :
    (versions.lookup key).isSome = true ↔ key ∈ versions.map (fun entry => entry.1) := by
  induction versions with
  | nil => simp
  | cons head tail ih =>
      rw [List.lookup_cons, List.map_cons, List.mem_cons, ← ih]
      by_cases same : key = head.1
      · simp [same]
      · simp [same, beq_false_of_ne same]

theorem keys_bump (key : Text) (versions : List (Text × Nat)) :
    (bump key versions).map (fun entry => entry.1) = versions.map (fun entry => entry.1) := by
  unfold bump
  rw [List.map_map]
  refine List.map_congr_left ?_
  intro entry _member
  show (if entry.1 = key then (entry.1, entry.2 + 1) else entry).1 = entry.1
  split <;> rfl

theorem length_bump (key : Text) (versions : List (Text × Nat)) :
    (bump key versions).length = versions.length := by
  unfold bump
  rw [List.length_map]

theorem lookup_bump (key other : Text) (versions : List (Text × Nat)) :
    (bump key versions).lookup other =
      if other = key then (versions.lookup other).map (· + 1) else versions.lookup other := by
  induction versions with
  | nil => simp [bump]
  | cons head tail ih =>
      have unfolded : bump key (head :: tail) =
          (if head.1 = key then (head.1, head.2 + 1) else head) :: bump key tail := rfl
      rw [unfolded, List.lookup_cons, List.lookup_cons, ih]
      by_cases atHead : head.1 = key
      · by_cases same : other = key
        · simp [atHead, same]
        · simp [atHead, same, beq_false_of_ne same]
      · by_cases here : other = head.1
        · have different : ¬other = key := fun equal => atHead (here.symm.trans equal)
          simp [atHead, here]
        · simp [atHead, beq_false_of_ne here]

theorem mem_keys_pop (key other : Text) (versions : List (Text × Nat)) :
    other ∈ (pop key versions).map (fun entry => entry.1) ↔
      other ∈ versions.map (fun entry => entry.1) ∧ other ≠ key := by
  unfold pop
  simp only [List.mem_map, List.mem_filter, decide_eq_true_eq]
  constructor
  · rintro ⟨entry, ⟨member, different⟩, same⟩
    exact ⟨⟨entry, member, same⟩, by rw [← same]; exact different⟩
  · rintro ⟨⟨entry, member, same⟩, different⟩
    exact ⟨entry, ⟨member, by rw [same]; exact different⟩, same⟩

theorem lookup_append_fresh {versions : List (Text × Nat)} {key other : Text} {version : Nat}
    (different : other ≠ key) : (versions ++ [(key, version)]).lookup other = versions.lookup other := by
  rw [List.lookup_append, List.lookup_cons, beq_false_of_ne different, List.lookup_nil,
    Option.or_none]

/-! ### The invariant -/

/-- What the worker knows about the key it has taken: while the version is the one it
read, nothing was accepted since. -/
def Current (state : ReindexQueue) (history : List Event) : Prop :=
  match state.worker with
  | .observed key version => ∃ current, state.versions.lookup key = some current ∧ version ≤ current
  | .running key version => ∃ current, state.versions.lookup key = some current ∧
      version ≤ current ∧ (current = version → BeganSince key history)
  | .finishing key version => ∃ current, state.versions.lookup key = some current ∧
      version ≤ current ∧ (current = version → Served key history)
  | _ => True

/-- An entry is removed only after a processing began since its last enqueue. -/
def RemovedAfterStart (history : List Event) : Prop :=
  ∀ earlier later key, history = earlier ++ .removed key :: later → BeganSince key earlier

structure Invariant (limit : Nat) (run : Run) : Prop where
  capacity : run.state.maxPending = limit
  distinct : run.state.keys.Nodup
  waitingOnce : run.state.queue.Nodup
  tracked : ∀ key, key ∈ run.state.keys ↔ key ∈ run.state.queue ∨ run.state.worker.key = some key
  apart : ∀ key, run.state.worker.key = some key → key ∉ run.state.queue
  bounded : run.state.versions.length ≤ limit
  stopped : run.state.stop = true → run.state.accepting = false
  draining : run.state.worker = .checkingEmpty → run.state.stop = true
  exited : run.state.worker = .exited → run.state.stop = true ∧ run.state.queue = []
  current : Current run.state run.history
  kept : ∀ key, .accepted key ∈ run.history → key ∈ run.state.keys ∨ Served key run.history
  removed : RemovedAfterStart run.history

theorem RemovedAfterStart.append {history : List Event} (holds : RemovedAfterStart history)
    (event : Event) (began : ∀ key, event = .removed key → BeganSince key history) :
    RemovedAfterStart (history ++ [event]) := by
  intro earlier later key split
  rcases List.eq_nil_or_concat later with none | ⟨front, last, shape⟩
  · subst none
    obtain ⟨same, event⟩ := List.append_inj' split rfl
    rw [← same]
    exact began key (List.cons.inj event).1
  · rw [shape, List.concat_eq_append, ← List.cons_append, ← List.append_assoc] at split
    exact holds earlier front key (List.append_inj' split rfl).1

theorem Current.quiet {state : ReindexQueue} {history : List Event} {event : Event}
    (current : Current state history)
    (silent : ∀ key, state.worker.key = some key → event ≠ .accepted key) :
    Current state (history ++ [event]) := by
  unfold Current at current ⊢
  cases shape : state.worker with
  | running key version =>
      simp only [shape] at current ⊢
      obtain ⟨now, found, order, since⟩ := current
      refine ⟨now, found, order, fun same => (since same).append ?_⟩
      intro member
      exact silent key (by rw [shape]; rfl) (List.mem_singleton.mp member).symm
  | finishing key version =>
      simp only [shape] at current ⊢
      obtain ⟨now, found, order, since⟩ := current
      refine ⟨now, found, order, fun same => (since same).append ?_⟩
      intro member
      exact silent key (by rw [shape]; rfl) (List.mem_singleton.mp member).symm
  | observed key version =>
      simp only [shape] at current ⊢
      exact current
  | notStarted => trivial
  | checkingStop => trivial
  | checkingEmpty => trivial
  | getting => trivial
  | holding key => trivial
  | exited => trivial

/-! ### Enqueuing -/

theorem keys_isSome (state : ReindexQueue) (key : Text) :
    (state.versions.lookup key).isSome = true ↔ key ∈ state.keys :=
  lookup_isSome_iff

/-- An enqueue that is not accepted changes nothing. -/
theorem enqueueKey_refused (key : Text) (state : ReindexQueue)
    (refused : (enqueueKey key state).1 = .queueFull ∨ (enqueueKey key state).1 = .stopped) :
    (enqueueKey key state).2 = state := by
  unfold enqueueKey at refused ⊢
  split
  · rfl
  · split
    case isTrue shut known =>
      rw [if_neg shut, if_pos known] at refused
      rcases refused with impossible | impossible <;> cases impossible
    case isFalse shut unknown =>
      split
      · rfl
      case isFalse room =>
        rw [if_neg shut, if_neg unknown, if_neg room] at refused
        rcases refused with impossible | impossible <;> cases impossible

theorem ensureWorker_key (state : ReindexQueue) : (ensureWorker state).worker.key = state.worker.key := by
  unfold ensureWorker
  split
  · rfl
  case isFalse dead =>
    cases shape : state.worker <;> simp [shape, Worker.alive] at dead <;> rfl

theorem ensureWorker_worker (state : ReindexQueue) :
    (ensureWorker state).worker = state.worker ∨ (ensureWorker state).worker = .checkingStop := by
  unfold ensureWorker
  split
  · exact Or.inl rfl
  · exact Or.inr rfl

theorem Invariant.refuse {limit : Nat} {run : Run} (holds : Invariant limit run) (key : Text) :
    Invariant limit { run with history := run.history ++ [.refused key] } := by
  refine ⟨holds.capacity, holds.distinct, holds.waitingOnce, holds.tracked, holds.apart,
    holds.bounded, holds.stopped, holds.draining, holds.exited, ?_, ?_, ?_⟩
  · exact holds.current.quiet (fun _ _ impossible => by cases impossible)
  · intro other member
    rcases List.mem_append.mp member with before | now
    · rcases holds.kept other before with waiting | served
      · exact Or.inl waiting
      · exact Or.inr (served.append (fun member => by cases List.mem_singleton.mp member))
    · cases List.mem_singleton.mp now
  · exact holds.removed.append _ (fun _ impossible => by cases impossible)

/-- A version that grows is ahead of what the worker has read. -/
theorem Invariant.coalesce {limit : Nat} {run : Run} (holds : Invariant limit run) (key : Text)
    (known : key ∈ run.state.keys) :
    Invariant limit
      { state := { run.state with versions := bump key run.state.versions }
        history := run.history ++ [.accepted key] } := by
  have keys : ReindexQueue.keys { run.state with versions := bump key run.state.versions } =
      run.state.keys := keys_bump key _
  refine ⟨holds.capacity, ?_, holds.waitingOnce, ?_, holds.apart, ?_, holds.stopped,
    holds.draining, holds.exited, ?_, ?_, ?_⟩
  · rw [keys]
    exact holds.distinct
  · rw [keys]
    exact holds.tracked
  · show (bump key run.state.versions).length ≤ limit
    rw [length_bump]
    exact holds.bounded
  · have before := holds.current
    unfold Current at before ⊢
    cases shape : run.state.worker with
    | observed taken version =>
        simp only [shape, lookup_bump] at before ⊢
        obtain ⟨now, found, order⟩ := before
        by_cases same : taken = key
        · exact ⟨now + 1, by rw [if_pos same, found]; rfl, by omega⟩
        · exact ⟨now, by rw [if_neg same, found], order⟩
    | running taken version =>
        simp only [shape, lookup_bump] at before ⊢
        obtain ⟨now, found, order, since⟩ := before
        by_cases same : taken = key
        · exact ⟨now + 1, by rw [if_pos same, found]; rfl, by omega, fun equal => by omega⟩
        · refine ⟨now, by rw [if_neg same, found], order, fun equal => (since equal).append ?_⟩
          intro member
          exact same (Event.accepted.inj (List.mem_singleton.mp member))
    | finishing taken version =>
        simp only [shape, lookup_bump] at before ⊢
        obtain ⟨now, found, order, since⟩ := before
        by_cases same : taken = key
        · exact ⟨now + 1, by rw [if_pos same, found]; rfl, by omega, fun equal => by omega⟩
        · refine ⟨now, by rw [if_neg same, found], order, fun equal => (since equal).append ?_⟩
          intro member
          exact same (Event.accepted.inj (List.mem_singleton.mp member))
    | notStarted => trivial
    | checkingStop => trivial
    | checkingEmpty => trivial
    | getting => trivial
    | holding taken => trivial
    | exited => trivial
  · intro other member
    rw [keys]
    by_cases same : other = key
    · exact Or.inl (by rw [same]; exact known)
    · rcases List.mem_append.mp member with before | now
      · rcases holds.kept other before with waiting | served
        · exact Or.inl waiting
        · refine Or.inr (served.append ?_)
          intro inside
          exact same (Event.accepted.inj (List.mem_singleton.mp inside))
      · exact absurd (Event.accepted.inj (List.mem_singleton.mp now)) same
  · exact holds.removed.append _ (fun _ impossible => by cases impossible)

/-- A new key waits; the worker is started when there is none. -/
theorem Invariant.admit {limit : Nat} {run : Run} (holds : Invariant limit run) (key : Text)
    (fresh : key ∉ run.state.keys) (room : run.state.versions.length < limit)
    (accepting : run.state.accepting = true) :
    Invariant limit
      { state := ensureWorker { run.state with
          versions := run.state.versions ++ [(key, 1)]
          queue := run.state.queue ++ [key] }
        history := run.history ++ [.accepted key] } := by
  let added : ReindexQueue := { run.state with
    versions := run.state.versions ++ [(key, 1)]
    queue := run.state.queue ++ [key] }
  have running : run.state.stop = false := by
    cases stopped : run.state.stop with
    | false => rfl
    | true =>
        have refusing := holds.stopped stopped
        rw [accepting] at refusing
        cases refusing
  have parts : (ensureWorker added).queue = added.queue ∧
      (ensureWorker added).versions = added.versions ∧
      (ensureWorker added).stop = added.stop ∧ (ensureWorker added).accepting = added.accepting ∧
      (ensureWorker added).maxPending = added.maxPending := by
    unfold ensureWorker
    split <;> exact ⟨rfl, rfl, rfl, rfl, rfl⟩
  obtain ⟨queue, versions, stop, accepts, capacity⟩ := parts
  have keys : (ensureWorker added).keys = run.state.keys ++ [key] := by
    unfold ReindexQueue.keys
    rw [versions, List.map_append]
    rfl
  have apart : ∀ other, run.state.worker.key = some other → other ≠ key := by
    intro other taken same
    exact fresh (by rw [← same]; exact (holds.tracked other).mpr (Or.inr taken))
  have waiting : key ∉ run.state.queue := fun member =>
    fresh ((holds.tracked key).mpr (Or.inl member))
  have worker : (ensureWorker added).worker.key = run.state.worker.key := ensureWorker_key added
  refine ⟨capacity.trans holds.capacity, ?_, ?_, ?_, ?_, ?_, ?_, ?_, ?_, ?_, ?_, ?_⟩
  · show (ensureWorker added).keys.Nodup
    rw [keys]
    refine List.Nodup.append holds.distinct (List.nodup_singleton _) ?_
    intro other member single
    rw [List.mem_singleton.mp single] at member
    exact fresh member
  · show (ensureWorker added).queue.Nodup
    rw [queue]
    refine List.Nodup.append holds.waitingOnce (List.nodup_singleton _) ?_
    intro other member single
    rw [List.mem_singleton.mp single] at member
    exact waiting member
  · intro other
    show other ∈ (ensureWorker added).keys ↔
      other ∈ (ensureWorker added).queue ∨ (ensureWorker added).worker.key = some other
    rw [keys, queue, worker]
    show other ∈ run.state.keys ++ [key] ↔ other ∈ run.state.queue ++ [key] ∨ _
    rw [List.mem_append, List.mem_append, holds.tracked other]
    exact or_right_comm
  · intro other taken
    show other ∉ (ensureWorker added).queue
    have before : run.state.worker.key = some other := worker.symm.trans taken
    rw [queue]
    intro member
    rcases List.mem_append.mp member with inside | last
    · exact holds.apart other before inside
    · exact apart other before (List.mem_singleton.mp last)
  · show (ensureWorker added).versions.length ≤ limit
    rw [versions]
    show (run.state.versions ++ [(key, 1)]).length ≤ limit
    rw [List.length_append]
    exact room
  · intro stopped
    exact absurd (stop.symm.trans stopped) (by rw [show added.stop = false from running]; decide)
  · intro draining
    rcases ensureWorker_worker added with same | started
    · have before : run.state.worker = .checkingEmpty := same.symm.trans draining
      exact absurd (holds.draining before) (by rw [running]; decide)
    · rw [show (ensureWorker added).worker = .checkingEmpty from draining] at started
      cases started
  · intro exited
    rcases ensureWorker_worker added with same | started
    · have before : run.state.worker = .exited := same.symm.trans exited
      exact absurd (holds.exited before).1 (by rw [running]; decide)
    · rw [show (ensureWorker added).worker = .exited from exited] at started
      cases started
  · show Current (ensureWorker added) (run.history ++ [.accepted key])
    have before : Current run.state (run.history ++ [.accepted key]) :=
      holds.current.quiet (fun other taken same => apart other taken (Event.accepted.inj same).symm)
    rcases ensureWorker_worker added with same | started
    · have lookup : ∀ other, run.state.worker.key = some other →
          (ensureWorker added).versions.lookup other = run.state.versions.lookup other := by
        intro other taken
        rw [versions]
        exact lookup_append_fresh (apart other taken)
      unfold Current at before ⊢
      rw [same]
      show match run.state.worker with
        | .observed taken version => _
        | .running taken version => _
        | .finishing taken version => _
        | _ => True
      cases shape : run.state.worker with
      | observed taken version =>
          simp only [shape] at before ⊢
          rw [lookup taken (by rw [shape]; rfl)]
          exact before
      | running taken version =>
          simp only [shape] at before ⊢
          rw [lookup taken (by rw [shape]; rfl)]
          exact before
      | finishing taken version =>
          simp only [shape] at before ⊢
          rw [lookup taken (by rw [shape]; rfl)]
          exact before
      | notStarted => trivial
      | checkingStop => trivial
      | checkingEmpty => trivial
      | getting => trivial
      | holding taken => trivial
      | exited => trivial
    · unfold Current
      rw [started]
      trivial
  · intro other member
    show other ∈ (ensureWorker added).keys ∨ _
    rw [keys]
    by_cases same : other = key
    · exact Or.inl (List.mem_append_right _ (by rw [same]; exact List.mem_singleton.mpr rfl))
    · rcases List.mem_append.mp member with before | now
      · rcases holds.kept other before with inside | served
        · exact Or.inl (List.mem_append_left _ inside)
        · refine Or.inr (served.append ?_)
          intro inside
          exact same (Event.accepted.inj (List.mem_singleton.mp inside))
      · exact absurd (Event.accepted.inj (List.mem_singleton.mp now)) same
  · exact holds.removed.append _ (fun _ impossible => by cases impossible)

theorem Invariant.enqueueKey {limit : Nat} {run : Run} (holds : Invariant limit run) (key : Text) :
    Invariant limit (run.enqueueKey key) := by
  unfold Run.enqueueKey
  simp only
  unfold ReindexQueue.enqueueKey
  split
  · exact holds.refuse key
  case isFalse open' =>
    split
    case isTrue known =>
      exact holds.coalesce key ((keys_isSome _ _).mp known)
    case isFalse unknown =>
      split
      · exact holds.refuse key
      case isFalse room =>
        refine holds.admit key (fun member => unknown ((keys_isSome _ _).mpr member)) ?_ ?_
        · rw [← holds.capacity]
          exact Nat.lt_of_not_le room
        · simpa using open'

/-! ### The worker -/

/-- Neither an enqueue nor the removal of an entry. -/
def Event.inner : Event → Bool
  | .began _ => true
  | .ended _ => true
  | _ => false

/-- The worker goes on without giving its key back. -/
theorem Invariant.move {limit : Nat} {run : Run} (holds : Invariant limit run) (worker : Worker)
    (events : List Event) (key : worker.key = run.state.worker.key)
    (inner : ∀ event ∈ events, event.inner = true)
    (draining : worker = .checkingEmpty → run.state.stop = true)
    (exited : worker = .exited → run.state.stop = true ∧ run.state.queue = [])
    (current : Current { run.state with worker } (run.history ++ events)) :
    Invariant limit { state := { run.state with worker }, history := run.history ++ events } := by
  have silent : ∀ key, Event.accepted key ∉ events := by
    intro key member
    cases inner _ member
  refine ⟨holds.capacity, holds.distinct, holds.waitingOnce, ?_, ?_, holds.bounded, holds.stopped,
    draining, exited, current, ?_, ?_⟩
  · intro other
    show _ ↔ _ ∨ worker.key = some other
    rw [key]
    exact holds.tracked other
  · intro other taken
    rw [show worker.key = some other from taken] at key
    exact holds.apart other key.symm
  · intro other member
    rcases List.mem_append.mp member with before | now
    · rcases holds.kept other before with waiting | served
      · exact Or.inl waiting
      · exact Or.inr (served.append (silent other))
    · exact absurd now (silent other)
  · have appended : ∀ front : List Event, RemovedAfterStart front →
        ∀ more : List Event, (∀ event ∈ more, event.inner = true) →
          RemovedAfterStart (front ++ more) := by
      intro front before more
      induction more generalizing front with
      | nil =>
          intro _
          rw [List.append_nil]
          exact before
      | cons head tail ih =>
          intro quiet
          rw [List.append_cons]
          refine ih _ (before.append head ?_) (fun event member =>
            quiet event (List.mem_cons_of_mem _ member))
          intro key same
          have impossible := quiet head List.mem_cons_self
          rw [same] at impossible
          cases impossible
    exact appended _ holds.removed events inner

/-- Nothing is in the hands of the worker. -/
theorem Invariant.rest {limit : Nat} {run : Run} (holds : Invariant limit run) (worker : Worker)
    (free : run.state.worker.key = none) (idle : worker.key = none)
    (draining : worker = .checkingEmpty → run.state.stop = true)
    (exited : worker = .exited → run.state.stop = true ∧ run.state.queue = []) :
    Invariant limit { state := { run.state with worker }, history := run.history ++ [] } := by
  refine holds.move worker [] (idle.trans free.symm) (fun _ impossible => by cases impossible)
    draining exited ?_
  unfold Current
  cases worker <;> trivial

/-- The first key is taken from the queue. -/
theorem Invariant.take {limit : Nat} {run : Run} (holds : Invariant limit run) {key : Text}
    {rest : List Text} (getting : run.state.worker = .getting)
    (waiting : run.state.queue = key :: rest) :
    Invariant limit
      { state := { run.state with queue := rest, worker := .holding key }
        history := run.history ++ [] } := by
  have distinct := holds.waitingOnce
  rw [waiting] at distinct
  obtain ⟨absent, once⟩ := List.nodup_cons.mp distinct
  refine ⟨holds.capacity, holds.distinct, once, ?_, ?_, holds.bounded, holds.stopped, ?_, ?_,
    trivial, ?_, ?_⟩
  · intro other
    have tracked := holds.tracked other
    rw [waiting, getting] at tracked
    refine tracked.trans ?_
    show other ∈ key :: rest ∨ none = some other ↔ other ∈ rest ∨ some key = some other
    rw [List.mem_cons, Option.some.injEq]
    constructor
    · rintro ((same | later) | impossible)
      · exact Or.inr same.symm
      · exact Or.inl later
      · cases impossible
    · rintro (later | same)
      · exact Or.inl (Or.inr later)
      · exact Or.inl (Or.inl same.symm)
  · intro other taken
    rw [← Option.some.inj (show some key = some other from taken)]
    exact absent
  · intro impossible
    cases impossible
  · intro impossible
    cases impossible
  · rw [List.append_nil]
    exact holds.kept
  · rw [List.append_nil]
    exact holds.removed

/-- A key whose version has not grown is done. -/
theorem Invariant.remove {limit : Nat} {run : Run} (holds : Invariant limit run) {key : Text}
    {version : Nat} (finishing : run.state.worker = .finishing key version)
    (found : run.state.versions.lookup key = some version) :
    Invariant limit
      { state := { run.state with
          versions := pop key run.state.versions
          worker := .checkingStop }
        history := run.history ++ [.removed key] } := by
  have served : Served key run.history := by
    have current := holds.current
    unfold Current at current
    simp only [finishing] at current
    obtain ⟨now, same, _order, since⟩ := current
    rw [found] at same
    exact since (Option.some.inj same).symm
  have began : BeganSince key run.history := by
    obtain ⟨earlier, later, same, quiet, _ended⟩ := served
    exact ⟨earlier, later, same, quiet⟩
  have waiting : key ∉ run.state.queue := holds.apart key (by rw [finishing]; rfl)
  have keys : ∀ other, other ∈ ReindexQueue.keys { run.state with
      versions := pop key run.state.versions
      worker := .checkingStop } ↔ other ∈ run.state.keys ∧ other ≠ key :=
    fun other => mem_keys_pop key other _
  refine ⟨holds.capacity, ?_, holds.waitingOnce, ?_, ?_, ?_, holds.stopped, ?_, ?_, trivial, ?_, ?_⟩
  · refine List.Nodup.sublist ?_ holds.distinct
    exact List.Sublist.map _ List.filter_sublist
  · intro other
    refine (keys other).trans ?_
    rw [holds.tracked other, finishing]
    show (other ∈ run.state.queue ∨ some key = some other) ∧ other ≠ key ↔
      other ∈ run.state.queue ∨ none = some other
    constructor
    · rintro ⟨inside | same, different⟩
      · exact Or.inl inside
      · exact absurd (Option.some.inj same).symm different
    · rintro (inside | impossible)
      · exact ⟨Or.inl inside, fun same => waiting (by rw [← same]; exact inside)⟩
      · cases impossible
  · intro other impossible
    cases impossible
  · exact Nat.le_trans (List.length_filter_le _ _) holds.bounded
  · intro impossible
    cases impossible
  · intro impossible
    cases impossible
  · intro other member
    rcases List.mem_append.mp member with before | now
    · by_cases same : other = key
      · rw [same]
        exact Or.inr (served.append (fun inside => by cases List.mem_singleton.mp inside))
      · rcases holds.kept other before with inside | done
        · exact Or.inl ((keys other).mpr ⟨inside, same⟩)
        · exact Or.inr (done.append (fun inside => by cases List.mem_singleton.mp inside))
    · cases List.mem_singleton.mp now
  · refine holds.removed.append _ ?_
    intro other same
    rw [← Event.removed.inj same]
    exact began

/-- A key that was enqueued while it was processed waits again. -/
theorem Invariant.requeue {limit : Nat} {run : Run} (holds : Invariant limit run) {key : Text}
    {version : Nat} (finishing : run.state.worker = .finishing key version) :
    Invariant limit
      { state := { run.state with queue := run.state.queue ++ [key], worker := .checkingStop }
        history := run.history ++ [] } := by
  have waiting : key ∉ run.state.queue := holds.apart key (by rw [finishing]; rfl)
  refine ⟨holds.capacity, holds.distinct, ?_, ?_, ?_, holds.bounded, holds.stopped, ?_, ?_,
    trivial, ?_, ?_⟩
  · refine List.Nodup.append holds.waitingOnce (List.nodup_singleton _) ?_
    intro other member single
    rw [List.mem_singleton.mp single] at member
    exact waiting member
  · intro other
    refine (holds.tracked other).trans ?_
    rw [finishing]
    show other ∈ run.state.queue ∨ some key = some other ↔
      other ∈ run.state.queue ++ [key] ∨ none = some other
    rw [List.mem_append, List.mem_singleton, Option.some.injEq]
    constructor
    · rintro (inside | same)
      · exact Or.inl (Or.inl inside)
      · exact Or.inl (Or.inr same.symm)
    · rintro ((inside | same) | impossible)
      · exact Or.inl inside
      · exact Or.inr same.symm
      · cases impossible
  · intro other impossible
    cases impossible
  · intro impossible
    cases impossible
  · intro impossible
    cases impossible
  · rw [List.append_nil]
    exact holds.kept
  · rw [List.append_nil]
    exact holds.removed

theorem Invariant.work {limit : Nat} {run : Run} (holds : Invariant limit run) :
    Invariant limit
      { state := run.state.work.1, history := run.history ++ run.state.work.2 } := by
  have current := holds.current
  unfold Current at current
  unfold ReindexQueue.work
  cases shape : run.state.worker with
  | notStarted =>
      simp only [List.append_nil]
      exact holds
  | exited =>
      simp only [List.append_nil]
      exact holds
  | checkingStop =>
      have free : run.state.worker.key = none := by rw [shape]; rfl
      simp only
      split
      case isTrue stopped =>
        exact holds.rest _ free rfl (fun _ => stopped) (fun impossible => by cases impossible)
      case isFalse =>
        exact holds.rest _ free rfl (fun impossible => by cases impossible)
          (fun impossible => by cases impossible)
  | checkingEmpty =>
      have free : run.state.worker.key = none := by rw [shape]; rfl
      simp only
      split
      case isTrue empty =>
        exact holds.rest _ free rfl (fun impossible => by cases impossible)
          (fun _ => ⟨holds.draining shape, List.isEmpty_iff.mp empty⟩)
      case isFalse =>
        exact holds.rest _ free rfl (fun impossible => by cases impossible)
          (fun impossible => by cases impossible)
  | getting =>
      have free : run.state.worker.key = none := by rw [shape]; rfl
      simp only
      split
      case h_1 =>
        exact holds.rest .checkingStop free rfl (fun impossible => by cases impossible)
          (fun impossible => by cases impossible)
      case h_2 key rest waiting => exact holds.take shape waiting
  | holding key =>
      have tracked : key ∈ run.state.keys :=
        (holds.tracked key).mpr (Or.inr (by rw [shape]; rfl))
      cases found : run.state.versions.lookup key with
      | none =>
          have missing := (keys_isSome run.state key).mpr tracked
          rw [found] at missing
          cases missing
      | some version =>
          simp only [found]
          refine holds.move (.observed key version) [] (by rw [shape]; rfl)
            (fun _ impossible => by cases impossible) (fun impossible => by cases impossible)
            (fun impossible => by cases impossible) ?_
          exact ⟨version, found, Nat.le_refl _⟩
  | observed key version =>
      simp only [shape] at current
      obtain ⟨now, found, order⟩ := current
      refine holds.move (.running key version) [.began key] (by rw [shape]; rfl) ?_
        (fun impossible => by cases impossible) (fun impossible => by cases impossible) ?_
      · intro event member
        rw [List.mem_singleton.mp member]
        rfl
      · exact ⟨now, found, order, fun _ => beganSince_began key _⟩
  | running key version =>
      simp only [shape] at current
      obtain ⟨now, found, order, since⟩ := current
      refine holds.move (.finishing key version) [.ended key] (by rw [shape]; rfl) ?_
        (fun impossible => by cases impossible) (fun impossible => by cases impossible) ?_
      · intro event member
        rw [List.mem_singleton.mp member]
        rfl
      · exact ⟨now, found, order, fun same => (since same).served⟩
  | finishing key version =>
      simp only [shape] at current
      obtain ⟨now, found, _order, _since⟩ := current
      simp only [found]
      split
      case isTrue same =>
        rw [same] at found
        exact holds.remove shape found
      case isFalse => exact holds.requeue shape

theorem Invariant.step {limit : Nat} {run : Run} (holds : Invariant limit run) (action : Action) :
    Invariant limit (run.step action) := by
  cases action with
  | enqueue path => exact holds.enqueueKey path
  | enqueueSync => exact holds.enqueueKey syncKey
  | stopAccepting => exact { holds with stopped := fun _ => rfl }
  | setStop =>
      simp only [Run.step]
      split
      · exact holds
      case isFalse refusing =>
        exact { holds with
          stopped := fun _ => Bool.eq_false_iff.mpr refusing
          draining := fun _ => rfl
          exited := fun gone => ⟨rfl, (holds.exited gone).2⟩ }
  | work => exact holds.work

theorem create_invariant (maxPending : Int) :
    Invariant (max 1 maxPending).toNat { state := create maxPending } where
  capacity := rfl
  distinct := List.nodup_nil
  waitingOnce := List.nodup_nil
  tracked := by
    intro key
    constructor
    · intro impossible
      cases impossible
    · rintro (impossible | impossible) <;> cases impossible
  apart := by
    intro key impossible
    cases impossible
  bounded := Nat.zero_le _
  stopped := by
    intro impossible
    cases impossible
  draining := by
    intro impossible
    cases impossible
  exited := by
    intro impossible
    cases impossible
  current := trivial
  kept := by
    intro key impossible
    cases impossible
  removed := by
    intro earlier later key impossible
    cases earlier <;> cases impossible

theorem run_invariant (maxPending : Int) (actions : List Action) :
    Invariant (max 1 maxPending).toNat (run maxPending actions) := by
  unfold run
  have general : ∀ start : Run, Invariant (max 1 maxPending).toNat start →
      Invariant (max 1 maxPending).toNat (actions.foldl Run.step start) := by
    induction actions with
    | nil => exact fun _ holds => holds
    | cons action rest ih => exact fun start holds => ih _ (holds.step action)
  exact general _ (create_invariant maxPending)

/-! ### What is still to come -/

/-- A processing of the key is still to begin, or to begin again. -/
def Pending (state : ReindexQueue) (key : Text) : Prop :=
  key ∈ state.queue ∨ state.worker = .holding key ∨ (∃ version, state.worker = .observed key version) ∨
    (∃ version, state.worker = .running key version) ∨
      ∃ version current, state.worker = .finishing key version ∧
        state.versions.lookup key = some current ∧ current ≠ version

theorem Pending.mem_keys {limit : Nat} {run : Run} (holds : Invariant limit run) {key : Text}
    (pending : Pending run.state key) : key ∈ run.state.keys := by
  refine (holds.tracked key).mpr ?_
  rcases pending with queued | held | ⟨version, observed⟩ | ⟨version, running⟩ |
    ⟨version, current, finishing, _found⟩
  · exact Or.inl queued
  · exact Or.inr (by rw [held]; rfl)
  · exact Or.inr (by rw [observed]; rfl)
  · exact Or.inr (by rw [running]; rfl)
  · exact Or.inr (by rw [finishing]; rfl)

theorem ensureWorker_pending {state : ReindexQueue} {key : Text} (pending : Pending state key) :
    Pending (ensureWorker state) key := by
  unfold ensureWorker
  split
  · exact pending
  case isFalse dead =>
    rcases pending with queued | held | ⟨version, observed⟩ | ⟨version, running⟩ |
      ⟨version, current, finishing, _found⟩
    · exact Or.inl queued
    · rw [held] at dead
      exact absurd rfl dead
    · rw [observed] at dead
      exact absurd rfl dead
    · rw [running] at dead
      exact absurd rfl dead
    · rw [finishing] at dead
      exact absurd rfl dead

/-- A key whose version grows is pending. -/
theorem bump_pending {limit : Nat} {run : Run} (holds : Invariant limit run) {key : Text}
    (known : key ∈ run.state.keys) :
    Pending { run.state with versions := bump key run.state.versions } key := by
  rcases (holds.tracked key).mp known with queued | taken
  · exact Or.inl queued
  · have current := holds.current
    unfold Current at current
    cases shape : run.state.worker with
    | holding other =>
        rw [shape] at taken
        rw [← Option.some.inj taken]
        exact Or.inr (Or.inl shape)
    | observed other version =>
        rw [shape] at taken
        rw [← Option.some.inj taken]
        exact Or.inr (Or.inr (Or.inl ⟨version, shape⟩))
    | running other version =>
        rw [shape] at taken
        rw [← Option.some.inj taken]
        exact Or.inr (Or.inr (Or.inr (Or.inl ⟨version, shape⟩)))
    | finishing other version =>
        rw [shape] at taken
        have same : other = key := Option.some.inj taken
        subst same
        simp only [shape] at current
        obtain ⟨now, found, order, _served⟩ := current
        refine Or.inr (Or.inr (Or.inr (Or.inr ⟨version, now + 1, shape, ?_, by omega⟩)))
        show (bump other run.state.versions).lookup other = some (now + 1)
        rw [lookup_bump, if_pos rfl, found]
        rfl
    | notStarted => rw [shape] at taken; cases taken
    | checkingStop => rw [shape] at taken; cases taken
    | checkingEmpty => rw [shape] at taken; cases taken
    | getting => rw [shape] at taken; cases taken
    | exited => rw [shape] at taken; cases taken

theorem enqueueKey_pending {limit : Nat} {run : Run} (holds : Invariant limit run) (key : Text)
    (accepted : (enqueueKey key run.state).1 = .queued ∨ (enqueueKey key run.state).1 = .coalesced) :
    Pending (enqueueKey key run.state).2 key := by
  unfold enqueueKey at accepted ⊢
  split
  case isTrue shut =>
    rw [if_pos shut] at accepted
    rcases accepted with impossible | impossible <;> cases impossible
  case isFalse shut =>
    rw [if_neg shut] at accepted
    split
    case isTrue known => exact bump_pending holds ((keys_isSome _ _).mp known)
    case isFalse unknown =>
      rw [if_neg unknown] at accepted
      split
      case isTrue full =>
        rw [if_pos full] at accepted
        rcases accepted with impossible | impossible <;> cases impossible
      case isFalse =>
        exact ensureWorker_pending (Or.inl (List.mem_append_right _ (List.mem_singleton.mpr rfl)))

/-- An enqueue takes nothing back. -/
theorem enqueueKey_keeps {limit : Nat} {run : Run} (holds : Invariant limit run)
    (key : Text) {other : Text} (pending : Pending run.state other) :
    Pending (enqueueKey key run.state).2 other := by
  by_cases same : other = key
  · by_cases accepted : (enqueueKey key run.state).1 = .queued ∨
        (enqueueKey key run.state).1 = .coalesced
    · rw [same]
      exact enqueueKey_pending holds key accepted
    · have refused : (enqueueKey key run.state).1 = .queueFull ∨
          (enqueueKey key run.state).1 = .stopped := by
        cases status : (enqueueKey key run.state).1 with
        | queued => exact absurd (Or.inl status) accepted
        | coalesced => exact absurd (Or.inr status) accepted
        | queueFull => exact Or.inl rfl
        | stopped => exact Or.inr rfl
      rw [enqueueKey_refused key run.state refused]
      exact pending
  · unfold enqueueKey
    split
    · exact pending
    · split
      · rcases pending with queued | held | observed | running | ⟨version, current, rest⟩
        · exact Or.inl queued
        · exact Or.inr (Or.inl held)
        · exact Or.inr (Or.inr (Or.inl observed))
        · exact Or.inr (Or.inr (Or.inr (Or.inl running)))
        · obtain ⟨finishing, found, ahead⟩ := rest
          refine Or.inr (Or.inr (Or.inr (Or.inr ⟨version, current, finishing, ?_, ahead⟩)))
          show (bump key run.state.versions).lookup other = some current
          rw [lookup_bump, if_neg same, found]
      · split
        · exact pending
        · refine ensureWorker_pending ?_
          rcases pending with queued | held | observed | running | ⟨version, current, rest⟩
          · exact Or.inl (List.mem_append_left _ queued)
          · exact Or.inr (Or.inl held)
          · exact Or.inr (Or.inr (Or.inl observed))
          · exact Or.inr (Or.inr (Or.inr (Or.inl running)))
          · obtain ⟨finishing, found, ahead⟩ := rest
            refine Or.inr (Or.inr (Or.inr (Or.inr ⟨version, current, finishing, ?_, ahead⟩)))
            show (run.state.versions ++ [(key, 1)]).lookup other = some current
            rw [lookup_append_fresh same, found]

/-- A step of the worker loses no key, except that a callback that ends has begun. -/
theorem work_keeps {limit : Nat} {run : Run} (holds : Invariant limit run) {key : Text}
    (outside : ∀ version, run.state.worker ≠ .running key version)
    (pending : Pending run.state key) : Pending run.state.work.1 key := by
  rcases pending with queued | held | ⟨version, observed⟩ | ⟨version, running⟩ |
    ⟨version, current, finishing, found, ahead⟩
  · unfold work
    cases shape : run.state.worker with
    | getting =>
        simp only
        split
        case h_1 => exact Or.inl queued
        case h_2 head rest waiting =>
          rw [waiting] at queued
          rcases List.mem_cons.mp queued with same | later
          · exact Or.inr (Or.inl (by rw [same]))
          · exact Or.inl later
    | notStarted => exact Or.inl queued
    | checkingStop => simp only; split <;> exact Or.inl queued
    | checkingEmpty => simp only; split <;> exact Or.inl queued
    | holding other => simp only; split <;> exact Or.inl queued
    | observed other version => exact Or.inl queued
    | running other version => exact Or.inl queued
    | finishing other version =>
        simp only
        split
        · exact Or.inl queued
        · split
          · exact Or.inl queued
          · exact Or.inl (List.mem_append_left _ queued)
    | exited => exact Or.inl queued
  · have tracked : key ∈ run.state.keys := (holds.tracked key).mpr (Or.inr (by rw [held]; rfl))
    unfold work
    simp only [held]
    split
    case h_1 missing =>
      have known := (keys_isSome run.state key).mpr tracked
      rw [missing] at known
      cases known
    case h_2 version _found => exact Or.inr (Or.inr (Or.inl ⟨version, rfl⟩))
  · unfold work
    simp only [observed]
    exact Or.inr (Or.inr (Or.inr (Or.inl ⟨version, rfl⟩)))
  · exact absurd running (outside version)
  · unfold work
    simp only [finishing, found, if_neg ahead]
    exact Or.inl (List.mem_append_right _ (List.mem_singleton.mpr rfl))

theorem work_accepted (state : ReindexQueue) (key : Text) : .accepted key ∉ state.work.2 := by
  have inner : ∀ event ∈ state.work.2, ∀ other, event ≠ .accepted other := by
    intro event member other same
    unfold work at member
    cases shape : state.worker with
    | observed _ _ =>
        simp only [shape] at member
        rw [List.mem_singleton.mp member] at same
        cases same
    | running _ _ =>
        simp only [shape] at member
        rw [List.mem_singleton.mp member] at same
        cases same
    | notStarted => simp only [shape] at member; cases member
    | exited => simp only [shape] at member; cases member
    | checkingStop => simp only [shape] at member; split at member <;> cases member
    | checkingEmpty => simp only [shape] at member; split at member <;> cases member
    | getting => simp only [shape] at member; split at member <;> cases member
    | holding _ => simp only [shape] at member; split at member <;> cases member
    | finishing _ _ =>
        simp only [shape] at member
        split at member
        · cases member
        · split at member
          · rw [List.mem_singleton.mp member] at same
            cases same
          · cases member
  exact fun member => inner _ member key rfl

theorem enqueueKey_keys {key other : Text} {state : ReindexQueue}
    (member : other ∈ (enqueueKey key state).2.keys) : other ∈ state.keys ∨ other = key := by
  unfold enqueueKey at member
  split at member
  · exact Or.inl member
  · split at member
    · refine Or.inl ?_
      unfold keys at member ⊢
      rw [show ({ state with versions := bump key state.versions } : ReindexQueue).versions =
        bump key state.versions from rfl, keys_bump] at member
      exact member
    · split at member
      · exact Or.inl member
      · have versions : ∀ added : ReindexQueue, (ensureWorker added).versions = added.versions := by
          intro added
          unfold ensureWorker
          split <;> rfl
        unfold keys at member ⊢
        rw [versions, List.map_append] at member
        rcases List.mem_append.mp member with before | last
        · exact Or.inl before
        · exact Or.inr (List.mem_singleton.mp last)

theorem work_keys {other : Text} {state : ReindexQueue} (member : other ∈ state.work.1.keys) :
    other ∈ state.keys := by
  unfold work at member
  cases shape : state.worker with
  | finishing key version =>
      simp only [shape] at member
      split at member
      · exact member
      · split at member
        · exact ((mem_keys_pop key other _).mp member).1
        · exact member
  | notStarted => simp only [shape] at member; exact member
  | exited => simp only [shape] at member; exact member
  | checkingStop => simp only [shape] at member; split at member <;> exact member
  | checkingEmpty => simp only [shape] at member; split at member <;> exact member
  | getting => simp only [shape] at member; split at member <;> exact member
  | holding _ => simp only [shape] at member; split at member <;> exact member
  | observed _ _ => simp only [shape] at member; exact member
  | running _ _ => simp only [shape] at member; exact member

/-! ### What the queue promises -/

/-- Keys with a version wait once or are being processed, there are at most `limit` of
them, an entry outlives the last enqueue of its key, an enqueue that is refused changes
nothing, and a worker that has exited has served all that was accepted. -/
structure Correct (limit : Int) (run : Run) : Prop where
  distinct : run.state.keys.Nodup
  waitingOnce : run.state.queue.Nodup
  tracked : ∀ key, key ∈ run.state.keys ↔ key ∈ run.state.queue ∨ run.state.worker.key = some key
  apart : ∀ key, run.state.worker.key = some key → key ∉ run.state.queue
  bounded : (run.state.versions.length : Int) ≤ limit
  removed : RemovedAfterStart run.history
  refused : ∀ key, (ReindexQueue.enqueueKey key run.state).1 = .queueFull ∨
    (ReindexQueue.enqueueKey key run.state).1 = .stopped →
      (ReindexQueue.enqueueKey key run.state).2 = run.state
  served : run.state.worker = .exited → ∀ key, .accepted key ∈ run.history →
    Served key run.history

/-- Under any interleaving of enqueues, worker steps and stops. -/
theorem run_correct (maxPending : Int) (actions : List Action) :
    Correct (max 1 maxPending) (run maxPending actions) := by
  have holds := run_invariant maxPending actions
  refine ⟨holds.distinct, holds.waitingOnce, holds.tracked, holds.apart, ?_, holds.removed,
    fun key => enqueueKey_refused key _, ?_⟩
  · have bounded := holds.bounded
    omega
  · intro exited key member
    rcases holds.kept key member with waiting | served
    · exfalso
      rcases (holds.tracked key).mp waiting with queued | taken
      · rw [(holds.exited exited).2] at queued
        cases queued
      · rw [exited] at taken
        cases taken
    · exact served

end ReindexQueue

end VaultSearch
