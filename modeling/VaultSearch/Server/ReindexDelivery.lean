/-
Edits, the queue and the worker together: what the index holds once the queue has
drained.

The callback of the worker is `reindex_note`; editors go on while it runs, and an
enqueue during the callback counts as one after it, since the two touch different state.
A path is `unannounced` from an edit to its next accepted enqueue.
-/

import VaultSearch.Core.Editing
import VaultSearch.Server.ReindexQueue

set_option autoImplicit false

namespace VaultSearch

open Fallible

/-! ### The system -/

structure Delivery where
  run : ReindexQueue.Run
  world : World
  unannounced : List Text := []
  /-- what the worker's calls answered, the last one first -/
  answers : List (Text × ReindexStatus) := []

inductive DeliveryAction where
  | edit (edit : Edit)
  | enqueue (path : Text)
  | stopAccepting
  | setStop
  /-- a step of the worker outside its callback -/
  | work
  /-- the callback at the time `now`, with the edits just before its steps -/
  | call (edits : List (Label × Edit)) (now : Nat) (fresh : Fresh)

namespace Delivery

def start (maxPending : Int) (world : World) : Delivery :=
  { run := { state := ReindexQueue.create maxPending }, world }

def announced (path : Text) (unannounced : List Text) : List Text :=
  unannounced.filter (· ≠ path)

/-- `self._indexer.reindex_note(key)`. -/
def workerCall (key : Text) (now : Nat) (fresh : Fresh) : Call :=
  { path := key, now, fresh }

/-- The callback has returned. -/
def afterCall (env : Env) (state : Delivery) (key : Text) (edits : List (Label × Edit)) (now : Nat)
    (fresh : Fresh) : Delivery :=
  let outcome := reindexNote env (workerCall key now fresh) (editing edits) state.world
  { run := state.run.step .work
    world := outcome.final
    unannounced := edits.map (fun entry => PurePath.normalPath entry.2.path) ++ state.unannounced
    answers :=
      match outcome.value with
      | some result => (key, result.status) :: state.answers
      | none => state.answers }

def step (env : Env) (state : Delivery) : DeliveryAction → Delivery
  | .edit edit =>
      { state with
        world := Acts.act edit.act state.world
        unannounced := PurePath.normalPath edit.path :: state.unannounced }
  | .enqueue path =>
      let run := state.run.step (.enqueue path)
      let status := (ReindexQueue.enqueueKey path state.run.state).1
      { state with
        run
        unannounced :=
          if status = .queued ∨ status = .coalesced then announced path state.unannounced
          else state.unannounced }
  | .stopAccepting => { state with run := state.run.step .stopAccepting }
  | .setStop => { state with run := state.run.step .setStop }
  | .work =>
      match state.run.state.worker with
      | .running _ _ => state
      | _ => { state with run := state.run.step .work }
  | .call edits now fresh =>
      match state.run.state.worker with
      | .running key _ => state.afterCall env key edits now fresh
      | _ => state

def deliver (env : Env) (state : Delivery) (actions : List DeliveryAction) : Delivery :=
  actions.foldl (step env) state

/-- The rows of the note are those of its content. -/
def Current (env : Env) (state : Delivery) (path : Text) : Prop :=
  state.world.index.noteRows path = contentRows env path (state.world.vault.read path)

/-- Nothing waits, and every edit was followed by an accepted enqueue. -/
def Drained (state : Delivery) : Prop :=
  state.run.state.versions = [] ∧ state.unannounced = []

/-- No update is lost. -/
def Delivered (env : Env) (state : Delivery) : Prop :=
  state.Drained → ∀ path, .accepted path ∈ state.run.history → state.Current env path

/-! ### What a step keeps -/

/-- The last call for the note was stopped, or its rows are current. -/
def Settled (env : Env) (state : Delivery) (path : Text) : Prop :=
  state.answers.lookup path = some .circuitBreakerOpen ∨ state.Current env path

structure Kept (limit : Nat) (env : Env) (state : Delivery) : Prop where
  queue : ReindexQueue.Invariant limit state.run
  ready : state.world.index.Ready
  notes : ∀ key ∈ state.run.state.keys, IsNote env key
  accepted : ∀ path, .accepted path ∈ state.run.history → IsNote env path ∧
    (path ∈ state.unannounced ∨ ReindexQueue.Pending state.run.state path ∨
      state.Settled env path)

theorem Kept.edit {limit : Nat} {env : Env} {state : Delivery} (kept : Kept limit env state)
    (edit : Edit) : Kept limit env (state.step env (.edit edit)) := by
  refine ⟨kept.queue, ?_, kept.notes, ?_⟩
  · show (Acts.act edit.act state.world).index.Ready
    rw [index_act]
    exact kept.ready
  · intro path accepted
    obtain ⟨note, progress⟩ := kept.accepted path accepted
    refine ⟨note, ?_⟩
    by_cases same : path = PurePath.normalPath edit.path
    · exact Or.inl (by rw [same]; exact List.mem_cons_self)
    · rcases progress with waiting | pending | blocked | current
      · exact Or.inl (List.mem_cons_of_mem _ waiting)
      · exact Or.inr (Or.inl pending)
      · exact Or.inr (Or.inr (Or.inl blocked))
      · refine Or.inr (Or.inr (Or.inr ?_))
        show (Acts.act edit.act state.world).index.noteRows path = contentRows env path
          ((Acts.act edit.act state.world).vault.read path)
        rw [index_act, read_act edit state.world path (by rw [note.normal]; exact same)]
        exact current

theorem Kept.enqueue {limit : Nat} {env : Env} {state : Delivery} (kept : Kept limit env state)
    {path : Text} (note : IsNote env path) : Kept limit env (state.step env (.enqueue path)) := by
  have queue := kept.queue.step (.enqueue path)
  refine ⟨queue, kept.ready, ?_, ?_⟩
  · intro key member
    rcases ReindexQueue.enqueueKey_keys member with before | same
    · exact kept.notes key before
    · rw [same]
      exact note
  · intro other accepted
    have still : ReindexQueue.Pending state.run.state other →
        ReindexQueue.Pending (state.step env (.enqueue path)).run.state other :=
      ReindexQueue.enqueueKey_keeps kept.queue path
    have now : ∀ status, (ReindexQueue.enqueueKey path state.run.state).1 = status →
        status = .queued ∨ status = .coalesced →
          ReindexQueue.Pending (state.step env (.enqueue path)).run.state path := by
      intro status same taken
      rw [← same] at taken
      exact ReindexQueue.enqueueKey_pending kept.queue path taken
    rcases List.mem_append.mp accepted with before | last
    · obtain ⟨isNote, progress⟩ := kept.accepted other before
      refine ⟨isNote, ?_⟩
      rcases progress with waiting | pending | settled
      · by_cases taken : (ReindexQueue.enqueueKey path state.run.state).1 = .queued ∨
            (ReindexQueue.enqueueKey path state.run.state).1 = .coalesced
        · by_cases same : other = path
          · rw [same]
            exact Or.inr (Or.inl (now _ rfl taken))
          · refine Or.inl ?_
            unfold step
            simp only
            rw [if_pos taken]
            exact List.mem_filter.mpr ⟨waiting, by simpa using same⟩
        · refine Or.inl ?_
          unfold step
          simp only
          rw [if_neg taken]
          exact waiting
      · exact Or.inr (Or.inl (still pending))
      · exact Or.inr (Or.inr settled)
    · have event := List.mem_singleton.mp last
      cases status : (ReindexQueue.enqueueKey path state.run.state).1 with
      | queued =>
          rw [status] at event
          rw [ReindexQueue.Event.accepted.inj event]
          exact ⟨note, Or.inr (Or.inl (now _ status (Or.inl rfl)))⟩
      | coalesced =>
          rw [status] at event
          rw [ReindexQueue.Event.accepted.inj event]
          exact ⟨note, Or.inr (Or.inl (now _ status (Or.inr rfl)))⟩
      | queueFull => rw [status] at event; cases event
      | stopped => rw [status] at event; cases event

/-- A step of the queue that gives no key away and adds no enqueue. -/
theorem Kept.queueStep {limit : Nat} {env : Env} {state : Delivery} (kept : Kept limit env state)
    (action : ReindexQueue.Action)
    (keys : ∀ key, key ∈ (state.run.step action).state.keys → key ∈ state.run.state.keys)
    (quiet : ∀ path, .accepted path ∈ (state.run.step action).history →
      .accepted path ∈ state.run.history)
    (still : ∀ path, ReindexQueue.Pending state.run.state path →
      ReindexQueue.Pending (state.run.step action).state path) :
    Kept limit env { state with run := state.run.step action } := by
  refine ⟨kept.queue.step action, kept.ready, fun key member => kept.notes key (keys key member), ?_⟩
  intro path accepted
  obtain ⟨note, progress⟩ := kept.accepted path (quiet path accepted)
  refine ⟨note, ?_⟩
  rcases progress with waiting | pending | settled
  · exact Or.inl waiting
  · exact Or.inr (Or.inl (still path pending))
  · exact Or.inr (Or.inr settled)

theorem Kept.work {limit : Nat} {env : Env} {state : Delivery} (kept : Kept limit env state) :
    Kept limit env (state.step env .work) := by
  have worked : (∀ key version, state.run.state.worker ≠ .running key version) →
      Kept limit env { state with run := state.run.step .work } := by
    intro outside
    refine kept.queueStep .work (fun _ member => ReindexQueue.work_keys member) ?_
      (fun path pending => ReindexQueue.work_keeps kept.queue (outside path) pending)
    intro path accepted
    rcases List.mem_append.mp accepted with before | now
    · exact before
    · exact absurd now (ReindexQueue.work_accepted _ path)
  unfold step
  cases shape : state.run.state.worker with
  | running key version => exact kept
  | notStarted => exact worked (by rw [shape]; intro _ _ impossible; cases impossible)
  | checkingStop => exact worked (by rw [shape]; intro _ _ impossible; cases impossible)
  | checkingEmpty => exact worked (by rw [shape]; intro _ _ impossible; cases impossible)
  | getting => exact worked (by rw [shape]; intro _ _ impossible; cases impossible)
  | holding key => exact worked (by rw [shape]; intro _ _ impossible; cases impossible)
  | observed key version => exact worked (by rw [shape]; intro _ _ impossible; cases impossible)
  | finishing key version => exact worked (by rw [shape]; intro _ _ impossible; cases impossible)
  | exited => exact worked (by rw [shape]; intro _ _ impossible; cases impossible)

theorem Kept.call {limit : Nat} {env : Env} (embeds : EmbedsAll env) {state : Delivery}
    (kept : Kept limit env state) {key : Text} {version : Nat}
    (running : state.run.state.worker = .running key version) (edits : List (Label × Edit))
    (now : Nat) (fresh : Fresh) (parses : (state.afterCall env key edits now fresh).world.vault.Parses env) :
    Kept limit env (state.afterCall env key edits now fresh) := by
  have note : IsNote env key :=
    kept.notes key ((kept.queue.tracked key).mpr (Or.inr (by rw [running]; rfl)))
  have worked : state.run.state.work =
      ({ state.run.state with worker := .finishing key version }, [.ended key]) := by
    unfold ReindexQueue.work
    simp only [running]
  refine ⟨kept.queue.step .work, reindexNote_ready kept.ready _ _, ?_, ?_⟩
  · intro other member
    exact kept.notes other (ReindexQueue.work_keys member)
  · intro path accepted
    have before : .accepted path ∈ state.run.history := by
      rcases List.mem_append.mp accepted with before | last
      · exact before
      · exact absurd last (ReindexQueue.work_accepted _ path)
    obtain ⟨isNote, progress⟩ := kept.accepted path before
    refine ⟨isNote, ?_⟩
    by_cases touched : ∃ entry ∈ edits, PurePath.normalPath entry.2.path = path
    · obtain ⟨entry, member, same⟩ := touched
      exact Or.inl (List.mem_append_left _ (List.mem_map.mpr ⟨entry, member, same⟩))
    · have apart : ∀ entry ∈ edits, PurePath.normalPath path ≠ PurePath.normalPath entry.2.path := by
        intro entry member same
        rw [isNote.normal] at same
        exact touched ⟨entry, member, same.symm⟩
      by_cases same : path = key
      · subst same
        obtain ⟨result, value, stopped | current⟩ := reindexNote_own embeds kept.ready
          (workerCall path now fresh) note.normal note.inside note.indexable apart rfl
          (fun _ read => parses.read note.normal read)
        · refine Or.inr (Or.inr (Or.inl ?_))
          unfold afterCall
          simp only [value, List.lookup_cons_self, stopped]
        · exact Or.inr (Or.inr (Or.inr current))
      · rcases progress with waiting | pending | blocked | current
        · exact Or.inl (List.mem_append_right _ waiting)
        · refine Or.inr (Or.inl (Or.inl ?_))
          show path ∈ state.run.state.work.1.queue
          rw [worked]
          rcases pending with queued | held | ⟨_, observed⟩ | ⟨_, other⟩ | ⟨_, _, finishing, _⟩
          · exact queued
          · rw [running] at held; cases held
          · rw [running] at observed; cases observed
          · rw [running] at other
            exact absurd (Worker.running.inj other).1.symm same
          · rw [running] at finishing; cases finishing
        · refine Or.inr (Or.inr (Or.inl ?_))
          unfold afterCall
          simp only
          split
          · rw [List.lookup_cons, beq_eq_false_iff_ne.mpr same]
            exact blocked
          · exact blocked
        · refine Or.inr (Or.inr (Or.inr ?_))
          obtain ⟨content, rows⟩ := reindexNote_other kept.ready
            (workerCall key now fresh) note isNote.normal same apart rfl
          unfold Current afterCall
          rw [rows, content]
          exact current

/-! ### Whole runs -/

/-- Every enqueued path is a note. -/
def Notes (env : Env) (actions : List DeliveryAction) : Prop :=
  ∀ path, DeliveryAction.enqueue path ∈ actions → IsNote env path

theorem Kept.step {limit : Nat} {env : Env} (embeds : EmbedsAll env) {state : Delivery}
    (kept : Kept limit env state) (action : DeliveryAction)
    (note : ∀ path, action = .enqueue path → IsNote env path)
    (parses : (state.step env action).world.vault.Parses env) : Kept limit env (state.step env action) := by
  cases action with
  | edit edit => exact kept.edit edit
  | enqueue path => exact kept.enqueue (note path rfl)
  | stopAccepting =>
      exact kept.queueStep .stopAccepting (fun _ member => member)
        (fun _ accepted => accepted) (fun _ pending => pending)
  | setStop =>
      refine kept.queueStep .setStop ?_ ?_ ?_
      · intro key member
        simp only [ReindexQueue.Run.step] at member
        split at member <;> exact member
      · intro path accepted
        simp only [ReindexQueue.Run.step] at accepted
        split at accepted <;> exact accepted
      · intro path pending
        simp only [ReindexQueue.Run.step]
        split <;> exact pending
  | work => exact kept.work
  | call edits now fresh =>
      cases shape : state.run.state.worker with
      | running key version =>
          have called : state.step env (.call edits now fresh) =
              state.afterCall env key edits now fresh := by
            unfold Delivery.step
            simp only [shape]
          rw [called] at parses ⊢
          exact kept.call embeds shape edits now fresh parses
      | notStarted => unfold Delivery.step; simp only [shape]; exact kept
      | checkingStop => unfold Delivery.step; simp only [shape]; exact kept
      | checkingEmpty => unfold Delivery.step; simp only [shape]; exact kept
      | getting => unfold Delivery.step; simp only [shape]; exact kept
      | holding key => unfold Delivery.step; simp only [shape]; exact kept
      | observed key version => unfold Delivery.step; simp only [shape]; exact kept
      | finishing key version => unfold Delivery.step; simp only [shape]; exact kept
      | exited => unfold Delivery.step; simp only [shape]; exact kept

theorem start_kept (env : Env) (maxPending : Int) {world : World} (ready : world.index.Ready) :
    Kept (max 1 maxPending).toNat env (start maxPending world) where
  queue := ReindexQueue.create_invariant maxPending
  ready := ready
  notes := by
    intro key member
    cases member
  accepted := by
    intro path member
    cases member

theorem deliver_kept {limit : Nat} {env : Env} (embeds : EmbedsAll env) (actions : List DeliveryAction)
    {state : Delivery} (kept : Kept limit env state) (notes : Notes env actions)
    (parses : ∀ front, front <+: actions → (deliver env state front).world.vault.Parses env) :
    Kept limit env (deliver env state actions) := by
  unfold deliver at parses ⊢
  induction actions generalizing state with
  | nil => exact kept
  | cons action rest ih =>
      have first := parses [action] ⟨rest, rfl⟩
      refine ih (kept.step embeds action ?_ first) ?_ ?_
      · intro path same
        exact notes path (by rw [same]; exact List.mem_cons_self)
      · exact fun path member => notes path (List.mem_cons_of_mem _ member)
      · intro front inside
        exact parses (action :: front) (List.cons_prefix_cons.mpr ⟨rfl, inside⟩)

/-- No update is lost that the circuit breaker admits. -/
def DeliveredIfAdmitted (env : Env) (state : Delivery) : Prop :=
  state.Drained → ∀ path, .accepted path ∈ state.run.history →
    state.answers.lookup path ≠ some .circuitBreakerOpen → state.Current env path

def emptyWorld : World :=
  { vault := Vault.empty, index := Index.empty }

/-- A note is edited and enqueued, and the worker takes it. -/
def round (text : Text) (now : Nat) : List DeliveryAction :=
  [.edit { path := "a.md".toList, content := some { text, mtime := now } },
    .enqueue "a.md".toList, .work, .work, .work, .work,
    .call [] now { uuid := "u".toList, mtime := 0 }, .work]

end Delivery

end VaultSearch
