/-
The worker of the watcher, `VaultWatcher._worker_loop` of `watching/watcher.py`: pending
changes whose debounce window has elapsed become calls of the catalog.

`reindex_note` does not touch the catalog and is taken not to raise, so that nothing of it
remains here.
-/

import VaultSearch.Watching.EventHandler

set_option autoImplicit false

namespace VaultSearch.Watching

structure Watcher where
  handler : Handler
  /-- the changes of the batch that the worker has not come to yet -/
  ready : List NoteChange := []
  call : Option CatalogCall := none
  table : CatalogTable
  /-- the notes that were created, edited, moved or deleted -/
  touched : List Text := []

inductive WatcherEvent where
  | handler (event : HandlerEvent)
  /-- the worker collects the events whose window has elapsed -/
  | poll
  /-- it goes on to the next of them -/
  | begin
  | work

def pendingChanges (pending : List (Text × PendingEvent)) : List NoteChange :=
  pending.map (fun entry => { path := entry.1, deleted := entry.2.deleted })

def WatchedFile.status (file : WatchedFile) : FileStatus :=
  { mtimeNs := file.revision.mtimeNs, size := file.revision.size }

def HandlerEvent.touches : HandlerEvent → List Text
  | .change _ updates _ => updates.map Prod.fst
  | _ => []

/-- The last event of a note tells whether the change has left a file there. -/
def Truthful (env : Env) (after : Handler) : HandlerEvent → Prop
  | .change _ _ events =>
      ∀ call ∈ events.flatMap (FsEvent.enqueueCalls env),
        NoteChange.newest (events.flatMap (FsEvent.enqueueCalls env)) call.path =
          some (after.files call.path).isNone
  | _ => True

instance decidableTruthful (env : Env) (after : Handler) :
    ∀ event, Decidable (Truthful env after event)
  | .change _ _ _ => inferInstanceAs (Decidable (∀ call ∈ _, _))
  | .wait _ => isTrue trivial
  | .observe _ => isTrue trivial
  | .register _ => isTrue trivial
  | .look _ => isTrue trivial
  | .settle => isTrue trivial

namespace Watcher

variable (env : Env) (debounce : Nat) (state : Watcher)

def status (path : Text) : Option FileStatus :=
  (state.handler.files path).map WatchedFile.status

/-- `now - v["time"] >= WATCHER_DEBOUNCE` -/
def isExpired (entry : Text × PendingEvent) : Bool :=
  debounce ≤ state.handler.now - entry.2.time

def collect : Watcher :=
  { state with
    handler := { state.handler with
      pending := state.handler.pending.filter (fun entry => !state.isExpired debounce entry) }
    ready := pendingChanges (state.handler.pending.filter (state.isExpired debounce)) }

def step : WatcherEvent → Option Watcher
  | .handler event =>
      match state.handler.step env event with
      | none => none
      | some after =>
          if Truthful env after event then
            some { state with handler := after, touched := state.touched ++ event.touches }
          else none
  | .poll =>
      if state.ready.isEmpty && state.call.isNone then some (state.collect debounce) else none
  | .begin =>
      match state.ready, state.call with
      | change :: rest, none =>
          some { state with
            ready := rest
            call := some (CatalogCall.ofChange change.path change.deleted) }
      | _, _ => none
  | .work =>
      state.call.map (fun current =>
        let done := current.step env state.status state.table
        { state with call := done.1, table := done.2 })

/-! ### What is to be done -/

/-- The changes that wait for the worker. -/
def waiting : List NoteChange :=
  state.ready ++ pendingChanges state.handler.pending

/-- All changes that the worker has not begun a call for, the oldest first. -/
def owed : List NoteChange :=
  state.waiting ++ ((state.handler.looked.map Prod.fst).toList ++ state.handler.inFlight)

/-- A process that has seen no event yet, with any rows in the table. -/
structure Fresh : Prop where
  /-- only files of the extensions that are watched concern the watcher -/
  notes : ∀ path, (state.handler.files path).isSome = true → isScanned env path = true
  inFlight : state.handler.inFlight = []
  looked : state.handler.looked = none
  pending : state.handler.pending = []
  ready : state.ready = []
  idle : state.call = none
  untouched : state.touched = []

/-- Every event has been delivered and dealt with. -/
structure Quiet : Prop where
  inFlight : state.handler.inFlight = []
  looked : state.handler.looked = none
  pending : state.handler.pending = []
  ready : state.ready = []
  idle : state.call = none

/-- The catalog has a row for a touched note exactly if its file exists. -/
def Converged : Prop :=
  ∀ path ∈ state.touched,
    (state.table.find path).isSome = (state.handler.files path).isSome

/-- Whether the note, if its file exists, has a row when the current call has ended. -/
def leavesRow (path : Text) : Bool :=
  match state.call with
  | some (.delete gone) => gone ≠ path && (state.table.find path).isSome
  | some current => current.path = path || (state.table.find path).isSome
  | none => (state.table.find path).isSome

/-- Without the event in the hands of the handler, the row of an existing file would still
come about: by a later event, by the newest change that waits, or by the call and the table. -/
def Covers (path : Text) : Prop :=
  NoteChange.newest state.handler.inFlight path ≠ none ∨
    NoteChange.newest state.waiting path = some false ∨
      NoteChange.newest state.waiting path = none ∧ state.leavesRow path = true

instance (path : Text) : Decidable (state.Covers path) :=
  inferInstanceAs (Decidable (_ ∨ _ ∨ _))

/-- A token drops no event that is still needed. -/
def DropsCovered (state : Watcher) : WatcherEvent → Prop
  | .handler .settle => ∀ found ∈ state.handler.looked,
      state.handler.isIgnored found.1 found.2 = true → state.Covers found.1.path
  | _ => True

instance decidableDropsCovered (state : Watcher) : ∀ event, Decidable (DropsCovered state event)
  | .handler .settle => inferInstanceAs (Decidable (∀ found ∈ state.handler.looked, _))
  | .handler (.wait _) => isTrue trivial
  | .handler (.change _ _ _) => isTrue trivial
  | .handler (.observe _) => isTrue trivial
  | .handler (.register _) => isTrue trivial
  | .handler (.look _) => isTrue trivial
  | .poll => isTrue trivial
  | .begin => isTrue trivial
  | .work => isTrue trivial

/-- The catalog is asked about existence only. -/
def presence (_status : FileStatus) : Unit := ()

structure Invariant : Prop where
  notes : ∀ path, (state.handler.files path).isSome = true → isScanned env path = true
  distinct : (state.handler.pending.map Prod.fst).Nodup
  looked : ∀ found, state.handler.looked = some found →
    NoteChange.newest state.handler.inFlight found.1.path ≠ none ∨
      (state.handler.files found.1.path).isSome = found.2.isSome
  calls : CallsCurrent presence state.status (NoteChange.newest state.owed) state.call
  settled : ∀ path ∈ state.touched,
    Settled presence state.status (NoteChange.newest state.owed) state.call state.table path

/-! ### The handler -/

section Owed

variable (waiting held inFlight : List NoteChange) (path : Text)

theorem newest_owed : NoteChange.newest (waiting ++ (held ++ inFlight)) path =
    (NoteChange.newest inFlight path).or
      ((NoteChange.newest held path).or (NoteChange.newest waiting path)) := by
  rw [NoteChange.newest_append, NoteChange.newest_append, Option.or_assoc]

theorem paths_pendingChanges (pending : List (Text × PendingEvent)) :
    (pendingChanges pending).map NoteChange.path = pending.map Prod.fst := by
  unfold pendingChanges
  rw [List.map_map]
  rfl

theorem newest_pendingChanges {pending : List (Text × PendingEvent)}
    (distinct : (pending.map Prod.fst).Nodup) :
    NoteChange.newest (pendingChanges pending) path =
      (pending.lookup path).map PendingEvent.deleted := by
  cases found : pending.lookup path with
  | none =>
      rw [Option.map_none, NoteChange.newest_eq_none]
      intro change member
      obtain ⟨entry, isEntry, same⟩ := List.mem_map.mp member
      rw [← same]
      exact OrderedDict.lookup_eq_none.mp found entry isEntry
  | some event =>
      have distinctPaths : ((pendingChanges pending).map NoteChange.path).Nodup := by
        rw [paths_pendingChanges]
        exact distinct
      exact NoteChange.newest_of_mem distinctPaths
        (List.mem_map_of_mem (OrderedDict.mem_of_lookup found))

theorem newest_pendingChanges_set {pending : List (Text × PendingEvent)}
    (distinct : (pending.map Prod.fst).Nodup) (name : Text) (event : PendingEvent) :
    NoteChange.newest (pendingChanges (OrderedDict.set pending name event)) path =
      if path = name then some event.deleted
      else NoteChange.newest (pendingChanges pending) path := by
  rw [newest_pendingChanges path (OrderedDict.distinct_set distinct name event),
    newest_pendingChanges path distinct, OrderedDict.lookup_set]
  split
  case isTrue => rfl
  case isFalse => rfl

end Owed

variable {env debounce state}

/-- The clock and the tokens say nothing about what is to be done. -/
theorem Invariant.tokens {now : Nat} {tokens : IgnoreTokens}
    {observed : List (Text × FileRevision)} (holds : state.Invariant env) :
    ({ state with handler := { state.handler with now, tokens, observed } } :
      Watcher).Invariant env :=
  { notes := holds.notes
    distinct := holds.distinct
    looked := holds.looked
    calls := holds.calls
    settled := holds.settled }

theorem Invariant.changed {writer : Writer} {updates : List (Text × Option FileRevision)}
    {calls : List NoteChange} (holds : state.Invariant env)
    (scanned : ∀ call ∈ calls, isScanned env call.path = true)
    (reported : Handler.Reported env updates calls)
    (truthful : ∀ call ∈ calls, NoteChange.newest calls call.path =
      some ((updates.foldl (updateFile writer) state.handler.files) call.path).isNone) :
    ({ state with
      handler := { state.handler with
        files := updates.foldl (updateFile writer) state.handler.files
        inFlight := state.handler.inFlight ++ calls }
      touched := state.touched ++ updates.map Prod.fst } : Watcher).Invariant env := by
  have unreported : ∀ path, NoteChange.newest calls path = none →
      (updates.foldl (updateFile writer) state.handler.files) path =
        state.handler.files path := by
    intro path silent
    rcases Handler.files_updated writer updates state.handler.files path with
      ⟨same, _untouched⟩ | ⟨update, member, isPath, _changed⟩
    · exact same
    · obtain ⟨call, inCalls, isCall⟩ := reported.1 update member
      exact absurd (isCall.trans isPath) (NoteChange.newest_eq_none.mp silent call inCalls)
  have newestInFlight : ∀ path,
      NoteChange.newest (state.handler.inFlight ++ calls) path =
        (NoteChange.newest calls path).or (NoteChange.newest state.handler.inFlight path) :=
    fun path => NoteChange.newest_append _ _ path
  have told : ∀ path,
      (NoteChange.newest (state.waiting ++ ((state.handler.looked.map Prod.fst).toList ++
          (state.handler.inFlight ++ calls))) path = NoteChange.newest state.owed path ∧
        ((updates.foldl (updateFile writer) state.handler.files) path).map WatchedFile.status =
          state.status path) ∨
      ∃ deleted, NoteChange.newest (state.waiting ++ ((state.handler.looked.map Prod.fst).toList ++
          (state.handler.inFlight ++ calls))) path = some deleted ∧
        (deleted = true → ((updates.foldl (updateFile writer) state.handler.files) path).map
          WatchedFile.status = none) := by
    intro path
    unfold owed
    rw [newest_owed, newest_owed, newestInFlight]
    cases isNewest : NoteChange.newest calls path with
    | none =>
        refine Or.inl ⟨rfl, ?_⟩
        rw [unreported path isNewest]
        rfl
    | some deleted =>
        refine Or.inr ⟨deleted, rfl, fun isDeletion => ?_⟩
        obtain ⟨call, inCalls, isPath, _flag⟩ := NoteChange.newest_mem isNewest
        have told := truthful call inCalls
        rw [isPath, isNewest] at told
        rw [isDeletion] at told
        rw [Option.isNone_iff_eq_none.mp (Option.some.inj told).symm]
        rfl
  obtain ⟨callsAfter, settled⟩ := @CallsCurrent.change _ presence state.status
    (NoteChange.newest state.owed) state.table _ _ state.call holds.calls told
  constructor
  · intro path present
    dsimp only at present
    cases isNewest : NoteChange.newest calls path with
    | none =>
        rw [unreported path isNewest] at present
        exact holds.notes path present
    | some deleted =>
        obtain ⟨call, inCalls, isPath, _flag⟩ := NoteChange.newest_mem isNewest
        rw [← isPath]
        exact scanned call inCalls
  · exact holds.distinct
  · intro found isLooked
    dsimp only
    rw [newestInFlight]
    cases isNewest : NoteChange.newest calls found.1.path with
    | none =>
        rw [Option.none_or, unreported _ isNewest]
        exact holds.looked found isLooked
    | some deleted => exact Or.inl (Option.some_ne_none deleted)
  · exact callsAfter
  · intro path member
    apply settled path
    rcases List.mem_append.mp member with earlier | now
    · exact Or.inl (holds.settled path earlier)
    · refine Or.inr ?_
      obtain ⟨update, isUpdate, isPath⟩ := List.mem_map.mp now
      obtain ⟨call, inCalls, isCall⟩ := reported.1 update isUpdate
      intro silent
      rw [NoteChange.newest_eq_none] at silent
      exact silent call (List.mem_append_right _ (List.mem_append_right _
        (List.mem_append_right _ inCalls))) (isCall.trans isPath)

theorem Invariant.lookedAt {path : Text} {taken : NoteChange} {rest : List NoteChange}
    (holds : state.Invariant env) (free : state.handler.looked = none)
    (found : NoteChange.takeFirst path state.handler.inFlight = some (taken, rest)) :
    ({ state with
      handler := { state.handler with
        inFlight := rest
        looked := some (taken, state.handler.files path) } } : Watcher).Invariant env := by
  obtain ⟨isPath, _members⟩ := NoteChange.takeFirst_mem found
  obtain ⟨others, own⟩ := NoteChange.takeFirst_spec found
  have sameNewest : NoteChange.newest (state.waiting ++ ([taken] ++ rest)) =
      NoteChange.newest state.owed := by
    funext other
    unfold owed
    rw [free, Option.map_none, newest_owed, newest_owed, NoteChange.newest_singleton, isPath,
      Option.toList_none, NoteChange.newest, Option.none_or]
    by_cases here : path = other
    · rw [if_pos here, ← here]
      rcases own with ⟨same, waiting⟩ | ⟨gone, isNewest⟩
      · rw [same]
        obtain ⟨flag, isFlag⟩ := Option.ne_none_iff_exists'.mp waiting
        rw [isFlag, Option.some_or, Option.some_or]
      · rw [gone, isNewest, Option.none_or, Option.some_or]
    · rw [if_neg here, others other (fun same => here same.symm), Option.none_or]
  constructor
  · exact holds.notes
  · exact holds.distinct
  · intro looked isLooked
    cases isLooked
    refine Or.inr ?_
    dsimp only
    rw [isPath]
  · unfold owed
    dsimp only
    rw [Option.map_some, Option.toList_some]
    exact sameNewest ▸ holds.calls
  · unfold owed
    dsimp only
    rw [Option.map_some, Option.toList_some]
    exact sameNewest ▸ holds.settled

theorem isSome_notice (files : Text → Option WatchedFile) (noticed path : Text) :
    (Function.update files noticed ((files noticed).map WatchedFile.notice) path).map
      WatchedFile.status = (files path).map WatchedFile.status := by
  by_cases here : path = noticed
  · rw [here, Function.update_self, Option.map_map]
    rfl
  · rw [Function.update_of_ne here]

/-- An event becomes a pending change, which is as new as the event was. -/
theorem Invariant.addedPending {change : NoteChange} {seen : Option WatchedFile}
    (holds : state.Invariant env) (isLooked : state.handler.looked = some (change, seen)) :
    ({ state with handler := (state.handler.consume change).addPending change } :
      Watcher).Invariant env := by
  have sameStatus : ({ state with
      handler := (state.handler.consume change).addPending change } : Watcher).status =
        state.status := by
    funext path
    exact isSome_notice state.handler.files change.path path
  have sameNewest : NoteChange.newest ({ state with
      handler := (state.handler.consume change).addPending change } : Watcher).owed =
        NoteChange.newest state.owed := by
    funext path
    unfold owed waiting
    rw [isLooked, Option.map_some, newest_owed, newest_owed, NoteChange.newest_append,
      NoteChange.newest_append, Option.toList_some, NoteChange.newest_singleton]
    unfold Handler.addPending Handler.consume
    dsimp only
    rw [newest_pendingChanges_set path holds.distinct, Option.map_none, Option.toList_none,
      NoteChange.newest, Option.none_or]
    by_cases here : path = change.path
    · rw [if_pos here, if_pos here.symm, Option.some_or, Option.some_or]
    · rw [if_neg here, if_neg (fun same => here same.symm), Option.none_or]
  constructor
  · intro path present
    apply holds.notes path
    have same := congrFun sameStatus path
    unfold status at same
    rw [← Option.isSome_map, ← same, Option.isSome_map]
    exact present
  · exact OrderedDict.distinct_set holds.distinct _ _
  · intro looked impossible
    cases impossible
  · rw [sameStatus, sameNewest]
    exact holds.calls
  · rw [sameStatus, sameNewest]
    exact holds.settled

/-- A file that was seen is still there, or a later event is on its way. -/
theorem Invariant.still_there {change : NoteChange} {file : WatchedFile}
    (holds : state.Invariant env)
    (isLooked : state.handler.looked = some (change, some file))
    (last : NoteChange.newest state.handler.inFlight change.path = none) :
    (state.status change.path).isSome = true := by
  unfold status
  rw [Option.isSome_map]
  rcases holds.looked _ isLooked with later | same
  · exact absurd last later
  · exact same

theorem shows_presence {disk : Text → Option FileStatus} {table : CatalogTable} {path : Text} :
    Shows presence disk table path ↔ (table.find path).isSome = (disk path).isSome := by
  unfold Shows
  cases table.find path with
  | none =>
      cases disk path with
      | none => simp
      | some status => simp
  | some row =>
      cases disk path with
      | none => simp
      | some status => simp [presence]

/-- A call that is not about to delete knows nothing but that the file is there. -/
theorem current_of_present {disk : Text → Option FileStatus} {current : CatalogCall}
    (present : (disk current.path).isSome = true)
    (keeps : current ≠ .delete current.path) : current.Current presence disk := by
  cases current with
  | upsert relativePath => exact trivial
  | reading relativePath => exact present
  | inserting row =>
      obtain ⟨status, isStatus⟩ := Option.isSome_iff_exists.mp present
      exact congrArg (Option.map presence) isStatus
  | delete relativePath => exact absurd rfl keeps

theorem leavesRow_delete {path : Text} (deleting : state.call = some (.delete path)) :
    state.leavesRow path = false := by
  unfold leavesRow
  rw [deleting]
  simp

/-- A note that no call is about keeps the row it has. -/
theorem find_of_leavesRow {path : Text} (leaves : state.leavesRow path = true)
    (elsewhere : ∀ current, state.call = some current → current.path ≠ path) :
    (state.table.find path).isSome = true := by
  unfold leavesRow at leaves
  split at leaves
  case h_1 gone _deleting => exact (Bool.and_eq_true_iff.mp leaves).2
  case h_2 current _other isCall =>
    rcases Bool.or_eq_true_iff.mp leaves with here | present
    · exact absurd (of_decide_eq_true here) (elsewhere current isCall)
    · exact present
  case h_3 => exact leaves

/-- Without the event, the newest change of a covered path is that of a later event, an older
write, or none where the row stays. -/
theorem Covers.cases {path : Text} (covered : state.Covers path) (deleted : Bool) :
    (NoteChange.newest state.handler.inFlight path).or
        ((some deleted).or (NoteChange.newest state.waiting path)) =
      (NoteChange.newest state.handler.inFlight path).or (NoteChange.newest state.waiting path) ∨
    NoteChange.newest state.handler.inFlight path = none ∧
      (NoteChange.newest state.waiting path = some false ∨
        NoteChange.newest state.waiting path = none ∧ state.leavesRow path = true) := by
  cases last : NoteChange.newest state.handler.inFlight path with
  | none => exact Or.inr ⟨rfl, covered.resolve_left (fun later => later last)⟩
  | some flag => exact Or.inl rfl

/-- A token drops an event that is not needed. -/
theorem Invariant.ignored {change : NoteChange} {file : WatchedFile}
    (holds : state.Invariant env)
    (isLooked : state.handler.looked = some (change, some file))
    (covered : state.Covers change.path) :
    ({ state with handler := (state.handler.consume change).ignore (some file) } :
      Watcher).Invariant env := by
  have newestBefore : ∀ path, NoteChange.newest state.owed path =
      (NoteChange.newest state.handler.inFlight path).or
        ((if change.path = path then some change.deleted else none).or
          (NoteChange.newest state.waiting path)) := by
    intro path
    unfold owed
    rw [newest_owed, isLooked, Option.map_some, Option.toList_some, NoteChange.newest_singleton]
  let after : Newest := fun path =>
    (NoteChange.newest state.handler.inFlight path).or (NoteChange.newest state.waiting path)
  have newestAfter : NoteChange.newest ({ state with
      handler := (state.handler.consume change).ignore (some file) } : Watcher).owed = after := by
    funext path
    unfold owed
    rw [newest_owed]
    rfl
  have others : ∀ path, path ≠ change.path → after path = NoteChange.newest state.owed path := by
    intro path different
    rw [newestBefore, if_neg (fun same => different same.symm), Option.none_or]
  have kept : CallsCurrent presence state.status after state.call ∧
      ∀ path, Settled presence state.status (NoteChange.newest state.owed) state.call
        state.table path → Settled presence state.status after state.call state.table path := by
    have own := newestBefore change.path
    rw [if_pos rfl] at own
    rcases covered.cases change.deleted with same | ⟨last, waits⟩
    · have sameNewest : after = NoteChange.newest state.owed := by
        funext path
        by_cases here : path = change.path
        · rw [here, own]
          exact same.symm
        · exact others path here
      rw [sameNewest]
      exact ⟨holds.calls, fun path settled => settled⟩
    · have present := holds.still_there isLooked last
      have ownAfter : after change.path = NoteChange.newest state.waiting change.path := by
        unfold after
        rw [last, Option.none_or]
      have leaves : after change.path = none → state.leavesRow change.path = true := by
        intro empty
        rw [ownAfter] at empty
        rcases waits with write | ⟨_none, leavesRow⟩
        · rw [empty] at write
          cases write
        · exact leavesRow
      apply holds.calls.forget others
      · intro isDeletion
        rw [ownAfter] at isDeletion
        rcases waits with write | ⟨empty, _leaves⟩
        · rw [isDeletion] at write
          cases write
        · rw [isDeletion] at empty
          cases empty
      · intro empty current isCall here
        apply current_of_present
        · rw [here]
          exact present
        · intro deleting
          rw [deleting, here] at isCall
          have row := leaves empty
          rw [leavesRow_delete isCall] at row
          cases row
      · intro empty elsewhere
        rw [shows_presence, present]
        exact find_of_leavesRow (leaves empty) elsewhere
  constructor
  · exact holds.notes
  · exact holds.distinct
  · intro looked impossible
    cases impossible
  · rw [newestAfter]
    exact kept.1
  · rw [newestAfter]
    exact fun path member => kept.2 path (holds.settled path member)

/-! ### The worker -/

theorem Invariant.collected (holds : state.Invariant env) (done : state.ready = []) :
    (state.collect debounce).Invariant env := by
  have distinctPaths : ((pendingChanges state.handler.pending).map NoteChange.path).Nodup := by
    rw [paths_pendingChanges]
    exact holds.distinct
  have sameNewest : NoteChange.newest (state.collect debounce).owed =
      NoteChange.newest state.owed := by
    have split : NoteChange.newest (pendingChanges state.handler.pending) =
        NoteChange.newest (state.collect debounce).waiting := by
      apply NoteChange.newest_perm _ distinctPaths
      unfold waiting collect pendingChanges
      dsimp only
      rw [← List.map_append]
      exact ((List.filter_append_perm (state.isExpired debounce) state.handler.pending).map _).symm
    funext path
    unfold owed
    rw [newest_owed, newest_owed, ← split]
    unfold waiting
    rw [done, List.nil_append]
    rfl
  constructor
  · exact holds.notes
  · exact holds.distinct.sublist (List.filter_sublist.map Prod.fst)
  · exact holds.looked
  · rw [sameNewest]
    exact holds.calls
  · rw [sameNewest]
    exact holds.settled

theorem Invariant.begun {change : NoteChange} {rest : List NoteChange}
    (holds : state.Invariant env) (next : state.ready = change :: rest)
    (idle : state.call = none) :
    ({ state with
      ready := rest
      call := some (CatalogCall.ofChange change.path change.deleted) } :
        Watcher).Invariant env := by
  have newestBefore : ∀ path, NoteChange.newest state.owed path =
      (NoteChange.newest ({ state with ready := rest } : Watcher).owed path).or
        (if change.path = path then some change.deleted else none) := by
    intro path
    unfold owed waiting
    rw [next]
    rfl
  have calls := holds.calls
  rw [idle] at calls
  obtain ⟨callsAfter, settled⟩ := @CallsCurrent.begin _ presence state.status
    (NoteChange.newest state.owed) state.table
    (NoteChange.newest ({ state with ready := rest } : Watcher).owed) change.path change.deleted
    calls
    (fun other different => by
      rw [newestBefore, if_neg (fun same => different same.symm), Option.or_none])
    (by
      rw [newestBefore, if_pos rfl]
      cases NoteChange.newest ({ state with ready := rest } : Watcher).owed change.path with
      | none => exact Or.inr ⟨rfl, rfl⟩
      | some flag => exact Or.inl ⟨rfl, Option.some_ne_none flag⟩)
  constructor
  · exact holds.notes
  · exact holds.distinct
  · exact holds.looked
  · exact callsAfter
  · intro path member
    have before := holds.settled path member
    rw [idle] at before
    exact settled path before

theorem Invariant.worked {current : CatalogCall} (holds : state.Invariant env)
    (isCall : state.call = some current) :
    ({ state with
      call := (current.step env state.status state.table).1
      table := (current.step env state.status state.table).2 } : Watcher).Invariant env := by
  have calls := holds.calls
  rw [isCall] at calls
  have indexable : ∀ path, (state.status path).isSome = true →
      hasIndexableExtension env path = true := by
    intro path present
    unfold status at present
    rw [Option.isSome_map] at present
    exact (Bool.and_eq_true_iff.mp (holds.notes path present)).1
  obtain ⟨callsAfter, settled⟩ := @CallsCurrent.work _ presence state.status
    (NoteChange.newest state.owed) state.table current env calls indexable
  constructor
  · exact holds.notes
  · exact holds.distinct
  · exact holds.looked
  · exact callsAfter
  · intro path member
    have before := holds.settled path member
    rw [isCall] at before
    exact settled path before

/-! ### Runs -/

theorem scanned_enqueueCalls {events : List FsEvent} {call : NoteChange}
    (member : call ∈ events.flatMap (FsEvent.enqueueCalls env)) :
    isScanned env call.path = true := by
  have single : ∀ path deleted, call ∈ enqueueCall env path deleted →
      isScanned env call.path = true := by
    intro path deleted isCall
    unfold enqueueCall at isCall
    split at isCall
    case isTrue scanned =>
      rw [List.mem_singleton.mp isCall]
      exact scanned
    case isFalse => cases isCall
  obtain ⟨event, _isEvent, isCall⟩ := List.mem_flatMap.mp member
  cases event with
  | created path => exact single path false isCall
  | modified path => exact single path false isCall
  | deleted path => exact single path true isCall
  | moved source destination =>
      rcases List.mem_append.mp isCall with fromSource | fromDestination
      · exact single source true fromSource
      · exact single destination false fromDestination

theorem Invariant.handled {event : HandlerEvent} {after : Handler}
    (holds : state.Invariant env) (covered : DropsCovered state (.handler event))
    (taken : state.handler.step env event = some after)
    (truthful : Truthful env after event) :
    ({ state with
      handler := after
      touched := state.touched ++ event.touches } : Watcher).Invariant env := by
  cases event with
  | wait elapsed =>
      cases taken
      unfold HandlerEvent.touches
      rw [List.append_nil]
      exact holds.tokens
  | change writer updates events =>
      unfold Handler.step at taken
      dsimp only at taken
      split at taken
      case isTrue reported =>
        cases taken
        exact holds.changed (fun call => scanned_enqueueCalls) reported truthful
      case isFalse => cases taken
  | observe relativePath =>
      obtain ⟨file, _isFile, same⟩ := Option.map_eq_some_iff.mp taken
      cases same
      unfold HandlerEvent.touches
      rw [List.append_nil]
      exact holds.tokens
  | register position =>
      obtain ⟨entry, _found, same⟩ := Option.map_eq_some_iff.mp taken
      cases same
      unfold HandlerEvent.touches
      rw [List.append_nil]
      exact holds.tokens
  | look path =>
      unfold HandlerEvent.touches
      rw [List.append_nil]
      unfold Handler.step at taken
      dsimp only at taken
      split at taken
      case isTrue => cases taken
      case isFalse free =>
        obtain ⟨⟨first, rest⟩, found, same⟩ := Option.map_eq_some_iff.mp taken
        cases same
        exact holds.lookedAt (Option.not_isSome_iff_eq_none.mp free) found
  | settle =>
      obtain ⟨⟨change, seen⟩, isLooked, same⟩ := Option.map_eq_some_iff.mp taken
      cases same
      unfold HandlerEvent.touches
      rw [List.append_nil]
      unfold Handler.enqueue
      dsimp only
      split
      case isTrue own =>
        obtain ⟨_token, file, _found, isFile, _same⟩ := Handler.isOwnRevision_true own
        have needless := covered _ isLooked own
        rw [isFile] at isLooked ⊢
        exact holds.ignored isLooked needless
      case isFalse => exact holds.addedPending isLooked

theorem Invariant.step {event : WatcherEvent} {after : Watcher} (holds : state.Invariant env)
    (covered : DropsCovered state event) (taken : state.step env debounce event = some after) :
    after.Invariant env := by
  cases event with
  | handler event =>
      unfold Watcher.step at taken
      dsimp only at taken
      split at taken
      case h_1 => cases taken
      case h_2 next isNext =>
        split at taken
        case isTrue truthful =>
          cases taken
          exact holds.handled covered isNext truthful
        case isFalse => cases taken
  | poll =>
      unfold Watcher.step at taken
      dsimp only at taken
      split at taken
      case isTrue free =>
        cases taken
        exact holds.collected (List.isEmpty_iff.mp (Bool.and_eq_true_iff.mp free).1)
      case isFalse => cases taken
  | begin =>
      unfold Watcher.step at taken
      dsimp only at taken
      split at taken
      case h_1 change rest next idle =>
        cases taken
        exact holds.begun next idle
      case h_2 => cases taken
  | work =>
      obtain ⟨current, isCall, same⟩ := Option.map_eq_some_iff.mp taken
      cases same
      exact holds.worked isCall

theorem Fresh.invariant (fresh : state.Fresh env) : state.Invariant env := by
  have nothing : state.owed = [] := by
    unfold owed waiting
    rw [fresh.ready, fresh.pending, fresh.looked, fresh.inFlight]
    rfl
  constructor
  · exact fresh.notes
  · rw [fresh.pending]
    exact List.nodup_nil
  · rw [fresh.looked]
    intro found impossible
    cases impossible
  · rw [nothing, fresh.idle]
    constructor
    · intro path impossible
      cases impossible
    · intro current impossible
      cases impossible
  · rw [fresh.untouched]
    intro path impossible
    cases impossible

theorem Invariant.converged (holds : state.Invariant env) (quiet : state.Quiet) :
    state.Converged := by
  have nothing : state.owed = [] := by
    unfold owed waiting
    rw [quiet.ready, quiet.pending, quiet.looked, quiet.inFlight]
    rfl
  intro path member
  have settled := holds.settled path member
  rw [nothing, quiet.idle] at settled
  rcases settled with (waiting | ⟨current, impossible, _same⟩) | shown
  · exact absurd rfl waiting
  · cases impossible
  · rw [shows_presence.mp shown]
    unfold status
    rw [Option.isSome_map]

/-- However changes, events, tokens and the worker follow one another, the catalog has come to
agree with the disk when nothing is left to do, if no token has dropped an event that was
needed. -/
theorem run_converges {start final : Watcher} {events : List WatcherEvent}
    (fresh : start.Fresh env)
    (covered : Transitions.Each (step env debounce) DropsCovered start events)
    (ran : Transitions.run (step env debounce) start events = some final)
    (quiet : final.Quiet) : final.Converged := by
  have kept : ∀ {current after : Watcher} {event : WatcherEvent},
      current.Invariant env → DropsCovered current event →
        current.step env debounce event = some after → after.Invariant env :=
    fun holds met taken => holds.step met taken
  exact (Transitions.run_keeps kept fresh.invariant covered ran).converged quiet

end Watcher

/-! ### A note that is written again after it was deleted -/

def storedNote : CatalogRow :=
  { path := notePath
    folder := []
    extension := ".md".toList
    title := "a".toList
    mtimeNs := 100
    size := 3 }

/-- A vault with one note, which is in the catalog. -/
def watcherAtStart : Watcher :=
  { handler :=
      { files := fun path =>
          if path = notePath then
            some { revision := { inode := 7, mtimeNs := 100, size := 3 }
                   writer := .otherProgram
                   noticed := true }
          else none }
    table := { rows := [storedNote], distinct := List.nodup_singleton _ } }

theorem watcherAtStart_fresh : watcherAtStart.Fresh Env.plain :=
  { notes := by
      intro path present
      unfold watcherAtStart at present
      dsimp only at present
      split at present
      case isTrue same =>
        rw [same]
        decide
      case isFalse => cases present
    inFlight := rfl
    looked := rfl
    pending := rfl
    ready := rfl
    idle := rfl
    untouched := rfl }

def twoSeconds : Nat := 2000000000

def deliver : List WatcherEvent :=
  [.handler (.look notePath), .handler .settle]

def registerWrite : List WatcherEvent :=
  [.handler (.observe notePath), .handler (.register 0)]

def deleteNote : WatcherEvent :=
  .handler (.change .otherProgram [(notePath, none)] [.deleted notePath])

/-- `os.replace` of a temporary file -/
def replaceNote : WatcherEvent :=
  .handler (.change .ownProcess [(notePath, some { inode := 8, mtimeNs := 200, size := 5 })]
    [.moved ".a.md.x.tmp".toList notePath])

def processBatch : List WatcherEvent :=
  [.handler (.wait twoSeconds), .poll, .begin, .work]

/-- This process rewrites the note, and another program deletes it later. -/
def deletedLater : List WatcherEvent :=
  replaceNote :: registerWrite ++ deliver ++ deleteNote :: deliver ++ processBatch

/-- Another program deletes the note just before this process puts the rewritten note in its
place, and the deletion is delivered before the write is registered. -/
def replacedAfterDeletion : List WatcherEvent :=
  deleteNote :: replaceNote :: deliver ++ registerWrite ++ deliver ++ processBatch

theorem deletedLater_converges :
    ((Transitions.run (Watcher.step Env.plain twoSeconds) watcherAtStart deletedLater).get
      (by decide)).Converged :=
  Watcher.run_converges watcherAtStart_fresh (by decide) (Option.some_get _).symm
    { inFlight := by decide
      looked := by decide
      pending := by decide
      ready := by decide
      idle := by decide }

theorem replacedAfterDeletion_loses_row :
    ¬ ∀ (env : Env) (debounce : Nat) (start final : Watcher) (events : List WatcherEvent),
      start.Fresh env → Transitions.run (Watcher.step env debounce) start events = some final →
        final.Quiet → final.Converged := by
  intro always
  have converged := always Env.plain twoSeconds watcherAtStart
    ((Transitions.run (Watcher.step Env.plain twoSeconds) watcherAtStart
      replacedAfterDeletion).get (by decide))
    replacedAfterDeletion watcherAtStart_fresh (Option.some_get _).symm
    { inFlight := by decide
      looked := by decide
      pending := by decide
      ready := by decide
      idle := by decide }
  exact absurd (converged notePath (by decide)) (by decide)

end VaultSearch.Watching
