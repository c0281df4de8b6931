/-
The reconciliation of the note catalog, `NotesCatalog._reconcile` of `crud/catalog.py`, beside
the calls of the watcher.

A pass scans the vault, reads the table and writes the difference.  Meanwhile other programs
create, edit and delete notes, and each change is followed by a call of the watcher.
-/

import VaultSearch.Crud.CatalogCalls
import VaultSearch.Store.Transitions

set_option autoImplicit false

namespace VaultSearch

/-! ### A pass -/

/-- What the scan has found is written only if the table has something else. -/
def toUpsert (currentFiles table : CatalogTable) : List CatalogRow :=
  currentFiles.rows.filter (fun row =>
    (table.find row.path).map CatalogRow.status ≠ some row.status)

def toDelete (currentFiles table : CatalogTable) : List Text :=
  (table.rows.map CatalogRow.path).filter (fun path => (currentFiles.find path).isNone)

inductive ReconcilePass where
  | resting
  /-- in `_scan_vault`, with the notes that were changed since it began -/
  | scanning (currentFiles : CatalogTable) (touched : List Text)
  | scanned (currentFiles : CatalogTable)
  /-- at `_upsert_batch` -/
  | upserting (toUpsert : List CatalogRow) (toDelete : List Text)
  /-- at the next `delete` -/
  | deleting (toDelete : List Text)

/-- A note is changed while the pass is under way. -/
def ReconcilePass.touch (path : Text) : ReconcilePass → ReconcilePass
  | .scanning currentFiles touched => .scanning currentFiles (path :: touched)
  | pass => pass

/-- The scan looks at one file. -/
def lookAt (disk currentFiles : CatalogTable) (path : Text) : CatalogTable :=
  match disk.find path with
  | none => currentFiles.delete path
  | some row => currentFiles.insertOrReplace row

/-! ### The catalog and the disk -/

structure Reconciliation where
  /-- the rows that a scan of the vault would give now -/
  disk : CatalogTable
  table : CatalogTable
  /-- the changes that the watcher has not begun a call for -/
  owed : List NoteChange := []
  call : Option CatalogCall := none
  pass : ReconcilePass := .resting
  /-- a pass has come to its end -/
  reconciled : Bool := false

inductive ReconcileEvent where
  /-- another program creates or edits a note -/
  | write (row : CatalogRow)
  | remove (path : Text)
  /-- the watcher forgets a change for a later one -/
  | coalesce (position : Nat)
  /-- the watcher begins the call for the first change of a note -/
  | begin (path : Text)
  | work
  | startScan
  | look (path : Text)
  | finishScan
  | readTable
  | upsertBatch
  | deleteNext
  | finishPass

namespace Reconciliation

variable (env : Env) (state : Reconciliation)

def status (path : Text) : Option FileStatus :=
  (state.disk.find path).map CatalogRow.status

def changed (disk : CatalogTable) (change : NoteChange) : Reconciliation :=
  { state with
    disk
    owed := state.owed ++ [change]
    pass := state.pass.touch change.path }

/-- Every file that was there all the time has been looked at. -/
def ScanComplete (currentFiles : CatalogTable) (touched : List Text) : Prop :=
  ∀ row ∈ state.disk.rows, row.path ∈ touched ∨ currentFiles.find row.path = some row

instance (currentFiles : CatalogTable) (touched : List Text) :
    Decidable (state.ScanComplete currentFiles touched) :=
  inferInstanceAs (Decidable (∀ row ∈ state.disk.rows, _))

def step : ReconcileEvent → Option Reconciliation
  | .write row =>
      if upsertRow env row.path row.status = some row then
        some (state.changed (state.disk.insertOrReplace row) { path := row.path, deleted := false })
      else none
  | .remove path =>
      if (state.disk.find path).isSome then
        some (state.changed (state.disk.delete path) { path, deleted := true })
      else none
  | .coalesce position =>
      (NoteChange.coalesce position state.owed).map (fun owed => { state with owed })
  | .begin path =>
      if state.call.isSome then none
      else
        (NoteChange.takeFirst path state.owed).map (fun found =>
          { state with
            owed := found.2
            call := some (CatalogCall.ofChange path found.1.deleted) })
  | .work =>
      state.call.map (fun current =>
        let done := current.step env state.status state.table
        { state with call := done.1, table := done.2 })
  | .startScan =>
      match state.pass with
      | .resting => some { state with pass := .scanning KeyedTable.empty [] }
      | _ => none
  | .look path =>
      match state.pass with
      | .scanning currentFiles touched =>
          some { state with pass := .scanning (lookAt state.disk currentFiles path) touched }
      | _ => none
  | .finishScan =>
      match state.pass with
      | .scanning currentFiles touched =>
          if state.ScanComplete currentFiles touched then
            some { state with pass := .scanned currentFiles }
          else none
      | _ => none
  | .readTable =>
      match state.pass with
      | .scanned currentFiles =>
          some { state with
            pass := .upserting (toUpsert currentFiles state.table)
              (toDelete currentFiles state.table) }
      | _ => none
  | .upsertBatch =>
      match state.pass with
      | .upserting rows gone =>
          some { state with table := state.table.insertAll rows, pass := .deleting gone }
      | _ => none
  | .deleteNext =>
      match state.pass with
      | .deleting (path :: rest) =>
          some { state with table := state.table.delete path, pass := .deleting rest }
      | _ => none
  | .finishPass =>
      match state.pass with
      | .deleting [] => some { state with pass := .resting, reconciled := true }
      | _ => none

/-! ### What has to hold -/

/-- When the process starts, any rows may be left in the table. -/
structure Fresh : Prop where
  notes : ∀ row ∈ state.disk.rows, upsertRow env row.path row.status = some row
  unowed : state.owed = []
  idle : state.call = none
  resting : state.pass = .resting
  unreconciled : state.reconciled = false

/-- A pass and all calls of the watcher have come to their end. -/
structure Quiet : Prop where
  unowed : state.owed = []
  idle : state.call = none
  resting : state.pass = .resting
  reconciled : state.reconciled = true

/-- There is a row for a note exactly if there is a file, with its `mtime` and size. -/
def Matches : Prop :=
  ∀ path, (state.table.find path).map CatalogRow.status = state.status path

def newest : Newest :=
  NoteChange.newest state.owed

/-- A call of the watcher about the path is still to come or to be ended. -/
def Owes (path : Text) : Prop :=
  Waits state.newest state.call path

instance (path : Text) : Decidable (state.Owes path) :=
  decidable_of_iff (state.newest path ≠ none ∨ state.call.any (·.path = path) = true) (by
    unfold Owes Waits
    rw [Option.any_eq_true]
    simp only [decide_eq_true_eq])

/-- What the pass writes next, with `none` for a row it deletes. -/
def writesNext : List (Text × Option FileStatus) :=
  match state.pass with
  | .upserting rows _gone => rows.map (fun row => (row.path, some row.status))
  | .deleting (path :: _rest) => [(path, none)]
  | _ => []

/-- The files are still as the scan found them when the pass writes about them, or the watcher
owes them a call. -/
def Timely (state : Reconciliation) : ReconcileEvent → Prop
  | .upsertBatch => ∀ written ∈ state.writesNext,
      state.status written.1 = written.2 ∨ state.Owes written.1
  | .deleteNext => ∀ written ∈ state.writesNext,
      state.status written.1 = written.2 ∨ state.Owes written.1
  | _ => True

instance decidableTimely (state : Reconciliation) : ∀ event, Decidable (Timely state event)
  | .upsertBatch => inferInstanceAs (Decidable (∀ written ∈ state.writesNext, _))
  | .deleteNext => inferInstanceAs (Decidable (∀ written ∈ state.writesNext, _))
  | .write _ => isTrue trivial
  | .remove _ => isTrue trivial
  | .coalesce _ => isTrue trivial
  | .begin _ => isTrue trivial
  | .work => isTrue trivial
  | .startScan => isTrue trivial
  | .look _ => isTrue trivial
  | .finishScan => isTrue trivial
  | .readTable => isTrue trivial
  | .finishPass => isTrue trivial

def IsSettled (path : Text) : Prop :=
  Settled id state.status state.newest state.call state.table path

/-- What a pass has found out is still so, or has been settled since. -/
def PassCurrent (disk : CatalogTable) (settled : Text → Prop) : ReconcilePass → Prop
  | .resting => True
  | .scanning currentFiles touched =>
      (∀ path row, path ∉ touched → currentFiles.find path = some row →
        disk.find path = some row) ∧ ∀ path ∈ touched, settled path
  | .scanned currentFiles =>
      ∀ path, currentFiles.find path = disk.find path ∨ settled path
  | .upserting rows gone =>
      (rows.map CatalogRow.path).Nodup ∧
        ∀ path, path ∉ rows.map CatalogRow.path → path ∉ gone → settled path
  | .deleting gone => ∀ path, path ∉ gone → settled path

structure Invariant : Prop where
  notes : ∀ row ∈ state.disk.rows, upsertRow env row.path row.status = some row
  calls : CallsCurrent id state.status state.newest state.call
  pass : PassCurrent state.disk state.IsSettled state.pass
  reconciled : state.reconciled = true → ∀ path, state.IsSettled path

/-! ### The steps of the watcher -/

section Pass

variable {disk after : CatalogTable} {settled settledAfter : Text → Prop}

theorem PassCurrent.mono {pass : ReconcilePass}
    (kept : ∀ path, settled path → settledAfter path) (holds : PassCurrent disk settled pass) :
    PassCurrent disk settledAfter pass := by
  cases pass with
  | resting => exact trivial
  | scanning currentFiles touched =>
      exact ⟨holds.1, fun path member => kept path (holds.2 path member)⟩
  | scanned currentFiles => exact fun path => (holds path).imp_right (kept path)
  | upserting rows gone =>
      exact ⟨holds.1, fun path inRows inGone => kept path (holds.2 path inRows inGone)⟩
  | deleting gone => exact fun path inGone => kept path (holds path inGone)

theorem PassCurrent.touch {pass : ReconcilePass} {path : Text}
    (others : ∀ other, other ≠ path → after.find other = disk.find other)
    (kept : ∀ other, settled other ∨ other = path → settledAfter other)
    (holds : PassCurrent disk settled pass) :
    PassCurrent after settledAfter (pass.touch path) := by
  cases pass with
  | resting => exact trivial
  | scanning currentFiles touched =>
      constructor
      · intro other row untouched found
        rw [List.mem_cons, not_or] at untouched
        rw [others other untouched.1]
        exact holds.1 other row untouched.2 found
      · intro other member
        rcases List.mem_cons.mp member with same | earlier
        · exact kept other (Or.inr same)
        · exact kept other (Or.inl (holds.2 other earlier))
  | scanned currentFiles =>
      intro other
      by_cases same : other = path
      · exact Or.inr (kept other (Or.inr same))
      · rw [others other same]
        exact (holds other).imp_right (fun before => kept other (Or.inl before))
  | upserting rows gone =>
      exact ⟨holds.1, fun other inRows inGone => kept other (Or.inl (holds.2 other inRows inGone))⟩
  | deleting gone => exact fun other inGone => kept other (Or.inl (holds other inGone))

end Pass

variable {env state}

theorem Invariant.indexable (holds : state.Invariant env) (path : Text)
    (present : (state.status path).isSome = true) : hasIndexableExtension env path = true := by
  unfold status at present
  rw [Option.isSome_map] at present
  obtain ⟨row, found⟩ := Option.isSome_iff_exists.mp present
  obtain ⟨member, samePath⟩ := KeyedTable.find_some found
  have isRow := holds.notes row member
  rw [samePath] at isRow
  unfold upsertRow at isRow
  split at isRow
  case isTrue indexable => exact indexable
  case isFalse => cases isRow

/-- A change of one note, of which the watcher is told. -/
theorem Invariant.changed {disk : CatalogTable} {change : NoteChange}
    (holds : state.Invariant env)
    (notes : ∀ row ∈ disk.rows, upsertRow env row.path row.status = some row)
    (others : ∀ other, other ≠ change.path → disk.find other = state.disk.find other)
    (gone : change.deleted = true → disk.find change.path = none) :
    (state.changed disk change).Invariant env := by
  have newestAfter : ∀ path, (state.changed disk change).newest path =
      if change.path = path then some change.deleted else state.newest path := by
    intro path
    unfold newest Reconciliation.changed
    dsimp only
    rw [NoteChange.newest_append, NoteChange.newest_singleton]
    split
    case isTrue => rw [Option.some_or]
    case isFalse => rw [Option.none_or]
  have told : ∀ path,
      ((state.changed disk change).newest path = state.newest path ∧
        (state.changed disk change).status path = state.status path) ∨
      ∃ deleted, (state.changed disk change).newest path = some deleted ∧
        (deleted = true → (state.changed disk change).status path = none) := by
    intro path
    rw [newestAfter]
    by_cases own : change.path = path
    · refine Or.inr ⟨change.deleted, if_pos own, fun deleted => ?_⟩
      rw [← own]
      exact congrArg (Option.map CatalogRow.status) (gone deleted)
    · refine Or.inl ⟨if_neg own, ?_⟩
      exact congrArg (Option.map CatalogRow.status) (others path (fun same => own same.symm))
  obtain ⟨calls, settled⟩ := @CallsCurrent.change _ id state.status state.newest state.table
    (state.changed disk change).status (state.changed disk change).newest state.call
    holds.calls told
  have settledAfter : ∀ path, state.IsSettled path ∨ path = change.path →
      (state.changed disk change).IsSettled path := by
    intro path before
    apply settled path
    apply before.imp_right
    intro same
    rw [newestAfter, if_pos same.symm]
    exact Option.some_ne_none change.deleted
  exact
    { notes
      calls
      pass := holds.pass.touch others settledAfter
      reconciled := fun done path => settledAfter path (Or.inl (holds.reconciled done path)) }

/-- A step of the watcher leaves the disk and the pass alone. -/
theorem Invariant.watcher {owed : List NoteChange} {call : Option CatalogCall}
    {table : CatalogTable} (holds : state.Invariant env)
    (calls : CallsCurrent id state.status (NoteChange.newest owed) call)
    (settled : ∀ path, state.IsSettled path →
      Settled id state.status (NoteChange.newest owed) call table path) :
    ({ state with owed, call, table } : Reconciliation).Invariant env :=
  { notes := holds.notes
    calls
    pass := holds.pass.mono settled
    reconciled := fun done path => settled path (holds.reconciled done path) }

theorem Invariant.coalesced {owed : List NoteChange} {position : Nat}
    (holds : state.Invariant env)
    (coalesced : NoteChange.coalesce position state.owed = some owed) :
    ({ state with owed } : Reconciliation).Invariant env := by
  have same : NoteChange.newest owed = state.newest := NoteChange.newest_coalesce coalesced
  apply holds.watcher
  · rw [same]
    exact holds.calls
  · intro path before
    rw [same]
    exact before

theorem Invariant.begun {path : Text} {taken : NoteChange} {owed : List NoteChange}
    (holds : state.Invariant env) (idle : state.call = none)
    (found : NoteChange.takeFirst path state.owed = some (taken, owed)) :
    ({ state with
      owed
      call := some (CatalogCall.ofChange path taken.deleted) } : Reconciliation).Invariant env := by
  obtain ⟨others, own⟩ := NoteChange.takeFirst_spec found
  have calls := holds.calls
  rw [idle] at calls
  obtain ⟨callsAfter, settled⟩ := @CallsCurrent.begin _ id state.status state.newest state.table
    (NoteChange.newest owed) path taken.deleted calls others own
  apply holds.watcher callsAfter
  intro other before
  unfold IsSettled at before
  rw [idle] at before
  exact settled other before

theorem Invariant.worked {current : CatalogCall} (holds : state.Invariant env)
    (isCall : state.call = some current) :
    ({ state with
      call := (current.step env state.status state.table).1
      table := (current.step env state.status state.table).2 } : Reconciliation).Invariant env := by
  have calls := holds.calls
  rw [isCall] at calls
  obtain ⟨callsAfter, settled⟩ := @CallsCurrent.work _ id state.status state.newest state.table
    current env calls holds.indexable
  apply holds.watcher callsAfter
  intro path before
  unfold IsSettled at before
  rw [isCall] at before
  exact settled path before

/-! ### The steps of the pass -/

theorem Invariant.passed {pass : ReconcilePass} (holds : state.Invariant env)
    (current : PassCurrent state.disk state.IsSettled pass) :
    ({ state with pass } : Reconciliation).Invariant env :=
  { notes := holds.notes
    calls := holds.calls
    pass := current
    reconciled := holds.reconciled }

theorem find_lookAt (disk currentFiles : CatalogTable) (path other : Text) :
    (lookAt disk currentFiles path).find other =
      if path = other then disk.find path else currentFiles.find other := by
  unfold lookAt
  cases found : disk.find path with
  | none => rw [KeyedTable.find_delete]
  | some row => rw [KeyedTable.find_insertOrReplace, (KeyedTable.find_some found).2]

theorem Invariant.looked {currentFiles : CatalogTable} {touched : List Text} {path : Text}
    (holds : state.Invariant env) (scanning : state.pass = .scanning currentFiles touched) :
    ({ state with
      pass := .scanning (lookAt state.disk currentFiles path) touched } :
        Reconciliation).Invariant env := by
  have current := holds.pass
  rw [scanning] at current
  apply holds.passed
  constructor
  · intro other row untouched found
    rw [find_lookAt] at found
    split at found
    case isTrue same =>
      rw [← same]
      exact found
    case isFalse => exact current.1 other row untouched found
  · exact current.2

theorem Invariant.scanEnded {currentFiles : CatalogTable} {touched : List Text}
    (holds : state.Invariant env) (scanning : state.pass = .scanning currentFiles touched)
    (complete : state.ScanComplete currentFiles touched) :
    ({ state with pass := .scanned currentFiles } : Reconciliation).Invariant env := by
  have current := holds.pass
  rw [scanning] at current
  apply holds.passed
  intro path
  by_cases isTouched : path ∈ touched
  · exact Or.inr (current.2 path isTouched)
  · refine Or.inl ?_
    cases onDisk : state.disk.find path with
    | some row =>
        obtain ⟨member, samePath⟩ := KeyedTable.find_some onDisk
        have looked := complete row member
        rw [samePath] at looked
        exact looked.resolve_left isTouched
    | none =>
        cases found : currentFiles.find path with
        | none => rfl
        | some row =>
            have still := current.1 path row isTouched found
            rw [onDisk] at still
            cases still

/-- What neither list of a pass mentions is in the table as the scan found it. -/
theorem shows_of_unlisted {currentFiles table : CatalogTable} {path : Text}
    (unwritten : path ∉ (toUpsert currentFiles table).map CatalogRow.path)
    (kept : path ∉ toDelete currentFiles table) :
    (table.find path).map CatalogRow.status =
      (currentFiles.find path).map CatalogRow.status := by
  cases found : currentFiles.find path with
  | none =>
      cases inTable : table.find path with
      | none => rfl
      | some row =>
          obtain ⟨member, samePath⟩ := KeyedTable.find_some inTable
          refine absurd ?_ kept
          apply List.mem_filter.mpr
          rw [found]
          exact ⟨List.mem_map.mpr ⟨row, member, samePath⟩, rfl⟩
  | some row =>
      obtain ⟨member, samePath⟩ := KeyedTable.find_some found
      by_contra differs
      apply unwritten
      refine List.mem_map.mpr ⟨row, List.mem_filter.mpr ⟨member, ?_⟩, samePath⟩
      rw [samePath]
      exact decide_eq_true differs

theorem Invariant.compared {currentFiles : CatalogTable} (holds : state.Invariant env)
    (scanned : state.pass = .scanned currentFiles) :
    ({ state with
      pass := .upserting (toUpsert currentFiles state.table)
        (toDelete currentFiles state.table) } : Reconciliation).Invariant env := by
  have current := holds.pass
  rw [scanned] at current
  apply holds.passed
  constructor
  · exact currentFiles.distinct.sublist (List.filter_sublist.map CatalogRow.path)
  · intro path unwritten kept
    rcases current path with same | settled
    · refine Or.inr ?_
      have shown := shows_of_unlisted unwritten kept
      rw [same] at shown
      unfold Shows status
      rw [Option.map_id]
      exact shown
    · exact settled

/-- What a pass writes in time is settled by it. -/
theorem settled_written {table : CatalogTable} {facts : List (Text × Option FileStatus)}
    (timely : ∀ written ∈ facts, state.status written.1 = written.2 ∨ state.Owes written.1)
    (new : ∀ written ∈ facts, (table.find written.1).map CatalogRow.status = written.2)
    (others : ∀ path, path ∉ facts.map Prod.fst → table.find path = state.table.find path)
    {path : Text} (before : state.IsSettled path ∨ path ∈ facts.map Prod.fst) :
    ({ state with table } : Reconciliation).IsSettled path := by
  by_cases isWritten : path ∈ facts.map Prod.fst
  · obtain ⟨written, member, samePath⟩ := List.mem_map.mp isWritten
    rw [← samePath]
    rcases timely written member with same | owed
    · refine Or.inr ?_
      unfold Shows
      rw [Option.map_id]
      exact (new written member).trans same.symm
    · exact Or.inl owed
  · rcases before.resolve_right isWritten with owed | shown
    · exact Or.inl owed
    · refine Or.inr ?_
      unfold Shows
      dsimp only
      rw [others path isWritten]
      exact shown

theorem Invariant.upserted {rows : List CatalogRow} {gone : List Text}
    (holds : state.Invariant env) (upserting : state.pass = .upserting rows gone)
    (timely : Timely state .upsertBatch) :
    ({ state with
      table := state.table.insertAll rows
      pass := .deleting gone } : Reconciliation).Invariant env := by
  have current := holds.pass
  unfold Timely writesNext at timely
  rw [upserting] at current timely
  have paths : (rows.map (fun row => (row.path, some row.status))).map Prod.fst =
      rows.map CatalogRow.path := by
    rw [List.map_map]
    rfl
  have settled : ∀ path, state.IsSettled path ∨ path ∈ rows.map CatalogRow.path →
      ({ state with table := state.table.insertAll rows } : Reconciliation).IsSettled path := by
    intro path before
    apply settled_written timely
    · intro written member
      obtain ⟨row, inRows, same⟩ := List.mem_map.mp member
      cases same
      have found := (@KeyedTable.mem_iff_find _ _ CatalogRow.path _
        { rows, distinct := current.1 } row).mp inRows
      unfold KeyedTable.find at found
      rw [KeyedTable.find_insertAll _ current.1, found, Option.some_or, Option.map_some]
    · intro other unwritten
      rw [paths] at unwritten
      have missing : rows.find? (fun row => row.path = other) = none := by
        rw [List.find?_eq_none]
        intro row member same
        exact unwritten (List.mem_map.mpr ⟨row, member, of_decide_eq_true same⟩)
      rw [KeyedTable.find_insertAll _ current.1, missing, Option.none_or]
    · rw [paths]
      exact before
  exact
    { notes := holds.notes
      calls := holds.calls
      pass := by
        intro path kept
        apply settled
        by_cases isWritten : path ∈ rows.map CatalogRow.path
        · exact Or.inr isWritten
        · exact Or.inl (current.2 path isWritten kept)
      reconciled := fun done path => settled path (Or.inl (holds.reconciled done path)) }

theorem Invariant.deletedNext {path : Text} {rest : List Text}
    (holds : state.Invariant env) (deleting : state.pass = .deleting (path :: rest))
    (timely : Timely state .deleteNext) :
    ({ state with
      table := state.table.delete path
      pass := .deleting rest } : Reconciliation).Invariant env := by
  have current := holds.pass
  unfold Timely writesNext at timely
  rw [deleting] at current timely
  have settled : ∀ other, state.IsSettled other ∨ other = path →
      ({ state with table := state.table.delete path } : Reconciliation).IsSettled other := by
    intro other before
    apply settled_written timely
    · intro written member
      rw [List.mem_singleton.mp member, KeyedTable.find_delete, if_pos rfl]
      rfl
    · intro unwritten outside
      have different : path ≠ unwritten := by
        intro same
        rw [same] at outside
        exact outside (List.mem_singleton_self _)
      rw [KeyedTable.find_delete, if_neg different]
    · exact before.imp_right List.mem_singleton.mpr
  exact
    { notes := holds.notes
      calls := holds.calls
      pass := by
        intro other kept
        apply settled
        by_cases same : other = path
        · exact Or.inr same
        · refine Or.inl (current other ?_)
          rw [List.mem_cons, not_or]
          exact ⟨same, kept⟩
      reconciled := fun done other => settled other (Or.inl (holds.reconciled done other)) }

theorem Invariant.passEnded (holds : state.Invariant env)
    (deleting : state.pass = .deleting []) :
    ({ state with pass := .resting, reconciled := true } : Reconciliation).Invariant env := by
  have current := holds.pass
  rw [deleting] at current
  exact
    { notes := holds.notes
      calls := holds.calls
      pass := trivial
      reconciled := fun _done path => current path List.not_mem_nil }

/-! ### Runs -/

theorem Invariant.step {event : ReconcileEvent} {after : Reconciliation}
    (holds : state.Invariant env) (timely : Timely state event)
    (taken : state.step env event = some after) : after.Invariant env := by
  cases event with
  | write row =>
      unfold Reconciliation.step at taken
      dsimp only at taken
      split at taken
      case isTrue isNote =>
        cases taken
        apply holds.changed
        · intro other member
          rcases List.mem_append.mp member with kept | added
          · exact holds.notes other (List.mem_filter.mp kept).1
          · rw [List.mem_singleton.mp added]
            exact isNote
        · intro path different
          rw [KeyedTable.find_insertOrReplace, if_neg (fun same => different same.symm)]
        · intro impossible
          cases impossible
      case isFalse => cases taken
  | remove path =>
      unfold Reconciliation.step at taken
      dsimp only at taken
      split at taken
      case isTrue =>
        cases taken
        apply holds.changed
        · intro other member
          exact holds.notes other (List.mem_filter.mp member).1
        · intro other different
          rw [KeyedTable.find_delete, if_neg (fun same => different same.symm)]
        · intro _deleted
          rw [KeyedTable.find_delete, if_pos rfl]
      case isFalse => cases taken
  | coalesce position =>
      obtain ⟨owed, coalesced, same⟩ := Option.map_eq_some_iff.mp taken
      cases same
      exact holds.coalesced coalesced
  | begin path =>
      unfold Reconciliation.step at taken
      dsimp only at taken
      split at taken
      case isTrue => cases taken
      case isFalse idle =>
        obtain ⟨⟨first, owed⟩, found, same⟩ := Option.map_eq_some_iff.mp taken
        cases same
        exact holds.begun (Option.not_isSome_iff_eq_none.mp idle) found
  | work =>
      obtain ⟨current, isCall, same⟩ := Option.map_eq_some_iff.mp taken
      cases same
      exact holds.worked isCall
  | startScan =>
      unfold Reconciliation.step at taken
      dsimp only at taken
      split at taken
      case h_1 =>
        cases taken
        apply holds.passed
        constructor
        · intro path row _untouched found
          cases found
        · intro path impossible
          cases impossible
      case h_2 => cases taken
  | look path =>
      unfold Reconciliation.step at taken
      dsimp only at taken
      split at taken
      case h_1 currentFiles touched scanning =>
        cases taken
        exact holds.looked scanning
      case h_2 => cases taken
  | finishScan =>
      unfold Reconciliation.step at taken
      dsimp only at taken
      split at taken
      case h_1 currentFiles touched scanning =>
        split at taken
        case isTrue complete =>
          cases taken
          exact holds.scanEnded scanning complete
        case isFalse => cases taken
      case h_2 => cases taken
  | readTable =>
      unfold Reconciliation.step at taken
      dsimp only at taken
      split at taken
      case h_1 currentFiles scanned =>
        cases taken
        exact holds.compared scanned
      case h_2 => cases taken
  | upsertBatch =>
      unfold Reconciliation.step at taken
      dsimp only at taken
      split at taken
      case h_1 rows gone upserting =>
        cases taken
        exact holds.upserted upserting timely
      case h_2 => cases taken
  | deleteNext =>
      unfold Reconciliation.step at taken
      dsimp only at taken
      split at taken
      case h_1 path rest deleting =>
        cases taken
        exact holds.deletedNext deleting timely
      case h_2 => cases taken
  | finishPass =>
      unfold Reconciliation.step at taken
      dsimp only at taken
      split at taken
      case h_1 deleting =>
        cases taken
        exact holds.passEnded deleting
      case h_2 => cases taken

theorem Fresh.invariant (fresh : state.Fresh env) : state.Invariant env :=
  { notes := fresh.notes
    calls :=
      { deletions := by
          intro path impossible
          unfold newest at impossible
          rw [fresh.unowed] at impossible
          cases impossible
        current := by
          intro current impossible
          rw [fresh.idle] at impossible
          cases impossible }
    pass := by
      rw [fresh.resting]
      exact trivial
    reconciled := by
      intro impossible
      rw [fresh.unreconciled] at impossible
      cases impossible }

theorem Invariant.matches_of_quiet (holds : state.Invariant env) (quiet : state.Quiet) :
    state.Matches := by
  intro path
  rcases holds.reconciled quiet.reconciled path with (waiting | ⟨current, isCall, _same⟩) | shown
  · unfold newest at waiting
    rw [quiet.unowed] at waiting
    exact absurd rfl waiting
  · rw [quiet.idle] at isCall
    cases isCall
  · unfold Shows at shown
    rw [Option.map_id] at shown
    exact shown

end Reconciliation

/-! ### A note that is created while a pass is under way -/

def lateNote (mtimeNs size : Nat) : CatalogRow :=
  { path := "late.md".toList
    folder := []
    extension := ".md".toList
    title := "late".toList
    mtimeNs
    size }

def singleRow (row : CatalogRow) : CatalogTable :=
  { rows := [row], distinct := List.nodup_singleton _ }

/-- The table has a row of an earlier process, and none of the note. -/
def beforePass : Reconciliation :=
  { disk := singleRow (lateNote 100 4), table := leftTable }

/-- The note is edited after the scan, and the watcher's call comes last. -/
def editedDuringPass : List ReconcileEvent :=
  [.startScan, .look "late.md".toList, .finishScan, .readTable, .write (lateNote 200 7),
    .upsertBatch, .deleteNext, .begin "late.md".toList, .work, .finishPass, .work, .work]

def afterPass : Reconciliation :=
  { disk := singleRow (lateNote 200 7), table := singleRow (lateNote 200 7), reconciled := true }

def emptyCatalog : Reconciliation :=
  { disk := KeyedTable.empty, table := KeyedTable.empty }

/-- The note is created after the scan, and the watcher is done before the table is read. -/
def createdDuringPass : List ReconcileEvent :=
  [.startScan, .finishScan, .write (lateNote 100 4), .begin "late.md".toList, .work, .work, .work,
    .readTable, .upsertBatch, .deleteNext, .finishPass]

def rowLost : Reconciliation :=
  { disk := singleRow (lateNote 100 4), table := KeyedTable.empty, reconciled := true }

end VaultSearch
