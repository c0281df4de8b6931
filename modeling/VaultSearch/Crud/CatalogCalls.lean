/-
The calls that the watcher makes of the catalog: `upsert` and `delete` of `crud/catalog.py`,
one look at the disk or one statement of the database at a time.

A call may find the disk changed between two of its steps.  What it then leaves in the table
is put right by the next call for the same note, which the change brings about.
-/

import VaultSearch.Core.Scanner
import VaultSearch.Crud.Catalog

set_option autoImplicit false

namespace VaultSearch

def CatalogRow.status (row : CatalogRow) : FileStatus :=
  { mtimeNs := row.mtimeNs, size := row.size }

/-- The row that `upsert` writes. -/
def upsertRow (env : Env) (relativePath : Text) (status : FileStatus) : Option CatalogRow :=
  if hasIndexableExtension env relativePath then
    some
      { path := relativePath
        folder := PurePath.folder relativePath
        extension := env.lower (PurePath.suffix relativePath)
        title := PurePath.stem relativePath
        mtimeNs := status.mtimeNs
        size := status.size }
  else none

theorem upsertRow_some {env : Env} {relativePath : Text} {status : FileStatus}
    {row : CatalogRow} (isRow : upsertRow env relativePath status = some row) :
    row.path = relativePath ∧ row.status = status := by
  unfold upsertRow at isRow
  split at isRow
  · cases isRow
    exact ⟨rfl, rfl⟩
  · cases isRow

/-! ### The scan and `upsert` write the same row -/

namespace CatalogVault

variable {vault : CatalogVault} {env : Env}

theorem parts_relativeText {names : List Text} (valid : ∀ name ∈ names, IsFileName name) :
    PurePath.parts (vault.relativeText (vault.root ++ names)) = names := by
  unfold relativeText
  rw [List.drop_left]
  exact parts_join valid

theorem upsertRow_scanned {row : CatalogRow} (scanned : row ∈ vault.scanVault env) :
    upsertRow env row.path row.status = some row := by
  obtain ⟨folder, reached, inFolder⟩ := mem_scanVault.mp scanned
  obtain ⟨_readable, name, shown, isFile, isRow⟩ := mem_rows.mp inFolder
  obtain ⟨names, below⟩ := (reached_below reached).1
  have isPath := rowOf_path isRow
  have whole : folder ++ [name] = vault.root ++ (names ++ [name]) := by
    rw [← below, List.append_assoc]
  have valid : ∀ part ∈ names ++ [name], IsFileName part := by
    intro part member
    apply @named_of_node vault _
      (List.append_ne_nil_of_right_ne_nil folder (List.cons_ne_nil name []))
      (by rw [isFile]; rfl)
    rw [whole]
    exact List.mem_append_right _ member
  have parts : PurePath.parts row.path = names ++ [name] := by
    rw [isPath, whole]
    exact parts_relativeText valid
  have ofName : PurePath.name row.path = name := by
    unfold PurePath.name
    rw [parts, List.getLast?_concat, Option.getD_some]
  have ofFolder : PurePath.folder row.path = vault.relativeText folder := by
    unfold PurePath.folder relativeText
    rw [parts, List.dropLast_concat, ← below, List.drop_left]
  unfold upsertRow hasIndexableExtension PurePath.suffix PurePath.stem
  rw [ofName, splitext_shown shown, ofFolder]
  unfold rowOf at isRow
  split at isRow
  · cases isRow
  · rename_i title ending atDot
    rw [atDot, Option.getD_some]
    dsimp only at isRow
    split at isRow
    · rename_i indexable
      obtain ⟨status, _isStatus, same⟩ := Option.map_eq_some_iff.mp isRow
      rw [if_pos indexable, ← same]
      rfl
    · cases isRow

end CatalogVault

/-! ### One call -/

/-- Where the worker is in a call of the catalog. -/
inductive CatalogCall where
  /-- at `file_path.exists()` of `upsert` -/
  | upsert (relativePath : Text)
  /-- at `file_path.stat()` -/
  | reading (relativePath : Text)
  /-- at the `INSERT OR REPLACE` -/
  | inserting (row : CatalogRow)
  /-- at the `DELETE` -/
  | delete (relativePath : Text)
  deriving DecidableEq

namespace CatalogCall

def path : CatalogCall → Text
  | .upsert relativePath => relativePath
  | .reading relativePath => relativePath
  | .inserting row => row.path
  | .delete relativePath => relativePath

/-- The next step of a call: what is left of it, and the table. -/
def step (env : Env) (disk : Text → Option FileStatus) (table : CatalogTable) :
    CatalogCall → Option CatalogCall × CatalogTable
  | .upsert relativePath =>
      if (disk relativePath).isSome then (some (.reading relativePath), table)
      else (some (.delete relativePath), table)
  | .reading relativePath =>
      match disk relativePath with
      | none => (none, table)
      | some status => ((upsertRow env relativePath status).map .inserting, table)
  | .inserting row => (none, table.insertOrReplace row)
  | .delete relativePath => (none, table.delete relativePath)

end CatalogCall

/-! ### What the calls still owe -/

section Owed

variable {seen : Type} (view : FileStatus → seen)

/-- What the table and the disk have to agree about. -/
def Shows (disk : Text → Option FileStatus) (table : CatalogTable) (path : Text) : Prop :=
  (table.find path).map (fun row => view row.status) = (disk path).map view

/-- What the call has found out still holds. -/
def CatalogCall.Current (disk : Text → Option FileStatus) : CatalogCall → Prop
  | .upsert _ => True
  | .reading relativePath => (disk relativePath).isSome = true
  | .inserting row => (disk row.path).map view = some (view row.status)
  | .delete relativePath => disk relativePath = none

/-- The newest change of a path that no call has been begun for, if there is one, with
whether it is a deletion. -/
abbrev Newest := Text → Option Bool

/-- A call for the path is still to come or to be ended. -/
def Waits (newest : Newest) (call : Option CatalogCall) (path : Text) : Prop :=
  newest path ≠ none ∨ ∃ current, call = some current ∧ current.path = path

/-- The newest changes are true of the disk, and so is the current call, unless a newer change
of its path is waiting. -/
structure CallsCurrent (disk : Text → Option FileStatus) (newest : Newest)
    (call : Option CatalogCall) : Prop where
  deletions : ∀ path, newest path = some true → disk path = none
  current : ∀ current, call = some current → newest current.path = none →
    current.Current view disk

/-- The table is right about the path, or a call for it is owed. -/
def Settled (disk : Text → Option FileStatus) (newest : Newest) (call : Option CatalogCall)
    (table : CatalogTable) (path : Text) : Prop :=
  Waits newest call path ∨ Shows view disk table path

variable {view} {disk : Text → Option FileStatus} {newest : Newest}
  {table changed : CatalogTable} {current next : CatalogCall}

theorem not_waits_none {path : Text} (idle : ¬ Waits newest none path) : newest path = none := by
  by_contra waiting
  exact idle (Or.inl waiting)

theorem Settled.continue (same : next.path = current.path) {path : Text}
    (before : Settled view disk newest (some current) table path) :
    Settled view disk newest (some next) table path := by
  rcases before with (waiting | ⟨call, isCall, samePath⟩) | shown
  · exact Or.inl (Or.inl waiting)
  · cases isCall
    exact Or.inl (Or.inr ⟨next, rfl, same.trans samePath⟩)
  · exact Or.inr shown

/-- A call that ends has written what the disk says, unless a newer change is waiting. -/
theorem Settled.finish
    (written : newest current.path = none → Shows view disk changed current.path)
    (others : ∀ path, path ≠ current.path → changed.find path = table.find path) {path : Text}
    (before : Settled view disk newest (some current) table path) :
    Settled view disk newest none changed path := by
  by_cases waiting : newest path = none
  · refine Or.inr ?_
    by_cases own : path = current.path
    · rw [own] at waiting ⊢
      exact written waiting
    · unfold Shows
      rw [others path own]
      rcases before with (impossible | ⟨call, isCall, samePath⟩) | shown
      · exact absurd waiting impossible
      · cases isCall
        exact absurd samePath.symm own
      · exact shown
  · exact Or.inl (Or.inl waiting)

theorem CallsCurrent.finish (calls : CallsCurrent view disk newest (some current)) :
    CallsCurrent view disk newest none :=
  { deletions := calls.deletions
    current := by
      intro call impossible
      cases impossible }

theorem CallsCurrent.continue (calls : CallsCurrent view disk newest (some current))
    (holds : next.Current view disk) : CallsCurrent view disk newest (some next) :=
  { deletions := calls.deletions
    current := by
      intro call isCall _last
      cases isCall
      exact holds }

/-- A step of a call settles what it is about, and nothing else is touched. -/
theorem CallsCurrent.work {env : Env}
    (calls : CallsCurrent view disk newest (some current))
    (notes : ∀ path, (disk path).isSome = true → hasIndexableExtension env path = true) :
    CallsCurrent view disk newest (current.step env disk table).1 ∧
      ∀ path, Settled view disk newest (some current) table path →
        Settled view disk newest (current.step env disk table).1
          (current.step env disk table).2 path := by
  have now := calls.current current rfl
  cases current with
  | upsert relativePath =>
      cases found : disk relativePath with
      | none =>
          simp only [CatalogCall.step, found, Option.isSome_none, Bool.false_eq_true, if_false]
          exact ⟨calls.continue found, fun _path => Settled.continue (by rfl)⟩
      | some status =>
          simp only [CatalogCall.step, found, Option.isSome_some, if_true]
          refine ⟨calls.continue ?_, fun _path => Settled.continue (by rfl)⟩
          simp only [CatalogCall.Current, found, Option.isSome_some]
  | reading relativePath =>
      cases found : disk relativePath with
      | none =>
          simp only [CatalogCall.step, found]
          refine ⟨calls.finish, fun path => Settled.finish ?_ (fun _path _other => rfl)⟩
          -- the file has gone since it was looked for, so that a deletion is waiting
          intro last
          have present := now last
          simp only [CatalogCall.Current, found, Option.isSome_none, Bool.false_eq_true] at present
      | some status =>
          have indexable := notes relativePath (by rw [found]; rfl)
          simp only [CatalogCall.step, found, upsertRow, indexable, if_true, Option.map_some]
          refine ⟨calls.continue ?_, fun _path => Settled.continue (by rfl)⟩
          simp only [CatalogCall.Current, found, Option.map_some, CatalogRow.status]
  | inserting row =>
      refine ⟨calls.finish, fun path => Settled.finish ?_ ?_⟩
      · intro last
        unfold Shows CatalogCall.step
        dsimp only [CatalogCall.path]
        rw [KeyedTable.find_insertOrReplace, if_pos rfl, Option.map_some]
        exact (now last).symm
      · intro path other
        unfold CatalogCall.step
        dsimp only
        rw [KeyedTable.find_insertOrReplace, if_neg (fun same => other same.symm)]
  | delete relativePath =>
      refine ⟨calls.finish, fun path => Settled.finish ?_ ?_⟩
      · intro last
        have gone : disk relativePath = none := now last
        unfold Shows CatalogCall.step
        dsimp only [CatalogCall.path]
        rw [KeyedTable.find_delete, if_pos rfl, gone]
        rfl
      · intro path other
        unfold CatalogCall.step
        dsimp only
        rw [KeyedTable.find_delete, if_neg (fun same => other same.symm)]

/-- What a call is begun with. -/
def CatalogCall.ofChange (path : Text) (deleted : Bool) : CatalogCall :=
  if deleted then .delete path else .upsert path

@[simp]
theorem CatalogCall.path_ofChange (path : Text) (deleted : Bool) :
    (ofChange path deleted).path = path := by
  cases deleted with
  | true => rfl
  | false => rfl

/-- The worker takes a change of a path, which may have been the last one. -/
theorem CallsCurrent.begin {after : Newest} {path : Text} {deleted : Bool}
    (calls : CallsCurrent view disk newest none)
    (others : ∀ other, other ≠ path → after other = newest other)
    (own : (after path = newest path ∧ newest path ≠ none) ∨
      (after path = none ∧ newest path = some deleted)) :
    CallsCurrent view disk after (some (CatalogCall.ofChange path deleted)) ∧
      ∀ other, Settled view disk newest none table other →
        Settled view disk after (some (CatalogCall.ofChange path deleted)) table other := by
  have fewer : ∀ other, after other = newest other ∨ after other = none := by
    intro other
    by_cases same : other = path
    · rw [same]
      exact own.imp And.left And.left
    · exact Or.inl (others other same)
  refine ⟨⟨?_, ?_⟩, ?_⟩
  · intro other isDeletion
    rcases fewer other with kept | gone
    · exact calls.deletions other (kept.symm.trans isDeletion)
    · rw [gone] at isDeletion
      cases isDeletion
  · intro call isCall last
    cases isCall
    rw [CatalogCall.path_ofChange] at last
    cases deleted with
    | false => exact trivial
    | true =>
        rcases own with ⟨kept, waiting⟩ | ⟨_gone, newestOwn⟩
        · exact absurd (kept.symm.trans last) waiting
        · exact calls.deletions path newestOwn
  · intro other before
    by_cases same : other = path
    · rw [same]
      exact Or.inl (Or.inr ⟨_, rfl, CatalogCall.path_ofChange path deleted⟩)
    · rcases before with (waiting | ⟨call, impossible, _samePath⟩) | shown
      · refine Or.inl (Or.inl ?_)
        rw [others other same]
        exact waiting
      · cases impossible
      · exact Or.inr shown

theorem CatalogCall.current_congr {after : Text → Option FileStatus}
    (same : after current.path = disk current.path) (holds : current.Current view disk) :
    current.Current view after := by
  cases current with
  | upsert relativePath => exact trivial
  | reading relativePath => exact (congrArg Option.isSome same).trans holds
  | inserting row => exact (congrArg (Option.map view) same).trans holds
  | delete relativePath => exact same.trans holds

/-- Changes of the disk are waited for from then on. -/
theorem CallsCurrent.change {diskAfter : Text → Option FileStatus} {after : Newest}
    {call : Option CatalogCall} (calls : CallsCurrent view disk newest call)
    (told : ∀ path, (after path = newest path ∧ diskAfter path = disk path) ∨
      ∃ deleted, after path = some deleted ∧ (deleted = true → diskAfter path = none)) :
    CallsCurrent view diskAfter after call ∧
      ∀ path, Settled view disk newest call table path ∨ after path ≠ none →
        Settled view diskAfter after call table path := by
  refine ⟨⟨?_, ?_⟩, ?_⟩
  · intro path isDeletion
    rcases told path with ⟨sameNewest, sameDisk⟩ | ⟨deleted, isNewest, gone⟩
    · rw [sameDisk]
      exact calls.deletions path (sameNewest.symm.trans isDeletion)
    · exact gone (Option.some.inj (isNewest.symm.trans isDeletion))
  · intro current isCall last
    rcases told current.path with ⟨sameNewest, sameDisk⟩ | ⟨deleted, isNewest, _gone⟩
    · apply CatalogCall.current_congr sameDisk
      exact calls.current current isCall (sameNewest.symm.trans last)
    · rw [isNewest] at last
      cases last
  · intro path before
    rcases told path with ⟨sameNewest, sameDisk⟩ | ⟨deleted, isNewest, _gone⟩
    · rcases before with ((waiting | call) | shown) | waiting
      · refine Or.inl (Or.inl ?_)
        rw [sameNewest]
        exact waiting
      · exact Or.inl (Or.inr call)
      · refine Or.inr ?_
        unfold Shows
        rw [sameDisk]
        exact shown
      · exact Or.inl (Or.inl waiting)
    · refine Or.inl (Or.inl ?_)
      rw [isNewest]
      exact Option.some_ne_none deleted

/-- A change of a path is forgotten: the older ones, the current call and the table have to do
without it. -/
theorem CallsCurrent.forget {after : Newest} {call : Option CatalogCall} {path : Text}
    (calls : CallsCurrent view disk newest call)
    (others : ∀ other, other ≠ path → after other = newest other)
    (waits : after path ≠ some true)
    (called : after path = none → ∀ current, call = some current → current.path = path →
      current.Current view disk)
    (left : after path = none → (∀ current, call = some current → current.path ≠ path) →
      Shows view disk table path) :
    CallsCurrent view disk after call ∧
      ∀ other, Settled view disk newest call table other →
        Settled view disk after call table other := by
  refine ⟨⟨?_, ?_⟩, ?_⟩
  · intro other isDeletion
    by_cases here : other = path
    · rw [here] at isDeletion
      exact absurd isDeletion waits
    · exact calls.deletions other ((others other here).symm.trans isDeletion)
  · intro current isCall empty
    by_cases here : current.path = path
    · rw [here] at empty
      exact called empty current isCall here
    · exact calls.current current isCall ((others current.path here).symm.trans empty)
  · intro other before
    by_cases here : other = path
    · rw [here]
      by_cases owed : Waits after call path
      · exact Or.inl owed
      · refine Or.inr (left ?_ ?_)
        · by_contra waiting
          exact owed (Or.inl waiting)
        · exact fun current isCall same => owed (Or.inr ⟨current, isCall, same⟩)
    · rcases before with (waiting | call) | shown
      · refine Or.inl (Or.inl ?_)
        rw [others other here]
        exact waiting
      · exact Or.inl (Or.inr call)
      · exact Or.inr shown

end Owed

/-! ### Changes in a queue -/

/-- A change of a note, as the watcher tells the catalog about it. -/
structure NoteChange where
  path : Text
  deleted : Bool
  deriving DecidableEq

namespace NoteChange

def newest : List NoteChange → Newest
  | [], _ => none
  | change :: later, path =>
      (newest later path).or (if change.path = path then some change.deleted else none)

theorem newest_cons (change : NoteChange) (later : List NoteChange) (path : Text) :
    newest (change :: later) path =
      (newest later path).or (if change.path = path then some change.deleted else none) := rfl

theorem newest_append (changes later : List NoteChange) (path : Text) :
    newest (changes ++ later) path = (newest later path).or (newest changes path) := by
  induction changes with
  | nil => exact (Option.or_none).symm
  | cons change rest ih =>
      rw [List.cons_append, newest_cons, ih, newest_cons, Option.or_assoc]

theorem newest_singleton (change : NoteChange) (path : Text) :
    newest [change] path = if change.path = path then some change.deleted else none := rfl

theorem newest_eq_none {changes : List NoteChange} {path : Text} :
    newest changes path = none ↔ ∀ change ∈ changes, change.path ≠ path := by
  induction changes with
  | nil =>
      constructor
      · intro _none change impossible
        cases impossible
      · intro _apart
        rfl
  | cons first later ih =>
      rw [newest_cons, Option.or_eq_none_iff, ih, List.forall_mem_cons, and_comm]
      apply and_congr_left
      intro _apart
      by_cases same : first.path = path
      · rw [if_pos same]
        exact ⟨fun impossible => (by cases impossible), fun apart => absurd same apart⟩
      · rw [if_neg same]
        exact ⟨fun _none => same, fun _apart => rfl⟩

theorem newest_mem {changes : List NoteChange} {path : Text} {deleted : Bool}
    (isNewest : newest changes path = some deleted) :
    ∃ change ∈ changes, change.path = path ∧ change.deleted = deleted := by
  induction changes with
  | nil => cases isNewest
  | cons first later ih =>
      rw [newest_cons, Option.or_eq_some_iff] at isNewest
      rcases isNewest with inLater | ⟨_none, isFirst⟩
      · obtain ⟨change, member, holds⟩ := ih inLater
        exact ⟨change, List.mem_cons_of_mem _ member, holds⟩
      · split at isFirst
        case isTrue same =>
          cases isFirst
          exact ⟨first, List.mem_cons_self, same, rfl⟩
        case isFalse => cases isFirst

/-- Where no two changes are of one path, each of them is the newest. -/
theorem newest_of_mem {changes : List NoteChange} {change : NoteChange}
    (distinct : (changes.map path).Nodup) (member : change ∈ changes) :
    newest changes change.path = some change.deleted := by
  cases isNewest : newest changes change.path with
  | none => exact absurd rfl (newest_eq_none.mp isNewest change member)
  | some deleted =>
      obtain ⟨other, isOther, samePath, isDeleted⟩ := newest_mem isNewest
      rw [List.inj_on_of_nodup_map distinct isOther member samePath] at isDeleted
      rw [isDeleted]

theorem newest_perm {changes others : List NoteChange} (same : changes.Perm others)
    (distinct : (changes.map path).Nodup) : newest changes = newest others := by
  funext name
  have distinctOthers : (others.map path).Nodup := (same.map path).nodup_iff.mp distinct
  by_cases present : ∃ change ∈ changes, change.path = name
  · obtain ⟨change, member, isName⟩ := present
    rw [← isName, newest_of_mem distinct member,
      newest_of_mem distinctOthers (same.mem_iff.mp member)]
  · have absent : ∀ change ∈ changes, change.path ≠ name :=
      fun change member isName => present ⟨change, member, isName⟩
    rw [newest_eq_none.mpr absent, newest_eq_none.mpr
      (fun change member => absent change (same.mem_iff.mpr member))]

/-- The first change of the path, and the others. -/
def takeFirst (path : Text) : List NoteChange → Option (NoteChange × List NoteChange)
  | [] => none
  | change :: rest =>
      if change.path = path then some (change, rest)
      else (takeFirst path rest).map (fun found => (found.1, change :: found.2))

theorem takeFirst_spec {path : Text} {changes rest : List NoteChange} {taken : NoteChange}
    (found : takeFirst path changes = some (taken, rest)) :
    (∀ other, other ≠ path → newest rest other = newest changes other) ∧
      ((newest rest path = newest changes path ∧ newest changes path ≠ none) ∨
        (newest rest path = none ∧ newest changes path = some taken.deleted)) := by
  induction changes generalizing rest with
  | nil => cases found
  | cons change later ih =>
      unfold takeFirst at found
      split at found
      case isTrue same =>
        cases found
        constructor
        · intro other different
          rw [newest_cons, if_neg (fun equal => different (equal.symm.trans same)), Option.or_none]
        · cases last : newest later path with
          | none =>
              refine Or.inr ⟨rfl, ?_⟩
              rw [newest_cons, last, if_pos same, Option.none_or]
          | some flag =>
              refine Or.inl ?_
              rw [newest_cons, last, Option.some_or]
              exact ⟨rfl, Option.some_ne_none flag⟩
      case isFalse other =>
        obtain ⟨⟨first, others⟩, inLater, same⟩ := Option.map_eq_some_iff.mp found
        cases same
        obtain ⟨kept, own⟩ := ih inLater
        constructor
        · intro path' different
          rw [newest_cons, kept path' different, newest_cons]
        · rw [newest_cons, newest_cons, if_neg other, Option.or_none, Option.or_none]
          exact own

theorem takeFirst_mem {path : Text} {changes rest : List NoteChange} {taken : NoteChange}
    (found : takeFirst path changes = some (taken, rest)) :
    taken.path = path ∧ ∀ change, change ∈ changes ↔ change = taken ∨ change ∈ rest := by
  induction changes generalizing rest with
  | nil => cases found
  | cons first later ih =>
      unfold takeFirst at found
      split at found
      case isTrue same =>
        cases found
        exact ⟨same, fun change => List.mem_cons⟩
      case isFalse =>
        obtain ⟨⟨other, others⟩, inLater, same⟩ := Option.map_eq_some_iff.mp found
        cases same
        obtain ⟨isPath, members⟩ := ih inLater
        refine ⟨isPath, fun change => ?_⟩
        rw [List.mem_cons, members change, List.mem_cons, or_left_comm]

/-- A change is dropped when a later one of its path takes its place. -/
def coalesce : Nat → List NoteChange → Option (List NoteChange)
  | _, [] => none
  | 0, change :: rest => if (newest rest change.path).isSome then some rest else none
  | position + 1, change :: rest => (coalesce position rest).map (change :: ·)

theorem newest_coalesce {position : Nat} {changes rest : List NoteChange}
    (coalesced : coalesce position changes = some rest) : newest rest = newest changes := by
  funext path
  induction changes generalizing position rest with
  | nil =>
      unfold coalesce at coalesced
      cases coalesced
  | cons change later ih =>
      cases position with
      | zero =>
          unfold coalesce at coalesced
          split at coalesced
          case isTrue replaced =>
            cases coalesced
            obtain ⟨flag, isNewest⟩ := Option.isSome_iff_exists.mp replaced
            rw [newest_cons]
            split
            case isTrue same => rw [← same, isNewest, Option.some_or]
            case isFalse => rw [Option.or_none]
          case isFalse => cases coalesced
      | succ position =>
          unfold coalesce at coalesced
          obtain ⟨others, inLater, same⟩ := Option.map_eq_some_iff.mp coalesced
          cases same
          rw [newest_cons, ih inLater, newest_cons]

end NoteChange

end VaultSearch
