/-
A table that keeps every version of its rows.  A commit appends a version, and an
earlier version can be restored, which is again a commit.

Rows are a list in scan order; contents are compared up to permutation.
-/

import Mathlib.Data.List.Basic
import Mathlib.Data.List.Infix
import Mathlib.Data.List.Perm.Basic

set_option autoImplicit false

namespace VaultSearch

structure Table (row : Type) where
  /-- the rows of the earlier versions, oldest first -/
  past : List (List row)
  rows : List row
  deriving DecidableEq

namespace Table

variable {row : Type}

def empty : Table row :=
  { past := [], rows := [] }

def version (table : Table row) : Nat :=
  table.past.length

def commit (table : Table row) (rows : List row) : Table row :=
  { past := table.past ++ [table.rows], rows }

/-- The rows at a version, `none` for a version that does not exist yet. -/
def rowsAt (table : Table row) (version : Nat) : Option (List row) :=
  (table.past ++ [table.rows])[version]?

def add (table : Table row) (rows : List row) : Table row :=
  table.commit (table.rows ++ rows)

def delete (table : Table row) (selected : row → Bool) : Table row :=
  table.commit (table.rows.filter (fun entry => !selected entry))

def restore (table : Table row) (version : Nat) : Option (Table row) :=
  (table.rowsAt version).map table.commit

@[simp] theorem commit_rows (table : Table row) (rows : List row) :
    (table.commit rows).rows = rows := rfl

@[simp] theorem add_rows (table : Table row) (rows : List row) :
    (table.add rows).rows = table.rows ++ rows := rfl

@[simp] theorem delete_rows (table : Table row) (selected : row → Bool) :
    (table.delete selected).rows = table.rows.filter (fun entry => !selected entry) := rfl

/-- Every version of `table` is still there in `later`. -/
def Extends (table later : Table row) : Prop :=
  table.past ++ [table.rows] <+: later.past ++ [later.rows]

theorem Extends.refl (table : Table row) : table.Extends table :=
  List.prefix_refl _

theorem Extends.trans {first second third : Table row}
    (left : first.Extends second) (right : second.Extends third) : first.Extends third :=
  List.IsPrefix.trans left right

theorem extends_commit (table : Table row) (rows : List row) :
    table.Extends (table.commit rows) :=
  ⟨[rows], rfl⟩

theorem extends_add (table : Table row) (rows : List row) : table.Extends (table.add rows) :=
  extends_commit table _

theorem extends_delete (table : Table row) (selected : row → Bool) :
    table.Extends (table.delete selected) :=
  extends_commit table _

theorem rowsAt_version_of_extends {table later : Table row} (kept : table.Extends later) :
    later.rowsAt table.version = some table.rows := by
  obtain ⟨newer, split⟩ := kept
  unfold rowsAt version
  rw [← split, List.append_assoc, List.getElem?_append_right (Nat.le_refl _), Nat.sub_self]
  rfl

/-- Restoring a version that was read earlier brings its rows back. -/
theorem restore_of_extends {table later : Table row} (kept : table.Extends later) :
    later.restore table.version = some (later.commit table.rows) := by
  unfold restore
  rw [rowsAt_version_of_extends kept]
  rfl

end Table

end VaultSearch
