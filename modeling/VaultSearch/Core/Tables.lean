/-
The three tables of the index and the operations the indexer runs on them.

Each table has a canonical generation, which may not exist yet, and a staging one for
rebuilds.  The indexer keeps one handle a table, which refers to one of the two or is
not open.  Every operation on a table is one atomic step that can fail.
-/

import Mathlib.Logic.Function.Basic
import VaultSearch.Core.Scanner
import VaultSearch.Store.Fallible
import VaultSearch.Store.Table

set_option autoImplicit false

namespace VaultSearch

/-! ### Rows -/

inductive TableKind where
  | chunks
  | links
  | aliases
  deriving DecidableEq

def Row : TableKind → Type
  | .chunks => ChunkWithVector
  | .links => LinkRecord
  | .aliases => AliasRecord

instance (kind : TableKind) : DecidableEq (Row kind) :=
  match kind with
  | .chunks => inferInstanceAs (DecidableEq ChunkWithVector)
  | .links => inferInstanceAs (DecidableEq LinkRecord)
  | .aliases => inferInstanceAs (DecidableEq AliasRecord)

def Row.columns : (kind : TableKind) → Row kind → Text → Option Sql.Literal
  | .chunks => ChunkWithVector.columns
  | .links => LinkRecord.columns
  | .aliases => AliasRecord.columns

/-- The note a row belongs to. -/
def Row.owner : (kind : TableKind) → Row kind → Text
  | .chunks => fun row : ChunkWithVector => row.notePath
  | .links => LinkRecord.fromNotePath
  | .aliases => AliasRecord.notePath

def TableKind.ownerColumn : TableKind → Text
  | .chunks => "note_path".toList
  | .links => "from_note_path".toList
  | .aliases => "note_path".toList

/-- Rows for each table. -/
abbrev Rows := (kind : TableKind) → List (Row kind)

/-- `f"note_path = '{escaped_path}'"`, with the column of the table. -/
def ownerFilter (kind : TableKind) (path : Text) : Text :=
  kind.ownerColumn ++ " = '".toList ++ escapeSqlString path ++ "'".toList

theorem columns_owner (kind : TableKind) (row : Row kind) :
    Row.columns kind row kind.ownerColumn = some (.text (Row.owner kind row)) := by
  cases kind <;> rfl

/-- The delete filter of a note selects its rows and no others, whatever its path
contains. -/
theorem parse_ownerFilter (kind : TableKind) (path : Text) :
    ∃ filter, Sql.parse (ownerFilter kind path) = some filter ∧
      ∀ row : Row kind, filter.holds (Row.columns kind row) = decide (Row.owner kind row = path) := by
  have isName : Sql.IsName kind.ownerColumn := by cases kind <;> decide
  refine ⟨[[Sql.Comparison.equals kind.ownerColumn path]], ?_, ?_⟩
  · unfold ownerFilter
    rw [escapeSqlString_eq]
    exact Sql.parse_equality isName path
  · intro row
    have selected : Sql.Filter.holds (Row.columns kind row)
        [[Sql.Comparison.equals kind.ownerColumn path]] = true ↔ Row.owner kind row = path := by
      have general := Sql.holds_equalities (Row.columns kind row) [(kind.ownerColumn, path)]
      simp only [List.map_cons, List.map_nil, List.forall_mem_singleton, columns_owner,
        Option.some.injEq, Sql.Literal.text.injEq] at general
      exact general
    rw [Bool.eq_iff_iff, selected, decide_eq_true_iff]

/-! ### The index -/

inductive Side where
  | canonical
  | staging
  deriving DecidableEq

structure Lane (row : Type) where
  canonical : Option (Table row) := none
  staging : Option (Table row) := none
  /-- `self._table`, `self._links_table` or `self._aliases_table` -/
  handle : Option Side := none

def Lane.table {row : Type} (lane : Lane row) : Side → Option (Table row)
  | .canonical => lane.canonical
  | .staging => lane.staging

def Lane.setTable {row : Type} (lane : Lane row) (side : Side) (table : Table row) : Lane row :=
  match side with
  | .canonical => { lane with canonical := some table }
  | .staging => { lane with staging := some table }

structure Index where
  lanes : (kind : TableKind) → Lane (Row kind)
  operationsSinceCompact : Nat := 0

namespace Index

/-- No table yet. -/
def empty : Index :=
  { lanes := fun _ => {} }

def setLane (index : Index) (kind : TableKind) (lane : Lane (Row kind)) : Index :=
  { index with lanes := Function.update index.lanes kind lane }

def setTable (index : Index) (kind : TableKind) (side : Side) (table : Table (Row kind)) : Index :=
  index.setLane kind ((index.lanes kind).setTable side table)

def setHandle (index : Index) (kind : TableKind) (handle : Option Side) : Index :=
  index.setLane kind { index.lanes kind with handle }

/-- Open the canonical table, which is created when there is none. -/
def openCanonical (index : Index) (kind : TableKind) : Index :=
  (index.setTable kind .canonical ((index.lanes kind).canonical.getD Table.empty)).setHandle kind
    (some .canonical)

def table (index : Index) (kind : TableKind) (side : Side) : Option (Table (Row kind)) :=
  (index.lanes kind).table side

def handle (index : Index) (kind : TableKind) : Option Side :=
  (index.lanes kind).handle

/-- The rows of one generation; a table that does not exist has none. -/
def rows (index : Index) (kind : TableKind) (side : Side) : List (Row kind) :=
  match index.table kind side with
  | none => []
  | some table => table.rows

theorem setLane_same (index : Index) (kind : TableKind) (lane : Lane (Row kind)) :
    (index.setLane kind lane).lanes kind = lane := by
  simp only [setLane, Function.update_self]

theorem setLane_other (index : Index) {kind other : TableKind} (lane : Lane (Row kind))
    (different : other ≠ kind) : (index.setLane kind lane).lanes other = index.lanes other := by
  simp only [setLane, Function.update_of_ne different]

@[simp] theorem table_setTable_same (index : Index) (kind : TableKind) (side : Side)
    (table : Table (Row kind)) : (index.setTable kind side table).table kind side = some table := by
  unfold setTable Index.table
  rw [setLane_same]
  cases side <;> rfl

theorem table_setTable_side (index : Index) (kind : TableKind) {side other : Side}
    (table : Table (Row kind)) (different : other ≠ side) :
    (index.setTable kind side table).table kind other = index.table kind other := by
  unfold setTable Index.table
  rw [setLane_same]
  cases side <;> cases other <;> first | rfl | exact absurd rfl different

theorem table_setTable_kind (index : Index) {kind other : TableKind} (side otherSide : Side)
    (table : Table (Row kind)) (different : other ≠ kind) :
    (index.setTable kind side table).table other otherSide = index.table other otherSide := by
  unfold setTable Index.table
  rw [setLane_other _ _ different]

@[simp] theorem handle_setTable (index : Index) (kind other : TableKind) (side : Side)
    (table : Table (Row kind)) :
    (index.setTable kind side table).handle other = index.handle other := by
  unfold setTable handle
  by_cases same : other = kind
  · subst same
    rw [setLane_same]
    cases side <;> rfl
  · rw [setLane_other _ _ same]

@[simp] theorem table_setHandle (index : Index) (kind other : TableKind) (side : Side)
    (value : Option Side) : (index.setHandle kind value).table other side = index.table other side := by
  unfold setHandle table
  by_cases same : other = kind
  · subst same
    rw [setLane_same]
    cases side <;> rfl
  · rw [setLane_other _ _ same]

@[simp] theorem handle_setHandle_same (index : Index) (kind : TableKind) (value : Option Side) :
    (index.setHandle kind value).handle kind = value := by
  unfold setHandle handle
  rw [setLane_same]

theorem handle_setHandle_other (index : Index) {kind other : TableKind} (value : Option Side)
    (different : other ≠ kind) : (index.setHandle kind value).handle other = index.handle other := by
  unfold setHandle handle
  rw [setLane_other _ _ different]

@[simp] theorem operations_setTable (index : Index) (kind : TableKind) (side : Side)
    (table : Table (Row kind)) :
    (index.setTable kind side table).operationsSinceCompact = index.operationsSinceCompact := rfl

@[simp] theorem operations_setHandle (index : Index) (kind : TableKind) (value : Option Side) :
    (index.setHandle kind value).operationsSinceCompact = index.operationsSinceCompact := rfl

theorem rows_of_table {index : Index} {kind : TableKind} {side : Side} {table : Table (Row kind)}
    (found : index.table kind side = some table) : index.rows kind side = table.rows := by
  unfold rows
  rw [found]

theorem rows_congr {index other : Index} {kind : TableKind} {side : Side}
    (same : other.table kind side = index.table kind side) :
    other.rows kind side = index.rows kind side := by
  unfold rows
  rw [same]

@[simp] theorem rows_setTable_same (index : Index) (kind : TableKind) (side : Side)
    (table : Table (Row kind)) : (index.setTable kind side table).rows kind side = table.rows :=
  rows_of_table (index.table_setTable_same kind side table)

@[simp] theorem rows_setHandle (index : Index) (kind other : TableKind) (side : Side)
    (value : Option Side) : (index.setHandle kind value).rows other side = index.rows other side :=
  rows_congr (index.table_setHandle kind other side value)

/-- A table that is created by opening it has no rows, as before. -/
@[simp] theorem rows_openCanonical (index : Index) (kind other : TableKind) (side : Side) :
    (index.openCanonical kind).rows other side = index.rows other side := by
  unfold openCanonical
  rw [rows_setHandle]
  by_cases sameKind : other = kind
  · subst sameKind
    cases side with
    | canonical =>
        rw [rows_setTable_same]
        unfold rows table Lane.table
        cases (index.lanes other).canonical with
        | none => rfl
        | some table => rfl
    | staging => exact rows_congr (table_setTable_side index other _ (by decide))
  · exact rows_congr (table_setTable_kind index _ _ _ sameKind)

end Index

structure World where
  vault : Vault
  index : Index
  /-- `_reindex_attempts`: for each path the number of attempts and the time of the first -/
  attempts : List (Text × (Nat × Nat)) := []

/-! ### Other threads -/

/-- What threads without the write lock do. -/
inductive OtherAction where
  /-- a reader asks for a table handle -/
  | acquire (kind : TableKind)
  | write (path : Text) (file : File)
  | remove (path : Text)

/-- `_ensure_table` and its siblings of a reader: an open handle is reused. -/
def Index.acquire (index : Index) (kind : TableKind) : Index :=
  match index.handle kind with
  | some _ => index
  | none => index.openCanonical kind

instance : Acts OtherAction World where
  act := fun action world =>
    match action with
    | .acquire kind => { world with index := world.index.acquire kind }
    | .write path file => { world with vault := world.vault.write path file }
    | .remove path => { world with vault := world.vault.remove path }

/-! ### Operations -/

inductive Operation where
  | ensureTable
  | tableVersion
  | deleteRows
  | addRows
  | restoreVersion
  | scanVault
  | listTables
  | createStaging
  | assignHandle
  | parseNote
  | embed
  | scanRows
  | readLink
  | deleteLink
  | addLink
  | countStaging
  | publish
  | rollback
  | reopen
  | buildIndexes
  | compact
  | circuitBreaker
  | ensureNoteId
  | pathExists
  deriving DecidableEq

/-- The name of one step: its operation, its table and, in a loop, its turn. -/
structure Label where
  operation : Operation
  kind : TableKind := .chunks
  turn : Nat := 0
  deriving DecidableEq

abbrev Program := Fallible Label OtherAction World

open Fallible

variable {alpha : Type}

/-- An operation through a table handle. -/
def onTable (name : Label) (kind : TableKind) (side : Side)
    (operation : Table (Row kind) → Option (alpha × Table (Row kind))) : Program alpha :=
  step name (fun world =>
    match world.index.table kind side with
    | none => none
    | some table =>
        (operation table).map (fun (value, later) =>
          (value, { world with index := world.index.setTable kind side later })))

/-- Read through a table handle. -/
def peekTable (name : Label) (kind : TableKind) (side : Side)
    (view : Table (Row kind) → Option alpha) : Program alpha :=
  step name (fun world =>
    match world.index.table kind side with
    | none => none
    | some table => (view table).map (fun value => (value, world)))

def ensureTable (kind : TableKind) : Program Side := do
  match ← look (fun world => world.index.handle kind) with
  | some side => return side
  | none =>
      step { operation := .ensureTable, kind } (fun world =>
        some (.canonical, { world with index := world.index.openCanonical kind }))

/-- `table.version`. -/
def tableVersion (kind : TableKind) (side : Side) : Program Nat :=
  peekTable { operation := .tableVersion, kind } kind side (fun table => some table.version)

def addRows (name : Label) (kind : TableKind) (side : Side) (rows : List (Row kind)) :
    Program Unit :=
  onTable name kind side (fun table => some ((), table.add rows))

/-- `table.delete(filter)`; a filter that cannot be read raises. -/
def deleteWhere (name : Label) (kind : TableKind) (side : Side) (filter : Text) : Program Unit :=
  onTable name kind side (fun table =>
    (Sql.parse filter).map (fun read =>
      ((), table.delete (fun row => read.holds (Row.columns kind row)))))

/-- `table.search().where(filter)`, `none` when the filter cannot be read. -/
def selectWhere (filter : Text) {kind : TableKind} (table : Table (Row kind)) :
    Option (List (Row kind)) :=
  (Sql.parse filter).map (fun read =>
    table.rows.filter (fun row => read.holds (Row.columns kind row)))

def restoreVersion (name : Label) (kind : TableKind) (side : Side) (version : Nat) :
    Program Unit :=
  onTable name kind side (fun table => (table.restore version).map (fun later => ((), later)))

/-- `table.add(reader, mode="overwrite")`. -/
def overwriteRows (name : Label) (kind : TableKind) (side : Side) (rows : List (Row kind)) :
    Program Unit :=
  onTable name kind side (fun table => some ((), table.commit rows))

/-! ### Their triples -/

section Triples

variable {schedule : Schedule Label OtherAction} {always before raised : World → Prop}
  {after : alpha → World → Prop}

theorem triple_onTable {name : Label} {kind : TableKind} {side : Side}
    {operation : Table (Row kind) → Option (alpha × Table (Row kind))}
    (steady : Steady schedule always before)
    (done : ∀ world table value later, before world → schedule.faults name = false →
      world.index.table kind side = some table → operation table = some (value, later) →
      after value { world with index := world.index.setTable kind side later } ∧
        always { world with index := world.index.setTable kind side later })
    (failed : ∀ world, before world →
      schedule.faults name = true ∨ world.index.table kind side = none ∨
        (∃ table, world.index.table kind side = some table ∧ operation table = none) →
      raised world) :
    Triple schedule always before (onTable name kind side operation) after raised := by
  refine triple_step steady ?_ ?_
  · intro world value later started fine found
    cases present : world.index.table kind side with
    | none => simp [present] at found
    | some table =>
        cases shape : operation table with
        | none => simp [present, shape] at found
        | some result =>
            simp only [present, shape, Option.map_some, Option.some.injEq, Prod.mk.injEq] at found
            rw [← found.1, ← found.2]
            exact done world table result.1 result.2 started fine present shape
  · intro world started reason
    refine failed world started ?_
    rcases reason with broken | impossible
    · exact Or.inl broken
    · cases present : world.index.table kind side with
      | none => exact Or.inr (Or.inl rfl)
      | some table =>
          cases shape : operation table with
          | none => exact Or.inr (Or.inr ⟨table, rfl, shape⟩)
          | some result => simp [present, shape] at impossible

theorem triple_peekTable {name : Label} {kind : TableKind} {side : Side}
    {view : Table (Row kind) → Option alpha} (steady : Steady schedule always before)
    (done : ∀ world table value, before world → schedule.faults name = false →
      world.index.table kind side = some table → view table = some value →
      after value world ∧ always world)
    (failed : ∀ world, before world →
      schedule.faults name = true ∨ world.index.table kind side = none ∨
        (∃ table, world.index.table kind side = some table ∧ view table = none) →
      raised world) :
    Triple schedule always before (peekTable name kind side view) after raised := by
  refine triple_step steady ?_ ?_
  · intro world value later started fine found
    cases present : world.index.table kind side with
    | none => simp [present] at found
    | some table =>
        cases shape : view table with
        | none => simp [present, shape] at found
        | some result =>
            simp only [present, shape, Option.map_some, Option.some.injEq, Prod.mk.injEq] at found
            rw [← found.1, ← found.2]
            exact done world table result started fine present shape
  · intro world started reason
    refine failed world started ?_
    rcases reason with broken | impossible
    · exact Or.inl broken
    · cases present : world.index.table kind side with
      | none => exact Or.inr (Or.inl rfl)
      | some table =>
          cases shape : view table with
          | none => exact Or.inr (Or.inr ⟨table, rfl, shape⟩)
          | some result => simp [present, shape] at impossible

end Triples

end VaultSearch
