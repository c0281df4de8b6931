/-
The note catalog, `NotesCatalog` of `crud/catalog.py`, and what its start-up makes of the
rows that an earlier process left behind.
-/

import VaultSearch.Crud.CatalogScan
import VaultSearch.Crud.IgnoredFolders
import VaultSearch.Store.KeyedTable

set_option autoImplicit false

namespace VaultSearch

abbrev CatalogTable := KeyedTable CatalogRow.path

structure NotesCatalog where
  isInitialized : Bool := false
  table : CatalogTable

namespace NotesCatalog

/-- `initialize`, given what `_scan_vault` returns. -/
def initializeCatalog (catalog : NotesCatalog) (notesData : List CatalogRow)
    (forceRebuild : Bool := false) : NotesCatalog :=
  if catalog.isInitialized && !forceRebuild then catalog
  else
    { isInitialized := true
      table :=
        (if forceRebuild then KeyedTable.empty else catalog.table).insertAll notesData }

/-- The table has exactly these rows. -/
def Holds (catalog : NotesCatalog) (rows : List CatalogRow) : Prop :=
  ∀ row, row ∈ catalog.table.rows ↔ row ∈ rows

/-- What a new process finds under a path: the row of the scan, or a row that was left. -/
theorem find_initializeCatalog {vault : CatalogVault} {env : Env} (left : CatalogTable)
    (forceRebuild : Bool) (path : Text) :
    (initializeCatalog { table := left } (vault.scanVault env) forceRebuild).table.find path =
      ((vault.scanVault env).find? (fun row => row.path = path)).or
        (if forceRebuild then none else left.find path) := by
  unfold initializeCatalog
  rw [Bool.false_and, if_neg Bool.false_ne_true]
  dsimp only
  rw [KeyedTable.find_insertAll _ CatalogVault.scanVault_distinct]
  cases forceRebuild with
  | true => rfl
  | false => rfl

theorem find_scan {vault : CatalogVault} {env : Env} {row : CatalogRow} :
    (vault.scanVault env).find? (fun other => other.path = row.path) = some row ↔
      row ∈ vault.scanVault env :=
  (@KeyedTable.mem_iff_find _ _ CatalogRow.path _
    { rows := vault.scanVault env, distinct := CatalogVault.scanVault_distinct } row).symm

/-- After start-up the catalog is the scan of the vault exactly if it is rebuilt, or nothing
was left of a note that is gone. -/
theorem initializeCatalog_holds_iff (vault : CatalogVault) (env : Env) (left : CatalogTable)
    (forceRebuild : Bool) :
    (initializeCatalog { table := left } (vault.scanVault env) forceRebuild).Holds
        (vault.scanVault env) ↔
      forceRebuild = true ∨
        ∀ row ∈ left.rows, ∃ scanned ∈ vault.scanVault env, scanned.path = row.path := by
  have found : ∀ row : CatalogRow,
      row ∈ (initializeCatalog { table := left } (vault.scanVault env) forceRebuild).table.rows ↔
        ((vault.scanVault env).find? (fun other => other.path = row.path)).or
          (if forceRebuild then none else left.find row.path) = some row := by
    intro row
    rw [KeyedTable.mem_iff_find, find_initializeCatalog]
  constructor
  · intro holds
    cases forceRebuild with
    | true => exact Or.inl rfl
    | false =>
        refine Or.inr ?_
        intro row member
        -- without a scanned row under its path, the old row would still be found
        by_contra gone
        have missing : (vault.scanVault env).find? (fun other => other.path = row.path) =
            none := by
          rw [List.find?_eq_none]
          intro scanned present same
          exact gone ⟨scanned, present, of_decide_eq_true same⟩
        have kept := (found row).mpr (by
          rw [missing, Option.none_or, if_neg Bool.false_ne_true]
          exact KeyedTable.mem_iff_find.mp member)
        exact gone ⟨row, (holds row).mp kept, rfl⟩
  · intro condition row
    rw [found]
    cases scanned : (vault.scanVault env).find? (fun other => other.path = row.path) with
    | some other =>
        rw [Option.some_or, ← scanned]
        exact find_scan
    | none =>
        have unscanned : row ∉ vault.scanVault env := by
          intro member
          rw [find_scan.mpr member] at scanned
          cases scanned
        rw [Option.none_or]
        constructor
        · intro kept
          exfalso
          rcases condition with rebuilt | covered
          · rw [rebuilt, if_pos rfl] at kept
            cases kept
          · split at kept
            · cases kept
            · obtain ⟨other, present, same⟩ := covered row (KeyedTable.find_some kept).1
              have impossible := List.find?_eq_none.mp scanned other present
              exact impossible (decide_eq_true same)
        · intro member
          exact absurd member unscanned

end NotesCatalog

/-! ### A note that was deleted while nothing ran -/

/-- A vault at `/vault` that holds one note, at rest. -/
def restingVault : CatalogVault :=
  { oneNoteVault with
    distinct := by decide
    named := by
      unfold IsFileName
      decide
    status := fun _location => some { mtimeNs := 100, size := 4 } }

def goneRow : CatalogRow :=
  { path := "gone.md".toList
    folder := []
    extension := ".md".toList
    title := "gone".toList
    mtimeNs := 50
    size := 9 }

/-- The rows of an earlier process, with a note that has been deleted since. -/
def leftTable : CatalogTable :=
  { rows := [goneRow], distinct := List.nodup_singleton _ }

theorem initializeCatalog_keeps_gone :
    ¬ (NotesCatalog.initializeCatalog { table := leftTable }
      (restingVault.scanVault Env.plain)).Holds (restingVault.scanVault Env.plain) := by
  intro holds
  have kept : goneRow ∈ (NotesCatalog.initializeCatalog { table := leftTable }
      (restingVault.scanVault Env.plain)).table.rows := by decide
  have scanned := (holds goneRow).mp kept
  exact absurd scanned (by decide)

end VaultSearch
