/-
The vault as a set of files and its scan: `core/scanner.py`.

A vault maps paths in normal spelling to regular files.  The order of `files` is the
order in which the file system enumerates them.
-/

import Mathlib.Data.List.Nodup
import VaultSearch.Types
import VaultSearch.Utils.Paths

set_option autoImplicit false

namespace VaultSearch

structure Vault where
  files : List (Text × File)
  distinct : (files.map (·.1)).Nodup
  normal : ∀ path ∈ files.map (·.1), IsNormalPath path

namespace Vault

def empty : Vault :=
  { files := []
    distinct := List.nodup_nil
    normal := by intro path member; cases member }

def paths (vault : Vault) : List Text :=
  vault.files.map (·.1)

/-- The file that a relative path leads to, whatever its spelling. -/
def read (vault : Vault) (path : Text) : Option File :=
  vault.files.lookup (PurePath.normalPath path)

def remove (vault : Vault) (path : Text) : Vault :=
  { files := vault.files.filter (fun entry => entry.1 ≠ PurePath.normalPath path)
    distinct := vault.distinct.sublist (List.filter_sublist.map _)
    normal := by
      intro kept member
      obtain ⟨entry, present, same⟩ := List.mem_map.mp member
      exact vault.normal kept (List.mem_map.mpr ⟨entry, (List.mem_filter.mp present).1, same⟩) }

/-- Create or replace a file. -/
def write (vault : Vault) (path : Text) (file : File) : Vault :=
  { files := (vault.remove path).files ++ [(PurePath.normalPath path, file)]
    distinct := by
      rw [List.map_append]
      refine List.Nodup.append (vault.remove path).distinct (List.nodup_singleton _) ?_
      intro kept member same
      obtain ⟨entry, present, shape⟩ := List.mem_map.mp member
      have differs := (List.mem_filter.mp present).2
      rw [← shape] at same
      exact of_decide_eq_true differs (List.mem_singleton.mp same)
    normal := by
      intro kept member
      rw [List.map_append] at member
      rcases List.mem_append.mp member with earlier | last
      · exact (vault.remove path).normal kept earlier
      · rw [List.mem_singleton.mp last]
        exact PurePath.normalPath_normalPath path }

/-! ### Reading back -/

theorem lookup_filter_same (files : List (Text × File)) (path : Text) :
    (files.filter (fun entry => entry.1 ≠ path)).lookup path = none := by
  rw [List.lookup_eq_none_iff]
  intro entry member
  have differs := (List.mem_filter.mp member).2
  rw [bne_iff_ne]
  exact fun same => of_decide_eq_true differs same.symm

theorem lookup_filter_other (files : List (Text × File)) {path other : Text}
    (different : other ≠ path) :
    (files.filter (fun entry => entry.1 ≠ path)).lookup other = files.lookup other := by
  induction files with
  | nil => rfl
  | cons head tail ih =>
      obtain ⟨name, file⟩ := head
      by_cases dropped : name = path
      · have notOther : (other == name) = false := by
          rw [dropped, beq_eq_false_iff_ne]
          exact different
        rw [List.filter_cons_of_neg (by simpa using dropped), List.lookup_cons, notOther]
        exact ih
      · rw [List.filter_cons_of_pos (by simpa using dropped), List.lookup_cons, List.lookup_cons, ih]

theorem read_remove_same (vault : Vault) {path other : Text}
    (same : PurePath.normalPath other = PurePath.normalPath path) :
    (vault.remove path).read other = none := by
  unfold read
  rw [same]
  exact lookup_filter_same vault.files _

theorem read_remove_other (vault : Vault) {path other : Text}
    (different : PurePath.normalPath other ≠ PurePath.normalPath path) :
    (vault.remove path).read other = vault.read other :=
  lookup_filter_other vault.files different

theorem read_write_same (vault : Vault) {path other : Text} (file : File)
    (same : PurePath.normalPath other = PurePath.normalPath path) :
    (vault.write path file).read other = some file := by
  have absent := read_remove_same vault same
  unfold read at absent ⊢
  unfold write
  rw [List.lookup_append, absent, same]
  simp

theorem read_write_other (vault : Vault) {path other : Text} (file : File)
    (different : PurePath.normalPath other ≠ PurePath.normalPath path) :
    (vault.write path file).read other = vault.read other := by
  have kept := read_remove_other vault different
  unfold read at kept ⊢
  unfold write
  rw [List.lookup_append, kept, List.lookup_cons, beq_eq_false_iff_ne.mpr different]
  simp

theorem paths_nodup (vault : Vault) : vault.paths.Nodup :=
  vault.distinct

theorem mem_paths_iff (vault : Vault) (path : Text) :
    path ∈ vault.paths ↔ IsNormalPath path ∧ (vault.read path).isSome = true := by
  have looked : (vault.files.lookup path).isSome = true ↔ path ∈ vault.paths := by
    rw [Option.isSome_iff_exists]
    constructor
    · rintro ⟨file, found⟩
      obtain ⟨front, back, split, _absent⟩ := List.lookup_eq_some_iff.mp found
      exact List.mem_map.mpr ⟨(path, file), by rw [split]; simp, rfl⟩
    · intro member
      cases missing : vault.files.lookup path with
      | some file => exact ⟨file, rfl⟩
      | none =>
          obtain ⟨entry, present, same⟩ := List.mem_map.mp member
          have differs := List.lookup_eq_none_iff.mp missing entry present
          rw [same] at differs
          simp at differs
  constructor
  · intro member
    have normal := vault.normal path member
    refine ⟨normal, ?_⟩
    unfold read
    rw [normal]
    exact looked.mpr member
  · rintro ⟨normal, present⟩
    unfold read at present
    rw [normal] at present
    exact looked.mp present

end Vault

/-! ### The scan -/

/-- `path.suffix.lower() in INDEXABLE_EXTENSIONS`. -/
def hasIndexableExtension (env : Env) (path : Text) : Bool :=
  env.config.extensions.contains (env.lower (PurePath.suffix path))

/-- `any(ignored in path.parts for ignored in IGNORED_FOLDERS)`: the parts are those of
the absolute path, so a folder above the vault counts too. -/
def isIgnored (env : Env) (path : Text) : Bool :=
  env.config.ignoredFolders.any (fun ignored =>
    (env.config.vaultParts ++ PurePath.parts path).contains ignored)

def isScanned (env : Env) (path : Text) : Bool :=
  hasIndexableExtension env path && !isIgnored env path

def scanVault (env : Env) (vault : Vault) : List Text :=
  vault.paths.filter (isScanned env)

theorem scanVault_nodup (env : Env) (vault : Vault) : (scanVault env vault).Nodup :=
  vault.paths_nodup.filter _

theorem mem_scanVault_iff (env : Env) (vault : Vault) (path : Text) :
    path ∈ scanVault env vault ↔
      IsNormalPath path ∧ (vault.read path).isSome = true ∧ isScanned env path = true := by
  unfold scanVault
  rw [List.mem_filter, Vault.mem_paths_iff, and_assoc]

end VaultSearch
