/-
A vault with symbolic links in it: how `crud/validation.py` turns a path string into a
location, and what the operating system makes of the result.

`VAULT_PATH` is resolved when the settings are loaded, so that the vault root is a real
folder.  Nothing moves while one call runs.
-/

import VaultSearch.Crud.Write
import VaultSearch.Store.Symlinks

set_option autoImplicit false

namespace VaultSearch

open Symlinks

namespace PurePath

/-- The steps a path string stands for: `pathlib` drops `.` and keeps `..`. -/
def steps (path : Text) : List (Step Text) :=
  (parts path).map (fun part => if part = "..".toList then .up else .enter part)

def isAbsolute (path : Text) : Bool :=
  Text.startsWith path "/".toList

end PurePath

open PurePath

structure LinkedVault where
  tree : FileTree Text
  /-- `VAULT_PATH` -/
  root : Location Text
  rootFolder : tree.node root = some .directory
  /-- how many links the kernel follows before it fails with `ELOOP` -/
  maxLinks : Nat := 40

namespace LinkedVault

variable (vault : LinkedVault)

/-- Where the kernel ends up with an absolute path. -/
def lands (steps : List (Step Text)) : Option (Location Text) :=
  vault.tree.walk (vault.maxLinks + 1) [] steps

/-- `vault_root = VAULT_PATH.expanduser().resolve(strict=False)` -/
def vaultRoot : Location Text :=
  vault.tree.realpath (enters vault.root)

def resolveInternalPath (parts : List (Step Text)) : Except PyError (Location Text) :=
  let candidate := vault.tree.realpath (enters vault.vaultRoot ++ parts)
  if vault.vaultRoot.isPrefixOf candidate then .ok candidate else .error .valueError

def resolvePath (env : Env) (relativePath : Text) : Except PyError (Location Text) :=
  let stripped := Text.strip relativePath
  if stripped.isEmpty then .error .valueError
  else if env.config.maxPathLength < stripped.length then .error .valueError
  else if !validateRelativePath stripped then .error .valueError
  else vault.resolveInternalPath (PurePath.steps stripped)

end LinkedVault

/-! ### The checks of the path string and of the content -/

def validateContentSize (env : Env) (content : Text) : Except PyError Unit :=
  if env.config.maxContentSize < utf8Length content then .error .valueError else .ok ()

def validateExtension (env : Env) (relativePath : Text) (allowCreate : Bool := false) :
    Except PyError Unit :=
  let ext := env.lower (PurePath.suffix relativePath)
  if allowCreate then
    if [".md".toList, ".canvas".toList].contains ext then .ok () else .error .valueError
  else if env.config.extensions.contains ext then .ok ()
  else .error .valueError

def validateReadableText (env : Env) (relativePath : Text) : Except PyError Unit :=
  if env.lower (PurePath.suffix relativePath) = ".md".toList then .ok () else .error .valueError

/-- `if value is not None: check(value)` -/
def whenGiven {value : Type} (given : Option value) (check : value → Except PyError Unit) :
    Except PyError Unit :=
  match given with
  | none => .ok ()
  | some present => check present

namespace LinkedVault

variable (vault : LinkedVault)

/-- `validate_for_write` -/
def validateForWrite (env : Env) (relativePath : Text) (content : Option Text)
    (frontmatter : Option Mapping) (markdownOnly : Bool := true) :
    Except PyError (Location Text) := do
  if markdownOnly then validateMarkdownOnly env relativePath
  else validateExtension env relativePath true
  validateNotIgnoredFolder env relativePath
  whenGiven content (validateContentSize env)
  whenGiven frontmatter (validateFrontmatterSize env)
  vault.resolvePath env relativePath

/-! ### What the checks guarantee -/

variable {vault}

theorem validateForWrite_ok {env : Env} {relativePath : Text} {content : Option Text}
    {frontmatter : Option Mapping} {markdownOnly : Bool} {location : Location Text}
    (validated : vault.validateForWrite env relativePath content frontmatter markdownOnly =
      .ok location) :
    validateNotIgnoredFolder env relativePath = .ok () ∧
      vault.resolvePath env relativePath = .ok location := by
  unfold validateForWrite at validated
  have afterExtension : (do
      validateNotIgnoredFolder env relativePath
      whenGiven content (validateContentSize env)
      whenGiven frontmatter (validateFrontmatterSize env)
      vault.resolvePath env relativePath) = Except.ok location := by
    cases markdownOnly with
    | false => exact (bind_ok validated).choose_spec.2
    | true => exact (bind_ok validated).choose_spec.2
  obtain ⟨_unit, checked, afterIgnored⟩ := bind_ok afterExtension
  obtain ⟨_, _size, afterContent⟩ := bind_ok afterIgnored
  obtain ⟨_, _keys, resolved⟩ := bind_ok afterContent
  exact ⟨checked, resolved⟩

theorem root_real : vault.tree.IsReal vault.root :=
  FileTree.isReal_of_directory vault.rootFolder

theorem vaultRoot_eq : vault.vaultRoot = vault.root :=
  FileTree.realpath_real root_real

theorem resolveInternalPath_ok {parts : List (Step Text)} {location : Location Text}
    (resolved : vault.resolveInternalPath parts = .ok location) :
    location = vault.tree.realpath (enters vault.root ++ parts) ∧ vault.root <+: location := by
  unfold resolveInternalPath at resolved
  rw [vaultRoot_eq] at resolved
  simp only at resolved
  split at resolved
  case isTrue inside =>
    cases resolved
    exact ⟨rfl, List.isPrefixOf_iff_prefix.mp inside⟩
  case isFalse => cases resolved

theorem resolvePath_ok {env : Env} {relativePath : Text} {location : Location Text}
    (resolved : vault.resolvePath env relativePath = .ok location) :
    vault.resolveInternalPath (PurePath.steps (Text.strip relativePath)) = .ok location := by
  unfold resolvePath at resolved
  simp only at resolved
  split at resolved
  · cases resolved
  · split at resolved
    · cases resolved
    · split at resolved
      · cases resolved
      · exact resolved

/-- Whatever the kernel reaches by a resolved path is in the vault, at that path. -/
theorem resolveInternalPath_lands {parts : List (Step Text)} {location reached : Location Text}
    (resolved : vault.resolveInternalPath parts = .ok location)
    (found : vault.lands (enters location) = some reached) :
    reached = location ∧ vault.root <+: reached := by
  obtain ⟨isReal, inside⟩ := resolveInternalPath_ok resolved
  rw [isReal] at found
  have same := FileTree.realpath_lands _ found
  rw [← isReal] at same
  rw [same]
  exact ⟨rfl, inside⟩

end LinkedVault

end VaultSearch
