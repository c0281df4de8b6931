/-
Rewriting the frontmatter of a note: `ensure_note_id` and `update_frontmatter` of
`crud/write.py`, with the validations of `crud/validation.py` they run.

Schema validation is disabled, so the validator returns the data it is given.  A write
happens under the path lock and is checked against the revision read before, so that
reading and writing are one step here.
-/

import VaultSearch.Core.Scanner
import VaultSearch.Parsers.Markdown

set_option autoImplicit false

namespace VaultSearch

structure OperationResult where
  success : Bool
  message : Text
  path : Text
  errorCode : Option Text := none
  idAdded : Option Bool := none
  id : Option Value := none

def successResult (path message : Text) : OperationResult :=
  { success := true, message, path }

def errorResult (path message : Text) (errorCode : Option Text := none) : OperationResult :=
  { success := false, message, path, errorCode }

/-! ### Validation -/

/-- `resolve_path`, as the vault-relative path it leads to. -/
def resolvePath (env : Env) (relativePath : Text) : Except PyError Text :=
  let stripped := Text.strip relativePath
  if stripped.isEmpty then .error .valueError
  else if env.config.maxPathLength < stripped.length then .error .valueError
  else if !validateRelativePath stripped then .error .valueError
  else .ok (PurePath.normalPath stripped)

def validateMarkdownOnly (env : Env) (relativePath : Text) : Except PyError Unit :=
  if env.lower (PurePath.suffix relativePath) != ".md".toList then .error .valueError else .ok ()

def validateNotIgnoredFolder (env : Env) (relativePath : Text) : Except PyError Unit :=
  if env.config.ignoredFolders.any (fun ignored => (PurePath.parts relativePath).contains ignored)
  then .error .valueError
  else .ok ()

def validateFrontmatterSize (env : Env) (frontmatter : Mapping) : Except PyError Unit :=
  if env.config.maxFrontmatterKeys < frontmatter.length then .error .valueError else .ok ()

/-- `validate_for_write` of a Markdown note, without new content to check. -/
def validateForWrite (env : Env) (relativePath : Text) (frontmatter : Mapping) :
    Except PyError Text := do
  validateMarkdownOnly env relativePath
  validateNotIgnoredFolder env relativePath
  validateFrontmatterSize env frontmatter
  resolvePath env relativePath

/-! ### Writing -/

def serializeFrontmatter (env : Env) (frontmatter : Mapping) : Text :=
  if frontmatter.isEmpty then []
  else "---\n".toList ++ env.dump frontmatter ++ "---\n\n".toList

/-- What a call brings with it: the UUID it would generate and the mtime of a file it
writes. -/
structure Fresh where
  uuid : Text
  mtime : Nat

def notFound (relativePath : Text) : OperationResult :=
  errorResult relativePath ("Note not found: ".toList ++ relativePath)

def ensureNoteId (env : Env) (fresh : Fresh) (relativePath : Text) (vault : Vault) :
    Except PyError (OperationResult × Vault) :=
  if !Text.endsWith (env.lower relativePath) ".md".toList then
    .ok (errorResult relativePath "Only .md is supported".toList, vault)
  else do
    let filePath ← resolvePath env relativePath
    match vault.read filePath with
    | none => return (notFound relativePath, vault)
    | some file =>
        let (existing, body) ← parseFrontmatter env file.readText
        match existing.get "id".toList with
        | some id =>
            let result := successResult relativePath
              ("Note already has an id: ".toList ++ relativePath)
            return ({ result with idAdded := some false, id := some id }, vault)
        | none =>
            let frontmatter := (Key.text "id".toList, Value.str fresh.uuid) :: existing
            let content := serializeFrontmatter env frontmatter ++ body
            let result := successResult relativePath ("ID added: ".toList ++ relativePath)
            return ({ result with idAdded := some true, id := some (.str fresh.uuid) },
              vault.write filePath { text := content, mtime := fresh.mtime })

def updateFrontmatter (env : Env) (fresh : Fresh) (relativePath : Text) (metadata : Mapping)
    (merge : Bool) (vault : Vault) : Except PyError (OperationResult × Vault) := do
  let filePath ← validateForWrite env relativePath metadata
  match vault.read filePath with
  | none => return (notFound relativePath, vault)
  | some file =>
      let (existing, body) ← parseFrontmatter env file.readText
      let frontmatter := if merge then existing.merge metadata else metadata
      validateFrontmatterSize env frontmatter
      let content := serializeFrontmatter env frontmatter ++ body
      let action := if merge then "merged: ".toList else "replaced: ".toList
      return (successResult relativePath ("Frontmatter ".toList ++ action ++ relativePath),
        vault.write filePath { text := content, mtime := fresh.mtime })

theorem resolvePath_ok {env : Env} {relativePath filePath : Text}
    (resolved : resolvePath env relativePath = .ok filePath) :
    filePath = PurePath.normalPath (Text.strip relativePath) := by
  unfold resolvePath at resolved
  simp only at resolved
  split at resolved
  · cases resolved
  · split at resolved
    · cases resolved
    · split at resolved
      · cases resolved
      · exact (Except.ok.inj resolved).symm

/-- Adding an id writes the note and nothing else. -/
theorem ensureNoteId_read {env : Env} {fresh : Fresh} {relativePath : Text} {vault later : Vault}
    {result : OperationResult}
    (done : ensureNoteId env fresh relativePath vault = .ok (result, later)) {other : Text}
    (different : PurePath.normalPath other ≠ PurePath.normalPath (Text.strip relativePath)) :
    later.read other = vault.read other := by
  unfold ensureNoteId at done
  simp only [bind, Except.bind, pure, Except.pure] at done
  split at done
  · rw [← (Prod.mk.inj (Except.ok.inj done)).2]
  · split at done
    · cases done
    case h_2 filePath resolved =>
      split at done
      · rw [← (Prod.mk.inj (Except.ok.inj done)).2]
      · split at done
        · cases done
        · split at done
          · rw [← (Prod.mk.inj (Except.ok.inj done)).2]
          · rw [← (Prod.mk.inj (Except.ok.inj done)).2]
            refine Vault.read_write_other _ _ ?_
            rw [resolvePath_ok resolved, PurePath.normalPath_normalPath]
            exact different

end VaultSearch
