/-
What an operation has done when it succeeds and nothing interferes: one specification for
each of the operations that rewrite a note.
-/

import VaultSearch.Crud.Programs

set_option autoImplicit false

namespace VaultSearch

open Symlinks

variable {host : Host} {files final : Files} {result : CrudResult} {filePath : Location Text}

theorem run_proceed {value : Type} {computed : Except PyError value} {next : value → CrudProgram}
    (done : (proceed computed next).run (fileStorage host) files = (.ok result, final)) :
    ∃ given, computed = .ok given ∧
      (next given).run (fileStorage host) files = (.ok result, final) := by
  cases computed with
  | error error => cases done
  | ok given => exact ⟨given, rfl, done⟩

/-- A branch that ends in a failure is not the one taken. -/
theorem run_whether {yes no : CrudProgram} {answer : Bool}
    (failure : ∀ files, ∃ failed : CrudResult, failed.success = false ∧
      no.run (fileStorage host) files = (.ok failed, files))
    (done : (whether yes no answer).run (fileStorage host) files = (.ok result, final))
    (success : result.success = true) :
    answer = true ∧ yes.run (fileStorage host) files = (.ok result, final) := by
  cases answer with
  | true => exact ⟨rfl, done⟩
  | false =>
      obtain ⟨failed, unsuccessful, ends⟩ := failure files
      have same : no.run (fileStorage host) files = (.ok result, final) := done
      rw [ends] at same
      cases same
      rw [unsuccessful] at success
      cases success

theorem run_makeFolders {folder : Location Text} {next : CrudProgram}
    (done : (makeFolders folder next).run (fileStorage host) files = (.ok result, final)) :
    next.run (fileStorage host) files = (.ok result, final) := by
  obtain ⟨_made, _isMade, rest⟩ := @run_proceed host files final result _ _ _ done
  exact rest

theorem run_ifUnchanged {captured found : Option FileRevision} {conflict : CrudResult}
    {next : CrudProgram} (unsuccessful : conflict.success = false)
    (done : (ifUnchanged captured conflict next found).run (fileStorage host) files =
      (.ok result, final))
    (success : result.success = true) :
    found = captured ∧ next.run (fileStorage host) files = (.ok result, final) := by
  unfold ifUnchanged at done
  split at done
  · cases done
    rw [unsuccessful] at success
    cases success
  case isFalse same => exact ⟨not_not.mp same, done⟩

theorem writeFailed_run (relativePath : Text) (files : Files) :
    ∃ failed : CrudResult, failed.success = false ∧
      (writeFailed relativePath).run (fileStorage host) files = (.ok failed, files) :=
  ⟨_, rfl, rfl⟩

theorem run_replaceChecked {content relativePath : Text} {expected : Option FileRevision}
    {stamp : Stamp} {next : CrudProgram}
    (done : (replaceChecked filePath content relativePath expected stamp next).run
      (fileStorage host) files = (.ok result, final))
    (success : result.success = true) :
    (files filePath).map NoteFile.revision = expected ∧
      next.run (fileStorage host)
        (Function.update files filePath (some (writtenFile content stamp))) =
          (.ok result, final) := by
  obtain ⟨_saved, afterSaved⟩ := run_whether (writeFailed_run relativePath) done success
  obtain ⟨unchanged, afterCheck⟩ := @run_ifUnchanged host files final result _
    ((files filePath).map NoteFile.revision) _ _ rfl afterSaved success
  refine ⟨unchanged, ?_⟩
  have replaced : Dialogue.run (fileStorage host)
      (whether next (writeFailed relativePath)
        (performReplace host filePath content stamp files).1)
      (performReplace host filePath content stamp files).2 = (.ok result, final) := afterCheck
  unfold performReplace at replaced
  split at replaced
  · exact replaced
  · exact absurd (run_whether (writeFailed_run relativePath) replaced success).1
      Bool.false_ne_true

theorem run_safeWriteText {content relativePath : Text} {expected : Option FileRevision}
    {stamp : Stamp} {next : CrudProgram}
    (done : (safeWriteText filePath content relativePath expected stamp next).run
      (fileStorage host) files = (.ok result, final))
    (success : result.success = true) :
    (files filePath).map NoteFile.revision = expected ∧
      next.run (fileStorage host)
        (Function.update files filePath (some (writtenFile content stamp))) =
          (.ok result, final) := by
  have answered : (whether
      (.ask (.statMode filePath)
        (whether (replaceChecked filePath content relativePath expected stamp next)
          (writeFailed relativePath)))
      (replaceChecked filePath content relativePath expected stamp next)
      (files filePath).isSome).run (fileStorage host) files = (.ok result, final) := done
  cases found : (files filePath).isSome with
  | true =>
      rw [found] at answered
      obtain ⟨_readable, afterMode⟩ := run_whether (writeFailed_run relativePath) answered success
      exact run_replaceChecked afterMode success
  | false =>
      rw [found] at answered
      exact run_replaceChecked answered success

theorem run_captureRevision {missing : CrudResult} {next : Option FileRevision → CrudProgram}
    (unsuccessful : missing.success = false)
    (done : (captureRevision filePath missing next).run (fileStorage host) files =
      (.ok result, final))
    (success : result.success = true) :
    ∃ file, files filePath = some file ∧
      (next (some file.revision)).run (fileStorage host) files = (.ok result, final) := by
  have answered : (if ((files filePath).map NoteFile.revision).isNone then finish missing
      else next ((files filePath).map NoteFile.revision)).run (fileStorage host) files =
        (.ok result, final) := done
  cases found : files filePath with
  | none =>
      rw [found] at answered
      cases answered
      rw [unsuccessful] at success
      cases success
  | some file =>
      rw [found] at answered
      exact ⟨file, rfl, answered⟩

/-- The note is read as it is, and stays so. -/
theorem run_readStable {relativePath : Text} {missing : CrudResult}
    {next : Option FileRevision → Text → CrudProgram} (unsuccessful : missing.success = false)
    (done : (readStable filePath relativePath missing next).run (fileStorage host) files =
      (.ok result, final))
    (success : result.success = true) :
    ∃ file content, files filePath = some file ∧ file.read = .ok content ∧
      (next (some file.revision) content).run (fileStorage host) files = (.ok result, final) := by
  obtain ⟨file, isThere, afterCapture⟩ := run_captureRevision unsuccessful done success
  have answered : (afterRead relativePath (fun content =>
      checkRevision filePath relativePath (some file.revision)
        (next (some file.revision) content)) (readFile (files filePath))).run
          (fileStorage host) files = (.ok result, final) := afterCapture
  rw [isThere] at answered
  have whole : readFile (some file) = file.read := rfl
  rw [whole] at answered
  cases readBefore : file.read with
  | error error =>
      rw [readBefore] at answered
      cases error <;> (cases answered; cases success)
  | ok content =>
      rw [readBefore] at answered
      exact ⟨file, content, isThere, readBefore, (run_ifUnchanged rfl answered success).2⟩

namespace CrudService

variable {service : CrudService}

theorem run_validated {relativePath : Text} {filePath : Except PyError (Location Text)}
    {body : Location Text → CrudProgram}
    (done : (service.validated relativePath filePath body).body.run (fileStorage host) files =
      (.ok result, final)) :
    ∃ location, filePath = .ok location ∧
      (body location).run (fileStorage host) files = (.ok result, final) := by
  unfold validated at done
  cases filePath with
  | error error => cases done
  | ok location =>
      dsimp only at done
      unfold locked at done
      cases opened : service.lockPath with
      | error error =>
          rw [opened] at done
          cases done
      | ok _unit =>
          rw [opened] at done
          exact ⟨location, rfl, done⟩

/-- A note with this text is in place of the old one. -/
def Written (files final : Files) (filePath : Location Text) (content : Text) (stamp : Stamp) :
    Prop :=
  final = Function.update files filePath (some (writtenFile content stamp))

theorem run_createBody {relativePath content : Text} {checked : Checked} {stamp : Stamp}
    (done : (createBody relativePath content checked stamp filePath).run (fileStorage host)
      files = (.ok result, final))
    (success : result.success = true) :
    files filePath = none ∧ Written files final filePath content stamp := by
  have answered : (if ((files filePath).map NoteFile.revision).isSome then
      finish (crudError relativePath ("Note already exists: ".toList ++ relativePath ++
        ". Use write_note to overwrite it.".toList))
    else
      makeFolders filePath.dropLast
        (safeWriteText filePath content relativePath none stamp
          (finish (report checked (crudSuccess relativePath
            ("Note created: ".toList ++ relativePath)))))).run (fileStorage host) files =
      (.ok result, final) := done
  cases found : files filePath with
  | some file =>
      rw [found] at answered
      cases answered
      cases success
  | none =>
      rw [found] at answered
      obtain ⟨_unchanged, ended⟩ := run_safeWriteText (run_makeFolders answered) success
      cases ended
      exact ⟨rfl, rfl⟩

theorem run_writeBody {relativePath content : Text} {stamp : Stamp}
    (done : (writeBody relativePath content stamp filePath).run (fileStorage host) files =
      (.ok result, final))
    (success : result.success = true) : Written files final filePath content stamp := by
  obtain ⟨_unchanged, ended⟩ := run_safeWriteText (run_makeFolders done) success
  cases ended
  rfl

theorem run_appendBody {relativePath content separator : Text} {stamp : Stamp}
    (done : (service.appendBody relativePath content separator stamp filePath).run
      (fileStorage host) files = (.ok result, final))
    (success : result.success = true) :
    ∃ file existing, files filePath = some file ∧ file.read = .ok existing ∧
      Written files final filePath (appendedContent existing separator content) stamp := by
  obtain ⟨file, existing, isThere, isRead, rest⟩ := run_readStable rfl done success
  obtain ⟨_sized, _isSized, afterSize⟩ := run_proceed rest
  obtain ⟨_unchanged, ended⟩ := run_safeWriteText afterSize success
  cases ended
  exact ⟨file, existing, isThere, isRead, rfl⟩

theorem run_updateBody {relativePath : Text} {metadata : Mapping} {merge validateSchema : Bool}
    {stamp : Stamp}
    (done : (service.updateBody relativePath metadata merge validateSchema stamp filePath).run
      (fileStorage host) files = (.ok result, final))
    (success : result.success = true) :
    ∃ file content existing body checked, files filePath = some file ∧ file.read = .ok content ∧
      parseFrontmatter service.env content = .ok (existing, body) ∧
      service.checkSchema validateSchema
        (if merge then OrderedDict.merge existing metadata else metadata) = .ok checked ∧
      Written files final filePath
        (serializeFrontmatter service.env checked.frontmatter ++ body) stamp := by
  obtain ⟨file, content, isThere, isRead, rest⟩ := run_readStable rfl done success
  obtain ⟨⟨existing, body⟩, parsed, afterParse⟩ := run_proceed rest
  dsimp only at afterParse
  split at afterParse
  · cases afterParse
  · cases afterParse
    cases success
  case h_3 checked isChecked =>
    obtain ⟨_sized, _isSized, afterSize⟩ := run_proceed afterParse
    obtain ⟨_unchanged, ended⟩ := run_safeWriteText afterSize success
    cases ended
    exact ⟨file, content, existing, body, checked, isThere, isRead, parsed, isChecked, rfl⟩

theorem run_persistBody {relativePath : Text} {generated : Mapping} {validateSchema : Bool}
    {stamp : Stamp}
    (done : (service.persistBody relativePath generated validateSchema stamp filePath).run
      (fileStorage host) files = (.ok result, final))
    (success : result.success = true) :
    final = files ∨
      ∃ file content existing body checked, files filePath = some file ∧
        file.read = .ok content ∧
        parseFrontmatter service.env content = .ok (existing, body) ∧
        service.checkEnriched validateSchema
          (OrderedDict.merge existing (service.newValues generated existing)) = .ok checked ∧
        Written files final filePath
          (serializeFrontmatter service.env checked.frontmatter ++ body) stamp := by
  obtain ⟨file, content, isThere, isRead, rest⟩ := run_readStable rfl done success
  obtain ⟨⟨existing, body⟩, parsed, afterParse⟩ := run_proceed rest
  dsimp only at afterParse
  split at afterParse
  · cases afterParse
    exact Or.inl rfl
  · split at afterParse
    · cases afterParse
      cases success
    · split at afterParse
      · cases afterParse
      · cases afterParse
        cases success
      case h_3 checked isChecked =>
        obtain ⟨_sized, _isSized, afterSize⟩ := run_proceed afterParse
        obtain ⟨_fits, _isFitting, afterFit⟩ := run_proceed afterSize
        obtain ⟨_unchanged, ended⟩ := run_safeWriteText afterFit success
        cases ended
        exact Or.inr ⟨file, content, existing, body, checked, isThere, isRead, parsed,
          isChecked, rfl⟩

theorem run_enrichBody {relativePath : Text} {validateSchema : Bool} {stamp : Stamp}
    (done : (service.enrichBody relativePath validateSchema stamp filePath).run
      (fileStorage host) files = (.ok result, final))
    (success : result.success = true) :
    final = files ∨
      ∃ generated file content existing body checked, files filePath = some file ∧
        file.read = .ok content ∧
        parseFrontmatter service.env content = .ok (existing, body) ∧
        service.checkEnriched validateSchema
          (OrderedDict.merge existing (service.newValues generated existing)) = .ok checked ∧
        Written files final filePath
          (serializeFrontmatter service.env checked.frontmatter ++ body) stamp := by
  obtain ⟨_file, _content, _isThere, _isRead, rest⟩ := run_readStable rfl done success
  unfold enrichContent at rest
  obtain ⟨parsed, _isParsed, afterParse⟩ := run_proceed rest
  dsimp only at afterParse
  split at afterParse
  · cases afterParse
    exact Or.inl rfl
  · split at afterParse
    · cases afterParse
      exact Or.inl rfl
    · split at afterParse
      · cases afterParse
        exact Or.inl rfl
      · split at afterParse
        · cases afterParse
          cases success
        · cases afterParse
        · rcases run_persistBody afterParse success with unchanged | written
          · exact Or.inl unchanged
          · exact Or.inr ⟨_, written⟩

/-! ### `delete_note` and `move_note` -/

theorem run_move {source destination : Location Text} {yes no : CrudProgram}
    (failure : ∀ files, ∃ failed : CrudResult, failed.success = false ∧
      no.run (fileStorage host) files = (.ok failed, files))
    (done : (Dialogue.ask (FileRequest.move source destination) (whether yes no)).run
      (fileStorage host) files = (.ok result, final))
    (success : result.success = true) :
    ∃ note, files source = some note ∧
      yes.run (fileStorage host) (moveFile files source destination note) =
        (.ok result, final) := by
  have answered : (whether yes no (performMove host source destination files).1).run
      (fileStorage host) (performMove host source destination files).2 = (.ok result, final) :=
    done
  obtain ⟨moved, rest⟩ := run_whether failure answered success
  unfold performMove at moved rest
  cases found : files source with
  | none =>
      rw [found] at moved
      cases moved
  | some note =>
      rw [found] at moved rest
      dsimp only at moved rest
      split at moved
      case isTrue allowed =>
        rw [if_pos allowed] at rest
        exact ⟨note, rfl, rest⟩
      · cases moved

/-- A name in the trash that `delete_note` may choose. -/
def TrashName (trashPath place : Location Text) : Prop :=
  place = trashPath ∨ ∃ uniqueId, LinkedVault.withUniqueStem trashPath uniqueId = some place

theorem run_chooseTrashPath {relativePath : Text} {trashPath : Location Text}
    {next : Location Text → CrudProgram} {ids : List Text}
    (success : result.success = true) :
    ∀ {candidate : Location Text}, TrashName trashPath candidate →
      (chooseTrashPath relativePath trashPath next ids candidate).run (fileStorage host) files =
          (.ok result, final) →
        ∃ chosen, TrashName trashPath chosen ∧ files chosen = none ∧
          (next chosen).run (fileStorage host) files = (.ok result, final) := by
  induction ids with
  | nil =>
      intro candidate named done
      have answered : (whether _ (next candidate) (files candidate).isSome).run (fileStorage host)
          files = (.ok result, final) := done
      cases taken : (files candidate).isSome with
      | true =>
          rw [taken] at answered
          cases answered
          cases success
      | false =>
          rw [taken] at answered
          rw [Option.isSome_eq_false_iff, Option.isNone_iff_eq_none] at taken
          exact ⟨candidate, named, taken, answered⟩
  | cons uniqueId rest ih =>
      intro candidate named done
      unfold chooseTrashPath at done
      have answered : (whether _ (next candidate) (files candidate).isSome).run (fileStorage host)
          files = (.ok result, final) := done
      cases taken : (files candidate).isSome with
      | true =>
          rw [taken] at answered
          unfold whether at answered
          rw [if_pos rfl] at answered
          split at answered
          · cases answered
          case h_2 unique isUnique => exact ih (Or.inr ⟨uniqueId, isUnique⟩) answered
      | false =>
          rw [taken] at answered
          rw [Option.isSome_eq_false_iff, Option.isNone_iff_eq_none] at taken
          exact ⟨candidate, named, taken, answered⟩

theorem run_deleteBody {relativePath : Text} {supply : Supply}
    (done : (service.deleteBody supply relativePath filePath).run (fileStorage host) files =
      (.ok result, final))
    (success : result.success = true) :
    ∃ trashPath chosen note, service.vault.trashPath relativePath = .ok trashPath ∧
      TrashName trashPath chosen ∧ files chosen = none ∧ files filePath = some note ∧
      final = moveFile files filePath chosen note := by
  obtain ⟨_file, _isThere, afterCapture⟩ := run_captureRevision rfl done success
  obtain ⟨_trashDir, _isTrash, afterDir⟩ := run_proceed afterCapture
  obtain ⟨trashPath, isPath, afterPath⟩ := run_proceed (run_makeFolders afterDir)
  obtain ⟨chosen, named, free, moves⟩ := run_chooseTrashPath success (Or.inl rfl)
    (run_makeFolders afterPath)
  have checked : (ifUnchanged _ (writeConflict relativePath) _
      ((files filePath).map NoteFile.revision)).run (fileStorage host) files =
        (.ok result, final) := moves
  obtain ⟨_same, afterCheck⟩ := run_ifUnchanged rfl checked success
  obtain ⟨note, isThere, ended⟩ := run_move (fun _files => ⟨_, rfl, rfl⟩) afterCheck success
  cases ended
  exact ⟨trashPath, chosen, note, isPath, named, free, isThere, rfl⟩

theorem run_moveBody {fromPath toPath : Text} {fromFile toFile : Location Text}
    (done : (moveBody fromPath toPath fromFile toFile).run (fileStorage host) files =
      (.ok result, final))
    (success : result.success = true) :
    ∃ note, files fromFile = some note ∧ files toFile = none ∧
      final = moveFile files fromFile toFile note := by
  obtain ⟨_file, _isThere, afterCapture⟩ := run_captureRevision rfl done success
  have looked : (if ((files toFile).map NoteFile.revision).isSome then
        finish (crudError toPath ("Destination already exists: ".toList ++ toPath))
      else makeFolders toFile.dropLast _).run (fileStorage host) files = (.ok result, final) :=
    afterCapture
  split at looked
  · cases looked
    cases success
  case isFalse absent =>
    have free : files toFile = none := by
      rw [Option.isSome_map, Bool.not_eq_true, Option.isSome_eq_false_iff] at absent
      exact Option.isNone_iff_eq_none.mp absent
    have afterFolders := run_makeFolders looked
    have checked : (ifUnchanged _ (writeConflict fromPath) _
        ((files fromFile).map NoteFile.revision)).run (fileStorage host) files =
          (.ok result, final) := afterFolders
    obtain ⟨_same, afterCheck⟩ := run_ifUnchanged rfl checked success
    have unoccupied : (moveIfFree fromPath toPath fromFile toFile
        ((files toFile).map NoteFile.revision)).run (fileStorage host) files =
          (.ok result, final) := afterCheck
    unfold moveIfFree at unoccupied
    split at unoccupied
    · cases unoccupied
      cases success
    · obtain ⟨note, isThere, ended⟩ := run_move (fun _files => ⟨_, rfl, rfl⟩) unoccupied success
      cases ended
      exact ⟨note, isThere, free, rfl⟩

/-- The checks before the move have passed. -/
theorem run_moveNote {fromPath toPath : Text}
    (done : (service.moveNote fromPath toPath).body.run (fileStorage host) files =
      (.ok result, final))
    (success : result.success = true) :
    ∃ fromFile toFile, service.vault.resolvePath service.env fromPath = .ok fromFile ∧
      service.vault.resolvePath service.env toPath = .ok toFile ∧
      (moveBody fromPath toPath fromFile toFile).run (fileStorage host) files =
        (.ok result, final) := by
  unfold moveNote at done
  cases allowed : service.validateForMove fromPath toPath with
  | error error =>
      rw [allowed] at done
      cases done
  | ok _unit =>
      rw [allowed] at done
      dsimp only at done
      split at done
      · have same : (Except.ok (crudError fromPath _), files) = ((.ok result : CrudOutcome), final) :=
          done
        rw [← Except.ok.inj (Prod.mk.inj same).1] at success
        cases success
      · unfold moveResolved at done
        split at done
        · cases done
        case h_2 fromFile toFile resolved =>
          obtain ⟨source, isSource, afterSource⟩ := bind_ok resolved
          obtain ⟨destination, isDestination, both⟩ := bind_ok afterSource
          cases both
          unfold locked at done
          cases opened : service.lockPath with
          | error error =>
              rw [opened] at done
              cases done
          | ok _unit =>
              rw [opened] at done
              exact ⟨fromFile, toFile, isSource, isDestination, done⟩

/-- What ends `create_note` before it writes is no success. -/
theorem checkNew_refused {relativePath : Text} {validateSchema : Bool} {frontmatter : Mapping}
    (refused : service.checkNew relativePath validateSchema frontmatter = .error (.ok result)) :
    result.success = false := by
  unfold checkNew at refused
  split at refused
  · split at refused
    · cases refused
    · split at refused
      · cases refused
      · split at refused
        · cases refused
        · cases refused
          rfl
  · cases refused

end CrudService

end VaultSearch
