/-
The write operations of `crud/write.py` and `crud/delete.py` as programs over the file
system: what is validated before the lock, which paths are locked, and what is asked of the
files while the locks are held.

Paths are resolved again under the lock; as folders and links stay as they are, that gives
the same paths.
-/

import VaultSearch.Crud.Containment
import VaultSearch.Crud.Files
import VaultSearch.Frontmatter.Validator

set_option autoImplicit false

namespace VaultSearch

open Symlinks PurePath

/-! ### Results -/

structure CrudResult extends OperationResult where
  frontmatterEnriched : Option Bool := none
  fieldsFilled : Option Nat := none
  validationWarnings : List ValidationError := []
  validationSuggestions : List ValidationError := []

def crudSuccess (path message : Text) : CrudResult :=
  { toOperationResult := successResult path message }

def crudError (path message : Text) (errorCode : Option Text := none) : CrudResult :=
  { toOperationResult := errorResult path message errorCode }

inductive Raised where
  | python (error : PyError)
  | uncaught (fault : Uncaught)

abbrev CrudOutcome := Except Raised CrudResult

abbrev CrudProgram := Dialogue FileRequest FileRequest.Response CrudOutcome

def finish (result : CrudResult) : CrudProgram :=
  .done (.ok result)

def raising (raised : Raised) : CrudProgram :=
  .done (.error raised)

/-- Go on with a value, unless computing it raised. -/
def proceed {value : Type} (computed : Except PyError value) (next : value → CrudProgram) :
    CrudProgram :=
  match computed with
  | .error error => raising (.python error)
  | .ok value => next value

def whether (yes no : CrudProgram) (answer : Bool) : CrudProgram :=
  if answer then yes else no

/-- A call: the paths it locks, in this order, and what it does under the locks. -/
structure PathLocked where
  paths : List (Location Text) := []
  timedOut : CrudResult
  body : CrudProgram

/-- `return_write_lock_timeout` -/
def timeoutResult (relativePath : Text) : CrudResult :=
  crudError relativePath "Timed out waiting for another write. Try again.".toList
    (some "write_lock_timeout".toList)

/-- A call that ends before it locks anything. -/
def unlocked (relativePath : Text) (outcome : CrudOutcome) : PathLocked :=
  { timedOut := timeoutResult relativePath, body := .done outcome }

def conflictMessage : Text :=
  "Write conflict: the note changed during the operation. Try again.".toList

def writeConflict (relativePath : Text) : CrudResult :=
  crudError relativePath conflictMessage (some "write_conflict".toList)

/-! ### Reading and writing a file -/

def afterRead (relativePath : Text) (next : Text → CrudProgram) :
    Except PyError Text → CrudProgram
  | .ok content => next content
  | .error .osError => finish (crudError relativePath "Failed to read file".toList)
  | .error _ => finish (crudError relativePath "Path is invalid or outside the vault".toList)

def safeReadText (filePath : Location Text) (relativePath : Text) (next : Text → CrudProgram) :
    CrudProgram :=
  .ask (.readText filePath) (afterRead relativePath next)

def ifUnchanged (captured : Option FileRevision) (conflict : CrudResult) (next : CrudProgram)
    (found : Option FileRevision) : CrudProgram :=
  if found ≠ captured then finish conflict else next

/-- `if file_revision(file_path) != revision: return _write_conflict(relative_path)` -/
def checkRevision (filePath : Location Text) (relativePath : Text)
    (captured : Option FileRevision) (next : CrudProgram) : CrudProgram :=
  .ask (.fileRevision filePath .operation)
    (ifUnchanged captured (writeConflict relativePath) next)

def writeFailed (relativePath : Text) : CrudProgram :=
  finish (crudError relativePath "Failed to write file".toList)

/-- From the temporary file to the replacement. -/
def replaceChecked (filePath : Location Text) (content relativePath : Text)
    (expected : Option FileRevision) (stamp : Stamp) (next : CrudProgram) : CrudProgram :=
  .ask (.writeTemporary filePath)
    (whether
      (.ask (.fileRevision filePath .safeWrite)
        (ifUnchanged expected (crudError relativePath conflictMessage)
          (.ask (.replace filePath content stamp) (whether next (writeFailed relativePath)))))
      (writeFailed relativePath))

def safeWriteText (filePath : Location Text) (content relativePath : Text)
    (expected : Option FileRevision) (stamp : Stamp) (next : CrudProgram) : CrudProgram :=
  .ask (.pathExists filePath)
    (whether
      (.ask (.statMode filePath)
        (whether (replaceChecked filePath content relativePath expected stamp next)
          (writeFailed relativePath)))
      (replaceChecked filePath content relativePath expected stamp next))

/-- `file_revision` of a note that has to be there. -/
def captureRevision (filePath : Location Text) (missing : CrudResult)
    (next : Option FileRevision → CrudProgram) : CrudProgram :=
  .ask (.fileRevision filePath .capture) (fun revision =>
    if revision.isNone then finish missing else next revision)

/-- Capture the revision, read the note and check that it is still the one captured. -/
def readStable (filePath : Location Text) (relativePath : Text) (missing : CrudResult)
    (next : Option FileRevision → Text → CrudProgram) : CrudProgram :=
  captureRevision filePath missing (fun revision =>
    safeReadText filePath relativePath (fun content =>
      checkRevision filePath relativePath revision (next revision content)))

/-- `folder.mkdir(parents=True, exist_ok=True)` -/
def makeFolders (folder : Location Text) (next : CrudProgram) : CrudProgram :=
  .ask (.makeFolders folder) (fun made => proceed made (fun _ => next))

/-! ### The service -/

/-- `frontmatter.ai` -/
structure AiSettings where
  enabled : Bool := false
  allowExternalProcessing : Bool := false
  provider : Text := []
  command : List Text := []
  allowDeferRequiredOnCreate : Bool := false

/-- How the enrichment provider ends: with a JSON object, with a
`FrontmatterEnrichmentError`, or with another exception. -/
inductive Provided where
  | generated (fields : Mapping)
  | failed (message : Text)
  | raised (error : PyError)

/-- What a call brings with it: the UUID it would generate, the successive unique names it
would try in the trash, and the stamp of a file it writes. -/
structure Supply where
  uuid : Text
  uniqueIds : Nat → Text
  stamp : Stamp

structure CrudService where
  vault : LinkedVault
  env : Env
  validator : FrontmatterValidator
  ai : AiSettings := {}
  /-- `generate_required_fields_with_ai` behind its list of missing fields -/
  provide : Text → Text → Mapping → List Text → Provided

namespace CrudService

variable (service : CrudService)

/-- `_lock_path`: where the lock files are made. -/
def lockPath : Except PyError Unit :=
  match service.vault.resolveInternalPath [.enter ".vault-search-locks".toList] with
  | .error error => .error error
  | .ok lockDir => if (service.vault.makeParents lockDir).isSome then .ok () else .error .osError

/-- `with advisory_path_lock(...)` -/
def locked (relativePath : Text) (paths : List (Location Text)) (body : CrudProgram) :
    PathLocked :=
  match service.lockPath with
  | .error error => unlocked relativePath (.error (.python error))
  | .ok _ => { paths, timedOut := timeoutResult relativePath, body }

/-- A call with a validated path. -/
def validated (relativePath : Text) (filePath : Except PyError (Location Text))
    (body : Location Text → CrudProgram) : PathLocked :=
  match filePath with
  | .error error => unlocked relativePath (.error (.python error))
  | .ok filePath => service.locked relativePath [filePath] (body filePath)

/-! ### Schema validation -/

def formatErrors (errors : List ValidationError) : Text :=
  "Frontmatter validation failed: ".toList ++
    Text.join "; ".toList (errors.map (fun error => error.field ++ ": ".toList ++ error.message))

inductive SchemaFault where
  | valueError (message : Text)
  | uncaught (fault : Uncaught)

def validateFrontmatterSchema (frontmatter : Mapping) : Except SchemaFault ValidationResult :=
  match service.validator.validate frontmatter with
  | .error fault => .error (.uncaught fault)
  | .ok result =>
      if result.valid then .ok result else .error (.valueError (formatErrors result.errors))

/-- The frontmatter to write with the warnings and suggestions to report. -/
structure Checked where
  frontmatter : Mapping
  warnings : List ValidationError := []
  suggestions : List ValidationError := []

/-- Validation in `update_frontmatter` and in the enrichment. -/
def checkSchema (validateSchema : Bool) (frontmatter : Mapping) : Except SchemaFault Checked :=
  if validateSchema then
    match service.validateFrontmatterSchema frontmatter with
    | .error fault => .error fault
    | .ok result =>
        .ok { frontmatter := result.validatedData
              warnings := result.warnings
              suggestions := result.suggestions }
  else .ok { frontmatter }

def isAiEnrichmentEnabled : Bool :=
  service.validator.config.enabled && service.ai.enabled && service.ai.allowExternalProcessing &&
    !Text.isBlank service.ai.provider && !service.ai.command.isEmpty

def canDeferRequiredMissing (errors : List ValidationError) : Bool :=
  !errors.isEmpty && service.isAiEnrichmentEnabled && service.ai.allowDeferRequiredOnCreate &&
    errors.all (fun error => error.code = "required_missing".toList)

def schemaWarning (message code : Text) : ValidationError :=
  { field := "_schema".toList, message, code, value := .null }

/-- Validation in `create_note`. -/
def checkNew (relativePath : Text) (validateSchema : Bool) (frontmatter : Mapping) :
    Except CrudOutcome Checked :=
  if validateSchema then
    match service.validator.validate frontmatter with
    | .error fault => .error (.error (.uncaught fault))
    | .ok result =>
        if result.valid then
          .ok { frontmatter := result.validatedData
                warnings := result.warnings
                suggestions := result.suggestions }
        else if service.canDeferRequiredMissing result.errors then
          .ok { frontmatter := result.validatedData
                warnings := result.warnings ++
                  [schemaWarning
                    "Missing required fields deferred to reindex enrichment".toList
                    "required_missing_deferred".toList]
                suggestions := result.suggestions }
        else .error (.ok (crudError relativePath (formatErrors result.errors)))
  else .ok { frontmatter }

def report (checked : Checked) (result : CrudResult) : CrudResult :=
  { result with
    validationWarnings := checked.warnings
    validationSuggestions := checked.suggestions }

/-! ### `create_note`, `write_note` and `append_note` -/

/-- `frontmatter["id"] = generate_uuid7()` when there is no id. -/
def withId (frontmatter : Mapping) (uuid : Text) : Mapping :=
  if (frontmatter.lookup (.text "id".toList)).isSome then frontmatter
  else OrderedDict.set frontmatter (.text "id".toList) (.str uuid)

def createBody (relativePath content : Text) (checked : Checked) (stamp : Stamp)
    (filePath : Location Text) : CrudProgram :=
  .ask (.fileRevision filePath .presence) (fun revision =>
    if revision.isSome then
      finish (crudError relativePath ("Note already exists: ".toList ++ relativePath ++
        ". Use write_note to overwrite it.".toList))
    else
      makeFolders filePath.dropLast
        (safeWriteText filePath content relativePath none stamp
          (finish (report checked
            (crudSuccess relativePath ("Note created: ".toList ++ relativePath))))))

def createNote (supply : Supply) (relativePath content : Text) (frontmatter : Option Mapping)
    (validateSchema : Bool := true) : PathLocked :=
  match service.checkNew relativePath validateSchema (frontmatter.getD []) with
  | .error outcome => unlocked relativePath outcome
  | .ok checked =>
      let frontmatter := withId checked.frontmatter supply.uuid
      let fullContent := serializeFrontmatter service.env frontmatter ++ content
      service.validated relativePath
        (do
          validateContentSize service.env fullContent
          service.vault.validateForWrite service.env relativePath (some content)
            (some frontmatter))
        (createBody relativePath fullContent checked supply.stamp)

def writeBody (relativePath content : Text) (stamp : Stamp) (filePath : Location Text) :
    CrudProgram :=
  .ask (.fileRevision filePath .capture) (fun (revision : Option FileRevision) =>
    let action := if revision.isSome then "updated: ".toList else "created: ".toList
    makeFolders filePath.dropLast
      (safeWriteText filePath content relativePath revision stamp
        (finish (crudSuccess relativePath ("Note ".toList ++ action ++ relativePath)))))

def writeNote (supply : Supply) (relativePath content : Text) : PathLocked :=
  service.validated relativePath
    (service.vault.validateForWrite service.env relativePath (some content) none)
    (writeBody relativePath content supply.stamp)

/-- The separator is added only when it is not already there. -/
def appendedContent (existing separator content : Text) : Text :=
  if Text.endsWith existing separator then existing ++ content
  else existing ++ separator ++ content

def appendBody (relativePath content separator : Text) (stamp : Stamp)
    (filePath : Location Text) : CrudProgram :=
  readStable filePath relativePath
    (crudError relativePath ("Note not found: ".toList ++ relativePath ++
      ". Use create_note or write_note.".toList))
    (fun revision existing =>
      let newContent := appendedContent existing separator content
      proceed (validateContentSize service.env newContent) (fun _ =>
        safeWriteText filePath newContent relativePath revision stamp
          (finish (crudSuccess relativePath ("Content appended: ".toList ++ relativePath)))))

def appendNote (supply : Supply) (relativePath content : Text)
    (separator : Text := "\n\n".toList) : PathLocked :=
  service.validated relativePath
    (service.vault.validateForWrite service.env relativePath (some content) none)
    (service.appendBody relativePath content separator supply.stamp)

/-! ### `update_frontmatter` -/

def noteNotFound (relativePath : Text) : CrudResult :=
  crudError relativePath ("Note not found: ".toList ++ relativePath)

def updateBody (relativePath : Text) (metadata : Mapping) (merge validateSchema : Bool)
    (stamp : Stamp) (filePath : Location Text) : CrudProgram :=
  readStable filePath relativePath (noteNotFound relativePath) (fun revision content =>
    proceed (parseFrontmatter service.env content) (fun parsed =>
      let newFrontmatter := if merge then OrderedDict.merge parsed.1 metadata else metadata
      match service.checkSchema validateSchema newFrontmatter with
      | .error (.uncaught fault) => raising (.uncaught fault)
      | .error (.valueError message) => finish (crudError relativePath message)
      | .ok checked =>
          proceed (validateFrontmatterSize service.env checked.frontmatter) (fun _ =>
            let newContent := serializeFrontmatter service.env checked.frontmatter ++ parsed.2
            let action := if merge then "merged: ".toList else "replaced: ".toList
            safeWriteText filePath newContent relativePath revision stamp
              (finish (report checked
                (crudSuccess relativePath ("Frontmatter ".toList ++ action ++ relativePath)))))))

def updateFrontmatter (supply : Supply) (relativePath : Text) (metadata : Mapping)
    (merge : Bool := true) (validateSchema : Bool := true) : PathLocked :=
  service.validated relativePath
    (service.vault.validateForWrite service.env relativePath none (some metadata))
    (service.updateBody relativePath metadata merge validateSchema supply.stamp)

/-! ### `ensure_note_id` -/

def idKey : Key := .text "id".toList

/-- `{"id": id, **frontmatter}` -/
def idFirst (id : Value) (frontmatter : Mapping) : Mapping :=
  OrderedDict.merge [(idKey, id)] frontmatter

/-- An id generated by the schema is used when there is one. -/
def frontmatterWithId (existing validated : Mapping) (uuid : Text) : Mapping :=
  match validated.lookup idKey with
  | some id =>
      OrderedDict.merge (idFirst id (existing.filter (fun entry => entry.1 ≠ idKey)))
        (validated.filter (fun entry => entry.1 ≠ idKey && (existing.lookup entry.1).isNone))
  | none => idFirst (.str uuid) existing

/-- The result for a note that has an id; a validation that fails is passed over. -/
def keptId (relativePath : Text) (validateSchema : Bool) (existing : Mapping) (id : Value) :
    CrudOutcome :=
  let result : CrudResult :=
    { toOperationResult :=
        { successResult relativePath ("Note already has an id: ".toList ++ relativePath) with
          idAdded := some false, id := some id } }
  if validateSchema then
    match service.validateFrontmatterSchema existing with
    | .error (.uncaught fault) => .error (.uncaught fault)
    | .error (.valueError _) => .ok result
    | .ok validated =>
        .ok { result with
              validationWarnings := validated.warnings
              validationSuggestions := validated.suggestions }
  else .ok result

def addId (relativePath : Text) (validateSchema : Bool) (supply : Supply)
    (filePath : Location Text) (revision : Option FileRevision) (existing : Mapping)
    (body : Text) : CrudProgram :=
  match service.checkSchema validateSchema existing with
  | .error (.uncaught fault) => raising (.uncaught fault)
  | .error (.valueError message) => finish (crudError relativePath message)
  | .ok checked =>
      let validated := if validateSchema then checked.frontmatter else []
      let newFrontmatter := frontmatterWithId existing validated supply.uuid
      safeWriteText filePath (serializeFrontmatter service.env newFrontmatter ++ body)
        relativePath revision supply.stamp
        (finish (report checked
          { toOperationResult :=
              { successResult relativePath ("ID added: ".toList ++ relativePath) with
                idAdded := some true, id := newFrontmatter.lookup idKey } }))

/-- `_ensure_note_id_locked` -/
def ensureNoteIdLocked (relativePath : Text) (validateSchema : Bool) (supply : Supply)
    (filePath : Location Text) : CrudProgram :=
  readStable filePath relativePath (noteNotFound relativePath) (fun revision content =>
    proceed (parseFrontmatter service.env content) (fun parsed =>
      match parsed.1.lookup idKey with
      | some id => .done (service.keptId relativePath validateSchema parsed.1 id)
      | none =>
          service.addId relativePath validateSchema supply filePath revision parsed.1 parsed.2))

def ensureNoteId (supply : Supply) (relativePath : Text) (validateSchema : Bool := true) :
    PathLocked :=
  if !Text.endsWith (service.env.lower relativePath) ".md".toList then
    unlocked relativePath (.ok (crudError relativePath "Only .md is supported".toList))
  else
    service.validated relativePath (service.vault.resolvePath service.env relativePath)
      (service.ensureNoteIdLocked relativePath validateSchema supply)

/-! ### `enrich_note_frontmatter_required` -/

/-- `_is_empty_value` -/
def isEmptyValue : Value → Bool
  | .null => true
  | .str text => (Text.strip text).isEmpty
  | .list items => items.isEmpty
  | .map entries => entries.isEmpty
  | _ => false

def isFieldMissingOrEmpty (frontmatter : Mapping) (fieldName : Text) : Bool :=
  ((frontmatter.lookup (.text fieldName)).map isEmptyValue).getD true

/-- `get_required_schema_fields` -/
def requiredSchemaFields : List Text :=
  (service.validator.config.schema.filter (fun entry => entry.2.onMissing = .require)).map Prod.fst

def missingRequired (frontmatter : Mapping) : List Text :=
  service.requiredSchemaFields.filter (isFieldMissingOrEmpty frontmatter)

/-- The provider response inside the missing-field allowlist. -/
def allowed (missing : List Text) (generated : Mapping) : Mapping :=
  missing.filterMap (fun fieldName =>
    (generated.lookup (.text fieldName)).map (fun value => (Key.text fieldName, value)))

/-- A success that leaves the note as it is. -/
def notEnriched (relativePath message : Text) : CrudProgram :=
  finish
    { crudSuccess relativePath message with
      frontmatterEnriched := some false, fieldsFilled := some 0 }

/-- A strict validation that still misses required fields saves the partial enrichment. -/
def checkEnriched (validateSchema : Bool) (frontmatter : Mapping) : Except SchemaFault Checked :=
  match service.checkSchema validateSchema frontmatter with
  | .error (.valueError message) =>
      let lowered := service.env.lower message
      if (Text.find "required".toList lowered).isSome ||
          (Text.find "required_missing".toList lowered).isSome then
        .ok { frontmatter
              warnings :=
                [schemaWarning
                  ("Strict validation still found required fields missing; ".toList ++
                    "the partial enrichment was saved".toList)
                  "required_missing_partial".toList] }
      else .error (.valueError message)
  | outcome => outcome

/-- The generated values of the fields that are still missing. -/
def newValues (generated existing : Mapping) : Mapping :=
  generated.filter (fun entry =>
    (service.missingRequired existing).any (fun fieldName => Key.text fieldName = entry.1))

/-- `_persist_generated_frontmatter` under the lock. -/
def persistBody (relativePath : Text) (generated : Mapping) (validateSchema : Bool)
    (stamp : Stamp) (filePath : Location Text) : CrudProgram :=
  readStable filePath relativePath (noteNotFound relativePath) (fun revision content =>
    proceed (parseFrontmatter service.env content) (fun parsed =>
      let newValues := service.newValues generated parsed.1
      if (service.missingRequired parsed.1).isEmpty then
        notEnriched relativePath
          "Fields were filled manually while enrichment was running".toList
      else if newValues.isEmpty then
        finish (crudError relativePath
          "The enrichment provider did not return every required field".toList
          (some "required_missing".toList))
      else
        match service.checkEnriched validateSchema (OrderedDict.merge parsed.1 newValues) with
        | .error (.uncaught fault) => raising (.uncaught fault)
        | .error (.valueError message) => finish (crudError relativePath message)
        | .ok checked =>
            proceed (validateFrontmatterSize service.env checked.frontmatter) (fun _ =>
              let newContent := serializeFrontmatter service.env checked.frontmatter ++ parsed.2
              proceed (validateContentSize service.env newContent) (fun _ =>
                safeWriteText filePath newContent relativePath revision stamp
                  (finish (report checked
                    { crudSuccess relativePath
                        ("Frontmatter enriched: ".toList ++ relativePath) with
                      frontmatterEnriched := some true
                      fieldsFilled := some newValues.length }))))))

/-- What `enrich_note_frontmatter_required` does with the content it read. -/
def enrichContent (relativePath : Text) (validateSchema : Bool) (stamp : Stamp)
    (filePath : Location Text) (content : Text) : CrudProgram :=
  proceed (parseFrontmatter service.env content) (fun parsed =>
    if !service.validator.config.enabled then
      notEnriched relativePath "Frontmatter schema is disabled".toList
    else if service.requiredSchemaFields.isEmpty then
      notEnriched relativePath "Schema has no required fields".toList
    else
      let missing := service.missingRequired parsed.1
      if missing.isEmpty then
        notEnriched relativePath "Frontmatter already contains every required field".toList
      else
        match service.provide relativePath parsed.2 parsed.1 missing with
        | .failed message => finish (crudError relativePath message)
        | .raised error => raising (.python error)
        | .generated fields =>
            service.persistBody relativePath (allowed missing fields) validateSchema stamp filePath)

/-- `_read_locked_text`, the provider and `_persist_generated_frontmatter`: the lock is held
twice, and free in between. -/
def enrichBody (relativePath : Text) (validateSchema : Bool) (stamp : Stamp)
    (filePath : Location Text) : CrudProgram :=
  readStable filePath relativePath (noteNotFound relativePath)
    (fun _revision content =>
      service.enrichContent relativePath validateSchema stamp filePath content)

def enrichNoteFrontmatterRequired (supply : Supply) (relativePath : Text)
    (validateSchema : Bool := true) : PathLocked :=
  if !Text.endsWith (service.env.lower relativePath) ".md".toList then
    unlocked relativePath
      (.ok (crudSuccess relativePath "Enrichment skipped: unsupported extension".toList))
  else
    service.validated relativePath (service.vault.resolvePath service.env relativePath)
      (service.enrichBody relativePath validateSchema supply.stamp)

/-! ### `delete_note` and `move_note` -/

/-- The loop over the names in the trash; each unique name is made from the first one. -/
def chooseTrashPath (relativePath : Text) (trashPath : Location Text)
    (next : Location Text → CrudProgram) : List Text → Location Text → CrudProgram
  | [], final =>
      .ask (.pathExists final)
        (whether
          (finish (crudError relativePath
            ("Could not generate a unique trash name after ".toList ++
              natText LinkedVault.maxAttempts ++ " attempts".toList)))
          (next final))
  | uniqueId :: rest, final =>
      .ask (.pathExists final)
        (whether
          (match LinkedVault.withUniqueStem trashPath uniqueId with
          | none => raising (.python .valueError)
          | some unique => chooseTrashPath relativePath trashPath next rest unique)
          (next final))

/-- The unique ids of the attempts that look at a name. -/
def uniqueIds (supply : Supply) : List Text :=
  (List.range (LinkedVault.maxAttempts - 1)).map supply.uniqueIds

def moveToTrash (relativePath : Text) (filePath : Location Text)
    (revision : Option FileRevision) (finalTrashPath : Location Text) : CrudProgram :=
  checkRevision filePath relativePath revision
    (.ask (.move filePath finalTrashPath)
      (whether
        (finish (crudSuccess relativePath ("Note moved to trash: ".toList ++
          render (finalTrashPath.drop service.vault.root.length))))
        (finish (crudError relativePath "Failed to move note to trash".toList))))

def deleteBody (supply : Supply) (relativePath : Text) (filePath : Location Text) :
    CrudProgram :=
  captureRevision filePath (noteNotFound relativePath) (fun revision =>
    proceed (service.vault.resolveInternalPath [.enter ".trash".toList]) (fun trashDir =>
      makeFolders trashDir
        (proceed (service.vault.trashPath relativePath) (fun trashPath =>
          makeFolders trashPath.dropLast
            (chooseTrashPath relativePath trashPath
              (service.moveToTrash relativePath filePath revision) (uniqueIds supply)
              trashPath)))))

def deleteNote (supply : Supply) (relativePath : Text) : PathLocked :=
  service.validated relativePath (service.vault.validateForDelete service.env relativePath)
    (service.deleteBody supply relativePath)

/-- The key of a path in `advisory_path_locks`, which is `os.fspath` of it. -/
def lockKey (filePath : Location Text) : Text :=
  "/".toList ++ Text.join "/".toList filePath

/-- `sorted(unique_paths)` -/
def sortedPaths (fromFile toFile : Location Text) : List (Location Text) :=
  if lockKey fromFile = lockKey toFile then [toFile]
  else if lockKey fromFile < lockKey toFile then [fromFile, toFile]
  else [toFile, fromFile]

/-- The rename, unless something has taken the destination. -/
def moveIfFree (fromPath toPath : Text) (fromFile toFile : Location Text)
    (destination : Option FileRevision) : CrudProgram :=
  if destination.isSome then finish (writeConflict fromPath)
  else
    .ask (.move fromFile toFile)
      (whether
        (finish (crudSuccess toPath ("Note moved: ".toList ++ fromPath ++ " -> ".toList ++ toPath)))
        (finish (crudError fromPath "Failed to move note".toList)))

def moveBody (fromPath toPath : Text) (fromFile toFile : Location Text) : CrudProgram :=
  captureRevision fromFile
    (crudError fromPath ("Source note not found: ".toList ++ fromPath))
    (fun sourceRevision =>
      .ask (.fileRevision toFile .presence) (fun destination =>
        if destination.isSome then
          finish (crudError toPath ("Destination already exists: ".toList ++ toPath))
        else
          makeFolders toFile.dropLast
            (checkRevision fromFile fromPath sourceRevision
              (.ask (.fileRevision toFile .presence)
                (moveIfFree fromPath toPath fromFile toFile)))))

def validateForMove (fromPath toPath : Text) : Except PyError Unit := do
  validateExtension service.env fromPath
  validateExtension service.env toPath
  validateNotIgnoredFolder service.env toPath
  validateNotIgnoredFolder service.env fromPath

def moveResolved (fromPath toPath : Text)
    (files : Except PyError (Location Text × Location Text)) : PathLocked :=
  match files with
  | .error error => unlocked fromPath (.error (.python error))
  | .ok (fromFile, toFile) =>
      service.locked fromPath (sortedPaths fromFile toFile)
        (moveBody fromPath toPath fromFile toFile)

def moveNote (fromPath toPath : Text) : PathLocked :=
  match service.validateForMove fromPath toPath with
  | .error error => unlocked fromPath (.error (.python error))
  | .ok _ =>
      let fromExt := service.env.lower (suffix fromPath)
      let toExt := service.env.lower (suffix toPath)
      if fromExt != toExt then
        unlocked fromPath (.ok (crudError fromPath ("Cannot change extension from '".toList ++
          fromExt ++ "' to '".toList ++ toExt ++ "'. This could corrupt the file.".toList)))
      else
        service.moveResolved fromPath toPath (do
          let fromFile ← service.vault.resolvePath service.env fromPath
          let toFile ← service.vault.resolvePath service.env toPath
          return (fromFile, toFile))

end CrudService

end VaultSearch
