/-
The questions that the write operations ask under their locks.

Each operation asks about the paths it locks; `delete_note` asks also about the names it may
choose in the trash, which no lock covers.  With these places as its footprint, a call is a task
of its own.
-/

import VaultSearch.Crud.Programs
import VaultSearch.Store.Serializability

set_option autoImplicit false

namespace VaultSearch

open Symlinks

/-! ### The questions of the operations -/

/-- The questions about one file, and those about none, are allowed. -/
structure Allows (allowed : FileRequest → Prop) (filePath : Location Text) : Prop where
  file : ∀ question : FileRequest, question.places = [filePath] → allowed question
  none : ∀ question : FileRequest, question.places = [] → allowed question

namespace Dialogue.Asks

variable {allowed : FileRequest → Prop} {filePath : Location Text}
  {relativePath : Text} {next : CrudProgram}

theorem proceed {value : Type} (computed : Except PyError value) {next : value → CrudProgram}
    (rest : ∀ given, Asks allowed (next given)) :
    Asks allowed (VaultSearch.proceed computed next) := by
  cases computed with
  | error error => exact .done _
  | ok given => exact rest given

theorem whether {yes no : CrudProgram} (onYes : Asks allowed yes) (onNo : Asks allowed no)
    (answer : Bool) :
    Asks allowed (VaultSearch.whether yes no answer) := by
  cases answer with
  | true => exact onYes
  | false => exact onNo

theorem ifUnchanged (captured : Option FileRevision) (conflict : CrudResult)
    (rest : Asks allowed next) (found : Option FileRevision) :
    Asks allowed (VaultSearch.ifUnchanged captured conflict next found) := by
  unfold VaultSearch.ifUnchanged
  split
  · exact .done _
  · exact rest

theorem askFile (file : Allows allowed filePath) {question : FileRequest}
    {next : question.Response → CrudProgram} (about : question.places = [filePath])
    (rest : ∀ answer, Asks allowed (next answer)) : Asks allowed (.ask question next) :=
  .ask (file.file question about) rest

theorem askNone (file : Allows allowed filePath) {question : FileRequest}
    {next : question.Response → CrudProgram} (about : question.places = [])
    (rest : ∀ answer, Asks allowed (next answer)) : Asks allowed (.ask question next) :=
  .ask (file.none question about) rest

theorem makeFolders (file : Allows allowed filePath) (folder : Location Text)
    (rest : Asks allowed next) :
    Asks allowed (VaultSearch.makeFolders folder next) :=
  askNone file rfl (fun made => proceed made (fun _done => rest))

theorem checkRevision (file : Allows allowed filePath) (captured : Option FileRevision)
    (rest : Asks allowed next) :
    Asks allowed (VaultSearch.checkRevision filePath relativePath captured next) :=
  askFile file rfl (ifUnchanged captured _ rest)

theorem captureRevision (file : Allows allowed filePath) (missing : CrudResult)
    {next : Option FileRevision → CrudProgram}
    (rest : ∀ revision, Asks allowed (next revision)) :
    Asks allowed (VaultSearch.captureRevision filePath missing next) := by
  apply askFile file rfl
  intro revision
  split
  · exact .done _
  · exact rest revision

theorem safeReadText (file : Allows allowed filePath) {next : Text → CrudProgram}
    (rest : ∀ content, Asks allowed (next content)) :
    Asks allowed (VaultSearch.safeReadText filePath relativePath next) := by
  apply askFile file rfl
  intro answer
  cases answer with
  | ok content => exact rest content
  | error error => cases error <;> exact .done _

theorem readStable (file : Allows allowed filePath) (missing : CrudResult)
    {next : Option FileRevision → Text → CrudProgram}
    (rest : ∀ revision content, Asks allowed (next revision content)) :
    Asks allowed (VaultSearch.readStable filePath relativePath missing next) :=
  captureRevision file missing (fun revision =>
    safeReadText file (fun content =>
      checkRevision file revision (rest revision content)))

theorem replaceChecked (file : Allows allowed filePath) (content : Text)
    (expected : Option FileRevision) (stamp : Stamp)
    (rest : Asks allowed next) :
    Asks allowed
      (VaultSearch.replaceChecked filePath content relativePath expected stamp next) := by
  have failed : Asks allowed (writeFailed relativePath) := .done _
  apply askNone file rfl
  apply whether _ failed
  apply askFile file rfl
  apply ifUnchanged
  apply askFile file rfl
  exact whether rest failed

theorem safeWriteText (file : Allows allowed filePath) (content : Text)
    (expected : Option FileRevision) (stamp : Stamp)
    (rest : Asks allowed next) :
    Asks allowed (VaultSearch.safeWriteText filePath content relativePath expected stamp next) := by
  have replaced : Asks allowed
      (VaultSearch.replaceChecked filePath content relativePath expected stamp next) :=
    replaceChecked file content expected stamp rest
  apply askFile file rfl
  apply whether _ replaced
  apply askFile file rfl
  exact whether replaced (.done _)

end Dialogue.Asks

namespace CrudService

variable {service : CrudService} {allowed : FileRequest → Prop}
  {filePath : Location Text}

open Dialogue

/-! ### The operations -/

theorem asks_createBody (file : Allows allowed filePath) (relativePath content : Text)
    (checked : Checked) (stamp : Stamp) :
    Asks allowed (createBody relativePath content checked stamp filePath) := by
  apply Asks.askFile file rfl
  intro revision
  split
  · exact .done _
  · exact .makeFolders file _ (.safeWriteText file content none stamp (.done _))

theorem asks_writeBody (file : Allows allowed filePath) (relativePath content : Text)
    (stamp : Stamp) :
    Asks allowed (writeBody relativePath content stamp filePath) :=
  .askFile file rfl (fun revision =>
    .makeFolders file _ (.safeWriteText file content revision stamp (.done _)))

theorem asks_appendBody (file : Allows allowed filePath)
    (relativePath content separator : Text) (stamp : Stamp) :
    Asks allowed (service.appendBody relativePath content separator stamp filePath) :=
  .readStable file _ (fun revision _existing =>
    .proceed _ (fun _done => .safeWriteText file _ revision stamp (.done _)))

theorem asks_updateBody (file : Allows allowed filePath) (relativePath : Text)
    (metadata : Mapping) (merge validateSchema : Bool) (stamp : Stamp) :
    Asks allowed
      (service.updateBody relativePath metadata merge validateSchema stamp filePath) := by
  apply Asks.readStable file
  intro revision content
  apply Asks.proceed
  intro parsed
  dsimp only
  split
  · exact .done _
  · exact .done _
  · exact .proceed _ (fun _done => .safeWriteText file _ revision stamp (.done _))

theorem asks_addId (file : Allows allowed filePath) (relativePath : Text)
    (validateSchema : Bool) (supply : Supply) (revision : Option FileRevision)
    (existing : Mapping) (body : Text) :
    Asks allowed
      (service.addId relativePath validateSchema supply filePath revision existing body) := by
  unfold addId
  split
  · exact .done _
  · exact .done _
  · exact .safeWriteText file _ revision supply.stamp (.done _)

theorem asks_ensureNoteIdLocked (file : Allows allowed filePath) (relativePath : Text)
    (validateSchema : Bool) (supply : Supply) :
    Asks allowed (service.ensureNoteIdLocked relativePath validateSchema supply filePath) := by
  apply Asks.readStable file
  intro revision content
  apply Asks.proceed
  intro parsed
  split
  · exact .done _
  · exact asks_addId file relativePath validateSchema supply revision _ _

theorem asks_moveBody {fromFile toFile : Location Text} (source : Allows allowed fromFile)
    (destination : Allows allowed toFile) (moves : allowed (.move fromFile toFile))
    (fromPath toPath : Text) : Asks allowed (moveBody fromPath toPath fromFile toFile) := by
  apply Asks.captureRevision source
  intro revision
  apply Asks.askFile destination rfl
  intro taken
  split
  · exact .done _
  · apply Asks.makeFolders source
    apply Asks.checkRevision source
    apply Asks.askFile destination rfl
    intro takenNow
    unfold moveIfFree
    split
    · exact .done _
    · exact .ask moves (.whether (.done _) (.done _))

/-- The names that `delete_note` may choose in the trash. -/
def trashNames (supply : Supply) (relativePath : Text) : List (Location Text) :=
  match service.vault.trashPath relativePath with
  | .error _ => []
  | .ok trashPath =>
      trashPath :: (uniqueIds supply).filterMap (LinkedVault.withUniqueStem trashPath)

theorem asks_chooseTrashPath {relativePath : Text} {trashPath : Location Text}
    {next : Location Text → CrudProgram} {names : List (Location Text)}
    (rest : ∀ chosen ∈ names, Asks allowed (next chosen))
    (looks : ∀ name ∈ names, Allows allowed name) {ids : List Text}
    (listed : ids.filterMap (LinkedVault.withUniqueStem trashPath) ⊆ names) :
    ∀ candidate ∈ names,
      Asks allowed (chooseTrashPath relativePath trashPath next ids candidate) := by
  induction ids with
  | nil =>
      intro candidate isName
      exact .askFile (looks candidate isName) rfl (.whether (.done _) (rest candidate isName))
  | cons uniqueId later ih =>
      intro candidate isName
      apply Asks.askFile (looks candidate isName) rfl
      apply Asks.whether _ (rest candidate isName)
      split
      · exact .done _
      case h_2 unique isUnique =>
        rw [List.filterMap_cons_some isUnique] at listed
        exact ih (fun name member => listed (List.mem_cons_of_mem _ member)) unique
          (listed List.mem_cons_self)

theorem asks_deleteBody (file : Allows allowed filePath) {supply : Supply}
    {relativePath : Text}
    (looks : ∀ name ∈ service.trashNames supply relativePath, Allows allowed name)
    (moves : ∀ name ∈ service.trashNames supply relativePath, allowed (.move filePath name)) :
    Asks allowed (service.deleteBody supply relativePath filePath) := by
  apply Asks.captureRevision file
  intro revision
  apply Asks.proceed
  intro trashDir
  apply Asks.makeFolders file
  unfold trashNames at looks moves
  cases found : service.vault.trashPath relativePath with
  | error error => exact .done _
  | ok trashPath =>
      rw [found] at looks moves
      apply Asks.makeFolders file
      apply asks_chooseTrashPath _ looks (List.subset_cons_self _ _) trashPath List.mem_cons_self
      intro chosen isName
      apply Asks.checkRevision file
      exact .ask (moves chosen isName) (.whether (.done _) (.done _))

end CrudService

/-! ### Calls -/

inductive WriteCall where
  | createNote (relativePath content : Text) (frontmatter : Option Mapping) (validateSchema : Bool)
  | writeNote (relativePath content : Text)
  | appendNote (relativePath content separator : Text)
  | updateFrontmatter (relativePath : Text) (metadata : Mapping) (merge validateSchema : Bool)
  | ensureNoteId (relativePath : Text) (validateSchema : Bool)
  | deleteNote (relativePath : Text)
  | moveNote (fromPath toPath : Text)

/-- A call, what it brings with it and what the operating system lets it do. -/
structure WriteRequest where
  call : WriteCall
  supply : Supply
  host : Host := {}

namespace CrudService

variable (service : CrudService)

def issue (supply : Supply) : WriteCall → PathLocked
  | .createNote relativePath content frontmatter validateSchema =>
      service.createNote supply relativePath content frontmatter validateSchema
  | .writeNote relativePath content => service.writeNote supply relativePath content
  | .appendNote relativePath content separator =>
      service.appendNote supply relativePath content separator
  | .updateFrontmatter relativePath metadata merge validateSchema =>
      service.updateFrontmatter supply relativePath metadata merge validateSchema
  | .ensureNoteId relativePath validateSchema =>
      service.ensureNoteId supply relativePath validateSchema
  | .deleteNote relativePath => service.deleteNote supply relativePath
  | .moveNote fromPath toPath => service.moveNote fromPath toPath

/-- The results of the calls and the files they leave, one call after the other. -/
def performAll : List WriteRequest → Files → List CrudOutcome × Files
  | [], files => ([], files)
  | request :: later, files =>
      let (outcome, after) :=
        (service.issue request.supply request.call).body.run (fileStorage request.host) files
      let (outcomes, final) := performAll later after
      (outcome :: outcomes, final)

/-- What a call touches that its locks do not cover. -/
def unlockedNames (request : WriteRequest) : List (Location Text) :=
  match request.call with
  | .deleteNote relativePath => service.trashNames request.supply relativePath
  | _ => []

/-- The keys of the paths in `advisory_path_locks`. -/
def lockKeys (request : WriteRequest) : List Text :=
  (service.issue request.supply request.call).paths.map lockKey

/-- The places that the locks of a call cover, and the names besides. -/
def footprint (request : WriteRequest) : Set (Location Text) :=
  fun here => lockKey here ∈ service.lockKeys request ∨ here ∈ service.unlockedNames request

end CrudService

/-- The questions that a call may ask are allowed, whatever it locks. -/
def CoveredCall (allowed : List (Location Text) → FileRequest → Prop) (call : PathLocked) : Prop :=
  Dialogue.Asks (allowed call.paths) call.body

namespace CoveredCall

variable {service : CrudService} {allowed : List (Location Text) → FileRequest → Prop}

theorem unlocked (relativePath : Text) (outcome : CrudOutcome) :
    CoveredCall allowed (unlocked relativePath outcome) :=
  .done outcome

theorem validated {relativePath : Text} {filePath : Except PyError (Location Text)}
    {body : Location Text → CrudProgram}
    (asks : ∀ place, filePath = .ok place → Dialogue.Asks (allowed [place]) (body place)) :
    CoveredCall allowed (service.validated relativePath filePath body) := by
  unfold CrudService.validated
  split
  · exact unlocked relativePath _
  case h_2 place =>
    unfold CrudService.locked
    split
    · exact unlocked relativePath _
    · exact asks place rfl

theorem createNote (supply : Supply) (relativePath content : Text)
    (frontmatter : Option Mapping) (validateSchema : Bool)
    (files : ∀ place, Allows (allowed [place]) place) :
    CoveredCall allowed
      (service.createNote supply relativePath content frontmatter validateSchema) := by
  unfold CrudService.createNote
  split
  · exact unlocked relativePath _
  · exact validated (fun place _isPath =>
      CrudService.asks_createBody (files place) relativePath _ _ supply.stamp)

theorem ensureNoteId (supply : Supply) (relativePath : Text) (validateSchema : Bool)
    (files : ∀ place, Allows (allowed [place]) place) :
    CoveredCall allowed (service.ensureNoteId supply relativePath validateSchema) := by
  unfold CrudService.ensureNoteId
  split
  · exact unlocked relativePath _
  · exact validated (fun place _isPath =>
      CrudService.asks_ensureNoteIdLocked (files place) relativePath validateSchema supply)

theorem moveNote {fromPath toPath : Text}
    (asks : ∀ fromFile toFile, service.vault.resolvePath service.env fromPath = .ok fromFile →
      Dialogue.Asks (allowed (CrudService.sortedPaths fromFile toFile))
        (CrudService.moveBody fromPath toPath fromFile toFile)) :
    CoveredCall allowed (service.moveNote fromPath toPath) := by
  unfold CrudService.moveNote
  split
  · exact unlocked fromPath _
  · dsimp only
    split
    · exact unlocked fromPath _
    · unfold CrudService.moveResolved
      split
      · exact unlocked fromPath _
      case h_2 fromFile toFile resolved =>
        obtain ⟨_source, isSource, afterSource⟩ := bind_ok resolved
        obtain ⟨_destination, _isDestination, both⟩ := bind_ok afterSource
        cases both
        unfold CrudService.locked
        split
        · exact unlocked fromPath _
        · exact asks fromFile toFile isSource

end CoveredCall

/-- Both paths of a move have their locks, in whatever order. -/
theorem lockKey_sortedPaths (fromFile toFile : Location Text) :
    CrudService.lockKey fromFile ∈
        (CrudService.sortedPaths fromFile toFile).map CrudService.lockKey ∧
      CrudService.lockKey toFile ∈
        (CrudService.sortedPaths fromFile toFile).map CrudService.lockKey := by
  unfold CrudService.sortedPaths
  split
  case isTrue same =>
    rw [same]
    exact ⟨List.mem_cons_self, List.mem_cons_self⟩
  case isFalse =>
    split
    · exact ⟨List.mem_cons_self, List.mem_cons_of_mem _ List.mem_cons_self⟩
    · exact ⟨List.mem_cons_of_mem _ List.mem_cons_self, List.mem_cons_self⟩

namespace CrudService

variable (service : CrudService)

/-- The questions of a call, which moves only the file it is told to. -/
theorem coveredCall_issue {allowed : List (Location Text) → FileRequest → Prop}
    (request : WriteRequest) (files : ∀ place, Allows (allowed [place]) place)
    (deletes : ∀ relativePath place, request.call = .deleteNote relativePath →
      service.vault.resolvePath service.env relativePath = .ok place →
        ∀ name ∈ service.trashNames request.supply relativePath,
          Allows (allowed [place]) name ∧ allowed [place] (.move place name))
    (moves : ∀ fromPath toPath fromFile toFile, request.call = .moveNote fromPath toPath →
      service.vault.resolvePath service.env fromPath = .ok fromFile →
        Allows (allowed (sortedPaths fromFile toFile)) fromFile ∧
          Allows (allowed (sortedPaths fromFile toFile)) toFile ∧
            allowed (sortedPaths fromFile toFile) (.move fromFile toFile)) :
    CoveredCall allowed (service.issue request.supply request.call) := by
  obtain ⟨call, supply, host⟩ := request
  cases call with
  | createNote relativePath content frontmatter validateSchema =>
      exact CoveredCall.createNote supply relativePath content frontmatter validateSchema files
  | writeNote relativePath content =>
      exact CoveredCall.validated (fun place _isPath =>
        asks_writeBody (files place) relativePath content supply.stamp)
  | appendNote relativePath content separator =>
      exact CoveredCall.validated (fun place _isPath =>
        asks_appendBody (files place) relativePath content separator supply.stamp)
  | updateFrontmatter relativePath metadata merge validateSchema =>
      exact CoveredCall.validated (fun place _isPath =>
        asks_updateBody (files place) relativePath metadata merge validateSchema supply.stamp)
  | ensureNoteId relativePath validateSchema =>
      exact CoveredCall.ensureNoteId supply relativePath validateSchema files
  | deleteNote relativePath =>
      apply CoveredCall.validated
      intro place isPath
      have given := deletes relativePath place rfl (LinkedVault.validateForDelete_ok isPath).2
      exact asks_deleteBody (files place) (fun name isName => (given name isName).1)
        (fun name isName => (given name isName).2)
  | moveNote fromPath toPath =>
      apply CoveredCall.moveNote
      intro fromFile toFile isSource
      obtain ⟨source, destination, moved⟩ := moves fromPath toPath fromFile toFile rfl isSource
      exact asks_moveBody source destination moved fromPath toPath

/-- A question about places that the locks of some paths cover, or about these names. -/
def TouchesOnly (names paths : List (Location Text)) (question : FileRequest) : Prop :=
  ∀ here ∈ question.places, lockKey here ∈ paths.map lockKey ∨ here ∈ names

variable {names paths : List (Location Text)}

theorem allows_touchesOnly {place : Location Text}
    (covered : lockKey place ∈ paths.map lockKey ∨ place ∈ names) :
    Allows (TouchesOnly names paths) place := by
  constructor
  · intro question about here named
    rw [about, List.mem_singleton] at named
    rw [named]
    exact covered
  · intro question about here named
    rw [about] at named
    cases named

theorem touchesOnly_move {source destination : Location Text}
    (atSource : lockKey source ∈ paths.map lockKey ∨ source ∈ names)
    (atDestination : lockKey destination ∈ paths.map lockKey ∨ destination ∈ names) :
    TouchesOnly names paths (.move source destination) := by
  intro here named
  rcases List.mem_cons.mp named with isSource | other
  · rw [isSource]
    exact atSource
  · rw [List.mem_singleton.mp other]
    exact atDestination

/-- A call touches only places that its locks cover, and the names besides. -/
theorem within_issue (request : WriteRequest) :
    Dialogue.Within (fileStorage request.host) (service.footprint request)
      (service.issue request.supply request.call).body := by
  have own : ∀ place : Location Text, lockKey place ∈ [place].map lockKey :=
    fun _place => List.mem_cons_self
  have covered : CoveredCall (TouchesOnly (service.unlockedNames request))
      (service.issue request.supply request.call) := by
    apply service.coveredCall_issue request
    · exact fun place => allows_touchesOnly (Or.inl (own place))
    · intro relativePath place isDelete _isPath name isName
      have isUnlocked : name ∈ service.unlockedNames request := by
        unfold unlockedNames
        rw [isDelete]
        exact isName
      exact ⟨allows_touchesOnly (Or.inr isUnlocked),
        touchesOnly_move (Or.inl (own place)) (Or.inr isUnlocked)⟩
    · intro fromPath toPath fromFile toFile _isMove _isSource
      obtain ⟨source, destination⟩ := lockKey_sortedPaths fromFile toFile
      exact ⟨allows_touchesOnly (Or.inl source), allows_touchesOnly (Or.inl destination),
        touchesOnly_move (Or.inl source) (Or.inl destination)⟩
  apply Dialogue.Asks.within
  exact covered

/-- What a call does once it has its locks. -/
def task (request : WriteRequest) :
    Task FileRequest FileRequest.Response CrudOutcome (Location Text) (Option NoteFile) :=
  { storage := fileStorage request.host
    footprint := service.footprint request
    program := (service.issue request.supply request.call).body
    within := service.within_issue request }

theorem performAll_eq (requests : List WriteRequest) :
    ∀ files, service.performAll requests files = Task.runAll (requests.map service.task) files := by
  induction requests with
  | nil => exact fun _files => rfl
  | cons request later ih =>
      intro files
      unfold performAll
      dsimp only
      rw [ih]
      rfl

end CrudService

end VaultSearch
