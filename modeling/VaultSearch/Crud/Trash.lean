/-
What `delete_note` and `move_note` do to the notes, and what becomes of the notes in the trash.

Both go to a place where no file is, and change nothing unless they succeed.  The trash itself
is only protected by the check of the path string: an operation whose path leads into it by
way of surrounding whitespace or of a link changes what lies there.
-/

import VaultSearch.Crud.ExternalEdits
import VaultSearch.Crud.Runs

set_option autoImplicit false

namespace VaultSearch

open Symlinks

/-! ### Operations that change nothing unless they succeed -/

def Succeeds : CrudOutcome → Prop
  | .ok result => result.success = true
  | .error _ => False

/-- Without success the files stay as they are. -/
def Commits (program : CrudProgram) : Prop :=
  ∀ host files, Succeeds (program.run (fileStorage host) files).1 ∨
    (program.run (fileStorage host) files).2 = files

namespace Commits

theorem done (outcome : CrudOutcome) : Commits (.done outcome) :=
  fun _host _files => Or.inr rfl

theorem ask {question : FileRequest} {next : question.Response → CrudProgram}
    (reads : ∀ host files, (performRequest host question files).2 = files)
    (rest : ∀ answer, Commits (next answer)) : Commits (.ask question next) := by
  intro host files
  have after := rest (performRequest host question files).1 host files
  have same : (Dialogue.ask question next).run (fileStorage host) files =
      (next (performRequest host question files).1).run (fileStorage host)
        (performRequest host question files).2 := rfl
  rw [same, reads]
  exact after

theorem proceed {value : Type} (computed : Except PyError value) {next : value → CrudProgram}
    (rest : ∀ given, Commits (next given)) : Commits (VaultSearch.proceed computed next) := by
  cases computed with
  | error error => exact done _
  | ok given => exact rest given

theorem whether {yes no : CrudProgram} (onYes : Commits yes) (onNo : Commits no) (answer : Bool) :
    Commits (VaultSearch.whether yes no answer) := by
  cases answer with
  | true => exact onYes
  | false => exact onNo

theorem makeFolders (folder : Location Text) {next : CrudProgram} (rest : Commits next) :
    Commits (VaultSearch.makeFolders folder next) :=
  ask (fun _host _files => rfl) (fun made => proceed made (fun _done => rest))

theorem ifUnchanged (captured found : Option FileRevision) (conflict : CrudResult)
    {next : CrudProgram} (rest : Commits next) :
    Commits (VaultSearch.ifUnchanged captured conflict next found) := by
  unfold VaultSearch.ifUnchanged
  split
  · exact done _
  · exact rest

theorem captureRevision (filePath : Location Text) (missing : CrudResult)
    {next : Option FileRevision → CrudProgram} (rest : ∀ revision, Commits (next revision)) :
    Commits (VaultSearch.captureRevision filePath missing next) := by
  apply ask (fun _host _files => rfl)
  intro revision
  split
  · exact done _
  · exact rest revision

/-- The file is replaced, and then the operation succeeds. -/
theorem replace (filePath : Location Text) (content : Text) (stamp : Stamp) {result : CrudResult}
    (success : result.success = true) (relativePath : Text) :
    Commits (.ask (.replace filePath content stamp)
      (VaultSearch.whether (finish result) (writeFailed relativePath))) := by
  intro host files
  have answered : (Dialogue.ask (.replace filePath content stamp)
      (VaultSearch.whether (finish result) (writeFailed relativePath))).run (fileStorage host)
        files =
      (VaultSearch.whether (finish result) (writeFailed relativePath)
        (performReplace host filePath content stamp files).1).run (fileStorage host)
          (performReplace host filePath content stamp files).2 := rfl
  rw [answered]
  unfold performReplace
  split
  · exact Or.inl success
  · exact Or.inr rfl

theorem move (source destination : Location Text) {result failed : CrudResult}
    (success : result.success = true) :
    Commits (.ask (.move source destination)
      (VaultSearch.whether (finish result) (finish failed))) := by
  intro host files
  have answered : (Dialogue.ask (.move source destination)
      (VaultSearch.whether (finish result) (finish failed))).run (fileStorage host) files =
      (VaultSearch.whether (finish result) (finish failed)
        (performMove host source destination files).1).run (fileStorage host)
          (performMove host source destination files).2 := rfl
  rw [answered]
  unfold performMove
  split
  · exact Or.inr rfl
  · split
    · exact Or.inl success
    · exact Or.inr rfl

theorem safeWriteText (filePath : Location Text) (content relativePath : Text)
    (expected : Option FileRevision) (stamp : Stamp) {result : CrudResult}
    (success : result.success = true) :
    Commits (VaultSearch.safeWriteText filePath content relativePath expected stamp
      (finish result)) := by
  have checked : Commits (replaceChecked filePath content relativePath expected stamp
      (finish result)) := by
    apply ask (fun _host _files => rfl)
    apply whether _ (done _)
    apply ask (fun _host _files => rfl)
    intro found
    exact ifUnchanged _ _ _ (replace filePath content stamp success relativePath)
  apply ask (fun _host _files => rfl)
  apply whether _ checked
  apply ask (fun _host _files => rfl)
  exact whether checked (done _)

variable {service : CrudService}

theorem createBody (relativePath content : Text) (checked : CrudService.Checked) (stamp : Stamp)
    (filePath : Location Text) :
    Commits (CrudService.createBody relativePath content checked stamp filePath) := by
  apply ask (fun _host _files => rfl)
  intro revision
  split
  · exact done _
  · exact makeFolders _ (safeWriteText filePath content relativePath none stamp rfl)

theorem writeBody (relativePath content : Text) (stamp : Stamp) (filePath : Location Text) :
    Commits (CrudService.writeBody relativePath content stamp filePath) := by
  apply ask (fun _host _files => rfl)
  intro revision
  exact makeFolders _ (safeWriteText filePath content relativePath revision stamp rfl)

theorem chooseTrashPath (relativePath : Text) (trashPath : Location Text)
    {next : Location Text → CrudProgram} (rest : ∀ chosen, Commits (next chosen))
    (ids : List Text) (candidate : Location Text) :
    Commits (CrudService.chooseTrashPath relativePath trashPath next ids candidate) := by
  induction ids generalizing candidate with
  | nil =>
      apply ask (fun _host _files => rfl)
      exact whether (done _) (rest candidate)
  | cons uniqueId later ih =>
      apply ask (fun _host _files => rfl)
      apply whether _ (rest candidate)
      split
      · exact done _
      · exact ih _

theorem deleteBody (supply : Supply) (relativePath : Text) (filePath : Location Text) :
    Commits (service.deleteBody supply relativePath filePath) := by
  apply captureRevision
  intro revision
  apply proceed
  intro trashDir
  apply makeFolders
  apply proceed
  intro trashPath
  apply makeFolders
  apply chooseTrashPath
  intro chosen
  apply ask (fun _host _files => rfl)
  intro found
  exact ifUnchanged _ _ _ (move filePath chosen rfl)

theorem moveBody (fromPath toPath : Text) (fromFile toFile : Location Text) :
    Commits (CrudService.moveBody fromPath toPath fromFile toFile) := by
  apply captureRevision
  intro revision
  apply ask (fun _host _files => rfl)
  intro destination
  split
  · exact done _
  · apply makeFolders
    apply ask (fun _host _files => rfl)
    intro found
    apply ifUnchanged
    apply ask (fun _host _files => rfl)
    intro later
    unfold CrudService.moveIfFree
    split
    · exact done _
    · exact move fromFile toFile rfl

theorem locked (relativePath : Text) (paths : List (Location Text)) {body : CrudProgram}
    (commits : Commits body) : Commits (service.locked relativePath paths body).body := by
  unfold CrudService.locked
  split
  · exact done _
  · exact commits

theorem validated (relativePath : Text) (filePath : Except PyError (Location Text))
    {body : Location Text → CrudProgram} (commits : ∀ location, Commits (body location)) :
    Commits (service.validated relativePath filePath body).body := by
  unfold CrudService.validated
  split
  · exact done _
  · exact locked relativePath _ (commits _)

theorem createNote (supply : Supply) (relativePath content : Text) (frontmatter : Option Mapping)
    (validateSchema : Bool) :
    Commits (service.createNote supply relativePath content frontmatter validateSchema).body := by
  unfold CrudService.createNote
  split
  · exact done _
  · exact validated relativePath _ (createBody relativePath _ _ supply.stamp)

theorem moveNote (fromPath toPath : Text) : Commits (service.moveNote fromPath toPath).body := by
  unfold CrudService.moveNote
  split
  · exact done _
  · dsimp only
    split
    · exact done _
    · unfold CrudService.moveResolved
      split
      · exact done _
      · exact locked fromPath _ (moveBody fromPath toPath _ _)

end Commits

/-! ### Calls -/

inductive NoteCall where
  | createNote (relativePath content : Text) (frontmatter : Option Mapping) (validateSchema : Bool)
  | writeNote (relativePath content : Text)
  | moveNote (fromPath toPath : Text)
  | deleteNote (relativePath : Text)

/-- A call, what it brings with it and what the operating system lets it do. -/
structure NoteStep where
  call : NoteCall
  supply : Supply
  host : Host := {}

/-- A note goes to a place where no file is, as it is. -/
structure Transfers (files final : Files) (source destination : Location Text) (note : NoteFile) :
    Prop where
  taken : files source = some note
  free : files destination = none
  removed : final source = none
  arrived : final destination = some note
  others : ∀ other, other ≠ source → other ≠ destination → final other = files other

theorem transfers_moveFile {files : Files} {source destination : Location Text} {note : NoteFile}
    (taken : files source = some note) (free : files destination = none) :
    Transfers files (moveFile files source destination note) source destination note := by
  have apart : source ≠ destination := by
    intro same
    rw [same, free] at taken
    cases taken
  unfold moveFile
  constructor
  case taken => exact taken
  case free => exact free
  case removed => rw [Function.update_of_ne apart, Function.update_self]
  case arrived => rw [Function.update_self]
  case others =>
    intro other notSource notDestination
    rw [Function.update_of_ne notDestination, Function.update_of_ne notSource]

namespace CrudService

variable (service : CrudService)

def performNote (supply : Supply) : NoteCall → PathLocked
  | .createNote relativePath content frontmatter validateSchema =>
      service.createNote supply relativePath content frontmatter validateSchema
  | .writeNote relativePath content => service.writeNote supply relativePath content
  | .moveNote fromPath toPath => service.moveNote fromPath toPath
  | .deleteNote relativePath => service.deleteNote supply relativePath

/-- The result of a step, and the files after it. -/
def noteStep (files : Files) (step : NoteStep) : CrudOutcome × Files :=
  (service.performNote step.supply step.call).body.run (fileStorage step.host) files

def filesAfter (files : Files) (steps : List NoteStep) : Files :=
  steps.foldl (fun current step => (service.noteStep current step).2) files

/-- Below the folder that `.trash` resolves to. -/
def InTrash (place : Location Text) : Prop :=
  ∃ trashDir, service.vault.resolveInternalPath [.enter ".trash".toList] = .ok trashDir ∧
    trashDir <+: place ∧ place ≠ trashDir

/-- A deletion or a move takes the note to one free place, or changes nothing. -/
def TransfersOrKeeps (files : Files) (step : NoteStep) : Prop :=
  match step.call with
  | .deleteNote relativePath =>
      Succeeds (service.noteStep files step).1 ∧
          (∃ source destination note,
            service.vault.resolvePath service.env relativePath = .ok source ∧
              Transfers files (service.noteStep files step).2 source destination note) ∨
        ¬ Succeeds (service.noteStep files step).1 ∧ (service.noteStep files step).2 = files
  | .moveNote fromPath toPath =>
      Succeeds (service.noteStep files step).1 ∧
          (∃ source destination note,
            service.vault.resolvePath service.env fromPath = .ok source ∧
              service.vault.resolvePath service.env toPath = .ok destination ∧
              Transfers files (service.noteStep files step).2 source destination note) ∨
        ¬ Succeeds (service.noteStep files step).1 ∧ (service.noteStep files step).2 = files
  | _ => True

/-- A note is deleted by a step. -/
def Deletes (files : Files) (step : NoteStep) (note : NoteFile) : Prop :=
  ∃ relativePath source, step.call = .deleteNote relativePath ∧
    Succeeds (service.noteStep files step).1 ∧
    service.vault.resolvePath service.env relativePath = .ok source ∧ files source = some note

/-- A note with these bytes lies in the trash. -/
def Recoverable (files : Files) (note : NoteFile) : Prop :=
  ∃ place, service.InTrash place ∧ files place = some note

/-- In every later state of the run a deleted note is in the trash. -/
def KeepsDeleted (files : Files) (steps : List NoteStep) : Prop :=
  ∀ before deletion later rest note, steps = before ++ deletion :: (later ++ rest) →
    service.Deletes (service.filesAfter files before) deletion note →
    service.Recoverable (service.filesAfter files (before ++ deletion :: later)) note

/-- No file of the trash is overwritten or taken out of it, and the path in the trash does not
lead out of it. -/
def SparesTrash (files : Files) (step : NoteStep) : Prop :=
  match step.call with
  | .createNote _ _ _ _ => True
  | .writeNote relativePath _ =>
      ∀ filePath, service.vault.resolvePath service.env relativePath = .ok filePath →
        service.InTrash filePath → files filePath = none
  | .moveNote fromPath toPath =>
      ∀ source destination, service.vault.resolvePath service.env fromPath = .ok source →
        service.vault.resolvePath service.env toPath = .ok destination →
        service.InTrash source → files source = none ∨ service.InTrash destination
  | .deleteNote relativePath =>
      ∀ source trashPath, service.vault.resolvePath service.env relativePath = .ok source →
        service.vault.trashPath relativePath = .ok trashPath →
        files source = none ∨ service.InTrash trashPath

/-! ### What a call has done -/

variable {service} {files : Files} {step : NoteStep}

theorem noteStep_keeps (service : CrudService) (files : Files) (step : NoteStep) :
    Succeeds (service.noteStep files step).1 ∨ (service.noteStep files step).2 = files := by
  have commits : Commits (service.performNote step.supply step.call).body := by
    cases step.call with
    | createNote relativePath content frontmatter validateSchema =>
        exact Commits.createNote step.supply relativePath content frontmatter validateSchema
    | writeNote relativePath content =>
        exact Commits.validated relativePath _
          (Commits.writeBody relativePath content step.supply.stamp)
    | moveNote fromPath toPath => exact Commits.moveNote fromPath toPath
    | deleteNote relativePath =>
        exact Commits.validated relativePath _ (Commits.deleteBody step.supply relativePath)
  exact commits step.host files

theorem noteStep_succeeds (succeeds : Succeeds (service.noteStep files step).1) :
    ∃ result, result.success = true ∧
      (service.performNote step.supply step.call).body.run (fileStorage step.host) files =
        (.ok result, (service.noteStep files step).2) := by
  unfold noteStep at succeeds ⊢
  generalize (service.performNote step.supply step.call).body.run (fileStorage step.host) files =
    ended at succeeds
  obtain ⟨outcome, final⟩ := ended
  cases outcome with
  | error raised => exact absurd succeeds id
  | ok result => exact ⟨result, succeeds, rfl⟩

theorem deleteNote_transfers {relativePath : Text} (isDelete : step.call = .deleteNote relativePath)
    (succeeds : Succeeds (service.noteStep files step).1) :
    ∃ source trashPath chosen note,
      service.vault.resolvePath service.env relativePath = .ok source ∧
      service.vault.trashPath relativePath = .ok trashPath ∧ TrashName trashPath chosen ∧
      Transfers files (service.noteStep files step).2 source chosen note := by
  obtain ⟨result, success, ran⟩ := noteStep_succeeds succeeds
  rw [isDelete] at ran
  obtain ⟨source, validated, deleted⟩ := run_validated ran
  obtain ⟨trashPath, chosen, note, isPath, named, free, isThere, moved⟩ :=
    run_deleteBody deleted success
  refine ⟨source, trashPath, chosen, note, (LinkedVault.validateForDelete_ok validated).2, isPath,
    named, ?_⟩
  rw [moved]
  exact transfers_moveFile isThere free

theorem moveNote_transfers {fromPath toPath : Text} (isMove : step.call = .moveNote fromPath toPath)
    (succeeds : Succeeds (service.noteStep files step).1) :
    ∃ source destination note, service.vault.resolvePath service.env fromPath = .ok source ∧
      service.vault.resolvePath service.env toPath = .ok destination ∧
      Transfers files (service.noteStep files step).2 source destination note := by
  obtain ⟨result, success, ran⟩ := noteStep_succeeds succeeds
  rw [isMove] at ran
  obtain ⟨source, destination, isSource, isDestination, done⟩ := run_moveNote ran success
  obtain ⟨note, isThere, free, moved⟩ := run_moveBody done success
  refine ⟨source, destination, note, isSource, isDestination, ?_⟩
  rw [moved]
  exact transfers_moveFile isThere free

theorem transfersOrKeeps (service : CrudService) (files : Files) (step : NoteStep) :
    service.TransfersOrKeeps files step := by
  have keeps := service.noteStep_keeps files step
  unfold TransfersOrKeeps
  cases call : step.call with
  | createNote relativePath content frontmatter validateSchema => trivial
  | writeNote relativePath content => trivial
  | moveNote fromPath toPath =>
      by_cases succeeds : Succeeds (service.noteStep files step).1
      · exact Or.inl ⟨succeeds, moveNote_transfers call succeeds⟩
      · exact Or.inr ⟨succeeds, keeps.resolve_left succeeds⟩
  | deleteNote relativePath =>
      by_cases succeeds : Succeeds (service.noteStep files step).1
      · obtain ⟨source, _trashPath, chosen, note, isSource, _isPath, _named, transfers⟩ :=
          deleteNote_transfers call succeeds
        exact Or.inl ⟨succeeds, source, chosen, note, isSource, transfers⟩
      · exact Or.inr ⟨succeeds, keeps.resolve_left succeeds⟩

/-! ### The trash -/

theorem prefix_dropLast {folder place : Location Text} (below : folder <+: place)
    (apart : place ≠ folder) : folder <+: place.dropLast := by
  obtain ⟨rest, shape⟩ := below
  have filled : rest ≠ [] := by
    intro empty
    rw [empty, List.append_nil] at shape
    exact apart shape.symm
  rw [← shape, List.dropLast_append_of_ne_nil filled]
  exact List.prefix_append folder _

/-- Every name that a deletion may choose lies beside the path in the trash. -/
theorem inTrash_of_name {trashPath chosen : Location Text} (inside : service.InTrash trashPath)
    (named : TrashName trashPath chosen) : service.InTrash chosen := by
  cases named with
  | inl same =>
      rw [same]
      exact inside
  | inr beside =>
      obtain ⟨uniqueId, isBeside⟩ := beside
      obtain ⟨trashDir, isTrash, below, apart⟩ := inside
      obtain ⟨name, _isLast, shape⟩ := Option.map_eq_some_iff.mp isBeside
      have parent := prefix_dropLast below apart
      refine ⟨trashDir, isTrash, ?_, ?_⟩
      · rw [← shape]
        exact parent.trans (List.prefix_append _ _)
      · intro same
        have short := parent.length_le
        rw [← same, ← shape, List.length_append, List.length_singleton] at short
        omega

theorem writeNote_written {relativePath content : Text}
    (isWrite : step.call = .writeNote relativePath content)
    (succeeds : Succeeds (service.noteStep files step).1) :
    ∃ filePath, service.vault.resolvePath service.env relativePath = .ok filePath ∧
      Written files (service.noteStep files step).2 filePath content step.supply.stamp := by
  obtain ⟨result, success, ran⟩ := noteStep_succeeds succeeds
  rw [isWrite] at ran
  obtain ⟨filePath, validated, done⟩ := run_validated ran
  exact ⟨filePath, (LinkedVault.validateForWrite_ok validated).2, run_writeBody done success⟩

theorem createNote_written {relativePath content : Text} {frontmatter : Option Mapping}
    {validateSchema : Bool}
    (isCreate : step.call = .createNote relativePath content frontmatter validateSchema)
    (succeeds : Succeeds (service.noteStep files step).1) :
    ∃ filePath text, files filePath = none ∧
      Written files (service.noteStep files step).2 filePath text step.supply.stamp := by
  obtain ⟨result, success, ran⟩ := noteStep_succeeds succeeds
  rw [isCreate] at ran
  have created : (service.createNote step.supply relativePath content frontmatter
      validateSchema).body.run (fileStorage step.host) files = (.ok result, _) := ran
  unfold createNote at created
  split at created
  case h_1 outcome refused =>
    have same : outcome = .ok result := (Prod.mk.inj created).1
    rw [same] at refused
    rw [checkNew_refused refused] at success
    cases success
  case h_2 checked isChecked =>
    obtain ⟨filePath, _validated, done⟩ := run_validated created
    obtain ⟨absent, written⟩ := run_createBody done success
    exact ⟨filePath, _, absent, written⟩

theorem recoverable_written {final : Files} {filePath : Location Text} {text : Text}
    {stamp : Stamp} {note : NoteFile} (written : Written files final filePath text stamp)
    (spared : service.InTrash filePath → files filePath = none)
    (recoverable : service.Recoverable files note) : service.Recoverable final note := by
  obtain ⟨place, inTrash, isThere⟩ := recoverable
  have apart : place ≠ filePath := by
    intro same
    rw [same] at inTrash isThere
    rw [spared inTrash] at isThere
    cases isThere
  refine ⟨place, inTrash, ?_⟩
  rw [written, Function.update_of_ne apart]
  exact isThere

theorem recoverable_transfers {final : Files} {source destination : Location Text}
    {moved note : NoteFile} (transfers : Transfers files final source destination moved)
    (spared : service.InTrash source → service.InTrash destination)
    (recoverable : service.Recoverable files note) : service.Recoverable final note := by
  obtain ⟨place, inTrash, isThere⟩ := recoverable
  by_cases isSource : place = source
  · rw [isSource] at inTrash isThere
    refine ⟨destination, spared inTrash, ?_⟩
    rw [transfers.arrived, ← transfers.taken]
    exact isThere
  · have notDestination : place ≠ destination := by
      intro same
      rw [same, transfers.free] at isThere
      cases isThere
    refine ⟨place, inTrash, ?_⟩
    rw [transfers.others place isSource notDestination]
    exact isThere

/-- A step that spares the trash keeps what lies there. -/
theorem recoverable_noteStep {note : NoteFile} (spares : service.SparesTrash files step)
    (recoverable : service.Recoverable files note) :
    service.Recoverable (service.noteStep files step).2 note := by
  cases service.noteStep_keeps files step with
  | inr same =>
      rw [same]
      exact recoverable
  | inl succeeds =>
      unfold SparesTrash at spares
      cases call : step.call with
      | createNote relativePath content frontmatter validateSchema =>
          obtain ⟨filePath, text, absent, written⟩ := createNote_written call succeeds
          exact recoverable_written written (fun _inTrash => absent) recoverable
      | writeNote relativePath content =>
          rw [call] at spares
          obtain ⟨filePath, isPath, written⟩ := writeNote_written call succeeds
          exact recoverable_written written (spares filePath isPath) recoverable
      | moveNote fromPath toPath =>
          rw [call] at spares
          obtain ⟨source, destination, moved, isSource, isDestination, transfers⟩ :=
            moveNote_transfers call succeeds
          apply recoverable_transfers transfers _ recoverable
          intro inTrash
          have kept := spares source destination isSource isDestination inTrash
          rw [transfers.taken] at kept
          exact kept.resolve_left (Option.some_ne_none moved)
      | deleteNote relativePath =>
          rw [call] at spares
          obtain ⟨source, trashPath, chosen, moved, isSource, isPath, named, transfers⟩ :=
            deleteNote_transfers call succeeds
          apply recoverable_transfers transfers _ recoverable
          intro _inTrash
          have kept := spares source trashPath isSource isPath
          rw [transfers.taken] at kept
          exact inTrash_of_name (kept.resolve_left (Option.some_ne_none moved)) named

/-- A step that spares the trash takes what it deletes there. -/
theorem recoverable_deleted {note : NoteFile} (spares : service.SparesTrash files step)
    (deletes : service.Deletes files step note) :
    service.Recoverable (service.noteStep files step).2 note := by
  obtain ⟨relativePath, taken, call, succeeds, isTaken, isThere⟩ := deletes
  unfold SparesTrash at spares
  rw [call] at spares
  obtain ⟨source, trashPath, chosen, moved, isSource, isPath, named, transfers⟩ :=
    deleteNote_transfers call succeeds
  have same : taken = source := Except.ok.inj (isTaken.symm.trans isSource)
  rw [same] at isThere
  have kept := spares source trashPath isSource isPath
  rw [isThere] at kept
  refine ⟨chosen, inTrash_of_name (kept.resolve_left (Option.some_ne_none note)) named, ?_⟩
  rw [transfers.arrived, ← transfers.taken]
  exact isThere

/-! ### Runs -/

/-- Every step meets the condition in the state that the run has then. -/
def EachStep (service : CrudService) (condition : Files → NoteStep → Prop) (files : Files)
    (steps : List NoteStep) : Prop :=
  ∀ before step rest, steps = before ++ step :: rest →
    condition (service.filesAfter files before) step

theorem filesAfter_append (service : CrudService) (files : Files) (first second : List NoteStep) :
    service.filesAfter files (first ++ second) =
      service.filesAfter (service.filesAfter files first) second :=
  List.foldl_append

theorem EachStep.later {condition : Files → NoteStep → Prop} {first second : List NoteStep}
    (each : EachStep service condition files (first ++ second)) :
    EachStep service condition (service.filesAfter files first) second := by
  intro before step rest split
  have whole := each (first ++ before) step rest (by rw [split, List.append_assoc])
  rw [filesAfter_append] at whole
  exact whole

theorem EachStep.first {condition : Files → NoteStep → Prop} {first second : List NoteStep}
    (each : EachStep service condition files (first ++ second)) :
    EachStep service condition files first := by
  intro before step rest split
  apply each before step (rest ++ second)
  rw [split, List.append_assoc]
  rfl

theorem recoverable_filesAfter {note : NoteFile} {steps : List NoteStep}
    (each : EachStep service service.SparesTrash files steps)
    (recoverable : service.Recoverable files note) :
    service.Recoverable (service.filesAfter files steps) note := by
  induction steps generalizing files with
  | nil => exact recoverable
  | cons step rest ih =>
      have spares := each [] step rest rfl
      have whole : EachStep service service.SparesTrash files ([step] ++ rest) := each
      have later : EachStep service service.SparesTrash (service.noteStep files step).2 rest :=
        whole.later
      exact ih later (recoverable_noteStep spares recoverable)

end CrudService

def deleteStep : NoteStep :=
  { call := .deleteNote "a.md".toList, supply := plainSupply }

/-- A space before the path hides the folder from the check. -/
def overwriteStep : NoteStep :=
  { call := .writeNote " .trash/a.md".toList "new".toList, supply := plainSupply }

def trashedPath : Location Text :=
  ["vault".toList, ".trash".toList, "a.md".toList]

end VaultSearch
