/-
The operations that change an existing note, and what each of them does when the note is
changed behind its back.

`write_note` has no check of its own, so that it never answers with the documented error
code.  The operations that read the note check it right after reading; a later change is
left to `safe_write_text`.
-/

import VaultSearch.Crud.Conflicts

set_option autoImplicit false

namespace VaultSearch

open Symlinks

namespace Follows

variable {filePath : Location Text} {stage : Stage} {captured : Option FileRevision}

theorem proceed {value : Type} (computed : Except PyError value) {next : value → CrudProgram}
    (rest : ∀ given, Follows filePath stage (next given)) :
    Follows filePath stage (VaultSearch.proceed computed next) := by
  cases computed with
  | error error => exact .settled rfl
  | ok given => exact rest given

theorem whether {yes no : CrudProgram} (onYes : Follows filePath stage yes)
    (onNo : Follows filePath stage no) (answer : Bool) :
    Follows filePath stage (VaultSearch.whether yes no answer) := by
  cases answer with
  | true => exact onYes
  | false => exact onNo

theorem makeFolders (folder : Location Text) {next : CrudProgram}
    (rest : Follows filePath stage next) :
    Follows filePath stage (VaultSearch.makeFolders folder next) := by
  apply elsewhere
  · exact List.not_mem_nil
  · intro path observer same
    cases same
  · intro made
    exact proceed made (fun _done => rest)

theorem ifUnchanged_self {conflict : CrudResult} {next : CrudProgram}
    (rest : Follows filePath stage next) :
    Follows filePath stage (ifUnchanged captured conflict next captured) := by
  unfold ifUnchanged
  rw [if_neg (fun different => different rfl)]
  exact rest

theorem ifUnchanged_noticed {conflict : CrudResult} {next : CrudProgram}
    {found : Option FileRevision} (altered : found ≠ captured) :
    ifUnchanged captured conflict next found = finish conflict :=
  if_pos altered

theorem writeConflict_noticed (relativePath : Text) {next : CrudProgram}
    (found : Option FileRevision) (altered : found ≠ captured) :
    Conflicts (ifUnchanged captured (writeConflict relativePath) next found) := by
  rw [ifUnchanged_noticed altered]
  exact ⟨_, rfl, rfl⟩

theorem replaceChecked (content relativePath : Text) (stamp : Stamp) {next : CrudProgram}
    (rest : Follows filePath .idle next) :
    Follows filePath (.writing captured)
      (VaultSearch.replaceChecked filePath content relativePath captured stamp next) := by
  apply elsewhere
  · exact List.not_mem_nil
  · intro path observer same
    cases same
  · apply whether
    · apply lastCheck
      · intro found altered
        rw [ifUnchanged_noticed altered]
        exact ⟨_, rfl, rfl⟩
      · apply ifUnchanged_self
        apply quiet
        · intro path observer same
          cases same
        · exact whether rest (.settled rfl)
    · exact .settled rfl

theorem safeWriteText (content relativePath : Text) (stamp : Stamp) {next : CrudProgram}
    (rest : Follows filePath .idle next) :
    Follows filePath (.writing captured)
      (VaultSearch.safeWriteText filePath content relativePath captured stamp next) := by
  have checked := @replaceChecked filePath captured content relativePath stamp next rest
  apply probeExists
  apply whether
  · apply probeMode
    exact whether checked (.settled rfl)
  · exact checked

theorem captureRevision {missing : CrudResult} {next : Option FileRevision → CrudProgram}
    (uncoded : isWriteConflict (.ok missing) = false)
    (rest : ∀ revision, revision.isSome = true →
      Follows filePath (.watching revision) (next revision)) :
    Follows filePath .idle (VaultSearch.captureRevision filePath missing next) := by
  apply capture
  intro revision
  cases revision with
  | none => exact .settled uncoded
  | some present => exact rest (some present) rfl

theorem readStable (relativePath : Text) {missing : CrudResult}
    {next : Option FileRevision → Text → CrudProgram}
    (uncoded : isWriteConflict (.ok missing) = false)
    (rest : ∀ revision content, Follows filePath (.watching revision) (next revision content)) :
    Follows filePath .idle (VaultSearch.readStable filePath relativePath missing next) := by
  apply captureRevision uncoded
  intro revision _present
  apply read (fun content =>
    ifUnchanged revision (writeConflict relativePath) (next revision content))
  · intro error
    cases error <;> exact ⟨_, rfl, rfl⟩
  · exact fun _content => rfl
  · exact fun _content => writeConflict_noticed relativePath
  · exact fun content => ifUnchanged_self (rest revision content)

end Follows

/-! ### The operations -/

inductive NoteMutation where
  | writeNote (relativePath content : Text)
  | appendNote (relativePath content separator : Text)
  | updateFrontmatter (relativePath : Text) (metadata : Mapping) (merge validateSchema : Bool)
  | enrichNoteFrontmatterRequired (relativePath : Text) (validateSchema : Bool)
  | ensureNoteId (relativePath : Text) (validateSchema : Bool)
  | deleteNote (relativePath : Text)
  | moveNote (fromPath toPath : Text)

namespace CrudService

variable (service : CrudService) (supply : Supply)

def mutate : NoteMutation → PathLocked
  | .writeNote relativePath content => service.writeNote supply relativePath content
  | .appendNote relativePath content separator =>
      service.appendNote supply relativePath content separator
  | .updateFrontmatter relativePath metadata merge validateSchema =>
      service.updateFrontmatter supply relativePath metadata merge validateSchema
  | .enrichNoteFrontmatterRequired relativePath validateSchema =>
      service.enrichNoteFrontmatterRequired supply relativePath validateSchema
  | .ensureNoteId relativePath validateSchema =>
      service.ensureNoteId supply relativePath validateSchema
  | .deleteNote relativePath => service.deleteNote supply relativePath
  | .moveNote fromPath toPath => service.moveNote fromPath toPath

variable {service supply}

theorem follows_writeBody (relativePath content : Text) (stamp : Stamp)
    (filePath : Location Text) :
    Follows filePath .idle (writeBody relativePath content stamp filePath) := by
  apply Follows.capture
  intro revision
  apply Follows.makeFolders
  exact .writes (.safeWriteText _ _ _ (.finished _))

theorem follows_appendBody (relativePath content separator : Text) (stamp : Stamp)
    (filePath : Location Text) :
    Follows filePath .idle
      (service.appendBody relativePath content separator stamp filePath) := by
  apply Follows.readStable relativePath rfl
  intro revision existing
  apply Follows.proceed
  intro _sized
  exact .writes (.safeWriteText _ _ _ (.finished _))

theorem follows_updateBody (relativePath : Text) (metadata : Mapping)
    (merge validateSchema : Bool) (stamp : Stamp) (filePath : Location Text) :
    Follows filePath .idle
      (service.updateBody relativePath metadata merge validateSchema stamp filePath) := by
  apply Follows.readStable relativePath rfl
  intro revision content
  apply Follows.proceed
  intro parsed
  dsimp only
  split
  · exact .settled rfl
  · exact .settled rfl
  · apply Follows.proceed
    intro _sized
    exact .writes (.safeWriteText _ _ _ (.finished _))

theorem keptId_uncoded (relativePath : Text) (validateSchema : Bool) (existing : Mapping)
    (id : Value) :
    isWriteConflict (service.keptId relativePath validateSchema existing id) = false := by
  unfold keptId
  dsimp only
  split
  · split <;> rfl
  · rfl

theorem follows_ensureNoteIdLocked (relativePath : Text) (validateSchema : Bool)
    (filePath : Location Text) :
    Follows filePath .idle
      (service.ensureNoteIdLocked relativePath validateSchema supply filePath) := by
  apply Follows.readStable relativePath rfl
  intro revision content
  apply Follows.proceed
  intro parsed
  split
  · exact .settled (keptId_uncoded _ _ _ _)
  · unfold addId
    split
    · exact .settled rfl
    · exact .settled rfl
    · exact .writes (.safeWriteText _ _ _ (.finished _))

theorem follows_persistBody (relativePath : Text) (generated : Mapping) (validateSchema : Bool)
    (stamp : Stamp) (filePath : Location Text) :
    Follows filePath .idle
      (service.persistBody relativePath generated validateSchema stamp filePath) := by
  apply Follows.readStable relativePath rfl
  intro revision content
  apply Follows.proceed
  intro parsed
  dsimp only
  split
  · exact .settled rfl
  · split
    · exact .settled rfl
    · split
      · exact .settled rfl
      · exact .settled rfl
      · apply Follows.proceed
        intro _sized
        apply Follows.proceed
        intro _fits
        exact .writes (.safeWriteText _ _ _ (.finished _))

theorem follows_enrichBody (relativePath : Text) (validateSchema : Bool) (stamp : Stamp)
    (filePath : Location Text) :
    Follows filePath .idle
      (service.enrichBody relativePath validateSchema stamp filePath) := by
  apply Follows.readStable relativePath rfl
  intro revision content
  -- the revision that the first check compared with is not used again
  apply Follows.released
  unfold enrichContent
  apply Follows.proceed
  intro parsed
  split
  · exact .settled rfl
  · split
    · exact .settled rfl
    · dsimp only
      split
      · exact .settled rfl
      · split
        · exact .settled rfl
        · exact .settled rfl
        · exact follows_persistBody _ _ _ _ _

theorem follows_moveToTrash (relativePath : Text) (filePath trashPath : Location Text)
    (revision : Option FileRevision) :
    Follows filePath (.watching revision)
      (ifUnchanged revision (writeConflict relativePath)
        (.ask (.move filePath trashPath)
          (whether
            (finish (crudSuccess relativePath ("Note moved to trash: ".toList ++
              PurePath.render (trashPath.drop service.vault.root.length))))
            (finish (crudError relativePath "Failed to move note to trash".toList)))) revision) := by
  apply Follows.ifUnchanged_self
  apply Follows.released
  apply Follows.quiet
  · intro path observer same
    cases same
  · exact .whether (.finished _) (.finished _)

theorem follows_chooseTrashPath (relativePath : Text) (filePath trashPath : Location Text)
    {revision : Option FileRevision} (present : revision.isSome = true) (uniqueIds : List Text) :
    ∀ final, Follows filePath (.choosing revision)
      (chooseTrashPath relativePath trashPath
        (service.moveToTrash relativePath filePath revision) uniqueIds final) := by
  induction uniqueIds with
  | nil =>
      intro final
      apply Follows.candidate present
      · exact .settled rfl
      · rfl
      · exact Follows.writeConflict_noticed relativePath
      · exact follows_moveToTrash relativePath filePath final revision
  | cons uniqueId rest ih =>
      intro final
      apply Follows.candidate present
      · unfold whether
        rw [if_pos rfl]
        split
        · exact .settled rfl
        · exact ih _
      · rfl
      · exact Follows.writeConflict_noticed relativePath
      · exact follows_moveToTrash relativePath filePath final revision

theorem follows_deleteBody (relativePath : Text) (filePath : Location Text) :
    Follows filePath .idle (service.deleteBody supply relativePath filePath) := by
  apply Follows.captureRevision rfl
  intro revision present
  apply Follows.proceed
  intro trashDir
  apply Follows.makeFolders
  apply Follows.proceed
  intro trashPath
  apply Follows.makeFolders
  exact .chooses (follows_chooseTrashPath relativePath filePath trashPath present _ _)

theorem follows_moveBody (fromPath toPath : Text) (fromFile toFile : Location Text) :
    Follows fromFile .idle (moveBody fromPath toPath fromFile toFile) := by
  apply Follows.captureRevision rfl
  intro revision present
  have free : Follows fromFile (.watching revision)
      (makeFolders toFile.dropLast
        (checkRevision fromFile fromPath revision
          (.ask (.fileRevision toFile .presence)
            (moveIfFree fromPath toPath fromFile toFile)))) := by
    apply Follows.makeFolders
    apply Follows.chooses
    apply Follows.check (Follows.writeConflict_noticed fromPath)
    apply Follows.ifUnchanged_self
    -- the source is not looked at again
    apply Follows.released
    apply Follows.quiet
    · intro path observer same
      cases same
      rfl
    · intro destination
      unfold moveIfFree
      split
      · exact .finished _
      · apply Follows.quiet
        · intro path observer same
          cases same
        · exact .whether (.finished _) (.finished _)
  by_cases same : fromFile = toFile
  · rw [same] at free ⊢
    apply Follows.occupied present
    · exact fun _revision => ⟨_, rfl, rfl⟩
    · exact free
  · apply Follows.elsewhere
    · exact fun inside => same (List.mem_singleton.mp inside)
    · intro path observer isQuestion
      cases isQuestion
      rfl
    · intro destination
      cases destination with
      | none => exact free
      | some found => exact .settled rfl

theorem follows_validated {relativePath : Text} {resolved : Except PyError (Location Text)}
    {body : Location Text → CrudProgram}
    (follows : ∀ filePath, Follows filePath .idle (body filePath)) :
    ∃ filePath, Follows filePath .idle (service.validated relativePath resolved body).body := by
  unfold validated
  cases resolved with
  | error error => exact ⟨[], .settled rfl⟩
  | ok filePath =>
      refine ⟨filePath, ?_⟩
      dsimp only
      unfold locked
      cases service.lockPath with
      | error error => exact .settled rfl
      | ok _made => exact follows filePath

theorem follows_moveNote (fromPath toPath : Text) :
    ∃ filePath, Follows filePath .idle (service.moveNote fromPath toPath).body := by
  unfold moveNote
  cases service.validateForMove fromPath toPath with
  | error error => exact ⟨[], .settled rfl⟩
  | ok _checked =>
      dsimp only
      split
      · exact ⟨[], .settled rfl⟩
      · unfold moveResolved
        split
        · exact ⟨[], .settled rfl⟩
        case h_2 fromFile toFile _resolved =>
          refine ⟨fromFile, ?_⟩
          unfold locked
          cases service.lockPath with
          | error error => exact .settled rfl
          | ok _made => exact follows_moveBody fromPath toPath fromFile toFile

/-- Every operation captures the revision of one file at most. -/
theorem follows_mutate (mutation : NoteMutation) :
    ∃ filePath, Follows filePath .idle (service.mutate supply mutation).body := by
  cases mutation with
  | writeNote relativePath content =>
      exact follows_validated (follows_writeBody relativePath content supply.stamp)
  | appendNote relativePath content separator =>
      exact follows_validated (follows_appendBody relativePath content separator supply.stamp)
  | updateFrontmatter relativePath metadata merge validateSchema =>
      exact follows_validated
        (follows_updateBody relativePath metadata merge validateSchema supply.stamp)
  | enrichNoteFrontmatterRequired relativePath validateSchema =>
      unfold mutate enrichNoteFrontmatterRequired
      dsimp only
      split
      · exact ⟨[], .settled rfl⟩
      · exact follows_validated (follows_enrichBody relativePath validateSchema supply.stamp)
  | ensureNoteId relativePath validateSchema =>
      unfold mutate ensureNoteId
      dsimp only
      split
      · exact ⟨[], .settled rfl⟩
      · exact follows_validated (follows_ensureNoteIdLocked relativePath validateSchema)
  | deleteNote relativePath => exact follows_validated (follows_deleteBody relativePath)
  | moveNote fromPath toPath => exact follows_moveNote fromPath toPath

end CrudService

/-! ### A change in the middle of an operation -/

/-- After so many questions the revision of the file is captured, and a check of it is still
to come before it is captured anew. -/
structure InWindow (host : Host) (program : CrudProgram) (files : Files) (count : Nat)
    (filePath : Location Text) : Prop where
  captured : .fileRevision filePath .capture ∈
    (program.questions (fileStorage host) files).take count
  checked : ∃ observer, nextObserver filePath
    ((program.questions (fileStorage host) files).drop count) = some observer ∧
      observer ≠ .capture

/-- The state of the files when the change happens. -/
def filesAt (host : Host) (program : CrudProgram) (files : Files) (count : Nat) : Files :=
  (program.advance (fileStorage host) count files).2

/-- The run in which the file is changed after so many questions. -/
def changedRun (host : Host) (program : CrudProgram) (files : Files) (count : Nat)
    (filePath : Location Text) (changed : Option NoteFile) : CrudOutcome × Files :=
  program.interrupted (fileStorage host) count
    (fun here => Function.update here filePath changed) files

theorem changedRun_respects_iff {host : Host} {service : CrudService} {supply : Supply}
    {mutation : NoteMutation} {files : Files} {count : Nat} {filePath : Location Text}
    {changed : Option NoteFile}
    (window : InWindow host (service.mutate supply mutation).body files count filePath)
    (altered : revisionOf changed ≠
      revisionOf (filesAt host (service.mutate supply mutation).body files count filePath)) :
    (changedRun host (service.mutate supply mutation).body files count filePath changed).2
        filePath = changed ∧
      (Follows.Respects filePath changed
          (changedRun host (service.mutate supply mutation).body files count filePath changed) ↔
        Follows.Noticeable filePath
          (((service.mutate supply mutation).body.questions (fileStorage host) files).drop count)
          changed) := by
  obtain ⟨target, follows⟩ := @CrudService.follows_mutate service supply mutation
  have isTarget : filePath = target :=
    Follows.captured_self follows (List.mem_of_mem_take window.captured)
  subst isTarget
  obtain ⟨observer, found, isCheck⟩ := window.checked
  unfold changedRun Dialogue.interrupted
  unfold filesAt at altered
  rw [← Dialogue.questions_advance] at found ⊢
  obtain ⟨later, here, fits⟩ := @Follows.advance _ host count _ _ _ follows trivial
  generalize Dialogue.advance (fileStorage host) count (service.mutate supply mutation).body
    files = moment at *
  have apart : Follows.Apart filePath moment.2 (Function.update moment.2 filePath changed) :=
    fun other different => (Function.update_of_ne different _ _).symm
  have isChanged : Function.update moment.2 filePath changed filePath = changed :=
    Function.update_self filePath changed moment.2
  have watched : ∀ captured, Follows filePath (.watching captured) moment.1 →
      revisionOf (moment.2 filePath) = captured →
        (moment.1.run (fileStorage host) (Function.update moment.2 filePath changed)).2 filePath =
            changed ∧
          (Follows.Respects filePath changed
              (moment.1.run (fileStorage host) (Function.update moment.2 filePath changed)) ↔
            Follows.Noticeable filePath (moment.1.questions (fileStorage host) moment.2)
              changed) := by
    intro captured watching fitting
    rw [← isChanged, fitting] at altered
    have outcome := Follows.watching_changed watching rfl fitting altered apart found isCheck
    rw [isChanged] at outcome
    exact outcome
  cases later with
  | idle => exact absurd (Follows.idle_observer here rfl found) isCheck
  | watching captured => exact watched captured here fits
  | choosing captured => exact watched captured (.chooses here) fits
  | writing captured => exact watched captured (.writes here) fits

/-! ### The vault with one note -/

def notePath : Location Text := ["vault".toList, "a.md".toList]

def plainService : CrudService :=
  { vault := oneNoteVault
    env := Env.plain
    validator :=
      { config := {}
        lower := Env.plain.lower
        coerce := fun _schema value => .ok (value, none)
        generated := fun _field => .null }
    provide := fun _path _body _frontmatter _missing => .failed [] }

def plainSupply : Supply :=
  { uuid := "0198".toList
    uniqueIds := fun _attempt => "ab12cd34".toList
    stamp := { inode := 7, mtimeNs := 300 } }

/-- The note with this text, and nothing else. -/
def noteFiles (text : Text) (inode mtimeNs : Nat) : Files := fun place =>
  if place = notePath then
    some { text := .ok text, revision := { inode, mtimeNs, size := utf8Length text } }
  else none

/-- A note that is replaced while it is being deleted stays. -/
theorem changedRun_respects_delete :
    Follows.Respects notePath (noteFiles "new".toList 2 200 notePath)
      (changedRun {} (plainService.mutate plainSupply (.deleteNote "a.md".toList)).body
        (noteFiles "old".toList 1 100) 1 notePath (noteFiles "new".toList 2 200 notePath)) := by
  have window : InWindow {} (plainService.mutate plainSupply (.deleteNote "a.md".toList)).body
      (noteFiles "old".toList 1 100) 1 notePath := by
    constructor
    · decide
    · exact ⟨.operation, by decide, by decide⟩
  have respects := @changedRun_respects_iff {} plainService plainSupply
    (.deleteNote "a.md".toList) (noteFiles "old".toList 1 100) 1 notePath
    (noteFiles "new".toList 2 200 notePath) window (by decide)
  apply respects.2.mpr
  constructor
  · decide
  · intro _reads
    exact ⟨"new".toList, by rfl⟩

/-- A note that is replaced while it is being overwritten stays, but the result has no error
code. -/
theorem writeNote_reports_no_code :
    InWindow {} (plainService.mutate plainSupply (.writeNote "a.md".toList "mine".toList)).body
        (noteFiles "old".toList 1 100) 1 notePath ∧
      revisionOf (noteFiles "new".toList 2 200 notePath) ≠
        revisionOf (filesAt {}
          (plainService.mutate plainSupply (.writeNote "a.md".toList "mine".toList)).body
          (noteFiles "old".toList 1 100) 1 notePath) ∧
      ¬ Follows.Respects notePath (noteFiles "new".toList 2 200 notePath)
        (changedRun {}
          (plainService.mutate plainSupply (.writeNote "a.md".toList "mine".toList)).body
          (noteFiles "old".toList 1 100) 1 notePath (noteFiles "new".toList 2 200 notePath)) := by
  refine ⟨?_, by decide, ?_⟩
  · constructor
    · decide
    · exact ⟨.safeWrite, by decide, by decide⟩
  · intro respects
    have uncoded : isWriteConflict (changedRun {}
        (plainService.mutate plainSupply (.writeNote "a.md".toList "mine".toList)).body
        (noteFiles "old".toList 1 100) 1 notePath (noteFiles "new".toList 2 200 notePath)).1 =
          false := by decide
    have coded := respects.2
    rw [uncoded] at coded
    cases coded

end VaultSearch
