/-
The file system under `crud/`: the questions that the write operations ask it, one
system call after the other, and what they do to the files.

Folders and links stay as they are, so that a place is where a resolved path leads.  The
files themselves are cells that may change between two questions.  An entry that is there
but cannot be opened or decoded keeps its revision.  The temporary file, its recovery folder
and the lock files have names of their own and are left out.
-/

import Mathlib.Logic.Function.Basic
import VaultSearch.Crud.LinkedVault
import VaultSearch.Store.Dialogue

set_option autoImplicit false

namespace VaultSearch

open Symlinks

structure FileRevision where
  inode : Nat
  mtimeNs : Nat
  size : Nat
  deriving DecidableEq

structure NoteFile where
  /-- the decoded bytes before newline translation, or why there are none -/
  text : Except PyError Text
  revision : FileRevision

abbrev Files := Location Text → Option NoteFile

/-- What the answer of `file_revision` is used for. -/
inductive Observer where
  /-- to be compared with a later answer -/
  | capture
  /-- the operation compares it with the captured one -/
  | operation
  /-- `safe_write_text` compares it with the captured one -/
  | safeWrite
  /-- only whether there is a file -/
  | presence
  deriving DecidableEq

/-- The inode and the mtime that a new file gets. -/
structure Stamp where
  inode : Nat
  mtimeNs : Nat
  deriving DecidableEq

inductive FileRequest where
  /-- `file_revision` -/
  | fileRevision (filePath : Location Text) (observer : Observer)
  /-- `resolve(strict=True)` and `read_text` of `safe_read_text` -/
  | readText (filePath : Location Text)
  /-- `Path.exists` -/
  | pathExists (filePath : Location Text)
  /-- `mkdir` of a folder and its parents -/
  | makeFolders (folder : Location Text)
  /-- `resolve(strict=True)` and `stat` of `safe_write_text` -/
  | statMode (filePath : Location Text)
  /-- the temporary file of `safe_write_text` -/
  | writeTemporary (filePath : Location Text)
  /-- `os.replace` of the file by the temporary one -/
  | replace (filePath : Location Text) (content : Text) (stamp : Stamp)
  /-- `shutil.move` -/
  | move (source destination : Location Text)
  deriving DecidableEq

def FileRequest.Response : FileRequest → Type
  | .fileRevision _ _ => Option FileRevision
  | .readText _ => Except PyError Text
  | .pathExists _ => Bool
  | .makeFolders _ => Except PyError Unit
  | .statMode _ => Bool
  | .writeTemporary _ => Bool
  | .replace _ _ _ => Bool
  | .move _ _ => Bool

/-- What the operating system lets the program do. -/
structure Host where
  makesFolders : Location Text → Except PyError Unit := fun _ => .ok ()
  writesTemporary : Location Text → Bool := fun _ => true
  replaces : Location Text → Bool := fun _ => true
  moves : Location Text → Location Text → Bool := fun _ _ => true

def NoteFile.read (file : NoteFile) : Except PyError Text :=
  file.text.map Text.universalNewlines

/-- `read_text` of a path. -/
def readFile (found : Option NoteFile) : Except PyError Text :=
  match found with
  | none => .error .osError
  | some file => file.read

def writtenFile (content : Text) (stamp : Stamp) : NoteFile :=
  { text := .ok content
    revision := { inode := stamp.inode, mtimeNs := stamp.mtimeNs, size := utf8Length content } }

def moveFile (files : Files) (source destination : Location Text) (moved : NoteFile) : Files :=
  Function.update (Function.update files source none) destination (some moved)

def performReplace (host : Host) (filePath : Location Text) (content : Text) (stamp : Stamp)
    (files : Files) : Bool × Files :=
  if host.replaces filePath then
    (true, Function.update files filePath (some (writtenFile content stamp)))
  else (false, files)

def performMove (host : Host) (source destination : Location Text) (files : Files) :
    Bool × Files :=
  match files source with
  | none => (false, files)
  | some moved =>
      if host.moves source destination then (true, moveFile files source destination moved)
      else (false, files)

def performRequest (host : Host) : (question : FileRequest) → Files → question.Response × Files
  | .fileRevision filePath _, files => ((files filePath).map NoteFile.revision, files)
  | .readText filePath, files => (readFile (files filePath), files)
  | .pathExists filePath, files => ((files filePath).isSome, files)
  | .makeFolders folder, files => (host.makesFolders folder, files)
  | .statMode filePath, files => ((files filePath).isSome, files)
  | .writeTemporary filePath, files => (host.writesTemporary filePath, files)
  | .replace filePath content stamp, files => performReplace host filePath content stamp files
  | .move source destination, files => performMove host source destination files

theorem performReplace_untouched (host : Host) (filePath : Location Text) (content : Text)
    (stamp : Stamp) (files : Files) (other : Location Text) (outside : other ≠ filePath) :
    (performReplace host filePath content stamp files).2 other = files other := by
  unfold performReplace
  split
  · exact Function.update_of_ne outside _ _
  · rfl

theorem performMove_untouched (host : Host) (source destination : Location Text) (files : Files)
    (other : Location Text) (notSource : other ≠ source) (notDestination : other ≠ destination) :
    (performMove host source destination files).2 other = files other := by
  unfold performMove
  split
  · rfl
  · split
    · unfold moveFile
      dsimp only
      rw [Function.update_of_ne notDestination, Function.update_of_ne notSource]
    · rfl

theorem performReplace_depends (host : Host) (filePath : Location Text) (content : Text)
    (stamp : Stamp) (files files' : Files) (agree : files filePath = files' filePath) :
    (performReplace host filePath content stamp files).1 =
        (performReplace host filePath content stamp files').1 ∧
      (performReplace host filePath content stamp files).2 filePath =
        (performReplace host filePath content stamp files').2 filePath := by
  unfold performReplace
  split
  · dsimp only
    rw [Function.update_self, Function.update_self]
    exact ⟨rfl, rfl⟩
  · exact ⟨rfl, agree⟩

theorem moveFile_agree {files files' : Files} {source destination : Location Text}
    (moved : NoteFile) (here : Location Text) (agree : files here = files' here) :
    moveFile files source destination moved here = moveFile files' source destination moved here := by
  unfold moveFile
  by_cases atDestination : here = destination
  · rw [atDestination, Function.update_self, Function.update_self]
  · rw [Function.update_of_ne atDestination, Function.update_of_ne atDestination]
    by_cases atSource : here = source
    · rw [atSource, Function.update_self, Function.update_self]
    · rw [Function.update_of_ne atSource, Function.update_of_ne atSource]
      exact agree

theorem performMove_depends (host : Host) (source destination : Location Text)
    (files files' : Files) (agreeSource : files source = files' source) :
    (performMove host source destination files).1 =
        (performMove host source destination files').1 ∧
      ∀ here, files here = files' here →
        (performMove host source destination files).2 here =
          (performMove host source destination files').2 here := by
  unfold performMove
  rw [agreeSource]
  split
  · exact ⟨rfl, fun _here agree => agree⟩
  · split
    · exact ⟨rfl, moveFile_agree _⟩
    · exact ⟨rfl, fun _here agree => agree⟩

def FileRequest.places : FileRequest → List (Location Text)
  | .fileRevision filePath _ => [filePath]
  | .readText filePath => [filePath]
  | .pathExists filePath => [filePath]
  | .makeFolders _ => []
  | .statMode filePath => [filePath]
  | .writeTemporary _ => []
  | .replace filePath _ _ => [filePath]
  | .move source destination => [source, destination]

theorem performRequest_untouched (host : Host) (question : FileRequest) (files : Files)
    (other : Location Text) (outside : other ∉ question.places) :
    (performRequest host question files).2 other = files other := by
  cases question with
  | replace filePath content stamp =>
      apply performReplace_untouched
      exact fun same => outside (by rw [same]; exact List.mem_cons_self)
  | move source destination =>
      apply performMove_untouched
      · exact fun same => outside (by rw [same]; exact List.mem_cons_self)
      · exact fun same => outside (by rw [same]; exact List.mem_cons_of_mem _ List.mem_cons_self)
  | fileRevision filePath observer => rfl
  | readText filePath => rfl
  | pathExists filePath => rfl
  | makeFolders folder => rfl
  | statMode filePath => rfl
  | writeTemporary filePath => rfl

theorem performRequest_depends (host : Host) (question : FileRequest) (files files' : Files)
    (agree : ∀ here ∈ question.places, files here = files' here) :
    (performRequest host question files).1 = (performRequest host question files').1 ∧
      ∀ here ∈ question.places,
        (performRequest host question files).2 here =
          (performRequest host question files').2 here := by
  cases question with
  | replace filePath content stamp =>
      obtain ⟨sameAnswer, sameThere⟩ := performReplace_depends host filePath content stamp files
        files' (agree filePath List.mem_cons_self)
      refine ⟨sameAnswer, ?_⟩
      intro here member
      rw [List.mem_singleton.mp member]
      exact sameThere
  | move source destination =>
      obtain ⟨sameAnswer, sameThere⟩ := performMove_depends host source destination files files'
        (agree source List.mem_cons_self)
      exact ⟨sameAnswer, fun here member => sameThere here (agree here member)⟩
  | fileRevision filePath observer =>
      exact ⟨congrArg (Option.map NoteFile.revision) (agree filePath List.mem_cons_self), agree⟩
  | readText filePath =>
      exact ⟨congrArg readFile (agree filePath List.mem_cons_self), agree⟩
  | pathExists filePath =>
      exact ⟨congrArg Option.isSome (agree filePath List.mem_cons_self), agree⟩
  | makeFolders folder => exact ⟨rfl, agree⟩
  | statMode filePath =>
      exact ⟨congrArg Option.isSome (agree filePath List.mem_cons_self), agree⟩
  | writeTemporary filePath => exact ⟨rfl, agree⟩

def fileStorage (host : Host) :
    Storage FileRequest FileRequest.Response (Location Text) (Option NoteFile) :=
  { perform := performRequest host
    places := FileRequest.places
    untouched := performRequest_untouched host
    depends := performRequest_depends host }

end VaultSearch
