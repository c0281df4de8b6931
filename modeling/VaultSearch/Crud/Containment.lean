/-
Which files the operations on vault-relative paths touch: the operations of `crud/`,
`reindex_note` and the upsert of the catalog, each as the list of the places it reads,
indexes or changes.

The path and the links decide where a call goes; what else decides how far it gets (the
content of the note, the schema, a concurrent change) is a `Course`.  The file system is a
single one, so that a move is a rename.  Where a walk fails the source may raise where the
model takes the file for missing; it then touches no more than the model.
-/

import VaultSearch.Crud.IgnoredFolders

set_option autoImplicit false

namespace VaultSearch

open Symlinks PurePath

inductive Access where
  /-- content or metadata of the file goes into the result -/
  | reads (place : Location Text)
  /-- content or metadata of the file goes into the index or the catalog -/
  | indexes (place : Location Text)
  /-- entries of the folder are made, replaced or removed -/
  | changes (folder : Location Text)
  deriving DecidableEq

def Access.place : Access → Location Text
  | .reads place => place
  | .indexes place => place
  | .changes folder => folder

/-- How a call goes on where its path and the links leave it open. -/
structure Course where
  /-- the content is readable and asks for a write -/
  persists : Bool := true
  /-- no external change is noticed before the replacement -/
  replaces : Bool := true
  /-- the circuit breaker lets the note pass -/
  breakerClosed : Bool := true
  /-- the parser succeeds on the file -/
  parses : Bool := true
  /-- the successive `uuid.uuid4().hex[:8]` -/
  uniqueIds : List Text := []

namespace LinkedVault

variable (vault : LinkedVault) (env : Env)

/-! ### Helpers of the operations -/

/-- `Path.exists` -/
def fileExists (filePath : Location Text) : Bool :=
  (vault.lands (enters filePath)).isSome

/-- The file that `open` reads. -/
def opens (path : List (Step Text)) : Option (Location Text) :=
  match vault.lands path with
  | none => none
  | some place => if vault.tree.node place = some .file then some place else none

def makeParents (folder : Location Text) : Option (Location Text) :=
  vault.tree.makeFolders (vault.maxLinks + 1) [] folder

/-- The folders that had to be made. -/
def madeFolders (folder : Location Text) : List Access :=
  if (vault.tree.node folder).isSome then [] else [.changes folder]

/-- `_lock_path`: the folder of the lock file. -/
def lockFolder (filePath : Location Text) : Option (Location Text) :=
  if vault.vaultRoot.isPrefixOf (vault.tree.realpath (enters filePath)) then
    match vault.resolveInternalPath [.enter ".vault-search-locks".toList] with
    | .error _ => none
    | .ok lockDir => vault.makeParents lockDir
  else none

/-- `with advisory_path_lock(file_path)`: the lock file is opened, then the body runs. -/
def locked (filePath : Location Text) (body : List Access) : List Access :=
  match vault.lockFolder filePath with
  | none => []
  | some folder => .changes folder :: body

/-- `safe_read_text`: what is read when it succeeds. -/
def safeReadText (filePath : Location Text) : Option (Location Text) :=
  match vault.opens (enters filePath) with
  | none => none
  | some place => if vault.vaultRoot.isPrefixOf place then some place else none

/-- The folder that takes the temporary file of a failed write. -/
def recoverTemporary : List Access :=
  match vault.resolveInternalPath [.enter ".trash".toList, .enter "write-failures".toList] with
  | .error _ => []
  | .ok recoveryDir =>
      match vault.makeParents recoveryDir with
      | none => []
      | some folder => [.changes folder]

/-- `safe_write_text`, where the folder of the file resolves to `parent`. -/
def safeWriteText (course : Course) (filePath parent : Location Text) : List Access :=
  if vault.vaultRoot.isPrefixOf parent then
    match vault.lands (enters filePath) with
    | none => writes
    | some place => if vault.vaultRoot.isPrefixOf place then writes else []
  else []
where
  writes : List Access :=
    .changes parent :: if course.replaces then [.changes parent] else vault.recoverTemporary

/-- The common end of `create_note` and `write_note`. -/
def makeAndWrite (course : Course) (filePath : Location Text) : List Access :=
  match vault.makeParents filePath.dropLast with
  | none => []
  | some parent => vault.madeFolders parent ++ vault.safeWriteText course filePath parent

/-- Read the note and, where its content asks for it, write it back. -/
def readAndWrite (course : Course) (filePath : Location Text) : List Access :=
  match vault.safeReadText filePath with
  | none => []
  | some place =>
      .reads place ::
        if course.persists then
          match vault.lands (enters filePath.dropLast) with
          | none => []
          | some parent => vault.safeWriteText course filePath parent
        else []

/-- `os.rename`, which refuses to move a folder into itself. -/
def rename (source destination : Location Text) : List Access :=
  if source.isPrefixOf destination then []
  else [.changes source.dropLast, .changes destination.dropLast]

/-! ### The operations of `crud/` -/

def readNote (relativePath : Text) : List Access :=
  match (do validateReadableText env relativePath; vault.resolvePath env relativePath) with
  | .error _ => []
  | .ok filePath => ((vault.opens (enters filePath)).map Access.reads).toList

def getNoteMetadata (relativePath : Text) : List Access :=
  match (do validateReadableText env relativePath; vault.resolvePath env relativePath) with
  | .error _ => []
  | .ok filePath => ((vault.opens (enters filePath)).map Access.reads).toList

/-- `_scandir_recursive`: folders and files below `start`, links left out. -/
def scandirRecursive (start : Location Text) (extension : Option Text) : List Access :=
  let wanted (entry : Location Text × Node Text) : Bool :=
    let name := entry.1.getLast?.getD []
    let ext := env.lower (splitext name).2
    start.isPrefixOf entry.1 && decide (entry.2 = .file) &&
      (entry.1.drop start.length).all (fun part => !env.config.ignoredFolders.contains part) &&
      env.config.extensions.contains ext && (extension.isNone || extension == some ext)
  (vault.tree.entries.filter wanted).map (fun entry => .reads entry.1)

/-- `list_notes` when the catalog is unavailable; the catalog itself touches no file. -/
def listNotes (folder extension : Option Text) : List Access :=
  match folder with
  | none => vault.scandirRecursive env vault.root extension
  | some name =>
      if !validateRelativePath name then []
      else if env.config.ignoredFolders.any (fun ignored => (parts name).contains ignored) then []
      else
        match vault.resolvePath env name with
        | .error _ => []
        | .ok startPath =>
            match vault.lands (enters startPath) with
            | none => []
            | some start => vault.scandirRecursive env start extension

def createNote (course : Course) (relativePath content : Text) (frontmatter : Mapping) :
    List Access :=
  match vault.validateForWrite env relativePath (some content) (some frontmatter) with
  | .error _ => []
  | .ok filePath =>
      vault.locked filePath
        (if vault.fileExists filePath then [] else vault.makeAndWrite course filePath)

def writeNote (course : Course) (relativePath content : Text) : List Access :=
  match vault.validateForWrite env relativePath (some content) none with
  | .error _ => []
  | .ok filePath => vault.locked filePath (vault.makeAndWrite course filePath)

def appendNote (course : Course) (relativePath content : Text) : List Access :=
  match vault.validateForWrite env relativePath (some content) none with
  | .error _ => []
  | .ok filePath => vault.locked filePath (vault.readAndWrite course filePath)

def updateFrontmatterFiles (course : Course) (relativePath : Text) (metadata : Mapping) :
    List Access :=
  match vault.validateForWrite env relativePath none (some metadata) with
  | .error _ => []
  | .ok filePath => vault.locked filePath (vault.readAndWrite course filePath)

/-- The note is read under one lock and, once the fields are generated, under another. -/
def enrichNoteFrontmatterRequired (course : Course) (relativePath : Text) : List Access :=
  if !Text.endsWith (env.lower relativePath) ".md".toList then []
  else
    match vault.resolvePath env relativePath with
    | .error _ => []
    | .ok filePath =>
        vault.locked filePath ((vault.safeReadText filePath).map Access.reads).toList ++
          if course.persists then vault.locked filePath (vault.readAndWrite course filePath)
          else []

def ensureNoteIdFiles (course : Course) (relativePath : Text) : List Access :=
  if !Text.endsWith (env.lower relativePath) ".md".toList then []
  else
    match vault.resolvePath env relativePath with
    | .error _ => []
    | .ok filePath => vault.locked filePath (vault.readAndWrite course filePath)

/-- `trash_path.with_stem(f"{trash_path.stem}_{unique_id}")`; a path without a name has no
stem. -/
def withUniqueStem (trashPath : Location Text) (uniqueId : Text) : Option (Location Text) :=
  trashPath.getLast?.map (fun name =>
    trashPath.dropLast ++ [(splitext name).1 ++ "_".toList ++ uniqueId ++ (splitext name).2])

/-- The loop over the names in the trash: the first that is free. -/
def freeTrashPath (trashPath : Location Text) :
    List Text → Location Text → Option (Location Text)
  | [], final => if vault.fileExists final then none else some final
  | uniqueId :: rest, final =>
      if vault.fileExists final then
        match withUniqueStem trashPath uniqueId with
        | none => none
        | some next => freeTrashPath trashPath rest next
      else some final

def maxAttempts : Nat := 10

/-- The path in the trash that `delete_note` resolves. -/
def trashPath (relativePath : Text) : Except PyError (Location Text) :=
  vault.resolveInternalPath (.enter ".trash".toList :: PurePath.steps relativePath)

/-- A free name is chosen and the note is moved to it. -/
def moveToTrash (course : Course) (filePath path : Location Text) : List Access :=
  match vault.makeParents path.dropLast with
  | none => []
  | some parent =>
      vault.madeFolders parent ++
        if course.replaces then
          ((vault.freeTrashPath path (course.uniqueIds.take (maxAttempts - 1)) path).map
            (rename filePath)).getD []
        else []

/-- `delete_note` under the lock: the trash is made, the path in it resolved. -/
def moveNoteToTrash (course : Course) (relativePath : Text) (filePath : Location Text) :
    List Access :=
  match vault.resolveInternalPath [.enter ".trash".toList] with
  | .error _ => []
  | .ok trashDir =>
      match vault.makeParents trashDir with
      | none => []
      | some madeTrash =>
          vault.madeFolders madeTrash ++
            match vault.trashPath relativePath with
            | .error _ => []
            | .ok path => vault.moveToTrash course filePath path

def deleteNote (course : Course) (relativePath : Text) : List Access :=
  match vault.validateForDelete env relativePath with
  | .error _ => []
  | .ok filePath =>
      vault.locked filePath
        (if vault.fileExists filePath then vault.moveNoteToTrash course relativePath filePath
        else [])

/-- The locks of both paths are taken, in an order that does not matter here. -/
def moveNote (course : Course) (fromPath toPath : Text) : List Access :=
  match vault.validateForMove env fromPath toPath with
  | .error _ => []
  | .ok (fromFile, toFile) =>
      vault.locked fromFile (vault.locked toFile
        (if !vault.fileExists fromFile || vault.fileExists toFile then []
        else
          match vault.makeParents toFile.dropLast with
          | none => []
          | some parent =>
              vault.madeFolders parent ++
                if course.replaces then rename fromFile toFile else []))

/-! ### The index and the catalog -/

/-- `VAULT_PATH / relative_path`, as the components after the leading slash. -/
def joinPath (relativePath : Text) : List Text :=
  if isAbsolute relativePath then parts relativePath else vault.root ++ parts relativePath

/-- The same path as the kernel takes it. -/
def joinSteps (relativePath : Text) : List (Step Text) :=
  if isAbsolute relativePath then PurePath.steps relativePath
  else enters vault.root ++ PurePath.steps relativePath

/-- The checks of `reindex_note`, which never resolve the path. -/
def reindexAdmits (course : Course) (relativePath : Text) : Bool :=
  validateRelativePath relativePath &&
    env.config.extensions.contains (env.lower (suffix relativePath)) && course.breakerClosed

/-- `reindex_note`: an id is added through `ensure_note_id`, then the file is parsed and its
records are stored. -/
def reindexNoteFiles (course : Course) (autoGenerateId : Bool) (relativePath : Text) :
    List Access :=
  if reindexAdmits env course relativePath then
    if (vault.lands (vault.joinSteps relativePath)).isSome then
      (if autoGenerateId && env.lower (suffix relativePath) == ".md".toList then
        vault.ensureNoteIdFiles env course relativePath
      else []) ++
        match vault.opens (vault.joinSteps relativePath) with
        | none => []
        | some place => .reads place :: if course.parses then [.indexes place] else []
    else []
  else []

/-- The checks of `upsert` on the joined path: its extension, and that it is below
`VAULT_PATH` as it is written.  Two leading slashes make another root. -/
def upsertAdmits (relativePath : Text) : Bool :=
  let joined := vault.joinPath relativePath
  env.config.extensions.contains (env.lower (splitext (joined.getLast?.getD [])).2) &&
    !(Text.startsWith relativePath "//".toList && !Text.startsWith relativePath "///".toList) &&
    vault.root.isPrefixOf joined.dropLast

def catalogUpsert (relativePath : Text) : List Access :=
  match vault.lands (vault.joinSteps relativePath) with
  | none => []
  | some place => if vault.upsertAdmits env relativePath then [.indexes place] else []

end LinkedVault

/-- The operations that take a vault-relative path. -/
inductive PathOperation where
  | readNote (relativePath : Text)
  | getNoteMetadata (relativePath : Text)
  | listNotes (folder extension : Option Text)
  | createNote (relativePath content : Text) (frontmatter : Mapping)
  | writeNote (relativePath content : Text)
  | appendNote (relativePath content : Text)
  | updateFrontmatter (relativePath : Text) (metadata : Mapping)
  | enrichNoteFrontmatterRequired (relativePath : Text)
  | ensureNoteId (relativePath : Text)
  | deleteNote (relativePath : Text)
  | moveNote (fromPath toPath : Text)
  | reindexNote (relativePath : Text) (autoGenerateId : Bool)
  | catalogUpsert (relativePath : Text)

namespace LinkedVault

variable (vault : LinkedVault) (env : Env)

def accesses (course : Course) : PathOperation → List Access
  | .readNote relativePath => vault.readNote env relativePath
  | .getNoteMetadata relativePath => vault.getNoteMetadata env relativePath
  | .listNotes folder extension => vault.listNotes env folder extension
  | .createNote relativePath content frontmatter =>
      vault.createNote env course relativePath content frontmatter
  | .writeNote relativePath content => vault.writeNote env course relativePath content
  | .appendNote relativePath content => vault.appendNote env course relativePath content
  | .updateFrontmatter relativePath metadata =>
      vault.updateFrontmatterFiles env course relativePath metadata
  | .enrichNoteFrontmatterRequired relativePath =>
      vault.enrichNoteFrontmatterRequired env course relativePath
  | .ensureNoteId relativePath => vault.ensureNoteIdFiles env course relativePath
  | .deleteNote relativePath => vault.deleteNote env course relativePath
  | .moveNote fromPath toPath => vault.moveNote env course fromPath toPath
  | .reindexNote relativePath autoGenerateId =>
      vault.reindexNoteFiles env course autoGenerateId relativePath
  | .catalogUpsert relativePath => vault.catalogUpsert env relativePath

/-- Every place is in the vault. -/
def Contained (touched : List Access) : Prop :=
  ∀ access ∈ touched, vault.root <+: access.place

instance (touched : List Access) : Decidable (vault.Contained touched) :=
  inferInstanceAs (Decidable (∀ access ∈ touched, _))

/-! ### When a call stays in the vault -/

/-- The trash resolves to a folder of the vault that is there or can be made. -/
def trashReady : Bool :=
  match vault.resolveInternalPath [.enter ".trash".toList] with
  | .error _ => false
  | .ok trashDir => (vault.makeParents trashDir).isSome

/-- `delete_note` comes to choosing a name in the trash. -/
def choosesTrashName (course : Course) (relativePath : Text) : Bool :=
  match vault.validateForDelete env relativePath with
  | .error _ => false
  | .ok filePath =>
      (vault.lockFolder filePath).isSome && vault.fileExists filePath && vault.trashReady &&
        course.replaces

/-- The operations that resolve the path stay in the vault, except for a deletion whose path
in the trash leads back to the vault root: a unique name is then looked for beside the vault.
`reindex_note` and `upsert` go where the kernel takes the joined path. -/
def StaysInside (course : Course) : PathOperation → Prop
  | .reindexNote relativePath _ =>
      reindexAdmits env course relativePath = true →
        ∀ place, vault.opens (vault.joinSteps relativePath) = some place → vault.root <+: place
  | .catalogUpsert relativePath =>
      vault.upsertAdmits env relativePath = true →
        ∀ place, vault.lands (vault.joinSteps relativePath) = some place → vault.root <+: place
  | .deleteNote relativePath =>
      vault.choosesTrashName env course relativePath = true →
        vault.trashPath relativePath = .ok vault.root →
          vault.freeTrashPath vault.root (course.uniqueIds.take (maxAttempts - 1)) vault.root = none
  | _ => True

variable {vault env}

theorem contained_nil : vault.Contained [] := by
  intro access member
  cases member

theorem contained_cons {first : Access} {rest : List Access} (inside : vault.root <+: first.place)
    (others : vault.Contained rest) : vault.Contained (first :: rest) := by
  intro access member
  cases List.mem_cons.mp member with
  | inl same =>
      rw [same]
      exact inside
  | inr later => exact others access later

theorem contained_append {first second : List Access} (before : vault.Contained first)
    (behind : vault.Contained second) : vault.Contained (first ++ second) := by
  intro access member
  cases List.mem_append.mp member with
  | inl early => exact before access early
  | inr late => exact behind access late

/-- The parent of a place below the root is in the vault. -/
theorem inside_dropLast {place : Location Text} (inside : vault.root <+: place)
    (below : place ≠ vault.root) : vault.root <+: place.dropLast := by
  obtain ⟨rest, shape⟩ := inside
  have filled : rest ≠ [] := by
    intro empty
    rw [empty, List.append_nil] at shape
    exact below shape.symm
  rw [← shape, List.dropLast_append_of_ne_nil filled]
  exact List.prefix_append _ _

theorem settled_of_ok {parts : List (Step Text)} {location : Location Text}
    (resolved : vault.resolveInternalPath parts = .ok location) : vault.tree.Settled location := by
  rw [(resolveInternalPath_ok resolved).1]
  exact FileTree.realpath_settled _

theorem makeParents_eq {folder made : Location Text} (settled : vault.tree.Settled folder)
    (found : vault.makeParents folder = some made) : made = folder :=
  FileTree.makeFolders_settled vault.tree.node_nil settled found

/-- Folders are made at most down to the parent of a place in the vault. -/
theorem contained_madeParent {place : Location Text} (inside : vault.root <+: place) :
    vault.Contained (vault.madeFolders place.dropLast) := by
  unfold madeFolders
  split
  case isTrue => exact contained_nil
  case isFalse missing =>
    apply contained_cons _ contained_nil
    apply inside_dropLast inside
    intro same
    have parent := vault.tree.parent_directory (@root_real vault).1
    rw [same, parent] at missing
    exact missing rfl

theorem contained_madeFolder {folder : Location Text} (inside : vault.root <+: folder) :
    vault.Contained (vault.madeFolders folder) := by
  unfold madeFolders
  split
  · exact contained_nil
  · exact contained_cons inside contained_nil

theorem contained_locked {filePath : Location Text} {body : List Access}
    (others : vault.Contained body) : vault.Contained (vault.locked filePath body) := by
  unfold locked
  cases found : vault.lockFolder filePath with
  | none => exact contained_nil
  | some folder =>
      apply contained_cons _ others
      unfold lockFolder at found
      split at found
      case isFalse => cases found
      case isTrue =>
        split at found
        case h_1 => cases found
        case h_2 lockDir resolved =>
          rw [Access.place, makeParents_eq (settled_of_ok resolved) found]
          exact (resolveInternalPath_ok resolved).2

theorem contained_recoverTemporary : vault.Contained vault.recoverTemporary := by
  unfold recoverTemporary
  split
  case h_1 => exact contained_nil
  case h_2 recoveryDir resolved =>
    split
    case h_1 => exact contained_nil
    case h_2 folder made =>
      apply contained_cons _ contained_nil
      rw [Access.place, makeParents_eq (settled_of_ok resolved) made]
      exact (resolveInternalPath_ok resolved).2

theorem contained_safeWriteText (course : Course) (filePath parent : Location Text) :
    vault.Contained (vault.safeWriteText course filePath parent) := by
  unfold safeWriteText
  rw [vaultRoot_eq]
  split
  case isFalse => exact contained_nil
  case isTrue inside =>
    have parentInside := List.isPrefixOf_iff_prefix.mp inside
    have written : vault.Contained (safeWriteText.writes vault course parent) := by
      unfold safeWriteText.writes
      apply contained_cons parentInside
      split
      · exact contained_cons parentInside contained_nil
      · exact contained_recoverTemporary
    split
    · exact written
    · split
      · exact written
      · exact contained_nil

theorem contained_makeAndWrite (course : Course) {parts : List (Step Text)}
    {filePath : Location Text} (resolved : vault.resolveInternalPath parts = .ok filePath) :
    vault.Contained (vault.makeAndWrite course filePath) := by
  unfold makeAndWrite
  split
  case h_1 => exact contained_nil
  case h_2 parent made =>
    rw [makeParents_eq (settled_of_ok resolved).dropLast made]
    exact contained_append (contained_madeParent (resolveInternalPath_ok resolved).2)
      (contained_safeWriteText course _ _)

theorem safeReadText_inside {filePath place : Location Text}
    (found : vault.safeReadText filePath = some place) : vault.root <+: place := by
  unfold safeReadText at found
  rw [vaultRoot_eq] at found
  split at found
  case h_1 => cases found
  case h_2 opened =>
    split at found
    case isTrue inside =>
      cases found
      exact List.isPrefixOf_iff_prefix.mp inside
    case isFalse => cases found

theorem contained_readAndWrite (course : Course) (filePath : Location Text) :
    vault.Contained (vault.readAndWrite course filePath) := by
  unfold readAndWrite
  split
  case h_1 => exact contained_nil
  case h_2 place found =>
    apply contained_cons (safeReadText_inside found)
    split
    · split
      · exact contained_nil
      · exact contained_safeWriteText course _ _
    · exact contained_nil

theorem contained_rename {source destination : Location Text} (sourceInside : vault.root <+: source)
    (inside : vault.root <+: destination) (below : destination ≠ vault.root) :
    vault.Contained (rename source destination) := by
  unfold rename
  split
  case isTrue => exact contained_nil
  case isFalse apart =>
    have sourceBelow : source ≠ vault.root := by
      intro same
      apply apart
      rw [same]
      exact List.isPrefixOf_iff_prefix.mpr inside
    exact contained_cons (inside_dropLast sourceInside sourceBelow)
      (contained_cons (inside_dropLast inside below) contained_nil)

/-! ### The operations -/

theorem opens_lands {path : List (Step Text)} {place : Location Text}
    (found : vault.opens path = some place) : vault.lands path = some place := by
  unfold opens at found
  split at found
  case h_1 => cases found
  case h_2 reached landed =>
    split at found
    · cases found
      exact landed
    · cases found

theorem contained_opened {parts : List (Step Text)} {filePath : Location Text}
    (resolved : vault.resolveInternalPath parts = .ok filePath) :
    vault.Contained ((vault.opens (enters filePath)).map Access.reads).toList := by
  cases opened : vault.opens (enters filePath) with
  | none => exact contained_nil
  | some place =>
      exact contained_cons (resolveInternalPath_lands resolved (opens_lands opened)).2 contained_nil

theorem contained_readNote (relativePath : Text) :
    vault.Contained (vault.readNote env relativePath) := by
  unfold readNote
  split
  case h_1 => exact contained_nil
  case h_2 filePath validated =>
    obtain ⟨_, _readable, resolved⟩ := bind_ok validated
    exact contained_opened (resolvePath_ok resolved)

theorem contained_getNoteMetadata (relativePath : Text) :
    vault.Contained (vault.getNoteMetadata env relativePath) :=
  contained_readNote relativePath

theorem contained_scandirRecursive {start : Location Text} (inside : vault.root <+: start)
    (extension : Option Text) : vault.Contained (vault.scandirRecursive env start extension) := by
  intro access member
  obtain ⟨entry, kept, same⟩ := List.mem_map.mp member
  have wanted := (List.mem_filter.mp kept).2
  simp only [Bool.and_eq_true] at wanted
  rw [← same]
  exact inside.trans (List.isPrefixOf_iff_prefix.mp wanted.1.1.1.1)

theorem contained_listNotes (folder extension : Option Text) :
    vault.Contained (vault.listNotes env folder extension) := by
  unfold listNotes
  split
  · exact contained_scandirRecursive (List.prefix_refl _) extension
  · split
    · exact contained_nil
    · split
      · exact contained_nil
      · split
        case h_1 => exact contained_nil
        case h_2 startPath resolved =>
          split
          case h_1 => exact contained_nil
          case h_2 start landed =>
            exact contained_scandirRecursive
              (resolveInternalPath_lands (resolvePath_ok resolved) landed).2 extension

theorem contained_createNote (course : Course) (relativePath content : Text)
    (frontmatter : Mapping) :
    vault.Contained (vault.createNote env course relativePath content frontmatter) := by
  unfold createNote
  split
  case h_1 => exact contained_nil
  case h_2 filePath validated =>
    apply contained_locked
    split
    · exact contained_nil
    · exact contained_makeAndWrite course (resolvePath_ok (validateForWrite_ok validated).2)

theorem contained_writeNote (course : Course) (relativePath content : Text) :
    vault.Contained (vault.writeNote env course relativePath content) := by
  unfold writeNote
  split
  case h_1 => exact contained_nil
  case h_2 filePath validated =>
    apply contained_locked
    exact contained_makeAndWrite course (resolvePath_ok (validateForWrite_ok validated).2)

theorem contained_appendNote (course : Course) (relativePath content : Text) :
    vault.Contained (vault.appendNote env course relativePath content) := by
  unfold appendNote
  split
  · exact contained_nil
  · exact contained_locked (contained_readAndWrite course _)

theorem contained_updateFrontmatter (course : Course) (relativePath : Text) (metadata : Mapping) :
    vault.Contained (vault.updateFrontmatterFiles env course relativePath metadata) := by
  unfold updateFrontmatterFiles
  split
  · exact contained_nil
  · exact contained_locked (contained_readAndWrite course _)

theorem contained_enrich (course : Course) (relativePath : Text) :
    vault.Contained (vault.enrichNoteFrontmatterRequired env course relativePath) := by
  unfold enrichNoteFrontmatterRequired
  split
  · exact contained_nil
  · split
    case h_1 => exact contained_nil
    case h_2 filePath resolved =>
      apply contained_append
      · apply contained_locked
        cases found : vault.safeReadText filePath with
        | none => exact contained_nil
        | some place => exact contained_cons (safeReadText_inside found) contained_nil
      · split
        · exact contained_locked (contained_readAndWrite course _)
        · exact contained_nil

theorem contained_ensureNoteId (course : Course) (relativePath : Text) :
    vault.Contained (vault.ensureNoteIdFiles env course relativePath) := by
  unfold ensureNoteIdFiles
  split
  · exact contained_nil
  · split
    · exact contained_nil
    · exact contained_locked (contained_readAndWrite course _)

theorem validateForMove_resolved {fromPath toPath : Text} {fromFile toFile : Location Text}
    (validated : vault.validateForMove env fromPath toPath = .ok (fromFile, toFile)) :
    vault.resolveInternalPath (PurePath.steps (Text.strip fromPath)) = .ok fromFile ∧
      vault.resolveInternalPath (PurePath.steps (Text.strip toPath)) = .ok toFile :=
  ⟨resolvePath_ok (validateForMove_ok validated).1.2,
    resolvePath_ok (validateForMove_ok validated).2.2⟩

theorem rootExists : vault.fileExists vault.root = true := by
  unfold fileExists lands
  rw [FileTree.walk_real_self _ root_real]
  rfl

theorem contained_moveNote (course : Course) (fromPath toPath : Text) :
    vault.Contained (vault.moveNote env course fromPath toPath) := by
  unfold moveNote
  split
  case h_1 => exact contained_nil
  case h_2 fromFile toFile validated =>
    obtain ⟨fromResolved, toResolved⟩ := validateForMove_resolved validated
    have toInside := (resolveInternalPath_ok toResolved).2
    apply contained_locked
    apply contained_locked
    split
    case isTrue => exact contained_nil
    case isFalse free =>
      have below : toFile ≠ vault.root := by
        intro same
        apply free
        rw [same, rootExists, Bool.or_true]
      split
      case h_1 => exact contained_nil
      case h_2 parent made =>
        rw [makeParents_eq (settled_of_ok toResolved).dropLast made]
        apply contained_append (contained_madeParent toInside)
        split
        · exact contained_rename (resolveInternalPath_ok fromResolved).2 toInside below
        · exact contained_nil

/-! ### The trash -/

/-- The name in the trash that is chosen is free, and it is the resolved path or lies beside
it. -/
theorem freeTrashPath_some {path final chosen : Location Text} {uniqueIds : List Text}
    (found : vault.freeTrashPath path uniqueIds final = some chosen)
    (beside : final = path ∨ (path ≠ [] ∧ ∃ name, final = path.dropLast ++ [name])) :
    vault.fileExists chosen = false ∧
      (chosen = path ∨ (path ≠ [] ∧ ∃ name, chosen = path.dropLast ++ [name])) := by
  induction uniqueIds generalizing final with
  | nil =>
      rw [freeTrashPath] at found
      split at found
      case isTrue => cases found
      case isFalse free =>
        cases found
        exact ⟨Bool.eq_false_iff.mpr free, beside⟩
  | cons uniqueId rest ih =>
      rw [freeTrashPath] at found
      split at found
      case isTrue =>
        split at found
        case h_1 => cases found
        case h_2 next isNext =>
          apply ih found
          obtain ⟨name, last, shape⟩ := Option.map_eq_some_iff.mp isNext
          have filled : path ≠ [] := by
            intro empty
            rw [empty] at last
            cases last
          exact Or.inr ⟨filled, _, shape.symm⟩
      case isFalse free =>
        cases found
        exact ⟨Bool.eq_false_iff.mpr free, beside⟩

theorem inside_freeTrashPath {path chosen : Location Text} {uniqueIds : List Text}
    (found : vault.freeTrashPath path uniqueIds path = some chosen)
    (inside : vault.root <+: path) (below : path ≠ vault.root) :
    vault.root <+: chosen ∧ chosen ≠ vault.root := by
  obtain ⟨free, isPath | ⟨_filled, name, isBeside⟩⟩ := freeTrashPath_some found (Or.inl rfl)
  · rw [isPath]
    exact ⟨inside, below⟩
  · constructor
    · rw [isBeside]
      exact (inside_dropLast inside below).trans (List.prefix_append _ _)
    · intro same
      rw [same, rootExists] at free
      cases free

/-- A rename to a free name beside the vault root leaves the vault. -/
theorem not_contained_beside {filePath chosen : Location Text} {uniqueIds : List Text}
    (fileInside : vault.root <+: filePath)
    (found : vault.freeTrashPath vault.root uniqueIds vault.root = some chosen) :
    ¬ vault.Contained (rename filePath chosen) := by
  obtain ⟨free, isRoot | ⟨filled, name, isBeside⟩⟩ := freeTrashPath_some found (Or.inl rfl)
  · rw [isRoot, rootExists] at free
    cases free
  · have parentLength : chosen.dropLast.length < vault.root.length := by
      rw [isBeside, List.dropLast_concat, List.length_dropLast]
      have positive := List.length_pos_of_ne_nil filled
      omega
    have apart : ¬ filePath.isPrefixOf chosen = true := by
      intro inChosen
      -- the chosen name would be the vault root, which is not free
      have whole := fileInside.trans (List.isPrefixOf_iff_prefix.mp inChosen)
      have sameLength : vault.root.length = chosen.length := by
        rw [isBeside, List.length_append, List.length_dropLast, List.length_singleton]
        have positive := List.length_pos_of_ne_nil filled
        omega
      rw [← whole.eq_of_length sameLength, rootExists] at free
      cases free
    unfold rename
    rw [if_neg apart]
    intro contained
    have short := (contained (.changes chosen.dropLast) (by simp)).length_le
    rw [Access.place] at short
    omega

/-- A real folder is there already. -/
theorem makeParents_real {folder : Location Text}
    (real : vault.tree.node folder = some .directory) : vault.makeParents folder = some folder :=
  FileTree.makeFolders_directory real

theorem contained_moveToTrash_iff (course : Course) {parts : List (Step Text)}
    {filePath path : Location Text} (fileInside : vault.root <+: filePath)
    (resolved : vault.resolveInternalPath parts = .ok path) :
    vault.Contained (vault.moveToTrash course filePath path) ↔
      (course.replaces = true → path = vault.root →
        vault.freeTrashPath vault.root (course.uniqueIds.take (maxAttempts - 1)) vault.root =
          none) := by
  have inside := (resolveInternalPath_ok resolved).2
  unfold moveToTrash
  constructor
  · intro contained replaces isRoot
    have parent := makeParents_real (vault.tree.parent_directory (@root_real vault).1)
    rw [isRoot, parent, if_pos replaces] at contained
    cases found : vault.freeTrashPath vault.root (course.uniqueIds.take (maxAttempts - 1))
        vault.root with
    | none => rfl
    | some chosen =>
        rw [found] at contained
        exact absurd (fun access member => contained access (List.mem_append_right _ member))
          (not_contained_beside fileInside found)
  · intro staysInside
    cases made : vault.makeParents path.dropLast with
    | none => exact contained_nil
    | some parent =>
        rw [makeParents_eq (settled_of_ok resolved).dropLast made]
        apply contained_append (contained_madeParent inside)
        split
        case isFalse => exact contained_nil
        case isTrue replaces =>
          cases found : vault.freeTrashPath path (course.uniqueIds.take (maxAttempts - 1)) path with
          | none => exact contained_nil
          | some chosen =>
              have below : path ≠ vault.root := by
                intro isRoot
                rw [isRoot, staysInside replaces isRoot] at found
                cases found
              obtain ⟨chosenInside, chosenBelow⟩ := inside_freeTrashPath found inside below
              exact contained_rename fileInside chosenInside chosenBelow

theorem contained_moveNoteToTrash_iff (course : Course) {relativePath : Text}
    {filePath : Location Text} (fileInside : vault.root <+: filePath) :
    vault.Contained (vault.moveNoteToTrash course relativePath filePath) ↔
      (vault.trashReady = true → course.replaces = true →
        vault.trashPath relativePath = .ok vault.root →
        vault.freeTrashPath vault.root (course.uniqueIds.take (maxAttempts - 1)) vault.root =
          none) := by
  unfold moveNoteToTrash trashReady
  cases resolved : vault.resolveInternalPath [.enter ".trash".toList] with
  | error reason =>
      constructor
      · intro _contained impossible
        cases impossible
      · intro _staysInside
        exact contained_nil
  | ok trashDir =>
      dsimp only
      cases made : vault.makeParents trashDir with
      | none =>
          constructor
          · intro _contained impossible
            cases impossible
          · intro _staysInside
            exact contained_nil
      | some madeTrash =>
          have trashMade : vault.Contained (vault.madeFolders madeTrash) := by
            rw [makeParents_eq (settled_of_ok resolved) made]
            exact contained_madeFolder (resolveInternalPath_ok resolved).2
          dsimp only
          cases target : vault.trashPath relativePath with
          | error reason =>
              constructor
              · intro _contained _ready _replaces impossible
                cases impossible
              · intro _staysInside
                exact contained_append trashMade contained_nil
          | ok path =>
              have moved := contained_moveToTrash_iff course fileInside target
              constructor
              · intro contained _ready replaces isRoot
                exact moved.mp
                  (fun access member => contained access (List.mem_append_right _ member))
                  replaces (Except.ok.inj isRoot)
              · intro staysInside
                apply contained_append trashMade
                apply moved.mpr
                intro replaces isRoot
                exact staysInside rfl replaces (congrArg Except.ok isRoot)

theorem contained_locked_iff {filePath : Location Text} {body : List Access} :
    vault.Contained (vault.locked filePath body) ↔
      ((vault.lockFolder filePath).isSome = true → vault.Contained body) := by
  constructor
  · intro contained lockable
    obtain ⟨folder, found⟩ := Option.isSome_iff_exists.mp lockable
    unfold locked at contained
    rw [found] at contained
    exact fun access member => contained access (List.mem_cons_of_mem _ member)
  · intro bodyInside
    cases found : vault.lockFolder filePath with
    | none =>
        unfold locked
        rw [found]
        exact contained_nil
    | some folder => exact contained_locked (bodyInside (by rw [found]; rfl))

theorem contained_deleteNote_iff (course : Course) (relativePath : Text) :
    vault.Contained (vault.deleteNote env course relativePath) ↔
      vault.StaysInside env course (.deleteNote relativePath) := by
  unfold StaysInside
  dsimp only
  unfold deleteNote choosesTrashName
  cases validated : vault.validateForDelete env relativePath with
  | error reason =>
      constructor
      · intro _contained impossible
        cases impossible
      · intro _staysInside
        exact contained_nil
  | ok filePath =>
      have resolved := resolvePath_ok (validateForDelete_ok validated).2
      have moved := @contained_moveNoteToTrash_iff vault course relativePath filePath
        (resolveInternalPath_ok resolved).2
      simp only [Bool.and_eq_true]
      rw [contained_locked_iff]
      cases present : vault.fileExists filePath with
      | false =>
          constructor
          · intro _contained chooses
            exact absurd chooses.1.1.2 Bool.false_ne_true
          · intro _staysInside _lockable
            exact contained_nil
      | true =>
          constructor
          · intro contained chooses
            exact moved.mp (contained chooses.1.1.1) chooses.1.2 chooses.2
          · intro staysInside lockable
            apply moved.mpr
            intro ready replaces
            exact staysInside ⟨⟨⟨lockable, rfl⟩, ready⟩, replaces⟩

/-! ### The index and the catalog -/

theorem contained_reindexNote_iff (course : Course) (relativePath : Text) (autoGenerateId : Bool) :
    vault.Contained (vault.reindexNoteFiles env course autoGenerateId relativePath) ↔
      vault.StaysInside env course (.reindexNote relativePath autoGenerateId) := by
  unfold reindexNoteFiles StaysInside
  have idInside : vault.Contained
      (if autoGenerateId && env.lower (suffix relativePath) == ".md".toList then
        vault.ensureNoteIdFiles env course relativePath
      else []) := by
    split
    · exact contained_ensureNoteId course relativePath
    · exact contained_nil
  constructor
  · intro contained admitted place opened
    have landed := opens_lands opened
    rw [if_pos admitted, if_pos (by rw [landed]; rfl), opened] at contained
    exact contained (.reads place) (List.mem_append_right _ List.mem_cons_self)
  · intro staysInside
    split
    case isFalse => exact contained_nil
    case isTrue admitted =>
      split
      case isFalse => exact contained_nil
      case isTrue =>
        apply contained_append idInside
        cases opened : vault.opens (vault.joinSteps relativePath) with
        | none => exact contained_nil
        | some place =>
            have inside := staysInside admitted place opened
            apply contained_cons inside
            split
            · exact contained_cons inside contained_nil
            · exact contained_nil

theorem contained_catalogUpsert_iff (course : Course) (relativePath : Text) :
    vault.Contained (vault.catalogUpsert env relativePath) ↔
      vault.StaysInside env course (.catalogUpsert relativePath) := by
  unfold catalogUpsert StaysInside
  constructor
  · intro contained admitted place landed
    rw [landed] at contained
    simp only [admitted, if_true] at contained
    exact contained (.indexes place) List.mem_cons_self
  · intro staysInside
    cases landed : vault.lands (vault.joinSteps relativePath) with
    | none => exact contained_nil
    | some place =>
        simp only
        split
        case isTrue admitted =>
            exact contained_cons (staysInside admitted place landed) contained_nil
        case isFalse => exact contained_nil

/-- An operation keeps to the vault exactly when its path does: always where the path is
resolved and checked, apart from a trash that leads back to the vault root; where it is only
read as a string, when the kernel ends up in the vault. -/
theorem contained_iff (course : Course) (operation : PathOperation) :
    vault.Contained (vault.accesses env course operation) ↔
      vault.StaysInside env course operation := by
  cases operation with
  | readNote relativePath =>
      exact ⟨fun _contained => trivial, fun _ => contained_readNote relativePath⟩
  | getNoteMetadata relativePath =>
      exact ⟨fun _contained => trivial, fun _ => contained_getNoteMetadata relativePath⟩
  | listNotes folder extension =>
      exact ⟨fun _contained => trivial, fun _ => contained_listNotes folder extension⟩
  | createNote relativePath content frontmatter =>
      exact ⟨fun _contained => trivial,
        fun _ => contained_createNote course relativePath content frontmatter⟩
  | writeNote relativePath content =>
      exact ⟨fun _contained => trivial,
        fun _ => contained_writeNote course relativePath content⟩
  | appendNote relativePath content =>
      exact ⟨fun _contained => trivial,
        fun _ => contained_appendNote course relativePath content⟩
  | updateFrontmatter relativePath metadata =>
      exact ⟨fun _contained => trivial,
        fun _ => contained_updateFrontmatter course relativePath metadata⟩
  | enrichNoteFrontmatterRequired relativePath =>
      exact ⟨fun _contained => trivial, fun _ => contained_enrich course relativePath⟩
  | ensureNoteId relativePath =>
      exact ⟨fun _contained => trivial, fun _ => contained_ensureNoteId course relativePath⟩
  | deleteNote relativePath => exact contained_deleteNote_iff course relativePath
  | moveNote fromPath toPath =>
      exact ⟨fun _contained => trivial, fun _ => contained_moveNote course fromPath toPath⟩
  | reindexNote relativePath autoGenerateId =>
      exact contained_reindexNote_iff course relativePath autoGenerateId
  | catalogUpsert relativePath => exact contained_catalogUpsert_iff course relativePath

end LinkedVault

/-- A vault with a link to a note beside it, and one to itself in the trash. -/
def escapingVault : LinkedVault :=
  { tree :=
      { entries :=
          [(["vault".toList], .directory), (["secret.md".toList], .file),
            (["vault".toList, "link.md".toList],
              .link { absolute := true, steps := [.enter "secret.md".toList] }),
            (["vault".toList, "a.md".toList], .file),
            (["vault".toList, ".trash".toList], .directory),
            (["vault".toList, ".trash".toList, "a.md".toList],
              .link { absolute := false, steps := [.up] })]
        placed := by decide }
    root := ["vault".toList]
    rootFolder := by decide }

/-- `reindex_note` reads and stores the note that the link leads to. -/
theorem reindexNote_escapes :
    escapingVault.accesses Env.plain {} (.reindexNote "link.md".toList true) =
        [.reads ["secret.md".toList], .indexes ["secret.md".toList]] ∧
      ¬ escapingVault.Contained
        (escapingVault.accesses Env.plain {} (.reindexNote "link.md".toList true)) := by
  decide

-- a deletion through the link in the trash moves the note beside the vault
example : .changes [] ∈ escapingVault.accesses Env.plain { uniqueIds := ["0a1b2c3d".toList] }
    (.deleteNote "a.md".toList) := by
  decide

end VaultSearch
