/-
Which files are notes: the five places that decide it.

`scan_vault`, the scan of the catalog, the watcher, `reindex_note` and the catalog's `upsert`
look at different spellings of a path and ask different questions about it.
-/

import VaultSearch.Core.Scanner
import VaultSearch.Crud.Catalog

set_option autoImplicit false

namespace VaultSearch

open Symlinks

/-- A vault at rest with the settings of the program, which know where it lies. -/
structure SettledVault extends CatalogVault where
  env : Env
  located : env.config.vaultParts = "/".toList :: root
  /-- the settings accept no empty extension -/
  dotted : env.config.extensions.contains (env.lower []) = false

/-- A regular file that can be reached from the root, through links or not. -/
structure VaultFile (vault : SettledVault) where
  names : List Text
  filled : names ≠ []
  valid : ∀ name ∈ names, IsFileName name
  target : Location Text
  lands : vault.lands (enters (vault.root ++ names)) = some target
  isFile : vault.tree.node target = some .file
  hasStatus : (vault.status target).isSome = true

namespace VaultFile

variable {vault : SettledVault} (file : VaultFile vault)

/-- The relative path of the file. -/
def path : Text :=
  Text.join "/".toList file.names

def location : Location Text :=
  vault.root ++ file.names

end VaultFile

namespace SettledVault

variable (vault : SettledVault)

/-- `path.is_file()` and `path.exists()` follow links. -/
def isFile (location : Location Text) : Bool :=
  match vault.lands (enters location) with
  | some target => vault.tree.node target = some .file
  | none => false

def pathExists (location : Location Text) : Bool :=
  ((vault.lands (enters location)).bind vault.tree.node).isSome

/-- Every folder on the way from the root can be listed. -/
def isListed (names : List Text) : Bool :=
  (List.range names.length).all (fun depth => vault.readable (vault.root ++ names.take depth))

/-- `vault_path.rglob("*")`: every entry below the root, and no link is followed. -/
def rglob : List (Location Text) :=
  (vault.tree.entries.map Prod.fst).filter (fun location =>
    vault.root.isPrefixOf location && location != vault.root &&
      vault.isListed (location.drop vault.root.length))

/-- A link is accepted if its target lies inside the vault. -/
def staysInside (location : Location Text) : Bool :=
  match vault.tree.node location with
  | some (.link _) => vault.vaultRoot.isPrefixOf (vault.tree.realpath (enters location))
  | _ => true

/-- `scan_vault` -/
def scanVault : List (Location Text) :=
  vault.rglob.filter (fun location =>
    vault.isFile location && isScanned vault.env (vault.relativeText location) &&
      vault.staysInside location)

/-- `_should_process` of an event at the absolute path of the file. -/
def shouldProcess (path : Text) : Bool :=
  isScanned vault.env path

/-- What `reindex_note` asks before it reads the note. -/
def reindexAdmits (path : Text) : Bool :=
  validateRelativePath path && hasIndexableExtension vault.env path &&
    vault.pathExists (vault.root ++ PurePath.parts path)

/-- Whether `upsert` of the catalog writes a row. -/
def upsertStores (path : Text) : Bool :=
  match vault.lands (enters (vault.root ++ PurePath.parts path)) with
  | none => false
  | some target =>
      (vault.tree.node target).isSome && (vault.status target).isSome &&
        hasIndexableExtension vault.env path

end SettledVault

namespace VaultFile

variable {vault : SettledVault} (file : VaultFile vault)

/-- The five agree about the file. -/
def Agreed : Prop :=
  ∃ answer : Bool,
    (file.location ∈ vault.scanVault ↔ answer = true) ∧
    ((∃ row ∈ vault.toCatalogVault.scanVault vault.env, row.path = file.path) ↔ answer = true) ∧
    vault.shouldProcess file.path = answer ∧
    vault.reindexAdmits file.path = answer ∧
    vault.upsertStores file.path = answer

/-- The file lies in the vault without any of the things the five see differently. -/
structure Plain : Prop where
  /-- no link is on the way -/
  real : vault.tree.node file.location = some .file
  /-- no name is hidden or ignored -/
  shown : ∀ name ∈ file.names, CatalogVault.isShown vault.env name = true
  /-- and none of the folders above the vault has an ignored name -/
  rootAllowed : ∀ part ∈ vault.env.config.vaultParts,
    part ∉ vault.env.config.ignoredFolders
  listed : vault.isListed file.names = true
  /-- the relative path does not look like an absolute one -/
  relative : Text.startsWith file.path "\\".toList = false

variable {file}

/-! ### The path of a file -/

theorem parts_path : PurePath.parts file.path = file.names := by
  unfold PurePath.parts path
  rw [PurePath.split_join file.names file.filled
    (fun name member => (file.valid name member).2.1), List.filter_eq_self]
  intro name member
  obtain ⟨filled, _noSlash, _noNull, notDot, _notUp⟩ := file.valid name member
  rw [Bool.and_eq_true, Bool.not_eq_true', List.isEmpty_eq_false_iff, bne_iff_ne]
  exact ⟨filled, notDot⟩

theorem relativeText_location : vault.relativeText file.location = file.path := by
  unfold CatalogVault.relativeText location path
  rw [List.drop_left]

/-- Two paths of valid names are the same only for the same names. -/
theorem names_of_path {names : List Text} (filled : names ≠ [])
    (free : ∀ name ∈ names, '/' ∉ name)
    (same : Text.join "/".toList names = file.path) : names = file.names := by
  have split := PurePath.split_join names filled free
  have split' := PurePath.split_join file.names file.filled
    (fun name member => (file.valid name member).2.1)
  unfold path at same
  rw [same, split'] at split
  exact split.symm

/-- The extension is that of the last name. -/
theorem hasIndexableExtension_path {front : List Text} {last : Text}
    (split : file.names = front ++ [last]) :
    hasIndexableExtension vault.env file.path =
      vault.env.config.extensions.contains (vault.env.lower (PurePath.splitext last).2) := by
  unfold hasIndexableExtension PurePath.suffix PurePath.name
  rw [parts_path, split, List.getLast?_concat, Option.getD_some]

/-- A row is made of a shown name exactly if its extension is indexable. -/
theorem rowOf_isSome {folder : Location Text} {name : Text}
    (shown : CatalogVault.isShown vault.env name = true)
    (hasStatus : (vault.status (folder ++ [name])).isSome = true) :
    (vault.rowOf vault.env folder name).isSome = true ↔
      vault.env.config.extensions.contains (vault.env.lower (PurePath.splitext name).2) =
        true := by
  rw [CatalogVault.splitext_shown shown]
  unfold CatalogVault.rowOf
  cases CatalogVault.splitAtLastDot name with
  | none =>
      rw [Option.getD_none, vault.dotted]
      exact Iff.rfl
  | some parts =>
      dsimp only [Option.getD_some]
      split
      case isTrue indexable =>
        rw [Option.isSome_map, hasStatus, indexable]
      case isFalse other =>
        rw [Option.isSome_none]
        exact ⟨fun impossible => absurd impossible Bool.false_ne_true,
          fun indexable => absurd indexable other⟩

theorem isListed_iff {names : List Text} :
    vault.isListed names = true ↔
      ∀ depth < names.length, vault.readable (vault.root ++ names.take depth) = true := by
  unfold SettledVault.isListed
  rw [List.all_eq_true]
  constructor
  · intro all depth below
    exact all depth (List.mem_range.mpr below)
  · intro all depth member
    exact all depth (List.mem_range.mp member)

/-- Without a link on the way the file lies where its names say. -/
theorem target_of_real (real : vault.tree.node file.location = some .file) :
    file.target = file.location := by
  have isReal : vault.tree.IsReal file.location := by
    constructor
    · rw [real]
      rfl
    · unfold FileTree.linkAt
      rw [real]
  have lands := file.lands
  unfold LinkedVault.lands at lands
  rw [show vault.root ++ file.names = file.location from rfl,
    FileTree.walk_real_self vault.maxLinks isReal] at lands
  exact (Option.some.inj lands).symm

/-- What the scan of the catalog lists. -/
theorem cataloged_iff :
    (∃ row ∈ vault.toCatalogVault.scanVault vault.env, row.path = file.path) ↔
      (∀ name ∈ file.names, CatalogVault.isShown vault.env name = true) ∧
        vault.isListed file.names = true ∧ vault.tree.node file.location = some .file ∧
          hasIndexableExtension vault.env file.path = true := by
  constructor
  · rintro ⟨row, scanned, samePath⟩
    obtain ⟨folder, reached, isRow⟩ := CatalogVault.mem_scanVault.mp scanned
    obtain ⟨readable, last, lastShown, isFile, rowIs⟩ := CatalogVault.mem_rows.mp isRow
    obtain ⟨front, below⟩ := (CatalogVault.reached_below reached).1
    rw [← below] at reached readable isFile rowIs
    obtain ⟨frontShown, frontReadable, _isFolder⟩ := CatalogVault.reached_iff.mp reached
    have split : front ++ [last] = file.names := by
      apply names_of_path (List.append_ne_nil_of_right_ne_nil _ (List.cons_ne_nil _ _))
      · intro name member
        apply (CatalogVault.named_of_node
          (List.append_ne_nil_of_right_ne_nil _ (List.cons_ne_nil _ _))
          (by rw [isFile]; rfl) name _).2.1
        rw [List.append_assoc]
        exact List.mem_append_right _ member
      · rw [← samePath, CatalogVault.rowOf_path rowIs]
        unfold CatalogVault.relativeText
        rw [List.append_assoc, List.drop_left]
    have atFile : vault.root ++ front ++ [last] = file.location := by
      rw [List.append_assoc, split]
      rfl
    rw [atFile] at isFile
    refine ⟨?_, isListed_iff.mpr ?_, isFile, ?_⟩
    · rw [← split]
      intro name member
      rcases List.mem_append.mp member with inFront | isLast
      · exact frontShown name inFront
      · rw [List.mem_singleton.mp isLast]
        exact lastShown
    · rw [← split]
      intro depth bound
      rw [List.length_append, List.length_singleton] at bound
      rw [List.take_append_of_le_length (Nat.le_of_lt_succ bound)]
      rcases Nat.lt_or_eq_of_le (Nat.le_of_lt_succ bound) with inside | atEnd
      · exact frontReadable depth inside
      · rw [atEnd, List.take_length]
        exact readable
    · rw [hasIndexableExtension_path split.symm]
      apply (rowOf_isSome lastShown _).mp
      · rw [rowIs]
        rfl
      · rw [atFile, ← target_of_real isFile]
        exact file.hasStatus
  · rintro ⟨shown, listed, real, indexable⟩
    obtain ⟨front, last, split⟩ : ∃ front last, file.names = front ++ [last] :=
      ⟨file.names.dropLast, file.names.getLast file.filled,
        (List.dropLast_append_getLast file.filled).symm⟩
    have atFile : file.location = vault.root ++ front ++ [last] := by
      rw [List.append_assoc, ← split]
      rfl
    have lastShown : CatalogVault.isShown vault.env last = true := by
      apply shown
      rw [split]
      exact List.mem_append_right _ (List.mem_singleton_self _)
    have listedAt := isListed_iff.mp listed
    have reached : Worklist.Reached (vault.toCatalogVault.subfolders vault.env) vault.root
        (vault.root ++ front) := by
      apply CatalogVault.reached_iff.mpr
      refine ⟨?_, ?_, ?_⟩
      · intro name member
        apply shown
        rw [split]
        exact List.mem_append_left _ member
      · intro depth bound
        have readable := listedAt depth (by
          rw [split, List.length_append]
          omega)
        rw [split, List.take_append_of_le_length (Nat.le_of_lt bound)] at readable
        exact readable
      · apply vault.tree.parent_directory_snoc
        rw [← atFile, real]
        rfl
    have present : (vault.rowOf vault.env (vault.root ++ front) last).isSome = true := by
      apply (rowOf_isSome lastShown _).mpr
      · rw [← hasIndexableExtension_path split]
        exact indexable
      · rw [← atFile, ← target_of_real real]
        exact file.hasStatus
    obtain ⟨row, isRow⟩ := Option.isSome_iff_exists.mp present
    refine ⟨row, CatalogVault.mem_scanVault.mpr ⟨_, reached, CatalogVault.mem_rows.mpr ?_⟩, ?_⟩
    · refine ⟨?_, last, lastShown, ?_, isRow⟩
      · have readable := listedAt front.length (by
          rw [split, List.length_append]
          exact Nat.lt_succ_self _)
        rw [split, List.take_append_of_le_length (Nat.le_refl _), List.take_length] at readable
        exact readable
      · rw [← atFile]
        exact real
    · rw [CatalogVault.rowOf_path isRow, ← atFile]
      exact relativeText_location

/-- The whole scan accepts a file that the watcher accepts, if it lies there without a link. -/
theorem scanned_of_plain (real : vault.tree.node file.location = some .file)
    (listed : vault.isListed file.names = true)
    (processed : vault.shouldProcess file.path = true) : file.location ∈ vault.scanVault := by
  have filled : file.location ≠ [] :=
    List.append_ne_nil_of_right_ne_nil _ file.filled
  obtain ⟨entry, member, same⟩ := vault.tree.exists_entry filled (by rw [real]; rfl)
  unfold SettledVault.scanVault SettledVault.rglob
  rw [List.mem_filter, List.mem_filter]
  refine ⟨⟨?_, ?_⟩, ?_⟩
  · rw [← same]
    exact List.mem_map_of_mem member
  · have below : vault.root.isPrefixOf file.location = true :=
      List.isPrefixOf_iff_prefix.mpr (List.prefix_append _ _)
    have deeper : (file.location != vault.root) = true := by
      rw [bne_iff_ne]
      intro atRoot
      apply file.filled
      exact List.append_right_eq_self.mp atRoot
    have relative : file.location.drop vault.root.length = file.names := List.drop_left
    rw [below, deeper, relative, listed]
    rfl
  · have isFile : vault.isFile file.location = true := by
      unfold SettledVault.isFile
      rw [show vault.lands (enters file.location) = some file.target from file.lands]
      exact decide_eq_true file.isFile
    have inside : vault.staysInside file.location = true := by
      unfold SettledVault.staysInside
      rw [real]
    rw [isFile, relativeText_location, inside, Bool.and_true, Bool.true_and]
    exact processed

theorem processed_of_scanned (scanned : file.location ∈ vault.scanVault) :
    vault.shouldProcess file.path = true := by
  unfold SettledVault.scanVault at scanned
  have accepted := (List.mem_filter.mp scanned).2
  rw [relativeText_location, Bool.and_eq_true, Bool.and_eq_true] at accepted
  exact accepted.1.2

/-- The watcher looks at the names above the vault as well. -/
theorem processed_iff :
    vault.shouldProcess file.path = true ↔
      hasIndexableExtension vault.env file.path = true ∧
        (∀ part ∈ vault.env.config.vaultParts, part ∉ vault.env.config.ignoredFolders) ∧
          ∀ name ∈ file.names, name ∉ vault.env.config.ignoredFolders := by
  have clear : isIgnored vault.env file.path = false ↔
      (∀ part ∈ vault.env.config.vaultParts, part ∉ vault.env.config.ignoredFolders) ∧
        ∀ name ∈ file.names, name ∉ vault.env.config.ignoredFolders := by
    unfold isIgnored
    rw [parts_path, List.any_eq_false]
    constructor
    · intro none
      constructor
      · intro part member ignored
        exact none part ignored (List.contains_iff_mem.mpr (List.mem_append_left _ member))
      · intro name member ignored
        exact none name ignored (List.contains_iff_mem.mpr (List.mem_append_right _ member))
    · rintro ⟨parts, names⟩ ignored member contained
      rcases List.mem_append.mp (List.contains_iff_mem.mp contained) with above | below
      · exact parts ignored above member
      · exact names ignored below member
  unfold SettledVault.shouldProcess isScanned
  rw [Bool.and_eq_true, Bool.not_eq_true', clear]

/-- Among valid names a relative path is refused only for a leading backslash. -/
theorem validateRelativePath_path :
    validateRelativePath file.path = !Text.startsWith file.path "\\".toList := by
  obtain ⟨head, tail, split⟩ := List.exists_cons_of_ne_nil file.filled
  have headValid := file.valid head (by rw [split]; exact List.mem_cons_self)
  obtain ⟨first, others, isHead⟩ := List.exists_cons_of_ne_nil headValid.1
  have begins : ∃ rest, file.path = first :: rest := by
    unfold path
    rw [split, isHead]
    cases tail with
    | nil => exact ⟨_, rfl⟩
    | cons second rest => exact ⟨_, rfl⟩
  obtain ⟨rest, isPath⟩ := begins
  have nonempty : file.path.isEmpty = false := by
    rw [isPath]
    rfl
  have notAbsolute : Text.startsWith file.path "/".toList = false := by
    rw [Bool.eq_false_iff]
    intro absolute
    rw [isPath] at absolute
    obtain ⟨_rest, same⟩ := List.isPrefixOf_iff_prefix.mp absolute
    apply headValid.2.1
    rw [isHead, ← (List.cons.inj same).1]
    exact List.mem_cons_self
  have plainParts : (PurePath.parts file.path).all
      (fun part => part != "..".toList && !part.contains '\x00') = true := by
    rw [parts_path, List.all_eq_true]
    intro name member
    obtain ⟨_filled, _noSlash, noNull, _notDot, notUp⟩ := file.valid name member
    rw [Bool.and_eq_true, bne_iff_ne, Bool.not_eq_true', Bool.eq_false_iff]
    exact ⟨notUp, fun contained => noNull (List.contains_iff_mem.mp contained)⟩
  unfold validateRelativePath
  rw [nonempty, notAbsolute, plainParts, resolveBelowBase_startsWith, Bool.false_or,
    Bool.and_true, Bool.and_true, Bool.not_false, Bool.true_and]

theorem reindexAdmits_path :
    vault.reindexAdmits file.path =
      (!Text.startsWith file.path "\\".toList && hasIndexableExtension vault.env file.path) := by
  have present : vault.pathExists (vault.root ++ PurePath.parts file.path) = true := by
    unfold SettledVault.pathExists
    rw [parts_path, file.lands, Option.bind_some, file.isFile]
    rfl
  unfold SettledVault.reindexAdmits
  rw [validateRelativePath_path, present, Bool.and_true]

theorem upsertStores_path :
    vault.upsertStores file.path = hasIndexableExtension vault.env file.path := by
  unfold SettledVault.upsertStores
  rw [parts_path, file.lands]
  dsimp only
  rw [file.isFile, Option.isSome_some, file.hasStatus, Bool.true_and, Bool.true_and]

/-! ### When the five agree -/

theorem plain_of_agreed (agreed : file.Agreed)
    (indexable : hasIndexableExtension vault.env file.path = true) : file.Plain := by
  obtain ⟨answer, _scanned, cataloged, processed, admitted, stored⟩ := agreed
  rw [upsertStores_path, indexable] at stored
  rw [← stored] at cataloged processed admitted
  obtain ⟨shown, listed, real, _indexable⟩ := cataloged_iff.mp (cataloged.mpr rfl)
  rw [reindexAdmits_path, indexable, Bool.and_true, Bool.not_eq_true'] at admitted
  exact
    { real
      shown
      rootAllowed := (processed_iff.mp processed).2.1
      listed
      relative := admitted }

theorem agreed_of_plain (plain : file.Plain)
    (indexable : hasIndexableExtension vault.env file.path = true) : file.Agreed := by
  have processed : vault.shouldProcess file.path = true := by
    rw [processed_iff]
    refine ⟨indexable, plain.rootAllowed, ?_⟩
    intro name member ignored
    have shown := plain.shown name member
    unfold CatalogVault.isShown at shown
    rw [List.contains_iff_mem.mpr ignored] at shown
    cases shown
  refine ⟨true, ?_, ?_, processed, ?_, ?_⟩
  · exact ⟨fun _scanned => rfl,
      fun _true => scanned_of_plain plain.real plain.listed processed⟩
  · exact ⟨fun _cataloged => rfl,
      fun _true => cataloged_iff.mpr ⟨plain.shown, plain.listed, plain.real, indexable⟩⟩
  · rw [reindexAdmits_path, plain.relative, indexable]
    rfl
  · rw [upsertStores_path, indexable]

/-- A file with another extension is no note to any of them. -/
theorem agreed_of_other (other : hasIndexableExtension vault.env file.path = false) :
    file.Agreed := by
  have refused : vault.shouldProcess file.path = false := by
    rw [Bool.eq_false_iff]
    intro processed
    rw [(processed_iff.mp processed).1] at other
    cases other
  refine ⟨false, ?_, ?_, refused, ?_, ?_⟩
  · constructor
    · intro scanned
      rw [processed_of_scanned scanned] at refused
      cases refused
    · intro impossible
      cases impossible
  · constructor
    · intro cataloged
      rw [(cataloged_iff.mp cataloged).2.2.2] at other
      cases other
    · intro impossible
      cases impossible
  · rw [reindexAdmits_path, other, Bool.and_false]
  · rw [upsertStores_path, other]

/-- The five agree about a file exactly if no extension makes it a note, or it lies plainly in
the vault. -/
theorem agreed_iff {vault : SettledVault} (file : VaultFile vault) :
    file.Agreed ↔ (hasIndexableExtension vault.env file.path = true → file.Plain) := by
  constructor
  · exact plain_of_agreed
  · intro condition
    cases indexable : hasIndexableExtension vault.env file.path with
    | true => exact agreed_of_plain (condition indexable) indexable
    | false => exact agreed_of_other indexable

end VaultFile

/-! ### A note in an ignored folder -/

/-- A vault at `/vault` with a note in its trash. -/
def trashVault : SettledVault :=
  { tree :=
      { entries :=
          [(["vault".toList], .directory), (["vault".toList, ".trash".toList], .directory),
            (["vault".toList, ".trash".toList, "a.md".toList], .file)]
        placed := by decide }
    root := ["vault".toList]
    rootFolder := by decide
    distinct := by decide
    named := by
      unfold IsFileName
      decide
    status := fun _location => some { mtimeNs := 100, size := 4 }
    env := Env.plain
    located := rfl
    dotted := by decide }

def trashFile : VaultFile trashVault :=
  { names := [".trash".toList, "a.md".toList]
    filled := by decide
    valid := by
      unfold IsFileName
      decide
    target := ["vault".toList, ".trash".toList, "a.md".toList]
    lands := by decide
    isFile := by decide
    hasStatus := rfl }

/-- Both scans and the watcher pass over it, and yet it can be indexed and listed. -/
theorem trashFile_disagreed : ¬ trashFile.Agreed := by
  intro agreed
  obtain ⟨answer, _scanned, _cataloged, processed, _admitted, stored⟩ := agreed
  have refused : trashVault.shouldProcess trashFile.path = false := by decide
  have accepted : trashVault.upsertStores trashFile.path = true := by decide
  rw [refused] at processed
  rw [accepted, ← processed] at stored
  cases stored

end VaultSearch
