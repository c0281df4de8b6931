/-
The scan of the note catalog: `NotesCatalog._scan_vault` of `crud/catalog.py`.

The folders of the vault are taken from a stack.  Hidden and ignored names are passed over,
links are neither folders nor files to the scan, and a folder that may not be read is skipped.
-/

import VaultSearch.Crud.LinkedVault
import VaultSearch.Store.Worklist

set_option autoImplicit false

namespace VaultSearch

open Symlinks

/-- The name of an entry of a directory. -/
def IsFileName (name : Text) : Prop :=
  name ≠ [] ∧ '/' ∉ name ∧ '\x00' ∉ name ∧ name ≠ ".".toList ∧ name ≠ "..".toList

theorem parts_join {names : List Text} (valid : ∀ name ∈ names, IsFileName name) :
    PurePath.parts (Text.join "/".toList names) = names := by
  apply PurePath.parts_join_names
  intro name member
  obtain ⟨nonempty, noSlash, _noNull, notDot, _notUp⟩ := valid name member
  exact ⟨nonempty, notDot, noSlash⟩

theorem parts_render_names {names : List Text} (valid : ∀ name ∈ names, IsFileName name) :
    PurePath.parts (PurePath.render names) = names := by
  cases names with
  | nil => rfl
  | cons first rest => exact parts_join valid

/-- What `stat` tells the catalog. -/
structure FileStatus where
  mtimeNs : Nat
  size : Nat
  deriving DecidableEq

structure CatalogRow where
  path : Text
  folder : Text
  extension : Text
  title : Text
  mtimeNs : Nat
  size : Nat
  deriving DecidableEq

/-- A vault at rest, as `os.scandir` and `stat` show it. -/
structure CatalogVault extends LinkedVault where
  distinct : (tree.entries.map Prod.fst).Nodup
  named : ∀ entry ∈ tree.entries, ∀ name ∈ entry.1, IsFileName name
  /-- whether the folder may be listed -/
  readable : Location Text → Bool := fun _ => true
  /-- `none` when `stat` fails -/
  status : Location Text → Option FileStatus

namespace CatalogVault

variable (vault : CatalogVault) (env : Env)

/-- The names in a folder. -/
def namesIn (folder : Location Text) : List Text :=
  vault.tree.entries.filterMap (fun entry =>
    if entry.1.dropLast = folder then entry.1.getLast? else none)

/-- `str(path.relative_to(VAULT_PATH))`, with `.` written as the empty text. -/
def relativeText (location : Location Text) : Text :=
  Text.join "/".toList (location.drop vault.root.length)

/-- `name[:dot_idx]` and `name[dot_idx:]` for `dot_idx = name.rfind(".")`. -/
def splitAtLastDot (name : Text) : Option (Text × Text) :=
  let reversed := name.reverse
  let ending := reversed.takeWhile (· != '.')
  match reversed.dropWhile (· != '.') with
  | [] => none
  | _dot :: front => some (front.reverse, '.' :: ending.reverse)

/-- The row of a file in a folder. -/
def rowOf (folder : Location Text) (name : Text) : Option CatalogRow :=
  match splitAtLastDot name with
  | none => none
  | some (title, ending) =>
      let ext := env.lower ending
      if env.config.extensions.contains ext then
        (vault.status (folder ++ [name])).map (fun status =>
          { path := vault.relativeText (folder ++ [name])
            folder := vault.relativeText folder
            extension := ext
            title
            mtimeNs := status.mtimeNs
            size := status.size })
      else none

def isShown (name : Text) : Bool :=
  !(env.config.ignoredFolders.contains name || Text.startsWith name ".".toList)

/-- One entry of `os.scandir`. -/
def scanEntry (folder : Location Text) (found : List (Location Text) × List CatalogRow)
    (name : Text) : List (Location Text) × List CatalogRow :=
  if !isShown env name then found
  else
    match vault.tree.node (folder ++ [name]) with
    | some .directory => (found.1 ++ [folder ++ [name]], found.2)
    | some .file => (found.1, found.2 ++ (vault.rowOf env folder name).toList)
    | _ => found

/-- The folders and the rows that one folder adds. -/
def scanFolder (folder : Location Text) : List (Location Text) × List CatalogRow :=
  if vault.readable folder then (vault.namesIn folder).foldl (vault.scanEntry env folder) ([], [])
  else ([], [])

/-- `while stack:`, with the top of the stack first. -/
def scanLoop : Nat → List (Location Text) → List CatalogRow → List CatalogRow
  | 0, _, rows => rows
  | _ + 1, [], rows => rows
  | fuel + 1, current :: stack, rows =>
      let found := vault.scanFolder env current
      scanLoop fuel (found.1.reverse ++ stack) (rows ++ found.2)

/-- `_scan_vault`: there is no more to pop than the root and the entries of the tree. -/
def scanVault : List CatalogRow :=
  vault.scanLoop env (vault.tree.entries.length + 1) [vault.root] []

/-! ### One folder -/

variable {vault env}

theorem mem_namesIn {folder : Location Text} {name : Text} :
    name ∈ vault.namesIn folder ↔ (vault.tree.node (folder ++ [name])).isSome = true := by
  have present : (vault.tree.node (folder ++ [name])).isSome = true ↔
      ∃ entry ∈ vault.tree.entries, entry.1 = folder ++ [name] := by
    have filled : folder ++ [name] ≠ [] := List.append_ne_nil_of_right_ne_nil _ (List.cons_ne_nil _ _)
    constructor
    · exact vault.tree.exists_entry filled
    · rintro ⟨entry, member, same⟩
      unfold FileTree.node nodeIn
      rw [if_neg filled, Option.isSome_map, List.find?_isSome]
      exact ⟨entry, member, decide_eq_true same⟩
  rw [present]
  unfold namesIn
  rw [List.mem_filterMap]
  constructor
  · rintro ⟨entry, member, isName⟩
    split at isName
    case isTrue inFolder =>
      refine ⟨entry, member, ?_⟩
      rw [← inFolder]
      exact (List.dropLast_append_getLast? name isName).symm
    case isFalse => cases isName
  · rintro ⟨entry, member, same⟩
    refine ⟨entry, member, ?_⟩
    rw [same, List.dropLast_concat, if_pos rfl, List.getLast?_concat]

theorem namesIn_nodup (folder : Location Text) : (vault.namesIn folder).Nodup := by
  unfold namesIn
  have apart : vault.tree.entries.Pairwise (fun first second => first.1 ≠ second.1) :=
    List.pairwise_map.mp vault.distinct
  refine List.Pairwise.filterMap _ ?_ apart
  intro first second differ name isName name' isName' same
  apply differ
  split at isName
  case isTrue inFolder =>
    split at isName'
    case isTrue inFolder' =>
      rw [← List.dropLast_append_getLast? name isName, ← List.dropLast_append_getLast? name' isName',
        inFolder, inFolder', same]
    case isFalse => cases isName'
  case isFalse => cases isName

variable (vault env) in
/-- The folders that one folder adds to the stack. -/
def subfolders (folder : Location Text) : List (Location Text) :=
  (vault.scanFolder env folder).1

variable (vault env) in
def folderAt (folder : Location Text) (name : Text) : Option (Location Text) :=
  if isShown env name ∧ vault.tree.node (folder ++ [name]) = some .directory then
    some (folder ++ [name])
  else none

variable (vault env) in
def fileRow (folder : Location Text) (name : Text) : Option CatalogRow :=
  if isShown env name ∧ vault.tree.node (folder ++ [name]) = some .file then
    vault.rowOf env folder name
  else none

theorem scanEntry_eq (folder : Location Text) (found : List (Location Text) × List CatalogRow)
    (name : Text) :
    vault.scanEntry env folder found name =
      (found.1 ++ (vault.folderAt env folder name).toList,
        found.2 ++ (vault.fileRow env folder name).toList) := by
  unfold scanEntry folderAt fileRow
  cases isShown env name with
  | false =>
      rw [Bool.not_false, if_pos rfl, if_neg (fun both => Bool.false_ne_true both.1),
        if_neg (fun both => Bool.false_ne_true both.1), Option.toList_none, List.append_nil,
        Option.toList_none, List.append_nil]
  | true =>
      rw [Bool.not_true, if_neg Bool.false_ne_true]
      cases vault.tree.node (folder ++ [name]) with
      | none => simp
      | some found =>
          cases found with
          | file => simp
          | directory => simp
          | link target => simp

theorem filterMap_cons_eq {item image : Type} (select : item → Option image) (head : item)
    (tail : List item) :
    (head :: tail).filterMap select = (select head).toList ++ tail.filterMap select := by
  cases selected : select head with
  | none => rw [List.filterMap_cons_none selected, Option.toList_none, List.nil_append]
  | some chosen =>
      rw [List.filterMap_cons_some selected, Option.toList_some, List.singleton_append]

/-- The two accumulators do not depend on each other. -/
theorem scanEntry_fold (folder : Location Text) (names : List Text)
    (found : List (Location Text) × List CatalogRow) :
    names.foldl (vault.scanEntry env folder) found =
      (found.1 ++ names.filterMap (vault.folderAt env folder),
        found.2 ++ names.filterMap (vault.fileRow env folder)) := by
  induction names generalizing found with
  | nil =>
      rw [List.foldl_nil, List.filterMap_nil, List.append_nil, List.filterMap_nil,
        List.append_nil]
  | cons head tail ih =>
      rw [List.foldl_cons, ih, scanEntry_eq, filterMap_cons_eq, filterMap_cons_eq,
        List.append_assoc, List.append_assoc]

theorem scanFolder_eq (folder : Location Text) :
    vault.scanFolder env folder =
      if vault.readable folder then
        ((vault.namesIn folder).filterMap (vault.folderAt env folder),
          (vault.namesIn folder).filterMap (vault.fileRow env folder))
      else ([], []) := by
  unfold scanFolder
  rw [scanEntry_fold, List.nil_append, List.nil_append]

theorem mem_subfolders {folder child : Location Text} :
    child ∈ vault.subfolders env folder ↔
      vault.readable folder = true ∧ ∃ name, child = folder ++ [name] ∧
        isShown env name = true ∧ vault.tree.node child = some .directory := by
  unfold subfolders
  rw [scanFolder_eq]
  cases vault.readable folder with
  | false =>
      rw [if_neg Bool.false_ne_true]
      constructor
      · intro impossible
        cases impossible
      · intro impossible
        cases impossible.1
  | true =>
      rw [if_pos rfl, List.mem_filterMap]
      unfold folderAt
      constructor
      · rintro ⟨name, _member, isChild⟩
        split at isChild
        case isTrue both =>
          cases isChild
          exact ⟨rfl, name, rfl, both.1, both.2⟩
        case isFalse => cases isChild
      · rintro ⟨_readable, name, same, shown, isFolder⟩
        rw [same] at isFolder ⊢
        refine ⟨name, mem_namesIn.mpr (by rw [isFolder]; rfl), ?_⟩
        rw [if_pos ⟨shown, isFolder⟩]

theorem mem_rows {folder : Location Text} {row : CatalogRow} :
    row ∈ (vault.scanFolder env folder).2 ↔
      vault.readable folder = true ∧ ∃ name, isShown env name = true ∧
        vault.tree.node (folder ++ [name]) = some .file ∧
          vault.rowOf env folder name = some row := by
  rw [scanFolder_eq]
  cases vault.readable folder with
  | false =>
      rw [if_neg Bool.false_ne_true]
      constructor
      · intro impossible
        cases impossible
      · intro impossible
        cases impossible.1
  | true =>
      rw [if_pos rfl, List.mem_filterMap]
      unfold fileRow
      constructor
      · rintro ⟨name, _member, isRow⟩
        split at isRow
        case isTrue both => exact ⟨rfl, name, both.1, both.2, isRow⟩
        case isFalse => cases isRow
      · rintro ⟨_readable, name, shown, isFile, isRow⟩
        refine ⟨name, mem_namesIn.mpr (by rw [isFile]; rfl), ?_⟩
        rw [if_pos ⟨shown, isFile⟩]
        exact isRow

/-! ### The loop -/

/-- The loop visits folders in the order of a stack and collects their rows. -/
theorem scanLoop_eq (fuel : Nat) :
    ∀ stack rows, vault.scanLoop env fuel stack rows =
      rows ++ (Worklist.visit (vault.subfolders env) fuel stack).flatMap
        (fun folder => (vault.scanFolder env folder).2) := by
  induction fuel with
  | zero =>
      intro stack rows
      unfold scanLoop Worklist.visit
      rw [List.flatMap_nil, List.append_nil]
  | succ fuel ih =>
      intro stack rows
      cases stack with
      | nil =>
          unfold scanLoop Worklist.visit
          rw [List.flatMap_nil, List.append_nil]
      | cons current stack =>
          unfold scanLoop Worklist.visit
          rw [ih, List.flatMap_cons, List.append_assoc]
          rfl

theorem subfolders_nodup (folder : Location Text) : (vault.subfolders env folder).Nodup := by
  unfold subfolders
  rw [scanFolder_eq]
  split
  · refine (namesIn_nodup folder).filterMap ?_
    intro name name' child isChild isChild'
    unfold folderAt at isChild isChild'
    split at isChild
    · split at isChild'
      · cases isChild
        have same := Option.some.inj isChild'
        exact (List.singleton_inj.mp (List.append_cancel_left same)).symm
      · cases isChild'
    · cases isChild
  · exact List.nodup_nil

/-- A folder the scan gets to lies below the root, by names that are shown. -/
theorem reached_below {folder : Location Text}
    (reached : Worklist.Reached (vault.subfolders env) vault.root folder) :
    vault.root <+: folder ∧ vault.tree.node folder = some .directory := by
  induction reached with
  | root => exact ⟨List.prefix_refl _, vault.rootFolder⟩
  | child _reached isChild ih =>
      obtain ⟨_readable, name, same, _shown, isFolder⟩ := mem_subfolders.mp isChild
      refine ⟨?_, isFolder⟩
      rw [same]
      exact ih.1.trans (List.prefix_append _ _)

theorem arborescent :
    Worklist.Arborescent (vault.subfolders env) vault.root
      (vault.root :: vault.tree.entries.map Prod.fst) := by
  constructor
  · intro parent _reached
    exact subfolders_nodup parent
  · intro child first second _reached _reached' isChild isChild'
    obtain ⟨_readable, name, same, _shown, _isFolder⟩ := mem_subfolders.mp isChild
    obtain ⟨_readable', name', same', _shown', _isFolder'⟩ := mem_subfolders.mp isChild'
    rw [same] at same'
    have shorter := congrArg List.dropLast same'
    rw [List.dropLast_concat, List.dropLast_concat] at shorter
    exact shorter
  · intro parent reached isChild
    obtain ⟨_readable, name, same, _shown, _isFolder⟩ := mem_subfolders.mp isChild
    have longer := congrArg List.length same
    have below := (reached_below reached).1.length_le
    rw [List.length_append, List.length_singleton] at longer
    omega
  · intro folder reached
    cases reached with
    | root => exact List.mem_cons_self
    | child _reached isChild =>
        obtain ⟨_readable, name, same, _shown, isFolder⟩ := mem_subfolders.mp isChild
        rw [same] at isFolder ⊢
        obtain ⟨entry, member, isEntry⟩ := vault.tree.exists_entry
          (List.append_ne_nil_of_right_ne_nil _ (List.cons_ne_nil _ _))
          (by rw [isFolder]; rfl)
        rw [← isEntry]
        exact List.mem_cons_of_mem _ (List.mem_map_of_mem member)

variable (vault env) in
/-- The folders that are scanned, in the order of the scan. -/
def scannedFolders : List (Location Text) :=
  Worklist.visit (vault.subfolders env) (vault.tree.entries.length + 1) [vault.root]

theorem scannedFolders_spec :
    (vault.scannedFolders env).Nodup ∧ ∀ folder, folder ∈ vault.scannedFolders env ↔
      Worklist.Reached (vault.subfolders env) vault.root folder := by
  apply Worklist.visit_spec arborescent
  rw [List.length_cons, List.length_map]

theorem mem_scanVault {row : CatalogRow} :
    row ∈ vault.scanVault env ↔
      ∃ folder, Worklist.Reached (vault.subfolders env) vault.root folder ∧
        row ∈ (vault.scanFolder env folder).2 := by
  unfold scanVault
  rw [scanLoop_eq, List.nil_append, List.mem_flatMap]
  constructor
  · rintro ⟨folder, member, isRow⟩
    exact ⟨folder, (scannedFolders_spec.2 folder).mp member, isRow⟩
  · rintro ⟨folder, reached, isRow⟩
    exact ⟨folder, (scannedFolders_spec.2 folder).mpr reached, isRow⟩

/-! ### What is listed -/

/-- Only a hidden name can have dots alone before its last dot. -/
theorem splitext_shown {name : Text} (shown : isShown env name = true) :
    PurePath.splitext name = (splitAtLastDot name).getD (name, []) := by
  unfold PurePath.splitext splitAtLastDot
  dsimp only
  cases rest : name.reverse.dropWhile (· != '.') with
  | nil => rfl
  | cons dot front =>
      dsimp only [Option.getD_some]
      have isDot : dot = '.' := by
        have stops := List.head?_dropWhile_not (· != '.') name.reverse
        rw [rest] at stops
        simpa using stops
      have whole : name = front.reverse ++ '.' ::
          (name.reverse.takeWhile (· != '.')).reverse := by
        have split := @List.takeWhile_append_dropWhile _ (· != '.') name.reverse
        rw [rest, isDot] at split
        have back := congrArg List.reverse split
        rw [List.reverse_reverse, List.reverse_append, List.reverse_cons, List.append_assoc]
          at back
        exact back.symm
      cases dotted : front.all (· == '.') with
      | false => rw [if_neg Bool.false_ne_true]
      | true =>
          exfalso
          have hidden : Text.startsWith name ".".toList = true := by
            unfold Text.startsWith
            rw [List.isPrefixOf_iff_prefix, whole]
            cases reversed : front.reverse with
            | nil => exact ⟨_, rfl⟩
            | cons first others =>
                have member : first ∈ front := by
                  rw [← List.mem_reverse, reversed]
                  exact List.mem_cons_self
                have same := beq_iff_eq.mp (List.all_eq_true.mp dotted first member)
                rw [same]
                exact ⟨_, rfl⟩
          unfold isShown at shown
          rw [hidden, Bool.or_true] at shown
          cases shown

/-- The folders the scan gets to lie below the root, by names that are shown, in folders that
can be listed. -/
theorem reached_iff {names : List Text} :
    Worklist.Reached (vault.subfolders env) vault.root (vault.root ++ names) ↔
      (∀ name ∈ names, isShown env name = true) ∧
        (∀ depth < names.length, vault.readable (vault.root ++ names.take depth) = true) ∧
          vault.tree.node (vault.root ++ names) = some .directory := by
  induction names using List.reverseRecOn with
  | nil =>
      rw [List.append_nil]
      constructor
      · intro _reached
        refine ⟨fun _name impossible => (by cases impossible), ?_, vault.rootFolder⟩
        intro depth below
        exact absurd below (Nat.not_lt_zero depth)
      · intro _conditions
        exact Worklist.Reached.root
  | append_singleton front last ih =>
      have whole : vault.root ++ (front ++ [last]) = (vault.root ++ front) ++ [last] :=
        (List.append_assoc _ _ _).symm
      have earlier : ∀ depth ≤ front.length, (front ++ [last]).take depth = front.take depth :=
        fun depth below => List.take_append_of_le_length below
      constructor
      · intro reached
        have isFolder := (reached_below reached).2
        generalize isLocation : vault.root ++ (front ++ [last]) = location at reached isFolder ⊢
        cases reached with
        | root =>
            have length := congrArg List.length isLocation
            rw [List.length_append, List.length_append, List.length_singleton] at length
            omega
        | child parentReached isChild =>
            obtain ⟨readable, name, same, shown, _isFolder⟩ := mem_subfolders.mp isChild
            rw [← isLocation, whole] at same
            have parts := List.append_inj' same rfl
            rw [← parts.1] at parentReached readable
            obtain ⟨frontShown, frontReadable, _parent⟩ := ih.mp parentReached
            refine ⟨?_, ?_, isFolder⟩
            · intro present member
              rcases List.mem_append.mp member with inFront | isLast
              · exact frontShown present inFront
              · rw [List.mem_singleton.mp isLast, List.singleton_inj.mp parts.2]
                exact shown
            · intro depth below
              rw [List.length_append, List.length_singleton] at below
              rw [earlier depth (by omega)]
              rcases Nat.lt_or_eq_of_le (Nat.le_of_lt_succ below) with inside | atEnd
              · exact frontReadable depth inside
              · rw [atEnd, List.take_length]
                exact readable
      · rintro ⟨shown, readable, isFolder⟩
        rw [whole] at isFolder ⊢
        have parent := vault.tree.parent_directory_snoc (by rw [isFolder]; rfl)
        refine Worklist.Reached.child (ih.mpr ⟨?_, ?_, parent⟩) (mem_subfolders.mpr ⟨?_, last,
          rfl, shown last (List.mem_append_right _ (List.mem_singleton_self _)), isFolder⟩)
        · exact fun name member => shown name (List.mem_append_left _ member)
        · intro depth below
          rw [← earlier depth (Nat.le_of_lt below)]
          exact readable depth (by rw [List.length_append]; omega)
        · have atFront := readable front.length (by rw [List.length_append]; exact Nat.lt_succ_self _)
          rw [earlier front.length (Nat.le_refl _), List.take_length] at atFront
          exact atFront

/-! ### The paths -/

theorem named_of_node {location : Location Text} (filled : location ≠ [])
    (present : (vault.tree.node location).isSome = true) :
    ∀ name ∈ location, IsFileName name := by
  obtain ⟨entry, member, same⟩ := vault.tree.exists_entry filled present
  rw [← same]
  exact vault.named entry member

/-- Below the root the relative path tells the location. -/
theorem relativeText_inj {folder folder' : Location Text} {name name' : Text}
    (below : vault.root <+: folder) (below' : vault.root <+: folder')
    (present : (vault.tree.node (folder ++ [name])).isSome = true)
    (present' : (vault.tree.node (folder' ++ [name'])).isSome = true)
    (same : vault.relativeText (folder ++ [name]) = vault.relativeText (folder' ++ [name'])) :
    folder = folder' ∧ name = name' := by
  have rebuilt : ∀ {location : Location Text} {last : Text}, vault.root <+: location →
      (vault.tree.node (location ++ [last])).isSome = true →
        Text.split "/".toList (vault.relativeText (location ++ [last])) =
            (location ++ [last]).drop vault.root.length ∧
          vault.root ++ (location ++ [last]).drop vault.root.length = location ++ [last] := by
    intro location last isBelow isPresent
    obtain ⟨rest, split⟩ := isBelow
    have relative : (location ++ [last]).drop vault.root.length = rest ++ [last] := by
      rw [← split, List.append_assoc, List.drop_left]
    unfold relativeText
    rw [relative]
    constructor
    · apply PurePath.split_join
      · exact List.append_ne_nil_of_right_ne_nil _ (List.cons_ne_nil _ _)
      · intro component member
        apply (named_of_node (List.append_ne_nil_of_right_ne_nil _ (List.cons_ne_nil _ _))
          isPresent component _).2.1
        rw [← split, List.append_assoc]
        exact List.mem_append_right _ member
    · rw [← List.append_assoc, split]
  obtain ⟨parts, whole⟩ := rebuilt below present
  obtain ⟨parts', whole'⟩ := rebuilt below' present'
  rw [same, parts'] at parts
  rw [← parts, whole'] at whole
  have both := List.append_inj' whole.symm rfl
  exact ⟨both.1, List.singleton_inj.mp both.2⟩

theorem rowOf_path {folder : Location Text} {name : Text} {row : CatalogRow}
    (isRow : vault.rowOf env folder name = some row) :
    row.path = vault.relativeText (folder ++ [name]) := by
  unfold rowOf at isRow
  split at isRow
  · cases isRow
  · dsimp only at isRow
    split at isRow
    · obtain ⟨status, _isStatus, same⟩ := Option.map_eq_some_iff.mp isRow
      rw [← same]
    · cases isRow

/-- The path of a row of a scanned folder tells the file. -/
theorem row_location {folder folder' : Location Text} {name name' : Text}
    {row row' : CatalogRow} (below : vault.root <+: folder) (below' : vault.root <+: folder')
    (isFile : vault.tree.node (folder ++ [name]) = some .file)
    (isFile' : vault.tree.node (folder' ++ [name']) = some .file)
    (isRow : vault.rowOf env folder name = some row)
    (isRow' : vault.rowOf env folder' name' = some row') (same : row.path = row'.path) :
    folder = folder' ∧ name = name' := by
  rw [rowOf_path isRow, rowOf_path isRow'] at same
  exact relativeText_inj below below' (by rw [isFile]; rfl) (by rw [isFile']; rfl) same

/-- No two rows of the scan have the same path. -/
theorem scanVault_distinct : ((vault.scanVault env).map CatalogRow.path).Nodup := by
  unfold scanVault
  rw [scanLoop_eq, List.nil_append, List.map_flatMap, List.nodup_flatMap]
  constructor
  · intro folder member
    have below := (reached_below ((scannedFolders_spec.2 folder).mp member)).1
    rw [scanFolder_eq]
    split
    · rw [List.map_filterMap]
      refine List.Pairwise.filterMap _ ?_ (namesIn_nodup folder)
      intro name name' differ path isPath path' isPath' same
      apply differ
      obtain ⟨row, isRow, samePath⟩ := Option.map_eq_some_iff.mp isPath
      obtain ⟨row', isRow', samePath'⟩ := Option.map_eq_some_iff.mp isPath'
      unfold fileRow at isRow isRow'
      split at isRow
      case isTrue both =>
        split at isRow'
        case isTrue both' =>
          apply (row_location below below both.2 both'.2 isRow isRow' _).2
          rw [samePath, samePath', same]
        case isFalse => cases isRow'
      case isFalse => cases isRow
    · exact List.nodup_nil
  · refine scannedFolders_spec.1.imp_of_mem ?_
    intro folder folder' member member' differ path inFirst inSecond
    apply differ
    obtain ⟨row, isRow, samePath⟩ := List.mem_map.mp inFirst
    obtain ⟨row', isRow', samePath'⟩ := List.mem_map.mp inSecond
    obtain ⟨_readable, name, _shown, isFile, rowIs⟩ := mem_rows.mp isRow
    obtain ⟨_readable', name', _shown', isFile', rowIs'⟩ := mem_rows.mp isRow'
    exact (row_location (reached_below ((scannedFolders_spec.2 folder).mp member)).1
      (reached_below ((scannedFolders_spec.2 folder').mp member')).1 isFile isFile' rowIs rowIs'
      (samePath.trans samePath'.symm)).1

end CatalogVault

end VaultSearch
