/-
`folder_tree` of `server/search_tools.py`: the folders of the catalog as a nested dictionary.

The dictionary of a folder holds its children under their names, and under `_count` the number of
its notes.  A child with that name takes the place of the number.
-/

import Mathlib.Algebra.BigOperators.Group.Finset.Basic
import Mathlib.Data.List.Dedup
import VaultSearch.Crud.CatalogList
import VaultSearch.Server.BridgeNotes
import VaultSearch.Server.Orphans
import VaultSearch.Store.OrderedDict

set_option autoImplicit false

namespace VaultSearch

/-- `int | FolderTree` -/
inductive TreeValue where
  | count (notes : Nat)
  | folder (entries : List (Text × TreeValue))

abbrev FolderTree := List (Text × TreeValue)

def countKey : Text := "_count".toList

/-- The value under `_count`, if it is a number. -/
def countOf (tree : FolderTree) : Nat :=
  match tree.lookup countKey with
  | some (.count notes) => notes
  | _ => 0

/-- The dictionary under a name, or a new one. -/
def childOf (tree : FolderTree) (name : Text) : FolderTree :=
  match tree.lookup name with
  | some (.folder entries) => entries
  | _ => []

def addCount (tree : FolderTree) (count : Nat) : FolderTree :=
  OrderedDict.set tree countKey (.count (countOf tree + count))

/-- `insert_path` -/
def insertPath (includeCounts : Bool) (maxDepth : Nat) (count : Nat) :
    FolderTree → List Text → Nat → FolderTree
  | tree, [], _ => tree
  | tree, part :: remaining, depth =>
      if maxDepth ≤ depth then tree
      else
        let child := childOf tree part
        let child :=
          if includeCounts && (remaining.isEmpty || maxDepth ≤ depth + 1) then addCount child count
          else child
        let child :=
          if !remaining.isEmpty && depth + 1 < maxDepth then
            insertPath includeCounts maxDepth count child remaining (depth + 1)
          else child
        OrderedDict.set tree part (.folder child)

/-- The variables of the loop over the rows. -/
structure FolderScan where
  tree : FolderTree := []
  totalNotes : Nat := 0
  allFolders : List Text := []

/-- The folder and the folders around it. -/
def folderPrefixes (parts : List Text) : List Text :=
  (List.range parts.length).map (fun index => Text.join "/".toList (parts.take (index + 1)))

def FolderScan.row (includeCounts : Bool) (maxDepth : Nat) (scan : FolderScan)
    (row : Text × Nat) : FolderScan :=
  let (folder, count) := row
  if folder.isEmpty then
    { scan with
      totalNotes := scan.totalNotes + count
      tree := if includeCounts then addCount scan.tree count else scan.tree }
  else
    let parts := (PurePath.parts folder).take maxDepth
    { totalNotes := scan.totalNotes + count
      allFolders := (folderPrefixes parts).foldl (fun all name => all.insert name) scan.allFolders
      tree := insertPath includeCounts maxDepth count scan.tree parts 0 }

/-- `SELECT folder, COUNT(*) .. GROUP BY folder ORDER BY folder` -/
def folderCounts (folders : List Text) : List (Text × Nat) :=
  (Graph.sortTexts folders).dedup.map (fun folder => (folder, folders.count folder))

structure FolderReport where
  totalFolders : Nat
  totalNotes : Nat
  tree : FolderTree

def FolderScan.report (scan : FolderScan) : FolderReport :=
  { totalFolders := scan.allFolders.length, totalNotes := scan.totalNotes, tree := scan.tree }

/-- `depthLimit` is `FOLDER_TREE_MAX_DEPTH_LIMIT`. -/
def boundedDepth (depthLimit : Nat) (maxDepth : Int) : Nat :=
  (max 1 (min maxDepth depthLimit)).toNat

def folderTree (depthLimit : Nat) (catalog : NotesCatalog) (includeCounts : Bool)
    (maxDepth : Int) : Except ToolError FolderReport :=
  if !catalog.isInitialized then
    .error (.message "Error: catalog is unavailable. Run reindex_vault first.".toList)
  else
    .ok ((folderCounts (catalog.table.rows.map CatalogRow.folder)).foldl
      (FolderScan.row includeCounts (boundedDepth depthLimit maxDepth)) {}).report

/-! ### Nodes -/

/-- The dictionary of a folder. -/
def nodeAt : FolderTree → List Text → Option FolderTree
  | tree, [] => some tree
  | tree, name :: rest =>
      match tree.lookup name with
      | some (.folder child) => nodeAt child rest
      | _ => none

def countAt (tree : FolderTree) (path : List Text) : Nat :=
  (nodeAt tree path).elim 0 countOf

mutual

/-- The folders in a value, by their paths from it. -/
def TreeValue.folders : TreeValue → List (List Text)
  | .count _ => []
  | .folder entries => [] :: foldersIn entries

def foldersIn : FolderTree → List (List Text)
  | [] => []
  | (name, value) :: rest =>
      value.folders.map (fun path => name :: path) ++ foldersIn rest

end

theorem foldersIn_cons (name : Text) (value : TreeValue) (rest : FolderTree) :
    foldersIn ((name, value) :: rest) =
      value.folders.map (fun path => name :: path) ++ foldersIn rest := by
  rw [foldersIn]

/-- Every dictionary of the tree has distinct keys. -/
inductive Tidy : FolderTree → Prop
  | intro {entries : FolderTree} (distinct : (entries.map Prod.fst).Nodup)
      (below : ∀ name child, (name, TreeValue.folder child) ∈ entries → Tidy child) : Tidy entries

theorem Tidy.distinct {tree : FolderTree} (tidy : Tidy tree) : (tree.map Prod.fst).Nodup := by
  cases tidy with
  | intro distinct below => exact distinct

theorem Tidy.child {tree : FolderTree} (tidy : Tidy tree) {name : Text} {child : FolderTree}
    (member : (name, TreeValue.folder child) ∈ tree) : Tidy child := by
  cases tidy with
  | intro distinct below => exact below name child member

theorem tidy_nil : Tidy [] :=
  .intro List.nodup_nil (fun _name _child member => by cases member)

theorem childOf_some {tree child : FolderTree} {name : Text}
    (found : tree.lookup name = some (.folder child)) : childOf tree name = child := by
  rw [childOf, found]

theorem Tidy.childOf {tree : FolderTree} (tidy : Tidy tree) (name : Text) :
    Tidy (childOf tree name) := by
  unfold VaultSearch.childOf
  split
  case h_1 child found => exact tidy.child (OrderedDict.mem_of_lookup found)
  case h_2 => exact tidy_nil

theorem mem_foldersIn {path : List Text} (tree : FolderTree) :
    path ∈ foldersIn tree ↔ ∃ name child rest, (name, TreeValue.folder child) ∈ tree ∧
      path = name :: rest ∧ (rest = [] ∨ rest ∈ foldersIn child) := by
  induction tree with
  | nil =>
      rw [foldersIn]
      constructor
      · intro member
        cases member
      · intro found
        obtain ⟨_name, _child, _rest, member, _shape⟩ := found
        cases member
  | cons entry entries ih =>
      obtain ⟨name, value⟩ := entry
      rw [foldersIn_cons, List.mem_append, ih, List.mem_map]
      constructor
      · intro found
        cases found with
        | inl here =>
            obtain ⟨rest, member, same⟩ := here
            cases value with
            | count notes =>
                rw [TreeValue.folders] at member
                cases member
            | folder child =>
                rw [TreeValue.folders, List.mem_cons] at member
                exact ⟨name, child, rest, List.mem_cons_self, same.symm, member⟩
        | inr later =>
            obtain ⟨other, child, rest, member, shape⟩ := later
            exact ⟨other, child, rest, List.mem_cons_of_mem _ member, shape⟩
      · intro found
        obtain ⟨other, child, rest, member, same, inside⟩ := found
        cases List.mem_cons.mp member with
        | inl here =>
            obtain ⟨sameName, sameValue⟩ := Prod.mk.inj here
            refine Or.inl ⟨rest, ?_, ?_⟩
            · rw [← sameValue, TreeValue.folders, List.mem_cons]
              exact inside
            · rw [same, sameName]
        | inr later => exact Or.inr ⟨other, child, rest, later, same, inside⟩

/-- The listed folders are the nodes below the root. -/
theorem mem_foldersIn_iff {tree : FolderTree} (tidy : Tidy tree) :
    ∀ path, path ∈ foldersIn tree ↔ path ≠ [] ∧ (nodeAt tree path).isSome = true := by
  induction tidy with
  | @intro entries distinct below ih =>
      intro path
      rw [mem_foldersIn]
      constructor
      · intro found
        obtain ⟨name, child, rest, member, same, inside⟩ := found
        have known : entries.lookup name = some (.folder child) :=
          OrderedDict.lookup_of_mem distinct member
        rw [same]
        refine ⟨List.cons_ne_nil name rest, ?_⟩
        rw [nodeAt, known]
        cases inside with
        | inl empty =>
            rw [empty]
            rfl
        | inr deeper => exact ((ih name child member rest).mp deeper).2
      · intro node
        cases path with
        | nil => exact absurd rfl node.1
        | cons name rest =>
            have present := node.2
            rw [nodeAt] at present
            split at present
            case h_1 child known =>
              have member := OrderedDict.mem_of_lookup known
              refine ⟨name, child, rest, member, rfl, ?_⟩
              cases rest with
              | nil => exact Or.inl rfl
              | cons next more =>
                  refine Or.inr ((ih name child member _).mpr ⟨List.cons_ne_nil _ _, present⟩)
            case h_2 => cases present

theorem nodup_foldersIn {tree : FolderTree} (tidy : Tidy tree) : (foldersIn tree).Nodup := by
  induction tidy with
  | @intro entries distinct below ih =>
      clear below
      induction entries with
      | nil =>
          rw [foldersIn]
          exact List.nodup_nil
      | cons entry rest ihRest =>
          obtain ⟨name, value⟩ := entry
          rw [List.map_cons, List.nodup_cons] at distinct
          rw [foldersIn_cons]
          apply List.Nodup.append
          · apply List.Nodup.map (fun left right same => (List.cons.inj same).2)
            cases value with
            | count notes =>
                rw [TreeValue.folders]
                exact List.nodup_nil
            | folder child =>
                rw [TreeValue.folders, List.nodup_cons]
                refine ⟨?_, ih name child List.mem_cons_self⟩
                intro member
                obtain ⟨_name, _child, _rest, _member, impossible, _inside⟩ :=
                  (mem_foldersIn child).mp member
                cases impossible
          · exact ihRest distinct.2
              (fun other child member => ih other child (List.mem_cons_of_mem _ member))
          · intro path here later
            obtain ⟨tail, _inside, same⟩ := List.mem_map.mp here
            obtain ⟨other, child, more, member, shape, _deeper⟩ := (mem_foldersIn rest).mp later
            rw [← same] at shape
            apply distinct.1
            rw [(List.cons.inj shape).1]
            exact List.mem_map.mpr ⟨(other, .folder child), member, rfl⟩

/-! ### One insertion -/

/-- What `insert_path` does below the depth limit: the count goes to the end of the path. -/
def insertAt (count : Nat) : FolderTree → List Text → FolderTree
  | tree, [] => addCount tree count
  | tree, part :: rest =>
      OrderedDict.set tree part (.folder (insertAt count (childOf tree part) rest))

theorem insertPath_within {maxDepth count : Nat} {parts : List Text} (filled : parts ≠ []) :
    ∀ (tree : FolderTree) (depth : Nat), depth + parts.length ≤ maxDepth →
      insertPath true maxDepth count tree parts depth = insertAt count tree parts := by
  induction parts with
  | nil => exact absurd rfl filled
  | cons part rest ih =>
      intro tree depth within
      rw [List.length_cons] at within
      have shallow : ¬ maxDepth ≤ depth := by omega
      rw [insertPath, if_neg shallow, insertAt]
      cases rest with
      | nil =>
          simp [insertAt]
      | cons next more =>
          rw [List.length_cons] at within
          have deeper : depth + 1 < maxDepth := by omega
          have inner := ih (List.cons_ne_nil next more) (childOf tree part) (depth + 1)
            (by rw [List.length_cons]; omega)
          simp [deeper, Nat.not_le.mpr deeper, inner]

/-- Whether a number is found by these keys. -/
def numberAt : FolderTree → List Text → Bool
  | _tree, [] => false
  | tree, name :: rest =>
      match tree.lookup name with
      | some (.folder child) => numberAt child rest
      | some (.count _notes) => rest.isEmpty
      | none => false

/-- A path along which there is no number in the place of a folder, and no folder in the place of
the number at its end. -/
structure Clear (tree : FolderTree) (path : List Text) : Prop where
  numbers : ∀ front, front <+: path → numberAt tree front = false
  folders : nodeAt tree (path ++ [countKey]) = none

theorem nodeAt_empty {path : List Text} (filled : path ≠ []) : nodeAt [] path = none := by
  cases path with
  | nil => exact absurd rfl filled
  | cons name rest => rfl

theorem countAt_empty (path : List Text) : countAt [] path = 0 := by
  cases path with
  | nil => rfl
  | cons name rest => rfl

theorem numberAt_empty (path : List Text) : numberAt [] path = false := by
  cases path with
  | nil => rfl
  | cons name rest => rfl

theorem nodeAt_childOf (tree : FolderTree) (name : Text) {rest : List Text} (filled : rest ≠ []) :
    nodeAt (childOf tree name) rest = nodeAt tree (name :: rest) := by
  rw [nodeAt]
  unfold childOf
  split
  case h_1 child known => rfl
  case h_2 => exact nodeAt_empty filled

theorem countAt_cons (tree : FolderTree) (name : Text) (rest : List Text) :
    countAt tree (name :: rest) = countAt (childOf tree name) rest := by
  unfold childOf countAt
  rw [nodeAt]
  split
  case h_1 child known => rfl
  case h_2 => exact (countAt_empty rest).symm

theorem numberAt_childOf (tree : FolderTree) (name : Text) {rest : List Text}
    (found : numberAt (childOf tree name) rest = true) : numberAt tree (name :: rest) = true := by
  rw [numberAt]
  unfold childOf at found
  split at found
  case h_1 child known =>
    rw [known]
    exact found
  case h_2 =>
    rw [numberAt_empty] at found
    cases found

theorem Clear.childOf {tree : FolderTree} {name : Text} {rest : List Text}
    (clear : Clear tree (name :: rest)) : Clear (childOf tree name) rest where
  numbers := by
    intro front ahead
    apply eq_false_of_ne_true
    intro found
    have outer := clear.numbers (name :: front) (List.prefix_cons_inj name |>.mpr ahead)
    rw [numberAt_childOf tree name found] at outer
    cases outer
  folders := by
    rw [nodeAt_childOf tree name (List.append_ne_nil_of_right_ne_nil rest (List.cons_ne_nil _ _))]
    exact clear.folders

/-- After an insertion the number of the path's end has grown, and no other has changed. -/
theorem countAt_insertAt (count : Nat) {path : List Text} :
    ∀ {tree : FolderTree}, Clear tree path → ∀ other,
      countAt (insertAt count tree path) other =
        countAt tree other + if path = other then count else 0 := by
  induction path with
  | nil =>
      intro tree clear other
      rw [insertAt]
      cases other with
      | nil =>
          rw [if_pos rfl]
          unfold countAt addCount
          simp only [nodeAt, Option.elim_some]
          rw [countOf, OrderedDict.lookup_set, if_pos rfl]
      | cons name rest =>
          rw [if_neg (List.cons_ne_nil name rest).symm, Nat.add_zero, countAt_cons, countAt_cons]
          unfold addCount childOf
          rw [OrderedDict.lookup_set]
          by_cases same : name = countKey
          · rw [if_pos same]
            have noFolder := clear.folders
            rw [List.nil_append, nodeAt] at noFolder
            rw [same]
            split at noFolder
            case h_1 child known => cases noFolder
            case h_2 isNot => rfl
          · rw [if_neg same]
  | cons part rest ih =>
      intro tree clear other
      rw [insertAt]
      cases other with
      | nil =>
          rw [if_neg (List.cons_ne_nil part rest), Nat.add_zero]
          unfold countAt
          simp only [nodeAt, Option.elim_some]
          rw [countOf, countOf, OrderedDict.lookup_set]
          by_cases same : countKey = part
          · rw [if_pos same]
            have noNumber := clear.numbers [part] (List.prefix_cons_inj part |>.mpr
              List.nil_prefix)
            rw [numberAt, ← same] at noNumber
            dsimp only
            split
            case h_1 notes known =>
              rw [known] at noNumber
              cases noNumber
            case h_2 => rfl
          · rw [if_neg same]
      | cons name more =>
          rw [countAt_cons, countAt_cons]
          by_cases same : name = part
          · have inside : childOf
                (OrderedDict.set tree part (.folder (insertAt count (childOf tree part) rest)))
                name = insertAt count (childOf tree part) rest := by
              apply childOf_some
              rw [OrderedDict.lookup_set, if_pos same]
            rw [inside, ih clear.childOf more, same]
            simp only [List.cons.injEq, true_and]
          · have beside : childOf
                (OrderedDict.set tree part (.folder (insertAt count (childOf tree part) rest)))
                name = childOf tree name := by
              rw [childOf, OrderedDict.lookup_set, if_neg same, childOf]
            have apart : part :: rest ≠ name :: more := by
              intro equal
              exact same (List.cons.inj equal).1.symm
            rw [beside, if_neg apart, Nat.add_zero]

/-- The folders after an insertion are the earlier ones and those along the path. -/
theorem nodeAt_insertAt (count : Nat) {path : List Text} :
    ∀ {tree : FolderTree}, Clear tree path → ∀ other,
      (nodeAt (insertAt count tree path) other).isSome = true ↔
        (nodeAt tree other).isSome = true ∨ other <+: path := by
  induction path with
  | nil =>
      intro tree clear other
      rw [insertAt]
      cases other with
      | nil => simp [nodeAt]
      | cons name rest =>
          rw [nodeAt, nodeAt]
          unfold addCount
          rw [OrderedDict.lookup_set]
          by_cases same : name = countKey
          · have noFolder := clear.folders
            rw [List.nil_append, nodeAt, ← same] at noFolder
            rw [if_pos same]
            split at noFolder
            case h_1 child known => cases noFolder
            case h_2 isNot => simp
          · rw [if_neg same]
            simp
  | cons part rest ih =>
      intro tree clear other
      rw [insertAt]
      cases other with
      | nil => simp [nodeAt]
      | cons name more =>
          by_cases same : name = part
          · rw [nodeAt, OrderedDict.lookup_set, if_pos same]
            dsimp only
            rw [ih clear.childOf more, same, List.prefix_cons_inj]
            by_cases here : more = []
            · rw [here]
              simp [nodeAt]
            · rw [nodeAt_childOf tree part here]
          · rw [nodeAt, OrderedDict.lookup_set, if_neg same, ← nodeAt]
            constructor
            · intro present
              exact Or.inl present
            · intro either
              cases either with
              | inl present => exact present
              | inr ahead => exact absurd (List.cons_prefix_cons.mp ahead).1 same

/-- The only new number is the one at the end of the path. -/
theorem numberAt_insertAt (count : Nat) {path : List Text} :
    ∀ {tree : FolderTree} {other : List Text},
      numberAt (insertAt count tree path) other = true →
        numberAt tree other = true ∨ other = path ++ [countKey] := by
  induction path with
  | nil =>
      intro tree other found
      rw [insertAt] at found
      cases other with
      | nil => cases found
      | cons name rest =>
          rw [numberAt] at found ⊢
          unfold addCount at found
          rw [OrderedDict.lookup_set] at found
          by_cases same : name = countKey
          · rw [if_pos same] at found
            rw [same, List.isEmpty_iff.mp found]
            exact Or.inr rfl
          · rw [if_neg same] at found
            exact Or.inl found
  | cons part rest ih =>
      intro tree other found
      rw [insertAt] at found
      cases other with
      | nil => cases found
      | cons name more =>
          rw [numberAt, OrderedDict.lookup_set] at found
          by_cases same : name = part
          · rw [if_pos same] at found
            rw [same]
            cases ih found with
            | inl earlier => exact Or.inl (numberAt_childOf tree part earlier)
            | inr last =>
                rw [last]
                exact Or.inr rfl
          · rw [if_neg same] at found
            apply Or.inl
            rw [numberAt]
            exact found

theorem Tidy.set {tree : FolderTree} (tidy : Tidy tree) (name : Text) {value : TreeValue}
    (sound : ∀ child, value = .folder child → Tidy child) :
    Tidy (OrderedDict.set tree name value) := by
  apply Tidy.intro (OrderedDict.distinct_set tidy.distinct name value)
  intro other child member
  have known := OrderedDict.lookup_of_mem (OrderedDict.distinct_set tidy.distinct name value) member
  rw [OrderedDict.lookup_set] at known
  split at known
  case isTrue same => exact sound child (Option.some.inj known)
  case isFalse apart => exact tidy.child (OrderedDict.mem_of_lookup known)

theorem Tidy.insertAt (count : Nat) {path : List Text} :
    ∀ {tree : FolderTree}, Tidy tree → Tidy (insertAt count tree path) := by
  induction path with
  | nil =>
      intro tree tidy
      rw [VaultSearch.insertAt, addCount]
      exact tidy.set countKey (fun child isFolder => by cases isFolder)
  | cons part rest ih =>
      intro tree tidy
      rw [VaultSearch.insertAt]
      apply tidy.set part
      intro child same
      rw [← TreeValue.folder.inj same]
      exact ih (tidy.childOf part)

/-! ### The whole catalog -/

/-- What the folder column of a row holds: names of directories below the vault. -/
def IsCatalogFolder (folder : Text) : Prop :=
  ∃ names : List Text, (∀ name ∈ names, name ≠ [] ∧ name ≠ ".".toList ∧ '/' ∉ name) ∧
    folder = Text.join "/".toList names

/-- The node that counts the notes of a folder. -/
def placeOf (depth : Nat) (folder : Text) : List Text :=
  (PurePath.parts folder).take depth

theorem isCatalogFolder_folder (path : Text) : IsCatalogFolder (PurePath.folder path) := by
  refine ⟨(PurePath.parts path).dropLast, ?_, rfl⟩
  intro name member
  have part := List.mem_filter.mp (List.mem_of_mem_dropLast member)
  have checks := Bool.and_eq_true_iff.mp part.2
  refine ⟨?_, bne_iff_ne.mp checks.2, ?_⟩
  · intro empty
    rw [empty] at checks
    cases checks.1
  · exact PurePath.splitFrom_noSlash path [] List.not_mem_nil name part.1

theorem mem_folderPrefixes {parts : List Text} {name : Text} :
    name ∈ folderPrefixes parts ↔
      ∃ front, front ≠ [] ∧ front <+: parts ∧ name = Text.join "/".toList front := by
  unfold folderPrefixes
  rw [List.mem_map]
  constructor
  · intro found
    obtain ⟨index, member, same⟩ := found
    have short := List.mem_range.mp member
    refine ⟨parts.take (index + 1), ?_, List.take_prefix _ _, same.symm⟩
    rw [← List.length_pos_iff, List.length_take]
    omega
  · intro found
    obtain ⟨front, filled, ahead, same⟩ := found
    have positive := List.length_pos_iff.mpr filled
    have short := ahead.length_le
    refine ⟨front.length - 1, List.mem_range.mpr (by omega), ?_⟩
    rw [Nat.sub_add_cancel positive, ← List.prefix_iff_eq_take.mp ahead, same]

theorem mem_foldl_insert {names all : List Text} {name : Text} :
    name ∈ names.foldl (fun all name => all.insert name) all ↔ name ∈ all ∨ name ∈ names := by
  induction names generalizing all with
  | nil => simp
  | cons head rest ih =>
      rw [List.foldl_cons, ih, List.mem_insert_iff, List.mem_cons]
      tauto

theorem nodup_foldl_insert {names all : List Text} (distinct : all.Nodup) :
    (names.foldl (fun all name => all.insert name) all).Nodup := by
  induction names generalizing all with
  | nil => exact distinct
  | cons head rest ih => exact ih (distinct.insert)

/-- One row counts its notes at its place and lists the folders along it. -/
theorem row_catalogFolder {depth : Nat} (positive : 0 < depth) (scan : FolderScan)
    {row : Text × Nat} (isFolder : IsCatalogFolder row.1) :
    FolderScan.row true depth scan row =
      { tree := insertAt row.2 scan.tree (placeOf depth row.1)
        totalNotes := scan.totalNotes + row.2
        allFolders := (folderPrefixes (placeOf depth row.1)).foldl
          (fun all name => all.insert name) scan.allFolders } := by
  obtain ⟨folder, count⟩ := row
  obtain ⟨names, named, same⟩ := isFolder
  have parts := PurePath.parts_join_names named
  dsimp only at same ⊢
  unfold FolderScan.row placeOf
  rw [same, parts]
  by_cases empty : names = []
  · rw [empty]
    simp [Text.join, insertAt, folderPrefixes]
  · have filled : (Text.join "/".toList names).isEmpty = false := by
      apply eq_false_of_ne_true
      intro isEmpty
      rw [List.isEmpty_iff.mp isEmpty] at parts
      exact empty parts.symm
    have taken : names.take depth ≠ [] := by
      rw [← List.length_pos_iff, List.length_take]
      have long := List.length_pos_iff.mpr empty
      omega
    have within : 0 + (names.take depth).length ≤ depth := by
      rw [List.length_take]
      omega
    dsimp only
    rw [filled, if_neg Bool.false_ne_true, parts, insertPath_within taken scan.tree 0 within]

/-- No folder with notes has a child under the name of its number. -/
def NoClash (depth : Nat) (folders : List Text) : Prop :=
  ∀ folder ∈ folders, ∀ other ∈ folders,
    ¬ placeOf depth folder ++ [countKey] <+: placeOf depth other

/-- What the loop has built from these rows. -/
structure Scanned (depth : Nat) (done : List (Text × Nat)) (scan : FolderScan) : Prop where
  tidy : Tidy scan.tree
  nodes : ∀ path, (nodeAt scan.tree path).isSome = true ↔
    path = [] ∨ ∃ row ∈ done, path <+: placeOf depth row.1
  counts : ∀ path, countAt scan.tree path =
    ((done.filter (fun row => placeOf depth row.1 = path)).map Prod.snd).sum
  numbers : ∀ path, numberAt scan.tree path = true →
    ∃ row ∈ done, path = placeOf depth row.1 ++ [countKey]
  total : scan.totalNotes = (done.map Prod.snd).sum
  distinct : scan.allFolders.Nodup
  listed : ∀ name, name ∈ scan.allFolders ↔
    ∃ row ∈ done, ∃ front, front ≠ [] ∧ front <+: placeOf depth row.1 ∧
      name = Text.join "/".toList front

theorem Scanned.start (depth : Nat) : Scanned depth [] {} where
  tidy := tidy_nil
  nodes := by
    intro path
    cases path with
    | nil => simp [nodeAt]
    | cons name rest => simp [nodeAt]
  counts := countAt_empty
  numbers := by
    intro path found
    rw [numberAt_empty] at found
    cases found
  total := rfl
  distinct := List.nodup_nil
  listed := by simp

/-- The place of a row is clear while no two rows clash. -/
theorem Scanned.clear {depth : Nat} {done : List (Text × Nat)} {scan : FolderScan}
    (scanned : Scanned depth done scan) {folder : Text}
    (before : ∀ row ∈ done, ¬ placeOf depth row.1 ++ [countKey] <+: placeOf depth folder)
    (after : ∀ row ∈ done, ¬ placeOf depth folder ++ [countKey] <+: placeOf depth row.1) :
    Clear scan.tree (placeOf depth folder) where
  numbers := by
    intro front ahead
    apply eq_false_of_ne_true
    intro found
    obtain ⟨row, member, same⟩ := scanned.numbers front found
    rw [same] at ahead
    exact before row member ahead
  folders := by
    rw [← Option.not_isSome_iff_eq_none, scanned.nodes]
    intro either
    cases either with
    | inl empty => exact List.append_ne_nil_of_right_ne_nil _ (List.cons_ne_nil _ _) empty
    | inr inside =>
        obtain ⟨row, member, ahead⟩ := inside
        exact after row member ahead

theorem Scanned.step {depth : Nat} (positive : 0 < depth) {done : List (Text × Nat)}
    {scan : FolderScan} (scanned : Scanned depth done scan) {row : Text × Nat}
    (isFolder : IsCatalogFolder row.1) (clear : Clear scan.tree (placeOf depth row.1)) :
    Scanned depth (done ++ [row]) (FolderScan.row true depth scan row) := by
  rw [row_catalogFolder positive scan isFolder]
  constructor
  case tidy => exact scanned.tidy.insertAt row.2
  case nodes =>
    intro path
    rw [nodeAt_insertAt row.2 clear, scanned.nodes]
    simp only [List.mem_append, List.mem_singleton, or_and_right, exists_or, exists_eq_left,
      or_assoc]
  case counts =>
    intro path
    rw [countAt_insertAt row.2 clear, scanned.counts, List.filter_append, List.map_append,
      List.sum_append, List.filter_singleton]
    by_cases here : placeOf depth row.1 = path
    · simp [here]
    · simp [here]
  case numbers =>
    intro path found
    cases numberAt_insertAt row.2 found with
    | inl earlier =>
        obtain ⟨former, member, same⟩ := scanned.numbers path earlier
        exact ⟨former, List.mem_append_left _ member, same⟩
    | inr last => exact ⟨row, List.mem_append_right _ List.mem_cons_self, last⟩
  case total =>
    rw [List.map_append, List.sum_append, ← scanned.total]
    simp
  case distinct => exact nodup_foldl_insert scanned.distinct
  case listed =>
    intro name
    rw [mem_foldl_insert, scanned.listed, mem_folderPrefixes]
    simp only [List.mem_append, List.mem_singleton, or_and_right, exists_or, exists_eq_left]

theorem Scanned.run {depth : Nat} (positive : 0 < depth) {rest : List (Text × Nat)} :
    ∀ {done : List (Text × Nat)} {scan : FolderScan}, Scanned depth done scan →
      (∀ row ∈ done ++ rest, IsCatalogFolder row.1) →
      NoClash depth ((done ++ rest).map Prod.fst) →
      Scanned depth (done ++ rest) (rest.foldl (FolderScan.row true depth) scan) := by
  induction rest with
  | nil =>
      intro done scan scanned _folders _apart
      rw [List.append_nil]
      exact scanned
  | cons row rest ih =>
      intro done scan scanned folders apart
      have here : row ∈ done ++ row :: rest := List.mem_append_right _ List.mem_cons_self
      have clear : Clear scan.tree (placeOf depth row.1) := by
        apply scanned.clear
        · intro former member
          exact apart former.1 (List.mem_map_of_mem (List.mem_append_left _ member)) row.1
            (List.mem_map_of_mem here)
        · intro former member
          exact apart row.1 (List.mem_map_of_mem here) former.1
            (List.mem_map_of_mem (List.mem_append_left _ member))
      have next := scanned.step positive (folders row here) clear
      rw [List.append_cons] at folders apart ⊢
      exact ih next folders apart

/-- The notes of the folders that pass a test, by the rows of the query. -/
theorem sum_folderCounts (folders : List Text) (holds : Text → Bool) :
    (((folderCounts folders).filter (fun row => holds row.1)).map Prod.snd).sum =
      folders.countP holds := by
  have sorted := List.mergeSort_perm folders Graph.textLe
  rw [folderCounts, List.filter_map, List.map_map, ← sorted.countP_eq,
    ← List.sum_map_count_dedup_filter_eq_countP]
  congr 1
  apply List.map_congr_left
  intro folder _member
  dsimp only [Function.comp_apply]
  unfold List.count
  rw [← sorted.countP_eq]
  apply List.countP_congr
  intro other _otherMember
  simp

theorem mem_folderCounts {folders : List Text} {folder : Text} :
    folder ∈ (folderCounts folders).map Prod.fst ↔ folder ∈ folders := by
  have names : (folderCounts folders).map Prod.fst = (Graph.sortTexts folders).dedup := by
    rw [folderCounts, List.map_map]
    exact List.map_id _
  rw [names, List.mem_dedup]
  exact List.mem_mergeSort

/-- Counts over nodes that include every counted item add up to their number. -/
theorem sum_map_countP {item : Type} [DecidableEq item] {items nodes : List item}
    (distinct : nodes.Nodup) (inside : ∀ one ∈ items, one ∈ nodes) :
    (nodes.map (fun node => items.countP (fun one => one = node))).sum = items.length := by
  have counts : ∀ node, items.countP (fun one => one = node) = (items : Multiset item).count node := by
    intro node
    rw [Multiset.coe_count, List.count]
    apply List.countP_congr
    intro one _member
    rw [decide_eq_true_iff, beq_iff_eq]
  simp only [counts]
  rw [← List.sum_toFinset _ distinct]
  apply Multiset.sum_count_eq_card
  intro one member
  exact List.mem_toFinset.mpr (inside one member)

/-- No note is lost, and every folder is counted in its own node. -/
structure ConservesNotes (depth : Nat) (folders : List Text) (report : FolderReport) : Prop where
  total : report.totalNotes = folders.length
  sum : (([] :: foldersIn report.tree).map (countAt report.tree)).sum = report.totalNotes
  placed : ∀ path, countAt report.tree path =
    folders.countP (fun folder => placeOf depth folder = path)
  folders : report.totalFolders = (foldersIn report.tree).length

theorem Scanned.foldersIn_perm {depth : Nat} {done : List (Text × Nat)} {scan : FolderScan}
    (scanned : Scanned depth done scan) (isFolder : ∀ row ∈ done, IsCatalogFolder row.1) :
    scan.allFolders.Perm ((foldersIn scan.tree).map (Text.join "/".toList)) := by
  have named : ∀ path ∈ foldersIn scan.tree, PurePath.parts (Text.join "/".toList path) = path := by
    intro path member
    have node := (mem_foldersIn_iff scanned.tidy path).mp member
    cases (scanned.nodes path).mp node.2 with
    | inl empty => exact absurd empty node.1
    | inr inside =>
        obtain ⟨row, rowMember, ahead⟩ := inside
        obtain ⟨names, valid, same⟩ := isFolder row rowMember
        apply PurePath.parts_join_names
        intro name nameMember
        apply valid
        have inPlace := ahead.subset nameMember
        rw [placeOf, same, PurePath.parts_join_names valid] at inPlace
        exact List.mem_of_mem_take inPlace
  apply (List.perm_ext_iff_of_nodup scanned.distinct ?_).mpr
  · intro name
    rw [scanned.listed, List.mem_map]
    constructor
    · intro found
      obtain ⟨row, member, front, filled, ahead, same⟩ := found
      refine ⟨front, (mem_foldersIn_iff scanned.tidy front).mpr ⟨filled, ?_⟩, same.symm⟩
      exact (scanned.nodes front).mpr (Or.inr ⟨row, member, ahead⟩)
    · intro found
      obtain ⟨front, member, same⟩ := found
      have node := (mem_foldersIn_iff scanned.tidy front).mp member
      cases (scanned.nodes front).mp node.2 with
      | inl empty => exact absurd empty node.1
      | inr inside =>
          obtain ⟨row, rowMember, ahead⟩ := inside
          exact ⟨row, rowMember, front, node.1, ahead, same.symm⟩
  · apply List.Nodup.map_on ?_ (nodup_foldersIn scanned.tidy)
    intro left leftMember right rightMember same
    rw [← named left leftMember, same, named right rightMember]

theorem Scanned.conserves {depth : Nat} {folders : List Text} {scan : FolderScan}
    (scanned : Scanned depth (folderCounts folders) scan)
    (isFolder : ∀ folder ∈ folders, IsCatalogFolder folder) :
    ConservesNotes depth folders scan.report := by
  have placed : ∀ path, countAt scan.tree path =
      folders.countP (fun folder => placeOf depth folder = path) := by
    intro path
    rw [scanned.counts]
    exact sum_folderCounts folders (fun folder => placeOf depth folder = path)
  have total : scan.totalNotes = folders.length := by
    have all := sum_folderCounts folders (fun _folder => true)
    rw [List.filter_true, List.countP_true] at all
    rw [scanned.total, all]
  constructor
  case total => exact total
  case placed => exact placed
  case folders =>
    have listed := scanned.foldersIn_perm (by
      intro row member
      exact isFolder row.1 (mem_folderCounts.mp (List.mem_map_of_mem member)))
    have sameLength := listed.length_eq
    rw [List.length_map] at sameLength
    exact sameLength
  case sum =>
    have byPlace : ∀ path, countAt scan.tree path =
        (folders.map (placeOf depth)).countP (fun place => place = path) := by
      intro path
      rw [placed, List.countP_map]
      rfl
    have distinct : ([] :: foldersIn scan.tree).Nodup := by
      rw [List.nodup_cons]
      refine ⟨?_, nodup_foldersIn scanned.tidy⟩
      intro member
      exact ((mem_foldersIn_iff scanned.tidy []).mp member).1 rfl
    have inside : ∀ place ∈ folders.map (placeOf depth), place ∈ [] :: foldersIn scan.tree := by
      intro place member
      obtain ⟨folder, folderMember, same⟩ := List.mem_map.mp member
      obtain ⟨row, rowMember, isRow⟩ := List.mem_map.mp (mem_folderCounts.mpr folderMember)
      by_cases empty : place = []
      · rw [empty]
        exact List.mem_cons_self
      · apply List.mem_cons_of_mem
        rw [mem_foldersIn_iff scanned.tidy, scanned.nodes]
        refine ⟨empty, Or.inr ⟨row, rowMember, ?_⟩⟩
        rw [isRow, same]
    change (([] :: foldersIn scan.tree).map (countAt scan.tree)).sum = scan.totalNotes
    rw [List.map_congr_left (fun path _member => byPlace path), sum_map_countP distinct inside,
      List.length_map]
    exact total.symm

theorem nodeAt_append {tree node : FolderTree} {path rest : List Text}
    (found : nodeAt tree path = some node) : nodeAt tree (path ++ rest) = nodeAt node rest := by
  induction path generalizing tree with
  | nil =>
      rw [nodeAt] at found
      rw [List.nil_append, Option.some.inj found]
  | cons name more ih =>
      rw [nodeAt] at found
      rw [List.cons_append, nodeAt]
      split at found
      case h_1 child known => exact ih found
      case h_2 => cases found

theorem nodeAt_prefix {tree : FolderTree} {front path : List Text} (ahead : front <+: path)
    (found : (nodeAt tree path).isSome = true) : (nodeAt tree front).isSome = true := by
  induction front generalizing tree path with
  | nil => rfl
  | cons name rest ih =>
      obtain ⟨back, same⟩ := ahead
      rw [← same, List.cons_append, nodeAt] at found
      rw [nodeAt]
      split at found
      case h_1 child known => exact ih (List.prefix_append rest back) found
      case h_2 => cases found

theorem nodeAt_of_counted {tree : FolderTree} {path : List Text} (counted : countAt tree path ≠ 0) :
    ∃ node, nodeAt tree path = some node ∧ countOf node ≠ 0 := by
  unfold countAt at counted
  cases found : nodeAt tree path with
  | none =>
      rw [found] at counted
      exact absurd rfl counted
  | some node =>
      rw [found] at counted
      exact ⟨node, rfl, counted⟩

/-- A number and a folder do not fit under one key. -/
theorem ConservesNotes.noClash {depth : Nat} {folders : List Text} {report : FolderReport}
    (conserves : ConservesNotes depth folders report) : NoClash depth folders := by
  have counted : ∀ folder ∈ folders, countAt report.tree (placeOf depth folder) ≠ 0 := by
    intro folder member
    rw [conserves.placed]
    apply Nat.ne_of_gt
    exact List.countP_pos_iff.mpr ⟨folder, member, decide_eq_true rfl⟩
  intro folder member other otherMember ahead
  obtain ⟨node, found, number⟩ := nodeAt_of_counted (counted folder member)
  obtain ⟨_otherNode, otherFound, _number⟩ := nodeAt_of_counted (counted other otherMember)
  have clash := nodeAt_prefix ahead (by rw [otherFound]; rfl)
  rw [nodeAt_append found, nodeAt] at clash
  apply number
  unfold countOf
  split at clash
  case h_1 child known => rw [known]
  case h_2 => cases clash

theorem boundedDepth_pos (depthLimit : Nat) (maxDepth : Int) :
    0 < boundedDepth depthLimit maxDepth := by
  unfold boundedDepth
  omega

/-- The tree conserves the notes of the catalog exactly when no folder named like the number lies
in a folder with notes. -/
theorem folderTree_conserves_iff (depthLimit : Nat) {catalog : NotesCatalog}
    (initialized : catalog.isInitialized = true)
    (isFolder : ∀ row ∈ catalog.table.rows, IsCatalogFolder row.folder) (maxDepth : Int) :
    ∃ report, folderTree depthLimit catalog true maxDepth = .ok report ∧
      (ConservesNotes (boundedDepth depthLimit maxDepth)
          (catalog.table.rows.map CatalogRow.folder) report ↔
        NoClash (boundedDepth depthLimit maxDepth)
          (catalog.table.rows.map CatalogRow.folder)) := by
  unfold folderTree
  rw [initialized]
  refine ⟨_, rfl, ConservesNotes.noClash, ?_⟩
  intro apart
  have folders : ∀ folder ∈ catalog.table.rows.map CatalogRow.folder, IsCatalogFolder folder := by
    intro folder member
    obtain ⟨row, rowMember, same⟩ := List.mem_map.mp member
    rw [← same]
    exact isFolder row rowMember
  have scanned : Scanned (boundedDepth depthLimit maxDepth)
      (folderCounts (catalog.table.rows.map CatalogRow.folder))
      ((folderCounts (catalog.table.rows.map CatalogRow.folder)).foldl
        (FolderScan.row true (boundedDepth depthLimit maxDepth)) {}) := by
    apply (Scanned.start _).run (boundedDepth_pos depthLimit maxDepth)
    · intro row member
      exact folders row.1 (mem_folderCounts.mp (List.mem_map_of_mem member))
    · intro folder member other otherMember
      exact apart folder (mem_folderCounts.mp member) other (mem_folderCounts.mp otherMember)
  exact scanned.conserves folders

def noteRow (folder path : Text) : CatalogRow :=
  { path := path
    folder := folder
    extension := ".md".toList
    title := path
    mtimeNs := 100
    size := 4 }

/-- Notes in the vault and in two nested folders of it. -/
def nestedCatalog : NotesCatalog :=
  { isInitialized := true
    table :=
      { rows := [noteRow [] "a.md".toList, noteRow "p".toList "p/b.md".toList,
          noteRow "p/q".toList "p/q/c.md".toList]
        distinct := by decide } }

theorem folderTree_conserves_nested :
    nestedCatalog.isInitialized = true ∧
      (∀ row ∈ nestedCatalog.table.rows, IsCatalogFolder row.folder) ∧
      ∃ report, folderTree 50 nestedCatalog true 10 = .ok report ∧
        (ConservesNotes (boundedDepth 50 10) (nestedCatalog.table.rows.map CatalogRow.folder)
            report ↔
          NoClash (boundedDepth 50 10) (nestedCatalog.table.rows.map CatalogRow.folder)) := by
  have isFolder : ∀ row ∈ nestedCatalog.table.rows, IsCatalogFolder row.folder := by
    have folders : ∀ row ∈ nestedCatalog.table.rows, row.folder = PurePath.folder row.path := by
      decide
    intro row member
    rw [folders row member]
    exact isCatalogFolder_folder row.path
  exact ⟨rfl, isFolder, folderTree_conserves_iff 50 rfl isFolder 10⟩

/-- A folder with a note, and in it a folder `_count` with another. -/
def clashCatalog : NotesCatalog :=
  { isInitialized := true
    table :=
      { rows := [noteRow "p".toList "p/a.md".toList, noteRow "p/_count".toList "p/_count/b.md".toList]
        distinct := by decide } }

/-- The folder takes the place of the number: one of the two notes is in no count. -/
theorem folderTree_loses_clash :
    ∃ report, folderTree 50 clashCatalog true 10 = .ok report ∧ report.totalNotes = 2 ∧
      (([] :: foldersIn report.tree).map (countAt report.tree)).sum = 1 ∧
      ¬ ConservesNotes (boundedDepth 50 10) (clashCatalog.table.rows.map CatalogRow.folder)
        report := by
  have sorted : Graph.sortTexts ["p".toList, "p/_count".toList] =
      ["p".toList, "p/_count".toList] := by
    apply List.mergeSort_of_pairwise
    decide
  have counts : folderCounts (clashCatalog.table.rows.map CatalogRow.folder) =
      [("p".toList, 1), ("p/_count".toList, 1)] := by
    change folderCounts ["p".toList, "p/_count".toList] = _
    rw [folderCounts, sorted]
    decide
  let tree : FolderTree := [("p".toList, .folder [(countKey, .folder [(countKey, .count 1)])])]
  have listed : foldersIn tree = [["p".toList], ["p".toList, countKey]] := by
    simp [tree, foldersIn, TreeValue.folders]
  have sum : (([] :: foldersIn tree).map (countAt tree)).sum = 1 := by
    rw [listed]
    decide
  have report : folderTree 50 clashCatalog true 10 =
      .ok { totalFolders := 2, totalNotes := 2, tree := tree } := by
    unfold folderTree
    rw [counts]
    rfl
  refine ⟨_, report, rfl, sum, ?_⟩
  intro conserves
  have whole := conserves.sum
  rw [sum] at whole
  cases whole

end VaultSearch
