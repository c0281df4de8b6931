/-
The folder filters of the search, listing and link tools, each with the text it hands to its
engine.

A filter means its folder or below when that text is one predicate with the folder in it as
data alone, and takes the rows whose folder is the given one or lies below it.  Each filter
does for some folders only.
-/

import VaultSearch.Crud.CatalogList
import VaultSearch.Sql.ExactLike
import VaultSearch.Sql.Predicate
import VaultSearch.Text.Placement
import VaultSearch.Text.Split

set_option autoImplicit false

namespace VaultSearch

/-! ### The meaning of a filter -/

/-- A folder is the given one or lies below it, as everything does below the root. -/
def Below (given folder : Text) : Prop :=
  given = [] ∨ folder = given ∨ given ++ ['/'] <+: folder

/-- A filter by folder of the rows of a table. -/
structure FolderFilter (Row : Type) where
  /-- the folders that the tool takes -/
  accepts : Text → Bool
  /-- the text of the condition, if there is one -/
  clause : Text → Option Text
  /-- what is bound to the question marks -/
  parameters : Text → List Text
  /-- `LIKE` in the engine -/
  likes : Char → Text → Text → Bool
  columns : Row → Text → Option Sql.Literal
  folderOf : Row → Text
  /-- what is asked of a row besides its folder -/
  others : Row → Bool
  /-- the clauses without what stands in quotes -/
  codes : List (List Text)

namespace FolderFilter

variable {Row : Type}

def predicate (filter : FolderFilter Row) (given clause : Text) : Option Sql.Predicate :=
  Sql.predicateOf clause (filter.parameters given)

def Takes (filter : FolderFilter Row) (given : Text) (row : Row) : Prop :=
  ∀ clause, filter.clause given = some clause → ∃ predicate,
    filter.predicate given clause = some predicate ∧
      predicate.holds filter.likes (filter.columns row) = true

/-- The folder is data in a single predicate, which takes the rows at or below it. -/
structure MeansBelow (filter : FolderFilter Row) (given : Text) : Prop where
  wellFormed : ∀ clause, filter.clause given = some clause →
    (filter.predicate given clause).isSome = true ∧
      ∃ code ∈ filter.codes, Sql.codeOf clause = some code
  takes_iff : ∀ row, filter.Takes given row ↔
    filter.others row = true ∧ Below given (filter.folderOf row)

/-- What is claimed of a filter and a folder. -/
def Correct (filter : FolderFilter Row) (given : Text) : Prop :=
  filter.accepts given = true → filter.MeansBelow given

end FolderFilter

/-! ### The filters -/

/-- The condition of `VaultSearcher.search_by_folder`. -/
def folderClause (folder : Text) : Text :=
  "(folder = '".toList ++ escapeSqlString folder ++ "' OR folder LIKE '".toList ++
    escapeLikePattern folder ++ "/%')".toList

/-- `search_by_folder`: the tool strips the folder and refuses a blank one. -/
def searchByFolder : FolderFilter ChunkWithVector :=
  { accepts := fun folder => !Text.isBlank folder
    clause := fun folder => some (folderClause (Text.strip folder))
    parameters := fun _ => []
    likes := Sql.exactLike
    columns := ChunkWithVector.columns
    folderOf := (·.folder)
    others := fun _ => true
    codes := [["(folder = ".toList, " OR folder LIKE ".toList, ")".toList]] }

def CatalogRow.columns (row : CatalogRow) (name : Text) : Option Sql.Literal :=
  if name = "path".toList then some (.text row.path)
  else if name = "folder".toList then some (.text row.folder)
  else if name = "extension".toList then some (.text row.extension)
  else if name = "title".toList then some (.text row.title)
  else none

/-- The conditions of `NotesCatalog.list_notes`. -/
def catalogConditions (folder extension : Option Text) : List Text :=
  ((given folder).map (fun _ => "(folder = ? OR folder LIKE ? ESCAPE '\\')".toList)).toList ++
    ((given extension).map (fun _ => "extension = ?".toList)).toList

def catalogParameters (env : Env) (folder extension : Option Text) : List Text :=
  ((given folder).map (fun folder => [folder, escapeLikePattern folder ++ "/%".toList])).getD [] ++
    ((given extension).map (fun extension => [dottedExtension env extension])).getD []

/-- `NotesCatalog.list_notes` for an extension. -/
def catalogFilter (env : Env) (extension : Option Text) : FolderFilter CatalogRow :=
  { accepts := fun _ => true
    clause := fun folder =>
      let conditions := catalogConditions (some folder) extension
      if conditions.isEmpty then none else some (Text.join " AND ".toList conditions)
    parameters := fun folder => catalogParameters env (some folder) extension
    likes := Sql.like
    columns := CatalogRow.columns
    folderOf := (·.folder)
    others := fun row =>
      (given extension).all (fun wanted => row.extension = dottedExtension env wanted)
    codes := [["(folder = ? OR folder LIKE ? ESCAPE ".toList, ")".toList],
      ["(folder = ? OR folder LIKE ? ESCAPE ".toList, ") AND extension = ?".toList],
      ["extension = ?".toList]] }

/-- `path.rpartition("/")[0]`: the folder of a stored path. -/
def parentText (path : Text) : Text :=
  ((path.reverse.dropWhile (· ≠ '/')).drop 1).reverse

/-- The condition of `find_broken_links`, the folder stripped. -/
def brokenClause (folder : Text) : Text :=
  "is_resolved = false AND link_type != 'external'".toList ++
    if folder.isEmpty then []
    else " AND from_note_path LIKE '".toList ++ escapeSqlString (escapeLikePattern folder) ++
      "/%' ESCAPE '\\'".toList

def findBrokenLinks : FolderFilter LinkRecord :=
  { accepts := fun folder =>
      (Text.strip folder).isEmpty || validateRelativePath (Text.strip folder)
    clause := fun folder => some (brokenClause (Text.strip folder))
    parameters := fun _ => []
    likes := Sql.exactLike
    columns := LinkRecord.columns
    folderOf := fun row => parentText row.fromNotePath
    others := fun row => !row.isResolved && row.linkType ≠ .external
    codes := [["is_resolved = false AND link_type != ".toList, []],
      ["is_resolved = false AND link_type != ".toList, " AND from_note_path LIKE ".toList,
        " ESCAPE ".toList, []]] }

/-- The condition of `graph_data`. -/
def graphClause (folder : Text) : Text :=
  "link_type != 'external'".toList ++
    if folder.isEmpty then []
    else " AND from_note_path LIKE '".toList ++ escapeSqlString folder ++ "/%'".toList

def graphData : FolderFilter LinkRecord :=
  { accepts := fun _ => true
    clause := fun folder => some (graphClause folder)
    parameters := fun _ => []
    likes := Sql.exactLike
    columns := LinkRecord.columns
    folderOf := fun row => parentText row.fromNotePath
    others := fun row => row.linkType ≠ .external
    codes := [["link_type != ".toList, []],
      ["link_type != ".toList, " AND from_note_path LIKE ".toList, []]] }

/-- The condition of `tag_stats`, the folder stripped but not escaped. -/
def tagClause (folder : Text) : Text :=
  "folder = '".toList ++ folder ++ "' OR folder LIKE '".toList ++ folder ++ "/%'".toList

def tagStats : FolderFilter ChunkWithVector :=
  { accepts := fun _ => true
    clause := fun folder =>
      if (Text.strip folder).isEmpty then none else some (tagClause (Text.strip folder))
    parameters := fun _ => []
    likes := Sql.exactLike
    columns := ChunkWithVector.columns
    folderOf := (·.folder)
    others := fun _ => true
    codes := [["folder = ".toList, " OR folder LIKE ".toList, []]] }

/-! ### Escaped folders -/

/-- The wildcards of a folder escaped, before its quotes are doubled. -/
def wildEscaped (folder : Text) : Text :=
  folder.flatMap (fun char => if Sql.isSpecial char then ['\\', char] else [char])

theorem wildEscaped_cons (head : Char) (tail : Text) :
    wildEscaped (head :: tail) =
      (if Sql.isSpecial head then ['\\', head] else [head]) ++ wildEscaped tail :=
  List.flatMap_cons

theorem escapeLikePattern_wildEscaped (folder : Text) :
    escapeLikePattern folder = Sql.escape (wildEscaped folder) := by
  induction folder with
  | nil => rfl
  | cons head tail ih =>
      rw [escapeLikePattern_cons, wildEscaped_cons, Sql.escape_append, ih]
      congr 1
      unfold escapedChar
      by_cases backslash : head = '\\'
      · rw [backslash]
        rfl
      · by_cases percent : head = '%'
        · rw [percent]
          rfl
        · by_cases underscore : head = '_'
          · rw [underscore]
            rfl
          · have plain : Sql.isSpecial head = false := by
              unfold Sql.isSpecial
              rw [beq_eq_false_iff_ne.mpr percent, beq_eq_false_iff_ne.mpr underscore,
                beq_eq_false_iff_ne.mpr backslash]
              rfl
            rw [if_neg backslash, if_neg percent, if_neg underscore, plain,
              if_neg Bool.false_ne_true, Sql.escape_cons]
            exact (List.append_nil _).symm

/-- An escaped folder is read back. -/
theorem readLike_wildEscaped (folder rest : Text) :
    Sql.readLike '\\' (wildEscaped folder ++ rest) =
      (Sql.readLike '\\' rest).map (folder.map .exact ++ ·) := by
  induction folder with
  | nil => exact Option.map_id'.symm
  | cons head tail ih =>
      rw [wildEscaped_cons, List.append_assoc]
      cases special : Sql.isSpecial head with
      | true =>
          change Sql.readLike '\\' ('\\' :: head :: (wildEscaped tail ++ rest)) = _
          rw [Sql.readLike_escaped, ih, Option.map_map]
          rfl
      | false =>
          have plain := special
          unfold Sql.isSpecial at plain
          simp only [Bool.or_eq_false_iff, beq_eq_false_iff_ne] at plain
          obtain ⟨⟨percent, underscore⟩, backslash⟩ := plain
          rw [if_neg Bool.false_ne_true, List.singleton_append,
            Sql.readLike_exact backslash percent underscore, ih, Option.map_map]
          rfl

theorem exactLike_wildEscaped (folder text : Text) :
    Sql.exactLike '\\' (wildEscaped folder ++ "/%".toList) text = true ↔
      folder ++ ['/'] <+: text := by
  have read : Sql.readLike '\\' "/%".toList = some [.exact '/', .many] := rfl
  unfold Sql.exactLike
  rw [readLike_wildEscaped, read]
  exact Sql.exactMatches_below folder text

/-- With its quotes doubled once more, a pattern asks for doubled quotes. -/
theorem exactLike_escapeLikePattern (folder text : Text) :
    Sql.exactLike '\\' (escapeLikePattern folder ++ "/%".toList) text = true ↔
      Sql.escape folder ++ ['/'] <+: text := by
  have read : Sql.readLike '\\' "/%".toList = some [.exact '/', .many] := rfl
  unfold Sql.exactLike
  rw [readLike_escapeLikePattern, read]
  exact Sql.exactMatches_below (Sql.escape folder) text

/-! ### The folder of a path -/

theorem parentText_split {front back : Text} (free : '/' ∉ back) :
    parentText (front ++ '/' :: back) = front := by
  have passed : ∀ char ∈ back.reverse, (decide (char ≠ '/')) = true := by
    intro char member
    apply decide_eq_true
    intro same
    rw [same] at member
    exact free (List.mem_reverse.mp member)
  unfold parentText
  rw [List.reverse_append, List.reverse_cons, List.append_assoc,
    List.dropWhile_append_of_pos passed]
  simp

theorem parentText_free {path : Text} (free : '/' ∉ path) : parentText path = [] := by
  have passed : path.reverse.dropWhile (· ≠ '/') = [] := by
    rw [List.dropWhile_eq_nil_iff]
    intro char member
    apply decide_eq_true
    intro same
    rw [same] at member
    exact free (List.mem_reverse.mp member)
  unfold parentText
  rw [passed]
  rfl

theorem exists_last_slash {path : Text} (slashed : '/' ∈ path) :
    ∃ front back, path = front ++ '/' :: back ∧ '/' ∉ back := by
  obtain ⟨back, front, whole, free⟩ := List.eq_append_cons_of_mem (List.mem_reverse.mpr slashed)
  refine ⟨front.reverse, back.reverse, ?_, fun member => free (List.mem_reverse.mp member)⟩
  rw [← List.reverse_reverse path, whole]
  simp

theorem join_snoc {separator : Text} {front : List Text} (filled : front ≠ []) (last : Text) :
    Text.join separator (front ++ [last]) = Text.join separator front ++ separator ++ last := by
  induction front with
  | nil => exact absurd rfl filled
  | cons head tail ih =>
      cases tail with
      | nil => rfl
      | cons second rest =>
          have nonempty : second :: rest ++ [last] ≠ [] := List.cons_ne_nil _ _
          rw [List.cons_append, Text.join_cons nonempty, ih (List.cons_ne_nil _ _),
            Text.join_cons (List.cons_ne_nil second rest)]
          simp only [List.append_assoc]

/-- For a path as it is stored this is the folder that is stored with it. -/
theorem parentText_stored {path : Text} (stored : IsNormalPath path) :
    parentText path = PurePath.folder path := by
  have spelled : path = PurePath.render (PurePath.parts path) := stored.symm
  unfold PurePath.folder
  cases shape : PurePath.parts path using List.reverseRecOn with
  | nil =>
      rw [shape] at spelled
      rw [spelled]
      rfl
  | append_singleton front last _ih =>
      have member : last ∈ PurePath.parts path := by
        rw [shape]
        exact List.mem_append_right _ List.mem_cons_self
      have free : '/' ∉ last := PurePath.splitFrom_noSlash path [] List.not_mem_nil last
        (List.mem_filter.mp member).1
      have notEmpty : ¬ (front ++ [last]).isEmpty = true := by simp
      rw [shape, PurePath.render, if_neg notEmpty] at spelled
      rw [List.dropLast_concat]
      by_cases alone : front = []
      · rw [spelled, alone]
        exact parentText_free free
      · rw [spelled, join_snoc alone, List.append_assoc]
        exact parentText_split free

/-- A path begins with a folder and a slash exactly if its folder is that folder or below. -/
theorem below_parentText {given : Text} (filled : given ≠ []) (path : Text) :
    Below given (parentText path) ↔ given ++ ['/'] <+: path := by
  by_cases slashed : '/' ∈ path
  · obtain ⟨front, back, whole, free⟩ := exists_last_slash slashed
    rw [whole, parentText_split free]
    constructor
    · rintro (root | same | ⟨rest, below⟩)
      · exact absurd root filled
      · exact ⟨back, by rw [same]; simp⟩
      · exact ⟨rest ++ '/' :: back, by rw [← below]; simp⟩
    · rintro ⟨rest, same⟩
      rw [List.append_assoc] at same
      rcases List.append_eq_append_iff.mp same with ⟨more, isFront, isRest⟩ | ⟨more, isGiven, isBack⟩
      · cases more with
        | nil =>
            rw [List.append_nil] at isFront
            exact Or.inr (Or.inl isFront)
        | cons slash others =>
            obtain ⟨isSlash, _later⟩ := List.cons.inj isRest
            exact Or.inr (Or.inr ⟨others, by rw [isFront, ← isSlash]; simp⟩)
      · cases more with
        | nil =>
            rw [List.append_nil] at isGiven
            exact Or.inr (Or.inl isGiven.symm)
        | cons slash others =>
            obtain ⟨_isSlash, later⟩ := List.cons.inj isBack
            exfalso
            apply free
            rw [later]
            exact List.mem_append_right _ List.mem_cons_self
  · rw [parentText_free slashed]
    apply iff_of_false
    · rintro (root | same | ⟨rest, below⟩)
      · exact filled root
      · exact filled same.symm
      · simp at below
    · rintro ⟨rest, below⟩
      apply slashed
      rw [← below]
      simp

/-! ### What the engines read -/

namespace FolderFilter

variable {Row : Type} {filter : FolderFilter Row} {given clause : Text} {predicate : Sql.Predicate}

theorem takes_iff_holds (isClause : filter.clause given = some clause)
    (reads : filter.predicate given clause = some predicate) (row : Row) :
    filter.Takes given row ↔ predicate.holds filter.likes (filter.columns row) = true := by
  constructor
  · intro takes
    obtain ⟨other, isOther, holds⟩ := takes clause isClause
    rw [← Option.some.inj (reads.symm.trans isOther)] at holds
    exact holds
  · intro holds other isOther
    rw [← Option.some.inj (isClause.symm.trans isOther)]
    exact ⟨predicate, reads, holds⟩

/-- A clause that is read as one predicate with the folder as data. -/
theorem meansBelow_iff (isClause : filter.clause given = some clause)
    (reads : filter.predicate given clause = some predicate) {code : List Text}
    (known : code ∈ filter.codes) (isCode : Sql.codeOf clause = some code) :
    filter.MeansBelow given ↔ ∀ row,
      (predicate.holds filter.likes (filter.columns row) = true ↔
        filter.others row = true ∧ Below given (filter.folderOf row)) := by
  constructor
  · intro means row
    rw [← takes_iff_holds isClause reads]
    exact means.takes_iff row
  · intro same
    constructor
    · intro other isOther
      rw [← Option.some.inj (isClause.symm.trans isOther), reads]
      exact ⟨rfl, code, known, isCode⟩
    · intro row
      rw [takes_iff_holds isClause reads]
      exact same row

end FolderFilter

/-- `folder = '..' OR folder LIKE '..'` -/
def folderPredicate (folder pattern : Text) : Sql.Predicate :=
  .either (.equals "folder".toList (.text folder)) (.like "folder".toList pattern '\\')

theorem folderPredicate_holds (folder pattern : Text) (likes : Char → Text → Text → Bool)
    {columns : Text → Option Sql.Literal} {rowFolder : Text}
    (read : columns "folder".toList = some (.text rowFolder)) :
    (folderPredicate folder pattern).holds likes columns = true ↔
      rowFolder = folder ∨ likes '\\' pattern rowFolder = true := by
  unfold folderPredicate
  simp only [Sql.Predicate.holds, read]
  simp

theorem folderClause_reading (folder : Text) :
    Sql.predicateOf (folderClause folder) [] =
        some (folderPredicate folder (wildEscaped folder ++ "/%".toList)) ∧
      Sql.codeOf (folderClause folder) =
        some ["(folder = ".toList, " OR folder LIKE ".toList, ")".toList] := by
  have shape : folderClause folder = Sql.assemble [("(folder = ".toList, folder),
      (" OR folder LIKE ".toList, wildEscaped folder ++ "/%".toList)] ")".toList := by
    have slash : Sql.escape "/%".toList = "/%".toList := rfl
    unfold folderClause
    rw [escapeSqlString_eq, escapeLikePattern_wildEscaped]
    simp only [Sql.assemble, Sql.escape_append, slash]
    simp
  have filled : ∀ pair ∈ [(" OR folder LIKE ".toList, wildEscaped folder ++ "/%".toList)],
      pair.1 ≠ [] := by simp
  have free : ∀ pair ∈ [(" OR folder LIKE ".toList, wildEscaped folder ++ "/%".toList)],
      '\'' ∉ pair.1 := by simp
  constructor
  · unfold Sql.predicateOf
    rw [shape, Sql.partsOf_assemble (by decide) filled free (by decide)]
    rfl
  · rw [shape, Sql.codeOf_assemble (by decide) filled free (by decide)]
    rfl

theorem graphClause_reading {folder : Text} (filled : folder ≠ []) :
    Sql.predicateOf (graphClause folder) [] =
        some (.both (.differs "link_type".toList (.text "external".toList))
          (.like "from_note_path".toList (folder ++ "/%".toList) '\\')) ∧
      Sql.codeOf (graphClause folder) =
        some ["link_type != ".toList, " AND from_note_path LIKE ".toList, []] := by
  have shape : graphClause folder = Sql.assemble [("link_type != ".toList, "external".toList),
      (" AND from_note_path LIKE ".toList, folder ++ "/%".toList)] [] := by
    have slash : Sql.escape "/%".toList = "/%".toList := rfl
    have external : Sql.escape "external".toList = "external".toList := rfl
    have notEmpty : ¬ folder.isEmpty = true := fun empty => filled (List.isEmpty_iff.mp empty)
    unfold graphClause
    rw [if_neg notEmpty, escapeSqlString_eq]
    simp only [Sql.assemble, Sql.escape_append, slash, external]
    simp
  have codes : ∀ pair ∈ [(" AND from_note_path LIKE ".toList, folder ++ "/%".toList)],
      pair.1 ≠ [] := by simp
  have free : ∀ pair ∈ [(" AND from_note_path LIKE ".toList, folder ++ "/%".toList)],
      '\'' ∉ pair.1 := by simp
  constructor
  · unfold Sql.predicateOf
    rw [shape, Sql.partsOf_assemble (by decide) codes free (by decide)]
    rfl
  · rw [shape, Sql.codeOf_assemble (by decide) codes free (by decide)]
    rfl

theorem brokenClause_reading {folder : Text} (filled : folder ≠ []) :
    Sql.predicateOf (brokenClause folder) [] =
        some (.both (.equals "is_resolved".toList (.bool false))
          (.both (.differs "link_type".toList (.text "external".toList))
            (.like "from_note_path".toList (escapeLikePattern folder ++ "/%".toList) '\\'))) ∧
      Sql.codeOf (brokenClause folder) =
        some ["is_resolved = false AND link_type != ".toList, " AND from_note_path LIKE ".toList,
          " ESCAPE ".toList, []] := by
  have shape : brokenClause folder = Sql.assemble
      [("is_resolved = false AND link_type != ".toList, "external".toList),
        (" AND from_note_path LIKE ".toList, escapeLikePattern folder ++ "/%".toList),
        (" ESCAPE ".toList, "\\".toList)] [] := by
    have slash : Sql.escape "/%".toList = "/%".toList := rfl
    have external : Sql.escape "external".toList = "external".toList := rfl
    have backslash : Sql.escape "\\".toList = "\\".toList := rfl
    have notEmpty : ¬ folder.isEmpty = true := fun empty => filled (List.isEmpty_iff.mp empty)
    unfold brokenClause
    rw [if_neg notEmpty, escapeSqlString_eq]
    simp only [Sql.assemble, Sql.escape_append, slash, external, backslash]
    simp
  have codes : ∀ pair ∈ [(" AND from_note_path LIKE ".toList,
      escapeLikePattern folder ++ "/%".toList), (" ESCAPE ".toList, "\\".toList)],
      pair.1 ≠ [] := by simp
  have free : ∀ pair ∈ [(" AND from_note_path LIKE ".toList,
      escapeLikePattern folder ++ "/%".toList), (" ESCAPE ".toList, "\\".toList)],
      '\'' ∉ pair.1 := by simp
  constructor
  · unfold Sql.predicateOf
    rw [shape, Sql.partsOf_assemble (by decide) codes free (by decide)]
    rfl
  · rw [shape, Sql.codeOf_assemble (by decide) codes free (by decide)]
    rfl

end VaultSearch
