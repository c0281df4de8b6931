/-
`NotesCatalog.list_notes`: the rows of a folder and an extension, newest first, a page at a
time.

The folder filter takes the rows of the folder itself by equality and those of its
descendants by a `LIKE` pattern.
-/

import Mathlib.Data.List.Sort
import VaultSearch.Crud.Catalog
import VaultSearch.Sql.Like

set_option autoImplicit false

namespace VaultSearch

structure NoteListItem where
  path : Text
  title : Text
  folder : Text
  extension : Text
  modifiedAt : Text
  sizeBytes : Nat
  deriving DecidableEq

/-- `_row_to_note` -/
def rowToNote (env : Env) (row : CatalogRow) : NoteListItem :=
  { path := row.path
    title := row.title
    folder := row.folder
    extension := row.extension
    modifiedAt := env.isoformat row.mtimeNs
    sizeBytes := row.size }

/-- `escape_like_pattern` -/
def escapeLikePattern (value : Text) : Text :=
  if value.isEmpty then value
  else
    Text.replaceChar '\'' "''".toList (Text.replaceChar '_' "\\_".toList
      (Text.replaceChar '%' "\\%".toList (Text.replaceChar '\\' "\\\\".toList value)))

/-- `(folder = ? OR folder LIKE ? ESCAPE '\')` -/
def folderCondition (folder rowFolder : Text) : Bool :=
  rowFolder = folder || Sql.like '\\' (escapeLikePattern folder ++ "/%".toList) rowFolder

/-- The lower-cased extension with its dot. -/
def dottedExtension (env : Env) (extension : Text) : Text :=
  let ext := env.lower extension
  if Text.startsWith ext ".".toList then ext else '.' :: ext

/-- `if value:` -/
def given (value : Option Text) : Option Text :=
  value.filter (fun text => !text.isEmpty)

def rowSelected (env : Env) (folder extension : Option Text) (row : CatalogRow) : Bool :=
  (given folder).all (fun wanted => folderCondition wanted row.folder) &&
    (given extension).all (fun wanted => row.extension = dottedExtension env wanted)

/-- `ORDER BY mtime_ns DESC`; rows of one time stay in the order of the table. -/
def newestFirst (left right : CatalogRow) : Bool :=
  right.mtimeNs ≤ left.mtimeNs

namespace NotesCatalog

/-- The rows of every page together. -/
def listing (env : Env) (catalog : NotesCatalog) (folder extension : Option Text) :
    List CatalogRow :=
  (catalog.table.rows.filter (rowSelected env folder extension)).mergeSort newestFirst

/-- The notes of one page and the total number of matches. -/
def listNotes (env : Env) (catalog : NotesCatalog) (folder extension : Option Text)
    (limit offset : Nat) : List NoteListItem × Nat :=
  (((catalog.listing env folder extension).drop offset).take limit |>.map (rowToNote env),
    (catalog.table.rows.filter (rowSelected env folder extension)).length)

theorem mem_listing {env : Env} {catalog : NotesCatalog} {folder extension : Option Text}
    {row : CatalogRow} :
    row ∈ catalog.listing env folder extension ↔
      row ∈ catalog.table.rows ∧ rowSelected env folder extension row = true := by
  unfold listing
  rw [List.mem_mergeSort, List.mem_filter]

theorem listing_length (env : Env) (catalog : NotesCatalog) (folder extension : Option Text) :
    (catalog.listing env folder extension).length =
      (catalog.table.rows.filter (rowSelected env folder extension)).length := by
  unfold listing
  exact List.length_mergeSort _

end NotesCatalog

/-! ### The folder pattern -/

/-- What the bound pattern asks for in place of the folder: its quotes are doubled as if it
stood in the text of the query. -/
def likeFolder (folder : Text) : Text :=
  Text.replaceChar '\'' "''".toList folder

theorem replaceChar_cons (old : Char) (new : Text) (head : Char) (tail : Text) :
    Text.replaceChar old new (head :: tail) =
      (if head = old then new else [head]) ++ Text.replaceChar old new tail :=
  List.flatMap_cons

theorem replaceChar_append (old : Char) (new left right : Text) :
    Text.replaceChar old new (left ++ right) =
      Text.replaceChar old new left ++ Text.replaceChar old new right :=
  List.flatMap_append

theorem escapeLikePattern_eq (value : Text) :
    escapeLikePattern value =
      Text.replaceChar '\'' "''".toList (Text.replaceChar '_' "\\_".toList
        (Text.replaceChar '%' "\\%".toList (Text.replaceChar '\\' "\\\\".toList value))) := by
  unfold escapeLikePattern
  cases value with
  | nil => rfl
  | cons head tail => rfl

/-- The escaped spelling of one character. -/
def escapedChar (char : Char) : Text :=
  if char = '\\' then "\\\\".toList
  else if char = '%' then "\\%".toList
  else if char = '_' then "\\_".toList
  else if char = '\'' then "''".toList
  else [char]

theorem escapeLikePattern_cons (head : Char) (tail : Text) :
    escapeLikePattern (head :: tail) = escapedChar head ++ escapeLikePattern tail := by
  rw [escapeLikePattern_eq, escapeLikePattern_eq]
  rw [replaceChar_cons, replaceChar_append, replaceChar_append, replaceChar_append]
  congr 1
  unfold escapedChar
  by_cases backslash : head = '\\'
  · subst backslash
    rfl
  · by_cases percent : head = '%'
    · subst percent
      rfl
    · by_cases underscore : head = '_'
      · subst underscore
        rfl
      · by_cases quote : head = '\''
        · subst quote
          rfl
        · simp [Text.replaceChar, backslash, percent, underscore, quote]

/-- Escaping is read back, up to the doubled quotes. -/
theorem readLike_escapeLikePattern (value rest : Text) :
    Sql.readLike '\\' (escapeLikePattern value ++ rest) =
      (Sql.readLike '\\' rest).map ((likeFolder value).map .exact ++ ·) := by
  induction value with
  | nil =>
      cases read : Sql.readLike '\\' rest <;> simp [escapeLikePattern, likeFolder,
        Text.replaceChar, read]
  | cons head tail ih =>
      have doubled : likeFolder (head :: tail) =
          (if head = '\'' then "''".toList else [head]) ++ likeFolder tail :=
        replaceChar_cons _ _ _ _
      rw [escapeLikePattern_cons, List.append_assoc, doubled]
      unfold escapedChar
      by_cases backslash : head = '\\'
      · subst backslash
        rw [if_pos rfl, if_neg (by decide)]
        change Sql.readLike '\\' ('\\' :: '\\' :: (escapeLikePattern tail ++ rest)) = _
        rw [Sql.readLike_escaped, ih, Option.map_map]
        rfl
      · rw [if_neg backslash]
        by_cases percent : head = '%'
        · subst percent
          rw [if_pos rfl, if_neg (by decide)]
          change Sql.readLike '\\' ('\\' :: '%' :: (escapeLikePattern tail ++ rest)) = _
          rw [Sql.readLike_escaped, ih, Option.map_map]
          rfl
        · rw [if_neg percent]
          by_cases underscore : head = '_'
          · subst underscore
            rw [if_pos rfl, if_neg (by decide)]
            change Sql.readLike '\\' ('\\' :: '_' :: (escapeLikePattern tail ++ rest)) = _
            rw [Sql.readLike_escaped, ih, Option.map_map]
            rfl
          · rw [if_neg underscore]
            by_cases quote : head = '\''
            · subst quote
              rw [if_pos rfl]
              change Sql.readLike '\\' ('\'' :: '\'' :: (escapeLikePattern tail ++ rest)) = _
              rw [Sql.readLike_exact (by decide) (by decide) (by decide),
                Sql.readLike_exact (by decide) (by decide) (by decide), ih, Option.map_map,
                Option.map_map]
              rfl
            · rw [if_neg quote, List.singleton_append,
                Sql.readLike_exact backslash percent underscore, ih, Option.map_map]
              rfl

/-- The pattern takes the descendants of every folder that is spelled like the given one up
to the case of ASCII letters, once its quotes are doubled. -/
theorem like_folder_iff (folder rowFolder : Text) :
    Sql.like '\\' (escapeLikePattern folder ++ "/%".toList) rowFolder = true ↔
      ∃ front back, rowFolder = front ++ '/' :: back ∧ Sql.sameFolded front (likeFolder folder) := by
  have read : Sql.readLike '\\' "/%".toList = some [.exact '/', .many] := by rfl
  unfold Sql.like
  rw [readLike_escapeLikePattern, read, Option.map_some]
  dsimp only
  rw [Sql.likeMatches_exact]
  constructor
  · rintro ⟨front, back, shape, folded, holds⟩
    cases back with
    | nil => cases holds
    | cons head tail =>
        rw [Sql.likeMatches, Bool.and_eq_true, beq_iff_eq] at holds
        have slash : head = '/' := Sql.toLower_slash holds.1.symm
        exact ⟨front, tail, by rw [shape, slash], folded⟩
  · rintro ⟨front, back, shape, folded⟩
    apply Exists.intro front
    apply Exists.intro ('/' :: back)
    apply And.intro shape
    apply And.intro folded
    rw [Sql.likeMatches, Sql.likeMatches_any, Bool.and_true, beq_self_eq_true]

end VaultSearch
