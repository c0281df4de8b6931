/-
The part of `pathlib` the program relies on, for POSIX paths, and the path checks of
`utils/security.py`.

A relative path is a text; `parts` are its components without empty and `.` ones, and
`normalPath` is `str(Path(path))`.  Suffixes are those of Python 3.14, which follow
`os.path.splitext`.
-/

import VaultSearch.Types

set_option autoImplicit false

namespace VaultSearch

namespace PurePath

/-- `Path(path).parts` of a relative path. -/
def parts (path : Text) : List Text :=
  (Text.split "/".toList path).filter (fun part => !part.isEmpty && part != ".".toList)

/-- `str` of the path with these components. -/
def render (components : List Text) : Text :=
  if components.isEmpty then ".".toList else Text.join "/".toList components

/-- `str(Path(path))`. -/
def normalPath (path : Text) : Text :=
  render (parts path)

/-- `Path(path).name`. -/
def name (path : Text) : Text :=
  (parts path).getLast?.getD []

/-- `os.path.splitext` of a file name: leading dots start no suffix. -/
def splitext (fileName : Text) : Text × Text :=
  let reversed := fileName.reverse
  let ending := reversed.takeWhile (· != '.')
  match reversed.dropWhile (· != '.') with
  | [] => (fileName, [])
  | _dot :: front =>
      if front.all (· == '.') then (fileName, [])
      else (front.reverse, '.' :: ending.reverse)

/-- `Path(path).stem`. -/
def stem (path : Text) : Text :=
  (splitext (name path)).1

/-- `Path(path).suffix`. -/
def suffix (path : Text) : Text :=
  (splitext (name path)).2

/-- `str(Path(path).parent)`, with `.` written as the empty text. -/
def folder (path : Text) : Text :=
  Text.join "/".toList (parts path).dropLast

/-! ### Spellings -/

theorem splitFrom_slash_cons (current : Text) (head : Char) (tail : Text) :
    Text.splitFrom "/".toList 0 current (head :: tail) =
      if head = '/' then current :: Text.splitFrom "/".toList 0 [] tail
      else Text.splitFrom "/".toList 0 (current ++ [head]) tail := by
  by_cases slash : head = '/'
  · subst slash
    rfl
  · have differs : ('/' == head) = false := by
      rw [beq_eq_false_iff_ne]
      exact fun same => slash same.symm
    simp [Text.splitFrom, List.isPrefixOf, slash, differs]

/-- No part of a split contains the separator. -/
theorem splitFrom_noSlash (text : Text) :
    ∀ current, '/' ∉ current → ∀ part ∈ Text.splitFrom "/".toList 0 current text, '/' ∉ part := by
  induction text with
  | nil =>
      intro current free part member
      rw [List.mem_singleton.mp member]
      exact free
  | cons head tail ih =>
      intro current free part member
      rw [splitFrom_slash_cons] at member
      split at member
      · rcases List.mem_cons.mp member with same | later
        · rw [same]
          exact free
        · exact ih [] List.not_mem_nil part later
      · rename_i other
        refine ih (current ++ [head]) ?_ part member
        intro inside
        rcases List.mem_append.mp inside with early | last
        · exact free early
        · exact other (List.mem_singleton.mp last).symm

theorem splitFrom_component (component : Text) (free : '/' ∉ component) :
    ∀ current rest, Text.splitFrom "/".toList 0 current (component ++ '/' :: rest) =
      (current ++ component) :: Text.splitFrom "/".toList 0 [] rest := by
  induction component with
  | nil =>
      intro current rest
      rw [List.nil_append, splitFrom_slash_cons, if_pos rfl, List.append_nil]
  | cons head tail ih =>
      intro current rest
      have other : head ≠ '/' := fun same => free (by rw [same]; exact List.mem_cons_self)
      rw [List.cons_append, splitFrom_slash_cons, if_neg other,
        ih (fun inside => free (List.mem_cons_of_mem _ inside)), List.append_assoc]
      rfl

theorem splitFrom_last (component : Text) (free : '/' ∉ component) :
    ∀ current, Text.splitFrom "/".toList 0 current component = [current ++ component] := by
  induction component with
  | nil =>
      intro current
      rw [List.append_nil]
      rfl
  | cons head tail ih =>
      intro current
      have other : head ≠ '/' := fun same => free (by rw [same]; exact List.mem_cons_self)
      rw [splitFrom_slash_cons, if_neg other,
        ih (fun inside => free (List.mem_cons_of_mem _ inside)), List.append_assoc]
      rfl

/-- Components without a slash are read back from the joined path. -/
theorem split_join (components : List Text) (nonempty : components ≠ [])
    (free : ∀ component ∈ components, '/' ∉ component) :
    Text.split "/".toList (Text.join "/".toList components) = components := by
  unfold Text.split
  induction components with
  | nil => exact absurd rfl nonempty
  | cons head tail ih =>
      have headFree := free head List.mem_cons_self
      cases tail with
      | nil => exact splitFrom_last head headFree []
      | cons second rest =>
          have later := ih (by simp) (fun part member => free part (List.mem_cons_of_mem _ member))
          have shape : Text.join "/".toList (head :: second :: rest) =
              head ++ '/' :: Text.join "/".toList (second :: rest) := by
            simp [Text.join]
          rw [shape, splitFrom_component head headFree, later]
          rfl

theorem parts_join_names {names : List Text}
    (named : ∀ name ∈ names, name ≠ [] ∧ name ≠ ".".toList ∧ '/' ∉ name) :
    parts (Text.join "/".toList names) = names := by
  by_cases empty : names = []
  · rw [empty]
    rfl
  · rw [parts, split_join names empty (fun name member => (named name member).2.2)]
    apply List.filter_eq_self.mpr
    intro name member
    rw [Bool.and_eq_true, Bool.not_eq_true', List.isEmpty_eq_false_iff, bne_iff_ne]
    exact ⟨(named name member).1, (named name member).2.1⟩

/-- A name without a slash is its own only component. -/
theorem parts_component {component : Text} (free : '/' ∉ component) (filled : component ≠ [])
    (named : component ≠ ".".toList) : parts component = [component] := by
  have kept : (!component.isEmpty && component != ".".toList) = true := by
    rw [Bool.and_eq_true, Bool.not_eq_true', List.isEmpty_eq_false_iff, bne_iff_ne]
    exact ⟨filled, named⟩
  rw [parts, Text.split, splitFrom_last component free, List.nil_append, List.filter_singleton,
    kept]
  rfl

theorem parts_render (path : Text) : parts (render (parts path)) = parts path := by
  unfold render
  cases shape : parts path with
  | nil => decide
  | cons head tail =>
      have kept : ∀ part ∈ head :: tail,
          part ∈ Text.split "/".toList path ∧ (!part.isEmpty && part != ".".toList) = true := by
        intro part member
        rw [← shape] at member
        exact List.mem_filter.mp member
      have joined := split_join (head :: tail) (by simp)
        (fun part member => splitFrom_noSlash path [] List.not_mem_nil part (kept part member).1)
      simp only [List.isEmpty_cons, Bool.false_eq_true, if_false]
      unfold parts
      rw [joined]
      exact List.filter_eq_self.mpr (fun part member => (kept part member).2)

/-- The path that `str(Path(path))` gives is in normal spelling. -/
theorem normalPath_normalPath (path : Text) : normalPath (normalPath path) = normalPath path := by
  unfold normalPath
  rw [parts_render]

end PurePath

open PurePath

/-- A path in the spelling that `str(Path(path))` gives. -/
def IsNormalPath (path : Text) : Prop :=
  normalPath path = path

instance (path : Text) : Decidable (IsNormalPath path) :=
  inferInstanceAs (Decidable (_ = _))

/-- `escape_sql_string`. -/
def escapeSqlString (value : Text) : Text :=
  if value.isEmpty then value else Sql.escape value

theorem escapeSqlString_eq (value : Text) : escapeSqlString value = Sql.escape value := by
  unfold escapeSqlString
  cases value with
  | nil => rfl
  | cons head tail => rfl

/-- `(Path("/safe/base") / relative_path).resolve()`: with no `..` left and nothing
below the synthetic base there is no link to follow. -/
def resolveBelowBase (relativePath : Text) : Text :=
  Text.join "/".toList ([[], "safe".toList, "base".toList] ++ parts relativePath)

def validateRelativePath (relativePath : Text) : Bool :=
  !relativePath.isEmpty &&
    !(Text.startsWith relativePath "/".toList || Text.startsWith relativePath "\\".toList) &&
    (parts relativePath).all (fun part => part != "..".toList && !part.contains '\x00') &&
    Text.startsWith (resolveBelowBase relativePath) "/safe/base".toList

/-- The containment check of the synthetic base rejects nothing that got this far. -/
theorem resolveBelowBase_startsWith (relativePath : Text) :
    Text.startsWith (resolveBelowBase relativePath) "/safe/base".toList = true := by
  unfold resolveBelowBase Text.startsWith
  rw [List.isPrefixOf_iff_prefix]
  cases parts relativePath with
  | nil => exact ⟨[], rfl⟩
  | cons head tail =>
      refine ⟨'/' :: Text.join "/".toList (head :: tail), ?_⟩
      simp [Text.join]

example : normalPath "dir/./sub//a.md".toList = "dir/sub/a.md".toList := by decide

example : validateRelativePath "./a.md".toList = true ∧
    validateRelativePath "../a.md".toList = false := by decide

end VaultSearch
