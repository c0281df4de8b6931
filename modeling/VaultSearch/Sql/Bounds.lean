/-
Bounds of a text column in the text form a query engine reads: `>=` and `<=`, joined by `AND`.

Texts are compared by code points.  A filter assembled from escaped values is read back as the
bounds it was assembled from, whatever the values contain.
-/

import VaultSearch.Sql.Predicate
import VaultSearch.Text.Split

set_option autoImplicit false

namespace VaultSearch.Sql

structure Bound where
  column : Text
  /-- `>=`, or else `<=` -/
  atLeast : Bool
  value : Text
  deriving DecidableEq

/-! ### Reading -/

def finishedWord (word : Text) : List Text :=
  if word.isEmpty then [] else [word]

def wordsFrom (word : Text) : Text → List Text
  | [] => finishedWord word
  | char :: rest =>
      if char = ' ' then finishedWord word ++ wordsFrom [] rest
      else wordsFrom (word ++ [char]) rest

/-- The words of a text between its spaces. -/
def words (text : Text) : List Text :=
  wordsFrom [] text

def readBound (column operator value : Text) : Option Bound :=
  if operator = ">=".toList then some { column, atLeast := true, value }
  else if operator = "<=".toList then some { column, atLeast := false, value }
  else none

/-- Bounds that each follow an `AND`. -/
def readBounds : List Part → Option (List Bound)
  | [.code last] => if words last = [] then some [] else none
  | .code code :: .data value :: rest =>
      match words code with
      | [keyword, column, operator] =>
          if keyword = "AND".toList then
            (readBound column operator value).bind (fun bound =>
              (readBounds rest).map (bound :: ·))
          else none
      | _ => none
  | _ => none

/-- The bounds of a text, if it is a conjunction of bounds. -/
def boundsOf (text : Text) : Option (List Bound) :=
  match partsOf text with
  | some (.code code :: rest) => readBounds (.code ("AND ".toList ++ code) :: rest)
  | _ => none

/-- Whether a row whose column has that text lies within a bound. -/
def Bound.holds (columns : Text → Option Text) (bound : Bound) : Bool :=
  match columns bound.column with
  | none => false
  | some text => if bound.atLeast then !decide (text < bound.value) else !decide (bound.value < text)

/-! ### Writing -/

def Bound.operator (bound : Bound) : Text :=
  if bound.atLeast then ">=".toList else "<=".toList

/-- What stands in front of the quoted value. -/
def Bound.code (bound : Bound) : Text :=
  bound.column ++ [' '] ++ bound.operator ++ [' ']

def Bound.text (bound : Bound) : Text :=
  bound.code ++ ['\''] ++ escape bound.value ++ ['\'']

/-- A name without spaces and quotes. -/
structure IsColumn (column : Text) : Prop where
  filled : column ≠ []
  noSpace : ' ' ∉ column
  noQuote : '\'' ∉ column

theorem wordsFrom_word {name : Text} (noSpace : ' ' ∉ name) (word rest : Text) :
    wordsFrom word (name ++ rest) = wordsFrom (word ++ name) rest := by
  induction name generalizing word with
  | nil => rw [List.append_nil, List.nil_append]
  | cons head tail ih =>
      have apart : ' ' ≠ head ∧ ' ' ∉ tail := by simpa using noSpace
      rw [List.cons_append, wordsFrom, if_neg (Ne.symm apart.1), ih apart.2, List.append_assoc]
      rfl

theorem wordsFrom_space (word rest : Text) :
    wordsFrom word (' ' :: rest) = finishedWord word ++ wordsFrom [] rest :=
  if_pos rfl

theorem finishedWord_filled {word : Text} (filled : word ≠ []) : finishedWord word = [word] := by
  unfold finishedWord
  rw [List.isEmpty_eq_false_iff.mpr filled]
  rfl

theorem words_code {bound : Bound} (isColumn : IsColumn bound.column) :
    words ("AND ".toList ++ bound.code) = ["AND".toList, bound.column, bound.operator] := by
  have operator : wordsFrom [] (bound.operator ++ [' ']) = [bound.operator] := by
    unfold Bound.operator
    split <;> rfl
  have column : wordsFrom [] bound.code = [bound.column, bound.operator] := by
    unfold Bound.code
    rw [List.append_assoc, List.append_assoc, wordsFrom_word isColumn.noSpace, List.nil_append,
      List.singleton_append, wordsFrom_space, finishedWord_filled isColumn.filled, operator]
    rfl
  calc words ("AND ".toList ++ bound.code)
      = "AND".toList :: wordsFrom [] bound.code := rfl
    _ = ["AND".toList, bound.column, bound.operator] := by rw [column]

theorem words_next {bound : Bound} (isColumn : IsColumn bound.column) :
    words (" AND ".toList ++ bound.code) = ["AND".toList, bound.column, bound.operator] :=
  words_code isColumn

theorem readBound_operator (bound : Bound) :
    readBound bound.column bound.operator bound.value = some bound := by
  obtain ⟨column, atLeast, value⟩ := bound
  cases atLeast <;> rfl

theorem readBounds_code {bound : Bound} {code : Text} {rest : List Part}
    (split : words code = ["AND".toList, bound.column, bound.operator]) :
    readBounds (.code code :: .data bound.value :: rest) = (readBounds rest).map (bound :: ·) := by
  rw [readBounds, split]
  simp only [if_true, readBound_operator, Option.bind_some]

theorem noQuote_code {bound : Bound} (isColumn : IsColumn bound.column) : '\'' ∉ bound.code := by
  have column := isColumn.noQuote
  have operator : '\'' ∉ bound.operator := by
    unfold Bound.operator
    split <;> decide
  unfold Bound.code
  simp only [List.mem_append, List.mem_singleton, not_or]
  exact ⟨⟨⟨column, by decide⟩, operator⟩, by decide⟩

theorem readBounds_assembled (bounds : List Bound)
    (columns : ∀ bound ∈ bounds, IsColumn bound.column) :
    readBounds (assembledParts
      (bounds.map (fun bound => (" AND ".toList ++ bound.code, bound.value))) []) =
        some bounds := by
  induction bounds with
  | nil => rfl
  | cons bound more ih =>
      have later := ih (fun other member => columns other (List.mem_cons_of_mem _ member))
      rw [List.map_cons, assembledParts,
        readBounds_code (words_next (columns bound List.mem_cons_self)), later]
      rfl

theorem join_texts (bound : Bound) (more : List Bound) :
    Text.join " AND ".toList ((bound :: more).map Bound.text) =
      assemble ((bound.code, bound.value) ::
        more.map (fun bound => (" AND ".toList ++ bound.code, bound.value))) [] := by
  induction more generalizing bound with
  | nil =>
      simp [Text.join, assemble, Bound.text]
  | cons second others ih =>
      have rest := ih second
      rw [assemble] at rest
      rw [List.map_cons, Text.join_cons (by simp), rest, List.map_cons, assemble, assemble]
      simp [Bound.text, List.append_assoc]

/-- A conjunction of bounds is read as these bounds. -/
theorem boundsOf_join {bounds : List Bound} (filled : bounds ≠ [])
    (columns : ∀ bound ∈ bounds, IsColumn bound.column) :
    boundsOf (Text.join " AND ".toList (bounds.map Bound.text)) = some bounds := by
  cases bounds with
  | nil => exact absurd rfl filled
  | cons bound more =>
      have first := columns bound List.mem_cons_self
      have others : ∀ other ∈ more, IsColumn other.column :=
        fun other member => columns other (List.mem_cons_of_mem _ member)
      have pieces : ∀ pair ∈ more.map (fun other => (" AND ".toList ++ other.code, other.value)),
          pair.1 ≠ [] ∧ '\'' ∉ pair.1 := by
        intro pair member
        obtain ⟨other, inside, same⟩ := List.mem_map.mp member
        rw [← same]
        constructor
        · exact List.cons_ne_nil _ _
        · rw [List.mem_append, not_or]
          exact ⟨by decide, noQuote_code (others other inside)⟩
      have parts := @partsOf_assemble bound.code bound.value _ (noQuote_code first)
        (fun pair member => (pieces pair member).1) (fun pair member => (pieces pair member).2)
        [] List.not_mem_nil
      unfold boundsOf
      rw [join_texts, parts, assembledParts]
      dsimp only
      rw [readBounds_code (words_code first), readBounds_assembled more others]
      rfl

end VaultSearch.Sql
