/-
Text as the list of its code points, with the operations of a Python `str` that
do not depend on the Unicode case tables.  Whitespace is what `str.isspace`,
`str.strip` and the class `\s` of a regular expression agree on.

Nothing here knows about notes, tables or paths.
-/

import Mathlib.Algebra.Ring.Nat
import Mathlib.Data.List.Basic
import Mathlib.Data.List.DropRight
import Mathlib.Data.List.Infix
import Mathlib.Data.List.TakeWhile

set_option autoImplicit false

namespace VaultSearch

abbrev Text := List Char

namespace Text

/-! ### Whitespace -/

/-- The code points for which `str.isspace` holds. -/
def isSpace (char : Char) : Bool :=
  let code := char.toNat
  (9 ≤ code && code ≤ 13) || (28 ≤ code && code ≤ 32) || code == 0x85 || code == 0xa0 ||
    code == 0x1680 || (0x2000 ≤ code && code ≤ 0x200a) || code == 0x2028 || code == 0x2029 ||
    code == 0x202f || code == 0x205f || code == 0x3000

def lstrip (text : Text) : Text :=
  text.dropWhile isSpace

def rstrip (text : Text) : Text :=
  (text.reverse.dropWhile isSpace).reverse

def strip (text : Text) : Text :=
  rstrip (lstrip text)

/-- `not text.strip()`. -/
def isBlank (text : Text) : Bool :=
  text.all isSpace

@[simp] theorem strip_nil : strip [] = [] := rfl

theorem dropWhile_eq_nil_of_all {items : Text} (blank : items.all isSpace = true) :
    items.dropWhile isSpace = [] := by
  rw [List.dropWhile_eq_nil_iff]
  intro char member
  exact List.all_eq_true.mp blank char member

theorem strip_eq_nil_iff (text : Text) : strip text = [] ↔ isBlank text = true := by
  constructor
  · intro empty
    unfold strip rstrip at empty
    have reversed : (lstrip text).reverse.dropWhile isSpace = [] :=
      List.reverse_eq_nil_iff.mp empty
    rw [List.dropWhile_eq_nil_iff] at reversed
    cases trimmed : lstrip text with
    | nil =>
        have all := List.dropWhile_eq_nil_iff.mp trimmed
        exact List.all_eq_true.mpr all
    | cons head tail =>
        -- the head of a left-stripped text is never a space
        have headSpace : isSpace head = true :=
          reversed head (by rw [trimmed]; simp)
        have headKept := List.head?_dropWhile_not isSpace text
        unfold lstrip at trimmed
        rw [trimmed] at headKept
        simp [headSpace] at headKept
  · intro blank
    unfold strip lstrip
    rw [dropWhile_eq_nil_of_all blank]
    rfl

theorem lstrip_append_of_blank {lead : Text} (blank : isBlank lead = true) (text : Text) :
    lstrip (lead ++ text) = lstrip text := by
  unfold lstrip
  rw [List.dropWhile_append, dropWhile_eq_nil_of_all blank]
  rfl

/-- Leading whitespace plays no part in a stripped text. -/
theorem strip_append_of_blank {lead : Text} (blank : isBlank lead = true) (text : Text) :
    strip (lead ++ text) = strip text := by
  unfold strip
  rw [lstrip_append_of_blank blank]

theorem rstrip_length_le (text : Text) : (rstrip text).length ≤ text.length := by
  unfold rstrip
  rw [List.length_reverse]
  exact (List.IsSuffix.length_le (List.dropWhile_suffix isSpace)).trans
    (by rw [List.length_reverse])

theorem lstrip_length_le (text : Text) : (lstrip text).length ≤ text.length :=
  List.IsSuffix.length_le (List.dropWhile_suffix isSpace)

theorem strip_length_le (text : Text) : (strip text).length ≤ text.length :=
  (rstrip_length_le _).trans (lstrip_length_le _)

theorem rstrip_cons {head : Char} (kept : isSpace head = false) (tail : Text) :
    rstrip (head :: tail) = head :: rstrip tail := by
  unfold rstrip
  rw [List.reverse_cons, List.dropWhile_append]
  cases blank : (tail.reverse.dropWhile isSpace).isEmpty with
  | true =>
      have nothing := List.isEmpty_iff.mp blank
      rw [if_pos rfl, List.dropWhile_cons, kept, if_neg Bool.false_ne_true, nothing]
      rfl
  | false =>
      rw [if_neg Bool.false_ne_true, List.reverse_append]
      rfl

theorem rstrip_rstrip (text : Text) : rstrip (rstrip text) = rstrip text := by
  unfold rstrip
  rw [List.reverse_reverse, List.dropWhile_idempotent]

@[simp] theorem strip_strip (text : Text) : strip (strip text) = strip text := by
  unfold strip
  cases trimmed : lstrip text with
  | nil => rfl
  | cons head tail =>
      -- the head of a left-stripped text is never a space
      have kept : isSpace head = false := by
        have first := List.head?_dropWhile_not isSpace text
        unfold lstrip at trimmed
        rw [trimmed] at first
        simpa using first
      have unchanged : lstrip (head :: rstrip tail) = head :: rstrip tail := by
        unfold lstrip
        rw [List.dropWhile_cons, kept, if_neg Bool.false_ne_true]
      rw [rstrip_cons kept, unchanged, rstrip_cons kept, rstrip_rstrip]

/-! ### Searching and splitting -/

/-- `text.startswith(start)`. -/
def startsWith (text start : Text) : Bool :=
  start.isPrefixOf text

/-- `text.endswith(ending)`. -/
def endsWith (text ending : Text) : Bool :=
  ending.isSuffixOf text

/-- `text.find(needle)`, with `none` in place of `-1`. -/
def find (needle : Text) : Text → Option Nat
  | [] => if needle.isEmpty then some 0 else none
  | head :: tail =>
      if needle.isPrefixOf (head :: tail) then some 0
      else (find needle tail).map (· + 1)

/-- `text.split(separator)`: `skip` counts the characters of a separator still to
be passed over, `current` is the part being collected. -/
def splitFrom (separator : Text) : Nat → Text → Text → List Text
  | _, current, [] => [current]
  | skip + 1, current, _ :: tail => splitFrom separator skip current tail
  | 0, current, head :: tail =>
      if separator.isPrefixOf (head :: tail) then
        current :: splitFrom separator (separator.length - 1) [] tail
      else splitFrom separator 0 (current ++ [head]) tail

def split (separator text : Text) : List Text :=
  splitFrom separator 0 [] text

/-- `text.split(separator, 1)` when the separator occurs: what stands before its
first occurrence and what stands after. -/
def cut (separator : Char) : Text → Option (Text × Text)
  | [] => none
  | head :: tail =>
      if head = separator then some ([], tail)
      else (cut separator tail).map (fun parts => (head :: parts.1, parts.2))

/-- `text.split()`: the runs of characters that are not whitespace. -/
def wordsFrom : Text → Text → List Text
  | current, [] => if current.isEmpty then [] else [current]
  | current, head :: tail =>
      if isSpace head then
        if current.isEmpty then wordsFrom [] tail else current :: wordsFrom [] tail
      else wordsFrom (current ++ [head]) tail

def words (text : Text) : List Text :=
  wordsFrom [] text

/-- `separator.join(parts)`. -/
def join (separator : Text) : List Text → Text
  | [] => []
  | [part] => part
  | part :: rest => part ++ separator ++ join separator rest

/-- `text.replace(old, new)` for a single character `old`. -/
def replaceChar (old : Char) (new : Text) (text : Text) : Text :=
  text.flatMap (fun char => if char = old then new else [char])

/-- The newline translation of a file opened in text mode. -/
def universalNewlines : Text → Text
  | [] => []
  | '\r' :: '\n' :: tail => '\n' :: universalNewlines tail
  | '\r' :: tail => '\n' :: universalNewlines tail
  | head :: tail => head :: universalNewlines tail

example : split ". ".toList "one. two".toList = ["one".toList, "two".toList] := by decide

example : join "/".toList ["a".toList, "b.md".toList] = "a/b.md".toList := by decide

end Text

end VaultSearch
