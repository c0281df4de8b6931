/-
Delimiters as lines: what `^---\s*$` finds is told by the lines of a text one by one.
-/

import VaultSearch.Parsers.Delimiters
import VaultSearch.Text.Lines

set_option autoImplicit false

namespace VaultSearch

/-- A line of three dashes and whitespace. -/
def delimiterLine (line : Text) : Bool :=
  "---".toList.isPrefixOf line && Text.isBlank (line.drop 3)

/-- The first line that is not blank is a delimiter, and another one follows. -/
def opensWithBlock (lines : List Text) : Bool :=
  match lines.dropWhile Text.isBlank with
  | [] => false
  | first :: rest => delimiterLine first && rest.any delimiterLine

theorem not_delimiterLine_of_blank {line : Text} (blank : Text.isBlank line = true) :
    delimiterLine line = false := by
  cases line with
  | nil => rfl
  | cons head tail =>
      have space := (Bool.and_eq_true_iff.mp blank).1
      unfold delimiterLine
      rw [Bool.and_eq_false_iff, ← Bool.not_eq_true, List.isPrefixOf_iff_prefix]
      apply Or.inl
      intro dashes
      rw [← (List.cons_prefix_cons.mp dashes).1] at space
      exact absurd space (by decide)

theorem isBlank_append (front back : Text) :
    Text.isBlank (front ++ back) = (Text.isBlank front && Text.isBlank back) :=
  List.all_append

/-! ### One line -/

theorem delimiterRun_isSome (text : Text) :
    (delimiterRun text).isSome = delimiterLine (text.takeWhile (· ≠ '\n')) := by
  unfold delimiterRun delimiterLine
  by_cases dashes : "---".toList.isPrefixOf text = true
  · obtain ⟨rest, whole⟩ := List.isPrefixOf_iff_prefix.mp dashes
    have taken : text.takeWhile (· ≠ '\n') = "---".toList ++ rest.takeWhile (· ≠ '\n') := by
      rw [← whole]
      rfl
    have dropped : text.drop 3 = rest := by
      rw [← whole]
      rfl
    have ahead : "---".toList.isPrefixOf ("---".toList ++ rest.takeWhile (· ≠ '\n')) = true :=
      List.isPrefixOf_iff_prefix.mpr (List.prefix_append _ _)
    rw [if_pos dashes, taken, ahead, Bool.true_and, Option.isSome_map, dropped, Bool.eq_iff_iff,
      spaceRun_isSome_iff]
    rfl
  · have apart : "---".toList.isPrefixOf (text.takeWhile (· ≠ '\n')) = false := by
      rw [← Bool.not_eq_true, List.isPrefixOf_iff_prefix]
      intro ahead
      exact dashes (List.isPrefixOf_iff_prefix.mpr
        (ahead.trans (List.takeWhile_prefix _)))
    rw [if_neg dashes, apart]
    rfl

/-- The delimiter that a line is, if it is one. -/
def OneMark (line : Text) (position : Nat) (found : List (Nat × Nat)) : Prop :=
  if delimiterLine line then ∃ stop, found = [(position, stop)] else found = []

/-- The delimiter at the start of a text that stands at `position`. -/
def markHere (position : Nat) (text : Text) : List (Nat × Nat) :=
  ((delimiterRun text).map (fun length => (position, position + length))).toList

theorem oneMark_here (text : Text) (position : Nat) :
    OneMark (text.takeWhile (· ≠ '\n')) position (markHere position text) := by
  unfold OneMark markHere
  rw [← delimiterRun_isSome]
  cases delimiterRun text with
  | none => rfl
  | some length => exact ⟨_, rfl⟩

theorem oneMark_line {line : Text} (free : '\n' ∉ line) (rest : Text) (position : Nat) :
    OneMark line position (markHere position (line ++ '\n' :: rest)) := by
  have here := oneMark_here (line ++ '\n' :: rest) position
  rwa [Text.takeWhile_line free] at here

/-- Inside a line no delimiter starts. -/
theorem marks_inside {line : Text} (free : '\n' ∉ line) (rest : Text) :
    ∀ position, marks position false (line ++ '\n' :: rest) =
      marks (position + line.length + 1) true rest := by
  induction line with
  | nil =>
      intro position
      rfl
  | cons head tail ih =>
      intro position
      have apart : '\n' ≠ head ∧ '\n' ∉ tail := by simpa using free
      have plain : (head == '\n') = false := by simpa using Ne.symm apart.1
      rw [List.cons_append, marks, plain, ih apart.2, List.length_cons, Nat.add_right_comm position,
        Nat.add_assoc position]
      rfl

theorem marks_inside_last {line : Text} (free : '\n' ∉ line) :
    ∀ position, marks position false line = [] := by
  induction line with
  | nil =>
      intro position
      rfl
  | cons head tail ih =>
      intro position
      have apart : '\n' ≠ head ∧ '\n' ∉ tail := by simpa using free
      have plain : (head == '\n') = false := by simpa using Ne.symm apart.1
      rw [marks, plain, ih apart.2]
      rfl

theorem marks_line {line : Text} (free : '\n' ∉ line) (rest : Text) (position : Nat) :
    marks position true (line ++ '\n' :: rest) =
      markHere position (line ++ '\n' :: rest) ++
        marks (position + line.length + 1) true rest := by
  cases line with
  | nil => rfl
  | cons head tail =>
      have apart : '\n' ≠ head ∧ '\n' ∉ tail := by simpa using free
      have plain : (head == '\n') = false := by simpa using Ne.symm apart.1
      rw [List.cons_append, marks, plain, marks_inside apart.2, List.length_cons,
        Nat.add_right_comm position, Nat.add_assoc position]
      rfl

theorem marks_last {line : Text} (free : '\n' ∉ line) (position : Nat) :
    OneMark line position (marks position true line) := by
  have here := oneMark_here line position
  rw [Text.takeWhile_last free] at here
  cases line with
  | nil => exact here
  | cons head tail =>
      have apart : '\n' ≠ head ∧ '\n' ∉ tail := by simpa using free
      have plain : (head == '\n') = false := by simpa using Ne.symm apart.1
      rw [marks, plain, marks_inside_last apart.2, List.append_nil]
      exact here

theorem OneMark.nil_iff {line : Text} {position : Nat} {found : List (Nat × Nat)}
    (one : OneMark line position found) : found = [] ↔ delimiterLine line = false := by
  unfold OneMark at one
  by_cases isDelimiter : delimiterLine line = true
  · rw [if_pos isDelimiter] at one
    obtain ⟨stop, same⟩ := one
    rw [same, isDelimiter]
    simp
  · rw [if_neg isDelimiter] at one
    simpa [one] using isDelimiter

/-! ### All lines -/

/-- There is a delimiter exactly if one of the lines is one. -/
theorem marks_nil_iff (text : Text) :
    ∀ position, marks position true text = [] ↔ (Text.lines text).any delimiterLine = false := by
  induction text using Text.lines_induction with
  | last line free =>
      intro position
      rw [(marks_last free position).nil_iff, Text.lines_of_free free, List.any_cons, List.any_nil,
        Bool.or_false]
  | more line rest free ih =>
      intro position
      rw [marks_line free, List.append_eq_nil_iff, (oneMark_line free rest position).nil_iff, ih, Text.lines_cons free, List.any_cons,
        Bool.or_eq_false_iff]

/-- Whole lines without a delimiter are passed over. -/
theorem marks_of_plain {text : Text} (plain : (Text.lines text).any delimiterLine = false)
    (rest : Text) :
    ∀ position, marks position true (text ++ '\n' :: rest) =
      marks (position + text.length + 1) true rest := by
  induction text using Text.lines_induction with
  | last line free =>
      intro position
      rw [Text.lines_of_free free, List.any_cons, List.any_nil, Bool.or_false] at plain
      rw [marks_line free, (oneMark_line free rest position).nil_iff.mpr plain]
      rfl
  | more line rest' free ih =>
      intro position
      rw [Text.lines_cons free, List.any_cons, Bool.or_eq_false_iff] at plain
      rw [List.append_assoc, List.cons_append, marks_line free,
        (oneMark_line free _ position).nil_iff.mpr plain.1, ih plain.2, List.nil_append]
      congr 1
      rw [List.length_append, List.length_cons]
      omega

/-- The start of the block that these delimiters make up. -/
def blockStart (text : Text) : List (Nat × Nat) → Bool
  | first :: _ :: _ => Text.isBlank (text.take first.1)
  | _ => false

theorem opensWithBlock_blank {line : Text} (blank : Text.isBlank line = true)
    (rest : List Text) : opensWithBlock (line :: rest) = opensWithBlock rest := by
  unfold opensWithBlock
  rw [List.dropWhile_cons_of_pos blank]

theorem opensWithBlock_cons {line : Text} (filled : Text.isBlank line = false)
    (rest : List Text) :
    opensWithBlock (line :: rest) = (delimiterLine line && rest.any delimiterLine) := by
  unfold opensWithBlock
  rw [List.dropWhile_cons_of_neg (by rw [filled]; exact Bool.false_ne_true)]

theorem isBlank_take_front {front line : Text} (filled : Text.isBlank line = false) (rest : Text)
    {count : Nat} (beyond : front.length + line.length ≤ count) :
    Text.isBlank ((front ++ (line ++ rest)).take count) = false := by
  obtain ⟨more, isMore⟩ := Nat.le.dest beyond
  have size : (front ++ line).length = front.length + line.length := List.length_append
  rw [← isMore, ← List.append_assoc, ← size, List.take_append, List.take_of_length_le (by omega),
    isBlank_append, isBlank_append, filled, Bool.and_false, Bool.false_and]

/-- Behind whitespace the delimiters make up a block exactly if the lines do. -/
theorem blockStart_marks (text : Text) :
    ∀ front, Text.isBlank front = true →
      blockStart (front ++ text) (marks front.length true text) =
        opensWithBlock (Text.lines text) := by
  induction text using Text.lines_induction with
  | last line free =>
      intro front _blank
      have few : blockStart (front ++ line) (marks front.length true line) = false := by
        have one := marks_last free front.length
        unfold OneMark at one
        split at one
        · obtain ⟨stop, same⟩ := one
          rw [same]
          rfl
        · rw [one]
          rfl
      rw [few, Text.lines_of_free free]
      cases blank : Text.isBlank line with
      | true => rw [opensWithBlock_blank blank]; rfl
      | false => rw [opensWithBlock_cons blank, List.any_nil, Bool.and_false]
  | more line rest free ih =>
      intro front blankFront
      have one := oneMark_line free rest front.length
      rw [marks_line free, Text.lines_cons free]
      cases blank : Text.isBlank line with
      | true =>
          have longer : Text.isBlank (front ++ (line ++ ['\n'])) = true := by
            rw [isBlank_append, isBlank_append, blankFront, blank]
            rfl
          have size : (front ++ (line ++ ['\n'])).length = front.length + line.length + 1 := by
            rw [List.length_append, List.length_append, List.length_singleton, Nat.add_assoc]
          have below := ih _ longer
          rw [size, List.append_assoc, List.append_assoc] at below
          rw [one.nil_iff.mpr (not_delimiterLine_of_blank blank), opensWithBlock_blank blank]
          exact below
      | false =>
          rw [opensWithBlock_cons blank]
          cases isDelimiter : delimiterLine line with
          | true =>
              unfold OneMark at one
              rw [if_pos isDelimiter] at one
              obtain ⟨stop, same⟩ := one
              rw [same, Bool.true_and, List.singleton_append]
              cases later : marks (front.length + line.length + 1) true rest with
              | nil => exact ((marks_nil_iff rest _).mp later).symm
              | cons second others =>
                  have any : (Text.lines rest).any delimiterLine = true := by
                    rw [← Bool.not_eq_false, ← marks_nil_iff rest (front.length + line.length + 1),
                      later]
                    exact List.cons_ne_nil _ _
                  rw [any, blockStart, List.take_left]
                  exact blankFront
          | false =>
              rw [one.nil_iff.mpr isDelimiter, List.nil_append, Bool.false_and]
              cases later : marks (front.length + line.length + 1) true rest with
              | nil => rfl
              | cons first others =>
                  cases others with
                  | nil => rfl
                  | cons second others =>
                      have beyond := marks_start_le rest _ _ first
                        (by rw [later]; exact List.mem_cons_self)
                      exact isBlank_take_front blank _ (by omega)

/-! ### The block in front of a text -/

/-- What `frontmatterSplit` takes from the delimiters. -/
def splitAt (content : Text) : List (Nat × Nat) → Option (Text × Text)
  | first :: second :: _ =>
      if Text.isBlank (content.take first.1) then
        some ((content.take second.1).drop first.2, content.drop second.2)
      else none
  | _ => none

theorem splitAt_start (content : Text) (opens start stop : Nat) (others : List (Nat × Nat)) :
    splitAt content ((0, opens) :: (start, stop) :: others) =
      some ((content.take start).drop opens, content.drop stop) := rfl

theorem frontmatterSplit_marks (content : Text) :
    frontmatterSplit content = splitAt content (marks 0 true content) := by
  rw [← finditer_frontmatterRe]
  unfold frontmatterSplit
  cases frontmatterRe.finditer content with
  | nil => rfl
  | cons first others =>
      cases others with
      | nil => rfl
      | cons second others =>
          simp only [List.map_cons, splitAt]
          by_cases blank : Text.isBlank (content.take first.start) = true
          · rw [blank, if_pos rfl, Bool.not_true, Bool.and_false, if_neg Bool.false_ne_true]
          · have moved : (first.start != 0) = true := by
              rw [bne_iff_ne]
              intro start
              rw [start] at blank
              exact blank rfl
            rw [Bool.not_eq_true] at blank
            rw [blank, moved]
            rfl

theorem frontmatterSplit_isSome (content : Text) :
    (frontmatterSplit content).isSome = opensWithBlock (Text.lines content) := by
  have started := blockStart_marks content [] rfl
  rw [List.length_nil, List.nil_append] at started
  rw [← started, frontmatterSplit_marks]
  cases marks 0 true content with
  | nil => rfl
  | cons first others =>
      cases others with
      | nil => rfl
      | cons second others =>
          rw [splitAt, blockStart]
          cases Text.isBlank (content.take first.1) with
          | true => rfl
          | false => rfl

end VaultSearch
