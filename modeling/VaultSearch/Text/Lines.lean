/-
The lines of a text: its parts between line breaks.
-/

import VaultSearch.Text.Split

set_option autoImplicit false

namespace VaultSearch.Text

/-- `text.split("\n")` -/
def lines (text : Text) : List Text :=
  split ['\n'] text

theorem lines_of_free {line : Text} (free : '\n' ∉ line) : lines line = [line] := by
  have scanned : ∀ current, splitFrom ['\n'] 0 current line = [current ++ line] := by
    induction line with
    | nil =>
        intro current
        rw [List.append_nil]
        rfl
    | cons head tail ih =>
        intro current
        have apart : '\n' ≠ head ∧ '\n' ∉ tail := by simpa using free
        have plain : ¬ ['\n'] <+: head :: tail :=
          fun ahead => apart.1 (List.cons_prefix_cons.mp ahead).1
        rw [splitFrom_char current plain, ih apart.2, List.append_assoc]
        rfl
  exact scanned []

theorem lines_cons {line : Text} (free : '\n' ∉ line) (rest : Text) :
    lines (line ++ '\n' :: rest) = line :: lines rest := by
  have scanned : ∀ current, splitFrom ['\n'] 0 current (line ++ '\n' :: rest) =
      (current ++ line) :: splitFrom ['\n'] 0 [] rest := by
    induction line with
    | nil =>
        intro current
        rw [List.append_nil]
        exact splitFrom_separator (List.cons_ne_nil _ _) current rest
    | cons head tail ih =>
        intro current
        have apart : '\n' ≠ head ∧ '\n' ∉ tail := by simpa using free
        have plain : ¬ ['\n'] <+: head :: (tail ++ '\n' :: rest) :=
          fun ahead => apart.1 (List.cons_prefix_cons.mp ahead).1
        rw [List.cons_append, splitFrom_char current plain, ih apart.2, List.append_assoc]
        rfl
  exact scanned []

/-- A text is its last line, or a line, a line break and a text. -/
theorem lines_induction {motive : Text → Prop} (last : ∀ line, '\n' ∉ line → motive line)
    (more : ∀ line rest, '\n' ∉ line → motive rest → motive (line ++ '\n' :: rest)) :
    ∀ text, motive text := by
  intro text
  induction long : text.length using Nat.strong_induction_on generalizing text with
  | _ size ih =>
      by_cases broken : '\n' ∈ text
      · obtain ⟨line, rest, whole, free⟩ := List.eq_append_cons_of_mem broken
        rw [whole]
        apply more line rest free
        apply ih rest.length _ rest rfl
        rw [← long, whole, List.length_append, List.length_cons]
        omega
      · exact last text broken

theorem takeWhile_line {line : Text} (free : '\n' ∉ line) (rest : Text) :
    (line ++ '\n' :: rest).takeWhile (· ≠ '\n') = line := by
  have kept : ∀ char ∈ line, (decide (char ≠ '\n')) = true :=
    fun char member => decide_eq_true (fun same => free (same ▸ member))
  rw [List.takeWhile_append_of_pos kept]
  simp

theorem takeWhile_last {line : Text} (free : '\n' ∉ line) :
    line.takeWhile (· ≠ '\n') = line := by
  rw [List.takeWhile_eq_self_iff]
  exact fun char member => decide_eq_true (fun same => free (same ▸ member))

/-- The lines below a line that this text follows. -/
def linesBelow : Text → List Text
  | [] => []
  | _ :: rest => lines rest

/-- A text that can stand behind a line. -/
def EndsLine (tail : Text) : Prop :=
  tail.head?.all (· == '\n') = true

theorem lines_line {line : Text} (free : '\n' ∉ line) {tail : Text} (ends : EndsLine tail) :
    lines (line ++ tail) = line :: linesBelow tail := by
  cases tail with
  | nil =>
      rw [List.append_nil]
      exact lines_of_free free
  | cons head rest =>
      have line : head = '\n' := eq_of_beq ends
      rw [line]
      exact lines_cons free rest

theorem exists_line (text : Text) :
    ∃ line tail, text = line ++ tail ∧ '\n' ∉ line ∧ EndsLine tail := by
  refine ⟨text.takeWhile (· ≠ '\n'), text.dropWhile (· ≠ '\n'),
    List.takeWhile_append_dropWhile.symm, ?_, ?_⟩
  · intro member
    have apart := List.mem_takeWhile_imp member
    exact of_decide_eq_true apart rfl
  · unfold EndsLine
    have first := List.head?_dropWhile_not (· ≠ '\n') text
    cases found : (text.dropWhile (· ≠ '\n')).head? with
    | none => rfl
    | some char =>
        rw [found] at first
        simpa using first

/-! ### Line breaks of other systems -/

theorem universalNewlines_of_free {text : Text} (free : '\r' ∉ text) :
    universalNewlines text = text := by
  induction text with
  | nil => rfl
  | cons head tail ih =>
      have apart : '\r' ≠ head ∧ '\r' ∉ tail := by simpa using free
      rw [universalNewlines, ih apart.2]
      · exact fun _rest same _tail => apart.1 same.symm
      · exact fun same => apart.1 same.symm

theorem universalNewlines_free (text : Text) : '\r' ∉ universalNewlines text := by
  induction text using universalNewlines.induct with
  | case1 => exact List.not_mem_nil
  | case2 tail ih =>
      rw [universalNewlines]
      simpa using ih
  | case3 tail plain ih =>
      rw [universalNewlines]
      · simpa using ih
      · exact plain
  | case4 head tail plain single ih =>
      rw [universalNewlines]
      · simp only [List.mem_cons, not_or]
        exact ⟨fun same => single same.symm, ih⟩
      · exact plain
      · exact single

end VaultSearch.Text
