/-
The texts an expression can pass over, and what its groups take of them.

Anchors, lookbehinds and back references are forgotten, so this is an upper bound: what a match
passes over is always one of the texts of the expression.
-/

import VaultSearch.Regex.Runs

set_option autoImplicit false

namespace VaultSearch.Regex

abbrev Captures := List (Nat × Text)

/-- Texts with captures that consist of pieces of a language. -/
inductive Repeated (language : Text → Captures → Prop) : Text → Captures → Prop
  | nil : Repeated language [] []
  | cons {front back : Text} {first later : Captures} (piece : language front first)
      (others : Repeated language back later) :
      Repeated language (front ++ back) (first ++ later)

/-- A text of an expression with what its groups take, the first group first. -/
def Takes : Regex → Text → Captures → Prop
  | empty, passed, captured => passed = [] ∧ captured = []
  | chars accepts, passed, captured =>
      (∃ char, passed = [char] ∧ accepts char = true) ∧ captured = []
  | seq first second, passed, captured =>
      ∃ front back early late, passed = front ++ back ∧ captured = early ++ late ∧
        first.Takes front early ∧ second.Takes back late
  | alt first second, passed, captured => first.Takes passed captured ∨ second.Takes passed captured
  | star body, passed, captured => Repeated body.Takes passed captured
  | lazyStar body, passed, captured => Repeated body.Takes passed captured
  | group index body, passed, captured =>
      ∃ inner, captured = inner ++ [(index, passed)] ∧ body.Takes passed inner
  | backref _, _, captured => captured = []
  | notBehind _, passed, captured => passed = [] ∧ captured = []
  | lineStart, passed, captured => passed = [] ∧ captured = []
  | lineEnd, passed, captured => passed = [] ∧ captured = []

/-- From one cursor to a later one over a text of a language. -/
def Cursor.Passes (language : Text → Captures → Prop) (cursor later : Cursor) : Prop :=
  ∃ passed captured, cursor.rest = passed ++ later.rest ∧
    later.groups = captured.reverse ++ cursor.groups ∧ language passed captured

theorem Cursor.Passes.refl {language : Text → Captures → Prop} (cursor : Cursor)
    (fits : language [] []) : cursor.Passes language cursor :=
  ⟨[], [], rfl, rfl, fits⟩

theorem Cursor.Passes.before {language : Text → Captures → Prop} {cursor middle later : Cursor}
    (first : cursor.Passes language middle) (others : middle.Passes (Repeated language) later) :
    cursor.Passes (Repeated language) later := by
  obtain ⟨front, early, left, groups, fits⟩ := first
  obtain ⟨back, late, right, groups', pieces⟩ := others
  refine ⟨front ++ back, early ++ late, ?_, ?_, .cons fits pieces⟩
  · rw [left, right, List.append_assoc]
  · rw [groups', groups, List.reverse_append, List.append_assoc]

theorem greedyRuns_passes {language : Text → Captures → Prop} {step : Cursor → List Cursor}
    (passes : ∀ cursor, ∀ next ∈ step cursor, cursor.Passes language next) (fuel : Nat) :
    ∀ cursor, ∀ last ∈ greedyRuns step fuel cursor, cursor.Passes (Repeated language) last := by
  induction fuel with
  | zero =>
      intro cursor last member
      simp only [greedyRuns, List.mem_singleton] at member
      rw [member]
      exact Cursor.Passes.refl cursor .nil
  | succ fuel ih =>
      intro cursor last member
      simp only [greedyRuns, List.mem_append, List.mem_flatMap, List.mem_filter,
        List.mem_singleton] at member
      rcases member with ⟨next, ⟨reached, _shorter⟩, later⟩ | same
      · exact (passes cursor next reached).before (ih next last later)
      · rw [same]
        exact Cursor.Passes.refl cursor .nil

theorem lazyRuns_passes {language : Text → Captures → Prop} {step : Cursor → List Cursor}
    (passes : ∀ cursor, ∀ next ∈ step cursor, cursor.Passes language next) (fuel : Nat) :
    ∀ cursor, ∀ last ∈ lazyRuns step fuel cursor, cursor.Passes (Repeated language) last := by
  induction fuel with
  | zero =>
      intro cursor last member
      simp only [lazyRuns, List.mem_singleton] at member
      rw [member]
      exact Cursor.Passes.refl cursor .nil
  | succ fuel ih =>
      intro cursor last member
      simp only [lazyRuns, List.mem_cons, List.mem_flatMap, List.mem_filter] at member
      rcases member with same | ⟨next, ⟨reached, _shorter⟩, later⟩
      · rw [same]
        exact Cursor.Passes.refl cursor .nil
      · exact (passes cursor next reached).before (ih next last later)

/-- What an expression passes over is one of its texts. -/
theorem ends_passes (regex : Regex) :
    ∀ cursor, ∀ last ∈ regex.ends cursor, cursor.Passes regex.Takes last := by
  induction regex with
  | empty =>
      intro cursor last member
      simp only [ends_empty, List.mem_singleton] at member
      rw [member]
      exact Cursor.Passes.refl cursor ⟨rfl, rfl⟩
  | chars accepts =>
      intro cursor last member
      cases shape : cursor.rest with
      | nil => simp [ends_chars_nil shape] at member
      | cons head tail =>
          rw [chars_ends shape] at member
          by_cases accepted : accepts head = true
          · rw [if_pos accepted, List.mem_singleton] at member
            rw [member]
            refine ⟨[head], [], ?_, rfl, ⟨head, rfl, accepted⟩, rfl⟩
            rw [advance_rest (shape : cursor.rest = [head] ++ tail)]
            exact shape
          · rw [if_neg accepted] at member
            cases member
  | seq first second ihFirst ihSecond =>
      intro cursor last member
      simp only [ends_seq, List.mem_flatMap] at member
      obtain ⟨middle, reached, later⟩ := member
      obtain ⟨front, early, left, groups, frontTaken⟩ := ihFirst cursor middle reached
      obtain ⟨back, late, right, groups', backTaken⟩ := ihSecond middle last later
      refine ⟨front ++ back, early ++ late, ?_, ?_, front, back, early, late, rfl, rfl, frontTaken,
        backTaken⟩
      · rw [left, right, List.append_assoc]
      · rw [groups', groups, List.reverse_append, List.append_assoc]
  | alt first second ihFirst ihSecond =>
      intro cursor last member
      simp only [ends_alt, List.mem_append] at member
      cases member with
      | inl left =>
          obtain ⟨passed, captured, whole, groups, taken⟩ := ihFirst cursor last left
          exact ⟨passed, captured, whole, groups, Or.inl taken⟩
      | inr right =>
          obtain ⟨passed, captured, whole, groups, taken⟩ := ihSecond cursor last right
          exact ⟨passed, captured, whole, groups, Or.inr taken⟩
  | star body ih =>
      intro cursor last member
      exact greedyRuns_passes ih _ cursor last member
  | lazyStar body ih =>
      intro cursor last member
      exact lazyRuns_passes ih _ cursor last member
  | group index body ih =>
      intro cursor last member
      simp only [ends_group, List.mem_map] at member
      obtain ⟨next, reached, same⟩ := member
      obtain ⟨passed, inner, whole, groups, taken⟩ := ih cursor next reached
      have consumed : cursor.consumed next = passed := by
        unfold Cursor.consumed
        rw [whole, List.length_append, Nat.add_sub_cancel, List.take_left]
      rw [← same]
      refine ⟨passed, inner ++ [(index, passed)], whole, ?_, inner, rfl, taken⟩
      rw [List.reverse_append, consumed, groups]
      rfl
  | backref index =>
      intro cursor last member
      cases known : cursor.groups.lookup index with
      | none => simp [ends, known] at member
      | some wanted =>
          by_cases found : wanted.isPrefixOf cursor.rest = true
          · simp only [ends, known, found, if_true, List.mem_singleton] at member
            obtain ⟨later, whole⟩ := List.isPrefixOf_iff_prefix.mp found
            rw [member]
            refine ⟨wanted, [], ?_, rfl, rfl⟩
            rw [advance_rest whole.symm]
            exact whole.symm
          · simp [ends, known, found] at member
  | notBehind accepts =>
      intro cursor last member
      rw [ends_notBehind] at member
      split at member
      · cases member
      · rw [List.mem_singleton.mp member]
        exact Cursor.Passes.refl cursor ⟨rfl, rfl⟩
  | lineStart =>
      intro cursor last member
      rw [ends_lineStart] at member
      split at member
      · rw [List.mem_singleton.mp member]
        exact Cursor.Passes.refl cursor ⟨rfl, rfl⟩
      · cases member
  | lineEnd =>
      intro cursor last member
      rw [ends_lineEnd] at member
      split at member
      · rw [List.mem_singleton.mp member]
        exact Cursor.Passes.refl cursor ⟨rfl, rfl⟩
      · cases member

/-- What the first match passes over, and what its groups took. -/
theorem firstMatch_takes {regex : Regex} {cursor next : Cursor}
    (found : regex.firstMatch cursor = some next) :
    ∃ passed, cursor.rest = passed ++ next.rest ∧ regex.Takes passed next.groups.reverse := by
  obtain ⟨passed, captured, whole, groups, taken⟩ := ends_passes regex { cursor with groups := [] }
    next (List.mem_of_mem_head? (Option.mem_def.mpr found))
  exists passed
  constructor
  · exact whole
  · rw [groups, List.append_nil, List.reverse_reverse]
    exact taken

/-! ### The derived expressions -/

theorem takes_literal (wanted passed : Text) (captured : Captures) :
    (literal wanted).Takes passed captured ↔ passed = wanted ∧ captured = [] := by
  induction wanted generalizing passed captured with
  | nil => exact Iff.rfl
  | cons head tail ih =>
      unfold literal
      constructor
      · rintro ⟨front, back, early, late, whole, captures, ⟨⟨char, single, accepted⟩, none⟩, later⟩
        obtain ⟨same, none'⟩ := (ih back late).mp later
        rw [whole, single, eq_of_beq accepted, same, captures, none, none']
        exact ⟨rfl, rfl⟩
      · rintro ⟨same, none⟩
        exact ⟨[head], tail, [], [], same, none, ⟨⟨head, rfl, beq_self_eq_true head⟩, rfl⟩,
          (ih tail []).mpr ⟨rfl, rfl⟩⟩

theorem takes_anyOf (expressions : List Regex) (passed : Text) (captured : Captures) :
    (anyOf expressions).Takes passed captured ↔
      ∃ regex ∈ expressions, regex.Takes passed captured := by
  induction expressions with
  | nil => simp [anyOf, Takes]
  | cons first rest ih =>
      cases rest with
      | nil => simp [anyOf]
      | cons second others =>
          rw [anyOf]
          · simp only [Takes, ih, List.mem_cons, exists_eq_or_imp]
          · simp

/-! ### Fields -/

/-- An expression without groups and without long texts. -/
def AtMost (regex : Regex) (bound : Nat) : Prop :=
  ∀ passed captured, regex.Takes passed captured → passed.length ≤ bound ∧ captured = []

theorem AtMost.chars (accepts : Char → Bool) : (chars accepts).AtMost 1 := by
  rintro passed captured ⟨⟨char, single, _accepted⟩, none⟩
  rw [single]
  exact ⟨Nat.le_refl 1, none⟩

theorem AtMost.literal (wanted : Text) : (literal wanted).AtMost wanted.length := by
  intro passed captured taken
  obtain ⟨same, none⟩ := (takes_literal wanted passed captured).mp taken
  rw [same]
  exact ⟨Nat.le_refl _, none⟩

theorem AtMost.seq {first second : Regex} {left right : Nat} (front : first.AtMost left)
    (back : second.AtMost right) : (seq first second).AtMost (left + right) := by
  rintro passed captured ⟨before, after, early, late, whole, captures, taken, later⟩
  have first := front before early taken
  have second := back after late later
  rw [whole, captures, List.length_append, first.2, second.2]
  exact ⟨Nat.add_le_add first.1 second.1, rfl⟩

theorem AtMost.anyOf {expressions : List Regex} {bound : Nat}
    (each : ∀ regex ∈ expressions, regex.AtMost bound) : (anyOf expressions).AtMost bound := by
  intro passed captured taken
  obtain ⟨regex, member, takes⟩ := (takes_anyOf expressions passed captured).mp taken
  exact each regex member passed captured takes

theorem AtMost.weaken {regex : Regex} {bound larger : Nat} (short : regex.AtMost bound)
    (le : bound ≤ larger) : regex.AtMost larger :=
  fun passed captured taken =>
    ⟨Nat.le_trans (short passed captured taken).1 le, (short passed captured taken).2⟩

/-- A group around a field, and what follows it. -/
theorem AtMost.group_seq {field rest : Regex} {bound index : Nat} (short : field.AtMost bound)
    {passed : Text} {captured : Captures}
    (taken : (Regex.seq (.group index field) rest).Takes passed captured) :
    ∃ piece back later, passed = piece ++ back ∧ captured = (index, piece) :: later ∧
      piece.length ≤ bound ∧ rest.Takes back later := by
  obtain ⟨piece, back, early, later, whole, captures, ⟨inner, groups, takes⟩, others⟩ := taken
  have field := short piece inner takes
  refine ⟨piece, back, later, whole, ?_, field.1, others⟩
  rw [captures, groups, field.2]
  rfl

/-- A literal, and what follows it. -/
theorem literal_seq {wanted : Text} {rest : Regex} {passed : Text} {captured : Captures}
    (taken : (seq (literal wanted) rest).Takes passed captured) :
    ∃ back, passed = wanted ++ back ∧ rest.Takes back captured := by
  obtain ⟨front, back, early, late, whole, captures, isWanted, later⟩ := taken
  obtain ⟨same, none⟩ := (takes_literal wanted front early).mp isWanted
  rw [none, List.nil_append] at captures
  rw [captures]
  exact ⟨back, whole.trans (congrArg (· ++ back) same), later⟩

end VaultSearch.Regex
