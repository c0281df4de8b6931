/-
Row filters in the text form a table engine reads: comparisons of a column with a
quoted text or a truth value, joined by `AND` and `OR`.

A quote inside a quoted text is written twice.  The main result is that a filter
assembled from escaped texts is read back as exactly the comparisons it was
assembled from, whatever the texts contain.
-/

import VaultSearch.Text.Basic

set_option autoImplicit false

namespace VaultSearch.Sql

inductive Literal where
  | text (value : Text)
  | bool (value : Bool)
  deriving DecidableEq

inductive Token where
  | word (name : Text)
  | literal (value : Text)
  | equal
  | notEqual
  deriving DecidableEq

structure Comparison where
  column : Text
  negated : Bool
  value : Literal
  deriving DecidableEq

/-- A disjunction of conjunctions. -/
abbrev Filter := List (List Comparison)

/-! ### Lexing -/

inductive Scan where
  | gap
  | word (name : Text)
  | quoted (value : Text)
  /-- a quote was read inside a quoted text: its end, or half of a doubled quote -/
  | closing (value : Text)
  | bang

def isWordChar (char : Char) : Bool :=
  char.isAlphanum || char == '_'

def enter (char : Char) : Option (List Token × Scan) :=
  if char = '\'' then some ([], .quoted [])
  else if Text.isSpace char then some ([], .gap)
  else if char = '=' then some ([.equal], .gap)
  else if char = '!' then some ([], .bang)
  else if isWordChar char then some ([], .word [char])
  else none

def Scan.next : Scan → Char → Option (List Token × Scan)
  | .gap, char => enter char
  | .word name, char =>
      if isWordChar char then some ([], .word (name ++ [char]))
      else (enter char).map (fun step => (.word name :: step.1, step.2))
  | .quoted value, char =>
      if char = '\'' then some ([], .closing value) else some ([], .quoted (value ++ [char]))
  | .closing value, char =>
      if char = '\'' then some ([], .quoted (value ++ ['\'']))
      else (enter char).map (fun step => (.literal value :: step.1, step.2))
  | .bang, char => if char = '=' then some ([.notEqual], .gap) else none

def Scan.finish : Scan → Option (List Token)
  | .gap => some []
  | .word name => some [.word name]
  | .quoted _ => none
  | .closing value => some [.literal value]
  | .bang => none

def Scan.run : Scan → Text → Option (List Token)
  | scan, [] => scan.finish
  | scan, char :: rest =>
      match scan.next char with
      | none => none
      | some (tokens, following) => (following.run rest).map (tokens ++ ·)

def tokens (text : Text) : Option (List Token) :=
  Scan.gap.run text

/-! ### Parsing -/

def readValue : Token → Option Literal
  | .literal value => some (.text value)
  | .word name =>
      if name = "true".toList then some (.bool true)
      else if name = "false".toList then some (.bool false)
      else none
  | _ => none

def readComparison : Token → Token → Token → Option Comparison
  | .word column, .equal, value =>
      (readValue value).map (fun read => { column, negated := false, value := read })
  | .word column, .notEqual, value =>
      (readValue value).map (fun read => { column, negated := true, value := read })
  | _, _, _ => none

def readFilter : List Token → Option Filter
  | [column, operator, value] =>
      (readComparison column operator value).map (fun comparison => [[comparison]])
  | column :: operator :: value :: .word keyword :: rest =>
      match readComparison column operator value, readFilter rest with
      | some comparison, some (conjunction :: others) =>
          if keyword = "AND".toList then some ((comparison :: conjunction) :: others)
          else if keyword = "OR".toList then some ([comparison] :: conjunction :: others)
          else none
      | _, _ => none
  | _ => none

def parse (text : Text) : Option Filter :=
  (tokens text).bind readFilter

/-! ### Evaluation -/

def Comparison.holds (columns : Text → Option Literal) (comparison : Comparison) : Bool :=
  match columns comparison.column with
  | none => false
  | some value => xor comparison.negated (value = comparison.value)

def Filter.holds (columns : Text → Option Literal) (filter : Filter) : Bool :=
  filter.any (fun conjunction => conjunction.all (Comparison.holds columns))

/-! ### Filters assembled from escaped texts -/

/-- Every quote doubled. -/
def escape (value : Text) : Text :=
  Text.replaceChar '\'' "''".toList value

/-- `column = 'value'`. -/
def equality (column value : Text) : Text :=
  column ++ " = '".toList ++ escape value ++ "'".toList

/-- Equalities joined by `AND`. -/
def equalities (wanted : List (Text × Text)) : Text :=
  Text.join " AND ".toList (wanted.map (fun pair => equality pair.1 pair.2))

/-- Equalities joined by `OR`. -/
def alternatives (wanted : List (Text × Text)) : Text :=
  Text.join " OR ".toList (wanted.map (fun pair => equality pair.1 pair.2))

def Comparison.equals (column value : Text) : Comparison :=
  { column, negated := false, value := .text value }

/-- A column name: a nonempty run of word characters. -/
def IsName (column : Text) : Prop :=
  column ≠ [] ∧ ∀ char ∈ column, isWordChar char = true

instance (column : Text) : Decidable (IsName column) :=
  @instDecidableAnd _ _ _ (List.decidableBAll _ column)

theorem escape_cons (head : Char) (tail : Text) :
    escape (head :: tail) =
      (if head = '\'' then "''".toList else [head]) ++ escape tail := by
  simp [escape, Text.replaceChar, List.flatMap_cons]

/-- Reading an escaped text collects the text itself. -/
theorem run_quoted_escape (value : Text) :
    ∀ (collected rest : Text),
      (Scan.quoted collected).run (escape value ++ '\'' :: rest) =
        (Scan.closing (collected ++ value)).run rest := by
  induction value with
  | nil =>
      intro collected rest
      change ((Scan.closing collected).run rest).map ([] ++ ·) = _
      simp
  | cons head tail ih =>
      intro collected rest
      rw [escape_cons]
      by_cases quote : head = '\''
      · subst quote
        change (((Scan.quoted (collected ++ ['\''])).run
          (escape tail ++ '\'' :: rest)).map ([] ++ ·)).map ([] ++ ·) = _
        rw [ih]
        simp
      · simp only [if_neg quote, List.cons_append, List.nil_append, Scan.run, Scan.next]
        rw [ih]
        simp

theorem run_closing_nil (value : Text) :
    (Scan.closing value).run [] = some [.literal value] := rfl

theorem run_closing_space (value rest : Text) :
    (Scan.closing value).run (' ' :: rest) =
      (Scan.gap.run rest).map (.literal value :: ·) := rfl

theorem run_gap_space (rest : Text) : Scan.gap.run (' ' :: rest) = Scan.gap.run rest := by
  change (Scan.gap.run rest).map ([] ++ ·) = _
  simp

theorem run_gap_equal (rest : Text) :
    Scan.gap.run ('=' :: rest) = (Scan.gap.run rest).map (.equal :: ·) := rfl

theorem run_gap_quote (rest : Text) :
    Scan.gap.run ('\'' :: rest) = (Scan.quoted []).run rest := by
  change ((Scan.quoted []).run rest).map ([] ++ ·) = _
  simp

theorem wordChar_enter {char : Char} (letter : isWordChar char = true) :
    enter char = some ([], .word [char]) := by
  have notQuote : char ≠ '\'' := by rintro rfl; revert letter; decide
  have notEqual : char ≠ '=' := by rintro rfl; revert letter; decide
  have notBang : char ≠ '!' := by rintro rfl; revert letter; decide
  have notSpace : Text.isSpace char = false := by
    delta isWordChar Char.isAlphanum Char.isAlpha Char.isUpper Char.isLower Char.isDigit at letter
    simp only [Bool.or_eq_true, Bool.and_eq_true, decide_eq_true_eq, beq_iff_eq] at letter
    have code : (48 ≤ char.toNat ∧ char.toNat ≤ 57) ∨ (65 ≤ char.toNat ∧ char.toNat ≤ 90) ∨
        (97 ≤ char.toNat ∧ char.toNat ≤ 122) ∨ char.toNat = 95 := by
      rcases letter with ((upper | lower) | digit) | underscore
      · exact Or.inr (Or.inl ⟨upper.1, upper.2⟩)
      · exact Or.inr (Or.inr (Or.inl ⟨lower.1, lower.2⟩))
      · exact Or.inl ⟨digit.1, digit.2⟩
      · subst underscore
        exact Or.inr (Or.inr (Or.inr rfl))
    simp only [Text.isSpace, Bool.or_eq_false_iff, Bool.and_eq_false_iff, decide_eq_false_iff_not,
      beq_eq_false_iff_ne]
    omega
  simp [enter, notQuote, notSpace, notEqual, notBang, letter]

theorem run_word_space (name : Text) (letters : ∀ char ∈ name, isWordChar char = true) :
    ∀ (collected rest : Text),
      (Scan.word collected).run (name ++ ' ' :: rest) =
        (Scan.gap.run rest).map (.word (collected ++ name) :: ·) := by
  induction name with
  | nil =>
      intro collected rest
      rw [List.append_nil]
      rfl
  | cons head tail ih =>
      intro collected rest
      have letter := letters head (List.mem_cons_self)
      simp only [List.cons_append, Scan.run, Scan.next, letter, if_true]
      rw [ih (fun char member => letters char (List.mem_cons_of_mem _ member))]
      simp [Function.comp_def]

theorem run_gap_word {name : Text} (isName : IsName name) (rest : Text) :
    Scan.gap.run (name ++ ' ' :: rest) = (Scan.gap.run rest).map (.word name :: ·) := by
  obtain ⟨nonempty, letters⟩ := isName
  cases name with
  | nil => exact absurd rfl nonempty
  | cons head tail =>
      have entered := wordChar_enter (letters head List.mem_cons_self)
      simp only [List.cons_append, Scan.run, Scan.next, entered]
      rw [run_word_space tail (fun char member => letters char (List.mem_cons_of_mem _ member))]
      simp [Function.comp_def]

/-- The three tokens of an equality, followed by whatever stands behind it. -/
theorem run_equality {column : Text} (isName : IsName column) (value rest : Text) :
    Scan.gap.run (equality column value ++ rest) =
      ((Scan.closing value).run rest).map (fun later => .word column :: .equal :: later) := by
  have shape : equality column value ++ rest =
      column ++ ' ' :: '=' :: ' ' :: '\'' :: (escape value ++ '\'' :: rest) := by
    simp [equality]
  rw [shape, run_gap_word isName, run_gap_equal, run_gap_space, run_gap_quote,
    run_quoted_escape, List.nil_append, Option.map_map]
  rfl

theorem tokens_equality {column : Text} (isName : IsName column) (value : Text) :
    tokens (equality column value) = some [.word column, .equal, .literal value] := by
  have whole := run_equality isName value []
  rw [List.append_nil, run_closing_nil] at whole
  exact whole

theorem parse_equality {column : Text} (isName : IsName column) (value : Text) :
    parse (equality column value) = some [[Comparison.equals column value]] := by
  unfold parse
  rw [tokens_equality isName]
  rfl

private def connectedTokens (keyword : Text) : List (Text × Text) → List Token
  | [] => []
  | [(column, value)] => [.word column, .equal, .literal value]
  | (column, value) :: rest =>
      .word column :: .equal :: .literal value :: .word keyword :: connectedTokens keyword rest

private theorem tokens_connected {keyword : Text} (isName : IsName keyword)
    (wanted : List (Text × Text)) (nonempty : wanted ≠ [])
    (names : ∀ pair ∈ wanted, IsName pair.1) :
    tokens (Text.join (' ' :: keyword ++ [' ']) (wanted.map (fun pair => equality pair.1 pair.2))) =
      some (connectedTokens keyword wanted) := by
  induction wanted with
  | nil => exact absurd rfl nonempty
  | cons head tail ih =>
      have headName := names head List.mem_cons_self
      cases tail with
      | nil => exact tokens_equality headName head.2
      | cons second rest =>
          have later := ih (by simp) (fun pair member => names pair (List.mem_cons_of_mem _ member))
          have shape : Text.join (' ' :: keyword ++ [' '])
                ((head :: second :: rest).map (fun pair => equality pair.1 pair.2)) =
              equality head.1 head.2 ++ (' ' :: (keyword ++ ' ' ::
                Text.join (' ' :: keyword ++ [' '])
                  ((second :: rest).map (fun pair => equality pair.1 pair.2)))) := by
            simp [Text.join]
          unfold tokens at later ⊢
          rw [shape, run_equality headName, run_closing_space, run_gap_word isName, later]
          rfl

private theorem readFilter_conjunction (wanted : List (Text × Text)) (nonempty : wanted ≠ []) :
    readFilter (connectedTokens "AND".toList wanted) =
      some [wanted.map (fun pair => Comparison.equals pair.1 pair.2)] := by
  induction wanted with
  | nil => exact absurd rfl nonempty
  | cons head tail ih =>
      cases tail with
      | nil => rfl
      | cons second rest =>
          have later := ih (by simp)
          simp only [connectedTokens, readFilter, readComparison, readValue, Option.map_some, later]
          rfl

private theorem readFilter_disjunction (wanted : List (Text × Text)) (nonempty : wanted ≠ []) :
    readFilter (connectedTokens "OR".toList wanted) =
      some (wanted.map (fun pair => [Comparison.equals pair.1 pair.2])) := by
  induction wanted with
  | nil => exact absurd rfl nonempty
  | cons head tail ih =>
      cases tail with
      | nil => rfl
      | cons second rest =>
          have later := ih (by simp)
          simp only [connectedTokens, readFilter, readComparison, readValue, Option.map_some, later]
          rfl

/-- A filter assembled from escaped texts is read as the comparisons it was
assembled from. -/
theorem parse_equalities (wanted : List (Text × Text)) (nonempty : wanted ≠ [])
    (names : ∀ pair ∈ wanted, IsName pair.1) :
    parse (equalities wanted) =
      some [wanted.map (fun pair => Comparison.equals pair.1 pair.2)] := by
  have isName : IsName "AND".toList := by decide
  have separator : " AND ".toList = ' ' :: "AND".toList ++ [' '] := rfl
  unfold parse equalities
  rw [separator, tokens_connected isName wanted nonempty names]
  exact readFilter_conjunction wanted nonempty

theorem parse_alternatives (wanted : List (Text × Text)) (nonempty : wanted ≠ [])
    (names : ∀ pair ∈ wanted, IsName pair.1) :
    parse (alternatives wanted) =
      some (wanted.map (fun pair => [Comparison.equals pair.1 pair.2])) := by
  have isName : IsName "OR".toList := by decide
  have separator : " OR ".toList = ' ' :: "OR".toList ++ [' '] := rfl
  unfold parse alternatives
  rw [separator, tokens_connected isName wanted nonempty names]
  exact readFilter_disjunction wanted nonempty

theorem holds_equals (columns : Text → Option Literal) (column value : Text) :
    (Comparison.equals column value).holds columns = true ↔
      columns column = some (.text value) := by
  unfold Comparison.holds Comparison.equals
  cases read : columns column with
  | none => simp
  | some found => simp

theorem holds_equalities (columns : Text → Option Literal) (wanted : List (Text × Text)) :
    Filter.holds columns [wanted.map (fun pair => Comparison.equals pair.1 pair.2)] = true ↔
      ∀ pair ∈ wanted, columns pair.1 = some (.text pair.2) := by
  simp only [Filter.holds, List.any_cons, List.any_nil, Bool.or_false, List.all_map,
    List.all_eq_true, Function.comp_apply, holds_equals]

theorem holds_alternatives (columns : Text → Option Literal) (wanted : List (Text × Text)) :
    Filter.holds columns (wanted.map (fun pair => [Comparison.equals pair.1 pair.2])) = true ↔
      ∃ pair ∈ wanted, columns pair.1 = some (.text pair.2) := by
  simp only [Filter.holds, List.any_map, List.any_eq_true, Function.comp_apply, List.all_cons,
    List.all_nil, Bool.and_true, holds_equals]

example : parse "is_resolved = false AND link_type != 'external'".toList =
    some [[⟨"is_resolved".toList, false, .bool false⟩,
      ⟨"link_type".toList, true, .text "external".toList⟩]] := by decide

end VaultSearch.Sql
