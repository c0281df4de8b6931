/-
Predicates in the text form a query engine reads: comparisons, `LIKE` with an optional
`ESCAPE`, `AND`, `OR` and parentheses.

A text is cut at its quotes first.  What stands between quotes is data; what stands outside
is code, and a text that was assembled from escaped values has the same code whatever the
values are.
-/

import VaultSearch.Sql.Filter
import VaultSearch.Sql.Like

set_option autoImplicit false

namespace VaultSearch.Sql

/-! ### Code and data -/

inductive Part where
  | code (text : Text)
  | data (value : Text)
  deriving DecidableEq

inductive Reading where
  | code (text : Text)
  | quoted (value : Text)
  /-- a quote was read in quoted text: its end, or half of a doubled quote -/
  | closing (value : Text)

def Reading.parts : Reading → Text → Option (List Part)
  | .code text, [] => some [.code text]
  | .code text, char :: rest =>
      if char = '\'' then (Reading.parts (.quoted []) rest).map (.code text :: ·)
      else Reading.parts (.code (text ++ [char])) rest
  | .quoted _, [] => none
  | .quoted value, char :: rest =>
      if char = '\'' then Reading.parts (.closing value) rest
      else Reading.parts (.quoted (value ++ [char])) rest
  | .closing value, [] => some [.data value, .code []]
  | .closing value, char :: rest =>
      if char = '\'' then Reading.parts (.quoted (value ++ ['\''])) rest
      else (Reading.parts (.code [char]) rest).map (.data value :: ·)

theorem parts_code_cons (read : Text) (char : Char) (rest : Text) :
    Reading.parts (.code read) (char :: rest) =
      if char = '\'' then (Reading.parts (.quoted []) rest).map (.code read :: ·)
      else Reading.parts (.code (read ++ [char])) rest := rfl

theorem parts_quoted_cons (read : Text) (char : Char) (rest : Text) :
    Reading.parts (.quoted read) (char :: rest) =
      if char = '\'' then Reading.parts (.closing read) rest
      else Reading.parts (.quoted (read ++ [char])) rest := rfl

theorem parts_closing_cons (read : Text) (char : Char) (rest : Text) :
    Reading.parts (.closing read) (char :: rest) =
      if char = '\'' then Reading.parts (.quoted (read ++ ['\''])) rest
      else (Reading.parts (.code [char]) rest).map (.data read :: ·) := rfl

/-- The parts of a text, unless a quote stays open. -/
def partsOf (text : Text) : Option (List Part) :=
  Reading.parts (.code []) text

def Part.codeText : Part → Option Text
  | .code text => some text
  | .data _ => none

/-- What stands outside the quotes. -/
def codeOf (text : Text) : Option (List Text) :=
  (partsOf text).map (List.filterMap Part.codeText)

theorem parts_code {text : Text} (free : '\'' ∉ text) :
    ∀ (read : Text) (rest : Text),
      Reading.parts (.code read) (text ++ rest) = Reading.parts (.code (read ++ text)) rest := by
  induction text with
  | nil =>
      intro read rest
      rw [List.append_nil, List.nil_append]
  | cons head tail ih =>
      intro read rest
      have apart : '\'' ≠ head ∧ '\'' ∉ tail := by simpa using free
      rw [List.cons_append, parts_code_cons, if_neg (Ne.symm apart.1), ih apart.2,
        List.append_assoc]
      rfl

/-- An escaped value between quotes is read as the value. -/
theorem parts_escape (value : Text) :
    ∀ (read rest : Text), Reading.parts (.quoted read) (escape value ++ '\'' :: rest) =
      Reading.parts (.closing (read ++ value)) rest := by
  induction value with
  | nil =>
      intro read rest
      rw [List.append_nil]
      exact if_pos rfl
  | cons head tail ih =>
      intro read rest
      rw [escape_cons]
      by_cases quote : head = '\''
      · rw [if_pos quote, quote]
        change Reading.parts (.quoted read) ('\'' :: '\'' :: (escape tail ++ '\'' :: rest)) = _
        rw [parts_quoted_cons, if_pos rfl, parts_closing_cons, if_pos rfl, ih, List.append_assoc]
        rfl
      · rw [if_neg quote, List.append_assoc, List.singleton_append, parts_quoted_cons, if_neg quote,
          ih, List.append_assoc]
        rfl

/-- Pieces of code, each with an escaped value in quotes behind it, and a last piece. -/
def assemble : List (Text × Text) → Text → Text
  | [], last => last
  | (code, value) :: more, last =>
      code ++ '\'' :: (escape value ++ '\'' :: assemble more last)

def assembledParts : List (Text × Text) → Text → List Part
  | [], last => [.code last]
  | (code, value) :: more, last => .code code :: .data value :: assembledParts more last

theorem parts_closing (read : Text) {pairs : List (Text × Text)}
    (filled : ∀ pair ∈ pairs, pair.1 ≠ []) (free : ∀ pair ∈ pairs, '\'' ∉ pair.1) {last : Text}
    (lastFree : '\'' ∉ last) :
    Reading.parts (.closing read) (assemble pairs last) =
      some (.data read :: assembledParts pairs last) := by
  induction pairs generalizing read with
  | nil =>
      rw [assemble, assembledParts]
      cases last with
      | nil => rfl
      | cons head tail =>
          have apart : '\'' ≠ head ∧ '\'' ∉ tail := by simpa using lastFree
          have whole := parts_code apart.2 [head] []
          rw [List.append_nil] at whole
          rw [parts_closing_cons, if_neg (Ne.symm apart.1), whole]
          rfl
  | cons pair more ih =>
      obtain ⟨code, value⟩ := pair
      have here := filled (code, value) List.mem_cons_self
      have hereFree := free (code, value) List.mem_cons_self
      have later := ih value (fun other member => filled other (List.mem_cons_of_mem _ member))
        (fun other member => free other (List.mem_cons_of_mem _ member))
      rw [assemble, assembledParts]
      cases code with
      | nil => exact absurd rfl here
      | cons head tail =>
          have apart : '\'' ≠ head ∧ '\'' ∉ tail := by simpa using hereFree
          rw [List.cons_append, parts_closing_cons, if_neg (Ne.symm apart.1), parts_code apart.2,
            parts_code_cons, if_pos rfl, parts_escape, List.nil_append, later]
          rfl

/-- An assembled text is read as it was assembled, whatever the values contain. -/
theorem partsOf_assemble {code value : Text} {more : List (Text × Text)}
    (codeFree : '\'' ∉ code) (filled : ∀ pair ∈ more, pair.1 ≠ [])
    (free : ∀ pair ∈ more, '\'' ∉ pair.1) {last : Text} (lastFree : '\'' ∉ last) :
    partsOf (assemble ((code, value) :: more) last) =
      some (assembledParts ((code, value) :: more) last) := by
  have read := parts_escape value [] (assemble more last)
  rw [List.nil_append] at read
  unfold partsOf
  rw [assemble, parts_code codeFree, parts_code_cons, if_pos rfl, read,
    parts_closing value filled free lastFree]
  rfl

/-- What was read as data stood there escaped. -/
theorem parts_quoted_inv {text : Text} :
    ∀ {read : Text} {parts : List Part}, Reading.parts (.quoted read) text = some parts →
      ∃ value rest others, text = escape value ++ '\'' :: rest ∧
        parts = .data (read ++ value) :: others ∧ rest.head? ≠ some '\'' := by
  induction long : text.length using Nat.strong_induction_on generalizing text with
  | _ size ih =>
      intro read parts found
      cases text with
      | nil => cases found
      | cons head tail =>
          rw [parts_quoted_cons] at found
          by_cases quote : head = '\''
          · rw [if_pos quote] at found
            cases tail with
            | nil =>
                refine ⟨[], [], [.code []], ?_, ?_, Option.some_ne_none _ ∘ Eq.symm⟩
                · rw [quote]
                  rfl
                · rw [List.append_nil]
                  exact (Option.some.inj found).symm
            | cons second later =>
                rw [parts_closing_cons] at found
                by_cases doubled : second = '\''
                · rw [if_pos doubled] at found
                  have shorter : later.length < size := by
                    rw [← long, List.length_cons, List.length_cons]
                    omega
                  obtain ⟨value, rest, others, split, same, ends⟩ := ih later.length shorter rfl found
                  refine ⟨'\'' :: value, rest, others, ?_, ?_, ends⟩
                  · rw [quote, doubled, split, escape_cons]
                    rfl
                  · rw [same, List.append_assoc]
                    rfl
                · rw [if_neg doubled] at found
                  obtain ⟨others, _isOthers, same⟩ := Option.map_eq_some_iff.mp found
                  refine ⟨[], second :: later, others, ?_, ?_, ?_⟩
                  · rw [quote]
                    rfl
                  · rw [List.append_nil]
                    exact same.symm
                  · exact fun isQuote => doubled (Option.some.inj isQuote)
          · rw [if_neg quote] at found
            have shorter : tail.length < size := by
              rw [← long]
              exact Nat.lt_succ_self _
            obtain ⟨value, rest, others, split, same, ends⟩ := ih tail.length shorter rfl found
            refine ⟨head :: value, rest, others, ?_, ?_, ends⟩
            · rw [escape_cons, if_neg quote, split]
              rfl
            · rw [same, List.append_assoc]
              rfl

/-- Whatever is read, code and data alternate. -/
theorem parts_alternate (text : Text) :
    (∀ {read : Text} {parts : List Part}, Reading.parts (.code read) text = some parts →
      ∃ pairs last, parts = assembledParts pairs last) ∧
    (∀ {read : Text} {parts : List Part}, Reading.parts (.quoted read) text = some parts →
      ∃ value pairs last, parts = .data value :: assembledParts pairs last) ∧
    (∀ {read : Text} {parts : List Part}, Reading.parts (.closing read) text = some parts →
      ∃ value pairs last, parts = .data value :: assembledParts pairs last) := by
  induction text with
  | nil =>
      refine ⟨?_, ?_, ?_⟩
      · intro read parts found
        exact ⟨[], read, (Option.some.inj found).symm⟩
      · intro read parts found
        cases found
      · intro read parts found
        exact ⟨read, [], [], (Option.some.inj found).symm⟩
  | cons head tail ih =>
      obtain ⟨inCode, inQuotes, atQuote⟩ := ih
      refine ⟨?_, ?_, ?_⟩
      · intro read parts found
        rw [parts_code_cons] at found
        split at found
        · obtain ⟨later, isLater, same⟩ := Option.map_eq_some_iff.mp found
          obtain ⟨value, pairs, last, split⟩ := inQuotes isLater
          exact ⟨(read, value) :: pairs, last, by rw [← same, split]; rfl⟩
        · exact inCode found
      · intro read parts found
        rw [parts_quoted_cons] at found
        split at found
        · exact atQuote found
        · exact inQuotes found
      · intro read parts found
        rw [parts_closing_cons] at found
        split at found
        · exact inQuotes found
        · obtain ⟨later, isLater, same⟩ := Option.map_eq_some_iff.mp found
          obtain ⟨pairs, last, split⟩ := inCode isLater
          exact ⟨read, pairs, last, by rw [← same, split]⟩

theorem codeTexts_assembledParts (pairs : List (Text × Text)) (last : Text) :
    (assembledParts pairs last).filterMap Part.codeText = pairs.map (·.1) ++ [last] := by
  induction pairs with
  | nil => rfl
  | cons pair more ih =>
      obtain ⟨code, value⟩ := pair
      exact congrArg (code :: ·) ih

theorem codeOf_assemble {code value : Text} {more : List (Text × Text)}
    (codeFree : '\'' ∉ code) (filled : ∀ pair ∈ more, pair.1 ≠ [])
    (free : ∀ pair ∈ more, '\'' ∉ pair.1) {last : Text} (lastFree : '\'' ∉ last) :
    codeOf (assemble ((code, value) :: more) last) = some (code :: more.map (·.1) ++ [last]) := by
  unfold codeOf
  rw [partsOf_assemble codeFree filled free lastFree, Option.map_some, codeTexts_assembledParts]
  rfl

theorem escape_append (front back : Text) : escape (front ++ back) = escape front ++ escape back :=
  List.flatMap_append

theorem length_escape (value : Text) :
    (escape value).length = value.length + value.count '\'' := by
  induction value with
  | nil => rfl
  | cons head tail ih =>
      rw [escape_cons, List.length_append, ih, List.count_cons, List.length_cons]
      by_cases quote : head = '\''
      · rw [if_pos quote, quote, if_pos (beq_self_eq_true _)]
        change 2 + _ = _
        omega
      · rw [if_neg quote, if_neg (by rw [beq_iff_eq]; exact quote), List.length_singleton]
        omega

theorem count_escape (value : Text) :
    (escape value).count '\'' = value.count '\'' + value.count '\'' := by
  induction value with
  | nil => rfl
  | cons head tail ih =>
      rw [escape_cons, List.count_append, ih, List.count_cons]
      by_cases quote : head = '\''
      · rw [if_pos quote, quote, if_pos (beq_self_eq_true _)]
        change 2 + _ = _
        omega
      · have none : ([head] : Text).count '\'' = 0 :=
          List.count_eq_zero.mpr (fun member => quote (List.mem_singleton.mp member).symm)
        rw [if_neg quote, none, if_neg (by rw [beq_iff_eq]; exact quote)]
        omega

theorem escape_of_free {value : Text} (free : '\'' ∉ value) : escape value = value := by
  induction value with
  | nil => rfl
  | cons head tail ih =>
      have apart : '\'' ≠ head ∧ '\'' ∉ tail := by simpa using free
      rw [escape_cons, if_neg (Ne.symm apart.1), ih apart.2]
      rfl

/-! ### Lexemes -/

inductive Lexeme where
  | word (name : Text)
  | literal (value : Text)
  | parameter
  | equal
  | notEqual
  | opening
  | closing
  deriving DecidableEq

/-- The word that was being read, if any. -/
def finished (word : Text) : List Lexeme :=
  if word.isEmpty then [] else [.word word]

def lexFrom (word : Text) : Text → Option (List Lexeme)
  | [] => some (finished word)
  | '!' :: '=' :: rest => (lexFrom [] rest).map (finished word ++ .notEqual :: ·)
  | char :: rest =>
      if isWordChar char then lexFrom (word ++ [char]) rest
      else if Text.isSpace char then (lexFrom [] rest).map (finished word ++ ·)
      else if char = '=' then (lexFrom [] rest).map (finished word ++ .equal :: ·)
      else if char = '(' then (lexFrom [] rest).map (finished word ++ .opening :: ·)
      else if char = ')' then (lexFrom [] rest).map (finished word ++ .closing :: ·)
      else if char = '?' then (lexFrom [] rest).map (finished word ++ .parameter :: ·)
      else none

def Part.lexemes : Part → Option (List Lexeme)
  | .code text => lexFrom [] text
  | .data value => some [.literal value]

def lexemesOf : List Part → Option (List Lexeme)
  | [] => some []
  | part :: rest => part.lexemes.bind (fun front => (lexemesOf rest).map (front ++ ·))

/-- Bound parameters stand for literals, verbatim. -/
def bindParameters : List Lexeme → List Text → Option (List Lexeme)
  | [], [] => some []
  | [], _ :: _ => none
  | .parameter :: _, [] => none
  | .parameter :: rest, value :: values =>
      (bindParameters rest values).map (.literal value :: ·)
  | lexeme :: rest, values => (bindParameters rest values).map (lexeme :: ·)

/-! ### Predicates -/

inductive Predicate where
  | equals (column : Text) (value : Literal)
  | differs (column : Text) (value : Literal)
  | like (column pattern : Text) (escape : Char)
  | both (left right : Predicate)
  | either (left right : Predicate)

abbrev Reader := List Lexeme → Option (Predicate × List Lexeme)

def readLiteral : Lexeme → Option Literal
  | .literal value => some (.text value)
  | .word name =>
      if name = "true".toList then some (.bool true)
      else if name = "false".toList then some (.bool false)
      else none
  | _ => none

/-- The escape character of a pattern: a backslash unless another one is named. -/
def readEscape : List Lexeme → Char × List Lexeme
  | .word keyword :: .literal [escape] :: rest =>
      if keyword = "ESCAPE".toList then (escape, rest)
      else ('\\', .word keyword :: .literal [escape] :: rest)
  | rest => ('\\', rest)

def readAtom : Reader
  | .word column :: .equal :: value :: rest =>
      (readLiteral value).map (fun read => (.equals column read, rest))
  | .word column :: .notEqual :: value :: rest =>
      (readLiteral value).map (fun read => (.differs column read, rest))
  | .word column :: .word keyword :: .literal pattern :: rest =>
      if keyword = "LIKE".toList then
        let (escape, rest) := readEscape rest
        some (.like column pattern escape, rest)
      else none
  | _ => none

def readPrimary (inner : Reader) : Reader
  | .opening :: rest =>
      match inner rest with
      | some (predicate, .closing :: later) => some (predicate, later)
      | _ => none
  | lexemes => readAtom lexemes

/-- One or more predicates with a keyword between them. -/
def readChain (keyword : Text) (combine : Predicate → Predicate → Predicate) (one : Reader) :
    Nat → Reader
  | 0, lexemes => one lexemes
  | fuel + 1, lexemes =>
      match one lexemes with
      | some (first, .word word :: later) =>
          if word = keyword then
            (readChain keyword combine one fuel later).map
              (fun read => (combine first read.1, read.2))
          else some (first, .word word :: later)
      | other => other

def readPredicate : Nat → Reader
  | 0, _ => none
  | depth + 1, lexemes =>
      readChain "OR".toList .either
        (readChain "AND".toList .both (readPrimary (readPredicate depth)) lexemes.length)
        lexemes.length lexemes

def readWhole (lexemes : List Lexeme) : Option Predicate :=
  match readPredicate (lexemes.length + 1) lexemes with
  | some (predicate, []) => some predicate
  | _ => none

/-- The predicate of a text with its parameters, if it is a single well-formed one. -/
def predicateOf (text : Text) (parameters : List Text) : Option Predicate :=
  (partsOf text).bind (fun parts => (lexemesOf parts).bind (fun lexemes =>
    (bindParameters lexemes parameters).bind readWhole))

/-! ### Evaluation -/

/-- Whether a row meets a predicate, for an engine that has its own `LIKE`. -/
def Predicate.holds (likes : Char → Text → Text → Bool) (columns : Text → Option Literal) :
    Predicate → Bool
  | .equals column value => columns column = some value
  | .differs column value => (columns column).any (· ≠ value)
  | .like column pattern escape =>
      match columns column with
      | some (.text text) => likes escape pattern text
      | _ => false
  | .both left right => left.holds likes columns && right.holds likes columns
  | .either left right => left.holds likes columns || right.holds likes columns

theorem Predicate.holds_both (likes : Char → Text → Text → Bool)
    (columns : Text → Option Literal) (left right : Predicate) :
    (Predicate.both left right).holds likes columns = true ↔
      left.holds likes columns = true ∧ right.holds likes columns = true := by
  rw [Predicate.holds, Bool.and_eq_true]

theorem Predicate.holds_either (likes : Char → Text → Text → Bool)
    (columns : Text → Option Literal) (left right : Predicate) :
    (Predicate.either left right).holds likes columns = true ↔
      left.holds likes columns = true ∨ right.holds likes columns = true := by
  rw [Predicate.holds, Bool.or_eq_true]

end VaultSearch.Sql
