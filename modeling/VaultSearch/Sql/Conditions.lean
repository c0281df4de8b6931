/-
Conditions on text columns in the text form a query engine reads: `=`, `>=`, `<=` and `LIKE`
with a quoted text, joined by `AND`, `OR` and parentheses.

A conjunction of clauses, each a condition or a disjunction in parentheses, is read back as
exactly these clauses, whatever the quoted texts contain.
-/

import VaultSearch.Sql.Bounds

set_option autoImplicit false

namespace VaultSearch.Sql

inductive Operator where
  | equal
  | atLeast
  | atMost
  | like
  deriving DecidableEq

structure Condition where
  column : Text
  operator : Operator
  value : Text
  deriving DecidableEq

inductive Formula where
  | atom (condition : Condition)
  | both (left right : Formula)
  | either (left right : Formula)

/-! ### Reading -/

inductive Symbol where
  | word (name : Text)
  | quoted (value : Text)
  deriving DecidableEq

def isParenthesis (char : Char) : Bool :=
  char == '(' || char == ')'

/-- Words end at spaces and parentheses; a parenthesis is a word of its own. -/
def codeWordsFrom (word : Text) : Text → List Text
  | [] => finishedWord word
  | char :: rest =>
      if char = ' ' then finishedWord word ++ codeWordsFrom [] rest
      else if isParenthesis char then finishedWord word ++ [char] :: codeWordsFrom [] rest
      else codeWordsFrom (word ++ [char]) rest

def codeWords (text : Text) : List Text :=
  codeWordsFrom [] text

def Part.symbols : Part → List Symbol
  | .code text => (codeWords text).map .word
  | .data value => [.quoted value]

abbrev FormulaReader := List Symbol → Option (Formula × List Symbol)

def readOperator (name : Text) : Option Operator :=
  if name = "=".toList then some .equal
  else if name = ">=".toList then some .atLeast
  else if name = "<=".toList then some .atMost
  else if name = "LIKE".toList then some .like
  else none

def readCondition : FormulaReader
  | .word column :: .word name :: .quoted value :: rest =>
      (readOperator name).map (fun operator =>
        (.atom { column, operator, value }, rest))
  | _ => none

def readUnit (inner : FormulaReader) : FormulaReader
  | .word name :: rest =>
      if name = "(".toList then
        match inner rest with
        | some (formula, .word closing :: later) =>
            if closing = ")".toList then some (formula, later) else none
        | _ => none
      else readCondition (.word name :: rest)
  | _ => none

/-- One or more formulas with a keyword between them. -/
def readJoined (keyword : Text) (combine : Formula → Formula → Formula) (one : FormulaReader) :
    Nat → FormulaReader
  | 0, symbols => one symbols
  | fuel + 1, symbols =>
      match one symbols with
      | some (first, .word word :: later) =>
          if word = keyword then
            (readJoined keyword combine one fuel later).map
              (fun read => (combine first read.1, read.2))
          else some (first, .word word :: later)
      | other => other

def readFormula : Nat → FormulaReader
  | 0, _ => none
  | depth + 1, symbols =>
      readJoined "OR".toList .either
        (readJoined "AND".toList .both (readUnit (readFormula depth)) symbols.length)
        symbols.length symbols

/-- The formula of a text, if it is a single well-formed one. -/
def formulaOf (text : Text) : Option Formula :=
  (partsOf text).bind (fun parts =>
    let symbols := parts.flatMap Part.symbols
    match readFormula (symbols.length + 1) symbols with
    | some (formula, []) => some formula
    | _ => none)

/-! ### Evaluation -/

def Operator.holds (likes : Char → Text → Text → Bool) (text value : Text) : Operator → Bool
  | .equal => text = value
  | .atLeast => !decide (text < value)
  | .atMost => !decide (value < text)
  | .like => likes '\\' value text

def Condition.holds (likes : Char → Text → Text → Bool) (columns : Text → Option Literal)
    (condition : Condition) : Bool :=
  match columns condition.column with
  | some (.text text) => condition.operator.holds likes text condition.value
  | _ => false

def Formula.holds (likes : Char → Text → Text → Bool) (columns : Text → Option Literal) :
    Formula → Bool
  | .atom condition => condition.holds likes columns
  | .both left right => left.holds likes columns && right.holds likes columns
  | .either left right => left.holds likes columns || right.holds likes columns

/-! ### Writing -/

def Operator.name : Operator → Text
  | .equal => "=".toList
  | .atLeast => ">=".toList
  | .atMost => "<=".toList
  | .like => "LIKE".toList

theorem Operator.name_equal : Operator.name .equal = "=".toList := rfl

theorem Operator.name_atLeast : Operator.name .atLeast = ">=".toList := rfl

theorem Operator.name_atMost : Operator.name .atMost = "<=".toList := rfl

theorem Operator.name_like : Operator.name .like = "LIKE".toList := rfl

/-- What stands in front of the quoted value. -/
def Condition.code (condition : Condition) : Text :=
  condition.column ++ [' '] ++ condition.operator.name ++ [' ']

def Condition.text (condition : Condition) : Text :=
  condition.code ++ ['\''] ++ escape condition.value ++ ['\'']

/-- A condition, or several of which one is asked for. -/
inductive Clause where
  | one (condition : Condition)
  | oneOf (first : Condition) (more : List Condition)

def Clause.text : Clause → Text
  | .one condition => condition.text
  | .oneOf first more =>
      ['('] ++ Text.join " OR ".toList ((first :: more).map Condition.text) ++ [')']

def Clause.conditions : Clause → List Condition
  | .one condition => [condition]
  | .oneOf first more => first :: more

/-- Whether a row meets a clause. -/
def Clause.holds (likes : Char → Text → Text → Bool) (columns : Text → Option Literal)
    (clause : Clause) : Bool :=
  clause.conditions.any (Condition.holds likes columns)

/-- A name that is one word. -/
structure IsWord (name : Text) : Prop where
  filled : name ≠ []
  noSpace : ' ' ∉ name
  noQuote : '\'' ∉ name
  noParenthesis : ∀ char ∈ name, isParenthesis char = false

/-! ### The symbols of a written conjunction -/

theorem codeWordsFrom_space (word rest : Text) :
    codeWordsFrom word (' ' :: rest) = finishedWord word ++ codeWordsFrom [] rest :=
  if_pos rfl

theorem codeWordsFrom_word {name : Text} (isWord : IsWord name) (word rest : Text) :
    codeWordsFrom word (name ++ rest) = codeWordsFrom (word ++ name) rest := by
  have noSpace := isWord.noSpace
  have noParenthesis := isWord.noParenthesis
  clear isWord
  induction name generalizing word with
  | nil => rw [List.append_nil, List.nil_append]
  | cons head tail ih =>
      have apart : ' ' ≠ head ∧ ' ' ∉ tail := by simpa using noSpace
      have plain := noParenthesis head List.mem_cons_self
      have later := ih (word ++ [head]) apart.2
        (fun char member => noParenthesis char (List.mem_cons_of_mem _ member))
      rw [List.cons_append, codeWordsFrom, if_neg (Ne.symm apart.1), plain, later,
        List.append_assoc]
      rfl

/-- Behind a space or a parenthesis the words begin anew. -/
theorem codeWordsFrom_break {mark : Char} (breaks : mark = ' ' ∨ isParenthesis mark = true)
    (front rest : Text) : ∀ word, codeWordsFrom word (front ++ mark :: rest) =
      codeWordsFrom word (front ++ [mark]) ++ codeWordsFrom [] rest := by
  induction front with
  | nil =>
      intro word
      rw [List.nil_append, List.nil_append, codeWordsFrom, codeWordsFrom]
      by_cases space : mark = ' '
      · rw [if_pos space, if_pos space, List.append_assoc]
        rfl
      · have parenthesis := breaks.resolve_left space
        rw [if_neg space, if_neg space, if_pos parenthesis, if_pos parenthesis, List.append_assoc]
        rfl
  | cons head tail ih =>
      intro word
      rw [List.cons_append, List.cons_append, codeWordsFrom, codeWordsFrom]
      split
      · rw [ih, List.append_assoc]
      · split
        · rw [ih, List.append_assoc]
          rfl
        · rw [ih]

theorem codeWords_code {condition : Condition} (isWord : IsWord condition.column) :
    codeWords condition.code = [condition.column, condition.operator.name] := by
  have operator : codeWordsFrom [] (condition.operator.name ++ [' ']) =
      [condition.operator.name] := by
    cases condition.operator <;> rfl
  unfold codeWords Condition.code
  rw [List.append_assoc, List.append_assoc, codeWordsFrom_word isWord, List.nil_append,
    List.singleton_append, codeWordsFrom_space, finishedWord_filled isWord.filled, operator]
  rfl

/-- What can stand in front of a condition. -/
structure IsLead (lead : Text) : Prop where
  noQuote : '\'' ∉ lead
  splits : ∀ rest, codeWords (lead ++ rest) = codeWords lead ++ codeWords rest

theorem isLead_of_break {front : Text} {mark : Char}
    (breaks : mark = ' ' ∨ isParenthesis mark = true) (noQuote : '\'' ∉ front ++ [mark]) :
    IsLead (front ++ [mark]) := by
  constructor
  · exact noQuote
  · intro rest
    rw [List.append_assoc]
    exact codeWordsFrom_break breaks front rest []

theorem isLead_nil : IsLead [] :=
  ⟨List.not_mem_nil, fun _ => rfl⟩

theorem isLead_and : IsLead " AND ".toList :=
  @isLead_of_break " AND".toList ' ' (Or.inl rfl) (by decide)

theorem isLead_or : IsLead " OR ".toList :=
  @isLead_of_break " OR".toList ' ' (Or.inl rfl) (by decide)

theorem isLead_opening : IsLead ['('] :=
  @isLead_of_break [] '(' (Or.inr rfl) (by decide)

theorem isLead_append {front back : Text} (isFront : IsLead front) (isBack : IsLead back) :
    IsLead (front ++ back) := by
  constructor
  · rw [List.mem_append, not_or]
    exact ⟨isFront.noQuote, isBack.noQuote⟩
  · intro rest
    rw [List.append_assoc, isFront.splits, isBack.splits, isFront.splits back, List.append_assoc]

def Condition.symbols (condition : Condition) : List Symbol :=
  [.word condition.column, .word condition.operator.name, .quoted condition.value]

/-- Phrases behind a first one, each with the keyword in front. -/
def followed (keyword : Text) (phrases : List (List Symbol)) : List Symbol :=
  phrases.flatMap (fun phrase => .word keyword :: phrase)

def Clause.symbols : Clause → List Symbol
  | .one condition => condition.symbols
  | .oneOf first more =>
      .word "(".toList :: (first.symbols ++ followed "OR".toList (more.map Condition.symbols)) ++
        [.word ")".toList]

/-- The pieces of a clause behind what stands in front of it. -/
def Clause.pieces (lead : Text) : Clause → List (Text × Text)
  | .one condition => [(lead ++ condition.code, condition.value)]
  | .oneOf first more => (lead ++ ['('] ++ first.code, first.value) ::
      more.map (fun condition => (" OR ".toList ++ condition.code, condition.value))

/-- What closes a clause. -/
def Clause.closing : Clause → Text
  | .one _ => []
  | .oneOf _ _ => [')']

/-- The pieces of clauses that each follow an `AND`, the first behind what closes the one
before. -/
def laterPieces (closing : Text) : List Clause → List (Text × Text)
  | [] => []
  | clause :: rest =>
      clause.pieces (closing ++ " AND ".toList) ++ laterPieces clause.closing rest

def lastClosing (closing : Text) : List Clause → Text
  | [] => closing
  | clause :: rest => lastClosing clause.closing rest

theorem assemble_append (front back : List (Text × Text)) (last : Text) :
    assemble (front ++ back) last = assemble front (assemble back last) := by
  induction front with
  | nil => rfl
  | cons pair more ih =>
      obtain ⟨code, value⟩ := pair
      rw [List.cons_append, assemble, assemble, ih]

theorem text_oneOf (first : Condition) (more : List Condition) (rest : Text) :
    Text.join " OR ".toList ((first :: more).map Condition.text) ++ rest =
      assemble ((first.code, first.value) ::
        more.map (fun condition => (" OR ".toList ++ condition.code, condition.value))) rest := by
  induction more generalizing first with
  | nil => simp [Text.join, assemble, Condition.text]
  | cons second others ih =>
      have later := ih second
      rw [assemble] at later
      rw [List.map_cons, Text.join_cons (by simp), List.append_assoc, List.append_assoc, later,
        List.map_cons, assemble, assemble]
      simp [Condition.text, List.append_assoc]

theorem text_clause (lead rest : Text) (clause : Clause) :
    lead ++ clause.text ++ rest = assemble (clause.pieces lead) (clause.closing ++ rest) := by
  cases clause with
  | one condition =>
      simp [Clause.text, Clause.pieces, Clause.closing, assemble, Condition.text]
  | oneOf first more =>
      have inside := text_oneOf first more (')' :: rest)
      rw [assemble] at inside
      unfold Clause.text Clause.pieces Clause.closing
      rw [assemble]
      simp only [List.append_assoc, List.cons_append, List.nil_append] at inside ⊢
      rw [inside]

theorem text_later (closing : Text) (clauses : List Clause) :
    closing ++ clauses.flatMap (fun clause => " AND ".toList ++ clause.text) =
      assemble (laterPieces closing clauses) (lastClosing closing clauses) := by
  induction clauses generalizing closing with
  | nil => exact List.append_nil closing
  | cons clause rest ih =>
      have here := text_clause (closing ++ " AND ".toList)
        (rest.flatMap (fun clause => " AND ".toList ++ clause.text)) clause
      rw [List.flatMap_cons, laterPieces, lastClosing, assemble_append, ← ih, ← here]
      simp only [List.append_assoc]

theorem join_and (clause : Clause) (more : List Clause) :
    Text.join " AND ".toList ((clause :: more).map Clause.text) =
      clause.text ++ more.flatMap (fun clause => " AND ".toList ++ clause.text) := by
  induction more generalizing clause with
  | nil => simp [Text.join]
  | cons second others ih =>
      have later := ih second
      rw [List.map_cons, Text.join_cons (by simp), later, List.flatMap_cons, List.append_assoc,
        List.append_assoc]

def wordSymbols (code : Text) : List Symbol :=
  (codeWords code).map .word

def pieceSymbols (piece : Text × Text) : List Symbol :=
  wordSymbols piece.1 ++ [.quoted piece.2]

theorem symbols_assembledParts (pieces : List (Text × Text)) (last : Text) :
    (assembledParts pieces last).flatMap Part.symbols =
      pieces.flatMap pieceSymbols ++ wordSymbols last := by
  induction pieces with
  | nil => exact List.append_nil _
  | cons piece more ih =>
      obtain ⟨code, value⟩ := piece
      rw [assembledParts, List.flatMap_cons, List.flatMap_cons, ih, List.flatMap_cons,
        List.append_assoc]
      exact (List.append_assoc _ _ _).symm

theorem wordSymbols_append {lead : Text} (isLead : IsLead lead) (rest : Text) :
    wordSymbols (lead ++ rest) = wordSymbols lead ++ wordSymbols rest := by
  unfold wordSymbols
  rw [isLead.splits, List.map_append]

theorem pieceSymbols_code {lead : Text} (isLead : IsLead lead) {condition : Condition}
    (isWord : IsWord condition.column) :
    pieceSymbols (lead ++ condition.code, condition.value) =
      wordSymbols lead ++ condition.symbols := by
  unfold pieceSymbols
  rw [wordSymbols_append isLead, List.append_assoc]
  unfold wordSymbols
  rw [codeWords_code isWord]
  rfl

theorem pieceSymbols_or {conditions : List Condition}
    (areWords : ∀ condition ∈ conditions, IsWord condition.column) :
    (conditions.map (fun condition => (" OR ".toList ++ condition.code, condition.value))).flatMap
      pieceSymbols = followed "OR".toList (conditions.map Condition.symbols) := by
  induction conditions with
  | nil => rfl
  | cons condition more ih =>
      have here := pieceSymbols_code isLead_or (areWords condition List.mem_cons_self)
      have later := ih (fun other member => areWords other (List.mem_cons_of_mem _ member))
      rw [List.map_cons, List.flatMap_cons, here, later]
      rfl

/-- The symbols of a clause behind a lead. -/
theorem symbols_clause {lead : Text} (isLead : IsLead lead) {clause : Clause}
    (areWords : ∀ condition ∈ clause.conditions, IsWord condition.column) :
    (clause.pieces lead).flatMap pieceSymbols ++ wordSymbols clause.closing =
      wordSymbols lead ++ clause.symbols := by
  cases clause with
  | one condition =>
      have here := pieceSymbols_code isLead (areWords condition List.mem_cons_self)
      unfold Clause.pieces Clause.closing
      rw [List.flatMap_cons, here]
      exact (List.append_nil _).trans (List.append_nil _)
  | oneOf first more =>
      have here := pieceSymbols_code (isLead_append isLead isLead_opening)
        (areWords first List.mem_cons_self)
      have later := pieceSymbols_or
        (fun other member => areWords other (List.mem_cons_of_mem _ member))
      unfold Clause.pieces Clause.closing
      rw [List.flatMap_cons, here, later, wordSymbols_append isLead]
      simp only [Clause.symbols, List.append_assoc, List.cons_append]
      rfl

theorem isLead_closing (clause : Clause) : IsLead clause.closing := by
  cases clause with
  | one condition => exact isLead_nil
  | oneOf first more => exact @isLead_of_break [] ')' (Or.inr rfl) (by decide)

theorem symbols_later {closing : Text} (isLead : IsLead closing) {clauses : List Clause}
    (areWords : ∀ clause ∈ clauses, ∀ condition ∈ clause.conditions, IsWord condition.column) :
    (laterPieces closing clauses).flatMap pieceSymbols ++
      wordSymbols (lastClosing closing clauses) =
        wordSymbols closing ++ followed "AND".toList (clauses.map Clause.symbols) := by
  induction clauses generalizing closing with
  | nil => exact (List.append_nil _).symm
  | cons clause rest ih =>
      have lead := isLead_append isLead isLead_and
      have here := symbols_clause lead (areWords clause List.mem_cons_self)
      have later := ih (isLead_closing clause)
        (fun other member => areWords other (List.mem_cons_of_mem _ member))
      rw [laterPieces, lastClosing, List.flatMap_append, List.append_assoc, later,
        ← List.append_assoc, here, wordSymbols_append isLead]
      simp only [List.append_assoc]
      rfl

/-- Code that is there and has no quote. -/
def IsCode (code : Text) : Prop :=
  code ≠ [] ∧ '\'' ∉ code

theorem isCode_condition {lead : Text} (isLead : IsLead lead) {condition : Condition}
    (isWord : IsWord condition.column) : IsCode (lead ++ condition.code) := by
  have operator : '\'' ∉ condition.operator.name := by
    cases condition.operator <;> decide
  unfold IsCode Condition.code
  constructor
  · simp
  · simp only [List.mem_append, List.mem_singleton, not_or]
    exact ⟨isLead.noQuote, ⟨⟨isWord.noQuote, by decide⟩, operator⟩, by decide⟩

theorem isCode_clause {lead : Text} (isLead : IsLead lead) {clause : Clause}
    (areWords : ∀ condition ∈ clause.conditions, IsWord condition.column) :
    ∀ piece ∈ clause.pieces lead, IsCode piece.1 := by
  intro piece member
  cases clause with
  | one condition =>
      rw [List.mem_singleton.mp member]
      exact isCode_condition isLead (areWords condition List.mem_cons_self)
  | oneOf first more =>
      rcases List.mem_cons.mp member with isFirst | isLater
      · rw [isFirst]
        exact isCode_condition (isLead_append isLead isLead_opening)
          (areWords first List.mem_cons_self)
      · obtain ⟨condition, inside, same⟩ := List.mem_map.mp isLater
        rw [← same]
        exact isCode_condition isLead_or (areWords condition (List.mem_cons_of_mem _ inside))

theorem isCode_later {closing : Text} (isLead : IsLead closing) {clauses : List Clause}
    (areWords : ∀ clause ∈ clauses, ∀ condition ∈ clause.conditions, IsWord condition.column) :
    ∀ piece ∈ laterPieces closing clauses, IsCode piece.1 := by
  induction clauses generalizing closing with
  | nil => exact fun piece impossible => absurd impossible List.not_mem_nil
  | cons clause rest ih =>
      intro piece member
      rcases List.mem_append.mp member with here | later
      · exact isCode_clause (isLead_append isLead isLead_and) (areWords clause List.mem_cons_self)
          piece here
      · exact ih (isLead_closing clause)
          (fun other inside => areWords other (List.mem_cons_of_mem _ inside)) piece later

theorem isLead_lastClosing {closing : Text} (isLead : IsLead closing) (clauses : List Clause) :
    IsLead (lastClosing closing clauses) := by
  induction clauses generalizing closing with
  | nil => exact isLead
  | cons clause rest ih => exact ih (isLead_closing clause)

theorem partsOf_pieces {pieces : List (Text × Text)} (filled : pieces ≠ [])
    (areCode : ∀ piece ∈ pieces, IsCode piece.1) {last : Text} (lastFree : '\'' ∉ last) :
    partsOf (assemble pieces last) = some (assembledParts pieces last) := by
  cases pieces with
  | nil => exact absurd rfl filled
  | cons piece more =>
      obtain ⟨code, value⟩ := piece
      exact partsOf_assemble (areCode (code, value) List.mem_cons_self).2
        (fun other member => (areCode other (List.mem_cons_of_mem _ member)).1)
        (fun other member => (areCode other (List.mem_cons_of_mem _ member)).2) lastFree

/-- The symbols of a written conjunction, whatever the quoted texts contain. -/
theorem symbols_clauses {clause : Clause} {more : List Clause}
    (areWords : ∀ other ∈ clause :: more, ∀ condition ∈ other.conditions,
      IsWord condition.column) :
    (partsOf (Text.join " AND ".toList ((clause :: more).map Clause.text))).map
      (List.flatMap Part.symbols) =
        some (clause.symbols ++ followed "AND".toList (more.map Clause.symbols)) := by
  have firstWords := areWords clause List.mem_cons_self
  have laterWords : ∀ other ∈ more, ∀ condition ∈ other.conditions, IsWord condition.column :=
    fun other member => areWords other (List.mem_cons_of_mem _ member)
  have closes := isLead_closing clause
  have whole : Text.join " AND ".toList ((clause :: more).map Clause.text) =
      assemble (clause.pieces [] ++ laterPieces clause.closing more)
        (lastClosing clause.closing more) := by
    rw [join_and, assemble_append, ← text_later]
    exact text_clause [] _ clause
  have filled : clause.pieces [] ++ laterPieces clause.closing more ≠ [] := by
    cases clause <;> exact List.cons_ne_nil _ _
  have areCode : ∀ piece ∈ clause.pieces [] ++ laterPieces clause.closing more, IsCode piece.1 := by
    intro piece member
    rcases List.mem_append.mp member with here | later
    · exact isCode_clause isLead_nil firstWords piece here
    · exact isCode_later closes laterWords piece later
  rw [whole, partsOf_pieces filled areCode (isLead_lastClosing closes more).noQuote,
    Option.map_some, symbols_assembledParts, List.flatMap_append, List.append_assoc,
    symbols_later closes laterWords, ← List.append_assoc, symbols_clause isLead_nil firstWords]
  rfl

/-! ### Reading a written conjunction -/

def joinAll (combine : Formula → Formula → Formula) : Formula → List Formula → Formula
  | first, [] => first
  | first, second :: more => combine first (joinAll combine second more)

/-- The symbols go on with this keyword. -/
def goesOn (keyword : Text) : List Symbol → Prop
  | .word word :: _ => word = keyword
  | _ => False

def Clause.formula : Clause → Formula
  | .one condition => .atom condition
  | .oneOf first more => joinAll .either (.atom first) (more.map .atom)

/-- A reader takes the symbols of an item and leaves what stands behind them, unless that goes
on. -/
def Reads {item : Type} (one : FormulaReader) (stop : List Symbol → Prop)
    (symbols : item → List Symbol) (formula : item → Formula) (member : item) : Prop :=
  ∀ rest, stop rest → one (symbols member ++ rest) = some (formula member, rest)

theorem readJoined_stop {keyword : Text} {combine : Formula → Formula → Formula}
    {one : FormulaReader} {symbols rest : List Symbol} {formula : Formula}
    (read : one symbols = some (formula, rest)) (stops : ¬ goesOn keyword rest) (fuel : Nat) :
    readJoined keyword combine one fuel symbols = some (formula, rest) := by
  cases fuel with
  | zero => exact read
  | succ fuel =>
      rw [readJoined, read]
      cases rest with
      | nil => rfl
      | cons symbol later =>
          cases symbol with
          | quoted value => rfl
          | word word => exact if_neg stops

/-- Items with the keyword between them are read one after the other. -/
theorem readJoined_followed {item : Type} {keyword : Text}
    {combine : Formula → Formula → Formula} {one : FormulaReader} {stop : List Symbol → Prop}
    {symbols : item → List Symbol} {formula : item → Formula}
    (between : ∀ later, stop (.word keyword :: later)) (first : item) (more : List item)
    (reads : ∀ member ∈ first :: more, Reads one stop symbols formula member)
    {rest : List Symbol} (stops : ¬ goesOn keyword rest) (ends : stop rest) :
    ∀ fuel, more.length ≤ fuel →
      readJoined keyword combine one fuel
        (symbols first ++ (followed keyword (more.map symbols) ++ rest)) =
          some (joinAll combine (formula first) (more.map formula), rest) := by
  induction more generalizing first with
  | nil =>
      intro fuel _enough
      exact readJoined_stop (reads first List.mem_cons_self rest ends) stops fuel
  | cons second others ih =>
      intro fuel enough
      cases fuel with
      | zero => cases enough
      | succ fuel =>
          have here := reads first List.mem_cons_self
            (.word keyword :: (symbols second ++ (followed keyword (others.map symbols) ++ rest)))
            (between _)
          have later := ih second (fun other member => reads other (List.mem_cons_of_mem _ member))
            fuel (Nat.le_of_succ_le_succ enough)
          have shape : followed keyword ((second :: others).map symbols) ++ rest =
              .word keyword :: (symbols second ++ (followed keyword (others.map symbols) ++ rest)) := by
            rw [List.map_cons]
            exact List.append_assoc (.word keyword :: symbols second) _ rest
          rw [shape, readJoined, here]
          dsimp only
          rw [if_pos rfl, later]
          rfl

theorem length_le_followed {item : Type} (keyword : Text) (symbols : item → List Symbol)
    (items : List item) : items.length ≤ (followed keyword (items.map symbols)).length := by
  induction items with
  | nil => exact Nat.le_refl _
  | cons member others ih =>
      rw [List.map_cons]
      change _ ≤ ((_ :: _) ++ followed keyword _).length
      rw [List.length_append, List.length_cons, List.length_cons]
      omega

theorem readUnit_condition {condition : Condition} (isWord : IsWord condition.column)
    (inner : FormulaReader) (rest : List Symbol) :
    readUnit inner (condition.symbols ++ rest) = some (.atom condition, rest) := by
  obtain ⟨column, operator, value⟩ := condition
  have noParenthesis : column ≠ "(".toList := by
    intro same
    have plain := isWord.noParenthesis '(' (by rw [same]; exact List.mem_cons_self)
    cases plain
  have read : readOperator operator.name = some operator := by
    cases operator <;> rfl
  change (if column = "(".toList then _ else _) = _
  rw [if_neg noParenthesis]
  change (readOperator operator.name).map _ = _
  rw [read]
  rfl

/-- A disjunction is read up to its closing parenthesis. -/
theorem readFormula_or (depth : Nat) {first : Condition} {more : List Condition}
    (areWords : ∀ condition ∈ first :: more, IsWord condition.column) (rest : List Symbol) :
    readFormula (depth + 1) (first.symbols ++ (followed "OR".toList (more.map Condition.symbols) ++
      .word ")".toList :: rest)) =
        some (joinAll .either (.atom first) (more.map .atom), .word ")".toList :: rest) := by
  have reads : ∀ fuel, ∀ condition ∈ first :: more,
      Reads (readJoined "AND".toList .both (readUnit (readFormula depth)) fuel)
        (fun later => ¬ goesOn "AND".toList later) Condition.symbols .atom condition := by
    intro fuel condition member later stops
    exact readJoined_stop (readUnit_condition (areWords condition member) _ later) stops fuel
  have apart : "OR".toList ≠ "AND".toList ∧ ")".toList ≠ "OR".toList ∧
      ")".toList ≠ "AND".toList := by decide
  have between : ∀ later, ¬ goesOn "AND".toList (.word "OR".toList :: later) :=
    fun _later => apart.1
  have noOr : ¬ goesOn "OR".toList (.word ")".toList :: rest) := apart.2.1
  have noAnd : ¬ goesOn "AND".toList (.word ")".toList :: rest) := apart.2.2
  have counted := length_le_followed "OR".toList Condition.symbols more
  apply readJoined_followed between first more (reads _) noOr noAnd
  rw [List.length_append, List.length_append]
  omega

/-- A clause is one unit. -/
theorem readUnit_clause (depth : Nat) {clause : Clause}
    (areWords : ∀ condition ∈ clause.conditions, IsWord condition.column) (rest : List Symbol) :
    readUnit (readFormula (depth + 1)) (clause.symbols ++ rest) = some (clause.formula, rest) := by
  cases clause with
  | one condition => exact readUnit_condition (areWords condition List.mem_cons_self) _ rest
  | oneOf first more =>
      have inside := readFormula_or depth areWords rest
      have shape : (Clause.oneOf first more).symbols ++ rest = .word "(".toList ::
          (first.symbols ++ (followed "OR".toList (more.map Condition.symbols) ++
            .word ")".toList :: rest)) := by
        simp only [Clause.symbols, List.append_assoc, List.cons_append, List.nil_append]
      rw [shape, readUnit, if_pos rfl, inside]
      exact if_pos rfl

def conjunction (clause : Clause) (more : List Clause) : Formula :=
  joinAll .both clause.formula (more.map Clause.formula)

theorem readFormula_and (depth : Nat) {clause : Clause} {more : List Clause}
    (areWords : ∀ other ∈ clause :: more, ∀ condition ∈ other.conditions,
      IsWord condition.column) :
    readFormula (depth + 2) (clause.symbols ++ followed "AND".toList (more.map Clause.symbols)) =
      some (conjunction clause more, []) := by
  have reads : ∀ other ∈ clause :: more, Reads (readUnit (readFormula (depth + 1)))
      (fun _later => True) Clause.symbols Clause.formula other := by
    intro other member later _any
    exact readUnit_clause depth (areWords other member) later
  have counted := length_le_followed "AND".toList Clause.symbols more
  have ends : ∀ keyword, ¬ goesOn keyword [] := fun _keyword impossible => impossible
  have whole : readJoined "AND".toList .both (readUnit (readFormula (depth + 1)))
      (clause.symbols ++ followed "AND".toList (more.map Clause.symbols)).length
      (clause.symbols ++ (followed "AND".toList (more.map Clause.symbols) ++ [])) =
        some (conjunction clause more, []) := by
    apply readJoined_followed (fun _later => trivial) clause more reads (ends _) trivial
    rw [List.length_append]
    omega
  rw [List.append_nil] at whole
  exact readJoined_stop whole (ends _) _

/-- A written conjunction is read as its clauses, whatever the quoted texts contain. -/
theorem formulaOf_join {clause : Clause} {more : List Clause}
    (areWords : ∀ other ∈ clause :: more, ∀ condition ∈ other.conditions,
      IsWord condition.column) :
    formulaOf (Text.join " AND ".toList ((clause :: more).map Clause.text)) =
      some (conjunction clause more) := by
  obtain ⟨parts, isParts, symbols⟩ := Option.map_eq_some_iff.mp (symbols_clauses areWords)
  have filled : (clause.symbols ++ followed "AND".toList (more.map Clause.symbols)).length ≠ 0 := by
    cases clause <;> exact Nat.succ_ne_zero _
  obtain ⟨depth, isDepth⟩ := Nat.exists_eq_succ_of_ne_zero filled
  have read := readFormula_and depth areWords
  unfold formulaOf
  rw [isParts, Option.bind_some, symbols]
  dsimp only
  rw [isDepth, Nat.succ_eq_add_one, read]

/-! ### What a conjunction asks for -/

section

variable (likes : Char → Text → Text → Bool) (columns : Text → Option Literal)

theorem holds_joinAll_either (first : Formula) (more : List Formula) :
    (joinAll .either first more).holds likes columns =
      (first :: more).any (Formula.holds likes columns) := by
  induction more generalizing first with
  | nil => exact (Bool.or_false _).symm
  | cons second others ih => exact congrArg (first.holds likes columns || ·) (ih second)

theorem holds_joinAll_both (first : Formula) (more : List Formula) :
    (joinAll .both first more).holds likes columns =
      (first :: more).all (Formula.holds likes columns) := by
  induction more generalizing first with
  | nil => exact (Bool.and_true _).symm
  | cons second others ih => exact congrArg (first.holds likes columns && ·) (ih second)

theorem holds_clause (clause : Clause) :
    clause.formula.holds likes columns = clause.holds likes columns := by
  cases clause with
  | one condition => exact (Bool.or_false _).symm
  | oneOf first more =>
      unfold Clause.formula
      rw [holds_joinAll_either, List.any_cons, List.any_map]
      rfl

theorem holds_conjunction (clause : Clause) (more : List Clause) :
    (conjunction clause more).holds likes columns = true ↔
      ∀ other ∈ clause :: more, other.holds likes columns = true := by
  unfold conjunction
  rw [holds_joinAll_both, ← List.map_cons (f := Clause.formula), List.all_map, List.all_eq_true]
  simp only [Function.comp, holds_clause]

end

end VaultSearch.Sql
