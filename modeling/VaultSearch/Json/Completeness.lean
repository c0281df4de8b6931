/-
The other direction: what the grammar spells the decoder reads, unless it meets one of its limits.

A number ends where the next character cannot belong to it; everything else ends by itself.
-/

import VaultSearch.Json.Grammar

set_option autoImplicit false

namespace VaultSearch.JsonText

variable {value other : Type}

/-! ### What is spelled is read, unless a limit is met -/

def Outcome.Reads (outcome : Outcome value) (item : value) (rest : Text) : Prop :=
  outcome = .found item rest ∨ ∃ error, outcome = .fault error

theorem Outcome.Reads.bind {outcome : Outcome value} {item : value} {between rest : Text}
    (reads : outcome.Reads item between) {next : value → Reader other} {result : other}
    (andThen : (next item between).Reads result rest) : (outcome.bind next).Reads result rest := by
  cases reads with
  | inl found =>
      rw [found]
      exact andThen
  | inr fault =>
      obtain ⟨error, raised⟩ := fault
      rw [raised]
      exact Or.inr ⟨error, rfl⟩

theorem Outcome.Reads.map {outcome : Outcome value} {item : value} {rest : Text}
    (reads : outcome.Reads item rest) (change : value → other) :
    (outcome.map change).Reads (change item) rest :=
  reads.bind (Or.inl rfl)

/-- The first character of a value. -/
def Starts (text : Text) : Prop :=
  ∃ head tail, text = head :: tail ∧ isBlank head = false ∧ head ≠ '}' ∧ head ≠ ']'

theorem skipSpace_blank {space rest : Text} {char : Char} (blank : Blank space)
    (visible : isBlank char = false) : skipSpace (space ++ char :: rest) = char :: rest := by
  unfold skipSpace
  rw [List.dropWhile_append_of_pos blank, List.dropWhile_cons, if_neg]
  rw [visible]
  exact Bool.false_ne_true

theorem skipSpace_starts {space text rest : Text} (blank : Blank space) (starts : Starts text) :
    skipSpace (space ++ (text ++ rest)) = text ++ rest := by
  obtain ⟨head, tail, shape, visible, _notBrace, _notBracket⟩ := starts
  rw [shape]
  exact skipSpace_blank blank visible

theorem nextChar_blank {space rest : Text} {char : Char} (blank : Blank space)
    (visible : isBlank char = false) : nextChar (space ++ char :: rest) = .found char rest := by
  unfold nextChar
  rw [skipSpace_blank blank visible]

theorem scanString_complete {content : Text} (isContent : IsContent content) (rest : Text) :
    scanString (content ++ '"' :: rest) = .found content rest := by
  induction isContent with
  | nil => rfl
  | @plain char tail notQuote notBackslash printable isTail ih =>
      rw [List.cons_append, scanString.eq_6 char _ notQuote
        (fun _first _second _third _fourth _rest same _shape => notBackslash same)
        (fun _char _rest same _shape => notBackslash same)
        (fun same _shape => notBackslash same), if_neg (Nat.not_lt.mpr printable), ih]
      rfl
  | @escape char tail isEscape isTail ih =>
      have notUnicode : char ≠ 'u' := by
        intro same
        rw [same] at isEscape
        revert isEscape
        decide
      rw [List.cons_append, List.cons_append, scanString.eq_4 char _
        (fun _first _second _third _fourth _rest same _shape => notUnicode same),
        if_pos isEscape, ih]
      rfl
  | @unicode first second third fourth tail isFirst isSecond isThird isFourth isTail ih =>
      simp only [List.cons_append]
      have hexadecimal : (isHex first && isHex second && isHex third && isHex fourth) = true := by
        simp only [isFirst, isSecond, isThird, isFourth, Bool.and_self]
      rw [scanString, if_pos hexadecimal, ih]
      rfl

/-! ### Numbers -/

def isNumberChar (char : Char) : Bool :=
  char.isDigit || "+-.eE".toList.contains char

/-- No number goes on here. -/
def Stops (rest : Text) : Prop :=
  ∀ char ∈ rest.head?, isNumberChar char = false

theorem takeDigits_append {digits rest : Text} (isDigits : ∀ char ∈ digits, char.isDigit = true)
    (stops : ∀ char ∈ rest.head?, char.isDigit = false) :
    takeDigits (digits ++ rest) = (digits, rest) := by
  have none : rest.takeWhile Char.isDigit = [] ∧ rest.dropWhile Char.isDigit = rest := by
    cases rest with
    | nil => exact ⟨rfl, rfl⟩
    | cons head tail =>
        have here := stops head rfl
        rw [List.takeWhile_cons, List.dropWhile_cons, here]
        exact ⟨rfl, rfl⟩
  unfold takeDigits
  rw [List.takeWhile_append_of_pos isDigits, List.dropWhile_append_of_pos isDigits, none.1, none.2,
    List.append_nil]

theorem notDigit_of_stops {rest : Text} (stops : Stops rest) :
    ∀ char ∈ rest.head?, char.isDigit = false := by
  intro char member
  exact (Bool.or_eq_false_iff.mp (stops char member)).1

theorem exponentSign_digits {sign digits : Text}
    (isSign : sign = [] ∨ sign = ['+'] ∨ sign = ['-']) (isDigits : Digits digits) (rest : Text) :
    exponentSign (sign ++ (digits ++ rest)) = (sign, digits ++ rest) := by
  cases digits with
  | nil => exact absurd rfl isDigits.1
  | cons head tail =>
      have digit := isDigits.2 head List.mem_cons_self
      cases isSign with
      | inl none =>
          rw [none]
          unfold exponentSign
          split
          case h_1 more shape =>
            rw [List.nil_append, List.cons_append, List.cons.injEq] at shape
            rw [shape.1] at digit
            exact absurd digit (by decide)
          case h_2 more shape =>
            rw [List.nil_append, List.cons_append, List.cons.injEq] at shape
            rw [shape.1] at digit
            exact absurd digit (by decide)
          case h_3 => rfl
      | inr some =>
          cases some with
          | inl plus =>
              rw [plus]
              rfl
          | inr minus =>
              rw [minus]
              rfl

theorem exponentPart_complete {exponent rest : Text} (isExponent : IsExponent exponent)
    (stops : Stops rest) : exponentPart (exponent ++ rest) = (exponent, rest) := by
  cases isExponent with
  | inl none =>
      rw [none, List.nil_append]
      cases rest with
      | nil => rfl
      | cons head tail =>
          have here := stops head rfl
          rw [exponentPart, if_neg]
          intro exponent
          rw [Bool.and_eq_true, Bool.or_eq_true, beq_iff_eq, beq_iff_eq] at exponent
          cases exponent.1 with
          | inl same =>
              rw [same] at here
              exact absurd here (by decide)
          | inr same =>
              rw [same] at here
              exact absurd here (by decide)
  | inr some =>
      obtain ⟨letter, sign, digits, isLetter, isSign, isDigits, same⟩ := some
      have signed := exponentSign_digits isSign isDigits rest
      have taken := takeDigits_append isDigits.2 (notDigit_of_stops stops)
      have exponent : ((letter == 'e' || letter == 'E') && !digits.isEmpty) = true := by
        rw [Bool.and_eq_true, Bool.or_eq_true, beq_iff_eq, beq_iff_eq, Bool.not_eq_true',
          List.isEmpty_eq_false_iff]
        exact ⟨isLetter, isDigits.1⟩
      rw [same, List.append_assoc, List.cons_append, exponentPart, signed, taken, if_pos exponent]

/-- The first character behind the whole part: a point, an exponent, or what stops the number. -/
theorem fractionPart_complete {fraction rest : Text} (isFraction : IsFraction fraction)
    (notPoint : rest.head? ≠ some '.') (notDigit : ∀ char ∈ rest.head?, char.isDigit = false) :
    fractionPart (fraction ++ rest) = (fraction, rest) := by
  cases isFraction with
  | inl none =>
      rw [none, List.nil_append]
      unfold fractionPart
      split
      case h_1 more => exact absurd rfl notPoint
      case h_2 => rfl
  | inr some =>
      obtain ⟨digits, isDigits, same⟩ := some
      rw [same, List.cons_append, fractionPart, takeDigits_append isDigits.2 notDigit, if_neg]
      rw [List.isEmpty_iff]
      exact isDigits.1

theorem wholePart_complete {whole rest : Text} (isWhole : IsWhole whole)
    (notDigit : ∀ char ∈ rest.head?, char.isDigit = false) :
    wholePart (whole ++ rest) = some (whole, rest) := by
  cases isWhole with
  | inl zero =>
      rw [zero]
      rfl
  | inr digits =>
      obtain ⟨isDigits, notZero⟩ := digits
      have taken := takeDigits_append isDigits.2 notDigit
      unfold wholePart
      split
      case h_1 more shape =>
        cases whole with
        | nil => exact absurd rfl isDigits.1
        | cons head tail =>
            rw [List.cons_append, List.cons.injEq] at shape
            rw [shape.1] at notZero
            exact absurd rfl notZero
      case h_2 =>
        rw [taken, if_neg]
        rw [List.isEmpty_iff]
        exact isDigits.1

theorem IsWhole.head {whole : Text} (isWhole : IsWhole whole) :
    ∃ head tail, whole = head :: tail ∧ head.isDigit = true := by
  cases isWhole with
  | inl zero => exact ⟨'0', [], zero, by decide⟩
  | inr digits =>
      cases whole with
      | nil => exact absurd rfl digits.1.1
      | cons head tail => exact ⟨head, tail, rfl, digits.1.2 head List.mem_cons_self⟩

theorem signPart_complete {sign whole rest : Text} (isSign : sign = [] ∨ sign = ['-'])
    (isWhole : IsWhole whole) : signPart (sign ++ (whole ++ rest)) = (sign, whole ++ rest) := by
  obtain ⟨head, tail, shape, digit⟩ := isWhole.head
  cases isSign with
  | inl none =>
      rw [none, shape]
      unfold signPart
      split
      case h_1 more same =>
        rw [List.nil_append, List.cons_append, List.cons.injEq] at same
        rw [same.1] at digit
        exact absurd digit (by decide)
      case h_2 => rfl
  | inr minus =>
      rw [minus]
      rfl

/-- Behind a whole part or a fraction comes no digit, behind a whole part without fraction no
point. -/
theorem exponent_head {exponent rest : Text} (isExponent : IsExponent exponent)
    (stops : Stops rest) :
    (exponent ++ rest).head? ≠ some '.' ∧
      ∀ char ∈ (exponent ++ rest).head?, char.isDigit = false := by
  cases isExponent with
  | inl none =>
      rw [none, List.nil_append]
      refine ⟨?_, notDigit_of_stops stops⟩
      intro point
      exact absurd (stops '.' point) (by decide)
  | inr some =>
      obtain ⟨letter, sign, digits, isLetter, isSign, isDigits, same⟩ := some
      have noDigit : letter ≠ '.' ∧ letter.isDigit = false := by
        cases isLetter with
        | inl small =>
            rw [small]
            decide
        | inr large =>
            rw [large]
            decide
      rw [same, List.cons_append, List.cons_append, List.head?_cons]
      constructor
      · exact fun point => noDigit.1 (Option.some.inj point)
      · intro char isHead
        rw [← Option.some.inj isHead]
        exact noDigit.2

theorem fraction_head {fraction rest : Text} (isFraction : IsFraction fraction)
    (notDigit : ∀ char ∈ rest.head?, char.isDigit = false) :
    ∀ char ∈ (fraction ++ rest).head?, char.isDigit = false := by
  cases isFraction with
  | inl none =>
      rw [none, List.nil_append]
      exact notDigit
  | inr some =>
      obtain ⟨digits, isDigits, same⟩ := some
      rw [same, List.cons_append, List.head?_cons]
      intro char isHead
      rw [← Option.some.inj isHead]
      rfl

theorem matchNumber_complete {lexeme rest : Text} (isNumber : IsNumber lexeme)
    (stops : Stops rest) :
    ∃ number, matchNumber (lexeme ++ rest) = some number ∧ number.lexeme = lexeme ∧
      number.rest = rest := by
  obtain ⟨sign, whole, fraction, exponent, isSign, isWhole, isFraction, isExponent, same⟩ :=
    isNumber.parts
  obtain ⟨notPoint, notDigit⟩ := exponent_head isExponent stops
  have behindWhole := fraction_head isFraction notDigit
  refine ⟨⟨sign, whole, fraction, exponent, rest⟩, ?_, same.symm, rfl⟩
  unfold matchNumber
  rw [same, List.append_assoc, List.append_assoc, List.append_assoc,
    signPart_complete isSign isWhole, wholePart_complete isWhole behindWhole, Option.map_some,
    fractionPart_complete isFraction notPoint notDigit, exponentPart_complete isExponent stops]

/-! ### Scalars and containers -/

theorem scanNumber_complete (limits : Limits) {lexeme rest : Text} (isNumber : IsNumber lexeme)
    (stops : Stops rest) :
    (scanNumber limits (lexeme ++ rest)).Reads (.number lexeme) rest := by
  obtain ⟨number, matched, sameLexeme, sameRest⟩ := matchNumber_complete isNumber stops
  unfold scanNumber
  rw [matched]
  dsimp only
  rw [sameLexeme, sameRest]
  split
  case isTrue => exact Or.inr ⟨_, rfl⟩
  case isFalse => exact Or.inl rfl

/-- A number begins with a digit, perhaps behind a minus. -/
theorem IsNumber.head {lexeme : Text} (isNumber : IsNumber lexeme) :
    ∃ digit tail, digit.isDigit = true ∧
      (lexeme = digit :: tail ∨ lexeme = '-' :: digit :: tail) := by
  obtain ⟨sign, whole, fraction, exponent, isSign, isWhole, _isFraction, _isExponent, same⟩ :=
    isNumber.parts
  obtain ⟨digit, tail, shape, isDigit⟩ := isWhole.head
  refine ⟨digit, tail ++ fraction ++ exponent, isDigit, ?_⟩
  cases isSign with
  | inl none =>
      left
      rw [same, none, shape]
      rfl
  | inr minus =>
      right
      rw [same, minus, shape]
      rfl

theorem scanScalar_other (limits : Limits) {text : Text} (notQuote : text.head? ≠ some '"') :
    scanScalar limits text = scanBare limits text := by
  unfold scanScalar
  split
  case h_1 => exact absurd rfl notQuote
  case h_2 => rfl

theorem digit_ne {digit other : Char} (isDigit : digit.isDigit = true)
    (notDigit : other.isDigit = false) : other ≠ digit := by
  intro same
  rw [same, isDigit] at notDigit
  cases notDigit

/-- No constant stands where a number begins: its first two characters are no digits. -/
theorem constant_not_start {digit : Char} (isDigit : digit.isDigit = true) {tail name : Text}
    (member : name ∈ constants) : ¬ name <+: digit :: tail ∧ ¬ name <+: '-' :: digit :: tail := by
  have letters : ∀ name ∈ constants,
      2 ≤ name.length ∧ (name.take 2).all (fun char => !char.isDigit) = true := by
    decide
  obtain ⟨long, notDigits⟩ := letters name member
  cases name with
  | nil => exact absurd long (by decide)
  | cons first rest =>
      cases rest with
      | nil => exact absurd long (by simp)
      | cons second more =>
          simp only [List.take_succ_cons, List.take_zero, List.all_cons, List.all_nil,
            Bool.and_true, Bool.and_eq_true, Bool.not_eq_true'] at notDigits
          rw [List.cons_prefix_cons, List.cons_prefix_cons, List.cons_prefix_cons]
          constructor
          · intro ahead
            exact digit_ne isDigit notDigits.1 ahead.1
          · intro ahead
            exact digit_ne isDigit notDigits.2 ahead.2.1

theorem scanScalar_complete (limits : Limits) {tree : Tree} {used rest : Text}
    (spelled : IsScalar tree used) (stops : Stops rest) :
    (scanScalar limits (used ++ rest)).Reads tree rest := by
  cases spelled with
  | text isContent =>
      have shape : ∀ content : Text, '"' :: content ++ ['"'] ++ rest =
          '"' :: (content ++ '"' :: rest) := by
        intro content
        simp
      rw [shape]
      apply Or.inl
      rw [scanScalar, scanString_complete isContent]
      rfl
  | constant member =>
      apply Or.inl
      simp only [constants, List.map_cons, List.map_nil, List.mem_cons, List.not_mem_nil,
        or_false] at member
      rcases member with rfl | rfl | rfl | rfl | rfl | rfl
      · rfl
      · rfl
      · rfl
      · rfl
      · rfl
      · rfl
  | number isNumber =>
      obtain ⟨digit, tail, isDigit, shape⟩ := isNumber.head
      have notConstant : constants.find? (fun name => name.isPrefixOf (used ++ rest)) = none := by
        apply List.find?_eq_none.mpr
        intro name member
        rw [List.isPrefixOf_iff_prefix]
        have apart := @constant_not_start digit isDigit (tail ++ rest) name member
        cases shape with
        | inl unsigned =>
            rw [unsigned]
            exact apart.1
        | inr minus =>
            rw [minus]
            exact apart.2
      have notQuote : (used ++ rest).head? ≠ some '"' := by
        intro quote
        cases shape with
        | inl unsigned =>
            rw [unsigned] at quote
            have same := (Option.some.inj quote).symm
            exact digit_ne isDigit (by decide : Char.isDigit '"' = false) same
        | inr minus =>
            rw [minus] at quote
            exact absurd (Option.some.inj quote) (by decide)
      rw [scanScalar_other limits notQuote, scanBare, notConstant]
      exact scanNumber_complete limits isNumber stops

/-- A reader reads whatever is spelled, if no number goes on behind it. -/
structure Complete (one : Reader value) (spells : value → Text → Prop) : Prop where
  starts : ∀ {item : value} {used : Text}, spells item used → Starts used
  reads : ∀ {item : value} {used rest : Text}, spells item used → Stops rest →
    (one (used ++ rest)).Reads item rest

/-- A closing bracket or a comma. -/
structure IsDelimiter (char : Char) : Prop where
  visible : isBlank char = false
  notNumber : isNumberChar char = false

theorem stops_blank {space rest : Text} {char : Char} (blank : Blank space)
    (delimiter : IsDelimiter char) : Stops (space ++ char :: rest) := by
  intro first isFirst
  cases space with
  | nil =>
      rw [← Option.some.inj isFirst]
      exact delimiter.notNumber
  | cons head tail =>
      have isBlankHead := blank head List.mem_cons_self
      rw [← Option.some.inj isFirst]
      unfold isBlank at isBlankHead
      simp only [Bool.or_eq_true, beq_iff_eq] at isBlankHead
      rcases isBlankHead with ((rfl | rfl) | rfl) | rfl
      · decide
      · decide
      · decide
      · decide

theorem comma_delimiter : IsDelimiter ',' := ⟨by decide, by decide⟩

theorem scanItems_complete {one : Reader value} {spells : value → Text → Prop}
    (complete : Complete one spells) {close : Char} (delimiter : IsDelimiter close)
    (notComma : ',' ≠ close) {items : List value} {body : Text}
    (entries : Entries spells items body) (rest : Text) :
    ∀ {fuel : Nat}, body.length < fuel →
      (scanItems one close fuel (body ++ close :: rest)).Reads items rest := by
  induction entries with
  | @last before after used item blankBefore spelled blankAfter =>
      intro fuel enough
      cases fuel with
      | zero => exact absurd enough (Nat.not_lt_zero _)
      | succ fuel =>
          have shape : before ++ used ++ after ++ close :: rest =
              before ++ (used ++ (after ++ close :: rest)) := by
            simp only [List.append_assoc]
          rw [scanItems, shape, skipSpace_starts blankBefore (complete.starts spelled)]
          apply (complete.reads spelled (stops_blank blankAfter delimiter)).bind
          rw [nextChar_blank blankAfter delimiter.visible]
          apply Or.inl
          exact if_pos rfl
  | @more before after used text item others blankBefore spelled blankAfter entries ih =>
      intro fuel enough
      cases fuel with
      | zero => exact absurd enough (Nat.not_lt_zero _)
      | succ fuel =>
          have shape : before ++ used ++ after ++ ',' :: text ++ close :: rest =
              before ++ (used ++ (after ++ ',' :: (text ++ close :: rest))) := by
            simp only [List.append_assoc, List.cons_append]
          have shorter : text.length < fuel := by
            simp only [List.length_append, List.length_cons] at enough
            omega
          rw [scanItems, shape, skipSpace_starts blankBefore (complete.starts spelled)]
          apply (complete.reads spelled (stops_blank blankAfter comma_delimiter)).bind
          rw [nextChar_blank blankAfter comma_delimiter.visible]
          rw [Outcome.bind_found, if_neg notComma, if_pos rfl]
          exact (ih shorter).map _

theorem Entries.start {one : value → Text → Prop} {items : List value} {body : Text}
    (entries : Entries one items body) :
    ∃ before item used tail, Blank before ∧ one item used ∧ body = before ++ (used ++ tail) := by
  cases entries with
  | @last before after used item blankBefore spelled blankAfter =>
      exact ⟨before, item, used, after, blankBefore, spelled, by rw [List.append_assoc]⟩
  | @more before after used text item others blankBefore spelled blankAfter entries =>
      exact ⟨before, item, used, after ++ ',' :: text, blankBefore, spelled,
        by simp only [List.append_assoc]⟩

theorem scanBody_complete {one : Reader value} {spells : value → Text → Prop}
    (complete : Complete one spells) {close : Char} (delimiter : IsDelimiter close)
    (notComma : ',' ≠ close) (closes : close = '}' ∨ close = ']') {items : List value} {body : Text}
    (spelled : Body spells items body) (rest : Text) :
    (scanBody one close (body ++ close :: rest)).Reads items rest := by
  unfold scanBody
  cases spelled with
  | inl none =>
      rw [skipSpace_blank none.2 delimiter.visible, List.head?_cons, if_pos rfl, none.1]
      exact Or.inl rfl
  | inr entries =>
      have notClose : (skipSpace (body ++ close :: rest)).head? ≠ some close := by
        obtain ⟨before, item, used, tail, blank, itemSpelled, shape⟩ := entries.start
        have starts := complete.starts itemSpelled
        obtain ⟨head, more, usedShape, _visible, notBrace, notBracket⟩ := starts
        rw [shape, List.append_assoc, List.append_assoc,
          skipSpace_starts blank (complete.starts itemSpelled), usedShape]
        intro same
        have isClose : head = close := Option.some.inj same
        rw [← isClose] at closes
        cases closes with
        | inl brace => exact notBrace brace
        | inr bracket => exact notBracket bracket
      rw [if_neg notClose]
      apply scanItems_complete complete delimiter notComma entries rest
      rw [List.length_append, List.length_cons]
      omega

theorem scanMember_complete {one : Reader Tree} {spells : Tree → Text → Prop}
    (complete : Complete one spells) : Complete (scanMember one) (Member spells) where
  starts := by
    intro member used spelled
    cases spelled with
    | intro isContent blankBefore blankAfter valueSpelled =>
        exact ⟨'"', _, rfl, by decide, by decide, by decide⟩
  reads := by
    intro member used rest spelled stops
    cases spelled with
    | @intro key before after text value isContent blankBefore blankAfter valueSpelled =>
        have shape : '"' :: key ++ '"' :: before ++ ':' :: after ++ text ++ rest =
            '"' :: (key ++ '"' :: (before ++ ':' :: (after ++ (text ++ rest)))) := by
          simp only [List.append_assoc, List.cons_append]
        rw [shape, scanMember, scanString_complete isContent]
        rw [Outcome.bind_found, nextChar_blank blankBefore (by decide), Outcome.bind_found,
          if_pos rfl, skipSpace_starts blankAfter (complete.starts valueSpelled)]
        exact (complete.reads valueSpelled stops).map _

/-- The first character of a scalar opens no container. -/
theorem IsScalar.start {tree : Tree} {used : Text} (spelled : IsScalar tree used) :
    ∃ head tail, used = head :: tail ∧ isBlank head = false ∧ head ∉ "\x7b[\x7d]".toList := by
  cases spelled with
  | text isContent => exact ⟨'"', _, rfl, by decide, by decide⟩
  | constant member =>
      have letters : ∀ name ∈ constants, name ≠ [] ∧ (name.take 1).all
          (fun head => !isBlank head && !"\x7b[\x7d]".toList.contains head) = true := by
        decide
      obtain ⟨filled, visible⟩ := letters used member
      cases used with
      | nil => exact absurd rfl filled
      | cons head tail =>
          simp only [List.take_succ_cons, List.take_zero, List.all_cons, List.all_nil,
            Bool.and_true, Bool.and_eq_true, Bool.not_eq_true', List.contains_eq_mem,
            decide_eq_false_iff_not] at visible
          exact ⟨head, tail, rfl, visible.1, visible.2⟩
  | number isNumber =>
      obtain ⟨digit, tail, isDigit, shape⟩ := isNumber.head
      cases shape with
      | inl unsigned =>
          refine ⟨digit, tail, unsigned, ?_, ?_⟩
          · unfold isBlank
            simp [(digit_ne isDigit (by decide : Char.isDigit ' ' = false)).symm,
              (digit_ne isDigit (by decide : Char.isDigit '\t' = false)).symm,
              (digit_ne isDigit (by decide : Char.isDigit '\n' = false)).symm,
              (digit_ne isDigit (by decide : Char.isDigit '\r' = false)).symm]
          · simp [(digit_ne isDigit (by decide : Char.isDigit '{' = false)).symm,
              (digit_ne isDigit (by decide : Char.isDigit '[' = false)).symm,
              (digit_ne isDigit (by decide : Char.isDigit '}' = false)).symm,
              (digit_ne isDigit (by decide : Char.isDigit ']' = false)).symm]
      | inr minus => exact ⟨'-', digit :: tail, minus, by decide, by decide⟩

theorem IsScalar.starts {tree : Tree} {used : Text} (spelled : IsScalar tree used) :
    Starts used := by
  obtain ⟨head, tail, shape, visible, notBracket⟩ := spelled.start
  simp at notBracket
  exact ⟨head, tail, shape, visible, notBracket.2.2.1, notBracket.2.2.2⟩

theorem scanOnce_scalar (limits : Limits) (depth : Nat) {text : Text}
    (notBrace : text.head? ≠ some '{') (notBracket : text.head? ≠ some '[') :
    scanOnce limits depth text = scanScalar limits text := by
  unfold scanOnce
  cases depth with
  | zero =>
      dsimp only
      rw [if_neg]
      intro either
      cases either with
      | inl brace => exact notBrace brace
      | inr bracket => exact notBracket bracket
  | succ depth =>
      dsimp only
      split
      case h_1 => exact absurd rfl notBrace
      case h_2 => exact absurd rfl notBracket
      case h_3 => rfl

/-- Brackets are closed by themselves: what follows does not matter. -/
theorem container_reads (limits : Limits) {spells : Tree → Text → Prop}
    (complete : ∀ depth, Complete (scanOnce limits depth) spells) {tree : Tree} {used : Text}
    (spelled : IsContainer spells tree used) (rest : Text) (depth : Nat) :
    (scanOnce limits depth (used ++ rest)).Reads tree rest := by
  cases spelled with
  | @array items body isBody =>
      have shape : '[' :: body ++ [']'] ++ rest = '[' :: (body ++ ']' :: rest) := by
        simp only [List.append_assoc, List.cons_append, List.nil_append]
      rw [shape]
      cases depth with
      | zero => exact Or.inr ⟨_, rfl⟩
      | succ depth =>
          exact (scanBody_complete (complete depth) ⟨by decide, by decide⟩ (by decide)
            (Or.inr rfl) isBody rest).map _
  | @object members body isBody =>
      have shape : '{' :: body ++ ['}'] ++ rest = '{' :: (body ++ '}' :: rest) := by
        simp only [List.append_assoc, List.cons_append, List.nil_append]
      rw [shape]
      cases depth with
      | zero => exact Or.inr ⟨_, rfl⟩
      | succ depth =>
          exact (scanBody_complete (scanMember_complete (complete depth))
            ⟨by decide, by decide⟩ (by decide) (Or.inl rfl) isBody rest).map _

theorem IsContainer.starts {spells : Tree → Text → Prop} {tree : Tree} {used : Text}
    (spelled : IsContainer spells tree used) : Starts used := by
  cases spelled with
  | array isBody => exact ⟨'[', _, rfl, by decide, by decide, by decide⟩
  | object isBody => exact ⟨'{', _, rfl, by decide, by decide, by decide⟩

theorem scalar_reads (limits : Limits) {tree : Tree} {used rest : Text}
    (spelled : IsScalar tree used) (stops : Stops rest) (depth : Nat) :
    (scanOnce limits depth (used ++ rest)).Reads tree rest := by
  obtain ⟨head, tail, shape, _visible, notBracket⟩ := spelled.start
  simp at notBracket
  have first : (used ++ rest).head? = some head := by
    rw [shape]
    rfl
  rw [scanOnce_scalar limits depth]
  · exact scanScalar_complete limits spelled stops
  · rw [first]
    exact fun same => notBracket.1 (Option.some.inj same)
  · rw [first]
    exact fun same => notBracket.2.1 (Option.some.inj same)

/-- What the grammar spells is read by the decoder, at any depth. -/
theorem scanOnce_complete (limits : Limits) (nesting : Nat) :
    ∀ depth, Complete (scanOnce limits depth) (IsValue nesting) := by
  induction nesting with
  | zero =>
      intro depth
      exact ⟨fun spelled => IsScalar.starts spelled,
        fun spelled stops => scalar_reads limits spelled stops depth⟩
  | succ nesting ih =>
      intro depth
      constructor
      case starts =>
        intro tree used spelled
        cases spelled with
        | inl scalar => exact scalar.starts
        | inr container => exact container.starts
      case reads =>
        intro tree used rest spelled stops
        cases spelled with
        | inl scalar => exact scalar_reads limits scalar stops depth
        | inr container => exact container_reads limits ih container rest depth

/-! ### Objects -/

theorem isObject_container {members : List (Text × Tree)} {used : Text}
    (isObject : IsObject members used) :
    ∃ nesting, IsContainer (IsValue nesting) (.object members) used := by
  obtain ⟨depth, spelled⟩ := isObject
  cases depth with
  | zero => cases spelled
  | succ nesting =>
      cases spelled with
      | inl scalar => cases scalar
      | inr container => exact ⟨nesting, container⟩

/-- An object stands between two braces. -/
theorem IsObject.braces {members : List (Text × Tree)} {used : Text}
    (isObject : IsObject members used) : ∃ body, used = '{' :: body ++ ['}'] := by
  obtain ⟨nesting, container⟩ := isObject_container isObject
  cases container with
  | object isBody => exact ⟨_, rfl⟩

theorem rawDecode_sound {limits : Limits} {text rest : Text} {members : List (Text × Tree)}
    (read : rawDecode limits text = .found (.object members) rest) :
    ∃ used, text = used ++ rest ∧ IsObject members used := by
  obtain ⟨used, split, spelled⟩ := scanOnce_sound limits limits.depth read
  exact ⟨used, split, limits.depth, spelled⟩

theorem rawDecode_complete (limits : Limits) {members : List (Text × Tree)} {used : Text}
    (isObject : IsObject members used) (rest : Text) :
    (rawDecode limits (used ++ rest)).Reads (.object members) rest := by
  obtain ⟨nesting, container⟩ := isObject_container isObject
  exact container_reads limits (scanOnce_complete limits nesting) container rest limits.depth

end VaultSearch.JsonText
