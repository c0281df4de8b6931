/-
The grammar of JSON as Python's `json` module takes it, with `NaN` and the infinities, and that
whatever the decoder reads is spelled so.
-/

import VaultSearch.Json.Decoder

set_option autoImplicit false

namespace VaultSearch.JsonText

variable {value other : Type}

/-! ### The grammar -/

def Blank (text : Text) : Prop :=
  ∀ char ∈ text, isBlank char = true

def Digits (text : Text) : Prop :=
  text ≠ [] ∧ ∀ char ∈ text, char.isDigit = true

/-- What may stand between two quotes. -/
inductive IsContent : Text → Prop
  | nil : IsContent []
  | plain {char : Char} {content : Text} (notQuote : char ≠ '"') (notBackslash : char ≠ '\\')
      (printable : 32 ≤ char.toNat) (rest : IsContent content) : IsContent (char :: content)
  | escape {char : Char} {content : Text} (isEscape : isEscape char = true)
      (rest : IsContent content) : IsContent ('\\' :: char :: content)
  | unicode {first second third fourth : Char} {content : Text} (isFirst : isHex first = true)
      (isSecond : isHex second = true) (isThird : isHex third = true)
      (isFourth : isHex fourth = true) (rest : IsContent content) :
      IsContent ('\\' :: 'u' :: first :: second :: third :: fourth :: content)

def IsWhole (text : Text) : Prop :=
  text = ['0'] ∨ Digits text ∧ text.head? ≠ some '0'

def IsFraction (text : Text) : Prop :=
  text = [] ∨ ∃ digits, Digits digits ∧ text = '.' :: digits

def IsExponent (text : Text) : Prop :=
  text = [] ∨ ∃ letter sign digits, (letter = 'e' ∨ letter = 'E') ∧
    (sign = [] ∨ sign = ['+'] ∨ sign = ['-']) ∧ Digits digits ∧ text = letter :: sign ++ digits

structure IsNumber (lexeme : Text) : Prop where
  parts : ∃ sign whole fraction exponent, (sign = [] ∨ sign = ['-']) ∧ IsWhole whole ∧
    IsFraction fraction ∧ IsExponent exponent ∧ lexeme = sign ++ whole ++ fraction ++ exponent

inductive IsScalar : Tree → Text → Prop
  | constant {name : Text} (member : name ∈ constants) : IsScalar (.constant name) name
  | number {lexeme : Text} (isNumber : IsNumber lexeme) : IsScalar (.number lexeme) lexeme
  | text {content : Text} (isContent : IsContent content) :
      IsScalar (.text content) ('"' :: content ++ ['"'])

/-- Items with commas between them and space around them. -/
inductive Entries (one : value → Text → Prop) : List value → Text → Prop
  | last {before after used : Text} {item : value} (blankBefore : Blank before)
      (spelled : one item used) (blankAfter : Blank after) :
      Entries one [item] (before ++ used ++ after)
  | more {before after used text : Text} {item : value} {items : List value}
      (blankBefore : Blank before) (spelled : one item used) (blankAfter : Blank after)
      (rest : Entries one items text) :
      Entries one (item :: items) (before ++ used ++ after ++ ',' :: text)

def Body (one : value → Text → Prop) (items : List value) (text : Text) : Prop :=
  (items = [] ∧ Blank text) ∨ Entries one items text

inductive Member (one : Tree → Text → Prop) : Text × Tree → Text → Prop
  | intro {key before after used : Text} {value : Tree} (isContent : IsContent key)
      (blankBefore : Blank before) (blankAfter : Blank after) (spelled : one value used) :
      Member one (key, value) ('"' :: key ++ '"' :: before ++ ':' :: after ++ used)

/-- An array or an object of such values. -/
inductive IsContainer (one : Tree → Text → Prop) : Tree → Text → Prop
  | array {items : List Tree} {body : Text} (spelled : Body one items body) :
      IsContainer one (.array items) ('[' :: body ++ [']'])
  | object {members : List (Text × Tree)} {body : Text} (spelled : Body (Member one) members body) :
      IsContainer one (.object members) ('{' :: body ++ ['}'])

/-- A value whose brackets are at most `depth` deep. -/
def IsValue : Nat → Tree → Text → Prop
  | 0 => IsScalar
  | depth + 1 => fun tree text => IsScalar tree text ∨ IsContainer (IsValue depth) tree text

/-- A complete JSON object. -/
def IsObject (members : List (Text × Tree)) (text : Text) : Prop :=
  ∃ depth, IsValue depth (.object members) text

/-! ### What is read is spelled so -/

theorem Outcome.bind_found (item : value) (rest : Text) (next : value → Reader other) :
    (Outcome.found item rest).bind next = next item rest := rfl

theorem Outcome.bind_eq_found {outcome : Outcome value} {next : value → Reader other}
    {result : other} {rest : Text} :
    outcome.bind next = .found result rest ↔
      ∃ value between, outcome = .found value between ∧
        next value between = .found result rest := by
  unfold Outcome.bind
  cases outcome with
  | found value between => simp
  | malformed => simp
  | fault error => simp

theorem Outcome.map_eq_found {outcome : Outcome value} {change : value → other} {result : other}
    {rest : Text} :
    outcome.map change = .found result rest ↔
      ∃ value, outcome = .found value rest ∧ change value = result := by
  unfold Outcome.map
  rw [Outcome.bind_eq_found]
  constructor
  · intro found
    obtain ⟨value, between, read, same⟩ := found
    obtain ⟨sameResult, sameRest⟩ := Outcome.found.inj same
    rw [sameRest] at read
    exact ⟨value, read, sameResult⟩
  · intro found
    obtain ⟨value, read, same⟩ := found
    exact ⟨value, rest, read, by rw [same]⟩

theorem skipSpace_split (text : Text) :
    ∃ space, Blank space ∧ text = space ++ skipSpace text :=
  ⟨text.takeWhile isBlank, fun _char member => List.mem_takeWhile_imp member,
    List.takeWhile_append_dropWhile.symm⟩

theorem nextChar_sound {text rest : Text} {char : Char} (read : nextChar text = .found char rest) :
    ∃ space, Blank space ∧ text = space ++ char :: rest := by
  unfold nextChar at read
  split at read
  case h_1 => cases read
  case h_2 found behind shape =>
    obtain ⟨space, blank, split⟩ := skipSpace_split text
    obtain ⟨sameChar, sameRest⟩ := Outcome.found.inj read
    rw [shape, sameChar, sameRest] at split
    exact ⟨space, blank, split⟩

theorem scanString_sound (text : Text) :
    ∀ {content rest : Text}, scanString text = .found content rest →
      IsContent content ∧ text = content ++ '"' :: rest := by
  induction text using scanString.induct with
  | case1 =>
      intro content rest read
      cases read
  | case2 tail =>
      intro content rest read
      rw [scanString] at read
      obtain ⟨sameContent, sameRest⟩ := Outcome.found.inj read
      rw [← sameContent, ← sameRest]
      exact ⟨.nil, rfl⟩
  | case3 first second third fourth tail hex ih =>
      intro content rest read
      rw [scanString, if_pos hex, Outcome.map_eq_found] at read
      obtain ⟨inner, innerRead, same⟩ := read
      obtain ⟨isContent, split⟩ := ih innerRead
      simp only [Bool.and_eq_true] at hex
      rw [← same, split]
      exact ⟨.unicode hex.1.1.1 hex.1.1.2 hex.1.2 hex.2 isContent, rfl⟩
  | case4 first second third fourth tail hex =>
      intro content rest read
      rw [scanString, if_neg hex] at read
      cases read
  | case5 char tail notUnicode isEscape ih =>
      intro content rest read
      rw [scanString.eq_4 char tail notUnicode, if_pos isEscape, Outcome.map_eq_found] at read
      obtain ⟨inner, innerRead, same⟩ := read
      obtain ⟨isContent, split⟩ := ih innerRead
      rw [← same, split]
      exact ⟨.escape isEscape isContent, rfl⟩
  | case6 char tail notUnicode isEscape =>
      intro content rest read
      rw [scanString.eq_4 char tail notUnicode, if_neg isEscape] at read
      cases read
  | case7 =>
      intro content rest read
      cases read
  | case8 char tail notQuote notUnicode notEscape notLast control =>
      intro content rest read
      rw [scanString.eq_6 char tail notQuote notUnicode notEscape notLast, if_pos control] at read
      cases read
  | case9 char tail notQuote notUnicode notEscape notLast control ih =>
      intro content rest read
      have notBackslash : char ≠ '\\' := by
        intro same
        cases tail with
        | nil => exact notLast same rfl
        | cons next more => exact notEscape next more same rfl
      rw [scanString.eq_6 char tail notQuote notUnicode notEscape notLast, if_neg control,
        Outcome.map_eq_found] at read
      obtain ⟨inner, innerRead, same⟩ := read
      obtain ⟨isContent, split⟩ := ih innerRead
      rw [← same, split]
      exact ⟨.plain notQuote notBackslash (Nat.not_lt.mp control) isContent, rfl⟩

/-! ### Numbers -/

theorem takeDigits_split (text : Text) :
    text = (takeDigits text).1 ++ (takeDigits text).2 :=
  List.takeWhile_append_dropWhile.symm

theorem takeDigits_digits {text : Text} (filled : (takeDigits text).1.isEmpty = false) :
    Digits (takeDigits text).1 :=
  ⟨List.isEmpty_eq_false_iff.mp filled, fun _char member => List.mem_takeWhile_imp member⟩

theorem signPart_sound (text : Text) :
    text = (signPart text).1 ++ (signPart text).2 ∧
      ((signPart text).1 = [] ∨ (signPart text).1 = ['-']) := by
  unfold signPart
  split
  case h_1 rest => exact ⟨rfl, Or.inr rfl⟩
  case h_2 => exact ⟨rfl, Or.inl rfl⟩

theorem wholePart_sound {text whole rest : Text} (read : wholePart text = some (whole, rest)) :
    text = whole ++ rest ∧ IsWhole whole := by
  unfold wholePart at read
  split at read
  case h_1 behind =>
    obtain ⟨sameWhole, sameRest⟩ := Prod.mk.inj (Option.some.inj read)
    rw [← sameWhole, ← sameRest]
    exact ⟨rfl, Or.inl rfl⟩
  case h_2 notZero =>
    split at read
    case isTrue => cases read
    case isFalse filled =>
      have pair := Option.some.inj read
      have split := takeDigits_split text
      have digits := takeDigits_digits (eq_false_of_ne_true filled)
      rw [pair] at split digits
      refine ⟨split, Or.inr ⟨digits, ?_⟩⟩
      intro zero
      obtain ⟨tail, shape⟩ := List.head?_eq_some_iff.mp zero
      rw [shape] at split
      exact notZero _ split

theorem fractionPart_sound (text : Text) :
    text = (fractionPart text).1 ++ (fractionPart text).2 ∧ IsFraction (fractionPart text).1 := by
  unfold fractionPart
  split
  case h_1 rest =>
    split
    case isTrue => exact ⟨rfl, Or.inl rfl⟩
    case isFalse filled =>
      refine ⟨?_, Or.inr ⟨_, takeDigits_digits (eq_false_of_ne_true filled), rfl⟩⟩
      exact congrArg (List.cons '.') (takeDigits_split rest)
  case h_2 => exact ⟨rfl, Or.inl rfl⟩

theorem exponentSign_sound (text : Text) :
    text = (exponentSign text).1 ++ (exponentSign text).2 ∧
      ((exponentSign text).1 = [] ∨ (exponentSign text).1 = ['+'] ∨
        (exponentSign text).1 = ['-']) := by
  unfold exponentSign
  split
  case h_1 => exact ⟨rfl, Or.inr (Or.inl rfl)⟩
  case h_2 => exact ⟨rfl, Or.inr (Or.inr rfl)⟩
  case h_3 => exact ⟨rfl, Or.inl rfl⟩

theorem exponentPart_sound (text : Text) :
    text = (exponentPart text).1 ++ (exponentPart text).2 ∧ IsExponent (exponentPart text).1 := by
  cases text with
  | nil => exact ⟨rfl, Or.inl rfl⟩
  | cons head rest =>
      rw [exponentPart]
      split
      case isTrue exponent =>
        rw [Bool.and_eq_true, Bool.or_eq_true, beq_iff_eq, beq_iff_eq,
          Bool.not_eq_true'] at exponent
        obtain ⟨signSplit, isSign⟩ := exponentSign_sound rest
        have digitSplit := takeDigits_split (exponentSign rest).2
        refine ⟨?_, Or.inr ⟨head, _, _, exponent.1, isSign, takeDigits_digits exponent.2, rfl⟩⟩
        rw [List.cons_append, List.cons_append, List.append_assoc, ← digitSplit, ← signSplit]
      case isFalse => exact ⟨rfl, Or.inl rfl⟩

theorem matchNumber_sound {text : Text} {number : NumberMatch}
    (read : matchNumber text = some number) :
    text = number.lexeme ++ number.rest ∧ IsNumber number.lexeme := by
  unfold matchNumber at read
  obtain ⟨pair, wholeRead, same⟩ := Option.map_eq_some_iff.mp read
  obtain ⟨whole, behindWhole⟩ := pair
  obtain ⟨signSplit, isSign⟩ := signPart_sound text
  obtain ⟨wholeSplit, isWhole⟩ := wholePart_sound wholeRead
  obtain ⟨fractionSplit, isFraction⟩ := fractionPart_sound behindWhole
  obtain ⟨exponentSplit, isExponent⟩ := exponentPart_sound (fractionPart behindWhole).2
  rw [← same]
  refine ⟨?_, ⟨⟨_, _, _, _, isSign, isWhole, isFraction, isExponent, rfl⟩⟩⟩
  unfold NumberMatch.lexeme
  rw [List.append_assoc, List.append_assoc, List.append_assoc, ← exponentSplit, ← fractionSplit,
    ← wholeSplit, ← signSplit]

/-! ### Containers -/

/-- Whatever the reader reads is spelled as `spells` says. -/
def Sound (one : Reader value) (spells : value → Text → Prop) : Prop :=
  ∀ {text rest : Text} {item : value}, one text = .found item rest →
    ∃ used, text = used ++ rest ∧ spells item used

theorem scanItems_sound {one : Reader value} {spells : value → Text → Prop}
    (sound : Sound one spells) {close : Char} (fuel : Nat) :
    ∀ {text rest : Text} {items : List value}, scanItems one close fuel text = .found items rest →
      ∃ body, text = body ++ close :: rest ∧ Entries spells items body := by
  induction fuel with
  | zero =>
      intro text rest items read
      cases read
  | succ fuel ih =>
      intro text rest items read
      rw [scanItems, Outcome.bind_eq_found] at read
      obtain ⟨item, behindItem, itemRead, read⟩ := read
      obtain ⟨char, behindChar, charRead, read⟩ := Outcome.bind_eq_found.mp read
      obtain ⟨before, blankBefore, textSplit⟩ := skipSpace_split text
      obtain ⟨used, itemSplit, spelled⟩ := sound itemRead
      obtain ⟨after, blankAfter, charSplit⟩ := nextChar_sound charRead
      rw [itemSplit, charSplit] at textSplit
      split at read
      case isTrue closing =>
        obtain ⟨sameItems, sameRest⟩ := Outcome.found.inj read
        refine ⟨before ++ used ++ after, ?_, ?_⟩
        · rw [textSplit, closing, sameRest]
          simp only [List.append_assoc]
        · rw [← sameItems]
          exact .last blankBefore spelled blankAfter
      case isFalse =>
        split at read
        case isTrue comma =>
          obtain ⟨others, restRead, same⟩ := Outcome.map_eq_found.mp read
          obtain ⟨body, restSplit, entries⟩ := ih restRead
          refine ⟨before ++ used ++ after ++ ',' :: body, ?_, ?_⟩
          · rw [textSplit, comma, restSplit]
            simp only [List.append_assoc, List.cons_append]
          · rw [← same]
            exact .more blankBefore spelled blankAfter entries
        case isFalse => cases read

theorem scanBody_sound {one : Reader value} {spells : value → Text → Prop}
    (sound : Sound one spells) {close : Char} {text rest : Text} {items : List value}
    (read : scanBody one close text = .found items rest) :
    ∃ body, text = body ++ close :: rest ∧ Body spells items body := by
  unfold scanBody at read
  split at read
  case isTrue closing =>
    obtain ⟨space, blank, split⟩ := skipSpace_split text
    obtain ⟨tail, shape⟩ := List.head?_eq_some_iff.mp closing
    obtain ⟨sameItems, sameRest⟩ := Outcome.found.inj read
    rw [shape, List.tail_cons] at sameRest
    rw [shape, sameRest] at split
    exact ⟨space, split, Or.inl ⟨sameItems.symm, blank⟩⟩
  case isFalse =>
    obtain ⟨body, split, entries⟩ := scanItems_sound sound _ read
    exact ⟨body, split, Or.inr entries⟩

theorem scanMember_sound {one : Reader Tree} {spells : Tree → Text → Prop}
    (sound : Sound one spells) : Sound (scanMember one) (Member spells) := by
  intro text rest member read
  unfold scanMember at read
  split at read
  case h_2 => cases read
  case h_1 behindQuote =>
    obtain ⟨key, behindKey, keyRead, read⟩ := Outcome.bind_eq_found.mp read
    obtain ⟨char, behindChar, charRead, read⟩ := Outcome.bind_eq_found.mp read
    split at read
    case isFalse => cases read
    case isTrue colon =>
      obtain ⟨value, valueRead, same⟩ := Outcome.map_eq_found.mp read
      obtain ⟨isContent, keySplit⟩ := scanString_sound _ keyRead
      obtain ⟨before, blankBefore, charSplit⟩ := nextChar_sound charRead
      obtain ⟨after, blankAfter, spaceSplit⟩ := skipSpace_split behindChar
      obtain ⟨used, valueSplit, spelled⟩ := sound valueRead
      refine ⟨'"' :: key ++ '"' :: before ++ ':' :: after ++ used, ?_, ?_⟩
      · rw [keySplit, charSplit, colon, spaceSplit, valueSplit]
        simp only [List.append_assoc, List.cons_append]
      · rw [← same]
        exact .intro isContent blankBefore blankAfter spelled

theorem scanScalar_sound (limits : Limits) : Sound (scanScalar limits) IsScalar := by
  intro text rest tree read
  unfold scanScalar at read
  split at read
  case h_1 behindQuote =>
    obtain ⟨content, contentRead, same⟩ := Outcome.map_eq_found.mp read
    obtain ⟨isContent, split⟩ := scanString_sound _ contentRead
    refine ⟨'"' :: content ++ ['"'], ?_, ?_⟩
    · rw [split]
      simp only [List.append_assoc, List.cons_append, List.nil_append]
    · rw [← same]
      exact .text isContent
  case h_2 =>
    unfold scanBare at read
    split at read
    case h_1 name found =>
      obtain ⟨sameTree, sameRest⟩ := Outcome.found.inj read
      have ahead := List.isPrefixOf_iff_prefix.mp
        (@List.find?_some _ (fun name => List.isPrefixOf name text) _ _ found)
      obtain ⟨behind, split⟩ := ahead
      refine ⟨name, ?_, ?_⟩
      · rw [← sameRest, ← split, List.drop_left]
      · rw [← sameTree]
        exact .constant (List.mem_of_find?_eq_some found)
    case h_2 missing =>
      unfold scanNumber at read
      split at read
      case h_1 => cases read
      case h_2 number matched =>
        split at read
        case isTrue => cases read
        case isFalse =>
          obtain ⟨sameTree, sameRest⟩ := Outcome.found.inj read
          obtain ⟨split, isNumber⟩ := matchNumber_sound matched
          refine ⟨number.lexeme, ?_, ?_⟩
          · rw [← sameRest]
            exact split
          · rw [← sameTree]
            exact .number isNumber

/-- What the decoder reads is spelled by the grammar. -/
theorem scanOnce_sound (limits : Limits) (depth : Nat) :
    Sound (scanOnce limits depth) (IsValue depth) := by
  induction depth with
  | zero =>
      intro text rest tree read
      rw [scanOnce] at read
      split at read
      case isTrue => cases read
      case isFalse => exact scanScalar_sound limits read
  | succ depth ih =>
      intro text rest tree read
      unfold scanOnce at read
      split at read
      case h_1 behind =>
        obtain ⟨members, bodyRead, same⟩ := Outcome.map_eq_found.mp read
        obtain ⟨body, split, spelled⟩ := scanBody_sound (scanMember_sound ih) bodyRead
        refine ⟨'{' :: body ++ ['}'], ?_, ?_⟩
        · rw [split]
          simp only [List.append_assoc, List.cons_append, List.nil_append]
        · rw [← same]
          exact Or.inr (.object spelled)
      case h_2 behind =>
        obtain ⟨items, bodyRead, same⟩ := Outcome.map_eq_found.mp read
        obtain ⟨body, split, spelled⟩ := scanBody_sound ih bodyRead
        refine ⟨'[' :: body ++ [']'], ?_, ?_⟩
        · rw [split]
          simp only [List.append_assoc, List.cons_append, List.nil_append]
        · rw [← same]
          exact Or.inr (.array spelled)
      case h_3 =>
        obtain ⟨used, split, spelled⟩ := scanScalar_sound limits read
        exact ⟨used, split, Or.inl spelled⟩

end VaultSearch.JsonText
