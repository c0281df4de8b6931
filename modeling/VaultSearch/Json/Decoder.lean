/-
JSON as Python's `json` module reads it: the recursive decoder with its limits.

A value is kept as it is written: strings by what stands between their quotes, numbers by their
digits, objects with all their members in order.
-/

import VaultSearch.Text.Basic

set_option autoImplicit false

namespace VaultSearch.JsonText

/-! ### Values -/

inductive Tree where
  /-- `null`, `true`, `false`, `NaN`, `Infinity` or `-Infinity` -/
  | constant (name : Text)
  | number (lexeme : Text)
  | text (content : Text)
  | array (items : List Tree)
  | object (members : List (Text × Tree))

def constants : List Text :=
  ["null", "true", "false", "NaN", "Infinity", "-Infinity"].map String.toList

/-- What a decoding raises besides `JSONDecodeError`. -/
inductive DecodeFault where
  | valueError
  | recursionError
  deriving DecidableEq

/-- The digits that `int` converts and the nesting that the stack has room for. -/
structure Limits where
  digits : Nat := 4300
  depth : Nat := 1000

/-! ### Readers -/

inductive Outcome (value : Type) where
  | found (value : value) (rest : Text)
  /-- `JSONDecodeError` -/
  | malformed
  | fault (error : DecodeFault)

abbrev Reader (value : Type) := Text → Outcome value

variable {value other : Type}

def Outcome.bind (outcome : Outcome value) (next : value → Reader other) : Outcome other :=
  match outcome with
  | .found value rest => next value rest
  | .malformed => .malformed
  | .fault error => .fault error

def Outcome.map (change : value → other) (outcome : Outcome value) : Outcome other :=
  outcome.bind (fun value rest => .found (change value) rest)

def isBlank (char : Char) : Bool :=
  char == ' ' || char == '\t' || char == '\n' || char == '\r'

/-- `WHITESPACE.match(text).end()` -/
def skipSpace (text : Text) : Text :=
  text.dropWhile isBlank

def nextChar : Reader Char := fun text =>
  match skipSpace text with
  | [] => .malformed
  | char :: rest => .found char rest

/-! ### Strings -/

def isEscape (char : Char) : Bool :=
  "\"\\/bfnrt".toList.contains char

def isHex (char : Char) : Bool :=
  "0123456789abcdefABCDEF".toList.contains char

/-- `scanstring`, behind the opening quote. -/
def scanString : Reader Text
  | [] => .malformed
  | '"' :: rest => .found [] rest
  | '\\' :: 'u' :: first :: second :: third :: fourth :: rest =>
      if isHex first && isHex second && isHex third && isHex fourth then
        (scanString rest).map (fun content =>
          '\\' :: 'u' :: first :: second :: third :: fourth :: content)
      else .malformed
  | '\\' :: char :: rest =>
      if isEscape char then (scanString rest).map (fun content => '\\' :: char :: content)
      else .malformed
  | '\\' :: [] => .malformed
  | char :: rest =>
      if char.toNat < 32 then .malformed
      else (scanString rest).map (fun content => char :: content)

/-! ### Numbers -/

def takeDigits (text : Text) : Text × Text :=
  (text.takeWhile Char.isDigit, text.dropWhile Char.isDigit)

def signPart : Text → Text × Text
  | '-' :: rest => (['-'], rest)
  | text => ([], text)

/-- `0|[1-9][0-9]*` -/
def wholePart : Text → Option (Text × Text)
  | '0' :: rest => some (['0'], rest)
  | text => if (takeDigits text).1.isEmpty then none else some (takeDigits text)

/-- `(\.[0-9]+)?` -/
def fractionPart : Text → Text × Text
  | '.' :: rest =>
      if (takeDigits rest).1.isEmpty then ([], '.' :: rest)
      else ('.' :: (takeDigits rest).1, (takeDigits rest).2)
  | text => ([], text)

def exponentSign : Text → Text × Text
  | '+' :: rest => (['+'], rest)
  | '-' :: rest => (['-'], rest)
  | text => ([], text)

/-- `([eE][-+]?[0-9]+)?` -/
def exponentPart : Text → Text × Text
  | [] => ([], [])
  | head :: rest =>
      if (head == 'e' || head == 'E') && !(takeDigits (exponentSign rest).2).1.isEmpty then
        (head :: (exponentSign rest).1 ++ (takeDigits (exponentSign rest).2).1,
          (takeDigits (exponentSign rest).2).2)
      else ([], head :: rest)

structure NumberMatch where
  sign : Text
  whole : Text
  fraction : Text
  exponent : Text
  rest : Text

def NumberMatch.lexeme (number : NumberMatch) : Text :=
  number.sign ++ number.whole ++ number.fraction ++ number.exponent

/-- `NUMBER_RE.match` -/
def matchNumber (text : Text) : Option NumberMatch :=
  (wholePart (signPart text).2).map (fun wholeMatch =>
    { sign := (signPart text).1
      whole := wholeMatch.1
      fraction := (fractionPart wholeMatch.2).1
      exponent := (exponentPart (fractionPart wholeMatch.2).2).1
      rest := (exponentPart (fractionPart wholeMatch.2).2).2 })

/-- `int` refuses a number with too many digits, `float` none. -/
def scanNumber (limits : Limits) : Reader Tree := fun text =>
  match matchNumber text with
  | none => .malformed
  | some number =>
      if number.fraction.isEmpty && number.exponent.isEmpty && limits.digits < number.whole.length
      then .fault .valueError
      else .found (.number number.lexeme) number.rest

/-! ### Containers -/

/-- Items with commas between them, up to the closing bracket. -/
def scanItems (one : Reader value) (close : Char) : Nat → Reader (List value)
  | 0, _text => .malformed
  | fuel + 1, text =>
      (one (skipSpace text)).bind (fun item rest =>
        (nextChar rest).bind (fun char rest =>
          if char = close then .found [item] rest
          else if char = ',' then
            (scanItems one close fuel rest).map (fun items => item :: items)
          else .malformed))

def scanBody (one : Reader value) (close : Char) : Reader (List value) := fun text =>
  if (skipSpace text).head? = some close then .found [] (skipSpace text).tail
  else scanItems one close text.length text

/-- A key, a colon and a value. -/
def scanMember (one : Reader Tree) : Reader (Text × Tree)
  | '"' :: rest =>
      (scanString rest).bind (fun key rest =>
        (nextChar rest).bind (fun char rest =>
          if char = ':' then (one (skipSpace rest)).map (fun value => (key, value))
          else .malformed))
  | _ => .malformed

def scanBare (limits : Limits) : Reader Tree := fun text =>
  match constants.find? (fun name => name.isPrefixOf text) with
  | some name => .found (.constant name) (text.drop name.length)
  | none => scanNumber limits text

def scanScalar (limits : Limits) : Reader Tree
  | '"' :: rest => (scanString rest).map .text
  | text => scanBare limits text

/-- `scan_once` with room for `depth` more brackets inside one another. -/
def scanOnce (limits : Limits) : Nat → Reader Tree
  | 0, text =>
      if text.head? = some '{' ∨ text.head? = some '[' then .fault .recursionError
      else scanScalar limits text
  | depth + 1, text =>
      match text with
      | '{' :: rest => (scanBody (scanMember (scanOnce limits depth)) '}' rest).map .object
      | '[' :: rest => (scanBody (scanOnce limits depth) ']' rest).map .array
      | _ => scanScalar limits text

/-- `JSONDecoder().raw_decode(text)` -/
def rawDecode (limits : Limits) : Reader Tree :=
  scanOnce limits limits.depth

/-- `json.loads(text)`; nothing but whitespace may follow the value. -/
def loads (limits : Limits) (text : Text) : Outcome Tree :=
  if text.head? = some '\ufeff' then .malformed
  else
    (rawDecode limits (skipSpace text)).bind (fun value rest =>
      if (skipSpace rest).isEmpty then .found value [] else .malformed)

end VaultSearch.JsonText
