/-
Points in time without a zone, as far as `isoformat` and `strptime` know them.

`strptime` matches a pattern for the format and converts what its groups took.  The digits of
the pattern are those of any script, and most fields may be written with one digit.
-/

import VaultSearch.Regex.Language
import VaultSearch.Text.Numerals

set_option autoImplicit false

namespace VaultSearch

/-- What `\d` and `int` take as a digit. -/
structure DigitTables where
  decimal : Char → Option Nat
  decimal_ascii : ∀ char : Char, char.toNat < 128 →
    decimal char = if char.isDigit then some (Text.digitValue char) else none

/-! ### Points in time -/

def isLeap (year : Nat) : Bool :=
  year % 4 == 0 && (year % 100 != 0 || year % 400 == 0)

def daysInMonth (year month : Nat) : Nat :=
  if month = 2 then (if isLeap year then 29 else 28)
  else if [4, 6, 9, 11].contains month then 30
  else 31

/-- A day from the first day of the year 1 to the last of the year 9999. -/
def validDate (year month day : Nat) : Bool :=
  decide (1 ≤ year ∧ year ≤ 9999 ∧ 1 ≤ month ∧ month ≤ 12 ∧ 1 ≤ day ∧
    day ≤ daysInMonth year month)

def validTime (hour minute second : Nat) : Bool :=
  decide (hour < 24 ∧ minute < 60 ∧ second < 60)

/-- A `datetime`. -/
structure DateTime where
  year : Nat
  month : Nat
  day : Nat
  hour : Nat
  minute : Nat
  second : Nat
  microsecond : Nat
  date_valid : validDate year month day = true
  time_valid : validTime hour minute second = true
  microsecond_valid : microsecond < 1000000

namespace DateTime

/-- What a `datetime` is compared by, one after the other. -/
def fields (time : DateTime) : List Nat :=
  [time.year, time.month, time.day, time.hour, time.minute, time.second, time.microsecond]

/-- The fraction of a second in `isoformat`, left out if it is zero. -/
def fraction (time : DateTime) : Text :=
  if time.microsecond = 0 then [] else '.' :: Text.padded 6 time.microsecond

def isoformat (time : DateTime) : Text :=
  Text.padded 4 time.year ++ ['-'] ++ Text.padded 2 time.month ++ ['-'] ++
    Text.padded 2 time.day ++ ['T'] ++ Text.padded 2 time.hour ++ [':'] ++
    Text.padded 2 time.minute ++ [':'] ++ Text.padded 2 time.second ++ time.fraction

end DateTime

/-! ### `strptime` -/

namespace Regex

def between (first last : Char) : Regex :=
  chars (fun char => decide (first ≤ char ∧ char ≤ last))

/-- `\d` -/
def decimalDigit (tables : DigitTables) : Regex :=
  chars (fun char => (tables.decimal char).isSome)

/-- `%Y` -/
def yearField (tables : DigitTables) : Regex :=
  seq (decimalDigit tables) (seq (decimalDigit tables)
    (seq (decimalDigit tables) (decimalDigit tables)))

/-- `%m` -/
def monthField : Regex :=
  anyOf [seq (literal ['1']) (between '0' '2'), seq (literal ['0']) (between '1' '9'),
    between '1' '9']

/-- `%d` -/
def dayField (tables : DigitTables) : Regex :=
  anyOf [seq (literal ['3']) (between '0' '1'), seq (between '1' '2') (decimalDigit tables),
    seq (literal ['0']) (between '1' '9'), between '1' '9', seq (literal [' ']) (between '1' '9')]

/-- `%H` -/
def hourField (tables : DigitTables) : Regex :=
  anyOf [seq (literal ['2']) (between '0' '3'), seq (between '0' '1') (decimalDigit tables),
    decimalDigit tables]

/-- `%M` -/
def minuteField (tables : DigitTables) : Regex :=
  anyOf [seq (between '0' '5') (decimalDigit tables), decimalDigit tables]

/-- `%S` -/
def secondField (tables : DigitTables) : Regex :=
  anyOf [seq (literal ['6']) (between '0' '1'), seq (between '0' '5') (decimalDigit tables),
    decimalDigit tables]

/-- `%Y-%m-%d`, with what may follow. -/
def dateFormat (tables : DigitTables) (rest : Regex) : Regex :=
  seq (group 1 (yearField tables)) (seq (literal ['-']) (seq (group 2 monthField)
    (seq (literal ['-']) (seq (group 3 (dayField tables)) rest))))

/-- `T%H:%M:%S` -/
def timeFormat (tables : DigitTables) : Regex :=
  seq (literal ['T']) (seq (group 4 (hourField tables)) (seq (literal [':'])
    (seq (group 5 (minuteField tables)) (seq (literal [':']) (group 6 (secondField tables))))))

end Regex

/-- `int` of what a group took. -/
def readNumber (tables : DigitTables) (text : Text) : Nat :=
  (Text.lstrip text).foldl (fun number char => 10 * number + (tables.decimal char).getD 0) 0

/-- The numbers are those of a `datetime`, or of its date. -/
def validNumbers : List Nat → Bool
  | [year, month, day] => validDate year month day
  | [year, month, day, hour, minute, second] =>
      validDate year month day && validTime hour minute second
  | _ => false

/-- `datetime.strptime(text, format)`, or `none` for a `ValueError`. -/
def strptime (tables : DigitTables) (format : Regex) (text : Text) : Option (List Nat) :=
  match format.firstMatch (Regex.Cursor.start text) with
  | none => none
  | some next =>
      let numbers := next.groups.reverse.map (fun found => readNumber tables found.2)
      if next.rest.isEmpty && validNumbers numbers then some numbers else none

/-! ### The stamps of `isoformat` -/

/-- The fields of `isoformat`, as if a separator stood in front of the year. -/
def isoLayout : Text.Layout :=
  [('-', 4), ('-', 2), ('-', 2), ('T', 2), (':', 2), (':', 2)]

namespace DateTime

variable (time : DateTime)

/-- The fields without the fraction. -/
def wholeFields : List Nat :=
  [time.year, time.month, time.day, time.hour, time.minute, time.second]

theorem fields_eq : time.fields = time.wholeFields ++ [time.microsecond] := rfl

theorem isoformat_stamp :
    '-' :: time.isoformat = Text.stamp isoLayout time.wholeFields time.fraction := by
  unfold isoformat
  simp only [List.append_assoc]
  rfl

theorem daysInMonth_le (year month : Nat) : daysInMonth year month ≤ 31 := by
  unfold daysInMonth
  split
  · split <;> decide
  · split <;> decide

theorem wholeFields_fits : Text.Fits isoLayout time.wholeFields := by
  have date := time.date_valid
  have clock := time.time_valid
  unfold validDate at date
  unfold validTime at clock
  rw [decide_eq_true_iff] at date clock
  have days := daysInMonth_le time.year time.month
  refine ⟨?_, ?_, ?_, ?_, ?_, ?_, trivial⟩
  all_goals omega

theorem fraction_ne_nil_iff : time.fraction ≠ [] ↔ time.microsecond ≠ 0 := by
  unfold fraction
  split
  case isTrue none => simp [none]
  case isFalse some => simp [some]

end DateTime

end VaultSearch
