/-
The schema of the frontmatter fields and the coercion of their values:
`frontmatter/schema.py`, `frontmatter/types.py` and `frontmatter/coercion.py`.

Strings, booleans and enumerations are coerced here.  The coercions to numbers, dates,
UUIDs, URLs and lists rest on parsers of the standard library and on objects a `Value` does
not take apart; they are parameters here.
-/

import VaultSearch.Store.OrderedDict
import VaultSearch.Utils.Numbers
import VaultSearch.Utils.Printing

set_option autoImplicit false

namespace VaultSearch

inductive FieldType where
  | string
  | int
  | float
  | bool
  | date
  | datetime
  | uuid
  | url
  | enum
  | list
  deriving DecidableEq

def FieldType.label : FieldType → Text
  | .string => "string".toList
  | .int => "int".toList
  | .float => "float".toList
  | .bool => "bool".toList
  | .date => "date".toList
  | .datetime => "datetime".toList
  | .uuid => "uuid".toList
  | .url => "url".toList
  | .enum => "enum".toList
  | .list => "list".toList

inductive ItemType where
  | string
  | int
  | float
  deriving DecidableEq

def ItemType.label : ItemType → Text
  | .string => "string".toList
  | .int => "int".toList
  | .float => "float".toList

inductive OnMissing where
  | auto
  | suggest
  | require
  | ignore
  deriving DecidableEq

inductive ValidationMode where
  | strict
  | lenient
  | warnOnly
  deriving DecidableEq

/-- `FieldSchema`, with what its validators guarantee. -/
structure FieldSchema where
  type : FieldType
  onMissing : OnMissing := .ignore
  default : Value := .null
  minLength : Option Nat := none
  maxLength : Option Nat := none
  pattern : Option Text := none
  values : List Text := []
  caseInsensitive : Bool := true
  itemType : Option ItemType := none
  minItems : Option Nat := none
  maxItems : Option Nat := none
  minimum : Option PyFloat := none
  maximum : Option PyFloat := none
  aliases : List Text := []
  enumHasValues : type = .enum → values ≠ [] := by decide
  autoGenerates : onMissing = .auto → type = .uuid ∨ type = .datetime := by decide
  boundsOfNumber : type ≠ .int ∧ type ≠ .float → minimum = none ∧ maximum = none := by decide
  lengthOfString : type ≠ .string → minLength = none ∧ maxLength = none := by decide

/-- `FrontmatterSchemaConfig`; the fields are the entries of a dictionary. -/
structure FrontmatterSchemaConfig where
  enabled : Bool := false
  mode : ValidationMode := .lenient
  allowExtraFields : Bool := true
  schema : List (Text × FieldSchema) := []
  distinct : (schema.map Prod.fst).Nodup := by decide

/-! ### Coercion -/

/-- Exceptions that no handler of the validator expects. -/
inductive Uncaught where
  | attributeError
  | overflowError
  | patternError
  | recursionError
  deriving DecidableEq

/-- How a coercion fails: with a `ValueError`, or otherwise. -/
inductive CoercionFault where
  | invalid (message : Text)
  | uncaught (fault : Uncaught)
  deriving DecidableEq

/-- The coerced value with the warning, if there is one. -/
abbrev CoercionOutcome := Except CoercionFault (Value × Option Text)

/-- The outcome is a value or a `ValueError`. -/
def Contained {result : Type} (outcome : Except CoercionFault result) : Prop :=
  ∀ fault, outcome ≠ .error (.uncaught fault)

@[simp] theorem contained_ok {result : Type} (value : result) :
    Contained (.ok value : Except CoercionFault result) := by
  intro fault raised
  cases raised

@[simp] theorem contained_invalid {result : Type} (message : Text) :
    Contained (.error (.invalid message) : Except CoercionFault result) := by
  intro fault raised
  cases raised

@[simp] theorem not_contained_uncaught {result : Type} (fault : Uncaught) :
    ¬ Contained (.error (.uncaught fault) : Except CoercionFault result) :=
  fun contained => contained fault rfl

theorem contained_bind {first second : Type} (outcome : Except CoercionFault first)
    (next : first → Except CoercionFault second) :
    Contained (outcome >>= next) ↔
      Contained outcome ∧ ∀ value, outcome = .ok value → Contained (next value) := by
  cases outcome with
  | ok value =>
      constructor
      · intro contained
        refine ⟨contained_ok value, ?_⟩
        intro other same
        cases same
        exact contained
      · intro contained
        exact contained.2 value rfl
  | error fault =>
      cases fault with
      | invalid message =>
          constructor
          · intro _contained
            exact ⟨contained_invalid message, fun value impossible => nomatch impossible⟩
          · intro _contained
            exact contained_invalid message
      | uncaught reason =>
          constructor
          · intro contained
            exact absurd contained (not_contained_uncaught reason)
          · intro contained
            exact absurd contained.1 (not_contained_uncaught reason)

/-- What coercion takes from the language and the standard library. -/
structure Coercions where
  /-- `type(value).__name__` of an object that is `other` -/
  typeName : Value → Text
  /-- `bool(re.match(pattern, text))`, or `none` for a malformed pattern -/
  patternMatches : Text → Text → Option Bool
  /-- `coerce_int`, `coerce_float`, `coerce_date`, `coerce_datetime`, `coerce_uuid`,
  `coerce_url` and `coerce_list` -/
  parsed : FieldType → FieldSchema → Value → CoercionOutcome

/-- `type(value).__name__` -/
def Coercions.nameOf (coercions : Coercions) : Value → Text
  | .null => "NoneType".toList
  | .bool _ => "bool".toList
  | .int _ => "int".toList
  | .str _ => "str".toList
  | .list _ => "list".toList
  | .map _ => "dict".toList
  | .other truthy printed => coercions.typeName (.other truthy printed)

def natText (number : Nat) : Text :=
  (toString number).toList

/-- The `ValueError` of an integer with too many digits. -/
def tooManyDigits : CoercionFault :=
  .invalid ("Exceeds the limit (4300 digits) for integer string conversion; ".toList ++
    "use sys.set_int_max_str_digits() to increase the limit".toList)

/-- `str(value)` inside a coercion. -/
def coercedText (env : Env) (value : Value) : Except CoercionFault Text :=
  match pyStr env value with
  | .ok shown => .ok shown
  | .error .recursionError => .error (.uncaught .recursionError)
  | .error _ => .error tooManyDigits

/-- An integer inside a message. -/
def shownInt (number : Int) : Except CoercionFault Text :=
  match printInt number with
  | .ok shown => .ok shown
  | .error _ => .error tooManyDigits

def checkString (coercions : Coercions) (schema : FieldSchema) (result : Text) :
    Except CoercionFault Unit :=
  if schema.minLength.any (fun least => result.length < least) then
    .error (.invalid ("String is too short: ".toList ++ natText result.length ++ " < ".toList ++
      natText (schema.minLength.getD 0)))
  else if schema.maxLength.any (fun most => most < result.length) then
    .error (.invalid ("String is too long: ".toList ++ natText result.length ++ " > ".toList ++
      natText (schema.maxLength.getD 0)))
  else
    match schema.pattern with
    | none => .ok ()
    | some pattern =>
        match coercions.patternMatches pattern result with
        | none => .error (.uncaught .patternError)
        | some true => .ok ()
        | some false => .error (.invalid ("String does not match pattern: ".toList ++ pattern))

def coerceString (env : Env) (coercions : Coercions) (schema : FieldSchema) (value : Value) :
    CoercionOutcome := do
  let result ← coercedText env value
  checkString coercions schema result
  match value with
  | .str _ => return (.str result, none)
  | _ =>
      return (.str result,
        some ("Converted from ".toList ++ coercions.nameOf value ++ " to string".toList))

def truthyWords : List Text :=
  ["true".toList, "yes".toList, "1".toList, "on".toList, "sim".toList, "verdadeiro".toList]

def falsyWords : List Text :=
  ["false".toList, "no".toList, "0".toList, "off".toList, "nao".toList, "não".toList,
    "falso".toList]

def coerceBool (env : Env) (coercions : Coercions) (value : Value) : CoercionOutcome :=
  match value with
  | .bool _ => .ok (value, none)
  | .int number => do
      let shown := "Int ".toList ++ (← shownInt number)
      if number = 0 ∨ number = 1 then
        return (.bool (number = 1), some (shown ++ " converted to bool".toList))
      else throw (.invalid (shown ++ " cannot be converted to bool (use 0 or 1)".toList))
  | .str text =>
      let valueLower := env.lower (Text.strip text)
      let shown := "String '".toList ++ text
      if truthyWords.contains valueLower then
        .ok (.bool true, some (shown ++ "' converted to True".toList))
      else if falsyWords.contains valueLower then
        .ok (.bool false, some (shown ++ "' converted to False".toList))
      else
        .error (.invalid (shown ++ "' cannot be converted to bool. ".toList ++
          "Use true/false, yes/no, sim/não, or 1/0".toList))
  | _ =>
      .error (.invalid ("Type ".toList ++ coercions.nameOf value ++
        " cannot be converted to bool".toList))

/-- `f"Value '{value}' is not in the allowed value list: {schema.values}"` -/
def notAllowed (env : Env) (schema : FieldSchema) (value : Text) : CoercionFault :=
  .invalid ("Value '".toList ++ value ++ "' is not in the allowed value list: [".toList ++
    Text.join ", ".toList (schema.values.map env.reprText) ++ "]".toList)

def coerceEnum (env : Env) (coercions : Coercions) (schema : FieldSchema) (value : Value) :
    CoercionOutcome :=
  if schema.values.isEmpty then .error (.invalid "Enum schema has no 'values' definition".toList)
  else do
    let shown ← coercedText env value
    let warning :=
      match value with
      | .str _ => none
      | _ =>
          some ("Converted from ".toList ++ coercions.nameOf value ++
            " to string for enum comparison".toList)
    let stripped := Text.strip shown
    if schema.caseInsensitive then
      match schema.values.find? (fun allowed => env.lower allowed = env.lower stripped) with
      | none => throw (notAllowed env schema stripped)
      | some allowed =>
          if allowed = stripped then return (.str allowed, warning)
          else
            return (.str allowed, some ("Enum normalized from '".toList ++ stripped ++
              "' to '".toList ++ allowed ++ "'".toList))
    else if schema.values.contains stripped then return (.str stripped, warning)
    else throw (notAllowed env schema stripped)

def coerceValue (env : Env) (coercions : Coercions) (schema : FieldSchema) (value : Value) :
    CoercionOutcome :=
  match schema.type with
  | .string => coerceString env coercions schema value
  | .bool => coerceBool env coercions value
  | .enum => coerceEnum env coercions schema value
  | other => coercions.parsed other schema value

end VaultSearch
