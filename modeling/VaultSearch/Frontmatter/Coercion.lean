/-
The coercions to numbers, dates, UUIDs, URLs and lists of `frontmatter/coercion.py`.

The parsers they call belong to the standard library and are a parameter, each with the
exceptions it documents.  What the coercions do with the results is written out here, with
the warning or the message of the `ValueError`.
-/

import VaultSearch.Frontmatter.Validator

set_option autoImplicit false

namespace VaultSearch

/-- A `float` with its `repr`. -/
structure FloatObject where
  number : PyFloat
  shown : Text

def FloatObject.value (object : FloatObject) : Value :=
  .other (object.number ≠ .finite 0) (some (object.shown, object.shown))

/-- What the coercions see in an object that is `other`. -/
inductive ObjectView where
  | float (object : FloatObject)
  | date (iso : Text)
  /-- a `datetime`, also with its date -/
  | datetime (iso dateIso : Text)
  /-- a tuple or a set -/
  | collection (items : List Value)
  | unknown

/-- The standard library, as far as the coercions call it. -/
structure StandardLibrary where
  /-- `type(value).__name__` of an object that is `other` -/
  typeName : Value → Text
  /-- `bool(re.match(pattern, text))`, or `none` for a malformed pattern -/
  patternMatches : Text → Text → Option Bool
  /-- an object that is `other`, from its truth value and what is printed for it -/
  view : Bool → Option (Text × Text) → ObjectView
  /-- `repr` of a float -/
  floatText : PyFloat → Text
  /-- `int(text)`, or the message of its `ValueError` -/
  parseInt : Text → Except Text Int
  /-- `float(text)`, or the message of its `ValueError` -/
  parseFloat : Text → Except Text FloatObject
  /-- `date.fromisoformat(text).isoformat()`, or `none` for a `ValueError` -/
  parseDate : Text → Option Text
  /-- `datetime.fromisoformat(text).isoformat()`, or `none` for a `ValueError` -/
  parseDatetime : Text → Option Text
  /-- `str(uuid.UUID(text))`, or `none` for a `ValueError` -/
  parseUuid : Text → Option Text
  /-- scheme and netloc of `urlparse(text)`, or the message of its `ValueError` -/
  parseUrl : Text → Except Text (Text × Text)

namespace StandardLibrary

variable (library : StandardLibrary) (env : Env)

/-- The view of any value; the other kinds are not objects of these types. -/
def viewOf : Value → ObjectView
  | .other truthy printed => library.view truthy printed
  | _ => .unknown

/-- `float(value)` of an integer. -/
def floatOfInt (value : Int) : Option FloatObject :=
  (PyFloat.ofInt value).map (fun number => { number, shown := library.floatText number })

/-- `type(value).__name__` -/
def nameOf (value : Value) : Text :=
  ({ typeName := library.typeName
     patternMatches := library.patternMatches
     parsed := fun _type _schema given => .ok (given, none) } : Coercions).nameOf value

/-- `f"Type {type(value).__name__} cannot be converted to {goal}"` -/
def wrongType (value : Value) (goal : Text) : CoercionFault :=
  .invalid ("Type ".toList ++ library.nameOf value ++ " cannot be converted to ".toList ++ goal)

/-! ### Numbers -/

/-- The `ValueError` of a constraint, with the text of the result. -/
def outOfBounds (shown : Except CoercionFault Text) (relation : Text) (bound : PyFloat) :
    Except CoercionFault Unit := do
  throw (.invalid ("Value ".toList ++ (← shown) ++ relation ++ library.floatText bound))

def checkMinimum (minimum : Option PyFloat) (number : PyFloat)
    (shown : Except CoercionFault Text) : Except CoercionFault Unit :=
  match minimum with
  | some bound =>
      if number.lt bound then library.outOfBounds shown " is below minimum ".toList bound
      else .ok ()
  | none => .ok ()

def checkMaximum (maximum : Option PyFloat) (number : PyFloat)
    (shown : Except CoercionFault Text) : Except CoercionFault Unit :=
  match maximum with
  | some bound =>
      if bound.lt number then library.outOfBounds shown " is above maximum ".toList bound
      else .ok ()
  | none => .ok ()

/-- The numeric constraints. -/
def checkNumber (schema : FieldSchema) (number : PyFloat) (shown : Except CoercionFault Text) :
    Except CoercionFault Unit := do
  library.checkMinimum schema.minimum number shown
  library.checkMaximum schema.maximum number shown

def nanToInt : Text := "NaN cannot be converted to int".toList

def infinityToInt : Text := "Infinity cannot be converted to int".toList

/-- The branch of `coerce_int` for a stripped string: first `int`, then `float` cut off. -/
def intOfText (text : Text) : Except CoercionFault (Int × Option Text) :=
  let failed := fun (reason : Text) =>
    CoercionFault.invalid ("Cannot convert '".toList ++ text ++ "' to int: ".toList ++ reason)
  match library.parseInt text with
  | .ok number => .ok (number, none)
  | .error _ =>
      match library.parseFloat text with
      | .error reason => .error (failed reason)
      | .ok object =>
          match object.number with
          | .nan => .error (failed nanToInt)
          | .infinite _ => .error (failed infinityToInt)
          | .finite value =>
              -- a float has too few digits for `str` to refuse
              .ok (PyFloat.truncate value,
                some ("String '".toList ++ text ++ "' converted to int ".toList ++
                  (toString (PyFloat.truncate value)).toList))

def intOf (value : Value) : Except CoercionFault (Int × Option Text) :=
  match value with
  | .bool flag => .ok (if flag then 1 else 0, some "Converted from bool to int".toList)
  | .int number => .ok (number, none)
  | .str text => library.intOfText (Text.strip text)
  | _ =>
      match library.viewOf value with
      | .float object =>
          match object.number with
          | .nan => .error (.invalid nanToInt)
          | .infinite _ => .error (.invalid infinityToInt)
          | .finite exactly =>
              let result := PyFloat.truncate exactly
              if exactly ≠ result then
                .ok (result, some ("Float truncated from ".toList ++ object.shown ++
                  " to ".toList ++ (toString result).toList))
              else .ok (result, none)
      | _ => .error (library.wrongType value "int".toList)

def coerceInt (schema : FieldSchema) (value : Value) : CoercionOutcome := do
  let (result, warning) ← library.intOf value
  library.checkNumber schema (PyFloat.exact result) (shownInt result)
  return (.int result, warning)

def nanAsFloat : Text := "NaN is not a valid frontmatter float".toList

def infinityAsFloat : Text := "Infinity is not a valid frontmatter float".toList

/-- Why a float is refused. -/
def floatRefusal (number : PyFloat) : Option Text :=
  match number with
  | .nan => some nanAsFloat
  | .infinite _ => some infinityAsFloat
  | .finite _ => none

/-- The branch of `coerce_float` for a stripped string. -/
def floatOfText (text : Text) : Except CoercionFault (FloatObject × Option Text) :=
  let failed := fun (reason : Text) =>
    CoercionFault.invalid ("Cannot convert '".toList ++ text ++ "' to float: ".toList ++ reason)
  match library.parseFloat text with
  | .error reason => .error (failed reason)
  | .ok object =>
      match floatRefusal object.number with
      | some reason => .error (failed reason)
      | none => .ok (object, some ("String '".toList ++ text ++ "' converted to float".toList))

/-- `1.0 if value else 0.0` -/
def floatOfBool (flag : Bool) : FloatObject :=
  let number : PyFloat := .finite (if flag then 1 else 0)
  { number, shown := library.floatText number }

def floatOf (value : Value) : Except CoercionFault (FloatObject × Option Text) :=
  match value with
  | .bool flag => .ok (library.floatOfBool flag, some "Converted from bool to float".toList)
  | .int number =>
      match library.floatOfInt number with
      | some object => .ok (object, none)
      | none => .error (.uncaught .overflowError)
  | .str text => library.floatOfText (Text.strip text)
  | _ =>
      match library.viewOf value with
      | .float object =>
          match floatRefusal object.number with
          | some reason => .error (.invalid reason)
          | none => .ok (object, none)
      | _ => .error (library.wrongType value "float".toList)

def coerceFloat (schema : FieldSchema) (value : Value) : CoercionOutcome := do
  let (result, warning) ← library.floatOf value
  library.checkNumber schema result.number (.ok result.shown)
  return (result.value, warning)

/-! ### Dates, UUIDs and URLs -/

def coerceDate (value : Value) : CoercionOutcome :=
  match value with
  | .str given =>
      let text := Text.strip given
      match library.parseDate (text.take 10) with
      | none =>
          .error (.invalid ("String '".toList ++ text ++
            "' is not a valid date. Use YYYY-MM-DD".toList))
      | some result =>
          let change := "' to '".toList ++ result ++ "'".toList
          .ok (.str result,
            if 10 < text.length then
              some ("Date truncated from '".toList ++ text ++ change ++
                " (extra content ignored)".toList)
            else if text ≠ result then
              some ("Date normalized from '".toList ++ text ++ change)
            else none)
  | _ =>
      match library.viewOf value with
      | .date iso => .ok (.str iso, none)
      | .datetime _ dateIso => .ok (.str dateIso, some "Datetime truncated to date".toList)
      | _ => .error (library.wrongType value "date".toList)

/-- `datetime.combine(value, datetime.min.time()).isoformat()` -/
def atMidnight (dateIso : Text) : Text :=
  dateIso ++ "T00:00:00".toList

def coerceDatetime (value : Value) : CoercionOutcome :=
  match value with
  | .str given =>
      let text := Text.strip given
      match library.parseDatetime text with
      | some result => .ok (.str result, none)
      | none =>
          match library.parseDate (text.take 10) with
          | some dateIso =>
              .ok (.str (atMidnight dateIso),
                some ("String '".toList ++ text ++
                  "' interpreted as a date and expanded to datetime".toList))
          | none =>
              .error (.invalid ("String '".toList ++ text ++ "' is not a valid datetime. ".toList ++
                "Use ISO format (YYYY-MM-DDTHH:MM:SS)".toList))
  | _ =>
      match library.viewOf value with
      | .datetime iso _ => .ok (.str iso, none)
      | .date iso =>
          .ok (.str (atMidnight iso), some "Date expanded to datetime at 00:00:00".toList)
      | _ => .error (library.wrongType value "datetime".toList)

def coerceUuid (value : Value) : CoercionOutcome :=
  match value with
  | .str given =>
      let text := Text.strip given
      match library.parseUuid text with
      | none => .error (.invalid ("String '".toList ++ text ++ "' is not a valid UUID".toList))
      | some result =>
          .ok (.str result,
            if env.lower text ≠ result then
              some ("UUID normalized from '".toList ++ text ++ "' to '".toList ++ result ++
                "'".toList)
            else none)
  | _ => .error (library.wrongType value "UUID".toList)

def coerceUrl (value : Value) : CoercionOutcome :=
  match value with
  | .str given =>
      let text := Text.strip given
      let about := "URL '".toList ++ text
      match library.parseUrl text with
      | .error reason => .error (.invalid reason)
      | .ok (scheme, netloc) =>
          if scheme.isEmpty then
            .error (.invalid (about ++ "' has no scheme (http/https)".toList))
          else if scheme ≠ "http".toList ∧ scheme ≠ "https".toList then
            .error (.invalid (about ++ "' has invalid scheme '".toList ++ scheme ++
              "'. Use http or https".toList))
          else if netloc.isEmpty then .error (.invalid (about ++ "' has no domain".toList))
          else .ok (.str text, none)
  | _ => .error (library.wrongType value "URL".toList)

/-! ### Lists -/

/-- The container as a list, with the warnings about it. -/
def listItems (value : Value) : Except CoercionFault (List Value × List Text) :=
  match value with
  | .list items => .ok (items, [])
  | .str text =>
      let items := ((Text.split ",".toList text).map Text.strip).filter (fun item => !item.isEmpty)
      .ok (items.map Value.str,
        ["String converted to a list with ".toList ++ natText items.length ++ " items".toList])
  | _ =>
      match library.viewOf value with
      | .collection items =>
          .ok (items, ["Converted from ".toList ++ library.nameOf value ++ " to list".toList])
      | _ => .error (library.wrongType value "a list".toList)

def itemToInt (item : Value) : Except CoercionFault Value :=
  match item with
  | .bool flag => .ok (.int (if flag then 1 else 0))
  | .int number => .ok (.int number)
  | .str text =>
      match library.parseInt (Text.strip text) with
      | .ok number => .ok (.int number)
      | .error reason => .error (.invalid reason)
  | _ =>
      match library.viewOf item with
      | .float object =>
          match object.number with
          | .nan => .error (.invalid "cannot convert float NaN to integer".toList)
          | .infinite _ => .error (.uncaught .overflowError)
          | .finite exactly => .ok (.int (PyFloat.truncate exactly))
      | _ => .error (.invalid "Cannot convert to int".toList)

def itemToFloat (item : Value) : Except CoercionFault Value :=
  match item with
  | .bool flag => .ok (library.floatOfBool flag).value
  | .int number =>
      match library.floatOfInt number with
      | some object => .ok object.value
      | none => .error (.uncaught .overflowError)
  | .str text =>
      match library.parseFloat (Text.strip text) with
      | .ok object => .ok object.value
      | .error reason => .error (.invalid reason)
  | _ =>
      match library.viewOf item with
      | .float object => .ok object.value
      | _ => .error (.invalid "Cannot convert to float".toList)

def convertItem (type : ItemType) (item : Value) : Except CoercionFault Value :=
  match type with
  | .string => (coercedText env item).map Value.str
  | .int => library.itemToInt item
  | .float => library.itemToFloat item

/-- The loop over the items, from the item with this index on. -/
def convertItems (type : ItemType) : Nat → List Value → Except CoercionFault (List Value)
  | _, [] => .ok []
  | index, item :: rest =>
      match library.convertItem env type item with
      | .ok converted => (convertItems type (index + 1) rest).map (converted :: ·)
      | .error (.invalid reason) =>
          .error (.invalid ("List item ".toList ++ natText index ++
            " cannot be converted to ".toList ++ type.label ++ ": ".toList ++ reason))
      | .error (.uncaught fault) => .error (.uncaught fault)

def checkCount (schema : FieldSchema) (count : Nat) : Except CoercionFault Unit :=
  let has := "List has ".toList ++ natText count ++ " items; ".toList
  if schema.minItems.any (fun least => count < least) then
    .error (.invalid (has ++ "minimum is ".toList ++ natText (schema.minItems.getD 0)))
  else if schema.maxItems.any (fun most => most < count) then
    .error (.invalid (has ++ "maximum is ".toList ++ natText (schema.maxItems.getD 0)))
  else .ok ()

def coerceList (schema : FieldSchema) (value : Value) : CoercionOutcome := do
  let (items, warnings) ← library.listItems value
  let result ← library.convertItems env (schema.itemType.getD .string) 0 items
  checkCount schema result.length
  return (.list result,
    if warnings.isEmpty then none else some (Text.join "; ".toList warnings))

/-! ### `coerce_value` -/

/-- The coercions over this library. -/
def coercions : Coercions :=
  { typeName := library.typeName
    patternMatches := library.patternMatches
    parsed := fun type schema value =>
      match type with
      | .int => library.coerceInt schema value
      | .float => library.coerceFloat schema value
      | .date => library.coerceDate value
      | .datetime => library.coerceDatetime value
      | .uuid => library.coerceUuid env value
      | .url => library.coerceUrl value
      | .list => library.coerceList env schema value
      | other => .error (.invalid ("Unsupported type '".toList ++ other.label ++ "'".toList)) }

/-- `COERCION_FUNCTIONS[type]` -/
def coercionFunction (type : FieldType) (schema : FieldSchema) (value : Value) :
    CoercionOutcome :=
  match type with
  | .string => coerceString env (library.coercions env) schema value
  | .bool => coerceBool env (library.coercions env) value
  | .enum => coerceEnum env (library.coercions env) schema value
  | other => (library.coercions env).parsed other schema value

theorem coerceValue_eq (schema : FieldSchema) (value : Value) :
    coerceValue env (library.coercions env) schema value =
      library.coercionFunction env schema.type schema value :=
  rfl

/-- `FrontmatterValidator(config)` -/
def validator (config : FrontmatterSchemaConfig) (generated : Text → Value) :
    FrontmatterValidator :=
  { config
    lower := env.lower
    coerce := coerceValue env (library.coercions env)
    generated }

end StandardLibrary

end VaultSearch
