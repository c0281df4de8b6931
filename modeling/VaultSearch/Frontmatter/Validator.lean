/-
`FrontmatterValidator` of `frontmatter/validator.py`.

The fields are first brought under their canonical names, then every field of the schema is
coerced or, where it is missing, handled as the schema asks, and the remaining fields are
kept or refused.  The loops are folds whose state is what has been found so far.
-/

import VaultSearch.Frontmatter.Schema

set_option autoImplicit false

namespace VaultSearch

/-- An error, a warning or a suggestion. -/
structure ValidationError where
  field : Text
  message : Text
  code : Text
  value : Value

structure ValidationResult where
  valid : Bool
  errors : List ValidationError
  warnings : List ValidationError
  suggestions : List ValidationError
  autoGenerated : Mapping
  validatedData : Mapping

/-- The validator: its configuration and what it calls. -/
structure FrontmatterValidator where
  config : FrontmatterSchemaConfig
  /-- `str.lower` -/
  lower : Text → Text
  /-- `coerce_value` -/
  coerce : FieldSchema → Value → CoercionOutcome
  /-- `generate_uuid7()` or `datetime.now().isoformat()`, as called for a field -/
  generated : Text → Value

namespace FrontmatterValidator

variable (validator : FrontmatterValidator)

/-! ### Canonical names -/

/-- `_build_alias_map` -/
def aliasMap : List (Text × Text) :=
  validator.config.schema.foldl
    (fun map entry =>
      entry.2.aliases.foldl
        (fun extended accepted => OrderedDict.set extended (validator.lower accepted) entry.1)
        (OrderedDict.set map (validator.lower entry.1) entry.1))
    []

structure Resolution where
  resolved : Mapping := []
  usedAliases : List (Text × Text) := []
  conflicts : List (Text × Text × Value) := []

/-- One pass of the loop of `_resolve_aliases` over a field with a string as its key. -/
def resolveField (so : Resolution) (name : Text) (value : Value) : Resolution :=
  let keyLower := validator.lower name
  match validator.aliasMap.lookup keyLower with
  | some canonical =>
      if (so.resolved.lookup (.text canonical)).isNone then
        { so with
          resolved := OrderedDict.set so.resolved (.text canonical) value
          usedAliases :=
            if keyLower != validator.lower canonical then
              OrderedDict.set so.usedAliases name canonical
            else so.usedAliases }
      else if keyLower != validator.lower canonical then
        { so with conflicts := so.conflicts ++ [(name, canonical, value)] }
      else so
  | none => { so with resolved := OrderedDict.set so.resolved (.text name) value }

/-- An object of type `bytes`, which is known by its `repr`. -/
def isBytes (identity : Text) : Bool :=
  Text.startsWith identity "b'".toList || Text.startsWith identity "b\"".toList

/-- `_resolve_aliases`; of the other keys only `bytes` have a `lower`, which is no name. -/
def resolveAliases : Resolution → Mapping → Except Uncaught Resolution
  | so, [] => .ok so
  | so, (.text name, value) :: rest => resolveAliases (validator.resolveField so name value) rest
  | so, (.other identity, value) :: rest =>
      if isBytes identity then
        resolveAliases { so with resolved := OrderedDict.set so.resolved (.other identity) value }
          rest
      else .error .attributeError

/-! ### The fields of the schema -/

/-- What the loops of `validate` have collected. -/
structure Findings where
  errors : List ValidationError := []
  warnings : List ValidationError := []
  suggestions : List ValidationError := []
  autoGenerated : Mapping := []
  validatedData : Mapping := []

/-- `_auto_generate`, with the message of its `ValueError`. -/
def autoGenerate (fieldName : Text) (schema : FieldSchema) : Except Text Value :=
  if schema.type = .uuid ∨ schema.type = .datetime then .ok (validator.generated fieldName)
  else .error ("Automatic generation is not supported for '".toList ++ schema.type.label ++
    "'".toList)

/-- A field that is present. -/
def validatePresent (found : Findings) (fieldName : Text) (schema : FieldSchema) (value : Value) :
    Except Uncaught Findings :=
  match validator.coerce schema value with
  | .ok (coerced, warning) =>
      .ok { found with
        validatedData := OrderedDict.set found.validatedData (.text fieldName) coerced
        warnings := found.warnings ++ (warning.toList.filter (fun message => !message.isEmpty)).map
          (fun message =>
            { field := fieldName, message, code := "coercion_warning".toList, value }) }
  | .error (.invalid message) =>
      .ok { found with
        errors := found.errors ++
          [{ field := fieldName, message, code := "validation_error".toList, value }] }
  | .error (.uncaught fault) => .error fault

/-- `field_schema.default`, unless it is `None`. -/
def givenDefault (schema : FieldSchema) : Option Value :=
  match schema.default with
  | .null => none
  | preset => some preset

/-- A field that is missing. -/
def validateMissing (found : Findings) (fieldName : Text) (schema : FieldSchema) : Findings :=
  match schema.onMissing with
  | .require =>
      { found with
        errors := found.errors ++
          [{ field := fieldName
             message := "Required field '".toList ++ fieldName ++ "' is missing".toList
             code := "required_missing".toList
             value := .null }] }
  | .auto =>
      match validator.autoGenerate fieldName schema with
      | .ok generated =>
          { found with
            autoGenerated := OrderedDict.set found.autoGenerated (.text fieldName) generated
            validatedData := OrderedDict.set found.validatedData (.text fieldName) generated }
      | .error reason =>
          { found with
            errors := found.errors ++
              [{ field := fieldName
                 message := "Failed to generate a value automatically: ".toList ++ reason
                 code := "auto_generate_failed".toList
                 value := .null }] }
  | .suggest =>
      let suggestion : ValidationError :=
        { field := fieldName
          message := "Suggestion: add field '".toList ++ fieldName ++ "' (type: ".toList ++
            schema.type.label ++ ")".toList
          code := "field_suggested".toList
          value := schema.default }
      match givenDefault schema with
      | none => { found with suggestions := found.suggestions ++ [suggestion] }
      | some preset =>
          { found with
            suggestions := found.suggestions ++ [suggestion]
            validatedData := OrderedDict.set found.validatedData (.text fieldName) preset }
  | .ignore => found

def validateField (data : Mapping) (found : Findings) (entry : Text × FieldSchema) :
    Except Uncaught Findings :=
  match data.lookup (.text entry.1) with
  | some value => validator.validatePresent found entry.1 entry.2 value
  | none => .ok (validator.validateMissing found entry.1 entry.2)

/-- The name a message gives a key. -/
def keyText : Key → Text
  | .text name => name
  | .other identity => identity

def inSchema (key : Key) : Bool :=
  validator.config.schema.any (fun entry => Key.text entry.1 = key)

/-- A field that is not in the schema. -/
def validateExtra (found : Findings) (entry : Key × Value) : Findings :=
  if validator.inSchema entry.1 || (found.validatedData.lookup entry.1).isSome then found
  else if validator.config.allowExtraFields then
    { found with validatedData := OrderedDict.set found.validatedData entry.1 entry.2 }
  else
    { found with
      errors := found.errors ++
        [{ field := keyText entry.1
           message := "Field '".toList ++ keyText entry.1 ++ "' is not allowed by the schema".toList
           code := "extra_field_not_allowed".toList
           value := entry.2 }] }

/-! ### `validate` -/

def aliasWarnings (so : Resolution) : List ValidationError :=
  so.usedAliases.map (fun used =>
    { field := used.2
      message := "Alias '".toList ++ used.1 ++ "' resolved to '".toList ++ used.2 ++ "'".toList
      code := "alias_resolved".toList
      value := .str used.1 }) ++
  so.conflicts.map (fun conflict =>
    { field := conflict.2.1
      message := "Conflict: alias '".toList ++ conflict.1 ++
        "' was ignored because field '".toList ++ conflict.2.1 ++ "' is already present".toList
      code := "alias_conflict".toList
      value := conflict.2.2 })

/-- Validity from the mode; `warn_only` makes every error a warning. -/
def conclude (found : Findings) : ValidationResult :=
  match validator.config.mode with
  | .warnOnly =>
      { valid := true
        errors := []
        warnings := found.warnings ++ found.errors
        suggestions := found.suggestions
        autoGenerated := found.autoGenerated
        validatedData := found.validatedData }
  | _ =>
      { valid := found.errors.isEmpty
        errors := found.errors
        warnings := found.warnings
        suggestions := found.suggestions
        autoGenerated := found.autoGenerated
        validatedData := found.validatedData }

def validate (frontmatter : Mapping) : Except Uncaught ValidationResult :=
  if !validator.config.enabled then
    .ok
      { valid := true
        errors := []
        warnings := []
        suggestions := []
        autoGenerated := []
        validatedData := frontmatter }
  else do
    let so ← validator.resolveAliases {} frontmatter
    let found ← validator.config.schema.foldlM (validator.validateField so.resolved)
      { warnings := aliasWarnings so }
    return validator.conclude (so.resolved.foldl validator.validateExtra found)

end FrontmatterValidator

end VaultSearch
