/-
Whether validated data conforms to the schema, and is accepted again without a change.

Coerced and generated values do and are.  Defaults are written without a coercion, the items
of a list of floats are not checked, and a field whose name stands for another field is taken
for that one the next time.
-/

import VaultSearch.Frontmatter.CoercionFaults
import VaultSearch.Frontmatter.Revalidation

set_option autoImplicit false

namespace VaultSearch

/-- What `generate_uuid7()` and `datetime.now().isoformat()` give when they are called for a
field: a UUID and a time, as they are printed. -/
structure Generator (library : StandardLibrary) where
  uuid : Text → Text
  now : Text → Text
  uuid_printed : ∀ field, library.parseUuid (uuid field) = some (uuid field)
  now_printed : ∀ field, library.parseDatetime (now field) = some (now field)

/-- The branches of `_auto_generate`. -/
def Generator.generated {library : StandardLibrary} (generator : Generator library)
    (config : FrontmatterSchemaConfig) (fieldName : Text) : Value :=
  match FrontmatterValidator.schemaOf config.schema (.text fieldName) with
  | some (_, schema) =>
      if schema.type = .uuid then .str (generator.uuid fieldName)
      else .str (generator.now fieldName)
  | none => .null

/-- A validation in strict or lenient mode that reports valid. -/
structure ValidRun {env : Env} (library : DocumentedLibrary env) where
  config : FrontmatterSchemaConfig
  reports : config.mode ≠ .warnOnly
  generator : Generator library.toStandardLibrary
  data : Dictionary
  result : ValidationResult
  done : (library.validator env config (generator.generated config)).validate data.entries =
    .ok result
  valid : result.valid = true

namespace ValidRun

variable {env : Env} {library : DocumentedLibrary env}

def validator (run : ValidRun library) : FrontmatterValidator :=
  library.validator env run.config (run.generator.generated run.config)

/-- The value given for a field, under any of its names. -/
def given (run : ValidRun library) (field : Text × FieldSchema) : Option Value :=
  run.validator.keptValue run.data.entries (.text field.1)

/-- The fields of the schema conform, and those that are required are there. -/
structure FieldsConform (run : ValidRun library) (data : Mapping) : Prop where
  conforms : ∀ field ∈ run.config.schema, ∀ value, data.lookup (.text field.1) = some value →
    library.Conforms field.2 value
  required : ∀ field ∈ run.config.schema, field.2.onMissing = .require →
    (data.lookup (.text field.1)).isSome = true

/-- The validated data conforms, and whenever it is validated again it is valid and comes back
unchanged. -/
structure Sound (run : ValidRun library) : Prop extends
    run.FieldsConform run.result.validatedData where
  again : ∀ later : Generator library.toStandardLibrary,
    run.validator.ValidAgain (later.generated run.config) run.result

/-- The default that is written for a field. -/
def WritesDefault (run : ValidRun library) (field : Text × FieldSchema) (preset : Value) : Prop :=
  run.given field = none ∧ field.2.onMissing = .suggest ∧
    FrontmatterValidator.givenDefault field.2 = some preset

/-- When the enabled validation is sound. -/
structure Settled (run : ValidRun library) : Prop where
  /-- a default that is written conforms -/
  defaults : ∀ field ∈ run.config.schema, ∀ preset, run.WritesDefault field preset →
    library.Conforms field.2 preset
  /-- and is its own coercion -/
  fixed : ∀ field ∈ run.config.schema, ∀ preset, run.WritesDefault field preset →
    run.validator.standsFor run.data.entries field.1 = some field →
      ∃ warning, coerceValue env (library.coercions env) field.2 preset = .ok (preset, warning)
  /-- no list of floats is given an item that is not finite -/
  finite : ∀ field ∈ run.config.schema, ∀ value, run.given field = some value →
    library.FiniteItems field.2 value
  /-- where a field is taken for another, the values agree -/
  displaced : ∀ field ∈ run.config.schema,
    run.validator.standsFor run.data.entries field.1 ≠ some field →
      ∀ later : Generator library.toStandardLibrary,
        run.validator.FieldSettled (later.generated run.config) run.data.entries field

/-! ### What is written -/

theorem written_eq (run : ValidRun library) {field : Text × FieldSchema}
    (member : field ∈ run.config.schema) :
    run.validator.validatedValue run.data.entries (.text field.1) =
      run.validator.fieldValue (run.given field) field.1 field.2 := by
  unfold FrontmatterValidator.validatedValue
  rw [show FrontmatterValidator.schemaOf run.validator.config.schema (.text field.1) = some field
    from FrontmatterValidator.schemaOf_of_mem run.config.distinct member]
  rfl

theorem fieldClean (run : ValidRun library) (enabled : run.config.enabled = true)
    {field : Text × FieldSchema} (member : field ∈ run.config.schema) :
    run.validator.FieldClean (run.given field) field.2 := by
  have noErrors := (FrontmatterValidator.valid_iff_clean run.reports enabled run.done).mp run.valid
  exact ((FrontmatterValidator.clean_iff run.data.distinct enabled run.reports run.done).mp
    noErrors).fields field member

/-- A field that is generated has a printed UUID or a printed time. -/
theorem generated_eq (generator : Generator library.toStandardLibrary)
    (config : FrontmatterSchemaConfig) {field : Text × FieldSchema}
    (member : field ∈ config.schema) (auto : field.2.onMissing = .auto) :
    ∃ text, generator.generated config field.1 = .str text ∧
      ((field.2.type = .uuid ∧ library.parseUuid text = some text) ∨
        (field.2.type = .datetime ∧ library.parseDatetime text = some text)) := by
  unfold Generator.generated
  rw [FrontmatterValidator.schemaOf_of_mem config.distinct member]
  dsimp only
  by_cases isUuid : field.2.type = .uuid
  · rw [if_pos isUuid]
    exact ⟨_, rfl, Or.inl ⟨isUuid, generator.uuid_printed field.1⟩⟩
  · rw [if_neg isUuid]
    have isDatetime := (field.2.autoGenerates auto).resolve_left isUuid
    exact ⟨_, rfl, Or.inr ⟨isDatetime, generator.now_printed field.1⟩⟩

theorem lookup_validated (run : ValidRun library) (enabled : run.config.enabled = true)
    {field : Text × FieldSchema} (member : field ∈ run.config.schema) :
    run.result.validatedData.lookup (.text field.1) =
      run.validator.fieldValue (run.given field) field.1 field.2 := by
  rw [← run.written_eq member]
  exact FrontmatterValidator.lookup_validate run.data.distinct enabled run.done (.text field.1)

/-- A field is written as it was coerced, generated, or preset. -/
inductive Written (run : ValidRun library) (field : Text × FieldSchema) : Option Value → Prop where
  | coerced {value result : Value} {warning : Option Text} (isGiven : run.given field = some value)
      (done : coerceValue env (library.coercions env) field.2 value = .ok (result, warning)) :
      Written run field (some result)
  | generated {text : Text} (missing : run.given field = none)
      (printed : (field.2.type = .uuid ∧ library.parseUuid text = some text) ∨
        (field.2.type = .datetime ∧ library.parseDatetime text = some text)) :
      Written run field (some (.str text))
  | preset {value : Value} (isPreset : run.WritesDefault field value) :
      Written run field (some value)
  | absent (missing : run.given field = none) (optional : field.2.onMissing ≠ .require) :
      Written run field none

theorem written (run : ValidRun library) (enabled : run.config.enabled = true)
    {field : Text × FieldSchema} (member : field ∈ run.config.schema) :
    run.Written field (run.validator.fieldValue (run.given field) field.1 field.2) := by
  have clean := run.fieldClean enabled member
  unfold FrontmatterValidator.fieldValue
  cases isGiven : run.given field with
  | some value =>
      rw [isGiven] at clean
      obtain ⟨outcome, coerced⟩ := clean
      dsimp only
      rw [coerced]
      exact Written.coerced isGiven coerced
  | none =>
      rw [isGiven] at clean
      dsimp only
      unfold FrontmatterValidator.missingValue
      cases onMissing : field.2.onMissing with
      | require => exact absurd onMissing clean
      | ignore => exact Written.absent isGiven clean
      | auto =>
          dsimp only
          rw [FrontmatterValidator.autoGenerate_ok field.1 onMissing]
          obtain ⟨text, isText, printed⟩ := generated_eq run.generator run.config member onMissing
          rw [show run.validator.generated field.1 = .str text from isText]
          exact Written.generated isGiven printed
      | suggest =>
          dsimp only
          cases isPreset : FrontmatterValidator.givenDefault field.2 with
          | none => exact Written.absent isGiven clean
          | some preset => exact Written.preset ⟨isGiven, onMissing, isPreset⟩

/-- The default of a field that writes it. -/
theorem fieldValue_of_default (run : ValidRun library) {field : Text × FieldSchema}
    {preset : Value} (writes : run.WritesDefault field preset) :
    run.validator.fieldValue (run.given field) field.1 field.2 = some preset := by
  unfold FrontmatterValidator.fieldValue FrontmatterValidator.missingValue
  rw [writes.1]
  dsimp only
  rw [writes.2.1]
  exact writes.2.2

/-- A field that stands for itself is found again with the value it has. -/
theorem foundAgain_own (run : ValidRun library) {field : Text × FieldSchema}
    (member : field ∈ run.config.schema)
    (own : run.validator.standsFor run.data.entries field.1 = some field) :
    run.validator.foundAgain run.data.entries field.1 =
      run.validator.fieldValue (run.given field) field.1 field.2 := by
  unfold FrontmatterValidator.foundAgain
  rw [own, ← run.written_eq member]
  rfl

/-- The field is settled if its own coercion leaves its value as it is. -/
theorem settled_of_again (run : ValidRun library) {field : Text × FieldSchema}
    (member : field ∈ run.config.schema)
    (own : run.validator.standsFor run.data.entries field.1 = some field) {value : Value}
    (isValue : run.validator.fieldValue (run.given field) field.1 field.2 = some value)
    {warning : Option Text}
    (again : coerceValue env (library.coercions env) field.2 value = .ok (value, warning))
    (generated : Text → Value) :
    run.validator.FieldSettled generated run.data.entries field := by
  unfold FrontmatterValidator.FieldSettled
  rw [run.foundAgain_own member own, run.written_eq member, isValue]
  refine ⟨⟨(value, warning), again⟩, ?_⟩
  unfold FrontmatterValidator.fieldValue
  dsimp only
  rw [show (run.validator.later generated).coerce field.2 value = .ok (value, warning) from again]
  rfl

/-! ### Sound validations -/

theorem settled_of_sound (run : ValidRun library) (enabled : run.config.enabled = true)
    (sound : run.Sound) : run.Settled := by
  have fields := fun later : Generator library.toStandardLibrary =>
    (FrontmatterValidator.validAgain_iff run.data.distinct run.reports enabled run.done
      (later.generated run.config)).mp (sound.again later)
  constructor
  · intro field member preset writes
    apply sound.conforms field member
    rw [run.lookup_validated enabled member, run.fieldValue_of_default writes]
  · intro field member preset writes own
    obtain ⟨clean, same⟩ := fields run.generator field member
    rw [show (library.validator env run.config (run.generator.generated run.config)).foundAgain
        run.data.entries field.1 = some preset from
      (run.foundAgain_own member own).trans (run.fieldValue_of_default writes)] at clean same
    obtain ⟨outcome, coerced⟩ := clean
    rw [show (library.validator env run.config (run.generator.generated run.config)).validatedValue
        run.data.entries (.text field.1) = some preset from
      (run.written_eq member).trans (run.fieldValue_of_default writes)] at same
    unfold FrontmatterValidator.fieldValue at same
    dsimp only at same
    rw [show ((library.validator env run.config (run.generator.generated run.config)).later
        (run.generator.generated run.config)).coerce field.2 preset = .ok outcome from
      coerced] at same
    have whole : outcome = (preset, outcome.2) := Prod.ext (Option.some.inj same) rfl
    refine ⟨outcome.2, ?_⟩
    rw [← whole]
    exact coerced
  · intro field member value isGiven
    have clean := run.fieldClean enabled member
    rw [isGiven] at clean
    obtain ⟨outcome, coerced⟩ := clean
    rw [← DocumentedLibrary.conforms_iff_of_coerced coerced]
    apply sound.conforms field member
    rw [run.lookup_validated enabled member, isGiven]
    unfold FrontmatterValidator.fieldValue
    dsimp only
    rw [coerced]
    rfl
  · intro field member _displaced later
    exact fields later field member

theorem sound_of_settled (run : ValidRun library) (enabled : run.config.enabled = true)
    (settled : run.Settled) : run.Sound := by
  constructor
  · constructor
    · intro field member value isWritten
      rw [run.lookup_validated enabled member] at isWritten
      have origin := run.written enabled member
      rw [isWritten] at origin
      cases origin with
      | coerced isGiven done =>
          rw [DocumentedLibrary.conforms_iff_of_coerced done]
          exact settled.finite field member _ isGiven
      | generated missing printed => exact (DocumentedLibrary.generated_again printed).1
      | preset isPreset => exact settled.defaults field member value isPreset
    · intro field member isRequired
      rw [run.lookup_validated enabled member]
      have origin := run.written enabled member
      cases origin' : run.validator.fieldValue (run.given field) field.1 field.2 with
      | some value => rfl
      | none =>
          rw [origin'] at origin
          cases origin with
          | absent missing optional => exact absurd isRequired optional
  · intro later
    unfold validator
    rw [FrontmatterValidator.validAgain_iff run.data.distinct run.reports enabled run.done]
    intro field member
    by_cases own : run.validator.standsFor run.data.entries field.1 = some field
    · have present : (run.validator.fieldValue (run.given field) field.1 field.2).isSome =
          true := by
        rw [← run.written_eq member]
        unfold FrontmatterValidator.standsFor at own
        have holds := List.find?_some own
        exact ((Bool.and_eq_true _ _).mp holds).1
      have origin := run.written enabled member
      cases isValue : run.validator.fieldValue (run.given field) field.1 field.2 with
      | none =>
          rw [isValue] at present
          cases present
      | some value =>
          rw [isValue] at origin
          cases origin with
          | coerced isGiven done =>
              obtain ⟨warning, again⟩ := DocumentedLibrary.coerced_again done
              exact run.settled_of_again member own isValue again _
          | generated missing printed =>
              obtain ⟨warning, again⟩ := (DocumentedLibrary.generated_again printed).2
              exact run.settled_of_again member own isValue again _
          | preset isPreset =>
              obtain ⟨warning, again⟩ := settled.fixed field member value isPreset own
              exact run.settled_of_again member own isValue again _
    · exact settled.displaced field member own later

/-- A disabled validation returns the mapping as it is. -/
theorem sound_iff_disabled (run : ValidRun library) (disabled : run.config.enabled = false) :
    run.Sound ↔ run.FieldsConform run.data.entries := by
  have same : run.result.validatedData = run.data.entries := by
    have done := run.done
    unfold FrontmatterValidator.validate StandardLibrary.validator at done
    dsimp only at done
    rw [disabled, Bool.not_false, if_pos rfl] at done
    rw [← Except.ok.inj done]
  constructor
  · intro sound
    rw [← same]
    exact sound.toFieldsConform
  · intro conforming
    constructor
    · rw [same]
      exact conforming
    · intro later
      unfold FrontmatterValidator.ValidAgain FrontmatterValidator.validate
        FrontmatterValidator.later validator StandardLibrary.validator
      dsimp only
      rw [disabled, Bool.not_false, if_pos rfl]
      exact ⟨_, rfl, rfl, fun _key => rfl⟩

end ValidRun

/-- A valid result is sound exactly if the defaults conform and are their own coercions, the
items of float lists are finite, and no field is taken for another with a different value; where
validation is disabled, exactly if the mapping itself conforms. -/
theorem ValidRun.sound_iff {env : Env} {library : DocumentedLibrary env}
    (run : ValidRun library) :
    run.Sound ↔
      if run.config.enabled then run.Settled else run.FieldsConform run.data.entries := by
  cases enabled : run.config.enabled with
  | true =>
      rw [if_pos rfl]
      exact ⟨run.settled_of_sound enabled, run.sound_of_settled enabled⟩
  | false =>
      rw [if_neg Bool.false_ne_true]
      exact run.sound_iff_disabled enabled

/-! ### A default that is no integer -/

/-- Integral floats in strokes, for a library that parses nothing. -/
def strokes : PyFloat → Text
  | .finite value =>
      (if value.num < 0 then ['-'] else []) ++ List.replicate value.num.natAbs '1'
  | _ => []

def counted (shown : Text) : Int :=
  match shown with
  | '-' :: ones => -ones.length
  | ones => ones.length

theorem counted_strokes (number : Int) : counted (strokes (.finite number)) = number := by
  unfold strokes
  dsimp only
  rw [Rat.num_intCast]
  by_cases negative : number < 0
  · rw [if_pos negative]
    change -((List.replicate number.natAbs '1').length : Int) = number
    rw [List.length_replicate]
    omega
  · rw [if_neg negative]
    have ones : counted (List.replicate number.natAbs '1') = number.natAbs := by
      cases number.natAbs with
      | zero => rfl
      | succ count => simp [counted, List.replicate_succ]
    rw [List.nil_append, ones]
    omega

def countingView (truthy : Bool) (printed : Option (Text × Text)) : ObjectView :=
  match printed with
  | some (shown, again) =>
      if shown = again ∧ truthy = decide (PyFloat.finite (counted shown) ≠ .finite 0) then
        .float { number := .finite (counted shown), shown }
      else .unknown
  | none => .unknown

theorem countingView_float {truthy : Bool} {printed : Option (Text × Text)}
    {object : FloatObject} (view : countingView truthy printed = .float object) :
    object.value = .other truthy printed := by
  unfold countingView at view
  split at view
  · split at view
    case isTrue same =>
      cases view
      unfold FloatObject.value
      rw [same.2, ← same.1]
    case isFalse => cases view
  · cases view

theorem countingView_strokes (number : Int) :
    countingView (PyFloat.finite number ≠ .finite 0)
        (some (strokes (.finite number), strokes (.finite number))) =
      .float { number := .finite number, shown := strokes (.finite number) } := by
  unfold countingView
  dsimp only
  rw [counted_strokes, if_pos ⟨rfl, rfl⟩]

def someUuid : Text := "019c503c-08e7-707f-9441-f4e6c5d0dd61".toList

def someTime : Text := "2026-01-15T10:30:00".toList

/-- A parser that reads one text, which is printed as it is. -/
def parseOnly (known text : Text) : Option Text :=
  if text = known then some known else none

theorem parseOnly_some {known text result : Text} (parsed : parseOnly known text = some result) :
    result = known := by
  unfold parseOnly at parsed
  split at parsed
  · exact (Option.some.inj parsed).symm
  · cases parsed

theorem parseOnly_known (known : Text) : parseOnly known known = some known :=
  if_pos rfl

def uncasedEnv : Env :=
  { Env.plain with lower := fun text => text }

def countingLibrary : DocumentedLibrary uncasedEnv :=
  { typeName := fun _object => "float".toList
    patternMatches := fun _pattern _text => some true
    view := countingView
    floatText := strokes
    parseInt := fun _text => .error "invalid literal for int()".toList
    parseFloat := fun _text => .error "could not convert string to float".toList
    parseDate := fun _text => none
    parseDatetime := parseOnly someTime
    parseUuid := parseOnly someUuid
    parseUrl := fun _text => .ok ([], [])
    lower_strip := fun _text => rfl
    float_viewed := fun _truthy _printed _object view => countingView_float view
    float_parsed := by
      intro text object impossible
      cases impossible
    float_converted := by
      intro number object isFloat
      unfold StandardLibrary.floatOfInt at isFloat
      obtain ⟨rounded, isRounded, same⟩ := Option.map_eq_some_iff.mp isFloat
      obtain ⟨whole, isWhole⟩ := PyFloat.ofInt_whole isRounded
      rw [← same, isWhole]
      exact countingView_strokes whole
    float_truth := by
      intro flag
      cases flag with
      | true => exact countingView_strokes 1
      | false => exact countingView_strokes 0
    date_viewed := by
      intro truthy printed iso view
      unfold countingView at view
      split at view
      · split at view
        · cases view
        · cases view
      · cases view
    date_parsed := by
      intro text iso impossible
      cases impossible
    date_format := by
      intro iso impossible
      cases impossible
    datetime_viewed := by
      intro truthy printed iso dateIso view
      unfold countingView at view
      split at view
      · split at view
        · cases view
        · cases view
      · cases view
    datetime_parsed := by
      intro text iso parsed
      rw [parseOnly_some parsed]
      exact parseOnly_known someTime
    datetime_format := by
      intro iso parsed
      rw [parseOnly_some parsed]
      decide
    datetime_midnight := by
      intro iso impossible
      cases impossible
    uuid_parsed := by
      intro text result parsed
      rw [parseOnly_some parsed]
      exact parseOnly_known someUuid
    uuid_format := by
      intro result parsed
      rw [parseOnly_some parsed]
      decide }

def someGenerator : Generator countingLibrary.toStandardLibrary :=
  { uuid := fun _field => someUuid
    now := fun _field => someTime
    uuid_printed := fun _field => parseOnly_known someUuid
    now_printed := fun _field => parseOnly_known someTime }

/-- An integer with a default that is a string. -/
def priorityField : FieldSchema :=
  { type := .int, onMissing := .suggest, default := .str "high".toList }

/-- No field is given. -/
def highPriority : ValidRun countingLibrary :=
  { config :=
      { enabled := true
        mode := .strict
        schema := [("priority".toList, priorityField)] }
    reports := by decide
    generator := someGenerator
    data := { entries := [], distinct := List.nodup_nil }
    result :=
      { valid := true
        errors := []
        warnings := []
        suggestions :=
          [{ field := "priority".toList
             message := "Suggestion: add field 'priority' (type: int)".toList
             code := "field_suggested".toList
             value := .str "high".toList }]
        autoGenerated := []
        validatedData := [(.text "priority".toList, .str "high".toList)] }
    done := rfl
    valid := rfl }

/-- The default of the integer field is in the validated data as a string. -/
theorem highPriority_unsound : ¬ highPriority.Sound := by
  intro sound
  obtain ⟨number, isInt, _bounds⟩ := sound.conforms ("priority".toList, priorityField)
    (List.mem_singleton_self _) (.str "high".toList) rfl
  cases isInt

end VaultSearch
