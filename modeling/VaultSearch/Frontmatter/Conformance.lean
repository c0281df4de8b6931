/-
What it means for a value to conform to the schema of its field, and that coerced values do.

Every coercion is a projection: it leaves its own results as they are.  For the types whose
values are printed and parsed by the standard library this rests on the round trips it
documents.  The one result that does not conform is a list of floats with a NaN or an
infinity among its items.
-/

import VaultSearch.Frontmatter.Coercion

set_option autoImplicit false

namespace VaultSearch

/-- A standard library with the round trips it documents. -/
structure DocumentedLibrary (env : Env) extends StandardLibrary where
  /-- `str.lower` neither makes nor removes whitespace -/
  lower_strip : ∀ text, env.lower (Text.strip text) = Text.strip (env.lower text)
  /-- a float is known by its `repr` -/
  float_viewed : ∀ truthy printed object, view truthy printed = .float object →
    object.value = .other truthy printed
  float_parsed : ∀ text object, parseFloat text = .ok object →
    toStandardLibrary.viewOf object.value = .float object
  float_converted : ∀ number object, toStandardLibrary.floatOfInt number = some object →
    toStandardLibrary.viewOf object.value = .float object
  float_truth : ∀ flag, toStandardLibrary.viewOf (toStandardLibrary.floatOfBool flag).value =
    .float (toStandardLibrary.floatOfBool flag)
  /-- `date.fromisoformat(value.isoformat()) == value` -/
  date_viewed : ∀ truthy printed iso, view truthy printed = .date iso → parseDate iso = some iso
  date_parsed : ∀ text iso, parseDate text = some iso → parseDate iso = some iso
  /-- `YYYY-MM-DD` -/
  date_format : ∀ iso, parseDate iso = some iso → Text.strip iso = iso ∧ iso.length = 10
  /-- `datetime.fromisoformat(value.isoformat()) == value` -/
  datetime_viewed : ∀ truthy printed iso dateIso, view truthy printed = .datetime iso dateIso →
    parseDatetime iso = some iso ∧ parseDate dateIso = some dateIso
  datetime_parsed : ∀ text iso, parseDatetime text = some iso → parseDatetime iso = some iso
  datetime_format : ∀ iso, parseDatetime iso = some iso → Text.strip iso = iso
  datetime_midnight : ∀ iso, parseDate iso = some iso →
    parseDatetime (StandardLibrary.atMidnight iso) = some (StandardLibrary.atMidnight iso)
  /-- `uuid.UUID(str(value)) == value` -/
  uuid_parsed : ∀ text result, parseUuid text = some result → parseUuid result = some result
  uuid_format : ∀ result, parseUuid result = some result → Text.strip result = result

/-! ### The constraints -/

def FieldSchema.LengthHolds (schema : FieldSchema) (text : Text) : Prop :=
  (∀ least ∈ schema.minLength, least ≤ text.length) ∧
    ∀ most ∈ schema.maxLength, text.length ≤ most

def FieldSchema.BoundsHold (schema : FieldSchema) (number : PyFloat) : Prop :=
  (∀ bound ∈ schema.minimum, number.lt bound = false) ∧
    ∀ bound ∈ schema.maximum, bound.lt number = false

def FieldSchema.CountHolds (schema : FieldSchema) (count : Nat) : Prop :=
  (∀ least ∈ schema.minItems, least ≤ count) ∧ ∀ most ∈ schema.maxItems, count ≤ most

namespace StandardLibrary

variable (library : StandardLibrary)

def PatternHolds (schema : FieldSchema) (text : Text) : Prop :=
  ∀ pattern ∈ schema.pattern, library.patternMatches pattern text = some true

def ItemConforms (type : ItemType) (item : Value) : Prop :=
  match type with
  | .string => ∃ text, item = .str text
  | .int => ∃ number, item = .int number
  | .float => ∃ object, library.viewOf item = .float object ∧ object.number.isFinite = true

/-- The value has the declared type and satisfies the constraints of that type. -/
def Conforms (schema : FieldSchema) (value : Value) : Prop :=
  match schema.type with
  | .string =>
      ∃ text, value = .str text ∧ schema.LengthHolds text ∧ library.PatternHolds schema text
  | .int => ∃ number, value = .int number ∧ schema.BoundsHold (PyFloat.exact number)
  | .float =>
      ∃ object, library.viewOf value = .float object ∧ object.number.isFinite = true ∧
        schema.BoundsHold object.number
  | .bool => ∃ flag, value = .bool flag
  | .date => ∃ iso, value = .str iso ∧ library.parseDate iso = some iso
  | .datetime => ∃ iso, value = .str iso ∧ library.parseDatetime iso = some iso
  | .uuid => ∃ text, value = .str text ∧ library.parseUuid text = some text
  | .url =>
      ∃ text scheme netloc, value = .str text ∧ library.parseUrl text = .ok (scheme, netloc) ∧
        (scheme = "http".toList ∨ scheme = "https".toList) ∧ netloc ≠ []
  | .enum => ∃ text, value = .str text ∧ text ∈ schema.values
  | .list =>
      ∃ items, value = .list items ∧
        (∀ item ∈ items, library.ItemConforms (schema.itemType.getD .string) item) ∧
        schema.CountHolds items.length

/-- The items a value has as a list. -/
def givenItems (value : Value) : List Value :=
  match library.listItems value with
  | .ok given => given.1
  | .error _ => []

/-- A NaN or an infinity, or a string that is read as one. -/
def ItemNotFinite (item : Value) : Prop :=
  match item with
  | .str text =>
      ∃ object, library.parseFloat (Text.strip text) = .ok object ∧
        object.number.isFinite = false
  | _ => ∃ object, library.viewOf item = .float object ∧ object.number.isFinite = false

/-- No list of floats has an item that is not finite. -/
def FiniteItems (schema : FieldSchema) (value : Value) : Prop :=
  schema.type = .list → schema.itemType = some .float →
    ∀ item ∈ library.givenItems value, ¬ library.ItemNotFinite item

end StandardLibrary

/-! ### The checks -/

theorem checkLength_iff (schema : FieldSchema) (text : Text) :
    schema.LengthHolds text ↔
      ¬ schema.minLength.any (fun least => text.length < least) = true ∧
        ¬ schema.maxLength.any (fun most => most < text.length) = true := by
  unfold FieldSchema.LengthHolds
  cases schema.minLength with
  | none =>
      cases schema.maxLength with
      | none => simp
      | some most => simp
  | some least =>
      cases schema.maxLength with
      | none => simp
      | some most => simp

namespace StandardLibrary

variable {library : StandardLibrary} {env : Env}

theorem checkString_ok {schema : FieldSchema} {text : Text}
    (checked : checkString (library.coercions env) schema text = .ok ()) :
    schema.LengthHolds text ∧ library.PatternHolds schema text := by
  unfold checkString at checked
  split at checked
  · cases checked
  · split at checked
    · cases checked
    · constructor
      · rw [checkLength_iff]
        constructor
        · assumption
        · assumption
      · intro pattern isPattern
        rw [isPattern] at checked
        dsimp only [coercions] at checked
        cases matched : library.patternMatches pattern text with
        | none =>
            rw [matched] at checked
            cases checked
        | some verdict =>
            rw [matched] at checked
            cases verdict with
            | true => rfl
            | false => cases checked

theorem checkNumber_ok {schema : FieldSchema} {number : PyFloat}
    {shown : Except CoercionFault Text}
    (checked : library.checkNumber schema number shown = .ok ()) : schema.BoundsHold number := by
  have notRefused : ∀ relation bound, library.outOfBounds shown relation bound ≠ .ok () := by
    intro relation bound refused
    unfold outOfBounds at refused
    obtain ⟨text, _isShown, impossible⟩ := bind_ok refused
    cases impossible
  unfold checkNumber at checked
  obtain ⟨_unit, atLeast, atMost⟩ := bind_ok checked
  constructor
  · intro bound isBound
    unfold checkMinimum at atLeast
    rw [isBound] at atLeast
    dsimp only at atLeast
    split at atLeast
    · exact absurd atLeast (notRefused _ _)
    · exact eq_false_of_ne_true (by assumption)
  · intro bound isBound
    unfold checkMaximum at atMost
    rw [isBound] at atMost
    dsimp only at atMost
    split at atMost
    · exact absurd atMost (notRefused _ _)
    · exact eq_false_of_ne_true (by assumption)

theorem checkCount_ok {schema : FieldSchema} {count : Nat}
    (checked : checkCount schema count = .ok ()) : schema.CountHolds count := by
  unfold checkCount at checked
  dsimp only at checked
  split at checked
  · cases checked
  · split at checked
    · cases checked
    · rename_i longEnough shortEnough
      constructor
      · intro least isLeast
        rw [isLeast] at longEnough
        simpa using longEnough
      · intro most isMost
        rw [isMost] at shortEnough
        simpa using shortEnough

/-! ### Strings, booleans and enumerations -/

theorem coerceString_ok {schema : FieldSchema} {value result : Value} {warning : Option Text}
    (done : coerceString env (library.coercions env) schema value = .ok (result, warning)) :
    ∃ text, result = .str text ∧ checkString (library.coercions env) schema text = .ok () := by
  unfold coerceString at done
  obtain ⟨text, _isText, afterText⟩ := bind_ok done
  obtain ⟨_unit, checked, ended⟩ := bind_ok afterText
  refine ⟨text, ?_, checked⟩
  cases value with
  | str given =>
      cases ended
      rfl
  | null =>
      cases ended
      rfl
  | bool flag =>
      cases ended
      rfl
  | int number =>
      cases ended
      rfl
  | list items =>
      cases ended
      rfl
  | map entries =>
      cases ended
      rfl
  | other truthy printed =>
      cases ended
      rfl

theorem coerceString_text {schema : FieldSchema} {text : Text}
    (checked : checkString (library.coercions env) schema text = .ok ()) :
    coerceString env (library.coercions env) schema (.str text) = .ok (.str text, none) := by
  unfold coerceString
  rw [show coercedText env (.str text) = .ok text from rfl]
  exact congrArg (fun outcome => outcome >>= fun _unit =>
    (pure (Value.str text, none) : CoercionOutcome)) checked

theorem coerceBool_ok {value result : Value} {warning : Option Text}
    (done : coerceBool env (library.coercions env) value = .ok (result, warning)) :
    ∃ flag, result = .bool flag := by
  unfold coerceBool at done
  split at done
  · cases done
    exact ⟨_, rfl⟩
  · obtain ⟨shown, _isShown, afterShown⟩ := bind_ok done
    split at afterShown
    · cases afterShown
      exact ⟨_, rfl⟩
    · cases afterShown
  · dsimp only at done
    split at done
    · cases done
      exact ⟨_, rfl⟩
    · split at done
      · cases done
        exact ⟨_, rfl⟩
      · cases done
  · cases done

/-- An allowed value, found under the text it was compared with. -/
theorem coerceEnum_ok {schema : FieldSchema} {value result : Value} {warning : Option Text}
    (done : coerceEnum env (library.coercions env) schema value = .ok (result, warning)) :
    ∃ text shown, result = .str text ∧ text ∈ schema.values ∧
      if schema.caseInsensitive then
        env.lower text = env.lower (Text.strip shown) ∧
          schema.values.find? (fun allowed => env.lower allowed = env.lower (Text.strip shown)) =
            some text
      else text = Text.strip shown := by
  unfold coerceEnum at done
  split at done
  · cases done
  · obtain ⟨shown, _isShown, afterShown⟩ := bind_ok done
    dsimp only at afterShown
    split at afterShown
    case isTrue insensitive =>
      rw [insensitive]
      cases found : schema.values.find?
          (fun allowed => env.lower allowed = env.lower (Text.strip shown)) with
      | none =>
          rw [found] at afterShown
          cases afterShown
      | some allowed =>
          rw [found] at afterShown
          dsimp only at afterShown
          have isAllowed := List.find?_some found
          have member := List.mem_of_find?_eq_some found
          refine ⟨allowed, shown, ?_, member, of_decide_eq_true isAllowed, found⟩
          split at afterShown
          · cases afterShown
            rfl
          · cases afterShown
            rfl
    case isFalse sensitive =>
      split at afterShown
      case isTrue member =>
        cases afterShown
        refine ⟨Text.strip shown, shown, rfl, List.contains_iff_mem.mp member, ?_⟩
        rw [if_neg sensitive]
      case isFalse => cases afterShown

/-- An enumeration takes its own results as they are. -/
theorem coerceEnum_again (lowerStrip : ∀ text, env.lower (Text.strip text) =
      Text.strip (env.lower text)) {schema : FieldSchema}
    {value result : Value} {warning : Option Text}
    (done : coerceEnum env (library.coercions env) schema value = .ok (result, warning)) :
    ∃ again, coerceEnum env (library.coercions env) schema result = .ok (result, again) := by
  obtain ⟨text, shown, isText, member, comparison⟩ := coerceEnum_ok done
  have some : ¬ schema.values.isEmpty = true := by
    intro empty
    rw [List.isEmpty_iff.mp empty] at member
    cases member
  rw [isText]
  unfold coerceEnum
  rw [if_neg some, show coercedText env (.str text) = .ok text from rfl]
  change ∃ again, (if schema.caseInsensitive = true then _ else _) = _
  split
  case isTrue insensitive =>
    rw [insensitive, if_pos rfl] at comparison
    -- stripping the allowed value does not change what it is compared as
    have same : env.lower (Text.strip text) = env.lower (Text.strip shown) := by
      calc env.lower (Text.strip text) = Text.strip (env.lower text) := lowerStrip text
        _ = Text.strip (env.lower (Text.strip shown)) := by rw [comparison.1]
        _ = env.lower (Text.strip (Text.strip shown)) := (lowerStrip _).symm
        _ = env.lower (Text.strip shown) := by rw [Text.strip_strip]
    rw [same, comparison.2]
    dsimp only
    split
    · exact ⟨_, rfl⟩
    · exact ⟨_, rfl⟩
  case isFalse sensitive =>
    rw [if_neg sensitive] at comparison
    have stripped : Text.strip text = text := by
      rw [comparison, Text.strip_strip]
    rw [stripped, if_pos (List.contains_iff_mem.mpr member)]
    exact ⟨_, rfl⟩

/-! ### Numbers -/

theorem coerceInt_ok {schema : FieldSchema} {value result : Value} {warning : Option Text}
    (done : library.coerceInt schema value = .ok (result, warning)) :
    ∃ number, result = .int number ∧
      library.checkNumber schema (PyFloat.exact number) (shownInt number) = .ok () := by
  unfold coerceInt at done
  obtain ⟨found, _isFound, afterFound⟩ := bind_ok done
  obtain ⟨_unit, checked, ended⟩ := bind_ok afterFound
  cases ended
  exact ⟨found.1, rfl, checked⟩

theorem coerceInt_int {schema : FieldSchema} {number : Int}
    (checked : library.checkNumber schema (PyFloat.exact number) (shownInt number) = .ok ()) :
    library.coerceInt schema (.int number) = .ok (.int number, none) :=
  congrArg (fun outcome => outcome >>= fun _unit =>
    (pure (Value.int number, none) : CoercionOutcome)) checked

end StandardLibrary

namespace DocumentedLibrary

variable {env : Env} {library : DocumentedLibrary env}

/-- An object that is a float, seen as itself. -/
def Viewed (library : DocumentedLibrary env) (object : FloatObject) : Prop :=
  library.viewOf object.value = .float object

theorem viewed_of_view {value : Value} {object : FloatObject}
    (view : library.viewOf value = .float object) : object.value = value := by
  cases value with
  | other truthy printed => exact library.float_viewed truthy printed object view
  | null => cases view
  | bool flag => cases view
  | int number => cases view
  | str text => cases view
  | list items => cases view
  | map entries => cases view

theorem viewed_floatOfInt {number : Int} {object : FloatObject}
    (isFloat : library.floatOfInt number = some object) :
    library.Viewed object ∧ object.number.isFinite = true := by
  refine ⟨library.float_converted number object isFloat, ?_⟩
  unfold StandardLibrary.floatOfInt at isFloat
  obtain ⟨rounded, isRounded, same⟩ := Option.map_eq_some_iff.mp isFloat
  obtain ⟨whole, isWhole⟩ := PyFloat.ofInt_whole isRounded
  rw [← same, isWhole]
  rfl

theorem floatOf_ok {value : Value} {object : FloatObject} {warning : Option Text}
    (done : library.floatOf value = .ok (object, warning)) :
    library.Viewed object ∧ object.number.isFinite = true := by
  have finite : ∀ number, StandardLibrary.floatRefusal number = none → number.isFinite = true := by
    intro number accepted
    cases number with
    | nan => cases accepted
    | infinite negative => cases accepted
    | finite exactly => rfl
  unfold StandardLibrary.floatOf at done
  split at done
  · cases done
    rename_i flag
    refine ⟨library.float_truth flag, ?_⟩
    cases flag <;> rfl
  · split at done
    · rename_i isFloat
      cases done
      exact viewed_floatOfInt isFloat
    · cases done
  · unfold StandardLibrary.floatOfText at done
    dsimp only at done
    split at done
    · cases done
    · rename_i parsed
      split at done
      · cases done
      · rename_i accepted
        cases done
        exact ⟨library.float_parsed _ _ parsed, finite _ accepted⟩
  · split at done
    · rename_i view
      split at done
      · cases done
      · rename_i accepted
        cases done
        refine ⟨?_, finite _ accepted⟩
        unfold Viewed
        rw [viewed_of_view view, view]
    · cases done

theorem coerceFloat_ok {schema : FieldSchema} {value result : Value} {warning : Option Text}
    (done : library.coerceFloat schema value = .ok (result, warning)) :
    ∃ object, result = object.value ∧ library.Viewed object ∧ object.number.isFinite = true ∧
      library.checkNumber schema object.number (.ok object.shown) = .ok () := by
  unfold StandardLibrary.coerceFloat at done
  obtain ⟨found, isFound, afterFound⟩ := bind_ok done
  obtain ⟨_unit, checked, ended⟩ := bind_ok afterFound
  cases ended
  obtain ⟨viewed, finite⟩ := floatOf_ok isFound
  exact ⟨found.1, rfl, viewed, finite, checked⟩

theorem coerceFloat_float {schema : FieldSchema} {object : FloatObject}
    (viewed : library.Viewed object) (finite : object.number.isFinite = true)
    (checked : library.checkNumber schema object.number (.ok object.shown) = .ok ()) :
    library.coerceFloat schema object.value = .ok (object.value, none) := by
  have accepted : StandardLibrary.floatRefusal object.number = none := by
    cases isNumber : object.number with
    | finite exactly => rfl
    | nan =>
        rw [isNumber] at finite
        cases finite
    | infinite negative =>
        rw [isNumber] at finite
        cases finite
  have found : library.floatOf object.value = .ok (object, none) := by
    unfold Viewed at viewed
    unfold FloatObject.value at viewed ⊢
    unfold StandardLibrary.floatOf
    dsimp only
    rw [viewed]
    dsimp only
    rw [accepted]
  unfold StandardLibrary.coerceFloat
  rw [found]
  exact congrArg (fun outcome => outcome >>= fun _unit =>
    (pure (object.value, none) : CoercionOutcome)) checked

/-! ### Dates, UUIDs and URLs -/

theorem coerceDate_ok {value result : Value} {warning : Option Text}
    (done : library.coerceDate value = .ok (result, warning)) :
    ∃ iso, result = .str iso ∧ library.parseDate iso = some iso := by
  unfold StandardLibrary.coerceDate at done
  split at done
  · dsimp only at done
    split at done
    · cases done
    · rename_i parsed
      cases done
      exact ⟨_, rfl, library.date_parsed _ _ parsed⟩
  · rename_i notText
    cases value with
    | other truthy printed =>
        split at done
        · rename_i view
          cases done
          exact ⟨_, rfl, library.date_viewed truthy printed _ view⟩
        · rename_i view
          cases done
          exact ⟨_, rfl, (library.datetime_viewed truthy printed _ _ view).2⟩
        · cases done
    | str text => exact absurd rfl (notText text)
    | null => cases done
    | bool flag => cases done
    | int number => cases done
    | list items => cases done
    | map entries => cases done

theorem coerceDate_text {iso : Text} (canonical : library.parseDate iso = some iso) :
    ∃ again, library.coerceDate (.str iso) = .ok (.str iso, again) := by
  obtain ⟨stripped, ten⟩ := library.date_format iso canonical
  unfold StandardLibrary.coerceDate
  dsimp only
  rw [stripped, List.take_of_length_le (Nat.le_of_eq ten), canonical]
  exact ⟨_, rfl⟩

theorem coerceDatetime_ok {value result : Value} {warning : Option Text}
    (done : library.coerceDatetime value = .ok (result, warning)) :
    ∃ iso, result = .str iso ∧ library.parseDatetime iso = some iso := by
  unfold StandardLibrary.coerceDatetime at done
  split at done
  · dsimp only at done
    split at done
    · rename_i parsed
      cases done
      exact ⟨_, rfl, library.datetime_parsed _ _ parsed⟩
    · split at done
      · rename_i parsed
        cases done
        exact ⟨_, rfl, library.datetime_midnight _ (library.date_parsed _ _ parsed)⟩
      · cases done
  · rename_i notText
    cases value with
    | other truthy printed =>
        split at done
        · rename_i view
          cases done
          exact ⟨_, rfl, (library.datetime_viewed truthy printed _ _ view).1⟩
        · rename_i view
          cases done
          exact ⟨_, rfl, library.datetime_midnight _ (library.date_viewed truthy printed _ view)⟩
        · cases done
    | str text => exact absurd rfl (notText text)
    | null => cases done
    | bool flag => cases done
    | int number => cases done
    | list items => cases done
    | map entries => cases done

theorem coerceDatetime_text {iso : Text} (canonical : library.parseDatetime iso = some iso) :
    library.coerceDatetime (.str iso) = .ok (.str iso, none) := by
  unfold StandardLibrary.coerceDatetime
  dsimp only
  rw [library.datetime_format iso canonical, canonical]

theorem coerceUuid_ok {value result : Value} {warning : Option Text}
    (done : library.coerceUuid env value = .ok (result, warning)) :
    ∃ text, result = .str text ∧ library.parseUuid text = some text := by
  unfold StandardLibrary.coerceUuid at done
  split at done
  · dsimp only at done
    split at done
    · cases done
    · rename_i parsed
      cases done
      exact ⟨_, rfl, library.uuid_parsed _ _ parsed⟩
  · cases done

theorem coerceUuid_text {text : Text} (canonical : library.parseUuid text = some text) :
    ∃ again, library.coerceUuid env (.str text) = .ok (.str text, again) := by
  unfold StandardLibrary.coerceUuid
  dsimp only
  rw [library.uuid_format text canonical, canonical]
  exact ⟨_, rfl⟩

theorem coerceUrl_ok {value result : Value} {warning : Option Text}
    (done : library.coerceUrl value = .ok (result, warning)) :
    (∃ text scheme netloc, result = .str text ∧
      library.parseUrl text = .ok (scheme, netloc) ∧
      (scheme = "http".toList ∨ scheme = "https".toList) ∧ netloc ≠ []) ∧
    ∃ again, library.coerceUrl result = .ok (result, again) := by
  unfold StandardLibrary.coerceUrl at done
  split at done
  · dsimp only at done
    split at done
    · cases done
    · rename_i text scheme netloc parsed
      split at done
      · cases done
      · rename_i hasScheme
        split at done
        · cases done
        · rename_i goodScheme
          split at done
          · cases done
          · rename_i hasDomain
            cases done
            constructor
            · refine ⟨_, scheme, netloc, rfl, parsed, ?_, ?_⟩
              · by_contra neither
                exact goodScheme (not_or.mp neither)
              · intro empty
                rw [empty] at hasDomain
                exact hasDomain rfl
            · unfold StandardLibrary.coerceUrl
              dsimp only
              rw [Text.strip_strip, parsed]
              dsimp only
              rw [if_neg hasScheme, if_neg goodScheme, if_neg hasDomain]
              exact ⟨_, rfl⟩
  · cases done

/-! ### Lists -/

theorem convertItems_ok {type : ItemType} {index : Nat} {given items : List Value}
    (done : library.convertItems env type index given = .ok items) :
    List.Forall₂ (fun item converted => library.convertItem env type item = .ok converted)
      given items := by
  induction given generalizing index items with
  | nil =>
      cases done
      exact List.Forall₂.nil
  | cons item rest ih =>
      rw [StandardLibrary.convertItems] at done
      cases converted : library.convertItem env type item with
      | error fault =>
          rw [converted] at done
          cases fault with
          | invalid reason => cases done
          | uncaught reason => cases done
      | ok first =>
          rw [converted] at done
          dsimp only at done
          cases others : library.convertItems env type (index + 1) rest with
          | error fault =>
              rw [others] at done
              cases done
          | ok later =>
              rw [others] at done
              cases done
              exact List.Forall₂.cons converted (ih others)

theorem convertItems_settled {type : ItemType} {items : List Value}
    (settled : ∀ item ∈ items, library.convertItem env type item = .ok item) (index : Nat) :
    library.convertItems env type index items = .ok items := by
  induction items generalizing index with
  | nil => rfl
  | cons item rest ih =>
      rw [StandardLibrary.convertItems, settled item List.mem_cons_self,
        ih (fun other member => settled other (List.mem_cons_of_mem _ member))]
      rfl

theorem itemToInt_ok {item converted : Value} (done : library.itemToInt item = .ok converted) :
    ∃ number, converted = .int number := by
  unfold StandardLibrary.itemToInt at done
  split at done
  · cases done
    exact ⟨_, rfl⟩
  · cases done
    exact ⟨_, rfl⟩
  · split at done
    · cases done
      exact ⟨_, rfl⟩
    · cases done
  · split at done
    · split at done
      · cases done
      · cases done
      · cases done
        exact ⟨_, rfl⟩
    · cases done

/-- Only a float object, or a string that is read as one, may not be finite. -/
theorem itemToFloat_ok {item converted : Value}
    (done : library.itemToFloat item = .ok converted) :
    ∃ object, converted = object.value ∧ library.Viewed object ∧
      (object.number.isFinite = false ↔ library.ItemNotFinite item) := by
  have noView : ∀ value : Value, library.viewOf value = .unknown →
      ¬ ∃ object, library.viewOf value = .float object ∧ object.number.isFinite = false := by
    intro value unknown impossible
    obtain ⟨object, view, _notFinite⟩ := impossible
    rw [unknown] at view
    cases view
  unfold StandardLibrary.itemToFloat at done
  split at done
  · rename_i flag
    cases done
    refine ⟨_, rfl, library.float_truth flag, ?_⟩
    constructor
    · intro impossible
      cases flag <;> cases impossible
    · intro notFinite
      exact absurd notFinite (noView _ rfl)
  · rename_i number
    split at done
    · rename_i isFloat
      cases done
      obtain ⟨viewed, finite⟩ := viewed_floatOfInt isFloat
      refine ⟨_, rfl, viewed, ?_⟩
      rw [finite]
      constructor
      · intro impossible
        cases impossible
      · intro notFinite
        exact absurd notFinite (noView _ rfl)
    · cases done
  · rename_i text
    split at done
    · rename_i object parsed
      cases done
      refine ⟨object, rfl, library.float_parsed _ _ parsed, ?_⟩
      constructor
      · intro notFinite
        exact ⟨object, parsed, notFinite⟩
      · intro given
        obtain ⟨other, isOther, notFinite⟩ := given
        rw [parsed] at isOther
        cases isOther
        exact notFinite
    · cases done
  · rename_i notBool notInt notText
    split at done
    · rename_i object view
      cases done
      refine ⟨object, rfl, ?_, ?_⟩
      · unfold Viewed
        rw [viewed_of_view view, view]
      · rw [StandardLibrary.ItemNotFinite, view]
        · simp
        · exact notText
    · cases done

/-- What an item becomes has the type, up to finiteness, and is left as it is. -/
theorem convertItem_ok {type : ItemType} {item converted : Value}
    (done : library.convertItem env type item = .ok converted) :
    (library.ItemConforms type converted ↔
      (type = .float → ¬ library.ItemNotFinite item)) ∧
    library.convertItem env type converted = .ok converted := by
  cases type with
  | string =>
      unfold StandardLibrary.convertItem at done
      dsimp only at done
      cases shown : coercedText env item with
      | error fault =>
          rw [shown] at done
          cases done
      | ok text =>
          rw [shown] at done
          cases done
          constructor
          · simp [StandardLibrary.ItemConforms]
          · rfl
  | int =>
      obtain ⟨number, isInt⟩ := itemToInt_ok done
      rw [isInt]
      constructor
      · simp [StandardLibrary.ItemConforms]
      · rfl
  | float =>
      obtain ⟨object, isObject, viewed, notFinite⟩ := itemToFloat_ok done
      unfold Viewed at viewed
      rw [isObject]
      constructor
      · rw [← notFinite, StandardLibrary.ItemConforms, viewed]
        simp
      · unfold StandardLibrary.convertItem
        dsimp only
        unfold FloatObject.value at viewed ⊢
        unfold StandardLibrary.itemToFloat
        dsimp only
        rw [viewed]
        rfl

theorem coerceList_ok {schema : FieldSchema} {value result : Value} {warning : Option Text}
    (done : library.coerceList env schema value = .ok (result, warning)) :
    ∃ items, result = .list items ∧
      List.Forall₂ (fun item converted =>
        library.convertItem env (schema.itemType.getD .string) item = .ok converted)
        (library.givenItems value) items ∧
      StandardLibrary.checkCount schema items.length = .ok () := by
  unfold StandardLibrary.coerceList at done
  obtain ⟨given, isGiven, afterGiven⟩ := bind_ok done
  obtain ⟨items, converted, afterItems⟩ := bind_ok afterGiven
  obtain ⟨_unit, checked, ended⟩ := bind_ok afterItems
  cases ended
  refine ⟨items, rfl, ?_, checked⟩
  unfold StandardLibrary.givenItems
  rw [isGiven]
  exact convertItems_ok converted

theorem coerceList_list {schema : FieldSchema} {items : List Value}
    (settled : ∀ item ∈ items,
      library.convertItem env (schema.itemType.getD .string) item = .ok item)
    (checked : StandardLibrary.checkCount schema items.length = .ok ()) :
    library.coerceList env schema (.list items) = .ok (.list items, none) := by
  unfold StandardLibrary.coerceList
  rw [show library.listItems (.list items) = .ok (items, []) from rfl]
  change (library.convertItems env (schema.itemType.getD .string) 0 items >>= _) = _
  rw [convertItems_settled settled]
  exact congrArg (fun outcome => outcome >>= fun _unit =>
    (pure (Value.list items, none) : CoercionOutcome)) checked

theorem forall₂_right {first second : Type} {relation : first → second → Prop}
    {firsts : List first} {seconds : List second}
    (related : List.Forall₂ relation firsts seconds) :
    ∀ right ∈ seconds, ∃ left ∈ firsts, relation left right := by
  induction related with
  | nil =>
      intro right member
      cases member
  | cons holds _rest ih =>
      intro right member
      cases List.mem_cons.mp member with
      | inl same =>
          rw [same]
          exact ⟨_, List.mem_cons_self, holds⟩
      | inr later =>
          obtain ⟨left, inside, isRelated⟩ := ih right later
          exact ⟨left, List.mem_cons_of_mem _ inside, isRelated⟩

theorem forall₂_left {first second : Type} {relation : first → second → Prop}
    {firsts : List first} {seconds : List second}
    (related : List.Forall₂ relation firsts seconds) :
    ∀ left ∈ firsts, ∃ right ∈ seconds, relation left right := by
  intro left member
  obtain ⟨right, inside, isRelated⟩ := forall₂_right related.flip left member
  exact ⟨right, inside, isRelated⟩

/-! ### `coerce_value` -/

theorem finiteItems_of_type {schema : FieldSchema} (value : Value)
    (notList : schema.type ≠ .list) : library.FiniteItems schema value :=
  fun isList => absurd isList notList

/-- A coerced value conforms, unless it is a list of floats that are not all finite. -/
theorem conforms_iff_of_coerced {schema : FieldSchema} {value result : Value}
    {warning : Option Text}
    (done : coerceValue env (library.coercions env) schema value = .ok (result, warning)) :
    library.Conforms schema result ↔ library.FiniteItems schema value := by
  have always : schema.type ≠ .list → library.Conforms schema result →
      (library.Conforms schema result ↔ library.FiniteItems schema value) := by
    intro notList conforms
    exact ⟨fun _conforms => finiteItems_of_type value notList, fun _finite => conforms⟩
  unfold coerceValue at done
  unfold StandardLibrary.Conforms at always ⊢
  cases isType : schema.type with
  | string =>
      rw [isType] at done always
      apply always (by decide)
      obtain ⟨text, isText, checked⟩ := StandardLibrary.coerceString_ok done
      exact ⟨text, isText, StandardLibrary.checkString_ok checked⟩
  | int =>
      rw [isType] at done always
      apply always (by decide)
      obtain ⟨number, isInt, checked⟩ := StandardLibrary.coerceInt_ok done
      exact ⟨number, isInt, StandardLibrary.checkNumber_ok checked⟩
  | float =>
      rw [isType] at done always
      apply always (by decide)
      obtain ⟨object, isObject, viewed, finite, checked⟩ := coerceFloat_ok done
      unfold Viewed at viewed
      rw [isObject]
      exact ⟨object, viewed, finite, StandardLibrary.checkNumber_ok checked⟩
  | bool =>
      rw [isType] at done always
      exact always (by decide) (StandardLibrary.coerceBool_ok done)
  | date =>
      rw [isType] at done always
      exact always (by decide) (coerceDate_ok done)
  | datetime =>
      rw [isType] at done always
      exact always (by decide) (coerceDatetime_ok done)
  | uuid =>
      rw [isType] at done always
      exact always (by decide) (coerceUuid_ok done)
  | url =>
      rw [isType] at done always
      exact always (by decide) (coerceUrl_ok done).1
  | enum =>
      rw [isType] at done always
      apply always (by decide)
      obtain ⟨text, shown, isText, member, _comparison⟩ := StandardLibrary.coerceEnum_ok done
      exact ⟨text, isText, member⟩
  | list =>
      rw [isType] at done
      obtain ⟨items, isList, converted, checked⟩ := coerceList_ok done
      have counted := StandardLibrary.checkCount_ok checked
      constructor
      · intro conforms _isList isFloat item member
        obtain ⟨others, sameList, each, _count⟩ := conforms
        rw [isList] at sameList
        cases sameList
        obtain ⟨right, inside, isConverted⟩ := forall₂_left converted item member
        have typed := each right inside
        rw [(convertItem_ok isConverted).1] at typed
        exact typed (by rw [isFloat]; rfl)
      · intro finite
        refine ⟨items, isList, ?_, counted⟩
        intro right inside
        obtain ⟨item, member, isConverted⟩ := forall₂_right converted right inside
        rw [(convertItem_ok isConverted).1]
        intro isFloat
        apply finite isType _ item member
        cases given : schema.itemType with
        | none =>
            rw [given] at isFloat
            cases isFloat
        | some type =>
            rw [given] at isFloat
            exact congrArg some isFloat

/-- A coercion leaves its results as they are. -/
theorem coerced_again {schema : FieldSchema} {value result : Value} {warning : Option Text}
    (done : coerceValue env (library.coercions env) schema value = .ok (result, warning)) :
    ∃ again, coerceValue env (library.coercions env) schema result = .ok (result, again) := by
  unfold coerceValue at done ⊢
  cases isType : schema.type with
  | string =>
      rw [isType] at done
      obtain ⟨text, isText, checked⟩ := StandardLibrary.coerceString_ok done
      rw [isText]
      exact ⟨none, StandardLibrary.coerceString_text checked⟩
  | int =>
      rw [isType] at done
      obtain ⟨number, isInt, checked⟩ := StandardLibrary.coerceInt_ok done
      rw [isInt]
      exact ⟨none, StandardLibrary.coerceInt_int checked⟩
  | float =>
      rw [isType] at done
      obtain ⟨object, isObject, viewed, finite, checked⟩ := coerceFloat_ok done
      rw [isObject]
      exact ⟨none, coerceFloat_float viewed finite checked⟩
  | bool =>
      rw [isType] at done
      obtain ⟨flag, isFlag⟩ := StandardLibrary.coerceBool_ok done
      rw [isFlag]
      exact ⟨none, rfl⟩
  | date =>
      rw [isType] at done
      obtain ⟨iso, isIso, canonical⟩ := coerceDate_ok done
      rw [isIso]
      exact coerceDate_text canonical
  | datetime =>
      rw [isType] at done
      obtain ⟨iso, isIso, canonical⟩ := coerceDatetime_ok done
      rw [isIso]
      exact ⟨none, coerceDatetime_text canonical⟩
  | uuid =>
      rw [isType] at done
      obtain ⟨text, isText, canonical⟩ := coerceUuid_ok done
      rw [isText]
      exact coerceUuid_text canonical
  | url =>
      rw [isType] at done
      exact (coerceUrl_ok done).2
  | enum =>
      rw [isType] at done
      exact StandardLibrary.coerceEnum_again library.lower_strip done
  | list =>
      rw [isType] at done
      obtain ⟨items, isList, converted, checked⟩ := coerceList_ok done
      rw [isList]
      refine ⟨none, coerceList_list ?_ checked⟩
      intro right inside
      obtain ⟨item, _member, isConverted⟩ := forall₂_right converted right inside
      exact (convertItem_ok isConverted).2

/-- A generated value is what `str(uuid)` or `isoformat` prints. -/
theorem generated_again {schema : FieldSchema} {text : Text}
    (printed : (schema.type = .uuid ∧ library.parseUuid text = some text) ∨
      (schema.type = .datetime ∧ library.parseDatetime text = some text)) :
    library.Conforms schema (.str text) ∧
      ∃ again, coerceValue env (library.coercions env) schema (.str text) =
        .ok (.str text, again) := by
  unfold coerceValue StandardLibrary.Conforms
  cases printed with
  | inl isUuid =>
      rw [isUuid.1]
      exact ⟨⟨text, rfl, isUuid.2⟩, coerceUuid_text isUuid.2⟩
  | inr isDatetime =>
      rw [isDatetime.1]
      exact ⟨⟨text, rfl, isDatetime.2⟩, none, coerceDatetime_text isDatetime.2⟩

end DocumentedLibrary

end VaultSearch
