/-
Which exceptions leave the coercions and the validator.

Only a conversion that raises something other than `ValueError` does: `float` of an integer
that is too large, `int` of an infinity inside a list, `str` of a value nested too deeply, a
pattern that does not compile, and `lower` of a key that is neither a string nor `bytes`.
-/

import VaultSearch.Frontmatter.Coercion
import VaultSearch.Frontmatter.KeptFields

set_option autoImplicit false

namespace VaultSearch

/-! ### Conversions to text -/

mutual

/-- Below the recursion limit only an integer with too many digits is not printed. -/
theorem Value.repr_error (env : Env) :
    (value : Value) → ∀ error, value.repr env = .error error → error = .valueError
  | .null => by
      intro error raised
      cases raised
  | .bool true => by
      intro error raised
      cases raised
  | .bool false => by
      intro error raised
      cases raised
  | .int value => by
      intro error raised
      rw [Value.repr] at raised
      unfold printInt at raised
      split at raised
      · cases raised
      · cases raised
        rfl
  | .str value => by
      intro error raised
      cases raised
  | .list items => by
      intro error raised
      rw [Value.repr] at raised
      cases outcome : reprItems env items with
      | ok shown =>
          rw [outcome] at raised
          cases raised
      | error reason =>
          rw [outcome] at raised
          cases raised
          exact reprItems_error env items _ outcome
  | .map entries => by
      intro error raised
      rw [Value.repr] at raised
      cases outcome : reprEntries env entries with
      | ok shown =>
          rw [outcome] at raised
          cases raised
      | error reason =>
          rw [outcome] at raised
          cases raised
          exact reprEntries_error env entries _ outcome
  | .other _ none => by
      intro error raised
      cases raised
      rfl
  | .other _ (some _) => by
      intro error raised
      cases raised

theorem reprItems_error (env : Env) :
    (items : List Value) → ∀ error, reprItems env items = .error error → error = .valueError
  | [] => by
      intro error raised
      cases raised
  | head :: tail => by
      intro error raised
      rw [reprItems] at raised
      cases first : head.repr env with
      | error reason =>
          rw [first] at raised
          cases raised
          exact Value.repr_error env head _ first
      | ok shown =>
          rw [first] at raised
          cases rest : reprItems env tail with
          | error reason =>
              rw [rest] at raised
              cases raised
              exact reprItems_error env tail _ rest
          | ok others =>
              rw [rest] at raised
              cases raised

theorem reprEntries_error (env : Env) :
    (entries : Mapping) → ∀ error, reprEntries env entries = .error error → error = .valueError
  | [] => by
      intro error raised
      cases raised
  | (key, value) :: tail => by
      intro error raised
      rw [reprEntries] at raised
      cases first : value.repr env with
      | error reason =>
          rw [first] at raised
          cases raised
          exact Value.repr_error env value _ first
      | ok shown =>
          rw [first] at raised
          cases rest : reprEntries env tail with
          | error reason =>
              rw [rest] at raised
              cases raised
              exact reprEntries_error env tail _ rest
          | ok others =>
              rw [rest] at raised
              cases raised

end

/-- `str(value)` leaves the coercions only beyond the recursion limit. -/
theorem coercedText_contained_iff (env : Env) (value : Value) :
    Contained (coercedText env value) ↔ value.depth ≤ env.reprDepth := by
  have guarded : ∀ outcome : Except PyError Text,
      outcome = (if value.depth ≤ env.reprDepth then value.repr env
        else .error .recursionError) → pyStr env value = outcome →
      (Contained (coercedText env value) ↔ value.depth ≤ env.reprDepth) := by
    intro outcome isGuarded isText
    unfold coercedText
    rw [isText, isGuarded]
    by_cases shallow : value.depth ≤ env.reprDepth
    · rw [if_pos shallow]
      cases printed : value.repr env with
      | ok shown => simp [shallow]
      | error error =>
          rw [Value.repr_error env value error printed]
          simp [shallow, tooManyDigits]
    · rw [if_neg shallow]
      simp [shallow]
  cases value with
  | str text => simp [coercedText, pyStr, Value.depth]
  | other truthy printed =>
      cases printed with
      | none => exact guarded _ rfl (by rw [pyStr] <;> simp)
      | some shown => simp [coercedText, pyStr, Value.depth]
  | null => exact guarded _ rfl rfl
  | bool flag => exact guarded _ rfl rfl
  | int number => exact guarded _ rfl rfl
  | list items => exact guarded _ rfl rfl
  | map entries => exact guarded _ rfl rfl

theorem coercedText_ok_iff (env : Env) (value : Value) (text : Text) :
    coercedText env value = .ok text ↔ pyStr env value = .ok text := by
  unfold coercedText
  cases printed : pyStr env value with
  | ok shown => simp
  | error error => cases error <;> simp [tooManyDigits]

theorem shownInt_contained (number : Int) : Contained (shownInt number) := by
  unfold shownInt
  split
  · exact contained_ok _
  · exact contained_invalid _

namespace StandardLibrary

variable {library : StandardLibrary} {env : Env}

/-! ### Strings, booleans and enumerations -/

variable (library env) in
/-- The pattern compiles, unless the length is refused before. -/
def PatternCompiles (schema : FieldSchema) (value : Value) : Prop :=
  ∀ text, pyStr env value = .ok text →
    (∀ least ∈ schema.minLength, least ≤ text.length) →
    (∀ most ∈ schema.maxLength, text.length ≤ most) →
      ∀ pattern ∈ schema.pattern, (library.patternMatches pattern text).isSome = true

theorem checkString_contained_iff (schema : FieldSchema) (text : Text) :
    Contained (checkString (library.coercions env) schema text) ↔
      ((∀ least ∈ schema.minLength, least ≤ text.length) →
        (∀ most ∈ schema.maxLength, text.length ≤ most) →
          ∀ pattern ∈ schema.pattern, (library.patternMatches pattern text).isSome = true) := by
  unfold checkString
  split
  case isTrue short =>
    obtain ⟨least, isLeast, less⟩ := (Option.any_eq_true _ _).mp short
    constructor
    · intro _contained longEnough
      have enough := longEnough least isLeast
      have tooShort := of_decide_eq_true less
      omega
    · intro _conditions
      exact contained_invalid _
  case isFalse longEnough =>
    split
    case isTrue long =>
      obtain ⟨most, isMost, more⟩ := (Option.any_eq_true _ _).mp long
      constructor
      · intro _contained _enough shortEnough
        have enough := shortEnough most isMost
        have tooLong := of_decide_eq_true more
        omega
      · intro _conditions
        exact contained_invalid _
    case isFalse shortEnough =>
      have enough : ∀ least ∈ schema.minLength, least ≤ text.length := by
        intro least isLeast
        by_contra short
        apply longEnough
        exact (Option.any_eq_true _ _).mpr ⟨least, isLeast, decide_eq_true (by omega)⟩
      have within : ∀ most ∈ schema.maxLength, text.length ≤ most := by
        intro most isMost
        by_contra long
        apply shortEnough
        exact (Option.any_eq_true _ _).mpr ⟨most, isMost, decide_eq_true (by omega)⟩
      cases given : schema.pattern with
      | none => simp
      | some pattern =>
          dsimp only [coercions]
          cases matched : library.patternMatches pattern text with
          | none =>
              constructor
              · intro contained
                exact absurd contained (not_contained_uncaught _)
              · intro conditions
                have compiles := conditions enough within pattern rfl
                rw [matched] at compiles
                cases compiles
          | some verdict =>
              constructor
              · intro _contained _enough _within other isPattern
                cases isPattern
                rw [matched]
                rfl
              · intro _conditions
                cases verdict with
                | true => exact contained_ok _
                | false => exact contained_invalid _

theorem coerceString_contained_iff (schema : FieldSchema) (value : Value) :
    Contained (coerceString env (library.coercions env) schema value) ↔
      value.depth ≤ env.reprDepth ∧ library.PatternCompiles env schema value := by
  unfold coerceString PatternCompiles
  rw [contained_bind, coercedText_contained_iff]
  constructor
  · intro contained
    refine ⟨contained.1, ?_⟩
    intro text shown
    rw [← coercedText_ok_iff] at shown
    have checked := contained.2 text shown
    rw [contained_bind] at checked
    exact (checkString_contained_iff schema text).mp checked.1
  · intro conditions
    refine ⟨conditions.1, ?_⟩
    intro text shown
    rw [coercedText_ok_iff] at shown
    rw [contained_bind]
    refine ⟨(checkString_contained_iff schema text).mpr (conditions.2 text shown), ?_⟩
    intro _unit _checked
    split
    · exact contained_ok _
    · exact contained_ok _

theorem coerceBool_contained (value : Value) :
    Contained (coerceBool env (library.coercions env) value) := by
  unfold coerceBool
  split
  · exact contained_ok _
  · rw [contained_bind]
    refine ⟨shownInt_contained _, ?_⟩
    intro shown _isShown
    split
    · exact contained_ok _
    · exact contained_invalid _
  · dsimp only
    split
    · exact contained_ok _
    · split
      · exact contained_ok _
      · exact contained_invalid _
  · exact contained_invalid _

theorem coerceEnum_contained_iff (schema : FieldSchema) (value : Value) :
    Contained (coerceEnum env (library.coercions env) schema value) ↔
      schema.values = [] ∨ value.depth ≤ env.reprDepth := by
  unfold coerceEnum
  cases given : schema.values with
  | nil => simp
  | cons head tail =>
      rw [if_neg (by simp), contained_bind, coercedText_contained_iff]
      constructor
      · intro contained
        exact Or.inr contained.1
      · intro conditions
        rcases conditions with impossible | shallow
        · cases impossible
        · refine ⟨shallow, ?_⟩
          intro text _shown
          dsimp only
          split
          · split
            · exact contained_invalid _
            · split
              · exact contained_ok _
              · exact contained_ok _
          · split
            · exact contained_ok _
            · exact contained_invalid _

/-! ### Numbers -/

theorem checkNumber_contained (schema : FieldSchema) (number : PyFloat)
    {shown : Except CoercionFault Text} (contained : Contained shown) :
    Contained (library.checkNumber schema number shown) := by
  have refused : ∀ relation bound, Contained (library.outOfBounds shown relation bound) := by
    intro relation bound
    unfold outOfBounds
    rw [contained_bind]
    exact ⟨contained, fun _text _isShown => contained_invalid _⟩
  unfold checkNumber
  rw [contained_bind]
  constructor
  · unfold checkMinimum
    split
    · split
      · exact refused _ _
      · exact contained_ok _
    · exact contained_ok _
  · intro _unit _atLeast
    unfold checkMaximum
    split
    · split
      · exact refused _ _
      · exact contained_ok _
    · exact contained_ok _

theorem intOf_contained (value : Value) : Contained (library.intOf value) := by
  unfold intOf
  split
  · exact contained_ok _
  · exact contained_ok _
  · unfold intOfText
    dsimp only
    split
    · exact contained_ok _
    · split
      · exact contained_invalid _
      · split
        · exact contained_invalid _
        · exact contained_invalid _
        · exact contained_ok _
  · split
    · split
      · exact contained_invalid _
      · exact contained_invalid _
      · dsimp only
        split
        · exact contained_ok _
        · exact contained_ok _
    · exact contained_invalid _

theorem coerceInt_contained (schema : FieldSchema) (value : Value) :
    Contained (library.coerceInt schema value) := by
  unfold coerceInt
  rw [contained_bind]
  refine ⟨intOf_contained value, ?_⟩
  intro found _isFound
  rw [contained_bind]
  exact ⟨checkNumber_contained schema _ (shownInt_contained _), fun _unit _checked => contained_ok _⟩

/-- An integer that is too large for a float. -/
def TooLarge (value : Value) : Prop :=
  ∃ number, value = .int number ∧ PyFloat.overflowLimit ≤ number.natAbs

theorem not_tooLarge {value : Value} (notInt : ∀ number, value ≠ .int number) :
    ¬ TooLarge value := by
  intro large
  obtain ⟨number, isInt, _atLeast⟩ := large
  exact notInt number isInt

theorem floatOfInt_eq_none (number : Int) :
    library.floatOfInt number = none ↔ TooLarge (.int number) := by
  unfold floatOfInt TooLarge
  rw [Option.map_eq_none_iff, PyFloat.ofInt_eq_none]
  simp

theorem floatOf_contained_iff (value : Value) :
    Contained (library.floatOf value) ↔ ¬ TooLarge value := by
  unfold floatOf
  split
  · simp [not_tooLarge]
  · rename_i number
    rw [← @floatOfInt_eq_none library]
    cases library.floatOfInt number with
    | none => simp
    | some object => simp
  · have contained : ∀ text, Contained (library.floatOfText text) := by
      intro text
      unfold floatOfText
      dsimp only
      split
      · exact contained_invalid _
      · split
        · exact contained_invalid _
        · exact contained_ok _
    simp [contained, not_tooLarge]
  · rename_i _notBool notInt _notText
    have apart := not_tooLarge notInt
    split
    · split
      · simp [apart]
      · simp [apart]
    · simp [wrongType, apart]

theorem coerceFloat_contained_iff (schema : FieldSchema) (value : Value) :
    Contained (library.coerceFloat schema value) ↔ ¬ TooLarge value := by
  unfold coerceFloat
  rw [contained_bind, floatOf_contained_iff]
  constructor
  · exact And.left
  · intro small
    refine ⟨small, ?_⟩
    intro found _isFound
    rw [contained_bind]
    exact ⟨checkNumber_contained schema _ (contained_ok _), fun _unit _checked => contained_ok _⟩

/-! ### Dates, UUIDs and URLs -/

theorem coerceDate_contained (value : Value) : Contained (library.coerceDate value) := by
  unfold coerceDate
  split
  · dsimp only
    split
    · exact contained_invalid _
    · exact contained_ok _
  · split
    · exact contained_ok _
    · exact contained_ok _
    · exact contained_invalid _

theorem coerceDatetime_contained (value : Value) : Contained (library.coerceDatetime value) := by
  unfold coerceDatetime
  split
  · dsimp only
    split
    · exact contained_ok _
    · split
      · exact contained_ok _
      · exact contained_invalid _
  · split
    · exact contained_ok _
    · exact contained_ok _
    · exact contained_invalid _

theorem coerceUuid_contained (value : Value) : Contained (library.coerceUuid env value) := by
  unfold coerceUuid
  split
  · dsimp only
    split
    · exact contained_invalid _
    · exact contained_ok _
  · exact contained_invalid _

theorem coerceUrl_contained (value : Value) : Contained (library.coerceUrl value) := by
  unfold coerceUrl
  split
  · dsimp only
    split
    · exact contained_invalid _
    · split
      · exact contained_invalid _
      · split
        · exact contained_invalid _
        · split
          · exact contained_invalid _
          · exact contained_ok _
  · exact contained_invalid _

/-! ### Lists -/

variable (library env) in
/-- Converting the item raises something that the loop does not expect. -/
def Overflows (type : ItemType) (item : Value) : Prop :=
  match type with
  | .string => env.reprDepth < item.depth
  | .int => ∃ object negative, library.viewOf item = .float object ∧
      object.number = .infinite negative
  | .float => TooLarge item

variable (library) in
/-- Converting the item raises a `ValueError`, unless it overflows. -/
def Refused (type : ItemType) (item : Value) : Prop :=
  match type, item with
  | .string, _ => ¬ item.Readable
  | .int, .bool _ => False
  | .int, .int _ => False
  | .int, .str text => ∃ reason, library.parseInt (Text.strip text) = .error reason
  | .int, _ => ∀ object, library.viewOf item = .float object → object.number = .nan
  | .float, .bool _ => False
  | .float, .int _ => False
  | .float, .str text => ∃ reason, library.parseFloat (Text.strip text) = .error reason
  | .float, _ => ∀ object, library.viewOf item ≠ .float object

variable (library env) in
/-- No item overflows before one is refused. -/
def ItemsHarmless (type : ItemType) : List Value → Prop
  | [] => True
  | item :: rest =>
      ¬ library.Overflows env type item ∧
        (library.Refused type item ∨ ItemsHarmless type rest)

/-- The three ways in which a conversion ends. -/
inductive Ends (overflows refused : Prop) (outcome : Except CoercionFault Value) : Prop where
  | raises (fault : Uncaught) (isRaised : outcome = .error (.uncaught fault)) (beyond : overflows)
  | refuses (reason : Text) (isRefused : outcome = .error (.invalid reason))
      (within : ¬ overflows) (bad : refused)
  | converts (converted : Value) (isConverted : outcome = .ok converted)
      (within : ¬ overflows) (good : ¬ refused)

theorem textItem_ends (item : Value) :
    Ends (library.Overflows env .string item) (library.Refused .string item)
      (library.convertItem env .string item) := by
  unfold convertItem
  dsimp only
  have returns := pyStr_returns_iff env item
  have contained := coercedText_contained_iff env item
  cases shown : coercedText env item with
  | ok text =>
      have readable := returns.mp ⟨text, (coercedText_ok_iff env item text).mp shown⟩
      apply Ends.converts (.str text) rfl
      · exact Nat.not_lt.mpr readable.2
      · exact fun unreadable => unreadable readable.1
  | error fault =>
      rw [shown] at contained
      cases fault with
      | uncaught reason =>
          apply Ends.raises reason rfl
          exact Nat.not_le.mp (fun shallow => not_contained_uncaught reason (contained.mpr shallow))
      | invalid message =>
          have shallow := contained.mp (contained_invalid message)
          apply Ends.refuses message rfl
          · exact Nat.not_lt.mpr shallow
          · intro readable
            obtain ⟨text, isText⟩ := returns.mpr ⟨readable, shallow⟩
            rw [← coercedText_ok_iff, shown] at isText
            cases isText

/-- An item that is no boolean, integer or string is converted by what it is seen as. -/
theorem viewedToInt_ends {item : Value} (notBool : ∀ flag, item ≠ .bool flag)
    (notInt : ∀ number, item ≠ .int number) (notText : ∀ text, item ≠ .str text) :
    Ends (library.Overflows env .int item) (library.Refused .int item)
      (library.itemToInt item) := by
  have refusal : library.Refused .int item ↔
      ∀ object, library.viewOf item = .float object → object.number = .nan := by
    rw [Refused]
    · exact notBool
    · exact notInt
    · exact notText
  have overflow : library.Overflows env .int item ↔ ∃ object negative,
      library.viewOf item = .float object ∧ object.number = .infinite negative := Iff.rfl
  rw [itemToInt, refusal, overflow]
  · cases view : library.viewOf item with
    | float object =>
        cases isNumber : object.number with
        | nan =>
            dsimp only
            rw [isNumber]
            exact Ends.refuses _ rfl (by simp [isNumber]) (by simp [isNumber])
        | infinite negative =>
            dsimp only
            rw [isNumber]
            exact Ends.raises .overflowError rfl (by simp [isNumber])
        | finite exactly =>
            dsimp only
            rw [isNumber]
            exact Ends.converts _ rfl (by simp [isNumber]) (by simp [isNumber])
    | date iso => exact Ends.refuses _ rfl (by simp) (by simp)
    | datetime iso dateIso => exact Ends.refuses _ rfl (by simp) (by simp)
    | collection items => exact Ends.refuses _ rfl (by simp) (by simp)
    | unknown => exact Ends.refuses _ rfl (by simp) (by simp)
  · exact notBool
  · exact notInt
  · exact notText

theorem intItem_ends (item : Value) :
    Ends (library.Overflows env .int item) (library.Refused .int item)
      (library.convertItem env .int item) := by
  have viewed := @viewedToInt_ends library env item
  cases item with
  | bool flag => exact Ends.converts _ rfl (by simp [Overflows, viewOf]) (by simp [Refused])
  | int number => exact Ends.converts _ rfl (by simp [Overflows, viewOf]) (by simp [Refused])
  | str text =>
      have within : ¬ library.Overflows env .int (.str text) := by
        simp [Overflows, viewOf]
      unfold convertItem
      dsimp only
      rw [itemToInt, Refused]
      cases library.parseInt (Text.strip text) with
      | ok number => exact Ends.converts _ rfl within (by simp)
      | error reason => exact Ends.refuses reason rfl within ⟨reason, rfl⟩
  | null => exact viewed (by simp) (by simp) (by simp)
  | list items => exact viewed (by simp) (by simp) (by simp)
  | map entries => exact viewed (by simp) (by simp) (by simp)
  | other truthy printed => exact viewed (by simp) (by simp) (by simp)

theorem viewedToFloat_ends {item : Value} (notBool : ∀ flag, item ≠ .bool flag)
    (notInt : ∀ number, item ≠ .int number) (notText : ∀ text, item ≠ .str text) :
    Ends (library.Overflows env .float item) (library.Refused .float item)
      (library.itemToFloat item) := by
  have refusal : library.Refused .float item ↔
      ∀ object, library.viewOf item ≠ .float object := by
    rw [Refused]
    · exact notBool
    · exact notInt
    · exact notText
  have within : ¬ library.Overflows env .float item := not_tooLarge notInt
  rw [itemToFloat, refusal]
  · cases library.viewOf item with
    | float object => exact Ends.converts _ rfl within (by simp)
    | date iso => exact Ends.refuses _ rfl within (by simp)
    | datetime iso dateIso => exact Ends.refuses _ rfl within (by simp)
    | collection items => exact Ends.refuses _ rfl within (by simp)
    | unknown => exact Ends.refuses _ rfl within (by simp)
  · exact notBool
  · exact notInt
  · exact notText

theorem floatItem_ends (item : Value) :
    Ends (library.Overflows env .float item) (library.Refused .float item)
      (library.convertItem env .float item) := by
  have viewed := @viewedToFloat_ends library env item
  cases item with
  | bool flag =>
      exact Ends.converts _ rfl (not_tooLarge (by simp)) (by simp [Refused])
  | int number =>
      have overflow := @floatOfInt_eq_none library number
      unfold convertItem
      dsimp only
      rw [itemToFloat, Refused]
      cases isFloat : library.floatOfInt number with
      | none => exact Ends.raises .overflowError rfl (overflow.mp isFloat)
      | some object =>
          apply Ends.converts object.value rfl _ (by simp)
          intro large
          rw [overflow.mpr large] at isFloat
          cases isFloat
  | str text =>
      have within : ¬ library.Overflows env .float (.str text) := not_tooLarge (by simp)
      unfold convertItem
      dsimp only
      rw [itemToFloat, Refused]
      cases library.parseFloat (Text.strip text) with
      | ok object => exact Ends.converts _ rfl within (by simp)
      | error reason => exact Ends.refuses reason rfl within ⟨reason, rfl⟩
  | null => exact viewed (by simp) (by simp) (by simp)
  | list items => exact viewed (by simp) (by simp) (by simp)
  | map entries => exact viewed (by simp) (by simp) (by simp)
  | other truthy printed => exact viewed (by simp) (by simp) (by simp)

theorem convertItem_ends (type : ItemType) (item : Value) :
    Ends (library.Overflows env type item) (library.Refused type item)
      (library.convertItem env type item) := by
  cases type with
  | string => exact textItem_ends item
  | int => exact intItem_ends item
  | float => exact floatItem_ends item

theorem convertItems_contained_iff (type : ItemType) (index : Nat) (items : List Value) :
    Contained (library.convertItems env type index items) ↔
      library.ItemsHarmless env type items := by
  induction items generalizing index with
  | nil => exact ⟨fun _contained => trivial, fun _harmless => contained_ok _⟩
  | cons item rest ih =>
      rw [convertItems, ItemsHarmless]
      cases @convertItem_ends library env type item with
      | raises fault isRaised beyond =>
          rw [isRaised]
          simp [beyond]
      | refuses reason isRefused within bad =>
          rw [isRefused]
          simp [within, bad]
      | converts converted isConverted within good =>
          rw [isConverted, ← ih (index + 1)]
          dsimp only
          cases library.convertItems env type (index + 1) rest with
          | ok others => simp [Except.map, within, good]
          | error fault => cases fault <;> simp [Except.map, within, good]

variable (library) in
/-- The items of a list, a tuple or a set. -/
def itemsOf (value : Value) : List Value :=
  match value with
  | .list items => items
  | _ =>
      match library.viewOf value with
      | .collection items => items
      | _ => []

/-- Strings do not overflow. -/
theorem itemsHarmless_of_texts (type : ItemType) (texts : List Text) :
    library.ItemsHarmless env type (texts.map Value.str) := by
  induction texts with
  | nil => trivial
  | cons head tail ih =>
      rw [List.map_cons, ItemsHarmless]
      refine ⟨?_, Or.inr ih⟩
      cases type with
      | string => simp [Overflows, Value.depth]
      | int => simp [Overflows, viewOf]
      | float => exact not_tooLarge (by simp)

theorem listItems_contained (value : Value) : Contained (library.listItems value) := by
  unfold listItems
  split
  · exact contained_ok _
  · exact contained_ok _
  · split
    · exact contained_ok _
    · exact contained_invalid _

/-- The items of a string are harmless, and other values that are no lists have none. -/
theorem listItems_harmless_iff (type : ItemType) (value : Value) :
    (∀ given, library.listItems value = .ok given → library.ItemsHarmless env type given.1) ↔
      library.ItemsHarmless env type (library.itemsOf value) := by
  cases value with
  | list items => simp [listItems, itemsOf]
  | str text =>
      constructor
      · intro _harmless
        trivial
      · intro _none given isGiven
        cases isGiven
        exact itemsHarmless_of_texts type _
  | other truthy printed =>
      rw [listItems, itemsOf]
      · cases library.viewOf (.other truthy printed) with
        | collection items => simp
        | float object => simp [ItemsHarmless]
        | date iso => simp [ItemsHarmless]
        | datetime iso dateIso => simp [ItemsHarmless]
        | unknown => simp [ItemsHarmless]
      · simp
      · simp
      · simp
  | null => simp [listItems, itemsOf, viewOf, ItemsHarmless]
  | bool flag => simp [listItems, itemsOf, viewOf, ItemsHarmless]
  | int number => simp [listItems, itemsOf, viewOf, ItemsHarmless]
  | map entries => simp [listItems, itemsOf, viewOf, ItemsHarmless]

theorem checkCount_contained (schema : FieldSchema) (count : Nat) :
    Contained (checkCount schema count) := by
  unfold checkCount
  dsimp only
  split
  · exact contained_invalid _
  · split
    · exact contained_invalid _
    · exact contained_ok _

theorem coerceList_contained_iff (schema : FieldSchema) (value : Value) :
    Contained (library.coerceList env schema value) ↔
      library.ItemsHarmless env (schema.itemType.getD .string) (library.itemsOf value) := by
  rw [← listItems_harmless_iff]
  unfold coerceList
  rw [contained_bind]
  constructor
  · intro contained given isGiven
    have converted := contained.2 given isGiven
    rw [contained_bind, convertItems_contained_iff] at converted
    exact converted.1
  · intro harmless
    refine ⟨listItems_contained value, ?_⟩
    intro given isGiven
    rw [contained_bind, convertItems_contained_iff]
    refine ⟨harmless given isGiven, ?_⟩
    intro result _isResult
    rw [contained_bind]
    exact ⟨checkCount_contained schema _, fun _unit _checked => contained_ok _⟩

/-! ### `coerce_value` and `validate` -/

variable (library env) in
/-- The value raises nothing but `ValueError` where it is coerced to the type. -/
def Harmless (type : FieldType) (schema : FieldSchema) (value : Value) : Prop :=
  match type with
  | .string => value.depth ≤ env.reprDepth ∧ library.PatternCompiles env schema value
  | .enum => schema.values = [] ∨ value.depth ≤ env.reprDepth
  | .float => ¬ TooLarge value
  | .list =>
      library.ItemsHarmless env (schema.itemType.getD .string) (library.itemsOf value)
  | _ => True

theorem coercionFunction_contained_iff (type : FieldType) (schema : FieldSchema) (value : Value) :
    Contained (library.coercionFunction env type schema value) ↔
      library.Harmless env type schema value := by
  have always : ∀ {outcome : CoercionOutcome}, Contained outcome → (Contained outcome ↔ True) :=
    fun contained => iff_true_intro contained
  cases type with
  | string => exact coerceString_contained_iff schema value
  | int => exact always (coerceInt_contained schema value)
  | float => exact coerceFloat_contained_iff schema value
  | bool => exact always (coerceBool_contained value)
  | date => exact always (coerceDate_contained value)
  | datetime => exact always (coerceDatetime_contained value)
  | uuid => exact always (coerceUuid_contained value)
  | url => exact always (coerceUrl_contained value)
  | enum => exact coerceEnum_contained_iff schema value
  | list => exact coerceList_contained_iff schema value

end StandardLibrary

/-- A dictionary, whose keys may be of any type. -/
structure Dictionary where
  entries : Mapping
  distinct : (entries.map Prod.fst).Nodup

namespace StandardLibrary

variable {library : StandardLibrary} {env : Env}

theorem validator_returns_iff (config : FrontmatterSchemaConfig) (generated : Text → Value)
    (data : Dictionary) :
    (∃ result, (library.validator env config generated).validate data.entries = .ok result) ↔
      (config.enabled = true →
        (∀ entry ∈ data.entries, FrontmatterValidator.HasLower entry.1) ∧
          ∀ field ∈ config.schema, ∀ value,
            (library.validator env config generated).keptValue data.entries (.text field.1) =
              some value →
            library.Harmless env field.2.type field.2 value) := by
  cases enabled : config.enabled with
  | false =>
      constructor
      · intro _returned impossible
        cases impossible
      · intro _conditions
        unfold FrontmatterValidator.validate validator
        rw [enabled]
        exact ⟨_, rfl⟩
  | true =>
      rw [FrontmatterValidator.validate_returns_iff data.distinct enabled]
      have contained : ∀ (field : Text × FieldSchema) (value : Value),
          Contained ((library.validator env config generated).coerce field.2 value) ↔
            library.Harmless env field.2.type field.2 value :=
        fun field value => coercionFunction_contained_iff field.2.type field.2 value
      constructor
      · intro conditions _isEnabled
        refine ⟨conditions.1, ?_⟩
        intro field member value kept
        exact (contained field value).mp (conditions.2 field member value kept)
      · intro conditions
        obtain ⟨lowered, harmless⟩ := conditions rfl
        refine ⟨lowered, ?_⟩
        intro field member value kept
        exact (contained field value).mpr (harmless field member value kept)

/-- A coercion raises nothing but `ValueError` exactly for harmless values, and validation
returns exactly where every key has a `lower` and every value that is coerced is harmless. -/
theorem errors_contained_iff (library : StandardLibrary) (env : Env) :
    (∀ type schema value, Contained (library.coercionFunction env type schema value) ↔
      library.Harmless env type schema value) ∧
    ∀ config generated (data : Dictionary),
      (∃ result, (library.validator env config generated).validate data.entries = .ok result) ↔
        (config.enabled = true →
          (∀ entry ∈ data.entries, FrontmatterValidator.HasLower entry.1) ∧
            ∀ field ∈ config.schema, ∀ value,
              (library.validator env config generated).keptValue data.entries (.text field.1) =
                some value →
              library.Harmless env field.2.type field.2 value) := by
  constructor
  · exact coercionFunction_contained_iff
  · exact validator_returns_iff

/-! ### A year as a key, and an infinity in a list of integers -/

/-- A library that knows the infinity and parses nothing. -/
def plain : StandardLibrary :=
  { typeName := fun _object => "object".toList
    patternMatches := fun _pattern _text => some true
    view := fun _truthy printed =>
      if printed = some ("inf".toList, "inf".toList) then
        .float { number := .infinite false, shown := "inf".toList }
      else .unknown
    floatText := fun _number => []
    parseInt := fun _text => .error "invalid literal for int()".toList
    parseFloat := fun _text => .error "could not convert string to float".toList
    parseDate := fun _text => none
    parseDatetime := fun _text => none
    parseUuid := fun _text => none
    parseUrl := fun _text => .ok ([], []) }

def infinity : Value :=
  .other true (some ("inf".toList, "inf".toList))

/-- Without any field in the schema, validating `2024: null` raises `AttributeError`; and
`coerce_list` raises `OverflowError` on an infinity. -/
theorem year_not_contained :
    (plain.validator Env.plain { enabled := true } (fun _field => .null)).validate
        [(.other "2024".toList, .null)] = .error .attributeError ∧
      ¬ Contained (plain.coercionFunction Env.plain .list { type := .list, itemType := some .int }
        (.list [infinity])) := by
  constructor
  · rfl
  · rw [coercionFunction_contained_iff]
    intro harmless
    exact harmless.1 ⟨_, false, rfl, rfl⟩

end StandardLibrary

end VaultSearch
