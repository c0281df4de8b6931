/-
What a second validation makes of validated data.

The validated data has the fields of the schema first, in the order of the schema, and the
extra fields after them under the names they were given.  The second alias resolution looks
the names up again, so that a field whose name stands for another field is taken for it.
-/

import VaultSearch.Frontmatter.CleanValidation
import VaultSearch.Frontmatter.Conformance

set_option autoImplicit false

namespace VaultSearch.FrontmatterValidator

variable {validator : FrontmatterValidator}

/-! ### The order of the validated data -/

/-- What one field adds to the validated data. -/
def addedField (field : Text × FieldSchema) (written : Option Value) : Option (Key × Value) :=
  written.map (fun value => (Key.text field.1, value))

theorem validatedData_validateMissing {found : Findings} {fieldName : Text}
    {schema : FieldSchema} (fresh : found.validatedData.lookup (.text fieldName) = none) :
    (validator.validateMissing found fieldName schema).validatedData =
      found.validatedData ++
        (addedField (fieldName, schema) (validator.missingValue fieldName schema)).toList := by
  unfold validateMissing missingValue addedField
  cases schema.onMissing with
  | require => exact (List.append_nil _).symm
  | ignore => exact (List.append_nil _).symm
  | auto =>
      dsimp only
      cases validator.autoGenerate fieldName schema with
      | ok generated => exact OrderedDict.set_fresh fresh generated
      | error reason => exact (List.append_nil _).symm
  | suggest =>
      dsimp only
      cases givenDefault schema with
      | none => exact (List.append_nil _).symm
      | some preset => exact OrderedDict.set_fresh fresh preset

theorem validatedData_validateField {data : Mapping} {found next : Findings}
    {field : Text × FieldSchema} (done : validator.validateField data found field = .ok next)
    (fresh : found.validatedData.lookup (.text field.1) = none) :
    next.validatedData = found.validatedData ++
      (addedField field
        (validator.fieldValue (data.lookup (.text field.1)) field.1 field.2)).toList := by
  unfold validateField at done
  unfold fieldValue
  cases present : data.lookup (.text field.1) with
  | none =>
      rw [present] at done
      cases done
      exact validatedData_validateMissing fresh
  | some value =>
      rw [present] at done
      unfold validatePresent at done
      dsimp only at done ⊢
      cases outcome : validator.coerce field.2 value with
      | ok coerced =>
          rw [outcome] at done
          cases done
          exact OrderedDict.set_fresh fresh coerced.1
      | error fault =>
          rw [outcome] at done
          cases fault with
          | invalid message =>
              cases done
              exact (List.append_nil _).symm
          | uncaught reason => cases done

/-- The fields of the schema stand in its order. -/
theorem validatedData_validateSchema {data : Mapping} {schema : List (Text × FieldSchema)}
    {found final : Findings} (distinct : (schema.map Prod.fst).Nodup)
    (fresh : ∀ field ∈ schema, found.validatedData.lookup (.text field.1) = none)
    (done : schema.foldlM (validator.validateField data) found = .ok final) :
    final.validatedData = found.validatedData ++ schema.filterMap (fun field =>
      addedField field
        (validator.fieldValue (data.lookup (.text field.1)) field.1 field.2)) := by
  induction schema generalizing found with
  | nil =>
      cases done
      exact (List.append_nil _).symm
  | cons head tail ih =>
      rw [List.foldlM_cons] at done
      obtain ⟨next, first, rest⟩ := bind_ok done
      rw [List.map_cons, List.nodup_cons] at distinct
      have step := validatedData_validateField first (fresh head List.mem_cons_self)
      have nextFresh : ∀ field ∈ tail, next.validatedData.lookup (.text field.1) = none := by
        intro field member
        have apart : Key.text field.1 ≠ Key.text head.1 := by
          intro same
          apply distinct.1
          rw [← Key.text.inj same]
          exact List.mem_map_of_mem member
        rw [assigns_validateField first (.text field.1), if_neg apart]
        exact fresh field (List.mem_cons_of_mem _ member)
      rw [ih distinct.2 nextFresh rest, step, List.append_assoc, List.filterMap_cons]
      cases addedField head
          (validator.fieldValue (data.lookup (.text head.1)) head.1 head.2) with
      | none => rfl
      | some entry => rfl

/-- The extra fields come after what is there, under their own keys. -/
theorem validatedData_validateExtras (data : Mapping) (found : Findings) :
    ∃ extras, (data.foldl validator.validateExtra found).validatedData =
      found.validatedData ++ extras ∧
        ∀ entry ∈ extras, entry ∈ data ∧ validator.inSchema entry.1 = false := by
  induction data generalizing found with
  | nil => exact ⟨[], (List.append_nil _).symm, fun _entry impossible => nomatch impossible⟩
  | cons head tail ih =>
      rw [List.foldl_cons]
      obtain ⟨extras, isAdded, outside⟩ := ih (validator.validateExtra found head)
      have later : ∀ entry ∈ extras, entry ∈ head :: tail ∧ validator.inSchema entry.1 = false :=
        fun entry member => ⟨List.mem_cons_of_mem _ (outside entry member).1,
          (outside entry member).2⟩
      rw [isAdded]
      unfold validateExtra
      split
      · exact ⟨extras, rfl, later⟩
      · rename_i unknown
        rw [Bool.or_eq_true, not_or, Bool.not_eq_true] at unknown
        split
        · dsimp only
          refine ⟨head :: extras, ?_, ?_⟩
          · rw [OrderedDict.set_fresh (Option.not_isSome_iff_eq_none.mp unknown.2),
              List.append_assoc]
            rfl
          · intro entry member
            cases List.mem_cons.mp member with
            | inl same =>
                rw [same]
                exact ⟨List.mem_cons_self, unknown.1⟩
            | inr inExtras => exact later entry inExtras
        · exact ⟨extras, rfl, later⟩

/-! ### The keys of the validated data are distinct -/

theorem distinct_validateField {data : Mapping} {found next : Findings}
    {field : Text × FieldSchema} (done : validator.validateField data found field = .ok next)
    (distinct : (found.validatedData.map Prod.fst).Nodup) :
    (next.validatedData.map Prod.fst).Nodup := by
  unfold validateField at done
  cases present : data.lookup (.text field.1) with
  | none =>
      rw [present] at done
      cases done
      unfold validateMissing
      cases field.2.onMissing with
      | require => exact distinct
      | ignore => exact distinct
      | auto =>
          dsimp only
          cases validator.autoGenerate field.1 field.2 with
          | ok generated => exact OrderedDict.distinct_set distinct _ generated
          | error reason => exact distinct
      | suggest =>
          dsimp only
          cases givenDefault field.2 with
          | none => exact distinct
          | some preset => exact OrderedDict.distinct_set distinct _ preset
  | some value =>
      rw [present] at done
      unfold validatePresent at done
      dsimp only at done
      cases outcome : validator.coerce field.2 value with
      | ok coerced =>
          rw [outcome] at done
          cases done
          exact OrderedDict.distinct_set distinct _ coerced.1
      | error fault =>
          rw [outcome] at done
          cases fault with
          | invalid message =>
              cases done
              exact distinct
          | uncaught reason => cases done

theorem distinct_validateSchema {data : Mapping} {schema : List (Text × FieldSchema)}
    {found final : Findings}
    (done : schema.foldlM (validator.validateField data) found = .ok final)
    (distinct : (found.validatedData.map Prod.fst).Nodup) :
    (final.validatedData.map Prod.fst).Nodup := by
  induction schema generalizing found with
  | nil =>
      cases done
      exact distinct
  | cons head tail ih =>
      rw [List.foldlM_cons] at done
      obtain ⟨next, first, rest⟩ := bind_ok done
      exact ih rest (distinct_validateField first distinct)

theorem distinct_validateExtras (data : Mapping) {found : Findings}
    (distinct : (found.validatedData.map Prod.fst).Nodup) :
    ((data.foldl validator.validateExtra found).validatedData.map Prod.fst).Nodup := by
  induction data generalizing found with
  | nil => exact distinct
  | cons head tail ih =>
      rw [List.foldl_cons]
      apply ih
      unfold validateExtra
      split
      · exact distinct
      · split
        · exact OrderedDict.distinct_set distinct _ head.2
        · exact distinct

theorem distinct_validated {data : Mapping} {result : ValidationResult}
    (enabled : validator.config.enabled = true) (done : validator.validate data = .ok result) :
    (result.validatedData.map Prod.fst).Nodup := by
  unfold validate at done
  rw [enabled, Bool.not_true, if_neg Bool.false_ne_true] at done
  obtain ⟨so, _resolved, afterAliases⟩ := bind_ok done
  obtain ⟨schematic, checked, ended⟩ := bind_ok afterAliases
  cases ended
  rw [conclude_validatedData]
  exact distinct_validateExtras so.resolved (distinct_validateSchema checked List.nodup_nil)

/-! ### Keys that stand for themselves -/

/-- Outside the schema a canonical key is the key that was given. -/
theorem canonicalKey_outside {key : Key}
    (outside : validator.inSchema (validator.canonicalKey key) = false) :
    validator.canonicalKey (validator.canonicalKey key) = validator.canonicalKey key ∧
      validator.canonicalKey key = key := by
  cases key with
  | other identity => exact ⟨rfl, rfl⟩
  | text name =>
      have unchanged : validator.canonicalName name = name := by
        unfold canonicalName
        cases found : validator.aliasMap.lookup (validator.lower name) with
        | none => rfl
        | some canonical =>
            obtain ⟨field, member, isName⟩ := mem_of_aliasMap found
            unfold canonicalKey canonicalName at outside
            dsimp only at outside
            rw [found] at outside
            have inside : validator.inSchema (.text canonical) = true := by
              unfold inSchema
              rw [List.any_eq_true]
              exact ⟨field, member, decide_eq_true (congrArg Key.text isName)⟩
            rw [show validator.inSchema (.text canonical) = false from outside] at inside
            cases inside
      have same : validator.canonicalKey (.text name) = .text name := congrArg Key.text unchanged
      rw [same, same]
      exact ⟨rfl, rfl⟩

/-- The name of a field stands for some field. -/
theorem inSchema_canonicalName {field : Text × FieldSchema}
    (member : field ∈ validator.config.schema) :
    validator.inSchema (.text (validator.canonicalName field.1)) = true := by
  obtain ⟨canonical, found⟩ := Option.isSome_iff_exists.mp (aliasMap_of_mem member)
  obtain ⟨other, inside, isName⟩ := mem_of_aliasMap found
  unfold canonicalName inSchema
  rw [found, List.any_eq_true]
  exact ⟨other, inside, decide_eq_true (congrArg Key.text isName)⟩

/-- The validated data: the fields of the schema, then extra fields that keep their keys. -/
theorem validatedData_eq {data : Mapping} {result : ValidationResult}
    (distinct : (data.map Prod.fst).Nodup) (enabled : validator.config.enabled = true)
    (done : validator.validate data = .ok result) :
    ∃ extras, result.validatedData = validator.config.schema.filterMap (fun field =>
        addedField field (validator.validatedValue data (.text field.1))) ++ extras ∧
      ∀ entry ∈ extras, validator.inSchema entry.1 = false ∧
        validator.canonicalKey entry.1 = entry.1 ∧ HasLower entry.1 := by
  have lowered := (validate_returns_iff distinct enabled).mp ⟨result, done⟩
  unfold validate at done
  rw [enabled, Bool.not_true, if_neg Bool.false_ne_true] at done
  obtain ⟨so, resolved, afterAliases⟩ := bind_ok done
  obtain ⟨schematic, checked, ended⟩ := bind_ok afterAliases
  cases ended
  obtain ⟨extras, isAdded, outside⟩ := @validatedData_validateExtras validator so.resolved schematic
  refine ⟨extras, ?_, ?_⟩
  · rw [conclude_validatedData, isAdded, validatedData_validateSchema validator.config.distinct
      (fun _field _member => rfl) checked]
    congr 1
    apply List.filterMap_congr
    intro field member
    unfold validatedValue
    rw [schemaOf_of_mem validator.config.distinct member, lookup_resolved distinct resolved]
  · intro entry member
    obtain ⟨isResolved, isOutside⟩ := outside entry member
    obtain ⟨given, isGiven, same⟩ :=
      (mem_resolved_iff distinct resolved entry.1).mp ⟨entry, isResolved, rfl⟩
    rw [← same] at isOutside ⊢
    obtain ⟨again, unchanged⟩ := canonicalKey_outside isOutside
    refine ⟨isOutside, again, ?_⟩
    rw [unchanged]
    exact lowered.1 given isGiven

/-! ### The fields found again -/

variable (validator) in
/-- The first field that is written under a name which stands for this one. -/
def standsFor (data : Mapping) (name : Text) : Option (Text × FieldSchema) :=
  validator.config.schema.find? (fun field =>
    (validator.validatedValue data (.text field.1)).isSome &&
      validator.canonicalName field.1 = name)

variable (validator) in
/-- The value a second validation finds under the name of a field. -/
def foundAgain (data : Mapping) (name : Text) : Option Value :=
  (validator.standsFor data name).bind (fun field =>
    validator.validatedValue data (.text field.1))

theorem keptValue_append_outside {front extras : Mapping} {key : Key}
    (outside : ∀ entry ∈ extras, validator.canonicalKey entry.1 ≠ key) :
    validator.keptValue (front ++ extras) key = validator.keptValue front key := by
  have none : validator.firstWith extras key = none := by
    unfold firstWith
    rw [List.find?_eq_none]
    intro entry member same
    exact outside entry member (beq_iff_eq.mp same)
  unfold keptValue
  rw [firstWith_append, none, Option.or_none]

/-- Where every key stands for itself nothing is moved. -/
theorem keptValue_of_canonical {data : Mapping}
    (canonical : ∀ entry ∈ data, validator.canonicalKey entry.1 = entry.1) (key : Key) :
    validator.keptValue data key = data.lookup key := by
  induction data with
  | nil => rfl
  | cons head tail ih =>
      have later := ih (fun entry member => canonical entry (List.mem_cons_of_mem _ member))
      unfold keptValue firstWith at later ⊢
      rw [List.find?_cons, canonical head List.mem_cons_self]
      by_cases here : head.1 = key
      · rw [beq_iff_eq.mpr here, ← here]
        exact (OrderedDict.lookup_head head.1 head.2 tail).symm
      · rw [beq_false_of_ne here, OrderedDict.lookup_tail head.2 tail (fun same => here same.symm)]
        exact later

theorem standsFor_iff (field : Text × FieldSchema) (written : Option Value) (name : Text) :
    (addedField field written).any
        (fun entry => validator.canonicalKey entry.1 == .text name) =
      (written.isSome && validator.canonicalName field.1 = name) := by
  cases written with
  | none => rfl
  | some value =>
      unfold addedField canonicalKey
      dsimp only [Option.map_some, Option.any_some, Option.isSome_some]
      rw [Bool.true_and]
      by_cases same : validator.canonicalName field.1 = name
      · rw [decide_eq_true same, same, beq_self_eq_true]
      · rw [decide_eq_false same]
        exact beq_false_of_ne (fun equal => same (Key.text.inj equal))

/-- In the validated data a field has the value of the first field that stands for it. -/
theorem keptValue_validated {data : Mapping} {result : ValidationResult}
    (distinct : (data.map Prod.fst).Nodup) (enabled : validator.config.enabled = true)
    (done : validator.validate data = .ok result) {field : Text × FieldSchema}
    (member : field ∈ validator.config.schema) :
    validator.keptValue result.validatedData (.text field.1) =
      validator.foundAgain data field.1 := by
  obtain ⟨extras, isData, outside⟩ := validatedData_eq distinct enabled done
  have apart : ∀ entry ∈ extras, validator.canonicalKey entry.1 ≠ .text field.1 := by
    intro entry isExtra same
    obtain ⟨notInside, keeps, _lowered⟩ := outside entry isExtra
    rw [← keeps, same] at notInside
    have inside : validator.inSchema (.text field.1) = true := by
      rw [inSchema_iff, schemaOf_of_mem validator.config.distinct member]
      rfl
    rw [inside] at notInside
    cases notInside
  rw [isData, keptValue_append_outside apart]
  unfold keptValue firstWith foundAgain standsFor
  rw [List.find?_filterMap, Option.map_bind]
  simp only [standsFor_iff]
  congr 1
  funext other
  unfold addedField
  rw [Function.comp_apply, Option.map_map]
  cases validator.validatedValue data (.text other.1) with
  | none => rfl
  | some value => rfl

/-- Under the other keys stands what stood there. -/
theorem keptValue_validated_outside {data : Mapping} {result : ValidationResult}
    (distinct : (data.map Prod.fst).Nodup) (enabled : validator.config.enabled = true)
    (done : validator.validate data = .ok result) {key : Key}
    (isOutside : validator.inSchema key = false) :
    validator.keptValue result.validatedData key = result.validatedData.lookup key := by
  obtain ⟨extras, isData, outside⟩ := validatedData_eq distinct enabled done
  have fields : ∀ entry ∈ validator.config.schema.filterMap (fun field =>
      addedField field (validator.validatedValue data (.text field.1))),
        validator.inSchema (validator.canonicalKey entry.1) = true ∧
          validator.inSchema entry.1 = true := by
    intro entry member
    obtain ⟨field, isField, isAdded⟩ := List.mem_filterMap.mp member
    obtain ⟨value, _isWritten, same⟩ := Option.map_eq_some_iff.mp isAdded
    rw [← same]
    refine ⟨inSchema_canonicalName isField, ?_⟩
    rw [inSchema_iff, schemaOf_of_mem validator.config.distinct isField]
    rfl
  have keeps := @keptValue_of_canonical validator extras
    (fun entry member => (outside entry member).2.1) key
  have noField : validator.firstWith (validator.config.schema.filterMap (fun field =>
      addedField field (validator.validatedValue data (.text field.1)))) key = none := by
    unfold firstWith
    rw [List.find?_eq_none]
    intro entry member same
    have inside := (fields entry member).1
    rw [beq_iff_eq.mp same, isOutside] at inside
    cases inside
  have notThere : (validator.config.schema.filterMap (fun field =>
      addedField field (validator.validatedValue data (.text field.1)))).lookup key = none := by
    rw [OrderedDict.lookup_eq_none]
    intro entry member same
    have inside := (fields entry member).2
    rw [same, isOutside] at inside
    cases inside
  rw [isData, OrderedDict.lookup_append, notThere, Option.none_or, ← keeps]
  unfold keptValue
  rw [firstWith_append, noField, Option.none_or]

/-! ### The second validation -/

variable (validator) in
/-- The validator at a later time, when other values are generated. -/
def later (generated : Text → Value) : FrontmatterValidator :=
  { validator with generated }

variable (validator) in
/-- The field is accepted again, and has the value it has. -/
def FieldSettled (generated : Text → Value) (data : Mapping) (field : Text × FieldSchema) : Prop :=
  validator.FieldClean (validator.foundAgain data field.1) field.2 ∧
    (validator.later generated).fieldValue (validator.foundAgain data field.1) field.1 field.2 =
      validator.validatedValue data (.text field.1)

variable (validator) in
/-- Validating the validated data is valid and returns it unchanged. -/
def ValidAgain (generated : Text → Value) (result : ValidationResult) : Prop :=
  ∃ again, (validator.later generated).validate result.validatedData = .ok again ∧
    again.valid = true ∧
    ∀ key, again.validatedData.lookup key = result.validatedData.lookup key

theorem contained_of_fieldClean {kept : Option Value} {schema : FieldSchema}
    (clean : validator.FieldClean kept schema) :
    ∀ value, kept = some value → Contained (validator.coerce schema value) := by
  intro value isKept
  rw [isKept] at clean
  obtain ⟨outcome, coerced⟩ := clean
  rw [coerced]
  exact contained_ok outcome

theorem valid_iff_clean {data : Mapping} {result : ValidationResult}
    (reports : validator.config.mode ≠ .warnOnly) (enabled : validator.config.enabled = true)
    (done : validator.validate data = .ok result) :
    result.valid = true ↔ result.errors = [] := by
  unfold validate at done
  rw [enabled, Bool.not_true, if_neg Bool.false_ne_true] at done
  obtain ⟨so, _resolved, afterAliases⟩ := bind_ok done
  obtain ⟨schematic, _checked, ended⟩ := bind_ok afterAliases
  cases ended
  obtain ⟨errors, valid⟩ := conclude_reports reports
    (so.resolved.foldl validator.validateExtra schematic)
  rw [errors, valid, List.isEmpty_iff]

/-- The keys of the validated data are admitted again. -/
theorem admitted_validated {data : Mapping} {result : ValidationResult}
    (distinct : (data.map Prod.fst).Nodup) (enabled : validator.config.enabled = true)
    (done : validator.validate data = .ok result)
    (refused : validator.config.allowExtraFields = false) :
    ∀ entry ∈ result.validatedData,
      validator.inSchema (validator.canonicalKey entry.1) = true := by
  obtain ⟨extras, isData, outside⟩ := validatedData_eq distinct enabled done
  intro entry member
  have present : (result.validatedData.lookup entry.1).isSome = true :=
    OrderedDict.lookup_isSome.mpr ⟨entry, member, rfl⟩
  rw [isData] at member
  cases List.mem_append.mp member with
  | inl isField =>
      obtain ⟨field, inSchema, isAdded⟩ := List.mem_filterMap.mp isField
      obtain ⟨value, _isWritten, same⟩ := Option.map_eq_some_iff.mp isAdded
      rw [← same]
      exact inSchema_canonicalName inSchema
  | inr isExtra =>
      -- nothing is written under a key outside the schema
      exfalso
      obtain ⟨notInside, _keeps, _lowered⟩ := outside entry isExtra
      rw [lookup_validate distinct enabled done] at present
      unfold validatedValue at present
      cases isField : schemaOf validator.config.schema entry.1 with
      | some field =>
          rw [Bool.eq_false_iff] at notInside
          apply notInside
          rw [inSchema_iff, isField]
          rfl
      | none =>
          rw [isField, refused] at present
          cases present

theorem lowered_validated {data : Mapping} {result : ValidationResult}
    (distinct : (data.map Prod.fst).Nodup) (enabled : validator.config.enabled = true)
    (done : validator.validate data = .ok result) :
    ∀ entry ∈ result.validatedData, HasLower entry.1 := by
  obtain ⟨extras, isData, outside⟩ := validatedData_eq distinct enabled done
  intro entry member
  rw [isData] at member
  cases List.mem_append.mp member with
  | inl isField =>
      obtain ⟨field, _inSchema, isAdded⟩ := List.mem_filterMap.mp isField
      obtain ⟨value, _isWritten, same⟩ := Option.map_eq_some_iff.mp isAdded
      rw [← same]
      trivial
  | inr isExtra => exact (outside entry isExtra).2.2

/-- A second validation changes nothing exactly if every field is settled. -/
theorem validAgain_iff {data : Mapping} {result : ValidationResult}
    (distinct : (data.map Prod.fst).Nodup) (reports : validator.config.mode ≠ .warnOnly)
    (enabled : validator.config.enabled = true) (done : validator.validate data = .ok result)
    (generated : Text → Value) :
    validator.ValidAgain generated result ↔
      ∀ field ∈ validator.config.schema, validator.FieldSettled generated data field := by
  have dataDistinct := distinct_validated enabled done
  have enabledLater : (validator.later generated).config.enabled = true := enabled
  have reportsLater : (validator.later generated).config.mode ≠ .warnOnly := reports
  have found : ∀ field ∈ validator.config.schema,
      (validator.later generated).keptValue result.validatedData (.text field.1) =
        validator.foundAgain data field.1 :=
    fun field member => keptValue_validated distinct enabled done member
  have schematic : ∀ field ∈ validator.config.schema,
      (validator.later generated).validatedValue result.validatedData (.text field.1) =
        (validator.later generated).fieldValue (validator.foundAgain data field.1) field.1
          field.2 := by
    intro field member
    unfold validatedValue
    rw [show schemaOf (validator.later generated).config.schema (.text field.1) = some field from
      schemaOf_of_mem validator.config.distinct member, found field member]
  constructor
  · intro validAgain
    obtain ⟨again, doneAgain, valid, same⟩ := validAgain
    have noErrors := (valid_iff_clean reportsLater enabledLater doneAgain).mp valid
    have clean := (clean_iff dataDistinct enabledLater reportsLater doneAgain).mp noErrors
    intro field member
    have fieldClean := clean.fields field member
    have unchanged := same (.text field.1)
    rw [found field member] at fieldClean
    rw [lookup_validate dataDistinct enabledLater doneAgain, schematic field member,
      lookup_validate distinct enabled done] at unchanged
    exact ⟨fieldClean, unchanged⟩
  · intro settled
    have returns : ∃ again, (validator.later generated).validate result.validatedData =
        .ok again := by
      rw [validate_returns_iff dataDistinct enabledLater]
      constructor
      · exact lowered_validated distinct enabled done
      · intro field member value kept
        rw [found field member] at kept
        exact contained_of_fieldClean (settled field member).1 value kept
    obtain ⟨again, doneAgain⟩ := returns
    refine ⟨again, doneAgain, ?_, ?_⟩
    · rw [valid_iff_clean reportsLater enabledLater doneAgain,
        clean_iff dataDistinct enabledLater reportsLater doneAgain]
      constructor
      · intro field member
        rw [found field member]
        exact (settled field member).1
      · cases allowed : validator.config.allowExtraFields with
        | true => exact Or.inl allowed
        | false =>
            have inside := @admitted_validated validator data result distinct enabled done allowed
            exact Or.inr inside
    · intro key
      rw [lookup_validate dataDistinct enabledLater doneAgain]
      cases isField : schemaOf validator.config.schema key with
      | some field =>
          obtain ⟨member, isKey⟩ := schemaOf_some isField
          rw [← isKey, schematic field member, (settled field member).2,
            lookup_validate distinct enabled done]
      | none =>
          have isOutside : validator.inSchema key = false := by
            rw [Bool.eq_false_iff]
            intro inside
            rw [inSchema_iff, isField] at inside
            cases inside
          have kept : (validator.later generated).keptValue result.validatedData key =
              result.validatedData.lookup key :=
            keptValue_validated_outside distinct enabled done isOutside
          rw [show (validator.later generated).validatedValue result.validatedData key =
            if validator.config.allowExtraFields then result.validatedData.lookup key else none by
              unfold validatedValue
              rw [kept, show schemaOf (validator.later generated).config.schema key = none from
                isField]
              rfl]
          cases allowed : validator.config.allowExtraFields with
          | true => rfl
          | false =>
              rw [lookup_validate distinct enabled done]
              unfold validatedValue
              rw [isField, allowed]
              rfl

end VaultSearch.FrontmatterValidator
