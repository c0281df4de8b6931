/-
What a validation without errors says about the fields it was given.

An error stays once it is found.  Where none is left at the end, every value kept for a field
of the schema was coerced, and no field was refused.
-/

import VaultSearch.Frontmatter.KeptFields

set_option autoImplicit false

namespace VaultSearch.FrontmatterValidator

variable {validator : FrontmatterValidator}

/-! ### The loops -/

/-- A missing value is generated only where the schema knows how. -/
theorem autoGenerate_ok (fieldName : Text) {schema : FieldSchema}
    (auto : schema.onMissing = .auto) :
    validator.autoGenerate fieldName schema = .ok (validator.generated fieldName) := by
  unfold autoGenerate
  rw [if_pos (schema.autoGenerates auto)]

variable (validator) in
/-- The field is no error, given the value it has. -/
def FieldClean (kept : Option Value) (schema : FieldSchema) : Prop :=
  match kept with
  | some value => ∃ outcome, validator.coerce schema value = .ok outcome
  | none => schema.onMissing ≠ .require

theorem clean_validateMissing (found : Findings) (fieldName : Text) (schema : FieldSchema) :
    (validator.validateMissing found fieldName schema).errors = [] ↔
      found.errors = [] ∧ schema.onMissing ≠ .require := by
  unfold validateMissing
  cases onMissing : schema.onMissing with
  | require => simp
  | ignore => simp
  | auto =>
      dsimp only
      rw [autoGenerate_ok fieldName onMissing]
      simp
  | suggest =>
      dsimp only
      cases givenDefault schema with
      | none => simp
      | some preset => simp

theorem clean_validateField {data : Mapping} {found next : Findings}
    {entry : Text × FieldSchema} (done : validator.validateField data found entry = .ok next) :
    next.errors = [] ↔
      found.errors = [] ∧ validator.FieldClean (data.lookup (.text entry.1)) entry.2 := by
  unfold validateField at done
  cases present : data.lookup (.text entry.1) with
  | none =>
      rw [present] at done
      cases done
      exact clean_validateMissing found entry.1 entry.2
  | some value =>
      rw [present] at done
      unfold validatePresent at done
      unfold FieldClean
      dsimp only at done ⊢
      cases outcome : validator.coerce entry.2 value with
      | ok coerced =>
          rw [outcome] at done
          cases done
          exact ⟨fun clean => ⟨clean, coerced, rfl⟩, And.left⟩
      | error fault =>
          rw [outcome] at done
          cases fault with
          | invalid message =>
              cases done
              constructor
              · intro clean
                exact absurd (List.append_eq_nil_iff.mp clean).2 (List.cons_ne_nil _ _)
              · intro clean
                obtain ⟨other, impossible⟩ := clean.2
                cases impossible
          | uncaught reason => cases done

theorem clean_validateSchema {data : Mapping} {schema : List (Text × FieldSchema)}
    {found final : Findings}
    (done : schema.foldlM (validator.validateField data) found = .ok final) :
    final.errors = [] ↔
      found.errors = [] ∧ ∀ entry ∈ schema,
        validator.FieldClean (data.lookup (.text entry.1)) entry.2 := by
  induction schema generalizing found with
  | nil =>
      cases done
      simp
  | cons head tail ih =>
      rw [List.foldlM_cons] at done
      obtain ⟨next, first, rest⟩ := bind_ok done
      rw [ih rest, clean_validateField first, List.forall_mem_cons, and_assoc]

/-- Allowed extra fields are no errors. -/
theorem errors_validateExtras_allowed (allowed : validator.config.allowExtraFields = true)
    (data : Mapping) (found : Findings) :
    (data.foldl validator.validateExtra found).errors = found.errors := by
  induction data generalizing found with
  | nil => rfl
  | cons head tail ih =>
      rw [List.foldl_cons, ih]
      unfold validateExtra
      rw [allowed, if_pos rfl]
      split
      · rfl
      · rfl

/-- Where extra fields are refused, each of them is an error. -/
theorem clean_validateExtras_refused (refused : validator.config.allowExtraFields = false)
    (data : Mapping) (found : Findings) :
    (data.foldl validator.validateExtra found).errors = [] ↔
      found.errors = [] ∧ ∀ entry ∈ data, validator.inSchema entry.1 = true ∨
        (found.validatedData.lookup entry.1).isSome = true := by
  induction data generalizing found with
  | nil => simp
  | cons head tail ih =>
      rw [List.foldl_cons, ih, List.forall_mem_cons]
      unfold validateExtra
      rw [refused, if_neg Bool.false_ne_true]
      cases known : validator.inSchema head.1 || (found.validatedData.lookup head.1).isSome with
      | true =>
          rw [if_pos rfl, ← Bool.or_eq_true, known]
          simp
      | false =>
          rw [if_neg Bool.false_ne_true, ← Bool.or_eq_true, known]
          simp

theorem clean_validateExtras (data : Mapping) (found : Findings) :
    (data.foldl validator.validateExtra found).errors = [] ↔
      found.errors = [] ∧ (validator.config.allowExtraFields = true ∨
        ∀ entry ∈ data, validator.inSchema entry.1 = true ∨
          (found.validatedData.lookup entry.1).isSome = true) := by
  cases allowed : validator.config.allowExtraFields with
  | true =>
      rw [errors_validateExtras_allowed allowed]
      simp
  | false =>
      rw [clean_validateExtras_refused allowed]
      simp

/-! ### `validate` -/

theorem schemaOf_some {schema : List (Text × FieldSchema)} {key : Key}
    {field : Text × FieldSchema} (isField : schemaOf schema key = some field) :
    field ∈ schema ∧ Key.text field.1 = key := by
  unfold schemaOf at isField
  have holds := List.find?_some isField
  exact ⟨List.mem_of_find?_eq_some isField, of_decide_eq_true holds⟩

theorem conclude_reports (reports : validator.config.mode ≠ .warnOnly) (found : Findings) :
    (validator.conclude found).errors = found.errors ∧
      (validator.conclude found).valid = found.errors.isEmpty := by
  unfold conclude
  split
  case h_1 isMode => exact absurd isMode reports
  case h_2 => exact ⟨rfl, rfl⟩

variable (validator) in
/-- The fields that are given are coerced, those that are required are given, and no field is
refused. -/
structure CleanGiven (data : Mapping) : Prop where
  fields : ∀ field ∈ validator.config.schema,
    validator.FieldClean (validator.keptValue data (.text field.1)) field.2
  admitted : validator.config.allowExtraFields = true ∨
    ∀ entry ∈ data, validator.inSchema (validator.canonicalKey entry.1) = true

/-- The keys after the alias resolution are the canonical keys of the fields. -/
theorem mem_resolved_iff {data : Mapping} {so : Resolution}
    (distinct : (data.map Prod.fst).Nodup)
    (resolved : validator.resolveAliases {} data = .ok so) (key : Key) :
    (∃ entry ∈ so.resolved, entry.1 = key) ↔
      ∃ entry ∈ data, validator.canonicalKey entry.1 = key := by
  rw [← OrderedDict.lookup_isSome, lookup_resolved distinct resolved]
  unfold keptValue firstWith
  rw [Option.isSome_map, List.find?_isSome]
  simp

theorem clean_iff {data : Mapping} {result : ValidationResult}
    (distinct : (data.map Prod.fst).Nodup) (enabled : validator.config.enabled = true)
    (reports : validator.config.mode ≠ .warnOnly)
    (done : validator.validate data = .ok result) :
    result.errors = [] ↔ validator.CleanGiven data := by
  unfold validate at done
  rw [enabled, Bool.not_true, if_neg Bool.false_ne_true] at done
  obtain ⟨so, resolved, afterAliases⟩ := bind_ok done
  obtain ⟨schematic, checked, ended⟩ := bind_ok afterAliases
  cases ended
  have names := mem_resolved_iff distinct resolved
  have fieldsIff : schematic.errors = [] ↔ ∀ field ∈ validator.config.schema,
      validator.FieldClean (validator.keptValue data (.text field.1)) field.2 := by
    rw [clean_validateSchema checked]
    simp only [lookup_resolved distinct resolved, true_and]
  -- the loop over the schema writes nothing under other keys
  have known : ∀ key, (validator.inSchema key = true ∨
      (schematic.validatedData.lookup key).isSome = true) ↔ validator.inSchema key = true := by
    intro key
    constructor
    · intro inside
      rcases inside with isField | written
      · exact isField
      · rw [lookup_validateSchema validator.config.distinct checked] at written
        rw [inSchema_iff]
        cases isField : schemaOf validator.config.schema key with
        | some field => rfl
        | none =>
            rw [isField] at written
            cases written
    · exact Or.inl
  rw [(conclude_reports reports _).1, clean_validateExtras, fieldsIff]
  simp only [known]
  constructor
  · intro clean
    obtain ⟨fields, admitted⟩ := clean
    refine ⟨fields, admitted.imp_right ?_⟩
    intro inside entry member
    obtain ⟨present, isPresent, same⟩ := (names (validator.canonicalKey entry.1)).mpr
      ⟨entry, member, rfl⟩
    rw [← same]
    exact inside present isPresent
  · intro clean
    refine ⟨clean.fields, clean.admitted.imp_right ?_⟩
    intro inside entry member
    obtain ⟨given, isGiven, same⟩ := (names entry.1).mp ⟨entry, member, rfl⟩
    rw [← same]
    exact inside given isGiven

/-- Without errors every name has the value of its first spelling, coerced. -/
theorem validatedValue_of_clean {data : Mapping} {result : ValidationResult}
    (distinct : (data.map Prod.fst).Nodup) (enabled : validator.config.enabled = true)
    (reports : validator.config.mode ≠ .warnOnly)
    (done : validator.validate data = .ok result) (clean : result.errors = [])
    {key : Key} {first : Key × Value}
    (found : validator.firstWith data key = some first) :
    validator.validatedValue data key = some (validator.expectedValue first) := by
  have given := (clean_iff distinct enabled reports done).mp clean
  obtain ⟨member, isKey⟩ := firstWith_some found
  unfold validatedValue expectedValue keptValue
  rw [found, isKey]
  cases isField : schemaOf validator.config.schema key with
  | some field =>
      obtain ⟨inSchema, isName⟩ := schemaOf_some isField
      have fieldClean := given.fields field inSchema
      unfold keptValue at fieldClean
      rw [isName, found] at fieldClean
      obtain ⟨outcome, isOutcome⟩ := fieldClean
      unfold fieldValue
      dsimp only [Option.map_some]
      rw [isOutcome]
      rfl
  | none =>
      dsimp only [Option.map_some]
      rcases given.admitted with allowed | inside
      · rw [if_pos allowed]
      · have isInside := inside first member
        rw [isKey, inSchema_iff, isField] at isInside
        cases isInside

end VaultSearch.FrontmatterValidator
