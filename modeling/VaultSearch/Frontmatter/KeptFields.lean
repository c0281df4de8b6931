/-
What becomes of the fields: the value that validation writes under every key, and when no
field is lost.

The loops assign to one key of the validated data at a time, so that each of them is
described by what a lookup finds afterwards.
-/

import VaultSearch.Frontmatter.AliasResolution

set_option autoImplicit false

namespace VaultSearch

namespace FrontmatterValidator

variable {validator : FrontmatterValidator}

/-! ### What the schema makes of the fields -/

variable (validator) in
/-- The value written for a missing field. -/
def missingValue (fieldName : Text) (schema : FieldSchema) : Option Value :=
  match schema.onMissing with
  | .auto => (validator.autoGenerate fieldName schema).toOption
  | .suggest => givenDefault schema
  | _ => none

variable (validator) in
/-- The value written for a field of the schema, given the value it has. -/
def fieldValue (kept : Option Value) (fieldName : Text) (schema : FieldSchema) : Option Value :=
  match kept with
  | some value => (validator.coerce schema value).toOption.map Prod.fst
  | none => validator.missingValue fieldName schema

/-- An assignment to one key of the validated data, or none. -/
def Assigns (before after : Mapping) (key : Key) (assigned : Option Value) : Prop :=
  ∀ other, after.lookup other =
    if other = key then assigned.or (before.lookup other) else before.lookup other

theorem assigns_none {data : Mapping} (key : Key) : Assigns data data key none := by
  intro other
  rw [Option.none_or, ite_self]

theorem assigns_set (data : Mapping) (key : Key) (value : Value) :
    Assigns data (OrderedDict.set data key value) key (some value) := by
  intro other
  rw [OrderedDict.lookup_set, Option.some_or]

theorem assigns_validatePresent {found next : Findings} {fieldName : Text} {schema : FieldSchema}
    {value : Value} (done : validator.validatePresent found fieldName schema value = .ok next) :
    Assigns found.validatedData next.validatedData (.text fieldName)
      ((validator.coerce schema value).toOption.map Prod.fst) := by
  unfold validatePresent at done
  cases outcome : validator.coerce schema value with
  | ok coerced =>
      rw [outcome] at done
      cases done
      exact assigns_set _ _ _
  | error fault =>
      rw [outcome] at done
      cases fault with
      | invalid message =>
          cases done
          exact assigns_none _
      | uncaught reason => cases done

theorem assigns_validateMissing (found : Findings) (fieldName : Text) (schema : FieldSchema) :
    Assigns found.validatedData (validator.validateMissing found fieldName schema).validatedData
      (.text fieldName) (validator.missingValue fieldName schema) := by
  unfold validateMissing missingValue
  cases schema.onMissing with
  | require => exact assigns_none _
  | ignore => exact assigns_none _
  | auto =>
      dsimp only
      cases validator.autoGenerate fieldName schema with
      | ok generated => exact assigns_set _ _ _
      | error reason => exact assigns_none _
  | suggest =>
      dsimp only
      cases givenDefault schema with
      | none => exact assigns_none _
      | some preset => exact assigns_set _ _ _

theorem assigns_validateField {data : Mapping} {found next : Findings}
    {entry : Text × FieldSchema} (done : validator.validateField data found entry = .ok next) :
    Assigns found.validatedData next.validatedData (.text entry.1)
      (validator.fieldValue (data.lookup (.text entry.1)) entry.1 entry.2) := by
  unfold validateField at done
  unfold fieldValue
  cases present : data.lookup (.text entry.1) with
  | some value =>
      rw [present] at done
      exact assigns_validatePresent done
  | none =>
      rw [present] at done
      cases done
      exact assigns_validateMissing found entry.1 entry.2

/-- The schema of a key. -/
def schemaOf (schema : List (Text × FieldSchema)) (key : Key) : Option (Text × FieldSchema) :=
  schema.find? (fun entry => Key.text entry.1 = key)

/-- After the loop over the schema every field has its value, and there is nothing else new. -/
theorem lookup_validateSchema {data : Mapping} :
    ∀ {schema : List (Text × FieldSchema)} {found final : Findings},
      (schema.map Prod.fst).Nodup →
      schema.foldlM (validator.validateField data) found = .ok final →
      ∀ key, final.validatedData.lookup key =
        ((schemaOf schema key).bind (fun entry =>
          validator.fieldValue (data.lookup key) entry.1 entry.2)).or
          (found.validatedData.lookup key) := by
  intro schema
  induction schema with
  | nil =>
      intro found final _distinct done key
      cases done
      rfl
  | cons head tail ih =>
      intro found final distinct done key
      rw [List.map_cons, List.nodup_cons] at distinct
      rw [List.foldlM_cons] at done
      obtain ⟨next, first, rest⟩ := bind_ok done
      rw [ih distinct.2 rest key, assigns_validateField first key]
      unfold schemaOf
      by_cases here : key = .text head.1
      · have later : tail.find? (fun entry => Key.text entry.1 = key) = none := by
          rw [List.find?_eq_none]
          intro entry member same
          apply distinct.1
          rw [← Key.text.inj ((of_decide_eq_true same).trans here)]
          exact List.mem_map_of_mem member
        rw [List.find?_cons, decide_eq_true here.symm, later, if_pos here, here]
        rfl
      · rw [List.find?_cons, decide_eq_false (fun equal => here equal.symm), if_neg here]

theorem validateField_ok_iff (data : Mapping) (found : Findings) (entry : Text × FieldSchema) :
    (∃ next, validator.validateField data found entry = .ok next) ↔
      ∀ value, data.lookup (.text entry.1) = some value →
        Contained (validator.coerce entry.2 value) := by
  unfold validateField
  cases present : data.lookup (.text entry.1) with
  | none =>
      constructor
      · intro _done value impossible
        cases impossible
      · intro _contained
        exact ⟨_, rfl⟩
  | some value =>
      unfold validatePresent
      dsimp only
      cases outcome : validator.coerce entry.2 value with
      | ok coerced =>
          constructor
          · intro _done other same
            cases same
            rw [outcome]
            exact contained_ok coerced
          · intro _contained
            exact ⟨_, rfl⟩
      | error fault =>
          cases fault with
          | invalid message =>
              constructor
              · intro _done other same
                cases same
                rw [outcome]
                exact contained_invalid message
              · intro _contained
                exact ⟨_, rfl⟩
          | uncaught reason =>
              constructor
              · intro done
                cases done.choose_spec
              · intro contained
                exact absurd outcome (contained value rfl reason)

/-- The loop ends unless a coercion raises something other than `ValueError`. -/
theorem validateSchema_ok_iff {data : Mapping} (schema : List (Text × FieldSchema))
    (found : Findings) :
    (∃ final, schema.foldlM (validator.validateField data) found = .ok final) ↔
      ∀ entry ∈ schema, ∀ value, data.lookup (.text entry.1) = some value →
        Contained (validator.coerce entry.2 value) := by
  induction schema generalizing found with
  | nil =>
      constructor
      · intro _done entry member
        cases member
      · intro _contained
        exact ⟨found, rfl⟩
  | cons head tail ih =>
      rw [List.forall_mem_cons, ← validateField_ok_iff data found head]
      constructor
      · intro done
        obtain ⟨final, isFinal⟩ := done
        rw [List.foldlM_cons] at isFinal
        obtain ⟨next, isNext, rest⟩ := bind_ok isFinal
        exact ⟨⟨next, isNext⟩, (ih next).mp ⟨final, rest⟩⟩
      · intro contained
        obtain ⟨⟨next, isNext⟩, others⟩ := contained
        obtain ⟨final, isFinal⟩ := (ih next).mpr others
        refine ⟨final, ?_⟩
        rw [List.foldlM_cons, isNext]
        exact isFinal

/-! ### What becomes of the other fields -/

theorem inSchema_iff {key : Key} :
    validator.inSchema key = true ↔ (schemaOf validator.config.schema key).isSome = true := by
  unfold inSchema schemaOf
  rw [List.any_eq_true, List.find?_isSome]

/-- After the loop over the other fields each of them is there, if the schema allows it. -/
theorem lookup_validateExtras :
    ∀ (data : Mapping) (found : Findings) (key : Key),
      (data.foldl validator.validateExtra found).validatedData.lookup key =
        (found.validatedData.lookup key).or
          (if validator.inSchema key = false ∧ validator.config.allowExtraFields = true then
            data.lookup key
          else none) := by
  intro data
  induction data with
  | nil =>
      intro found key
      rw [List.foldl_nil, List.lookup_nil, ite_self, Option.or_none]
  | cons head tail ih =>
      intro found key
      rw [List.foldl_cons, ih]
      unfold validateExtra
      by_cases here : key = head.1
      · rw [here, OrderedDict.lookup_head head.1 head.2 tail]
        cases schematic : validator.inSchema head.1 with
        | true =>
            rw [Bool.true_or, if_pos rfl, if_neg (by simp), if_neg (by simp)]
        | false =>
            cases earlier : found.validatedData.lookup head.1 with
            | some value =>
                rw [Option.isSome_some, Bool.or_true, if_pos rfl, earlier]
                rfl
            | none =>
                rw [Option.isSome_none, Bool.or_false, if_neg Bool.false_ne_true]
                cases allowed : validator.config.allowExtraFields with
                | true =>
                    rw [if_pos rfl]
                    dsimp only
                    rw [OrderedDict.lookup_set, if_pos rfl, if_pos ⟨rfl, rfl⟩]
                    rfl
                | false =>
                    rw [if_neg Bool.false_ne_true, earlier, if_neg (by simp), if_neg (by simp)]
      · rw [OrderedDict.lookup_tail head.2 tail here]
        split
        · rfl
        · split
          · dsimp only
            rw [OrderedDict.lookup_set, if_neg here]
          · rfl

/-! ### What validation keeps -/

end FrontmatterValidator

/-- A dictionary whose keys are strings. -/
structure StringMapping where
  entries : Mapping
  strings : ∀ entry ∈ entries, ∃ name, entry.1 = .text name
  distinct : (entries.map Prod.fst).Nodup

namespace FrontmatterValidator

variable (validator : FrontmatterValidator)

def keptValue (data : Mapping) (key : Key) : Option Value :=
  (validator.firstWith data key).map Prod.snd

/-- What the enabled validator writes under a key. -/
def validatedValue (data : Mapping) (key : Key) : Option Value :=
  match schemaOf validator.config.schema key with
  | some entry => validator.fieldValue (validator.keptValue data key) entry.1 entry.2
  | none => if validator.config.allowExtraFields then validator.keptValue data key else none

variable {validator}

theorem lookup_resolved {data : Mapping} {so : Resolution}
    (distinct : (data.map Prod.fst).Nodup)
    (resolved : validator.resolveAliases {} data = .ok so) (key : Key) :
    so.resolved.lookup key = validator.keptValue data key :=
  @lookup_resolveAliases validator data [] {} so resolved distinct (fun _key => rfl) key

theorem conclude_validatedData (found : Findings) :
    (validator.conclude found).validatedData = found.validatedData := by
  unfold conclude
  split <;> rfl

theorem lookup_validate {data : Mapping} {result : ValidationResult}
    (distinct : (data.map Prod.fst).Nodup) (enabled : validator.config.enabled = true)
    (done : validator.validate data = .ok result) (key : Key) :
    result.validatedData.lookup key = validator.validatedValue data key := by
  unfold validate at done
  rw [enabled, Bool.not_true, if_neg Bool.false_ne_true] at done
  obtain ⟨so, resolved, afterAliases⟩ := bind_ok done
  obtain ⟨found, checked, ended⟩ := bind_ok afterAliases
  cases ended
  rw [conclude_validatedData, lookup_validateExtras,
    lookup_validateSchema validator.config.distinct checked, lookup_resolved distinct resolved]
  unfold validatedValue
  cases schematic : schemaOf validator.config.schema key with
  | some entry =>
      have inside : validator.inSchema key = true := inSchema_iff.mpr (by rw [schematic]; rfl)
      rw [inside, if_neg (by simp)]
      simp
  | none =>
      have outside : validator.inSchema key = false := by
        rw [Bool.eq_false_iff]
        intro inside
        rw [inSchema_iff, schematic] at inside
        cases inside
      cases validator.config.allowExtraFields with
      | true => simp [outside]
      | false => simp

variable (validator) in
/-- The value a field should have after validation: coerced if that succeeds. -/
def expectedValue (entry : Key × Value) : Value :=
  match schemaOf validator.config.schema (validator.canonicalKey entry.1) with
  | some field =>
      match validator.coerce field.2 entry.2 with
      | .ok coerced => coerced.1
      | .error _ => entry.2
  | none => entry.2

variable (validator) in
/-- The key is another spelling than the name of the field it stands for, up to case. -/
def isAlias (name : Text) : Prop :=
  validator.lower name ≠ validator.lower (validator.canonicalName name)

variable (validator) in
/-- An alias whose field is given under its own name, first of all. -/
def LostToCanonical (data : Mapping) (entry : Key × Value) : Prop :=
  ∃ name, entry.1 = .text name ∧ validator.isAlias name ∧
    ∃ first firstName, validator.firstWith data (validator.canonicalKey entry.1) = some first ∧
      first.1 = .text firstName ∧ ¬ validator.isAlias firstName

variable (validator) in
/-- Validation returns, and every field that did not lose to its canonical field is there. -/
def KeepsFields (data : Mapping) : Prop :=
  ∃ result, validator.validate data = .ok result ∧
    ∀ entry ∈ data,
      if validator.config.enabled then
        ¬ validator.LostToCanonical data entry →
          result.validatedData.lookup (validator.canonicalKey entry.1) =
            some (validator.expectedValue entry)
      else result.validatedData.lookup entry.1 = some entry.2

variable (validator) in
/-- When an enabled validator keeps the fields. -/
structure Keepable (data : Mapping) : Prop where
  /-- the value kept for a field of the schema is coerced without an exception -/
  coerced : ∀ key field value, schemaOf validator.config.schema key = some field →
    validator.keptValue data key = some value →
      ∃ outcome, validator.coerce field.2 value = .ok outcome
  /-- no field is outside the schema, or such fields are allowed -/
  admitted : validator.config.allowExtraFields = true ∨
    ∀ entry ∈ data, validator.inSchema (validator.canonicalKey entry.1) = true
  /-- a field with a name that is taken is an alias that lost to its canonical field, or agrees
  with the value that is kept -/
  agreed : ∀ entry ∈ data, ¬ validator.LostToCanonical data entry →
    ∀ first, validator.firstWith data (validator.canonicalKey entry.1) = some first →
      validator.expectedValue first = validator.expectedValue entry

/-- The first field of a name did not lose to another. -/
theorem first_not_lost {data : Mapping} {key : Key} {first : Key × Value}
    (found : validator.firstWith data key = some first) :
    ¬ validator.LostToCanonical data first := by
  intro lost
  obtain ⟨name, isText, spelled, winner, winnerName, won, isWinner, proper⟩ := lost
  rw [(firstWith_some found).2, found] at won
  cases won
  rw [isText] at isWinner
  cases isWinner
  exact proper spelled

theorem validatedValue_of_coerced {data : Mapping} (keepable : validator.Keepable data)
    {entry : Key × Value} (member : entry ∈ data)
    (notLost : ¬ validator.LostToCanonical data entry) :
    validator.validatedValue data (validator.canonicalKey entry.1) =
      some (validator.expectedValue entry) := by
  obtain ⟨first, found⟩ := @firstWith_isSome validator data entry member
  have same := keepable.agreed entry member notLost first found
  have named := (firstWith_some found).2
  have kept : validator.keptValue data (validator.canonicalKey entry.1) = some first.2 := by
    unfold keptValue
    rw [found]
    rfl
  rw [← same]
  unfold validatedValue expectedValue
  rw [kept, named]
  cases schematic : schemaOf validator.config.schema (validator.canonicalKey entry.1) with
  | some field =>
      obtain ⟨outcome, coerced⟩ := keepable.coerced _ field first.2 schematic kept
      dsimp only
      unfold fieldValue
      dsimp only
      rw [coerced]
      rfl
  | none =>
      dsimp only
      rcases keepable.admitted with allowed | inside
      · rw [if_pos allowed]
      · have schematicKey := inSchema_iff.mp (inside entry member)
        rw [schematic] at schematicKey
        cases schematicKey

/-- A field of the schema is found under its name. -/
theorem schemaOf_of_mem {schema : List (Text × FieldSchema)}
    (distinct : (schema.map Prod.fst).Nodup) {entry : Text × FieldSchema}
    (member : entry ∈ schema) : schemaOf schema (.text entry.1) = some entry := by
  unfold schemaOf
  induction schema with
  | nil => cases member
  | cons head tail ih =>
      rw [List.map_cons, List.nodup_cons] at distinct
      rw [List.find?_cons]
      cases List.mem_cons.mp member with
      | inl same => rw [same, decide_eq_true rfl]
      | inr later =>
          have apart : ¬ Key.text head.1 = Key.text entry.1 := by
            intro same
            apply distinct.1
            rw [Key.text.inj same]
            exact List.mem_map_of_mem later
          rw [decide_eq_false apart]
          exact ih distinct.2 later

/-- Validation ends unless a key cannot be lowered or a coercion raises. -/
theorem validate_returns_iff {data : Mapping} (distinct : (data.map Prod.fst).Nodup)
    (enabled : validator.config.enabled = true) :
    (∃ result, validator.validate data = .ok result) ↔
      (∀ entry ∈ data, HasLower entry.1) ∧
        ∀ field ∈ validator.config.schema, ∀ value,
          validator.keptValue data (.text field.1) = some value →
            Contained (validator.coerce field.2 value) := by
  rw [← resolveAliases_ok_iff {} data]
  unfold validate
  rw [enabled, Bool.not_true, if_neg Bool.false_ne_true]
  constructor
  · intro returned
    obtain ⟨result, done⟩ := returned
    obtain ⟨so, resolved, afterAliases⟩ := bind_ok done
    obtain ⟨found, checked, _ended⟩ := bind_ok afterAliases
    have contained := (validateSchema_ok_iff _ _).mp ⟨found, checked⟩
    refine ⟨⟨so, resolved⟩, ?_⟩
    intro field member value kept
    apply contained field member value
    rw [lookup_resolved distinct resolved]
    exact kept
  · intro conditions
    obtain ⟨⟨so, resolved⟩, contained⟩ := conditions
    have ends : ∃ final, validator.config.schema.foldlM (validator.validateField so.resolved)
        { warnings := aliasWarnings so } = .ok final := by
      rw [validateSchema_ok_iff]
      intro field member value present
      rw [lookup_resolved distinct resolved] at present
      exact contained field member value present
    obtain ⟨found, checked⟩ := ends
    refine ⟨validator.conclude (so.resolved.foldl validator.validateExtra found), ?_⟩
    rw [resolved]
    exact congrArg (fun outcome => outcome >>= fun found =>
      pure (validator.conclude (so.resolved.foldl validator.validateExtra found))) checked

theorem validate_returns {data : StringMapping} (enabled : validator.config.enabled = true)
    (coerced : ∀ key field value, schemaOf validator.config.schema key = some field →
      validator.keptValue data.entries key = some value →
        Contained (validator.coerce field.2 value)) :
    ∃ result, validator.validate data.entries = .ok result := by
  rw [validate_returns_iff data.distinct enabled]
  constructor
  · intro entry member
    obtain ⟨name, isText⟩ := data.strings entry member
    rw [isText]
    trivial
  · intro field member value kept
    exact coerced _ field value (schemaOf_of_mem validator.config.distinct member) kept

/-- An enabled validator that keeps the fields meets the conditions for it. -/
theorem keepable_of_keepsFields {data : StringMapping}
    (enabled : validator.config.enabled = true) (keeps : validator.KeepsFields data.entries) :
    validator.Keepable data.entries := by
  obtain ⟨result, done, present⟩ := keeps
  have written : ∀ entry ∈ data.entries, ¬ validator.LostToCanonical data.entries entry →
      validator.validatedValue data.entries (validator.canonicalKey entry.1) =
        some (validator.expectedValue entry) := by
    intro entry member notLost
    have here := present entry member
    rw [enabled, if_pos rfl] at here
    rw [← lookup_validate data.distinct enabled done]
    exact here notLost
  have writtenFirst : ∀ key first, validator.firstWith data.entries key = some first →
      validator.validatedValue data.entries key = some (validator.expectedValue first) := by
    intro key first found
    rw [← (firstWith_some found).2]
    exact written first (firstWith_some found).1 (first_not_lost found)
  constructor
  · intro key field value schematic kept
    obtain ⟨first, found, _same⟩ := Option.map_eq_some_iff.mp kept
    have value_ := writtenFirst key first found
    unfold validatedValue at value_
    rw [schematic, kept] at value_
    unfold fieldValue at value_
    dsimp only at value_
    cases outcome : validator.coerce field.2 value with
    | ok coerced => exact ⟨coerced, rfl⟩
    | error fault =>
        rw [outcome] at value_
        cases value_
  · cases allowed : validator.config.allowExtraFields with
    | true => exact Or.inl rfl
    | false =>
        refine Or.inr ?_
        intro entry member
        obtain ⟨first, found⟩ := @firstWith_isSome validator data.entries entry member
        have value_ := writtenFirst _ first found
        unfold validatedValue at value_
        rw [inSchema_iff]
        cases schematic : schemaOf validator.config.schema (validator.canonicalKey entry.1) with
        | some field => rfl
        | none =>
            rw [schematic, allowed] at value_
            cases value_
  · intro entry member notLost first found
    have here := written entry member notLost
    rw [writtenFirst _ first found] at here
    exact Option.some.inj here

theorem keepsFields_iff (data : StringMapping) :
    validator.KeepsFields data.entries ↔
      (validator.config.enabled = true → validator.Keepable data.entries) := by
  constructor
  · intro keeps enabled
    exact keepable_of_keepsFields enabled keeps
  · intro keepable
    cases enabled : validator.config.enabled with
    | false =>
        refine ⟨_, by unfold validate; rw [enabled, Bool.not_false, if_pos rfl], ?_⟩
        intro entry member
        rw [enabled, if_neg Bool.false_ne_true]
        exact OrderedDict.lookup_of_mem data.distinct member
    | true =>
        have able := keepable enabled
        have calm : ∀ key field value, schemaOf validator.config.schema key = some field →
            validator.keptValue data.entries key = some value →
              Contained (validator.coerce field.2 value) := by
          intro key field value schematic kept
          obtain ⟨outcome, coerced⟩ := able.coerced key field value schematic kept
          rw [coerced]
          exact contained_ok outcome
        obtain ⟨result, done⟩ := validate_returns enabled calm
        refine ⟨result, done, ?_⟩
        intro entry member
        rw [enabled, if_pos rfl]
        intro notLost
        rw [lookup_validate data.distinct enabled done]
        exact validatedValue_of_coerced able member notLost

end FrontmatterValidator

end VaultSearch
