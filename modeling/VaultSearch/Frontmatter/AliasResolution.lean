/-
Alias resolution: which field stands under a canonical name afterwards.

The first field of a name is kept, whatever its spelling.  A field the schema does not know
keeps its own key, which no canonical name can collide with.
-/

import VaultSearch.Frontmatter.Validator

set_option autoImplicit false

namespace VaultSearch.FrontmatterValidator

variable {validator : FrontmatterValidator}

/-! ### The alias map -/

theorem lookup_setAliases (names : List Text) (canonical : Text) (map : List (Text × Text))
    (key : Text) :
    ((names.foldl (fun extended accepted =>
        OrderedDict.set extended (validator.lower accepted) canonical) map).lookup key =
      map.lookup key) ∨
    ((names.foldl (fun extended accepted =>
        OrderedDict.set extended (validator.lower accepted) canonical) map).lookup key =
      some canonical) := by
  induction names generalizing map with
  | nil => exact Or.inl rfl
  | cons head tail ih =>
      rw [List.foldl_cons]
      rcases ih (OrderedDict.set map (validator.lower head) canonical) with unchanged | changed
      · rw [OrderedDict.lookup_set] at unchanged
        split at unchanged
        · exact Or.inr unchanged
        · exact Or.inl unchanged
      · exact Or.inr changed

/-- One field adds its own name and takes no entry away. -/
theorem lookup_addField (entry : Text × FieldSchema) (map : List (Text × Text)) (key : Text) :
    ((entry.2.aliases.foldl
        (fun extended accepted => OrderedDict.set extended (validator.lower accepted) entry.1)
        (OrderedDict.set map (validator.lower entry.1) entry.1)).lookup key = some entry.1) ∨
    (key ≠ validator.lower entry.1 ∧
      (entry.2.aliases.foldl
        (fun extended accepted => OrderedDict.set extended (validator.lower accepted) entry.1)
        (OrderedDict.set map (validator.lower entry.1) entry.1)).lookup key = map.lookup key) := by
  rcases @lookup_setAliases validator entry.2.aliases entry.1
    (OrderedDict.set map (validator.lower entry.1) entry.1) key with unchanged | changed
  · rw [OrderedDict.lookup_set] at unchanged
    split at unchanged
    case isTrue => exact Or.inl unchanged
    case isFalse apart => exact Or.inr ⟨apart, unchanged⟩
  · exact Or.inl changed

theorem aliasMap_fold (schema : List (Text × FieldSchema)) (map : List (Text × Text)) :
    let built := schema.foldl
      (fun map entry =>
        entry.2.aliases.foldl
          (fun extended accepted => OrderedDict.set extended (validator.lower accepted) entry.1)
          (OrderedDict.set map (validator.lower entry.1) entry.1))
      map
    (∀ key canonical, built.lookup key = some canonical →
      map.lookup key = some canonical ∨ ∃ entry ∈ schema, entry.1 = canonical) ∧
    (∀ key, (map.lookup key).isSome = true → (built.lookup key).isSome = true) ∧
    (∀ entry ∈ schema, (built.lookup (validator.lower entry.1)).isSome = true) := by
  induction schema generalizing map with
  | nil =>
      refine ⟨fun key canonical found => Or.inl found, fun key found => found, ?_⟩
      intro entry member
      cases member
  | cons head tail ih =>
      obtain ⟨fromTail, kept, named⟩ := ih
        (head.2.aliases.foldl
          (fun extended accepted => OrderedDict.set extended (validator.lower accepted) head.1)
          (OrderedDict.set map (validator.lower head.1) head.1))
      have added := fun key => @lookup_addField validator head map key
      rw [List.foldl_cons]
      refine ⟨?_, ?_, ?_⟩
      · intro key canonical found
        rcases fromTail key canonical found with early | ⟨entry, member, same⟩
        · rcases added key with isHead | ⟨_, unchanged⟩
          · rw [isHead] at early
            exact Or.inr ⟨head, List.mem_cons_self, Option.some.inj early⟩
          · rw [unchanged] at early
            exact Or.inl early
        · exact Or.inr ⟨entry, List.mem_cons_of_mem _ member, same⟩
      · intro key present
        apply kept
        rcases added key with isHead | ⟨_, unchanged⟩
        · rw [isHead]
          rfl
        · rw [unchanged]
          exact present
      · intro entry member
        cases List.mem_cons.mp member with
        | inl same =>
            rw [same]
            apply kept
            rcases added (validator.lower head.1) with isHead | ⟨apart, _⟩
            · rw [isHead]
              rfl
            · exact absurd rfl apart
        | inr later => exact named entry later

/-- An alias stands for a field of the schema. -/
theorem mem_of_aliasMap {key canonical : Text}
    (found : validator.aliasMap.lookup key = some canonical) :
    ∃ entry ∈ validator.config.schema, entry.1 = canonical := by
  rcases (@aliasMap_fold validator validator.config.schema []).1 key canonical found with
    impossible | member
  · cases impossible
  · exact member

/-- The name of a field stands for some field. -/
theorem aliasMap_of_mem {entry : Text × FieldSchema} (member : entry ∈ validator.config.schema) :
    (validator.aliasMap.lookup (validator.lower entry.1)).isSome = true :=
  (@aliasMap_fold validator validator.config.schema []).2.2 entry member

/-! ### What alias resolution keeps -/

variable (validator) in
/-- The name a field has after alias resolution. -/
def canonicalName (name : Text) : Text :=
  (validator.aliasMap.lookup (validator.lower name)).getD name

variable (validator) in
def canonicalKey : Key → Key
  | .text name => .text (validator.canonicalName name)
  | .other identity => .other identity

variable (validator) in
/-- The first field that has the key after alias resolution. -/
def firstWith (data : Mapping) (key : Key) : Option (Key × Value) :=
  data.find? (fun entry => validator.canonicalKey entry.1 == key)

theorem firstWith_append (front back : Mapping) (key : Key) :
    validator.firstWith (front ++ back) key =
      (validator.firstWith front key).or (validator.firstWith back key) :=
  List.find?_append

theorem firstWith_singleton (entry : Key × Value) (key : Key) :
    validator.firstWith [entry] key =
      if validator.canonicalKey entry.1 = key then some entry else none := by
  unfold firstWith
  by_cases same : validator.canonicalKey entry.1 = key
  · rw [List.find?_cons, beq_iff_eq.mpr same, if_pos same]
  · rw [List.find?_cons, beq_false_of_ne same, if_neg same]
    rfl

theorem firstWith_some {data : Mapping} {key : Key} {entry : Key × Value}
    (found : validator.firstWith data key = some entry) :
    entry ∈ data ∧ validator.canonicalKey entry.1 = key := by
  have holds := List.find?_some found
  exact ⟨List.mem_of_find?_eq_some found, beq_iff_eq.mp holds⟩

theorem firstWith_isSome {data : Mapping} {entry : Key × Value} (member : entry ∈ data) :
    ∃ first, validator.firstWith data (validator.canonicalKey entry.1) = some first := by
  rw [← Option.isSome_iff_exists]
  unfold firstWith
  rw [List.find?_isSome]
  exact ⟨entry, member, beq_self_eq_true _⟩

/-- Two fields share a name only if the schema has it, unless their keys are the same. -/
theorem same_of_outside {name other : Text}
    (outside : validator.aliasMap.lookup (validator.lower name) = none)
    (same : validator.canonicalName other = name) : other = name := by
  unfold canonicalName at same
  cases found : validator.aliasMap.lookup (validator.lower other) with
  | none =>
      rw [found] at same
      exact same
  | some canonical =>
      rw [found] at same
      obtain ⟨entry, member, isName⟩ := mem_of_aliasMap found
      have present := aliasMap_of_mem member
      rw [isName, show canonical = name from same, outside] at present
      cases present

/-- What one field adds to the resolved data. -/
theorem lookup_resolveField {so : Resolution} {name : Text} {value : Value}
    (fresh : validator.aliasMap.lookup (validator.lower name) = none →
      so.resolved.lookup (.text name) = none) (key : Key) :
    (validator.resolveField so name value).resolved.lookup key =
      (so.resolved.lookup key).or
        (if .text (validator.canonicalName name) = key then some value else none) := by
  unfold resolveField canonicalName
  dsimp only
  cases found : validator.aliasMap.lookup (validator.lower name) with
  | none =>
      dsimp only [Option.getD_none]
      rw [OrderedDict.lookup_set]
      by_cases same : key = .text name
      · rw [if_pos same, same, fresh found, if_pos rfl]
        rfl
      · rw [if_neg same, if_neg (fun equal => same equal.symm), Option.or_none]
  | some canonical =>
      dsimp only [Option.getD_some]
      cases taken : so.resolved.lookup (.text canonical) with
      | none =>
          rw [if_pos Option.isNone_none]
          dsimp only
          rw [OrderedDict.lookup_set]
          by_cases same : key = .text canonical
          · rw [if_pos same, same, taken, if_pos rfl]
            rfl
          · rw [if_neg same, if_neg (fun equal => same equal.symm), Option.or_none]
      | some earlier =>
          have unchanged : ∀ changed : Resolution, changed.resolved = so.resolved →
              changed.resolved.lookup key = (so.resolved.lookup key).or
                (if .text canonical = key then some value else none) := by
            intro changed same
            rw [same]
            by_cases here : Key.text canonical = key
            · rw [← here, taken]
              rfl
            · rw [if_neg here, Option.or_none]
          rw [if_neg (by simp)]
          split
          · exact unchanged _ rfl
          · exact unchanged _ rfl

/-- After one more field the resolved data still has the first value of every name. -/
theorem keepsFirst_resolveField {done : Mapping} {so : Resolution} {name : Text} {value : Value}
    (apart : ∀ entry ∈ done, entry.1 ≠ .text name)
    (before : ∀ key, so.resolved.lookup key = (validator.firstWith done key).map Prod.snd)
    (key : Key) :
    (validator.resolveField so name value).resolved.lookup key =
      (validator.firstWith (done ++ [(.text name, value)]) key).map Prod.snd := by
  rw [lookup_resolveField, before, firstWith_append, firstWith_singleton]
  · unfold canonicalKey
    cases validator.firstWith done key with
    | some first => rfl
    | none => split <;> rfl
  · -- a field outside the schema has a key of its own
    intro outside
    rw [before, Option.map_eq_none_iff]
    cases found : validator.firstWith done (.text name) with
    | none => rfl
    | some first =>
        obtain ⟨member, same⟩ := firstWith_some found
        exfalso
        apply apart first member
        obtain ⟨firstKey, firstValue⟩ := first
        cases firstKey with
        | other identity => cases same
        | text firstName => rw [same_of_outside outside (Key.text.inj same)]

/-- A key that is no string is kept as it is. -/
theorem keepsFirst_bytes {done : Mapping} {resolved : Mapping} {identity : Text} {value : Value}
    (apart : ∀ entry ∈ done, entry.1 ≠ .other identity)
    (before : ∀ key, resolved.lookup key = (validator.firstWith done key).map Prod.snd)
    (key : Key) :
    (OrderedDict.set resolved (.other identity) value).lookup key =
      (validator.firstWith (done ++ [(.other identity, value)]) key).map Prod.snd := by
  have fresh : validator.firstWith done (.other identity) = none := by
    cases found : validator.firstWith done (.other identity) with
    | none => rfl
    | some first =>
        obtain ⟨member, same⟩ := firstWith_some found
        exfalso
        apply apart first member
        obtain ⟨firstKey, firstValue⟩ := first
        cases firstKey with
        | other firstIdentity => exact same
        | text name => cases same
  rw [OrderedDict.lookup_set, firstWith_append, firstWith_singleton]
  unfold canonicalKey
  dsimp only
  by_cases here : key = .other identity
  · rw [if_pos here, here, fresh, if_pos rfl]
    rfl
  · rw [if_neg here, if_neg (fun same => here same.symm), Option.or_none, before]

theorem apart_of_distinct {done tail : Mapping} {key : Key} {value : Value}
    (distinct : ((done ++ (key, value) :: tail).map Prod.fst).Nodup) :
    ∀ entry ∈ done, entry.1 ≠ key := by
  rw [List.map_append, List.nodup_append] at distinct
  intro entry member
  exact distinct.2.2 entry.1 (List.mem_map_of_mem member) key List.mem_cons_self

/-- Under every name stands the value of the first field that has it. -/
theorem lookup_resolveAliases {rest done : Mapping} {so final : Resolution}
    (resolved : validator.resolveAliases so rest = .ok final)
    (distinct : ((done ++ rest).map Prod.fst).Nodup)
    (before : ∀ key, so.resolved.lookup key = (validator.firstWith done key).map Prod.snd) :
    ∀ key, final.resolved.lookup key =
      (validator.firstWith (done ++ rest) key).map Prod.snd := by
  induction rest generalizing done so with
  | nil =>
      cases resolved
      rw [List.append_nil]
      exact before
  | cons head tail ih =>
      obtain ⟨key, value⟩ := head
      cases key with
      | other identity =>
          have step := @keepsFirst_bytes validator done so.resolved identity value
            (apart_of_distinct distinct) before
          rw [resolveAliases] at resolved
          rw [List.append_cons] at distinct ⊢
          split at resolved
          · exact ih resolved distinct step
          · cases resolved
      | text name =>
          have step := @keepsFirst_resolveField validator done so name value
            (apart_of_distinct distinct) before
          rw [resolveAliases] at resolved
          rw [List.append_cons] at distinct ⊢
          exact ih resolved distinct step

/-- The key has a method `lower`. -/
def HasLower : Key → Prop
  | .text _ => True
  | .other identity => isBytes identity = true

theorem resolveAliases_ok_iff (so : Resolution) (data : Mapping) :
    (∃ final, validator.resolveAliases so data = .ok final) ↔
      ∀ entry ∈ data, HasLower entry.1 := by
  induction data generalizing so with
  | nil =>
      constructor
      · intro _resolved entry member
        cases member
      · intro _lowered
        exact ⟨so, rfl⟩
  | cons head tail ih =>
      obtain ⟨key, value⟩ := head
      rw [List.forall_mem_cons]
      cases key with
      | text name =>
          rw [resolveAliases, ih]
          exact ⟨fun others => ⟨trivial, others⟩, And.right⟩
      | other identity =>
          rw [resolveAliases]
          unfold HasLower
          dsimp only
          by_cases bytes : isBytes identity = true
          · rw [if_pos bytes, ih]
            exact ⟨fun others => ⟨bytes, others⟩, And.right⟩
          · rw [if_neg bytes]
            constructor
            · intro resolved
              cases resolved.choose_spec
            · intro lowered
              exact absurd lowered.1 bytes

theorem resolveAliases_ok (so : Resolution) {data : Mapping}
    (strings : ∀ entry ∈ data, ∃ name, entry.1 = .text name) :
    ∃ final, validator.resolveAliases so data = .ok final := by
  rw [resolveAliases_ok_iff]
  intro entry member
  obtain ⟨name, isText⟩ := strings entry member
  rw [isText]
  trivial

end VaultSearch.FrontmatterValidator
