/-
Which spelling of a field wins, and which losses are reported.

The loop keeps the first spelling.  A later one is a conflict only if it is an alias, so that
a canonical field behind one of its aliases is dropped without a word.
-/

import VaultSearch.Frontmatter.KeptFields

set_option autoImplicit false

namespace VaultSearch.FrontmatterValidator

variable {validator : FrontmatterValidator}

/-! ### The conflicts -/

/-- A conflict that has been found stays, and a new one is about an alias. -/
theorem conflicts_resolveField (so : Resolution) (name : Text) (value : Value) :
    (validator.resolveField so name value).conflicts = so.conflicts ∨
      (validator.isAlias name ∧
        (validator.resolveField so name value).conflicts =
          so.conflicts ++ [(name, validator.canonicalName name, value)]) := by
  unfold resolveField isAlias canonicalName
  dsimp only
  cases validator.aliasMap.lookup (validator.lower name) with
  | none => exact Or.inl rfl
  | some canonical =>
      dsimp only [Option.getD_some]
      split
      · exact Or.inl rfl
      · split
        case isTrue spelled => exact Or.inr ⟨bne_iff_ne.mp spelled, rfl⟩
        case isFalse => exact Or.inl rfl

/-- An alias of a name that is taken is a conflict. -/
theorem conflict_of_taken {so : Resolution} {name : Text} (value : Value)
    (spelled : validator.isAlias name)
    (taken : (so.resolved.lookup (.text (validator.canonicalName name))).isSome = true) :
    (name, validator.canonicalName name, value) ∈
      (validator.resolveField so name value).conflicts := by
  unfold isAlias at spelled
  unfold resolveField
  unfold canonicalName at spelled taken ⊢
  dsimp only
  cases found : validator.aliasMap.lookup (validator.lower name) with
  | none =>
      rw [found] at spelled
      exact absurd rfl spelled
  | some canonical =>
      rw [found] at spelled taken
      dsimp only [Option.getD_some] at spelled taken ⊢
      rw [← Option.not_isNone, Bool.not_eq_true'] at taken
      rw [taken, if_neg Bool.false_ne_true, if_pos (bne_iff_ne.mpr spelled)]
      exact List.mem_append_right _ (List.mem_singleton_self _)

theorem conflicts_resolveAliases {rest : Mapping} {so final : Resolution}
    (resolved : validator.resolveAliases so rest = .ok final) :
    (∀ conflict ∈ so.conflicts, conflict ∈ final.conflicts) ∧
      ∀ conflict ∈ final.conflicts, conflict ∈ so.conflicts ∨ validator.isAlias conflict.1 := by
  induction rest generalizing so with
  | nil =>
      cases resolved
      exact ⟨fun _conflict member => member, fun _conflict member => Or.inl member⟩
  | cons head tail ih =>
      obtain ⟨key, value⟩ := head
      cases key with
      | other identity =>
          rw [resolveAliases] at resolved
          split at resolved
          · exact @ih { so with resolved := OrderedDict.set so.resolved (.other identity) value }
              resolved
          · cases resolved
      | text name =>
          rw [resolveAliases] at resolved
          obtain ⟨stays, fromAlias⟩ := ih resolved
          rcases @conflicts_resolveField validator so name value with same | ⟨spelled, added⟩
          · rw [same] at stays fromAlias
            exact ⟨stays, fromAlias⟩
          · rw [added] at stays fromAlias
            constructor
            · intro conflict member
              exact stays conflict (List.mem_append_left _ member)
            · intro conflict member
              rcases fromAlias conflict member with early | isAlias
              · rcases List.mem_append.mp early with old | new
                · exact Or.inl old
                · rw [List.mem_singleton.mp new]
                  exact Or.inr spelled
              · exact Or.inr isAlias

/-- Every alias whose value is not the one kept for its field is a conflict. -/
theorem alias_reported {rest done : Mapping} {so final : Resolution}
    (resolved : validator.resolveAliases so rest = .ok final)
    (distinct : ((done ++ rest).map Prod.fst).Nodup)
    (before : ∀ key, so.resolved.lookup key = (validator.firstWith done key).map Prod.snd)
    {name : Text} {value : Value} (member : (Key.text name, value) ∈ rest)
    (spelled : validator.isAlias name)
    (lost : (validator.firstWith (done ++ rest) (.text (validator.canonicalName name))).map
      Prod.snd ≠ some value) :
    (name, validator.canonicalName name, value) ∈ final.conflicts := by
  induction rest generalizing done so with
  | nil => cases member
  | cons head tail ih =>
      obtain ⟨key, headValue⟩ := head
      cases key with
      | other identity =>
          have step := @keepsFirst_bytes validator done so.resolved identity headValue
            (apart_of_distinct distinct) before
          have later : (Key.text name, value) ∈ tail := by
            cases List.mem_cons.mp member with
            | inl isHead => cases isHead
            | inr inTail => exact inTail
          rw [resolveAliases] at resolved
          rw [List.append_cons] at distinct lost
          split at resolved
          · exact ih resolved distinct step later lost
          · cases resolved
      | text headName =>
          rw [resolveAliases] at resolved
          cases List.mem_cons.mp member with
          | inl isHead =>
              cases isHead
              apply (conflicts_resolveAliases resolved).1
              apply conflict_of_taken value spelled
              rw [before, Option.isSome_map]
              cases earlier : validator.firstWith done
                  (.text (validator.canonicalName name)) with
              | some first => rfl
              | none =>
                  exfalso
                  apply lost
                  rw [firstWith_append, earlier, Option.none_or]
                  unfold firstWith
                  rw [List.find?_cons, beq_iff_eq.mpr (show validator.canonicalKey (.text name) =
                    .text (validator.canonicalName name) from rfl)]
                  rfl
          | inr later =>
              have step := @keepsFirst_resolveField validator done so headName headValue
                (apart_of_distinct distinct) before
              rw [List.append_cons] at distinct lost
              exact ih resolved distinct step later lost

/-! ### The warnings -/

theorem warnings_validateField {data : Mapping} {found next : Findings}
    {entry : Text × FieldSchema} (done : validator.validateField data found entry = .ok next) :
    ∀ warning ∈ found.warnings, warning ∈ next.warnings := by
  intro warning member
  unfold validateField at done
  cases present : data.lookup (.text entry.1) with
  | none =>
      rw [present] at done
      cases done
      unfold validateMissing
      cases entry.2.onMissing with
      | require => exact member
      | ignore => exact member
      | auto =>
          dsimp only
          cases validator.autoGenerate entry.1 entry.2 with
          | ok generated => exact member
          | error reason => exact member
      | suggest =>
          dsimp only
          cases givenDefault entry.2 with
          | none => exact member
          | some preset => exact member
  | some value =>
      rw [present] at done
      unfold validatePresent at done
      dsimp only at done
      cases outcome : validator.coerce entry.2 value with
      | ok coerced =>
          rw [outcome] at done
          cases done
          exact List.mem_append_left _ member
      | error fault =>
          rw [outcome] at done
          cases fault with
          | invalid message =>
              cases done
              exact member
          | uncaught reason => cases done

theorem warnings_validateSchema {data : Mapping} {schema : List (Text × FieldSchema)}
    {found final : Findings}
    (done : schema.foldlM (validator.validateField data) found = .ok final) :
    ∀ warning ∈ found.warnings, warning ∈ final.warnings := by
  induction schema generalizing found with
  | nil =>
      cases done
      exact fun _warning member => member
  | cons head tail ih =>
      rw [List.foldlM_cons] at done
      obtain ⟨next, first, rest⟩ := bind_ok done
      intro warning member
      exact ih rest warning (warnings_validateField first warning member)

theorem warnings_validateExtras (data : Mapping) (found : Findings) :
    (data.foldl validator.validateExtra found).warnings = found.warnings := by
  induction data generalizing found with
  | nil => rfl
  | cons head tail ih =>
      rw [List.foldl_cons, ih]
      unfold validateExtra
      split
      · rfl
      · split
        · rfl
        · rfl

/-- Validation warns of every conflict. -/
theorem conflicts_warned {data : Mapping} {so : Resolution} {result : ValidationResult}
    (enabled : validator.config.enabled = true)
    (resolved : validator.resolveAliases {} data = .ok so)
    (done : validator.validate data = .ok result) :
    ∀ conflict ∈ so.conflicts, ∃ warning ∈ result.warnings,
      warning.code = "alias_conflict".toList ∧ warning.field = conflict.2.1 ∧
        warning.value = conflict.2.2 := by
  intro conflict member
  unfold validate at done
  rw [enabled, Bool.not_true, if_neg Bool.false_ne_true] at done
  obtain ⟨same, isResolved, afterAliases⟩ := bind_ok done
  rw [resolved] at isResolved
  cases isResolved
  obtain ⟨found, checked, ended⟩ := bind_ok afterAliases
  cases ended
  have warned := warnings_validateSchema checked _
    (List.mem_append_right _ (List.mem_map_of_mem member))
  have shown : ∀ warning ∈ found.warnings,
      warning ∈ (validator.conclude
        (so.resolved.foldl validator.validateExtra found)).warnings := by
    intro warning present
    rw [← warnings_validateExtras so.resolved found] at present
    unfold conclude
    split
    · exact List.mem_append_left _ present
    · exact present
  exact ⟨_, shown _ warned, rfl, rfl, rfl⟩

/-! ### When the canonical field wins -/

variable (validator) in
/-- Every field given under its own name has the value given there, in any order of the keys;
every value that is not the one kept for its field is a conflict. -/
def ResolvesCanonically (data : StringMapping) : Prop :=
  ∃ so, validator.resolveAliases {} data.entries = .ok so ∧
    (∀ field ∈ validator.config.schema, ∀ value,
      data.entries.lookup (.text field.1) = some value →
        so.resolved.lookup (.text field.1) = some value ∧
          ∀ reordered : StringMapping, reordered.entries.Perm data.entries →
            ∃ other, validator.resolveAliases {} reordered.entries = .ok other ∧
              other.resolved.lookup (.text field.1) = so.resolved.lookup (.text field.1)) ∧
    ∀ name value, (Key.text name, value) ∈ data.entries →
      so.resolved.lookup (.text (validator.canonicalName name)) ≠ some value →
        (name, validator.canonicalName name, value) ∈ so.conflicts

variable (validator) in
/-- The fields are given so that no order and no spelling matters. -/
structure CanonicallyGiven (data : Mapping) : Prop where
  /-- a field given under its own name has that value in every spelling that stands for it, and
  there is one: its own name may be an alias of another field -/
  agreed : ∀ field ∈ validator.config.schema, ∀ value,
    data.lookup (.text field.1) = some value →
      (∃ entry ∈ data, validator.canonicalKey entry.1 = .text field.1) ∧
        ∀ entry ∈ data, validator.canonicalKey entry.1 = .text field.1 → entry.2 = value
  /-- a spelling that is no alias comes first, or agrees with the one that does -/
  unaliased : ∀ name value, (Key.text name, value) ∈ data → ¬ validator.isAlias name →
    ∀ first, validator.firstWith data (.text (validator.canonicalName name)) = some first →
      first.2 = value

/-- Any entry can come first. -/
theorem exists_startingWith (data : StringMapping) {entry : Key × Value}
    (member : entry ∈ data.entries) :
    ∃ (reordered : StringMapping) (rest : Mapping), reordered.entries = entry :: rest ∧
      reordered.entries.Perm data.entries := by
  obtain ⟨front, back, split⟩ := List.append_of_mem member
  have same : (entry :: (front ++ back)).Perm data.entries := by
    rw [split]
    exact List.perm_middle.symm
  refine ⟨{ entries := entry :: (front ++ back), strings := ?_, distinct := ?_ }, _, rfl, same⟩
  · intro other present
    exact data.strings other (same.mem_iff.mp present)
  · exact (same.map Prod.fst).nodup_iff.mpr data.distinct

theorem keptValue_of_first {data : Mapping} {key : Key} {first : Key × Value}
    (found : validator.firstWith data key = some first) :
    validator.keptValue data key = some first.2 := by
  unfold keptValue
  rw [found]
  rfl

theorem canonicallyGiven_of_resolves {data : StringMapping}
    (canonical : validator.ResolvesCanonically data) :
    validator.CanonicallyGiven data.entries := by
  obtain ⟨so, resolved, wins, reported⟩ := canonical
  constructor
  · intro field member value given
    obtain ⟨kept, orderFree⟩ := wins field member value given
    constructor
    · rw [lookup_resolved data.distinct resolved] at kept
      obtain ⟨first, found, _same⟩ := Option.map_eq_some_iff.mp kept
      exact ⟨first, firstWith_some found⟩
    · -- the entry is put first, where nothing comes before it
      intro entry inside named
      obtain ⟨reordered, rest, isFirst, same⟩ := exists_startingWith data inside
      obtain ⟨other, otherResolved, agrees⟩ := orderFree reordered same
      have first : validator.firstWith reordered.entries (.text field.1) = some entry := by
        rw [isFirst]
        exact List.find?_cons_of_pos (beq_iff_eq.mpr named)
      rw [lookup_resolved reordered.distinct otherResolved, keptValue_of_first first, kept] at agrees
      exact Option.some.inj agrees
  · intro name value member unaliased first found
    by_contra differs
    apply unaliased
    have lost : so.resolved.lookup (.text (validator.canonicalName name)) ≠ some value := by
      rw [lookup_resolved data.distinct resolved, keptValue_of_first found]
      exact fun same => differs (Option.some.inj same)
    rcases (conflicts_resolveAliases resolved).2 _ (reported name value member lost) with
      none | isAlias
    · cases none
    · exact isAlias

theorem resolves_of_canonicallyGiven {data : StringMapping}
    (given : validator.CanonicallyGiven data.entries) :
    validator.ResolvesCanonically data := by
  obtain ⟨so, resolved⟩ := @resolveAliases_ok validator {} data.entries data.strings
  refine ⟨so, resolved, ?_, ?_⟩
  · intro field member value ownName
    obtain ⟨⟨entry, inside, named⟩, agreed⟩ := given.agreed field member value ownName
    -- whatever comes first in an order has the value
    have kept : ∀ (reordered : StringMapping) (other : Resolution),
        reordered.entries.Perm data.entries →
          validator.resolveAliases {} reordered.entries = .ok other →
            other.resolved.lookup (.text field.1) = some value := by
      intro reordered other same otherResolved
      obtain ⟨first, found⟩ := @firstWith_isSome validator reordered.entries entry
        (same.mem_iff.mpr inside)
      rw [named] at found
      obtain ⟨present, isNamed⟩ := firstWith_some found
      rw [lookup_resolved reordered.distinct otherResolved, keptValue_of_first found,
        agreed first (same.mem_iff.mp present) isNamed]
    refine ⟨kept data so (List.Perm.refl _) resolved, ?_⟩
    intro reordered same
    obtain ⟨other, otherResolved⟩ := @resolveAliases_ok validator {} reordered.entries
      reordered.strings
    exact ⟨other, otherResolved, (kept reordered other same otherResolved).trans
      (kept data so (List.Perm.refl _) resolved).symm⟩
  · intro name value member lost
    rw [lookup_resolved data.distinct resolved] at lost
    have spelled : validator.isAlias name := by
      by_contra unaliased
      obtain ⟨first, found⟩ := @firstWith_isSome validator data.entries _ member
      apply lost
      rw [← given.unaliased name value member unaliased first found]
      exact keptValue_of_first found
    exact @alias_reported validator data.entries [] {} so resolved data.distinct
      (fun _key => rfl) name value member spelled lost

/-- Alias resolution is canonical-first and reports every loss exactly if no order and no
spelling matters to begin with. -/
theorem resolvesCanonically_iff (data : StringMapping) :
    validator.ResolvesCanonically data ↔ validator.CanonicallyGiven data.entries := by
  constructor
  · exact canonicallyGiven_of_resolves
  · exact resolves_of_canonicallyGiven

/-! ### A canonical field behind its alias -/

/-- `created_at` may also be spelled `created`. -/
def createdValidator : FrontmatterValidator :=
  { config :=
      { enabled := true
        schema := [("created_at".toList, { type := .date, aliases := ["created".toList] })] }
    lower := List.map Char.toLower
    coerce := fun _schema value => .ok (value, none)
    generated := fun _fieldName => .null }

def createdTwice : StringMapping :=
  { entries :=
      [(.text "created".toList, .str "2026-01-20".toList),
        (.text "created_at".toList, .str "2026-01-15".toList)]
    strings := by
      intro entry member
      rcases List.mem_cons.mp member with isAlias | later
      · exact ⟨_, congrArg Prod.fst isAlias⟩
      · exact ⟨_, congrArg Prod.fst (List.mem_singleton.mp later)⟩
    distinct := by decide }

/-- The alias comes first and displaces the canonical field. -/
theorem alias_displaces_canonical : ¬ createdValidator.ResolvesCanonically createdTwice := by
  intro canonical
  have given := canonicallyGiven_of_resolves canonical
  have differs := given.unaliased "created_at".toList (.str "2026-01-15".toList)
    (List.mem_cons_of_mem _ (List.mem_singleton_self _)) (fun spelled => spelled rfl)
    (.text "created".toList, .str "2026-01-20".toList) rfl
  exact absurd (Value.str.inj differs) (by decide)

end VaultSearch.FrontmatterValidator
