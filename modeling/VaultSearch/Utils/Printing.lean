/-
Truth values of objects and the conversion `str(value)`.

Converting fails in two documented ways: an integer of more than 4300 digits raises
`ValueError`, and a container nested too deeply raises `RecursionError`.
`Value.Printable` says when neither happens, and `pyStr_ok_iff` that it is exact.
-/

import VaultSearch.Types

set_option autoImplicit false

namespace VaultSearch

/-- `bool(value)`. -/
def Value.truthy : Value → Bool
  | .null => false
  | .bool value => value
  | .int value => value != 0
  | .str value => !value.isEmpty
  | .list items => !items.isEmpty
  | .map entries => !entries.isEmpty
  | .other truthy _ => truthy

/-- Integers from here on have more digits than `str` converts. -/
def intPrintLimit : Nat :=
  10 ^ 4300

def printInt (value : Int) : Except PyError Text :=
  if value.natAbs < intPrintLimit then .ok (toString value).toList else .error .valueError

mutual

def Value.depth : Value → Nat
  | .list items => 1 + itemsDepth items
  | .map entries => 1 + entriesDepth entries
  | _ => 0

def itemsDepth : List Value → Nat
  | [] => 0
  | head :: tail => max head.depth (itemsDepth tail)

def entriesDepth : Mapping → Nat
  | [] => 0
  | (_, value) :: tail => max value.depth (entriesDepth tail)

end

def Key.repr (env : Env) : Key → Text
  | .text name => env.reprText name
  | .other identity => identity

mutual

/-- `repr(value)` below the recursion limit. -/
def Value.repr (env : Env) : Value → Except PyError Text
  | .null => .ok "None".toList
  | .bool true => .ok "True".toList
  | .bool false => .ok "False".toList
  | .int value => printInt value
  | .str value => .ok (env.reprText value)
  | .list items =>
      (reprItems env items).map (fun shown =>
        "[".toList ++ Text.join ", ".toList shown ++ "]".toList)
  | .map entries =>
      (reprEntries env entries).map (fun shown =>
        "\x7b".toList ++ Text.join ", ".toList shown ++ "\x7d".toList)
  | .other _ none => .error .valueError
  | .other _ (some (_, shown)) => .ok shown

def reprItems (env : Env) : List Value → Except PyError (List Text)
  | [] => .ok []
  | head :: tail =>
      (head.repr env).bind (fun shown => (reprItems env tail).map (shown :: ·))

def reprEntries (env : Env) : Mapping → Except PyError (List Text)
  | [] => .ok []
  | (key, value) :: tail =>
      (value.repr env).bind (fun shown =>
        (reprEntries env tail).map ((key.repr env ++ ": ".toList ++ shown) :: ·))

end

/-- `str(value)`. -/
def pyStr (env : Env) : Value → Except PyError Text
  | .str value => .ok value
  | .other _ (some (shown, _)) => .ok shown
  | value => if value.depth ≤ env.reprDepth then value.repr env else .error .recursionError

/-! ### When the conversion succeeds -/

mutual

/-- No integer inside is too long and no other object refuses to be printed. -/
def Value.Readable : Value → Prop
  | .int value => value.natAbs < intPrintLimit
  | .list items => itemsReadable items
  | .map entries => entriesReadable entries
  | .other _ printed => printed.isSome = true
  | _ => True

def itemsReadable : List Value → Prop
  | [] => True
  | head :: tail => head.Readable ∧ itemsReadable tail

def entriesReadable : Mapping → Prop
  | [] => True
  | (_, value) :: tail => value.Readable ∧ entriesReadable tail

end

/-- The condition under which `str(value)` returns. -/
def Value.Printable (env : Env) (value : Value) : Prop :=
  value.Readable ∧ value.depth ≤ env.reprDepth

/-- `result` is a value, not an exception. -/
def Returns {result : Type} (outcome : Except PyError result) : Prop :=
  ∃ value, outcome = .ok value

@[simp] theorem returns_ok {result : Type} (value : result) :
    Returns (Except.ok value : Except PyError result) :=
  ⟨value, rfl⟩

@[simp] theorem not_returns_error {result : Type} (error : PyError) :
    ¬Returns (Except.error error : Except PyError result) := by
  rintro ⟨value, impossible⟩
  cases impossible

theorem returns_map_iff {source result : Type} (convert : source → result)
    (outcome : Except PyError source) : Returns (outcome.map convert) ↔ Returns outcome := by
  cases outcome with
  | error error => simp [Except.map]
  | ok value => simp [Except.map]

theorem returns_bind_iff {source result : Type} (outcome : Except PyError source)
    (next : source → Except PyError result) :
    Returns (outcome.bind next) ↔ ∃ value, outcome = .ok value ∧ Returns (next value) := by
  cases outcome with
  | error error => simp [Except.bind]
  | ok value => simp [Except.bind]

@[simp] theorem returns_do_iff {source result : Type} (outcome : Except PyError source)
    (next : source → Except PyError result) :
    Returns (outcome >>= next) ↔ ∃ value, outcome = .ok value ∧ Returns (next value) :=
  returns_bind_iff outcome next

/-- Two conversions in a row return when each of them does. -/
theorem returns_bind_map_iff {first second result : Type} (outcome : Except PyError first)
    (later : Except PyError second) (combine : first → second → result) :
    Returns (outcome.bind (fun value => later.map (combine value))) ↔
      Returns outcome ∧ Returns later := by
  cases outcome with
  | error error => simp [Except.bind]
  | ok value => simp [Except.bind, returns_map_iff]

theorem printInt_returns_iff (value : Int) :
    Returns (printInt value) ↔ value.natAbs < intPrintLimit := by
  unfold printInt
  split
  · simp [*]
  · simp [*]

mutual

theorem Value.repr_returns_iff (env : Env) :
    (value : Value) → (Returns (value.repr env) ↔ value.Readable)
  | .null => by simp [Value.repr, Value.Readable]
  | .bool true => by simp [Value.repr, Value.Readable]
  | .bool false => by simp [Value.repr, Value.Readable]
  | .int value => by
      rw [Value.repr, Value.Readable]
      exact printInt_returns_iff value
  | .str value => by simp [Value.repr, Value.Readable]
  | .list items => by
      rw [Value.repr, Value.Readable, returns_map_iff]
      exact reprItems_returns_iff env items
  | .map entries => by
      rw [Value.repr, Value.Readable, returns_map_iff]
      exact reprEntries_returns_iff env entries
  | .other _ none => by simp [Value.repr, Value.Readable]
  | .other _ (some _) => by simp [Value.repr, Value.Readable]

theorem reprItems_returns_iff (env : Env) :
    (items : List Value) → (Returns (reprItems env items) ↔ itemsReadable items)
  | [] => by simp [reprItems, itemsReadable]
  | head :: tail => by
      have headCase := Value.repr_returns_iff env head
      have tailCase := reprItems_returns_iff env tail
      rw [reprItems, itemsReadable, returns_bind_map_iff, headCase, tailCase]

theorem reprEntries_returns_iff (env : Env) :
    (entries : Mapping) → (Returns (reprEntries env entries) ↔ entriesReadable entries)
  | [] => by simp [reprEntries, entriesReadable]
  | (key, value) :: tail => by
      have headCase := Value.repr_returns_iff env value
      have tailCase := reprEntries_returns_iff env tail
      rw [reprEntries, entriesReadable, returns_bind_map_iff, headCase, tailCase]

end

/-- `str(value)` returns exactly for printable values. -/
theorem pyStr_returns_iff (env : Env) (value : Value) :
    Returns (pyStr env value) ↔ value.Printable env := by
  have guarded : ∀ value : Value,
      Returns (if value.depth ≤ env.reprDepth then value.repr env else .error .recursionError) ↔
        value.Printable env := by
    intro value
    unfold Value.Printable
    split
    · rename_i shallow
      rw [Value.repr_returns_iff]
      simp [shallow]
    · rename_i deep
      simp [deep]
  cases value with
  | str value => simp [pyStr, Value.Printable, Value.Readable, Value.depth]
  | other truthy printed =>
      cases printed with
      | none =>
          rw [pyStr]
          · exact guarded _
          · simp
          · simp
      | some shown => simp [pyStr, Value.Printable, Value.Readable, Value.depth]
  | null => exact guarded .null
  | bool value => exact guarded (.bool value)
  | int value => exact guarded (.int value)
  | list items => exact guarded (.list items)
  | map entries => exact guarded (.map entries)

/-- `[str(item) for item in items]`. -/
def printAll (env : Env) (items : List Value) : Except PyError (List Text) :=
  items.mapM (pyStr env)

theorem printAll_returns_iff (env : Env) (items : List Value) :
    Returns (printAll env items) ↔ ∀ item ∈ items, item.Printable env := by
  unfold printAll
  induction items with
  | nil => simp [pure, Except.pure]
  | cons head tail ih =>
      rw [List.mapM_cons, List.forall_mem_cons, ← ih, ← pyStr_returns_iff]
      cases pyStr env head with
      | error error => simp [bind, Except.bind]
      | ok shown =>
          cases tail.mapM (pyStr env) with
          | error error => simp [bind, Except.bind]
          | ok rest => simp [bind, Except.bind, pure, Except.pure]

end VaultSearch
