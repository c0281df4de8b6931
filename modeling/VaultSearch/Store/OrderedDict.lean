/-
Dictionaries that keep the order of insertion, as lists of entries.

Assigning to a key that is present changes its value in place; a new key goes last.
-/

import Mathlib.Data.List.Basic
import Mathlib.Data.List.Nodup

set_option autoImplicit false

namespace VaultSearch.OrderedDict

variable {key value : Type} [BEq key]

/-- `entries[name] = assigned` -/
def set (entries : List (key × value)) (name : key) (assigned : value) : List (key × value) :=
  if entries.any (fun entry => entry.1 == name) then
    entries.map (fun entry => if entry.1 == name then (name, assigned) else entry)
  else entries ++ [(name, assigned)]

/-- `{**entries, **updates}` -/
def merge (entries updates : List (key × value)) : List (key × value) :=
  updates.foldl (fun merged entry => set merged entry.1 entry.2) entries

variable [LawfulBEq key]

theorem lookup_head (name : key) (assigned : value) (rest : List (key × value)) :
    ((name, assigned) :: rest).lookup name = some assigned := by
  rw [List.lookup_cons, beq_self_eq_true]

theorem lookup_tail {name other : key} (assigned : value) (rest : List (key × value))
    (apart : other ≠ name) : ((name, assigned) :: rest).lookup other = rest.lookup other := by
  rw [List.lookup_cons, beq_false_of_ne apart]

theorem mem_of_lookup {entries : List (key × value)} {name : key} {found : value}
    (present : entries.lookup name = some found) : (name, found) ∈ entries := by
  induction entries with
  | nil => cases present
  | cons head tail ih =>
      by_cases same : name = head.1
      · rw [same] at present ⊢
        rw [lookup_head] at present
        rw [← Option.some.inj present]
        exact List.mem_cons_self
      · rw [lookup_tail head.2 tail same] at present
        exact List.mem_cons_of_mem _ (ih present)

theorem lookup_eq_none {entries : List (key × value)} {name : key} :
    entries.lookup name = none ↔ ∀ entry ∈ entries, entry.1 ≠ name := by
  induction entries with
  | nil =>
      constructor
      · intro _missing entry member
        cases member
      · intro _apart
        rfl
  | cons head tail ih =>
      by_cases same : name = head.1
      · constructor
        · intro missing
          rw [same, lookup_head] at missing
          cases missing
        · intro apart
          exact absurd same.symm (apart head List.mem_cons_self)
      · rw [lookup_tail head.2 tail same, ih]
        constructor
        · intro apart entry member
          cases List.mem_cons.mp member with
          | inl isHead =>
              rw [isHead]
              exact fun equal => same equal.symm
          | inr later => exact apart entry later
        · intro apart entry member
          exact apart entry (List.mem_cons_of_mem _ member)

theorem lookup_isSome {entries : List (key × value)} {name : key} :
    (entries.lookup name).isSome = true ↔ ∃ entry ∈ entries, entry.1 = name := by
  constructor
  · intro present
    obtain ⟨found, isFound⟩ := Option.isSome_iff_exists.mp present
    exact ⟨(name, found), mem_of_lookup isFound, rfl⟩
  · intro present
    obtain ⟨entry, member, same⟩ := present
    cases missing : entries.lookup name with
    | none => exact absurd same (lookup_eq_none.mp missing entry member)
    | some found => rfl

/-- With distinct keys every entry is found under its key. -/
theorem lookup_of_mem {entries : List (key × value)} (distinct : (entries.map Prod.fst).Nodup)
    {entry : key × value} (member : entry ∈ entries) : entries.lookup entry.1 = some entry.2 := by
  induction entries with
  | nil => cases member
  | cons head tail ih =>
      rw [List.map_cons, List.nodup_cons] at distinct
      cases List.mem_cons.mp member with
      | inl same =>
          rw [same]
          exact lookup_head head.1 head.2 tail
      | inr later =>
          have apart : entry.1 ≠ head.1 := by
            intro same
            exact distinct.1 (same ▸ List.mem_map_of_mem later)
          rw [lookup_tail head.2 tail apart]
          exact ih distinct.2 later

theorem lookup_append (front back : List (key × value)) (name : key) :
    (front ++ back).lookup name = (front.lookup name).or (back.lookup name) := by
  induction front with
  | nil => rfl
  | cons head tail ih =>
      rw [List.cons_append]
      by_cases same : name = head.1
      · rw [same, lookup_head, lookup_head]
        rfl
      · rw [lookup_tail head.2 _ same, lookup_tail head.2 _ same, ih]

theorem lookup_singleton [DecidableEq key] (name other : key) (assigned : value) :
    [(name, assigned)].lookup other = if other = name then some assigned else none := by
  by_cases same : other = name
  · rw [same, lookup_head, if_pos rfl]
  · rw [lookup_tail assigned [] same, if_neg same]
    rfl

/-- An assignment is seen under its key and nowhere else. -/
theorem lookup_set [DecidableEq key] (entries : List (key × value)) (name other : key)
    (assigned : value) :
    (set entries name assigned).lookup other =
      if other = name then some assigned else entries.lookup other := by
  have inPlace : ∀ rest : List (key × value), rest.any (fun entry => entry.1 == name) = true →
      (rest.map (fun entry => if entry.1 == name then (name, assigned) else entry)).lookup other =
        if other = name then some assigned else rest.lookup other := by
    intro rest
    induction rest with
    | nil =>
        intro present
        cases present
    | cons head tail ih =>
        intro present
        rw [List.map_cons]
        by_cases here : head.1 = name
        · rw [here, beq_self_eq_true, if_pos rfl]
          by_cases same : other = name
          · rw [same, lookup_head, if_pos rfl]
          · rw [lookup_tail assigned _ same, if_neg same]
            have apart : other ≠ head.1 := fun equal => same (equal.trans here)
            rw [lookup_tail head.2 tail apart]
            cases later : tail.any (fun entry => entry.1 == name) with
            | true => rw [ih later, if_neg same]
            | false =>
                have kept : tail.map (fun entry =>
                    if entry.1 == name then (name, assigned) else entry) = tail := by
                  conv_rhs => rw [← List.map_id' tail]
                  apply List.map_congr_left
                  intro entry member
                  exact if_neg (List.any_eq_false.mp later entry member)
                rw [kept]
        · rw [List.any_cons, beq_false_of_ne here, Bool.false_or] at present
          rw [beq_false_of_ne here, if_neg Bool.false_ne_true]
          by_cases same : other = head.1
          · have apart : head.1 ≠ name := here
            rw [same, lookup_head, if_neg apart, lookup_head]
          · rw [lookup_tail head.2 _ same, lookup_tail head.2 _ same]
            exact ih present
  unfold set
  split
  case isTrue present => exact inPlace entries present
  case isFalse absent =>
    rw [lookup_append, lookup_singleton]
    by_cases same : other = name
    · have missing : entries.lookup name = none := by
        rw [lookup_eq_none]
        intro entry member isName
        apply absent
        rw [List.any_eq_true]
        exact ⟨entry, member, beq_iff_eq.mpr isName⟩
      rw [if_pos same, if_pos same, same, missing]
      rfl
    · rw [if_neg same, if_neg same, Option.or_none]

/-- A new key goes last. -/
theorem set_fresh {entries : List (key × value)} {name : key}
    (missing : entries.lookup name = none) (assigned : value) :
    set entries name assigned = entries ++ [(name, assigned)] := by
  unfold set
  split
  case isTrue present =>
    obtain ⟨entry, member, same⟩ := List.any_eq_true.mp present
    exact absurd (eq_of_beq same) (lookup_eq_none.mp missing entry member)
  case isFalse => rfl

/-- In a merge the last update of a key wins. -/
theorem lookup_merge [DecidableEq key] (entries updates : List (key × value)) (name : key) :
    (merge entries updates).lookup name =
      (updates.reverse.lookup name).or (entries.lookup name) := by
  induction updates generalizing entries with
  | nil => rfl
  | cons head tail ih =>
      have step := ih (set entries head.1 head.2)
      rw [lookup_set] at step
      rw [List.reverse_cons, lookup_append]
      unfold merge at step ⊢
      rw [List.foldl_cons, step]
      have single := lookup_singleton head.1 name head.2
      rw [single]
      by_cases same : name = head.1
      · rw [if_pos same, if_pos same]
        cases tail.reverse.lookup name with
        | none => rfl
        | some found => rfl
      · rw [if_neg same, if_neg same, Option.or_none]

/-- A merge loses no key. -/
theorem merge_keeps [DecidableEq key] {entries updates : List (key × value)} {name : key}
    (present : (entries.lookup name).isSome = true) :
    ((merge entries updates).lookup name).isSome = true := by
  rw [lookup_merge]
  cases updates.reverse.lookup name with
  | none => exact present
  | some found => rfl

/-- Entries that are dropped by their keys. -/
theorem lookup_filter (entries : List (key × value)) (kept : key → Bool) (name : key) :
    (entries.filter (fun entry => kept entry.1)).lookup name =
      if kept name then entries.lookup name else none := by
  induction entries with
  | nil => exact (ite_self _).symm
  | cons head tail ih =>
      by_cases same : name = head.1
      · rw [List.filter_cons, ← same]
        split
        case isTrue stays => rw [same, lookup_head, lookup_head]
        case isFalse dropped => rw [ih, if_neg dropped]
      · rw [List.filter_cons, lookup_tail head.2 tail same]
        split
        · rw [lookup_tail head.2 _ same, ih]
        · exact ih

/-! ### Keys -/

theorem keys_set (entries : List (key × value)) (name : key) (assigned : value) :
    (set entries name assigned).map Prod.fst =
      if entries.any (fun entry => entry.1 == name) then entries.map Prod.fst
      else entries.map Prod.fst ++ [name] := by
  unfold set
  split
  · rw [List.map_map]
    apply List.map_congr_left
    intro entry _member
    rw [Function.comp_apply]
    split
    case isTrue same => exact (eq_of_beq same).symm
    case isFalse => rfl
  · rw [List.map_append]
    rfl

theorem distinct_set {entries : List (key × value)} (distinct : (entries.map Prod.fst).Nodup)
    (name : key) (assigned : value) : ((set entries name assigned).map Prod.fst).Nodup := by
  rw [keys_set]
  split
  · exact distinct
  case isFalse missing =>
    rw [List.nodup_append]
    refine ⟨distinct, List.nodup_singleton name, ?_⟩
    intro present inside other isName
    rw [List.mem_singleton.mp isName]
    intro same
    apply missing
    obtain ⟨entry, member, isPresent⟩ := List.mem_map.mp inside
    rw [List.any_eq_true]
    exact ⟨entry, member, by rw [isPresent, same, beq_self_eq_true]⟩

theorem distinct_merge {entries : List (key × value)} (distinct : (entries.map Prod.fst).Nodup)
    (updates : List (key × value)) : ((merge entries updates).map Prod.fst).Nodup := by
  induction updates generalizing entries with
  | nil => exact distinct
  | cons head tail ih => exact ih (distinct_set distinct head.1 head.2)

theorem keys_merge {entries updates : List (key × value)} {name : key}
    (member : name ∈ (merge entries updates).map Prod.fst) :
    name ∈ entries.map Prod.fst ∨ name ∈ updates.map Prod.fst := by
  induction updates generalizing entries with
  | nil => exact Or.inl member
  | cons head tail ih =>
      rcases ih member with inSet | inTail
      · rw [keys_set] at inSet
        split at inSet
        · exact Or.inl inSet
        · rcases List.mem_append.mp inSet with early | last
          · exact Or.inl early
          · rw [List.mem_singleton.mp last]
            exact Or.inr List.mem_cons_self
      · exact Or.inr (List.mem_cons_of_mem _ inTail)

/-! ### Counting -/

/-- `counts[name] = counts.get(name, 0) + 1` -/
def count (counts : List (key × Nat)) (name : key) : List (key × Nat) :=
  set counts name ((counts.lookup name).getD 0 + 1)

/-- How often each item occurs, in the order of first occurrence. -/
def tally (items : List key) : List (key × Nat) :=
  items.foldl count []

theorem distinct_foldl_count (items : List key) {counts : List (key × Nat)}
    (distinct : (counts.map Prod.fst).Nodup) : ((items.foldl count counts).map Prod.fst).Nodup := by
  induction items generalizing counts with
  | nil => exact distinct
  | cons head tail ih => exact ih (distinct_set distinct head _)

theorem distinct_tally (items : List key) : ((tally items).map Prod.fst).Nodup :=
  distinct_foldl_count items List.nodup_nil

theorem getD_foldl_count [DecidableEq key] (items : List key) (counts : List (key × Nat))
    (name : key) :
    ((items.foldl count counts).lookup name).getD 0 =
      (counts.lookup name).getD 0 + items.count name := by
  induction items generalizing counts with
  | nil => rfl
  | cons head tail ih =>
      rw [List.foldl_cons, ih, count, lookup_set, List.count_cons]
      by_cases same : name = head
      · rw [if_pos same, same, beq_self_eq_true, if_pos rfl, Option.getD_some]
        omega
      · rw [if_neg same, beq_false_of_ne (Ne.symm same), if_neg Bool.false_ne_true, Nat.add_zero]

theorem mem_keys_foldl_count [DecidableEq key] (items : List key) (counts : List (key × Nat))
    (name : key) : name ∈ (items.foldl count counts).map Prod.fst ↔
      name ∈ counts.map Prod.fst ∨ name ∈ items := by
  induction items generalizing counts with
  | nil => simp
  | cons head tail ih =>
      have added : name ∈ (count counts head).map Prod.fst ↔
          name ∈ counts.map Prod.fst ∨ name = head := by
        rw [count, keys_set]
        split
        case isTrue known =>
          obtain ⟨entry, present, isHead⟩ := List.any_eq_true.mp known
          apply (or_iff_left_of_imp _).symm
          intro same
          rw [same, ← eq_of_beq isHead]
          exact List.mem_map_of_mem present
        case isFalse => rw [List.mem_append, List.mem_singleton]
      rw [List.foldl_cons, ih, added, List.mem_cons, or_assoc]

/-- A tally has an entry for each item that occurs. -/
theorem mem_keys_tally [DecidableEq key] (items : List key) (name : key) :
    name ∈ (tally items).map Prod.fst ↔ name ∈ items := by
  unfold tally
  rw [mem_keys_foldl_count]
  simp

/-- An entry of a tally holds the number of occurrences of its key. -/
theorem tally_entry [DecidableEq key] {items : List key} {entry : key × Nat}
    (member : entry ∈ tally items) : entry.2 = items.count entry.1 := by
  have found := getD_foldl_count items [] entry.1
  have present : (items.foldl count []).lookup entry.1 = some entry.2 :=
    lookup_of_mem (distinct_tally items) member
  rw [present, Option.getD_some, List.lookup_nil, Option.getD_none, Nat.zero_add] at found
  exact found

end VaultSearch.OrderedDict
