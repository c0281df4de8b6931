/-
Changing rows by deleting them and adding them back.

A row is found by a key.  As long as the wanted keys occur at most once, rewriting the rows
one key after the other changes each of them in place, up to the order of the rows.
-/

import Mathlib.Data.List.Basic
import Mathlib.Data.List.Nodup
import Mathlib.Data.List.Perm.Basic

set_option autoImplicit false

namespace VaultSearch.Rewrite

variable {row key : Type} [DecidableEq key] (keyOf : row → key)

/-- Take the first row with the key, delete every row with it, add the changed row. -/
def rewriteAt (wanted : key) (change : row → row) (rows : List row) : List row :=
  match (rows.filter (fun entry => keyOf entry = wanted)).head? with
  | none => rows
  | some found => rows.filter (fun entry => keyOf entry ≠ wanted) ++ [change found]

/-- A change of the row with one key. -/
def changeAt (wanted : key) (change : row → row) (entry : row) : row :=
  if keyOf entry = wanted then change entry else entry

theorem rewriteAt_perm {wanted : key} (change : row → row) {rows : List row}
    (once : (rows.filter (fun entry => keyOf entry = wanted)).length ≤ 1) :
    (rewriteAt keyOf wanted change rows).Perm (rows.map (changeAt keyOf wanted change)) := by
  have apart : ∀ entry ∈ rows.filter (fun entry => keyOf entry ≠ wanted),
      changeAt keyOf wanted change entry = entry := by
    intro entry member
    exact if_neg (of_decide_eq_true (List.mem_filter.mp member).2)
  have others : (rows.filter (fun entry => keyOf entry ≠ wanted)).map
      (changeAt keyOf wanted change) = rows.filter (fun entry => keyOf entry ≠ wanted) := by
    rw [List.map_congr_left apart, List.map_id']
  have divided := List.filter_append_perm (fun entry => decide (keyOf entry = wanted)) rows
  have negated : rows.filter (fun entry => !decide (keyOf entry = wanted)) =
      rows.filter (fun entry => keyOf entry ≠ wanted) := by
    refine List.filter_congr ?_
    intro entry _member
    simp
  rw [negated] at divided
  have mapped := divided.map (changeAt keyOf wanted change)
  rw [List.map_append, others] at mapped
  unfold rewriteAt
  cases shape : rows.filter (fun entry => keyOf entry = wanted) with
  | nil =>
      rw [shape] at divided mapped
      simp only [List.head?_nil]
      exact divided.symm.trans mapped
  | cons found rest =>
      have single : rest = [] := by
        rw [shape, List.length_cons] at once
        exact List.eq_nil_of_length_eq_zero (by omega)
      have hit : keyOf found = wanted := by
        have member : found ∈ rows.filter (fun entry => keyOf entry = wanted) := by
          rw [shape]
          exact List.mem_cons_self
        exact of_decide_eq_true (List.mem_filter.mp member).2
      rw [shape, single, List.map_cons, List.map_nil] at mapped
      have changed : changeAt keyOf wanted change found = change found := if_pos hit
      rw [changed] at mapped
      simp only [List.head?_cons]
      exact List.perm_append_comm.trans mapped

theorem changeAt_key {wanted : key} {change : row → row}
    (keeps : ∀ entry, keyOf (change entry) = keyOf entry) (entry : row) :
    keyOf (changeAt keyOf wanted change entry) = keyOf entry := by
  unfold changeAt
  split
  · exact keeps entry
  · rfl

/-! ### Many keys -/

/-- A key and what becomes of its row. -/
structure Update (row key : Type) where
  key : key
  change : row → row

def rewriteEach (updates : List (Update row key)) (rows : List row) : List row :=
  updates.foldl (fun rows update => rewriteAt keyOf update.key update.change rows) rows

/-- What becomes of one row. -/
def settle (updates : List (Update row key)) (entry : row) : row :=
  updates.foldl (fun entry update => changeAt keyOf update.key update.change entry) entry

theorem rewriteEach_perm (updates : List (Update row key)) (rows : List row)
    (keeps : ∀ update ∈ updates, ∀ entry, keyOf (update.change entry) = keyOf entry)
    (once : ∀ update ∈ updates,
      (rows.filter (fun entry => keyOf entry = update.key)).length ≤ 1) :
    (rewriteEach keyOf updates rows).Perm (rows.map (settle keyOf updates)) := by
  induction updates generalizing rows with
  | nil =>
      show rows.Perm (rows.map (fun entry => entry))
      rw [List.map_id']
  | cons head tail ih =>
      have headKeeps := keeps head List.mem_cons_self
      have headPerm := rewriteAt_perm keyOf head.change (once head List.mem_cons_self)
      have sameCount : ∀ wanted, ((rewriteAt keyOf head.key head.change rows).filter
          (fun entry => keyOf entry = wanted)).length =
            (rows.filter (fun entry => keyOf entry = wanted)).length := by
        intro wanted
        rw [(headPerm.filter _).length_eq, List.filter_map, List.length_map]
        refine congrArg List.length (List.filter_congr ?_)
        intro entry _member
        simp only [Function.comp_apply, changeAt_key keyOf headKeeps]
      have later := ih (rewriteAt keyOf head.key head.change rows)
        (fun update member => keeps update (List.mem_cons_of_mem _ member)) (by
          intro update member
          rw [sameCount]
          exact once update (List.mem_cons_of_mem _ member))
      have mapped := headPerm.map (settle keyOf tail)
      rw [List.map_map] at mapped
      exact later.trans mapped

/-- A row whose key is not among the updates stays. -/
theorem settle_absent {updates : List (Update row key)} {entry : row}
    (absent : ∀ update ∈ updates, keyOf entry ≠ update.key) :
    settle keyOf updates entry = entry := by
  induction updates with
  | nil => rfl
  | cons head tail ih =>
      have stays : changeAt keyOf head.key head.change entry = entry :=
        if_neg (absent head List.mem_cons_self)
      unfold settle at ih ⊢
      rw [List.foldl_cons, stays]
      exact ih (fun update member => absent update (List.mem_cons_of_mem _ member))

/-- With distinct keys a row is changed by its own update only. -/
theorem settle_present {updates : List (Update row key)}
    (distinct : (updates.map Update.key).Nodup)
    (keeps : ∀ update ∈ updates, ∀ entry, keyOf (update.change entry) = keyOf entry)
    {update : Update row key} (member : update ∈ updates) {entry : row}
    (hit : keyOf entry = update.key) : settle keyOf updates entry = update.change entry := by
  induction updates with
  | nil => cases member
  | cons head tail ih =>
      rw [List.map_cons, List.nodup_cons] at distinct
      rcases List.mem_cons.mp member with same | inside
      · subst same
        have changed : changeAt keyOf update.key update.change entry = update.change entry :=
          if_pos hit
        have absent : ∀ other ∈ tail, keyOf (update.change entry) ≠ other.key := by
          intro other present equal
          rw [keeps update member, hit] at equal
          exact distinct.1 (List.mem_map.mpr ⟨other, present, equal.symm⟩)
        have stays := settle_absent keyOf absent
        unfold settle at stays ⊢
        rw [List.foldl_cons, changed, stays]
      · have apart : keyOf entry ≠ head.key := by
          intro equal
          exact distinct.1 (List.mem_map.mpr ⟨update, inside, hit.symm.trans equal⟩)
        have stays : changeAt keyOf head.key head.change entry = entry := if_neg apart
        have later := ih distinct.2 (fun other present =>
          keeps other (List.mem_cons_of_mem _ present)) inside
        unfold settle at later ⊢
        rw [List.foldl_cons, stays]
        exact later

end VaultSearch.Rewrite
