/-
A table with a primary key: inserting a row replaces the one with its key.

A table is known by what is found under every key.
-/

import Mathlib.Data.List.Basic
import Mathlib.Data.List.Nodup

set_option autoImplicit false

namespace VaultSearch

structure KeyedTable {row key : Type} (keyOf : row → key) where
  rows : List row
  distinct : (rows.map keyOf).Nodup

namespace KeyedTable

variable {row key : Type} {keyOf : row → key}

def empty : KeyedTable keyOf :=
  { rows := [], distinct := List.nodup_nil }

variable [DecidableEq key]

def find (table : KeyedTable keyOf) (name : key) : Option row :=
  table.rows.find? (fun entry => keyOf entry = name)

def delete (table : KeyedTable keyOf) (name : key) : KeyedTable keyOf :=
  { rows := table.rows.filter (fun entry => keyOf entry ≠ name)
    distinct := table.distinct.sublist (List.filter_sublist.map keyOf) }

/-- `INSERT OR REPLACE` -/
def insertOrReplace (table : KeyedTable keyOf) (entry : row) : KeyedTable keyOf :=
  { rows := (table.delete (keyOf entry)).rows ++ [entry]
    distinct := by
      rw [List.map_append, List.nodup_append]
      refine ⟨(table.delete (keyOf entry)).distinct, List.nodup_singleton _, ?_⟩
      intro name member other isLast same
      obtain ⟨kept, present, isName⟩ := List.mem_map.mp member
      have differs := of_decide_eq_true (List.mem_filter.mp present).2
      rw [List.map_singleton, List.mem_singleton] at isLast
      exact differs (isName.trans (same.trans isLast)) }

/-- `executemany` of an insertion -/
def insertAll (table : KeyedTable keyOf) (entries : List row) : KeyedTable keyOf :=
  entries.foldl insertOrReplace table

def deleteAll (table : KeyedTable keyOf) (names : List key) : KeyedTable keyOf :=
  names.foldl delete table

/-! ### What is found -/

theorem find_some {table : KeyedTable keyOf} {name : key} {entry : row}
    (found : table.find name = some entry) : entry ∈ table.rows ∧ keyOf entry = name := by
  unfold find at found
  have holds := List.find?_some found
  exact ⟨List.mem_of_find?_eq_some found, of_decide_eq_true holds⟩

theorem mem_iff_find {table : KeyedTable keyOf} {entry : row} :
    entry ∈ table.rows ↔ table.find (keyOf entry) = some entry := by
  constructor
  · intro member
    have present : (table.find (keyOf entry)).isSome = true := by
      unfold find
      rw [List.find?_isSome]
      exact ⟨entry, member, decide_eq_true rfl⟩
    obtain ⟨found, isFound⟩ := Option.isSome_iff_exists.mp present
    obtain ⟨inTable, same⟩ := find_some isFound
    rw [isFound, List.inj_on_of_nodup_map table.distinct inTable member same]
  · intro found
    exact (find_some found).1

theorem find_empty (name : key) : (empty : KeyedTable keyOf).find name = none := rfl

theorem find_delete (table : KeyedTable keyOf) (gone name : key) :
    (table.delete gone).find name = if gone = name then none else table.find name := by
  unfold find delete
  dsimp only
  rw [List.find?_filter]
  split
  case isTrue same =>
    rw [List.find?_eq_none]
    intro entry _member both
    obtain ⟨kept, here⟩ := of_decide_eq_true both
    exact of_decide_eq_true kept ((of_decide_eq_true here).trans same.symm)
  case isFalse differs =>
    congr 1
    funext entry
    rw [decide_eq_decide]
    constructor
    · exact fun both => of_decide_eq_true both.2
    · intro here
      have kept : keyOf entry ≠ gone := fun same => differs (same.symm.trans here)
      exact ⟨decide_eq_true kept, decide_eq_true here⟩

theorem find_insertOrReplace (table : KeyedTable keyOf) (entry : row) (name : key) :
    (table.insertOrReplace entry).find name =
      if keyOf entry = name then some entry else table.find name := by
  have appended : (table.insertOrReplace entry).find name =
      ((table.delete (keyOf entry)).find name).or
        ([entry].find? (fun entry => keyOf entry = name)) := List.find?_append
  rw [appended, find_delete, List.find?_singleton]
  split
  case isTrue same => rw [Option.none_or, if_pos (decide_eq_true same)]
  case isFalse differs =>
    rw [if_neg (by rw [decide_eq_true_iff]; exact differs), Option.or_none]

/-- Rows with keys of their own replace what was there, and nothing else changes. -/
theorem find_insertAll {entries : List row} (table : KeyedTable keyOf)
    (distinct : (entries.map keyOf).Nodup) (name : key) :
    (table.insertAll entries).find name =
      (entries.find? (fun entry => keyOf entry = name)).or (table.find name) := by
  induction entries generalizing table with
  | nil => rfl
  | cons head tail ih =>
      rw [List.map_cons, List.nodup_cons] at distinct
      have step := ih (table.insertOrReplace head) distinct.2
      unfold insertAll at step ⊢
      rw [List.foldl_cons, step, find_insertOrReplace]
      by_cases here : keyOf head = name
      · have later : tail.find? (fun entry => keyOf entry = name) = none := by
          rw [List.find?_eq_none]
          intro entry member same
          apply distinct.1
          rw [here, ← of_decide_eq_true same]
          exact List.mem_map_of_mem member
        rw [if_pos here, later, List.find?_cons, decide_eq_true here, Option.none_or,
          Option.some_or]
      · rw [if_neg here, List.find?_cons, decide_eq_false here]

theorem find_deleteAll (table : KeyedTable keyOf) (names : List key) (name : key) :
    (table.deleteAll names).find name = if name ∈ names then none else table.find name := by
  induction names generalizing table with
  | nil => rw [if_neg List.not_mem_nil]; rfl
  | cons head tail ih =>
      have step := ih (table.delete head)
      unfold deleteAll at step ⊢
      rw [List.foldl_cons, step, find_delete]
      by_cases inTail : name ∈ tail
      · rw [if_pos inTail, if_pos (List.mem_cons_of_mem _ inTail)]
      · by_cases isHead : head = name
        · rw [if_neg inTail, if_pos isHead, isHead, if_pos List.mem_cons_self]
        · have absent : name ∉ head :: tail := by
            rw [List.mem_cons]
            rintro (same | later)
            · exact isHead same.symm
            · exact inTail later
          rw [if_neg inTail, if_neg isHead, if_neg absent]

end KeyedTable

end VaultSearch
