/-
Two sequences of operations on one store, carried out in any order that keeps each of
them in its own order.
-/

import Mathlib.Data.List.Basic
import Mathlib.Data.List.Perm.Basic

set_option autoImplicit false

namespace VaultSearch

/-- `merged` runs through `first` and through `second`, each in its own order. -/
inductive Interleaves {item : Type} : List item → List item → List item → Prop where
  | done : Interleaves [] [] []
  | left {head : item} {first second merged : List item}
      (rest : Interleaves first second merged) :
      Interleaves (head :: first) second (head :: merged)
  | right {head : item} {first second merged : List item}
      (rest : Interleaves first second merged) :
      Interleaves first (head :: second) (head :: merged)

namespace Interleaves

variable {item : Type} {first second merged : List item}

theorem swap (both : Interleaves first second merged) : Interleaves second first merged := by
  induction both with
  | done => exact done
  | left _rest ih => exact right ih
  | right _rest ih => exact left ih

/-- One sequence after the other. -/
theorem append (first second : List item) : Interleaves first second (first ++ second) := by
  induction first with
  | nil =>
      induction second with
      | nil => exact done
      | cons head tail ih => exact right ih
  | cons head tail ih => exact left ih

/-- Operations of one kind are interleaved as well. -/
theorem filter (keep : item → Bool) (both : Interleaves first second merged) :
    Interleaves (first.filter keep) (second.filter keep) (merged.filter keep) := by
  induction both with
  | done => exact done
  | @left head _ _ _ _rest ih =>
      by_cases kept : keep head = true
      · rw [List.filter_cons_of_pos kept, List.filter_cons_of_pos kept]
        exact left ih
      · rw [List.filter_cons_of_neg kept, List.filter_cons_of_neg kept]
        exact ih
  | @right head _ _ _ _rest ih =>
      by_cases kept : keep head = true
      · rw [List.filter_cons_of_pos kept, List.filter_cons_of_pos kept]
        exact right ih
      · rw [List.filter_cons_of_neg kept, List.filter_cons_of_neg kept]
        exact ih

theorem map {other : Type} (image : item → other) (both : Interleaves first second merged) :
    Interleaves (first.map image) (second.map image) (merged.map image) := by
  induction both with
  | done => exact done
  | left _rest ih => exact left ih
  | right _rest ih => exact right ih

/-- Nothing is interleaved with the empty sequence. -/
theorem of_nil (both : Interleaves first [] merged) : merged = first := by
  generalize empty : ([] : List item) = second at both
  induction both with
  | done => rfl
  | left _rest ih => rw [ih empty]
  | right _rest _ih => cases empty

/-- One operation stands somewhere among the others. -/
theorem of_singleton {single : item} (both : Interleaves first [single] merged) :
    ∃ front back, first = front ++ back ∧ merged = front ++ single :: back := by
  generalize shape : [single] = second at both
  induction both with
  | done => cases shape
  | @left head _ _ _ _rest ih =>
      obtain ⟨front, back, split, whole⟩ := ih shape
      exact ⟨head :: front, back, by rw [split]; rfl, by rw [whole]; rfl⟩
  | @right head _ _ _ rest _ih =>
      obtain ⟨sameHead, sameTail⟩ := List.cons.inj shape
      subst sameHead
      subst sameTail
      exact ⟨[], _, rfl, by rw [rest.of_nil]; rfl⟩

theorem of_singletons {single single' : item}
    (both : Interleaves [single] [single'] merged) :
    merged = [single, single'] ∨ merged = [single', single] := by
  obtain ⟨front, back, split, whole⟩ := both.of_singleton
  cases front with
  | nil =>
      rw [List.nil_append] at split whole
      rw [whole, ← split]
      exact Or.inr rfl
  | cons head tail =>
      obtain ⟨sameHead, sameTail⟩ := List.cons.inj split
      obtain ⟨noTail, noBack⟩ := List.append_eq_nil_iff.mp sameTail.symm
      rw [whole, noTail, noBack, ← sameHead]
      exact Or.inl rfl

/-- Two sequences of two: one pair is finished before the other begins, or both first
operations stand before both last ones. -/
theorem of_pairs {open₁ close₁ open₂ close₂ : item}
    (both : Interleaves [open₁, close₁] [open₂, close₂] merged) :
    merged = [open₁, close₁, open₂, close₂] ∨ merged = [open₂, close₂, open₁, close₁] ∨
      ∃ front back, merged = front ++ back ∧
        (front = [open₁, open₂] ∨ front = [open₂, open₁]) ∧
        (back = [close₁, close₂] ∨ back = [close₂, close₁]) := by
  cases both with
  | left rest =>
      cases rest with
      | left rest =>
          rw [rest.swap.of_nil]
          exact Or.inl rfl
      | right rest =>
          exact Or.inr (Or.inr ⟨[open₁, open₂], _, rfl, Or.inl rfl,
            rest.of_singletons⟩)
  | right rest =>
      cases rest with
      | left rest =>
          exact Or.inr (Or.inr ⟨[open₂, open₁], _, rfl, Or.inr rfl,
            rest.of_singletons⟩)
      | right rest =>
          rw [rest.of_nil]
          exact Or.inr (Or.inl rfl)

end Interleaves

end VaultSearch
