/-
Depth-first traversal of a finite tree with a stack.

A node is popped, and its children are pushed one after the other, so that the last of them
is popped next.  In a tree nothing is pushed twice: every node that can be reached is popped
exactly once, and the loop ends.
-/

import Mathlib.Data.List.Basic
import Mathlib.Data.List.Nodup
import Mathlib.Data.List.Perm.Subperm

set_option autoImplicit false

namespace VaultSearch.Worklist

variable {node : Type} (children : node → List node)

/-- The nodes in the order in which they are popped; the top of the stack comes first. -/
def visit : Nat → List node → List node
  | 0, _ => []
  | _ + 1, [] => []
  | fuel + 1, current :: stack => current :: visit fuel ((children current).reverse ++ stack)

inductive Reached (root : node) : node → Prop where
  | root : Reached root root
  | child {parent child : node} (reached : Reached root parent) (isChild : child ∈ children parent) :
      Reached root child

/-- What can be reached from the root is a finite tree. -/
structure Arborescent (root : node) (within : List node) : Prop where
  distinct : ∀ parent, Reached children root parent → (children parent).Nodup
  parentUnique : ∀ child first second, Reached children root first →
    Reached children root second → child ∈ children first → child ∈ children second →
      first = second
  rootFirst : ∀ parent, Reached children root parent → root ∉ children parent
  finite : ∀ reached, Reached children root reached → reached ∈ within

/-- What holds when some nodes are done and others are on the stack. -/
structure Progress (root : node) (finished stack : List node) : Prop where
  distinct : (finished ++ stack).Nodup
  reached : ∀ present ∈ finished ++ stack, Reached children root present
  closed : ∀ parent ∈ finished, ∀ child ∈ children parent, child ∈ finished ++ stack
  parented : ∀ present ∈ finished ++ stack,
    present = root ∨ ∃ parent ∈ finished, present ∈ children parent
  started : root ∈ finished ++ stack

variable {children}

theorem progress_start (root : node) : Progress children root [] [root] := by
  constructor
  · exact List.nodup_singleton root
  · intro present member
    rw [List.mem_singleton.mp member]
    exact Reached.root
  · intro parent impossible
    cases impossible
  · intro present member
    exact Or.inl (List.mem_singleton.mp member)
  · exact List.mem_singleton_self root

/-- A child of the popped node has not been pushed before. -/
theorem fresh_child {root : node} {within finished stack : List node} {current child : node}
    (tree : Arborescent children root within)
    (progress : Progress children root finished (current :: stack))
    (isChild : child ∈ children current) : child ∉ finished ++ current :: stack := by
  intro present
  have reached : Reached children root current :=
    progress.reached current (List.mem_append_right _ List.mem_cons_self)
  rcases progress.parented child present with isRoot | ⟨parent, done, isChild'⟩
  · rw [isRoot] at isChild
    exact tree.rootFirst current reached isChild
  · have same := tree.parentUnique child parent current
      (progress.reached parent (List.mem_append_left _ done)) reached isChild' isChild
    rw [same] at done
    exact (List.nodup_append.mp progress.distinct).2.2 current done current
      List.mem_cons_self rfl

theorem progress_step {root : node} {within finished stack : List node} {current : node}
    (tree : Arborescent children root within)
    (progress : Progress children root finished (current :: stack)) :
    Progress children root (finished ++ [current]) ((children current).reverse ++ stack) := by
  have reached : Reached children root current :=
    progress.reached current (List.mem_append_right _ List.mem_cons_self)
  have split : finished ++ [current] ++ ((children current).reverse ++ stack) =
      finished ++ current :: ((children current).reverse ++ stack) := by
    rw [List.append_assoc, List.singleton_append]
  have same : (finished ++ current :: ((children current).reverse ++ stack)).Perm
      ((children current).reverse ++ (finished ++ current :: stack)) := by
    exact (List.perm_middle.symm.append_left finished).trans
      (List.perm_append_comm_assoc finished (children current).reverse (current :: stack))
  have kept : ∀ present, present ∈ finished ++ current :: stack →
      present ∈ finished ++ current :: ((children current).reverse ++ stack) :=
    fun present member => same.mem_iff.mpr (List.mem_append_right _ member)
  constructor
  · rw [split, same.nodup_iff, List.nodup_append]
    refine ⟨List.nodup_reverse.mpr (tree.distinct current reached), progress.distinct, ?_⟩
    intro child isChild present member equal
    rw [← equal] at member
    exact fresh_child tree progress (List.mem_reverse.mp isChild) member
  · rw [split]
    intro present member
    rcases List.mem_append.mp (same.mem_iff.mp member) with isChild | earlier
    · exact Reached.child reached (List.mem_reverse.mp isChild)
    · exact progress.reached present earlier
  · rw [split]
    intro parent done child isChild
    rcases List.mem_append.mp done with earlier | isCurrent
    · exact kept child (progress.closed parent earlier child isChild)
    · rw [List.mem_singleton.mp isCurrent] at isChild
      exact same.mem_iff.mpr (List.mem_append_left _ (List.mem_reverse.mpr isChild))
  · rw [split]
    intro present member
    rcases List.mem_append.mp (same.mem_iff.mp member) with isChild | earlier
    · exact Or.inr ⟨current, List.mem_append_right _ (List.mem_singleton_self _),
        List.mem_reverse.mp isChild⟩
    · rcases progress.parented present earlier with isRoot | ⟨parent, done, isChild⟩
      · exact Or.inl isRoot
      · exact Or.inr ⟨parent, List.mem_append_left _ done, isChild⟩
  · rw [split]
    exact kept root progress.started

/-- With fuel for every node of the tree the stack is empty at the end. -/
theorem visit_progress {root : node} {within : List node}
    (tree : Arborescent children root within) (fuel : Nat) :
    ∀ finished stack, Progress children root finished stack →
      within.length ≤ finished.length + fuel →
        Progress children root (finished ++ visit children fuel stack) [] := by
  induction fuel with
  | zero =>
      intro finished stack progress enough
      have bounded : (finished ++ stack).length ≤ within.length := by
        apply List.Subperm.length_le
        apply List.subperm_of_subset progress.distinct
        intro present member
        exact tree.finite present (progress.reached present member)
      rw [List.length_append] at bounded
      have empty : stack = [] := List.length_eq_zero_iff.mp (by omega)
      rw [empty] at progress
      unfold visit
      rw [List.append_nil]
      exact progress
  | succ fuel ih =>
      intro finished stack progress enough
      cases stack with
      | nil =>
          unfold visit
          rw [List.append_nil]
          exact progress
      | cons current stack =>
          have next := ih (finished ++ [current]) _ (progress_step tree progress) (by
            rw [List.length_append, List.length_singleton]
            omega)
          unfold visit
          rw [List.append_assoc] at next
          exact next

/-- Every node of the tree is popped exactly once. -/
theorem visit_spec {root : node} {within : List node} {fuel : Nat}
    (tree : Arborescent children root within) (enough : within.length ≤ fuel) :
    (visit children fuel [root]).Nodup ∧
      ∀ reached, reached ∈ visit children fuel [root] ↔ Reached children root reached := by
  have progress := visit_progress tree fuel [] [root] (progress_start root) (by
    rw [List.length_nil]
    omega)
  rw [List.nil_append] at progress
  constructor
  · have distinct := progress.distinct
    rw [List.append_nil] at distinct
    exact distinct
  · intro present
    constructor
    · intro member
      exact progress.reached present (List.mem_append_left _ member)
    · intro reached
      induction reached with
      | root =>
          have started := progress.started
          rw [List.append_nil] at started
          exact started
      | child _reached isChild ih =>
          have closed := progress.closed _ ih _ isChild
          rw [List.append_nil] at closed
          exact closed

end VaultSearch.Worklist
