/-
The number of connected components of the part of a graph that lies within a set of nodes,
counted by representatives.
-/

import Mathlib.Combinatorics.SimpleGraph.Connectivity.Represents
import Mathlib.Combinatorics.SimpleGraph.Maps

set_option autoImplicit false

namespace VaultSearch

namespace Graph

variable {node : Type} (graph : SimpleGraph node)

noncomputable def components (within : Set node) : Nat :=
  Nat.card (graph.induce within).ConnectedComponent

/-- Two nodes are connected without leaving the set. -/
def Joined (within : Set node) : node → node → Prop :=
  Relation.ReflTransGen (fun left right => graph.Adj left right ∧ left ∈ within ∧ right ∈ within)

variable {graph} {within : Set node}

theorem Joined.symm {left right : node} (joined : Joined graph within left right) :
    Joined graph within right left := by
  induction joined with
  | refl => exact .refl
  | tail _earlier step ih => exact .head ⟨step.1.symm, step.2.2, step.2.1⟩ ih

theorem Joined.reachable {left right : node} (joined : Joined graph within left right)
    (inside : left ∈ within) :
    ∃ inside' : right ∈ within,
      (graph.induce within).Reachable ⟨left, inside⟩ ⟨right, inside'⟩ := by
  induction joined with
  | refl => exact ⟨inside, .refl _⟩
  | tail _earlier step ih =>
      obtain ⟨_inside, reached⟩ := ih
      refine ⟨step.2.2, reached.trans ?_⟩
      exact SimpleGraph.Adj.reachable (SimpleGraph.comap_adj.mpr step.1)

/-- A relation to representatives that no edge changes: every node is connected to one of them,
and a representative stands for itself alone. -/
structure Represented (graph : SimpleGraph node) (within representatives : Set node)
    (standsFor : node → node → Prop) : Prop where
  inside : representatives ⊆ within
  found : ∀ here ∈ within, ∃ chosen ∈ representatives, Joined graph within here chosen
  kept : ∀ {left right chosen : node}, left ∈ within → right ∈ within → graph.Adj left right →
    standsFor chosen left → standsFor chosen right
  itself : ∀ chosen ∈ representatives, standsFor chosen chosen
  alone : ∀ first ∈ representatives, ∀ second ∈ representatives,
    standsFor first second → first = second

theorem Represented.reachable {representatives : Set node} {standsFor : node → node → Prop}
    (represented : Represented graph within representatives standsFor)
    {left right : within} (reached : (graph.induce within).Reachable left right) {chosen : node}
    (stands : standsFor chosen left) : standsFor chosen right := by
  rw [SimpleGraph.reachable_iff_reflTransGen] at reached
  induction reached with
  | refl => exact stands
  | tail _earlier step ih =>
      exact represented.kept (Subtype.property _) (Subtype.property _)
        (SimpleGraph.comap_adj.mp step) ih

/-- There are as many components as representatives. -/
theorem components_eq {representatives : Set node} {standsFor : node → node → Prop}
    (represented : Represented graph within representatives standsFor) :
    components graph within = representatives.ncard := by
  unfold components
  rw [← Nat.card_coe_set_eq]
  symm
  apply Nat.card_eq_of_bijective (fun chosen : representatives =>
    (graph.induce within).connectedComponentMk ⟨chosen, represented.inside chosen.property⟩)
  constructor
  · intro first second same
    have reached := SimpleGraph.ConnectedComponent.exact same
    have stands := represented.reachable reached (represented.itself first first.property)
    exact Subtype.ext (represented.alone first first.property second second.property stands)
  · intro component
    obtain ⟨⟨here, inside⟩, rfl⟩ := Quot.exists_rep component
    obtain ⟨chosen, among, joined⟩ := represented.found here inside
    obtain ⟨_inside, reached⟩ := joined.reachable inside
    exact ⟨⟨chosen, among⟩, SimpleGraph.ConnectedComponent.sound reached.symm⟩

/-! ### Sums over the nodes -/

theorem sum_changed [DecidableEq node] {nodes : List node} (distinct : nodes.Nodup) {changed : node}
    (inside : changed ∈ nodes) (before after : node → Nat)
    (same : ∀ here, here ≠ changed → after here = before here) :
    (nodes.map after).sum + before changed = (nodes.map before).sum + after changed := by
  induction nodes with
  | nil => cases inside
  | cons head tail ih =>
      obtain ⟨fresh, distinctTail⟩ := List.nodup_cons.mp distinct
      by_cases atHead : head = changed
      · have unchanged : tail.map after = tail.map before := by
          apply List.map_congr_left
          intro here member
          exact same here (fun equal => fresh (atHead ▸ equal ▸ member))
        rw [List.map_cons, List.map_cons, List.sum_cons, List.sum_cons, atHead, unchanged]
        omega
      · have member := (List.mem_cons.mp inside).resolve_left (fun equal => atHead equal.symm)
        have rest := ih distinctTail member
        rw [List.map_cons, List.map_cons, List.sum_cons, List.sum_cons, same head atHead]
        omega

end Graph

end VaultSearch
