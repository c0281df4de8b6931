/-
Forests in which every edge of the graph joins a node with one above it, as a depth-first
search leaves them, and what their low links say about the removal of a node.

A child is cut off by its parent when no edge from below the child leads above the parent.
After the removal of a node the components are those of the other roots and one for each child
that the node cuts off.
-/

import VaultSearch.Graph.Components

set_option autoImplicit false

namespace VaultSearch

namespace Graph

variable {node : Type}

/-- The second node is the first one or above it. -/
def Climbs (parent : node → Option node) : node → node → Prop :=
  Relation.ReflTransGen (fun below above => parent below = some above)

theorem Climbs.total {parent : node → Option node} {here first second : node}
    (toFirst : Climbs parent here first) (toSecond : Climbs parent here second) :
    Climbs parent first second ∨ Climbs parent second first := by
  apply Relation.ReflTransGen.total_of_right_unique ?_ toFirst toSecond
  intro below above above' up up'
  exact Option.some.inj (up.symm.trans up')

/-- The way up ends at a root. -/
theorem Climbs.of_root {parent : node → Option node} {here above : node}
    (climbs : Climbs parent here above) (root : parent here = none) : above = here := by
  cases climbs.cases_head with
  | inl same => exact same.symm
  | inr step =>
      obtain ⟨_next, up, _rest⟩ := step
      rw [root] at up
      cases up

/-- Above a node is the node itself or one above its parent. -/
theorem Climbs.step {parent : node → Option node} {here above next : node}
    (climbs : Climbs parent here above) (up : parent here = some next) :
    above = here ∨ Climbs parent next above := by
  cases climbs.cases_head with
  | inl same => exact Or.inl same.symm
  | inr step =>
      obtain ⟨other, up', rest⟩ := step
      rw [up] at up'
      cases up'
      exact Or.inr rest

structure PalmForest (graph : SimpleGraph node) (nodes : Set node) where
  parent : node → Option node
  time : node → Nat
  low : node → Nat
  up : ∀ {below above}, below ∈ nodes → parent below = some above →
    above ∈ nodes ∧ graph.Adj below above ∧ time above < time below
  palm : ∀ {left right}, left ∈ nodes → right ∈ nodes → graph.Adj left right →
    Climbs parent left right ∨ Climbs parent right left
  /-- the low link of a node is not after an edge from it, except the one to its parent -/
  lowEdge : ∀ {here there}, here ∈ nodes → there ∈ nodes → graph.Adj here there →
    parent here ≠ some there → low here ≤ time there
  lowChild : ∀ {below above}, below ∈ nodes → parent below = some above → low above ≤ low below
  /-- and it is reached from the node or from below it -/
  lowReached : ∀ {here}, here ∈ nodes → ∃ below ∈ nodes, Climbs parent below here ∧
    (low here = time below ∨ ∃ there ∈ nodes, graph.Adj below there ∧ low here = time there)

namespace PalmForest

variable {graph : SimpleGraph node} {nodes : Set node} (forest : PalmForest graph nodes)

def roots : Set node :=
  { here ∈ nodes | forest.parent here = none }

/-- The children that a node cuts off. -/
def cutChildren (removed : node) : Set node :=
  { child ∈ nodes | forest.parent child = some removed ∧ forest.time removed ≤ forest.low child }

variable {forest} {below above here there removed : node}

theorem climbs_mem (inside : below ∈ nodes) (climbs : Climbs forest.parent below above) :
    above ∈ nodes := by
  induction climbs with
  | refl => exact inside
  | tail _earlier step ih => exact (forest.up ih step).1

theorem climbs_time (inside : below ∈ nodes) (climbs : Climbs forest.parent below above) :
    forest.time above ≤ forest.time below := by
  induction climbs with
  | refl => exact Nat.le_refl _
  | tail earlier step ih =>
      exact Nat.le_trans (Nat.le_of_lt (forest.up (climbs_mem inside earlier) step).2.2) ih

theorem climbs_antisymm (inside : below ∈ nodes) (climbs : Climbs forest.parent below above)
    (back : Climbs forest.parent above below) : below = above := by
  cases climbs.cases_head with
  | inl same => exact same
  | inr step =>
      obtain ⟨next, up, rest⟩ := step
      have later := (forest.up inside up).2.2
      have earlier := climbs_time (climbs_mem inside climbs) back
      have first := climbs_time (forest.up inside up).1 rest
      omega

/-- Every node has a root above it. -/
theorem exists_root (inside : here ∈ nodes) :
    ∃ root ∈ forest.roots, Climbs forest.parent here root := by
  induction moment : forest.time here using Nat.strong_induction_on generalizing here with
  | _ time ih =>
      cases above : forest.parent here with
      | none => exact ⟨here, ⟨inside, above⟩, .refl⟩
      | some next =>
          obtain ⟨insideNext, _edge, earlier⟩ := forest.up inside above
          rw [moment] at earlier
          obtain ⟨root, isRoot, climbs⟩ := ih _ earlier insideNext rfl
          exact ⟨root, isRoot, .head above climbs⟩

/-- Two roots above one node are the same. -/
theorem root_unique {first second : node} (isFirst : first ∈ forest.roots)
    (isSecond : second ∈ forest.roots) (toFirst : Climbs forest.parent here first)
    (toSecond : Climbs forest.parent here second) : first = second := by
  cases toFirst.total toSecond with
  | inl climbs => exact (climbs.of_root isFirst.2).symm
  | inr climbs => exact climbs.of_root isSecond.2

/-- On the way up nothing leaves a set that holds all that is above a node. -/
theorem joined_up {within : Set node} (inside : below ∈ nodes)
    (climbs : Climbs forest.parent below above)
    (holds : ∀ {passed}, Climbs forest.parent below passed → Climbs forest.parent passed above →
      passed ∈ within) : Joined graph within below above := by
  induction climbs with
  | refl => exact .refl
  | @tail middle above earlier step ih =>
      have joined : Joined graph within below middle :=
        ih (fun toPassed fromPassed => holds toPassed (fromPassed.tail step))
      refine joined.tail ⟨(forest.up (climbs_mem inside earlier) step).2.1, ?_, ?_⟩
      · exact holds earlier (.single step)
      · exact holds (earlier.tail step) .refl

/-- Neighbours have the same nodes above one of them that are above the lower one. -/
theorem root_kept {root left right : node} (insideLeft : left ∈ nodes)
    (insideRight : right ∈ nodes) (edge : graph.Adj left right) (isRoot : root ∈ forest.roots)
    (climbs : Climbs forest.parent left root) : Climbs forest.parent right root := by
  cases forest.palm insideLeft insideRight edge with
  | inl toRight =>
      cases toRight.total climbs with
      | inl higher => exact higher
      | inr lower =>
          rw [lower.of_root isRoot.2]
          exact .refl
  | inr toLeft => exact toLeft.trans climbs

/-! ### The whole graph -/

theorem represented_roots :
    Represented graph nodes forest.roots
      (fun root here => root ∈ forest.roots ∧ Climbs forest.parent here root) where
  inside _root isRoot := isRoot.1
  found here inside := by
    obtain ⟨root, isRoot, climbs⟩ := exists_root inside
    exact ⟨root, isRoot, joined_up inside climbs (fun toPassed _up => climbs_mem inside toPassed)⟩
  kept insideLeft insideRight edge stands :=
    ⟨stands.1, root_kept insideLeft insideRight edge stands.1 stands.2⟩
  itself _root isRoot := ⟨isRoot, .refl⟩
  alone _first _isFirst second isSecond stands :=
    stands.2.of_root isSecond.2

theorem components_nodes : components graph nodes = forest.roots.ncard :=
  components_eq represented_roots

/-! ### The graph without a node -/

theorem low_climbs (inside : below ∈ nodes) (climbs : Climbs forest.parent below above) :
    forest.low above ≤ forest.low below := by
  induction climbs with
  | refl => exact Nat.le_refl _
  | tail earlier step ih => exact Nat.le_trans (forest.lowChild (climbs_mem inside earlier) step) ih

/-- A node below the removed one is on the branch of one of its children. -/
theorem exists_branch (inside : here ∈ nodes) (other : here ≠ removed)
    (climbs : Climbs forest.parent here removed) :
    ∃ child ∈ nodes, forest.parent child = some removed ∧ Climbs forest.parent here child := by
  cases climbs.cases_tail with
  | inl same => exact absurd same.symm other
  | inr step =>
      obtain ⟨child, climbs, up⟩ := step
      exact ⟨child, climbs_mem inside climbs, up, climbs⟩

/-- The branch of a child does not lead back to its parent. -/
theorem not_climbs_child {child : node} (inside : child ∈ nodes)
    (up : forest.parent child = some removed) : ¬Climbs forest.parent removed child := by
  intro back
  have earlier := (forest.up inside up).2.2
  have later := climbs_time (forest.up inside up).1 back
  omega

theorem branch_unique {first second : node} (insideFirst : first ∈ nodes)
    (insideSecond : second ∈ nodes) (upFirst : forest.parent first = some removed)
    (upSecond : forest.parent second = some removed) (toFirst : Climbs forest.parent here first)
    (toSecond : Climbs forest.parent here second) : first = second := by
  cases toFirst.total toSecond with
  | inl climbs =>
      cases climbs.step upFirst with
      | inl same => exact same.symm
      | inr back => exact absurd back (not_climbs_child insideSecond upSecond)
  | inr climbs =>
      cases climbs.step upSecond with
      | inl same => exact same
      | inr back => exact absurd back (not_climbs_child insideFirst upFirst)

/-- Up to a child of the removed node the way does not meet it. -/
theorem joined_branch {child : node} (inside : here ∈ nodes)
    (up : forest.parent child = some removed) (climbs : Climbs forest.parent here child) :
    Joined graph (nodes \ {removed}) here child := by
  apply joined_up inside climbs
  intro passed toPassed fromPassed
  refine ⟨climbs_mem inside toPassed, ?_⟩
  intro same
  cases same
  exact not_climbs_child (climbs_mem inside climbs) up fromPassed

/-- A node that is not below the removed one stays connected to its root. -/
theorem joined_root {root : node} (inside : here ∈ nodes)
    (apart : ¬Climbs forest.parent here removed) (climbs : Climbs forest.parent here root) :
    Joined graph (nodes \ {removed}) here root := by
  apply joined_up inside climbs
  intro passed toPassed _fromPassed
  refine ⟨climbs_mem inside toPassed, ?_⟩
  intro same
  cases same
  exact apart toPassed

/-- From below a child that is not cut off an edge leads above the removed node. -/
theorem exists_way_out {child : node} (inside : child ∈ nodes)
    (up : forest.parent child = some removed) (uncut : forest.low child < forest.time removed) :
    ∃ below ∈ nodes, Climbs forest.parent below child ∧ ∃ there ∈ nodes,
      graph.Adj below there ∧ Climbs forest.parent removed there ∧
        forest.time there < forest.time removed := by
  obtain ⟨below, insideBelow, climbs, reached⟩ := forest.lowReached inside
  have insideRemoved := (forest.up inside up).1
  have above := (forest.up inside up).2.2
  have lower := climbs_time insideBelow climbs
  cases reached with
  | inl itself => omega
  | inr edge =>
      obtain ⟨there, insideThere, adjacent, same⟩ := edge
      refine ⟨below, insideBelow, climbs, there, insideThere, adjacent, ?_, by omega⟩
      cases forest.palm insideBelow insideThere adjacent with
      | inr back =>
          have later := climbs_time insideThere back
          omega
      | inl toThere =>
          cases toThere.total (climbs.tail up) with
          | inr higher => exact higher
          | inl lowerThere =>
              have later := climbs_time insideThere lowerThere
              omega

/-- A root cuts off all its children. -/
theorem cutChildren_of_root (root : forest.parent removed = none) :
    forest.cutChildren removed = { child ∈ nodes | forest.parent child = some removed } := by
  ext child
  constructor
  · exact fun cut => ⟨cut.1, cut.2.1⟩
  · intro isChild
    refine ⟨isChild.1, isChild.2, Nat.le_of_not_lt ?_⟩
    intro uncut
    obtain ⟨_below, _inside, _climbs, there, _insideThere, _edge, higher, earlier⟩ :=
      exists_way_out isChild.1 isChild.2 uncut
    rw [higher.of_root root] at earlier
    exact Nat.lt_irrefl _ earlier

/-- The nodes that stand for the components without the removed node. -/
def remainder (forest : PalmForest graph nodes) (removed : node) : Set node :=
  forest.cutChildren removed ∪ (forest.roots \ {removed})

/-- A cut child stands for its branch, a root for all that is on no such branch. -/
def StandsFor (forest : PalmForest graph nodes) (removed chosen here : node) : Prop :=
  Climbs forest.parent here chosen ∧
    (chosen ∈ forest.cutChildren removed ∨
      chosen ∈ forest.roots ∧ ∀ child ∈ forest.cutChildren removed,
        ¬Climbs forest.parent here child)

/-- No edge leaves the branch of a cut child except to the removed node. -/
theorem branch_kept {left right child : node} (insideLeft : left ∈ nodes)
    (insideRight : right ∈ nodes \ {removed}) (edge : graph.Adj left right)
    (cut : child ∈ forest.cutChildren removed) (climbs : Climbs forest.parent left child) :
    Climbs forest.parent right child := by
  cases forest.palm insideLeft insideRight.1 edge with
  | inr toLeft => exact toLeft.trans climbs
  | inl toRight =>
      cases toRight.total climbs with
      | inl higher => exact higher
      | inr lower =>
          cases lower.step cut.2.1 with
          | inl same =>
              rw [same]
              exact .refl
          | inr above =>
              exfalso
              have insideRemoved := (forest.up cut.1 cut.2.1).1
              have belowRemoved := (forest.up cut.1 cut.2.1).2.2
              have strict : forest.time right < forest.time removed := by
                cases above.cases_head with
                | inl same => exact absurd same.symm insideRight.2
                | inr step =>
                    obtain ⟨next, up, rest⟩ := step
                    have first := (forest.up insideRemoved up).2.2
                    have later := climbs_time (forest.up insideRemoved up).1 rest
                    omega
              have notParent : forest.parent left ≠ some right := by
                intro up
                cases climbs.step up with
                | inl same =>
                    rw [← same, cut.2.1] at up
                    exact insideRight.2 (Option.some.inj up).symm
                | inr back =>
                    have later := climbs_time insideRight.1 back
                    omega
              have reaches := forest.lowEdge insideLeft insideRight.1 edge notParent
              have lower := low_climbs insideLeft climbs
              have cutOff := cut.2.2
              omega

theorem represented_remainder :
    Represented graph (nodes \ {removed}) (forest.remainder removed)
      (forest.StandsFor removed) where
  inside chosen among := by
    cases among with
    | inl cut =>
        refine ⟨cut.1, ?_⟩
        intro same
        cases same
        exact not_climbs_child cut.1 cut.2.1 .refl
    | inr root => exact ⟨root.1.1, root.2⟩
  found here inside := by
    by_cases below : Climbs forest.parent here removed
    · obtain ⟨child, insideChild, up, climbs⟩ := exists_branch inside.1 inside.2 below
      by_cases cut : forest.time removed ≤ forest.low child
      · exact ⟨child, Or.inl ⟨insideChild, up, cut⟩, joined_branch inside.1 up climbs⟩
      · obtain ⟨low, insideLow, climbsLow, there, insideThere, edge, _above, earlier⟩ :=
          exists_way_out insideChild up (Nat.lt_of_not_le cut)
        have apart : ¬Climbs forest.parent there removed := by
          intro back
          have later := climbs_time insideThere back
          omega
        obtain ⟨root, isRoot, toRoot⟩ := exists_root insideThere
        have toChild := joined_branch inside.1 up climbs
        have fromChild := (joined_branch insideLow up climbsLow).symm
        have outside : there ∈ nodes \ {removed} := by
          refine ⟨insideThere, ?_⟩
          intro same
          cases same
          exact apart .refl
        have lowOutside : low ∈ nodes \ {removed} := by
          refine ⟨insideLow, ?_⟩
          intro same
          cases same
          exact not_climbs_child insideChild up climbsLow
        refine ⟨root, Or.inr ⟨isRoot, ?_⟩, ?_⟩
        · intro same
          cases same
          exact apart toRoot
        · exact ((toChild.trans fromChild).tail ⟨edge, lowOutside, outside⟩).trans
            (joined_root insideThere apart toRoot)
    · obtain ⟨root, isRoot, toRoot⟩ := exists_root inside.1
      refine ⟨root, Or.inr ⟨isRoot, ?_⟩, joined_root inside.1 below toRoot⟩
      intro same
      cases same
      exact below toRoot
  kept insideLeft insideRight edge stands := by
    obtain ⟨climbs, kind⟩ := stands
    cases kind with
    | inl cut => exact ⟨branch_kept insideLeft.1 insideRight edge cut climbs, Or.inl cut⟩
    | inr root =>
        refine ⟨root_kept insideLeft.1 insideRight.1 edge root.1 climbs, Or.inr ⟨root.1, ?_⟩⟩
        intro child cut below
        exact root.2 child cut (branch_kept insideRight.1 insideLeft edge.symm cut below)
  itself chosen among := by
    cases among with
    | inl cut => exact ⟨.refl, Or.inl cut⟩
    | inr root =>
        refine ⟨.refl, Or.inr ⟨root.1, ?_⟩⟩
        intro child cut climbs
        have up := cut.2.1
        rw [climbs.of_root root.1.2, root.1.2] at up
        cases up
  alone first amongFirst second amongSecond stands := by
    obtain ⟨climbs, kind⟩ := stands
    cases amongSecond with
    | inr root => exact climbs.of_root root.1.2
    | inl cut =>
        cases kind with
        | inl cutFirst => exact branch_unique cutFirst.1 cut.1 cutFirst.2.1 cut.2.1 climbs .refl
        | inr root => exact absurd .refl (root.2 second cut)

/-- The components that are left: one for each child that is cut off and one for each root. -/
theorem components_removed (removed : node) (finite : nodes.Finite) :
    components graph (nodes \ {removed}) =
      (forest.cutChildren removed).ncard + (forest.roots \ {removed}).ncard := by
  rw [components_eq represented_remainder]
  apply Set.ncard_union_eq
  · rw [Set.disjoint_left]
    intro child cut root
    have up := cut.2.1
    rw [root.1.2] at up
    cases up
  · exact finite.subset (fun _child cut => cut.1)
  · exact finite.subset (fun _root isRoot => isRoot.1.1)

end PalmForest

end Graph

end VaultSearch
