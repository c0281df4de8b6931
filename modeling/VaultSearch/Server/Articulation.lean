/-
The notes that `find_bridge_notes` collects are the articulation points of the graph.

A node that leaves the stack has its score: nothing that is discovered later can change it.  When
all nodes have left, the search is a forest in which every edge joins a node with one above it.
-/

import Mathlib.Algebra.Order.BigOperators.Group.List
import VaultSearch.Server.LowLinks

set_option autoImplicit false

namespace VaultSearch

namespace Graph

namespace Search

variable {node : Type} [DecidableEq node]

/-! ### A node leaves the stack -/

section Leave

variable {neighbors : node → List node} {nodes : List node} {search popped : Search node}
variable {nodeId : node} {rest : List (node × List node)}

/-- What is done when the node on top has no further neighbours. -/
structure Pops (search popped : Search node) (nodeId : node) (rest : List (node × List node)) :
    Prop where
  stacked : search.stack = (nodeId, []) :: rest
  made : popped =
    { search with
      stack := rest
      low := popped.low
      separatedCount := popped.separatedCount
      articulationScores := popped.articulationScores }
  lowOther : ∀ {here}, search.parent nodeId ≠ some here → popped.low here = search.low here
  lowParent : ∀ {above}, search.parent nodeId = some above →
    popped.low above = min (search.low above) (search.low nodeId)
  separated : ∀ here, popped.separatedCount here = search.separatedCount here +
    if search.parent nodeId = some here ∧ search.parent here ≠ none ∧
      search.time here ≤ search.low nodeId then 1 else 0
  scores : popped.articulationScores =
    if popped.impact nodeId = 0 then search.articulationScores
    else OrderedDict.set search.articulationScores nodeId (popped.impact nodeId)

namespace Pops

variable {here : node}

theorem sameParent (pops : Pops search popped nodeId rest) : popped.parent = search.parent := by
  rw [pops.made]

theorem sameTime (pops : Pops search popped nodeId rest) (here : node) :
    popped.time here = search.time here := by
  rw [pops.made]
  rfl

theorem sameDiscovered (pops : Pops search popped nodeId rest) (here : node) :
    popped.Discovered here ↔ search.Discovered here := by
  rw [pops.made]
  rfl

theorem path_popped (pops : Pops search popped nodeId rest) :
    popped.path = rest.map Prod.fst := by
  rw [pops.made]
  rfl

theorem sameRemaining (pops : Pops search popped nodeId rest)
    (tree : Tree neighbors nodes search) (here : node) :
    popped.remaining here = search.remaining here := by
  by_cases top : here = nodeId
  · rw [top, remaining_head pops.stacked, remaining_absent]
    rw [pops.path_popped]
    exact tree.top_fresh pops.stacked
  · rw [remaining_tail pops.stacked top, pops.made]
    rfl

theorem top_discovered (pops : Pops search popped nodeId rest)
    (tree : Tree neighbors nodes search) : search.Discovered nodeId := by
  apply tree.onPath
  rw [path_top pops.stacked]
  exact List.mem_cons_self

theorem top_unfinished (pops : Pops search popped nodeId rest) : ¬search.Finished nodeId := by
  intro finished
  apply finished.2
  rw [path_top pops.stacked]
  exact List.mem_cons_self

theorem finished_iff (pops : Pops search popped nodeId rest)
    (tree : Tree neighbors nodes search) (here : node) :
    popped.Finished here ↔ search.Finished here ∨ here = nodeId := by
  unfold Finished
  rw [pops.sameDiscovered, pops.path_popped, path_top pops.stacked, List.mem_cons]
  constructor
  · intro finished
    by_cases top : here = nodeId
    · exact Or.inr top
    · exact Or.inl ⟨finished.1, fun member => member.elim top finished.2⟩
  · intro ways
    cases ways with
    | inl finished => exact ⟨finished.1, fun member => finished.2 (Or.inr member)⟩
    | inr top =>
        rw [top]
        exact ⟨pops.top_discovered tree, tree.top_fresh pops.stacked⟩

/-- The parent of the node stays on the stack. -/
theorem parent_unfinished (pops : Pops search popped nodeId rest)
    (tree : Tree neighbors nodes search) {above : node}
    (up : search.parent nodeId = some above) : ¬popped.Finished above := by
  have chained := tree.chained
  rw [path_top pops.stacked] at chained
  intro finished
  apply finished.2
  rw [pops.path_popped]
  exact List.mem_of_mem_head? (chained.1.symm.trans up)

theorem lowFinished (pops : Pops search popped nodeId rest)
    (tree : Tree neighbors nodes search) (finished : popped.Finished here) :
    popped.low here = search.low here :=
  pops.lowOther (fun up => pops.parent_unfinished tree up finished)

theorem lowLe (pops : Pops search popped nodeId rest) (here : node) :
    popped.low here ≤ search.low here := by
  by_cases up : search.parent nodeId = some here
  · rw [pops.lowParent up]
    exact Nat.min_le_left _ _
  · exact Nat.le_of_eq (pops.lowOther up)

theorem tree (pops : Pops search popped nodeId rest) (tree : Tree neighbors nodes search) :
    Tree neighbors nodes popped := by
  have chained := tree.chained
  rw [path_top pops.stacked] at chained
  apply tree.transfer
  · rw [pops.made]
  · exact pops.sameParent
  · rw [pops.made]
  · rw [pops.path_popped]
    exact chained.2
  · intro here member
    rw [pops.path_popped] at member
    apply tree.onPath
    rw [path_top pops.stacked]
    exact List.mem_cons_of_mem _ member

theorem scanned (pops : Pops search popped nodeId rest) (tree : Tree neighbors nodes search)
    (scanned : Scanned neighbors search) : Scanned neighbors popped := by
  constructor
  · intro here before
    obtain ⟨done, split, looked⟩ := scanned.scanned ((pops.sameDiscovered here).mp before)
    rw [pops.sameRemaining tree]
    refine ⟨done, split, ?_⟩
    intro there member
    obtain ⟨known, reached⟩ := looked there member
    rw [pops.sameDiscovered, pops.sameParent, pops.sameTime]
    refine ⟨known, ?_⟩
    cases reached with
    | inl up => exact Or.inl up
    | inr low => exact Or.inr (Nat.le_trans (pops.lowLe here) low)
  · intro here before
    rw [pops.sameTime]
    exact Nat.le_trans (pops.lowLe here) (scanned.lowSelf ((pops.sameDiscovered here).mp before))
  · intro below higher finished up
    rw [pops.lowFinished tree finished]
    rw [pops.sameParent] at up
    cases (pops.finished_iff tree below).mp finished with
    | inl before => exact Nat.le_trans (pops.lowLe higher) (scanned.lowChild before up)
    | inr top =>
        rw [top] at up ⊢
        rw [pops.lowParent up]
        exact Nat.min_le_right _ _
  · intro here before
    rw [pops.sameDiscovered] at before
    have carry : ∀ {value below : _}, search.Discovered below →
        (value = search.time below ∨ ∃ there ∈ neighbors below, search.Discovered there ∧
          value = search.time there) →
        popped.Discovered below ∧ (value = popped.time below ∨
          ∃ there ∈ neighbors below, popped.Discovered there ∧ value = popped.time there) := by
      intro value below discovered ends
      rw [pops.sameDiscovered, pops.sameTime]
      refine ⟨discovered, ?_⟩
      cases ends with
      | inl itself => exact Or.inl itself
      | inr edge =>
          obtain ⟨there, adjacent, known, same⟩ := edge
          refine Or.inr ⟨there, adjacent, (pops.sameDiscovered there).mpr known, ?_⟩
          rw [pops.sameTime]
          exact same
    rw [pops.sameParent]
    by_cases moved : search.parent nodeId = some here ∧ search.low nodeId ≤ search.low here
    · obtain ⟨below, discovered, climbs, ends⟩ :=
        scanned.lowReached (pops.top_discovered tree)
      obtain ⟨discovered', ends'⟩ := carry discovered ends
      refine ⟨below, discovered', climbs.tail moved.1, ?_⟩
      rw [pops.lowParent moved.1, Nat.min_eq_right moved.2]
      exact ends'
    · have same : popped.low here = search.low here := by
        by_cases up : search.parent nodeId = some here
        · rw [pops.lowParent up]
          exact Nat.min_eq_left (Nat.le_of_not_le (fun lower => moved ⟨up, lower⟩))
        · exact pops.lowOther up
      obtain ⟨below, discovered, climbs, ends⟩ := scanned.lowReached before
      obtain ⟨discovered', ends'⟩ := carry discovered ends
      rw [same]
      exact ⟨below, discovered', climbs, ends'⟩

theorem counted (pops : Pops search popped nodeId rest) (distinct : nodes.Nodup)
    (tree : Tree neighbors nodes search) (counted : Counted nodes search) :
    Counted nodes popped := by
  have others : ∀ {here child}, child ≠ nodeId →
      (popped.Separates here child ↔ search.Separates here child) := by
    intro here child other
    have sameFinished : popped.Finished child ↔ search.Finished child := by
      rw [pops.finished_iff tree]
      exact or_iff_left other
    unfold Separates
    rw [pops.sameParent, pops.sameTime]
    apply and_congr_right
    intro _up
    apply and_congr_right
    intro _inner
    constructor
    · intro both
      rw [pops.lowFinished tree both.1] at both
      exact ⟨sameFinished.mp both.1, both.2⟩
    · intro both
      have finished := sameFinished.mpr both.1
      rw [pops.lowFinished tree finished]
      exact ⟨finished, both.2⟩
  have finishedTop : popped.Finished nodeId := (pops.finished_iff tree nodeId).mpr (Or.inr rfl)
  constructor
  · intro here
    have same : popped.childCount here = search.childCount here := by rw [pops.made]
    rw [same, pops.sameParent]
    exact counted.children here
  · intro here
    rw [pops.separated here, counted.separated here]
    by_cases cut : search.parent nodeId = some here ∧ search.parent here ≠ none ∧
        search.time here ≤ search.low nodeId
    · rw [if_pos cut]
      symm
      apply countP_changed distinct (tree.inside (pops.top_discovered tree))
      · intro child other
        exact decide_eq_decide.mpr (others other)
      · exact decide_eq_false (fun separated => pops.top_unfinished separated.2.2.1)
      · apply decide_eq_true
        unfold Separates
        rw [pops.sameParent, pops.sameTime, pops.lowFinished tree finishedTop]
        exact ⟨cut.1, cut.2.1, finishedTop, cut.2.2⟩
    · rw [if_neg cut, Nat.add_zero]
      apply List.countP_congr
      intro child _member
      rw [decide_eq_true_iff, decide_eq_true_iff]
      by_cases top : child = nodeId
      · rw [top]
        constructor
        · exact fun separated => absurd separated.2.2.1 pops.top_unfinished
        · intro separated
          unfold Separates at separated
          rw [pops.sameParent, pops.sameTime, pops.lowFinished tree finishedTop] at separated
          exact absurd ⟨separated.1, separated.2.1, separated.2.2.2⟩ cut
      · exact (others top).symm
  · intro here value
    rw [pops.finished_iff tree]
    by_cases top : here = nodeId
    · have missing : search.articulationScores.lookup nodeId = none := by
        cases found : search.articulationScores.lookup nodeId with
        | none => rfl
        | some given =>
            exact absurd ((counted.scores nodeId given).mp found).1 pops.top_unfinished
      rw [top, pops.scores]
      by_cases zero : popped.impact nodeId = 0
      · rw [if_pos zero, missing, zero]
        constructor
        · exact fun impossible => nomatch impossible
        · exact fun both => absurd both.2.2 both.2.1
      · rw [if_neg zero, OrderedDict.lookup_set, if_pos rfl, Option.some_inj]
        constructor
        · intro same
          rw [← same]
          exact ⟨Or.inr rfl, zero, rfl⟩
        · exact fun all => all.2.2.symm
    · have sameLookup : popped.articulationScores.lookup here =
          search.articulationScores.lookup here := by
        rw [pops.scores]
        by_cases zero : popped.impact nodeId = 0
        · rw [if_pos zero]
        · rw [if_neg zero, OrderedDict.lookup_set, if_neg top]
      rw [sameLookup, counted.scores here value, or_iff_left top]
      apply and_congr_right
      intro finished
      have sameImpact : popped.impact here = search.impact here := by
        have sameCount : popped.separatedCount here = search.separatedCount here := by
          rw [pops.separated here, if_neg, Nat.add_zero]
          intro cut
          exact pops.parent_unfinished tree cut.1
            ((pops.finished_iff tree here).mpr (Or.inl finished))
        have sameChildren : popped.childCount here = search.childCount here := by rw [pops.made]
        unfold impact
        rw [pops.sameParent, sameCount, sameChildren]
      rw [sameImpact]
  · rw [pops.scores]
    split
    · exact counted.distinct
    · exact OrderedDict.distinct_set counted.distinct _ _

end Pops

theorem score_eq (search : Search node) (nodeId : node) (value : Nat) :
    search.score nodeId value =
      { search with
        articulationScores :=
          if value = 0 then search.articulationScores
          else OrderedDict.set search.articulationScores nodeId value } := by
  unfold score
  by_cases zero : value = 0
  · rw [if_pos zero, if_pos zero]
  · rw [if_neg zero, if_neg zero]

theorem leave_root (search : Search node) (root : search.parent nodeId = none) :
    search.leave nodeId = search.score nodeId (search.childCount nodeId - 1) := by
  unfold leave
  rw [root]

/-- The counter of a parent goes up where the child is cut off. -/
def countedBranch (search : Search node) (parentId nodeId : node) : node → Nat :=
  if (search.parent parentId).isSome && search.time parentId ≤ search.low nodeId then
    Function.update search.separatedCount parentId (search.separatedCount parentId + 1)
  else search.separatedCount

theorem leave_child (search : Search node) {parentId : node}
    (up : search.parent nodeId = some parentId) :
    search.leave nodeId =
      ({ search with
        low := Function.update search.low parentId
          (min (search.low parentId) (search.low nodeId))
        separatedCount := search.countedBranch parentId nodeId } : Search node).score nodeId
          (search.countedBranch parentId nodeId nodeId) := by
  unfold leave
  rw [up]
  rfl

theorem countedBranch_eq (search : Search node) (parentId nodeId here : node) :
    search.countedBranch parentId nodeId here = search.separatedCount here +
      if parentId = here ∧ search.parent here ≠ none ∧ search.time here ≤ search.low nodeId then 1
      else 0 := by
  have same : ((search.parent parentId).isSome && decide (search.time parentId ≤
      search.low nodeId)) = true ↔ search.parent parentId ≠ none ∧
        search.time parentId ≤ search.low nodeId := by
    rw [Bool.and_eq_true, Option.isSome_iff_ne_none, decide_eq_true_iff]
  unfold countedBranch
  by_cases cut : search.parent parentId ≠ none ∧ search.time parentId ≤ search.low nodeId
  · rw [if_pos (same.mpr cut)]
    by_cases top : parentId = here
    · rw [← top, Function.update_self, if_pos ⟨rfl, cut⟩]
    · rw [Function.update_of_ne (fun equal => top equal.symm), if_neg (fun all => top all.1)]
      rfl
  · rw [if_neg (fun both => cut (same.mp both)), if_neg]
    · rfl
    · intro all
      rw [← all.1] at all
      exact cut all.2

theorem leave_pops (stacked : search.stack = (nodeId, []) :: rest) :
    Pops search (leave { search with stack := rest } nodeId) nodeId rest := by
  cases up : search.parent nodeId with
  | none =>
      rw [leave_root { search with stack := rest } up, score_eq]
      exact
        { stacked
          made := rfl
          lowOther := fun _other => rfl
          lowParent := fun other => nomatch up.symm.trans other
          separated := by
            intro here
            simp only [up, reduceCtorEq, false_and, if_false, Nat.add_zero]
          scores := by simp only [impact, up, if_true] }
  | some parentId =>
      rw [leave_child { search with stack := rest } up, score_eq]
      exact
        { stacked
          made := rfl
          lowOther := by
            intro here other
            apply Function.update_of_ne
            intro same
            rw [same] at other
            exact other up
          lowParent := by
            intro above other
            rw [up] at other
            rw [← Option.some.inj other]
            exact Function.update_self _ _ _
          separated := by
            intro here
            rw [up]
            simp only [Option.some_inj]
            exact countedBranch_eq search parentId nodeId here
          scores := by simp only [impact, up, reduceCtorEq, if_false] }

theorem Invariant.leave (invariant : Invariant neighbors nodes search) (distinct : nodes.Nodup)
    (stacked : search.stack = (nodeId, []) :: rest) :
    Invariant neighbors nodes (leave { search with stack := rest } nodeId) := by
  have pops := leave_pops stacked
  constructor
  · exact pops.tree invariant.toTree
  · exact pops.scanned invariant.toTree invariant.toScanned
  · exact pops.counted distinct invariant.toTree invariant.toCounted

end Leave

/-! ### The loops -/

section Loops

variable {neighbors : node → List node} {nodes : List node} {search : Search node}

/-- The turns for the nodes that are not yet discovered. -/
def undiscoveredTurns (neighbors : node → List node) (nodes : List node)
    (discovery : node → Option Nat) : Nat :=
  (nodes.map (fun here => if discovery here = none then (neighbors here).length + 1 else 0)).sum

/-- The turns that are still to come. -/
def pending (neighbors : node → List node) (nodes : List node) (search : Search node) : Nat :=
  undiscoveredTurns neighbors nodes search.discovery +
    (search.stack.map (fun frame => frame.2.length + 1)).sum

theorem pending_discover (distinct : nodes.Nodup) (search : Search node)
    {above : Option node} {fresh : node} (inside : fresh ∈ nodes)
    (new : search.discovery fresh = none) :
    pending neighbors nodes (discover neighbors search above fresh) =
      pending neighbors nodes search := by
  have changed := sum_changed distinct inside
    (fun here => if search.discovery here = none then (neighbors here).length + 1 else 0)
    (fun here =>
      if (discover neighbors search above fresh).discovery here = none then
        (neighbors here).length + 1
      else 0)
    (fun here other => by rw [discovery_other other])
  rw [discovery_fresh, if_pos new, if_neg (Option.some_ne_none _)] at changed
  have pushed : (discover neighbors search above fresh).stack =
      (fresh, neighbors fresh) :: search.stack := rfl
  unfold pending undiscoveredTurns
  rw [pushed, List.map_cons, List.sum_cons]
  dsimp only
  omega

theorem step_leave {nodeId : node} {rest : List (node × List node)}
    (stacked : search.stack = (nodeId, []) :: rest) :
    step neighbors search = leave { search with stack := rest } nodeId := by
  unfold step
  rw [stacked]

theorem step_visit {nodeId neighbor : node} {later : List node}
    {rest : List (node × List node)}
    (stacked : search.stack = (nodeId, neighbor :: later) :: rest) :
    step neighbors search =
      visit neighbors { search with stack := (nodeId, later) :: rest } nodeId neighbor := by
  unfold step
  rw [stacked]

/-- What a neighbour does to the turns that remain and to the nodes that are known. -/
theorem visit_turns (distinct : nodes.Nodup) (search : Search node) (nodeId : node)
    {neighbor : node} (inside : neighbor ∈ nodes) :
    pending neighbors nodes (visit neighbors search nodeId neighbor) =
        pending neighbors nodes search ∧
      ∀ here, search.Discovered here →
        (visit neighbors search nodeId neighbor).Discovered here := by
  unfold visit
  by_cases new : search.discovery neighbor = none
  · rw [if_pos new]
    constructor
    · exact pending_discover distinct
        { search with
          childCount := Function.update search.childCount nodeId (search.childCount nodeId + 1) }
        inside new
    · exact fun here before => discovered_discover.mpr (Or.inr before)
  · rw [if_neg new]
    by_cases other : search.parent nodeId ≠ some neighbor
    · rw [if_pos other]
      exact ⟨rfl, fun here before => before⟩
    · rw [if_neg other]
      exact ⟨rfl, fun here before => before⟩

/-- One turn keeps the invariant, forgets no node and brings the end nearer. -/
theorem step_spec (undirected : Undirected neighbors nodes)
    (invariant : Invariant neighbors nodes search) (busy : search.stack ≠ []) :
    Invariant neighbors nodes (step neighbors search) ∧
      pending neighbors nodes (step neighbors search) + 1 = pending neighbors nodes search ∧
        ∀ here, search.Discovered here → (step neighbors search).Discovered here := by
  cases stacked : search.stack with
  | nil => exact absurd stacked busy
  | cons frame rest =>
      obtain ⟨nodeId, left⟩ := frame
      cases left with
      | nil =>
          have pops := leave_pops stacked
          rw [step_leave stacked]
          refine ⟨invariant.leave undirected.distinct stacked, ?_, ?_⟩
          · unfold pending
            rw [pops.made, stacked]
            simp only [List.map_cons, List.sum_cons, List.length_nil]
            omega
          · exact fun here before => (pops.sameDiscovered here).mpr before
      | cons neighbor later =>
          have adjacent := (invariant.toScanned.next_mem invariant.toTree stacked).2
          obtain ⟨turns, kept⟩ := visit_turns undirected.distinct
            { search with stack := (nodeId, later) :: rest } nodeId (undirected.inside adjacent)
          rw [step_visit stacked]
          refine ⟨invariant.visit undirected stacked, ?_, kept⟩
          rw [turns]
          unfold pending
          rw [stacked]
          simp only [List.map_cons, List.sum_cons, List.length_cons]
          omega

/-- With enough turns the stack is emptied. -/
theorem drain_spec (undirected : Undirected neighbors nodes) {fuel : Nat} :
    ∀ {search : Search node}, Invariant neighbors nodes search →
      pending neighbors nodes search ≤ fuel →
        Invariant neighbors nodes (drain neighbors fuel search) ∧
          (drain neighbors fuel search).stack = [] ∧
            ∀ here, search.Discovered here → (drain neighbors fuel search).Discovered here := by
  induction fuel with
  | zero =>
      intro search invariant enough
      refine ⟨invariant, ?_, fun _here before => before⟩
      change search.stack = []
      cases stacked : search.stack with
      | nil => rfl
      | cons frame rest =>
          unfold pending at enough
          rw [stacked, List.map_cons, List.sum_cons] at enough
          omega
  | succ fuel ih =>
      intro search invariant enough
      unfold drain
      by_cases idle : search.stack.isEmpty = true
      · rw [if_pos idle]
        exact ⟨invariant, List.isEmpty_iff.mp idle, fun _here before => before⟩
      · rw [if_neg idle]
        have busy : search.stack ≠ [] := fun empty => idle (List.isEmpty_iff.mpr empty)
        obtain ⟨stepped, nearer, kept⟩ := step_spec undirected invariant busy
        obtain ⟨ended, empty, keptLater⟩ := ih stepped (by omega)
        exact ⟨ended, empty, fun here before => keptLater here (kept here before)⟩

theorem Invariant.discover_root (undirected : Undirected neighbors nodes)
    (invariant : Invariant neighbors nodes search) (idle : search.stack = []) {root : node}
    (inside : root ∈ nodes) (new : ¬search.Discovered root) :
    Invariant neighbors nodes (discover neighbors search none root) := by
  have noPath : search.path = [] := by
    unfold path
    rw [idle]
    rfl
  constructor
  · apply Tree.discover undirected invariant.toTree
    · exact fun finished => invariant.toScanned.closed finished
    · exact new
    · exact inside
    · rw [noPath]
      rfl
    · exact fun _higher impossible => nomatch impossible
  · apply Scanned.discover invariant.toTree
    · intro here before
      obtain ⟨done, split, known⟩ := invariant.scanned before
      exact ⟨done, split, fun there member => Or.inr (known there member)⟩
    · exact invariant.lowSelf
    · exact invariant.lowChild
    · exact invariant.lowReached
    · exact new
  · apply Counted.discover undirected.distinct invariant.toTree
    · exact invariant.children
    · exact invariant.separated
    · exact invariant.scores
    · exact invariant.distinct
    · exact new
    · exact inside

omit [DecidableEq node] in
theorem pending_le (idle : search.stack = []) :
    pending neighbors nodes search ≤ turns neighbors nodes := by
  unfold pending undiscoveredTurns turns
  rw [idle, List.map_nil, List.sum_nil, Nat.add_zero]
  apply List.sum_le_sum
  intro here _member
  split
  · exact Nat.le_refl _
  · exact Nat.zero_le _

theorem searchFrom_spec (undirected : Undirected neighbors nodes)
    (invariant : Invariant neighbors nodes search) (idle : search.stack = []) {root : node}
    (inside : root ∈ nodes) :
    Invariant neighbors nodes (searchFrom neighbors (turns neighbors nodes) search root) ∧
      (searchFrom neighbors (turns neighbors nodes) search root).stack = [] ∧
        ∀ here, here = root ∨ search.Discovered here →
          (searchFrom neighbors (turns neighbors nodes) search root).Discovered here := by
  unfold searchFrom
  by_cases new : search.discovery root = none
  · rw [if_pos new]
    have fresh : ¬search.Discovered root := fun discovered => discovered new
    have started := invariant.discover_root undirected idle inside fresh
    obtain ⟨ended, empty, kept⟩ := drain_spec undirected started
      (Nat.le_trans (Nat.le_of_eq (pending_discover undirected.distinct search inside new))
        (pending_le idle))
    exact ⟨ended, empty, fun here before => kept here (discovered_discover.mpr before)⟩
  · rw [if_neg new]
    refine ⟨invariant, idle, ?_⟩
    intro here before
    cases before with
    | inl same =>
        rw [same]
        exact new
    | inr known => exact known

theorem empty_invariant : Invariant neighbors nodes ({} : Search node) := by
  constructor
  · constructor
    · trivial
    · exact fun _here impossible => nomatch impossible
    · exact fun discovered => absurd rfl discovered
    · exact fun _undiscovered => rfl
    · exact fun impossible => nomatch impossible
    · exact fun discovered => absurd rfl discovered
    · exact fun discovered => absurd rfl discovered
  · constructor
    · exact fun discovered => absurd rfl discovered
    · exact fun discovered => absurd rfl discovered
    · exact fun finished => absurd rfl finished.1
    · exact fun discovered => absurd rfl discovered
  · constructor
    · intro here
      symm
      apply List.countP_eq_zero.mpr
      intro child _member impossible
      cases of_decide_eq_true impossible
    · intro here
      symm
      apply List.countP_eq_zero.mpr
      intro child _member separated
      cases (of_decide_eq_true separated).1
    · intro here value
      constructor
      · exact fun impossible => nomatch impossible
      · exact fun all => absurd rfl all.1.1
    · exact List.nodup_nil

/-- After the search every node is finished. -/
theorem searchAll_spec (undirected : Undirected neighbors nodes) :
    Invariant neighbors nodes (searchAll neighbors nodes) ∧
      (searchAll neighbors nodes).stack = [] ∧
        ∀ here ∈ nodes, (searchAll neighbors nodes).Discovered here := by
  have folded : ∀ (roots : List node) (search : Search node), roots ⊆ nodes →
      Invariant neighbors nodes search → search.stack = [] →
        Invariant neighbors nodes
            (roots.foldl (searchFrom neighbors (turns neighbors nodes)) search) ∧
          (roots.foldl (searchFrom neighbors (turns neighbors nodes)) search).stack = [] ∧
            ∀ here, here ∈ roots ∨ search.Discovered here →
              (roots.foldl (searchFrom neighbors (turns neighbors nodes)) search).Discovered
                here := by
    intro roots
    induction roots with
    | nil =>
        intro search _inside invariant idle
        refine ⟨invariant, idle, ?_⟩
        intro here before
        exact before.resolve_left List.not_mem_nil
    | cons root roots ih =>
        intro search inside invariant idle
        obtain ⟨next, nextIdle, known⟩ :=
          searchFrom_spec undirected invariant idle (inside List.mem_cons_self)
        obtain ⟨ended, empty, kept⟩ :=
          ih _ (fun here member => inside (List.mem_cons_of_mem _ member)) next nextIdle
        refine ⟨ended, empty, ?_⟩
        intro here before
        apply kept here
        cases before with
        | inl member =>
            cases List.mem_cons.mp member with
            | inl same => exact Or.inr (known here (Or.inl same))
            | inr later => exact Or.inl later
        | inr already => exact Or.inr (known here (Or.inr already))
  obtain ⟨invariant, idle, known⟩ := folded nodes {} (List.Subset.refl _) empty_invariant rfl
  exact ⟨invariant, idle, fun here member => known here (Or.inl member)⟩

end Loops

/-! ### The forest that is left -/

section Scores

variable {neighbors : node → List node} {nodes : List node} {search : Search node}

omit [DecidableEq node] in
theorem countP_eq_ncard (distinct : nodes.Nodup) (chosen : node → Bool) :
    nodes.countP chosen = { here | here ∈ nodes ∧ chosen here = true }.ncard := by
  classical
  have same : { here | here ∈ nodes ∧ chosen here = true } =
      ((nodes.filter chosen).toFinset : Set node) := by
    ext here
    rw [Finset.mem_coe, List.mem_toFinset, List.mem_filter]
    rfl
  rw [same, Set.ncard_coe_finset, List.toFinset_card_of_nodup (distinct.filter _),
    List.countP_eq_length_filter]

omit [DecidableEq node] in
theorem finished_of_idle (idle : search.stack = []) {here : node} :
    search.Finished here ↔ search.Discovered here := by
  constructor
  · exact fun finished => finished.1
  · intro discovered
    refine ⟨discovered, ?_⟩
    unfold path
    rw [idle]
    exact List.not_mem_nil

/-- A search in which all nodes are finished, as a forest over the graph. -/
def forest (undirected : Undirected neighbors nodes) (invariant : Invariant neighbors nodes search)
    (idle : search.stack = []) (all : ∀ here ∈ nodes, search.Discovered here)
    (graph : SimpleGraph node)
    (adjacent : ∀ left right, graph.Adj left right ↔ left ≠ right ∧ right ∈ neighbors left) :
    PalmForest graph { here | here ∈ nodes } where
  parent := search.parent
  time := search.time
  low := search.low
  up := by
    intro below above _inside up
    obtain ⟨discovered, isNeighbor, earlier⟩ := invariant.up up
    refine ⟨invariant.inside discovered, ?_, earlier⟩
    rw [adjacent]
    refine ⟨?_, undirected.symm isNeighbor⟩
    intro same
    rw [same] at earlier
    exact Nat.lt_irrefl _ earlier
  palm := by
    intro left right insideLeft insideRight edge
    exact invariant.palm (all left insideLeft) (all right insideRight)
      ((adjacent left right).mp edge).2
  lowEdge := by
    intro here there inside _insideThere edge notParent
    obtain ⟨done, split, known⟩ := invariant.scanned (all here inside)
    have nothingLeft : search.remaining here = [] := by
      unfold remaining
      rw [idle]
      rfl
    rw [nothingLeft, List.append_nil] at split
    have looked := ((adjacent here there).mp edge).2
    rw [split] at looked
    exact (known there looked).2.resolve_left notParent
  lowChild := by
    intro below above inside up
    exact invariant.lowChild ((finished_of_idle idle).mpr (all below inside)) up
  lowReached := by
    intro here inside
    obtain ⟨below, discovered, climbs, ends⟩ := invariant.lowReached (all here inside)
    refine ⟨below, invariant.inside discovered, climbs, ?_⟩
    cases ends with
    | inl itself => exact Or.inl itself
    | inr edge =>
        obtain ⟨there, isNeighbor, discoveredThere, same⟩ := edge
        by_cases loop : below = there
        · rw [loop]
          exact Or.inl same
        · exact Or.inr ⟨there, invariant.inside discoveredThere,
            (adjacent below there).mpr ⟨loop, isNeighbor⟩, same⟩

section Impact

variable {graph : SimpleGraph node} {here : node} (undirected : Undirected neighbors nodes)
variable (invariant : Invariant neighbors nodes search) (idle : search.stack = [])
variable (all : ∀ here ∈ nodes, search.Discovered here)
variable (adjacent : ∀ left right, graph.Adj left right ↔ left ≠ right ∧ right ∈ neighbors left)

/-- A root cuts off all the children that it has. -/
theorem childCount_eq (root : search.parent here = none) :
    search.childCount here =
      ((forest undirected invariant idle all graph adjacent).cutChildren here).ncard := by
  rw [PalmForest.cutChildren_of_root root, invariant.children here,
    countP_eq_ncard undirected.distinct]
  congr 1
  ext child
  exact and_congr_right (fun _inside => decide_eq_true_iff)

theorem separatedCount_eq (inner : search.parent here ≠ none) :
    search.separatedCount here =
      ((forest undirected invariant idle all graph adjacent).cutChildren here).ncard := by
  rw [invariant.separated here, countP_eq_ncard undirected.distinct]
  congr 1
  ext child
  apply and_congr_right
  intro inside
  rw [decide_eq_true_iff]
  constructor
  · exact fun separated => ⟨separated.1, separated.2.2.2⟩
  · intro cut
    exact ⟨cut.1, inner, (finished_of_idle idle).mpr (all child inside), cut.2⟩

include undirected invariant idle all adjacent in
/-- What the removal of a node does to the number of components, by its impact. -/
theorem components_impact (inside : here ∈ nodes) {value : Nat} (positive : 0 < value) :
    value = search.impact here ↔
      components graph ({ there | there ∈ nodes } \ {here}) =
        components graph { there | there ∈ nodes } + value := by
  have finite : { there | there ∈ nodes }.Finite := List.finite_toSet nodes
  have whole := (forest undirected invariant idle all graph adjacent).components_nodes
  have without :=
    (forest undirected invariant idle all graph adjacent).components_removed here finite
  unfold impact
  by_cases root : search.parent here = none
  · have children := childCount_eq undirected invariant idle all adjacent root
    have isRoot : here ∈ (forest undirected invariant idle all graph adjacent).roots :=
      ⟨inside, root⟩
    have others := Set.ncard_sdiff_singleton_add_one isRoot
      (finite.subset (fun _root isRoot => isRoot.1))
    rw [if_pos root, whole, without, children]
    omega
  · have cut := separatedCount_eq undirected invariant idle all adjacent root
    have same : (forest undirected invariant idle all graph adjacent).roots \ {here} =
        (forest undirected invariant idle all graph adjacent).roots :=
      Set.sdiff_singleton_eq_self (fun isRoot => root isRoot.2)
    rw [if_neg root, whole, without, cut, same]
    omega

end Impact

/-- The score of a node is the number of components that its removal adds. -/
theorem mem_scores (undirected : Undirected neighbors nodes)
    (invariant : Invariant neighbors nodes search) (idle : search.stack = [])
    (all : ∀ here ∈ nodes, search.Discovered here) {graph : SimpleGraph node}
    (adjacent : ∀ left right, graph.Adj left right ↔ left ≠ right ∧ right ∈ neighbors left)
    (here : node) (value : Nat) :
    (here, value) ∈ search.articulationScores ↔
      here ∈ nodes ∧ 0 < value ∧
        components graph ({ there | there ∈ nodes } \ {here}) =
          components graph { there | there ∈ nodes } + value := by
  have listed : (here, value) ∈ search.articulationScores ↔
      search.articulationScores.lookup here = some value := by
    constructor
    · exact fun member => OrderedDict.lookup_of_mem invariant.distinct member
    · exact fun found => OrderedDict.mem_of_lookup found
  rw [listed, invariant.scores here value, finished_of_idle idle]
  constructor
  · intro scored
    have inside := invariant.inside scored.1
    have positive := Nat.pos_of_ne_zero scored.2.1
    exact ⟨inside, positive,
      (components_impact undirected invariant idle all adjacent inside positive).mp scored.2.2⟩
  · intro added
    exact ⟨all here added.1, Nat.ne_of_gt added.2.1,
      (components_impact undirected invariant idle all adjacent added.1 added.2.1).mpr added.2.2⟩

end Scores

end Search

/-! ### Edges -/

section Edges

variable {adjacency : List (Text × List Text)} {source target here there : Text}

theorem mem_addNeighbor :
    there ∈ ((addNeighbor adjacency source target).lookup here).getD [] ↔
      here = source ∧ there = target ∨ there ∈ (adjacency.lookup here).getD [] := by
  unfold addNeighbor
  rw [OrderedDict.lookup_set]
  by_cases same : here = source
  · rw [if_pos same, same, Option.getD_some]
    by_cases known : ((adjacency.lookup source).getD []).contains target = true
    · rw [if_pos known]
      constructor
      · exact Or.inr
      · intro ways
        cases ways with
        | inl new =>
            rw [new.2]
            exact List.contains_iff_mem.mp known
        | inr old => exact old
    · rw [if_neg known, List.mem_append, List.mem_singleton]
      constructor
      · intro ways
        cases ways with
        | inl old => exact Or.inr old
        | inr new => exact Or.inl ⟨rfl, new⟩
      · intro ways
        cases ways with
        | inl new => exact Or.inr new.2
        | inr old => exact Or.inl old
  · rw [if_neg same]
    exact (or_iff_right (fun both => same both.1)).symm

theorem keys_addNeighbor :
    here ∈ (addNeighbor adjacency source target).map Prod.fst ↔
      here = source ∨ here ∈ adjacency.map Prod.fst := by
  rw [List.mem_map, List.mem_map, ← OrderedDict.lookup_isSome, ← OrderedDict.lookup_isSome]
  unfold addNeighbor
  rw [OrderedDict.lookup_set]
  by_cases same : here = source
  · rw [if_pos same]
    exact iff_of_true rfl (Or.inl same)
  · rw [if_neg same]
    exact (or_iff_right same).symm

theorem distinct_addNeighbor (distinct : (adjacency.map Prod.fst).Nodup) :
    ((addNeighbor adjacency source target).map Prod.fst).Nodup :=
  OrderedDict.distinct_set distinct _ _

/-- An edge leads from one note to the other in one of the two directions. -/
def Connects (edge : GraphEdge) (here there : Text) : Prop :=
  here = edge.source ∧ there = edge.target ∨ here = edge.target ∧ there = edge.source

theorem both_ends {first second later old : Prop} :
    later ∨ second ∨ first ∨ old ↔ ((first ∨ second) ∨ later) ∨ old := by
  tauto

/-- What the loop over the edges makes of a dictionary. -/
theorem foldl_addNeighbor (edges : List GraphEdge) :
    ∀ (adjacency : List (Text × List Text)), (adjacency.map Prod.fst).Nodup →
      let built := edges.foldl (fun adjacency edge =>
        addNeighbor (addNeighbor adjacency edge.source edge.target) edge.target edge.source)
        adjacency
      (built.map Prod.fst).Nodup ∧
        (∀ here, here ∈ built.map Prod.fst ↔
          (∃ edge ∈ edges, here = edge.source ∨ here = edge.target) ∨
            here ∈ adjacency.map Prod.fst) ∧
          ∀ here there, there ∈ (built.lookup here).getD [] ↔
            (∃ edge ∈ edges, Connects edge here there) ∨
              there ∈ (adjacency.lookup here).getD [] := by
  induction edges with
  | nil =>
      intro adjacency distinct
      refine ⟨distinct, ?_, ?_⟩
      · intro here
        exact (or_iff_right (fun found => List.not_mem_nil found.choose_spec.1)).symm
      · intro here there
        exact (or_iff_right (fun found => List.not_mem_nil found.choose_spec.1)).symm
  | cons edge edges ih =>
      intro adjacency distinct
      obtain ⟨distinctLater, keys, members⟩ :=
        ih _ (distinct_addNeighbor (distinct_addNeighbor distinct))
      refine ⟨distinctLater, ?_, ?_⟩
      · intro here
        rw [List.foldl_cons, keys, keys_addNeighbor, keys_addNeighbor, List.exists_mem_cons_iff]
        exact both_ends
      · intro here there
        rw [List.foldl_cons, members, mem_addNeighbor, mem_addNeighbor, List.exists_mem_cons_iff]
        exact both_ends

end Edges

section Tool

variable (edges : List GraphEdge)

/-- The notes that an edge names. -/
def linkedNotes : Set Text :=
  { note | ∃ edge ∈ edges, note = edge.source ∨ note = edge.target }

/-- The undirected graph of the edges; a note is no neighbour of its own. -/
def linkGraph : SimpleGraph Text where
  Adj here there := here ≠ there ∧ ∃ edge ∈ edges, Connects edge here there
  symm := ⟨by
    intro here there adjacent
    obtain ⟨edge, member, connects⟩ := adjacent.2
    exact ⟨adjacent.1.symm, edge, member, connects.elim (fun both => Or.inr ⟨both.2, both.1⟩)
      (fun both => Or.inl ⟨both.2, both.1⟩)⟩⟩
  loopless := ⟨fun _here adjacent => adjacent.1 rfl⟩

theorem mem_neighborsOf {here there : Text} :
    there ∈ neighborsOf (buildAdjacency edges) here ↔
      ∃ edge ∈ edges, Connects edge here there := by
  unfold neighborsOf sortTexts
  rw [List.mem_mergeSort]
  have built := (foldl_addNeighbor edges [] List.nodup_nil).2.2 here there
  exact built.trans (or_iff_left List.not_mem_nil)

theorem mem_keys {here : Text} :
    here ∈ sortTexts ((buildAdjacency edges).map Prod.fst) ↔ here ∈ linkedNotes edges := by
  unfold sortTexts
  rw [List.mem_mergeSort]
  have built := (foldl_addNeighbor edges [] List.nodup_nil).2.1 here
  exact built.trans (or_iff_left List.not_mem_nil)

theorem undirected_adjacency :
    Search.Undirected (neighborsOf (buildAdjacency edges))
      (sortTexts ((buildAdjacency edges).map Prod.fst)) := by
  constructor
  · unfold sortTexts
    rw [(List.mergeSort_perm _ _).nodup_iff]
    exact (foldl_addNeighbor edges [] List.nodup_nil).1
  · intro here there adjacent
    obtain ⟨edge, member, connects⟩ := (mem_neighborsOf edges).mp adjacent
    exact (mem_neighborsOf edges).mpr ⟨edge, member, connects.elim
      (fun both => Or.inr ⟨both.2, both.1⟩) (fun both => Or.inl ⟨both.2, both.1⟩)⟩
  · intro here there adjacent
    obtain ⟨edge, member, connects⟩ := (mem_neighborsOf edges).mp adjacent
    exact (mem_keys edges).mpr ⟨edge, member, connects.elim (fun both => Or.inr both.2)
      (fun both => Or.inl both.2)⟩

/-- The notes that are collected before the limit are the articulation points of the graph, each
of them once, and the score of each is the number of components that its removal adds. -/
theorem rankedBridges_iff :
    ((rankedBridges edges).map Prod.fst).Nodup ∧
      ∀ note score, (note, score) ∈ rankedBridges edges ↔
        note ∈ linkedNotes edges ∧ 0 < score ∧
          components (linkGraph edges) (linkedNotes edges \ {note}) =
            components (linkGraph edges) (linkedNotes edges) + score := by
  obtain ⟨invariant, idle, all⟩ := Search.searchAll_spec (undirected_adjacency edges)
  have sameNotes : { note | note ∈ sortTexts ((buildAdjacency edges).map Prod.fst) } =
      linkedNotes edges := by
    ext note
    exact mem_keys edges
  have distinct : ((articulationScores edges).map Prod.fst).Nodup := invariant.distinct
  constructor
  · unfold rankedBridges
    exact ((List.mergeSort_perm _ _).map Prod.fst).nodup_iff.mpr distinct
  · intro note score
    have adjacent : ∀ here there, (linkGraph edges).Adj here there ↔
        here ≠ there ∧ there ∈ neighborsOf (buildAdjacency edges) here := by
      intro here there
      exact and_congr_right (fun _apart => (mem_neighborsOf edges).symm)
    have scored := Search.mem_scores (undirected_adjacency edges) invariant idle all adjacent
      note score
    rw [sameNotes] at scored
    unfold rankedBridges
    rw [List.mem_mergeSort, ← mem_keys edges]
    exact scored

end Tool

end Graph

end VaultSearch
