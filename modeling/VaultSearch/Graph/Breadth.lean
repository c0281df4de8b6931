/-
The components of a finite graph, found one after the other by breadth-first search.

All searches share the nodes that were visited.  A node may be in the queue several times; it
is visited when it is taken out for the first time.
-/

import Mathlib.Algebra.Order.BigOperators.Group.List
import VaultSearch.Graph.Components

set_option autoImplicit false

namespace VaultSearch

namespace Graph

variable {node : Type} [DecidableEq node]

/-- The nodes that all searches have visited, those of the present search, and its queue. -/
structure Breadth (node : Type) where
  visited : List node
  cluster : List node := []
  queue : List node

namespace Breadth

section Run

variable (neighbors : node → List node)

/-- A node is visited, with the rest of the queue behind it. -/
def visit (search : Breadth node) (here : node) (rest : List node) : Breadth node :=
  let visited := search.visited ++ [here]
  { visited
    cluster := search.cluster ++ [here]
    queue := rest ++ (neighbors here).filter (fun there => !visited.contains there) }

/-- The node that is first in the queue is taken out. -/
def step (search : Breadth node) : Breadth node :=
  match search.queue with
  | [] => search
  | here :: rest =>
      if search.visited.contains here then { search with queue := rest }
      else visit neighbors search here rest

/-- `while queue`; nothing is returned where the turns do not suffice. -/
def drain : Nat → Breadth node → Option (Breadth node)
  | turns, search =>
      if search.queue.isEmpty then some search
      else
        match turns with
        | 0 => none
        | turns + 1 => drain turns (step neighbors search)

/-- There is a turn for the start and one for each neighbour of a node. -/
def rounds (nodes : List node) : Nat :=
  (nodes.map (fun here => (neighbors here).length)).sum + 1

/-- The nodes of the graph that a path leads to. -/
def Reached : node → node → Prop :=
  Relation.ReflTransGen (fun left right => right ∈ neighbors left)

end Run

variable {neighbors : node → List node} {nodes : List node}

/-- What holds during one search: `before` are the nodes of earlier searches. -/
structure Searching (neighbors : node → List node) (start : node) (before : List node)
    (search : Breadth node) : Prop where
  visited : search.visited = before ++ search.cluster
  distinct : search.cluster.Nodup
  reached : ∀ here, here ∈ search.cluster ∨ here ∈ search.queue → Reached neighbors start here
  started : start ∈ search.cluster ∨ start ∈ search.queue
  closed : ∀ here ∈ search.cluster, ∀ there ∈ neighbors here,
    there ∈ search.visited ∨ there ∈ search.queue

omit [DecidableEq node] in
theorem searching_start (start : node) (before : List node) :
    Searching neighbors start before { visited := before, queue := [start] } := by
  constructor
  · exact (List.append_nil before).symm
  · exact List.nodup_nil
  · intro here found
    rw [List.mem_singleton.mp (found.resolve_left List.not_mem_nil)]
    exact .refl
  · exact Or.inr (List.mem_singleton_self start)
  · intro here impossible
    cases impossible

theorem step_seen {search : Breadth node} {here : node} {rest : List node}
    (queued : search.queue = here :: rest) (seen : here ∈ search.visited) :
    step neighbors search = { search with queue := rest } := by
  unfold step
  rw [queued]
  exact if_pos (List.contains_iff_mem.mpr seen)

theorem step_fresh {search : Breadth node} {here : node} {rest : List node}
    (queued : search.queue = here :: rest) (fresh : here ∉ search.visited) :
    step neighbors search = visit neighbors search here rest := by
  unfold step
  rw [queued]
  exact if_neg (fun seen => fresh (List.contains_iff_mem.mp seen))

omit [DecidableEq node] in
theorem Searching.step_seen {start : node} {before : List node} {search : Breadth node}
    {here : node} {rest : List node} (searching : Searching neighbors start before search)
    (queued : search.queue = here :: rest) (seen : here ∈ search.visited)
    (apart : here ∉ before) :
    Searching neighbors start before { search with queue := rest } := by
  have inCluster : here ∈ search.cluster := by
    rw [searching.visited] at seen
    exact (List.mem_append.mp seen).resolve_left apart
  constructor
  · exact searching.visited
  · exact searching.distinct
  · intro there found
    apply searching.reached there
    rw [queued]
    exact found.imp_right (List.mem_cons_of_mem _)
  · rcases searching.started with visited | waiting
    · exact Or.inl visited
    · rw [queued] at waiting
      rcases List.mem_cons.mp waiting with same | later
      · rw [same]
        exact Or.inl inCluster
      · exact Or.inr later
  · intro present member there adjacent
    rcases searching.closed present member there adjacent with visited | waiting
    · exact Or.inl visited
    · rw [queued] at waiting
      rcases List.mem_cons.mp waiting with same | later
      · rw [same]
        exact Or.inl seen
      · exact Or.inr later

theorem Searching.step_fresh {start : node} {before : List node} {search : Breadth node}
    {here : node} {rest : List node} (searching : Searching neighbors start before search)
    (queued : search.queue = here :: rest) (fresh : here ∉ search.visited) :
    Searching neighbors start before (visit neighbors search here rest) := by
  have reachedHere : Reached neighbors start here := by
    apply searching.reached
    rw [queued]
    exact Or.inr List.mem_cons_self
  unfold visit
  constructor
  · dsimp only
    rw [searching.visited, List.append_assoc]
  · apply List.nodup_append.mpr
    refine ⟨searching.distinct, List.nodup_singleton here, ?_⟩
    intro there member other isHere same
    rw [same, List.mem_singleton.mp isHere] at member
    rw [searching.visited] at fresh
    exact fresh (List.mem_append_right _ member)
  · intro there found
    dsimp only at found
    rw [List.mem_append, List.mem_singleton, List.mem_append, List.mem_filter] at found
    rcases found with (member | same) | (waiting | ⟨adjacent, _new⟩)
    · exact searching.reached there (Or.inl member)
    · rw [same]
      exact reachedHere
    · apply searching.reached there
      rw [queued]
      exact Or.inr (List.mem_cons_of_mem _ waiting)
    · exact reachedHere.tail adjacent
  · dsimp only
    rw [List.mem_append, List.mem_singleton, List.mem_append]
    rcases searching.started with visited | waiting
    · exact Or.inl (Or.inl visited)
    · rw [queued] at waiting
      rcases List.mem_cons.mp waiting with same | later
      · exact Or.inl (Or.inr same)
      · exact Or.inr (Or.inl later)
  · intro present member there adjacent
    dsimp only at member ⊢
    by_cases seen : there ∈ search.visited ++ [here]
    · exact Or.inl seen
    · right
      rw [List.mem_append, List.mem_filter]
      rcases List.mem_append.mp member with earlier | isHere
      · rcases searching.closed present earlier there adjacent with visited | waiting
        · exact absurd (List.mem_append_left _ visited) seen
        · rw [queued] at waiting
          rcases List.mem_cons.mp waiting with same | later
          · rw [same] at seen
            exact absurd (List.mem_append_right _ (List.mem_singleton_self here)) seen
          · exact Or.inl later
      · rw [List.mem_singleton.mp isHere] at adjacent
        right
        refine ⟨adjacent, ?_⟩
        rw [Bool.not_eq_true', ← Bool.not_eq_true, List.contains_iff_mem]
        exact seen

/-! ### The search ends -/

/-- The turns that are still to come: one for each entry of the queue, and those for the
neighbours of the nodes that are not visited. -/
def pending (neighbors : node → List node) (nodes : List node) (search : Breadth node) : Nat :=
  search.queue.length +
    (nodes.map (fun here =>
      if search.visited.contains here then 0 else (neighbors here).length)).sum

theorem pending_fresh (distinct : nodes.Nodup) {search : Breadth node} {here : node}
    {rest : List node} (queued : search.queue = here :: rest) (fresh : here ∉ search.visited)
    (inside : here ∈ nodes) :
    pending neighbors nodes (visit neighbors search here rest) <
      pending neighbors nodes search := by
  have changed := sum_changed distinct inside
    (fun there => if search.visited.contains there then 0 else (neighbors there).length)
    (fun there =>
      if (search.visited ++ [here]).contains there then 0 else (neighbors there).length)
    (fun there other => by
      have same : (search.visited ++ [here]).contains there = search.visited.contains there := by
        rw [Bool.eq_iff_iff, List.contains_iff_mem, List.contains_iff_mem, List.mem_append,
          List.mem_singleton]
        exact or_iff_left other
      rw [same])
  have seen : (search.visited ++ [here]).contains here = true :=
    List.contains_iff_mem.mpr (List.mem_append_right _ (List.mem_singleton_self here))
  have unseen : ¬search.visited.contains here = true :=
    fun member => fresh (List.contains_iff_mem.mp member)
  have fewer : ((neighbors here).filter
      (fun there => !(search.visited ++ [here]).contains there)).length ≤
        (neighbors here).length := List.length_filter_le _ _
  rw [if_neg unseen, if_pos seen] at changed
  unfold pending visit
  dsimp only
  rw [queued, List.length_cons, List.length_append]
  omega

/-- With turns enough the queue is empty at the end. -/
theorem drain_spec (distinct : nodes.Nodup) {start : node} {before : List node}
    (apart : ∀ here, Reached neighbors start here → here ∉ before)
    (inside : ∀ here, Reached neighbors start here → here ∈ nodes) (turns : Nat) :
    ∀ search, Searching neighbors start before search →
      pending neighbors nodes search ≤ turns →
        ∃ ended, drain neighbors turns search = some ended ∧
          Searching neighbors start before ended ∧ ended.queue = [] := by
  induction turns with
  | zero =>
      intro search searching enough
      have empty : search.queue = [] := by
        unfold pending at enough
        exact List.length_eq_zero_iff.mp (by omega)
      refine ⟨search, ?_, searching, empty⟩
      unfold drain
      rw [empty, List.isEmpty_nil, if_pos rfl]
  | succ turns ih =>
      intro search searching enough
      unfold drain
      cases queued : search.queue with
      | nil =>
          rw [List.isEmpty_nil, if_pos rfl]
          exact ⟨search, rfl, searching, queued⟩
      | cons here rest =>
          have reached : Reached neighbors start here := by
            apply searching.reached
            rw [queued]
            exact Or.inr List.mem_cons_self
          rw [List.isEmpty_cons, if_neg Bool.false_ne_true]
          dsimp only
          by_cases seen : here ∈ search.visited
          · rw [Breadth.step_seen queued seen]
            apply ih _ (searching.step_seen queued seen (apart here reached))
            unfold pending at enough ⊢
            rw [queued, List.length_cons] at enough
            dsimp only
            omega
          · rw [Breadth.step_fresh queued seen]
            apply ih _ (searching.step_fresh queued seen)
            exact Nat.le_of_lt_succ
              (Nat.lt_of_lt_of_le (pending_fresh distinct queued seen (inside here reached)) enough)

omit [DecidableEq node] in
/-- A search that has ended has found the nodes that can be reached, each of them once. -/
theorem Searching.ended {start : node} {before : List node} {search : Breadth node}
    (searching : Searching neighbors start before search) (empty : search.queue = [])
    (apart : ∀ here, Reached neighbors start here → here ∉ before) (here : node) :
    here ∈ search.cluster ↔ Reached neighbors start here := by
  constructor
  · intro member
    exact searching.reached here (Or.inl member)
  · intro reached
    induction reached with
    | refl =>
        have started := searching.started
        rw [empty] at started
        exact started.resolve_right List.not_mem_nil
    | tail earlier adjacent ih =>
        have next := searching.closed _ ih _ adjacent
        rw [empty, searching.visited, List.mem_append] at next
        rcases next with (old | found) | impossible
        · exact absurd old (apart _ (earlier.tail adjacent))
        · exact found
        · cases impossible

/-! ### One search after the other -/

section Loop

variable (neighbors)

/-- A search from a node that is not yet visited; its nodes are kept if there are enough. -/
def searchFrom (turns minimum : Nat) (found : List node × List (List node)) (start : node) :
    Option (List node × List (List node)) :=
  if found.1.contains start then some found
  else
    (drain neighbors turns { visited := found.1, queue := [start] }).map (fun search =>
      (search.visited,
        if minimum ≤ search.cluster.length then found.2 ++ [search.cluster] else found.2))

def clusters (minimum : Nat) (nodes : List node) : Option (List (List node)) :=
  (nodes.foldlM (searchFrom neighbors (rounds neighbors nodes) minimum) ([], [])).map Prod.snd

/-- The nodes that a node is connected to, itself among them, without repetition. -/
structure IsComponent (here : node) (component : List node) : Prop where
  distinct : component.Nodup
  members : ∀ there, there ∈ component ↔ Reached neighbors here there

/-- What holds between two searches. -/
structure Parted (minimum : Nat) (found : List node × List (List node)) : Prop where
  closed : ∀ here ∈ found.1, ∀ there, Reached neighbors here there → there ∈ found.1
  component : ∀ cluster ∈ found.2, minimum ≤ cluster.length ∧
    ∃ here ∈ found.1, IsComponent neighbors here cluster
  disjoint : found.2.Pairwise List.Disjoint
  complete : ∀ here ∈ found.1, ∃ component, IsComponent neighbors here component ∧
    (minimum ≤ component.length → ∃ cluster ∈ found.2, here ∈ cluster)

end Loop

variable (undirected : ∀ {left right}, right ∈ neighbors left → left ∈ neighbors right)
include undirected

omit [DecidableEq node] in
theorem Reached.symm {left right : node} (reached : Reached neighbors left right) :
    Reached neighbors right left := by
  induction reached with
  | refl => exact .refl
  | tail _earlier adjacent ih => exact .head (undirected adjacent) ih

omit [DecidableEq node] in
theorem IsComponent.of_reached {here there : node} {component : List node}
    (isComponent : IsComponent neighbors here component)
    (reached : Reached neighbors here there) : IsComponent neighbors there component := by
  constructor
  · exact isComponent.distinct
  · intro other
    rw [isComponent.members]
    constructor
    · exact fun toOther => (Reached.symm undirected reached).trans toOther
    · exact fun toOther => reached.trans toOther

omit [DecidableEq node] in
/-- A further component. -/
theorem Parted.add {minimum : Nat} {visited : List node} {kept : List (List node)}
    (parted : Parted neighbors minimum (visited, kept)) {start : node} {component : List node}
    (isComponent : IsComponent neighbors start component)
    (apart : ∀ here, Reached neighbors start here → here ∉ visited) :
    Parted neighbors minimum (visited ++ component,
      if minimum ≤ component.length then kept ++ [component] else kept) := by
  have started : start ∈ component := (isComponent.members start).mpr .refl
  constructor
  · intro here member there reached
    dsimp only at member ⊢
    rcases List.mem_append.mp member with old | new
    · exact List.mem_append_left _ (parted.closed here old there reached)
    · apply List.mem_append_right
      rw [isComponent.members] at new ⊢
      exact new.trans reached
  · intro cluster member
    dsimp only at member ⊢
    have old : cluster ∈ kept → minimum ≤ cluster.length ∧
        ∃ here ∈ visited ++ component, IsComponent neighbors here cluster := by
      intro isKept
      obtain ⟨large, here, isVisited, isCluster⟩ := parted.component cluster isKept
      exact ⟨large, here, List.mem_append_left _ isVisited, isCluster⟩
    by_cases large : minimum ≤ component.length
    · rw [if_pos large] at member
      rcases List.mem_append.mp member with isKept | new
      · exact old isKept
      · rw [List.mem_singleton.mp new]
        exact ⟨large, start, List.mem_append_right _ started, isComponent⟩
    · rw [if_neg large] at member
      exact old member
  · dsimp only
    split
    · apply List.pairwise_append.mpr
      refine ⟨parted.disjoint, List.pairwise_singleton _ _, ?_⟩
      intro cluster isKept other isNew here inCluster inOther
      rw [List.mem_singleton.mp isNew, isComponent.members] at inOther
      obtain ⟨_large, first, isVisited, isCluster⟩ := parted.component cluster isKept
      exact apart here inOther
        (parted.closed first isVisited here ((isCluster.members here).mp inCluster))
    · exact parted.disjoint
  · intro here member
    dsimp only at member ⊢
    rcases List.mem_append.mp member with old | new
    · obtain ⟨found, isFound, kept'⟩ := parted.complete here old
      refine ⟨found, isFound, ?_⟩
      intro large
      obtain ⟨cluster, isKept, inCluster⟩ := kept' large
      refine ⟨cluster, ?_, inCluster⟩
      split
      · exact List.mem_append_left _ isKept
      · exact isKept
    · refine ⟨component, isComponent.of_reached undirected ((isComponent.members here).mp new), ?_⟩
      intro large
      rw [if_pos large]
      exact ⟨component, List.mem_append_right _ (List.mem_singleton_self _), new⟩

/-- One search keeps what holds between searches. -/
theorem Parted.searchFrom (distinct : nodes.Nodup)
    (inside : ∀ {left right}, right ∈ neighbors left → right ∈ nodes) {minimum : Nat}
    {found : List node × List (List node)} (parted : Parted neighbors minimum found)
    {start : node} (isNode : start ∈ nodes) :
    ∃ later, Breadth.searchFrom neighbors (rounds neighbors nodes) minimum found start =
        some later ∧
      Parted neighbors minimum later ∧ start ∈ later.1 ∧ ∀ here ∈ found.1, here ∈ later.1 := by
  unfold Breadth.searchFrom
  by_cases seen : start ∈ found.1
  · rw [if_pos (List.contains_iff_mem.mpr seen)]
    exact ⟨found, rfl, parted, seen, fun _here member => member⟩
  · rw [if_neg (fun known => seen (List.contains_iff_mem.mp known))]
    have apart : ∀ here, Reached neighbors start here → here ∉ found.1 := by
      intro here reached member
      exact seen (parted.closed here member start (Reached.symm undirected reached))
    have within : ∀ here, Reached neighbors start here → here ∈ nodes := by
      intro here reached
      cases reached with
      | refl => exact isNode
      | tail _earlier adjacent => exact inside adjacent
    have enough : pending neighbors nodes { visited := found.1, queue := [start] } ≤
        rounds neighbors nodes := by
      have fewer : (nodes.map (fun here =>
          if found.1.contains here then 0 else (neighbors here).length)).sum ≤
            (nodes.map (fun here => (neighbors here).length)).sum := by
        apply List.sum_le_sum
        intro here _member
        split
        · exact Nat.zero_le _
        · exact Nat.le_refl _
      unfold pending rounds
      dsimp only
      rw [List.length_singleton]
      omega
    obtain ⟨ended, drained, searching, empty⟩ := drain_spec distinct apart within _ _
      (searching_start start found.1) enough
    have isComponent : IsComponent neighbors start ended.cluster :=
      ⟨searching.distinct, searching.ended empty apart⟩
    rw [drained, Option.map_some]
    refine ⟨_, rfl, ?_, ?_, ?_⟩
    · rw [searching.visited]
      exact parted.add undirected isComponent apart
    · rw [searching.visited]
      exact List.mem_append_right _ ((isComponent.members start).mpr .refl)
    · intro here member
      rw [searching.visited]
      exact List.mem_append_left _ member

theorem Parted.searchAll (distinct : nodes.Nodup)
    (inside : ∀ {left right}, right ∈ neighbors left → right ∈ nodes) {minimum : Nat}
    (starts : List node) (listed : ∀ start ∈ starts, start ∈ nodes) :
    ∀ found, Parted neighbors minimum found →
      ∃ later, starts.foldlM (Breadth.searchFrom neighbors (rounds neighbors nodes) minimum) found =
          some later ∧
        Parted neighbors minimum later ∧ (∀ start ∈ starts, start ∈ later.1) ∧
          ∀ here ∈ found.1, here ∈ later.1 := by
  induction starts with
  | nil =>
      intro found parted
      exact ⟨found, rfl, parted, fun _start impossible => absurd impossible List.not_mem_nil,
        fun _here member => member⟩
  | cons start starts ih =>
      intro found parted
      obtain ⟨next, searched, partedNext, visited, kept⟩ :=
        parted.searchFrom undirected distinct inside (listed start List.mem_cons_self)
      obtain ⟨later, searchedAll, partedLater, visitedAll, keptAll⟩ :=
        ih (fun other member => listed other (List.mem_cons_of_mem _ member)) next partedNext
      refine ⟨later, ?_, partedLater, ?_, fun here member => keptAll here (kept here member)⟩
      · rw [List.foldlM_cons, searched]
        exact searchedAll
      · intro other member
        rcases List.mem_cons.mp member with same | another
        · rw [same]
          exact keptAll start visited
        · exact visitedAll other another

/-- The searches end, and the clusters are the components with nodes enough. -/
theorem clusters_spec (distinct : nodes.Nodup)
    (inside : ∀ {left right}, right ∈ neighbors left → right ∈ nodes) (minimum : Nat) :
    ∃ found, clusters neighbors minimum nodes = some found ∧
      found.Pairwise List.Disjoint ∧
      (∀ cluster ∈ found, minimum ≤ cluster.length ∧ ∃ here, IsComponent neighbors here cluster) ∧
      ∀ here ∈ nodes, ∃ component, IsComponent neighbors here component ∧
        (minimum ≤ component.length → ∃ cluster ∈ found, here ∈ cluster) := by
  have start : Parted neighbors minimum ([], []) := by
    constructor
    · intro here impossible
      cases impossible
    · intro cluster impossible
      cases impossible
    · exact List.Pairwise.nil
    · intro here impossible
      cases impossible
  obtain ⟨later, searched, parted, visited, _kept⟩ :=
    Parted.searchAll undirected distinct inside nodes (fun _start member => member) _ start
  refine ⟨later.2, ?_, parted.disjoint, ?_, fun here member =>
    parted.complete here (visited here member)⟩
  · unfold clusters
    rw [searched, Option.map_some]
  · intro cluster member
    obtain ⟨large, here, _visited, isComponent⟩ := parted.component cluster member
    exact ⟨large, here, isComponent⟩

end Breadth

end Graph

end VaultSearch
