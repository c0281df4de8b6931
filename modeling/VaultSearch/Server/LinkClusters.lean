/-
`find_link_clusters` of `server/graph_tools.py`: the connected components of the link graph and
how densely their notes are linked.

A set of texts is iterated over in an order that the language does not fix.
-/

import Mathlib.Algebra.Field.Rat
import Mathlib.Algebra.Order.Field.Basic
import Mathlib.Algebra.Order.Ring.Rat
import Mathlib.Combinatorics.SimpleGraph.Connectivity.Connected
import Mathlib.Data.Nat.Choose.Cast
import Mathlib.Data.Sym.Card
import VaultSearch.Graph.Breadth
import VaultSearch.Server.Articulation

set_option autoImplicit false

namespace VaultSearch

namespace Graph

/-- The order in which the neighbours of a note are iterated over. -/
structure SetOrder where
  order : Text → List Text → List Text
  perm : ∀ note items, (order note items).Perm items

/-- `for neighbor in adjacency[node]` -/
def iteratedNeighbors (iteration : SetOrder) (adjacency : List (Text × List Text))
    (note : Text) : List Text :=
  iteration.order note ((adjacency.lookup note).getD [])

/-- `max(2, min(min_cluster_size, 100))` -/
def clampedClusterSize (minClusterSize : Int) : Nat :=
  (max 2 (min minClusterSize 100)).toNat

/-- The clusters in the order of their size, before the limit. -/
def sortedClusters (iteration : SetOrder) (edges : List GraphEdge) (minClusterSize : Int) :
    Option (List (List Text)) :=
  let adjacency := buildAdjacency edges
  (Breadth.clusters (iteratedNeighbors iteration adjacency) (clampedClusterSize minClusterSize)
    (adjacency.map Prod.fst)).map
      (fun clusters => clusters.mergeSort (fun left right => right.length ≤ left.length))

/-- The set of the unordered pairs of different notes that an edge within the cluster links. -/
def internalEdges (edges : List GraphEdge) (cluster : List Text) : Finset (Sym2 Text) :=
  ((edges.filter (fun edge => cluster.contains edge.source && cluster.contains edge.target &&
    edge.source != edge.target)).map (fun edge => s(edge.source, edge.target))).toFinset

/-- `len(internal_edges) / max(possible_edges, 1)`, without the rounding of floats -/
def density (edges : List GraphEdge) (cluster : List Text) : Rat :=
  let possibleEdges : Rat := cluster.length * (cluster.length - 1) / 2
  (internalEdges edges cluster).card / max possibleEdges 1

structure ClusterNote where
  path : Text
  title : Text
  deriving DecidableEq

structure LinkCluster where
  id : Nat
  size : Nat
  density : Rat
  notes : List ClusterNote
  truncated : Bool
  deriving DecidableEq

structure ClusterReport where
  totalClusters : Nat := 0
  largestClusterSize : Nat := 0
  clusters : List LinkCluster := []
  deriving DecidableEq

/-- One entry of `result_clusters`; `rounded` is `round(density, 3)`. -/
def linkCluster (rounded : Rat → Rat) (payload : GraphPayload) (cluster : List Text)
    (index : Nat) : LinkCluster :=
  { id := index + 1
    size := cluster.length
    density := rounded (density payload.edges cluster)
    notes := (cluster.take 20).map (fun path =>
      { path, title := bridgeTitle payload.nodes path })
    truncated := 20 < cluster.length }

def clusterReport (rounded : Rat → Rat) (payload : GraphPayload) (clusters : List (List Text)) :
    ClusterReport :=
  let resultClusters := clusters.mapIdx (fun index cluster =>
    linkCluster rounded payload cluster index)
  { totalClusters := resultClusters.length
    largestClusterSize := (clusters.head?.map List.length).getD 0
    clusters := resultClusters.take 20 }

/-- The report on the graph that `graph_data` returned. -/
def findLinkClusters (iteration : SetOrder) (rounded : Rat → Rat) (payload : GraphPayload)
    (minClusterSize : Int) : Option ClusterReport :=
  if payload.edges.isEmpty then some {}
  else
    (sortedClusters iteration payload.edges minClusterSize).map (clusterReport rounded payload)

/-! ### Components -/

section Components

variable {iteration : SetOrder} {edges : List GraphEdge}

theorem mem_iteratedNeighbors {here there : Text} :
    there ∈ iteratedNeighbors iteration (buildAdjacency edges) here ↔
      ∃ edge ∈ edges, Connects edge here there := by
  unfold iteratedNeighbors
  rw [(iteration.perm here _).mem_iff]
  have built := (foldl_addNeighbor edges [] List.nodup_nil).2.2 here there
  exact built.trans (or_iff_left List.not_mem_nil)

theorem mem_adjacencyKeys {here : Text} :
    here ∈ (buildAdjacency edges).map Prod.fst ↔ here ∈ linkedNotes edges := by
  have built := (foldl_addNeighbor edges [] List.nodup_nil).2.1 here
  exact built.trans (or_iff_left List.not_mem_nil)

theorem Connects.symm {edge : GraphEdge} {here there : Text} (connects : Connects edge here there) :
    Connects edge there here := by
  cases connects with
  | inl forwards => exact Or.inr ⟨forwards.2, forwards.1⟩
  | inr backwards => exact Or.inl ⟨backwards.2, backwards.1⟩

theorem reached_iff {here there : Text} :
    Breadth.Reached (iteratedNeighbors iteration (buildAdjacency edges)) here there ↔
      (linkGraph edges).Reachable here there := by
  rw [SimpleGraph.reachable_iff_reflTransGen]
  constructor
  · intro reached
    induction reached with
    | refl => exact .refl
    | @tail middle last _earlier adjacent ih =>
        by_cases same : middle = last
        · rw [← same]
          exact ih
        · exact ih.tail ⟨same, mem_iteratedNeighbors.mp adjacent⟩
  · intro reached
    induction reached with
    | refl => exact .refl
    | tail _earlier adjacent ih => exact ih.tail (mem_iteratedNeighbors.mpr adjacent.2)

theorem two_le_clampedClusterSize (minClusterSize : Int) :
    2 ≤ clampedClusterSize minClusterSize := by
  unfold clampedClusterSize
  omega

theorem adjacency_symm {here there : Text}
    (adjacent : there ∈ iteratedNeighbors iteration (buildAdjacency edges) here) :
    here ∈ iteratedNeighbors iteration (buildAdjacency edges) there := by
  obtain ⟨edge, member, connects⟩ := mem_iteratedNeighbors.mp adjacent
  exact mem_iteratedNeighbors.mpr ⟨edge, member, connects.symm⟩

theorem adjacency_inside {here there : Text}
    (adjacent : there ∈ iteratedNeighbors iteration (buildAdjacency edges) here) :
    there ∈ (buildAdjacency edges).map Prod.fst := by
  obtain ⟨edge, member, connects⟩ := mem_iteratedNeighbors.mp adjacent
  apply mem_adjacencyKeys.mpr
  cases connects with
  | inl forwards => exact ⟨edge, member, Or.inr forwards.2⟩
  | inr backwards => exact ⟨edge, member, Or.inl backwards.2⟩

/-- A note without edges is a component of its own. -/
theorem unlinked_reaches {here there : Text} (unlinked : here ∉ linkedNotes edges)
    (reached : (linkGraph edges).Reachable here there) : there = here := by
  rw [SimpleGraph.reachable_iff_reflTransGen] at reached
  cases reached.cases_head with
  | inl same => exact same.symm
  | inr further =>
      obtain ⟨next, adjacent, _later⟩ := further
      obtain ⟨edge, member, connects⟩ := adjacent.2
      exfalso
      apply unlinked
      cases connects with
      | inl forwards => exact ⟨edge, member, Or.inl forwards.1⟩
      | inr backwards => exact ⟨edge, member, Or.inr backwards.1⟩

theorem ncard_cluster {cluster : List Text} (distinct : cluster.Nodup) :
    { note | note ∈ cluster }.ncard = cluster.length := by
  have same : { note | note ∈ cluster } = (cluster.toFinset : Set Text) := by
    ext note
    exact List.mem_toFinset.symm
  rw [same, Set.ncard_coe_finset, List.toFinset_card_of_nodup distinct]

/-- A component as it was collected is a component of the graph. -/
theorem component_supp {here : Text} {component : List Text}
    (isComponent : Breadth.IsComponent (iteratedNeighbors iteration (buildAdjacency edges)) here
      component) :
    ((linkGraph edges).connectedComponentMk here).supp = { note | note ∈ component } := by
  ext note
  rw [SimpleGraph.ConnectedComponent.mem_supp_iff, SimpleGraph.ConnectedComponent.eq]
  exact SimpleGraph.reachable_comm.trans (reached_iff.symm.trans (isComponent.members note).symm)

end Components

/-! ### Density -/

section Density

variable {edges : List GraphEdge} {cluster : List Text}

/-- The unordered pairs of different notes of a cluster. -/
def possiblePairs (cluster : List Text) : Finset (Sym2 Text) :=
  cluster.toFinset.offDiag.image Sym2.mk.uncurry

theorem mem_possiblePairs {left right : Text} :
    s(left, right) ∈ possiblePairs cluster ↔
      left ∈ cluster ∧ right ∈ cluster ∧ left ≠ right := by
  unfold possiblePairs
  rw [Finset.mem_image]
  constructor
  · rintro ⟨⟨first, second⟩, member, same⟩
    rw [Finset.mem_offDiag, List.mem_toFinset, List.mem_toFinset] at member
    rcases Sym2.eq_iff.mp same with ⟨isLeft, isRight⟩ | ⟨isRight, isLeft⟩
    · rw [← isLeft, ← isRight]
      exact member
    · rw [← isLeft, ← isRight]
      exact ⟨member.2.1, member.1, member.2.2.symm⟩
  · intro both
    refine ⟨(left, right), ?_, rfl⟩
    rw [Finset.mem_offDiag, List.mem_toFinset, List.mem_toFinset]
    exact both

theorem mem_internalEdges {left right : Text} :
    s(left, right) ∈ internalEdges edges cluster ↔
      s(left, right) ∈ possiblePairs cluster ∧ ∃ edge ∈ edges, Connects edge left right := by
  unfold internalEdges
  rw [List.mem_toFinset, List.mem_map, mem_possiblePairs]
  constructor
  · rintro ⟨edge, kept, same⟩
    rw [List.mem_filter, Bool.and_eq_true, Bool.and_eq_true, List.contains_iff_mem,
      List.contains_iff_mem, bne_iff_ne] at kept
    obtain ⟨member, ⟨inSource, inTarget⟩, differ⟩ := kept
    rcases Sym2.eq_iff.mp same with ⟨isLeft, isRight⟩ | ⟨isRight, isLeft⟩
    · rw [isLeft, isRight] at differ
      rw [isLeft] at inSource
      rw [isRight] at inTarget
      exact ⟨⟨inSource, inTarget, differ⟩, edge, member, Or.inl ⟨isLeft.symm, isRight.symm⟩⟩
    · rw [isLeft, isRight] at differ
      rw [isRight] at inSource
      rw [isLeft] at inTarget
      exact ⟨⟨inTarget, inSource, differ.symm⟩, edge, member,
        Or.inr ⟨isLeft.symm, isRight.symm⟩⟩
  · rintro ⟨⟨inLeft, inRight, differ⟩, edge, member, connects⟩
    refine ⟨edge, ?_, ?_⟩
    · rw [List.mem_filter, Bool.and_eq_true, Bool.and_eq_true, List.contains_iff_mem,
        List.contains_iff_mem, bne_iff_ne]
      cases connects with
      | inl forwards =>
          rw [← forwards.1, ← forwards.2]
          exact ⟨member, ⟨inLeft, inRight⟩, differ⟩
      | inr backwards =>
          rw [← backwards.1, ← backwards.2]
          exact ⟨member, ⟨inRight, inLeft⟩, differ.symm⟩
    · cases connects with
      | inl forwards => rw [← forwards.1, ← forwards.2]
      | inr backwards => rw [← backwards.1, ← backwards.2, Sym2.eq_swap]

theorem internalEdges_subset : internalEdges edges cluster ⊆ possiblePairs cluster := by
  intro pair
  induction pair using Sym2.ind with
  | _ left right => exact fun member => (mem_internalEdges.mp member).1

/-- All pairs are linked exactly if there are as many links as pairs. -/
theorem card_internalEdges_eq_iff :
    (internalEdges edges cluster).card = (possiblePairs cluster).card ↔
      ∀ left ∈ cluster, ∀ right ∈ cluster, left ≠ right →
        ∃ edge ∈ edges, Connects edge left right := by
  constructor
  · intro same left inLeft right inRight differ
    have all := Finset.eq_of_subset_of_card_le (@internalEdges_subset edges cluster) same.ge
    have pair := mem_possiblePairs.mpr ⟨inLeft, inRight, differ⟩
    rw [← all] at pair
    exact (mem_internalEdges.mp pair).2
  · intro linked
    apply congrArg Finset.card
    apply Finset.Subset.antisymm internalEdges_subset
    intro pair
    induction pair using Sym2.ind with
    | _ left right =>
        intro member
        obtain ⟨inLeft, inRight, differ⟩ := mem_possiblePairs.mp member
        exact mem_internalEdges.mpr ⟨member, linked left inLeft right inRight differ⟩

theorem card_possiblePairs (distinct : cluster.Nodup) :
    ((possiblePairs cluster).card : Rat) = cluster.length * (cluster.length - 1) / 2 := by
  unfold possiblePairs
  rw [Sym2.card_image_offDiag, List.toFinset_card_of_nodup distinct, Nat.cast_choose_two Rat]

theorem density_spec (distinct : cluster.Nodup) (plural : 2 ≤ cluster.length) :
    0 ≤ density edges cluster ∧ density edges cluster ≤ 1 ∧
      (density edges cluster = 1 ↔ ∀ left ∈ cluster, ∀ right ∈ cluster, left ≠ right →
        ∃ edge ∈ edges, Connects edge left right) := by
  have possible : 1 ≤ (possiblePairs cluster).card := by
    unfold possiblePairs
    rw [Sym2.card_image_offDiag, List.toFinset_card_of_nodup distinct]
    exact Nat.choose_pos plural
  have atLeastOne : (1 : Rat) ≤ (possiblePairs cluster).card := by exact_mod_cast possible
  have positive : (0 : Rat) < (possiblePairs cluster).card := lt_of_lt_of_le one_pos atLeastOne
  have fewer : ((internalEdges edges cluster).card : Rat) ≤ (possiblePairs cluster).card := by
    exact_mod_cast Finset.card_le_card internalEdges_subset
  have quotient : density edges cluster =
      (internalEdges edges cluster).card / (possiblePairs cluster).card := by
    unfold density
    dsimp only
    rw [← card_possiblePairs distinct, max_eq_left atLeastOne]
  rw [quotient]
  refine ⟨div_nonneg (Nat.cast_nonneg _) (Nat.cast_nonneg _), div_le_one_of_le₀ fewer positive.le, ?_⟩
  rw [div_eq_one_iff_eq positive.ne', Nat.cast_inj]
  exact card_internalEdges_eq_iff

end Density

/-! ### The clusters -/

/-- The clusters are the components with notes enough, in the order of their size. -/
structure AreClusters (edges : List GraphEdge) (minimum : Nat) (clusters : List (List Text)) :
    Prop where
  exact : ∀ notes : Set Text, (∃ cluster ∈ clusters, { note | note ∈ cluster } = notes) ↔
    ∃ component : (linkGraph edges).ConnectedComponent,
      component.supp = notes ∧ minimum ≤ notes.ncard
  once : ∀ cluster ∈ clusters, cluster.Nodup
  disjoint : clusters.Pairwise List.Disjoint
  descending : clusters.Pairwise (fun left right => right.length ≤ left.length)
  density : ∀ cluster ∈ clusters,
    0 ≤ density edges cluster ∧ density edges cluster ≤ 1 ∧
      (density edges cluster = 1 ↔ ∀ left ∈ cluster, ∀ right ∈ cluster, left ≠ right →
        ∃ edge ∈ edges, Connects edge left right)

theorem sortedClusters_spec (iteration : SetOrder) (edges : List GraphEdge)
    (minClusterSize : Int) :
    ∃ clusters, sortedClusters iteration edges minClusterSize = some clusters ∧
      AreClusters edges (clampedClusterSize minClusterSize) clusters := by
  have undirected : ∀ {left right : Text},
      right ∈ iteratedNeighbors iteration (buildAdjacency edges) left →
        left ∈ iteratedNeighbors iteration (buildAdjacency edges) right := adjacency_symm
  have distinctKeys : ((buildAdjacency edges).map Prod.fst).Nodup :=
    (foldl_addNeighbor edges [] List.nodup_nil).1
  have plural := two_le_clampedClusterSize minClusterSize
  obtain ⟨found, searched, disjoint, sound, complete⟩ := Breadth.clusters_spec undirected
    distinctKeys adjacency_inside (clampedClusterSize minClusterSize)
  have sorted := List.mergeSort_perm found (fun left right => right.length ≤ left.length)
  refine ⟨found.mergeSort (fun left right => right.length ≤ left.length), ?_, ?_⟩
  · unfold sortedClusters
    dsimp only
    rw [searched, Option.map_some]
  · have collected : ∀ cluster ∈ found.mergeSort (fun left right => right.length ≤ left.length),
        clampedClusterSize minClusterSize ≤ cluster.length ∧ ∃ here, Breadth.IsComponent
          (iteratedNeighbors iteration (buildAdjacency edges)) here cluster :=
      fun cluster member => sound cluster (sorted.mem_iff.mp member)
    constructor
    · intro notes
      constructor
      · rintro ⟨cluster, member, same⟩
        obtain ⟨large, here, isComponent⟩ := collected cluster member
        refine ⟨(linkGraph edges).connectedComponentMk here, ?_, ?_⟩
        · rw [component_supp isComponent]
          exact same
        · rw [← same, ncard_cluster isComponent.distinct]
          exact large
      · rintro ⟨component, same, large⟩
        obtain ⟨here, isHere⟩ := component.exists_rep
        rw [← isHere] at same
        change ((linkGraph edges).connectedComponentMk here).supp = notes at same
        by_cases linked : here ∈ linkedNotes edges
        · obtain ⟨list, isList, kept⟩ := complete here (mem_adjacencyKeys.mpr linked)
          have listed : { note | note ∈ list } = notes := (component_supp isList).symm.trans same
          rw [← listed, ncard_cluster isList.distinct] at large
          obtain ⟨cluster, member, inCluster⟩ := kept large
          obtain ⟨_large, first, isCluster⟩ := sound cluster member
          have isHereToo := isCluster.of_reached undirected ((isCluster.members here).mp inCluster)
          exact ⟨cluster, sorted.mem_iff.mpr member,
            (component_supp isHereToo).symm.trans same⟩
        · -- a note without edges is alone, so its component is too small
          have alone : notes = {here} := by
            rw [← same]
            ext note
            rw [SimpleGraph.ConnectedComponent.mem_supp_iff, SimpleGraph.ConnectedComponent.eq,
              Set.mem_singleton_iff]
            constructor
            · exact fun reached => unlinked_reaches linked reached.symm
            · intro isNote
              rw [isNote]
          rw [alone, Set.ncard_singleton] at large
          omega
    · intro cluster member
      obtain ⟨_large, here, isComponent⟩ := collected cluster member
      exact isComponent.distinct
    · exact (sorted.pairwise_iff (fun apart => List.disjoint_symm apart)).mpr disjoint
    · have ordered := @List.pairwise_mergeSort (List Text)
        (fun left right => decide (right.length ≤ left.length))
        (fun first second third later latest => by
          rw [decide_eq_true_eq] at *
          exact latest.trans later)
        (fun first second => by
          rw [Bool.or_eq_true, decide_eq_true_eq, decide_eq_true_eq]
          exact Nat.le_total _ _) found
      exact ordered.imp (fun smaller => of_decide_eq_true smaller)
    · intro cluster member
      obtain ⟨large, here, isComponent⟩ := collected cluster member
      exact density_spec isComponent.distinct (plural.trans large)

/-- The search ends, and the report is made of the components. -/
theorem findLinkClusters_spec (iteration : SetOrder) (rounded : Rat → Rat)
    (payload : GraphPayload) (minClusterSize : Int) :
    ∃ clusters, sortedClusters iteration payload.edges minClusterSize = some clusters ∧
      findLinkClusters iteration rounded payload minClusterSize =
        some (clusterReport rounded payload clusters) ∧
      AreClusters payload.edges (clampedClusterSize minClusterSize) clusters := by
  obtain ⟨clusters, searched, areClusters⟩ :=
    sortedClusters_spec iteration payload.edges minClusterSize
  refine ⟨clusters, searched, ?_, areClusters⟩
  unfold findLinkClusters
  cases none : payload.edges.isEmpty with
  | true =>
      have empty : sortedClusters iteration [] minClusterSize = some [] := by
        unfold sortedClusters Breadth.clusters
        exact congrArg some List.mergeSort_nil
      rw [List.isEmpty_iff.mp none, empty] at searched
      rw [if_pos rfl, ← Option.some.inj searched]
      rfl
  | false => rw [if_neg Bool.false_ne_true, searched, Option.map_some]

end Graph

end VaultSearch
