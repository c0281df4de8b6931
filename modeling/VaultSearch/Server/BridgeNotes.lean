/-
`find_bridge_notes` of `server/graph_tools.py`: the search for articulation points with
discovery times and low links, and the list that is made of their scores.

The nodes of the search are left abstract; the tool runs it on the paths of notes.
-/

import Mathlib.Logic.Function.Basic
import VaultSearch.Store.OrderedDict
import VaultSearch.Text.Basic

set_option autoImplicit false

namespace VaultSearch

namespace Graph

/-! ### The search -/

/-- The dictionaries of the search, its clock and its stack; a frame holds a node and the
neighbours that its iterator has not yet given. -/
structure Search (node : Type) where
  discovery : node → Option Nat := fun _ => none
  low : node → Nat := fun _ => 0
  parent : node → Option node := fun _ => none
  childCount : node → Nat := fun _ => 0
  separatedCount : node → Nat := fun _ => 0
  articulationScores : List (node × Nat) := []
  clock : Nat := 0
  stack : List (node × List node) := []

namespace Search

variable {node : Type} [DecidableEq node]

def time (search : Search node) (here : node) : Nat :=
  (search.discovery here).getD 0

/-- A node that is seen for the first time goes on the stack. -/
def discover (neighbors : node → List node) (search : Search node) (above : Option node)
    (here : node) : Search node :=
  { search with
    parent := Function.update search.parent here above
    clock := search.clock + 1
    discovery := Function.update search.discovery here (some (search.clock + 1))
    low := Function.update search.low here (search.clock + 1)
    stack := (here, neighbors here) :: search.stack }

/-- The next neighbour of the node on top. -/
def visit (neighbors : node → List node) (search : Search node) (nodeId neighbor : node) :
    Search node :=
  if search.discovery neighbor = none then
    discover neighbors
      { search with
        childCount := Function.update search.childCount nodeId (search.childCount nodeId + 1) }
      (some nodeId) neighbor
  else if search.parent nodeId ≠ some neighbor then
    { search with
      low := Function.update search.low nodeId
        (min (search.low nodeId) (search.time neighbor)) }
  else search

/-- `articulation_scores[node_id] = score`, where there is one. -/
def score (search : Search node) (nodeId : node) (value : Nat) : Search node :=
  if value = 0 then search
  else
    { search with
      articulationScores := OrderedDict.set search.articulationScores nodeId value }

/-- The node on top has no further neighbours: its parent learns of its low link. -/
def leave (search : Search node) (nodeId : node) : Search node :=
  match search.parent nodeId with
  | none => search.score nodeId (search.childCount nodeId - 1)
  | some parentId =>
      let separated : Bool := (search.parent parentId).isSome &&
        search.time parentId ≤ search.low nodeId
      let reported : Search node :=
        { search with
          low := Function.update search.low parentId
            (min (search.low parentId) (search.low nodeId))
          separatedCount :=
            if separated then
              Function.update search.separatedCount parentId (search.separatedCount parentId + 1)
            else search.separatedCount }
      reported.score nodeId (reported.separatedCount nodeId)

/-- One turn of the inner loop. -/
def step (neighbors : node → List node) (search : Search node) : Search node :=
  match search.stack with
  | [] => search
  | (nodeId, []) :: rest => leave { search with stack := rest } nodeId
  | (nodeId, neighbor :: later) :: rest =>
      visit neighbors { search with stack := (nodeId, later) :: rest } nodeId neighbor

/-- `while stack`, for so many turns at most. -/
def drain (neighbors : node → List node) : Nat → Search node → Search node
  | 0, search => search
  | fuel + 1, search =>
      if search.stack.isEmpty then search else drain neighbors fuel (step neighbors search)

/-- One turn of the outer loop. -/
def searchFrom (neighbors : node → List node) (fuel : Nat) (search : Search node) (root : node) :
    Search node :=
  if search.discovery root = none then
    drain neighbors fuel (discover neighbors search none root)
  else search

/-- There is a turn for each node that is popped and one for each neighbour. -/
def turns (neighbors : node → List node) (nodes : List node) : Nat :=
  (nodes.map (fun here => (neighbors here).length + 1)).sum

def searchAll (neighbors : node → List node) (nodes : List node) : Search node :=
  nodes.foldl (searchFrom neighbors (turns neighbors nodes)) {}

end Search

/-! ### The tool -/

structure GraphNode where
  id : Text
  label : Text
  outlinks : Nat
  backlinks : Nat

structure GraphEdge where
  source : Text
  target : Text
  deriving DecidableEq

/-- The nodes and edges of what `graph_data` returns. -/
structure GraphPayload where
  nodes : List GraphNode
  edges : List GraphEdge

/-- `adjacency[source].add(target)` -/
def addNeighbor (adjacency : List (Text × List Text)) (source target : Text) :
    List (Text × List Text) :=
  let known := (adjacency.lookup source).getD []
  OrderedDict.set adjacency source (if known.contains target then known else known ++ [target])

def buildAdjacency (edges : List GraphEdge) : List (Text × List Text) :=
  edges.foldl (fun adjacency edge =>
    addNeighbor (addNeighbor adjacency edge.source edge.target) edge.target edge.source) []

/-- `left <= right` of texts, by code points -/
def textLe : Text → Text → Bool
  | [], _ => true
  | _ :: _, [] => false
  | first :: left, second :: right =>
      first.toNat < second.toNat || (first.toNat == second.toNat && textLe left right)

/-- `sorted` of texts -/
def sortTexts (texts : List Text) : List Text :=
  texts.mergeSort textLe

/-- `sorted(adjacency[note])` -/
def neighborsOf (adjacency : List (Text × List Text)) (note : Text) : List Text :=
  sortTexts ((adjacency.lookup note).getD [])

/-- The scores of the articulation points. -/
def articulationScores (edges : List GraphEdge) : List (Text × Nat) :=
  let adjacency := buildAdjacency edges
  (Search.searchAll (neighborsOf adjacency)
    (sortTexts (adjacency.map Prod.fst))).articulationScores

/-- Bridge notes in the order of their impact, before the limit. -/
def rankedBridges (edges : List GraphEdge) : List (Text × Nat) :=
  (articulationScores edges).mergeSort (fun left right =>
    right.2 < left.2 || (left.2 == right.2 && textLe left.1 right.1))

structure BridgeNote where
  path : Text
  title : Text
  bridgeScore : Nat
  separatedBranches : Nat
  connections : Nat
  deriving DecidableEq

structure BridgeReport where
  totalBridgeNotes : Nat := 0
  returnedNotes : Nat := 0
  hasMore : Bool := false
  notes : List BridgeNote := []
  deriving DecidableEq

/-- `node_map.get(path, ..).get("label", path)`; the last node of an id stays in the map. -/
def bridgeTitle (nodes : List GraphNode) (path : Text) : Text :=
  ((nodes.reverse.find? (fun note => note.id = path)).map GraphNode.label).getD path

def bridgeNote (payload : GraphPayload) (ranked : Text × Nat) : BridgeNote :=
  { path := ranked.1
    title := bridgeTitle payload.nodes ranked.1
    bridgeScore := ranked.2
    separatedBranches := ranked.2
    connections := (((buildAdjacency payload.edges).lookup ranked.1).getD []).length }

/-- The report on the graph that `graph_data` returned. -/
def findBridgeNotes (payload : GraphPayload) (limit : Int) : BridgeReport :=
  if payload.edges.isEmpty then {}
  else
    let ranked := rankedBridges payload.edges
    let notes := (ranked.take (max 1 (min limit 100)).toNat).map (bridgeNote payload)
    { totalBridgeNotes := ranked.length
      returnedNotes := notes.length
      hasMore := notes.length < ranked.length
      notes }

end Graph

end VaultSearch
