/-
What holds during the search for articulation points.

The nodes on the stack are a way up from the node on top.  A node that has left the stack has no
undiscovered neighbour, so the neighbours of a new node are all on the stack: every edge joins a
node with one above it.  The low links of finished nodes tell which children a node cuts off.
-/

import VaultSearch.Graph.PalmForest
import VaultSearch.Server.BridgeNotes

set_option autoImplicit false

namespace VaultSearch

namespace Graph

namespace Search

variable {node : Type}

/-! ### Ways up -/

/-- Each node of the path is the parent of the one before it, and the last one is a root. -/
def Chained (parent : node → Option node) : List node → Prop
  | [] => True
  | here :: rest => parent here = rest.head? ∧ Chained parent rest

theorem Chained.climbs {parent : node → Option node} {top : node} {rest : List node}
    (chained : Chained parent (top :: rest)) :
    ∀ here ∈ top :: rest, Climbs parent top here := by
  induction rest generalizing top with
  | nil =>
      intro here member
      rw [List.mem_singleton.mp member]
      exact .refl
  | cons next rest ih =>
      intro here member
      cases List.mem_cons.mp member with
      | inl same =>
          rw [same]
          exact .refl
      | inr later => exact .head chained.1 (ih chained.2 here later)

theorem Chained.parent_mem {parent : node → Option node} {path : List node}
    (chained : Chained parent path) {below above : node} (member : below ∈ path)
    (up : parent below = some above) : above ∈ path := by
  induction path with
  | nil => cases member
  | cons here rest ih =>
      cases List.mem_cons.mp member with
      | inl same =>
          rw [same, chained.1] at up
          exact List.mem_cons_of_mem _ (List.mem_of_mem_head? up)
      | inr later => exact List.mem_cons_of_mem _ (ih chained.2 later)

theorem Chained.congr {parent parent' : node → Option node} {path : List node}
    (chained : Chained parent path) (same : ∀ here ∈ path, parent' here = parent here) :
    Chained parent' path := by
  induction path with
  | nil => trivial
  | cons here rest ih =>
      constructor
      · rw [same here List.mem_cons_self]
        exact chained.1
      · exact ih chained.2 (fun other member => same other (List.mem_cons_of_mem _ member))

theorem climbs_congr {parent parent' : node → Option node} {below above : node}
    (climbs : Climbs parent below above)
    (same : ∀ {here next}, parent here = some next → parent' here = some next) :
    Climbs parent' below above := by
  induction climbs with
  | refl => exact .refl
  | tail _earlier up ih => exact ih.tail (same up)

variable [DecidableEq node]

/-! ### Counting -/

theorem countP_changed {nodes : List node} (distinct : nodes.Nodup) {changed : node}
    (inside : changed ∈ nodes) {before after : node → Bool}
    (same : ∀ here, here ≠ changed → after here = before here)
    (was : before changed = false) (now : after changed = true) :
    nodes.countP after = nodes.countP before + 1 := by
  induction nodes with
  | nil => cases inside
  | cons head tail ih =>
      obtain ⟨fresh, distinctTail⟩ := List.nodup_cons.mp distinct
      by_cases atHead : head = changed
      · have unchanged : tail.countP after = tail.countP before := by
          apply List.countP_congr
          intro here member
          rw [same here (fun equal => fresh (atHead ▸ equal ▸ member))]
        rw [List.countP_cons, List.countP_cons, atHead, was, now, unchanged]
        rfl
      · have member := (List.mem_cons.mp inside).resolve_left (fun equal => atHead equal.symm)
        rw [List.countP_cons, List.countP_cons, same head atHead, ih distinctTail member]
        omega

/-! ### What holds during the search -/

variable (neighbors : node → List node) (nodes : List node)

/-- The neighbours are those of an undirected graph on the nodes. -/
structure Undirected : Prop where
  distinct : nodes.Nodup
  symm : ∀ {left right}, right ∈ neighbors left → left ∈ neighbors right
  inside : ∀ {left right}, right ∈ neighbors left → right ∈ nodes

variable (search : Search node)

def path : List node :=
  search.stack.map Prod.fst

/-- What the iterator of a node has not yet given. -/
def remaining (here : node) : List node :=
  (search.stack.lookup here).getD []

def Discovered (here : node) : Prop :=
  search.discovery here ≠ none

instance (here : node) : Decidable (search.Discovered here) :=
  inferInstanceAs (Decidable (_ ≠ _))

def Finished (here : node) : Prop :=
  search.Discovered here ∧ here ∉ search.path

instance (here : node) : Decidable (search.Finished here) :=
  inferInstanceAs (Decidable (_ ∧ _))

/-- Discovery times, parents and the stack. -/
structure Tree : Prop where
  chained : Chained search.parent search.path
  onPath : ∀ here ∈ search.path, search.Discovered here
  inside : ∀ {here}, search.Discovered here → here ∈ nodes
  fresh : ∀ {here}, ¬search.Discovered here → search.parent here = none
  up : ∀ {below above}, search.parent below = some above →
    search.Discovered above ∧ below ∈ neighbors above ∧ search.time above < search.time below
  clock : ∀ {here}, search.Discovered here → search.time here ≤ search.clock
  palm : ∀ {left right}, search.Discovered left → search.Discovered right →
    right ∈ neighbors left → Climbs search.parent left right ∨ Climbs search.parent right left

/-- What is known of the neighbours that have been looked at, and of the low links. -/
structure Scanned : Prop where
  scanned : ∀ {here}, search.Discovered here →
    ∃ done, neighbors here = done ++ search.remaining here ∧ ∀ there ∈ done,
      search.Discovered there ∧
        (search.parent here = some there ∨ search.low here ≤ search.time there)
  lowSelf : ∀ {here}, search.Discovered here → search.low here ≤ search.time here
  lowChild : ∀ {below above}, search.Finished below → search.parent below = some above →
    search.low above ≤ search.low below
  lowReached : ∀ {here}, search.Discovered here →
    ∃ below, search.Discovered below ∧ Climbs search.parent below here ∧
      (search.low here = search.time below ∨
        ∃ there ∈ neighbors below, search.Discovered there ∧
          search.low here = search.time there)

/-- A finished child that its parent, which is no root, cuts off. -/
def Separates (above child : node) : Prop :=
  search.parent child = some above ∧ search.parent above ≠ none ∧ search.Finished child ∧
    search.time above ≤ search.low child

instance (above child : node) : Decidable (search.Separates above child) :=
  inferInstanceAs (Decidable (_ ∧ _))

/-- What a finished node has for its score. -/
def impact (here : node) : Nat :=
  if search.parent here = none then search.childCount here - 1 else search.separatedCount here

structure Counted : Prop where
  children : ∀ here,
    search.childCount here = nodes.countP (fun child => search.parent child = some here)
  separated : ∀ here, search.separatedCount here = nodes.countP (fun child => search.Separates here child)
  scores : ∀ here value, search.articulationScores.lookup here = some value ↔
    search.Finished here ∧ value ≠ 0 ∧ value = search.impact here
  distinct : (search.articulationScores.map Prod.fst).Nodup

structure Invariant : Prop extends Tree neighbors nodes search, Scanned neighbors search,
  Counted nodes search

omit [DecidableEq node] in
theorem Tree.climbs_time {neighbors : node → List node} {nodes : List node}
    {search : Search node} (tree : Tree neighbors nodes search) {below above : node}
    (climbs : Climbs search.parent below above) : search.time above ≤ search.time below := by
  induction climbs with
  | refl => exact Nat.le_refl _
  | tail _earlier up ih => exact Nat.le_trans (Nat.le_of_lt (tree.up up).2.2) ih

section Frames

variable {search : Search node} {top here : node} {left : List node}
variable {rest : List (node × List node)}

theorem remaining_head (stacked : search.stack = (top, left) :: rest) :
    search.remaining top = left := by
  unfold remaining
  rw [stacked, OrderedDict.lookup_head]
  rfl

theorem remaining_tail (stacked : search.stack = (top, left) :: rest) (other : here ≠ top) :
    search.remaining here = (rest.lookup here).getD [] := by
  unfold remaining
  rw [stacked, OrderedDict.lookup_tail left rest other]

theorem remaining_absent (absent : here ∉ search.path) : search.remaining here = [] := by
  unfold remaining
  rw [OrderedDict.lookup_eq_none.mpr]
  · rfl
  · intro entry member same
    exact absent (same ▸ List.mem_map_of_mem member)

end Frames

/-! ### A node is discovered -/

section Discover

variable {neighbors : node → List node} {nodes : List node} {search : Search node}
variable {above : Option node} {fresh here : node}

theorem discovery_fresh :
    (discover neighbors search above fresh).discovery fresh = some (search.clock + 1) :=
  Function.update_self _ _ _

theorem discovery_other (other : here ≠ fresh) :
    (discover neighbors search above fresh).discovery here = search.discovery here :=
  Function.update_of_ne other _ _

theorem discovered_discover :
    (discover neighbors search above fresh).Discovered here ↔
      here = fresh ∨ search.Discovered here := by
  unfold Discovered
  by_cases same : here = fresh
  · rw [same, discovery_fresh]
    exact iff_of_true (Option.some_ne_none _) (Or.inl rfl)
  · rw [discovery_other same]
    exact (or_iff_right same).symm

theorem time_fresh : (discover neighbors search above fresh).time fresh = search.clock + 1 := by
  unfold time
  rw [discovery_fresh]
  rfl

theorem time_other (other : here ≠ fresh) :
    (discover neighbors search above fresh).time here = search.time here := by
  unfold time
  rw [discovery_other other]

theorem low_fresh : (discover neighbors search above fresh).low fresh = search.clock + 1 :=
  Function.update_self _ _ _

theorem low_other (other : here ≠ fresh) :
    (discover neighbors search above fresh).low here = search.low here :=
  Function.update_of_ne other _ _

theorem parent_fresh : (discover neighbors search above fresh).parent fresh = above :=
  Function.update_self _ _ _

theorem parent_other (other : here ≠ fresh) :
    (discover neighbors search above fresh).parent here = search.parent here :=
  Function.update_of_ne other _ _

omit [DecidableEq node] in
theorem Tree.discovered_of_parent (tree : Tree neighbors nodes search) {below higher : node}
    (up : search.parent below = some higher) : search.Discovered below := by
  by_contra undiscovered
  rw [tree.fresh undiscovered] at up
  cases up

/-- What was above a node stays above it. -/
theorem Tree.climbs_discover (tree : Tree neighbors nodes search)
    (new : ¬search.Discovered fresh) {below higher : node}
    (climbs : Climbs search.parent below higher) :
    Climbs (discover neighbors search above fresh).parent below higher := by
  apply climbs_congr climbs
  intro other next up
  rw [parent_other]
  · exact up
  · intro same
    exact new (same ▸ tree.discovered_of_parent up)

theorem Tree.discover (undirected : Undirected neighbors nodes)
    (tree : Tree neighbors nodes search)
    (closed : ∀ {done}, search.Finished done → ∀ there ∈ neighbors done, search.Discovered there)
    (new : ¬search.Discovered fresh) (inside : fresh ∈ nodes)
    (top : above = search.path.head?) (edge : ∀ higher, above = some higher →
      fresh ∈ neighbors higher) :
    Tree neighbors nodes (discover neighbors search above fresh) := by
  have apart : ∀ {old}, search.Discovered old → old ≠ fresh := by
    intro old discovered same
    exact new (same ▸ discovered)
  have chained : Chained (Search.discover neighbors search above fresh).parent
      (fresh :: search.path) := by
    constructor
    · rw [parent_fresh]
      exact top
    · apply tree.chained.congr
      intro old member
      exact parent_other (apart (tree.onPath old member))
  constructor
  · exact chained
  · intro old member
    rw [discovered_discover]
    cases List.mem_cons.mp member with
    | inl same => exact Or.inl same
    | inr later => exact Or.inr (tree.onPath old later)
  · intro old discovered
    cases discovered_discover.mp discovered with
    | inl same =>
        rw [same]
        exact inside
    | inr before => exact tree.inside before
  · intro old undiscovered
    rw [discovered_discover, not_or] at undiscovered
    rw [parent_other undiscovered.1]
    exact tree.fresh undiscovered.2
  · intro below higher up
    by_cases same : below = fresh
    · rw [same, parent_fresh] at up
      have onPath : higher ∈ search.path := List.mem_of_mem_head? (top.symm.trans up)
      have discovered := tree.onPath higher onPath
      rw [same, time_fresh, time_other (apart discovered), discovered_discover]
      exact ⟨Or.inr discovered, edge higher up, Nat.lt_succ_of_le (tree.clock discovered)⟩
    · rw [parent_other same] at up
      obtain ⟨discovered, adjacent, earlier⟩ := tree.up up
      rw [time_other same, time_other (apart discovered), discovered_discover]
      exact ⟨Or.inr discovered, adjacent, earlier⟩
  · intro old discovered
    cases discovered_discover.mp discovered with
    | inl same =>
        rw [same, time_fresh]
        exact Nat.le_refl _
    | inr before =>
        rw [time_other (apart before)]
        exact Nat.le_succ_of_le (tree.clock before)
  · -- a neighbour of the new node that was discovered before is on the stack
    have onPath : ∀ {old}, search.Discovered old → fresh ∈ neighbors old →
        Climbs (Search.discover neighbors search above fresh).parent fresh old := by
      intro old before adjacent
      by_cases member : old ∈ search.path
      · exact chained.climbs old (List.mem_cons_of_mem _ member)
      · exact absurd (closed ⟨before, member⟩ fresh adjacent) new
    intro left right discoveredLeft discoveredRight adjacent
    cases discovered_discover.mp discoveredLeft with
    | inl sameLeft =>
        cases discovered_discover.mp discoveredRight with
        | inl sameRight =>
            rw [sameLeft, sameRight]
            exact Or.inl .refl
        | inr beforeRight =>
            rw [sameLeft] at adjacent ⊢
            exact Or.inl (onPath beforeRight (undirected.symm adjacent))
    | inr beforeLeft =>
        cases discovered_discover.mp discoveredRight with
        | inl sameRight =>
            rw [sameRight] at adjacent ⊢
            exact Or.inr (onPath beforeLeft adjacent)
        | inr beforeRight =>
            cases tree.palm beforeLeft beforeRight adjacent with
            | inl climbs => exact Or.inl (tree.climbs_discover new climbs)
            | inr climbs => exact Or.inr (tree.climbs_discover new climbs)

/-- The scan of the neighbours, where the iterator of one node has just given the new node. -/
theorem Scanned.discover (tree : Tree neighbors nodes search)
    (scanned : ∀ {here}, search.Discovered here →
      ∃ done, neighbors here = done ++ search.remaining here ∧ ∀ there ∈ done, there = fresh ∨
        search.Discovered there ∧
          (search.parent here = some there ∨ search.low here ≤ search.time there))
    (lowSelf : ∀ {here}, search.Discovered here → search.low here ≤ search.time here)
    (lowChild : ∀ {below higher}, search.Finished below → search.parent below = some higher →
      search.low higher ≤ search.low below)
    (lowReached : ∀ {here}, search.Discovered here →
      ∃ below, search.Discovered below ∧ Climbs search.parent below here ∧
        (search.low here = search.time below ∨
          ∃ there ∈ neighbors below, search.Discovered there ∧
            search.low here = search.time there))
    (new : ¬search.Discovered fresh) :
    Scanned neighbors (discover neighbors search above fresh) := by
  have apart : ∀ {old}, search.Discovered old → old ≠ fresh := by
    intro old discovered same
    exact new (same ▸ discovered)
  constructor
  · intro old discovered
    cases discovered_discover.mp discovered with
    | inl same =>
        refine ⟨[], ?_, fun there impossible => absurd impossible List.not_mem_nil⟩
        rw [same, remaining_head rfl]
        rfl
    | inr before =>
        obtain ⟨done, split, looked⟩ := scanned before
        refine ⟨done, ?_, ?_⟩
        · rw [remaining_tail rfl (apart before)]
          exact split
        · intro there member
          rw [discovered_discover, parent_other (apart before), low_other (apart before)]
          cases looked there member with
          | inl same =>
              rw [same, time_fresh]
              have first := Nat.le_trans (lowSelf before) (tree.clock before)
              exact ⟨Or.inl rfl, Or.inr (Nat.le_succ_of_le first)⟩
          | inr known =>
              rw [time_other (apart known.1)]
              exact ⟨Or.inr known.1, known.2⟩
  · intro old discovered
    cases discovered_discover.mp discovered with
    | inl same => rw [same, low_fresh, time_fresh]
    | inr before =>
        rw [low_other (apart before), time_other (apart before)]
        exact lowSelf before
  · intro below higher finished up
    have other : below ≠ fresh := by
      intro same
      exact finished.2 (same ▸ List.mem_cons_self)
    have before : search.Discovered below :=
      (discovered_discover.mp finished.1).resolve_left other
    rw [parent_other other] at up
    rw [low_other other, low_other (apart (tree.up up).1)]
    exact lowChild ⟨before, fun member => finished.2 (List.mem_cons_of_mem _ member)⟩ up
  · intro old discovered
    cases discovered_discover.mp discovered with
    | inl same =>
        refine ⟨old, discovered, .refl, Or.inl ?_⟩
        rw [same, low_fresh, time_fresh]
    | inr before =>
        obtain ⟨below, discoveredBelow, climbs, reached⟩ := lowReached before
        refine ⟨below, discovered_discover.mpr (Or.inr discoveredBelow),
          tree.climbs_discover new climbs, ?_⟩
        rw [low_other (apart before), time_other (apart discoveredBelow)]
        cases reached with
        | inl itself => exact Or.inl itself
        | inr edge =>
            obtain ⟨there, adjacent, discoveredThere, same⟩ := edge
            refine Or.inr ⟨there, adjacent, discovered_discover.mpr (Or.inr discoveredThere), ?_⟩
            rw [time_other (apart discoveredThere)]
            exact same

theorem finished_discover (new : ¬search.Discovered fresh) :
    (discover neighbors search above fresh).Finished here ↔ search.Finished here := by
  constructor
  · intro finished
    have other : here ≠ fresh := by
      intro same
      exact finished.2 (same ▸ List.mem_cons_self)
    exact ⟨(discovered_discover.mp finished.1).resolve_left other,
      fun member => finished.2 (List.mem_cons_of_mem _ member)⟩
  · intro finished
    refine ⟨discovered_discover.mpr (Or.inr finished.1), ?_⟩
    intro member
    have among : here ∈ fresh :: search.path := member
    cases List.mem_cons.mp among with
    | inl same => exact new (same ▸ finished.1)
    | inr later => exact finished.2 later

/-- A new node is not finished, and nothing is below it. -/
theorem separates_discover (tree : Tree neighbors nodes search)
    (new : ¬search.Discovered fresh) (child : node) :
    (discover neighbors search above fresh).Separates here child ↔
      search.Separates here child := by
  unfold Separates
  rw [finished_discover new]
  by_cases finished : search.Finished child
  · have other : child ≠ fresh := fun same => new (same ▸ finished.1)
    rw [parent_other other, low_other other]
    apply and_congr_right
    intro up
    have higher : here ≠ fresh := fun same => new (same ▸ (tree.up up).1)
    rw [parent_other higher, time_other higher]
  · constructor
    · exact fun separated => absurd separated.2.2.1 finished
    · exact fun separated => absurd separated.2.2.1 finished

theorem Counted.discover (distinct : nodes.Nodup) (tree : Tree neighbors nodes search)
    (children : ∀ here, search.childCount here =
      nodes.countP (fun child => search.parent child = some here) +
        if above = some here then 1 else 0)
    (separated : ∀ here,
      search.separatedCount here = nodes.countP (fun child => search.Separates here child))
    (scores : ∀ here value, search.articulationScores.lookup here = some value ↔
      search.Finished here ∧ value ≠ 0 ∧ value = search.impact here)
    (distinctScores : (search.articulationScores.map Prod.fst).Nodup)
    (new : ¬search.Discovered fresh) (inside : fresh ∈ nodes) :
    Counted nodes (discover neighbors search above fresh) := by
  constructor
  · intro here
    change search.childCount here = _
    rw [children here]
    by_cases top : above = some here
    · rw [if_pos top]
      symm
      apply countP_changed distinct inside
      · intro child other
        rw [parent_other other]
      · rw [tree.fresh new]
        rfl
      · rw [parent_fresh, top]
        exact decide_eq_true rfl
    · rw [if_neg top, Nat.add_zero]
      apply List.countP_congr
      intro child _member
      by_cases same : child = fresh
      · rw [same, parent_fresh, tree.fresh new, decide_eq_true_iff, decide_eq_true_iff]
        exact iff_of_false nofun top
      · rw [parent_other same]
  · intro here
    change search.separatedCount here = _
    rw [separated here]
    apply List.countP_congr
    intro child _member
    rw [decide_eq_true_iff, decide_eq_true_iff, separates_discover tree new]
  · intro here value
    change search.articulationScores.lookup here = some value ↔ _
    rw [scores here value, finished_discover new]
    apply and_congr_right
    intro finished
    have other : here ≠ fresh := fun same => new (same ▸ finished.1)
    unfold impact
    rw [parent_other other]
    rfl
  · exact distinctScores

end Discover

/-! ### A neighbour is looked at -/

section Visit

variable {neighbors : node → List node} {nodes : List node} {search : Search node}
variable {nodeId neighbor here : node} {later : List node} {rest : List (node × List node)}

omit [DecidableEq node] in
theorem Tree.transfer (tree : Tree neighbors nodes search) {search' : Search node}
    (sameDiscovery : search'.discovery = search.discovery)
    (sameParent : search'.parent = search.parent) (sameClock : search'.clock = search.clock)
    (chained : Chained search.parent search'.path)
    (onPath : ∀ here ∈ search'.path, search.Discovered here) :
    Tree neighbors nodes search' := by
  obtain ⟨discovery, low, parent, childCount, separatedCount, scores, clock, stack⟩ := search'
  dsimp only at sameDiscovery sameParent sameClock
  subst sameDiscovery sameParent sameClock
  exact
    { chained
      onPath
      inside := tree.inside
      fresh := tree.fresh
      up := tree.up
      clock := tree.clock
      palm := tree.palm }

/-- A node that has left the stack has no undiscovered neighbour. -/
theorem Scanned.closed (scanned : Scanned neighbors search) {done : node}
    (finished : search.Finished done) : ∀ there ∈ neighbors done, search.Discovered there := by
  intro there adjacent
  obtain ⟨looked, split, known⟩ := scanned.scanned finished.1
  rw [remaining_absent finished.2, List.append_nil] at split
  rw [split] at adjacent
  exact (known there adjacent).1

omit [DecidableEq node] in
/-- The node on top is not also below. -/
theorem Tree.top_fresh (tree : Tree neighbors nodes search) {left : List node}
    (stacked : search.stack = (nodeId, left) :: rest) : nodeId ∉ rest.map Prod.fst := by
  intro member
  have chained : Chained search.parent (nodeId :: rest.map Prod.fst) := by
    have whole := tree.chained
    unfold path at whole
    rw [stacked] at whole
    exact whole
  cases below : rest.map Prod.fst with
  | nil =>
      rw [below] at member
      cases member
  | cons next others =>
      rw [below] at chained member
      have back := tree.climbs_time (chained.2.climbs nodeId member)
      have up := (tree.up chained.1).2.2
      omega

omit [DecidableEq node] in
theorem path_top {left : List node} (stacked : search.stack = (nodeId, left) :: rest) :
    search.path = nodeId :: rest.map Prod.fst := by
  unfold path
  rw [stacked]
  rfl

/-- The iterator of the node on top gives a neighbour. -/
theorem Scanned.next_mem (scanned : Scanned neighbors search)
    (tree : Tree neighbors nodes search)
    (stacked : search.stack = (nodeId, neighbor :: later) :: rest) :
    search.Discovered nodeId ∧ neighbor ∈ neighbors nodeId := by
  have discovered : search.Discovered nodeId := by
    apply tree.onPath
    rw [path_top stacked]
    exact List.mem_cons_self
  obtain ⟨done, split, _known⟩ := scanned.scanned discovered
  rw [remaining_head stacked] at split
  refine ⟨discovered, ?_⟩
  rw [split]
  exact List.mem_append_right _ List.mem_cons_self

/-- The neighbours that have been looked at, one more for the node on top. -/
theorem Scanned.advance (scanned : Scanned neighbors search)
    (stacked : search.stack = (nodeId, neighbor :: later) :: rest) {advanced : Search node}
    (restacked : advanced.stack = (nodeId, later) :: rest) (discovered : search.Discovered here) :
    ∃ done, neighbors here = done ++ advanced.remaining here ∧ ∀ there ∈ done,
      here = nodeId ∧ there = neighbor ∨
        search.Discovered there ∧
          (search.parent here = some there ∨ search.low here ≤ search.time there) := by
  obtain ⟨done, split, known⟩ := scanned.scanned discovered
  by_cases top : here = nodeId
  · refine ⟨done ++ [neighbor], ?_, ?_⟩
    · rw [top, remaining_head stacked] at split
      rw [top, remaining_head restacked, List.append_assoc]
      exact split
    · intro there member
      cases List.mem_append.mp member with
      | inl earlier => exact Or.inr (known there earlier)
      | inr last => exact Or.inl ⟨top, List.mem_singleton.mp last⟩
  · refine ⟨done, ?_, fun there member => Or.inr (known there member)⟩
    rw [remaining_tail restacked top, ← remaining_tail stacked top]
    exact split

theorem Invariant.visit_new (undirected : Undirected neighbors nodes)
    (invariant : Invariant neighbors nodes search)
    (stacked : search.stack = (nodeId, neighbor :: later) :: rest)
    (new : ¬search.Discovered neighbor) :
    Invariant neighbors nodes
      (discover neighbors
        { search with
          stack := (nodeId, later) :: rest
          childCount := Function.update search.childCount nodeId (search.childCount nodeId + 1) }
        (some nodeId) neighbor) := by
  generalize made : ({ search with
      stack := (nodeId, later) :: rest
      childCount := Function.update search.childCount nodeId (search.childCount nodeId + 1) } :
        Search node) = advanced
  have samePath : advanced.path = search.path := by
    rw [← made, path_top stacked]
    rfl
  have sameFinished : ∀ done, advanced.Finished done ↔ search.Finished done := by
    intro done
    unfold Finished
    rw [samePath, ← made]
    rfl
  obtain ⟨discovered, adjacent⟩ := invariant.toScanned.next_mem invariant.toTree stacked
  have tree : Tree neighbors nodes advanced := by
    apply invariant.toTree.transfer
    · rw [← made]
    · rw [← made]
    · rw [← made]
    · rw [samePath]
      exact invariant.chained
    · rw [samePath]
      exact invariant.onPath
  have newHere : ¬advanced.Discovered neighbor := by
    rw [← made]
    exact new
  constructor
  · apply Tree.discover undirected tree
    · intro done finished there member
      have known := invariant.toScanned.closed ((sameFinished done).mp finished) there member
      rw [← made]
      exact known
    · exact newHere
    · exact undirected.inside adjacent
    · rw [samePath, path_top stacked]
      rfl
    · intro higher same
      rw [← Option.some.inj same]
      exact adjacent
  · apply Scanned.discover tree
    · intro old before
      have before' : search.Discovered old := by
        rw [← made] at before
        exact before
      obtain ⟨done, split, looked⟩ := invariant.toScanned.advance stacked
        (show advanced.stack = (nodeId, later) :: rest by rw [← made]) before'
      refine ⟨done, split, ?_⟩
      intro there member
      cases looked there member with
      | inl last => exact Or.inl last.2
      | inr known =>
          rw [← made]
          exact Or.inr known
    · rw [← made]
      exact invariant.lowSelf
    · intro below higher finished up
      have finished' := (sameFinished below).mp finished
      rw [← made] at up ⊢
      exact invariant.lowChild finished' up
    · rw [← made]
      exact invariant.lowReached
    · exact newHere
  · apply Counted.discover undirected.distinct tree
    · intro here
      have count := invariant.children here
      rw [← made]
      by_cases top : nodeId = here
      · rw [if_pos (congrArg some top), top, ← count]
        exact Function.update_self _ _ _
      · rw [if_neg (fun same => top (Option.some.inj same)), Nat.add_zero]
        exact (Function.update_of_ne (fun same => top same.symm) _ _).trans count
    · intro here
      have count := invariant.separated here
      have same : advanced.separatedCount here = search.separatedCount here := by rw [← made]
      rw [same, count]
      apply List.countP_congr
      intro child _member
      rw [decide_eq_true_iff, decide_eq_true_iff]
      unfold Separates
      rw [sameFinished, ← made]
      rfl
    · intro here value
      have sameScores : advanced.articulationScores = search.articulationScores := by rw [← made]
      rw [sameFinished, sameScores, invariant.scores here value]
      apply and_congr_right
      intro finished
      have other : here ≠ nodeId := by
        intro same
        apply finished.2
        rw [same, path_top stacked]
        exact List.mem_cons_self
      have sameImpact : advanced.impact here = search.impact here := by
        unfold impact
        rw [← made]
        dsimp only
        rw [Function.update_of_ne other]
      rw [sameImpact]
    · rw [← made]
      exact invariant.distinct
    · exact newHere
    · exact undirected.inside adjacent

/-- A neighbour that was discovered before lowers the low link of the node on top, unless it is
its parent. -/
theorem Invariant.visit_known (invariant : Invariant neighbors nodes search)
    (stacked : search.stack = (nodeId, neighbor :: later) :: rest)
    (known : search.Discovered neighbor) {lowered : Search node}
    (made : lowered = { search with stack := (nodeId, later) :: rest, low := lowered.low })
    (lowOther : ∀ {here}, here ≠ nodeId → lowered.low here = search.low here)
    (lowTop : lowered.low nodeId = search.low nodeId ∨
      lowered.low nodeId = search.time neighbor)
    (lower : lowered.low nodeId ≤ search.low nodeId)
    (reached : search.parent nodeId = some neighbor ∨
      lowered.low nodeId ≤ search.time neighbor) :
    Invariant neighbors nodes lowered := by
  obtain ⟨discovered, adjacent⟩ := invariant.toScanned.next_mem invariant.toTree stacked
  have samePath : lowered.path = search.path := by
    rw [made, path_top stacked]
    rfl
  have sameParent : lowered.parent = search.parent := by rw [made]
  have sameTime : ∀ here, lowered.time here = search.time here := by
    intro here
    rw [made]
    rfl
  have sameDiscovered : ∀ here, lowered.Discovered here ↔ search.Discovered here := by
    intro here
    rw [made]
    rfl
  have sameFinished : ∀ here, lowered.Finished here ↔ search.Finished here := by
    intro here
    unfold Finished
    rw [samePath, sameDiscovered]
  have lowFinished : ∀ {here}, search.Finished here → lowered.low here = search.low here := by
    intro here finished
    apply lowOther
    intro same
    apply finished.2
    rw [same, path_top stacked]
    exact List.mem_cons_self
  have lowLe : ∀ here, lowered.low here ≤ search.low here := by
    intro here
    by_cases top : here = nodeId
    · rw [top]
      exact lower
    · exact Nat.le_of_eq (lowOther top)
  constructor
  · apply invariant.toTree.transfer
    · rw [made]
    · exact sameParent
    · rw [made]
    · rw [samePath]
      exact invariant.chained
    · rw [samePath]
      exact invariant.onPath
  · constructor
    · intro here before
      obtain ⟨done, split, looked⟩ := invariant.toScanned.advance stacked
        (show lowered.stack = (nodeId, later) :: rest by rw [made])
        ((sameDiscovered here).mp before)
      refine ⟨done, split, ?_⟩
      intro there member
      rw [sameDiscovered, sameParent, sameTime]
      cases looked there member with
      | inl last =>
          rw [last.1, last.2]
          exact ⟨known, reached⟩
      | inr earlier =>
          refine ⟨earlier.1, ?_⟩
          cases earlier.2 with
          | inl up => exact Or.inl up
          | inr low => exact Or.inr (Nat.le_trans (lowLe here) low)
    · intro here before
      rw [sameTime]
      exact Nat.le_trans (lowLe here) (invariant.lowSelf ((sameDiscovered here).mp before))
    · intro below higher finished up
      rw [sameFinished] at finished
      rw [sameParent] at up
      rw [lowFinished finished]
      exact Nat.le_trans (lowLe higher) (invariant.lowChild finished up)
    · intro here before
      rw [sameDiscovered] at before
      by_cases moved : here = nodeId ∧ lowered.low nodeId = search.time neighbor
      · rw [moved.1, sameParent]
        refine ⟨nodeId, (sameDiscovered nodeId).mpr discovered, .refl, Or.inr ⟨neighbor, adjacent,
          (sameDiscovered neighbor).mpr known, ?_⟩⟩
        rw [sameTime]
        exact moved.2
      · have same : lowered.low here = search.low here := by
          by_cases top : here = nodeId
          · rw [top]
            exact lowTop.resolve_right (fun moves => moved ⟨top, moves⟩)
          · exact lowOther top
        obtain ⟨below, discoveredBelow, climbs, ends⟩ := invariant.lowReached before
        rw [same, sameParent]
        refine ⟨below, (sameDiscovered below).mpr discoveredBelow, climbs, ?_⟩
        cases ends with
        | inl itself =>
            rw [sameTime]
            exact Or.inl itself
        | inr edge =>
            obtain ⟨there, edge, discoveredThere, equal⟩ := edge
            refine Or.inr ⟨there, edge, (sameDiscovered there).mpr discoveredThere, ?_⟩
            rw [sameTime]
            exact equal
  · constructor
    · intro here
      have same : lowered.childCount here = search.childCount here := by rw [made]
      rw [same, sameParent]
      exact invariant.children here
    · intro here
      have same : lowered.separatedCount here = search.separatedCount here := by rw [made]
      rw [same, invariant.separated here]
      apply List.countP_congr
      intro child _member
      rw [decide_eq_true_iff, decide_eq_true_iff]
      unfold Separates
      rw [sameFinished, sameParent, sameTime]
      apply and_congr_right
      intro _up
      apply and_congr_right
      intro _inner
      apply and_congr_right
      intro finished
      rw [lowFinished finished]
    · intro here value
      have sameScores : lowered.articulationScores = search.articulationScores := by rw [made]
      have sameImpact : lowered.impact here = search.impact here := by
        rw [made]
        rfl
      rw [sameFinished, sameScores, sameImpact]
      exact invariant.scores here value
    · have sameScores : lowered.articulationScores = search.articulationScores := by rw [made]
      rw [sameScores]
      exact invariant.distinct

theorem Invariant.visit (undirected : Undirected neighbors nodes)
    (invariant : Invariant neighbors nodes search)
    (stacked : search.stack = (nodeId, neighbor :: later) :: rest) :
    Invariant neighbors nodes
      (visit neighbors { search with stack := (nodeId, later) :: rest } nodeId neighbor) := by
  unfold Search.visit
  by_cases new : search.discovery neighbor = none
  · rw [if_pos new]
    have visited := invariant.visit_new undirected stacked (fun discovered => discovered new)
    exact visited
  · rw [if_neg new]
    by_cases other : search.parent nodeId ≠ some neighbor
    · rw [if_pos other]
      apply invariant.visit_known stacked new rfl
      · intro here apart
        exact Function.update_of_ne apart _ _
      · dsimp only
        rw [Function.update_self]
        cases Nat.le_total (search.low nodeId) (search.time neighbor) with
        | inl first => exact Or.inl (Nat.min_eq_left first)
        | inr second => exact Or.inr (Nat.min_eq_right second)
      · dsimp only
        rw [Function.update_self]
        exact Nat.min_le_left _ _
      · dsimp only
        rw [Function.update_self]
        exact Or.inr (Nat.min_le_right _ _)
    · rw [if_neg other]
      exact invariant.visit_known stacked new rfl (fun _apart => rfl) (Or.inl rfl)
        (Nat.le_refl _) (Or.inl (not_not.mp other))

end Visit

end Search

end Graph

end VaultSearch
