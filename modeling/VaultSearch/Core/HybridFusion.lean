/-
Reciprocal rank fusion, `_fuse_hybrid_results` of `core/searcher.py`.

Each row adds the reciprocal of its rank to the entry of its key, so a key that stands several
times in one list gathers the reciprocals of all its ranks there.
-/

import Mathlib.Algebra.BigOperators.Group.List.Basic
import Mathlib.Algebra.Field.Rat
import Mathlib.Algebra.Order.BigOperators.Group.List
import Mathlib.Algebra.Order.Field.Basic
import Mathlib.Algebra.Order.Ring.Rat
import Mathlib.Data.Prod.Lex
import Mathlib.Tactic.Linarith
import Mathlib.Tactic.Positivity
import VaultSearch.Store.OrderedDict
import VaultSearch.Store.Ranking
import VaultSearch.Text.Basic

set_option autoImplicit false

namespace VaultSearch

/-- A row of a search; the columns that fusion only carries along are left open. -/
structure SearchRow (columns : Type) where
  notePath : Option Text
  text : Option Text
  rest : columns
  hybridScore : Option Rat := none

abbrev FusionKey := Text × Text

def SearchRow.key {columns : Type} (row : SearchRow columns) : FusionKey :=
  (row.notePath.getD [], row.text.getD [])

/-- `_FusedEntry` -/
structure FusedEntry (columns : Type) where
  row : SearchRow columns
  score : Rat
  bestRank : Nat
  order : Nat

def hybridRrfK : Nat := 60

def reciprocalRank (rank : Nat) : Rat :=
  1 / (hybridRrfK + rank : Nat)

/-- The variables of the two loops. -/
structure FusionScan (columns : Type) where
  fused : List (FusionKey × FusedEntry columns) := []
  insertionOrder : Nat := 0

section Code

variable {columns : Type}

/-- The entry of a key, a new one for a new key. -/
def FusionScan.entry (scan : FusionScan columns) (row : SearchRow columns) (rank : Nat) :
    FusedEntry columns :=
  (scan.fused.lookup row.key).getD
    { row, score := 0, bestRank := rank, order := scan.insertionOrder }

def FusionScan.add (scan : FusionScan columns) (ranked : SearchRow columns × Nat) :
    FusionScan columns :=
  let (row, rank) := ranked
  let entry := scan.entry row rank
  { fused := OrderedDict.set scan.fused row.key
      { entry with
        score := entry.score + reciprocalRank rank
        bestRank := min entry.bestRank rank }
    insertionOrder :=
      if (scan.fused.lookup row.key).isSome then scan.insertionOrder
      else scan.insertionOrder + 1 }

/-- The key of the sort. -/
def FusedEntry.standing (entry : FusedEntry columns) : Rat ×ₗ Nat ×ₗ Nat :=
  toLex (-entry.score, toLex (entry.bestRank, entry.order))

/-- `enumerate(results, start=1)` for one list after the other. -/
def rankedRows (lists : List (List (SearchRow columns))) : List (SearchRow columns × Nat) :=
  lists.flatMap (fun results => results.zipIdx 1)

/-- `rounded` is `round(score, SCORE_PRECISION)`. -/
def fuseHybridResults (rounded : Rat → Rat) (vectorResults ftsResults : List (SearchRow columns))
    (limit : Int) : List (SearchRow columns) :=
  if limit ≤ 0 then []
  else
    let scan := (rankedRows [vectorResults, ftsResults]).foldl FusionScan.add {}
    let ranked := Ranking.sortBy FusedEntry.standing (scan.fused.map Prod.snd)
    (ranked.take limit.toNat).map (fun entry =>
      { entry.row with hybridScore := some (rounded entry.score) })

end Code

/-! ### The two scores of a key -/

section Scores

variable {columns : Type} (lists : List (List (SearchRow columns))) (key : FusionKey)

/-- The ranks at which a key stands in one list. -/
def ranksIn (results : List (SearchRow columns)) : List Nat :=
  ((results.zipIdx 1).filter (fun ranked => ranked.1.key == key)).map Prod.snd

def repeated (results : List (SearchRow columns)) : Prop :=
  1 < (ranksIn key results).length

/-- The reciprocal of the best rank in one list. -/
def bestIn (results : List (SearchRow columns)) : Rat :=
  ((ranksIn key results).min?.map reciprocalRank).getD 0

/-- The sum over the lists of the reciprocal of the best rank. -/
def rrfScore : Rat :=
  (lists.map (bestIn key)).sum

/-- The sum over all rows with the key. -/
def gatheredScore : Rat :=
  (lists.map (fun results => ((ranksIn key results).map reciprocalRank).sum)).sum

/-- The keys in the order in which they turn up. -/
def fusionKeys : List FusionKey :=
  (lists.flatten.map SearchRow.key).eraseDups

/-- A key stands before another with a lower gathered score, with equal scores before one with
a worse best rank, and else before one that turns up later. -/
def fusionStanding : Rat ×ₗ Nat ×ₗ Nat :=
  toLex (-gatheredScore lists key,
    toLex (((lists.flatMap (ranksIn key)).min?).getD 0, (fusionKeys lists).idxOf key))

/-- How many keys stand before a key. -/
def keysBefore : Nat :=
  (fusionKeys lists).countP (fun other => fusionStanding lists other < fusionStanding lists key)

end Scores

/-! ### What the loops gather -/

section Gathered

variable {columns : Type}

def keysOf (ranked : List (SearchRow columns × Nat)) : List FusionKey :=
  (ranked.map (fun entry => entry.1.key)).eraseDups

def ranksOf (key : FusionKey) (ranked : List (SearchRow columns × Nat)) : List Nat :=
  (ranked.filter (fun entry => entry.1.key == key)).map Prod.snd

theorem keysOf_concat (ranked : List (SearchRow columns × Nat)) (row : SearchRow columns)
    (rank : Nat) :
    keysOf (ranked ++ [(row, rank)]) =
      if row.key ∈ keysOf ranked then keysOf ranked else keysOf ranked ++ [row.key] := by
  have listed : row.key ∈ keysOf ranked ↔ row.key ∈ ranked.map (fun entry => entry.1.key) :=
    List.mem_eraseDups
  have split : keysOf (ranked ++ [(row, rank)]) =
      keysOf ranked ++ ([row.key].removeAll (ranked.map (fun entry => entry.1.key))).eraseDups := by
    unfold keysOf
    rw [List.map_append, List.eraseDups_append]
    rfl
  rw [split]
  by_cases known : row.key ∈ keysOf ranked
  · rw [if_pos known]
    rw [listed] at known
    simp only [List.removeAll, List.filter, List.elem_eq_mem, known]
    exact List.append_nil _
  · rw [if_neg known]
    rw [listed] at known
    simp only [List.removeAll, List.filter, List.elem_eq_mem, known]
    rfl

theorem nodup_keysOf (ranked : List (SearchRow columns × Nat)) : (keysOf ranked).Nodup := by
  induction ranked using List.reverseRecOn with
  | nil => exact List.nodup_nil
  | append_singleton ranked last ih =>
      rw [keysOf_concat]
      by_cases known : last.1.key ∈ keysOf ranked
      · rw [if_pos known]
        exact ih
      · rw [if_neg known]
        rw [← List.concat_eq_append]
        exact (List.nodup_concat _ _).mpr ⟨known, ih⟩

theorem ranksOf_concat (key : FusionKey) (ranked : List (SearchRow columns × Nat))
    (row : SearchRow columns) (rank : Nat) :
    ranksOf key (ranked ++ [(row, rank)]) =
      if row.key = key then ranksOf key ranked ++ [rank] else ranksOf key ranked := by
  unfold ranksOf
  rw [List.filter_append, List.map_append]
  by_cases same : row.key = key
  · rw [if_pos same]
    simp [same]
  · rw [if_neg same]
    simp [same]

theorem ranksOf_eq_nil {key : FusionKey} {ranked : List (SearchRow columns × Nat)}
    (missing : key ∉ keysOf ranked) : ranksOf key ranked = [] := by
  unfold ranksOf
  rw [List.map_eq_nil_iff, List.filter_eq_nil_iff]
  intro entry member same
  apply missing
  unfold keysOf
  rw [List.mem_eraseDups, ← eq_of_beq same]
  exact List.mem_map_of_mem member

/-- The entry of a key after these rows. -/
structure Gathers (ranked : List (SearchRow columns × Nat)) (key : FusionKey)
    (entry : FusedEntry columns) : Prop where
  row : entry.row.key = key
  score : entry.score = ((ranksOf key ranked).map reciprocalRank).sum
  bestRank : (ranksOf key ranked).min? = some entry.bestRank
  order : entry.order = (keysOf ranked).idxOf key

structure FusionScan.Describes (scan : FusionScan columns)
    (ranked : List (SearchRow columns × Nat)) : Prop where
  keys : scan.fused.map Prod.fst = keysOf ranked
  counted : scan.insertionOrder = scan.fused.length
  entries : ∀ key entry, scan.fused.lookup key = some entry → Gathers ranked key entry

variable {scan : FusionScan columns} {ranked : List (SearchRow columns × Nat)}

theorem FusionScan.Describes.mem_iff (describes : scan.Describes ranked) (key : FusionKey) :
    key ∈ keysOf ranked ↔ (scan.fused.lookup key).isSome = true := by
  rw [OrderedDict.lookup_isSome, ← describes.keys, List.mem_map]

/-- The entry of another key is as before. -/
theorem Gathers.concat_other {key : FusionKey} {entry : FusedEntry columns}
    (gathers : Gathers ranked key entry) (known : key ∈ keysOf ranked) {row : SearchRow columns}
    (apart : row.key ≠ key) (rank : Nat) : Gathers (ranked ++ [(row, rank)]) key entry := by
  have same : ranksOf key (ranked ++ [(row, rank)]) = ranksOf key ranked := by
    rw [ranksOf_concat, if_neg apart]
  constructor
  · exact gathers.row
  · rw [same]
    exact gathers.score
  · rw [same]
    exact gathers.bestRank
  · rw [keysOf_concat, gathers.order]
    split
    · rfl
    · exact (List.idxOf_append_of_mem known).symm

theorem min?_concat (ranks : List Nat) (rank : Nat) :
    (ranks ++ [rank]).min? = some (ranks.min?.elim rank (fun best => min best rank)) := by
  cases ranks with
  | nil => rfl
  | cons head tail =>
      rw [List.cons_append, List.min?_cons', List.min?_cons', List.foldl_append]
      rfl

/-- The entry that a row leaves under its key. -/
theorem FusionScan.Describes.gathers_add (describes : scan.Describes ranked)
    (row : SearchRow columns) (rank : Nat) :
    Gathers (ranked ++ [(row, rank)]) row.key
      { scan.entry row rank with
        score := (scan.entry row rank).score + reciprocalRank rank
        bestRank := min (scan.entry row rank).bestRank rank } := by
  have ranks : ranksOf row.key (ranked ++ [(row, rank)]) = ranksOf row.key ranked ++ [rank] := by
    rw [ranksOf_concat, if_pos rfl]
  cases found : scan.fused.lookup row.key with
  | some entry =>
      have known : row.key ∈ keysOf ranked := by
        rw [describes.mem_iff, found]
        rfl
      have gathers := describes.entries row.key entry found
      rw [FusionScan.entry, found, Option.getD_some]
      constructor
      · exact gathers.row
      · rw [ranks, List.map_append, List.sum_append, gathers.score]
        simp
      · rw [ranks, min?_concat, gathers.bestRank]
        rfl
      · rw [keysOf_concat, if_pos known]
        exact gathers.order
  | none =>
      have missing : row.key ∉ keysOf ranked := by
        rw [describes.mem_iff, found]
        exact Bool.false_ne_true
      rw [FusionScan.entry, found, Option.getD_none]
      constructor
      · rfl
      · rw [ranks, ranksOf_eq_nil missing]
        simp
      · rw [ranks, ranksOf_eq_nil missing]
        exact congrArg some (Nat.min_self rank).symm
      · have size : scan.fused.length = (keysOf ranked).length := by
          rw [← describes.keys, List.length_map]
        rw [keysOf_concat, if_neg missing, List.idxOf_append_of_notMem missing,
          List.idxOf_cons_self, Nat.add_zero, ← size]
        exact describes.counted

theorem FusionScan.Describes.add (describes : scan.Describes ranked) (row : SearchRow columns)
    (rank : Nat) : (scan.add (row, rank)).Describes (ranked ++ [(row, rank)]) := by
  have present : scan.fused.any (fun entry => entry.1 == row.key) =
      (scan.fused.lookup row.key).isSome := by
    rw [Bool.eq_iff_iff, List.any_eq_true, OrderedDict.lookup_isSome]
    simp only [beq_iff_eq]
  constructor
  · rw [FusionScan.add, OrderedDict.keys_set, keysOf_concat, describes.keys, present]
    by_cases known : row.key ∈ keysOf ranked
    · rw [if_pos known, if_pos ((describes.mem_iff row.key).mp known)]
    · rw [if_neg known, if_neg (fun found => known ((describes.mem_iff row.key).mpr found))]
  · have size := congrArg List.length (OrderedDict.keys_set scan.fused row.key
      { scan.entry row rank with
        score := (scan.entry row rank).score + reciprocalRank rank
        bestRank := min (scan.entry row rank).bestRank rank })
    rw [List.length_map, present] at size
    rw [FusionScan.add]
    dsimp only
    rw [size, describes.counted]
    split
    · exact (List.length_map _).symm
    · rw [List.length_append, List.length_map]
      rfl
  · intro key entry found
    rw [FusionScan.add] at found
    dsimp only at found
    rw [OrderedDict.lookup_set] at found
    by_cases same : key = row.key
    · rw [if_pos same] at found
      rw [same, ← Option.some.inj found]
      exact describes.gathers_add row rank
    · rw [if_neg same] at found
      have known : key ∈ keysOf ranked := by
        rw [describes.mem_iff, found]
        rfl
      exact (describes.entries key entry found).concat_other known (Ne.symm same) rank

theorem describes_foldl (ranked : List (SearchRow columns × Nat)) :
    (ranked.foldl FusionScan.add {}).Describes ranked := by
  induction ranked using List.reverseRecOn with
  | nil =>
      constructor
      · rfl
      · rfl
      · intro key entry found
        cases found
  | append_singleton ranked last ih =>
      rw [List.foldl_append]
      exact ih.add last.1 last.2

theorem keysOf_rankedRows (lists : List (List (SearchRow columns))) :
    keysOf (rankedRows lists) = fusionKeys lists := by
  have same : (rankedRows lists).map (fun entry => entry.1.key) =
      lists.flatten.map SearchRow.key := by
    unfold rankedRows
    rw [List.map_flatMap, List.map_flatten, List.flatMap_def]
    congr 1
    apply List.map_congr_left
    intro results _member
    rw [← Function.comp_def, ← List.map_map, List.zipIdx_map_fst]
  rw [keysOf, same]
  rfl

theorem ranksOf_rankedRows (lists : List (List (SearchRow columns))) (key : FusionKey) :
    ranksOf key (rankedRows lists) = lists.flatMap (ranksIn key) := by
  unfold ranksOf rankedRows
  rw [List.filter_flatMap, List.map_flatMap]
  rfl

end Gathered

/-! ### Scores -/

section Compared

variable {columns : Type}

theorem reciprocalRank_pos (rank : Nat) : 0 < reciprocalRank rank := by
  unfold reciprocalRank hybridRrfK
  positivity

theorem sum_reciprocals_nonneg (ranks : List Nat) : 0 ≤ (ranks.map reciprocalRank).sum := by
  apply List.sum_nonneg
  intro term member
  obtain ⟨rank, _inside, same⟩ := List.mem_map.mp member
  rw [← same]
  exact (reciprocalRank_pos rank).le

/-- The reciprocals of several ranks exceed that of the best one. -/
theorem sum_reciprocals (ranks : List Nat) :
    (ranks.min?.map reciprocalRank).getD 0 ≤ (ranks.map reciprocalRank).sum ∧
      ((ranks.map reciprocalRank).sum = (ranks.min?.map reciprocalRank).getD 0 ↔
        ranks.length ≤ 1) := by
  cases least : ranks.min? with
  | none =>
      rw [List.min?_eq_none_iff.mp least]
      simp
  | some best =>
      have member := List.min?_mem least
      have total : (ranks.map reciprocalRank).sum =
          reciprocalRank best + ((ranks.erase best).map reciprocalRank).sum :=
        (List.sum_map_erase reciprocalRank member).symm
      have size := List.length_erase_of_mem member
      have filled := List.length_pos_of_mem member
      have others := sum_reciprocals_nonneg (ranks.erase best)
      rw [total, Option.map_some, Option.getD_some]
      constructor
      · linarith
      · cases left : ranks.erase best with
        | nil =>
            rw [left, List.length_nil] at size
            constructor
            · intro _same
              omega
            · intro _few
              simp
        | cons second rest =>
            rw [left, List.length_cons] at size
            have positive := reciprocalRank_pos second
            have behind := sum_reciprocals_nonneg rest
            rw [List.map_cons, List.sum_cons]
            constructor
            · intro same
              linarith
            · intro few
              omega

theorem rrfScore_le_gathered (lists : List (List (SearchRow columns))) (key : FusionKey) :
    rrfScore lists key ≤ gatheredScore lists key ∧
      (gatheredScore lists key = rrfScore lists key ↔
        ∀ results ∈ lists, ¬repeated key results) := by
  unfold rrfScore gatheredScore
  induction lists with
  | nil => simp
  | cons head tail ih =>
      obtain ⟨lower, exact⟩ := sum_reciprocals (ranksIn key head)
      obtain ⟨lowerTail, exactTail⟩ := ih
      rw [List.map_cons, List.map_cons, List.sum_cons, List.sum_cons, List.forall_mem_cons,
        ← exactTail, repeated, Nat.not_lt, ← exact]
      unfold bestIn at lowerTail exactTail ⊢
      constructor
      · linarith
      · constructor
        · intro same
          constructor
          · linarith
          · linarith
        · intro both
          rw [both.1, both.2]

theorem sum_flatMap_ranks (lists : List (List (SearchRow columns))) (key : FusionKey) :
    ((lists.flatMap (ranksIn key)).map reciprocalRank).sum = gatheredScore lists key := by
  unfold gatheredScore
  induction lists with
  | nil => rfl
  | cons head tail ih =>
      rw [List.flatMap_cons, List.map_append, List.sum_append, ih]
      rfl

end Compared

/-! ### What is returned -/

section Returned

variable {columns : Type} (vectorResults ftsResults : List (SearchRow columns))

/-- The entries of the dictionary, sorted. -/
def rankedEntries : List (FusedEntry columns) :=
  Ranking.sortBy FusedEntry.standing
    (((rankedRows [vectorResults, ftsResults]).foldl FusionScan.add {}).fused.map Prod.snd)

theorem fusionStanding_of_gathers {lists : List (List (SearchRow columns))} {key : FusionKey}
    {entry : FusedEntry columns} (gathers : Gathers (rankedRows lists) key entry) :
    entry.standing = fusionStanding lists key ∧ entry.score = gatheredScore lists key := by
  have score : entry.score = gatheredScore lists key := by
    rw [gathers.score, ranksOf_rankedRows, sum_flatMap_ranks]
  have best := gathers.bestRank
  rw [ranksOf_rankedRows] at best
  constructor
  · unfold FusedEntry.standing fusionStanding
    rw [score, best, Option.getD_some, gathers.order, keysOf_rankedRows]
  · exact score

/-- Each entry has the standing and the gathered score of its key. -/
theorem rankedEntries_entry :
    ∀ entry ∈ rankedEntries vectorResults ftsResults,
      entry.standing = fusionStanding [vectorResults, ftsResults] entry.row.key ∧
        entry.score = gatheredScore [vectorResults, ftsResults] entry.row.key := by
  intro entry member
  have describes := describes_foldl (rankedRows [vectorResults, ftsResults])
  obtain ⟨pair, inside, same⟩ :=
    List.mem_map.mp ((Ranking.sortBy_perm FusedEntry.standing _).mem_iff.mp member)
  have distinct := nodup_keysOf (rankedRows [vectorResults, ftsResults])
  rw [← describes.keys] at distinct
  have gathers := describes.entries pair.1 pair.2 (OrderedDict.lookup_of_mem distinct inside)
  rw [← same, gathers.row]
  exact fusionStanding_of_gathers gathers

theorem rankedEntries_keys :
    ((rankedEntries vectorResults ftsResults).map (fun entry => entry.row.key)).Perm
      (fusionKeys [vectorResults, ftsResults]) := by
  have describes := describes_foldl (rankedRows [vectorResults, ftsResults])
  have distinct := nodup_keysOf (rankedRows [vectorResults, ftsResults])
  rw [← describes.keys] at distinct
  have keys := describes.keys
  rw [keysOf_rankedRows] at keys
  rw [← keys]
  apply ((Ranking.sortBy_perm FusedEntry.standing _).map _).trans
  rw [List.map_map]
  apply List.Perm.of_eq
  apply List.map_congr_left
  intro pair member
  exact (describes.entries pair.1 pair.2 (OrderedDict.lookup_of_mem distinct member)).row

/-- The keys in the order of their standing. -/
def rankedKeys : List FusionKey :=
  (rankedEntries vectorResults ftsResults).map (fun entry => entry.row.key)

theorem rankedKeys_perm :
    (rankedKeys vectorResults ftsResults).Perm (fusionKeys [vectorResults, ftsResults]) :=
  rankedEntries_keys vectorResults ftsResults

theorem rankedKeys_ordered :
    (rankedKeys vectorResults ftsResults).Pairwise (fun left right =>
      fusionStanding [vectorResults, ftsResults] left <
        fusionStanding [vectorResults, ftsResults] right) := by
  have keys := rankedEntries_keys vectorResults ftsResults
  have distinct : (fusionKeys [vectorResults, ftsResults]).Nodup := by
    rw [← keysOf_rankedRows]
    exact nodup_keysOf _
  apply Ranking.strict_of_ordered
  · unfold rankedKeys
    rw [List.pairwise_map]
    apply List.Pairwise.imp_of_mem _ (Ranking.sortBy_ordered FusedEntry.standing _)
    intro left right inside insideRight ordered
    rw [← (rankedEntries_entry _ _ left inside).1, ← (rankedEntries_entry _ _ right insideRight).1]
    exact ordered
  · apply List.Nodup.map_on _ (keys.nodup_iff.mpr distinct)
    intro left inside right insideRight same
    have places := (Prod.mk.inj (toLex.injective (Prod.mk.inj (toLex.injective same)).2)).2
    exact (List.idxOf_inj (keys.mem_iff.mp inside)).mp places

end Returned

/-! ### The law -/

def SearchRow.fusedScore {columns : Type} (row : SearchRow columns) : Rat :=
  row.hybridScore.getD 0

/-- Each key once, with the sum of its best reciprocal ranks, the highest scores first; and no
key that is left out has a higher score. -/
structure FusionLaw {columns : Type} (lists : List (List (SearchRow columns)))
    (returned : List (SearchRow columns)) : Prop where
  distinct : (returned.map SearchRow.key).Nodup
  found : ∀ row ∈ returned, row.key ∈ fusionKeys lists
  score : ∀ row ∈ returned, row.hybridScore = some (rrfScore lists row.key)
  ordered : returned.Pairwise (fun former latter => latter.fusedScore ≤ former.fusedScore)
  leftOut : ∀ key ∈ fusionKeys lists, key ∉ returned.map SearchRow.key →
    ∀ row ∈ returned, rrfScore lists key ≤ row.fusedScore

section Law

variable {columns : Type} {vectorResults ftsResults : List (SearchRow columns)} {limit : Int}

theorem fuseHybridResults_eq (positive : 0 < limit) :
    fuseHybridResults id vectorResults ftsResults limit =
      ((rankedEntries vectorResults ftsResults).take limit.toNat).map (fun entry =>
        { entry.row with hybridScore := some entry.score }) := by
  rw [fuseHybridResults, if_neg (not_le.mpr positive)]
  rfl

theorem fuseHybridResults_keys (positive : 0 < limit) :
    (fuseHybridResults id vectorResults ftsResults limit).map SearchRow.key =
      (rankedKeys vectorResults ftsResults).take limit.toNat := by
  rw [fuseHybridResults_eq positive, List.map_map, rankedKeys, ← List.map_take]
  rfl

/-- A returned row has the gathered score of its key. -/
theorem fuseHybridResults_score (positive : 0 < limit) :
    ∀ row ∈ fuseHybridResults id vectorResults ftsResults limit,
      row.hybridScore = some (gatheredScore [vectorResults, ftsResults] row.key) := by
  rw [fuseHybridResults_eq positive]
  intro row member
  obtain ⟨entry, inside, same⟩ := List.mem_map.mp member
  rw [← same]
  exact congrArg some (rankedEntries_entry _ _ entry (List.mem_of_mem_take inside)).2

/-- A lower standing means no lower gathered score. -/
theorem gatheredScore_le {lists : List (List (SearchRow columns))} {first second : FusionKey}
    (before : fusionStanding lists first < fusionStanding lists second) :
    gatheredScore lists second ≤ gatheredScore lists first := by
  have scores := Prod.Lex.monotone_fst _ _ before.le
  exact neg_le_neg_iff.mp scores

theorem fuseHybridResults_ordered (positive : 0 < limit) :
    (fuseHybridResults id vectorResults ftsResults limit).Pairwise
      (fun former latter => latter.fusedScore ≤ former.fusedScore) := by
  have keys := @fuseHybridResults_keys columns vectorResults ftsResults limit positive
  have ordered := (rankedKeys_ordered vectorResults ftsResults).sublist
    (List.take_sublist limit.toNat _)
  rw [← keys, List.pairwise_map] at ordered
  apply ordered.imp_of_mem
  intro former latter inside insideLatter before
  rw [SearchRow.fusedScore, SearchRow.fusedScore, fuseHybridResults_score positive former inside,
    fuseHybridResults_score positive latter insideLatter]
  exact gatheredScore_le before

theorem mem_rankedKeys {key : FusionKey} :
    key ∈ rankedKeys vectorResults ftsResults ↔ key ∈ fusionKeys [vectorResults, ftsResults] :=
  (rankedKeys_perm vectorResults ftsResults).mem_iff

theorem fuseHybridResults_leftOut (positive : 0 < limit) :
    ∀ key ∈ fusionKeys [vectorResults, ftsResults],
      key ∉ (fuseHybridResults id vectorResults ftsResults limit).map SearchRow.key →
      ∀ row ∈ fuseHybridResults id vectorResults ftsResults limit,
        rrfScore [vectorResults, ftsResults] key ≤ row.fusedScore := by
  intro key known left row member
  have ordered := rankedKeys_ordered vectorResults ftsResults
  have kept : row.key ∈ (rankedKeys vectorResults ftsResults).take limit.toNat := by
    rw [← fuseHybridResults_keys positive]
    exact List.mem_map_of_mem member
  rw [fuseHybridResults_keys positive] at left
  have dropped : key ∈ (rankedKeys vectorResults ftsResults).drop limit.toNat := by
    have listed := mem_rankedKeys.mpr known
    rw [← List.take_append_drop limit.toNat (rankedKeys vectorResults ftsResults)] at listed
    exact (List.mem_append.mp listed).resolve_left left
  rw [← List.take_append_drop limit.toNat (rankedKeys vectorResults ftsResults)] at ordered
  have before := (List.pairwise_append.mp ordered).2.2 row.key kept key dropped
  rw [SearchRow.fusedScore, fuseHybridResults_score positive row member]
  exact (rrfScore_le_gathered _ key).1.trans (gatheredScore_le before)

/-- Everything but the scores holds of every result. -/
theorem fusionLaw_iff (positive : 0 < limit) :
    FusionLaw [vectorResults, ftsResults]
        (fuseHybridResults id vectorResults ftsResults limit) ↔
      ∀ key ∈ (rankedKeys vectorResults ftsResults).take limit.toNat,
        ¬(repeated key vectorResults ∨ repeated key ftsResults) := by
  have single : ∀ key, gatheredScore [vectorResults, ftsResults] key =
      rrfScore [vectorResults, ftsResults] key ↔
        ¬(repeated key vectorResults ∨ repeated key ftsResults) := by
    intro key
    rw [(rrfScore_le_gathered [vectorResults, ftsResults] key).2, List.forall_mem_cons,
      List.forall_mem_singleton, not_or]
  rw [← fuseHybridResults_keys positive]
  constructor
  · intro law key member
    obtain ⟨row, inside, same⟩ := List.mem_map.mp member
    have score := law.score row inside
    rw [fuseHybridResults_score positive row inside] at score
    rw [← single, ← same]
    exact Option.some.inj score
  · intro unrepeated
    constructor
    · rw [fuseHybridResults_keys positive]
      have distinct : (rankedKeys vectorResults ftsResults).Nodup := by
        apply (rankedKeys_ordered vectorResults ftsResults).imp
        intro left right before same
        rw [same] at before
        exact lt_irrefl _ before
      exact distinct.sublist (List.take_sublist _ _)
    · intro row member
      have kept := List.mem_map_of_mem (f := SearchRow.key) member
      rw [fuseHybridResults_keys positive] at kept
      exact mem_rankedKeys.mp (List.mem_of_mem_take kept)
    · intro row member
      rw [fuseHybridResults_score positive row member]
      exact congrArg some ((single row.key).mpr
        (unrepeated row.key (List.mem_map_of_mem member)))
    · exact fuseHybridResults_ordered positive
    · exact fuseHybridResults_leftOut positive

theorem mem_fusionKeys_of_repeated {key : FusionKey}
    (twice : repeated key vectorResults ∨ repeated key ftsResults) :
    key ∈ fusionKeys [vectorResults, ftsResults] := by
  rw [← keysOf_rankedRows]
  by_contra missing
  have none := ranksOf_eq_nil missing
  rw [ranksOf_rankedRows, List.flatMap_eq_nil_iff] at none
  cases twice with
  | inl twice =>
      rw [repeated, none vectorResults (by simp)] at twice
      exact absurd twice (by decide)
  | inr twice =>
      rw [repeated, none ftsResults (by simp)] at twice
      exact absurd twice (by decide)

end Law

/-- The fused ranking is the reciprocal rank fusion of the lists exactly when every key that
stands twice in one list has at least `limit` keys before it. -/
theorem fuseHybridResults_law_iff {columns : Type}
    (vectorResults ftsResults : List (SearchRow columns)) (limit : Int) :
    FusionLaw [vectorResults, ftsResults]
        (fuseHybridResults id vectorResults ftsResults limit) ↔
      ∀ key, repeated key vectorResults ∨ repeated key ftsResults →
        limit ≤ keysBefore [vectorResults, ftsResults] key := by
  by_cases positive : 0 < limit
  · rw [fusionLaw_iff positive]
    have kept : ∀ key ∈ fusionKeys [vectorResults, ftsResults],
        key ∈ (rankedKeys vectorResults ftsResults).take limit.toNat ↔
          ¬limit ≤ keysBefore [vectorResults, ftsResults] key := by
      intro key known
      rw [Ranking.mem_take_iff (rankedKeys_ordered vectorResults ftsResults)
        (mem_rankedKeys.mpr known), (rankedKeys_perm vectorResults ftsResults).countP_eq]
      unfold keysBefore
      omega
    constructor
    · intro unrepeated key twice
      have known := mem_fusionKeys_of_repeated twice
      by_contra few
      exact unrepeated key ((kept key known).mpr few) twice
    · intro behind key member twice
      exact (kept key (mem_fusionKeys_of_repeated twice)).mp member (behind key twice)
  · have empty : fuseHybridResults id vectorResults ftsResults limit = [] := by
      rw [fuseHybridResults, if_pos (not_lt.mp positive)]
    rw [empty]
    constructor
    · intro _law key _twice
      omega
    · intro _behind
      constructor
      · exact List.nodup_nil
      · intro row member
        cases member
      · intro row member
        cases member
      · exact List.Pairwise.nil
      · intro key _known _left row member
        cases member

/-- A chunk of one note. -/
def chunkRow (text : Text) : SearchRow Unit :=
  { notePath := some "a.md".toList, text := some text, rest := () }

/-- A note that says the same twice: the score is 1/61 + 1/62 instead of 1/61. -/
theorem fuseHybridResults_repeated :
    ¬∀ (columns : Type) (vectorResults ftsResults : List (SearchRow columns)) (limit : Int),
      FusionLaw [vectorResults, ftsResults]
        (fuseHybridResults id vectorResults ftsResults limit) := by
  intro holds
  have law := holds Unit [chunkRow [], chunkRow []] [] 10
  have one : rankedKeys [chunkRow [], chunkRow []] [] = [(chunkRow []).key] :=
    List.perm_singleton.mp (rankedKeys_perm _ _)
  have single := (fusionLaw_iff (by decide)).mp law (chunkRow []).key (by rw [one]; simp)
  exact single (Or.inl (show 1 < 2 by decide))

end VaultSearch
