/-
The searches of `core/searcher.py` and the wrapper of their tools, `execute_search` of
`server/helpers.py`: retrieval by vector and by words, reranking with a cross-encoder, and the
public form of the results.

A search returns rows of the table, the best scores first.  Without a working word index the
hybrid search is the plain one.
-/

import VaultSearch.Core.Highlight
import VaultSearch.Core.HybridFusion
import VaultSearch.Server.FolderFilters
import VaultSearch.Server.SuggestLinks
import VaultSearch.Sql.Conditions

set_option autoImplicit false

namespace VaultSearch

inductive SearchFault where
  | runtimeError
  | otherError
  deriving DecidableEq

/-- The columns of a found row besides its path and its text. -/
structure FoundColumns (number : Type) where
  noteTitle : Text
  folder : Text
  headers : Text
  tags : Text
  modifiedAt : Text
  distance : Option number
  rerankScore : Option number := none

abbrev FoundRow (number : Type) := SearchRow (FoundColumns number)

/-- `SEARCH_COLUMNS` of a chunk; rows of the word index have no distance. -/
def foundRow {number : Type} (distance : Option number) (chunk : ChunkWithVector) :
    FoundRow number :=
  { notePath := some chunk.notePath
    text := some chunk.text
    rest :=
      { noteTitle := chunk.noteTitle
        folder := chunk.folder
        headers := chunk.headers
        tags := chunk.tags
        modifiedAt := chunk.modifiedAt
        distance } }

/-- The rows that a condition asks for. -/
def matching (table : List ChunkWithVector) : Option Text → List ChunkWithVector
  | none => table
  | some clause =>
      match Sql.formulaOf clause with
      | none => []
      | some formula => table.filter (fun chunk => formula.holds Sql.exactLike chunk.columns)

/-- What a searcher is built on: the models, the table with its two indices, and the roundings. -/
structure SearchBackend (vector number : Type) where
  embedQuery : Text → Except SearchFault vector
  rerankTexts : Text → List Text → Except SearchFault (List number)
  /-- the chunks, if there is a table -/
  table : Option (List ChunkWithVector)
  /-- `table.search(vector).limit(limit).where(clause)` -/
  nearest : List ChunkWithVector → vector → Option Text → Nat →
    Except SearchFault (List (ChunkWithVector × number))
  /-- no other rows, none twice and no more than asked for -/
  nearest_within : ∀ chunks query clause limit found,
    nearest chunks query clause limit = .ok found →
      (found.map Prod.fst).Subperm (matching chunks clause) ∧ found.length ≤ limit
  /-- `table.search(query, query_type="fts").limit(limit)` -/
  fullText : List ChunkWithVector → Text → Nat → Except SearchFault (List ChunkWithVector)
  /-- `round(score, SCORE_PRECISION)` -/
  rounded : number → number
  roundedRrf : Rat → Rat
  distanceToScore : number → number

/-- The limits of `SearchConfig` and the longest query. -/
structure SearchSettings extends CandidateSettings where
  topKMin : Nat
  topKMax : Nat
  maxQueryLength : Nat
  topKMin_positive : 1 ≤ topKMin

/-- `SearchResult` -/
structure SearchResult (number : Type) where
  notePath : Text
  noteTitle : Text
  folder : Text
  headers : Text
  tags : Text
  text : Text
  score : Option number

section Code

variable {vector number : Type} [LinearOrder number] (backend : SearchBackend vector number)
  (settings : SearchSettings)

def rerankCandidatesMax : Nat := 10

def rerankCandidatesMultiplier : Nat := 2

/-- `_compute_rerank_pool_size` -/
def computeRerankPoolSize (topK candidateCount : Nat) : Nat :=
  if candidateCount = 0 then 0
  else
    min candidateCount (max topK (min rerankCandidatesMax (topK * rerankCandidatesMultiplier)))

/-- `_vector_search`; without a table it raises `RuntimeError`. -/
def vectorSearch (queryVec : vector) (candidates : Nat) (clause : Option Text) :
    Except SearchFault (List (FoundRow number)) :=
  match backend.table with
  | none => .error .runtimeError
  | some chunks =>
      (backend.nearest chunks queryVec (given clause) candidates).map (fun found =>
        found.map (fun row => foundRow (some row.2) row.1))

/-- `rerank_candidates` -/
def rerankPool {row : Type} (topK : Nat) (results : List row) : List row :=
  results.take (computeRerankPoolSize topK results.length)

/-- `[r["text"] for r in rows]` -/
def rowTexts (rows : List (FoundRow number)) : Except SearchFault (List Text) :=
  rows.mapM (fun row =>
    match row.text with
    | none => .error .otherError
    | some text => .ok text)

def withScore (entry : FoundRow number × number) : FoundRow number :=
  { entry.1 with rest := { entry.1.rest with rerankScore := some entry.2 } }

/-- `sorted(scored, key=score, reverse=True)[:top_k]` -/
def bestScored {row : Type} (topK : Nat) (scored : List (row × number)) : List (row × number) :=
  (Ranking.sortBy (fun entry => OrderDual.toDual entry.2) scored).take topK

/-- `_rerank`; `zip(.., strict=True)` raises on lists of two lengths. -/
def rerankRows (query : Text) (results : List (FoundRow number)) (topK : Nat) :
    Except SearchFault (List (FoundRow number)) :=
  if results.isEmpty then .ok []
  else do
    let pool := rerankPool topK results
    let texts ← rowTexts pool
    let scores ← backend.rerankTexts query texts
    if scores.length = pool.length then
      .ok ((bestScored topK (pool.zip (scores.map backend.rounded))).map withScore)
    else .error .otherError

/-- `format_search_results` -/
def formatSearchResults (rows : List (FoundRow number)) : List (SearchResult number) :=
  rows.map (fun row =>
    { notePath := row.notePath.getD []
      noteTitle := row.rest.noteTitle
      folder := row.rest.folder
      headers := row.rest.headers
      tags := row.rest.tags
      text := row.text.getD []
      score := row.rest.rerankScore.or (row.rest.distance.map backend.distanceToScore) })

/-- `VaultSearcher.search` -/
def search (query : Text) (topK : Nat) : Except SearchFault (List (SearchResult number)) := do
  let queryVec ← backend.embedQuery query
  let raw ← vectorSearch backend queryVec (computeCandidates settings.toCandidateSettings topK) none
  if raw.isEmpty then .ok []
  else
    let reranked ← rerankRows backend query raw topK
    .ok (formatSearchResults backend reranked)

/-- The rows of the word index; whatever it raises is logged and none are used. -/
def lexicalRows (chunks : List ChunkWithVector) (query : Text) (candidates : Nat) :
    List (FoundRow number) :=
  match backend.fullText chunks query candidates with
  | .error _ => []
  | .ok found => found.map (foundRow none)

/-- `VaultSearcher.search_hybrid` -/
def searchHybrid (query : Text) (topK : Nat) : Except SearchFault (List (SearchResult number)) :=
  match backend.table with
  | none => .error .runtimeError
  | some chunks => do
      let queryVec ← backend.embedQuery query
      let candidates := computeCandidates settings.toCandidateSettings topK
      let vectorResults ← vectorSearch backend queryVec candidates none
      let ftsResults := lexicalRows backend chunks query candidates
      let merged := fuseHybridResults backend.roundedRrf vectorResults ftsResults candidates
      if merged.isEmpty then .ok []
      else
        let reranked ← rerankRows backend query merged topK
        .ok (formatSearchResults backend reranked)

/-- `VaultSearcher.search_by_folder` -/
def searchFolder (query folder : Text) (topK : Nat) :
    Except SearchFault (List (SearchResult number)) := do
  let queryVec ← backend.embedQuery query
  let raw ← vectorSearch backend queryVec (computeCandidates settings.toCandidateSettings topK)
    (some (folderClause folder))
  if raw.isEmpty then .ok []
  else
    let reranked ← rerankRows backend query raw topK
    .ok (formatSearchResults backend reranked)

/-! ### The tools -/

/-- What a search tool answers. -/
inductive SearchAnswer (number : Type) where
  | results (found : List (SearchResult number))
  | refused (message : Text)
  /-- `public_error` with its code and its message -/
  | failed (code message : Text)

/-- `clamp_top_k` -/
def clampTopK (topK : Int) : Nat :=
  (max (settings.topKMin : Int) (min topK settings.topKMax)).toNat

def truncateQuery (query : Text) : Text :=
  query.take settings.maxQueryLength

def emptyQuery : Text := "Error: query cannot be empty.".toList

def internalFailure : SearchAnswer number :=
  .failed "internal_error".toList "The operation could not be completed.".toList

/-- `execute_search` -/
def executeSearch (query : Text) (topK : Int)
    (searchFn : Text → Nat → Except SearchFault (List (SearchResult number))) :
    SearchAnswer number :=
  if Text.isBlank query then .refused emptyQuery
  else
    match searchFn (truncateQuery settings (Text.strip query)) (clampTopK settings topK) with
    | .ok found => .results found
    | .error .runtimeError =>
        .failed "search_unavailable".toList "Search is temporarily unavailable.".toList
    | .error .otherError => internalFailure

def searchVaultTool (query : Text) (topK : Int) : SearchAnswer number :=
  executeSearch settings query topK (search backend settings)

def searchVaultHybridTool (query : Text) (topK : Int) : SearchAnswer number :=
  executeSearch settings query topK (searchHybrid backend settings)

def searchByFolderTool (query folder : Text) (topK : Int) : SearchAnswer number :=
  if Text.isBlank folder then .refused "Error: folder cannot be empty.".toList
  else
    executeSearch settings query topK
      (fun query topK => searchFolder backend settings query (Text.strip folder) topK)

end Code

/-! ### What reranking keeps -/

theorem ok_of_bind {fault source result : Type} {outcome : Except fault source}
    {next : source → Except fault result} {value : result}
    (returned : outcome >>= next = .ok value) :
    ∃ given, outcome = .ok given ∧ next given = .ok value := by
  cases outcome with
  | error fault => cases returned
  | ok given => exact ⟨given, rfl, returned⟩

theorem subperm_map {item image : Type} (convert : item → image) {fewer more : List item}
    (inside : fewer.Subperm more) : (fewer.map convert).Subperm (more.map convert) := by
  obtain ⟨chosen, same, sublist⟩ := inside
  exact ⟨chosen.map convert, same.map convert, sublist.map convert⟩

theorem nodup_of_subperm {item : Type} {fewer more : List item} (inside : fewer.Subperm more)
    (distinct : more.Nodup) : fewer.Nodup := by
  obtain ⟨chosen, same, sublist⟩ := inside
  exact same.nodup_iff.mp (distinct.sublist sublist)

section Scored

variable {row number : Type} [LinearOrder number] {topK : Nat}

theorem bestScored_subperm (topK : Nat) (scored : List (row × number)) :
    (bestScored topK scored).Subperm scored := by
  unfold bestScored
  apply ((List.take_sublist topK _).subperm).trans
  exact (Ranking.sortBy_perm _ scored).subperm

theorem length_bestScored (topK : Nat) (scored : List (row × number)) :
    (bestScored topK scored).length = min topK scored.length := by
  unfold bestScored
  rw [List.length_take, (Ranking.sortBy_perm _ scored).length_eq]

theorem bestScored_ordered (topK : Nat) (scored : List (row × number)) :
    (bestScored topK scored).Pairwise (fun former latter => latter.2 ≤ former.2) := by
  have ordered := Ranking.sortBy_ordered
    (fun entry : row × number => OrderDual.toDual entry.2) scored
  exact (ordered.imp OrderDual.toDual_le_toDual.mp).sublist (List.take_sublist topK _)

/-- What is left out has no better score. -/
theorem bestScored_leftOut {scored : List (row × number)} {left kept : row × number}
    (member : left ∈ scored) (outside : left ∉ bestScored topK scored)
    (inside : kept ∈ bestScored topK scored) : left.2 ≤ kept.2 := by
  have ordered := Ranking.sortBy_ordered
    (fun entry : row × number => OrderDual.toDual entry.2) scored
  have sorted := (Ranking.sortBy_perm
    (fun entry : row × number => OrderDual.toDual entry.2) scored).mem_iff.mpr member
  rw [← List.take_append_drop topK (Ranking.sortBy _ scored)] at sorted
  have dropped := (List.mem_append.mp sorted).resolve_left outside
  exact OrderDual.toDual_le_toDual.mp (Ranking.le_of_take_drop ordered inside dropped)

theorem bestScored_map {source : Type} (convert : source → row) (topK : Nat)
    (scored : List (source × number)) :
    bestScored topK (scored.map (Prod.map convert id)) =
      (bestScored topK scored).map (Prod.map convert id) := by
  unfold bestScored Ranking.sortBy
  rw [List.map_take, List.map_mergeSort]
  intro left _inside right _insideRight
  rfl

end Scored

theorem rowTexts_found {number : Type} (distance : ChunkWithVector × number → Option number)
    (found : List (ChunkWithVector × number)) :
    rowTexts (found.map (fun row => foundRow (distance row) row.1)) =
      .ok (found.map (fun row => row.1.text)) := by
  unfold rowTexts
  induction found with
  | nil => rfl
  | cons row rows ih =>
      rw [List.map_cons, List.mapM_cons, ih]
      rfl

/-- A chunk with its score in the form of a result. -/
def publicResult {number : Type} (shown : Text → Text) (entry : ChunkWithVector × number) :
    SearchResult number :=
  { notePath := entry.1.notePath
    noteTitle := entry.1.noteTitle
    folder := entry.1.folder
    headers := entry.1.headers
    tags := entry.1.tags
    text := shown entry.1.text
    score := some entry.2 }

theorem poolSize_le (topK count : Nat) : computeRerankPoolSize topK count ≤ count := by
  unfold computeRerankPoolSize
  split
  case isTrue => exact Nat.zero_le count
  case isFalse => exact min_le_left _ _

/-- The pool has room for all that is returned. -/
theorem min_poolSize (topK count : Nat) :
    min topK (computeRerankPoolSize topK count) = min topK count := by
  unfold computeRerankPoolSize
  split
  case isTrue none => rw [none]
  case isFalse =>
    rw [min_comm count, ← min_assoc, min_eq_left (le_max_left topK _)]

theorem vectorSearch_cases {vector number : Type} {backend : SearchBackend vector number}
    {queryVec : vector} {candidates : Nat} {clause : Option Text} {raw : List (FoundRow number)}
    (returned : vectorSearch backend queryVec candidates clause = .ok raw) :
    ∃ chunks found, backend.table = some chunks ∧
      backend.nearest chunks queryVec (given clause) candidates = .ok found ∧
      raw = found.map (fun row => foundRow (some row.2) row.1) := by
  unfold vectorSearch at returned
  cases table : backend.table with
  | none =>
      rw [table] at returned
      cases returned
  | some chunks =>
      rw [table] at returned
      dsimp only at returned
      cases answer : backend.nearest chunks queryVec (given clause) candidates with
      | error fault =>
          rw [answer] at returned
          cases returned
      | ok found =>
          rw [answer] at returned
          exact ⟨chunks, found, rfl, answer, (Except.ok.inj returned).symm⟩

section Reranking

variable {vector number : Type} [LinearOrder number] {backend : SearchBackend vector number}

/-- The chunks that are kept of those retrieved, each with its score: as many as are asked for,
in the order of the scores that the cross-encoder gave to the texts of the pool, and none with a
better score left out of it. -/
structure Kept (backend : SearchBackend vector number) (query : Text) (topK : Nat)
    (retrieved : List ChunkWithVector) (kept : List (ChunkWithVector × number)) : Prop where
  rows : (kept.map Prod.fst).Subperm retrieved
  length : kept.length = min topK retrieved.length
  ordered : kept.Pairwise (fun former latter => latter.2 ≤ former.2)
  scored : retrieved ≠ [] → ∃ scores,
    backend.rerankTexts query ((rerankPool topK retrieved).map (·.text)) = .ok scores ∧
    scores.length = (rerankPool topK retrieved).length ∧
    (∀ entry ∈ kept, entry ∈ (rerankPool topK retrieved).zip (scores.map backend.rounded)) ∧
    ∀ left ∈ (rerankPool topK retrieved).zip (scores.map backend.rounded), left ∉ kept →
      ∀ entry ∈ kept, left.2 ≤ entry.2

theorem rerankPool_map {row other : Type} (convert : row → other) (topK : Nat)
    (retrieved : List row) :
    rerankPool topK (retrieved.map convert) = (rerankPool topK retrieved).map convert := by
  unfold rerankPool
  rw [List.length_map, List.map_take]

theorem length_rerankPool {row : Type} (topK : Nat) (retrieved : List row) :
    (rerankPool topK retrieved).length = computeRerankPoolSize topK retrieved.length := by
  unfold rerankPool
  rw [List.length_take, min_eq_left (poolSize_le topK _)]

/-- The best of a scored pool are kept. -/
theorem kept_best {query : Text} {topK : Nat} {retrieved : List ChunkWithVector}
    {scores : List number}
    (isScores : backend.rerankTexts query ((rerankPool topK retrieved).map (·.text)) = .ok scores)
    (sameLength : scores.length = (rerankPool topK retrieved).length) :
    Kept backend query topK retrieved
      (bestScored topK ((rerankPool topK retrieved).zip (scores.map backend.rounded))) := by
  have fit : (rerankPool topK retrieved).length ≤ (scores.map backend.rounded).length := by
    rw [List.length_map, sameLength]
  constructor
  · have chosen := subperm_map Prod.fst (bestScored_subperm topK
      ((rerankPool topK retrieved).zip (scores.map backend.rounded)))
    rw [List.map_fst_zip fit] at chosen
    exact chosen.trans (List.take_sublist _ retrieved).subperm
  · rw [length_bestScored, List.length_zip, min_eq_left fit, length_rerankPool, min_poolSize]
  · exact bestScored_ordered topK _
  · intro _filled
    exists scores
    constructor
    · exact isScores
    · constructor
      · exact sameLength
      · constructor
        · exact fun entry member => (bestScored_subperm topK _).subset member
        · exact fun left member outside entry inside =>
            bestScored_leftOut member outside inside

theorem kept_nil (query : Text) (topK : Nat) : Kept backend query topK [] [] := by
  constructor
  · exact List.nil_subperm
  · exact (min_eq_right (Nat.zero_le topK)).symm
  · exact List.Pairwise.nil
  · exact fun filled => absurd rfl filled

theorem rerankRows_kept {query : Text} {topK : Nat}
    {distance : ChunkWithVector × number → Option number}
    {found : List (ChunkWithVector × number)} {ranked : List (FoundRow number)}
    (returned : rerankRows backend query
      (found.map (fun row => foundRow (distance row) row.1)) topK = .ok ranked) :
    ∃ kept : List ((ChunkWithVector × number) × number),
      ranked = kept.map (fun entry => withScore (foundRow (distance entry.1) entry.1.1, entry.2)) ∧
      Kept backend query topK (found.map Prod.fst)
        (kept.map (fun entry => (entry.1.1, entry.2))) := by
  cases found with
  | nil =>
      exact ⟨[], (Except.ok.inj returned).symm, kept_nil query topK⟩
  | cons first more =>
      have texts := rowTexts_found distance (rerankPool topK (first :: more))
      have pool := rerankPool_map (fun row => foundRow (distance row) row.1) topK (first :: more)
      have filled : ((first :: more).map (fun row => foundRow (distance row) row.1)).isEmpty =
          false := rfl
      unfold rerankRows at returned
      rw [filled, if_neg Bool.false_ne_true] at returned
      dsimp only at returned
      rw [pool, texts] at returned
      obtain ⟨asked, isAsked, scoring⟩ := ok_of_bind returned
      obtain ⟨scores, isScores, later⟩ := ok_of_bind scoring
      rw [← Except.ok.inj isAsked] at isScores
      split at later
      case isFalse => cases later
      case isTrue sameLength =>
        have zipped := bestScored_map (fun row : ChunkWithVector × number => row.1) topK
          ((rerankPool topK (first :: more)).zip (scores.map backend.rounded))
        rw [List.length_map] at sameLength
        exists bestScored topK ((rerankPool topK (first :: more)).zip (scores.map backend.rounded))
        constructor
        · have rows := Except.ok.inj later
          rw [← rows, List.zip_map_left, bestScored_map, List.map_map]
          rfl
        · have best := @kept_best _ _ _ backend query topK ((first :: more).map Prod.fst) scores
          rw [rerankPool_map, List.map_map, List.length_map] at best
          have chunks := best isScores sameLength
          rw [List.zip_map_left, bestScored_map] at chunks
          exact chunks

end Reranking

/-! ### Without the word index -/

section Wordless

variable {columns : Type}

/-- A row without the score of the fusion. -/
def unfused (row : SearchRow columns) : SearchRow columns :=
  { row with hybridScore := none }

/-- The entries of rows with keys of their own. -/
def entriesFrom (rank order : Nat) : List (SearchRow columns) → List (FusedEntry columns)
  | [] => []
  | row :: rest =>
      { row, score := 0 + reciprocalRank rank, bestRank := min rank rank, order } ::
        entriesFrom (rank + 1) (order + 1) rest

theorem fused_distinct (rows : List (SearchRow columns)) (rank : Nat)
    (scan : FusionScan columns)
    (fresh : ∀ row ∈ rows, ∀ entry ∈ scan.fused, entry.1 ≠ row.key)
    (distinct : (rows.map SearchRow.key).Nodup) :
    ((rows.zipIdx rank).foldl FusionScan.add scan).fused =
      scan.fused ++ (entriesFrom rank scan.insertionOrder rows).map
        (fun entry => (entry.row.key, entry)) := by
  induction rows generalizing rank scan with
  | nil => exact (List.append_nil _).symm
  | cons row rest ih =>
      have unknown : scan.fused.lookup row.key = none :=
        OrderedDict.lookup_eq_none.mpr (fresh row List.mem_cons_self)
      have added : scan.add (row, rank) =
          { fused := scan.fused ++ [(row.key,
              { row, score := 0 + reciprocalRank rank, bestRank := min rank rank,
                order := scan.insertionOrder })]
            insertionOrder := scan.insertionOrder + 1 } := by
        unfold FusionScan.add FusionScan.entry
        dsimp only
        rw [unknown, OrderedDict.set_fresh unknown]
        rfl
      have apart := List.nodup_cons.mp distinct
      rw [List.zipIdx_cons, List.foldl_cons, ih, added, entriesFrom, List.map_cons,
        List.append_assoc]
      · rfl
      · rw [added]
        intro other member entry inside
        rcases List.mem_append.mp inside with older | newest
        · exact fresh other (List.mem_cons_of_mem _ member) entry older
        · rw [List.mem_singleton.mp newest]
          intro same
          apply apart.1
          rw [show row.key = other.key from same]
          exact List.mem_map_of_mem member
      · exact apart.2

theorem entriesFrom_ordered (rows : List (SearchRow columns)) (rank order : Nat) :
    (∀ entry ∈ entriesFrom rank order rows, entry.score ≤ reciprocalRank rank) ∧
      (entriesFrom rank order rows).Pairwise
        (fun left right => left.standing ≤ right.standing) := by
  induction rows generalizing rank order with
  | nil => exact ⟨fun _entry impossible => absurd impossible List.not_mem_nil, List.Pairwise.nil⟩
  | cons row rest ih =>
      obtain ⟨lower, ordered⟩ := ih (rank + 1) (order + 1)
      have falls : reciprocalRank (rank + 1) < reciprocalRank rank := by
        unfold reciprocalRank
        apply one_div_lt_one_div_of_lt
        · exact_mod_cast (by decide : 0 < hybridRrfK).trans_le (Nat.le_add_right _ rank)
        · exact_mod_cast Nat.lt_succ_self _
      constructor
      · intro entry member
        rcases List.mem_cons.mp member with here | later
        · rw [here]
          exact (zero_add _).le
        · exact (lower entry later).trans falls.le
      · apply List.Pairwise.cons
        · intro entry member
          have less := (lower entry member).trans_lt falls
          apply le_of_lt
          apply Prod.Lex.toLex_lt_toLex.mpr
          left
          change -(0 + reciprocalRank rank) < -entry.score
          linarith
        · exact ordered

theorem rows_entriesFrom (rows : List (SearchRow columns)) (rank order : Nat) :
    (entriesFrom rank order rows).map FusedEntry.row = rows := by
  induction rows generalizing rank order with
  | nil => rfl
  | cons row rest ih => exact congrArg (row :: ·) (ih (rank + 1) (order + 1))

/-- The fusion of one list with distinct keys is this list. -/
theorem fuse_alone (rounded : Rat → Rat) {rows : List (SearchRow columns)} {limit : Nat}
    (distinct : (rows.map SearchRow.key).Nodup) (fits : rows.length ≤ limit) :
    (fuseHybridResults rounded rows [] limit).map unfused = rows.map unfused := by
  have lists : rankedRows [rows, []] = rows.zipIdx 1 := List.append_nil _
  have fused := fused_distinct rows 1 {} (fun _row _member _entry impossible =>
    absurd impossible List.not_mem_nil) distinct
  have entries : ((rows.zipIdx 1).foldl FusionScan.add {}).fused.map Prod.snd =
      entriesFrom 1 0 rows := by
    rw [fused, List.nil_append, List.map_map]
    exact List.map_id _
  have sorted : Ranking.sortBy FusedEntry.standing (entriesFrom 1 0 rows) =
      entriesFrom 1 0 rows := by
    apply List.mergeSort_of_pairwise
    exact (entriesFrom_ordered rows 1 0).2.imp decide_eq_true
  have count : (entriesFrom 1 0 rows).length = rows.length := by
    rw [← List.length_map FusedEntry.row, rows_entriesFrom]
  unfold fuseHybridResults
  split
  case isTrue none =>
    have empty : rows = [] := List.eq_nil_of_length_eq_zero (by omega)
    rw [empty]
  case isFalse =>
    dsimp only
    rw [lists, entries, sorted, Int.toNat_natCast, List.take_of_length_le (count.le.trans fits),
      List.map_map]
    have shapes := congrArg (List.map unfused) (rows_entriesFrom rows 1 0)
    rw [List.map_map] at shapes
    exact shapes

end Wordless

theorem rowTexts_unfused {number : Type} (rows : List (FoundRow number)) :
    rowTexts (rows.map unfused) = rowTexts rows := by
  unfold rowTexts
  induction rows with
  | nil => rfl
  | cons row rest ih =>
      rw [List.map_cons, List.mapM_cons, ih, List.mapM_cons]
      rfl

theorem formatSearchResults_unfused {vector number : Type} (backend : SearchBackend vector number)
    (rows : List (FoundRow number)) :
    formatSearchResults backend (rows.map unfused) = formatSearchResults backend rows := by
  unfold formatSearchResults
  rw [List.map_map]
  rfl

section Fallback

variable {vector number : Type} [LinearOrder number] {backend : SearchBackend vector number}

/-- Reranking does not look at the score of the fusion. -/
theorem rerankRows_unfused (query : Text) (rows : List (FoundRow number)) (topK : Nat) :
    (rerankRows backend query rows topK).map (List.map unfused) =
      rerankRows backend query (rows.map unfused) topK := by
  cases rows with
  | nil => rfl
  | cons first more =>
      have filled : ((first :: more).map unfused).isEmpty = (first :: more).isEmpty := rfl
      have pool := rerankPool_map unfused topK (first :: more)
      unfold rerankRows
      rw [filled, List.isEmpty_cons, if_neg Bool.false_ne_true, if_neg Bool.false_ne_true]
      dsimp only
      rw [pool, rowTexts_unfused, List.length_map]
      cases rowTexts (rerankPool topK (first :: more)) with
      | error fault => rfl
      | ok texts =>
          change (backend.rerankTexts query texts >>= _).map _ =
            backend.rerankTexts query texts >>= _
          cases backend.rerankTexts query texts with
          | error fault => rfl
          | ok scores =>
              change Except.map _ (ite _ _ _) = ite _ _ _
              split
              case isFalse => rfl
              case isTrue =>
                rw [List.zip_map_left, bestScored_map, List.map_map]
                change Except.ok _ = Except.ok _
                rw [List.map_map]
                rfl

/-- Without a word index the hybrid search is the plain one, as long as no two chunks of the
table share their path and their text. -/
theorem searchHybrid_wordless {settings : SearchSettings} {chunks : List ChunkWithVector}
    (isTable : backend.table = some chunks)
    (distinct : (chunks.map (fun chunk => (chunk.notePath, chunk.text))).Nodup)
    {query : Text} (wordless : ∀ candidates, ∃ fault,
      backend.fullText chunks query candidates = .error fault) (topK : Nat) :
    searchHybrid backend settings query topK = search backend settings query topK := by
  have noRows : ∀ candidates, lexicalRows backend chunks query candidates = [] := by
    intro candidates
    obtain ⟨fault, isFault⟩ := wordless candidates
    unfold lexicalRows
    rw [isFault]
  unfold searchHybrid search
  rw [isTable]
  dsimp only
  cases backend.embedQuery query with
  | error fault => rfl
  | ok queryVec =>
      change (vectorSearch backend queryVec _ none >>= _) = vectorSearch backend queryVec _ none >>= _
      cases retrieved : vectorSearch backend queryVec
        (computeCandidates settings.toCandidateSettings topK) none with
      | error fault => rfl
      | ok raw =>
          obtain ⟨table, found, sameTable, answer, shape⟩ := vectorSearch_cases retrieved
          rw [isTable] at sameTable
          obtain ⟨inside, few⟩ := backend.nearest_within _ _ _ _ _ answer
          have keys : raw.map SearchRow.key =
              (found.map Prod.fst).map (fun chunk => (chunk.notePath, chunk.text)) := by
            rw [shape, List.map_map, List.map_map]
            rfl
          have ownKeys : (raw.map SearchRow.key).Nodup := by
            rw [← Option.some.inj sameTable] at inside
            rw [keys]
            exact nodup_of_subperm (subperm_map _ inside) distinct
          have fits : raw.length ≤ computeCandidates settings.toCandidateSettings topK := by
            rw [shape, List.length_map]
            exact few
          have plain : raw.map unfused = raw := by
            rw [shape, List.map_map]
            rfl
          have fused := fuse_alone backend.roundedRrf ownKeys fits
          rw [plain] at fused
          have sameEmpty := congrArg List.isEmpty fused
          rw [List.isEmpty_map] at sameEmpty
          have ranked := @rerankRows_unfused vector number _ backend query (fuseHybridResults
            backend.roundedRrf raw [] (computeCandidates settings.toCandidateSettings topK)) topK
          rw [fused] at ranked
          change (if (fuseHybridResults backend.roundedRrf raw
              (lexicalRows backend chunks query _) _).isEmpty = true then _ else _) =
            if raw.isEmpty = true then _ else _
          rw [noRows, sameEmpty]
          split
          case isTrue => rfl
          case isFalse =>
            rw [← ranked]
            cases rerankRows backend query (fuseHybridResults backend.roundedRrf raw []
                (computeCandidates settings.toCandidateSettings topK)) topK with
            | error fault => rfl
            | ok rows => exact congrArg Except.ok (formatSearchResults_unfused backend rows).symm

end Fallback

/-- A table whose word index raises, with the length of a text as its score, for examples. -/
def wordlessBackend (chunks : List ChunkWithVector) : SearchBackend Unit Nat where
  embedQuery := fun _query => .ok ()
  rerankTexts := fun _query texts => .ok (texts.map List.length)
  table := some chunks
  nearest := fun chunks _query clause limit =>
    .ok (((matching chunks clause).take limit).map (fun chunk => (chunk, 0)))
  nearest_within := by
    intro chunks query clause limit found answer
    rw [← Except.ok.inj answer, List.map_map, List.length_map]
    constructor
    · exact (List.map_id _).symm ▸ (List.take_sublist limit _).subperm
    · exact List.length_take_le limit _
  fullText := fun _chunks _query _limit => .error .otherError
  rounded := id
  roundedRrf := id
  distanceToScore := id

def plainLimits : SearchSettings :=
  { searchCandidates := 50
    searchCandidatesMultiplier := 2
    searchCandidatesMax := 500
    topKMin := 1
    topKMax := 100
    maxQueryLength := 1000
    topKMin_positive := Nat.le_refl 1 }

theorem searchHybrid_wordless_folders :
    searchHybrid (wordlessBackend [chunkIn "a".toList]) plainLimits "q".toList 10 =
      search (wordlessBackend [chunkIn "a".toList]) plainLimits "q".toList 10 :=
  @searchHybrid_wordless Unit Nat _ (wordlessBackend [chunkIn "a".toList]) plainLimits
    [chunkIn "a".toList] rfl (by decide) _ (fun _candidates => ⟨.otherError, rfl⟩) 10

end VaultSearch
