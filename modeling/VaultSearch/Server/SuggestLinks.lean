/-
`suggest_links` of `server/graph_tools.py`, and `find_similar_notes` of `core/searcher.py`.

The tool asks its searcher for the attribute `find_similar` and leaves out what the note already
links to.  The searcher it is given has no attribute of that name.
-/

import Mathlib.Algebra.Order.Ring.Rat
import Mathlib.Tactic.NormNum
import VaultSearch.Server.FolderMeaning
import VaultSearch.Server.Orphans
import VaultSearch.Store.OrderedDict
import VaultSearch.Store.Ranking

set_option autoImplicit false

namespace VaultSearch

variable {score : Type}

/-! ### Similar notes -/

/-- `SimilarNoteResult` -/
structure SimilarNote (score : Type) where
  notePath : Text
  noteTitle : Text
  folder : Text
  tags : Text
  similarityScore : score

/-- What a searcher gives back for similar notes: a list, a text, or an exception. -/
inductive SimilarAnswer (score : Type) where
  | notes (similar : List (SimilarNote score))
  | text (message : Text)
  | raised

/-- The vectors and the floats, as far as they are used here: `np.mean`, a search of the table
for the chunks next to a vector, and the two roundings. -/
structure VectorSpace (score : Type) where
  mean : List Vector32 → Vector32
  nearest : List ChunkWithVector → Vector32 → Nat → List (ChunkWithVector × score)
  /-- `round(1 / (1 + distance), SCORE_PRECISION)` -/
  similarity : score → score
  /-- `round(score, 3)` -/
  rounded : score → score

structure CandidateSettings where
  searchCandidates : Nat
  searchCandidatesMultiplier : Nat
  searchCandidatesMax : Nat

/-- `_compute_candidates` -/
def computeCandidates (settings : CandidateSettings) (topK : Nat) : Nat :=
  min (max settings.searchCandidates (topK * settings.searchCandidatesMultiplier))
    settings.searchCandidatesMax

/-- `_SimilarCandidate` -/
structure SimilarCandidate (score : Type) where
  notePath : Text
  noteTitle : Text
  folder : Text
  tags : Text
  distance : score

/-- One row of the search, in the loop that keeps the best distance of each note. -/
def keepNearest [LinearOrder score] (path : Text) (seen : List (Text × SimilarCandidate score))
    (row : ChunkWithVector × score) : List (Text × SimilarCandidate score) :=
  let (chunk, distance) := row
  if chunk.notePath = path then seen
  else
    match seen.lookup chunk.notePath with
    | none =>
        OrderedDict.set seen chunk.notePath
          { notePath := chunk.notePath
            noteTitle := chunk.noteTitle
            folder := chunk.folder
            tags := chunk.tags
            distance := distance }
    | some known =>
        if distance < known.distance then
          OrderedDict.set seen chunk.notePath { known with distance := distance }
        else seen

/-- `VaultSearcher.find_similar_notes`; a note without chunks raises `ValueError`. -/
def findSimilarNotes [LinearOrder score] (space : VectorSpace score)
    (settings : CandidateSettings) (chunks : List ChunkWithVector) (path : Text) (topK : Nat) :
    SimilarAnswer score :=
  match Sql.parse (Sql.equality "note_path".toList path) with
  | none => .raised
  | some filter =>
      let noteChunks := (chunks.filter (fun chunk => filter.holds chunk.columns)).take 100
      if noteChunks.isEmpty then .raised
      else
        let avgVector := space.mean (noteChunks.map ChunkWithVector.vector)
        let results := space.nearest chunks avgVector (computeCandidates settings (topK * 3))
        let seenNotes := results.foldl (keepNearest path) []
        let sortedNotes := Ranking.sortBy SimilarCandidate.distance (seenNotes.map Prod.snd)
        .notes ((sortedNotes.take topK).map (fun note =>
          { notePath := note.notePath
            noteTitle := note.noteTitle
            folder := note.folder
            tags := note.tags
            similarityScore := space.similarity note.distance }))

/-! ### The searcher -/

/-- An attribute of a searcher. -/
inductive SearcherAttribute (score : Type) where
  | similarNotes (call : Text → Nat → SimilarAnswer score)
  /-- a field, or a method that is not called here -/
  | other

/-- The attributes of an object, by their names. -/
abbrev Searcher (score : Type) := List (Text × SearcherAttribute score)

/-- What `VaultSearcher.__init__` sets and the class defines. -/
def vaultSearcher [LinearOrder score] (space : VectorSpace score) (settings : CandidateSettings)
    (chunks : List ChunkWithVector) : Searcher score :=
  [("_models".toList, .other), ("_db".toList, .other), ("_table".toList, .other),
    ("_embedding_cache".toList, .other), ("_embedding_cache_lock".toList, .other),
    ("_cache_hits".toList, .other), ("_cache_misses".toList, .other),
    ("_prewarm_status".toList, .other), ("_connect_db".toList, .other),
    ("_open_table".toList, .other), ("invalidate_cache".toList, .other),
    ("_query_cache_key".toList, .other), ("_embed_query".toList, .other),
    ("get_embedding_cache_stats".toList, .other), ("get_prewarm_status".toList, .other),
    ("_check_memory_for_prewarm".toList, .other), ("try_prewarm".toList, .other),
    ("_vector_search".toList, .other), ("_rerank".toList, .other),
    ("_format_results".toList, .other), ("_filter_excluded".toList, .other),
    ("search".toList, .other), ("search_hybrid".toList, .other),
    ("search_by_folder".toList, .other), ("_validate_iso_date".toList, .other),
    ("_build_date_filter".toList, .other), ("search_advanced".toList, .other),
    ("find_similar_notes".toList, .similarNotes (findSimilarNotes space settings chunks)),
    ("search_duplicates".toList, .other)]

/-! ### Suggestions -/

structure Suggestion (score : Type) where
  path : Text
  title : Text
  similarity : score
  folder : Text

def outlinksClause (path : Text) : Text :=
  "from_note_path = '".toList ++ escapeSqlString path ++ "' AND link_type != 'external'".toList

/-- What the loop over the outlinks adds for one of them. -/
def LinkRecord.linkedNames (link : LinkRecord) : List Text :=
  (if link.toNotePath.isEmpty then [] else [link.toNotePath]) ++ [link.linkTargetNormalized]

/-- `already_linked` -/
def alreadyLinked (outlinks : List LinkRecord) : List Text :=
  outlinks.flatMap LinkRecord.linkedNames

section

variable [LinearOrder score]

/-- A note that the loop passes over. -/
def isSkipped (env : Env) (path : Text) (linked : List Text) (minSimilarity : score)
    (note : SimilarNote score) : Bool :=
  note.notePath = path || linked.contains note.notePath ||
    linked.contains (normalizeLinkTarget env note.notePath) || note.similarityScore < minSimilarity

/-- The loop over the similar notes; it ends when no suggestion is missing. -/
def collectSuggestions (env : Env) (rounded : score → score) (path : Text) (linked : List Text)
    (minSimilarity : score) : Nat → List (SimilarNote score) → List (Suggestion score)
  | _missing, [] => []
  | missing, note :: rest =>
      if isSkipped env path linked minSimilarity note then
        collectSuggestions env rounded path linked minSimilarity missing rest
      else
        { path := note.notePath
          title := note.noteTitle
          similarity := rounded note.similarityScore
          folder := note.folder } ::
          if missing ≤ 1 then []
          else collectSuggestions env rounded path linked minSimilarity (missing - 1) rest

def outlinkLimit : Nat := 1000

def suggestLinks (env : Env) (rounded : score → score) (searcher : Searcher score)
    (links : List LinkRecord) (path : Text) (limit : Int) (minSimilarity : score) :
    Except ToolError (List (Suggestion score)) :=
  let path := Text.strip path
  if path.isEmpty then .error (.message "Error: path cannot be empty.".toList)
  else
    let limit := (max 1 (min limit 50)).toNat
    match searcher.lookup "find_similar".toList with
    | some (.similarNotes findSimilar) =>
        match findSimilar path (limit * 3) with
        | .raised => .error .internal
        | .text message => .error (.message message)
        | .notes similar =>
            match Sql.predicateOf (outlinksClause path) [] with
            | none => .error .internal
            | some predicate =>
                let outlinks := (links.filter (fun row =>
                  predicate.holds Sql.exactLike row.columns)).take outlinkLimit
                .ok (collectSuggestions env rounded path (alreadyLinked outlinks) minSimilarity
                  limit similar)
    -- `AttributeError`, or `TypeError` if the attribute cannot be called so
    | _ => .error .internal

/-! ### What the loop leaves out -/

theorem mem_linkedNames {link : LinkRecord} {name : Text} :
    name ∈ link.linkedNames ↔
      (link.toNotePath ≠ [] ∧ link.toNotePath = name) ∨ link.linkTargetNormalized = name := by
  have last : name ∈ [link.linkTargetNormalized] ↔ link.linkTargetNormalized = name :=
    List.mem_singleton.trans eq_comm
  unfold LinkRecord.linkedNames
  rw [List.mem_append, last]
  apply or_congr_left
  cases link.toNotePath with
  | nil => simp
  | cons head tail => simp [eq_comm]

/-- The links that the query asks for. -/
def outlinksOf (links : List LinkRecord) (path : Text) : List LinkRecord :=
  links.filter (fun row => row.fromNotePath = path && row.linkType ≠ .external)

theorem outlinksClause_reading (path : Text) :
    Sql.predicateOf (outlinksClause path) [] =
      some (.both (.equals "from_note_path".toList (.text path))
        (.differs "link_type".toList (.text "external".toList))) := by
  have shape : outlinksClause path = Sql.assemble [("from_note_path = ".toList, path),
      (" AND link_type != ".toList, "external".toList)] [] := by
    have external : Sql.escape "external".toList = "external".toList := rfl
    unfold outlinksClause
    rw [escapeSqlString_eq]
    simp only [Sql.assemble, external]
    simp
  unfold Sql.predicateOf
  rw [shape, Sql.partsOf_assemble (by decide) (by simp) (by simp) (by decide)]
  rfl

theorem outlinksClause_holds (path : Text) (row : LinkRecord) :
    (Sql.Predicate.both (.equals "from_note_path".toList (.text path))
        (.differs "link_type".toList (.text "external".toList))).holds Sql.exactLike row.columns =
      (row.fromNotePath = path && row.linkType ≠ .external) := by
  rw [Bool.eq_iff_iff, Sql.Predicate.holds_both, differs_external, Bool.and_eq_true,
    decide_eq_true_iff, decide_eq_true_iff]
  apply and_congr_left'
  rw [Sql.Predicate.holds]
  change decide (some (Sql.Literal.text row.fromNotePath) = some (.text path)) = true ↔ _
  rw [decide_eq_true_iff, Option.some.injEq, Sql.Literal.text.injEq]

/-- Every suggestion comes from a note that the loop does not pass over. -/
theorem collectSuggestions_sound {env : Env} {rounded : score → score} {path : Text}
    {linked : List Text} {minSimilarity : score} {similar : List (SimilarNote score)}
    {suggestion : Suggestion score} :
    ∀ {missing : Nat},
      suggestion ∈ collectSuggestions env rounded path linked minSimilarity missing similar →
      ∃ note ∈ similar, isSkipped env path linked minSimilarity note = false ∧
        suggestion.path = note.notePath ∧ suggestion.similarity = rounded note.similarityScore := by
  induction similar with
  | nil =>
      intro missing member
      cases member
  | cons note rest ih =>
      intro missing member
      rw [collectSuggestions] at member
      by_cases skipped : isSkipped env path linked minSimilarity note = true
      · rw [if_pos skipped] at member
        obtain ⟨other, inside, facts⟩ := ih member
        exact ⟨other, List.mem_cons_of_mem _ inside, facts⟩
      · rw [if_neg skipped] at member
        cases List.mem_cons.mp member with
        | inl here =>
            refine ⟨note, List.mem_cons_self, eq_false_of_ne_true skipped, ?_⟩
            rw [here]
            exact ⟨rfl, rfl⟩
        | inr later =>
            split at later
            case isTrue => cases later
            case isFalse =>
              obtain ⟨other, inside, facts⟩ := ih later
              exact ⟨other, List.mem_cons_of_mem _ inside, facts⟩

/-- For a searcher that has the method: a suggestion is another note, its similarity before the
rounding suffices, and the first links of the note lead neither to its path nor to its
normalized path. -/
theorem suggestLinks_sound {env : Env} {rounded : score → score} {searcher : Searcher score}
    {links : List LinkRecord} {path : Text} {limit : Int} {minSimilarity : score}
    {suggestions : List (Suggestion score)}
    (result : suggestLinks env rounded searcher links path limit minSimilarity = .ok suggestions) :
    ∀ suggestion ∈ suggestions, suggestion.path ≠ Text.strip path ∧
      (∃ similarity, minSimilarity ≤ similarity ∧ suggestion.similarity = rounded similarity) ∧
      ∀ row ∈ (outlinksOf links (Text.strip path)).take outlinkLimit,
        (row.toNotePath ≠ [] → row.toNotePath ≠ suggestion.path) ∧
        row.linkTargetNormalized ≠ suggestion.path ∧
        row.linkTargetNormalized ≠ normalizeLinkTarget env suggestion.path := by
  unfold suggestLinks at result
  dsimp only at result
  rw [outlinksClause_reading] at result
  simp only [outlinksClause_holds] at result
  split at result
  case isTrue => cases result
  case isFalse =>
    split at result
    case h_2 => cases result
    case h_1 findSimilar known =>
      split at result
      case h_1 => cases result
      case h_2 => cases result
      case h_3 similar answered =>
        intro suggestion member
        rw [← Except.ok.inj result] at member
        obtain ⟨note, _inside, kept, samePath, sameSimilarity⟩ := collectSuggestions_sound member
        unfold isSkipped at kept
        simp only [Bool.or_eq_false_iff, decide_eq_false_iff_not, not_lt] at kept
        obtain ⟨⟨⟨apart, notPath⟩, notName⟩, similarEnough⟩ := kept
        have free : ∀ name, (alreadyLinked ((outlinksOf links (Text.strip path)).take
            outlinkLimit)).contains name = false → ∀ row ∈ (outlinksOf links
            (Text.strip path)).take outlinkLimit, name ∉ row.linkedNames := by
          intro name missing row rowMember named
          rw [List.contains_eq_mem, decide_eq_false_iff_not] at missing
          exact missing (List.mem_flatMap.mpr ⟨row, rowMember, named⟩)
        rw [samePath]
        refine ⟨apart, ⟨note.similarityScore, similarEnough, sameSimilarity⟩, ?_⟩
        intro row rowMember
        have byPath := free note.notePath notPath row rowMember
        have byName := free (normalizeLinkTarget env note.notePath) notName row rowMember
        rw [mem_linkedNames, not_or] at byPath byName
        exact ⟨fun filled same => byPath.1 ⟨filled, same⟩, byPath.2, byName.2⟩

/-! ### The real searcher -/

/-- What is claimed of the outcome for a note. -/
def SuggestsNewLinks (env : Env) (links : List LinkRecord) (path : Text) (minSimilarity : score)
    (outcome : Except ToolError (List (Suggestion score))) : Prop :=
  ∃ suggestions, outcome = .ok suggestions ∧ ∀ suggestion ∈ suggestions,
    suggestion.path ≠ path ∧ minSimilarity ≤ suggestion.similarity ∧
      ∀ row ∈ links, row.fromNotePath = path → row.linkType ≠ .external →
        ¬ row.LeadsTo env suggestion.path

theorem vaultSearcher_findSimilar (space : VectorSpace score) (settings : CandidateSettings)
    (chunks : List ChunkWithVector) :
    (vaultSearcher space settings chunks).lookup "find_similar".toList = none := by
  rw [OrderedDict.lookup_eq_none]
  unfold vaultSearcher
  simp

theorem suggestLinks_vaultSearcher (env : Env) (space : VectorSpace score)
    (settings : CandidateSettings) (chunks : List ChunkWithVector) (links : List LinkRecord)
    (path : Text) (limit : Int) (minSimilarity : score) :
    suggestLinks env space.rounded (vaultSearcher space settings chunks) links path limit
        minSimilarity =
      .error (if (Text.strip path).isEmpty then .message "Error: path cannot be empty.".toList
        else .internal) := by
  unfold suggestLinks
  dsimp only
  rw [vaultSearcher_findSimilar]
  split
  case isTrue => rfl
  case isFalse => rfl

/-- The tool never has a suggestion. -/
theorem suggestLinks_never_suggests (env : Env) (space : VectorSpace score)
    (settings : CandidateSettings) (chunks : List ChunkWithVector) (links : List LinkRecord)
    (path : Text) (limit : Int) (minSimilarity : score) :
    ¬ SuggestsNewLinks env links path minSimilarity
      (suggestLinks env space.rounded (vaultSearcher space settings chunks) links path limit
        minSimilarity) := by
  intro suggests
  obtain ⟨suggestions, outcome, _new⟩ := suggests
  rw [suggestLinks_vaultSearcher] at outcome
  cases outcome

/-! ### Two notes with the same text -/

def alikeChunk (notePath title : Text) : ChunkWithVector :=
  { chunkIn [] with notePath := notePath, noteTitle := title }

def alikeChunks : List ChunkWithVector :=
  [alikeChunk "a.md".toList "a".toList, alikeChunk "b.md".toList "b".toList]

/-- All vectors are equal, all distances zero. -/
def alikeSpace : VectorSpace Rat :=
  { mean := fun vectors => vectors.headD []
    nearest := fun chunks _vector count => (chunks.map (fun chunk => (chunk, 0))).take count
    similarity := fun distance => 1 / (1 + distance)
    rounded := id }

def alikeSettings : CandidateSettings :=
  { searchCandidates := 20, searchCandidatesMultiplier := 3, searchCandidatesMax := 100 }

/-- `b.md` is similar to `a.md` and not linked from it, yet the tool fails. -/
theorem suggestLinks_fails_alike :
    findSimilarNotes alikeSpace alikeSettings alikeChunks "a.md".toList 30 =
        .notes [{ notePath := "b.md".toList, noteTitle := "b".toList, folder := [], tags := []
                  similarityScore := 1 }] ∧
      suggestLinks Env.plain id (vaultSearcher alikeSpace alikeSettings alikeChunks) []
          "a.md".toList 10 (7 / 10) = .error .internal ∧
      ¬ SuggestsNewLinks Env.plain [] "a.md".toList (7 / 10 : Rat)
        (suggestLinks Env.plain id (vaultSearcher alikeSpace alikeSettings alikeChunks) []
          "a.md".toList 10 (7 / 10)) := by
  have failed : suggestLinks Env.plain id (vaultSearcher alikeSpace alikeSettings alikeChunks) []
      "a.md".toList 10 (7 / 10) = .error .internal :=
    suggestLinks_vaultSearcher Env.plain alikeSpace alikeSettings alikeChunks [] "a.md".toList 10 _
  refine ⟨?_, failed, ?_⟩
  · unfold findSimilarNotes
    rw [Sql.parse_equality (by decide)]
    have seen : (alikeSpace.nearest alikeChunks [] 100).foldl (keepNearest "a.md".toList) [] =
        [("b.md".toList,
          { notePath := "b.md".toList, noteTitle := "b".toList, folder := [], tags := []
            distance := 0 })] := by
      rfl
    have chosen : (alikeChunks.filter (fun chunk => Sql.Filter.holds chunk.columns
        [[Sql.Comparison.equals "note_path".toList "a.md".toList]])).take 100 =
          [alikeChunk "a.md".toList "a".toList] := by
      rfl
    have candidates : computeCandidates alikeSettings (30 * 3) = 100 := rfl
    have similarity : alikeSpace.similarity 0 = 1 := by norm_num [alikeSpace]
    have mean : alikeSpace.mean ([alikeChunk "a.md".toList "a".toList].map
        ChunkWithVector.vector) = [] := rfl
    dsimp only
    rw [chosen, candidates, mean, seen, Ranking.sortBy, List.map_singleton,
      List.mergeSort_singleton, ← similarity]
    rfl
  · intro suggests
    obtain ⟨suggestions, outcome, _new⟩ := suggests
    rw [failed] at outcome
    cases outcome

end

end VaultSearch
