/-
`VaultSearcher._embed_query`: the cache of query embeddings, for any number of threads.

A call looks the key of its query up under the lock, computes the embedding outside of it, and
takes the lock once more to store what it computed.  Between the two sections other calls look up,
store and evict.  In every order of the sections, the cache holds the thousand keys that were
answered last, and every answer is an embedding that was computed for a query with its key.
-/

import Mathlib.Logic.Function.Basic
import VaultSearch.Store.LruCache
import VaultSearch.Store.Transitions
import VaultSearch.Text.Basic

set_option autoImplicit false

namespace VaultSearch

namespace QueryCache

variable {Thread Key Vector : Type}

/-- Where a thread is in `_embed_query`. -/
inductive Call (Vector : Type) where
  | idle
  | computing (query : Text)
  | storing (query : Text) (embedding : Vector)
  deriving DecidableEq

/-- A call that has returned. -/
structure Answer (Vector : Type) where
  query : Text
  embedding : Vector
  hit : Bool
  deriving DecidableEq

/-- `answers` lists the calls that have returned, the latest first; the program does not keep
them. -/
structure Searcher (Thread Key Vector : Type) where
  cache : LruCache Key Vector
  hits : Nat
  misses : Nat
  calls : Thread → Call Vector
  answers : List (Answer Vector)

inductive Event (Thread Vector : Type) where
  | lookUp (thread : Thread) (query : Text)
  | compute (thread : Thread) (embedding : Vector)
  | fail (thread : Thread)
  | store (thread : Thread)
  deriving DecidableEq

/-- `QUERY_EMBEDDING_CACHE_SIZE` -/
def cacheSize : Nat := 1000

theorem cacheSize_positive : 0 < cacheSize := Nat.succ_pos _

def initial (Thread Key Vector : Type) : Searcher Thread Key Vector :=
  { cache := LruCache.empty cacheSize cacheSize_positive
    hits := 0
    misses := 0
    calls := fun _ => .idle
    answers := [] }

section Steps

variable [DecidableEq Thread] [DecidableEq Key] (cacheKey : Text → Key)

/-- The first section under the lock. -/
def lookUp (searcher : Searcher Thread Key Vector) (thread : Thread) (query : Text) :
    Searcher Thread Key Vector :=
  match searcher.cache.get (cacheKey query) with
  | (some embedding, cache) =>
      { searcher with
        cache
        hits := searcher.hits + 1
        answers := { query, embedding, hit := true } :: searcher.answers }
  | (none, _) =>
      { searcher with calls := Function.update searcher.calls thread (.computing query) }

/-- The second section under the lock, with an embedding that was computed. -/
def store (searcher : Searcher Thread Key Vector) (thread : Thread) (query : Text)
    (embedding : Vector) : Searcher Thread Key Vector :=
  match searcher.cache.get (cacheKey query) with
  | (some known, cache) =>
      -- another thread has stored it in between
      { searcher with
        cache
        misses := searcher.misses + 1
        calls := Function.update searcher.calls thread .idle
        answers := { query, embedding := known, hit := false } :: searcher.answers }
  | (none, cache) =>
      { searcher with
        cache := cache.set (cacheKey query) embedding
        misses := searcher.misses + 1
        calls := Function.update searcher.calls thread .idle
        answers := { query, embedding, hit := false } :: searcher.answers }

def step (searcher : Searcher Thread Key Vector) :
    Event Thread Vector → Option (Searcher Thread Key Vector)
  | .lookUp thread query =>
      match searcher.calls thread with
      | .idle => some (lookUp cacheKey searcher thread query)
      | _ => none
  | .compute thread embedding =>
      match searcher.calls thread with
      | .computing query =>
          some { searcher with
            calls := Function.update searcher.calls thread (.storing query embedding) }
      | _ => none
  | .fail thread =>
      match searcher.calls thread with
      | .computing _ =>
          some { searcher with calls := Function.update searcher.calls thread .idle }
      | _ => none
  | .store thread =>
      match searcher.calls thread with
      | .storing query embedding => some (store cacheKey searcher thread query embedding)
      | _ => none

end Steps

/-! ### What every run keeps -/

variable [DecidableEq Key] {cacheKey : Text → Key}
  {embeds : Text → Vector → Prop} {searcher : Searcher Thread Key Vector}

/-- What is computed is an embedding of the query, as the model may answer. -/
def ComputesEmbeddings (embeds : Text → Vector → Prop) (searcher : Searcher Thread Key Vector) :
    Event Thread Vector → Prop
  | .compute thread embedding =>
      ∀ query, searcher.calls thread = .computing query → embeds query embedding
  | _ => True

/-- The keys of the answers, the latest first. -/
def answeredKeys (cacheKey : Text → Key) (searcher : Searcher Thread Key Vector) : List Key :=
  searcher.answers.map (fun answer => cacheKey answer.query)

/-- An embedding of a query with this key. -/
def EmbedsKey (cacheKey : Text → Key) (embeds : Text → Vector → Prop) (key : Key)
    (embedding : Vector) : Prop :=
  ∃ query, cacheKey query = key ∧ embeds query embedding

/-- The cache holds the keys that were answered last with their latest answers, every answer is
counted once, and every embedding in it was computed for its key. -/
structure Consistent (cacheKey : Text → Key) (embeds : Text → Vector → Prop)
    (searcher : Searcher Thread Key Vector) : Prop where
  size : searcher.cache.maxSize = cacheSize
  recent : searcher.cache.Recent (answeredKeys cacheKey searcher)
  latest : ∀ key embedding, searcher.cache.find key = some embedding →
    ∃ answer, searcher.answers.find? (fun answer => cacheKey answer.query = key) = some answer ∧
      answer.embedding = embedding
  hits : searcher.hits = searcher.answers.countP (·.hit)
  misses : searcher.misses = searcher.answers.countP (fun answer => !answer.hit)
  computed : ∀ thread query embedding, searcher.calls thread = .storing query embedding →
    embeds query embedding
  answered : ∀ answer ∈ searcher.answers,
    EmbedsKey cacheKey embeds (cacheKey answer.query) answer.embedding

/-- What is cached was answered. -/
theorem Consistent.cached (consistent : Consistent cacheKey embeds searcher) {key : Key}
    {embedding : Vector} (found : searcher.cache.find key = some embedding) :
    EmbedsKey cacheKey embeds key embedding := by
  obtain ⟨answer, isLatest, same⟩ := consistent.latest key embedding found
  have answered := consistent.answered answer (List.mem_of_find?_eq_some isLatest)
  have isKey : cacheKey answer.query = key := by
    have passes := List.find?_some isLatest
    exact of_decide_eq_true passes
  rw [isKey, same] at answered
  exact answered

/-- After an answer for a key, a cache that holds the answer for it and nothing new besides holds
the latest answers. -/
theorem latest_cons (consistent : Consistent cacheKey embeds searcher)
    {cache : LruCache Key Vector} {answer : Answer Vector}
    (own : ∀ embedding, cache.find (cacheKey answer.query) = some embedding →
      embedding = answer.embedding)
    (others : ∀ key embedding, key ≠ cacheKey answer.query → cache.find key = some embedding →
      searcher.cache.find key = some embedding)
    (key : Key) (embedding : Vector) (found : cache.find key = some embedding) :
    ∃ latest, (answer :: searcher.answers).find?
        (fun answer => cacheKey answer.query = key) = some latest ∧
      latest.embedding = embedding := by
  by_cases same : cacheKey answer.query = key
  · refine ⟨answer, ?_, ?_⟩
    · exact List.find?_cons_of_pos (decide_eq_true same)
    · rw [← same] at found
      exact (own embedding found).symm
  · rw [List.find?_cons_of_neg (by simpa using same)]
    exact consistent.latest key embedding (others key embedding (Ne.symm same) found)

theorem consistent_initial :
    Consistent cacheKey embeds (initial Thread Key Vector) := by
  constructor
  · rfl
  · exact LruCache.recent_empty cacheSize cacheSize_positive
  · intro key embedding found
    cases found
  · rfl
  · rfl
  · intro thread query embedding isStoring
    cases isStoring
  · intro answer member
    cases member

section Sections

variable [DecidableEq Thread] {thread : Thread}

/-- Calls that change without a section under the lock. -/
theorem Consistent.calls (consistent : Consistent cacheKey embeds searcher) {call : Call Vector}
    (computed : ∀ query embedding, call = .storing query embedding → embeds query embedding) :
    Consistent cacheKey embeds
      { searcher with calls := Function.update searcher.calls thread call } := by
  constructor
  · exact consistent.size
  · exact consistent.recent
  · exact consistent.latest
  · exact consistent.hits
  · exact consistent.misses
  · intro other query embedding isStoring
    dsimp only at isStoring
    by_cases same : other = thread
    · rw [same, Function.update_self] at isStoring
      exact computed query embedding isStoring
    · rw [Function.update_of_ne same] at isStoring
      exact consistent.computed other query embedding isStoring
  · exact consistent.answered

theorem lookUp_consistent (consistent : Consistent cacheKey embeds searcher) (query : Text) :
    Consistent cacheKey embeds (lookUp cacheKey searcher thread query) := by
  unfold lookUp
  cases found : searcher.cache.find (cacheKey query) with
  | none =>
      rw [LruCache.get_none found]
      apply consistent.calls
      intro other embedding isStoring
      cases isStoring
  | some embedding =>
      obtain ⟨present, isHit⟩ := LruCache.get_some found
      rw [isHit]
      constructor
      · exact consistent.size
      · exact consistent.recent.renew embedding present
      · apply latest_cons consistent
        · intro other isFound
          rw [LruCache.find_renew, if_pos rfl] at isFound
          exact (Option.some.inj isFound).symm
        · intro key other another isFound
          rw [LruCache.find_renew, if_neg another] at isFound
          exact isFound
      · simp [consistent.hits]
      · simp [consistent.misses]
      · exact consistent.computed
      · intro answer member
        rcases List.mem_cons.mp member with same | earlier
        · rw [same]
          exact consistent.cached found
        · exact consistent.answered answer earlier

theorem store_consistent (consistent : Consistent cacheKey embeds searcher) {query : Text}
    {embedding : Vector} (computed : embeds query embedding) :
    Consistent cacheKey embeds (store cacheKey searcher thread query embedding) := by
  have others : ∀ other earlier later, Function.update searcher.calls thread .idle other =
      .storing earlier later → embeds earlier later := by
    intro other earlier later isStoring
    by_cases same : other = thread
    · rw [same, Function.update_self] at isStoring
      cases isStoring
    · rw [Function.update_of_ne same] at isStoring
      exact consistent.computed other earlier later isStoring
  unfold store
  cases found : searcher.cache.find (cacheKey query) with
  | none =>
      rw [LruCache.get_none found]
      have absent : cacheKey query ∉ searcher.cache.keys := by
        rw [LruCache.mem_keys_iff, found]
        exact Bool.false_ne_true
      have inserted : searcher.cache.set (cacheKey query) embedding =
          searcher.cache.insert (cacheKey query) embedding absent := by
        unfold LruCache.set
        rw [dif_neg absent]
      dsimp only
      rw [inserted]
      constructor
      · exact consistent.size
      · exact consistent.recent.insert embedding absent
      · apply latest_cons consistent
        · intro other isFound
          rcases LruCache.find_insert absent isFound with new | known
          · exact new.2
          · rw [found] at known
            cases known
        · intro key other another isFound
          exact (LruCache.find_insert absent isFound).resolve_left (fun new => another new.1)
      · simp [consistent.hits]
      · simp [consistent.misses]
      · exact others
      · intro answer member
        rcases List.mem_cons.mp member with same | earlier
        · rw [same]
          exact ⟨query, rfl, computed⟩
        · exact consistent.answered answer earlier
  | some known =>
      obtain ⟨present, isHit⟩ := LruCache.get_some found
      rw [isHit]
      constructor
      · exact consistent.size
      · exact consistent.recent.renew known present
      · apply latest_cons consistent
        · intro other isFound
          rw [LruCache.find_renew, if_pos rfl] at isFound
          exact (Option.some.inj isFound).symm
        · intro key other another isFound
          rw [LruCache.find_renew, if_neg another] at isFound
          exact isFound
      · simp [consistent.hits]
      · simp [consistent.misses]
      · exact others
      · intro answer member
        rcases List.mem_cons.mp member with same | earlier
        · rw [same]
          exact consistent.cached found
        · exact consistent.answered answer earlier

theorem step_consistent (consistent : Consistent cacheKey embeds searcher)
    {next : Event Thread Vector} (computes : ComputesEmbeddings embeds searcher next)
    {after : Searcher Thread Key Vector} (stepped : step cacheKey searcher next = some after) :
    Consistent cacheKey embeds after := by
  unfold step at stepped
  cases next with
  | lookUp thread query =>
      dsimp only at stepped
      split at stepped
      case h_1 =>
        rw [← Option.some.inj stepped]
        exact lookUp_consistent consistent query
      case h_2 => cases stepped
  | compute thread embedding =>
      dsimp only at stepped
      split at stepped
      case h_1 query isComputing =>
        rw [← Option.some.inj stepped]
        apply consistent.calls
        intro other later isStoring
        obtain ⟨sameQuery, sameEmbedding⟩ := Call.storing.inj isStoring
        rw [← sameQuery, ← sameEmbedding]
        exact computes query isComputing
      case h_2 => cases stepped
  | fail thread =>
      dsimp only at stepped
      split at stepped
      case h_1 =>
        rw [← Option.some.inj stepped]
        apply consistent.calls
        intro query embedding isStoring
        cases isStoring
      case h_2 => cases stepped
  | store thread =>
      dsimp only at stepped
      split at stepped
      case h_1 query embedding isStoring =>
        rw [← Option.some.inj stepped]
        exact store_consistent consistent (consistent.computed thread query embedding isStoring)
      case h_2 => cases stepped

/-- A query is answered at once exactly if its key is among the thousand answered last. -/
theorem Consistent.hit_iff (consistent : Consistent cacheKey embeds searcher) (query : Text) :
    (∃ embedding, (lookUp cacheKey searcher thread query).answers =
        { query, embedding, hit := true } :: searcher.answers) ↔
      cacheKey query ∈ (LruCache.recency (answeredKeys cacheKey searcher)).take cacheSize := by
  have recent := consistent.recent
  unfold LruCache.Recent at recent
  rw [consistent.size] at recent
  rw [← recent, List.mem_reverse, LruCache.mem_keys_iff]
  unfold lookUp
  cases found : searcher.cache.find (cacheKey query) with
  | none =>
      rw [LruCache.get_none found]
      apply iff_of_false
      · intro answered
        obtain ⟨embedding, same⟩ := answered
        exact List.cons_ne_self _ _ same.symm
      · exact Bool.false_ne_true
  | some embedding =>
      obtain ⟨present, isHit⟩ := LruCache.get_some found
      rw [isHit]
      exact iff_of_true ⟨embedding, rfl⟩ rfl

/-- In every order of the sections of any number of calls, failed ones among them, the cache holds
the thousand keys that were answered last, with their latest answers; every answer is an embedding
that was computed for a query with its key; hits and misses count each answer once; and the next
query is answered without the model exactly if its key is among the thousand. -/
theorem embedQuery_consistent (cacheKey : Text → Key) (embeds : Text → Vector → Prop)
    (events : List (Event Thread Vector)) (final : Searcher Thread Key Vector)
    (computes : Transitions.Each (step cacheKey) (ComputesEmbeddings embeds)
      (initial Thread Key Vector) events)
    (ran : Transitions.run (step cacheKey) (initial Thread Key Vector) events = some final) :
    Consistent cacheKey embeds final ∧ ∀ thread query,
      (∃ embedding, (lookUp cacheKey final thread query).answers =
          { query, embedding, hit := true } :: final.answers) ↔
        cacheKey query ∈ (LruCache.recency (answeredKeys cacheKey final)).take cacheSize := by
  have consistent : Consistent cacheKey embeds final :=
    Transitions.run_keeps (fun holds computed stepped => step_consistent holds computed stepped)
      consistent_initial computes ran
  exact ⟨consistent, fun _thread => consistent.hit_iff⟩

/-- Two threads compute the same query, and a third finds what the first has stored. -/
def sharedQuery : List (Event Nat Nat) :=
  [.lookUp 0 "note".toList, .lookUp 1 "note".toList, .compute 1 4, .compute 0 4, .store 1,
    .store 0, .lookUp 2 "note".toList]

theorem embedQuery_consistent_shared :
    ∃ final, Transitions.run (step id) (initial Nat Text Nat) sharedQuery = some final ∧
      Consistent id (fun query embedding => embedding = query.length) final ∧
      ∀ thread query, (∃ embedding, (lookUp id final thread query).answers =
          { query, embedding, hit := true } :: final.answers) ↔
        id query ∈ (LruCache.recency (answeredKeys id final)).take cacheSize := by
  have ran : (Transitions.run (step id) (initial Nat Text Nat) sharedQuery).isSome = true := by
    decide
  obtain ⟨final, isFinal⟩ := Option.isSome_iff_exists.mp ran
  have computes : ∀ thread embedding, embedding = "note".toList.length →
      ∀ searcher : Searcher Nat Text Nat, (∀ query, searcher.calls thread = .computing query →
        query = "note".toList) →
      ComputesEmbeddings (fun query embedding => embedding = query.length) searcher
        (.compute thread embedding) := by
    intro thread embedding isLength searcher only query isComputing
    rw [isLength, only query isComputing]
  refine ⟨final, isFinal, embedQuery_consistent id _ sharedQuery final ?_ isFinal⟩
  refine ⟨trivial, trivial, ?_, ?_, trivial, trivial, trivial, trivial⟩
  · apply computes 1 4 rfl
    intro query isComputing
    exact (Call.computing.inj isComputing).symm
  · apply computes 0 4 rfl
    intro query isComputing
    exact (Call.computing.inj isComputing).symm

end Sections

end QueryCache

end VaultSearch
