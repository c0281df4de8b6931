/-
A reranking that the daemon serves gives the scores of the local model.

The daemon sorts the scores with their positions, and the client writes each score back at its
position.  All texts are asked for, so nothing is cut off.
-/

import VaultSearch.Core.BackendSelection
import VaultSearch.Daemon.Server

set_option autoImplicit false

namespace VaultSearch

namespace Models

open Dialogue (Exchange)
open Procedure (Ran)

variable {number score vectors : Type}

/-- A reranker gives one score for each pair. -/
structure Reranker (score : Type) where
  predict : List (Text × Text) → List score
  length_predict : ∀ pairs, (predict pairs).length = pairs.length

def Reranker.scores (reranker : Reranker score) (query : Text) (texts : List Text) : List score :=
  reranker.predict (texts.map (fun text => (query, text)))

/-- The local model is loaded and scores without a fault. -/
def Answers (reranker : Reranker score) :
    Exchange ModelQuestion (ModelAnswer number score vectors) → Prop
  | ⟨.loadReranker, answer⟩ => answer = (.ok () : Except ErrorKind Unit)
  | ⟨.predict pairs, answer⟩ =>
      answer = (.ok (reranker.predict pairs) : Except ErrorKind (List score))
  | _ => True

/-! ### The local model -/

section Local

variable {reranker : Reranker score} {before after : ModelManager}
variable {exchanges : List (Exchange ModelQuestion (ModelAnswer number score vectors))}

theorem getReranker_outcome {outcome : Except ErrorKind Unit}
    (ran : Ran (getReranker : ManagerProgram number score vectors Unit) before exchanges outcome
      after) (answers : ∀ exchange ∈ exchanges, Answers reranker exchange) : outcome = .ok () := by
  cases Procedure.ran_bind.mp ran with
  | inl raised =>
      obtain ⟨kind, _ended, seen⟩ := raised
      cases (Procedure.ran_current.mp seen).2.1
  | inr reached =>
      obtain ⟨manager, middle, earlier, later, split, _seen, rest⟩ := reached
      by_cases loaded : manager.rerankerModel = true
      · rw [if_pos loaded] at rest
        exact (Procedure.ran_pure.mp rest).2.1
      · rw [if_neg loaded] at rest
        have asked : ∀ exchange ∈ later, Answers reranker exchange := by
          intro exchange member
          apply answers
          rw [split]
          exact List.mem_append_right _ member
        cases Procedure.ran_bind.mp rest with
        | inl raised =>
            obtain ⟨kind, _ended, asking⟩ := raised
            obtain ⟨_answer, _asked, impossible, _kept⟩ := Procedure.ran_ask.mp asking
            cases impossible
        | inr reached =>
            obtain ⟨answer, here, first, second, parts, asking, rest⟩ := reached
            obtain ⟨heard, question, same, _kept⟩ := Procedure.ran_ask.mp asking
            cases same
            have fine := asked ⟨.loadReranker, answer⟩ (by rw [parts, question]; simp)
            have answered : answer = .ok () := fine
            rw [answered] at rest
            cases Procedure.ran_bind.mp rest with
            | inl raised =>
                obtain ⟨kind, _ended, lifted⟩ := raised
                cases (Procedure.ran_lift.mp lifted).2.1
            | inr reached =>
                obtain ⟨_done, _here, _first, _second, _parts, _lifted, rest⟩ := reached
                exact (Procedure.ran_modify.mp rest).2.1

theorem localRerank_outcome {query : Text} {texts : List Text}
    {outcome : Except ErrorKind (List score)}
    (ran : Ran (localRerank query texts : ManagerProgram number score vectors (List score)) before
      exchanges outcome after) (answers : ∀ exchange ∈ exchanges, Answers reranker exchange) :
    outcome = .ok (reranker.scores query texts) := by
  cases Procedure.ran_bind.mp ran with
  | inl raised =>
      obtain ⟨kind, _ended, loading⟩ := raised
      cases getReranker_outcome loading answers
  | inr reached =>
      obtain ⟨_loaded, middle, earlier, later, split, _loading, rest⟩ := reached
      cases Procedure.ran_bind.mp rest with
      | inl raised =>
          obtain ⟨kind, _ended, asking⟩ := raised
          obtain ⟨_answer, _asked, impossible, _kept⟩ := Procedure.ran_ask.mp asking
          cases impossible
      | inr reached =>
          obtain ⟨answer, here, first, second, parts, asking, rest⟩ := reached
          obtain ⟨heard, question, same, _kept⟩ := Procedure.ran_ask.mp asking
          cases same
          have fine := answers ⟨.predict (texts.map (fun text => (query, text))), answer⟩
            (by rw [split, parts, question]; simp)
          have answered : answer = .ok (reranker.scores query texts) := fine
          rw [answered] at rest
          exact (Procedure.ran_lift.mp rest).2.1

/-- The daemon asks no other daemon. -/
theorem rerank_asDaemon {settings : ModelSettings} (daemon : settings.runningAsDaemon = true)
    (conversions : Conversions number score vectors) (query : Text) (texts : List Text) :
    rerank settings conversions query texts = localRerank query texts := by
  have optional : settings.isDaemonRequired = false := by
    rw [ModelSettings.isDaemonRequired, daemon]
    exact Bool.and_false _
  have unused : checkDaemon settings conversions false = pure false := by
    rw [checkDaemon, if_pos daemon]
  rw [rerank, callDaemon, unused, allowed_eq optional]
  rfl

end Local

/-! ### The handler -/

section Handler

variable {conversions : Conversions number score vectors} {wire : Wire conversions}
variable {server : DaemonServer} {settings : ModelSettings} {reranker : Reranker score}
variable {query : Text} {texts : List Text} {before after : ModelManager}
variable {exchanges : List (Exchange ModelQuestion (ModelAnswer number score vectors))}

/-- `validate_rerank` takes the request of the client. -/
def Accepted (wire : Wire conversions) (server : DaemonServer) (query : Text)
    (texts : List Text) : Prop :=
  server.validateRerank wire (.string query) (.array (texts.map Json.string))
    (.number (wire.ofInt texts.length)) = .ok (query, texts, texts.length)

/-- The answer to an accepted request. -/
def rerankResponse (wire : Wire conversions) (reranker : Reranker score) (query : Text)
    (texts : List Text) : DaemonResponse number :=
  { status := 200
    body := DaemonServer.scoresBody wire
      (DaemonServer.topScores wire texts.length (reranker.scores query texts)) }

theorem answerRerank_outcome (daemon : settings.runningAsDaemon = true)
    {outcome : Except ErrorKind (DaemonResponse number)}
    (ran : Ran (DaemonServer.answerRerank wire settings query texts texts.length) before exchanges
      outcome after) (answers : ∀ exchange ∈ exchanges, Answers reranker exchange) :
    outcome = .ok (rerankResponse wire reranker query texts) := by
  unfold DaemonServer.answerRerank at ran
  rw [rerank_asDaemon daemon] at ran
  cases Procedure.ran_handle.mp ran with
  | inl returned =>
      obtain ⟨response, ended, ran⟩ := returned
      obtain ⟨scores, middle, earlier, later, split, scored, rest⟩ := Procedure.ran_bind_ok.mp ran
      have same := localRerank_outcome scored (fun exchange member =>
        answers exchange (split ▸ List.mem_append_left later member))
      cases same
      rw [ended, (Procedure.ran_pure.mp rest).2.1]
      rfl
  | inr raised =>
      obtain ⟨kind, middle, earlier, later, split, failed, _rest⟩ := raised
      cases Procedure.ran_bind.mp failed with
      | inl scoring =>
          obtain ⟨_kind, _same, scored⟩ := scoring
          cases localRerank_outcome scored (fun exchange member =>
            answers exchange (split ▸ List.mem_append_left later member))
      | inr reached =>
          obtain ⟨_scores, _here, _first, _second, _parts, _scored, rest⟩ := reached
          cases (Procedure.ran_pure.mp rest).2.1

theorem rerankBody_eq (accepted : Accepted wire server query texts)
    (fits : wire.bodyLength (DaemonClient.rerankRequest wire query texts texts.length) ≤
      server.maxRequestBytes) :
    DaemonServer.rerankBody wire server settings
        (DaemonClient.rerankRequest wire query texts texts.length) =
      DaemonServer.answerRerank wire settings query texts texts.length := by
  unfold DaemonServer.rerankBody DaemonServer.readJson
  rw [if_neg (Nat.not_lt.mpr fits)]
  have valid : (Except.ok (DaemonClient.rerankRequest wire query texts texts.length) >>=
      fun data => server.validateRerank wire (JsonObject.get data "query".toList)
        (JsonObject.get data "texts".toList) (JsonObject.get data "top_k".toList)) =
      Except.ok (query, texts, texts.length) := accepted
  rw [valid]

theorem handleRerank_outcome (daemon : settings.runningAsDaemon = true)
    (accepted : Accepted wire server query texts)
    (fits : wire.bodyLength (DaemonClient.rerankRequest wire query texts texts.length) ≤
      server.maxRequestBytes) (ready : server.snapshotStatus before = .ready)
    {outcome : Except ErrorKind (DaemonResponse number)}
    (ran : Ran (DaemonServer.handleRerank wire server settings
      (DaemonClient.rerankRequest wire query texts texts.length)) before exchanges outcome after)
    (answers : ∀ exchange ∈ exchanges, Answers reranker exchange) :
    outcome = .ok (rerankResponse wire reranker query texts) := by
  cases Procedure.ran_bind.mp ran with
  | inl raised =>
      obtain ⟨kind, _ended, seen⟩ := raised
      cases (Procedure.ran_current.mp seen).2.1
  | inr reached =>
      obtain ⟨manager, middle, earlier, later, split, seen, rest⟩ := reached
      obtain ⟨empty, same, _kept⟩ := Procedure.ran_current.mp seen
      cases same
      rw [if_pos ready, rerankBody_eq accepted fits] at rest
      rw [empty, List.nil_append] at split
      rw [split] at answers
      exact answerRerank_outcome daemon rest answers

end Handler

/-! ### The client -/

section Client

variable {conversions : Conversions number score vectors} {wire : Wire conversions}

theorem readPair_encoded (position : Nat) (value : score) :
    DaemonClient.readPair conversions
        (.array [.number (wire.ofInt position), .number (wire.ofFloat value)]) =
      .ok (position, value) := by
  have first : Json.item 0 (.array [.number (wire.ofInt position), .number (wire.ofFloat value)]) =
      .ok (.number (wire.ofInt position)) := rfl
  have second : Json.item 1 (.array [.number (wire.ofInt position), .number (wire.ofFloat value)]) =
      .ok (.number (wire.ofFloat value)) := rfl
  unfold DaemonClient.readPair
  rw [first, second]
  simp only [bind, Except.bind, pure, Except.pure, wire.int_ofInt, wire.float_ofFloat]

/-- The pairs as the client reads them. -/
def readPairs (pairs : List (Nat × score)) : List (Int × score) :=
  pairs.map (fun pair => ((pair.1 : Int), pair.2))

theorem mapM_readPair (pairs : List (Nat × score)) :
    (pairs.map (fun pair => Json.array [.number (wire.ofInt pair.1),
      .number (wire.ofFloat pair.2)])).mapM (DaemonClient.readPair conversions) =
        .ok (readPairs pairs) := by
  induction pairs with
  | nil => rfl
  | cons head tail ih =>
      rw [List.map_cons, List.mapM_cons, readPair_encoded, ih]
      rfl

/-- The client writes each score at its position. -/
theorem originalOrder_eq (pairs : List (Nat × score)) :
    ∀ start : List score, (∀ pair ∈ pairs, pair.1 < start.length) →
      originalOrder start (readPairs pairs) = .ok (Ranking.placeAll start pairs) := by
  induction pairs with
  | nil => exact fun _start _inside => rfl
  | cons head tail ih =>
      intro start inside
      have here := inside head List.mem_cons_self
      have rest := ih (start.set head.1 head.2) (by
        intro pair member
        rw [List.length_set]
        exact inside pair (List.mem_cons_of_mem _ member))
      unfold readPairs at rest ⊢
      rw [List.map_cons, originalOrder, if_pos (Int.ofNat_lt.mpr here), setScore,
        if_pos (Int.natCast_nonneg _), Int.toNat_natCast]
      exact rest

/-- Whatever the order in which the scores arrive. -/
theorem originalOrder_topScores (zero : score) (scores : List score) :
    originalOrder (List.replicate scores.length zero)
      (readPairs (DaemonServer.topScores wire scores.length scores)) = .ok scores := by
  have whole : DaemonServer.topScores wire scores.length scores =
      (Ranking.indexed scores).mergeSort (fun left right => !wire.less left.2 right.2) := by
    apply List.take_of_length_le
    rw [List.length_mergeSort, Ranking.length_indexed]
  have order := List.mergeSort_perm (Ranking.indexed scores)
    (fun left right => !wire.less left.2 right.2)
  have size : (List.replicate scores.length zero).length = scores.length := List.length_replicate
  rw [whole, originalOrder_eq, Ranking.placeAll_indexed order size]
  intro pair member
  have inside := List.mem_map_of_mem (f := Prod.fst) (order.mem_iff.mp member)
  rw [Ranking.indexed_positions, List.mem_range] at inside
  rw [size]
  exact inside

end Client

/-! ### Both processes -/

/-- A client and a daemon. -/
structure Deployment (conversions : Conversions number score vectors) where
  settings : ModelSettings
  daemonSettings : ModelSettings
  daemon : daemonSettings.runningAsDaemon = true
  server : DaemonServer
  wire : Wire conversions
  reranker : Reranker score

section Deployed

variable {conversions : Conversions number score vectors}
variable (deployment : Deployment conversions) (query : Text) (texts : List Text)

/-- The answer is what the handler of a ready daemon made of the request; request and response
keep the limits of their lengths. -/
inductive Served : Transport number → Prop where
  | handled {before after : ModelManager}
      {exchanges : List (Exchange ModelQuestion (ModelAnswer number score vectors))}
      {response : DaemonResponse number}
      (ready : deployment.server.snapshotStatus before = .ready)
      (requestFits : deployment.wire.bodyLength
        (DaemonClient.rerankRequest deployment.wire query texts texts.length) ≤
          deployment.server.maxRequestBytes)
      (ran : Ran (DaemonServer.handleRerank deployment.wire deployment.server
          deployment.daemonSettings
          (DaemonClient.rerankRequest deployment.wire query texts texts.length))
        before exchanges (.ok response) after)
      (answers : ∀ exchange ∈ exchanges, Answers deployment.reranker exchange)
      (responseFits : deployment.wire.bodyLength response.body ≤ DaemonClient.maxResponseBytes) :
      Served (DaemonClient.transport deployment.wire response)

/-- A call, in any state that calls may have left, that finds the daemon ready and is served. -/
inductive ThroughDaemon : Except ErrorKind (List score) → Prop where
  | called {entries : List (ModelEntry number score vectors)} {before middle after : ModelManager}
      {probing rest : List (Exchange ModelQuestion (ModelAnswer number score vectors))}
      {answer : Transport number} {outcome : Except ErrorKind (List score)}
      (history : ModelHistory deployment.settings conversions {} entries before)
      (probed : Ran (checkDaemon deployment.settings conversions false) before probing (.ok true)
        middle)
      (served : Served deployment query texts answer)
      (ran : Ran (rerank deployment.settings conversions query texts) before
        (probing ++ ⟨.rerank query texts texts.length, answer⟩ :: rest) outcome after) :
      ThroughDaemon outcome

/-- The local model was asked. -/
inductive ScoredLocally : Except ErrorKind (List score) → Prop where
  | scored {before after : ModelManager}
      {exchanges : List (Exchange ModelQuestion (ModelAnswer number score vectors))}
      {outcome : Except ErrorKind (List score)}
      (ran : Ran (localRerank query texts : ManagerProgram number score vectors (List score)) before
        exchanges outcome after)
      (answers : ∀ exchange ∈ exchanges, Answers deployment.reranker exchange) :
      ScoredLocally outcome

variable {deployment query texts}

theorem history_consistent {settings : ModelSettings} {before after : ModelManager}
    {entries : List (ModelEntry number score vectors)}
    (history : ModelHistory settings conversions before entries after) :
    Consistent before → Consistent after := by
  induction history with
  | finished here => exact fun consistent => consistent
  | call ran later ih => exact fun consistent => ih (steady_call.kept ran consistent)
  | idle later ih => exact fun consistent => ih consistent

theorem Accepted.filled {wire : Wire conversions} {server : DaemonServer}
    (accepted : Accepted wire server query texts) : texts ≠ [] := by
  intro empty
  unfold Accepted DaemonServer.validateRerank at accepted
  rw [empty] at accepted
  cases checked : server.validateQuery (Json.string query : Json number) with
  | error error =>
      rw [checked] at accepted
      cases accepted
  | ok query =>
      rw [checked] at accepted
      cases accepted

/-- The answer of a daemon that served an accepted request. -/
theorem Served.received {answer : Transport number}
    (served : Served deployment query texts answer)
    (accepted : Accepted deployment.wire deployment.server query texts) :
    answer = .received (.object (DaemonServer.scoresBody deployment.wire
      (DaemonServer.topScores deployment.wire texts.length
        (deployment.reranker.scores query texts)))) := by
  cases served with
  | handled ready requestFits ran answers responseFits =>
      cases handleRerank_outcome deployment.daemon accepted requestFits ready ran answers
      unfold DaemonClient.transport
      rw [if_neg (fun other => other rfl), if_neg (Nat.not_lt.mpr responseFits)]
      rfl

theorem clientRerank_ran {answer : Transport number}
    (served : Served deployment query texts answer)
    (accepted : Accepted deployment.wire deployment.server query texts) (here : ModelManager) :
    Ran (DaemonClient.rerank conversions query texts texts.length) here
      [⟨.rerank query texts texts.length, answer⟩]
      (.ok (readPairs (DaemonServer.topScores deployment.wire texts.length
        (deployment.reranker.scores query texts)))) here := by
  have filled : ¬texts.isEmpty = true := by
    rw [List.isEmpty_iff]
    exact accepted.filled
  unfold DaemonClient.rerank
  rw [if_neg filled, served.received accepted]
  apply Procedure.ran_bind_ok.mpr
  refine ⟨_, here, [⟨.rerank query texts texts.length, _⟩], [], rfl,
    Procedure.ran_ask.mpr ⟨_, rfl, rfl, rfl⟩, ?_⟩
  exact Procedure.ran_lift.mpr ⟨rfl, (mapM_readPair _).symm, rfl⟩

/-- A served call returns the scores of the model. -/
theorem rerank_served {before middle : ModelManager}
    {probing : List (Exchange ModelQuestion (ModelAnswer number score vectors))}
    {answer : Transport number} (consistent : Consistent before)
    (accepted : Accepted deployment.wire deployment.server query texts)
    (probed : Ran (checkDaemon deployment.settings conversions false) before probing (.ok true)
      middle)
    (served : Served deployment query texts answer) :
    Ran (rerank deployment.settings conversions query texts) before
      (probing ++ [⟨.rerank query texts texts.length, answer⟩])
      (.ok (deployment.reranker.scores query texts)) middle := by
  obtain ⟨_ready, same, connected⟩ := checkDaemon_returns.returned probed consistent
  cases same
  have size : (deployment.reranker.scores query texts).length = texts.length := by
    rw [Reranker.scores, deployment.reranker.length_predict, List.length_map]
  have asked := (onClient_ran (connected rfl)).mpr (clientRerank_ran served accepted middle)
  have called : Ran (callDaemon deployment.settings conversions "rerank".toList
      (onClient (DaemonClient.rerank conversions query texts texts.length))) before
      (probing ++ [⟨.rerank query texts texts.length, answer⟩])
      (.ok (some (readPairs (DaemonServer.topScores deployment.wire texts.length
        (deployment.reranker.scores query texts))))) middle := by
    apply Procedure.ran_bind_ok.mpr
    refine ⟨true, middle, probing, _, rfl, probed, ?_⟩
    exact Procedure.ran_handle.mpr (Or.inl ⟨_, rfl, Procedure.ran_map.mpr ⟨_, rfl, asked⟩⟩)
  apply Procedure.ran_bind_ok.mpr
  refine ⟨_, middle, _, [], (List.append_nil _).symm, called, ?_⟩
  apply Procedure.ran_lift.mpr
  refine ⟨rfl, ?_, rfl⟩
  have back := @originalOrder_topScores _ _ _ conversions deployment.wire conversions.zero
    (deployment.reranker.scores query texts)
  rw [size] at back
  exact back.symm

/-- A reranking through the daemon returns, and what it returns is the list of the local model. -/
theorem rerank_remote_eq_local (accepted : Accepted deployment.wire deployment.server query texts)
    {remote localOutcome : Except ErrorKind (List score)}
    (through : ThroughDaemon deployment query texts remote)
    (scored : ScoredLocally deployment query texts localOutcome) :
    ∃ scores, remote = .ok scores ∧ localOutcome = .ok scores ∧ scores.length = texts.length := by
  refine ⟨deployment.reranker.scores query texts, ?_, ?_, ?_⟩
  · cases through with
    | @called entries before middle after probing rest answer outcome history probed served ran =>
        have consistent := history_consistent history
          (fun used => absurd used Bool.false_ne_true)
        have known := rerank_served consistent accepted probed served
        have asked : ∀ exchange : Exchange ModelQuestion (ModelAnswer number score vectors),
            (probing ++ [exchange]) ++ rest = (probing ++ exchange :: rest) ++ [] := by
          intro exchange
          rw [List.append_nil, List.append_assoc, List.singleton_append]
        have same := Dialogue.transcript_unique known ran (asked _)
        exact (Prod.mk.inj same.1).1.symm
  · cases scored with
    | scored ran answers => exact localRerank_outcome ran answers
  · rw [Reranker.scores, deployment.reranker.length_predict, List.length_map]

end Deployed

/-! ### Two texts -/

/-- The lengths are those of a small request and of its answer. -/
def wholeWire : Wire wholeConversions where
  ofInt value := value
  ofFloat value := value
  asInt value := some value
  bodyLength data := if (data.lookup "scores".toList).isSome then 28 else 56
  less left right := left < right
  asInt_ofInt _value := rfl
  int_ofInt _value := rfl
  float_ofFloat _value := rfl

/-- Longer pairs score higher. -/
def lengthReranker : Reranker Int where
  predict pairs := pairs.map (fun pair => (pair.1 ++ pair.2).length)
  length_predict _pairs := List.length_map _

def twoProcesses : Deployment wholeConversions where
  settings := optionalSettings
  daemonSettings := { optionalSettings with runningAsDaemon := true }
  daemon := rfl
  server :=
    { maxRequestBytes := 2 * 1024 * 1024
      maxTexts := 512
      maxTextLength := 100000
      maxQueryLength := 10000
      healthState := .ready }
  wire := wholeWire
  reranker := lengthReranker

def shortAndLong : List Text := ["one".toList, "three".toList]

def readyManager : ModelManager :=
  { embedModel := true, rerankerModel := true }

theorem shortAndLong_served :
    Served twoProcesses "note".toList shortAndLong
      (DaemonClient.transport wholeWire
        (rerankResponse wholeWire lengthReranker "note".toList shortAndLong)) := by
  have ran : Ran (DaemonServer.handleRerank wholeWire twoProcesses.server
        twoProcesses.daemonSettings
        (DaemonClient.rerankRequest wholeWire "note".toList shortAndLong shortAndLong.length))
      readyManager
      [⟨.predict (shortAndLong.map (fun text => ("note".toList, text))),
        (.ok [7, 9] : Except ErrorKind (List Int))⟩]
      (.ok (rerankResponse wholeWire lengthReranker "note".toList shortAndLong)) readyManager := by
    exact .ask _ (.done _)
  refine .handled rfl (by decide) ran ?_ (by decide)
  intro exchange member
  rw [List.mem_singleton.mp member]
  rfl

theorem shortAndLong_through :
    ThroughDaemon twoProcesses "note".toList shortAndLong (.ok [7, 9]) := by
  have probed : Ran (checkDaemon optionalSettings wholeConversions false) ({} : ModelManager)
      [⟨.clock, (17000000000000 : Int)⟩, ⟨.health, readyHealth⟩, ⟨.health, readyHealth⟩]
      (.ok true) (({} : ModelManager).checkedAt 17000000000000).connected := by
    exact .ask _ (.ask _ (.ask _ (.done _)))
  exact .called (.finished _) probed shortAndLong_served
    (rerank_served (fun used => absurd used Bool.false_ne_true) rfl probed shortAndLong_served)

theorem shortAndLong_local :
    ScoredLocally twoProcesses "note".toList shortAndLong (.ok [7, 9]) := by
  have ran : Ran (localRerank "note".toList shortAndLong :
        ManagerProgram Int Int (List (List Int)) (List Int)) readyManager
      [⟨.predict (shortAndLong.map (fun text => ("note".toList, text))),
        (.ok [7, 9] : Except ErrorKind (List Int))⟩] (.ok [7, 9]) readyManager := by
    exact .ask _ (.done _)
  refine .scored ran ?_
  intro exchange member
  rw [List.mem_singleton.mp member]
  rfl

theorem rerank_remote_eq_local_shortAndLong :
    ∃ scores : List Int, (Except.ok [7, 9] : Except ErrorKind (List Int)) = .ok scores ∧
      (Except.ok [7, 9] : Except ErrorKind (List Int)) = .ok scores ∧
        scores.length = shortAndLong.length :=
  @rerank_remote_eq_local Int Int (List (List Int)) wholeConversions twoProcesses "note".toList
    shortAndLong rfl _ _ shortAndLong_through shortAndLong_local

end Models

end VaultSearch
