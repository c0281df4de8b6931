/-
Which backend answers a call of the model manager, in every run of calls.

The flags and settings stay the same during a run.  What was last seen of the daemon may be out
of date; it never holds a ready daemon without its client, and no failure of the daemon keeps a
call from the local models where these are allowed.
-/

import VaultSearch.Core.Models

set_option autoImplicit false

namespace VaultSearch

namespace Models

open Dialogue (Exchange)
open Procedure (Ran Abides Round Rounds)

/-! ### Runs of calls -/

inductive ModelCall where
  | embedQueries (texts : List Text)
  | embedCorpus (texts : List Text)
  | rerank (query : Text) (texts : List Text)
  | warmup
  deriving DecidableEq

inductive CallResult (number score vectors : Type) where
  | vectors (value : vectors)
  | scores (value : List score)
  | warmed (report : WarmupReport number)

variable {number score vectors : Type}

section Calls

variable (settings : ModelSettings) (conversions : Conversions number score vectors)

def ModelCall.program : ModelCall →
    ManagerProgram number score vectors (CallResult number score vectors)
  | .embedQueries texts => .vectors <$> Models.embedQueries settings conversions texts
  | .embedCorpus texts => .vectors <$> Models.embedCorpus settings conversions texts
  | .rerank query texts => .scores <$> Models.rerank settings conversions query texts
  | .warmup => .warmed <$> Models.warmup settings conversions

/-- What the client of the daemon is asked in a call, and what the call makes of its answer. -/
def ModelCall.daemonPart : ModelCall →
    ManagerProgram number score vectors (CallResult number score vectors)
  | .embedQueries texts => .vectors <$> DaemonClient.embed conversions .queries texts
  | .embedCorpus texts => .vectors <$> DaemonClient.embed conversions .corpus texts
  | .rerank query texts => .scores <$> (do
      let results ← DaemonClient.rerank conversions query texts texts.length
      Procedure.lift (originalOrder (List.replicate texts.length conversions.zero) results))
  | .warmup => .warmed <$> daemonReport conversions

/-- A call with all that it asked and heard. -/
structure ModelEntry (number score vectors : Type) where
  call : ModelCall
  before : ModelManager
  exchanges : List (Exchange ModelQuestion (ModelAnswer number score vectors))
  outcome : Except ErrorKind (CallResult number score vectors)
  after : ModelManager

/-- Calls one after the other; idle models may be unloaded between them. -/
inductive ModelHistory :
    ModelManager → List (ModelEntry number score vectors) → ModelManager → Prop where
  | finished (here : ModelManager) : ModelHistory here [] here
  | call {call : ModelCall} {before middle after : ModelManager}
      {exchanges : List (Exchange ModelQuestion (ModelAnswer number score vectors))}
      {outcome : Except ErrorKind (CallResult number score vectors)}
      {rest : List (ModelEntry number score vectors)}
      (ran : Ran (ModelCall.program settings conversions call) before exchanges outcome middle)
      (later : ModelHistory middle rest after) :
      ModelHistory before ({ call, before, exchanges, outcome, after := middle } :: rest) after
  | idle {before after : ModelManager} {rest : List (ModelEntry number score vectors)}
      (later : ModelHistory before.unloaded rest after) : ModelHistory before rest after

/-! ### Safety and availability -/

/-- The exchanges end with those of a method of the client, which returned the value. -/
def DaemonAnswered {result : Type} (method : ManagerProgram number score vectors result)
    (exchanges : List (Exchange ModelQuestion (ModelAnswer number score vectors)))
    (value : result) : Prop :=
  ∃ here earlier later after, exchanges = earlier ++ later ∧
    Ran method here later (.ok value) after

/-- No local model is loaded or used, and a result is what the daemon answered last. -/
structure DaemonOnly (entry : ModelEntry number score vectors) : Prop where
  noLocalModel : ∀ exchange ∈ entry.exchanges, exchange.1.isLocal = false
  answered : ∀ value, entry.outcome = .ok value →
    DaemonAnswered (ModelCall.daemonPart conversions entry.call) entry.exchanges value

variable {reply result : Type}

/-- The daemon attempt of a call: it does not reach a ready daemon, or the operation fails. -/
inductive DaemonFails (method : ManagerProgram number score vectors reply) (before : ModelManager) :
    List (Exchange ModelQuestion (ModelAnswer number score vectors)) → Prop where
  | unavailable {exchanges : List (Exchange ModelQuestion (ModelAnswer number score vectors))}
      {after : ModelManager}
      (probed : Ran (checkDaemon settings conversions false) before exchanges (.ok false) after) :
      DaemonFails method before exchanges
  | failing {probing asking : List (Exchange ModelQuestion (ModelAnswer number score vectors))}
      {middle after : ModelManager} {kind : ErrorKind}
      (probed : Ran (checkDaemon settings conversions false) before probing (.ok true) middle)
      (failed : Ran method middle asking (.error kind) after)
      (handled : kind.isDaemonFailure = true) :
      DaemonFails method before (probing ++ asking)

/-- One round of an operation falls back on the local model when its daemon attempt fails; when
it does not fail, the daemon has answered or raised an error that is not handled. -/
structure FallsBack (method : ManagerProgram number score vectors reply)
    (localPart : ManagerProgram number score vectors result)
    (round : Round ModelQuestion (ModelAnswer number score vectors) ModelManager ErrorKind
      result) : Prop where
  fallback : ∀ failing rest, round.exchanges = failing ++ rest →
    DaemonFails settings conversions method round.before failing →
      ∃ here, Ran localPart here rest round.outcome round.after
  settled : (∃ failing rest, round.exchanges = failing ++ rest ∧
      DaemonFails settings conversions method round.before failing) ∨
    ∃ probing asking rest middle after outcome,
      round.exchanges = probing ++ asking ++ rest ∧
        Ran (checkDaemon settings conversions false) round.before probing (.ok true) middle ∧
          Ran method middle asking outcome after ∧
            ∀ kind, outcome = .error kind →
              kind.isDaemonFailure = false ∧ round.outcome = .error kind

/-- `embed_queries` and `embed_corpus` may take several rounds. -/
def EmbedAvailable (kind : EmbedKind) (texts : List Text)
    (entry : ModelEntry number score vectors) : Prop :=
  ∃ outcome rounds, entry.outcome = outcome.map .vectors ∧
    Rounds .outOfTime (embedOnce settings conversions kind texts) entry.before entry.exchanges
      rounds outcome entry.after ∧
      ∀ round ∈ rounds, FallsBack settings conversions (DaemonClient.embed conversions kind texts)
        (localEmbed settings kind texts) round

def RerankAvailable (query : Text) (texts : List Text)
    (entry : ModelEntry number score vectors) : Prop :=
  ∃ outcome, entry.outcome = outcome.map .scores ∧
    FallsBack settings conversions (DaemonClient.rerank conversions query texts texts.length)
      (localRerank query texts)
      { before := entry.before, exchanges := entry.exchanges, outcome, after := entry.after }

def Available (entry : ModelEntry number score vectors) : Prop :=
  match entry.call with
  | .embedQueries texts => EmbedAvailable settings conversions .queries texts entry
  | .embedCorpus texts => EmbedAvailable settings conversions .corpus texts entry
  | .rerank query texts => RerankAvailable settings conversions query texts entry
  | .warmup => True

structure BackendSelected (entry : ModelEntry number score vectors) : Prop where
  required : settings.isDaemonRequired = true → DaemonOnly conversions entry
  optional : settings.isDaemonRequired = false → Available settings conversions entry

end Calls

/-! ### What the daemon part of a call asks, and what it leaves -/

def Remote (question : ModelQuestion) : Prop :=
  question.isLocal = false

/-- A daemon that is taken for ready has its client. -/
def Consistent (manager : ModelManager) : Prop :=
  manager.useDaemon = true → manager.daemonClient = true

/-- A program that needs no local model and leaves a consistent manager. -/
abbrev Sound {result : Type} (body : ManagerProgram number score vectors result) : Prop :=
  Abides Remote Consistent body

section Remote

variable {settings : ModelSettings} {conversions : Conversions number score vectors}
variable {result : Type}

theorem sound_readClock : Sound (readClock : ManagerProgram number score vectors Int) :=
  Procedure.abides_ask rfl

theorem sound_health :
    Sound (DaemonClient.health : ManagerProgram number score vectors (JsonObject number)) :=
  Procedure.abides_bind (Procedure.abides_ask rfl) (fun _answer => Procedure.abides_lift)

theorem sound_isDaemonRunning {loopbackHost : Bool} :
    Sound (isDaemonRunning loopbackHost : ManagerProgram number score vectors Bool) := by
  unfold isDaemonRunning
  split
  · exact Procedure.abides_pure
  · apply Procedure.abides_handle
    · exact Procedure.abides_bind sound_health (fun _health => Procedure.abides_lift)
    · intro kind
      split
      · exact Procedure.abides_pure
      · exact Procedure.abides_raise

theorem sound_chooseClient :
    Sound (chooseClient settings : ManagerProgram number score vectors Unit) := by
  apply Procedure.abides_bind Procedure.abides_current
  intro manager
  split
  · exact Procedure.abides_pure
  · apply Procedure.abides_bind sound_isDaemonRunning
    intro running
    split
    · exact Procedure.abides_raise
    · split
      · exact Procedure.abides_raise
      · exact Procedure.abides_pure

theorem sound_probe : Sound (probe settings conversions) := by
  apply Procedure.abides_handle
  · apply Procedure.abides_bind sound_chooseClient
    intro _chosen
    exact Procedure.abides_bind sound_health (fun _health => Procedure.abides_lift)
  · exact fun _kind => Procedure.abides_pure

theorem sound_invalidated {retryImmediately : Bool} :
    Sound (Procedure.modify (fun manager => manager.invalidated retryImmediately) :
      ManagerProgram number score vectors Unit) :=
  Procedure.abides_modify (fun _here _consistent used => absurd used Bool.false_ne_true)

theorem sound_checkDaemon {force : Bool} : Sound (checkDaemon settings conversions force) := by
  unfold checkDaemon
  split
  · exact Procedure.abides_pure
  · split
    · exact Procedure.abides_pure
    · apply Procedure.abides_bind sound_readClock
      intro now
      apply Procedure.abides_bind Procedure.abides_current
      intro manager
      split
      · exact Procedure.abides_pure
      · apply Procedure.abides_bind
        · exact Procedure.abides_modify (fun _here consistent => consistent)
        · intro _changed
          apply Procedure.abides_bind sound_probe
          intro ready
          split
          · apply Procedure.abides_bind
            · exact Procedure.abides_modify (fun _here _consistent _used => rfl)
            · exact fun _changed => Procedure.abides_pure
          · exact Procedure.abides_bind sound_invalidated (fun _changed => Procedure.abides_pure)

theorem sound_raiseIfLocalFallbackForbidden {operation : Text} :
    Sound (raiseIfLocalFallbackForbidden settings operation :
      ManagerProgram number score vectors Unit) := by
  unfold raiseIfLocalFallbackForbidden
  split
  · exact Procedure.abides_raise
  · exact Procedure.abides_pure

theorem sound_onClient {method : ManagerProgram number score vectors result}
    (sound : Sound method) : Sound (onClient method) := by
  apply Procedure.abides_bind Procedure.abides_current
  intro manager
  split
  · exact sound
  · exact Procedure.abides_raise

theorem sound_callDaemon {operation : Text}
    {callback : ManagerProgram number score vectors result} (sound : Sound callback) :
    Sound (callDaemon settings conversions operation callback) := by
  apply Procedure.abides_bind sound_checkDaemon
  intro ready
  split
  · exact Procedure.abides_pure
  · apply Procedure.abides_handle
    · exact Procedure.abides_bind sound (fun _value => Procedure.abides_pure)
    · intro kind
      split
      · apply Procedure.abides_bind sound_invalidated
        intro _changed
        exact Procedure.abides_bind sound_raiseIfLocalFallbackForbidden
          (fun _allowed => Procedure.abides_pure)
      · exact Procedure.abides_raise

theorem sound_embed {kind : EmbedKind} {texts : List Text} :
    Sound (DaemonClient.embed conversions kind texts :
      ManagerProgram number score vectors vectors) := by
  unfold DaemonClient.embed
  split
  · exact Procedure.abides_pure
  · exact Procedure.abides_bind (Procedure.abides_ask rfl) (fun _answer => Procedure.abides_lift)

theorem sound_rerank {query : Text} {texts : List Text} {topK : Nat} :
    Sound (DaemonClient.rerank conversions query texts topK :
      ManagerProgram number score vectors (List (Int × score))) := by
  unfold DaemonClient.rerank
  split
  · exact Procedure.abides_pure
  · exact Procedure.abides_bind (Procedure.abides_ask rfl) (fun _answer => Procedure.abides_lift)

end Remote

/-! ### Where the daemon is required -/

section Required

variable {settings : ModelSettings} {conversions : Conversions number score vectors}
variable {result : Type} {before after : ModelManager}
variable {exchanges : List (Exchange ModelQuestion (ModelAnswer number score vectors))}

theorem forbidden_eq (required : settings.isDaemonRequired = true) (operation : Text) :
    (raiseIfLocalFallbackForbidden settings operation :
        ManagerProgram number score vectors Unit) =
      Procedure.raise (.daemonRequiredError (daemonRequiredMessage operation)) :=
  if_pos required

theorem allowed_eq (optional : settings.isDaemonRequired = false) (operation : Text) :
    (raiseIfLocalFallbackForbidden settings operation :
        ManagerProgram number score vectors Unit) = pure () :=
  if_neg (fun required => Bool.false_ne_true (optional.symm.trans required))

/-- A method of the client that returns has run. -/
theorem onClient_ok {method : ManagerProgram number score vectors result} {value : result}
    (ran : Ran (onClient method) before exchanges (.ok value) after) :
    Ran method before exchanges (.ok value) after := by
  obtain ⟨manager, middle, earlier, later, split, seen, rest⟩ := Procedure.ran_bind_ok.mp ran
  obtain ⟨empty, same, kept⟩ := Procedure.ran_current.mp seen
  cases same
  rw [split, empty, List.nil_append]
  rw [kept] at rest
  by_cases kept : before.daemonClient = true
  · rw [if_pos kept] at rest
    exact rest
  · rw [if_neg kept] at rest
    cases (Procedure.ran_raise.mp rest).2.1

/-- What `_call_daemon` returns as done by the daemon is what its callback returned. -/
theorem callDaemon_some {operation : Text}
    {callback : ManagerProgram number score vectors result} {value : result}
    (ran : Ran (callDaemon settings conversions operation callback) before exchanges
      (.ok (some value)) after) :
    ∃ here earlier later, exchanges = earlier ++ later ∧
      Ran callback here later (.ok value) after := by
  obtain ⟨ready, middle, earlier, later, split, _probed, rest⟩ := Procedure.ran_bind_ok.mp ran
  refine ⟨middle, earlier, later, split, ?_⟩
  by_cases absent : (!ready) = true
  · rw [if_pos absent] at rest
    cases (Procedure.ran_pure.mp rest).2.1
  · rw [if_neg absent] at rest
    cases Procedure.ran_handle.mp rest with
    | inl returned =>
        obtain ⟨returned, same, called⟩ := returned
        cases same
        obtain ⟨reached, ended, called⟩ := Procedure.ran_map.mp called
        cases reached with
        | error kind => cases ended
        | ok given =>
            cases ended
            exact called
    | inr raised =>
        obtain ⟨kind, failed, _asking, handling, _split, _called, rest⟩ := raised
        by_cases handled : kind.isDaemonFailure = true
        · rw [if_pos handled] at rest
          obtain ⟨_, _, _, _, _, _, rest⟩ := Procedure.ran_bind_ok.mp rest
          obtain ⟨_, _, _, _, _, _, rest⟩ := Procedure.ran_bind_ok.mp rest
          cases (Procedure.ran_pure.mp rest).2.1
        · rw [if_neg handled] at rest
          cases (Procedure.ran_raise.mp rest).2.1

theorem embedOnce_remote (required : settings.isDaemonRequired = true) {kind : EmbedKind}
    {texts : List Text} :
    Sound (embedOnce settings conversions kind texts) := by
  apply Procedure.abides_bind (sound_callDaemon (sound_onClient sound_embed))
  intro result
  cases result with
  | some result => exact Procedure.abides_pure
  | none =>
      dsimp only
      rw [forbidden_eq required, Procedure.raise_bind]
      exact Procedure.abides_raise

theorem rerank_remote (required : settings.isDaemonRequired = true) {query : Text}
    {texts : List Text} :
    Sound (rerank settings conversions query texts) := by
  apply Procedure.abides_bind (sound_callDaemon (sound_onClient sound_rerank))
  intro results
  cases results with
  | some results => exact Procedure.abides_lift
  | none =>
      dsimp only
      rw [forbidden_eq required, Procedure.raise_bind]
      exact Procedure.abides_raise

theorem warmup_remote (required : settings.isDaemonRequired = true) :
    Sound (warmup settings conversions) := by
  apply Procedure.abides_bind sound_checkDaemon
  intro ready
  split
  · exact sound_onClient (Procedure.abides_bind sound_health (fun _health => Procedure.abides_pure))
  · rw [forbidden_eq required, Procedure.raise_bind]
    exact Procedure.abides_raise

theorem embedOnce_answered (required : settings.isDaemonRequired = true) {kind : EmbedKind}
    {texts : List Text} {value : vectors}
    (ran : Ran (embedOnce settings conversions kind texts) before exchanges (.ok value) after) :
    DaemonAnswered (DaemonClient.embed conversions kind texts) exchanges value := by
  obtain ⟨result, middle, earlier, later, split, called, rest⟩ := Procedure.ran_bind_ok.mp ran
  cases result with
  | none =>
      dsimp only at rest
      rw [forbidden_eq required, Procedure.raise_bind] at rest
      cases (Procedure.ran_raise.mp rest).2.1
  | some result =>
      obtain ⟨empty, same, _kept⟩ := Procedure.ran_pure.mp rest
      cases same
      obtain ⟨here, probing, asking, split', asked⟩ := callDaemon_some called
      refine ⟨here, probing, asking, middle, ?_, onClient_ok asked⟩
      rw [split, empty, List.append_nil, split']

theorem rerank_answered (required : settings.isDaemonRequired = true) {query : Text}
    {texts : List Text} {value : List score}
    (ran : Ran (rerank settings conversions query texts) before exchanges (.ok value) after) :
    DaemonAnswered
      (do
        let results ← DaemonClient.rerank conversions query texts texts.length
        Procedure.lift (originalOrder (List.replicate texts.length conversions.zero) results))
      exchanges value := by
  obtain ⟨results, middle, earlier, later, split, called, rest⟩ := Procedure.ran_bind_ok.mp ran
  cases results with
  | none =>
      dsimp only at rest
      rw [forbidden_eq required, Procedure.raise_bind] at rest
      cases (Procedure.ran_raise.mp rest).2.1
  | some results =>
      obtain ⟨here, probing, asking, split', asked⟩ := callDaemon_some called
      refine ⟨here, probing, asking ++ later, after, ?_, ?_⟩
      · rw [split, split', List.append_assoc]
      · exact Procedure.ran_bind_ok.mpr ⟨results, middle, asking, later, rfl, onClient_ok asked,
          rest⟩

theorem warmup_answered (required : settings.isDaemonRequired = true)
    {value : WarmupReport number}
    (ran : Ran (warmup settings conversions) before exchanges (.ok value) after) :
    DaemonAnswered (daemonReport conversions) exchanges value := by
  obtain ⟨ready, middle, earlier, later, split, _probed, rest⟩ := Procedure.ran_bind_ok.mp ran
  by_cases reached : ready = true
  · rw [if_pos reached] at rest
    exact ⟨middle, earlier, later, after, split, onClient_ok rest⟩
  · rw [if_neg reached, forbidden_eq required, Procedure.raise_bind] at rest
    cases (Procedure.ran_raise.mp rest).2.1

theorem daemonAnswered_map {final : Type} {method : ManagerProgram number score vectors result}
    {value : result} (change : result → final)
    (answered : DaemonAnswered method exchanges value) :
    DaemonAnswered (change <$> method) exchanges (change value) := by
  obtain ⟨here, earlier, later, after, split, ran⟩ := answered
  exact ⟨here, earlier, later, after, split, Procedure.ran_map.mpr ⟨.ok value, rfl, ran⟩⟩

theorem embed_answered (required : settings.isDaemonRequired = true) {kind : EmbedKind}
    {texts : List Text} {value : vectors}
    (ran : Ran (embed settings conversions kind texts) before exchanges (.ok value) after) :
    DaemonAnswered (DaemonClient.embed conversions kind texts) exchanges value := by
  obtain ⟨start, first, last, split, ran⟩ := Procedure.retry_returns ran
  obtain ⟨here, earlier, later, final, split', asked⟩ := embedOnce_answered required ran
  refine ⟨here, first ++ earlier, later, final, ?_, asked⟩
  rw [split, split', List.append_assoc]

theorem embed_remote (required : settings.isDaemonRequired = true) {kind : EmbedKind}
    {texts : List Text} :
    Sound (embed settings conversions kind texts) := by
  apply Procedure.abides_retry (embedOnce_remote required)
  rfl

theorem daemonOnly_map {final : Type} {body method : ManagerProgram number score vectors result}
    {change : result → final} {outcome : Except ErrorKind final}
    (ran : Ran (change <$> body) before exchanges outcome after)
    (remote : Sound body)
    (answered : ∀ {value}, Ran body before exchanges (.ok value) after →
      DaemonAnswered method exchanges value) :
    (∀ exchange ∈ exchanges, exchange.1.isLocal = false) ∧
      ∀ value, outcome = .ok value → DaemonAnswered (change <$> method) exchanges value := by
  obtain ⟨reached, ended, ran⟩ := Procedure.ran_map.mp ran
  constructor
  · exact remote.fine ran
  · intro value returned
    rw [ended] at returned
    cases reached with
    | error kind => cases returned
    | ok given =>
        cases returned
        exact daemonAnswered_map change (answered ran)

/-- Where the daemon is required every call is safe, whatever was last seen of the daemon. -/
theorem call_daemonOnly (required : settings.isDaemonRequired = true) {call : ModelCall}
    {outcome : Except ErrorKind (CallResult number score vectors)}
    (ran : Ran (call.program settings conversions) before exchanges outcome after) :
    DaemonOnly conversions { call, before, exchanges, outcome, after } := by
  cases call with
  | embedQueries texts =>
      obtain ⟨remote, answered⟩ :=
        daemonOnly_map ran (embed_remote required) (embed_answered required)
      exact { noLocalModel := remote, answered }
  | embedCorpus texts =>
      obtain ⟨remote, answered⟩ :=
        daemonOnly_map ran (embed_remote required) (embed_answered required)
      exact { noLocalModel := remote, answered }
  | rerank query texts =>
      obtain ⟨remote, answered⟩ :=
        daemonOnly_map ran (rerank_remote required) (rerank_answered required)
      exact { noLocalModel := remote, answered }
  | warmup =>
      obtain ⟨remote, answered⟩ :=
        daemonOnly_map ran (warmup_remote required) (warmup_answered required)
      exact { noLocalModel := remote, answered }

end Required

/-! ### Where the local models are allowed -/

section Optional

variable {settings : ModelSettings} {conversions : Conversions number score vectors}
variable {reply result : Type} {before after : ModelManager}
variable {exchanges : List (Exchange ModelQuestion (ModelAnswer number score vectors))}

theorem probe_returns {pre : ModelManager → Prop} :
    Procedure.Returns pre (probe settings conversions) (fun _ready _here => True) := by
  constructor
  intro before exchanges outcome after ran _started
  cases Procedure.ran_handle.mp ran with
  | inl returned =>
      obtain ⟨ready, ended, _ran⟩ := returned
      exact ⟨ready, ended, trivial⟩
  | inr raised =>
      obtain ⟨_kind, _middle, _earlier, _later, _split, _ran, rest⟩ := raised
      exact ⟨false, (Procedure.ran_pure.mp rest).2.1, trivial⟩

/-- A check of the daemon never raises, and where it finds a ready daemon there is a client. -/
theorem checkDaemon_returns {force : Bool} :
    Procedure.Returns Consistent (checkDaemon settings conversions force)
      (fun ready after => ready = true → after.daemonClient = true) := by
  unfold checkDaemon
  split
  · apply Procedure.returns_pure
    intro _here _consistent impossible
    cases impossible
  · split
    · apply Procedure.returns_pure
      intro _here _consistent impossible
      cases impossible
    · apply Procedure.returns_bind Procedure.returns_ask
      intro now
      apply Procedure.returns_bind Procedure.returns_current
      intro manager
      split
      · apply Procedure.returns_pure
        intro here seen used
        rw [seen.1] at used
        exact seen.2 used
      · apply Procedure.returns_bind Procedure.returns_modify
        intro _changed
        apply Procedure.returns_bind probe_returns
        intro ready
        split
        · apply Procedure.returns_bind Procedure.returns_modify
          intro _changed
          apply Procedure.returns_pure
          intro here connected _ready
          obtain ⟨earlier, _any, same⟩ := connected
          rw [same]
          rfl
        · apply Procedure.returns_bind Procedure.returns_modify
          intro _changed
          apply Procedure.returns_pure
          intro _here _invalidated impossible
          cases impossible

theorem onClient_ran {method : ManagerProgram number score vectors reply}
    {outcome : Except ErrorKind reply} (client : before.daemonClient = true) :
    Ran (onClient method) before exchanges outcome after ↔
      Ran method before exchanges outcome after := by
  have same : onClient method before = method before := by
    change (if before.daemonClient then method else Procedure.raise .attributeError) before = _
    rw [if_pos client]
  unfold Ran
  rw [same]

/-- A daemon attempt that fails leaves `_call_daemon` without a reply. -/
theorem callDaemon_none {operation : Text} {method : ManagerProgram number score vectors reply}
    (optional : settings.isDaemonRequired = false) (consistent : Consistent before)
    (fails : DaemonFails settings conversions method before exchanges) :
    ∃ after, Ran (callDaemon settings conversions operation (onClient method)) before exchanges
      (.ok none) after := by
  cases fails with
  | @unavailable exchanges after probed =>
      refine ⟨after, Procedure.ran_bind_ok.mpr ⟨false, after, exchanges, [], ?_, probed, ?_⟩⟩
      · rw [List.append_nil]
      · exact Procedure.ran_pure.mpr ⟨rfl, rfl, rfl⟩
  | @failing probing asking middle after kind probed failed handled =>
      obtain ⟨_ready, same, connected⟩ := checkDaemon_returns.returned probed consistent
      cases same
      have asked := (onClient_ran (connected rfl)).mpr failed
      have raised : Ran (some <$> onClient method) middle asking (.error kind) after :=
        Procedure.ran_map.mpr ⟨.error kind, rfl, asked⟩
      refine ⟨after.invalidated true, Procedure.ran_bind_ok.mpr
        ⟨true, middle, probing, asking, rfl, probed, ?_⟩⟩
      refine Procedure.ran_handle.mpr (Or.inr ⟨kind, after, asking, [], ?_, raised, ?_⟩)
      · rw [List.append_nil]
      · rw [if_pos handled, allowed_eq optional, Procedure.pure_bind]
        exact Procedure.ran_modify_pure.mpr ⟨rfl, rfl, rfl⟩

/-- What `_call_daemon` can come to: the attempt failed, the client replied, or it raised an
error that does not count as a failure. -/
theorem callDaemon_cases {operation : Text} {method : ManagerProgram number score vectors reply}
    {outcome : Except ErrorKind (Option reply)}
    (optional : settings.isDaemonRequired = false) (consistent : Consistent before)
    (ran : Ran (callDaemon settings conversions operation (onClient method)) before exchanges
      outcome after) :
    (outcome = .ok none ∧ DaemonFails settings conversions method before exchanges) ∨
      ∃ probing asking middle final reached, exchanges = probing ++ asking ∧
        Ran (checkDaemon settings conversions false) before probing (.ok true) middle ∧
          Ran method middle asking reached final ∧ outcome = reached.map some ∧
            ∀ kind, reached = .error kind → kind.isDaemonFailure = false := by
  cases Procedure.ran_bind.mp ran with
  | inl raised =>
      obtain ⟨_kind, _ended, probed⟩ := raised
      obtain ⟨_ready, impossible, _connected⟩ := checkDaemon_returns.returned probed consistent
      cases impossible
  | inr checked =>
      obtain ⟨ready, middle, probing, asking, split, probed, rest⟩ := checked
      cases ready with
      | false =>
          rw [Bool.not_false, if_pos rfl] at rest
          obtain ⟨empty, ended, _same⟩ := Procedure.ran_pure.mp rest
          rw [split, empty, List.append_nil]
          exact Or.inl ⟨ended, .unavailable probed⟩
      | true =>
          rw [Bool.not_true, if_neg Bool.false_ne_true] at rest
          obtain ⟨_ready, same, connected⟩ := checkDaemon_returns.returned probed consistent
          cases same
          have client := connected rfl
          cases Procedure.ran_handle.mp rest with
          | inl returned =>
              obtain ⟨value, ended, called⟩ := returned
              obtain ⟨reached, mapped, asked⟩ := Procedure.ran_map.mp called
              refine Or.inr ⟨probing, asking, middle, after, reached, split, probed,
                (onClient_ran client).mp asked, ended.trans mapped, ?_⟩
              intro kind failed
              rw [failed] at mapped
              cases mapped
          | inr raised =>
              obtain ⟨kind, final, earlier, later, split', called, rest⟩ := raised
              obtain ⟨reached, mapped, asked⟩ := Procedure.ran_map.mp called
              have failed : reached = .error kind := by
                cases reached with
                | ok value => cases mapped
                | error other =>
                    cases mapped
                    rfl
              rw [failed] at asked
              have asked := (onClient_ran client).mp asked
              by_cases handled : kind.isDaemonFailure = true
              · rw [if_pos handled, allowed_eq optional, Procedure.pure_bind] at rest
                obtain ⟨empty, ended, _same⟩ := Procedure.ran_modify_pure.mp rest
                rw [empty, List.append_nil] at split'
                rw [split, split']
                exact Or.inl ⟨ended, .failing probed asked handled⟩
              · rw [if_neg handled] at rest
                obtain ⟨empty, ended, _same⟩ := Procedure.ran_raise.mp rest
                rw [empty, List.append_nil] at split'
                refine Or.inr ⟨probing, earlier, middle, final, .error kind, ?_, probed, asked,
                  ended, ?_⟩
                · rw [split, split']
                · intro other same
                  cases same
                  exact Bool.eq_false_iff.mpr handled

/-- Every operation that asks the daemon first and has a local branch falls back on it. -/
theorem fallsBack {operation : Text} {method : ManagerProgram number score vectors reply}
    {next : Option reply → ManagerProgram number score vectors result}
    {localPart : ManagerProgram number score vectors result}
    {outcome : Except ErrorKind result} (optional : settings.isDaemonRequired = false)
    (fallen : next none = localPart) (consistent : Consistent before)
    (ran : Ran (callDaemon settings conversions operation (onClient method) >>= next) before
      exchanges outcome after) :
    FallsBack settings conversions method localPart { before, exchanges, outcome, after } := by
  constructor
  · intro failing rest split fails
    obtain ⟨here, called⟩ := callDaemon_none optional consistent fails
    dsimp only at split
    rw [split] at ran
    refine ⟨here, ?_⟩
    rw [← fallen]
    exact Procedure.ran_after ran called
  · cases Procedure.ran_bind.mp ran with
    | inl raised =>
        obtain ⟨kind, ended, called⟩ := raised
        cases callDaemon_cases optional consistent called with
        | inl fails => cases fails.1
        | inr settled =>
            obtain ⟨probing, asking, middle, final, reached, split, probed, asked, mapped,
              unhandled⟩ := settled
            refine Or.inr ⟨probing, asking, [], middle, final, reached, ?_, probed, asked, ?_⟩
            · rw [List.append_nil]
              exact split
            · intro other failed
              refine ⟨unhandled other failed, ?_⟩
              rw [failed] at mapped
              cases mapped
              exact ended
    | inr returned =>
        obtain ⟨value, _middle, earlier, later, split, called, _rest⟩ := returned
        cases callDaemon_cases optional consistent called with
        | inl fails => exact Or.inl ⟨earlier, later, split, fails.2⟩
        | inr settled =>
            obtain ⟨probing, asking, middle, final, reached, split', probed, asked, mapped,
              _unhandled⟩ := settled
            refine Or.inr ⟨probing, asking, later, middle, final, reached, ?_, probed, asked, ?_⟩
            · dsimp only
              rw [split, split']
            · intro kind failed
              rw [failed] at mapped
              cases mapped

theorem fallsBack_embed {kind : EmbedKind} {texts : List Text}
    {outcome : Except ErrorKind vectors} (optional : settings.isDaemonRequired = false)
    (consistent : Consistent before)
    (ran : Ran (embedOnce settings conversions kind texts) before exchanges outcome after) :
    FallsBack settings conversions (DaemonClient.embed conversions kind texts)
      (localEmbed settings kind texts) { before, exchanges, outcome, after } := by
  refine fallsBack optional ?_ consistent ran
  dsimp only
  rw [allowed_eq optional, Procedure.pure_bind]

theorem fallsBack_rerank {query : Text} {texts : List Text}
    {outcome : Except ErrorKind (List score)} (optional : settings.isDaemonRequired = false)
    (consistent : Consistent before)
    (ran : Ran (rerank settings conversions query texts) before exchanges outcome after) :
    FallsBack settings conversions (DaemonClient.rerank conversions query texts texts.length)
      (localRerank query texts) { before, exchanges, outcome, after } := by
  refine fallsBack optional ?_ consistent ran
  dsimp only
  rw [allowed_eq optional, Procedure.pure_bind]

end Optional

/-! ### Runs -/

/-- A program that leaves a consistent manager. -/
abbrev Steady {result : Type} (body : ManagerProgram number score vectors result) : Prop :=
  Abides (fun _question => True) Consistent body

section Runs

variable {settings : ModelSettings} {conversions : Conversions number score vectors}
variable {result : Type} {before after : ModelManager}
variable {exchanges : List (Exchange ModelQuestion (ModelAnswer number score vectors))}

theorem Sound.steady {body : ManagerProgram number score vectors result} (sound : Sound body) :
    Steady body :=
  Abides.weaken sound (fun _question _remote => trivial)

theorem steady_getEmbedModel :
    Steady (getEmbedModel : ManagerProgram number score vectors Unit) := by
  apply Procedure.abides_bind Procedure.abides_current
  intro manager
  split
  · exact Procedure.abides_pure
  · apply Procedure.abides_bind (Procedure.abides_ask trivial)
    intro _loaded
    apply Procedure.abides_bind Procedure.abides_lift
    intro _done
    exact Procedure.abides_modify (fun _here consistent => consistent)

theorem steady_getReranker :
    Steady (getReranker : ManagerProgram number score vectors Unit) := by
  apply Procedure.abides_bind Procedure.abides_current
  intro manager
  split
  · exact Procedure.abides_pure
  · apply Procedure.abides_bind (Procedure.abides_ask trivial)
    intro _loaded
    apply Procedure.abides_bind Procedure.abides_lift
    intro _done
    exact Procedure.abides_modify (fun _here consistent => consistent)

theorem steady_embedOnce {kind : EmbedKind} {texts : List Text} :
    Steady (embedOnce settings conversions kind texts) := by
  apply Procedure.abides_bind (sound_callDaemon (sound_onClient sound_embed)).steady
  intro result
  cases result with
  | some result => exact Procedure.abides_pure
  | none =>
      apply Procedure.abides_bind sound_raiseIfLocalFallbackForbidden.steady
      intro _allowed
      apply Procedure.abides_bind steady_getEmbedModel
      intro _loaded
      exact Procedure.abides_bind (Procedure.abides_ask trivial)
        (fun _encoded => Procedure.abides_lift)

theorem steady_embed {kind : EmbedKind} {texts : List Text} :
    Steady (embed settings conversions kind texts) :=
  Procedure.abides_retry steady_embedOnce trivial

theorem steady_rerank {query : Text} {texts : List Text} :
    Steady (rerank settings conversions query texts) := by
  apply Procedure.abides_bind (sound_callDaemon (sound_onClient sound_rerank)).steady
  intro results
  cases results with
  | some results => exact Procedure.abides_lift
  | none =>
      apply Procedure.abides_bind sound_raiseIfLocalFallbackForbidden.steady
      intro _allowed
      apply Procedure.abides_bind steady_getReranker
      intro _loaded
      exact Procedure.abides_bind (Procedure.abides_ask trivial)
        (fun _scores => Procedure.abides_lift)

theorem steady_timed {body : ManagerProgram number score vectors result} (steady : Steady body) :
    Steady (timed body) := by
  apply Procedure.abides_bind sound_readClock.steady
  intro _start
  apply Procedure.abides_handle
  · apply Procedure.abides_bind steady
    intro _result
    exact Procedure.abides_bind sound_readClock.steady (fun _finish => Procedure.abides_pure)
  · exact fun _kind => Procedure.abides_pure

theorem steady_warmup : Steady (warmup settings conversions) := by
  apply Procedure.abides_bind sound_checkDaemon.steady
  intro ready
  split
  · exact (sound_onClient
      (Procedure.abides_bind sound_health (fun _health => Procedure.abides_pure))).steady
  · apply Procedure.abides_bind sound_raiseIfLocalFallbackForbidden.steady
    intro _allowed
    apply Procedure.abides_bind (steady_timed steady_embed)
    intro _embedded
    exact Procedure.abides_bind (steady_timed steady_rerank)
      (fun _reranked => Procedure.abides_pure)

theorem steady_call {call : ModelCall} : Steady (call.program settings conversions) := by
  cases call with
  | embedQueries texts =>
      exact Procedure.abides_bind steady_embed (fun _value => Procedure.abides_pure)
  | embedCorpus texts =>
      exact Procedure.abides_bind steady_embed (fun _value => Procedure.abides_pure)
  | rerank query texts =>
      exact Procedure.abides_bind steady_rerank (fun _value => Procedure.abides_pure)
  | warmup => exact Procedure.abides_bind steady_warmup (fun _value => Procedure.abides_pure)

theorem embed_available (optional : settings.isDaemonRequired = false)
    (consistent : Consistent before) {kind : EmbedKind} {texts : List Text} {call : ModelCall}
    {outcome : Except ErrorKind (CallResult number score vectors)}
    (ran : Ran (CallResult.vectors <$> embed settings conversions kind texts) before exchanges
      outcome after) :
    EmbedAvailable settings conversions kind texts { call, before, exchanges, outcome, after } := by
  obtain ⟨reached, ended, ran⟩ := Procedure.ran_map.mp ran
  obtain ⟨rounds, called⟩ := Procedure.rounds_of_retry ran
  refine ⟨reached, rounds, ended, called, ?_⟩
  intro round member
  obtain ⟨holds, took⟩ := Procedure.round_ran steady_embedOnce called consistent round member
  exact fallsBack_embed optional holds took

/-- Where local models are allowed a call is available from every consistent manager. -/
theorem call_available (optional : settings.isDaemonRequired = false)
    (consistent : Consistent before) {call : ModelCall}
    {outcome : Except ErrorKind (CallResult number score vectors)}
    (ran : Ran (call.program settings conversions) before exchanges outcome after) :
    Available settings conversions { call, before, exchanges, outcome, after } := by
  cases call with
  | embedQueries texts => exact embed_available optional consistent ran
  | embedCorpus texts => exact embed_available optional consistent ran
  | rerank query texts =>
      obtain ⟨reached, ended, ran⟩ := Procedure.ran_map.mp ran
      exact ⟨reached, ended, fallsBack_rerank optional consistent ran⟩
  | warmup => trivial

theorem call_selected (consistent : Consistent before) {call : ModelCall}
    {outcome : Except ErrorKind (CallResult number score vectors)}
    (ran : Ran (call.program settings conversions) before exchanges outcome after) :
    BackendSelected settings conversions { call, before, exchanges, outcome, after } where
  required required := call_daemonOnly required ran
  optional optional := call_available optional consistent ran

theorem history_selected {entries : List (ModelEntry number score vectors)}
    (history : ModelHistory settings conversions before entries after) :
    Consistent before → ∀ entry ∈ entries, BackendSelected settings conversions entry := by
  induction history with
  | finished here =>
      intro _consistent entry member
      cases member
  | call ran later ih =>
      intro consistent entry member
      cases List.mem_cons.mp member with
      | inl head =>
          rw [head]
          exact call_selected consistent ran
      | inr tail => exact ih (steady_call.kept ran consistent) entry tail
  | idle later ih => exact fun consistent => ih consistent

/-- In every run of calls, whatever the daemon does: where the daemon is required no local model
is touched and a result is the daemon's, and elsewhere every failed attempt of an embedding or a
reranking ends with the local model. -/
theorem backend_selection {entries : List (ModelEntry number score vectors)}
    (history : ModelHistory settings conversions {} entries after) :
    ∀ entry ∈ entries, BackendSelected settings conversions entry :=
  history_selected history (fun used => absurd used Bool.false_ne_true)

end Runs

/-! ### A daemon that fails in the middle of a call -/

def optionalSettings : ModelSettings where
  requireDaemon := false
  runningAsDaemon := false
  autoUse := true
  loopbackHost := true
  queryMaxLength := 512
  corpusMaxLength := 2048

/-- Whole numbers, read as they stand. -/
def wholeNumber : Json Int → Except ErrorKind Int
  | .number value => .ok value
  | .null => .error .typeError
  | .array _ => .error .typeError
  | .object _ => .error .typeError
  | _ => .error .valueError

def wholeNumbers : Json Int → Except ErrorKind (List (List Int))
  | .array rows => rows.mapM (fun row => do
      let numbers ← row.iterate
      numbers.mapM wholeNumber)
  | _ => .error .valueError

def wholeConversions : Conversions Int Int (List (List Int)) where
  nonzero value := value != 0
  zeroNumber := 0
  int := wholeNumber
  float := wholeNumber
  zero := 0
  noVectors := []
  float32Array := wholeNumbers

/-- The health of a daemon whose models are loaded. -/
def readyHealth : Transport Int :=
  .received (.object [("status".toList, .string "ready".toList),
    ("models_loaded".toList, .bool true)])

/-- The daemon is ready, goes away during the request, and the local model answers. -/
def interruptedCall : ModelEntry Int Int (List (List Int)) where
  call := .embedQueries ["note".toList]
  before := {}
  exchanges :=
    [⟨.clock, (17000000000000 : Int)⟩, ⟨.health, readyHealth⟩, ⟨.health, readyHealth⟩,
      ⟨.embed .queries ["note".toList], (.urlError : Transport Int)⟩,
      ⟨.loadEmbedModel, (.ok () : Except ErrorKind Unit)⟩,
      ⟨.encode 512 ["note".toList], (.ok [[3, 4]] : Except ErrorKind (List (List Int)))⟩]
  outcome := .ok (.vectors [[3, 4]])
  after := { embedModel := true, daemonChecked := true }

theorem interruptedCall_history :
    ModelHistory optionalSettings wholeConversions {} [interruptedCall] interruptedCall.after := by
  refine .call ?_ (.finished _)
  refine .ask _ (.ask _ (.ask _ (.ask _ (.ask _ (.ask _ ?_)))))
  exact .done _

theorem backend_selection_interrupted :
    BackendSelected optionalSettings wholeConversions interruptedCall :=
  backend_selection interruptedCall_history interruptedCall (List.mem_singleton.mpr rfl)

end Models

end VaultSearch
