/-
The model manager of `core/models.py`: it asks the daemon when that is ready, and else the local
models unless the daemon is required.

Several calls share what was last seen of the daemon.  A call is a program: what the clock, the
daemon and the local models answer is left to the world.
-/

import VaultSearch.Daemon.Client

set_option autoImplicit false

namespace VaultSearch

/-- The two environment flags and the settings that the manager reads. -/
structure ModelSettings where
  requireDaemon : Bool
  runningAsDaemon : Bool
  autoUse : Bool
  loopbackHost : Bool
  queryMaxLength : Nat
  corpusMaxLength : Nat

/-- `_is_daemon_required` -/
def ModelSettings.isDaemonRequired (settings : ModelSettings) : Bool :=
  settings.requireDaemon && !settings.runningAsDaemon

def ModelSettings.maxLength (settings : ModelSettings) : EmbedKind → Nat
  | .queries => settings.queryMaxLength
  | .corpus => settings.corpusMaxLength

/-- The attributes of the singleton; of a model and of the client only whether they are there. -/
structure ModelManager where
  embedModel : Bool := false
  rerankerModel : Bool := false
  daemonClient : Bool := false
  daemonChecked : Bool := false
  useDaemon : Bool := false
  lastDaemonCheck : Int := 0
  deriving DecidableEq

namespace ModelManager

/-- `DAEMON_RETRY_INTERVAL` -/
def daemonRetryInterval : Int := 300000

/-- `DAEMON_HEALTH_INTERVAL` -/
def daemonHealthInterval : Int := 50000

def interval (manager : ModelManager) : Int :=
  if manager.useDaemon then daemonHealthInterval else daemonRetryInterval

/-- The answer of the last probe still counts. -/
def isFresh (manager : ModelManager) (now : Int) : Bool :=
  manager.daemonChecked && now - manager.lastDaemonCheck < manager.interval

def checkedAt (manager : ModelManager) (now : Int) : ModelManager :=
  { manager with lastDaemonCheck := now, daemonChecked := true }

def connected (manager : ModelManager) : ModelManager :=
  { manager with daemonClient := true, useDaemon := true }

/-- `_invalidate_daemon` -/
def invalidated (manager : ModelManager) (retryImmediately : Bool) : ModelManager :=
  { manager with
    daemonClient := false
    useDaemon := false
    lastDaemonCheck := if retryImmediately then 0 else manager.lastDaemonCheck }

/-- `_cleanup_models`, once the models have been idle for long enough -/
def unloaded (manager : ModelManager) : ModelManager :=
  { manager with embedModel := false, rerankerModel := false }

end ModelManager

variable {number score vectors : Type}

/-- `_daemon_is_ready` -/
def daemonIsReady (nonzero : number → Bool) (health : JsonObject number) :
    Except ErrorKind Bool := do
  let ready ← (JsonObject.get health "status".toList).inReadyStates
  return ready &&
    match JsonObject.get health "models_loaded".toList with
    | .object loaded =>
        (JsonObject.get loaded "embed_model".toList).truthy nonzero &&
          (JsonObject.get loaded "reranker_model".toList).truthy nonzero
    | loaded => !loaded.isFalse

abbrev ManagerProgram (number score vectors result : Type) :=
  ModelProgram number score vectors ModelManager result

/-- The exceptions of a daemon operation that count as a failure of the daemon. -/
def ErrorKind.isDaemonFailure (kind : ErrorKind) : Bool :=
  kind.isOSError || kind.isRuntimeError || kind = .valueError || kind = .typeError ||
    kind = .keyError || kind = .indexError

/-- `_is_retryable_embedding_exception` -/
def ErrorKind.isRetryableEmbedding : ErrorKind → Bool
  | .daemonRequiredError _ => false
  | .memoryError => true
  | kind => kind.isRuntimeError || kind.isOSError

def EmbedKind.operation : EmbedKind → Text
  | .queries => "embed_queries".toList
  | .corpus => "embed_corpus".toList

namespace Models

/-- `time.time()` -/
def readClock : ManagerProgram number score vectors Int :=
  Procedure.ask ModelQuestion.clock

section Manager

variable (settings : ModelSettings) (conversions : Conversions number score vectors)

def daemonRequiredMessage (operation : Text) : Text :=
  operation ++ (" blocked: daemon unavailable and local fallback disabled ".toList ++
    "(VAULT_SEARCH_REQUIRE_DAEMON=1). Check daemon health.".toList)

def raiseIfLocalFallbackForbidden (operation : Text) : ManagerProgram number score vectors Unit :=
  if settings.isDaemonRequired then
    Procedure.raise (.daemonRequiredError (daemonRequiredMessage operation))
  else pure ()

/-! ### The daemon -/

/-- The client of `_check_daemon`: the one that is kept, or a new one for a daemon that runs. -/
def chooseClient : ManagerProgram number score vectors Unit := do
  let manager ← Procedure.current
  if manager.daemonClient then pure ()
  else do
    let running ← isDaemonRunning settings.loopbackHost
    if !running then Procedure.raise .connectionError
    else if !settings.loopbackHost then Procedure.raise .valueError
    else pure ()

/-- The `try` statement of `_check_daemon`. -/
def probe : ManagerProgram number score vectors Bool :=
  Procedure.handle
    (do
      chooseClient settings
      let health ← DaemonClient.health
      Procedure.lift (daemonIsReady conversions.nonzero health))
    (fun _kind => pure false)

def checkDaemon (force : Bool) : ManagerProgram number score vectors Bool :=
  if settings.runningAsDaemon then pure false
  else if !settings.autoUse && !settings.isDaemonRequired then pure false
  else do
    let now ← readClock
    let manager ← Procedure.current
    if !force && manager.isFresh now then pure manager.useDaemon
    else do
      Procedure.modify (fun manager => manager.checkedAt now)
      let ready ← probe settings conversions
      if ready then do
        Procedure.modify ModelManager.connected
        pure true
      else do
        Procedure.modify (fun manager => manager.invalidated false)
        pure false

/-- `self._daemon_client.method(..)` -/
def onClient {result : Type} (method : ManagerProgram number score vectors result) :
    ManagerProgram number score vectors result := do
  let manager ← Procedure.current
  if manager.daemonClient then method else Procedure.raise .attributeError

/-- `_call_daemon`, with `none` for an operation that the daemon did not do. -/
def callDaemon {result : Type} (operation : Text)
    (callback : ManagerProgram number score vectors result) :
    ManagerProgram number score vectors (Option result) := do
  let ready ← checkDaemon settings conversions false
  if !ready then pure none
  else
    Procedure.handle (some <$> callback) (fun kind =>
      if kind.isDaemonFailure then do
        Procedure.modify (fun manager => manager.invalidated true)
        raiseIfLocalFallbackForbidden settings operation
        pure none
      else Procedure.raise kind)

/-! ### The local models -/

def getEmbedModel : ManagerProgram number score vectors Unit := do
  let manager ← Procedure.current
  if manager.embedModel then pure ()
  else do
    let loaded ← Procedure.ask ModelQuestion.loadEmbedModel
    Procedure.lift loaded
    Procedure.modify (fun manager => { manager with embedModel := true })

def getReranker : ManagerProgram number score vectors Unit := do
  let manager ← Procedure.current
  if manager.rerankerModel then pure ()
  else do
    let loaded ← Procedure.ask ModelQuestion.loadReranker
    Procedure.lift loaded
    Procedure.modify (fun manager => { manager with rerankerModel := true })

def localEmbed (kind : EmbedKind) (texts : List Text) :
    ManagerProgram number score vectors vectors := do
  getEmbedModel
  let encoded ← Procedure.ask (ModelQuestion.encode (settings.maxLength kind) texts)
  Procedure.lift encoded

def localRerank (query : Text) (texts : List Text) :
    ManagerProgram number score vectors (List score) := do
  getReranker
  let scores ← Procedure.ask (ModelQuestion.predict (texts.map (fun text => (query, text))))
  Procedure.lift scores

/-! ### Operations -/

/-- The body of `embed_queries` and of `embed_corpus`. -/
def embedOnce (kind : EmbedKind) (texts : List Text) :
    ManagerProgram number score vectors vectors := do
  let result ← callDaemon settings conversions kind.operation
    (onClient (DaemonClient.embed conversions kind texts))
  match result with
  | some result => pure result
  | none => do
      raiseIfLocalFallbackForbidden settings kind.operation
      localEmbed settings kind texts

/-- `EMBEDDING_MAX_ATTEMPTS` -/
def embeddingMaxAttempts : Nat := 5

/-- `retry_embedding` -/
def retryEmbedding {result : Type} (body : ManagerProgram number score vectors result) :
    ManagerProgram number score vectors result :=
  Procedure.retry ErrorKind.isRetryableEmbedding ModelQuestion.outOfTime id body
    (embeddingMaxAttempts - 1)

def embed (kind : EmbedKind) (texts : List Text) : ManagerProgram number score vectors vectors :=
  retryEmbedding (embedOnce settings conversions kind texts)

def embedQueries (texts : List Text) : ManagerProgram number score vectors vectors :=
  embed settings conversions .queries texts

def embedCorpus (texts : List Text) : ManagerProgram number score vectors vectors :=
  embed settings conversions .corpus texts

/-- `scores[idx] = score`; an index below zero counts from the end. -/
def setScore (scores : List score) (index : Int) (value : score) :
    Except ErrorKind (List score) :=
  if 0 ≤ index then .ok (scores.set index.toNat value)
  else if 0 ≤ index + scores.length then .ok (scores.set (index + scores.length).toNat value)
  else .error .indexError

/-- The scores in the order of the texts. -/
def originalOrder (scores : List score) : List (Int × score) → Except ErrorKind (List score)
  | [] => .ok scores
  | (index, value) :: rest =>
      if index < scores.length then do
        let scores ← setScore scores index value
        originalOrder scores rest
      else originalOrder scores rest

def rerank (query : Text) (texts : List Text) :
    ManagerProgram number score vectors (List score) := do
  let results ← callDaemon settings conversions "rerank".toList
    (onClient (DaemonClient.rerank conversions query texts texts.length))
  match results with
  | some results =>
      Procedure.lift (originalOrder (List.replicate texts.length conversions.zero) results)
  | none => do
      raiseIfLocalFallbackForbidden settings "rerank".toList
      localRerank query texts

/-! ### Warmup -/

structure WarmupReport (number : Type) where
  embedMs : Int := 0
  rerankMs : Int := 0
  usingDaemon : Bool := false
  daemonUptime : Option (Json number) := none
  embedError : Option ErrorKind := none
  rerankError : Option ErrorKind := none

/-- `health().get("uptime_seconds", 0)` -/
def daemonReport : ManagerProgram number score vectors (WarmupReport number) := do
  let health ← DaemonClient.health
  pure
    { usingDaemon := true
      daemonUptime := some ((health.lookup "uptime_seconds".toList).getD (.number conversions.zeroNumber)) }

/-- `type(error).__name__`, where a call raised -/
def raisedKind {result : Type} : Except ErrorKind result → Option ErrorKind
  | .ok _ => none
  | .error kind => some kind

/-- The time that a model takes for its first call, or how that call fails. -/
def timed {result : Type} (body : ManagerProgram number score vectors result) :
    ManagerProgram number score vectors (Except ErrorKind Int) := do
  let start ← readClock
  Procedure.handle
    (do
      let _result ← body
      let finish ← readClock
      pure (Except.ok (finish - start)))
    (fun kind => pure (Except.error kind))

def warmup : ManagerProgram number score vectors (WarmupReport number) := do
  let ready ← checkDaemon settings conversions true
  if ready then onClient (daemonReport conversions)
  else do
    raiseIfLocalFallbackForbidden settings "warmup".toList
    let embedded ← timed (embedQueries settings conversions
      ["warmup query for semantic search".toList])
    let reranked ← timed (rerank settings conversions "warmup query".toList
      ["warmup document text".toList])
    pure
      { embedMs := embedded.toOption.getD 0
        rerankMs := reranked.toOption.getD 0
        embedError := raisedKind embedded
        rerankError := raisedKind reranked }

end Manager

end Models

end VaultSearch
