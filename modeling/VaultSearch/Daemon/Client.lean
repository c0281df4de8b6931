/-
The HTTP client of `daemon/client.py`: what it makes of the answers of the model daemon.

A JSON number stays abstract, and so do the conversions of numbers.
-/

import VaultSearch.Text.Basic
import VaultSearch.Store.Procedures

set_option autoImplicit false

namespace VaultSearch

/-! ### Exceptions -/

/-- The exception classes that the model code tells apart. -/
inductive ErrorKind where
  | connectionError
  | timeoutError
  | osError
  | runtimeError
  /-- a `RuntimeError`, with its message -/
  | daemonRequiredError (message : Text)
  | valueError
  | typeError
  | keyError
  | indexError
  | attributeError
  | memoryError
  | other (name : Text)
  deriving DecidableEq

namespace ErrorKind

/-- `isinstance(error, OSError)`. -/
def isOSError : ErrorKind → Bool
  | .connectionError => true
  | .timeoutError => true
  | .osError => true
  | _ => false

def isRuntimeError : ErrorKind → Bool
  | .runtimeError => true
  | .daemonRequiredError _ => true
  | _ => false

end ErrorKind

/-! ### Answers -/

inductive Json (number : Type) where
  | null
  | bool (value : Bool)
  | number (value : number)
  | string (value : Text)
  | array (items : List (Json number))
  | object (entries : List (Text × Json number))

variable {number : Type}

/-- A decoded JSON object. -/
abbrev JsonObject (number : Type) := List (Text × Json number)

/-- What a request of the client meets: urllib's own exceptions, a body over the size limit or
that is no JSON, the decoded body, or any other exception on the way. -/
inductive Transport (number : Type) where
  | httpError (code : Nat)
  | urlError
  | oversized
  | undecodable
  | received (payload : Json number)
  | raised (kind : ErrorKind)

/-- `DaemonClient._request` after the answer has arrived. -/
def Transport.read : Transport number → Except ErrorKind (JsonObject number)
  | .httpError _ => .error .runtimeError
  | .urlError => .error .connectionError
  | .oversized => .error .runtimeError
  | .undecodable => .error .runtimeError
  | .received (.object entries) => .ok entries
  | .received _ => .error .runtimeError
  | .raised .valueError => .error .runtimeError
  | .raised kind => .error kind

/-- Python's conversions of decoded JSON, and what numpy makes of a batch of vectors. -/
structure Conversions (number score vectors : Type) where
  nonzero : number → Bool
  zeroNumber : number
  int : Json number → Except ErrorKind Int
  float : Json number → Except ErrorKind score
  zero : score
  /-- `np.array([]).tolist()` -/
  noVectors : vectors
  /-- `np.array(value, dtype=np.float32).tolist()` -/
  float32Array : Json number → Except ErrorKind vectors

namespace Json

/-- `bool(value)` -/
def truthy (nonzero : number → Bool) : Json number → Bool
  | .null => false
  | .bool value => value
  | .number value => nonzero value
  | .string value => !value.isEmpty
  | .array items => !items.isEmpty
  | .object entries => !entries.isEmpty

/-- `value in {"ready", "healthy"}`, which hashes the value. -/
def inReadyStates : Json number → Except ErrorKind Bool
  | .string value => .ok (value = "ready".toList || value = "healthy".toList)
  | .array _ => .error .typeError
  | .object _ => .error .typeError
  | _ => .ok false

/-- `value is True` -/
def isTrue : Json number → Bool
  | .bool value => value
  | _ => false

/-- `value is False` -/
def isFalse : Json number → Bool
  | .bool value => !value
  | _ => false

/-- `list(value)`, the items of a `for` loop over it. -/
def iterate : Json number → Except ErrorKind (List (Json number))
  | .array items => .ok items
  | .string value => .ok (value.map (fun char => .string [char]))
  | .object entries => .ok (entries.map (fun entry => .string entry.1))
  | _ => .error .typeError

/-- `value[index]` for a list and for a string; a mapping has no such key. -/
def item (index : Nat) : Json number → Except ErrorKind (Json number)
  | .array items => (items[index]?).elim (.error .indexError) .ok
  | .string value => (value[index]?).elim (.error .indexError) (fun char => .ok (.string [char]))
  | .object _ => .error .keyError
  | _ => .error .typeError

end Json

/-- `response.get(name)`, with `None` for a missing name. -/
def JsonObject.get (response : JsonObject number) (name : Text) : Json number :=
  (response.lookup name).getD .null

/-- `_models_are_loaded` -/
def modelsAreLoaded : Json number → Bool
  | .object loaded =>
      (JsonObject.get loaded "embed_model".toList).isTrue &&
        (JsonObject.get loaded "reranker_model".toList).isTrue
  | loaded => loaded.isTrue

/-- `_health_is_ready` without an expected process -/
def healthIsReady (health : JsonObject number) : Except ErrorKind Bool := do
  let ready ← (JsonObject.get health "status".toList).inReadyStates
  return ready && modelsAreLoaded (JsonObject.get health "models_loaded".toList)

/-! ### Questions -/

inductive EmbedKind where
  | queries
  | corpus
  deriving DecidableEq

/-- What the model code asks the world: the clock, whether a call has taken its sixty seconds,
the daemon, and the local models. -/
inductive ModelQuestion where
  | clock
  | outOfTime
  | health
  | embed (kind : EmbedKind) (texts : List Text)
  | rerank (query : Text) (texts : List Text) (topK : Nat)
  | loadEmbedModel
  | encode (maxLength : Nat) (texts : List Text)
  | loadReranker
  | predict (pairs : List (Text × Text))
  deriving DecidableEq

/-- It loads or uses a local model. -/
def ModelQuestion.isLocal : ModelQuestion → Bool
  | .loadEmbedModel => true
  | .encode _ _ => true
  | .loadReranker => true
  | .predict _ => true
  | _ => false

/-- Times count tenths of a millisecond. -/
def ModelAnswer (number score vectors : Type) : ModelQuestion → Type
  | .clock => Int
  | .outOfTime => Bool
  | .health => Transport number
  | .embed _ _ => Transport number
  | .rerank _ _ _ => Transport number
  | .loadEmbedModel => Except ErrorKind Unit
  | .encode _ _ => Except ErrorKind vectors
  | .loadReranker => Except ErrorKind Unit
  | .predict _ => Except ErrorKind (List score)

abbrev ModelProgram (number score vectors state result : Type) :=
  Procedure ModelQuestion (ModelAnswer number score vectors) state ErrorKind result

/-! ### Requests -/

namespace DaemonClient

variable {score vectors state : Type} (conversions : Conversions number score vectors)

def health : ModelProgram number score vectors state (JsonObject number) := do
  let answer ← Procedure.ask ModelQuestion.health
  Procedure.lift (Transport.read answer)

/-- `embed_queries` and `embed_corpus` -/
def embed (kind : EmbedKind) (texts : List Text) :
    ModelProgram number score vectors state vectors :=
  if texts.isEmpty then pure conversions.noVectors
  else do
    let answer ← Procedure.ask (ModelQuestion.embed kind texts)
    Procedure.lift (do
      let response ← Transport.read answer
      conversions.float32Array ((response.lookup "embeddings".toList).getD (.array [])))

/-- `(int(s[0]), float(s[1]))` -/
def readPair (item : Json number) : Except ErrorKind (Int × score) := do
  let index ← item.item 0
  let index ← conversions.int index
  let value ← item.item 1
  let value ← conversions.float value
  return (index, value)

def rerank (query : Text) (texts : List Text) (topK : Nat) :
    ModelProgram number score vectors state (List (Int × score)) :=
  if texts.isEmpty then pure []
  else do
    let answer ← Procedure.ask (ModelQuestion.rerank query texts topK)
    Procedure.lift (do
      let response ← Transport.read answer
      let items ← ((response.lookup "scores".toList).getD (.array [])).iterate
      items.mapM (readPair conversions))

end DaemonClient

/-- `is_daemon_running` with one attempt; the constructor of the client refuses a host that is
not the local one. -/
def isDaemonRunning {score vectors state : Type} (loopbackHost : Bool) :
    ModelProgram number score vectors state Bool :=
  if !loopbackHost then pure false
  else
    Procedure.handle
      (do
        let health ← DaemonClient.health
        Procedure.lift (healthIsReady health))
      (fun kind =>
        if kind.isOSError || kind.isRuntimeError || kind = .valueError then pure false
        else Procedure.raise kind)

end VaultSearch
