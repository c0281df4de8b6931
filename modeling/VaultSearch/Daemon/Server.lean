/-
The reranking endpoint of `daemon/server.py`.

A request is validated, the model manager of the daemon scores the texts, and the answer lists the
best scores with the positions of their texts.  The client sends the headers that `_read_json`
asks for, so a body is refused for its length only.
-/

import VaultSearch.Core.Models
import VaultSearch.Store.Ranking

set_option autoImplicit false

namespace VaultSearch

/-- `RequestValidationError` -/
structure RequestError where
  message : Text
  status : Nat := 400
  deriving DecidableEq

inductive HealthState where
  | starting
  | ready
  | degraded
  | failed
  deriving DecidableEq

def HealthState.label : HealthState → Text
  | .starting => "starting".toList
  | .ready => "ready".toList
  | .degraded => "degraded".toList
  | .failed => "failed".toList

/-- What a request for a reranking reads of the server. -/
structure DaemonServer where
  maxRequestBytes : Nat
  maxTexts : Nat
  maxTextLength : Nat
  maxQueryLength : Nat
  healthState : HealthState

/-- How numbers get into JSON and come back, the length of an encoded object, and the order
of the scores. -/
structure Wire {number score vectors : Type} (conversions : Conversions number score vectors) where
  ofInt : Int → number
  ofFloat : score → number
  /-- The number, where `isinstance(value, int)`. -/
  asInt : number → Option Int
  bodyLength : JsonObject number → Nat
  less : score → score → Bool
  asInt_ofInt : ∀ value, asInt (ofInt value) = some value
  int_ofInt : ∀ value, conversions.int (.number (ofInt value)) = .ok value
  float_ofFloat : ∀ value, conversions.float (.number (ofFloat value)) = .ok value

structure DaemonResponse (number : Type) where
  status : Nat
  body : JsonObject number

variable {number score vectors : Type}

def Json.asText : Json number → Option Text
  | .string value => some value
  | _ => none

def RequestError.response (error : RequestError) : DaemonResponse number :=
  { status := error.status, body := [("error".toList, .string error.message)] }

namespace DaemonServer

variable {conversions : Conversions number score vectors} (wire : Wire conversions)
variable (server : DaemonServer)

/-- The status of `health_snapshot`. -/
def snapshotStatus (manager : ModelManager) : HealthState :=
  if server.healthState = .ready ∧ ¬(manager.embedModel ∧ manager.rerankerModel) then .degraded
  else server.healthState

def readJson (data : JsonObject number) : Except RequestError (JsonObject number) :=
  if server.maxRequestBytes < wire.bodyLength data then
    .error { message := "Request body is too large".toList, status := 413 }
  else .ok data

/-- The checks of the items of a batch. -/
def validateItems (items : List (Json number)) : Except RequestError (List Text) :=
  if server.maxTexts < items.length then
    .error { message := "texts exceeds the configured batch limit".toList, status := 413 }
  else if items.any (fun item => item.asText.all (fun text => (Text.strip text).isEmpty)) then
    .error { message := "texts must contain non-empty strings".toList }
  else if items.any (fun item => item.asText.any (fun text => server.maxTextLength < text.length)) then
    .error { message := "a text exceeds the configured length limit".toList, status := 413 }
  else .ok (items.filterMap Json.asText)

def validateTexts : Json number → Except RequestError (List Text)
  | .array (first :: rest) => server.validateItems (first :: rest)
  | _ => .error { message := "texts must be a non-empty list".toList }

def validateQuery : Json number → Except RequestError Text
  | .string query =>
      if (Text.strip query).isEmpty then
        .error { message := "query must be a non-empty string".toList }
      else if server.maxQueryLength < query.length then
        .error { message := "query exceeds the configured length limit".toList, status := 413 }
      else .ok query
  | _ => .error { message := "query must be a non-empty string".toList }

/-- `effective_top_k`, where it is an integer between 1 and the number of texts. -/
def effectiveTopK (count : Nat) : Json number → Option Nat
  | .null => some count
  | .number value => do
      let topK ← wire.asInt value
      if 1 ≤ topK ∧ topK ≤ count then some topK.toNat else none
  | _ => none

def validateRerank (query texts topK : Json number) :
    Except RequestError (Text × List Text × Nat) := do
  let query ← server.validateQuery query
  let texts ← server.validateTexts texts
  match effectiveTopK wire texts.length topK with
  | some topK => .ok (query, texts, topK)
  | none =>
      .error { message := "top_k must be an integer between 1 and the number of texts".toList }

/-- `enumerate(all_scores)`, sorted by score with the highest first, up to `top_k`. -/
def topScores (topK : Nat) (allScores : List score) : List (Nat × score) :=
  ((Ranking.indexed allScores).mergeSort (fun left right =>
    !wire.less left.2 right.2)).take topK

def scoresBody (scores : List (Nat × score)) : JsonObject number :=
  [("scores".toList, .array (scores.map (fun pair =>
    .array [.number (wire.ofInt pair.1), .number (wire.ofFloat pair.2)])))]

/-- The second `try` statement of `_handle_rerank`. -/
def answerRerank (settings : ModelSettings) (query : Text) (texts : List Text) (topK : Nat) :
    ManagerProgram number score vectors (DaemonResponse number) :=
  Procedure.handle
    (do
      let allScores ← Models.rerank settings conversions query texts
      pure { status := 200, body := scoresBody wire (topScores wire topK allScores) })
    (fun _kind => pure
      { status := 500, body := [("error".toList, .string "Model inference failed".toList)] })

/-- What the handler does with a body that was read. -/
def rerankBody (settings : ModelSettings) (data : JsonObject number) :
    ManagerProgram number score vectors (DaemonResponse number) :=
  match server.readJson wire data >>= fun data =>
      server.validateRerank wire (JsonObject.get data "query".toList)
        (JsonObject.get data "texts".toList) (JsonObject.get data "top_k".toList) with
  | .error error => pure error.response
  | .ok (query, texts, topK) => answerRerank wire settings query texts topK

/-- `_handle_rerank` -/
def handleRerank (settings : ModelSettings) (data : JsonObject number) :
    ManagerProgram number score vectors (DaemonResponse number) := do
  let manager ← Procedure.current
  if server.snapshotStatus manager = .ready then rerankBody wire server settings data
  else
    pure
      { status := 503
        body := [("error".toList, .string "Daemon is not ready".toList),
          ("status".toList, .string (server.snapshotStatus manager).label)] }

end DaemonServer

namespace DaemonClient

variable {conversions : Conversions number score vectors} (wire : Wire conversions)

/-- `MAX_DAEMON_RESPONSE_BYTES` -/
def maxResponseBytes : Nat := 64 * 1024 * 1024

/-- The body of the request for a reranking. -/
def rerankRequest (query : Text) (texts : List Text) (topK : Nat) : JsonObject number :=
  [("query".toList, .string query), ("texts".toList, .array (texts.map Json.string)),
    ("top_k".toList, .number (wire.ofInt topK))]

/-- What the client meets when the server answers. -/
def transport (response : DaemonResponse number) : Transport number :=
  if response.status ≠ 200 then .httpError response.status
  else if maxResponseBytes < wire.bodyLength response.body then .oversized
  else .received (.object response.body)

end DaemonClient

end VaultSearch
