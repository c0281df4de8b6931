/-
The jobs of `server/frontmatter_jobs.py`: one worker thread that enriches the notes of one job
after another, and the record that is kept of each job.

What happens under the lock is one step, except for an enqueue: its `put_nowait` can be seen by
the worker before the job is registered.  The worker takes a step for each read of the stop flag
and of the queue, for each wait for the lock and for the end of each call.
-/

import Mathlib.Data.List.Basic
import Mathlib.Data.List.Nodup
import VaultSearch.Crud.Programs
import VaultSearch.Store.OrderedDict
import VaultSearch.Store.Transitions

set_option autoImplicit false

namespace VaultSearch

/-! ### Records -/

inductive JobStatus where
  | queued
  | running
  | completed
  | completedWithErrors
  | failed
  deriving DecidableEq

/-- `_TERMINAL_STATUSES` -/
def JobStatus.terminal : JobStatus → Bool
  | .queued => false
  | .running => false
  | _ => true

/-- The record of one note. -/
structure JobEntry where
  path : Text
  success : Bool
  message : Text
  frontmatterEnriched : Bool
  frontmatterFieldsFilled : Nat
  errorCode : Option Text
  deriving DecidableEq

structure Job where
  jobId : Text
  status : JobStatus := .queued
  reason : Text
  createdAt : Nat
  startedAt : Option Nat := none
  finishedAt : Option Nat := none
  total : Nat
  processed : Nat := 0
  succeeded : Nat := 0
  failed : Nat := 0
  results : List JobEntry := []
  returned : Nat := 0
  truncated : Nat := 0
  deriving DecidableEq

structure JobSettings where
  lower : Text → Text
  maxPending : Int := 200
  maxPathsPerJob : Int := 1000
  maxHistory : Int := 200
  maxResults : Int := 100

namespace JobSettings

variable (settings : JobSettings)

def pending : Nat :=
  (max 1 settings.maxPending).toNat

def pathsPerJob : Nat :=
  (max 1 settings.maxPathsPerJob).toNat

def history : Nat :=
  (max 1 settings.maxHistory).toNat

def detailed : Nat :=
  (max 1 settings.maxResults).toNat

end JobSettings

/-! ### The manager -/

/-- Where the worker thread is. -/
inductive JobWorker where
  | notStarted
  /-- at `self._stop.is_set()` -/
  | checkingStop
  /-- at `self._queue.empty()` -/
  | checkingEmpty
  /-- at `self._queue.get` -/
  | getting
  /-- before the lock that sets the status to running -/
  | holding (jobId : Text) (paths : List Text)
  /-- at the head of the loop over the paths -/
  | choosing (jobId : Text) (rest : List Text)
  /-- in `enrich_note_frontmatter_required` -/
  | enriching (jobId path : Text) (rest : List Text)
  /-- before the lock that counts the note -/
  | recording (jobId : Text) (entry : JobEntry) (rest : List Text)
  /-- in `reindex_note` or `invalidate_cache`, whose exceptions are logged -/
  | reindexing (jobId : Text) (rest : List Text)
  /-- in `_mark_job_failed`, before its lock -/
  | failing (jobId : Text)
  | exited
  deriving DecidableEq

def JobWorker.alive : JobWorker → Bool
  | .notStarted => false
  | .exited => false
  | _ => true

/-- What `enqueue` has made of its arguments when it takes the lock. -/
structure JobRequest where
  jobId : Text
  paths : List Text
  reason : Text
  now : Nat
  deriving DecidableEq

structure JobManager where
  queue : List (Text × List Text) := []
  jobs : List (Text × Job) := []
  accepting : Bool := true
  stop : Bool := false
  worker : JobWorker := .notStarted
  /-- the enqueue that holds the lock and has put its job into the queue -/
  enqueuing : Option JobRequest := none

structure EnqueueAnswer where
  accepted : Bool
  reason : Option Text := none
  errorCode : Option Text := none
  queuedPaths : Nat := 0
  maxPaths : Option Nat := none
  jobId : Option Text := none
  deriving DecidableEq

namespace JobManager

variable (settings : JobSettings)

/-- The Markdown paths, each once. -/
def mdPaths (paths : List Text) : List Text :=
  (paths.filter (fun path => Text.endsWith (settings.lower path) ".md".toList)).eraseDups

/-- The answers of `enqueue` that need no lock. -/
def refusedBefore (paths : List Text) (aiEnabled : Bool) : Option EnqueueAnswer :=
  if paths.isEmpty then
    some { accepted := false
           reason := some "No valid .md path was provided for enrichment".toList }
  else if settings.pathsPerJob < paths.length then
    some { accepted := false
           errorCode := some "too_many_paths".toList
           reason := some "Path count exceeds the per-job limit".toList
           maxPaths := some settings.pathsPerJob }
  else if !aiEnabled then
    some { accepted := false
           reason := some "AI enrichment is disabled in configuration".toList }
  else none

/-- From the lock to `put_nowait`. -/
def put (request : JobRequest) (manager : JobManager) : Except EnqueueAnswer JobManager :=
  if !manager.accepting then
    .error { accepted := false
             errorCode := some "stopped".toList
             reason := some "Enrichment queue is stopped".toList }
  else if settings.pending ≤ manager.queue.length then
    .error { accepted := false
             errorCode := some "queue_full".toList
             reason := some "Enrichment queue is full".toList }
  else
    .ok { manager with
          queue := manager.queue ++ [(request.jobId, request.paths)]
          enqueuing := some request }

def terminalJobs (jobs : List (Text × Job)) : List (Text × Job) :=
  jobs.filter (fun entry => entry.2.status.terminal)

/-- `_prune_terminal_jobs_locked` -/
def pruned (jobs : List (Text × Job)) : List (Text × Job) :=
  let terminal := terminalJobs jobs
  if terminal.length ≤ settings.history then jobs
  else
    let ordered := terminal.mergeSort (fun former latter => former.2.createdAt ≤ latter.2.createdAt)
    let removed := (ordered.take (terminal.length - settings.history)).map Prod.fst
    jobs.filter (fun entry => !removed.contains entry.1)

/-- `_ensure_worker_locked` -/
def ensureWorker (manager : JobManager) : JobManager :=
  if manager.worker.alive then manager else { manager with worker := .checkingStop }

def JobRequest.job (request : JobRequest) : Job :=
  { jobId := request.jobId
    reason := request.reason
    createdAt := request.now
    total := request.paths.length }

/-- From the registration to the end of the lock. -/
def register (request : JobRequest) (manager : JobManager) : JobManager :=
  ensureWorker
    { manager with
      jobs := pruned settings (OrderedDict.set manager.jobs request.jobId (JobRequest.job request))
      enqueuing := none }

def acceptedAnswer (request : JobRequest) : EnqueueAnswer :=
  { accepted := true, jobId := some request.jobId, queuedPaths := request.paths.length }

/-! ### The worker -/

/-- The entry of a call that has returned. -/
def entryOf (path : Text) (result : CrudResult) : JobEntry :=
  { path
    success := result.success
    message := result.message
    frontmatterEnriched := result.frontmatterEnriched.getD false
    frontmatterFieldsFilled := result.fieldsFilled.getD 0
    errorCode := result.errorCode }

/-- `error_result` of a call that has raised. -/
def internalError (path : Text) : CrudResult :=
  crudError path "Internal enrichment failure".toList (some "internal_error".toList)

/-- One more note of the job is counted. -/
def counted (entry : JobEntry) (job : Job) : Job :=
  { job with
    processed := job.processed + 1
    succeeded := if entry.success then job.succeeded + 1 else job.succeeded
    failed := if entry.success then job.failed else job.failed + 1
    results := if job.results.length < settings.detailed then job.results ++ [entry] else job.results
    returned := if job.results.length < settings.detailed then job.returned + 1 else job.returned
    truncated :=
      if job.results.length < settings.detailed then job.truncated else job.truncated + 1 }

def finished (now : Nat) (job : Job) : Job :=
  { job with
    finishedAt := some now
    status := if 0 < job.failed then .completedWithErrors else .completed }

/-- After a note has been counted. -/
def afterEntry (jobId : Text) (entry : JobEntry) (rest : List Text) : JobWorker :=
  if entry.frontmatterEnriched then .reindexing jobId rest else .choosing jobId rest

/-- A step of the worker that waits for no lock. -/
def workFree (manager : JobManager) : Option JobManager :=
  match manager.worker with
  | .checkingStop =>
      some { manager with worker := if manager.stop then .checkingEmpty else .getting }
  | .checkingEmpty =>
      some { manager with worker := if manager.queue.isEmpty then .exited else .getting }
  | .getting =>
      match manager.queue with
      -- the timeout of `get` has passed
      | [] => some { manager with worker := .checkingStop }
      | (jobId, paths) :: rest =>
          some { manager with queue := rest, worker := .holding jobId paths }
  | .choosing jobId (path :: rest) => some { manager with worker := .enriching jobId path rest }
  | .reindexing jobId rest => some { manager with worker := .choosing jobId rest }
  | _ => none

/-- A step of the worker under the lock. -/
def workLocked (now : Nat) (manager : JobManager) : Option JobManager :=
  match manager.worker with
  | .holding jobId paths =>
      match manager.jobs.lookup jobId with
      | none => some { manager with worker := .checkingStop }
      | some job =>
          some { manager with
                 jobs := OrderedDict.set manager.jobs jobId
                   { job with status := .running, startedAt := some now }
                 worker := .choosing jobId paths }
  | .recording jobId entry rest =>
      match manager.jobs.lookup jobId with
      | none => some { manager with worker := .choosing jobId rest }
      | some job =>
          some { manager with
                 jobs := OrderedDict.set manager.jobs jobId (counted settings entry job)
                 worker := afterEntry jobId entry rest }
  | .choosing jobId [] =>
      match manager.jobs.lookup jobId with
      | none => some { manager with worker := .checkingStop }
      | some job =>
          some { manager with
                 jobs := pruned settings (OrderedDict.set manager.jobs jobId (finished now job))
                 worker := .checkingStop }
  | .failing jobId =>
      match manager.jobs.lookup jobId with
      | none => some { manager with worker := .checkingStop }
      | some job =>
          if job.status.terminal then some { manager with worker := .checkingStop }
          else
            some { manager with
                   jobs := pruned settings (OrderedDict.set manager.jobs jobId
                     { job with status := .failed, finishedAt := some now })
                   worker := .checkingStop }
  | _ => none

/-! ### Status -/

inductive StatusAnswer where
  | notFound (jobId : Text)
  | job (job : Job)
  | jobs (recent : List Job) (totalJobs : Nat)

/-- `get_status`, which changes nothing. -/
def getStatus (jobId : Option Text) (limit : Int) (manager : JobManager) : StatusAnswer :=
  match jobId.filter (fun given => !given.isEmpty) with
  | some given =>
      match manager.jobs.lookup given with
      | none => .notFound given
      | some job => .job job
  | none =>
      let recent := (manager.jobs.map Prod.snd).mergeSort
        (fun former latter => latter.createdAt ≤ former.createdAt)
      .jobs (recent.take (max 1 (min limit 100)).toNat) manager.jobs.length

end JobManager

/-! ### The system -/

/-- The manager, and the jobs that calls of `enqueue` and of `_run_job` have dealt with. -/
structure JobSystem where
  manager : JobManager := {}
  accepted : List Text := []
  began : List Text := []
  ended : List Text := []

inductive JobAction where
  /-- `enqueue` up to `put_nowait` -/
  | enqueue (jobId reason : Text) (paths : List Text) (now : Nat) (aiEnabled : Bool)
  /-- the rest of it -/
  | register
  /-- the locked part of `stop` -/
  | stopAccepting
  /-- `self._stop.set()`, which follows it -/
  | setStop
  | getStatus (jobId : Option Text) (limit : Int)
  | work (now : Nat)
  /-- `enrich_note_frontmatter_required` returns, or raises an `Exception` -/
  | enrich (outcome : Option CrudResult)
  /-- another exception leaves `_run_job` -/
  | escape

namespace JobSystem

def locked (system : JobSystem) : Bool :=
  system.manager.enqueuing.isSome

/-- The ids that have been given to a job. -/
def issued (system : JobSystem) : List Text :=
  system.accepted ++ (system.manager.enqueuing.map JobRequest.jobId).toList

def enqueue (settings : JobSettings) (request : JobRequest) (aiEnabled : Bool)
    (system : JobSystem) : Option JobSystem :=
  if (JobManager.refusedBefore settings request.paths aiEnabled).isSome then some system
  else if system.locked then none
  -- `uuid4` gives no id twice
  else if system.issued.contains request.jobId then none
  else
    match system.manager.put settings request with
    | .error _ => some system
    | .ok manager => some { system with manager }

/-- The jobs whose run begins with the next step of the worker under the lock. -/
def beginning (manager : JobManager) : List Text :=
  match manager.worker with
  | .holding jobId _ => if (manager.jobs.lookup jobId).isSome then [jobId] else []
  | _ => []

def ending (manager : JobManager) : List Text :=
  match manager.worker with
  | .choosing jobId [] => [jobId]
  | .failing jobId => [jobId]
  | _ => []

def work (settings : JobSettings) (now : Nat) (system : JobSystem) : Option JobSystem :=
  match system.manager.workFree with
  | some manager => some { system with manager }
  | none =>
      if system.locked then none
      else
        (system.manager.workLocked settings now).map (fun manager =>
          { system with
            manager
            began := system.began ++ beginning system.manager
            ended := system.ended ++ ending system.manager })

def withWorker (worker : JobWorker) (system : JobSystem) : JobSystem :=
  { system with manager := { system.manager with worker } }

def step (settings : JobSettings) (system : JobSystem) : JobAction → Option JobSystem
  | .enqueue jobId reason paths now aiEnabled =>
      system.enqueue settings { jobId, paths := JobManager.mdPaths settings paths, reason, now }
        aiEnabled
  | .register =>
      system.manager.enqueuing.map (fun request =>
        { system with
          manager := system.manager.register settings request
          accepted := system.accepted ++ [request.jobId] })
  | .stopAccepting =>
      if system.locked then none
      else some { system with manager := { system.manager with accepting := false } }
  | .setStop =>
      if system.manager.accepting then none
      else some { system with manager := { system.manager with stop := true } }
  | .getStatus _ _ => if system.locked then none else some system
  | .work now => system.work settings now
  | .enrich outcome =>
      match system.manager.worker with
      | .enriching jobId path rest =>
          some (system.withWorker (.recording jobId
            (JobManager.entryOf path (outcome.getD (JobManager.internalError path))) rest))
      | _ => none
  | .escape =>
      match system.manager.worker with
      | .enriching jobId _ _ => some (system.withWorker (.failing jobId))
      | .reindexing jobId _ => some (system.withWorker (.failing jobId))
      | _ => none

end JobSystem

end VaultSearch
