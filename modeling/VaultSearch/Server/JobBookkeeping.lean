/-
What holds of the enrichment jobs in every reachable state: the counters of each job, the
course of its status, the bound of the history, and that each accepted job is run once.

The queue is first in, first out and there is one worker, so that the jobs that have begun, then
the one the worker holds, then the queue are the jobs that were accepted, in their order.
-/

import VaultSearch.Server.FrontmatterJobs

set_option autoImplicit false

namespace VaultSearch

/-! ### One record -/

/-- The counters of a job add up. -/
structure Job.Conserved (settings : JobSettings) (job : Job) : Prop where
  outcomes : job.processed = job.succeeded + job.failed
  within : job.processed ≤ job.total
  details : job.processed = job.returned + job.truncated
  listed : job.returned = job.results.length
  capped : job.results.length ≤ settings.detailed

/-- The statuses a job goes through. -/
inductive JobStatus.Follows : JobStatus → JobStatus → Prop where
  | same (status : JobStatus) : Follows status status
  | starts : Follows .queued .running
  | ends {status : JobStatus} (terminal : status.terminal = true) : Follows .running status

theorem counted_conserved {settings : JobSettings} {entry : JobEntry} {job : Job}
    (conserved : job.Conserved settings) (before : job.processed < job.total) :
    (JobManager.counted settings entry job).Conserved settings := by
  obtain ⟨outcomes, within, details, listed, capped⟩ := conserved
  unfold JobManager.counted
  constructor
  · dsimp only
    split <;> omega
  · exact before
  · dsimp only
    split <;> omega
  · dsimp only
    split
    · rw [List.length_append, listed]
      rfl
    · exact listed
  · dsimp only
    split
    case isTrue room =>
      rw [List.length_append]
      exact room
    · exact capped

theorem finished_conserved {settings : JobSettings} {job : Job} (now : Nat)
    (conserved : job.Conserved settings) : (JobManager.finished now job).Conserved settings :=
  ⟨conserved.outcomes, conserved.within, conserved.details, conserved.listed, conserved.capped⟩

/-! ### The history -/

namespace JobManager

variable {settings : JobSettings} {jobs : List (Text × Job)} {jobId : Text} {job : Job}

theorem lookup_of_pruned (found : (pruned settings jobs).lookup jobId = some job) :
    jobs.lookup jobId = some job := by
  unfold pruned at found
  dsimp only at found
  split at found
  · exact found
  · rw [OrderedDict.lookup_filter jobs (fun name => !List.contains _ name)] at found
    split at found
    · exact found
    · cases found

/-- A queued or running job is not removed. -/
theorem lookup_pruned (distinct : (jobs.map Prod.fst).Nodup)
    (found : jobs.lookup jobId = some job) (nonterminal : job.status.terminal = false) :
    (pruned settings jobs).lookup jobId = some job := by
  unfold pruned
  dsimp only
  split
  · exact found
  · rw [OrderedDict.lookup_filter jobs (fun name => !List.contains _ name), if_pos]
    · exact found
    · rw [Bool.not_eq_true', List.contains_eq_mem, decide_eq_false_iff_not]
      intro removed
      obtain ⟨entry, taken, same⟩ := List.mem_map.mp removed
      have inOrder := List.mem_of_mem_take taken
      have member := List.mem_filter.mp (List.mem_mergeSort.mp inOrder)
      have isEntry := OrderedDict.lookup_of_mem distinct member.1
      rw [same, found] at isEntry
      rw [← Option.some.inj isEntry, nonterminal] at member
      cases member.2

theorem pruned_distinct (distinct : (jobs.map Prod.fst).Nodup) :
    ((pruned settings jobs).map Prod.fst).Nodup := by
  unfold pruned
  dsimp only
  split
  · exact distinct
  · exact distinct.sublist (List.filter_sublist.map _)

/-- What stays without the names of the first entries. -/
theorem filter_untaken_length (entries : List (Text × Job)) (count : Nat) :
    (entries.filter (fun entry =>
      !((entries.take count).map Prod.fst).contains entry.1)).length ≤ entries.length - count := by
  generalize stays : (fun entry : Text × Job =>
    !((entries.take count).map Prod.fst).contains entry.1) = kept
  have parts : entries.filter kept =
      (entries.take count).filter kept ++ (entries.drop count).filter kept := by
    rw [← List.filter_append, List.take_append_drop]
  have nothing : (entries.take count).filter kept = [] := by
    rw [List.filter_eq_nil_iff, ← stays]
    intro entry member
    rw [Bool.not_eq_true, Bool.not_eq_false', List.contains_eq_mem]
    exact decide_eq_true (List.mem_map_of_mem member)
  rw [parts, nothing, List.nil_append, ← List.length_drop]
  exact List.length_filter_le _ _

/-- The oldest terminal jobs are removed until the bound is met. -/
theorem pruned_bounded (settings : JobSettings) (jobs : List (Text × Job)) :
    (terminalJobs (pruned settings jobs)).length ≤ settings.history := by
  unfold pruned
  dsimp only
  split
  case isTrue few => exact few
  case isFalse many =>
    generalize excess : (terminalJobs jobs).length - settings.history = surplus
    generalize ordering : (terminalJobs jobs).mergeSort
      (fun former latter => former.2.createdAt ≤ latter.2.createdAt) = ordered
    have permuted : ordered.Perm (terminalJobs jobs) := by
      rw [← ordering]
      exact List.mergeSort_perm _ _
    have commuted : terminalJobs (jobs.filter (fun entry =>
        !((ordered.take surplus).map Prod.fst).contains entry.1)) =
          (terminalJobs jobs).filter (fun entry =>
            !((ordered.take surplus).map Prod.fst).contains entry.1) := by
      unfold terminalJobs
      exact List.filter_comm _ _ _
    rw [commuted, ← (permuted.filter _).length_eq]
    have few := filter_untaken_length ordered surplus
    rw [permuted.length_eq] at few
    omega

/-- Writing to a job that goes on makes no terminal job. -/
theorem terminalJobs_set (going : job.status.terminal = false) :
    (terminalJobs (OrderedDict.set jobs jobId job)).length ≤ (terminalJobs jobs).length := by
  have inPlace : ∀ rest : List (Text × Job),
      (terminalJobs (rest.map (fun entry =>
        if entry.1 == jobId then (jobId, job) else entry))).length ≤ (terminalJobs rest).length := by
    intro rest
    unfold terminalJobs
    induction rest with
    | nil => exact Nat.le_refl _
    | cons head tail ih =>
        rw [List.map_cons, List.filter_cons, List.filter_cons]
        by_cases here : head.1 == jobId
        · rw [if_pos here, going, if_neg Bool.false_ne_true]
          split
          · rw [List.length_cons]
            exact Nat.le_succ_of_le ih
          · exact ih
        · rw [if_neg here]
          split
          · rw [List.length_cons, List.length_cons]
            exact Nat.succ_le_succ ih
          · exact ih
  unfold OrderedDict.set
  split
  · exact inPlace jobs
  · unfold terminalJobs
    rw [List.filter_append, List.length_append, List.filter_cons, going,
      if_neg Bool.false_ne_true]
    exact Nat.le_refl _

/-- What holds of the retained jobs. -/
structure Records (settings : JobSettings) (known : List Text) (jobs : List (Text × Job)) :
    Prop where
  distinct : (jobs.map Prod.fst).Nodup
  conserved : ∀ jobId job, jobs.lookup jobId = some job → job.Conserved settings
  bounded : (terminalJobs jobs).length ≤ settings.history
  known : ∀ jobId job, jobs.lookup jobId = some job → jobId ∈ known

variable {known : List Text}

theorem Records.empty (settings : JobSettings) : Records settings [] [] where
  distinct := List.nodup_nil
  conserved := by
    intro jobId job found
    cases found
  bounded := Nat.zero_le _
  known := by
    intro jobId job found
    cases found

/-- Every job that is found after a write is the one written or an old one. -/
theorem found_set {other : Text} {found : Job}
    (isFound : (OrderedDict.set jobs jobId job).lookup other = some found) :
    other = jobId ∧ found = job ∨ jobs.lookup other = some found := by
  rw [OrderedDict.lookup_set] at isFound
  split at isFound
  case isTrue same => exact Or.inl ⟨same, (Option.some.inj isFound).symm⟩
  case isFalse => exact Or.inr isFound

theorem Records.write (records : Records settings known jobs) (member : jobId ∈ known)
    (conserved : job.Conserved settings) (going : job.status.terminal = false) :
    Records settings known (OrderedDict.set jobs jobId job) where
  distinct := OrderedDict.distinct_set records.distinct jobId job
  conserved := by
    intro other found isFound
    rcases found_set isFound with ⟨_same, isJob⟩ | old
    · rw [isJob]
      exact conserved
    · exact records.conserved other found old
  bounded := Nat.le_trans (terminalJobs_set going) records.bounded
  known := by
    intro other found isFound
    rcases found_set isFound with ⟨same, _isJob⟩ | old
    · rw [same]
      exact member
    · exact records.known other found old

theorem Records.writePruned (records : Records settings known jobs) {more : List Text}
    (wider : ∀ other ∈ known, other ∈ more) (member : jobId ∈ more)
    (conserved : job.Conserved settings) :
    Records settings more (pruned settings (OrderedDict.set jobs jobId job)) where
  distinct := pruned_distinct (OrderedDict.distinct_set records.distinct jobId job)
  conserved := by
    intro other found isFound
    rcases found_set (lookup_of_pruned isFound) with ⟨_same, isJob⟩ | old
    · rw [isJob]
      exact conserved
    · exact records.conserved other found old
  bounded := pruned_bounded settings _
  known := by
    intro other found isFound
    rcases found_set (lookup_of_pruned isFound) with ⟨same, _isJob⟩ | old
    · rw [same]
      exact member
    · exact wider other (records.known other found old)

/-- Another job that goes on is still found. -/
theorem lookup_writePruned (records : Records settings known jobs) {other : Text} {found : Job}
    (apart : other ≠ jobId) (isFound : jobs.lookup other = some found)
    (going : found.status.terminal = false) :
    (pruned settings (OrderedDict.set jobs jobId job)).lookup other = some found := by
  apply lookup_pruned (OrderedDict.distinct_set records.distinct jobId job) _ going
  rw [OrderedDict.lookup_set, if_neg apart]
  exact isFound

end JobManager

/-! ### The worker and the queue -/

/-- The job whose run has begun and not ended. -/
def JobWorker.current : JobWorker → List Text
  | .choosing jobId _ => [jobId]
  | .enriching jobId _ _ => [jobId]
  | .recording jobId _ _ => [jobId]
  | .reindexing jobId _ => [jobId]
  | .failing jobId => [jobId]
  | _ => []

/-- How many of its notes are still to be counted. -/
def JobWorker.remaining : JobWorker → Nat
  | .choosing _ rest => rest.length
  | .enriching _ _ rest => rest.length + 1
  | .recording _ _ rest => rest.length + 1
  | .reindexing _ rest => rest.length
  | _ => 0

/-- Taken from the queue, and not begun. -/
def JobWorker.held : JobWorker → List (Text × List Text)
  | .holding jobId paths => [(jobId, paths)]
  | _ => []

/-- In the loop, and not on the way out of it. -/
def JobWorker.inLoop : JobWorker → Bool
  | .notStarted => false
  | .checkingEmpty => false
  | .exited => false
  | _ => true

theorem JobWorker.inLoop_spec {worker : JobWorker} (inLoop : worker.inLoop = true) :
    worker ≠ .notStarted ∧ worker ≠ .checkingEmpty ∧ worker ≠ .exited := by
  refine ⟨?_, ?_, ?_⟩ <;>
  · intro same
    rw [same] at inLoop
    cases inLoop

namespace JobSystem

def waiting (manager : JobManager) : List (Text × List Text) :=
  manager.worker.held ++ manager.queue

/-- A job that waits is registered as queued, or its enqueue still holds the lock. -/
def Registered (manager : JobManager) (item : Text × List Text) : Prop :=
  (∃ job, manager.jobs.lookup item.1 = some job ∧ job.status = .queued ∧ job.processed = 0 ∧
    job.total = item.2.length) ∨
  ∃ request, manager.enqueuing = some request ∧ request.jobId = item.1 ∧ request.paths = item.2

structure JobInvariant (settings : JobSettings) (system : JobSystem) : Prop where
  records : JobManager.Records settings system.accepted system.manager.jobs
  order : system.began ++ (waiting system.manager).map Prod.fst = system.issued
  fresh : system.issued.Nodup
  running : system.began = system.ended ++ system.manager.worker.current
  registered : ∀ item ∈ waiting system.manager, Registered system.manager item
  working : ∀ jobId ∈ system.manager.worker.current,
    ∃ job, system.manager.jobs.lookup jobId = some job ∧ job.status = .running ∧
      job.processed + system.manager.worker.remaining ≤ job.total
  accepting : system.manager.enqueuing.isSome = true → system.manager.accepting = true
  stopped : system.manager.stop = true → system.manager.accepting = false
  closing : system.manager.worker = .checkingEmpty ∨ system.manager.worker = .exited →
    system.manager.stop = true
  drained : system.manager.worker = .exited → system.manager.queue = []
  started : system.manager.worker = .notStarted → system.accepted = []

/-- What one step may do to the retained jobs, where `ended` are the jobs whose run has ended
with it. -/
def Moves (ended : List Text) (before after : List (Text × Job)) : Prop :=
  ∀ jobId job, before.lookup jobId = some job →
    (∀ later, after.lookup jobId = some later → job.status.Follows later.status) ∧
      (job.status.terminal = false → jobId ∉ ended → (after.lookup jobId).isSome = true)

variable {settings : JobSettings} {system after : JobSystem} {ended : List Text}

theorem Moves.refl (jobs : List (Text × Job)) : Moves ended jobs jobs := by
  intro jobId job found
  constructor
  · intro later isLater
    rw [found] at isLater
    rw [Option.some.inj isLater]
    exact .same _
  · intro _going _runs
    rw [found]
    rfl

theorem Moves.write {jobs : List (Text × Job)} {jobId : Text} {job : Job}
    (follows : ∀ old, jobs.lookup jobId = some old → old.status.Follows job.status) :
    Moves ended jobs (OrderedDict.set jobs jobId job) := by
  intro other found isFound
  constructor
  · intro later isLater
    rcases JobManager.found_set isLater with ⟨same, isJob⟩ | old
    · rw [same] at isFound
      rw [isJob]
      exact follows found isFound
    · rw [isFound] at old
      rw [Option.some.inj old]
      exact .same _
  · intro _going _runs
    rw [OrderedDict.lookup_set]
    split
    · rfl
    · rw [isFound]
      rfl

/-- Pruning takes no job that goes on. -/
theorem Moves.writePruned {known : List Text} {jobs : List (Text × Job)} {jobId : Text} {job : Job}
    (records : JobManager.Records settings known jobs)
    (follows : ∀ old, jobs.lookup jobId = some old → old.status.Follows job.status)
    (gone : jobId ∈ ended ∨ jobs.lookup jobId = none) :
    Moves ended jobs (JobManager.pruned settings (OrderedDict.set jobs jobId job)) := by
  intro other found isFound
  constructor
  · intro later isLater
    have before := (@Moves.write ended jobs jobId job follows other found isFound).1
    exact before later (JobManager.lookup_of_pruned isLater)
  · intro going runs
    have apart : other ≠ jobId := by
      intro same
      rcases gone with hasEnded | absent
      · rw [same] at runs
        exact runs hasEnded
      · rw [same, absent] at isFound
        cases isFound
    rw [JobManager.lookup_writePruned records apart isFound going]
    rfl

/-- The invariant still holds, and the jobs have moved as they may. -/
structure Advances (settings : JobSettings) (system after : JobSystem) : Prop where
  kept : JobInvariant settings after
  moves : Moves after.ended system.manager.jobs after.manager.jobs

theorem start_invariant (settings : JobSettings) : JobInvariant settings {} where
  records := JobManager.Records.empty settings
  order := rfl
  fresh := List.nodup_nil
  running := rfl
  registered := by
    intro item member
    cases member
  working := by
    intro jobId member
    cases member
  accepting := fun impossible => (by cases impossible)
  stopped := fun impossible => (by cases impossible)
  closing := fun either => (by rcases either with impossible | impossible <;> cases impossible)
  drained := fun impossible => (by cases impossible)
  started := fun _notStarted => rfl

/-- The worker and the queue go on, and the jobs stay as they are. -/
theorem JobInvariant.turn (holds : JobInvariant settings system) {worker : JobWorker}
    {queue : List (Text × List Text)} (same : worker.held ++ queue = waiting system.manager)
    (current : worker.current = system.manager.worker.current)
    (fewer : worker.remaining ≤ system.manager.worker.remaining)
    (closing : worker = .checkingEmpty ∨ worker = .exited → system.manager.stop = true)
    (drained : worker = .exited → queue = [])
    (alive : worker ≠ .notStarted) :
    Advances settings system { system with manager := { system.manager with worker, queue } } where
  kept :=
    { records := holds.records
      order := by
        have before := holds.order
        rw [← same] at before
        exact before
      fresh := holds.fresh
      running := by
        have before := holds.running
        rw [← current] at before
        exact before
      registered := by
        intro item member
        have inWaiting : item ∈ waiting system.manager := by
          rw [← same]
          exact member
        exact holds.registered item inWaiting
      working := by
        intro jobId member
        have isCurrent : jobId ∈ system.manager.worker.current := by
          rw [← current]
          exact member
        obtain ⟨job, found, isRunning, enough⟩ := holds.working jobId isCurrent
        exact ⟨job, found, isRunning, Nat.le_trans (Nat.add_le_add_left fewer _) enough⟩
      accepting := holds.accepting
      stopped := holds.stopped
      closing
      drained
      started := fun notStarted => absurd notStarted alive }
  moves := .refl _

theorem advances_stopAccepting (holds : JobInvariant settings system)
    (free : system.locked = false) :
    Advances settings system
      { system with manager := { system.manager with accepting := false } } where
  kept :=
    { holds with
      accepting := by
        intro isLocked
        unfold locked at free
        rw [free] at isLocked
        cases isLocked
      stopped := fun _stop => rfl }
  moves := .refl _

theorem advances_setStop (holds : JobInvariant settings system)
    (closed : system.manager.accepting = false) :
    Advances settings system { system with manager := { system.manager with stop := true } } where
  kept :=
    { holds with
      stopped := fun _stop => closed
      closing := fun _either => rfl }
  moves := .refl _

theorem issued_free (free : system.locked = false) : system.issued = system.accepted := by
  unfold locked at free
  unfold issued
  cases held : system.manager.enqueuing with
  | none => exact List.append_nil _
  | some request =>
      rw [held] at free
      cases free

theorem JobInvariant.not_exited (holds : JobInvariant settings system)
    (accepting : system.manager.accepting = true) : system.manager.worker ≠ .exited := by
  intro exited
  have closed := holds.stopped (holds.closing (Or.inr exited))
  rw [accepting] at closed
  cases closed

/-- The item is in the queue, and the enqueue has the lock. -/
theorem advances_put (holds : JobInvariant settings system) {request : JobRequest}
    {manager : JobManager} (free : system.locked = false) (new : request.jobId ∉ system.issued)
    (isPut : system.manager.put settings request = .ok manager) :
    Advances settings system { system with manager } := by
  have isIssued := issued_free free
  unfold JobManager.put at isPut
  split at isPut
  · cases isPut
  case isFalse notClosed =>
    split at isPut
    · cases isPut
    · cases isPut
      have accepting : system.manager.accepting = true := by simpa using notClosed
      constructor
      · constructor
        · exact holds.records
        · have before := holds.order
          rw [isIssued] at before
          show system.began ++ (system.manager.worker.held ++
            (system.manager.queue ++ [(request.jobId, request.paths)])).map Prod.fst =
              system.accepted ++ [request.jobId]
          rw [← before, ← List.append_assoc, List.map_append, ← List.append_assoc]
          rfl
        · show (system.accepted ++ [request.jobId]).Nodup
          rw [isIssued] at new
          have fresh := holds.fresh
          rw [isIssued] at fresh
          exact List.nodup_append.mpr ⟨fresh, List.nodup_singleton _, by
            intro other member last isLast same
            rw [same, List.mem_singleton.mp isLast] at member
            exact new member⟩
        · exact holds.running
        · intro item member
          have inEither : item ∈ waiting system.manager ∨
              item = (request.jobId, request.paths) := by
            unfold waiting at member ⊢
            rw [← List.append_assoc] at member
            rcases List.mem_append.mp member with old | last
            · exact Or.inl old
            · exact Or.inr (List.mem_singleton.mp last)
          rcases inEither with old | isNew
          · rcases holds.registered item old with found | ⟨other, isLocked, _both⟩
            · exact Or.inl found
            · unfold locked at free
              rw [isLocked] at free
              cases free
          · rw [isNew]
            exact Or.inr ⟨request, rfl, rfl, rfl⟩
        · exact holds.working
        · exact fun _locked => accepting
        · exact holds.stopped
        · exact holds.closing
        · exact fun exited => absurd exited (holds.not_exited accepting)
        · exact holds.started
      · exact .refl _

/-- A worker that was not there begins to look at the queue. -/
structure Ensured (before worker : JobWorker) : Prop where
  held : worker.held = before.held
  current : worker.current = before.current
  remaining : worker.remaining = before.remaining
  alive : worker.alive = true
  closing : worker = .checkingEmpty → before = .checkingEmpty

theorem ensureWorker_ensured (manager : JobManager) :
    ∃ worker, manager.ensureWorker = { manager with worker } ∧ Ensured manager.worker worker := by
  unfold JobManager.ensureWorker
  cases alive : manager.worker.alive with
  | true => exact ⟨manager.worker, rfl, rfl, rfl, rfl, alive, fun same => same⟩
  | false =>
      refine ⟨.checkingStop, rfl, ?_⟩
      cases shape : manager.worker with
      | notStarted => exact ⟨rfl, rfl, rfl, rfl, fun impossible => (by cases impossible)⟩
      | exited => exact ⟨rfl, rfl, rfl, rfl, fun impossible => (by cases impossible)⟩
      | _ =>
          rw [shape] at alive
          cases alive

/-- The job is registered, and a worker is there to run it. -/
theorem advances_register (holds : JobInvariant settings system) {request : JobRequest}
    (isLocked : system.manager.enqueuing = some request) :
    Advances settings system
      { system with
        manager := system.manager.register settings request
        accepted := system.accepted ++ [request.jobId] } := by
  have isIssued : system.issued = system.accepted ++ [request.jobId] := by
    unfold issued
    rw [isLocked]
    rfl
  have fresh := holds.fresh
  rw [isIssued] at fresh
  have new : request.jobId ∉ system.accepted := by
    intro member
    exact (List.nodup_append.mp fresh).2.2 _ member _ (List.mem_singleton_self _) rfl
  have absent : system.manager.jobs.lookup request.jobId = none := by
    cases found : system.manager.jobs.lookup request.jobId with
    | none => rfl
    | some job => exact absurd (holds.records.known _ _ found) new
  have apart : ∀ {jobId : Text} {job : Job}, system.manager.jobs.lookup jobId = some job →
      jobId ≠ request.jobId := by
    intro jobId job found same
    rw [same, absent] at found
    cases found
  have conserved : (JobManager.JobRequest.job request).Conserved settings :=
    ⟨rfl, Nat.zero_le _, rfl, rfl, Nat.zero_le _⟩
  obtain ⟨worker, isEnsured, ensured⟩ := ensureWorker_ensured { system.manager with
    jobs := JobManager.pruned settings (OrderedDict.set system.manager.jobs request.jobId
      (JobManager.JobRequest.job request))
    enqueuing := none }
  have sameWaiting : worker.held ++ system.manager.queue = waiting system.manager := by
    rw [ensured.held]
    rfl
  unfold JobManager.register
  rw [isEnsured]
  constructor
  · constructor
    · apply holds.records.writePruned
      · exact fun other member => List.mem_append_left _ member
      · exact List.mem_append_right _ (List.mem_singleton_self _)
      · exact conserved
    · have before := holds.order
      rw [isIssued, ← sameWaiting] at before
      show system.began ++ (worker.held ++ system.manager.queue).map Prod.fst =
        (system.accepted ++ [request.jobId]) ++ []
      rw [List.append_nil]
      exact before
    · show ((system.accepted ++ [request.jobId]) ++ []).Nodup
      rw [List.append_nil]
      exact fresh
    · have before := holds.running
      rw [← ensured.current] at before
      exact before
    · intro item member
      have inWaiting : item ∈ waiting system.manager := by
        rw [← sameWaiting]
        exact member
      apply Or.inl
      rcases holds.registered item inWaiting with ⟨job, found, isQueued, rest⟩ | pending
      · refine ⟨job, ?_, isQueued, rest⟩
        apply JobManager.lookup_writePruned holds.records (apart found) found
        rw [isQueued]
        rfl
      · obtain ⟨other, isOther, sameId, samePaths⟩ := pending
        rw [isLocked] at isOther
        rw [← Option.some.inj isOther] at sameId samePaths
        refine ⟨JobManager.JobRequest.job request, ?_, rfl, rfl, ?_⟩
        · apply JobManager.lookup_pruned
            (OrderedDict.distinct_set holds.records.distinct _ _)
          · rw [OrderedDict.lookup_set, if_pos sameId.symm]
          · rfl
        · rw [← samePaths]
          rfl
    · intro jobId member
      have isCurrent : jobId ∈ system.manager.worker.current := by
        rw [← ensured.current]
        exact member
      obtain ⟨job, found, isRunning, enough⟩ := holds.working jobId isCurrent
      refine ⟨job, ?_, isRunning, ?_⟩
      · apply JobManager.lookup_writePruned holds.records (apart found) found
        rw [isRunning]
        rfl
      · rw [← ensured.remaining] at enough
        exact enough
    · exact fun impossible => (by cases impossible)
    · exact holds.stopped
    · intro either
      rcases either with isChecking | isExited
      · exact holds.closing (Or.inl (ensured.closing isChecking))
      · have alive := ensured.alive
        rw [show worker = .exited from isExited] at alive
        cases alive
    · intro isExited
      have alive := ensured.alive
      rw [show worker = .exited from isExited] at alive
      cases alive
    · intro isNew
      have alive := ensured.alive
      rw [show worker = .notStarted from isNew] at alive
      cases alive
  · apply Moves.writePruned holds.records
    · intro old found
      rw [absent] at found
      cases found
    · exact Or.inr absent

/-! ### Steps of the worker -/

theorem JobInvariant.goOn (holds : JobInvariant settings system) {before worker : JobWorker}
    {queue : List (Text × List Text)} (shape : system.manager.worker = before)
    (same : worker.held ++ queue = before.held ++ system.manager.queue)
    (current : worker.current = before.current) (fewer : worker.remaining ≤ before.remaining)
    (inLoop : worker.inLoop = true) :
    Advances settings system { system with manager := { system.manager with worker, queue } } := by
  rw [← shape] at same current fewer
  obtain ⟨notNew, notChecking, notExited⟩ := JobWorker.inLoop_spec inLoop
  apply holds.turn same current fewer
  · exact fun either => either.elim (fun same => absurd same notChecking)
      (fun same => absurd same notExited)
  · exact fun same => absurd same notExited
  · exact notNew

theorem advances_workFree (holds : JobInvariant settings system) {manager : JobManager}
    (worked : system.manager.workFree = some manager) :
    Advances settings system { system with manager } := by
  unfold JobManager.workFree at worked
  cases shape : system.manager.worker with
  | checkingStop =>
      rw [shape] at worked
      cases worked
      by_cases stop : system.manager.stop = true
      · rw [if_pos stop]
        apply holds.turn
        · unfold waiting
          rw [shape]
          rfl
        · rw [shape]
          rfl
        · exact Nat.zero_le _
        · exact fun _either => stop
        · exact fun impossible => (by cases impossible)
        · exact fun impossible => (by cases impossible)
      · rw [if_neg stop]
        exact holds.goOn shape rfl rfl (Nat.le_refl _) rfl
  | checkingEmpty =>
      rw [shape] at worked
      cases worked
      by_cases empty : system.manager.queue.isEmpty = true
      · rw [if_pos empty]
        apply holds.turn
        · unfold waiting
          rw [shape]
          rfl
        · rw [shape]
          rfl
        · exact Nat.zero_le _
        · exact fun _either => holds.closing (Or.inl shape)
        · exact fun _isExited => List.isEmpty_iff.mp empty
        · exact fun impossible => (by cases impossible)
      · rw [if_neg empty]
        exact holds.goOn shape rfl rfl (Nat.le_refl _) rfl
  | getting =>
      rw [shape] at worked
      dsimp only at worked
      split at worked
      · cases worked
        exact holds.goOn shape rfl rfl (Nat.le_refl _) rfl
      case h_2 jobId paths rest queued =>
        cases worked
        apply holds.goOn shape
        · rw [queued]
          rfl
        · rfl
        · exact Nat.le_refl _
        · rfl
  | choosing jobId rest =>
      rw [shape] at worked
      cases rest with
      | nil => cases worked
      | cons path rest =>
          cases worked
          exact holds.goOn shape rfl rfl (Nat.le_refl _) rfl
  | reindexing jobId rest =>
      rw [shape] at worked
      cases worked
      exact holds.goOn shape rfl rfl (Nat.le_refl _) rfl
  | _ =>
      rw [shape] at worked
      cases worked

theorem advances_enrich (holds : JobInvariant settings system) {outcome : Option CrudResult}
    (stepped : system.step settings (.enrich outcome) = some after) :
    Advances settings system after := by
  unfold step at stepped
  dsimp only at stepped
  split at stepped
  case h_1 jobId path rest shape =>
    cases stepped
    exact holds.goOn shape rfl rfl (Nat.le_refl _) rfl
  · cases stepped

theorem advances_escape (holds : JobInvariant settings system)
    (stepped : system.step settings .escape = some after) : Advances settings system after := by
  unfold step at stepped
  dsimp only at stepped
  split at stepped
  case h_1 jobId path rest shape =>
    cases stepped
    exact holds.goOn shape rfl rfl (Nat.zero_le _) rfl
  case h_2 jobId rest shape =>
    cases stepped
    exact holds.goOn shape rfl rfl (Nat.zero_le _) rfl
  · cases stepped

/-- The record of the job that the worker has begun. -/
theorem JobInvariant.current_job (holds : JobInvariant settings system) {jobId : Text}
    (member : jobId ∈ system.manager.worker.current) :
    ∃ job, system.manager.jobs.lookup jobId = some job ∧ job.status = .running ∧
      job.processed + system.manager.worker.remaining ≤ job.total ∧ job.Conserved settings ∧
      jobId ∈ system.accepted := by
  obtain ⟨job, found, isRunning, enough⟩ := holds.working jobId member
  exact ⟨job, found, isRunning, enough, holds.records.conserved _ _ found,
    holds.records.known _ _ found⟩

/-- A job that waits is not the one that has begun. -/
theorem JobInvariant.apart (holds : JobInvariant settings system) {jobId : Text}
    (member : jobId ∈ system.manager.worker.current) :
    ∀ item ∈ waiting system.manager, item.1 ≠ jobId := by
  intro item inWaiting same
  have fresh := holds.fresh
  rw [← holds.order, List.nodup_append] at fresh
  have began : jobId ∈ system.began := by
    rw [holds.running]
    exact List.mem_append_right _ member
  exact fresh.2.2 jobId began item.1 (List.mem_map_of_mem inWaiting) same.symm

/-- The record of the worker's job changes, and the other jobs stay. -/
theorem JobInvariant.rewrite (holds : JobInvariant settings system) {jobId : Text}
    {worker : JobWorker} (member : jobId ∈ system.manager.worker.current)
    (held : system.manager.worker.held = [])
    {jobs : List (Text × Job)} {ended : List Text}
    (records : JobManager.Records settings system.accepted jobs)
    (others : ∀ other later, other ≠ jobId → system.manager.jobs.lookup other = some later →
      later.status.terminal = false → jobs.lookup other = some later)
    (heldAfter : worker.held = []) (inLoop : worker.inLoop = true)
    (running : system.ended ++ system.manager.worker.current = ended ++ worker.current)
    (working : ∀ other ∈ worker.current, ∃ later, jobs.lookup other = some later ∧
      later.status = .running ∧ later.processed + worker.remaining ≤ later.total) :
    JobInvariant settings
      { system with manager := { system.manager with jobs, worker }, ended } where
  records
  order := by
    have before := holds.order
    unfold waiting at before ⊢
    rw [held] at before
    rw [heldAfter]
    exact before
  fresh := holds.fresh
  running := holds.running.trans running
  registered := by
    intro item inQueue
    unfold waiting at inQueue
    rw [heldAfter] at inQueue
    have inWaiting : item ∈ waiting system.manager := by
      unfold waiting
      rw [held]
      exact inQueue
    rcases holds.registered item inWaiting with ⟨later, isLater, isQueued, rest⟩ | pending
    · apply Or.inl
      refine ⟨later, ?_, isQueued, rest⟩
      apply others item.1 later (holds.apart member item inWaiting) isLater
      rw [isQueued]
      rfl
    · exact Or.inr pending
  working
  accepting := holds.accepting
  stopped := holds.stopped
  closing := fun either => either.elim
    (fun same => absurd same (JobWorker.inLoop_spec inLoop).2.1)
    (fun same => absurd same (JobWorker.inLoop_spec inLoop).2.2)
  drained := fun same => absurd same (JobWorker.inLoop_spec inLoop).2.2
  started := fun same => absurd same (JobWorker.inLoop_spec inLoop).1

/-- A note of the job is counted. -/
theorem advances_counted (holds : JobInvariant settings system) {jobId : Text} {entry : JobEntry}
    {rest : List Text} {job : Job} (shape : system.manager.worker = .recording jobId entry rest)
    (found : system.manager.jobs.lookup jobId = some job) :
    Advances settings system
      { system with
        manager :=
          { system.manager with
            jobs := OrderedDict.set system.manager.jobs jobId
              (JobManager.counted settings entry job)
            worker := JobManager.afterEntry jobId entry rest } } := by
  have member : jobId ∈ system.manager.worker.current := by
    rw [shape]
    exact List.mem_singleton_self _
  obtain ⟨same, isFound, isRunning, enough, conserved, known⟩ := holds.current_job member
  rw [found] at isFound
  rw [← Option.some.inj isFound] at isRunning enough conserved
  rw [shape] at enough
  have shapes : (JobManager.afterEntry jobId entry rest).held = [] ∧
      (JobManager.afterEntry jobId entry rest).current = [jobId] ∧
      (JobManager.afterEntry jobId entry rest).remaining = rest.length ∧
      (JobManager.afterEntry jobId entry rest).inLoop = true := by
    unfold JobManager.afterEntry
    split <;> exact ⟨rfl, rfl, rfl, rfl⟩
  obtain ⟨heldAfter, currentAfter, remainingAfter, inLoop⟩ := shapes
  have before : job.processed < job.total := by
    have counted : job.processed + (rest.length + 1) ≤ job.total := enough
    omega
  constructor
  · apply holds.rewrite member
    · rw [shape]
      rfl
    · apply holds.records.write known (counted_conserved conserved before)
      show job.status.terminal = false
      rw [isRunning]
      rfl
    · intro other later apart isLater _going
      rw [OrderedDict.lookup_set, if_neg apart]
      exact isLater
    · exact heldAfter
    · exact inLoop
    · rw [shape, currentAfter]
      rfl
    · intro other isOther
      rw [currentAfter] at isOther
      rw [List.mem_singleton.mp isOther, remainingAfter]
      refine ⟨JobManager.counted settings entry job, ?_, isRunning, ?_⟩
      · rw [OrderedDict.lookup_set, if_pos rfl]
      · have counted : job.processed + (rest.length + 1) ≤ job.total := enough
        show job.processed + 1 + rest.length ≤ job.total
        omega
  · apply Moves.write
    intro old isOld
    rw [found] at isOld
    rw [← Option.some.inj isOld]
    exact .same _

/-- The run of the job ends with a terminal status. -/
theorem advances_ended (holds : JobInvariant settings system) {jobId : Text} {job ending : Job}
    (current : system.manager.worker.current = [jobId]) (held : system.manager.worker.held = [])
    (found : system.manager.jobs.lookup jobId = some job)
    (conserved : ending.Conserved settings) (terminal : ending.status.terminal = true) :
    Advances settings system
      { system with
        manager :=
          { system.manager with
            jobs := JobManager.pruned settings
              (OrderedDict.set system.manager.jobs jobId ending)
            worker := .checkingStop }
        ended := system.ended ++ [jobId] } := by
  have member : jobId ∈ system.manager.worker.current := by
    rw [current]
    exact List.mem_singleton_self _
  obtain ⟨same, isFound, isRunning, _enough, _conserved, known⟩ := holds.current_job member
  rw [found] at isFound
  rw [← Option.some.inj isFound] at isRunning
  constructor
  · apply holds.rewrite member held
    · exact holds.records.writePruned (fun _other inKnown => inKnown) known conserved
    · intro other later apart isLater going
      exact JobManager.lookup_writePruned holds.records apart isLater going
    · rfl
    · rfl
    · rw [current]
      exact (List.append_nil _).symm
    · intro other impossible
      cases impossible
  · apply Moves.writePruned holds.records
    · intro old isOld
      rw [found] at isOld
      rw [← Option.some.inj isOld, isRunning]
      exact .ends terminal
    · exact Or.inl (List.mem_append_right _ (List.mem_singleton_self _))

/-- The run of the job at the head of the queue begins. -/
theorem advances_began (holds : JobInvariant settings system) {jobId : Text} {paths : List Text}
    (shape : system.manager.worker = .holding jobId paths) (free : system.locked = false)
    (now : Nat) :
    ∃ job, system.manager.jobs.lookup jobId = some job ∧
      Advances settings system
        { system with
          manager :=
            { system.manager with
              jobs := OrderedDict.set system.manager.jobs jobId
                { job with status := .running, startedAt := some now }
              worker := .choosing jobId paths }
          began := system.began ++ [jobId] } := by
  have atHead : waiting system.manager = (jobId, paths) :: system.manager.queue := by
    unfold waiting
    rw [shape]
    rfl
  have isFirst : (jobId, paths) ∈ waiting system.manager := by
    rw [atHead]
    exact List.mem_cons_self
  have order := holds.order
  rw [atHead] at order
  rcases holds.registered _ isFirst with ⟨job, found, isQueued, atStart, isTotal⟩ | pending
  · refine ⟨job, found, ?_⟩
    have conserved := holds.records.conserved _ _ found
    constructor
    · constructor
      · exact holds.records.write (holds.records.known _ _ found)
          ⟨conserved.outcomes, conserved.within, conserved.details, conserved.listed,
            conserved.capped⟩ rfl
      · show (system.began ++ [jobId]) ++ system.manager.queue.map Prod.fst = system.issued
        rw [List.append_assoc]
        exact order
      · exact holds.fresh
      · have running := holds.running
        rw [shape] at running
        show system.began ++ [jobId] = system.ended ++ [jobId]
        rw [running]
        exact congrArg (· ++ [jobId]) (List.append_nil _)
      · intro item inQueue
        have inWaiting : item ∈ waiting system.manager := by
          rw [atHead]
          exact List.mem_cons_of_mem _ inQueue
        have apart : item.1 ≠ jobId := by
          have fresh := holds.fresh
          rw [← order, List.nodup_append] at fresh
          intro same
          have inNames : item.1 ∈ system.manager.queue.map Prod.fst :=
            List.mem_map_of_mem inQueue
          rw [same] at inNames
          exact (List.nodup_cons.mp fresh.2.1).1 inNames
        rcases holds.registered item inWaiting with ⟨later, isLater, rest⟩ | pending
        · apply Or.inl
          refine ⟨later, ?_, rest⟩
          rw [OrderedDict.lookup_set, if_neg apart]
          exact isLater
        · exact Or.inr pending
      · intro other isOther
        rw [List.mem_singleton.mp isOther]
        refine ⟨{ job with status := .running, startedAt := some now }, ?_, rfl, ?_⟩
        · rw [OrderedDict.lookup_set, if_pos rfl]
        · show job.processed + paths.length ≤ job.total
          rw [atStart, isTotal, Nat.zero_add]
      · exact holds.accepting
      · exact holds.stopped
      · exact fun either => (by rcases either with impossible | impossible <;> cases impossible)
      · exact fun impossible => (by cases impossible)
      · exact fun impossible => (by cases impossible)
    · apply Moves.write
      intro old isOld
      rw [found] at isOld
      rw [← Option.some.inj isOld, isQueued]
      exact .starts
  · obtain ⟨request, isLocked, _same⟩ := pending
    unfold locked at free
    rw [isLocked] at free
    cases free

/-- A step of the worker under the lock. -/
theorem advances_workLocked (holds : JobInvariant settings system) (free : system.locked = false)
    {now : Nat} {manager : JobManager}
    (worked : system.manager.workLocked settings now = some manager) :
    Advances settings system
      { system with
        manager
        began := system.began ++ beginning system.manager
        ended := system.ended ++ ending system.manager } := by
  unfold JobManager.workLocked at worked
  unfold beginning ending
  cases shape : system.manager.worker with
  | holding jobId paths =>
      obtain ⟨job, found, advances⟩ := advances_began holds shape free now
      rw [shape] at worked
      dsimp only at worked
      rw [found] at worked
      cases worked
      dsimp only
      rw [found, Option.isSome_some, if_pos rfl, List.append_nil]
      exact advances
  | recording jobId entry rest =>
      have member : jobId ∈ system.manager.worker.current := by
        rw [shape]
        exact List.mem_singleton_self _
      obtain ⟨job, found, _isRunning⟩ := holds.current_job member
      rw [shape] at worked
      dsimp only at worked
      rw [found] at worked
      cases worked
      dsimp only
      rw [List.append_nil, List.append_nil]
      exact advances_counted holds shape found
  | choosing jobId rest =>
      cases rest with
      | cons path rest =>
          rw [shape] at worked
          cases worked
      | nil =>
          have member : jobId ∈ system.manager.worker.current := by
            rw [shape]
            exact List.mem_singleton_self _
          obtain ⟨job, found, isRunning, _enough, conserved, _known⟩ := holds.current_job member
          rw [shape] at worked
          dsimp only at worked
          rw [found] at worked
          cases worked
          dsimp only
          rw [List.append_nil]
          apply advances_ended holds (by rw [shape]; rfl) (by rw [shape]; rfl) found
            (finished_conserved now conserved)
          unfold JobManager.finished
          dsimp only
          split <;> rfl
  | failing jobId =>
      have member : jobId ∈ system.manager.worker.current := by
        rw [shape]
        exact List.mem_singleton_self _
      obtain ⟨job, found, isRunning, _enough, conserved, _known⟩ := holds.current_job member
      rw [shape] at worked
      dsimp only at worked
      rw [found] at worked
      dsimp only at worked
      rw [isRunning, show JobStatus.running.terminal = false from rfl,
        if_neg Bool.false_ne_true] at worked
      cases worked
      dsimp only
      rw [List.append_nil]
      exact advances_ended holds (by rw [shape]; rfl) (by rw [shape]; rfl) found
        ⟨conserved.outcomes, conserved.within, conserved.details, conserved.listed,
          conserved.capped⟩ rfl
  | _ =>
      rw [shape] at worked
      cases worked

/-! ### Every step, and every run -/

theorem advances_step (holds : JobInvariant settings system) {action : JobAction}
    (stepped : system.step settings action = some after) : Advances settings system after := by
  cases action with
  | enqueue jobId reason paths now aiEnabled =>
      unfold step enqueue at stepped
      dsimp only at stepped
      split at stepped
      · cases stepped
        exact ⟨holds, .refl _⟩
      · split at stepped
        · cases stepped
        case isFalse free =>
          split at stepped
          · cases stepped
          case isFalse new =>
            split at stepped
            · cases stepped
              exact ⟨holds, .refl _⟩
            case h_2 manager isPut =>
              cases stepped
              exact advances_put holds (by simpa using free) (by simpa using new) isPut
  | register =>
      unfold step at stepped
      dsimp only at stepped
      cases isLocked : system.manager.enqueuing with
      | none =>
          rw [isLocked] at stepped
          cases stepped
      | some request =>
          rw [isLocked] at stepped
          cases stepped
          exact advances_register holds isLocked
  | stopAccepting =>
      unfold step at stepped
      dsimp only at stepped
      split at stepped
      · cases stepped
      case isFalse free =>
        cases stepped
        exact advances_stopAccepting holds (by simpa using free)
  | setStop =>
      unfold step at stepped
      dsimp only at stepped
      split at stepped
      · cases stepped
      case isFalse closed =>
        cases stepped
        exact advances_setStop holds (by simpa using closed)
  | getStatus jobId limit =>
      unfold step at stepped
      dsimp only at stepped
      split at stepped
      · cases stepped
      · cases stepped
        exact ⟨holds, .refl _⟩
  | work now =>
      unfold step work at stepped
      dsimp only at stepped
      split at stepped
      case h_1 manager worked =>
        cases stepped
        exact advances_workFree holds worked
      · split at stepped
        · cases stepped
        case isFalse free =>
          cases worked : system.manager.workLocked settings now with
          | none =>
              rw [worked] at stepped
              cases stepped
          | some manager =>
              rw [worked] at stepped
              cases stepped
              exact advances_workLocked holds (by simpa using free) worked
  | enrich outcome => exact advances_enrich holds stepped
  | escape => exact advances_escape holds stepped

/-- What the records and the worker promise in every state. -/
structure Bookkeeping (settings : JobSettings) (system : JobSystem) : Prop where
  conserved : ∀ entry ∈ system.manager.jobs, entry.2.Conserved settings
  history : (JobManager.terminalJobs system.manager.jobs).length ≤ settings.history
  /-- a job is queued or running, and retained, until its run has ended -/
  retained : ∀ jobId ∈ system.accepted, jobId ∉ system.ended →
    ∃ job, system.manager.jobs.lookup jobId = some job ∧ job.status.terminal = false
  atMostOnce : ∀ jobId, system.began.count jobId ≤ 1
  once : system.manager.worker = .exited → ∀ jobId ∈ system.accepted,
    system.began.count jobId = 1 ∧ system.ended.count jobId = 1

theorem JobInvariant.retained (holds : JobInvariant settings system) {jobId : Text}
    (accepted : jobId ∈ system.accepted) (runs : jobId ∉ system.ended) :
    ∃ job, system.manager.jobs.lookup jobId = some job ∧ job.status.terminal = false := by
  have isIssued : jobId ∈ system.issued := List.mem_append_left _ accepted
  rw [← holds.order, holds.running] at isIssued
  rcases List.mem_append.mp isIssued with inBegan | inWaiting
  · have isCurrent := (List.mem_append.mp inBegan).resolve_left runs
    obtain ⟨job, found, isRunning, _enough⟩ := holds.working jobId isCurrent
    exact ⟨job, found, by rw [isRunning]; rfl⟩
  · obtain ⟨item, member, same⟩ := List.mem_map.mp inWaiting
    rcases holds.registered item member with ⟨job, found, isQueued, _rest⟩ | pending
    · rw [same] at found
      exact ⟨job, found, by rw [isQueued]; rfl⟩
    · obtain ⟨request, isLocked, sameId, _paths⟩ := pending
      have fresh := holds.fresh
      unfold issued at fresh
      rw [isLocked] at fresh
      exact absurd (sameId.trans same).symm
        ((List.nodup_append.mp fresh).2.2 jobId accepted _ (List.mem_singleton_self _))

theorem JobInvariant.bookkeeping (holds : JobInvariant settings system) :
    system.Bookkeeping settings := by
  have fresh := holds.fresh
  rw [← holds.order, List.nodup_append] at fresh
  constructor
  · intro entry member
    exact holds.records.conserved entry.1 entry.2
      (OrderedDict.lookup_of_mem holds.records.distinct member)
  · exact holds.records.bounded
  · exact fun jobId accepted runs => holds.retained accepted runs
  · exact fun jobId => List.nodup_iff_count_le_one.mp fresh.1 jobId
  · intro exited jobId accepted
    have closed := holds.stopped (holds.closing (Or.inr exited))
    have began : system.began = system.issued := by
      have order := holds.order
      unfold waiting at order
      rw [exited, holds.drained exited] at order
      rw [← order]
      exact (List.append_nil _).symm
    have ended : system.began = system.ended := by
      have running := holds.running
      rw [exited] at running
      rw [running]
      exact List.append_nil _
    have member : jobId ∈ system.began := by
      rw [began]
      exact List.mem_append_left _ accepted
    rw [← ended]
    exact ⟨List.count_eq_one_of_mem fresh.1 member, List.count_eq_one_of_mem fresh.1 member⟩

/-- In every reachable state the books are right, and every step from there moves each job
forward and takes none that goes on. -/
theorem jobs_bookkeeping {settings : JobSettings} {actions : List JobAction} {system : JobSystem}
    (ran : Transitions.run (step settings) {} actions = some system) :
    system.Bookkeeping settings ∧
      ∀ action after, system.step settings action = some after →
        Moves after.ended system.manager.jobs after.manager.jobs := by
  have holds : JobInvariant settings system := by
    exact Transitions.run_keeps
      (fun before _met stepped => (advances_step before stepped).kept)
      (start_invariant settings) Transitions.each_trivial ran
  exact ⟨holds.bookkeeping, fun action after stepped => (advances_step holds stepped).moves⟩

/-- A job with one note, from the enqueue to the end of the worker. -/
def oneJob : List JobAction :=
  [.enqueue "j".toList "manual".toList ["a.md".toList] 1 true, .register,
    .work 2, .work 2, .work 2, .work 3, .enrich (some (crudSuccess "a.md".toList [])),
    .work 4, .work 5, .stopAccepting, .setStop, .work 6, .work 6]

theorem jobs_bookkeeping_oneJob :
    ∃ system, Transitions.run (step { lower := id }) {} oneJob = some system ∧
      system.manager.worker = .exited ∧ system.began.count "j".toList = 1 := by
  refine ⟨_, rfl, rfl, ?_⟩
  have books := (@jobs_bookkeeping { lower := id } oneJob _ rfl).1
  exact (books.once rfl "j".toList List.mem_cons_self).1

end JobSystem

end VaultSearch
