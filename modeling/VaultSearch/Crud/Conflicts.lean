/-
A writer that ignores the locks: what a write operation does when something else changes
the note between the moment its revision is captured and the last check against it.

Between two questions a program stands in a stage: nothing is captured, a revision is being
watched, a name in the trash is being chosen, or the file is about to be written.  In the
last stage only `safe_write_text` still looks at the revision, and the result it returns
then has no error code.
-/

import VaultSearch.Crud.Programs

set_option autoImplicit false

namespace VaultSearch

open Symlinks

def isWriteConflict : CrudOutcome → Bool
  | .ok result => !result.success && result.errorCode = some "write_conflict".toList
  | .error _ => false

/-- What a question is to somebody who waits for the revision of a file. -/
def observes (filePath : Location Text) : FileRequest → Option Observer
  | .fileRevision path observer =>
      if path = filePath ∧ observer ≠ .presence then some observer else none
  | _ => none

/-- The next use of the revision of the file. -/
def nextObserver (filePath : Location Text) (questions : List FileRequest) : Option Observer :=
  questions.findSome? (observes filePath)

/-- The note is read before its revision is looked at. -/
def ReadsFirst (filePath : Location Text) (questions : List FileRequest) : Prop :=
  .readText filePath ∈ questions.takeWhile (fun question => (observes filePath question).isNone)

def Readable (found : Option NoteFile) : Prop :=
  ∃ content, readFile found = .ok content

def revisionOf (found : Option NoteFile) : Option FileRevision :=
  found.map NoteFile.revision

/-- The program ends here, with a write conflict. -/
def Conflicts (program : CrudProgram) : Prop :=
  ∃ outcome, program = .done outcome ∧ isWriteConflict outcome = true

/-- The program ends here, without a write conflict. -/
def Settles (program : CrudProgram) : Prop :=
  ∃ outcome, program = .done outcome ∧ isWriteConflict outcome = false

def Unobserved (question : FileRequest) : Prop :=
  ∀ path observer, question = .fileRevision path observer → observer = .presence

/-! ### The stages of a program -/

inductive Stage where
  | idle
  | watching (captured : Option FileRevision)
  | choosing (captured : Option FileRevision)
  | writing (captured : Option FileRevision)

/-- The program, from this stage on, asks for the revision of the file and of no other. -/
inductive Follows (filePath : Location Text) : Stage → CrudProgram → Prop where
  | finished (outcome : CrudOutcome) : Follows filePath .idle (.done outcome)
  | settled {stage : Stage} {outcome : CrudOutcome} (uncoded : isWriteConflict outcome = false) :
      Follows filePath stage (.done outcome)
  | capture {next : Option FileRevision → CrudProgram}
      (rest : ∀ found, Follows filePath (.watching found) (next found)) :
      Follows filePath .idle (.ask (.fileRevision filePath .capture) next)
  | quiet {question : FileRequest} {next : question.Response → CrudProgram}
      (unobserved : Unobserved question) (rest : ∀ answer, Follows filePath .idle (next answer)) :
      Follows filePath .idle (.ask question next)
  | elsewhere {stage : Stage} {question : FileRequest} {next : question.Response → CrudProgram}
      (apart : filePath ∉ question.places) (unobserved : Unobserved question)
      (rest : ∀ answer, Follows filePath stage (next answer)) :
      Follows filePath stage (.ask question next)
  | released {captured : Option FileRevision} {program : CrudProgram}
      (idle : Follows filePath .idle program) : Follows filePath (.watching captured) program
  | chooses {captured : Option FileRevision} {program : CrudProgram}
      (choosing : Follows filePath (.choosing captured) program) :
      Follows filePath (.watching captured) program
  | writes {captured : Option FileRevision} {program : CrudProgram}
      (writing : Follows filePath (.writing captured) program) :
      Follows filePath (.watching captured) program
  | read {captured : Option FileRevision} {next : Except PyError Text → CrudProgram}
      (after : Text → Option FileRevision → CrudProgram)
      (failed : ∀ error, Settles (next (.error error)))
      (checks : ∀ content,
        next (.ok content) = .ask (.fileRevision filePath .operation) (after content))
      (noticed : ∀ content found, found ≠ captured → Conflicts (after content found))
      (rest : ∀ content, Follows filePath (.watching captured) (after content captured)) :
      Follows filePath (.watching captured) (.ask (.readText filePath) next)
  | occupied {captured : Option FileRevision} {next : Option FileRevision → CrudProgram}
      (present : captured.isSome = true) (ends : ∀ revision, Settles (next (some revision)))
      (rest : Follows filePath (.watching captured) (next none)) :
      Follows filePath (.watching captured) (.ask (.fileRevision filePath .presence) next)
  | check {captured : Option FileRevision} {next : Option FileRevision → CrudProgram}
      (noticed : ∀ found, found ≠ captured → Conflicts (next found))
      (rest : Follows filePath (.watching captured) (next captured)) :
      Follows filePath (.choosing captured) (.ask (.fileRevision filePath .operation) next)
  | candidate {captured : Option FileRevision} {path : Location Text} {next : Bool → CrudProgram}
      (present : captured.isSome = true)
      (again : Follows filePath (.choosing captured) (next true))
      (after : Option FileRevision → CrudProgram)
      (checks : next false = .ask (.fileRevision filePath .operation) after)
      (noticed : ∀ found, found ≠ captured → Conflicts (after found))
      (rest : Follows filePath (.watching captured) (after captured)) :
      Follows filePath (.choosing captured) (.ask (.pathExists path) next)
  | probeExists {captured : Option FileRevision} {next : Bool → CrudProgram}
      (rest : ∀ answer, Follows filePath (.writing captured) (next answer)) :
      Follows filePath (.writing captured) (.ask (.pathExists filePath) next)
  | probeMode {captured : Option FileRevision} {next : Bool → CrudProgram}
      (rest : ∀ answer, Follows filePath (.writing captured) (next answer)) :
      Follows filePath (.writing captured) (.ask (.statMode filePath) next)
  | lastCheck {captured : Option FileRevision} {next : Option FileRevision → CrudProgram}
      (noticed : ∀ found, found ≠ captured → Settles (next found))
      (rest : Follows filePath .idle (next captured)) :
      Follows filePath (.writing captured) (.ask (.fileRevision filePath .safeWrite) next)

namespace Follows

variable {filePath : Location Text} {host : Host}

/-- The captured revision is the one the file has. -/
def Fits (filePath : Location Text) (files : Files) : Stage → Prop
  | .idle => True
  | .watching captured => revisionOf (files filePath) = captured
  | .choosing captured => revisionOf (files filePath) = captured
  | .writing captured => revisionOf (files filePath) = captured

theorem observes_unobserved {question : FileRequest} (unobserved : Unobserved question) :
    observes filePath question = none := by
  cases question with
  | fileRevision path observer =>
      rw [unobserved path observer rfl]
      exact if_neg (fun both => both.2 rfl)
  | readText path => rfl
  | pathExists path => rfl
  | makeFolders folder => rfl
  | statMode path => rfl
  | writeTemporary path => rfl
  | replace path content stamp => rfl
  | move source destination => rfl

theorem observes_self {observer : Observer} (used : observer ≠ .presence) :
    observes filePath (.fileRevision filePath observer) = some observer :=
  if_pos ⟨rfl, used⟩

theorem nextObserver_unobserved {question : FileRequest} {rest : List FileRequest}
    (unobserved : observes filePath question = none) :
    nextObserver filePath (question :: rest) = nextObserver filePath rest := by
  unfold nextObserver
  rw [List.findSome?_cons, unobserved]

theorem nextObserver_self {observer : Observer} {rest : List FileRequest}
    (used : observer ≠ .presence) :
    nextObserver filePath (.fileRevision filePath observer :: rest) = some observer := by
  unfold nextObserver
  rw [List.findSome?_cons, observes_self used]

theorem readsFirst_self {observer : Observer} {rest : List FileRequest}
    (used : observer ≠ .presence) :
    ¬ ReadsFirst filePath (.fileRevision filePath observer :: rest) := by
  unfold ReadsFirst
  rw [List.takeWhile_cons, observes_self used]
  exact List.not_mem_nil

theorem readsFirst_unobserved {question : FileRequest} {rest : List FileRequest}
    (unobserved : observes filePath question = none) :
    ReadsFirst filePath (question :: rest) ↔
      .readText filePath = question ∨ ReadsFirst filePath rest := by
  unfold ReadsFirst
  rw [List.takeWhile_cons, unobserved]
  exact List.mem_cons

/-! ### Where a program stands -/

/-- In the stage after a question the captured revision is again the one the file has. -/
theorem step {stage : Stage} {program : CrudProgram} (follows : Follows filePath stage program) :
    ∀ {question : FileRequest} {next : question.Response → CrudProgram} {files : Files},
      program = .ask question next → Fits filePath files stage →
        ∃ later, Follows filePath later (next (performRequest host question files).1) ∧
          Fits filePath (performRequest host question files).2 later := by
  induction follows with
  | finished outcome =>
      intro question next files isAsk _fits
      cases isAsk
  | settled uncoded =>
      intro question next files isAsk _fits
      cases isAsk
  | capture rest _ih =>
      intro question next files isAsk _fits
      cases isAsk
      exact ⟨_, rest _, rfl⟩
  | quiet _unobserved rest _ih =>
      intro question next files isAsk _fits
      cases isAsk
      exact ⟨_, rest _, trivial⟩
  | @elsewhere stage question next apart _unobserved rest _ih =>
      intro question next files isAsk fits
      cases isAsk
      refine ⟨stage, rest _, ?_⟩
      have untouched := performRequest_untouched host question files filePath apart
      cases stage with
      | idle => trivial
      | watching captured => exact (congrArg revisionOf untouched).trans fits
      | choosing captured => exact (congrArg revisionOf untouched).trans fits
      | writing captured => exact (congrArg revisionOf untouched).trans fits
  | released _idle ih =>
      intro question next files isAsk _fits
      exact ih isAsk trivial
  | chooses _choosing ih =>
      intro question next files isAsk fits
      exact ih isAsk fits
  | writes _writing ih =>
      intro question next files isAsk fits
      exact ih isAsk fits
  | @read captured next after failed checks noticed rest _ih =>
      intro question next' files isAsk fits
      cases isAsk
      show ∃ later, Follows filePath later (next (readFile (files filePath))) ∧
        Fits filePath files later
      cases readFile (files filePath) with
      | error error =>
          obtain ⟨outcome, isDone, uncoded⟩ := failed error
          rw [isDone]
          exact ⟨.idle, .finished outcome, trivial⟩
      | ok content =>
          rw [checks content]
          exact ⟨.choosing captured, .check (noticed content) (rest content), fits⟩
  | @occupied captured next present ends _rest _ih =>
      intro question next' files isAsk fits
      cases isAsk
      obtain ⟨revision, isRevision⟩ := Option.isSome_iff_exists.mp present
      have same : revisionOf (files filePath) = some revision := by rw [← isRevision]; exact fits
      obtain ⟨outcome, isDone, _uncoded⟩ := ends revision
      refine ⟨.idle, ?_, trivial⟩
      show Follows filePath _ (next (revisionOf (files filePath)))
      rw [same, isDone]
      exact .finished outcome
  | @check captured next _noticed rest _ih =>
      intro question next' files isAsk fits
      cases isAsk
      refine ⟨.watching captured, ?_, fits⟩
      show Follows filePath _ (next (revisionOf (files filePath)))
      have same : revisionOf (files filePath) = captured := fits
      rw [same]
      exact rest
  | @candidate captured path next present again after checks noticed rest _againIh _restIh =>
      intro question next' files isAsk fits
      cases isAsk
      refine ⟨.choosing captured, ?_, fits⟩
      show Follows filePath _ (next (files path).isSome)
      cases (files path).isSome with
      | true => exact again
      | false =>
          rw [checks]
          exact .check noticed rest
  | probeExists rest _ih =>
      intro question next files isAsk fits
      cases isAsk
      exact ⟨_, rest _, fits⟩
  | probeMode rest _ih =>
      intro question next files isAsk fits
      cases isAsk
      exact ⟨_, rest _, fits⟩
  | @lastCheck captured next _noticed rest _ih =>
      intro question next' files isAsk fits
      cases isAsk
      refine ⟨.idle, ?_, trivial⟩
      show Follows filePath _ (next (revisionOf (files filePath)))
      have same : revisionOf (files filePath) = captured := fits
      rw [same]
      exact rest

theorem advance (count : Nat) :
    ∀ {stage : Stage} {program : CrudProgram} {files : Files}, Follows filePath stage program →
      Fits filePath files stage →
        ∃ later, Follows filePath later
            (Dialogue.advance (fileStorage host) count program files).1 ∧
          Fits filePath (Dialogue.advance (fileStorage host) count program files).2 later := by
  induction count with
  | zero => exact fun follows fits => ⟨_, follows, fits⟩
  | succ count ih =>
      intro stage program files follows fits
      cases program with
      | done outcome => exact ⟨stage, follows, fits⟩
      | ask question next =>
          obtain ⟨later, followsLater, fitsLater⟩ := @step _ host _ _ follows _ _ _ rfl fits
          exact ih followsLater fitsLater

/-- Before a revision is captured none is checked. -/
theorem idle_observer {stage : Stage} {program : CrudProgram}
    (follows : Follows filePath stage program) :
    stage = .idle → ∀ {files : Files} {observer : Observer},
      nextObserver filePath (program.questions (fileStorage host) files) = some observer →
        observer = .capture := by
  induction follows with
  | finished outcome =>
      intro _isIdle files observer found
      cases found
  | settled uncoded =>
      intro _isIdle files observer found
      cases found
  | capture rest _ih =>
      intro _isIdle files observer found
      unfold Dialogue.questions at found
      rw [nextObserver_self (fun same => by cases same)] at found
      exact (Option.some.inj found).symm
  | quiet unobserved rest ih =>
      intro _isIdle files observer found
      unfold Dialogue.questions at found
      rw [nextObserver_unobserved (observes_unobserved unobserved)] at found
      exact ih _ rfl found
  | elsewhere apart unobserved rest ih =>
      intro isIdle files observer found
      unfold Dialogue.questions at found
      rw [nextObserver_unobserved (observes_unobserved unobserved)] at found
      exact ih _ isIdle found
  | _ => exact fun isIdle => by cases isIdle

theorem unobserved_capture {question : FileRequest} (unobserved : Unobserved question)
    {path : Location Text} : .fileRevision path .capture ≠ question := by
  intro same
  have impossible := unobserved path .capture same.symm
  cases impossible

/-- A program that has ended asks nothing more. -/
theorem ended_questions {program : CrudProgram} {files : Files} {coded : Bool}
    (ended : ∃ outcome, program = .done outcome ∧ isWriteConflict outcome = coded) :
    program.questions (fileStorage host) files = [] := by
  obtain ⟨outcome, isDone, _coded⟩ := ended
  rw [isDone]
  rfl

/-- After a check the program goes on as it does with the captured revision, or ends. -/
theorem checked_questions {captured found : Option FileRevision} {coded : Bool}
    {next : Option FileRevision → CrudProgram} {files : Files} {question : FileRequest}
    (noticed : ∀ found, found ≠ captured →
      ∃ outcome, next found = .done outcome ∧ isWriteConflict outcome = coded)
    (member : question ∈ (next found).questions (fileStorage host) files) :
    question ∈ (next captured).questions (fileStorage host) files := by
  by_cases same : found = captured
  · rw [← same]
    exact member
  · rw [ended_questions (noticed found same)] at member
    cases member

/-- Only the revision of the one file is captured. -/
theorem captured_self {stage : Stage} {program : CrudProgram}
    (follows : Follows filePath stage program) :
    ∀ {files : Files} {path : Location Text},
      .fileRevision path .capture ∈ program.questions (fileStorage host) files →
        path = filePath := by
  induction follows with
  | finished outcome =>
      intro files path member
      cases member
  | settled uncoded =>
      intro files path member
      cases member
  | capture rest ih =>
      intro files path member
      rcases List.mem_cons.mp member with here | later
      · cases here
        rfl
      · exact ih _ later
  | quiet unobserved rest ih =>
      intro files path member
      rcases List.mem_cons.mp member with here | later
      · exact absurd here (unobserved_capture unobserved)
      · exact ih _ later
  | elsewhere apart unobserved rest ih =>
      intro files path member
      rcases List.mem_cons.mp member with here | later
      · exact absurd here (unobserved_capture unobserved)
      · exact ih _ later
  | released idle ih => exact ih
  | chooses choosing ih => exact ih
  | writes writing ih => exact ih
  | @read captured next after failed checks noticed rest ih =>
      intro files path member
      rcases List.mem_cons.mp member with here | later
      · cases here
      · change _ ∈ (next (readFile (files filePath))).questions (fileStorage host) files at later
        cases readBefore : readFile (files filePath) with
        | error error =>
            rw [readBefore, ended_questions (failed error)] at later
            cases later
        | ok content =>
            rw [readBefore, checks] at later
            rcases List.mem_cons.mp later with check | behind
            · cases check
            · exact ih content (checked_questions (noticed content) behind)
  | @occupied captured next _present ends _rest ih =>
      intro files path member
      rcases List.mem_cons.mp member with here | later
      · cases here
      · change _ ∈ (next (revisionOf (files filePath))).questions (fileStorage host) files at later
        cases found : revisionOf (files filePath) with
        | none =>
            rw [found] at later
            exact ih later
        | some revision =>
            rw [found, ended_questions (ends revision)] at later
            cases later
  | check noticed rest ih =>
      intro files path member
      rcases List.mem_cons.mp member with here | later
      · cases here
      · exact ih (checked_questions noticed later)
  | @candidate captured place next present again after checks noticed rest againIh restIh =>
      intro files path member
      rcases List.mem_cons.mp member with here | later
      · cases here
      · change _ ∈ (next (files place).isSome).questions (fileStorage host) files at later
        cases found : (files place).isSome with
        | true =>
            rw [found] at later
            exact againIh later
        | false =>
            rw [found, checks] at later
            rcases List.mem_cons.mp later with check | behind
            · cases check
            · exact restIh (checked_questions noticed behind)
  | probeExists rest ih =>
      intro files path member
      rcases List.mem_cons.mp member with here | later
      · cases here
      · exact ih _ later
  | probeMode rest ih =>
      intro files path member
      rcases List.mem_cons.mp member with here | later
      · cases here
      · exact ih _ later
  | lastCheck noticed rest ih =>
      intro files path member
      rcases List.mem_cons.mp member with here | later
      · cases here
      · exact ih (checked_questions noticed later)

/-! ### The file is changed -/

/-- In the last stage the change is noticed by `safe_write_text`, if at all. -/
theorem writing_observer {stage : Stage} {program : CrudProgram}
    (follows : Follows filePath stage program) :
    ∀ {captured : Option FileRevision} {files : Files}, stage = .writing captured →
      nextObserver filePath (program.questions (fileStorage host) files) ≠ some .operation := by
  induction follows with
  | settled uncoded =>
      intro captured files _isWriting found
      cases found
  | elsewhere apart unobserved rest ih =>
      intro captured files isWriting
      unfold Dialogue.questions
      rw [nextObserver_unobserved (observes_unobserved unobserved)]
      exact ih _ isWriting
  | probeExists rest ih =>
      intro captured files isWriting
      unfold Dialogue.questions
      rw [nextObserver_unobserved rfl]
      exact ih _ isWriting
  | probeMode rest ih =>
      intro captured files isWriting
      unfold Dialogue.questions
      rw [nextObserver_unobserved rfl]
      exact ih _ isWriting
  | lastCheck noticed rest ih =>
      intro captured files _isWriting
      unfold Dialogue.questions
      rw [nextObserver_self (fun same => by cases same)]
      exact fun same => by cases same
  | _ => exact fun isWriting => by cases isWriting

/-- What a program leaves of a file whose revision is no longer the captured one. -/
theorem writing_changed {stage : Stage} {program : CrudProgram}
    (follows : Follows filePath stage program) :
    ∀ {captured : Option FileRevision} {files : Files}, stage = .writing captured →
      revisionOf (files filePath) ≠ captured →
        (program.run (fileStorage host) files).2 filePath = files filePath ∧
          isWriteConflict (program.run (fileStorage host) files).1 = false := by
  induction follows with
  | settled uncoded => exact fun _isWriting _altered => ⟨rfl, uncoded⟩
  | @elsewhere stage question next apart unobserved rest ih =>
      intro captured files isWriting altered
      have untouched := performRequest_untouched host question files filePath apart
      rw [← untouched] at altered
      obtain ⟨left, uncoded⟩ := ih (performRequest host question files).1 isWriting altered
      exact ⟨left.trans untouched, uncoded⟩
  | probeExists rest ih => exact fun isWriting altered => ih _ isWriting altered
  | probeMode rest ih => exact fun isWriting altered => ih _ isWriting altered
  | @lastCheck captured next noticed rest ih =>
      intro captured' files isWriting altered
      cases isWriting
      obtain ⟨outcome, isDone, uncoded⟩ := noticed _ altered
      show ((next (revisionOf (files filePath))).run (fileStorage host) files).2 filePath =
          files filePath ∧
        isWriteConflict ((next (revisionOf (files filePath))).run (fileStorage host) files).1 =
          false
      rw [isDone]
      exact ⟨rfl, uncoded⟩
  | _ => exact fun isWriting => by cases isWriting

/-- Two states of the files that differ at most in one of them. -/
def Apart (filePath : Location Text) (files files' : Files) : Prop :=
  ∀ other, other ≠ filePath → files other = files' other

/-- A question about other files gets the same answer. -/
theorem perform_apart {question : FileRequest} {files files' : Files}
    (apart : filePath ∉ question.places) (same : Apart filePath files files') :
    (performRequest host question files).1 = (performRequest host question files').1 ∧
      Apart filePath (performRequest host question files).2
        (performRequest host question files').2 := by
  have agree : ∀ here ∈ question.places, files here = files' here := by
    intro here member
    exact same here (fun equal => apart (by rw [← equal]; exact member))
  obtain ⟨sameAnswer, sameThere⟩ := performRequest_depends host question files files' agree
  refine ⟨sameAnswer, ?_⟩
  intro other different
  by_cases touched : other ∈ question.places
  · exact sameThere other touched
  · rw [performRequest_untouched host question files other touched,
      performRequest_untouched host question files' other touched]
    exact same other different

/-- The run goes on in the branch of an answer that another state gives as well. -/
theorem run_ask {question : FileRequest} {next : question.Response → CrudProgram}
    {files files' : Files}
    (sameAnswer : (performRequest host question files).1 =
      (performRequest host question files').1) :
    Dialogue.run (fileStorage host) (.ask question next) files' =
      (next (performRequest host question files).1).run (fileStorage host)
        (performRequest host question files').2 := by
  rw [sameAnswer]
  rfl

/-- The file is left as it is, and the result is a write conflict. -/
def Respects (filePath : Location Text) (found : Option NoteFile) (final : CrudOutcome × Files) :
    Prop :=
  final.2 filePath = found ∧ isWriteConflict final.1 = true

theorem check_changed {captured : Option FileRevision} {files : Files}
    {after : Option FileRevision → CrudProgram}
    (noticed : ∀ found, found ≠ captured → Conflicts (after found))
    (altered : revisionOf (files filePath) ≠ captured) :
    Respects filePath (files filePath)
      (Dialogue.run (fileStorage host) (.ask (.fileRevision filePath .operation) after) files) := by
  obtain ⟨outcome, isDone, coded⟩ := noticed _ altered
  show Respects filePath (files filePath)
    ((after (revisionOf (files filePath))).run (fileStorage host) files)
  rw [isDone]
  exact ⟨rfl, coded⟩

/-- While a name in the trash is chosen, the next check is one of the operation. -/
theorem choosing_changed {stage : Stage} {program : CrudProgram}
    (follows : Follows filePath stage program) :
    ∀ {captured : Option FileRevision} {files files' : Files} {observer : Observer},
      stage = .choosing captured → revisionOf (files filePath) = captured →
      revisionOf (files' filePath) ≠ captured → Apart filePath files files' →
      nextObserver filePath (program.questions (fileStorage host) files) = some observer →
        observer = .operation ∧
          ¬ ReadsFirst filePath (program.questions (fileStorage host) files) ∧
          Respects filePath (files' filePath) (program.run (fileStorage host) files') := by
  induction follows with
  | settled uncoded =>
      intro captured files files' observer _isChoosing _fits _altered _same found
      cases found
  | @elsewhere stage question next apart unobserved rest ih =>
      intro captured files files' observer isChoosing fits altered same found
      unfold Dialogue.questions at found ⊢
      rw [nextObserver_unobserved (observes_unobserved unobserved)] at found
      rw [readsFirst_unobserved (observes_unobserved unobserved)]
      have untouched := performRequest_untouched host question files filePath apart
      have untouched' := performRequest_untouched host question files' filePath apart
      obtain ⟨sameAnswer, sameLater⟩ := @perform_apart filePath host question files files' apart same
      rw [← untouched] at fits
      rw [← untouched'] at altered
      obtain ⟨isOperation, unread, respects⟩ :=
        ih (performRequest host question files).1 isChoosing fits altered sameLater found
      refine ⟨isOperation, ?_, ?_⟩
      · intro reads
        rcases reads with here | later
        · exact apart (by rw [← here]; exact List.mem_cons_self)
        · exact unread later
      · rw [untouched'] at respects
        rw [run_ask sameAnswer]
        exact respects
  | check noticed rest _ih =>
      intro captured' files files' observer isChoosing _fits altered _same found
      cases isChoosing
      have used : Observer.operation ≠ .presence := fun same => by cases same
      unfold Dialogue.questions at found ⊢
      rw [nextObserver_self used] at found
      exact ⟨(Option.some.inj found).symm, readsFirst_self used, check_changed noticed altered⟩
  | @candidate captured path next present again after checks noticed rest againIh _restIh =>
      intro captured' files files' observer isChoosing fits altered same found
      cases isChoosing
      have used : Observer.operation ≠ .presence := fun same => by cases same
      unfold Dialogue.questions at found ⊢
      rw [nextObserver_unobserved rfl] at found
      rw [readsFirst_unobserved rfl]
      have free : ∀ answer, answer = false → Respects filePath (files' filePath)
          ((next answer).run (fileStorage host) files') := by
        intro answer isFalse
        rw [isFalse, checks]
        exact check_changed noticed altered
      have answered : (files path).isSome = false → (files' path).isSome = false := by
        intro missing
        by_cases here : path = filePath
        · rw [← fits, revisionOf, Option.isSome_map, ← here, missing] at present
          cases present
        · rw [← same path here]
          exact missing
      change nextObserver filePath
        ((next (files path).isSome).questions (fileStorage host) files) = some observer at found
      show observer = .operation ∧
        ¬ (.readText filePath = FileRequest.pathExists path ∨
          ReadsFirst filePath ((next (files path).isSome).questions (fileStorage host) files)) ∧
        Respects filePath (files' filePath)
          ((next (files' path).isSome).run (fileStorage host) files')
      cases found₁ : (files path).isSome with
      | true =>
          rw [found₁] at found
          obtain ⟨isOperation, unread, respects⟩ := againIh rfl fits altered same found
          refine ⟨isOperation, ?_, ?_⟩
          · intro reads
            rcases reads with here | later
            · cases here
            · exact unread later
          · cases found₂ : (files' path).isSome with
            | true => exact respects
            | false => exact free _ rfl
      | false =>
          rw [found₁, checks] at found
          unfold Dialogue.questions at found
          rw [nextObserver_self used] at found
          refine ⟨(Option.some.inj found).symm, ?_, ?_⟩
          · intro reads
            rcases reads with here | later
            · cases here
            · rw [checks] at later
              exact readsFirst_self used later
          · rw [answered found₁]
            exact free _ rfl
  | _ => exact fun isChoosing => by cases isChoosing

/-- What is needed for a change to be reported: the next check is one of the operation, and
the note can still be read where it is read before. -/
def Noticeable (filePath : Location Text) (questions : List FileRequest)
    (changed : Option NoteFile) : Prop :=
  nextObserver filePath questions = some .operation ∧
    (ReadsFirst filePath questions → Readable changed)

/-- A change while the revision is watched, and before it is checked for the last time. -/
theorem watching_changed {stage : Stage} {program : CrudProgram}
    (follows : Follows filePath stage program) :
    ∀ {captured : Option FileRevision} {files files' : Files} {observer : Observer},
      stage = .watching captured → revisionOf (files filePath) = captured →
      revisionOf (files' filePath) ≠ captured → Apart filePath files files' →
      nextObserver filePath (program.questions (fileStorage host) files) = some observer →
      observer ≠ .capture →
        (program.run (fileStorage host) files').2 filePath = files' filePath ∧
          (Respects filePath (files' filePath) (program.run (fileStorage host) files') ↔
            Noticeable filePath (program.questions (fileStorage host) files) (files' filePath)) := by
  induction follows with
  | settled uncoded =>
      intro captured files files' observer _isWatching _fits _altered _same found _isCheck
      cases found
  | @elsewhere stage question next apart unobserved rest ih =>
      intro captured files files' observer isWatching fits altered same found isCheck
      unfold Noticeable
      unfold Dialogue.questions at found ⊢
      rw [nextObserver_unobserved (observes_unobserved unobserved)] at found
      rw [nextObserver_unobserved (observes_unobserved unobserved),
        readsFirst_unobserved (observes_unobserved unobserved)]
      have untouched := performRequest_untouched host question files filePath apart
      have untouched' := performRequest_untouched host question files' filePath apart
      obtain ⟨sameAnswer, sameLater⟩ := @perform_apart filePath host question files files' apart same
      rw [← untouched] at fits
      rw [← untouched'] at altered
      have later := ih (performRequest host question files).1 isWatching fits altered sameLater
        found isCheck
      have unread : .readText filePath ≠ question := by
        intro here
        apply apart
        rw [← here]
        exact List.mem_cons_self
      rw [untouched'] at later
      rw [or_iff_right unread, run_ask sameAnswer]
      exact later
  | released idle _ih =>
      intro captured files files' observer _isWatching _fits _altered _same found isCheck
      exact absurd (idle_observer idle rfl found) isCheck
  | chooses choosing _ih =>
      intro captured' files files' observer isWatching fits altered same found _isCheck
      cases isWatching
      obtain ⟨isOperation, unread, respects⟩ :=
        choosing_changed choosing rfl fits altered same found
      rw [isOperation] at found
      exact ⟨respects.1, fun _respects => ⟨found, fun reads => absurd reads unread⟩,
        fun _noticeable => respects⟩
  | writes writing _ih =>
      intro captured' files files' observer isWatching _fits altered _same found _isCheck
      cases isWatching
      obtain ⟨left, uncoded⟩ := @writing_changed _ host _ _ writing _ _ rfl altered
      refine ⟨left, ?_, ?_⟩
      · intro respects
        have coded := respects.2
        rw [uncoded] at coded
        cases coded
      · intro noticeable
        exact absurd noticeable.1 (writing_observer writing rfl)
  | @read captured next after failed checks noticed rest _ih =>
      intro captured' files files' observer isWatching _fits altered _same found _isCheck
      cases isWatching
      have used : Observer.operation ≠ .presence := fun same => by cases same
      unfold Noticeable
      unfold Dialogue.questions at found ⊢
      rw [nextObserver_unobserved rfl] at found
      rw [nextObserver_unobserved rfl, readsFirst_unobserved rfl]
      change nextObserver filePath
        ((next (readFile (files filePath))).questions (fileStorage host) files) =
          some observer at found
      show ((next (readFile (files' filePath))).run (fileStorage host) files').2 filePath =
          files' filePath ∧
        (Respects filePath (files' filePath)
            ((next (readFile (files' filePath))).run (fileStorage host) files') ↔
          nextObserver filePath
              ((next (readFile (files filePath))).questions (fileStorage host) files) =
                some .operation ∧
            (_ ∨ _ → Readable (files' filePath)))
      cases readBefore : readFile (files filePath) with
      | error error =>
          rw [readBefore] at found
          obtain ⟨outcome, isDone, _uncoded⟩ := failed error
          rw [isDone] at found
          cases found
      | ok content =>
          have isNext : nextObserver filePath
              ((next (.ok content)).questions (fileStorage host) files) = some .operation := by
            rw [checks]
            unfold Dialogue.questions
            exact nextObserver_self used
          cases readAfter : readFile (files' filePath) with
          | error error =>
              obtain ⟨outcome, isDone, uncoded⟩ := failed error
              rw [isDone]
              refine ⟨rfl, ?_, ?_⟩
              · intro respects
                have coded : isWriteConflict outcome = true := respects.2
                rw [uncoded] at coded
                cases coded
              · intro noticeable
                obtain ⟨content', readable⟩ := noticeable.2 (Or.inl rfl)
                rw [readAfter] at readable
                cases readable
          | ok content' =>
              have respects := @check_changed filePath host captured files' (after content')
                (noticed content') altered
              rw [checks content']
              exact ⟨respects.1, fun _respects => ⟨isNext, fun _reads => ⟨content', readAfter⟩⟩,
                fun _noticeable => respects⟩
  | @occupied captured next present ends _rest _ih =>
      intro captured' files files' observer isWatching fits _altered _same found _isCheck
      cases isWatching
      obtain ⟨revision, isRevision⟩ := Option.isSome_iff_exists.mp present
      obtain ⟨outcome, isDone, _uncoded⟩ := ends revision
      have unused : observes filePath (.fileRevision filePath .presence) = none :=
        if_neg (fun both => both.2 rfl)
      unfold Dialogue.questions at found
      rw [nextObserver_unobserved unused] at found
      change nextObserver filePath
        ((next (revisionOf (files filePath))).questions (fileStorage host) files) =
          some observer at found
      rw [fits, isRevision, isDone] at found
      cases found
  | _ => exact fun isWatching => by cases isWatching

end Follows

end VaultSearch
