/-
The write operations of any number of threads in any number of processes, each under its
advisory locks and in turns question by question.

What the calls answer and what they leave is as if they had run one after the other in the order
in which they got their locks; a call that does not get its locks changes nothing.  The names that
`delete_note` looks at in the trash have no locks, so they have to be apart from the files of the
calls that run at the same time.
-/

import Mathlib.Data.Char
import Mathlib.Data.List.Lex
import VaultSearch.Crud.ExternalEdits
import VaultSearch.Crud.Footprints
import VaultSearch.Crud.LockSafety

set_option autoImplicit false

namespace VaultSearch

open Symlinks

/-! ### The calls of the locks -/

namespace Locking

variable {Path Name Thread Process : Type} [DecidableEq Thread]
  {setting : Setting Path Name Thread Process} {locks later after : Locks Path Name Thread Process}
  {thread : Thread} {made : Move Path} {caller : Caller Path}

/-- What a move changes of the calls: that of its thread, which comes inside by `enter`, leaves by
`finish` and keeps its paths. -/
structure Moved (locks after : Locks Path Name Thread Process) (thread : Thread)
    (made : Move Path) : Prop where
  others : ∀ other, other ≠ thread → after.caller other = locks.caller other
  paths : (∀ paths, made ≠ .call paths) →
    (after.caller thread).paths = (locks.caller thread).paths
  notBefore : made ≠ .finish → (locks.caller thread).control ≠ .inside
  notAfter : made ≠ .enter → (after.caller thread).control ≠ .inside

theorem Moved.put (sameCalls : later.caller = locks.caller)
    (samePaths : (∀ paths, made ≠ .call paths) → caller.paths = (locks.caller thread).paths)
    (notBefore : made ≠ .finish → (locks.caller thread).control ≠ .inside)
    (notAfter : made ≠ .enter → caller.control ≠ .inside) :
    Moved locks (later.put thread caller) thread made := by
  constructor
  · intro other another
    rw [put_caller_other later caller another, sameCalls]
  · rw [put_caller_self]
    exact samePaths
  · exact notBefore
  · rw [put_caller_self]
    exact notAfter

omit [DecidableEq Thread] in
/-- A call that is inside stays as it is, unless it is the one that finishes. -/
theorem Moved.stays (change : Moved locks after thread made) {other : Thread}
    (inside : (locks.caller other).control = .inside)
    (notFinished : made = .finish → other ≠ thread) :
    other ≠ thread ∧ after.caller other = locks.caller other := by
  have different : other ≠ thread := by
    intro same
    by_cases finishes : made = .finish
    · exact notFinished finishes same
    · rw [same] at inside
      exact change.notBefore finishes inside
  exact ⟨different, change.others other different⟩

variable [LinearOrder Path] [DecidableEq Name] [DecidableEq Process]

theorem move_moved (moved : move setting locks thread made = some after) :
    Moved locks after thread made := by
  unfold move at moved
  cases made with
  | call paths =>
      dsimp only at moved
      split at moved
      case h_1 idle =>
        rw [← Option.some.inj moved]
        apply Moved.put rfl
        · exact fun never => absurd rfl (never paths)
        · exact fun _other => by rw [idle]; exact nofun
        · exact fun _other => nofun
      case h_2 => cases moved
  | lookup =>
      dsimp only at moved
      split at moved
      case h_1 path todo enters =>
        have outside : (locks.caller thread).control ≠ .inside := by rw [enters]; exact nofun
        split at moved
        case isTrue =>
          rw [← Option.some.inj moved]
          exact Moved.put (threadLock_calls locks _ _).1 (fun _other => rfl)
            (fun _other => outside) (fun _other => nofun)
        case isFalse =>
          rw [← Option.some.inj moved]
          exact Moved.put rfl (fun _other => rfl) (fun _other => outside) (fun _other => nofun)
      case h_2 => cases moved
  | acquire =>
      dsimp only at moved
      split at moved
      case h_1 path lock todo waits =>
        obtain ⟨acquired, taken, same⟩ := Option.map_eq_some_iff.mp moved
        rw [← same, (tryAcquire_some taken).1]
        apply Moved.put
        · rfl
        · exact fun _other => rfl
        · exact fun _other => by rw [waits]; exact nofun
        · intro _other
          dsimp only
          split <;> exact nofun
      case h_2 => cases moved
  | openFile =>
      dsimp only at moved
      split at moved
      case h_1 path todo opens =>
        rw [← Option.some.inj moved]
        apply Moved.put
        · exact (openLockFile_calls locks _).1
        · exact fun _other => rfl
        · exact fun _other => by rw [opens]; exact nofun
        · exact fun _other => nofun
      case h_2 => cases moved
  | poll =>
      dsimp only at moved
      split at moved
      case h_1 path file todo polls =>
        obtain ⟨taken, isTaken, same⟩ := Option.map_eq_some_iff.mp moved
        unfold tryFlock at isTaken
        split at isTaken
        case h_1 =>
          rw [← same, ← Option.some.inj isTaken]
          apply Moved.put
          · rfl
          · exact fun _other => rfl
          · exact fun _other => by rw [polls]; exact nofun
          · exact fun _other => nofun
        case h_2 => cases isTaken
      case h_2 => cases moved
  | enter =>
      dsimp only at moved
      split at moved
      case h_1 enters =>
        rw [← Option.some.inj moved]
        apply Moved.put
        · rfl
        · exact fun _other => rfl
        · exact fun _other => by rw [enters]; exact nofun
        · exact fun never => absurd rfl never
      case h_2 => cases moved
  | fail =>
      dsimp only at moved
      split at moved
      case h_5 => cases moved
      all_goals
        next waits =>
          rw [← Option.some.inj moved]
          apply Moved.put
          · rfl
          · exact fun _other => rfl
          · exact fun _other => by rw [waits]; exact nofun
          · exact fun _other => nofun
  | finish =>
      dsimp only at moved
      split at moved
      case h_1 =>
        rw [← Option.some.inj moved]
        exact Moved.put rfl (fun _other => rfl) (fun never => absurd rfl never)
          (fun _other => nofun)
      case h_2 => cases moved
  | cleanUp =>
      dsimp only at moved
      split at moved
      case h_1 leaves _done =>
        rw [← Option.some.inj moved]
        apply Moved.put
        · rfl
        · exact fun _other => rfl
        · exact fun _other => by rw [leaves]; exact nofun
        · exact fun _other => nofun
      case h_2 cleanup older leaves _pending =>
        have outside : (locks.caller thread).control ≠ .inside := by rw [leaves]; exact nofun
        rw [← Option.some.inj moved]
        exact Moved.put (undo_calls locks cleanup).1 (fun _other => rfl) (fun _other => outside)
          (fun _other => outside)
      case h_3 => cases moved

theorem move_call {paths : List Path}
    (moved : move setting locks thread (.call paths) = some after) :
    (after.caller thread).paths = paths := by
  unfold move at moved
  dsimp only at moved
  split at moved
  case h_1 =>
    rw [← Option.some.inj moved, put_caller_self]
  case h_2 => cases moved

theorem move_enter (moved : move setting locks thread .enter = some after) :
    (after.caller thread).control = .inside := by
  unfold move at moved
  dsimp only at moved
  split at moved
  case h_1 =>
    rw [← Option.some.inj moved, put_caller_self]
  case h_2 => cases moved

/-- Nobody's call changes when a lock is collected or a file removed. -/
theorem step_callers {event : Event Path Name Thread Process}
    (other : ∀ thread made, event ≠ .thread thread made)
    (stepped : step setting locks event = some after) : after.caller = locks.caller := by
  unfold step at stepped
  cases event with
  | thread thread made => exact absurd rfl (other thread made)
  | collect process name =>
      dsimp only at stepped
      split at stepped
      case h_1 => cases stepped
      case h_2 =>
        split at stepped
        case isTrue => cases stepped
        case isFalse => rw [← Option.some.inj stepped]
  | remove name => rw [← Option.some.inj stepped]

end Locking

/-! ### The system -/

/-- The threads with their locks and calls: `began` are the calls that have got their locks, in
this order, `rests` what is left of each, and `place` which of them a thread makes. -/
structure Writers (Name Thread Process : Type) where
  locks : Locking.Locks Text Name Thread Process
  request : Thread → Option WriteRequest
  began : List WriteRequest
  rests : List (Task FileRequest FileRequest.Response CrudOutcome (Location Text)
    (Option NoteFile))
  place : Thread → Nat
  files : Files

inductive WriterEvent (Name Thread Process : Type) where
  | call (thread : Thread) (request : WriteRequest)
  /-- the next question to the file system -/
  | ask (thread : Thread)
  | locking (event : Locking.Event Text Name Thread Process)

namespace Writers

variable {Name Thread Process : Type}

def start (Name Thread Process : Type) (files : Files) : Writers Name Thread Process :=
  { locks := Locking.Locks.initial Text Name Thread Process
    request := fun _ => none
    began := []
    rests := []
    place := fun _ => 0
    files }

variable [DecidableEq Name] [DecidableEq Thread] [DecidableEq Process] (service : CrudService)
  (setting : Locking.Setting Text Name Thread Process)

/-- The call of a thread is at its end. -/
def isDone (writers : Writers Name Thread Process) (thread : Thread) : Bool :=
  (writers.rests[writers.place thread]?).all (fun rest => rest.program.outcome?.isSome)

def setLocks (writers : Writers Name Thread Process)
    (locks : Locking.Locks Text Name Thread Process) : Writers Name Thread Process :=
  { writers with locks }

/-- A thread has got its locks. -/
def admitted (writers : Writers Name Thread Process) (thread : Thread)
    (request : WriteRequest) : Writers Name Thread Process :=
  { writers with
    began := writers.began ++ [request]
    rests := writers.rests ++ [service.task request]
    place := Function.update writers.place thread writers.rests.length }

def step (writers : Writers Name Thread Process) :
    WriterEvent Name Thread Process → Option (Writers Name Thread Process)
  | .call thread request =>
      (Locking.move setting writers.locks thread (.call (service.lockKeys request))).map
        (fun locks =>
          { writers.setLocks locks with
            request := Function.update writers.request thread (some request) })
  | .ask thread =>
      match (writers.locks.caller thread).control, writers.rests[writers.place thread]? with
      | .inside, some rest =>
          (rest.next writers.files).map (fun asked =>
            { writers with
              rests := writers.rests.set (writers.place thread) asked.1
              files := asked.2 })
      | _, _ => none
  | .locking (.thread thread made) =>
      match made, writers.request thread with
      | .call _, _ => none
      | .enter, some request =>
          (Locking.move setting writers.locks thread .enter).map
            ((writers.admitted service thread request).setLocks)
      | .enter, none => none
      | .finish, _ =>
          if writers.isDone thread then
            (Locking.move setting writers.locks thread .finish).map writers.setLocks
          else none
      | made, _ => (Locking.move setting writers.locks thread made).map writers.setLocks
  | .locking event => (Locking.step setting writers.locks event).map writers.setLocks

/-- Neither call looks at files of the other one without a lock. -/
def NamesSpared (request another : WriteRequest) : Prop :=
  (∀ name ∈ service.unlockedNames request, name ∉ service.footprint another) ∧
    ∀ name ∈ service.unlockedNames another, name ∉ service.footprint request

/-- Nobody removes a lock file that is open, and a deletion whose names in the trash another call
touches does not run beside it. -/
def Careful (writers : Writers Name Thread Process) : WriterEvent Name Thread Process → Prop
  | .locking (.thread thread .enter) =>
      ∀ request ∈ writers.request thread, ∀ other ∈ writers.locks.callers,
        (writers.locks.caller other).control = .inside →
          ∀ another ∈ writers.request other, NamesSpared service request another
  | .locking event => Locking.KeepsLockFiles setting writers.locks event
  | _ => True

/-! ### The invariant -/

/-- The calls that are not done are inside with their own locks, and together all calls are as if
they had run one after the other. -/
structure Coherent (files : Files) (writers : Writers Name Thread Process) : Prop where
  sound : Locking.Sound setting writers.locks
  serial : Task.Serial files (writers.began.map service.task) writers.rests writers.files
  paths : ∀ thread request, writers.request thread = some request →
    (writers.locks.caller thread).paths = service.lockKeys request
  running : ∀ index rest, writers.rests[index]? = some rest → rest.program.outcome? = none →
    ∃ thread request, (writers.locks.caller thread).control = .inside ∧
      writers.place thread = index ∧ writers.request thread = some request ∧
      rest.footprint = service.footprint request

variable {service setting}

omit [DecidableEq Name] [DecidableEq Process] in
theorem coherent_start (files : Files) :
    Coherent service setting files (start Name Thread Process files) := by
  constructor
  · exact Locking.sound_initial
  · exact Task.serial_empty files
  · intro thread request called
    cases called
  · intro index rest found
    cases found

variable {files : Files} {writers after : Writers Name Thread Process}
  {locks : Locking.Locks Text Name Thread Process} {thread : Thread}

theorem Coherent.call (coherent : Coherent service setting files writers)
    {request : WriteRequest}
    (moved : Locking.move setting writers.locks thread (.call (service.lockKeys request)) =
      some locks) :
    Coherent service setting files
      { writers.setLocks locks with
        request := Function.update writers.request thread (some request) } := by
  have change := Locking.move_moved moved
  constructor
  · exact Locking.move_sound coherent.sound moved
  · exact coherent.serial
  · intro other another called
    dsimp only [setLocks] at called ⊢
    by_cases same : other = thread
    · rw [same, Function.update_self] at called
      cases called
      rw [same]
      exact Locking.move_call moved
    · rw [Function.update_of_ne same] at called
      rw [change.others other same]
      exact coherent.paths other another called
  · intro index rest found unfinished
    obtain ⟨other, another, inside, isPlace, called, footprint⟩ :=
      coherent.running index rest found unfinished
    obtain ⟨different, stays⟩ := change.stays inside nofun
    refine ⟨other, another, ?_, isPlace, ?_, footprint⟩
    · dsimp only [setLocks]
      rw [stays]
      exact inside
    · dsimp only
      rw [Function.update_of_ne different]
      exact called

omit [DecidableEq Name] [DecidableEq Process] in
theorem Coherent.ask (coherent : Coherent service setting files writers)
    {rest : Task FileRequest FileRequest.Response CrudOutcome (Location Text) (Option NoteFile)}
    (found : writers.rests[writers.place thread]? = some rest)
    {asked : Task FileRequest FileRequest.Response CrudOutcome (Location Text)
      (Option NoteFile) × Files}
    (asks : rest.next writers.files = some asked) :
    Coherent service setting files
      { writers with
        rests := writers.rests.set (writers.place thread) asked.1
        files := asked.2 } := by
  obtain ⟨question, next, shape, _sameStorage, sameFootprint, _program, _after⟩ :=
    Task.next_some asks
  constructor
  · exact coherent.sound
  · exact coherent.serial.ask found asks
  · exact coherent.paths
  · intro index other isOther unfinished
    dsimp only at isOther
    by_cases same : writers.place thread = index
    · have inRange := (List.getElem?_eq_some_iff.mp found).1
      rw [← same, List.getElem?_set_self inRange] at isOther
      cases isOther
      obtain ⟨mover, request, inside, isPlace, called, footprint⟩ :=
        coherent.running _ rest found (by rw [shape]; rfl)
      exact ⟨mover, request, inside, isPlace.trans same, called, sameFootprint.trans footprint⟩
    · rw [List.getElem?_set_ne same] at isOther
      exact coherent.running index other isOther unfinished

/-- A call that has just got its locks touches nothing that an unfinished call touches. -/
theorem Coherent.apart (coherent : Coherent service setting files writers)
    (shared : setting.hasFcntl = true ∨ ∀ first second, setting.home first = setting.home second)
    {request : WriteRequest} (called : writers.request thread = some request)
    (careful : Careful service setting writers (.locking (.thread thread .enter)))
    (moved : Locking.move setting writers.locks thread .enter = some locks) :
    ∀ rest ∈ writers.rests, Task.Apart rest (service.task request) := by
  intro rest member restOpen _taskOpen here touched alsoTouched
  obtain ⟨index, found⟩ := List.mem_iff_getElem?.mp member
  obtain ⟨other, another, inside, _isPlace, otherCalled, footprint⟩ :=
    coherent.running index rest found restOpen
  have change := Locking.move_moved moved
  obtain ⟨different, stays⟩ := change.stays inside nofun
  have listed : other ∈ writers.locks.callers := by
    by_contra unlisted
    rw [coherent.sound.listed other unlisted] at inside
    cases inside
  obtain ⟨ownSpared, otherSpared⟩ :=
    careful request called other listed inside another otherCalled
  rw [footprint] at touched
  change here ∈ service.footprint request at alsoTouched
  have exclusive := (Locking.move_sound coherent.sound moved).exclusive
  rcases touched with isLocked | isName
  · rcases alsoTouched with alsoLocked | alsoName
    · apply different
      apply exclusive.apart other thread (CrudService.lockKey here)
      · apply exclusive.inside
        · rw [stays]
          exact inside
        · rw [stays, coherent.paths other another otherCalled]
          exact isLocked
      · apply exclusive.inside
        · exact Locking.move_enter moved
        · rw [change.paths (fun _paths => nofun), coherent.paths thread request called]
          exact alsoLocked
      · exact shared.imp_right (fun alike => alike other thread)
    · exact ownSpared here alsoName (Or.inl isLocked)
  · exact otherSpared here isName alsoTouched

theorem Coherent.enter (coherent : Coherent service setting files writers)
    (shared : setting.hasFcntl = true ∨ ∀ first second, setting.home first = setting.home second)
    {request : WriteRequest} (called : writers.request thread = some request)
    (careful : Careful service setting writers (.locking (.thread thread .enter)))
    (moved : Locking.move setting writers.locks thread .enter = some locks) :
    Coherent service setting files ((writers.admitted service thread request).setLocks locks) := by
  have change := Locking.move_moved moved
  have apart := coherent.apart shared called careful moved
  constructor
  · exact Locking.move_sound coherent.sound moved
  · dsimp only [setLocks, admitted]
    rw [List.map_append]
    exact coherent.serial.begin apart
  · intro other another otherCalled
    dsimp only [setLocks, admitted] at otherCalled ⊢
    by_cases same : other = thread
    · rw [same] at otherCalled ⊢
      rw [change.paths (fun _paths => nofun)]
      exact coherent.paths thread another otherCalled
    · rw [change.others other same]
      exact coherent.paths other another otherCalled
  · intro index rest found unfinished
    dsimp only [setLocks, admitted] at found ⊢
    by_cases older : index < writers.rests.length
    · rw [List.getElem?_append_left older] at found
      obtain ⟨other, another, inside, isPlace, otherCalled, footprint⟩ :=
        coherent.running index rest found unfinished
      obtain ⟨different, stays⟩ := change.stays inside nofun
      refine ⟨other, another, ?_, ?_, otherCalled, footprint⟩
      · rw [stays]
        exact inside
      · rw [Function.update_of_ne different]
        exact isPlace
    · rw [List.getElem?_append_right (Nat.le_of_not_lt older)] at found
      have newest : index - writers.rests.length = 0 := by
        have inRange := (List.getElem?_eq_some_iff.mp found).1
        rw [List.length_singleton] at inRange
        omega
      rw [newest] at found
      cases found
      refine ⟨thread, request, Locking.move_enter moved, ?_, called, rfl⟩
      rw [Function.update_self]
      omega

/-- A move that is neither a call nor an entrance, where a call that leaves is done. -/
theorem Coherent.move (coherent : Coherent service setting files writers)
    {made : Locking.Move Text} (noCall : ∀ paths, made ≠ .call paths)
    (done : made = .finish → writers.isDone thread = true)
    (moved : Locking.move setting writers.locks thread made = some locks) :
    Coherent service setting files (writers.setLocks locks) := by
  have change := Locking.move_moved moved
  constructor
  · exact Locking.move_sound coherent.sound moved
  · exact coherent.serial
  · intro other another called
    dsimp only [setLocks] at called ⊢
    by_cases same : other = thread
    · rw [same] at called ⊢
      rw [change.paths noCall]
      exact coherent.paths thread another called
    · rw [change.others other same]
      exact coherent.paths other another called
  · intro index rest found unfinished
    obtain ⟨other, another, inside, isPlace, called, footprint⟩ :=
      coherent.running index rest found unfinished
    have notFinished : made = .finish → other ≠ thread := by
      intro finishes same
      have ended := done finishes
      rw [same] at isPlace
      unfold isDone at ended
      change writers.rests[index]? = some rest at found
      rw [isPlace, found, Option.all_some, unfinished] at ended
      cases ended
    obtain ⟨_different, stays⟩ := change.stays inside notFinished
    refine ⟨other, another, ?_, isPlace, called, footprint⟩
    dsimp only [setLocks]
    rw [stays]
    exact inside

theorem Coherent.others (coherent : Coherent service setting files writers)
    {event : Locking.Event Text Name Thread Process}
    (noMove : ∀ thread made, event ≠ .thread thread made)
    (kept : Locking.KeepsLockFiles setting writers.locks event)
    (stepped : Locking.step setting writers.locks event = some locks) :
    Coherent service setting files (writers.setLocks locks) := by
  have same := Locking.step_callers noMove stepped
  constructor
  · exact Locking.step_sound coherent.sound kept stepped
  · exact coherent.serial
  · dsimp only [setLocks]
    rw [same]
    exact coherent.paths
  · dsimp only [setLocks]
    rw [same]
    exact coherent.running

theorem Coherent.step
    (shared : setting.hasFcntl = true ∨ ∀ first second, setting.home first = setting.home second)
    {event : WriterEvent Name Thread Process} (coherent : Coherent service setting files writers)
    (careful : Careful service setting writers event)
    (stepped : writers.step service setting event = some after) :
    Coherent service setting files after := by
  unfold Writers.step at stepped
  cases event with
  | call thread request =>
      obtain ⟨locks, moved, same⟩ := Option.map_eq_some_iff.mp stepped
      rw [← same]
      exact coherent.call moved
  | ask thread =>
      dsimp only at stepped
      split at stepped
      case h_1 rest _inside found =>
        obtain ⟨asked, asks, same⟩ := Option.map_eq_some_iff.mp stepped
        rw [← same]
        exact coherent.ask found asks
      case h_2 => cases stepped
  | locking event =>
      cases event with
      | thread thread made =>
          dsimp only at stepped
          split at stepped
          case h_1 => cases stepped
          case h_2 request called =>
            obtain ⟨locks, moved, same⟩ := Option.map_eq_some_iff.mp stepped
            rw [← same]
            exact coherent.enter shared called careful moved
          case h_3 => cases stepped
          case h_4 =>
            split at stepped
            case isTrue done =>
              obtain ⟨locks, moved, same⟩ := Option.map_eq_some_iff.mp stepped
              rw [← same]
              exact coherent.move (fun _paths isCall => by cases isCall)
                (fun _finishes => done) moved
            case isFalse => cases stepped
          case h_5 noCall noFinish _noEntrance _noEntry =>
            obtain ⟨locks, moved, same⟩ := Option.map_eq_some_iff.mp stepped
            rw [← same]
            exact coherent.move noCall (fun finishes => absurd finishes noFinish) moved
      | collect process name =>
          have kept : Locking.KeepsLockFiles setting writers.locks (.collect process name) :=
            careful
          obtain ⟨locks, moved, same⟩ := Option.map_eq_some_iff.mp stepped
          rw [← same]
          exact coherent.others (fun _thread _made isMove => by cases isMove) kept moved
      | remove name =>
          have kept : Locking.KeepsLockFiles setting writers.locks (.remove name) := careful
          obtain ⟨locks, moved, same⟩ := Option.map_eq_some_iff.mp stepped
          rw [← same]
          exact coherent.others (fun _thread _made isMove => by cases isMove) kept moved

theorem run_coherent
    (shared : setting.hasFcntl = true ∨ ∀ first second, setting.home first = setting.home second)
    {events : List (WriterEvent Name Thread Process)} {final : Writers Name Thread Process}
    (careful : Transitions.Each (Writers.step service setting) (Careful service setting)
      (start Name Thread Process files) events)
    (ran : Transitions.run (Writers.step service setting) (start Name Thread Process files)
      events = some final) : Coherent service setting files final :=
  Transitions.run_keeps (fun holds met stepped => holds.step shared met stepped)
    (coherent_start files) careful ran

omit [DecidableEq Name] [DecidableEq Process] in
theorem Coherent.results (coherent : Coherent service setting files writers)
    (quiet : ∀ thread, (writers.locks.caller thread).control ≠ .inside) :
    writers.rests.map (fun rest => rest.program.outcome?) =
        (service.performAll writers.began files).1.map some ∧
      writers.files = (service.performAll writers.began files).2 := by
  rw [CrudService.performAll_eq]
  apply coherent.serial.ended
  intro rest member
  by_contra unfinished
  rw [Bool.not_eq_true, Option.isSome_eq_false_iff, Option.isNone_iff_eq_none] at unfinished
  obtain ⟨index, found⟩ := List.mem_iff_getElem?.mp member
  obtain ⟨thread, _request, inside, _place⟩ := coherent.running index rest found unfinished
  exact quiet thread inside

instance (service : CrudService) (request : WriteRequest) (here : Location Text) :
    Decidable (here ∈ service.footprint request) :=
  inferInstanceAs (Decidable (_ ∨ _))

instance (service : CrudService) (request another : WriteRequest) :
    Decidable (NamesSpared service request another) :=
  inferInstanceAs (Decidable (_ ∧ _))

instance (service : CrudService) (setting : Locking.Setting Text Name Thread Process)
    (writers : Writers Name Thread Process) (event : WriterEvent Name Thread Process) :
    Decidable (Careful service setting writers event) :=
  match event with
  | .call _ _ => isTrue trivial
  | .ask _ => isTrue trivial
  | .locking (.thread thread .enter) =>
      inferInstanceAs (Decidable (∀ request ∈ writers.request thread,
        ∀ other ∈ writers.locks.callers, (writers.locks.caller other).control = .inside →
          ∀ another ∈ writers.request other, NamesSpared service request another))
  | .locking (.thread _ (.call _)) => isTrue trivial
  | .locking (.thread _ .lookup) => isTrue trivial
  | .locking (.thread _ .acquire) => isTrue trivial
  | .locking (.thread _ .openFile) => isTrue trivial
  | .locking (.thread _ .poll) => isTrue trivial
  | .locking (.thread _ .fail) => isTrue trivial
  | .locking (.thread _ .finish) => isTrue trivial
  | .locking (.thread _ .cleanUp) => isTrue trivial
  | .locking (.collect _ _) => isTrue trivial
  | .locking (.remove name) =>
      inferInstanceAs (Decidable (Locking.KeepsLockFiles setting writers.locks (.remove name)))

/-- Two processes with a thread each. -/
def twoProcesses : Locking.Setting Text Bool Bool Bool :=
  { hasFcntl := true, lockName := fun path => path == CrudService.lockKey notePath
    inVault := fun _ => true, home := id }

def appendRequest : WriteRequest :=
  { call := .appendNote "a.md".toList "more".toList "\n".toList, supply := plainSupply }

def newNoteRequest : WriteRequest :=
  { call := .writeNote "b.md".toList "new".toList, supply := plainSupply }

/-- One process appends to the note while the other one writes a new note; a third call waits for
the first until its deadline. -/
def turns : List (WriterEvent Bool Bool Bool) :=
  let moves (thread : Bool) (made : List (Locking.Move Text)) : List (WriterEvent Bool Bool Bool) :=
    made.map (fun move => .locking (.thread thread move))
  [.call false appendRequest, .call true newNoteRequest] ++
    moves false [.lookup, .acquire, .openFile, .poll, .enter] ++
    moves true [.lookup, .acquire, .openFile, .poll, .enter] ++
    [.ask true, .ask false, .ask true, .ask false, .ask true, .ask false, .ask false, .ask true,
      .ask false, .ask true, .ask false, .ask true] ++
    moves true [.finish, .cleanUp, .cleanUp, .cleanUp, .cleanUp] ++
    [.call true appendRequest] ++ moves true [.lookup, .acquire, .openFile, .fail] ++
    [.ask false, .ask false] ++
    moves false [.finish]

end Writers

end VaultSearch
