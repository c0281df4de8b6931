/-
The advisory locks of the writing operations, for any number of threads in any number of
processes.

A path is locked by a lock of the process, which its threads share through a weak dictionary,
and by `flock` on a file of its own, which processes share.  What `finally` and `ExitStack` still
have to do is a stack of its own.  The deadline of a call may pass whenever it waits, so a call
may fail at each such point.
-/

import Mathlib.Data.List.Sort
import Mathlib.Logic.Function.Basic
import VaultSearch.Store.Transitions

set_option autoImplicit false

namespace VaultSearch

namespace Locking

/-! ### The state -/

/-- An open lock file; the kernel locks open files. -/
structure Descriptor where
  number : Nat
  inode : Nat
  deriving DecidableEq

/-- What `finally` does for a path. -/
inductive Cleanup (Path : Type) where
  | release (path : Path) (lock : Nat)
  | close (path : Path) (file : Descriptor)
  | unlock (path : Path) (file : Descriptor)
  deriving DecidableEq

/-- Where a thread is in `advisory_path_locks`. -/
inductive Control (Path : Type) where
  | idle
  | entering (todo : List Path)
  | acquiring (path : Path) (lock : Nat) (todo : List Path)
  | opening (path : Path) (todo : List Path)
  | polling (path : Path) (file : Descriptor) (todo : List Path)
  | inside
  | leaving
  deriving DecidableEq

/-- The call of a thread: its paths, where it is, and what it has to undo, the newest first. -/
structure Caller (Path : Type) where
  paths : List Path
  control : Control Path
  cleanups : List (Cleanup Path)
  deriving DecidableEq

def Caller.fresh (Path : Type) : Caller Path :=
  { paths := [], control := .idle, cleanups := [] }

/-- What does not change: whether there is `fcntl`, the name of the lock of a path, the paths in
the vault, and the process of each thread. -/
structure Setting (Path Name Thread Process : Type) where
  hasFcntl : Bool
  lockName : Path → Name
  inVault : Path → Bool
  home : Thread → Process

/-- `registry` is `_thread_locks` of each process, `owner` the owner of each lock with the number
of times it is acquired, `files` the lock files by name, and `flocks` which open file has the lock
of each. -/
structure Locks (Path Name Thread Process : Type) where
  callers : List Thread
  caller : Thread → Caller Path
  registry : Process → Name → Option Nat
  owner : Nat → Option (Thread × Nat)
  files : Name → Option Nat
  flocks : Nat → Option Descriptor
  next : Nat

def Locks.initial (Path Name Thread Process : Type) : Locks Path Name Thread Process :=
  { callers := []
    caller := fun _ => Caller.fresh Path
    registry := fun _ _ => none
    owner := fun _ => none
    files := fun _ => none
    flocks := fun _ => none
    next := 0 }

inductive Move (Path : Type) where
  | call (paths : List Path)
  | lookup
  | acquire
  | openFile
  | poll
  | enter
  | fail
  | finish
  | cleanUp
  deriving DecidableEq

/-- A thread makes a move, a lock without references is collected, or somebody removes a file. -/
inductive Event (Path Name Thread Process : Type) where
  | thread (thread : Thread) (move : Move Path)
  | collect (process : Process) (name : Name)
  | remove (name : Name)
  deriving DecidableEq

variable {Path Name Thread Process : Type}

/-- `sorted(unique_paths)` -/
def lockOrder [LinearOrder Path] (paths : List Path) : List Path :=
  paths.dedup.insertionSort (· ≤ ·)

section Steps

variable [LinearOrder Path] [DecidableEq Name] [DecidableEq Thread] [DecidableEq Process]
  (setting : Setting Path Name Thread Process)

def Locks.put (locks : Locks Path Name Thread Process) (thread : Thread) (caller : Caller Path) :
    Locks Path Name Thread Process :=
  { locks with
    callers := locks.callers.insert thread
    caller := Function.update locks.caller thread caller }

/-- `_thread_lock` -/
def threadLock (locks : Locks Path Name Thread Process) (process : Process) (name : Name) :
    Nat × Locks Path Name Thread Process :=
  match locks.registry process name with
  | some lock => (lock, locks)
  | none =>
      (locks.next,
        { locks with
          registry := Function.update locks.registry process
            (Function.update (locks.registry process) name (some locks.next))
          next := locks.next + 1 })

def Locks.setOwner (locks : Locks Path Name Thread Process) (lock : Nat)
    (owner : Option (Thread × Nat)) : Locks Path Name Thread Process :=
  { locks with owner := Function.update locks.owner lock owner }

/-- `RLock.acquire` without waiting. -/
def tryAcquire (locks : Locks Path Name Thread Process) (thread : Thread) (lock : Nat) :
    Option (Locks Path Name Thread Process) :=
  match locks.owner lock with
  | none => some (locks.setOwner lock (some (thread, 1)))
  | some (owner, count) =>
      if owner = thread then some (locks.setOwner lock (some (owner, count + 1))) else none

/-- `RLock.release` of a lock that the thread owns. -/
def releaseLock (locks : Locks Path Name Thread Process) (lock : Nat) :
    Locks Path Name Thread Process :=
  match locks.owner lock with
  | none => locks
  | some (owner, count) =>
      locks.setOwner lock (if count ≤ 1 then none else some (owner, count - 1))

/-- `_open_lock_file`, which creates the file where there is none. -/
def openLockFile (locks : Locks Path Name Thread Process) (name : Name) :
    Descriptor × Locks Path Name Thread Process :=
  match locks.files name with
  | some inode => ({ number := locks.next, inode }, { locks with next := locks.next + 1 })
  | none =>
      ({ number := locks.next, inode := locks.next },
        { locks with
          files := Function.update locks.files name (some locks.next)
          next := locks.next + 1 })

def Locks.setFlock (locks : Locks Path Name Thread Process) (inode : Nat)
    (file : Option Descriptor) : Locks Path Name Thread Process :=
  { locks with flocks := Function.update locks.flocks inode file }

/-- `flock` with `LOCK_EX | LOCK_NB`. -/
def tryFlock (locks : Locks Path Name Thread Process) (file : Descriptor) :
    Option (Locks Path Name Thread Process) :=
  match locks.flocks file.inode with
  | none => some (locks.setFlock file.inode (some file))
  | some _ => none

/-- `LOCK_UN`, also what closing does to the lock of an open file. -/
def dropFlock (locks : Locks Path Name Thread Process) (file : Descriptor) :
    Locks Path Name Thread Process :=
  if locks.flocks file.inode = some file then locks.setFlock file.inode none else locks

def undo (locks : Locks Path Name Thread Process) :
    Cleanup Path → Locks Path Name Thread Process
  | .release _path lock => releaseLock locks lock
  | .close _path file => dropFlock locks file
  | .unlock _path file => dropFlock locks file

/-- What a thread does with a path, with its locks so far and the paths after it. -/
def move (locks : Locks Path Name Thread Process) (thread : Thread) :
    Move Path → Option (Locks Path Name Thread Process)
  | .call paths =>
      match (locks.caller thread).control with
      | .idle => some (locks.put thread
          { paths, control := .entering (lockOrder paths), cleanups := [] })
      | _ => none
  | .lookup =>
      let caller := locks.caller thread
      match caller.control with
      | .entering (path :: todo) =>
          if setting.inVault path then
            let (lock, found) := threadLock locks (setting.home thread) (setting.lockName path)
            some (found.put thread { caller with control := .acquiring path lock todo })
          else some (locks.put thread { caller with control := .leaving })
      | _ => none
  | .acquire =>
      let caller := locks.caller thread
      match caller.control with
      | .acquiring path lock todo =>
          (tryAcquire locks thread lock).map (fun acquired =>
            acquired.put thread
              { caller with
                control := if setting.hasFcntl then .opening path todo else .entering todo
                cleanups := .release path lock :: caller.cleanups })
      | _ => none
  | .openFile =>
      let caller := locks.caller thread
      match caller.control with
      | .opening path todo =>
          let (file, opened) := openLockFile locks (setting.lockName path)
          some (opened.put thread
            { caller with
              control := .polling path file todo
              cleanups := .close path file :: caller.cleanups })
      | _ => none
  | .poll =>
      let caller := locks.caller thread
      match caller.control with
      | .polling path file todo =>
          (tryFlock locks file).map (fun locked =>
            locked.put thread
              { caller with
                control := .entering todo
                cleanups := .unlock path file :: caller.cleanups })
      | _ => none
  | .enter =>
      let caller := locks.caller thread
      match caller.control with
      | .entering [] => some (locks.put thread { caller with control := .inside })
      | _ => none
  | .fail =>
      -- the deadline passes, or the operating system reports an error
      let caller := locks.caller thread
      match caller.control with
      | .entering (_ :: _) | .acquiring _ _ _ | .opening _ _ | .polling _ _ _ =>
          some (locks.put thread { caller with control := .leaving })
      | _ => none
  | .finish =>
      let caller := locks.caller thread
      match caller.control with
      | .inside => some (locks.put thread { caller with control := .leaving })
      | _ => none
  | .cleanUp =>
      let caller := locks.caller thread
      match caller.control, caller.cleanups with
      | .leaving, [] => some (locks.put thread { caller with control := .idle })
      | .leaving, cleanup :: older =>
          some ((undo locks cleanup).put thread { caller with cleanups := older })
      | _, _ => none

/-- Whether a call has a reference to a lock. -/
def Caller.refersTo (caller : Caller Path) (lock : Nat) : Bool :=
  (match caller.control with
    | .acquiring _ waited _ => waited = lock
    | _ => false) ||
  caller.cleanups.any (fun cleanup =>
    match cleanup with
    | .release _ held => held = lock
    | _ => false)

def step (locks : Locks Path Name Thread Process) :
    Event Path Name Thread Process → Option (Locks Path Name Thread Process)
  | .thread thread made => move setting locks thread made
  | .collect process name =>
      match locks.registry process name with
      | none => none
      | some lock =>
          if locks.callers.any (fun thread => (locks.caller thread).refersTo lock) then none
          else
            some { locks with
              registry := Function.update locks.registry process
                (Function.update (locks.registry process) name none) }
  | .remove name => some { locks with files := Function.update locks.files name none }

end Steps

end Locking

end VaultSearch
