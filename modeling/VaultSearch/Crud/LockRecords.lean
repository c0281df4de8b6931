/-
What the locks of the process, the lock files and the calls say about each other.

Every lock that is still to be released is the one in the registry, and is acquired as often;
every file that is still to be closed is the one of its name; and the kernel has locked exactly
the files that are still to be unlocked.
-/

import VaultSearch.Crud.Locking

set_option autoImplicit false

namespace VaultSearch

namespace Locking

variable {Path Name Thread Process : Type}

/-! ### What is still to be undone -/

/-- The locks that are still to be released. -/
def released (cleanups : List (Cleanup Path)) : List (Path × Nat) :=
  cleanups.filterMap (fun cleanup =>
    match cleanup with
    | .release path lock => some (path, lock)
    | _ => none)

/-- The files that are still to be closed. -/
def opened (cleanups : List (Cleanup Path)) : List (Path × Descriptor) :=
  cleanups.filterMap (fun cleanup =>
    match cleanup with
    | .close path file => some (path, file)
    | _ => none)

/-- The files that are still to be unlocked. -/
def locked (cleanups : List (Cleanup Path)) : List (Path × Descriptor) :=
  cleanups.filterMap (fun cleanup =>
    match cleanup with
    | .unlock path file => some (path, file)
    | _ => none)

section Parts

variable (path : Path) (lock : Nat) (file : Descriptor) (older : List (Cleanup Path))

@[simp] theorem released_nil : released ([] : List (Cleanup Path)) = [] := rfl
@[simp] theorem opened_nil : opened ([] : List (Cleanup Path)) = [] := rfl
@[simp] theorem locked_nil : locked ([] : List (Cleanup Path)) = [] := rfl

@[simp] theorem released_release :
    released (.release path lock :: older) = (path, lock) :: released older := rfl
@[simp] theorem released_close : released (.close path file :: older) = released older := rfl
@[simp] theorem released_unlock : released (.unlock path file :: older) = released older := rfl

@[simp] theorem opened_release : opened (.release path lock :: older) = opened older := rfl
@[simp] theorem opened_close :
    opened (.close path file :: older) = (path, file) :: opened older := rfl
@[simp] theorem opened_unlock : opened (.unlock path file :: older) = opened older := rfl

@[simp] theorem locked_release : locked (.release path lock :: older) = locked older := rfl
@[simp] theorem locked_close : locked (.close path file :: older) = locked older := rfl
@[simp] theorem locked_unlock :
    locked (.unlock path file :: older) = (path, file) :: locked older := rfl

end Parts

section Order

variable [LinearOrder Path]

/-- What the context managers of some paths still have to do: the paths ascend, and each path has
its lock released behind the others of its steps. -/
inductive Frames : List (Cleanup Path) → Prop where
  | empty : Frames []
  | release {path : Path} {lock : Nat} {older : List (Cleanup Path)} (before : Frames older)
      (above : ∀ entry ∈ released older, entry.1 < path) : Frames (.release path lock :: older)
  | close {path : Path} {lock : Nat} {file : Descriptor} {older : List (Cleanup Path)}
      (before : Frames (.release path lock :: older))
      (another : ∀ entry ∈ opened older, entry.2.number ≠ file.number) :
      Frames (.close path file :: .release path lock :: older)
  | unlock {path : Path} {lock : Nat} {file : Descriptor} {older : List (Cleanup Path)}
      (before : Frames (.close path file :: .release path lock :: older)) :
      Frames (.unlock path file :: .close path file :: .release path lock :: older)

theorem Frames.older {cleanup : Cleanup Path} {older : List (Cleanup Path)}
    (frames : Frames (cleanup :: older)) : Frames older := by
  cases frames with
  | release before _above => exact before
  | close before _another => exact before
  | unlock before => exact before

/-- A locked file is open, under the path of a lock. -/
theorem Frames.open_of_locked {cleanups : List (Cleanup Path)} (frames : Frames cleanups)
    {entry : Path × Descriptor} (member : entry ∈ locked cleanups) :
    entry ∈ opened cleanups ∧ ∃ lock, (entry.1, lock) ∈ released cleanups := by
  induction frames with
  | empty => cases member
  | @release path lock older _before _above ih =>
      obtain ⟨isOpen, held, isHeld⟩ := ih member
      exact ⟨isOpen, held, List.mem_cons_of_mem _ isHeld⟩
  | @close path lock file older _before _another ih =>
      obtain ⟨isOpen, held, isHeld⟩ := ih member
      exact ⟨List.mem_cons_of_mem _ isOpen, held, isHeld⟩
  | @unlock path lock file older _before ih =>
      rcases List.mem_cons.mp member with same | later
      · rw [same]
        exact ⟨List.mem_cons_self, lock, List.mem_cons_self⟩
      · exact ih later

/-- The paths that a call still has to lock, unless it is not about to. -/
def Control.ahead : Control Path → Option (List Path)
  | .idle | .leaving => none
  | .entering todo => some todo
  | .acquiring path _ todo | .opening path todo | .polling path _ todo => some (path :: todo)
  | .inside => some []

/-- What a call at some point has to undo, and in which order its paths stand. -/
def Fits : Control Path → List (Cleanup Path) → Prop
  | .idle, cleanups => cleanups = []
  | .entering todo, cleanups =>
      todo.Pairwise (· < ·) ∧ ∀ path ∈ todo, ∀ entry ∈ released cleanups, entry.1 < path
  | .acquiring path _ todo, cleanups =>
      (path :: todo).Pairwise (· < ·) ∧ ∀ entry ∈ released cleanups, entry.1 < path
  | .opening path todo, cleanups =>
      (path :: todo).Pairwise (· < ·) ∧ ∃ lock older, cleanups = .release path lock :: older
  | .polling path file todo, cleanups =>
      (path :: todo).Pairwise (· < ·) ∧
        ∃ lock older, cleanups = .close path file :: .release path lock :: older
  | .inside, _ | .leaving, _ => True

/-- A call is somewhere on its way through its own paths. -/
structure Placed (caller : Caller Path) : Prop where
  frames : Frames caller.cleanups
  fits : Fits caller.control caller.cleanups
  behind : ∀ entry ∈ released caller.cleanups, entry.1 ∈ caller.paths
  before : ∀ todo, caller.control.ahead = some todo → ∀ path ∈ todo, path ∈ caller.paths

end Order

/-! ### What every run keeps -/

variable (setting : Setting Path Name Thread Process)

/-- A call has the lock of a path: the one that processes share, or without `fcntl` the one that
the threads of a process share. -/
def Holds (caller : Caller Path) (path : Path) : Prop :=
  if setting.hasFcntl then ∃ file, (path, file) ∈ locked caller.cleanups
  else ∃ lock, (path, lock) ∈ released caller.cleanups

/-- A call has a reference to the lock of a path. -/
def References (caller : Caller Path) (path : Path) (lock : Nat) : Prop :=
  (∃ todo, caller.control = .acquiring path lock todo) ∨ (path, lock) ∈ released caller.cleanups

/-- All references to the lock of a name are to the one in the registry. -/
structure Registered (locks : Locks Path Name Thread Process) : Prop where
  known : ∀ thread path lock, References (locks.caller thread) path lock →
    locks.registry (setting.home thread) (setting.lockName path) = some lock
  distinct : ∀ process other name another lock, locks.registry process name = some lock →
    locks.registry other another = some lock → process = other ∧ name = another
  old : ∀ process name lock, locks.registry process name = some lock → lock < locks.next

/-- How often a thread has acquired a lock. -/
def timesOwned [DecidableEq Thread] (locks : Locks Path Name Thread Process) (lock : Nat)
    (thread : Thread) : Nat :=
  match locks.owner lock with
  | none => 0
  | some (owner, count) => if owner = thread then count else 0

/-- A lock is still to be released as often as it is acquired. -/
structure Owned [DecidableEq Thread] (locks : Locks Path Name Thread Process) : Prop where
  counted : ∀ lock thread, (released (locks.caller thread).cleanups).countP (·.2 = lock) =
    timesOwned locks lock thread
  positive : ∀ lock thread, locks.owner lock ≠ some (thread, 0)

/-- The open files of a path are the file of its name, and each is open only once. -/
structure Filed (locks : Locks Path Name Thread Process) : Prop where
  present : ∀ thread, ∀ entry ∈ opened (locks.caller thread).cleanups,
    locks.files (setting.lockName entry.1) = some entry.2.inode
  distinct : ∀ name another inode, locks.files name = some inode →
    locks.files another = some inode → name = another
  oldFiles : ∀ name inode, locks.files name = some inode → inode < locks.next
  numbers : ∀ thread other, ∀ entry ∈ opened (locks.caller thread).cleanups,
    ∀ another ∈ opened (locks.caller other).cleanups, entry.2.number = another.2.number →
      thread = other
  oldNumbers : ∀ thread, ∀ entry ∈ opened (locks.caller thread).cleanups,
    entry.2.number < locks.next

/-- The kernel has locked the files that are still to be unlocked. -/
def Flocked (locks : Locks Path Name Thread Process) : Prop :=
  ∀ inode file, locks.flocks inode = some file ↔
    file.inode = inode ∧ ∃ thread path, (path, file) ∈ locked (locks.caller thread).cleanups

/-- A call has the locks of the paths that it need not lock any more. -/
def Covered (caller : Caller Path) : Prop :=
  ∀ todo, caller.control.ahead = some todo → ∀ path ∈ caller.paths, path ∈ todo ∨
    Holds setting caller path

structure Sound [LinearOrder Path] [DecidableEq Thread]
    (locks : Locks Path Name Thread Process) : Prop where
  registered : Registered setting locks
  owned : Owned locks
  filed : Filed setting locks
  flocked : Flocked locks
  placed : ∀ thread, Placed (locks.caller thread)
  covered : ∀ thread, Covered setting (locks.caller thread)
  listed : ∀ thread, thread ∉ locks.callers → locks.caller thread = Caller.fresh Path

section Puts

variable [DecidableEq Thread] {locks : Locks Path Name Thread Process} {thread : Thread}
  {caller : Caller Path}

@[simp] theorem put_caller_self (locks : Locks Path Name Thread Process) (thread : Thread)
    (caller : Caller Path) : (locks.put thread caller).caller thread = caller :=
  Function.update_self ..

theorem put_caller_other (locks : Locks Path Name Thread Process) (caller : Caller Path)
    {other thread : Thread} (another : other ≠ thread) :
    (locks.put thread caller).caller other = locks.caller other :=
  Function.update_of_ne another ..

/-- What holds of the changed call and of the other calls holds of all of them. -/
theorem put_forall (property : Thread → Caller Path → Prop) (self : property thread caller)
    (others : ∀ other, other ≠ thread → property other (locks.caller other)) (other : Thread) :
    property other ((locks.put thread caller).caller other) := by
  by_cases same : other = thread
  · rw [same, put_caller_self]
    exact self
  · rw [put_caller_other locks caller same]
    exact others other same

variable {setting}

theorem Registered.put (registered : Registered setting locks)
    (known : ∀ path lock, References caller path lock →
      locks.registry (setting.home thread) (setting.lockName path) = some lock) :
    Registered setting (locks.put thread caller) := by
  constructor
  · exact put_forall (fun other call => ∀ path lock, References call path lock →
      locks.registry (setting.home other) (setting.lockName path) = some lock) known
      (fun other _another => registered.known other)
  · exact registered.distinct
  · exact registered.old

theorem Owned.put (owned : Owned locks)
    (same : released caller.cleanups = released (locks.caller thread).cleanups) :
    Owned (locks.put thread caller) := by
  constructor
  · intro lock
    apply put_forall (fun other call =>
      (released call.cleanups).countP (·.2 = lock) = timesOwned locks lock other)
    · rw [same]
      exact owned.counted lock thread
    · exact fun other _another => owned.counted lock other
  · exact owned.positive

theorem Filed.put (filed : Filed setting locks)
    (fewer : opened caller.cleanups ⊆ opened (locks.caller thread).cleanups) :
    Filed setting (locks.put thread caller) := by
  have older : ∀ other, opened ((locks.put thread caller).caller other).cleanups ⊆
      opened (locks.caller other).cleanups :=
    put_forall (fun other call => opened call.cleanups ⊆ opened (locks.caller other).cleanups)
      fewer (fun other _another => List.Subset.refl _)
  constructor
  · intro other entry member
    exact filed.present other entry (older other member)
  · exact filed.distinct
  · exact filed.oldFiles
  · intro first second entry member another isOther same
    exact filed.numbers first second entry (older first member) another (older second isOther) same
  · intro other entry member
    exact filed.oldNumbers other entry (older other member)

theorem Flocked.put (flocked : Flocked locks)
    (same : locked caller.cleanups = locked (locks.caller thread).cleanups) :
    Flocked (locks.put thread caller) := by
  have sameLocked : ∀ other, locked ((locks.put thread caller).caller other).cleanups =
      locked (locks.caller other).cleanups :=
    put_forall (fun other call => locked call.cleanups = locked (locks.caller other).cleanups)
      same (fun other _another => rfl)
  intro inode file
  simp only [sameLocked]
  exact flocked inode file

theorem listed_put (listed : ∀ other, other ∉ locks.callers → locks.caller other = Caller.fresh Path)
    (other : Thread) (unlisted : other ∉ (locks.put thread caller).callers) :
    (locks.put thread caller).caller other = Caller.fresh Path := by
  have apart := not_or.mp (List.mem_insert_iff.not.mp unlisted)
  rw [put_caller_other locks caller apart.1]
  exact listed other apart.2

/-- A call that goes on as it is locks, opens and undoes nothing. -/
theorem Sound.put [LinearOrder Path] (sound : Sound setting locks)
    (same : caller.cleanups = (locks.caller thread).cleanups)
    (known : ∀ path lock todo, caller.control = .acquiring path lock todo →
      locks.registry (setting.home thread) (setting.lockName path) = some lock)
    (placed : Placed caller) (covered : Covered setting caller) :
    Sound setting (locks.put thread caller) := by
  constructor
  · apply sound.registered.put
    intro path lock reference
    cases reference with
    | inl waits =>
        obtain ⟨todo, isAcquiring⟩ := waits
        exact known path lock todo isAcquiring
    | inr held =>
        rw [same] at held
        exact sound.registered.known thread path lock (Or.inr held)
  · exact sound.owned.put (by rw [same])
  · exact sound.filed.put (by rw [same]; exact List.Subset.refl _)
  · exact sound.flocked.put (by rw [same])
  · exact put_forall (fun _other => Placed) placed (fun other _another => sound.placed other)
  · exact put_forall (fun _other => Covered setting) covered
      (fun other _another => sound.covered other)
  · exact listed_put sound.listed

end Puts

/-! ### The moves -/

variable {setting}

section Parts

variable {locks : Locks Path Name Thread Process}

theorem Registered.setOwner (registered : Registered setting locks) (lock : Nat)
    (owner : Option (Thread × Nat)) : Registered setting (locks.setOwner lock owner) :=
  ⟨registered.known, registered.distinct, registered.old⟩

theorem Filed.setOwner (filed : Filed setting locks) (lock : Nat)
    (owner : Option (Thread × Nat)) : Filed setting (locks.setOwner lock owner) :=
  ⟨filed.present, filed.distinct, filed.oldFiles, filed.numbers, filed.oldNumbers⟩

theorem Flocked.setOwner (flocked : Flocked locks) (lock : Nat)
    (owner : Option (Thread × Nat)) : Flocked (locks.setOwner lock owner) :=
  flocked

theorem Registered.setFlock (registered : Registered setting locks) (inode : Nat)
    (file : Option Descriptor) : Registered setting (locks.setFlock inode file) :=
  ⟨registered.known, registered.distinct, registered.old⟩

theorem Owned.setFlock [DecidableEq Thread] (owned : Owned locks) (inode : Nat)
    (file : Option Descriptor) : Owned (locks.setFlock inode file) :=
  ⟨owned.counted, owned.positive⟩

theorem Filed.setFlock (filed : Filed setting locks) (inode : Nat)
    (file : Option Descriptor) : Filed setting (locks.setFlock inode file) :=
  ⟨filed.present, filed.distinct, filed.oldFiles, filed.numbers, filed.oldNumbers⟩

end Parts

theorem Holds.mono {caller later : Caller Path} {path : Path} (holds : Holds setting caller path)
    (moreLocked : locked caller.cleanups ⊆ locked later.cleanups)
    (moreReleased : released caller.cleanups ⊆ released later.cleanups) :
    Holds setting later path := by
  unfold Holds at holds ⊢
  by_cases shared : setting.hasFcntl = true
  · rw [if_pos shared] at holds ⊢
    obtain ⟨file, member⟩ := holds
    exact ⟨file, moreLocked member⟩
  · rw [if_neg shared] at holds ⊢
    obtain ⟨lock, member⟩ := holds
    exact ⟨lock, moreReleased member⟩

section Owners

variable [DecidableEq Thread] {locks : Locks Path Name Thread Process} {thread : Thread}

theorem timesOwned_setOwner (locks : Locks Path Name Thread Process) (lock other : Nat)
    (owner : Option (Thread × Nat)) (mover : Thread) :
    timesOwned (locks.setOwner lock owner) other mover =
      if other = lock then
        (match owner with
        | none => 0
        | some (owner, count) => if owner = mover then count else 0)
      else timesOwned locks other mover := by
  unfold timesOwned Locks.setOwner
  dsimp only
  by_cases same : other = lock
  · rw [if_pos same, same, Function.update_self]
  · rw [if_neg same, Function.update_of_ne same]

/-- A lock is acquired once more by a thread that no other thread excludes. -/
theorem tryAcquire_some {lock : Nat} {acquired : Locks Path Name Thread Process}
    (taken : tryAcquire locks thread lock = some acquired) :
    acquired = locks.setOwner lock (some (thread, timesOwned locks lock thread + 1)) ∧
      ∀ other, other ≠ thread → timesOwned locks lock other = 0 := by
  unfold tryAcquire at taken
  unfold timesOwned
  cases found : locks.owner lock with
  | none =>
      rw [found] at taken
      exact ⟨(Option.some.inj taken).symm, fun other _another => rfl⟩
  | some entry =>
      obtain ⟨owner, count⟩ := entry
      rw [found] at taken
      dsimp only at taken ⊢
      by_cases own : owner = thread
      · rw [if_pos own] at taken
        rw [if_pos own, ← Option.some.inj taken, own]
        refine ⟨rfl, ?_⟩
        intro other another
        rw [if_neg (Ne.symm another)]
      · rw [if_neg own] at taken
        cases taken

theorem owned_acquire (owned : Owned locks) {path : Path} {lock : Nat} {caller : Caller Path}
    (more : caller.cleanups = .release path lock :: (locks.caller thread).cleanups)
    (excluded : ∀ other, other ≠ thread → timesOwned locks lock other = 0) :
    Owned ((locks.setOwner lock (some (thread, timesOwned locks lock thread + 1))).put
      thread caller) := by
  constructor
  · intro other
    apply put_forall (fun mover call => (released call.cleanups).countP (·.2 = other) =
      timesOwned (locks.setOwner lock (some (thread, timesOwned locks lock thread + 1))) other mover)
    · rw [more, released_release, List.countP_cons, owned.counted other thread,
        timesOwned_setOwner]
      by_cases same : other = lock
      · simp [same]
      · simp [same, Ne.symm same]
    · intro mover another
      change (released (locks.caller mover).cleanups).countP (·.2 = other) = _
      rw [owned.counted other mover, timesOwned_setOwner]
      by_cases same : other = lock
      · simp [same, excluded mover another, Ne.symm another]
      · simp [same]
  · intro other mover
    change Function.update locks.owner lock _ other ≠ _
    by_cases same : other = lock
    · rw [same, Function.update_self]
      intro equal
      exact absurd (Prod.mk.inj (Option.some.inj equal)).2 (Nat.succ_ne_zero _)
    · rw [Function.update_of_ne same]
      exact owned.positive other mover

theorem filed_open (filed : Filed setting locks) {path : Path} {file : Descriptor}
    {caller : Caller Path} (isFile : locks.files (setting.lockName path) = some file.inode)
    (newest : ∀ other, ∀ entry ∈ opened (locks.caller other).cleanups,
      entry.2.number < file.number) (below : file.number < locks.next)
    (more : caller.cleanups = .close path file :: (locks.caller thread).cleanups) :
    Filed setting (locks.put thread caller) := by
  have entries : ∀ other, ∀ entry ∈ opened ((locks.put thread caller).caller other).cleanups,
      (other = thread ∧ entry = (path, file)) ∨ entry ∈ opened (locks.caller other).cleanups := by
    apply put_forall (fun other call => ∀ entry ∈ opened call.cleanups,
      (other = thread ∧ entry = (path, file)) ∨ entry ∈ opened (locks.caller other).cleanups)
    · intro entry member
      rw [more, opened_close] at member
      exact (List.mem_cons.mp member).imp_left (fun same => ⟨rfl, same⟩)
    · exact fun other _another entry member => Or.inr member
  constructor
  · intro other entry member
    rcases entries other entry member with new | older
    · rw [new.2]
      exact isFile
    · exact filed.present other entry older
  · exact filed.distinct
  · exact filed.oldFiles
  · intro first second entry member another isOther same
    rcases entries first entry member with new | older
    · rcases entries second another isOther with alsoNew | alsoOlder
      · exact new.1.trans alsoNew.1.symm
      · have less := newest second another alsoOlder
        rw [new.2] at same
        dsimp only at same
        omega
    · rcases entries second another isOther with alsoNew | alsoOlder
      · have less := newest first entry older
        rw [alsoNew.2] at same
        dsimp only at same
        omega
      · exact filed.numbers first second entry older another alsoOlder same
  · intro other entry member
    rcases entries other entry member with new | older
    · rw [new.2]
      exact below
    · exact filed.oldNumbers other entry older

/-- A lock that is still to be released is owned. -/
theorem Owned.owner_eq (owned : Owned locks) {path : Path} {lock : Nat}
    (held : (path, lock) ∈ released (locks.caller thread).cleanups) :
    ∃ count, locks.owner lock = some (thread, count + 1) := by
  have some : 0 < timesOwned locks lock thread := by
    rw [← owned.counted lock thread, List.countP_pos_iff]
    exact ⟨(path, lock), held, decide_eq_true rfl⟩
  unfold timesOwned at some
  cases found : locks.owner lock with
  | none =>
      rw [found] at some
      exact absurd some (Nat.lt_irrefl 0)
  | some entry =>
      obtain ⟨owner, count⟩ := entry
      rw [found] at some
      dsimp only at some
      by_cases own : owner = thread
      · rw [if_pos own] at some
        exact ⟨count - 1, by rw [own, Nat.sub_add_cancel some]⟩
      · rw [if_neg own] at some
        exact absurd some (Nat.lt_irrefl 0)

theorem tryAcquire_none {lock : Nat} (excluded : tryAcquire locks thread lock = none) :
    ∃ owner count, locks.owner lock = some (owner, count) ∧ owner ≠ thread := by
  unfold tryAcquire at excluded
  cases found : locks.owner lock with
  | none =>
      rw [found] at excluded
      cases excluded
  | some entry =>
      obtain ⟨owner, count⟩ := entry
      rw [found] at excluded
      dsimp only at excluded
      by_cases own : owner = thread
      · rw [if_pos own] at excluded
        cases excluded
      · exact ⟨owner, count, rfl, own⟩

theorem Owned.release_pending (owned : Owned locks) {lock count : Nat} {owner : Thread}
    (isOwner : locks.owner lock = some (owner, count)) :
    ∃ path, (path, lock) ∈ released (locks.caller owner).cleanups := by
  have positive : 0 < count := by
    apply Nat.pos_of_ne_zero
    intro zero
    rw [zero] at isOwner
    exact owned.positive lock owner isOwner
  have counted := owned.counted lock owner
  unfold timesOwned at counted
  rw [isOwner] at counted
  dsimp only at counted
  rw [if_pos rfl] at counted
  rw [← counted, List.countP_pos_iff] at positive
  obtain ⟨entry, member, same⟩ := positive
  rw [decide_eq_true_iff] at same
  exact ⟨entry.1, by rw [← same]; exact member⟩

theorem owned_release (owned : Owned locks) {path : Path} {lock : Nat} {caller : Caller Path}
    (fewer : (locks.caller thread).cleanups = .release path lock :: caller.cleanups) :
    Owned ((releaseLock locks lock).put thread caller) := by
  obtain ⟨count, isOwner⟩ := owned.owner_eq  (by
    rw [fewer]
    exact List.mem_cons_self)
  have result : releaseLock locks lock =
      locks.setOwner lock (if count = 0 then none else some (thread, count)) := by
    unfold releaseLock
    rw [isOwner]
    simp
  have before := owned.counted lock thread
  have times : timesOwned locks lock thread = count + 1 := by
    unfold timesOwned
    rw [isOwner]
    exact if_pos rfl
  rw [result]
  constructor
  · intro other
    apply put_forall (fun mover call => (released call.cleanups).countP (·.2 = other) =
      timesOwned (locks.setOwner lock (if count = 0 then none else some (thread, count))) other mover)
    · rw [timesOwned_setOwner]
      have counted := owned.counted other thread
      rw [fewer, released_release, List.countP_cons] at counted
      by_cases same : other = lock
      · rw [same, times] at counted
        simp only [decide_true, if_true, Nat.add_right_cancel_iff] at counted
        rw [same, counted, if_pos rfl]
        by_cases last : count = 0
        · simp [last]
        · simp [last]
      · rw [if_neg same, ← counted]
        simp [Ne.symm same]
    · intro mover another
      change (released (locks.caller mover).cleanups).countP (·.2 = other) = _
      rw [owned.counted other mover, timesOwned_setOwner]
      by_cases same : other = lock
      · have none : timesOwned locks lock mover = 0 := by
          unfold timesOwned
          rw [isOwner]
          exact if_neg (Ne.symm another)
        rw [same, none, if_pos rfl]
        by_cases last : count = 0
        · simp [last]
        · simp [last, Ne.symm another]
      · rw [if_neg same]
  · intro other mover
    change Function.update locks.owner lock _ other ≠ _
    by_cases same : other = lock
    · rw [same, Function.update_self]
      by_cases last : count = 0
      · rw [if_pos last]
        intro equal
        cases equal
      · rw [if_neg last]
        intro equal
        exact last (Prod.mk.inj (Option.some.inj equal)).2
    · rw [Function.update_of_ne same]
      exact owned.positive other mover

end Owners

/-! ### Calls that stay -/

theorem threadLock_calls [DecidableEq Name] [DecidableEq Process]
    (locks : Locks Path Name Thread Process) (process : Process) (name : Name) :
    (threadLock locks process name).2.caller = locks.caller ∧
      (threadLock locks process name).2.callers = locks.callers := by
  unfold threadLock
  cases locks.registry process name with
  | none => exact ⟨rfl, rfl⟩
  | some lock => exact ⟨rfl, rfl⟩

theorem openLockFile_calls [DecidableEq Name] (locks : Locks Path Name Thread Process)
    (name : Name) : (openLockFile locks name).2.caller = locks.caller ∧
      (openLockFile locks name).2.callers = locks.callers := by
  unfold openLockFile
  cases locks.files name with
  | none => exact ⟨rfl, rfl⟩
  | some inode => exact ⟨rfl, rfl⟩

theorem dropFlock_calls (locks : Locks Path Name Thread Process) (file : Descriptor) :
    (dropFlock locks file).caller = locks.caller ∧
      (dropFlock locks file).callers = locks.callers := by
  unfold dropFlock
  split
  case isTrue => exact ⟨rfl, rfl⟩
  case isFalse => exact ⟨rfl, rfl⟩

theorem undo_calls (locks : Locks Path Name Thread Process) (cleanup : Cleanup Path) :
    (undo locks cleanup).caller = locks.caller ∧ (undo locks cleanup).callers = locks.callers := by
  cases cleanup with
  | release path lock =>
      unfold undo releaseLock
      dsimp only
      split
      case h_1 => exact ⟨rfl, rfl⟩
      case h_2 => exact ⟨rfl, rfl⟩
  | close path file => exact dropFlock_calls locks file
  | unlock path file => exact dropFlock_calls locks file

end Locking

end VaultSearch
