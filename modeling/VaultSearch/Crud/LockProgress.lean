/-
That the locks never leave all calls waiting.

The paths of a call are locked in ascending order, and the lock of the process before the lock of
the file.  So a call that waits waits for one that is behind no lock or behind a later one, and
from every reachable state all calls can come to their ends without a single deadline.
-/

import Mathlib.Algebra.Order.BigOperators.Group.Finset
import Mathlib.Data.Prod.Lex
import VaultSearch.Crud.LockSafety
import VaultSearch.Store.Progress

set_option autoImplicit false

namespace VaultSearch

namespace Locking

variable {Path Name Thread Process : Type}

/-! ### Waiting -/

/-- A call waits for a lock that another call has. -/
def Stuck [DecidableEq Thread] (locks : Locks Path Name Thread Process) (thread : Thread) : Prop :=
  match (locks.caller thread).control with
  | .acquiring _ lock _ => tryAcquire locks thread lock = none
  | .polling _ file _ => tryFlock locks file = none
  | _ => False

/-- For which lock a call waits, in the order in which locks are taken. -/
def Control.awaited [LinearOrder Path] : Control Path → WithBot (Path ×ₗ Nat)
  | .acquiring path _ _ => (toLex (path, 0) : Path ×ₗ Nat)
  | .polling path _ _ => (toLex (path, 1) : Path ×ₗ Nat)
  | _ => ⊥

def Control.work : Control Path → Nat
  | .idle => 0
  | .leaving => 1
  | .inside => 2
  | .entering todo => 3 + 8 * todo.length
  | .acquiring _ _ todo => 10 + 8 * todo.length
  | .opening _ todo => 8 + 8 * todo.length
  | .polling _ _ todo => 6 + 8 * todo.length

/-- How many moves a call has left at most. -/
def Caller.work (caller : Caller Path) : Nat :=
  caller.control.work + caller.cleanups.length

/-- A move of a call that was made before, which neither runs out of time nor fails. -/
def Move.goesOn : Move Path → Bool
  | .call _ | .fail => false
  | _ => true

def Event.goesOn : Event Path Name Thread Process → Bool
  | .thread _ made => made.goesOn
  | _ => false

section Work

variable [DecidableEq Thread] {setting : Setting Path Name Thread Process}
  {locks : Locks Path Name Thread Process} {thread : Thread}

/-- What the calls have left to do together. -/
def totalWork (locks : Locks Path Name Thread Process) : Nat :=
  ∑ thread ∈ locks.callers.toFinset, (locks.caller thread).work

theorem totalWork_put {later : Locks Path Name Thread Process} {caller : Caller Path}
    (listed : thread ∈ locks.callers) (sameCalls : later.caller = locks.caller)
    (sameCallers : later.callers = locks.callers)
    (less : caller.work < (locks.caller thread).work) :
    totalWork (later.put thread caller) < totalWork locks := by
  have callers : (later.put thread caller).callers = locks.callers := by
    change later.callers.insert thread = locks.callers
    rw [sameCallers]
    exact List.insert_of_mem listed
  unfold totalWork
  rw [callers]
  apply Finset.sum_lt_sum
  · intro other _member
    by_cases same : other = thread
    · rw [same, put_caller_self]
      exact Nat.le_of_lt less
    · rw [put_caller_other _ _ same, sameCalls]
  · refine ⟨thread, List.mem_toFinset.mpr listed, ?_⟩
    rw [put_caller_self]
    exact less

/-- The names of the locks tell the paths of the present calls apart. -/
def NamesApart (setting : Setting Path Name Thread Process)
    (locks : Locks Path Name Thread Process) : Prop :=
  ∀ first second, ∀ path ∈ (locks.caller first).paths, ∀ other ∈ (locks.caller second).paths,
    setting.lockName path = setting.lockName other → path = other

theorem NamesApart.put {later : Locks Path Name Thread Process} {caller : Caller Path}
    (apart : NamesApart setting locks) (sameCalls : later.caller = locks.caller)
    (samePaths : caller.paths = (locks.caller thread).paths) :
    NamesApart setting (later.put thread caller) := by
  have same : ∀ other, ((later.put thread caller).caller other).paths =
      (locks.caller other).paths := by
    apply put_forall (fun other call => call.paths = (locks.caller other).paths) samePaths
    intro other _another
    rw [sameCalls]
  intro first second
  rw [same, same]
  exact apart first second

end Work

section Waiting

variable [LinearOrder Path] [DecidableEq Thread] {setting : Setting Path Name Thread Process}
  {locks : Locks Path Name Thread Process} {thread : Thread}

/-- A call that has the lock of a path waits for the lock of a later path, or for the file of this
one. -/
theorem awaited_of_released {caller : Caller Path} (placed : Placed caller) {path : Path}
    {lock : Nat} (held : (path, lock) ∈ released caller.cleanups) {awaited : Path ×ₗ Nat}
    (waits : caller.control.awaited = awaited) : toLex (path, 0) < awaited := by
  have fits := placed.fits
  have frames := placed.frames
  cases control : caller.control with
  | idle | entering todo | opening later todo | inside | leaving =>
      rw [control] at waits
      exact absurd waits.symm (WithBot.coe_ne_bot)
  | acquiring later other todo =>
      rw [control] at waits fits
      rw [← WithBot.coe_inj.mp waits, Prod.Lex.toLex_lt_toLex]
      exact Or.inl (fits.2 (path, lock) held)
  | polling later file todo =>
      rw [control] at waits fits
      obtain ⟨_ascending, other, older, shape⟩ := fits
      rw [shape] at held frames
      rw [← WithBot.coe_inj.mp waits, Prod.Lex.toLex_lt_toLex]
      rw [released_close, released_release] at held
      rcases List.mem_cons.mp held with same | earlier
      · right
        exact ⟨(Prod.mk.inj same).1, Nat.zero_lt_one⟩
      · cases frames.older with
        | release _before above => exact Or.inl (above (path, lock) earlier)

/-- A call that has locked the file of a path waits for the lock of a later path. -/
theorem awaited_of_locked {caller : Caller Path} (placed : Placed caller) {path : Path}
    {file : Descriptor} (held : (path, file) ∈ locked caller.cleanups) {awaited : Path ×ₗ Nat}
    (waits : caller.control.awaited = awaited) : toLex (path, 1) < awaited := by
  have fits := placed.fits
  have frames := placed.frames
  cases control : caller.control with
  | idle | entering todo | opening later todo | inside | leaving =>
      rw [control] at waits
      exact absurd waits.symm (WithBot.coe_ne_bot)
  | acquiring later other todo =>
      rw [control] at waits fits
      obtain ⟨lock, isHeld⟩ := (frames.open_of_locked held).2
      rw [← WithBot.coe_inj.mp waits, Prod.Lex.toLex_lt_toLex]
      exact Or.inl (fits.2 (path, lock) isHeld)
  | polling later other todo =>
      rw [control] at waits fits
      obtain ⟨_ascending, lock, older, shape⟩ := fits
      rw [shape] at held frames
      rw [← WithBot.coe_inj.mp waits, Prod.Lex.toLex_lt_toLex]
      rw [locked_close, locked_release] at held
      cases frames.older with
      | release before above =>
          obtain ⟨earlier, isHeld⟩ := (before.open_of_locked held).2
          exact Or.inl (above (path, earlier) isHeld)

/-- A call that waits waits for one that is under way, and waits for a later lock if at all. -/
theorem waits_for_later (sound : Sound setting locks) (apart : NamesApart setting locks)
    (stuck : Stuck locks thread) : ∃ other, (locks.caller other).control ≠ .idle ∧
      (Stuck locks other →
        (locks.caller thread).control.awaited < (locks.caller other).control.awaited) := by
  have ahead : ∀ other, Stuck locks other →
      ∃ awaited, (locks.caller other).control.awaited = some awaited := by
    intro other alsoStuck
    unfold Stuck at alsoStuck
    cases control : (locks.caller other).control with
    | acquiring path lock todo => exact ⟨_, rfl⟩
    | polling path file todo => exact ⟨_, rfl⟩
    | idle | entering todo | opening path todo | inside | leaving =>
        rw [control] at alsoStuck
        exact absurd alsoStuck not_false
  have busy : ∀ other, (locks.caller other).cleanups ≠ [] →
      (locks.caller other).control ≠ .idle := by
    intro other some isIdle
    have fits := (sound.placed other).fits
    rw [isIdle] at fits
    exact some fits
  have own := (sound.placed thread).before
  unfold Stuck at stuck
  cases control : (locks.caller thread).control with
  | idle | entering todo | opening path todo | inside | leaving =>
      rw [control] at stuck
      exact absurd stuck not_false
  | acquiring path lock todo =>
      rw [control] at stuck own
      obtain ⟨owner, count, isOwner, another⟩ := tryAcquire_none stuck
      obtain ⟨held, isHeld⟩ := sound.owned.release_pending isOwner
      have known := sound.registered.known thread path lock (Or.inl ⟨todo, control⟩)
      have alsoKnown := sound.registered.known owner held lock (Or.inr isHeld)
      have sameName := (sound.registered.distinct _ _ _ _ _ known alsoKnown).2
      have same : path = held := apart thread owner path (own _ rfl path List.mem_cons_self) held
        ((sound.placed owner).behind _ isHeld) sameName
      refine ⟨owner, ?_, ?_⟩
      · apply busy
        intro empty
        rw [empty] at isHeld
        cases isHeld
      · intro alsoStuck
        obtain ⟨awaited, waits⟩ := ahead owner alsoStuck
        rw [waits, same]
        exact WithBot.coe_lt_coe.mpr (awaited_of_released (sound.placed owner) isHeld waits)
  | polling path file todo =>
      rw [control] at stuck own
      have fits := (sound.placed thread).fits
      rw [control] at fits
      obtain ⟨_ascending, lock, older, shape⟩ := fits
      change tryFlock locks file = none at stuck
      unfold tryFlock at stuck
      cases taken : locks.flocks file.inode with
      | none =>
          rw [taken] at stuck
          cases stuck
      | some another =>
          obtain ⟨sameInode, owner, held, isHeld⟩ := (sound.flocked _ _).mp taken
          have isOpen := (sound.placed owner).frames.open_of_locked isHeld
          have isFile := sound.filed.present thread (path, file) (by
            rw [shape]
            exact List.mem_cons_self)
          have alsoFile := sound.filed.present owner _ isOpen.1
          rw [sameInode] at alsoFile
          obtain ⟨_lock, isReleased⟩ := isOpen.2
          have same : path = held := apart thread owner path (own _ rfl path List.mem_cons_self)
            held ((sound.placed owner).behind _ isReleased)
            (sound.filed.distinct _ _ _ isFile alsoFile)
          refine ⟨owner, ?_, ?_⟩
          · apply busy
            intro empty
            rw [empty] at isHeld
            cases isHeld
          · intro alsoStuck
            obtain ⟨awaited, waits⟩ := ahead owner alsoStuck
            rw [waits, same]
            exact WithBot.coe_lt_coe.mpr (awaited_of_locked (sound.placed owner) isHeld waits)

/-! ### Going on -/

/-- A call that is not stuck can make a move that is not its last resort. -/
theorem goes_on [DecidableEq Name] [DecidableEq Process]
    (busy : (locks.caller thread).control ≠ .idle) (free : ¬ Stuck locks thread) :
    ∃ made : Move Path, ∃ later : Locks Path Name Thread Process, ∃ caller : Caller Path,
      made.goesOn = true ∧ move setting locks thread made = some (later.put thread caller) ∧
        later.caller = locks.caller ∧ later.callers = locks.callers ∧
        caller.paths = (locks.caller thread).paths ∧
        caller.work < (locks.caller thread).work := by
  cases control : (locks.caller thread).control with
  | idle => exact absurd control busy
  | entering todo =>
      cases todo with
      | nil =>
          refine ⟨.enter, locks, { locks.caller thread with control := .inside }, rfl, ?_, rfl, rfl,
            rfl, ?_⟩
          · unfold move
            dsimp only
            rw [control]
          · unfold Caller.work
            rw [control]
            simp [Control.work]
      | cons path todo =>
          by_cases inVault : setting.inVault path = true
          · refine ⟨.lookup, (threadLock locks (setting.home thread) (setting.lockName path)).2,
              { locks.caller thread with
                control := .acquiring path
                  (threadLock locks (setting.home thread) (setting.lockName path)).1 todo },
              rfl, ?_, ?_, ?_, rfl, ?_⟩
            · unfold move
              dsimp only
              rw [control]
              dsimp only
              rw [if_pos inVault]
            · exact (threadLock_calls locks _ _).1
            · exact (threadLock_calls locks _ _).2
            · unfold Caller.work
              rw [control]
              simp only [Control.work, List.length_cons]
              omega
          · refine ⟨.lookup, locks, { locks.caller thread with control := .leaving }, rfl, ?_, rfl,
              rfl, rfl, ?_⟩
            · unfold move
              dsimp only
              rw [control]
              dsimp only
              rw [if_neg inVault]
            · unfold Caller.work
              rw [control]
              simp only [Control.work]
              omega
  | acquiring path lock todo =>
      unfold Stuck at free
      rw [control] at free
      cases taken : tryAcquire locks thread lock with
      | none => exact absurd taken free
      | some acquired =>
          obtain ⟨same, _excluded⟩ := tryAcquire_some taken
          refine ⟨.acquire, acquired,
            { locks.caller thread with
              control := if setting.hasFcntl then .opening path todo else .entering todo
              cleanups := .release path lock :: (locks.caller thread).cleanups },
            rfl, ?_, ?_, ?_, rfl, ?_⟩
          · unfold move
            dsimp only
            rw [control]
            dsimp only
            rw [taken]
            rfl
          · rw [same]
            rfl
          · rw [same]
            rfl
          · unfold Caller.work
            rw [control]
            cases setting.hasFcntl with
            | true =>
                simp only [if_true, Control.work, List.length_cons]
                omega
            | false =>
                simp only [Bool.false_eq_true, if_false, Control.work, List.length_cons]
                omega
  | opening path todo =>
      refine ⟨.openFile, (openLockFile locks (setting.lockName path)).2,
        { locks.caller thread with
          control := .polling path (openLockFile locks (setting.lockName path)).1 todo
          cleanups := .close path (openLockFile locks (setting.lockName path)).1 ::
            (locks.caller thread).cleanups }, rfl, ?_, ?_, ?_, rfl, ?_⟩
      · unfold move
        dsimp only
        rw [control]
      · exact (openLockFile_calls locks _).1
      · exact (openLockFile_calls locks _).2
      · unfold Caller.work
        rw [control]
        simp only [Control.work, List.length_cons]
        omega
  | polling path file todo =>
      unfold Stuck at free
      rw [control] at free
      cases taken : locks.flocks file.inode with
      | some another =>
          apply absurd _ free
          change tryFlock locks file = none
          unfold tryFlock
          rw [taken]
      | none =>
          refine ⟨.poll, locks.setFlock file.inode (some file),
            { locks.caller thread with
              control := .entering todo
              cleanups := .unlock path file :: (locks.caller thread).cleanups }, rfl, ?_, rfl, rfl,
            rfl, ?_⟩
          · unfold move
            dsimp only
            rw [control]
            dsimp only
            unfold tryFlock
            rw [taken]
            rfl
          · unfold Caller.work
            rw [control]
            simp only [Control.work, List.length_cons]
            omega
  | inside =>
      refine ⟨.finish, locks, { locks.caller thread with control := .leaving }, rfl, ?_, rfl, rfl,
        rfl, ?_⟩
      · unfold move
        dsimp only
        rw [control]
      · unfold Caller.work
        rw [control]
        simp [Control.work]
  | leaving =>
      cases pending : (locks.caller thread).cleanups with
      | nil =>
          refine ⟨.cleanUp, locks, { locks.caller thread with control := .idle }, rfl, ?_, rfl, rfl,
            rfl, ?_⟩
          · unfold move
            dsimp only
            rw [control, pending]
          · unfold Caller.work
            rw [control]
            simp [Control.work]
      | cons cleanup older =>
          refine ⟨.cleanUp, undo locks cleanup, { locks.caller thread with cleanups := older }, rfl,
            ?_, ?_, ?_, rfl, ?_⟩
          · unfold move
            dsimp only
            rw [control, pending]
          · exact (undo_calls locks cleanup).1
          · exact (undo_calls locks cleanup).2
          · unfold Caller.work
            rw [control, pending, List.length_cons]
            exact Nat.lt_succ_self _

/-- As long as a call is under way, one of them can go on. -/
theorem advances [DecidableEq Name] [DecidableEq Process] (sound : Sound setting locks)
    (apart : NamesApart setting locks) (busy : 0 < totalWork locks) :
    ∃ next after, Event.goesOn next = true ∧ step setting locks next = some after ∧
      (Sound setting after ∧ NamesApart setting after) ∧ totalWork after < totalWork locks := by
  classical
  have listed : ∀ other, (locks.caller other).control ≠ .idle → other ∈ locks.callers := by
    intro other isBusy
    by_contra unlisted
    rw [sound.listed other unlisted] at isBusy
    exact isBusy rfl
  have some : (locks.callers.toFinset.filter
      (fun other => (locks.caller other).control ≠ .idle)).Nonempty := by
    by_contra none
    rw [Finset.not_nonempty_iff_eq_empty, Finset.filter_eq_empty_iff] at none
    apply absurd busy
    rw [Nat.not_lt, Nat.le_zero]
    apply Finset.sum_eq_zero
    intro other member
    have isIdle := not_not.mp (none member)
    have fits := (sound.placed other).fits
    rw [isIdle] at fits
    unfold Caller.work
    rw [isIdle, show (locks.caller other).cleanups = [] from fits]
    rfl
  obtain ⟨free, member, isFree⟩ := Progress.exists_free
    (fun other => (locks.caller other).control.awaited) some (by
      intro waiting _member stuck
      obtain ⟨other, isBusy, later⟩ := waits_for_later sound apart stuck
      exact ⟨other, Finset.mem_filter.mpr
        ⟨List.mem_toFinset.mpr (listed other isBusy), isBusy⟩, later⟩)
  obtain ⟨isCaller, isBusy⟩ := Finset.mem_filter.mp member
  obtain ⟨made, later, caller, goesOn, moved, sameCalls, sameCallers, samePaths, less⟩ :=
    @goes_on _ _ _ _ _ _ setting locks free _ _ isBusy isFree
  exact ⟨.thread free made, _, goesOn, moved,
    ⟨move_sound sound moved, apart.put sameCalls samePaths⟩,
    totalWork_put (List.mem_toFinset.mp isCaller) sameCalls sameCallers less⟩

/-- From every state that a run reaches in which nobody removes a lock file that is open, and in
which the names of the locks tell the paths of the calls apart, all calls can come to their ends
without another call, a deadline or an error, and then every lock is free. -/
theorem advisoryPathLocks_drain [DecidableEq Name] [DecidableEq Process]
    (setting : Setting Path Name Thread Process)
    (events : List (Event Path Name Thread Process)) (final : Locks Path Name Thread Process)
    (kept : Transitions.Each (step setting) (KeepsLockFiles setting)
      (Locks.initial Path Name Thread Process) events)
    (ran : Transitions.run (step setting) (Locks.initial Path Name Thread Process) events =
      some final)
    (apart : NamesApart setting final) :
    ∃ later drained, (∀ next ∈ later, Event.goesOn next = true) ∧
      Transitions.run (step setting) final later = some drained ∧
      (∀ thread, (drained.caller thread).control = .idle) ∧
      (∀ lock, drained.owner lock = none) ∧ ∀ inode, drained.flocks inode = none := by
  obtain ⟨later, drained, goesOn, drains, holds, done⟩ := Progress.drains totalWork
    (fun current holds busy => advances holds.1 holds.2 busy) (And.intro (run_sound kept ran) apart)
  have idle : ∀ thread, (drained.caller thread).control = .idle := by
    intro thread
    by_cases isCaller : thread ∈ drained.callers
    · have none := (Finset.sum_eq_zero_iff.mp done) thread (List.mem_toFinset.mpr isCaller)
      unfold Caller.work at none
      cases control : (drained.caller thread).control with
      | idle => rfl
      | entering todo | acquiring path lock todo | opening path todo | polling path file todo
      | inside | leaving =>
          rw [control] at none
          simp [Control.work] at none
    · rw [holds.1.listed thread isCaller]
      rfl
  exact ⟨later, drained, goesOn, drains, idle, holds.1.exclusive.free idle⟩

/-- A call that polls the file of another process, and the call of that process after it. -/
theorem advisoryPathLocks_drain_contended :
    ∃ final, Transitions.run (step contendedSetting) (Locks.initial Nat Nat Nat Nat)
        contendedEvents = some final ∧
      ∃ later drained, (∀ next ∈ later, Event.goesOn next = true) ∧
        Transitions.run (step contendedSetting) final later = some drained ∧
        (∀ thread, (drained.caller thread).control = .idle) ∧
        (∀ lock, drained.owner lock = none) ∧ ∀ inode, drained.flocks inode = none := by
  have ran : (Transitions.run (step contendedSetting) (Locks.initial Nat Nat Nat Nat)
      contendedEvents).isSome = true := by decide
  obtain ⟨final, isFinal⟩ := Option.isSome_iff_exists.mp ran
  refine ⟨final, isFinal, advisoryPathLocks_drain contendedSetting contendedEvents final
    (by decide) isFinal ?_⟩
  intro first second path _member other _isOther same
  exact same

end Waiting

end Locking

end VaultSearch
