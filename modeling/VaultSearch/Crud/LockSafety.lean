/-
That nobody shares a lock: what every run of the writing operations keeps.

As long as nobody removes a lock file that is open, at most one thread has the lock of a path,
whatever the threads do, wherever deadlines pass and whatever fails.  A thread that is inside has
the locks of all its paths, and one that has left has none.
-/

import Mathlib.Data.List.Dedup
import VaultSearch.Crud.LockRecords

set_option autoImplicit false

namespace VaultSearch

namespace Locking

variable {Path Name Thread Process : Type} {setting : Setting Path Name Thread Process}

theorem refersTo_of_references {caller : Caller Path} {path : Path} {lock : Nat}
    (reference : References caller path lock) : caller.refersTo lock = true := by
  unfold Caller.refersTo
  rw [Bool.or_eq_true]
  rcases reference with ⟨todo, isAcquiring⟩ | member
  · left
    rw [isAcquiring]
    exact decide_eq_true rfl
  · right
    obtain ⟨cleanup, isCleanup, same⟩ := List.mem_filterMap.mp member
    rw [List.any_eq_true]
    refine ⟨cleanup, isCleanup, ?_⟩
    cases cleanup with
    | release other held =>
        rw [(Prod.mk.inj (Option.some.inj same)).2]
        exact decide_eq_true rfl
    | close other file => cases same
    | unlock other file => cases same

section Moves

variable [LinearOrder Path] [DecidableEq Thread] {locks : Locks Path Name Thread Process}
  {thread : Thread}

theorem sound_threadLock [DecidableEq Name] [DecidableEq Process] (sound : Sound setting locks)
    (process : Process) (name : Name) :
    Sound setting (threadLock locks process name).2 ∧
      (threadLock locks process name).2.registry process name =
        some (threadLock locks process name).1 ∧
      (threadLock locks process name).2.caller = locks.caller := by
  unfold threadLock
  cases found : locks.registry process name with
  | some lock => exact ⟨sound, found, rfl⟩
  | none =>
      have kept : ∀ other another lock, locks.registry other another = some lock →
          Function.update locks.registry process
            (Function.update (locks.registry process) name (some locks.next)) other another =
              some lock := by
        intro other another lock isLock
        by_cases sameProcess : other = process
        · subst sameProcess
          rw [Function.update_self, Function.update_of_ne]
          · exact isLock
          · intro sameName
            rw [sameName, found] at isLock
            cases isLock
        · rw [Function.update_of_ne sameProcess]
          exact isLock
      have entries : ∀ other another lock, Function.update locks.registry process
          (Function.update (locks.registry process) name (some locks.next)) other another =
            some lock →
          (other = process ∧ another = name ∧ lock = locks.next) ∨
            locks.registry other another = some lock := by
        intro other another lock isLock
        by_cases sameProcess : other = process
        · subst sameProcess
          rw [Function.update_self] at isLock
          by_cases sameName : another = name
          · rw [sameName, Function.update_self] at isLock
            exact Or.inl ⟨rfl, sameName, (Option.some.inj isLock).symm⟩
          · rw [Function.update_of_ne sameName] at isLock
            exact Or.inr isLock
        · rw [Function.update_of_ne sameProcess] at isLock
          exact Or.inr isLock
      refine ⟨?_, ?_, rfl⟩
      · constructor
        · constructor
          · intro other path lock reference
            exact kept _ _ _ (sound.registered.known other path lock reference)
          · intro first second name another lock isFirst isSecond
            have old := sound.registered.old
            rcases entries _ _ _ isFirst with new | known
            · rcases entries _ _ _ isSecond with alsoNew | alsoKnown
              · exact ⟨new.1.trans alsoNew.1.symm, new.2.1.trans alsoNew.2.1.symm⟩
              · have less := old _ _ _ alsoKnown
                omega
            · rcases entries _ _ _ isSecond with alsoNew | alsoKnown
              · have less := old _ _ _ known
                omega
              · exact sound.registered.distinct _ _ _ _ _ known alsoKnown
          · intro other another lock isLock
            rcases entries _ _ _ isLock with new | known
            · rw [new.2.2]
              exact Nat.lt_succ_self _
            · exact Nat.lt_succ_of_lt (sound.registered.old _ _ _ known)
        · exact ⟨sound.owned.counted, sound.owned.positive⟩
        · constructor
          · exact sound.filed.present
          · exact sound.filed.distinct
          · exact fun other inode isFile => Nat.lt_succ_of_lt (sound.filed.oldFiles _ _ isFile)
          · exact sound.filed.numbers
          · exact fun other entry member =>
              Nat.lt_succ_of_lt (sound.filed.oldNumbers other entry member)
        · exact sound.flocked
        · exact sound.placed
        · exact sound.covered
        · exact sound.listed
      · dsimp only
        rw [Function.update_self, Function.update_self]

theorem sound_openLockFile [DecidableEq Name] (sound : Sound setting locks) (name : Name) :
    Sound setting (openLockFile locks name).2 ∧
      (openLockFile locks name).2.files name = some (openLockFile locks name).1.inode ∧
      (openLockFile locks name).2.caller = locks.caller ∧
      (openLockFile locks name).1.number = locks.next ∧
      (openLockFile locks name).2.next = locks.next + 1 := by
  have older : ∀ other, ∀ entry ∈ opened (locks.caller other).cleanups,
      entry.2.number < locks.next + 1 :=
    fun other entry member => Nat.lt_succ_of_lt (sound.filed.oldNumbers other entry member)
  have registered : ∀ process another lock, locks.registry process another = some lock →
      lock < locks.next + 1 :=
    fun process another lock isLock => Nat.lt_succ_of_lt (sound.registered.old _ _ _ isLock)
  unfold openLockFile
  cases found : locks.files name with
  | some inode =>
      refine ⟨?_, found, rfl, rfl, rfl⟩
      constructor
      · exact ⟨sound.registered.known, sound.registered.distinct, registered⟩
      · exact ⟨sound.owned.counted, sound.owned.positive⟩
      · constructor
        · exact sound.filed.present
        · exact sound.filed.distinct
        · exact fun other inode isFile => Nat.lt_succ_of_lt (sound.filed.oldFiles _ _ isFile)
        · exact sound.filed.numbers
        · exact older
      · exact sound.flocked
      · exact sound.placed
      · exact sound.covered
      · exact sound.listed
  | none =>
      have entries : ∀ another inode, Function.update locks.files name (some locks.next) another =
          some inode → (another = name ∧ inode = locks.next) ∨
            (another ≠ name ∧ locks.files another = some inode) := by
        intro another inode isFile
        by_cases same : another = name
        · rw [same, Function.update_self] at isFile
          exact Or.inl ⟨same, (Option.some.inj isFile).symm⟩
        · rw [Function.update_of_ne same] at isFile
          exact Or.inr ⟨same, isFile⟩
      refine ⟨?_, Function.update_self .., rfl, rfl, rfl⟩
      constructor
      · exact ⟨sound.registered.known, sound.registered.distinct, registered⟩
      · exact ⟨sound.owned.counted, sound.owned.positive⟩
      · constructor
        · intro other entry member
          have isFile := sound.filed.present other entry member
          dsimp only
          rw [Function.update_of_ne]
          · exact isFile
          · intro same
            rw [same, found] at isFile
            cases isFile
        · intro first second inode isFirst isSecond
          have old := sound.filed.oldFiles
          rcases entries _ _ isFirst with new | known
          · rcases entries _ _ isSecond with alsoNew | alsoKnown
            · exact new.1.trans alsoNew.1.symm
            · have less := old _ _ alsoKnown.2
              omega
          · rcases entries _ _ isSecond with alsoNew | alsoKnown
            · have less := old _ _ known.2
              omega
            · exact sound.filed.distinct _ _ _ known.2 alsoKnown.2
        · intro another inode isFile
          rcases entries _ _ isFile with new | known
          · rw [new.2]
            exact Nat.lt_succ_self _
          · exact Nat.lt_succ_of_lt (sound.filed.oldFiles _ _ known.2)
        · exact sound.filed.numbers
        · exact older
      · exact sound.flocked
      · exact sound.placed
      · exact sound.covered
      · exact sound.listed

theorem sound_acquire (sound : Sound setting locks) {path : Path} {lock : Nat} {todo : List Path}
    (waits : (locks.caller thread).control = .acquiring path lock todo)
    {acquired : Locks Path Name Thread Process}
    (taken : tryAcquire locks thread lock = some acquired) :
    Sound setting (acquired.put thread
      { locks.caller thread with
        control := if setting.hasFcntl then .opening path todo else .entering todo
        cleanups := .release path lock :: (locks.caller thread).cleanups }) := by
  obtain ⟨isAcquired, excluded⟩ := tryAcquire_some taken
  have fits := (sound.placed thread).fits
  rw [waits] at fits
  obtain ⟨ascending, below⟩ := fits
  have own := (sound.placed thread).before (path :: todo) (by rw [waits]; rfl)
  have covered := sound.covered thread (path :: todo) (by rw [waits]; rfl)
  rw [isAcquired]
  constructor
  · apply (sound.registered.setOwner lock _).put
    intro other held reference
    apply sound.registered.known thread
    rcases reference with ⟨later, isAcquiring⟩ | member
    · cases shared : setting.hasFcntl with
      | false => simp [shared] at isAcquiring
      | true => simp [shared] at isAcquiring
    · rcases List.mem_cons.mp member with same | older
      · left
        rw [(Prod.mk.inj same).1, (Prod.mk.inj same).2]
        exact ⟨todo, waits⟩
      · exact Or.inr older
  · exact owned_acquire sound.owned rfl excluded
  · exact (sound.filed.setOwner lock _).put (List.Subset.refl _)
  · exact (sound.flocked.setOwner lock _).put rfl
  · apply put_forall (fun _mover => Placed)
    · constructor
      · exact Frames.release (sound.placed thread).frames below
      · cases shared : setting.hasFcntl with
        | true => exact ⟨ascending, lock, _, rfl⟩
        | false =>
            refine ⟨ascending.of_cons, ?_⟩
            intro next isNext entry member
            have less : path < next := List.rel_of_pairwise_cons ascending isNext
            rcases List.mem_cons.mp member with same | older
            · rw [same]
              exact less
            · exact (below entry older).trans less
      · intro entry member
        rcases List.mem_cons.mp member with same | older
        · rw [same]
          exact own path List.mem_cons_self
        · exact (sound.placed thread).behind entry older
      · intro later isAhead other member
        cases shared : setting.hasFcntl with
        | true =>
            rw [shared] at isAhead
            rw [← Option.some.inj isAhead] at member
            exact own other member
        | false =>
            rw [shared] at isAhead
            rw [← Option.some.inj isAhead] at member
            exact own other (List.mem_cons_of_mem _ member)
    · exact fun mover _another => sound.placed mover
  · apply put_forall (fun _mover => Covered setting)
    · intro later isAhead other member
      have kept : Holds setting (locks.caller thread) other → Holds setting
          { locks.caller thread with
            control := if setting.hasFcntl then .opening path todo else .entering todo
            cleanups := .release path lock :: (locks.caller thread).cleanups } other :=
        fun holds => holds.mono (List.Subset.refl _) (List.subset_cons_self _ _)
      cases shared : setting.hasFcntl with
      | true =>
          rw [shared] at isAhead kept
          rw [← Option.some.inj isAhead]
          exact (covered other member).imp_right kept
      | false =>
          rw [shared] at isAhead kept
          rw [← Option.some.inj isAhead]
          rcases covered other member with isTodo | holds
          · rcases List.mem_cons.mp isTodo with same | later
            · right
              unfold Holds
              rw [if_neg (by rw [shared]; exact Bool.false_ne_true), same]
              exact ⟨lock, List.mem_cons_self⟩
            · exact Or.inl later
          · exact Or.inr (kept holds)
    · exact fun mover _another => sound.covered mover
  · exact listed_put sound.listed

theorem sound_openFile [DecidableEq Name] (sound : Sound setting locks) {path : Path}
    {todo : List Path} (opens : (locks.caller thread).control = .opening path todo) :
    Sound setting ((openLockFile locks (setting.lockName path)).2.put thread
      { locks.caller thread with
        control := .polling path (openLockFile locks (setting.lockName path)).1 todo
        cleanups := .close path (openLockFile locks (setting.lockName path)).1 ::
          (locks.caller thread).cleanups }) := by
  obtain ⟨later, isFile, sameCalls, number, next⟩ :=
    sound_openLockFile sound (setting.lockName path)
  generalize (openLockFile locks (setting.lockName path)).1 = file at isFile number
  generalize (openLockFile locks (setting.lockName path)).2 = after at later isFile sameCalls next
  have fits := (sound.placed thread).fits
  rw [opens] at fits
  obtain ⟨ascending, lock, older, isOpening⟩ := fits
  have own := (sound.placed thread).before (path :: todo) (by rw [opens]; rfl)
  have covered := sound.covered thread (path :: todo) (by rw [opens]; rfl)
  have newest : ∀ other, ∀ entry ∈ opened (after.caller other).cleanups,
      entry.2.number < file.number := by
    intro other entry member
    rw [sameCalls] at member
    rw [number]
    exact sound.filed.oldNumbers other entry member
  rw [← sameCalls] at isOpening own covered ⊢
  constructor
  · apply later.registered.put
    intro other held reference
    apply later.registered.known thread
    rcases reference with ⟨remaining, isAcquiring⟩ | member
    · cases isAcquiring
    · exact Or.inr member
  · exact later.owned.put rfl
  · exact filed_open later.filed isFile newest (by omega) rfl
  · exact later.flocked.put rfl
  · apply put_forall (fun _mover => Placed)
    · have frames := (later.placed thread).frames
      rw [isOpening] at frames
      constructor
      · rw [isOpening]
        apply frames.close
        intro entry member
        apply Nat.ne_of_lt
        apply newest thread entry
        rw [isOpening]
        exact member
      · exact ⟨ascending, lock, older, by rw [isOpening]⟩
      · exact (later.placed thread).behind
      · intro remaining isAhead other member
        rw [← Option.some.inj isAhead] at member
        exact own other member
    · exact fun mover _another => later.placed mover
  · apply put_forall (fun _mover => Covered setting)
    · intro remaining isAhead other member
      rw [← Option.some.inj isAhead]
      apply (covered other member).imp_right
      exact fun holds => holds.mono (List.Subset.refl _) (List.Subset.refl _)
    · exact fun mover _another => later.covered mover
  · exact listed_put later.listed

theorem sound_poll (sound : Sound setting locks) {path : Path} {file : Descriptor}
    {todo : List Path} (polls : (locks.caller thread).control = .polling path file todo)
    (free : locks.flocks file.inode = none) :
    Sound setting ((locks.setFlock file.inode (some file)).put thread
      { locks.caller thread with
        control := .entering todo
        cleanups := .unlock path file :: (locks.caller thread).cleanups }) := by
  have fits := (sound.placed thread).fits
  have frames := (sound.placed thread).frames
  rw [polls] at fits
  obtain ⟨ascending, lock, older, isPolling⟩ := fits
  have own := (sound.placed thread).before (path :: todo) (by rw [polls]; rfl)
  have covered := sound.covered thread (path :: todo) (by rw [polls]; rfl)
  have below : ∀ entry ∈ released older, entry.1 < path := by
    rw [isPolling] at frames
    cases frames.older with
    | release _before above => exact above
  constructor
  · apply (sound.registered.setFlock _ _).put
    intro other held reference
    apply sound.registered.known thread
    rcases reference with ⟨later, isAcquiring⟩ | member
    · cases isAcquiring
    · exact Or.inr member
  · exact (sound.owned.setFlock _ _).put rfl
  · exact (sound.filed.setFlock _ _).put (List.Subset.refl _)
  · intro inode other
    change Function.update locks.flocks file.inode (some file) inode = some other ↔ _
    have members : ∀ mover entry, entry ∈ locked (((locks.setFlock file.inode (some file)).put thread
        { locks.caller thread with
          control := .entering todo
          cleanups := .unlock path file :: (locks.caller thread).cleanups }).caller mover).cleanups ↔
        (mover = thread ∧ entry = (path, file)) ∨
          entry ∈ locked (locks.caller mover).cleanups := by
      apply put_forall (fun mover call => ∀ entry, entry ∈ locked call.cleanups ↔
        (mover = thread ∧ entry = (path, file)) ∨ entry ∈ locked (locks.caller mover).cleanups)
      · intro entry
        rw [locked_unlock, List.mem_cons, and_iff_right rfl]
      · intro mover another entry
        rw [or_iff_right (fun same => another same.1)]
        rfl
    simp only [members]
    by_cases same : inode = file.inode
    · rw [same, Function.update_self]
      constructor
      · intro isFile
        rw [Option.some.inj isFile]
        exact ⟨rfl, thread, path, Or.inl ⟨rfl, rfl⟩⟩
      · rintro ⟨sameInode, mover, own, new | older⟩
        · rw [(Prod.mk.inj new.2).2]
        · have taken := (sound.flocked file.inode other).mpr ⟨sameInode, mover, own, older⟩
          rw [free] at taken
          cases taken
    · rw [Function.update_of_ne same, sound.flocked inode other]
      apply and_congr_right
      intro sameInode
      apply exists_congr
      intro mover
      apply exists_congr
      intro own
      rw [or_iff_right]
      intro new
      apply same
      rw [← sameInode, (Prod.mk.inj new.2).2]
  · apply put_forall (fun _mover => Placed)
    · constructor
      · rw [isPolling] at frames ⊢
        exact Frames.unlock frames
      · refine ⟨ascending.of_cons, ?_⟩
        intro next isNext entry member
        have less : path < next := List.rel_of_pairwise_cons ascending isNext
        rw [released_unlock, isPolling, released_close, released_release] at member
        rcases List.mem_cons.mp member with same | earlier
        · rw [same]
          exact less
        · exact (below entry earlier).trans less
      · exact (sound.placed thread).behind
      · intro later isAhead other member
        rw [← Option.some.inj isAhead] at member
        exact own other (List.mem_cons_of_mem _ member)
    · exact fun mover _another => sound.placed mover
  · apply put_forall (fun _mover => Covered setting)
    · intro later isAhead other member
      rw [← Option.some.inj isAhead]
      rcases covered other member with isTodo | holds
      · rcases List.mem_cons.mp isTodo with same | remains
        · right
          rw [same]
          unfold Holds
          split
          case isTrue => exact ⟨file, List.mem_cons_self⟩
          case isFalse =>
            refine ⟨lock, ?_⟩
            rw [released_unlock, isPolling]
            exact List.mem_cons_self
        · exact Or.inl remains
      · exact Or.inr (holds.mono (List.subset_cons_self _ _) (List.Subset.refl _))
    · exact fun mover _another => sound.covered mover
  · exact listed_put sound.listed

/-- An open file that is not locked by its own call is not locked. -/
theorem flocks_of_open (sound : Sound setting locks) {path : Path} {file : Descriptor}
    (isOpen : (path, file) ∈ opened (locks.caller thread).cleanups)
    (unlocked : ∀ entry ∈ locked (locks.caller thread).cleanups, entry.2 ≠ file) :
    locks.flocks file.inode ≠ some file := by
  intro taken
  obtain ⟨_same, other, own, member⟩ := (sound.flocked file.inode file).mp taken
  have alsoOpen := ((sound.placed other).frames.open_of_locked member).1
  have same := sound.filed.numbers other thread _ alsoOpen _ isOpen rfl
  rw [same] at member
  exact unlocked _ member rfl

theorem flocked_unlock (sound : Sound setting locks) {path : Path} {file : Descriptor}
    {caller : Caller Path}
    (fewer : (locks.caller thread).cleanups = .unlock path file :: caller.cleanups)
    (another : ∀ entry ∈ locked caller.cleanups, entry.2 ≠ file) :
    Flocked ((locks.setFlock file.inode none).put thread caller) := by
  have held : locks.flocks file.inode = some file := by
    apply (sound.flocked file.inode file).mpr
    refine ⟨rfl, thread, path, ?_⟩
    rw [fewer]
    exact List.mem_cons_self
  have members : ∀ mover entry, entry ∈ locked
      (((locks.setFlock file.inode none).put thread caller).caller mover).cleanups →
        entry ∈ locked (locks.caller mover).cleanups ∧ (mover = thread → entry.2 ≠ file) := by
    apply put_forall (fun mover call => ∀ entry, entry ∈ locked call.cleanups →
      entry ∈ locked (locks.caller mover).cleanups ∧ (mover = thread → entry.2 ≠ file))
    · intro entry member
      rw [fewer]
      exact ⟨List.mem_cons_of_mem _ member, fun _self => another entry member⟩
    · exact fun mover apart entry member => ⟨member, fun same => absurd same apart⟩
  intro inode other
  change Function.update locks.flocks file.inode none inode = some other ↔ _
  by_cases same : inode = file.inode
  · rw [same, Function.update_self]
    apply iff_of_false
    · intro impossible
      cases impossible
    · rintro ⟨sameInode, mover, own, member⟩
      obtain ⟨before, apart⟩ := members mover _ member
      have taken := (sound.flocked file.inode other).mpr ⟨sameInode, mover, own, before⟩
      have sameFile : file = other := Option.some.inj (held.symm.trans taken)
      have isOpen := ((sound.placed mover).frames.open_of_locked before).1
      have ownOpen : (path, file) ∈ opened (locks.caller thread).cleanups := by
        apply ((sound.placed thread).frames.open_of_locked _).1
        rw [fewer]
        exact List.mem_cons_self
      have self := sound.filed.numbers mover thread _ isOpen _ ownOpen (by rw [sameFile])
      exact apart self sameFile.symm
  · rw [Function.update_of_ne same, sound.flocked inode other]
    apply and_congr_right
    intro sameInode
    apply exists_congr
    intro mover
    apply exists_congr
    intro own
    constructor
    · intro member
      by_cases self : mover = thread
      · subst self
        rw [fewer, locked_unlock] at member
        rw [put_caller_self]
        apply (List.mem_cons.mp member).resolve_left
        intro new
        apply same
        rw [← sameInode, (Prod.mk.inj new).2]
      · rw [put_caller_other _ _ self]
        exact member
    · exact fun member => (members mover _ member).1

/-- What is left of a call that leaves has a place, whatever becomes of the locks. -/
theorem sound_leaving (sound : Sound setting locks) (later : Locks Path Name Thread Process)
    {caller : Caller Path} (sameCalls : later.caller = locks.caller)
    (sameCallers : later.callers = locks.callers) (leaves : caller.control = .leaving)
    (frames : Frames caller.cleanups)
    (behind : ∀ entry ∈ released caller.cleanups, entry.1 ∈ caller.paths)
    (registered : Registered setting (later.put thread caller))
    (owned : Owned (later.put thread caller)) (filed : Filed setting (later.put thread caller))
    (flocked : Flocked (later.put thread caller)) : Sound setting (later.put thread caller) := by
  refine ⟨registered, owned, filed, flocked, ?_, ?_, ?_⟩
  · apply put_forall (fun _mover => Placed)
    · constructor
      · exact frames
      · rw [leaves]
        trivial
      · exact behind
      · intro todo isAhead
        rw [leaves] at isAhead
        cases isAhead
    · intro mover _another
      rw [sameCalls]
      exact sound.placed mover
  · apply put_forall (fun _mover => Covered setting)
    · intro todo isAhead
      rw [leaves] at isAhead
      cases isAhead
    · intro mover _another
      rw [sameCalls]
      exact sound.covered mover
  · apply listed_put
    rw [sameCalls, sameCallers]
    exact sound.listed

theorem registered_leaving (sound : Sound setting locks) {caller : Caller Path}
    {cleanup : Cleanup Path} (leaves : caller.control = .leaving)
    (fewer : (locks.caller thread).cleanups = cleanup :: caller.cleanups) (path : Path) (lock : Nat)
    (reference : References caller path lock) :
    locks.registry (setting.home thread) (setting.lockName path) = some lock := by
  apply sound.registered.known thread
  rcases reference with ⟨todo, isAcquiring⟩ | member
  · rw [leaves] at isAcquiring
    cases isAcquiring
  · right
    rw [fewer]
    exact ((List.sublist_cons_self cleanup caller.cleanups).filterMap _).subset member

theorem sound_undo (sound : Sound setting locks) {cleanup : Cleanup Path} {caller : Caller Path}
    (leaves : caller.control = .leaving) (samePaths : caller.paths = (locks.caller thread).paths)
    (fewer : (locks.caller thread).cleanups = cleanup :: caller.cleanups) :
    Sound setting ((undo locks cleanup).put thread caller) := by
  have frames := (sound.placed thread).frames
  rw [fewer] at frames
  have known := registered_leaving sound leaves fewer
  have behind : ∀ entry ∈ released caller.cleanups, entry.1 ∈ caller.paths := by
    intro entry member
    rw [samePaths]
    apply (sound.placed thread).behind entry
    rw [fewer]
    exact ((List.sublist_cons_self cleanup caller.cleanups).filterMap _).subset member
  cases cleanup with
  | release path lock =>
      have isRelease : ∃ owner, releaseLock locks lock = locks.setOwner lock owner := by
        obtain ⟨count, isOwner⟩ := sound.owned.owner_eq (by
          rw [fewer]
          exact List.mem_cons_self)
        unfold releaseLock
        rw [isOwner]
        exact ⟨_, rfl⟩
      have owned := owned_release sound.owned fewer
      obtain ⟨owner, isOwner⟩ := isRelease
      change Sound setting ((releaseLock locks lock).put thread caller)
      rw [isOwner] at owned ⊢
      apply sound_leaving sound (locks.setOwner lock owner) rfl rfl leaves frames.older behind
      · exact (sound.registered.setOwner lock owner).put known
      · exact owned
      · apply (sound.filed.setOwner lock owner).put
        change opened caller.cleanups ⊆ opened (locks.caller thread).cleanups
        rw [fewer]
        exact List.Subset.refl _
      · apply (sound.flocked.setOwner lock owner).put
        change locked caller.cleanups = locked (locks.caller thread).cleanups
        rw [fewer]
        rfl
  | close path file =>
      have another : ∀ entry ∈ locked (locks.caller thread).cleanups, entry.2 ≠ file := by
        rw [fewer]
        intro entry member same
        cases shape : caller.cleanups with
        | nil =>
            rw [shape] at member
            cases member
        | cons next earlier =>
            rw [shape] at member frames
            cases frames with
            | close before another =>
                exact another entry (before.older.open_of_locked member).1 (by rw [same])
      have isOpen : (path, file) ∈ opened (locks.caller thread).cleanups := by
        rw [fewer]
        exact List.mem_cons_self
      have same : undo locks (.close path file) = locks := by
        unfold undo dropFlock
        exact if_neg (flocks_of_open sound isOpen another)
      rw [same]
      apply sound_leaving sound locks rfl rfl leaves frames.older behind
      · exact sound.registered.put known
      · apply sound.owned.put
        rw [fewer]
        rfl
      · apply sound.filed.put
        rw [fewer]
        exact List.subset_cons_self _ _
      · apply sound.flocked.put
        rw [fewer]
        rfl
  | unlock path file =>
      have another : ∀ entry ∈ locked caller.cleanups, entry.2 ≠ file := by
        intro entry member same
        cases shape : caller.cleanups with
        | nil =>
            rw [shape] at member
            cases member
        | cons next earlier =>
            rw [shape] at member frames
            cases frames with
            | unlock before =>
                cases before with
                | close before another =>
                    exact another entry (before.older.open_of_locked member).1 (by rw [same])
      have same : undo locks (.unlock path file) = locks.setFlock file.inode none := by
        unfold undo dropFlock
        apply if_pos
        apply (sound.flocked file.inode file).mpr
        refine ⟨rfl, thread, path, ?_⟩
        rw [fewer]
        exact List.mem_cons_self
      rw [same]
      apply sound_leaving sound (locks.setFlock file.inode none) rfl rfl leaves frames.older behind
      · exact (sound.registered.setFlock _ _).put known
      · apply (sound.owned.setFlock _ _).put
        change released caller.cleanups = released (locks.caller thread).cleanups
        rw [fewer]
        rfl
      · apply (sound.filed.setFlock _ _).put
        change opened caller.cleanups ⊆ opened (locks.caller thread).cleanups
        rw [fewer]
        exact List.Subset.refl _
      · exact flocked_unlock sound fewer another

/-! ### Steps and runs -/

/-- Nobody removes a file that a call has open. -/
def KeepsLockFiles (setting : Setting Path Name Thread Process)
    (locks : Locks Path Name Thread Process) : Event Path Name Thread Process → Prop
  | .remove name => ∀ thread ∈ locks.callers, ∀ entry ∈ opened (locks.caller thread).cleanups,
      setting.lockName entry.1 ≠ name
  | _ => True

theorem pairwise_lockOrder (paths : List Path) : (lockOrder paths).Pairwise (· < ·) := by
  have sorted := List.pairwise_insertionSort (· ≤ ·) paths.dedup
  have distinct : (lockOrder paths).Nodup :=
    (List.perm_insertionSort (· ≤ ·) paths.dedup).nodup_iff.mpr (List.nodup_dedup paths)
  exact (sorted.and distinct).imp (fun both => lt_of_le_of_ne both.1 both.2)

theorem mem_lockOrder (paths : List Path) (path : Path) : path ∈ lockOrder paths ↔ path ∈ paths := by
  unfold lockOrder
  rw [List.mem_insertionSort, List.mem_dedup]

theorem sound_initial : Sound setting (Locks.initial Path Name Thread Process) := by
  constructor
  · constructor
    · intro thread path lock reference
      rcases reference with ⟨todo, isAcquiring⟩ | member
      · cases isAcquiring
      · cases member
    · intro process other name another lock isLock
      cases isLock
    · intro process name lock isLock
      cases isLock
  · constructor
    · intro lock thread
      rfl
    · intro lock thread owned
      cases owned
  · constructor
    · intro thread entry member
      cases member
    · intro name another inode isFile
      cases isFile
    · intro name inode isFile
      cases isFile
    · intro thread other entry member
      cases member
    · intro thread entry member
      cases member
  · intro inode file
    apply iff_of_false
    · intro taken
      cases taken
    · rintro ⟨_same, thread, path, member⟩
      cases member
  · intro thread
    constructor
    · exact Frames.empty
    · rfl
    · intro entry member
      cases member
    · intro todo isAhead
      cases isAhead
  · intro thread todo isAhead
    cases isAhead
  · intro thread _unlisted
    rfl

/-- A call whose control changes where it locks nothing. -/
theorem sound_control (sound : Sound setting locks) (control : Control Path)
    (fits : Fits control (locks.caller thread).cleanups)
    (known : ∀ path lock todo, control = .acquiring path lock todo →
      locks.registry (setting.home thread) (setting.lockName path) = some lock)
    (own : ∀ todo, control.ahead = some todo → ∀ path ∈ todo, path ∈ (locks.caller thread).paths)
    (fewer : ∀ todo, control.ahead = some todo → ∀ path ∈ (locks.caller thread).paths,
      path ∈ todo ∨ Holds setting (locks.caller thread) path) :
    Sound setting (locks.put thread { locks.caller thread with control }) := by
  have same : ({ locks.caller thread with control } : Caller Path).cleanups =
      (locks.caller thread).cleanups := rfl
  apply sound.put same known
  · exact ⟨(sound.placed thread).frames, fits, (sound.placed thread).behind, own⟩
  · intro todo isAhead path member
    apply (fewer todo isAhead path member).imp_right
    exact fun holds => holds.mono (List.Subset.refl _) (List.Subset.refl _)

theorem sound_leave (sound : Sound setting locks) :
    Sound setting (locks.put thread { locks.caller thread with control := .leaving }) := by
  apply sound_control sound
  · trivial
  · intro path lock todo isAcquiring
    cases isAcquiring
  · intro todo isAhead
    cases isAhead
  · intro todo isAhead
    cases isAhead

theorem sound_call (sound : Sound setting locks) (paths : List Path)
    (idle : (locks.caller thread).control = .idle) :
    Sound setting (locks.put thread
      { paths, control := .entering (lockOrder paths), cleanups := [] }) := by
  have none := (sound.placed thread).fits
  rw [idle] at none
  have same : ({ paths, control := .entering (lockOrder paths), cleanups := [] } :
      Caller Path).cleanups = (locks.caller thread).cleanups := Eq.symm none
  apply sound.put same
  · intro path lock todo isAcquiring
    cases isAcquiring
  · constructor
    · exact Frames.empty
    · refine ⟨pairwise_lockOrder paths, ?_⟩
      intro path _isNext entry member
      cases member
    · intro entry member
      cases member
    · intro todo isAhead path member
      rw [← Option.some.inj isAhead, mem_lockOrder] at member
      exact member
  · intro todo isAhead path member
    rw [← Option.some.inj isAhead, mem_lockOrder]
    exact Or.inl member

/-- Calls that are inside have the locks of their paths, no two calls have the lock of one path,
and calls that are over have no locks. -/
structure Exclusive (setting : Setting Path Name Thread Process)
    (locks : Locks Path Name Thread Process) : Prop where
  inside : ∀ thread, (locks.caller thread).control = .inside →
    ∀ path ∈ (locks.caller thread).paths, Holds setting (locks.caller thread) path
  apart : ∀ thread other path, Holds setting (locks.caller thread) path →
    Holds setting (locks.caller other) path →
    setting.hasFcntl = true ∨ setting.home thread = setting.home other → thread = other
  ended : ∀ thread, (locks.caller thread).control = .idle →
    (∀ lock count, locks.owner lock ≠ some (thread, count)) ∧
      ∀ path, ¬ Holds setting (locks.caller thread) path
  free : (∀ thread, (locks.caller thread).control = .idle) →
    (∀ lock, locks.owner lock = none) ∧ ∀ inode, locks.flocks inode = none

theorem Sound.idle_owns_nothing (sound : Sound setting locks)
    (idle : (locks.caller thread).control = .idle) (lock count : Nat) :
    locks.owner lock ≠ some (thread, count) := by
  intro isOwner
  have none := (sound.placed thread).fits
  rw [idle] at none
  have counted := sound.owned.counted lock thread
  rw [show (locks.caller thread).cleanups = [] from none] at counted
  unfold timesOwned at counted
  rw [isOwner] at counted
  dsimp only at counted
  rw [if_pos rfl] at counted
  apply sound.owned.positive lock thread
  rw [isOwner, ← counted]
  rfl

theorem Sound.exclusive (sound : Sound setting locks) : Exclusive setting locks := by
  have none : ∀ thread, (locks.caller thread).control = .idle →
      (locks.caller thread).cleanups = [] := by
    intro thread idle
    have fits := (sound.placed thread).fits
    rw [idle] at fits
    exact fits
  constructor
  · intro thread isInside path member
    exact (sound.covered thread [] (by rw [isInside]; rfl) path member).resolve_left
      List.not_mem_nil
  · intro thread other path holds alsoHolds shared
    unfold Holds at holds alsoHolds
    by_cases hasFcntl : setting.hasFcntl = true
    · rw [if_pos hasFcntl] at holds alsoHolds
      obtain ⟨file, member⟩ := holds
      obtain ⟨another, isOther⟩ := alsoHolds
      have isOpen := ((sound.placed thread).frames.open_of_locked member).1
      have alsoOpen := ((sound.placed other).frames.open_of_locked isOther).1
      have isFile := sound.filed.present thread _ isOpen
      have alsoFile := sound.filed.present other _ alsoOpen
      have sameInode : file.inode = another.inode := Option.some.inj (isFile.symm.trans alsoFile)
      have first := (sound.flocked file.inode file).mpr ⟨rfl, thread, path, member⟩
      have second := (sound.flocked file.inode another).mpr
        ⟨sameInode.symm, other, path, isOther⟩
      have same : file = another := Option.some.inj (first.symm.trans second)
      exact sound.filed.numbers thread other _ isOpen _ alsoOpen (by rw [same])
    · rw [if_neg hasFcntl] at holds alsoHolds
      obtain ⟨lock, member⟩ := holds
      obtain ⟨another, isOther⟩ := alsoHolds
      have known := sound.registered.known thread path lock (Or.inr member)
      have alsoKnown := sound.registered.known other path another (Or.inr isOther)
      rw [shared.resolve_left hasFcntl] at known
      have same : lock = another := Option.some.inj (known.symm.trans alsoKnown)
      obtain ⟨count, isOwner⟩ := sound.owned.owner_eq member
      obtain ⟨times, alsoOwner⟩ := sound.owned.owner_eq isOther
      rw [← same, isOwner] at alsoOwner
      exact (Prod.mk.inj (Option.some.inj alsoOwner)).1
  · intro thread idle
    refine ⟨sound.idle_owns_nothing idle, ?_⟩
    intro path holds
    unfold Holds at holds
    rw [none thread idle] at holds
    split at holds
    · obtain ⟨file, member⟩ := holds
      cases member
    · obtain ⟨lock, member⟩ := holds
      cases member
  · intro idle
    constructor
    · intro lock
      cases found : locks.owner lock with
      | none => rfl
      | some entry => exact absurd found (sound.idle_owns_nothing (idle entry.1) lock entry.2)
    · intro inode
      cases found : locks.flocks inode with
      | none => rfl
      | some file =>
          obtain ⟨_same, thread, path, member⟩ := (sound.flocked inode file).mp found
          rw [none thread (idle thread)] at member
          cases member

variable [DecidableEq Name]

theorem sound_remove (sound : Sound setting locks) {name : Name}
    (unopened : ∀ thread ∈ locks.callers, ∀ entry ∈ opened (locks.caller thread).cleanups,
      setting.lockName entry.1 ≠ name) :
    Sound setting { locks with files := Function.update locks.files name none } := by
  have entries : ∀ another inode, Function.update locks.files name none another = some inode →
      locks.files another = some inode := by
    intro another inode isFile
    by_cases same : another = name
    · rw [same, Function.update_self] at isFile
      cases isFile
    · rw [Function.update_of_ne same] at isFile
      exact isFile
  constructor
  · exact ⟨sound.registered.known, sound.registered.distinct, sound.registered.old⟩
  · exact ⟨sound.owned.counted, sound.owned.positive⟩
  · constructor
    · intro other entry member
      have listed : other ∈ locks.callers := by
        by_contra unlisted
        rw [sound.listed other unlisted] at member
        cases member
      dsimp only
      rw [Function.update_of_ne (unopened other listed entry member)]
      exact sound.filed.present other entry member
    · intro first second inode isFirst isSecond
      exact sound.filed.distinct _ _ _ (entries _ _ isFirst) (entries _ _ isSecond)
    · exact fun another inode isFile => sound.filed.oldFiles _ _ (entries _ _ isFile)
    · exact sound.filed.numbers
    · exact sound.filed.oldNumbers
  · exact sound.flocked
  · exact sound.placed
  · exact sound.covered
  · exact sound.listed

variable [DecidableEq Process]

theorem sound_lookup (sound : Sound setting locks) {path : Path} {todo : List Path}
    (enters : (locks.caller thread).control = .entering (path :: todo)) :
    Sound setting ((threadLock locks (setting.home thread) (setting.lockName path)).2.put thread
      { locks.caller thread with
        control := .acquiring path
          (threadLock locks (setting.home thread) (setting.lockName path)).1 todo }) := by
  obtain ⟨later, isLock, sameCalls⟩ :=
    sound_threadLock sound (setting.home thread) (setting.lockName path)
  have fits := (later.placed thread).fits
  have own := (later.placed thread).before (path :: todo) (by rw [sameCalls, enters]; rfl)
  have covered := later.covered thread (path :: todo) (by rw [sameCalls, enters]; rfl)
  rw [← sameCalls] at enters ⊢
  rw [enters] at fits
  apply sound_control later
  · exact ⟨fits.1, fits.2 path List.mem_cons_self⟩
  · intro other lock remaining isAcquiring
    obtain ⟨samePath, sameLock, _rest⟩ := Control.acquiring.inj isAcquiring
    rw [← samePath, ← sameLock]
    exact isLock
  · intro remaining isAhead
    rw [← Option.some.inj isAhead]
    exact own
  · intro remaining isAhead
    rw [← Option.some.inj isAhead]
    exact covered

theorem move_sound (sound : Sound setting locks) {made : Move Path}
    {after : Locks Path Name Thread Process} (moved : move setting locks thread made = some after) :
    Sound setting after := by
  unfold move at moved
  cases made with
  | call paths =>
      dsimp only at moved
      split at moved
      case h_1 idle =>
        rw [← Option.some.inj moved]
        exact sound_call sound paths idle
      case h_2 => cases moved
  | lookup =>
      dsimp only at moved
      split at moved
      case h_1 path todo enters =>
        split at moved
        case isTrue =>
          rw [← Option.some.inj moved]
          exact sound_lookup sound enters
        case isFalse =>
          rw [← Option.some.inj moved]
          exact sound_leave sound
      case h_2 => cases moved
  | acquire =>
      dsimp only at moved
      split at moved
      case h_1 path lock todo waits =>
        obtain ⟨acquired, taken, same⟩ := Option.map_eq_some_iff.mp moved
        rw [← same]
        exact sound_acquire sound waits taken
      case h_2 => cases moved
  | openFile =>
      dsimp only at moved
      split at moved
      case h_1 path todo opens =>
        rw [← Option.some.inj moved]
        exact sound_openFile sound opens
      case h_2 => cases moved
  | poll =>
      dsimp only at moved
      split at moved
      case h_1 path file todo polls =>
        obtain ⟨taken, isTaken, same⟩ := Option.map_eq_some_iff.mp moved
        unfold tryFlock at isTaken
        split at isTaken
        case h_1 free =>
          rw [← same, ← Option.some.inj isTaken]
          exact sound_poll sound polls free
        case h_2 => cases isTaken
      case h_2 => cases moved
  | enter =>
      dsimp only at moved
      split at moved
      case h_1 enters =>
        rw [← Option.some.inj moved]
        apply sound_control sound
        · trivial
        · intro path lock todo isAcquiring
          cases isAcquiring
        · intro todo isAhead path member
          rw [← Option.some.inj isAhead] at member
          cases member
        · intro todo isAhead
          rw [← Option.some.inj isAhead]
          exact sound.covered thread [] (by rw [enters]; rfl)
      case h_2 => cases moved
  | fail =>
      dsimp only at moved
      split at moved
      case h_5 => cases moved
      all_goals
        rw [← Option.some.inj moved]
        exact sound_leave sound
  | finish =>
      dsimp only at moved
      split at moved
      case h_1 =>
        rw [← Option.some.inj moved]
        exact sound_leave sound
      case h_2 => cases moved
  | cleanUp =>
      dsimp only at moved
      split at moved
      case h_1 leaves done =>
        rw [← Option.some.inj moved]
        apply sound_control sound
        · exact done
        · intro path lock todo isAcquiring
          cases isAcquiring
        · intro todo isAhead
          cases isAhead
        · intro todo isAhead
          cases isAhead
      case h_2 cleanup older leaves pending =>
        rw [← Option.some.inj moved]
        exact sound_undo sound leaves rfl pending
      case h_3 => cases moved

theorem sound_collect (sound : Sound setting locks) {process : Process} {name : Name} {lock : Nat}
    (found : locks.registry process name = some lock)
    (unused : locks.callers.any (fun thread => (locks.caller thread).refersTo lock) = false) :
    Sound setting { locks with
      registry := Function.update locks.registry process
        (Function.update (locks.registry process) name none) } := by
  have unreferenced : ∀ other path, ¬ References (locks.caller other) path lock := by
    intro other path reference
    have refers := refersTo_of_references reference
    by_cases isCaller : other ∈ locks.callers
    · exact List.any_eq_false.mp unused other isCaller refers
    · rw [sound.listed other isCaller] at refers
      cases refers
  have entries : ∀ other another held, Function.update locks.registry process
      (Function.update (locks.registry process) name none) other another = some held →
        locks.registry other another = some held := by
    intro other another held isLock
    by_cases sameProcess : other = process
    · rw [sameProcess, Function.update_self] at isLock
      by_cases sameName : another = name
      · rw [sameName, Function.update_self] at isLock
        cases isLock
      · rw [Function.update_of_ne sameName] at isLock
        rw [sameProcess]
        exact isLock
    · rw [Function.update_of_ne sameProcess] at isLock
      exact isLock
  constructor
  · constructor
    · intro other path held reference
      have known := sound.registered.known other path held reference
      dsimp only
      by_cases sameProcess : setting.home other = process
      · rw [sameProcess] at known ⊢
        rw [Function.update_self, Function.update_of_ne]
        · exact known
        · intro sameName
          rw [sameName, found] at known
          rw [← Option.some.inj known] at reference
          exact unreferenced other path reference
      · rw [Function.update_of_ne sameProcess]
        exact known
    · intro first second another last held isFirst isSecond
      exact sound.registered.distinct _ _ _ _ _ (entries _ _ _ isFirst) (entries _ _ _ isSecond)
    · exact fun other another held isLock => sound.registered.old _ _ _ (entries _ _ _ isLock)
  · exact ⟨sound.owned.counted, sound.owned.positive⟩
  · exact ⟨sound.filed.present, sound.filed.distinct, sound.filed.oldFiles, sound.filed.numbers,
      sound.filed.oldNumbers⟩
  · exact sound.flocked
  · exact sound.placed
  · exact sound.covered
  · exact sound.listed

theorem step_sound (sound : Sound setting locks) {next : Event Path Name Thread Process}
    (kept : KeepsLockFiles setting locks next) {after : Locks Path Name Thread Process}
    (stepped : step setting locks next = some after) : Sound setting after := by
  cases next with
  | thread mover made => exact move_sound sound stepped
  | collect process name =>
      unfold step at stepped
      dsimp only at stepped
      split at stepped
      case h_1 => cases stepped
      case h_2 lock found =>
        split at stepped
        case isTrue => cases stepped
        case isFalse unused =>
          rw [← Option.some.inj stepped]
          exact sound_collect sound found (Bool.eq_false_of_not_eq_true unused)
  | remove name =>
      rw [← Option.some.inj stepped]
      exact sound_remove sound kept

/-- The state behind a run is sound as long as nobody removes files in use. -/
theorem run_sound {events : List (Event Path Name Thread Process)}
    {final : Locks Path Name Thread Process}
    (kept : Transitions.Each (step setting) (KeepsLockFiles setting)
      (Locks.initial Path Name Thread Process) events)
    (ran : Transitions.run (step setting) (Locks.initial Path Name Thread Process) events =
      some final) : Sound setting final :=
  Transitions.run_keeps (fun sound keeps stepped => step_sound sound keeps stepped) sound_initial
    kept ran

/-- In every run of any number of threads in any number of processes in which nobody removes a
lock file that is open, at most one thread has the lock of a path (without `fcntl`, at most one of
each process), a thread that is inside has the locks of all its paths, and one that is done has
none, however its call ended. -/
theorem advisoryPathLocks_exclusive (setting : Setting Path Name Thread Process)
    (events : List (Event Path Name Thread Process)) (final : Locks Path Name Thread Process)
    (kept : Transitions.Each (step setting) (KeepsLockFiles setting)
      (Locks.initial Path Name Thread Process) events)
    (ran : Transitions.run (step setting) (Locks.initial Path Name Thread Process) events =
      some final) : Exclusive setting final :=
  (run_sound kept ran).exclusive

instance (locks : Locks Path Name Thread Process) (next : Event Path Name Thread Process) :
    Decidable (KeepsLockFiles setting locks next) :=
  match next with
  | .thread _ _ => isTrue trivial
  | .collect _ _ => isTrue trivial
  | .remove name => inferInstanceAs (Decidable (∀ thread ∈ locks.callers,
      ∀ entry ∈ opened (locks.caller thread).cleanups, setting.lockName entry.1 ≠ name))

/-- Each thread in a process of its own. -/
def contendedSetting : Setting Nat Nat Nat Nat :=
  { hasFcntl := true, lockName := id, inVault := fun _ => true, home := id }

/-- A call with two paths is inside while another process polls the file of one of them. -/
def contendedEvents : List (Event Nat Nat Nat Nat) :=
  [.thread 0 (.call [2, 1, 2]), .thread 0 .lookup, .thread 1 (.call [1]), .thread 0 .acquire,
    .thread 1 .lookup, .thread 1 .acquire, .thread 0 .openFile, .thread 0 .poll, .thread 0 .lookup,
    .thread 1 .openFile, .thread 0 .acquire, .thread 0 .openFile, .thread 0 .poll, .thread 0 .enter]

theorem advisoryPathLocks_exclusive_contended :
    ∃ final, Transitions.run (step contendedSetting) (Locks.initial Nat Nat Nat Nat)
      contendedEvents = some final ∧ Exclusive contendedSetting final := by
  have ran : (Transitions.run (step contendedSetting) (Locks.initial Nat Nat Nat Nat)
      contendedEvents).isSome = true := by decide
  obtain ⟨final, isFinal⟩ := Option.isSome_iff_exists.mp ran
  exact ⟨final, isFinal, advisoryPathLocks_exclusive contendedSetting contendedEvents final
    (by decide) isFinal⟩

end Moves

end Locking

end VaultSearch
