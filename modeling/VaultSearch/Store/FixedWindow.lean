/-
A limit on attempts: for each key at most so many are admitted between the first one that opens
a window and the end of that window.

Windows that have ended stay where they are until the next attempt of their key.
-/

import Mathlib.Logic.Function.Basic
import Mathlib.Order.Basic
import Mathlib.Order.Lattice

set_option autoImplicit false

namespace VaultSearch.FixedWindow

variable {key time : Type} [LinearOrder time]

/-- How the age of a window is measured; subtraction of floats has these properties too. -/
structure Clock (time : Type) [LinearOrder time] where
  /-- `now - first` -/
  elapsed : time → time → time
  window : time
  fresh : ∀ now, elapsed now now ≤ window
  ages : ∀ {earlier later : time} (first : time), earlier ≤ later →
    elapsed earlier first ≤ elapsed later first

structure Window (time : Type) where
  count : Nat
  first : time

structure Attempt (key time : Type) where
  key : key
  time : time

structure Verdict (key time : Type) where
  key : key
  time : time
  blocked : Bool

namespace Clock

variable (clock : Clock time)

/-- The window has not ended; its last moment belongs to it. -/
def isOpen (first now : time) : Bool :=
  decide (clock.elapsed now first ≤ clock.window)

/-- The window of a key, unless it has ended. -/
def live (current : Option (Window time)) (now : time) : Option (Window time) :=
  current.filter (fun window => clock.isOpen window.first now)

/-- Whether an attempt is blocked, and the window of its key from then on. -/
def decideAttempt (limit : Nat) (current : Option (Window time)) (now : time) :
    Bool × Option (Window time) :=
  match clock.live current now with
  | none => (false, some { count := 1, first := now })
  | some window =>
      if limit ≤ window.count then (true, current)
      else (false, some { count := window.count + 1, first := window.first })

/-- The attempts one after the other. -/
def run [DecidableEq key] (limit : Nat) :
    (key → Option (Window time)) → List (Attempt key time) → List (Verdict key time)
  | _, [] => []
  | windows, attempt :: rest =>
      let decision := clock.decideAttempt limit (windows attempt.key) attempt.time
      { key := attempt.key, time := attempt.time, blocked := decision.1 } ::
        run limit (Function.update windows attempt.key decision.2) rest

/-- The attempts of one key. -/
def runKey (limit : Nat) (name : key) : Option (Window time) → List time → List (Verdict key time)
  | _, [] => []
  | current, now :: rest =>
      let decision := clock.decideAttempt limit current now
      { key := name, time := now, blocked := decision.1 } :: runKey limit name decision.2 rest

/-- The windows of a log of one key: the time at which each was opened, with the log from there
on.  An admitted attempt opens one when the window before has ended. -/
def openings : Option time → List (Verdict key time) → List (time × List (Verdict key time))
  | _, [] => []
  | opened, verdict :: rest =>
      if !verdict.blocked && opened.all (fun first => !clock.isOpen first verdict.time) then
        (verdict.time, verdict :: rest) :: openings (some verdict.time) rest
      else openings opened rest

/-- The attempts that are admitted in a window. -/
def admittedIn (first : time) (log : List (Verdict key time)) : Nat :=
  log.countP (fun verdict => !verdict.blocked && clock.isOpen first verdict.time)

/-! ### One attempt -/

variable {clock} {limit : Nat} {now later : time}

theorem isOpen_of_le {first : time} (passed : now ≤ later)
    (isOpenLater : clock.isOpen first later = true) : clock.isOpen first now = true := by
  unfold isOpen at isOpenLater ⊢
  rw [decide_eq_true_eq] at isOpenLater ⊢
  exact (clock.ages first passed).trans isOpenLater

theorem isOpen_self (now : time) : clock.isOpen now now = true :=
  decide_eq_true (clock.fresh now)

theorem live_some_iff {current : Option (Window time)} {window : Window time} :
    clock.live current now = some window ↔
      current = some window ∧ clock.isOpen window.first now = true := by
  unfold live
  exact Option.filter_eq_some_iff

theorem live_of_open {window : Window time} (isOpen : clock.isOpen window.first now = true) :
    clock.live (some window) now = some window :=
  live_some_iff.mpr ⟨rfl, isOpen⟩

theorem live_of_ended {window : Window time} (ended : clock.isOpen window.first now = false) :
    clock.live (some window) now = none := by
  unfold live
  rw [Option.filter_some, ended]
  rfl

/-- What is live later is live before. -/
theorem live_live (current : Option (Window time)) (passed : now ≤ later) :
    clock.live (clock.live current now) later = clock.live current later := by
  cases current with
  | none => rfl
  | some window =>
      cases isOpenNow : clock.isOpen window.first now with
      | true => rw [live_of_open isOpenNow]
      | false =>
          have ended : clock.isOpen window.first later = false := by
            rw [Bool.eq_false_iff] at isOpenNow ⊢
            exact fun isOpenLater => isOpenNow (isOpen_of_le passed isOpenLater)
          rw [live_of_ended isOpenNow, live_of_ended ended]
          rfl

theorem decide_opens {current : Option (Window time)} (ended : clock.live current now = none) :
    clock.decideAttempt limit current now = (false, some { count := 1, first := now }) := by
  unfold decideAttempt
  rw [ended]

theorem decide_blocks {window : Window time} (isOpen : clock.isOpen window.first now = true)
    (full : limit ≤ window.count) :
    clock.decideAttempt limit (some window) now = (true, some window) := by
  unfold decideAttempt
  rw [live_of_open isOpen]
  exact if_pos full

theorem decide_counts {window : Window time} (isOpen : clock.isOpen window.first now = true)
    (room : ¬ limit ≤ window.count) :
    clock.decideAttempt limit (some window) now =
      (false, some { count := window.count + 1, first := window.first }) := by
  unfold decideAttempt
  rw [live_of_open isOpen]
  exact if_neg room

/-- The three things that an attempt can do. -/
theorem decide_cases (limit : Nat) (current : Option (Window time)) (now : time) :
    (clock.live current now = none ∧
      clock.decideAttempt limit current now = (false, some { count := 1, first := now })) ∨
    (∃ window, current = some window ∧ clock.isOpen window.first now = true ∧
      limit ≤ window.count ∧ clock.decideAttempt limit current now = (true, current)) ∨
    (∃ window, current = some window ∧ clock.isOpen window.first now = true ∧
      window.count < limit ∧ clock.decideAttempt limit current now =
        (false, some { count := window.count + 1, first := window.first })) := by
  cases found : clock.live current now with
  | none => exact Or.inl ⟨rfl, decide_opens found⟩
  | some window =>
      obtain ⟨isCurrent, isOpen⟩ := live_some_iff.mp found
      rw [isCurrent]
      right
      by_cases full : limit ≤ window.count
      · exact Or.inl ⟨window, rfl, isOpen, full, decide_blocks isOpen full⟩
      · exact Or.inr ⟨window, rfl, isOpen, Nat.lt_of_not_le full, decide_counts isOpen full⟩

/-- A blocked attempt leaves the window as it was. -/
theorem decide_idle {current : Option (Window time)}
    (blocked : (clock.decideAttempt limit current now).1 = true) :
    (clock.decideAttempt limit current now).2 = current := by
  cases decide_cases limit current now with
  | inl opens =>
      rw [opens.2] at blocked
      cases blocked
  | inr others =>
      cases others with
      | inl blocks =>
          obtain ⟨_window, _isCurrent, _isOpen, _full, same⟩ := blocks
          rw [same]
      | inr counts =>
          obtain ⟨_window, _isCurrent, _isOpen, _room, same⟩ := counts
          rw [same] at blocked
          cases blocked

/-! ### Keys apart -/

section Keys

variable [DecidableEq key]

theorem run_keys (limit : Nat) (windows : key → Option (Window time))
    (attempts : List (Attempt key time)) :
    (clock.run limit windows attempts).map Verdict.key = attempts.map Attempt.key := by
  induction attempts generalizing windows with
  | nil => rfl
  | cons attempt rest ih => exact congrArg (attempt.key :: ·) (ih _)

/-- What a key gets does not depend on the other ones. -/
theorem run_filter (limit : Nat) (windows : key → Option (Window time))
    (attempts : List (Attempt key time)) (name : key) :
    (clock.run limit windows attempts).filter (fun verdict => verdict.key = name) =
      clock.runKey limit name (windows name)
        ((attempts.filter (fun attempt => attempt.key = name)).map Attempt.time) := by
  induction attempts generalizing windows with
  | nil => rfl
  | cons attempt rest ih =>
      rw [run]
      by_cases same : attempt.key = name
      · simp only [List.filter_cons, same, decide_true, if_true]
        rw [ih, List.map_cons, runKey, Function.update_self]
      · simp only [List.filter_cons, same, decide_false, Bool.false_eq_true, if_false]
        rw [ih, Function.update_of_ne (Ne.symm same)]

theorem run_independent (limit : Nat) (windows : key → Option (Window time))
    (attempts : List (Attempt key time)) (name : key) :
    (clock.run limit windows attempts).filter (fun verdict => verdict.key = name) =
      clock.run limit windows (attempts.filter (fun attempt => attempt.key = name)) := by
  have whole : (clock.run limit windows
      (attempts.filter (fun attempt => attempt.key = name))).filter
        (fun verdict => verdict.key = name) =
      clock.run limit windows (attempts.filter (fun attempt => attempt.key = name)) := by
    rw [List.filter_eq_self]
    intro verdict member
    have named := List.mem_map_of_mem (f := Verdict.key) member
    rw [run_keys] at named
    obtain ⟨attempt, kept, same⟩ := List.mem_map.mp named
    rw [← same]
    exact (List.mem_filter.mp kept).2
  rw [← whole, run_filter, run_filter, List.filter_filter]
  simp only [Bool.and_self]

/-- An attempt that is blocked could as well be left out. -/
theorem run_eraseIdx (limit : Nat) (windows : key → Option (Window time))
    (attempts : List (Attempt key time)) {position : Nat} {verdict : Verdict key time}
    (there : (clock.run limit windows attempts)[position]? = some verdict)
    (blocked : verdict.blocked = true) :
    clock.run limit windows (attempts.eraseIdx position) =
      (clock.run limit windows attempts).eraseIdx position := by
  induction attempts generalizing windows position with
  | nil => cases there
  | cons attempt rest ih =>
      rw [run] at there ⊢
      cases position with
      | zero =>
          rw [List.getElem?_cons_zero] at there
          rw [← Option.some.inj there] at blocked
          rw [List.eraseIdx_cons_zero, List.eraseIdx_cons_zero, decide_idle blocked,
            Function.update_eq_self]
      | succ position =>
          rw [List.getElem?_cons_succ] at there
          rw [List.eraseIdx_cons_succ, List.eraseIdx_cons_succ, run, ih _ there]

end Keys

/-! ### One key -/

theorem runKey_time (limit : Nat) (name : key) (current : Option (Window time))
    (times : List time) :
    (clock.runKey limit name current times).map Verdict.time = times := by
  induction times generalizing current with
  | nil => rfl
  | cons now rest ih => exact congrArg (now :: ·) (ih _)

theorem runKey_begins (name : key) (times : List time) {verdict : Verdict key time}
    (first : (clock.runKey limit name none times).head? = some verdict) :
    verdict.blocked = false := by
  cases times with
  | nil => cases first
  | cons now rest =>
      rw [runKey, decide_opens rfl] at first
      rw [← Option.some.inj first]

/-- A window that has ended admits nothing. -/
theorem admittedIn_ended {first now : time} {times : List time} (name : key)
    (current : Option (Window time)) (ended : clock.isOpen first now = false)
    (behind : ∀ later ∈ times, now ≤ later) :
    clock.admittedIn first (clock.runKey limit name current times) = 0 := by
  unfold admittedIn
  rw [List.countP_eq_zero]
  intro verdict member isOpen
  rw [Bool.and_eq_true] at isOpen
  have there := List.mem_map_of_mem (f := Verdict.time) member
  rw [runKey_time] at there
  have isOpenNow := isOpen_of_le (behind verdict.time there) isOpen.2
  rw [ended] at isOpenNow
  cases isOpenNow

theorem admittedIn_cons (first : time) (verdict : Verdict key time)
    (log : List (Verdict key time)) :
    clock.admittedIn first (verdict :: log) = clock.admittedIn first log +
      if !verdict.blocked && clock.isOpen first verdict.time then 1 else 0 :=
  List.countP_cons

/-- An open window admits no more than what is left of the limit. -/
theorem admittedIn_le (name : key) {times : List time} (ordered : times.Pairwise (· ≤ ·)) :
    ∀ window : Window time, window.count ≤ limit →
      clock.admittedIn window.first (clock.runKey limit name (some window) times) +
        window.count ≤ limit := by
  induction ordered with
  | nil =>
      intro window bounded
      exact (Nat.zero_add _).trans_le bounded
  | @cons now rest behind _ordered ih =>
      intro window bounded
      rw [runKey, admittedIn_cons]
      cases isOpen : clock.isOpen window.first now with
      | false =>
          rw [decide_opens (live_of_ended isOpen), admittedIn_ended name _ isOpen behind]
          simpa using bounded
      | true =>
          by_cases full : limit ≤ window.count
          · rw [decide_blocks isOpen full]
            simpa using ih window bounded
          · rw [decide_counts isOpen full]
            have next : clock.admittedIn window.first (clock.runKey limit name
                (some { count := window.count + 1, first := window.first }) rest) +
                  (window.count + 1) ≤ limit :=
              ih { count := window.count + 1, first := window.first } (Nat.lt_of_not_le full)
            simp only [Bool.not_false, Bool.and_self, if_true]
            omega

theorem live_none_iff {current : Option (Window time)} :
    clock.live current now = none ↔
      (current.map Window.first).all (fun first => !clock.isOpen first now) = true := by
  cases current with
  | none => exact iff_of_true rfl rfl
  | some window =>
      rw [Option.map_some, Option.all_some]
      cases isOpen : clock.isOpen window.first now with
      | false => exact iff_of_true (live_of_ended isOpen) rfl
      | true =>
          apply iff_of_false
          · rw [live_of_open isOpen]
            exact Option.some_ne_none window
          · exact Bool.false_ne_true

/-- An attempt opens a window, or the windows are those of the log behind it. -/
theorem openings_cases (limit : Nat) (name : key) (current : Option (Window time)) (now : time)
    (rest : List time) :
    (clock.openings (current.map Window.first) (clock.runKey limit name current (now :: rest)) =
      (now, { key := name, time := now, blocked := false } ::
        clock.runKey limit name (some { count := 1, first := now }) rest) ::
          clock.openings (some now)
            (clock.runKey limit name (some { count := 1, first := now }) rest)) ∨
    ∃ next, clock.openings (current.map Window.first)
        (clock.runKey limit name current (now :: rest)) =
      clock.openings (next.map Window.first) (clock.runKey limit name next rest) := by
  rw [runKey, openings]
  cases decide_cases limit current now with
  | inl opens =>
      left
      rw [opens.2, live_none_iff.mp opens.1]
      rfl
  | inr others =>
      right
      cases others with
      | inl blocks =>
          obtain ⟨_window, _isCurrent, _isOpen, _full, same⟩ := blocks
          refine ⟨current, ?_⟩
          rw [same]
          rfl
      | inr counts =>
          obtain ⟨window, isCurrent, isOpen, _room, same⟩ := counts
          refine ⟨some { count := window.count + 1, first := window.first }, ?_⟩
          rw [same, isCurrent, Option.map_some, Option.all_some, isOpen]
          rfl

/-- In each window at most as many attempts are admitted as the limit allows. -/
theorem openings_bounded (name : key) (positive : 1 ≤ limit) {times : List time}
    (ordered : times.Pairwise (· ≤ ·)) :
    ∀ current : Option (Window time), ∀ opening ∈ clock.openings (current.map Window.first)
        (clock.runKey limit name current times),
      clock.admittedIn opening.1 opening.2 ≤ limit := by
  induction ordered with
  | nil =>
      intro current opening member
      cases member
  | @cons now rest behind ordered ih =>
      intro current opening member
      cases openings_cases limit name current now rest with
      | inl opens =>
          rw [opens] at member
          cases List.mem_cons.mp member with
          | inl here =>
              have left : clock.admittedIn now (clock.runKey limit name
                  (some { count := 1, first := now }) rest) + 1 ≤ limit :=
                admittedIn_le name ordered { count := 1, first := now } positive
              rw [here, admittedIn_cons, isOpen_self]
              exact left
          | inr behindIt => exact ih (some { count := 1, first := now }) opening behindIt
      | inr continues =>
          obtain ⟨next, same⟩ := continues
          rw [same] at member
          exact ih next opening member

/-- The first attempt behind an open window is admitted. -/
theorem find_ended (name : key) (times : List time) {verdict : Verdict key time} :
    ∀ window : Window time,
      (clock.runKey limit name (some window) times).find?
          (fun verdict => !clock.isOpen window.first verdict.time) = some verdict →
        verdict.blocked = false := by
  induction times with
  | nil =>
      intro window found
      cases found
  | cons now rest ih =>
      intro window found
      rw [runKey, List.find?_cons] at found
      cases isOpen : clock.isOpen window.first now with
      | false =>
          rw [isOpen, decide_opens (live_of_ended isOpen)] at found
          rw [← Option.some.inj found]
      | true =>
          rw [isOpen] at found
          by_cases full : limit ≤ window.count
          · rw [decide_blocks isOpen full] at found
            exact ih window found
          · rw [decide_counts isOpen full] at found
            exact ih { count := window.count + 1, first := window.first } found

theorem openings_reopen (name : key) (times : List time) :
    ∀ current : Option (Window time), ∀ opening ∈ clock.openings (current.map Window.first)
        (clock.runKey limit name current times), ∀ verdict,
      opening.2.find? (fun verdict => !clock.isOpen opening.1 verdict.time) = some verdict →
        verdict.blocked = false := by
  induction times with
  | nil =>
      intro current opening member
      cases member
  | cons now rest ih =>
      intro current opening member verdict found
      cases openings_cases limit name current now rest with
      | inl opens =>
          rw [opens] at member
          cases List.mem_cons.mp member with
          | inl here =>
              rw [here, List.find?_cons, isOpen_self] at found
              exact find_ended name rest { count := 1, first := now } found
          | inr behindIt =>
              exact ih (some { count := 1, first := now }) opening behindIt verdict found
      | inr continues =>
          obtain ⟨next, same⟩ := continues
          rw [same] at member
          exact ih next opening member verdict found

end Clock

end VaultSearch.FixedWindow
