/-
`_check_circuit_breaker` of `core/indexer.py`: the attempts to reindex a note, counted from the
first one in a window of sixty seconds.

The clock stays a parameter: the map holds floats of seconds, the indexer's model counts
nanoseconds.
-/

import VaultSearch.Core.Indexer
import VaultSearch.Store.FixedWindow
import VaultSearch.Store.OrderedDict

set_option autoImplicit false

namespace VaultSearch

open FixedWindow

/-- `_reindex_attempts`, a dict from paths to the count and the time of the first attempt. -/
structure ReindexAttempts (time : Type) where
  entries : List (Text × Window time)
  distinct : (entries.map Prod.fst).Nodup

namespace ReindexAttempts

variable {time : Type}

def empty : ReindexAttempts time :=
  { entries := [], distinct := List.nodup_nil }

def find (attempts : ReindexAttempts time) (path : Text) : Option (Window time) :=
  attempts.entries.lookup path

/-- `del self._reindex_attempts[path]` -/
def delete (attempts : ReindexAttempts time) (path : Text) : ReindexAttempts time :=
  { entries := attempts.entries.filter (fun entry => entry.1 != path)
    distinct := attempts.distinct.sublist (List.filter_sublist.map Prod.fst) }

/-- `self._reindex_attempts[path] = (count, first_time)` -/
def assign (attempts : ReindexAttempts time) (path : Text) (window : Window time) :
    ReindexAttempts time :=
  { entries := OrderedDict.set attempts.entries path window
    distinct := OrderedDict.distinct_set attempts.distinct path window }

theorem find_eq_some_iff {attempts : ReindexAttempts time} {path : Text} {window : Window time} :
    attempts.find path = some window ↔ (path, window) ∈ attempts.entries := by
  constructor
  · exact OrderedDict.mem_of_lookup
  · exact OrderedDict.lookup_of_mem attempts.distinct

theorem find_assign (attempts : ReindexAttempts time) (path other : Text) (window : Window time) :
    (attempts.assign path window).find other =
      if other = path then some window else attempts.find other :=
  OrderedDict.lookup_set attempts.entries path other window

theorem entries_foldl_delete (paths : List Text) (attempts : ReindexAttempts time) :
    (paths.foldl delete attempts).entries =
      attempts.entries.filter (fun entry => !paths.contains entry.1) := by
  induction paths generalizing attempts with
  | nil => simp
  | cons path rest ih =>
      rw [List.foldl_cons, ih, delete, List.filter_filter]
      apply List.filter_congr
      intro entry _member
      rw [List.contains_cons, Bool.not_or, Bool.and_comm]
      rfl

variable [LinearOrder time]

def expired (clock : Clock time) (now : time) (attempts : ReindexAttempts time) : List Text :=
  (attempts.entries.filter (fun entry =>
    clock.window < clock.elapsed now entry.2.first)).map Prod.fst

def removeExpired (clock : Clock time) (now : time) (attempts : ReindexAttempts time) :
    ReindexAttempts time :=
  (attempts.expired clock now).foldl delete attempts

/-- `_check_circuit_breaker` at the time `now`: whether to block, and the attempts. -/
def checkCircuitBreaker (clock : Clock time) (path : Text) (now : time)
    (attempts : ReindexAttempts time) : Bool × ReindexAttempts time :=
  let attempts := attempts.removeExpired clock now
  match attempts.find path with
  | some window =>
      if clock.elapsed now window.first ≤ clock.window then
        if circuitBreakerMaxAttempts ≤ window.count then (true, attempts)
        else (false, attempts.assign path { count := window.count + 1, first := window.first })
      else (false, attempts.assign path { count := 1, first := now })
  | none => (false, attempts.assign path { count := 1, first := now })

/-- The calls one after the other. -/
def checkAll (clock : Clock time) :
    ReindexAttempts time → List (Attempt Text time) → List (Verdict Text time)
  | _, [] => []
  | attempts, call :: rest =>
      let checked := attempts.checkCircuitBreaker clock call.key call.time
      { key := call.key, time := call.time, blocked := checked.1 } :: checkAll clock checked.2 rest

/-- The map after the calls. -/
def attemptsAfter (clock : Clock time) (calls : List (Attempt Text time)) : ReindexAttempts time :=
  calls.foldl
    (fun attempts call => (attempts.checkCircuitBreaker clock call.key call.time).2) empty

/-! ### The map -/

variable {clock : Clock time} {now later : time} {attempts : ReindexAttempts time}

theorem isOpen_eq_false {first : time} :
    clock.isOpen first now = false ↔ clock.window < clock.elapsed now first := by
  unfold Clock.isOpen
  rw [decide_eq_false_iff_not, not_le]

/-- Keys are distinct, so that deleting them drops the entries that have ended and no other. -/
theorem removeExpired_entries (clock : Clock time) (now : time)
    (attempts : ReindexAttempts time) :
    (attempts.removeExpired clock now).entries =
      attempts.entries.filter (fun entry => clock.isOpen entry.2.first now) := by
  unfold removeExpired
  rw [entries_foldl_delete]
  apply List.filter_congr
  intro entry member
  have isFound : attempts.find entry.1 = some entry.2 := find_eq_some_iff.mpr member
  cases isOpen : clock.isOpen entry.2.first now with
  | false =>
      rw [Bool.not_eq_false', List.contains_iff_mem]
      apply List.mem_map_of_mem
      exact List.mem_filter.mpr ⟨member, decide_eq_true (isOpen_eq_false.mp isOpen)⟩
  | true =>
      rw [Bool.not_eq_true', ← Bool.not_eq_true, List.contains_iff_mem]
      intro listed
      obtain ⟨other, kept, same⟩ := List.mem_map.mp listed
      obtain ⟨otherMember, ended⟩ := List.mem_filter.mp kept
      have otherFound : attempts.find other.1 = some other.2 := find_eq_some_iff.mpr otherMember
      rw [same, isFound] at otherFound
      rw [← Option.some.inj otherFound, decide_eq_true_eq] at ended
      rw [isOpen_eq_false.mpr ended] at isOpen
      cases isOpen

theorem find_removeExpired (clock : Clock time) (now : time) (attempts : ReindexAttempts time)
    (path : Text) :
    (attempts.removeExpired clock now).find path = clock.live (attempts.find path) now := by
  apply Option.ext
  intro window
  rw [find_eq_some_iff, removeExpired_entries, List.mem_filter, ← find_eq_some_iff]
  exact Clock.live_some_iff.symm

/-! ### One call -/

/-- The map shows the open windows, at every moment from some time on. -/
def Shows (clock : Clock time) (attempts : ReindexAttempts time)
    (windows : Text → Option (Window time)) (now : time) : Prop :=
  ∀ path later, now ≤ later →
    clock.live (attempts.find path) later = clock.live (windows path) later

theorem Shows.assign {windows : Text → Option (Window time)}
    (agree : attempts.Shows clock windows now) (path : Text) (window : Window time) :
    (attempts.assign path window).Shows clock (Function.update windows path (some window)) now := by
  intro other later passed
  rw [find_assign, Function.update_apply]
  split
  case isTrue => rfl
  case isFalse => exact agree other later passed

theorem Shows.removeExpired {windows : Text → Option (Window time)}
    (agree : attempts.Shows clock windows now) :
    (attempts.removeExpired clock now).Shows clock windows now := by
  intro path later passed
  rw [find_removeExpired, Clock.live_live _ passed]
  exact agree path later passed

/-- What a call returns and leaves, when its window has ended, is full or has room. -/
theorem checkCircuitBreaker_opens {path : Text}
    (ended : (attempts.removeExpired clock now).find path = none) :
    attempts.checkCircuitBreaker clock path now =
      (false, (attempts.removeExpired clock now).assign path { count := 1, first := now }) := by
  unfold checkCircuitBreaker
  dsimp only
  rw [ended]

theorem checkCircuitBreaker_blocks {path : Text} {window : Window time}
    (found : (attempts.removeExpired clock now).find path = some window)
    (isOpen : clock.isOpen window.first now = true)
    (full : circuitBreakerMaxAttempts ≤ window.count) :
    attempts.checkCircuitBreaker clock path now = (true, attempts.removeExpired clock now) := by
  unfold checkCircuitBreaker
  dsimp only
  rw [found]
  dsimp only
  rw [if_pos (of_decide_eq_true isOpen), if_pos full]

theorem checkCircuitBreaker_counts {path : Text} {window : Window time}
    (found : (attempts.removeExpired clock now).find path = some window)
    (isOpen : clock.isOpen window.first now = true)
    (room : window.count < circuitBreakerMaxAttempts) :
    attempts.checkCircuitBreaker clock path now =
      (false, (attempts.removeExpired clock now).assign path
        { count := window.count + 1, first := window.first }) := by
  unfold checkCircuitBreaker
  dsimp only
  rw [found]
  dsimp only
  rw [if_pos (of_decide_eq_true isOpen), if_neg (Nat.not_le.mpr room)]

/-- One call decides as the attempt at its window does. -/
theorem checkCircuitBreaker_decides {windows : Text → Option (Window time)}
    (agree : attempts.Shows clock windows now) (path : Text) :
    (attempts.checkCircuitBreaker clock path now).1 =
        (clock.decideAttempt circuitBreakerMaxAttempts (windows path) now).1 ∧
      Shows clock (attempts.checkCircuitBreaker clock path now).2 (Function.update windows path
        (clock.decideAttempt circuitBreakerMaxAttempts (windows path) now).2) now := by
  have stored : (attempts.removeExpired clock now).find path = clock.live (windows path) now := by
    rw [find_removeExpired]
    exact agree path now le_rfl
  have kept := agree.removeExpired
  cases Clock.decide_cases circuitBreakerMaxAttempts (windows path) now with
  | inl opens =>
      rw [opens.2, checkCircuitBreaker_opens (stored.trans opens.1)]
      exact ⟨rfl, kept.assign path _⟩
  | inr others =>
      cases others with
      | inl blocks =>
          obtain ⟨window, isCurrent, isOpen, full, same⟩ := blocks
          rw [isCurrent, Clock.live_of_open isOpen] at stored
          rw [same, checkCircuitBreaker_blocks stored isOpen full, Function.update_eq_self]
          exact ⟨rfl, kept⟩
      | inr counts =>
          obtain ⟨window, isCurrent, isOpen, room, same⟩ := counts
          rw [isCurrent, Clock.live_of_open isOpen] at stored
          rw [same, checkCircuitBreaker_counts stored isOpen room]
          exact ⟨rfl, kept.assign path _⟩

/-- The window of no entry has ended. -/
def AllOpen (clock : Clock time) (attempts : ReindexAttempts time) (now : time) : Prop :=
  ∀ entry ∈ attempts.entries, clock.elapsed now entry.2.first ≤ clock.window

theorem AllOpen.assign (allOpen : attempts.AllOpen clock now) (path : Text) {window : Window time}
    (isOpen : clock.elapsed now window.first ≤ clock.window) :
    (attempts.assign path window).AllOpen clock now := by
  intro entry member
  have found : (attempts.assign path window).find entry.1 = some entry.2 :=
    find_eq_some_iff.mpr member
  rw [find_assign] at found
  split at found
  case isTrue =>
    rw [← Option.some.inj found]
    exact isOpen
  case isFalse => exact allOpen entry (find_eq_some_iff.mp found)

theorem allOpen_removeExpired (clock : Clock time) (now : time)
    (attempts : ReindexAttempts time) :
    (attempts.removeExpired clock now).AllOpen clock now := by
  intro entry member
  rw [removeExpired_entries] at member
  exact of_decide_eq_true (List.mem_filter.mp member).2

/-- A call leaves no entry that has ended. -/
theorem checkCircuitBreaker_allOpen (clock : Clock time) (path : Text) (now : time)
    (attempts : ReindexAttempts time) :
    (attempts.checkCircuitBreaker clock path now).2.AllOpen clock now := by
  have kept := allOpen_removeExpired clock now attempts
  cases found : (attempts.removeExpired clock now).find path with
  | none =>
      rw [checkCircuitBreaker_opens found]
      exact kept.assign path (clock.fresh now)
  | some window =>
      have isOpen := kept (path, window) (find_eq_some_iff.mp found)
      by_cases full : circuitBreakerMaxAttempts ≤ window.count
      · rw [checkCircuitBreaker_blocks found (decide_eq_true isOpen) full]
        exact kept
      · rw [checkCircuitBreaker_counts found (decide_eq_true isOpen) (Nat.lt_of_not_le full)]
        exact kept.assign path isOpen

/-! ### All calls -/

/-- The calls decide as the attempts at windows that are never removed. -/
theorem checkAll_eq_run {calls : List (Attempt Text time)}
    (ordered : calls.Pairwise (fun earlier later => earlier.time ≤ later.time)) :
    ∀ (attempts : ReindexAttempts time) (windows : Text → Option (Window time)),
      (∀ call ∈ calls, attempts.Shows clock windows call.time) →
      attempts.checkAll clock calls = clock.run circuitBreakerMaxAttempts windows calls := by
  induction ordered with
  | nil =>
      intro attempts windows _agree
      rfl
  | @cons call rest behind _ordered ih =>
      intro attempts windows agree
      obtain ⟨sameVerdict, later⟩ :=
        checkCircuitBreaker_decides (agree call List.mem_cons_self) call.key
      rw [checkAll, Clock.run, sameVerdict]
      congr 1
      apply ih
      intro other member path after passed
      exact later path after ((behind other member).trans passed)

/-! ### The window of a path -/

/-- What the circuit breaker guarantees over a sequence of calls. -/
structure KeepsWindows (clock : Clock time) (calls : List (Attempt Text time)) : Prop where
  /-- a path is admitted a limited number of times in a window, the last moment included -/
  bounded : ∀ path, ∀ opening ∈ clock.openings none
      ((empty.checkAll clock calls).filter (fun verdict => verdict.key = path)),
    clock.admittedIn opening.1 opening.2 ≤ circuitBreakerMaxAttempts
  /-- the first call of a path is admitted -/
  begins : ∀ path verdict,
    ((empty.checkAll clock calls).filter (fun verdict => verdict.key = path)).head? =
      some verdict → verdict.blocked = false
  /-- and so is the first one after a window -/
  reopens : ∀ path, ∀ opening ∈ clock.openings none
      ((empty.checkAll clock calls).filter (fun verdict => verdict.key = path)), ∀ verdict,
    opening.2.find? (fun verdict => !clock.isOpen opening.1 verdict.time) = some verdict →
      verdict.blocked = false
  /-- without a blocked call all others are decided as they were -/
  idle : ∀ position verdict, (empty.checkAll clock calls)[position]? = some verdict →
    verdict.blocked = true →
      empty.checkAll clock (calls.eraseIdx position) =
        (empty.checkAll clock calls).eraseIdx position
  /-- without the calls of the other paths those of a path are decided as they were -/
  independent : ∀ path,
    (empty.checkAll clock calls).filter (fun verdict => verdict.key = path) =
      empty.checkAll clock (calls.filter (fun call => call.key = path))
  /-- after each call -/
  purged : ∀ before call after, calls = before ++ call :: after →
    (attemptsAfter clock (before ++ [call])).AllOpen clock call.time

theorem attemptsAfter_snoc (clock : Clock time) (before : List (Attempt Text time))
    (call : Attempt Text time) :
    attemptsAfter clock (before ++ [call]) =
      ((attemptsAfter clock before).checkCircuitBreaker clock call.key call.time).2 := by
  unfold attemptsAfter
  rw [List.foldl_append]
  rfl

theorem checkAll_empty {calls : List (Attempt Text time)}
    (ordered : calls.Pairwise (fun earlier later => earlier.time ≤ later.time)) :
    empty.checkAll clock calls =
      clock.run circuitBreakerMaxAttempts (fun _path => none) calls :=
  checkAll_eq_run ordered empty (fun _path => none)
    (fun _call _member _path _later _passed => rfl)

theorem ordered_times {calls : List (Attempt Text time)}
    (ordered : calls.Pairwise (fun earlier later => earlier.time ≤ later.time)) (path : Text) :
    ((calls.filter (fun call => call.key = path)).map Attempt.time).Pairwise (· ≤ ·) :=
  List.pairwise_map.mpr (ordered.filter _)

theorem checkCircuitBreaker_keepsWindows (clock : Clock time) {calls : List (Attempt Text time)}
    (ordered : calls.Pairwise (fun earlier later => earlier.time ≤ later.time)) :
    KeepsWindows clock calls := by
  have positive : 1 ≤ circuitBreakerMaxAttempts := by decide
  have whole := @checkAll_empty time _ clock calls ordered
  constructor
  case bounded =>
    intro path
    rw [whole, Clock.run_filter]
    exact Clock.openings_bounded path positive (ordered_times ordered path) none
  case begins =>
    intro path verdict
    rw [whole, Clock.run_filter]
    exact Clock.runKey_begins path _
  case reopens =>
    intro path
    rw [whole, Clock.run_filter]
    exact Clock.openings_reopen path _ none
  case idle =>
    intro position verdict there blocked
    rw [whole] at there ⊢
    rw [checkAll_empty (ordered.sublist (List.eraseIdx_sublist calls position))]
    exact Clock.run_eraseIdx _ _ calls there blocked
  case independent =>
    intro path
    rw [whole, checkAll_empty (ordered.filter _)]
    exact Clock.run_independent _ _ calls path
  case purged =>
    intro before call after _split
    rw [attemptsAfter_snoc]
    exact checkCircuitBreaker_allOpen clock call.key call.time _

/-- The clock of the indexer's model. -/
def nanoseconds : Clock Nat where
  elapsed := fun now first => now - first
  window := circuitBreakerWindow
  fresh := by
    intro now
    rw [Nat.sub_self]
    exact Nat.zero_le _
  ages := fun first passed => Nat.sub_le_sub_right passed first

/-- Four calls at once, one at the last moment of the window and one behind it. -/
def loopCalls : List (Attempt Text Nat) :=
  [0, 1, 2, 3, circuitBreakerWindow, circuitBreakerWindow + 1].map
    (fun now => { key := "a.md".toList, time := now })

theorem checkCircuitBreaker_keepsWindows_loop :
    loopCalls.Pairwise (fun earlier later => earlier.time ≤ later.time) ∧
      KeepsWindows nanoseconds loopCalls :=
  ⟨by decide, checkCircuitBreaker_keepsWindows nanoseconds (by decide)⟩

example : (empty.checkAll nanoseconds loopCalls).map Verdict.blocked =
    [false, false, false, true, true, false] := by decide

/-! ### The function of the indexer's model -/

/-- The pairs that the world of the indexer holds. -/
def pairs (attempts : ReindexAttempts Nat) : List (Text × (Nat × Nat)) :=
  attempts.entries.map (fun entry => (entry.1, entry.2.count, entry.2.first))

theorem lookup_pairs (attempts : ReindexAttempts Nat) (path : Text) :
    attempts.pairs.lookup path =
      (attempts.find path).map (fun window => (window.count, window.first)) := by
  unfold pairs find
  induction attempts.entries with
  | nil => rfl
  | cons head tail ih =>
      rw [List.map_cons, List.lookup_cons, List.lookup_cons, ih]
      split
      · rfl
      · rfl

theorem pairs_removeExpired (now : Nat) (attempts : ReindexAttempts Nat) :
    attempts.pairs.filter (fun entry => now - entry.2.2 ≤ circuitBreakerWindow) =
      (attempts.removeExpired nanoseconds now).pairs := by
  unfold pairs
  rw [removeExpired_entries, List.filter_map]
  rfl

theorem pairs_assign_new {attempts : ReindexAttempts Nat} {path : Text}
    (missing : attempts.find path = none) (window : Window Nat) :
    (attempts.assign path window).pairs =
      attempts.pairs ++ [(path, window.count, window.first)] := by
  have last : (attempts.assign path window).entries = attempts.entries ++ [(path, window)] :=
    OrderedDict.set_fresh missing window
  unfold pairs
  rw [last, List.map_append]
  rfl

theorem pairs_assign_again {attempts : ReindexAttempts Nat} {path : Text} {present : Window Nat}
    (found : attempts.find path = some present) (window : Window Nat) :
    (attempts.assign path window).pairs = attempts.pairs.map (fun entry =>
      if entry.1 = path then (path, window.count, window.first) else entry) := by
  have inside : attempts.entries.any (fun entry => entry.1 == path) = true :=
    List.any_eq_true.mpr ⟨(path, present), find_eq_some_iff.mp found, beq_self_eq_true path⟩
  have inPlace : (attempts.assign path window).entries = attempts.entries.map
      (fun entry => if entry.1 == path then (path, window) else entry) := if_pos inside
  unfold pairs
  rw [inPlace, List.map_map, List.map_map]
  apply List.map_congr_left
  intro entry _member
  by_cases same : entry.1 = path
  · simp [same]
  · simp [same]

/-- The indexer's model counts as this one does with its clock. -/
theorem checkCircuitBreaker_pairs (now : Nat) (path : Text) (attempts : ReindexAttempts Nat) :
    VaultSearch.checkCircuitBreaker now path attempts.pairs =
      ((attempts.checkCircuitBreaker nanoseconds path now).1,
        (attempts.checkCircuitBreaker nanoseconds path now).2.pairs) := by
  have kept := allOpen_removeExpired nanoseconds now attempts
  unfold VaultSearch.checkCircuitBreaker
  dsimp only
  rw [pairs_removeExpired, lookup_pairs]
  cases found : (attempts.removeExpired nanoseconds now).find path with
  | none =>
      rw [checkCircuitBreaker_opens found, pairs_assign_new found]
      rfl
  | some window =>
      have isOpen := kept (path, window) (find_eq_some_iff.mp found)
      dsimp only [Option.map_some]
      by_cases full : circuitBreakerMaxAttempts ≤ window.count
      · rw [if_pos full, checkCircuitBreaker_blocks found (decide_eq_true isOpen) full]
      · rw [if_neg full, checkCircuitBreaker_counts found (decide_eq_true isOpen)
          (Nat.lt_of_not_le full), pairs_assign_again found]

end ReindexAttempts

end VaultSearch
