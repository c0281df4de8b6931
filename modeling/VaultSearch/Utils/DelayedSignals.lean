/-
`DelayedKeyboardInterrupt` of `utils/shutdown.py`: blocks in which SIGINT and SIGTERM are only
noted.

Python runs a signal handler between two instructions of the main thread, so a signal may also
arrive while an inner block is being entered or left.  The frame that a handler gets is left out,
and so are `ValueError` and `OSError`, which the main thread does not meet.
-/

import Mathlib.Data.List.Basic
import Mathlib.Logic.Function.Basic
import VaultSearch.Store.OrderedDict

set_option autoImplicit false

namespace VaultSearch

inductive Signal where
  | sigint
  | sigterm
  deriving DecidableEq

/-- What may be installed for a signal; `signal.signal` returns `None` for a handler that was not
installed from Python, and does not take it back. -/
inductive Disposition (function : Type) where
  | function (handler : function)
  | sigDfl
  | sigIgn
  | foreign

/-- `_handler` of the block at a level, counted from the outermost, or what was there before. -/
inductive Handler (function : Type) where
  | given (disposition : Disposition function)
  | block (level : Nat)

structure DelayedInterrupt (function : Type) where
  signal : Option Signal := none
  oldHandlers : List (Signal × Handler function) := []

/-- What runs for a signal. -/
inductive SignalDelivery (function : Type) where
  | called (handler : function) (signal : Signal)
  | defaultAction (signal : Signal)
  | outside (signal : Signal)

inductive BlockError where
  | keyboardInterrupt
  | typeError
  deriving DecidableEq

/-- The blocks that are entered, the innermost first. -/
structure SignalState (function : Type) where
  handlers : Signal → Handler function
  blocks : List (DelayedInterrupt function) := []
  deliveries : List (SignalDelivery function) := []

/-- How a statement leaves the program. -/
structure BlockExit (function : Type) where
  state : SignalState function
  raised : Option BlockError := none

variable {function : Type}

def Disposition.deliver (signal : Signal) : Disposition function → List (SignalDelivery function)
  | .function handler => [.called handler signal]
  | .sigDfl => [.defaultAction signal]
  | .sigIgn => []
  | .foreign => [.outside signal]

def Handler.isForeign : Handler function → Bool
  | .given .foreign => true
  | _ => false

/-- `_handler` -/
def captureAt (level : Nat) (signal : Signal) :
    List (DelayedInterrupt function) → List (DelayedInterrupt function)
  | [] => []
  | block :: outer =>
      if outer.length = level then { block with signal := some signal } :: outer
      else block :: captureAt level signal outer

namespace SignalState

variable (state : SignalState function)

def arrive (signal : Signal) : SignalState function :=
  match state.handlers signal with
  | .given disposition =>
      { state with deliveries := state.deliveries ++ disposition.deliver signal }
  | .block level => { state with blocks := captureAt level signal state.blocks }

def arriveAll (signals : List Signal) : SignalState function :=
  signals.foldl arrive state

/-! ### Entering and leaving -/

/-- A new block. -/
def pushed : SignalState function :=
  { state with blocks := {} :: state.blocks }

/-- `self._old_handlers[sig] = signal.signal(sig, self._handler)` -/
def install (signal : Signal) : SignalState function :=
  match state.blocks with
  | [] => state
  | block :: outer =>
      { state with
        handlers := Function.update state.handlers signal (.block outer.length)
        blocks :=
          { block with
            oldHandlers := OrderedDict.set block.oldHandlers signal (state.handlers signal) } ::
            outer }

/-- `__enter__`; some signals arrive between its two assignments. -/
def enter (between : List Signal) : SignalState function :=
  ((state.pushed.install .sigint).arriveAll between).install .sigterm

/-- `signal.signal(sig, handler)` for the old handler; it may raise a `TypeError`. -/
def restore (signal : Signal) : Option (SignalState function) :=
  match state.blocks with
  | [] => some state
  | block :: _ =>
      match block.oldHandlers.lookup signal with
      | none => some state
      | some handler =>
          if handler.isForeign then none
          else some { state with handlers := Function.update state.handlers signal handler }

def popped : SignalState function :=
  { state with blocks := state.blocks.tail }

/-- The captured signal goes to the old handler. -/
def replay : BlockExit function :=
  match state.blocks with
  | [] => { state }
  | block :: outer =>
      let left := { state with blocks := outer }
      match block.signal with
      | none => { state := left }
      | some signal =>
          match block.oldHandlers.lookup signal with
          | some (.given (.function handler)) =>
              { state :=
                  { left with deliveries := left.deliveries ++ [.called handler signal] } }
          | some (.block level) =>
              { state := { left with blocks := captureAt level signal outer } }
          | some (.given .sigDfl) =>
              if signal = .sigint then
                { state :=
                    { left with deliveries := left.deliveries ++ [.defaultAction signal] }
                  raised := some .keyboardInterrupt }
              else { state := left }
          | _ => { state := left }

/-- `__exit__`; some signals arrive after its first assignment, and some after the second. -/
def leave (first second : List Signal) : BlockExit function :=
  match state.restore .sigint with
  | none => { state := state.popped, raised := some .typeError }
  | some restored =>
      match (restored.arriveAll first).restore .sigterm with
      | none => { state := (restored.arriveAll first).popped, raised := some .typeError }
      | some restored => (restored.arriveAll second).replay

end SignalState

/-! ### Runs -/

inductive SignalEvent where
  | arrive (signal : Signal)
  | enter (between : List Signal)
  | leave (first second : List Signal)

def SignalEvent.signals : SignalEvent → List Signal
  | .arrive signal => [signal]
  | .enter between => between
  | .leave first second => first ++ second

def SignalState.step (state : SignalState function) : SignalEvent → BlockExit function
  | .arrive signal => { state := state.arrive signal }
  | .enter between => { state := state.enter between }
  | .leave first second => state.leave first second

/-- An exception ends the run. -/
def SignalState.run (state : SignalState function) : List SignalEvent → BlockExit function
  | [] => { state }
  | event :: rest =>
      match state.step event with
      | { state := next, raised := none } => next.run rest
      | stopped => stopped

/-- What happens inside the outermost block, from a moment with so many inner blocks on. -/
inductive Nested : Nat → List SignalEvent → Prop
  | finished : Nested 0 []
  | arrive {depth : Nat} {rest : List SignalEvent} (signal : Signal) (later : Nested depth rest) :
      Nested depth (.arrive signal :: rest)
  | enter {depth : Nat} {rest : List SignalEvent} (between : List Signal)
      (later : Nested (depth + 1) rest) : Nested depth (.enter between :: rest)
  | leave {depth : Nat} {rest : List SignalEvent} (first second : List Signal)
      (later : Nested depth rest) : Nested (depth + 1) (.leave first second :: rest)

/-- The outermost block is entered. -/
def outermost (dispositions : Signal → Disposition function) : SignalState function :=
  SignalState.enter { handlers := fun signal => .given (dispositions signal) } []

/-- One outermost block. -/
def delayedSession (dispositions : Signal → Disposition function) (events : List SignalEvent) :
    BlockExit function :=
  match (outermost dispositions).run events with
  | { state, raised := none } => state.leave [] []
  | stopped => stopped

def lastSignal (events : List SignalEvent) : Option Signal :=
  (events.flatMap SignalEvent.signals).getLast?

/-- Nothing is delivered inside the outermost block, and at its end the last signal is, once. -/
structure DeliversLast (dispositions : Signal → Disposition function)
    (events : List SignalEvent) : Prop where
  quiet : ∀ earlier later, events = earlier ++ later →
    ((outermost dispositions).run earlier).state.deliveries = []
  delivered : (delayedSession dispositions events).state.deliveries =
    (lastSignal events).elim [] (fun signal => (dispositions signal).deliver signal)

/-! ### The order of captured signals -/

/-- No block inside the one that captures the signal holds the other signal. -/
def Uppermost (state : SignalState function) (signal : Signal) : Prop :=
  ∀ level, state.handlers signal = .block level →
    ∀ block ∈ state.blocks.take (state.blocks.length - 1 - level),
      block.signal = none ∨ block.signal = some signal

def UppermostAll : SignalState function → List Signal → Prop
  | _, [] => True
  | state, signal :: rest => Uppermost state signal ∧ UppermostAll (state.arrive signal) rest

def EventInOrder (state : SignalState function) : SignalEvent → Prop
  | .arrive signal => Uppermost state signal
  | .enter between => UppermostAll (state.pushed.install .sigint) between
  | .leave first second => ∀ restored, state.restore .sigint = some restored →
      UppermostAll restored first ∧ ∀ again, (restored.arriveAll first).restore .sigterm = some again →
        UppermostAll again second

/-- Every signal is captured outside the blocks that hold the other one. -/
def CapturedInOrder : SignalState function → List SignalEvent → Prop
  | _, [] => True
  | state, event :: rest =>
      EventInOrder state event ∧ CapturedInOrder (state.step event).state rest

/-- The last captured signal: that of the innermost block that holds one. -/
def held (blocks : List (DelayedInterrupt function)) : Option Signal :=
  blocks.findSome? DelayedInterrupt.signal

theorem length_captureAt (level : Nat) (signal : Signal)
    (blocks : List (DelayedInterrupt function)) :
    (captureAt level signal blocks).length = blocks.length := by
  induction blocks with
  | nil => rfl
  | cons block outer ih =>
      rw [captureAt]
      split
      · rfl
      · rw [List.length_cons, List.length_cons, ih]

theorem captureAt_oldHandlers (level : Nat) (signal : Signal)
    (blocks : List (DelayedInterrupt function)) :
    (captureAt level signal blocks).map DelayedInterrupt.oldHandlers =
      blocks.map DelayedInterrupt.oldHandlers := by
  induction blocks with
  | nil => rfl
  | cons block outer ih =>
      rw [captureAt]
      split
      · rfl
      · rw [List.map_cons, List.map_cons, ih]

theorem held_captureAt {level : Nat} {signal : Signal} {blocks : List (DelayedInterrupt function)}
    (inside : level < blocks.length)
    (above : ∀ block ∈ blocks.take (blocks.length - 1 - level),
      block.signal = none ∨ block.signal = some signal) :
    held (captureAt level signal blocks) = some signal := by
  induction blocks with
  | nil => exact absurd inside (Nat.not_lt_zero level)
  | cons block outer ih =>
      unfold held at ih ⊢
      rw [captureAt]
      by_cases here : outer.length = level
      · rw [if_pos here]
        rfl
      · rw [if_neg here]
        rw [List.length_cons] at inside
        have lower : level < outer.length := by omega
        have count : (block :: outer).length - 1 - level = outer.length - 1 - level + 1 := by
          rw [List.length_cons]
          omega
        rw [count, List.take_succ_cons] at above
        have rest := ih lower (fun other member => above other (List.mem_cons_of_mem _ member))
        rw [List.findSome?_cons]
        cases above block List.mem_cons_self with
        | inl empty =>
            rw [empty]
            exact rest
        | inr same => rw [same]

/-! ### What holds inside the outermost block -/

section Inside

variable (dispositions : Signal → Disposition function)

/-- What the block at a level found installed. -/
def handlerBelow (signal : Signal) : Nat → Handler function
  | 0 => .given (dispositions signal)
  | level + 1 => .block level

def oldHandlersAt (level : Nat) : List (Signal × Handler function) :=
  [(.sigint, handlerBelow dispositions .sigint level),
    (.sigterm, handlerBelow dispositions .sigterm level)]

/-- The old handlers of so many blocks. -/
def chain : Nat → List (List (Signal × Handler function))
  | 0 => []
  | level + 1 => oldHandlersAt dispositions level :: chain level

/-- So many blocks are entered, the innermost one captures, and nothing was delivered. -/
structure Armed (count : Nat) (state : SignalState function) : Prop where
  handlers : ∀ signal, state.handlers signal = handlerBelow dispositions signal count
  chained : state.blocks.map DelayedInterrupt.oldHandlers = chain dispositions count
  deliveries : state.deliveries = []

/-- Whichever signal arrives, a block captures it. -/
def Capturing (state : SignalState function) : Prop :=
  ∀ signal, ∃ level, state.handlers signal = .block level ∧ level < state.blocks.length

/-- What the arrival of signals leaves as it is. -/
structure OnlyCaptured (before after : SignalState function) : Prop where
  handlers : after.handlers = before.handlers
  oldHandlers : after.blocks.map DelayedInterrupt.oldHandlers =
    before.blocks.map DelayedInterrupt.oldHandlers
  deliveries : after.deliveries = before.deliveries

variable {dispositions}

theorem OnlyCaptured.length {before after : SignalState function}
    (same : OnlyCaptured before after) : after.blocks.length = before.blocks.length := by
  have lengths := congrArg List.length same.oldHandlers
  rw [List.length_map, List.length_map] at lengths
  exact lengths

theorem Capturing.arrive {state : SignalState function} (capturing : Capturing state)
    (signal : Signal) : OnlyCaptured state (state.arrive signal) := by
  obtain ⟨level, installed, _inside⟩ := capturing signal
  unfold SignalState.arrive
  rw [installed]
  exact ⟨rfl, captureAt_oldHandlers level signal state.blocks, rfl⟩

theorem Capturing.mono {before after : SignalState function} (capturing : Capturing before)
    (same : OnlyCaptured before after) : Capturing after := by
  intro signal
  rw [same.handlers, same.length]
  exact capturing signal

theorem Capturing.held_arrive {state : SignalState function} (capturing : Capturing state)
    {signal : Signal} (uppermost : Uppermost state signal) :
    held (state.arrive signal).blocks = some signal := by
  obtain ⟨level, installed, inside⟩ := capturing signal
  unfold SignalState.arrive
  rw [installed]
  exact held_captureAt inside (uppermost level installed)

theorem Capturing.arriveAll (signals : List Signal) :
    ∀ {state : SignalState function}, Capturing state →
      OnlyCaptured state (state.arriveAll signals) := by
  induction signals with
  | nil => exact fun _capturing => ⟨rfl, rfl, rfl⟩
  | cons signal rest ih =>
      intro state capturing
      have first := capturing.arrive signal
      have later := ih (capturing.mono first)
      constructor
      · exact later.handlers.trans first.handlers
      · exact later.oldHandlers.trans first.oldHandlers
      · exact later.deliveries.trans first.deliveries

theorem Capturing.held_arriveAll (signals : List Signal) :
    ∀ {state : SignalState function}, Capturing state → UppermostAll state signals →
      held (state.arriveAll signals).blocks = signals.getLast?.or (held state.blocks) := by
  induction signals with
  | nil => exact fun _capturing _uppermost => rfl
  | cons signal rest ih =>
      intro state capturing uppermost
      have later := ih (capturing.mono (capturing.arrive signal)) uppermost.2
      rw [capturing.held_arrive uppermost.1] at later
      rw [List.getLast?_cons]
      refine later.trans ?_
      cases rest.getLast? with
      | none => rfl
      | some last => rfl

theorem Armed.length {count : Nat} {state : SignalState function}
    (armed : Armed dispositions count state) : state.blocks.length = count := by
  have lengths := congrArg List.length armed.chained
  rw [List.length_map] at lengths
  rw [lengths]
  clear armed lengths
  induction count with
  | zero => rfl
  | succ count ih => rw [chain, List.length_cons, ih]

theorem Armed.capturing {count : Nat} {state : SignalState function}
    (armed : Armed dispositions (count + 1) state) : Capturing state := by
  intro signal
  rw [armed.handlers signal, armed.length]
  exact ⟨count, rfl, Nat.lt_succ_self count⟩

theorem Armed.onlyCaptured {count : Nat} {before after : SignalState function}
    (armed : Armed dispositions count before) (same : OnlyCaptured before after) :
    Armed dispositions count after := by
  constructor
  · rw [same.handlers]
    exact armed.handlers
  · rw [same.oldHandlers]
    exact armed.chained
  · rw [same.deliveries]
    exact armed.deliveries

/-- The innermost of the blocks, with its old handlers. -/
theorem innermost {count : Nat} {blocks : List (DelayedInterrupt function)}
    (chained : blocks.map DelayedInterrupt.oldHandlers = chain dispositions (count + 1)) :
    ∃ block outer, blocks = block :: outer ∧
      block.oldHandlers = oldHandlersAt dispositions count ∧
        outer.map DelayedInterrupt.oldHandlers = chain dispositions count := by
  cases blocks with
  | nil => cases chained
  | cons block outer =>
      obtain ⟨first, rest⟩ := List.cons.inj chained
      exact ⟨block, outer, rfl, first, rest⟩

/-! ### Entering -/

/-- The moment between the two assignments of `__enter__`. -/
def SignalState.halfway (state : SignalState function) : SignalState function :=
  state.pushed.install .sigint

theorem install_held (state : SignalState function) (signal : Signal) :
    held (state.install signal).blocks = held state.blocks := by
  unfold SignalState.install
  split
  · rfl
  case h_2 shape =>
    unfold held
    rw [shape]
    rfl

theorem halfway_held (state : SignalState function) :
    held state.halfway.blocks = held state.blocks :=
  install_held state.pushed .sigint

theorem Armed.halfway_oldHandlers {count : Nat} {state : SignalState function}
    (armed : Armed dispositions count state) :
    state.halfway.blocks.map DelayedInterrupt.oldHandlers =
      [(.sigint, handlerBelow dispositions .sigint count)] :: chain dispositions count := by
  have first : state.handlers .sigint = handlerBelow dispositions .sigint count :=
    armed.handlers .sigint
  rw [← armed.chained, ← first]
  rfl

theorem Armed.halfway_capturing {count : Nat} {state : SignalState function}
    (armed : Armed dispositions (count + 1) state) : Capturing state.halfway := by
  have size : state.halfway.blocks.length = state.blocks.length + 1 := rfl
  intro signal
  rw [size]
  cases signal with
  | sigint => exact ⟨state.blocks.length, rfl, Nat.lt_succ_self _⟩
  | sigterm =>
      obtain ⟨level, installed, inside⟩ := armed.capturing .sigterm
      exact ⟨level, installed, Nat.lt_succ_of_lt inside⟩

/-- The second assignment, after signals that were only captured. -/
theorem Armed.install_second {count : Nat} {state between : SignalState function}
    (armed : Armed dispositions count state) (same : OnlyCaptured state.halfway between) :
    Armed dispositions (count + 1) (between.install .sigterm) := by
  have chained := same.oldHandlers
  rw [armed.halfway_oldHandlers] at chained
  have size : between.blocks.length = count + 1 := by
    rw [same.length, ← armed.length]
    rfl
  have handlers : between.handlers =
      Function.update state.handlers .sigint (.block state.blocks.length) := same.handlers
  have deliveries : between.deliveries = [] := same.deliveries.trans armed.deliveries
  cases shape : between.blocks with
  | nil =>
      rw [shape] at chained
      cases chained
  | cons block outer =>
      rw [shape] at chained size
      obtain ⟨first, rest⟩ := List.cons.inj chained
      have outerSize : outer.length = count := Nat.succ.inj size
      unfold SignalState.install
      rw [shape]
      dsimp only
      constructor
      · intro signal
        dsimp only
        cases signal with
        | sigint =>
            rw [Function.update_of_ne (by decide), handlers, Function.update_self, armed.length]
            rfl
        | sigterm =>
            rw [Function.update_self, outerSize]
            rfl
      · have second : between.handlers .sigterm = handlerBelow dispositions .sigterm count := by
          rw [handlers, Function.update_of_ne (by decide)]
          exact armed.handlers .sigterm
        rw [List.map_cons, rest, first, second]
        rfl
      · exact deliveries

theorem Armed.enter {count : Nat} {state : SignalState function}
    (armed : Armed dispositions (count + 1) state) {between : List Signal}
    (uppermost : UppermostAll (state.pushed.install .sigint) between) :
    Armed dispositions (count + 2) (state.enter between) ∧
      held (state.enter between).blocks = between.getLast?.or (held state.blocks) := by
  constructor
  · exact armed.install_second (armed.halfway_capturing.arriveAll between)
  · unfold SignalState.enter
    rw [install_held]
    exact (armed.halfway_capturing.held_arriveAll between uppermost).trans
      (congrArg _ (halfway_held state))

/-- The outermost block is on. -/
theorem armed_outermost (dispositions : Signal → Disposition function) :
    Armed dispositions 1 (outermost dispositions) := by
  have start : Armed dispositions 0
      ({ handlers := fun signal => .given (dispositions signal) } : SignalState function) :=
    { handlers := fun _signal => rfl, chained := rfl, deliveries := rfl }
  exact start.install_second ⟨rfl, rfl, rfl⟩

theorem held_outermost (dispositions : Signal → Disposition function) :
    held (outermost dispositions).blocks = none := rfl

/-! ### Leaving -/

theorem restore_eq {state : SignalState function} {block : DelayedInterrupt function}
    {outer : List (DelayedInterrupt function)} (shape : state.blocks = block :: outer) {level : Nat}
    (old : block.oldHandlers = oldHandlersAt dispositions level) (signal : Signal) :
    state.restore signal =
      if (handlerBelow dispositions signal level).isForeign then none
      else some { state with
        handlers := Function.update state.handlers signal
          (handlerBelow dispositions signal level) } := by
  have found : block.oldHandlers.lookup signal = some (handlerBelow dispositions signal level) := by
    rw [old]
    cases signal with
    | sigint => rfl
    | sigterm => rfl
  unfold SignalState.restore
  rw [shape]
  dsimp only
  rw [found]

/-- An inner block restores the handlers of the block around it. -/
theorem restore_inner {state : SignalState function} {count : Nat}
    (chained : state.blocks.map DelayedInterrupt.oldHandlers = chain dispositions (count + 2))
    (signal : Signal) :
    state.restore signal =
      some { state with handlers := Function.update state.handlers signal (.block count) } := by
  obtain ⟨block, outer, shape, old, _rest⟩ := innermost chained
  rw [restore_eq shape old]
  rfl

theorem Capturing.restored {state : SignalState function} (capturing : Capturing state)
    {count : Nat} (inside : count < state.blocks.length) (signal : Signal) :
    Capturing { state with handlers := Function.update state.handlers signal (.block count) } := by
  intro other
  by_cases same : other = signal
  · rw [same]
    exact ⟨count, Function.update_self .., inside⟩
  · obtain ⟨level, installed, lower⟩ := capturing other
    exact ⟨level, (Function.update_of_ne same _ _).trans installed, lower⟩

/-- An inner block hands what it holds to the block around it. -/
theorem replay_inner {state : SignalState function} {count : Nat}
    (chained : state.blocks.map DelayedInterrupt.oldHandlers = chain dispositions (count + 2)) :
    state.replay.raised = none ∧ state.replay.state.handlers = state.handlers ∧
      state.replay.state.deliveries = state.deliveries ∧
        state.replay.state.blocks.map DelayedInterrupt.oldHandlers =
          chain dispositions (count + 1) ∧
          held state.replay.state.blocks = held state.blocks := by
  obtain ⟨block, outer, shape, old, rest⟩ := innermost chained
  have size : outer.length = count + 1 := by
    have lengths := congrArg List.length rest
    rw [List.length_map] at lengths
    rw [lengths]
    clear lengths rest shape chained old
    induction count with
    | zero => rfl
    | succ count ih => rw [chain, List.length_cons, ih]
  unfold SignalState.replay
  rw [shape]
  dsimp only
  cases captured : block.signal with
  | none =>
      refine ⟨rfl, rfl, rfl, rest, ?_⟩
      unfold held
      rw [List.findSome?_cons, captured]
  | some signal =>
      have found : block.oldHandlers.lookup signal = some (.block count) := by
        rw [old]
        cases signal with
        | sigint => rfl
        | sigterm => rfl
      have top : held (captureAt count signal outer) = some signal := by
        apply held_captureAt
        · rw [size]
          exact Nat.lt_succ_self count
        · have none : outer.length - 1 - count = 0 := by omega
          rw [none]
          intro other member
          cases member
      dsimp only
      rw [found]
      refine ⟨rfl, rfl, rfl, ?_, ?_⟩
      · exact (captureAt_oldHandlers count signal outer).trans rest
      · refine top.trans ?_
        unfold held
        rw [List.findSome?_cons, captured]

/-- After an inner block the block around it captures. -/
theorem Armed.leave {count : Nat} {state : SignalState function}
    (armed : Armed dispositions (count + 2) state) {first second : List Signal}
    (ordered : EventInOrder state (.leave first second)) :
    ∃ next, state.leave first second = { state := next } ∧ Armed dispositions (count + 1) next ∧
      held next.blocks = (first ++ second).getLast?.or (held state.blocks) := by
  have inside : count < state.blocks.length := by
    rw [armed.length]
    omega
  have firstRestored := restore_inner armed.chained .sigint
  obtain ⟨orderedFirst, orderedSecond⟩ := ordered _ firstRestored
  have capturing := armed.capturing.restored inside .sigint
  have firstSame := capturing.arriveAll first
  have firstHeld := capturing.held_arriveAll first orderedFirst
  have firstChained := firstSame.oldHandlers.trans armed.chained
  have secondRestored := restore_inner firstChained .sigterm
  have laterInside : count <
      (SignalState.arriveAll { state with
        handlers := Function.update state.handlers .sigint (.block count) } first).blocks.length := by
    rw [firstSame.length]
    exact inside
  have laterCapturing := (capturing.mono firstSame).restored laterInside .sigterm
  have secondSame := laterCapturing.arriveAll second
  have secondHeld := laterCapturing.held_arriveAll second (orderedSecond _ secondRestored)
  obtain ⟨returned, handlers, deliveries, chained, heldSame⟩ :=
    replay_inner (secondSame.oldHandlers.trans firstChained)
  refine ⟨_, ?_, ⟨?_, chained, ?_⟩, ?_⟩
  · unfold SignalState.leave
    rw [firstRestored]
    dsimp only
    rw [secondRestored]
    dsimp only
    rw [← returned]
  · intro signal
    rw [handlers, secondSame.handlers, firstSame.handlers]
    dsimp only
    cases signal with
    | sigint =>
        rw [Function.update_of_ne (by decide), Function.update_self]
        rfl
    | sigterm =>
        rw [Function.update_self]
        rfl
  · rw [deliveries, secondSame.deliveries]
    exact firstSame.deliveries.trans armed.deliveries
  · rw [heldSame, secondHeld, List.getLast?_append, Option.or_assoc]
    exact congrArg _ firstHeld

/-! ### Runs inside the outermost block -/

theorem Armed.arrive {count : Nat} {state : SignalState function}
    (armed : Armed dispositions (count + 1) state) {signal : Signal}
    (uppermost : Uppermost state signal) :
    Armed dispositions (count + 1) (state.arrive signal) ∧
      held (state.arrive signal).blocks = some signal :=
  ⟨armed.onlyCaptured (armed.capturing.arrive signal), armed.capturing.held_arrive uppermost⟩

theorem run_cons {state next : SignalState function} {event : SignalEvent}
    (stepped : state.step event = { state := next }) (rest : List SignalEvent) :
    state.run (event :: rest) = next.run rest := by
  rw [SignalState.run, stepped]

/-- What a run from here comes to. -/
structure RunsQuietly (dispositions : Signal → Disposition function) (state : SignalState function)
    (events : List SignalEvent) : Prop where
  quiet : ∀ earlier later, events = earlier ++ later → (state.run earlier).state.deliveries = []
  returned : (state.run events).raised = none
  armed : Armed dispositions 1 (state.run events).state
  held : held (state.run events).state.blocks = (lastSignal events).or (held state.blocks)

theorem lastSignal_cons (event : SignalEvent) (rest : List SignalEvent) :
    lastSignal (event :: rest) = (lastSignal rest).or event.signals.getLast? := by
  unfold lastSignal
  rw [List.flatMap_cons, List.getLast?_append]

theorem RunsQuietly.cons {state next : SignalState function} {event : SignalEvent}
    {rest : List SignalEvent} (later : RunsQuietly dispositions next rest)
    (stepped : state.step event = { state := next }) (quiet : state.deliveries = [])
    (heldNext : VaultSearch.held next.blocks =
      event.signals.getLast?.or (VaultSearch.held state.blocks)) :
    RunsQuietly dispositions state (event :: rest) := by
  constructor
  · intro earlier after split
    cases earlier with
    | nil => exact quiet
    | cons first others =>
        rw [List.cons_append] at split
        obtain ⟨same, tail⟩ := List.cons.inj split
        rw [← same, run_cons stepped]
        exact later.quiet others after tail
  · rw [run_cons stepped]
    exact later.returned
  · rw [run_cons stepped]
    exact later.armed
  · rw [run_cons stepped, lastSignal_cons, Option.or_assoc, ← heldNext]
    exact later.held

theorem Nested.runs {depth : Nat} {events : List SignalEvent} (nested : Nested depth events) :
    ∀ {state : SignalState function}, Armed dispositions (depth + 1) state →
      CapturedInOrder state events → RunsQuietly dispositions state events := by
  induction nested with
  | finished =>
      intro state armed _ordered
      constructor
      · intro earlier later split
        rw [(List.append_eq_nil_iff.mp split.symm).1]
        exact armed.deliveries
      · rfl
      · exact armed
      · rfl
  | arrive signal later ih =>
      intro state armed ordered
      obtain ⟨armedNext, heldNext⟩ := armed.arrive ordered.1
      exact (ih armedNext ordered.2).cons rfl armed.deliveries heldNext
  | enter between later ih =>
      intro state armed ordered
      obtain ⟨armedNext, heldNext⟩ := armed.enter ordered.1
      exact (ih armedNext ordered.2).cons rfl armed.deliveries heldNext
  | leave first second later ih =>
      intro state armed ordered
      obtain ⟨next, left, armedNext, heldNext⟩ := armed.leave ordered.1
      have rest := ordered.2
      rw [SignalState.step, left] at rest
      exact (ih armedNext rest).cons left armed.deliveries heldNext

/-! ### The end of the outermost block -/

/-- What the code makes of a captured signal. -/
def replayed (dispositions : Signal → Disposition function) (signal : Signal) :
    List (SignalDelivery function) :=
  match dispositions signal with
  | .function handler => [.called handler signal]
  | .sigDfl => if signal = .sigint then [.defaultAction signal] else []
  | _ => []

theorem leave_foreign {state : SignalState function} (armed : Armed dispositions 1 state)
    {signal : Signal} (foreign : dispositions signal = .foreign) :
    (state.leave [] []).state.deliveries = [] := by
  obtain ⟨block, outer, shape, old, _rest⟩ := innermost armed.chained
  have first := restore_eq shape old .sigint
  unfold SignalState.leave
  rw [first]
  by_cases refused : (handlerBelow dispositions .sigint 0).isForeign = true
  · rw [if_pos refused]
    exact armed.deliveries
  · rw [if_neg refused]
    cases signal with
    | sigint =>
        unfold handlerBelow at refused
        rw [foreign] at refused
        exact absurd rfl refused
    | sigterm =>
        have refusedSecond : (handlerBelow dispositions .sigterm 0).isForeign = true := by
          unfold handlerBelow
          rw [foreign]
          rfl
        have second := @restore_eq function dispositions { state with
          handlers := Function.update state.handlers .sigint
            (handlerBelow dispositions .sigint 0) } block outer shape 0 old .sigterm
        rw [if_pos refusedSecond] at second
        dsimp only [SignalState.arriveAll, List.foldl_nil]
        rw [second]
        exact armed.deliveries

theorem leave_outermost {state : SignalState function} (armed : Armed dispositions 1 state)
    (known : ∀ signal, dispositions signal ≠ .foreign) :
    (state.leave [] []).state.deliveries =
      (held state.blocks).elim [] (replayed dispositions) := by
  obtain ⟨block, outer, shape, old, rest⟩ := innermost armed.chained
  have accepted : ∀ signal, ¬(handlerBelow dispositions signal 0).isForeign = true := by
    intro signal foreign
    cases given : dispositions signal with
    | foreign => exact known signal given
    | function handler =>
        rw [handlerBelow, given] at foreign
        cases foreign
    | sigDfl =>
        rw [handlerBelow, given] at foreign
        cases foreign
    | sigIgn =>
        rw [handlerBelow, given] at foreign
        cases foreign
  have first := restore_eq shape old .sigint
  rw [if_neg (accepted .sigint)] at first
  have second := @restore_eq function dispositions { state with
    handlers := Function.update state.handlers .sigint
      (handlerBelow dispositions .sigint 0) } block outer shape 0 old .sigterm
  rw [if_neg (accepted .sigterm)] at second
  have alone : outer = [] := List.map_eq_nil_iff.mp rest
  have heldSame : held state.blocks = block.signal := by
    rw [shape, alone]
    unfold held
    rw [List.findSome?_cons]
    cases block.signal with
    | none => rfl
    | some signal => rfl
  unfold SignalState.leave
  rw [first, heldSame]
  dsimp only [SignalState.arriveAll, List.foldl_nil]
  rw [second]
  unfold SignalState.replay
  dsimp only
  rw [shape]
  dsimp only
  cases captured : block.signal with
  | none => exact armed.deliveries
  | some signal =>
      have found : block.oldHandlers.lookup signal = some (.given (dispositions signal)) := by
        rw [old]
        cases signal with
        | sigint => rfl
        | sigterm => rfl
      dsimp only [Option.elim]
      rw [found]
      unfold replayed
      cases dispositions signal with
      | function handler =>
          dsimp only
          rw [armed.deliveries]
          rfl
      | sigDfl =>
          dsimp only
          split
          · dsimp only
            rw [armed.deliveries]
            rfl
          · exact armed.deliveries
      | sigIgn => exact armed.deliveries
      | foreign => exact armed.deliveries

theorem delayedSession_eq {events : List SignalEvent}
    (runs : RunsQuietly dispositions (outermost dispositions) events) :
    delayedSession dispositions events =
      ((outermost dispositions).run events).state.leave [] [] := by
  have ended : (outermost dispositions).run events =
      { state := ((outermost dispositions).run events).state } := by
    rw [← runs.returned]
  unfold delayedSession
  rw [ended]

/-- The captured signal can be handed over: it is to be ignored, or both old handlers come from
Python and it is not SIGTERM with the default action. -/
def HandsOver (dispositions : Signal → Disposition function) (signal : Signal) : Prop :=
  dispositions signal = .sigIgn ∨
    (∀ other, dispositions other ≠ .foreign) ∧
      ¬(signal = .sigterm ∧ dispositions signal = .sigDfl)

theorem replayed_eq_deliver_iff (known : ∀ other, dispositions other ≠ .foreign)
    (signal : Signal) :
    replayed dispositions signal = (dispositions signal).deliver signal ↔
      HandsOver dispositions signal := by
  unfold replayed HandsOver
  cases given : dispositions signal with
  | function handler =>
      constructor
      · intro _same
        refine Or.inr ⟨known, fun both => ?_⟩
        cases both.2
      · exact fun _handsOver => rfl
  | sigDfl =>
      cases signal with
      | sigint =>
          constructor
          · intro _same
            refine Or.inr ⟨known, fun both => ?_⟩
            cases both.1
          · exact fun _handsOver => rfl
      | sigterm =>
          constructor
          · intro same
            cases same
          · intro handsOver
            cases handsOver with
            | inl ignored => cases ignored
            | inr fine => exact absurd ⟨rfl, rfl⟩ fine.2
  | sigIgn =>
      constructor
      · exact fun _same => Or.inl rfl
      · exact fun _handsOver => rfl
  | foreign => exact absurd given (known signal)

theorem deliver_eq_nil_iff {disposition : Disposition function} (signal : Signal) :
    disposition.deliver signal = [] ↔ disposition = .sigIgn := by
  cases disposition with
  | sigIgn => exact ⟨fun _none => rfl, fun _ignored => rfl⟩
  | function handler =>
      constructor
      · intro none
        cases none
      · intro ignored
        cases ignored
  | sigDfl =>
      constructor
      · intro none
        cases none
      · intro ignored
        cases ignored
  | foreign =>
      constructor
      · intro none
        cases none
      · intro ignored
        cases ignored

/-- When every signal is captured outside the blocks that hold the other one, the last signal is
delivered at the end of the outermost block exactly if it can be handed over. -/
theorem delayedSession_delivers_iff {function : Type}
    (dispositions : Signal → Disposition function) {events : List SignalEvent}
    (nested : Nested 0 events) (ordered : CapturedInOrder (outermost dispositions) events) :
    DeliversLast dispositions events ↔
      ∀ signal, lastSignal events = some signal → HandsOver dispositions signal := by
  have runs := nested.runs (armed_outermost dispositions) ordered
  have last := runs.held
  rw [held_outermost, Option.or_none] at last
  have session := congrArg (fun ended => ended.state.deliveries) (delayedSession_eq runs)
  by_cases known : ∀ other, dispositions other ≠ .foreign
  · rw [leave_outermost runs.armed known, last] at session
    constructor
    · intro delivers signal arrived
      have delivered := delivers.delivered
      rw [session, arrived] at delivered
      exact (replayed_eq_deliver_iff known signal).mp delivered
    · intro handsOver
      refine ⟨runs.quiet, session.trans ?_⟩
      cases arrived : lastSignal events with
      | none => rfl
      | some signal => exact (replayed_eq_deliver_iff known signal).mpr (handsOver signal arrived)
  · obtain ⟨other, foreign⟩ := not_forall.mp known
    rw [leave_foreign runs.armed (not_not.mp foreign)] at session
    constructor
    · intro delivers signal arrived
      have delivered := delivers.delivered
      rw [session, arrived] at delivered
      exact Or.inl ((deliver_eq_nil_iff signal).mp delivered.symm)
    · intro handsOver
      refine ⟨runs.quiet, session.trans ?_⟩
      cases arrived : lastSignal events with
      | none => rfl
      | some signal =>
          cases handsOver signal arrived with
          | inl ignored => exact ((deliver_eq_nil_iff signal).mpr ignored).symm
          | inr fine => exact absurd fine.1 known

end Inside

/-! ### Signals between the blocks' own steps -/

/-- No signal arrives while an inner block is being entered or left. -/
def Atomic : SignalEvent → Prop
  | .arrive _ => True
  | .enter between => between = []
  | .leave first second => first = [] ∧ second = []

theorem Armed.uppermost {dispositions : Signal → Disposition function} {count : Nat}
    {state : SignalState function} (armed : Armed dispositions (count + 1) state)
    (signal : Signal) : Uppermost state signal := by
  intro level installed
  rw [armed.handlers signal] at installed
  have top : count = level := Handler.block.inj installed
  have none : state.blocks.length - 1 - level = 0 := by
    rw [armed.length]
    omega
  rw [none]
  intro block member
  cases member

/-- Then signals are always captured in order. -/
theorem capturedInOrder_of_atomic {dispositions : Signal → Disposition function} {depth : Nat}
    {events : List SignalEvent} (nested : Nested depth events)
    (atomic : ∀ event ∈ events, Atomic event) :
    ∀ {state : SignalState function}, Armed dispositions (depth + 1) state →
      CapturedInOrder state events := by
  induction nested with
  | finished => exact fun _armed => trivial
  | arrive signal later ih =>
      intro state armed
      have uppermost := armed.uppermost signal
      refine ⟨uppermost, ih (fun event member => atomic event (List.mem_cons_of_mem _ member)) ?_⟩
      exact (armed.arrive uppermost).1
  | enter between later ih =>
      intro state armed
      have empty : between = [] := atomic _ List.mem_cons_self
      have inOrder : EventInOrder state (.enter between) := by
        rw [empty]
        trivial
      refine ⟨inOrder, ih (fun event member => atomic event (List.mem_cons_of_mem _ member)) ?_⟩
      exact (armed.enter inOrder).1
  | leave first second later ih =>
      intro state armed
      obtain ⟨emptyFirst, emptySecond⟩ : first = [] ∧ second = [] := atomic _ List.mem_cons_self
      have inOrder : EventInOrder state (.leave first second) := by
        rw [emptyFirst, emptySecond]
        exact fun _restored _same => ⟨trivial, fun _again _same => trivial⟩
      obtain ⟨next, left, armedNext, _held⟩ := armed.leave inOrder
      refine ⟨inOrder, ?_⟩
      rw [SignalState.step, left]
      exact ih (fun event member => atomic event (List.mem_cons_of_mem _ member)) armedNext

/-- Both signals have the same Python handler. -/
def pythonHandlers : Signal → Disposition Unit :=
  fun _signal => .function ()

/-- SIGTERM in an inner block and SIGINT behind it. -/
def twoSignals : List SignalEvent :=
  [.enter [], .arrive .sigterm, .leave [] [], .arrive .sigint]

theorem delayedSession_delivers_twoSignals : DeliversLast pythonHandlers twoSignals := by
  have nested : Nested 0 twoSignals :=
    .enter [] (.arrive .sigterm (.leave [] [] (.arrive .sigint .finished)))
  have atomic : ∀ event ∈ twoSignals, Atomic event := by
    unfold twoSignals
    simp [Atomic]
  have ordered := capturedInOrder_of_atomic nested atomic (armed_outermost pythonHandlers)
  apply (delayedSession_delivers_iff pythonHandlers nested ordered).mpr
  intro signal _arrived
  refine Or.inr ⟨?_, ?_⟩
  · intro other foreign
    cases foreign
  · intro both
    cases both.2

/-- SIGINT arrives while the inner block is being left, and SIGTERM is handed over after it. -/
example : (delayedSession pythonHandlers
    [.enter [], .arrive .sigterm, .leave [] [.sigint]]).state.deliveries =
      [.called () .sigterm] := rfl

/-- Nothing is installed from Python. -/
def defaultHandlers : Signal → Disposition Unit :=
  fun _signal => .sigDfl

/-- SIGTERM with its default action gets lost. -/
theorem delayedSession_loses_sigterm :
    ¬∀ (function : Type) (dispositions : Signal → Disposition function)
      (events : List SignalEvent), Nested 0 events → DeliversLast dispositions events := by
  intro holds
  have delivers := holds Unit defaultHandlers [.arrive .sigterm] (.arrive .sigterm .finished)
  have delivered := delivers.delivered
  have lost : (delayedSession defaultHandlers [.arrive .sigterm]).state.deliveries = [] := rfl
  rw [lost] at delivered
  cases delivered

end VaultSearch
