import Rtaco.Core.Listener
import Rtaco.Socket.SocketGuard

/-!
# The listener on its executor

Every call, completion and handler of a `Listener` is a label of one machine.
A receive may complete at any time after it was posted, its handler runs later,
and a walk over the buffer is interrupted wherever a slot is invoked.
-/

namespace Rtaco.Listener

open Netlink

/-- A completed receive whose handler has not run yet. -/
inductive Completion where
  | received (bytes : Nat)
  | failed (error : ErrorCode)
  deriving DecidableEq

/-- What `handle_read` is doing: walking the buffer, invoking the remaining slots
of the message at the cursor, or running one of them. -/
inductive Activity where
  | idle
  | walking (cursor : Cursor)
  | emitting (cursor : Cursor) (left : Nat)
  | inSlot (cursor : Cursor) (left : Nat)
  deriving DecidableEq

structure State where
  running : Bool := false
  guard : SocketGuard := { groupMask := SocketGuard.defaultGroupMask }
  buffer : Bytes := List.replicate bufferSize 0
  outstanding : Nat := 0
  queue : List Completion := []
  activity : Activity := .idle
  slots : Signal → Nat := fun _ => 0
  emitted : List Emission := []

def requestRead (state : State) : State :=
  if ¬ state.running then state
  else if state.guard.socket.isOpen then { state with outstanding := state.outstanding + 1 }
  else { state with queue := state.queue ++ [.failed badDescriptor] }

def start (outcomes : Outcomes) (state : State) : State :=
  if state.running then state
  else
    match state.guard.ensureOpen outcomes with
    | (guard, .value) => requestRead { state with guard := guard, running := true }
    | (guard, _) => { state with guard := guard }

/-- `SocketGuard::stop`; closing the socket aborts the outstanding receives. -/
def closeSocket (state : State) : State :=
  if state.guard.socket.isOpen then
    { state with
      guard := state.guard.stop
      outstanding := 0
      queue := state.queue ++ List.replicate state.outstanding (.failed operationAborted) }
  else state

def stop (state : State) : State :=
  if ¬ state.running then state else closeSocket { state with running := false }

def handleRead (completion : Completion) (state : State) : State :=
  if ¬ state.running then state
  else
    match completion with
    | .failed error => if error = operationAborted then state else requestRead state
    | .received bytes => { state with activity := .walking (.start bytes) }

/-- Go on with the slots of the message at the cursor, or with the next message. -/
def emit (cursor : Cursor) (state : State) : Nat → State
  | 0 => { state with activity := .walking (cursor.next state.buffer) }
  | left + 1 => { state with activity := .emitting cursor (left + 1) }

/-- One iteration of `process_messages`, up to the invocation of a slot. -/
def processNext (cursor : Cursor) (state : State) : State :=
  if cursor.Continues state.buffer then
    match handleMessage (state.buffer.drop cursor.header) with
    | none => emit cursor state 0
    | some emission =>
        emit cursor { state with emitted := state.emitted ++ [emission] }
          (state.slots emission.signal)
  else requestRead { state with activity := .idle }

/-- What the environment decides. `complete` and `fail` end a receive, `runHandler`
runs the next queued `handle_read`, `skipSlot` is a slot disconnected meanwhile. -/
inductive Label where
  | start (outcomes : Outcomes)
  | stop
  | complete (datagram : Bytes)
  | fail (error : ErrorCode)
  | runHandler
  | advance
  | enterSlot
  | skipSlot
  | leaveSlot
  | throwSlot
  | setSlots (signal : Signal) (count : Nat)

/-- `start` and `stop` are called between two handlers or from inside a slot. -/
def State.Callable (state : State) : Bool :=
  match state.activity with
  | .idle => true
  | .inSlot _ _ => true
  | _ => false

def step (state : State) : Label → Option State
  | .start outcomes => if state.Callable then some (start outcomes state) else none
  | .stop => if state.Callable then some (stop state) else none
  | .complete datagram =>
      if state.outstanding = 0 then none
      else
        let (buffer, bytes) := receive bufferSize state.buffer datagram
        some { state with
          outstanding := state.outstanding - 1
          buffer := buffer
          queue := state.queue ++ [.received bytes] }
  | .fail error =>
      if state.outstanding = 0 then none
      else some { state with
        outstanding := state.outstanding - 1
        queue := state.queue ++ [.failed error] }
  | .runHandler =>
      match state.activity, state.queue with
      | .idle, completion :: queue => some (handleRead completion { state with queue := queue })
      | _, _ => none
  | .advance =>
      match state.activity with
      | .walking cursor => some (processNext cursor state)
      | _ => none
  | .enterSlot =>
      match state.activity with
      | .emitting cursor (left + 1) => some { state with activity := .inSlot cursor left }
      | _ => none
  | .skipSlot =>
      match state.activity with
      | .emitting cursor (left + 1) => some (emit cursor state left)
      | _ => none
  | .leaveSlot =>
      match state.activity with
      | .inSlot cursor left => some (emit cursor state left)
      | _ => none
  | .throwSlot =>
      match state.activity with
      | .inSlot _ _ => some { state with activity := .idle }
      | _ => none
  | .setSlots signal count =>
      some { state with slots := Function.update state.slots signal count }

section Inversion

variable {state next : State}

theorem step_start {outcomes : Outcomes} (taken : step state (.start outcomes) = some next) :
    state.Callable = true ∧ next = start outcomes state := by
  simp only [step, Option.ite_none_right_eq_some, Option.some.injEq] at taken
  exact ⟨taken.1, taken.2.symm⟩

theorem step_stop (taken : step state .stop = some next) :
    state.Callable = true ∧ next = stop state := by
  simp only [step, Option.ite_none_right_eq_some, Option.some.injEq] at taken
  exact ⟨taken.1, taken.2.symm⟩

theorem step_complete {datagram : Bytes} (taken : step state (.complete datagram) = some next) :
    state.outstanding ≠ 0 ∧
      next = { state with
        outstanding := state.outstanding - 1
        buffer := (receive bufferSize state.buffer datagram).1
        queue := state.queue ++ [.received (receive bufferSize state.buffer datagram).2] } := by
  simp only [step, Option.ite_none_left_eq_some, Option.some.injEq] at taken
  exact ⟨taken.1, taken.2.symm⟩

theorem step_fail {error : ErrorCode} (taken : step state (.fail error) = some next) :
    state.outstanding ≠ 0 ∧
      next = { state with
        outstanding := state.outstanding - 1
        queue := state.queue ++ [.failed error] } := by
  simp only [step, Option.ite_none_left_eq_some, Option.some.injEq] at taken
  exact ⟨taken.1, taken.2.symm⟩

theorem step_runHandler (taken : step state .runHandler = some next) :
    ∃ completion queue, state.activity = .idle ∧ state.queue = completion :: queue ∧
      next = handleRead completion { state with queue := queue } := by
  simp only [step] at taken
  split at taken
  next completion queue idle queued =>
    exact ⟨completion, queue, idle, queued, (Option.some.inj taken).symm⟩
  next => cases taken

theorem step_advance (taken : step state .advance = some next) :
    ∃ cursor, state.activity = .walking cursor ∧ next = processNext cursor state := by
  simp only [step] at taken
  split at taken
  next cursor walking => exact ⟨cursor, walking, (Option.some.inj taken).symm⟩
  next => cases taken

theorem step_enterSlot (taken : step state .enterSlot = some next) :
    ∃ cursor left, state.activity = .emitting cursor (left + 1) ∧
      next = { state with activity := .inSlot cursor left } := by
  simp only [step] at taken
  split at taken
  next cursor left emitting => exact ⟨cursor, left, emitting, (Option.some.inj taken).symm⟩
  next => cases taken

theorem step_skipSlot (taken : step state .skipSlot = some next) :
    ∃ cursor left, state.activity = .emitting cursor (left + 1) ∧
      next = emit cursor state left := by
  simp only [step] at taken
  split at taken
  next cursor left emitting => exact ⟨cursor, left, emitting, (Option.some.inj taken).symm⟩
  next => cases taken

theorem step_leaveSlot (taken : step state .leaveSlot = some next) :
    ∃ cursor left, state.activity = .inSlot cursor left ∧ next = emit cursor state left := by
  simp only [step] at taken
  split at taken
  next cursor left inSlot => exact ⟨cursor, left, inSlot, (Option.some.inj taken).symm⟩
  next => cases taken

theorem step_throwSlot (taken : step state .throwSlot = some next) :
    ∃ cursor left, state.activity = .inSlot cursor left ∧
      next = { state with activity := .idle } := by
  simp only [step] at taken
  split at taken
  next cursor left inSlot => exact ⟨cursor, left, inSlot, (Option.some.inj taken).symm⟩
  next => cases taken

theorem step_setSlots {signal : Signal} {count : Nat}
    (taken : step state (.setSlots signal count) = some next) :
    next = { state with slots := Function.update state.slots signal count } :=
  (Option.some.inj taken).symm

end Inversion

end Rtaco.Listener
