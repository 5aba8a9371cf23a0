import Rtaco.Socket.SocketGuard
import Rtaco.Tasks.Requests

/-!
# `nl_control.cxx`

The operations of a `Control` are coroutines on one strand. A label runs one of
them to its next suspension, completes what one of them waits for, or is a call
from outside. Dumps open sockets of their own; the neighbor operations share
`socket_guard_`.
-/

namespace Rtaco.Control

open Netlink

/-- What an operation waits for: the gate, its turn on the strand (`woken`, `ready`,
`returning`), the send of its request, or a receive. -/
inductive Phase where
  | waiting
  | woken
  | sending
  | ready (completions : List (Except ErrorCode Bytes))
  | receiving (completions : List (Except ErrorCode Bytes))
  | returning (result : Expected Answer)
  | finished (result : Expected Answer)
  | threw (action : String) (error : ErrorCode)
  deriving DecidableEq

structure Operation where
  request : Request
  sequence : Option Nat := none
  buffer : Bytes := []
  phase : Phase := .waiting
  deriving DecidableEq

/-- A socket with the operations whose receives are outstanding, oldest first, and
those whose requests the kernel has not answered completely. -/
structure Channel where
  guard : SocketGuard := { groupMask := SocketGuard.defaultGroupMask }
  receives : List Nat := []
  requests : List Nat := []
  deriving DecidableEq

inductive ChannelId where
  | shared
  | own (operation : Nat)
  deriving DecidableEq

def Request.channel (operation : Nat) : Request → ChannelId
  | .dump _ => .own operation
  | _ => .shared

/-- `gate` is the expiry of `gate_`, in nanoseconds of the steady clock. -/
structure State where
  now : Int
  gate : Int := -2 ^ 63
  sequence : Nat := 1
  operations : Nat → Option Operation := fun _ => none
  channels : ChannelId → Channel := fun _ => {}

namespace State

def setPhase (operation : Nat) (phase : Phase) (state : State) : State :=
  { state with
    operations := Function.update state.operations operation
      ((state.operations operation).map fun entry => { entry with phase := phase }) }

def setChannel (id : ChannelId) (channel : Channel) (state : State) : State :=
  { state with channels := Function.update state.channels id channel }

/-- Complete every wait on the gate. -/
def openGate (state : State) : State :=
  { state with
    operations := fun operation => (state.operations operation).map fun entry =>
      match entry.phase with
      | .waiting => { entry with phase := .woken }
      | _ => entry }

/-- Complete every send on the shared socket with an error. -/
def abortSends (state : State) : State :=
  { state with
    operations := fun operation => (state.operations operation).map fun entry =>
      match entry.phase with
      | .sending =>
          if entry.request.channel operation = .shared then
            { entry with phase := .returning (.unexpected operationAborted) }
          else entry
      | _ => entry }

/-- `shared`, the channel of `socket_guard_`. -/
abbrev shared (state : State) : Channel := state.channels .shared

def sequenceOf (state : State) (operation : Nat) : Option Nat :=
  (state.operations operation).bind Operation.sequence

end State

/-- `acquire_socket_token`, up to its wait; moving the expiry aborts the earlier waits. -/
def acquireSocketToken (state : State) : State :=
  let next := state.gate + 1
  let next := if next ≤ state.now then state.now + 1 else next
  { state.openGate with gate := next }

/-- From the gate to the send of the request. -/
def openSocket (operation : Nat) (entry : Operation) (outcomes : Outcomes) (stale : Bytes)
    (state : State) : State :=
  let id := entry.request.channel operation
  let channel := state.channels id
  match channel.guard.ensureOpen outcomes with
  | (guard, .unexpected error) =>
      (state.setChannel id { channel with guard := guard }).setPhase operation
        (.finished (.unexpected error))
  | (guard, .thrown action error) =>
      (state.setChannel id { channel with guard := guard }).setPhase operation
        (.threw action error)
  | (guard, .value) =>
      let opened := state.setChannel id { channel with guard := guard }
      { opened with
        sequence := (state.sequence + 1) % 2 ^ 32
        operations := Function.update state.operations operation
          (some { entry with
            sequence := some state.sequence
            buffer := freshBuffer stale
            phase := .sending }) }

def asyncDumpRoutesImpl (operation : Nat) (entry : Operation) :
    Outcomes → Bytes → State → State :=
  openSocket operation { entry with request := .dump .route }

def asyncDumpAddressesImpl (operation : Nat) (entry : Operation) :
    Outcomes → Bytes → State → State :=
  openSocket operation { entry with request := .dump .address }

def asyncDumpNeighborsImpl (operation : Nat) (entry : Operation) :
    Outcomes → Bytes → State → State :=
  openSocket operation { entry with request := .dump .neighbor }

def asyncDumpLinksImpl (operation : Nat) (entry : Operation) :
    Outcomes → Bytes → State → State :=
  openSocket operation { entry with request := .dump .link }

def asyncProbeNeighborImpl (operation : Nat) (entry : Operation) :
    Outcomes → Bytes → State → State :=
  openSocket operation { entry with request := .probeNeighbor }

def asyncFlushNeighborImpl (operation : Nat) (entry : Operation) :
    Outcomes → Bytes → State → State :=
  openSocket operation { entry with request := .flushNeighbor }

def asyncGetNeighborImpl (operation : Nat) (entry : Operation) :
    Outcomes → Bytes → State → State :=
  openSocket operation { entry with request := .getNeighbor }

/-- The coroutine of a request. -/
def implOf : Request → Nat → Operation → Outcomes → Bytes → State → State
  | .dump .route => asyncDumpRoutesImpl
  | .dump .address => asyncDumpAddressesImpl
  | .dump .neighbor => asyncDumpNeighborsImpl
  | .dump .link => asyncDumpLinksImpl
  | .probeNeighbor => asyncProbeNeighborImpl
  | .flushNeighbor => asyncFlushNeighborImpl
  | .getNeighbor => asyncGetNeighborImpl

@[simp]
theorem implOf_eq (request : Request) (operation : Nat) (sequence : Option Nat)
    (buffer : Bytes) (phase : Phase) :
    implOf request operation ⟨request, sequence, buffer, phase⟩ =
      openSocket operation ⟨request, sequence, buffer, phase⟩ := by
  cases request with
  | dump kind => cases kind <;> rfl
  | _ => rfl

/-- The completion of a receive runs the task's loop up to its next receive. -/
def completeReceive (operation : Nat) (completion : Except ErrorCode Bytes) (state : State) :
    Option State :=
  match state.operations operation with
  | some ⟨request, some sequence, buffer, .receiving completions⟩ =>
      match request.readLoop sequence buffer (completions ++ [completion]) with
      | .returned result => some (state.setPhase operation (.returning result))
      | .waiting _ => some (state.setPhase operation (.ready (completions ++ [completion])))
      | .diverged => none
  | _ => none

/-- `stop`; closing the socket aborts its sends and receives and drops what was queued on it. -/
def stop (state : State) : Option State :=
  let channel := state.shared
  if channel.guard.socket.isOpen then
    channel.receives.foldlM
      (fun state operation => completeReceive operation (.error operationAborted) state)
      (state.setChannel .shared { guard := channel.guard.stop }).abortSends
  else some state

inductive Label where
  | issue (operation : Nat) (request : Request)
  | tick (elapsed : Nat)
  | expire
  | failWait (operation : Nat) (error : ErrorCode)
  | resume (operation : Nat) (outcomes : Outcomes) (stale : Bytes)
  | send (operation : Nat)
  | failSend (operation : Nat) (error : ErrorCode)
  | postReceive (operation : Nat)
  | reply (id : ChannelId) (messages : List Message) (last : Bool)
  | notify (id : ChannelId) (datagram : Bytes)
  | fail (id : ChannelId) (error : ErrorCode)
  | finish (operation : Nat)
  | stop

/-- The messages of a kernel datagram carry the sequence of the request they answer. -/
def State.Answers (state : State) (owner : Nat) (messages : List Message) : Prop :=
  messages ≠ [] ∧
    ∀ message ∈ messages, state.sequenceOf owner = some (nlmsgSeq message.bytes)

instance (state : State) (owner : Nat) (messages : List Message) :
    Decidable (state.Answers owner messages) :=
  inferInstanceAs (Decidable (_ ∧ _))

def step (state : State) : Label → Option State
  | .issue operation request =>
      match state.operations operation with
      | some _ => none
      | none =>
          let acquired := acquireSocketToken state
          some { acquired with
            operations := Function.update acquired.operations operation
              (some { request := request }) }
  | .tick elapsed => some { state with now := state.now + elapsed }
  | .expire => if state.gate ≤ state.now then some state.openGate else none
  | .failWait operation error =>
      match state.operations operation with
      | some ⟨_, _, _, .waiting⟩ =>
          if error = operationAborted then none
          else some (state.setPhase operation (.threw "gate wait failed" error))
      | _ => none
  | .resume operation outcomes stale =>
      match state.operations operation with
      | some ⟨request, sequence, buffer, .woken⟩ =>
          some (implOf request operation ⟨request, sequence, buffer, .woken⟩ outcomes stale state)
      | _ => none
  | .send operation =>
      match state.operations operation with
      | some ⟨request, _, _, .sending⟩ =>
          let id := request.channel operation
          let channel := state.channels id
          if channel.guard.socket.isOpen then
            some ((state.setChannel id
              { channel with requests := channel.requests ++ [operation] }).setPhase operation
                (.ready []))
          else none
      | _ => none
  | .failSend operation error =>
      match state.operations operation with
      | some ⟨_, _, _, .sending⟩ =>
          some (state.setPhase operation (.returning (.unexpected error)))
      | _ => none
  | .postReceive operation =>
      match state.operations operation with
      | some ⟨request, _, _, .ready completions⟩ =>
          let id := request.channel operation
          let channel := state.channels id
          if channel.guard.socket.isOpen then
            some ((state.setChannel id
              { channel with receives := channel.receives ++ [operation] }).setPhase operation
                (.receiving completions))
          else some (state.setPhase operation (.returning (.unexpected badDescriptor)))
      | _ => none
  | .reply id messages last =>
      let channel := state.channels id
      match channel.receives, channel.requests with
      | reader :: receives, owner :: requests =>
          -- a neighbor request is answered by one datagram
          if state.Answers owner messages ∧ (id = .shared → last = true) then
            completeReceive reader (.ok (Records.Format.encode messages))
              (state.setChannel id
                { channel with
                  receives := receives
                  requests := if last then requests else owner :: requests })
          else none
      | _, _ => none
  | .notify id datagram =>
      let channel := state.channels id
      match channel.receives with
      | reader :: receives =>
          completeReceive reader (.ok datagram)
            (state.setChannel id { channel with receives := receives })
      | [] => none
  | .fail id error =>
      let channel := state.channels id
      match channel.receives with
      | reader :: receives =>
          completeReceive reader (.error error)
            (state.setChannel id { channel with receives := receives })
      | [] => none
  | .finish operation =>
      match state.operations operation with
      | some ⟨_, _, _, .returning result⟩ => some (state.setPhase operation (.finished result))
      | _ => none
  | .stop => stop state

end Rtaco.Control
