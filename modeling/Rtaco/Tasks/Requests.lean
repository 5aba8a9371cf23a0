import Rtaco.Tasks.NeighborTasks

/-!
# The seven requests

What a `Control` can be asked for, and the seven tasks as one family.
-/

namespace Rtaco.Control

open Netlink Scan

inductive Request where
  | dump (kind : EventKind)
  | getNeighbor
  | probeNeighbor
  | flushNeighbor
  deriving DecidableEq

inductive Answer where
  | events (kind : EventKind) (list : List kind.Event)
  | neighbor (event : NeighborEvent)
  | done
  deriving DecidableEq

/-- `receive_buffer_` of a new task, which holds what was in its memory before. -/
def freshBuffer (stale : Bytes) : Bytes := stale.takeD maxResponseBytes 0

/-- Where the task of a request is after the completed receives. -/
def Request.readLoop (sequence : Nat) (buffer : Bytes)
    (completions : List (Except ErrorCode Bytes)) : Request → ReadOutcome Unit Answer
  | .dump kind =>
      (Rtaco.readLoop (kind.dumpProcessMessage sequence) [] buffer completions).wrap
        (.events kind)
  | .getNeighbor =>
      (Rtaco.readLoop (NeighborGetTask.processMessage sequence) () buffer completions).wrap
        .neighbor
  | .probeNeighbor =>
      (Rtaco.readLoop (NeighborProbeTask.processMessage sequence) () buffer completions).wrap
        fun _ => .done
  | .flushNeighbor =>
      (Rtaco.readLoop (NeighborFlushTask.processMessage sequence) () buffer completions).wrap
        fun _ => .done

namespace Request

abbrev State : Request → Type
  | .dump kind => List kind.Event
  | _ => Unit

abbrev Result : Request → Type
  | .dump kind => List kind.Event
  | .getNeighbor => NeighborEvent
  | .probeNeighbor => Unit
  | .flushNeighbor => Unit

def initial : (request : Request) → request.State
  | .dump _ => []
  | .getNeighbor => ()
  | .probeNeighbor => ()
  | .flushNeighbor => ()

def processMessage : (request : Request) → Nat → request.State → Bytes →
    request.State × Option (Expected request.Result)
  | .dump kind => kind.dumpProcessMessage
  | .getNeighbor => NeighborGetTask.processMessage
  | .probeNeighbor => NeighborProbeTask.processMessage
  | .flushNeighbor => NeighborFlushTask.processMessage

def answer : (request : Request) → request.Result → Answer
  | .dump kind, list => .events kind list
  | .getNeighbor, event => .neighbor event
  | .probeNeighbor, _ => .done
  | .flushNeighbor, _ => .done

theorem readLoop_eq (request : Request) (sequence : Nat) (buffer : Bytes)
    (completions : List (Except ErrorCode Bytes)) :
    request.readLoop sequence buffer completions =
      (Rtaco.readLoop (request.processMessage sequence) request.initial buffer completions).wrap
        request.answer := by
  cases request <;> rfl

theorem readLoop_append_error {request : Request} {sequence : Nat} {buffer : Bytes}
    {completions : List (Except ErrorCode Bytes)}
    (waits : request.readLoop sequence buffer completions = .waiting ()) (error : ErrorCode) :
    request.readLoop sequence buffer (completions ++ [.error error]) =
      .returned (.unexpected error) := by
  rw [readLoop_eq] at waits ⊢
  obtain ⟨state, outcome⟩ := ReadOutcome.waiting_of_wrap waits
  rw [Rtaco.readLoop_append_error outcome]
  rfl

theorem processMessage_of_otherSequence (request : Request) {sequence : Nat} {header : Bytes}
    (foreign : nlmsgSeq header ≠ sequence) (state : request.State) :
    request.processMessage sequence state header = (state, none) := by
  cases request with
  | dump kind =>
      change kind.dumpProcessMessage sequence state header = (state, none)
      rw [kind.dumpProcessMessage_eq, DumpTask.processMessage, if_pos foreign]
  | getNeighbor =>
      change NeighborGetTask.processMessage sequence state header = (state, none)
      rw [NeighborGetTask.processMessage, NeighborGetTask.answer, if_pos foreign]
  | probeNeighbor => exact if_pos foreign
  | flushNeighbor => exact if_pos foreign

end Request

end Rtaco.Control
