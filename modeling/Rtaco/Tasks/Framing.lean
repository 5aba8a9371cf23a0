import Rtaco.Core.Listener
import Rtaco.Netlink.LoopSafety
import Rtaco.Tasks.ForeignMessages

/-!
# Framing of received datagrams

The message loops of the listener and of the tasks, each with what ends it.
-/

namespace Rtaco

open Netlink

theorem Terminates.append_iff (sequence : Nat) (message : Message) (behind : Bytes) :
    Terminates sequence (message.bytes ++ behind) ↔ Terminates sequence message.bytes := by
  have header : 16 ≤ message.bytes.length := message.header_le
  unfold Terminates
  rw [nlmsgSeq_append behind header, nlmsgType_append behind header]

theorem Listener.exitsOn_never : ExitsOn Listener.handle fun _ => False := by
  intro message behind emitted short
  simp [Listener.handle]

theorem EventKind.exitsOn_terminates (kind : EventKind) (sequence : Nat) :
    ExitsOn (kind.dumpProcessMessage sequence) (Terminates sequence) := by
  intro message behind learned short
  rw [← Terminates.append_iff sequence message behind]
  exact kind.dump_isSome_iff sequence learned _

namespace NeighborGetTask

theorem Answers.append_iff (sequence : Nat) {message : Message}
    (short : message.bytes.length < 2 ^ 31) (behind : Bytes) :
    Answers sequence (message.bytes ++ behind) ↔ Answers sequence message.bytes := by
  have header : 16 ≤ message.bytes.length := message.header_le
  unfold Answers
  rw [nlmsgSeq_append behind header, nlmsgType_append behind header,
    nlmsgLen_append behind header, NeighborEvent.fromNlmsghdr_lladdr short]

theorem exitsOn_decider (sequence : Nat) :
    ExitsOn (processMessage sequence) fun header =>
      Answers sequence header ∨ Terminates sequence header := by
  intro message behind state short
  unfold processMessage
  rw [answer_isSome_iff, Answers.append_iff sequence short, Terminates.append_iff]

end NeighborGetTask

/-- The acknowledgement a probe or flush task waits for. -/
def Acknowledges (sequence : Nat) (header : Bytes) : Prop :=
  nlmsgSeq header = sequence ∧ nlmsgType header = nlmsgError

theorem exitsOn_acknowledges (sequence : Nat) :
    ExitsOn (acknowledge handleAcknowledgement sequence) (Acknowledges sequence) := by
  intro message behind state short
  have header : 16 ≤ message.bytes.length := message.header_le
  unfold acknowledge Acknowledges
  rw [nlmsgSeq_append behind header, nlmsgType_append behind header]
  by_cases own : nlmsgSeq message.bytes = sequence
  · by_cases error : nlmsgType message.bytes = nlmsgError
    · simp [own, error]
    · simp [own, error]
  · simp [own]

/-- Every message loop is safe on a datagram exactly when it does not step over
a complete message whose padding was not received. -/
theorem messageLoops_safe_iff (sequence : Nat) (data : Bytes) :
    (data.length ≤ Listener.bufferSize →
      (LoopSafe Listener.handle Listener.bufferSize data ↔ ¬ Overruns (fun _ => False) data)) ∧
    (data.length ≤ maxResponseBytes →
      (∀ kind : EventKind, LoopSafe (kind.dumpProcessMessage sequence) maxResponseBytes data ↔
        ¬ Overruns (Terminates sequence) data) ∧
      (LoopSafe (NeighborGetTask.processMessage sequence) maxResponseBytes data ↔
        ¬ Overruns (fun header => NeighborGetTask.Answers sequence header ∨
          Terminates sequence header) data) ∧
      (LoopSafe (NeighborProbeTask.processMessage sequence) maxResponseBytes data ↔
        ¬ Overruns (Acknowledges sequence) data) ∧
      (LoopSafe (NeighborFlushTask.processMessage sequence) maxResponseBytes data ↔
        ¬ Overruns (Acknowledges sequence) data)) := by
  refine ⟨?_, ?_⟩
  · intro fits
    exact loopSafe_iff Listener.exitsOn_never (by decide) fits
  · intro fits
    refine ⟨?_, ?_, ?_, ?_⟩
    · intro kind
      exact loopSafe_iff (kind.exitsOn_terminates sequence) (by decide) fits
    · exact loopSafe_iff (NeighborGetTask.exitsOn_decider sequence) (by decide) fits
    · exact loopSafe_iff (exitsOn_acknowledges sequence) (by decide) fits
    · exact loopSafe_iff (exitsOn_acknowledges sequence) (by decide) fits

theorem listenerLoop_safe_lo :
    LoopSafe Listener.handle Listener.bufferSize (Records.Format.encode [loLink 0 0]) :=
  ((messageLoops_safe_iff 0 (Records.Format.encode [loLink 0 0])).1 (by decide)).mpr
    (not_overruns_of_aligned _ (by decide))

/-- A message of 17 bytes without its padding; the listener goes on to the
message that an earlier datagram left in the buffer. -/
theorem listenerLoop_replays_stale :
    ¬ LoopSafe Listener.handle Listener.bufferSize (nlmsghdr 17 0 0 0 0 ++ [0]) ∧
      Listener.processMessages
          (nlmsghdr 17 0 0 0 0 ++ [0] ++ ([0, 0, 0] ++ (loLink 0 0).encode)) 17 =
        some [.event .link { type := .newLink, index := 1, flags := 1, name := [108, 111] }] := by
  constructor
  · intro safe
    refine (loopSafe_iff Listener.exitsOn_never (by decide) (by decide)).mp safe ?_
    exact ⟨[], nlmsghdr 17 0 0 0 0 ++ [0], rfl, by decide, by simp, not_false⟩
  · decide +kernel

end Rtaco
