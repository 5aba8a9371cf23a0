import Rtaco.Tasks.ErrorReplies
import Rtaco.Tasks.ForeignMessages
import Rtaco.Tasks.Requests

/-!
# What a task reads of its replies

Of the header of a reply a task reads the type, the sequence number and, through the length, how far
the message goes. It never reads `nlmsg_flags`, where the kernel marks a dump that was interrupted,
nor `nlmsg_pid`.
-/

namespace Rtaco

open Netlink Scan

/-- Two messages that agree but for the flags and the port id in their headers. -/
structure SameContents (first second : Bytes) : Prop where
  len : nlmsgLen first = nlmsgLen second
  type : nlmsgType first = nlmsgType second
  seq : nlmsgSeq first = nlmsgSeq second
  data : nlmsgData first = nlmsgData second

instance (first second : Bytes) : Decidable (SameContents first second) :=
  decidable_of_iff (_ ∧ _ ∧ _ ∧ _)
    ⟨fun same => ⟨same.1, same.2.1, same.2.2.1, same.2.2.2⟩,
      fun same => ⟨same.len, same.type, same.seq, same.data⟩⟩

namespace SameContents

variable {first second : Bytes} (same : SameContents first second)
include same

theorem getMsgPayload (size : Nat) : getMsgPayload size first = getMsgPayload size second := by
  unfold Rtaco.getMsgPayload
  rw [same.len, same.data]

theorem forEachAttr {State : Type} (size : Nat) (info : Option Bytes) (fn : State → Bytes → State)
    (state : State) :
    forEachAttr size first info fn state = forEachAttr size second info fn state := by
  unfold Rtaco.forEachAttr attrLength
  rw [same.len]

theorem extractIfname : extractIfname first = extractIfname second := by
  unfold Rtaco.extractIfname attrLength
  rw [same.len, same.data]

theorem errorCode : errorCode first = errorCode second := by
  unfold Rtaco.errorCode
  rw [same.data]

theorem decodeEvent {Kind Event : Type} [DecidableEq Kind] (typeOf : Nat → Kind) (unknown : Kind)
    (size : Nat) (empty : Event) {body : Kind → Bytes → Bytes → Event}
    (agree : ∀ kind info, body kind first info = body kind second info) :
    decodeEvent typeOf unknown size empty body first =
      decodeEvent typeOf unknown size empty body second := by
  unfold Rtaco.decodeEvent
  rw [same.type, same.getMsgPayload size]
  simp only [agree]

theorem fromNlmsghdr (kind : EventKind) : kind.fromNlmsghdr first = kind.fromNlmsghdr second := by
  cases kind with
  | link =>
      refine same.decodeEvent _ _ _ _ fun type info => ?_
      unfold LinkEvent.fromPayload
      rw [same.extractIfname]
  | address =>
      refine same.decodeEvent _ _ _ _ fun type info => ?_
      unfold AddressEvent.fromPayload
      rw [same.forEachAttr]
  | route =>
      refine same.decodeEvent _ _ _ _ fun type info => ?_
      unfold RouteEvent.fromPayload
      rw [same.forEachAttr]
  | neighbor => exact same.decodeEvent _ _ _ _ fun type info => same.forEachAttr _ _ _ _

theorem dispatch (kind : EventKind) (learned : List kind.Event) :
    kind.dispatch learned first = kind.dispatch learned second := by
  rw [kind.dispatch_eq, kind.dispatch_eq, same.fromNlmsghdr kind]

theorem processMessage (request : Control.Request) (sequence : Nat) (state : request.State) :
    request.processMessage sequence state first = request.processMessage sequence state second := by
  cases request with
  | dump kind =>
      change kind.dumpProcessMessage sequence state first = kind.dumpProcessMessage sequence state
        second
      rw [kind.dumpProcessMessage_eq]
      unfold DumpTask.processMessage DumpTask.handleError
      rw [same.seq, same.type, same.errorCode, same.dispatch kind]
  | getNeighbor =>
      have event : NeighborEvent.fromNlmsghdr first = NeighborEvent.fromNlmsghdr second :=
        same.fromNlmsghdr .neighbor
      change (state, NeighborGetTask.answer sequence first) =
        (state, NeighborGetTask.answer sequence second)
      unfold NeighborGetTask.answer NeighborGetTask.handleError NeighborGetTask.handleNeighbor
      rw [same.seq, same.type, same.errorCode, event]
  | probeNeighbor =>
      change acknowledge handleAcknowledgement sequence state first =
        acknowledge handleAcknowledgement sequence state second
      unfold acknowledge handleAcknowledgement
      rw [same.seq, same.type, same.errorCode]
  | flushNeighbor =>
      change acknowledge handleAcknowledgement sequence state first =
        acknowledge handleAcknowledgement sequence state second
      unfold acknowledge handleAcknowledgement
      rw [same.seq, same.type, same.errorCode]

end SameContents

theorem acknowledge_readsOnly (sequence : Nat) {message : Message} (reply : Reply message) :
    ReadsOnly (acknowledge handleAcknowledgement sequence) message := by
  intro state behind
  have header : 16 ≤ message.bytes.length := message.header_le
  unfold acknowledge
  rw [nlmsgSeq_append behind header, nlmsgType_append behind header]
  by_cases error : nlmsgType message.bytes = nlmsgError
  · unfold handleAcknowledgement
    rw [reply.errorCode_append behind error]
  · simp only [error, if_false]

namespace Control.Request

theorem processMessage_readsOnly (request : Request) (sequence : Nat) {message : Message}
    (reply : Reply message) : ReadsOnly (request.processMessage sequence) message := by
  cases request with
  | dump kind => exact kind.dumpProcessMessage_readsOnly sequence reply
  | getNeighbor => exact NeighborGetTask.processMessage_readsOnly sequence reply
  | probeNeighbor => exact acknowledge_readsOnly sequence reply
  | flushNeighbor => exact acknowledge_readsOnly sequence reply

theorem scan_same (request : Request) (sequence : Nat) {messages others : List Message}
    (same : List.Forall₂ (fun message other => SameContents message.bytes other.bytes)
      messages others) (state : request.State) :
    scan (fun state (message : Message) => request.processMessage sequence state message.bytes)
        state messages =
      scan (fun state (message : Message) => request.processMessage sequence state message.bytes)
        state others := by
  induction same generalizing state with
  | nil => rfl
  | cons here later inductionHypothesis =>
      simp only [scan, here.processMessage request sequence state]
      split
      · rfl
      · exact inductionHypothesis _

/-- The answer of a request is made of the types, sequence numbers and payloads of its replies. The
flags and port ids in their headers, the padding, the cuts into datagrams and what the buffer held
before make no difference. -/
theorem readLoop_same (request : Request) (sequence : Nat) {stream other : List (List Message)}
    (replies : ReplyStream stream) (others : ReplyStream other)
    (same : List.Forall₂ (fun message other => SameContents message.bytes other.bytes)
      stream.flatten other.flatten) (buffer otherBuffer : Bytes) :
    request.readLoop sequence buffer (deliver stream) =
      request.readLoop sequence otherBuffer (deliver other) := by
  have confined : ∀ message, Reply message → ReadsOnly (request.processMessage sequence) message :=
    fun _ reply => request.processMessage_readsOnly sequence reply
  rw [readLoop_eq, readLoop_eq, readLoop_deliver (replies.readable confined),
    readLoop_deliver (others.readable confined), request.scan_same sequence same]

theorem small_link :
    16 + ([0, 0, 1, 0, 1, 0, 0, 0, 1, 0, 0, 0, 0, 0, 0, 0, 7, 0, 3, 0, 108, 111, 0] : Bytes).length <
      2 ^ 32 := by
  decide

/-- The link of `loLink` from another port, with `NLM_F_DUMP_INTR` in its flags. -/
def interruptedLink (seq pid : Nat) : Message :=
  Message.build rtmNewlink 0x12 seq pid
    [0, 0, 1, 0, 1, 0, 0, 0, 1, 0, 0, 0, 0, 0, 0, 0, 7, 0, 3, 0, 108, 111, 0] small_link

theorem readLoop_same_interruptedLink :
    (Request.dump .link).readLoop 7 (freshBuffer [])
        (deliver [[loLink 7 9, doneMessage 7 9 0 0]]) =
      (Request.dump .link).readLoop 7 (freshBuffer [1, 2])
        (deliver [[interruptedLink 7 0], [doneMessage 7 4 0 0]]) := by
  apply readLoop_same (.dump .link) 7
  · decide
  · decide
  · exact .cons (by decide) (.cons (by decide) .nil)

end Control.Request

end Rtaco
