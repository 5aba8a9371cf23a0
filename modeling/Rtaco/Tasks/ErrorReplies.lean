import Rtaco.Tasks.ForeignMessages
import Rtaco.Tasks.Requests

/-!
# Error messages without an error

`NLMSG_DATA` is never null, so a task takes the error from wherever the payload of an
`NLMSG_ERROR` would be, also when the message has none.
-/

namespace Rtaco

open Netlink Scan

/-- `EPROTO`, which the handlers name for a missing `nlmsgerr`. -/
abbrev eproto : ErrorCode := ⟨71⟩

namespace Control.Request

/-- The result of a task on an error message without an error. -/
def acknowledged : (request : Request) → request.State → Expected request.Result
  | .dump _, learned => .value learned
  | .getNeighbor, _ => .unexpected enoent
  | .probeNeighbor, _ => .value ()
  | .flushNeighbor, _ => .value ()

/-- The result of a task on the error code of an error message. -/
def decided (request : Request) (state : request.State) (error : ErrorCode) :
    Expected request.Result :=
  if error.value = 0 then request.acknowledged state else .unexpected error

/-- The result of a task on an error message, as the fallback of the handlers means it. -/
def intended (request : Request) (state : request.State) (message : Message) :
    Expected request.Result :=
  if nlmsgLength sizeofNlmsgerr ≤ nlmsgLen message.bytes then
    request.decided state (errorCode message.bytes)
  else .unexpected eproto

theorem decided_eq_eproto {request : Request} {state : request.State} {error : ErrorCode} :
    request.decided state error = .unexpected eproto ↔ error = eproto := by
  have other : request.acknowledged state ≠ .unexpected eproto := by
    cases request <;> simp [acknowledged]
  unfold decided
  split_ifs with zero
  · have nonzero : error ≠ eproto := by
      rintro rfl
      exact absurd zero (by decide)
    simp [other, nonzero]
  · simp

/-- Every task decides an error message by the error in its payload. -/
theorem processMessage_error (request : Request) {sequence : Nat} (state : request.State)
    {header : Bytes} (own : nlmsgSeq header = sequence) (error : nlmsgType header = nlmsgError) :
    (request.processMessage sequence state header).2 =
      some (request.decided state (errorCode header)) := by
  have unfinished : nlmsgType header ≠ nlmsgDone := by
    rw [error]
    decide
  cases request with
  | dump kind =>
      simp only [processMessage]
      rw [kind.dumpProcessMessage_eq]
      simp [DumpTask.processMessage, own, error, decided, acknowledged, DumpTask.handleError]
  | getNeighbor =>
      simp [processMessage, NeighborGetTask.processMessage, NeighborGetTask.answer, own, error,
        NeighborGetTask.handleError, decided, acknowledged]
  | probeNeighbor =>
      simp [processMessage, NeighborProbeTask.processMessage, NeighborProbeTask.handleError,
        acknowledge, own, error, handleAcknowledgement, decided, acknowledged]
  | flushNeighbor =>
      simp [processMessage, NeighborFlushTask.processMessage, NeighborFlushTask.handleError,
        acknowledge, own, error, handleAcknowledgement, decided, acknowledged]

theorem errorCode_append_zeros {message : Message} (outside : nlmsgLen message.bytes < 20) :
    errorCode (message.bytes ++ List.replicate 4 0) ≠ eproto := by
  have length : nlmsgLen message.bytes = message.bytes.length := message.size_eq
  have payload : (nlmsgData message.bytes).length ≤ 3 := by
    rw [nlmsgData_eq, List.length_drop]
    omega
  have small : field 0 4 (nlmsgData (message.bytes ++ List.replicate 4 0)) < 2 ^ 24 := by
    rw [nlmsgData_append]
    refine lt_of_lt_of_le (LittleEndian.read_append_zeros_lt 4 4 _) ?_
    exact (Nat.pow_le_pow_right (by decide) payload).trans (by decide)
  intro same
  have value : (errorCode (message.bytes ++ List.replicate 4 0)).value = 71 := by rw [same]
  simp only [errorCode, nlmsgerrError] at value
  have error : toInt32 (field 0 4 (nlmsgData (message.bytes ++ List.replicate 4 0)) : Int) =
      field 0 4 (nlmsgData (message.bytes ++ List.replicate 4 0)) :=
    toInt32_eq (by omega) (by omega)
  rw [error, toInt32_eq (by omega) (by omega)] at value
  omega

/-- The `error` field lies within the message and, unless the message is a whole `nlmsgerr`,
says `EPROTO`. -/
def ErrorInside (message : Message) : Prop :=
  nlmsgLength sizeofNlmsgerr ≤ nlmsgLen message.bytes ∨
    20 ≤ nlmsgLen message.bytes ∧ errorCode message.bytes = eproto

/-- A task treats an error message as intended, whatever is behind it, exactly when the message
is a whole `nlmsgerr` or happens to say `EPROTO`. -/
theorem error_as_intended_iff (request : Request) {sequence : Nat} (state : request.State)
    {message : Message} (own : nlmsgSeq message.bytes = sequence)
    (error : nlmsgType message.bytes = nlmsgError) :
    (∀ behind, (request.processMessage sequence state (message.bytes ++ behind)).2 =
        some (request.intended state message)) ↔
      ErrorInside message := by
  have header : 16 ≤ message.bytes.length := message.header_le
  have decides : ∀ behind, (request.processMessage sequence state (message.bytes ++ behind)).2 =
      some (request.decided state (errorCode (message.bytes ++ behind))) := by
    intro behind
    apply request.processMessage_error state
    · rwa [nlmsgSeq_append behind header]
    · rwa [nlmsgType_append behind header]
  simp only [decides, Option.some.injEq, intended, ErrorInside]
  by_cases whole : nlmsgLength sizeofNlmsgerr ≤ nlmsgLen message.bytes
  · have inside : 20 ≤ nlmsgLen message.bytes := (by decide : 20 ≤ 36).trans whole
    simp [whole, errorCode_append inside]
  · simp only [whole, if_false, false_or, decided_eq_eproto]
    constructor
    · intro always
      have inside : 20 ≤ nlmsgLen message.bytes := by
        by_contra outside
        exact errorCode_append_zeros (Nat.lt_of_not_le outside) (always _)
      refine ⟨inside, ?_⟩
      rw [← errorCode_append inside []]
      exact always []
    · rintro ⟨inside, protocol⟩ behind
      rw [errorCode_append inside, protocol]

end Control.Request

/-- A request refused with `EPERM`. -/
def refusal (seq pid : Nat) : Message :=
  Message.build nlmsgError 0 seq pid
    (List.replicate 4 255 ++ nlmsghdr 60 rtmDelneigh 5 seq pid) (by simp)

theorem error_as_intended_iff_refusal :
    (Control.Request.flushNeighbor.processMessage 7 () ((refusal 7 9).bytes ++ [0, 1])).2 =
      some (.unexpected ⟨1⟩) := by
  have intended := (@Control.Request.error_as_intended_iff .flushNeighbor 7 () (refusal 7 9)
    (by decide) (by decide)).mpr (.inl (by decide)) [0, 1]
  rw [intended]
  decide

/-- An error message that is a header only. -/
def bareError (seq pid : Nat) : Message :=
  Message.build nlmsgError 0 seq pid [] (by decide)

/-- Behind the bare header of an error message, a probe takes what the buffer holds for the
error: zeros for success, and anything else for a failure. -/
theorem probe_succeeds_on_bareError :
    (Control.Request.probeNeighbor.processMessage 7 () ((bareError 7 9).bytes ++ [0, 0, 0, 0])).2 =
        some (.value ()) ∧
      (Control.Request.probeNeighbor.processMessage 7 ()
        ((bareError 7 9).bytes ++ [255, 255, 255, 255])).2 = some (.unexpected ⟨1⟩) ∧
      Control.Request.probeNeighbor.intended () (bareError 7 9) = .unexpected eproto := by
  refine ⟨?_, ?_, ?_⟩ <;> decide

end Rtaco
