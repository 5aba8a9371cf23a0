import Rtaco.Events.CompleteMessages
import Rtaco.Netlink.MessageLoop

/-!
# `nl_listener.cxx`: from datagrams to signals

`handle_message` looks the message type up in a table of minimum payload sizes
and handlers. A handler emits at most one signal.
-/

namespace Rtaco

open Netlink Scan

structure Nlmsgerr where
  error : Int
  msg : Nlmsghdr
  deriving DecidableEq

def Nlmsgerr.at (err : Bytes) : Nlmsgerr where
  error := nlmsgerrError err
  msg := .at (err.drop 4)

/-- A signal together with the arguments it is emitted with. -/
inductive Emission where
  | event (kind : EventKind) (event : kind.Event)
  | nlmsgerr (err : Nlmsgerr) (header : Nlmsghdr)
  deriving DecidableEq

/-- The five signals of a listener. -/
inductive Signal where
  | event (kind : EventKind)
  | nlmsgerr
  deriving DecidableEq

def Emission.signal : Emission → Signal
  | event kind _ => .event kind
  | nlmsgerr _ _ => .nlmsgerr

namespace Listener

abbrev bufferSize : Nat := 32 * 1024

def hasPayload (header : Bytes) (minLen : Nat) : Bool :=
  if nlmsgLen header < nlmsgLength minLen then false else nlmsgPayload header 0 ≥ minLen

def handleErrorMessage (header : Bytes) : Option Emission :=
  some (.nlmsgerr (.at (nlmsgData header)) (.at header))

/-- The handler of the messages of a kind. -/
def handleEventMessage (kind : EventKind) (header : Bytes) : Option Emission :=
  let event := kind.fromNlmsghdr header
  if kind.isUnknown event then none else some (.event kind event)

def handleLinkMessage : Bytes → Option Emission := handleEventMessage .link

def handleAddressMessage : Bytes → Option Emission := handleEventMessage .address

def handleRouteMessage : Bytes → Option Emission := handleEventMessage .route

def handleNeighborMessage : Bytes → Option Emission := handleEventMessage .neighbor

def handlers : List (Nat × Nat × (Bytes → Option Emission)) :=
  [(rtmNewlink, sizeofIfinfomsg, handleLinkMessage),
   (rtmDellink, sizeofIfinfomsg, handleLinkMessage),
   (rtmNewaddr, sizeofIfaddrmsg, handleAddressMessage),
   (rtmDeladdr, sizeofIfaddrmsg, handleAddressMessage),
   (rtmNewroute, sizeofRtmsg, handleRouteMessage),
   (rtmDelroute, sizeofRtmsg, handleRouteMessage),
   (rtmNewneigh, sizeofNdmsg, handleNeighborMessage),
   (rtmDelneigh, sizeofNdmsg, handleNeighborMessage),
   (nlmsgError, sizeofNlmsgerr, handleErrorMessage)]

def handleMessage (header : Bytes) : Option Emission :=
  match handlers.lookup (nlmsgType header) with
  | none => none
  | some (minLen, handler) =>
      if minLen > 0 ∧ hasPayload header minLen = false then none else handler header

/-- The loop body; it never leaves the loop. -/
def handle (emitted : List Emission) (header : Bytes) : List Emission × Option Empty :=
  (emitted ++ (handleMessage header).toList, none)

/-- `process_messages` on the first `size` bytes of the buffer: the emitted
signals, unless the loop does not end. -/
def processMessages (buffer : Bytes) (size : Nat) : Option (List Emission) :=
  match walkMessages handle buffer size [] with
  | .finished emitted _ => some emitted
  | _ => none

/-- The kind of event a message type stands for. -/
def kindOf (nlmsgType : Nat) : Option EventKind :=
  [EventKind.link, .address, .route, .neighbor].find? fun kind => kind.Decodes nlmsgType

theorem kindOf_eq_some {nlmsgType : Nat} {kind : EventKind} :
    kindOf nlmsgType = some kind ↔ kind.Decodes nlmsgType := by
  constructor
  · intro found
    simpa using List.find?_some found
  · intro decodes
    cases kind <;> rcases decodes with rfl | rfl <;> rfl

/-- The signal a message stands for, if it is long enough. -/
def expected (header : Bytes) : Option Emission :=
  match kindOf (nlmsgType header) with
  | some kind =>
      if nlmsgLength kind.infoSize ≤ nlmsgLen header then
        some (.event kind (kind.fromNlmsghdr header))
      else none
  | none =>
      if nlmsgType header = nlmsgError ∧ nlmsgLength sizeofNlmsgerr ≤ nlmsgLen header then
        some (.nlmsgerr (.at (nlmsgData header)) (.at header))
      else none

theorem lookup_of_decodes {kind : EventKind} {nlmsgType : Nat} (decodes : kind.Decodes nlmsgType) :
    handlers.lookup nlmsgType = some (kind.infoSize, handleEventMessage kind) := by
  cases kind <;> rcases decodes with rfl | rfl <;> rfl

theorem lookup_error : handlers.lookup nlmsgError = some (sizeofNlmsgerr, handleErrorMessage) := rfl

theorem handlers_types :
    ∀ entry ∈ handlers, entry.1 = nlmsgError ∨ ∃ kind : EventKind, kind.Decodes entry.1 := by
  decide

theorem lookup_of_other {nlmsgType : Nat} (other : kindOf nlmsgType = none)
    (notError : nlmsgType ≠ nlmsgError) : handlers.lookup nlmsgType = none := by
  rw [List.lookup_eq_none_iff]
  intro entry member
  rw [bne_iff_ne]
  rintro rfl
  rcases handlers_types entry member with error | ⟨kind, decodes⟩
  · exact notError error
  · rw [kindOf_eq_some.mpr decodes] at other
    cases other

theorem hasPayload_eq (header : Bytes) (minLen : Nat) :
    hasPayload header minLen = (getMsgPayload minLen header).isSome := by
  have small := nlmsgLen_lt header
  unfold hasPayload getMsgPayload
  rw [nlmsgLength_eq]
  by_cases short : nlmsgLen header < minLen + 16
  · simp [short]
  · have payload : nlmsgPayload header 0 = nlmsgLen header - 16 := by
      unfold nlmsgPayload
      have aligned : nlmsgAlign (nlmsgLength 0) = 16 := rfl
      rw [aligned]
      omega
    have enough : minLen ≤ nlmsgLen header - 16 := by omega
    simp [short, payload, enough]

theorem isUnknown_of_hasPayload {kind : EventKind} {header : Bytes}
    (decodes : kind.Decodes (nlmsgType header)) (payload : hasPayload header kind.infoSize) :
    kind.isUnknown (kind.fromNlmsghdr header) = false := by
  rw [kind.isUnknown_fromNlmsghdr]
  refine ⟨decodes, ?_⟩
  rw [hasPayload_eq, getMsgPayload] at payload
  by_contra short
  rw [if_pos (Nat.lt_of_not_le short)] at payload
  cases payload

theorem handleMessage_eq_expected (header : Bytes) : handleMessage header = expected header := by
  unfold handleMessage expected
  cases found : kindOf (nlmsgType header) with
  | some kind =>
      have decodes := kindOf_eq_some.mp found
      have positive : kind.infoSize > 0 := by cases kind <;> decide
      rw [lookup_of_decodes decodes]
      by_cases enough : nlmsgLength kind.infoSize ≤ nlmsgLen header
      · have known : kind.isUnknown (kind.fromNlmsghdr header) = false :=
          kind.isUnknown_fromNlmsghdr header |>.mpr ⟨decodes, enough⟩
        simp [hasPayload_eq, getMsgPayload_of_enough enough, enough, handleEventMessage, known]
      · have short := Nat.lt_of_not_le enough
        simp [hasPayload_eq, getMsgPayload_of_short short, enough, positive]
  | none =>
      by_cases error : nlmsgType header = nlmsgError
      · rw [error, lookup_error]
        by_cases enough : nlmsgLength sizeofNlmsgerr ≤ nlmsgLen header
        · simp [hasPayload_eq, getMsgPayload_of_enough enough, enough, handleErrorMessage]
        · have short := Nat.lt_of_not_le enough
          simp [hasPayload_eq, getMsgPayload_of_short short, enough]
      · rw [lookup_of_other found error]
        simp [error]

end Listener

end Rtaco
