import Rtaco.Events.AttributeLists
import Rtaco.Tasks.Requests

/-!
# `nl_neighbor_task.hxx`: the request of a neighbor task

`build_request` fills a `NeighborRequest`, whose first `nlmsg_len` bytes are sent. The
structure is laid out without gaps, so its memory is the concatenation of its members.
-/

namespace Rtaco

open Netlink

/-- The 16 bytes of an address, as the caller's span gives them. -/
abbrev AddressBytes := Vector UInt8 16

structure Ndmsg where
  family : Nat := 0
  ifindex : Nat := 0
  state : Nat := 0
  flags : Nat := 0
  type : Nat := 0

structure Rtattr where
  len : Nat := 0
  type : Nat := 0

structure NeighborRequest where
  header : Nlmsghdr := ⟨0, 0, 0, 0, 0⟩
  message : Ndmsg := {}
  dstAttr : Rtattr := {}
  dst : AddressBytes := .replicate 16 0

namespace Ndmsg

open LittleEndian in
/-- `struct ndmsg`, with its two fields of padding. -/
def memory (message : Ndmsg) : Bytes :=
  write 1 message.family ++ (write 3 0 ++ (write 4 message.ifindex ++ (write 2 message.state ++
    (write 1 message.flags ++ write 1 message.type))))

/-- The members fit their fields. -/
structure Fits (message : Ndmsg) : Prop where
  family : message.family < 2 ^ 8
  ifindex : message.ifindex < 2 ^ 31
  state : message.state < 2 ^ 16
  flags : message.flags < 2 ^ 8
  type : message.type < 2 ^ 8

end Ndmsg

namespace NeighborRequest

abbrev rtnUnspec : Nat := 0
abbrev nlmFRequest : Nat := 0x1
abbrev nlmFAck : Nat := 0x4
abbrev nlmFReplace : Nat := 0x100
abbrev nlmFCreate : Nat := 0x400
abbrev nudProbe : Nat := 0x10
abbrev ntfUse : Nat := 0x1
abbrev rtmGetneigh : Nat := 30

/-- `RTA_LENGTH`. -/
def rtaLength (len : Nat) : Nat := rtaAlign sizeofRtattr + len

/-- The bytes of `request_`. -/
def memory (request : NeighborRequest) : Bytes :=
  nlmsghdr request.header.len request.header.type request.header.flags request.header.seq
      request.header.pid ++
    (request.message.memory ++ (LittleEndian.write 2 request.dstAttr.len ++
      (LittleEndian.write 2 request.dstAttr.type ++ request.dst.toList)))

def requestPayload (request : NeighborRequest) : Bytes :=
  request.memory.take request.header.len

def buildRequest (msgType msgFlags ndmState ndmFlags : Nat) (sequence : UInt32) (ifindex : UInt16)
    (address : AddressBytes) (request : NeighborRequest) : NeighborRequest :=
  let prepared : NeighborRequest :=
    { request with
      header :=
        { len := nlmsgLength sizeofNdmsg
          type := msgType
          flags := msgFlags
          seq := sequence.toNat
          pid := 0 }
      message :=
        { family := rtnUnspec
          ifindex := ifindex.toNat
          state := ndmState
          flags := ndmFlags
          type := rtnUnspec } }
  if ifindex = 0 then prepared
  else
    let attributed : NeighborRequest :=
      { prepared with
        dstAttr := { len := rtaLength 16, type := ndaDst }
        dst := address }
    { attributed with
      header :=
        { attributed.header with
          len := nlmsgAlign attributed.header.len + rtaAlign attributed.dstAttr.len } }

end NeighborRequest

open NeighborRequest in
/-- `prepare_request` on a new task. -/
def NeighborProbeTask.prepareRequest (sequence : UInt32) (ifindex : UInt16)
    (address : AddressBytes) : NeighborRequest :=
  buildRequest rtmNewneigh (nlmFRequest ||| nlmFAck ||| nlmFCreate ||| nlmFReplace) nudProbe ntfUse
    sequence ifindex address {}

open NeighborRequest in
def NeighborFlushTask.prepareRequest (sequence : UInt32) (ifindex : UInt16)
    (address : AddressBytes) : NeighborRequest :=
  buildRequest rtmDelneigh (nlmFRequest ||| nlmFAck) 0 0 sequence ifindex address {}

open NeighborRequest in
def NeighborGetTask.prepareRequest (sequence : UInt32) (ifindex : UInt16)
    (address : AddressBytes) : NeighborRequest :=
  buildRequest rtmGetneigh nlmFRequest 0 0 sequence ifindex address {}

namespace NeighborRequest

/-- The `NDA_DST` attribute of a request. -/
def dstAttribute (address : AddressBytes) : Attribute :=
  .build ndaDst address.toList (by simp)

theorem encode_dstAttribute (address : AddressBytes) :
    (dstAttribute address).encode =
      LittleEndian.write 2 20 ++ (LittleEndian.write 2 ndaDst ++ address.toList) := by
  simp [dstAttribute, Attribute.build, Records.Format.Record.encode]

theorem length_memory_ndmsg (message : Ndmsg) : message.memory.length = 12 := by
  simp [Ndmsg.memory]

/-- The message a request with an interface index is sent as. -/
def asMessage (header : Nlmsghdr) (message : Ndmsg) (address : AddressBytes) : Message :=
  Message.build header.type header.flags header.seq header.pid
    (message.memory ++ (dstAttribute address).encode)
    (by simp [length_memory_ndmsg, encode_dstAttribute])

section Build

variable (msgType msgFlags ndmState ndmFlags : Nat) (sequence : UInt32) {ifindex : UInt16}
  (address : AddressBytes)

theorem buildRequest_eq (nonzero : ifindex ≠ 0) :
    buildRequest msgType msgFlags ndmState ndmFlags sequence ifindex address {} =
      { header := ⟨48, msgType, msgFlags, sequence.toNat, 0⟩
        message := ⟨rtnUnspec, ifindex.toNat, ndmState, ndmFlags, rtnUnspec⟩
        dstAttr := ⟨20, ndaDst⟩
        dst := address } := by
  simp only [buildRequest, nonzero, if_false]
  rfl

theorem memory_buildRequest (nonzero : ifindex ≠ 0) :
    (buildRequest msgType msgFlags ndmState ndmFlags sequence ifindex address {}).memory =
      (asMessage ⟨48, msgType, msgFlags, sequence.toNat, 0⟩
        ⟨rtnUnspec, ifindex.toNat, ndmState, ndmFlags, rtnUnspec⟩ address).bytes := by
  rw [buildRequest_eq _ _ _ _ _ _ nonzero]
  simp only [memory, asMessage, Message.build, encode_dstAttribute, List.length_append,
    length_memory_ndmsg, LittleEndian.length_write, Vector.length_toList]

theorem length_memory_buildRequest (nonzero : ifindex ≠ 0) :
    (buildRequest msgType msgFlags ndmState ndmFlags sequence ifindex address {}).memory.length =
      48 := by
  rw [memory_buildRequest _ _ _ _ _ _ nonzero]
  simp [asMessage, Message.build, length_memory_ndmsg, encode_dstAttribute]

theorem requestPayload_buildRequest (nonzero : ifindex ≠ 0) :
    (buildRequest msgType msgFlags ndmState ndmFlags sequence ifindex address {}).requestPayload =
      (asMessage ⟨48, msgType, msgFlags, sequence.toNat, 0⟩
        ⟨rtnUnspec, ifindex.toNat, ndmState, ndmFlags, rtnUnspec⟩ address).bytes := by
  rw [requestPayload, List.take_of_length_le, memory_buildRequest _ _ _ _ _ _ nonzero]
  rw [length_memory_buildRequest _ _ _ _ _ _ nonzero, buildRequest_eq _ _ _ _ _ _ nonzero]

end Build

theorem fixed_memory {message : Ndmsg} (fits : message.Fits) (type : NeighborEvent.Type) :
    NeighborEvent.fixed type message.memory =
      { type := type
        family := message.family
        index := message.ifindex
        state := message.state
        flags := message.flags
        neighborType := message.type } := by
  obtain ⟨family, ifindex, state, flags, kind⟩ := fits
  have front : message.memory = LittleEndian.write 1 message.family ++ (LittleEndian.write 3 0 ++
    (LittleEndian.write 4 message.ifindex ++ (LittleEndian.write 2 message.state ++
      (LittleEndian.write 1 message.flags ++ (LittleEndian.write 1 message.type ++ []))))) := by
    rw [List.append_nil]
    rfl
  have familyRead : ndmFamily message.memory = message.family := by
    rw [ndmFamily, front, field_write, Nat.mod_eq_of_lt (by omega)]
  have ifindexRead : ndmIfindex message.memory = message.ifindex := by
    rw [ndmIfindex, front, ← List.append_assoc, field_written (by simp),
      Nat.mod_eq_of_lt (by omega), toInt32_eq (by omega) (by omega)]
  have stateRead : ndmState message.memory = message.state := by
    rw [ndmState, front, ← List.append_assoc, ← List.append_assoc, field_written (by simp),
      Nat.mod_eq_of_lt (by omega)]
  have flagsRead : ndmFlags message.memory = message.flags := by
    rw [ndmFlags, front, ← List.append_assoc, ← List.append_assoc, ← List.append_assoc,
      field_written (by simp), Nat.mod_eq_of_lt (by omega)]
  have kindRead : ndmType message.memory = message.type := by
    rw [ndmType, front, ← List.append_assoc, ← List.append_assoc, ← List.append_assoc,
      ← List.append_assoc, field_written (by simp), Nat.mod_eq_of_lt (by omega)]
  rw [NeighborEvent.fixed, familyRead, ifindexRead, stateRead, flagsRead, kindRead]

theorem type_dstAttribute (address : AddressBytes) : (dstAttribute address).type = ndaDst := by
  unfold Attribute.type rtaType
  exact field_written (by simp) _

theorem payload_dstAttribute (address : AddressBytes) :
    (dstAttribute address).payload = address.toList := by
  have split : (dstAttribute address).bytes =
      (LittleEndian.write 2 20 ++ LittleEndian.write 2 ndaDst) ++ address.toList := by
    simp [dstAttribute, Attribute.build]
  rw [Attribute.payload, rtaData_eq, split]
  exact List.drop_left' (by simp)

section AsMessage

variable {header : Nlmsghdr} {message : Ndmsg} {address : AddressBytes}

theorem nlmsgData_asMessage : nlmsgData (asMessage header message address).bytes =
    message.memory ++ (dstAttribute address).encode := nlmsgData_nlmsghdr _ _ _ _ _ _

theorem length_asMessage : (asMessage header message address).bytes.length = 48 := by
  simp [asMessage, Message.build, length_memory_ndmsg, encode_dstAttribute]

theorem nlmsgType_asMessage (small : header.type < 2 ^ 16) :
    nlmsgType (asMessage header message address).bytes = header.type := by
  rw [asMessage, Message.build, nlmsgType_append _ (by simp), nlmsgType_nlmsghdr small]

theorem encode_asMessage : Records.Format.encode [asMessage header message address] =
    (asMessage header message address).bytes := by
  have padding : (asMessage header message address).padding = [] := by
    apply List.eq_nil_of_length_eq_zero
    rw [(asMessage header message address).padding_length, length_asMessage]
    rfl
  simp [Records.Format.Record.encode, padding]

theorem fixed_asMessage :
    EventKind.neighbor.fixed (asMessage header message address) = message.memory := by
  rw [EventKind.fixed, nlmsgData_asMessage]
  exact List.take_left' (length_memory_ndmsg message)

theorem asMessage_carries (type : EventKind.neighbor.Decodes header.type) :
    EventKind.neighbor.Carries (asMessage header message address) [dstAttribute address] := by
  have small : header.type < 2 ^ 16 := by
    rcases type with isNew | isDel
    · rw [isNew]
      decide
    · rw [isDel]
      decide
  refine ⟨?_, ?_, [], ?_, by simp⟩
  · rwa [nlmsgType_asMessage small]
  · have size : nlmsgLen (asMessage header message address).bytes =
        (asMessage header message address).bytes.length :=
      (asMessage header message address).size_eq
    rw [size, length_asMessage]
    decide
  · rw [nlmsgData_asMessage, Records.Format.encode_cons, Records.Format.encode_nil,
      List.append_nil, List.append_nil]
    exact (List.drop_left' (length_memory_ndmsg message)).symm

theorem fromNlmsghdr_asMessage (type : EventKind.neighbor.Decodes header.type)
    (fits : message.Fits) :
    NeighborEvent.fromNlmsghdr (asMessage header message address).bytes =
      { type := NeighborEvent.typeOf header.type
        family := message.family
        index := message.ifindex
        state := message.state
        flags := message.flags
        neighborType := message.type
        address := addressText message.family address.toList } := by
  have small : header.type < 2 ^ 16 := by
    rcases type with isNew | isDel
    · rw [isNew]
      decide
    · rw [isDel]
      decide
  have wellFormed : EventKind.neighbor.ListWellFormed
      (EventKind.neighbor.fixed (asMessage header message address)) [dstAttribute address] := by
    constructor
    · intro attr member _
      rw [List.mem_singleton.mp member, payload_dstAttribute, Vector.length_toList]
      unfold addressSize
      split_ifs <;> decide
    · intro attr member listed
      cases listed
  have event := EventKind.fromNlmsghdr_eq (asMessage_carries type)
    (by rw [length_asMessage]; decide) wellFormed []
  rw [List.append_nil, fixed_asMessage, nlmsgType_asMessage small] at event
  refine event.trans ?_
  have family : ndmFamily message.memory = message.family :=
    congrArg NeighborEvent.family (fixed_memory fits .unknown)
  simp only [EventKind.ofAttributes, NeighborEvent.ofAttributes, fixed_memory fits, family, decoded,
    LastValue.lastValue_cons_of_eq (type_dstAttribute address), payload_dstAttribute,
    LastValue.lastValue_nil]
  rw [LastValue.lastValue_cons_of_ne (by rw [type_dstAttribute]; decide)]
  rfl

end AsMessage

end NeighborRequest

/-- The bytes sent are those of `request_`, and one message. -/
structure NeighborRequest.OneMessage (request : NeighborRequest) : Prop where
  inside : request.header.len = request.memory.length
  message : ∃ message : Message, Records.Format.encode [message] = request.requestPayload

/-- A request is one message that is decoded to what it asks for. -/
structure NeighborRequest.RoundTrips (request : NeighborRequest) (type : NeighborEvent.Type)
    (ifindex : UInt16) (state flags : Nat) (address : AddressBytes) : Prop where
  sent : request.OneMessage
  type : (NeighborEvent.fromNlmsghdr request.requestPayload).type = type
  index : (NeighborEvent.fromNlmsghdr request.requestPayload).index = ifindex.toNat
  state : (NeighborEvent.fromNlmsghdr request.requestPayload).state = state
  flags : (NeighborEvent.fromNlmsghdr request.requestPayload).flags = flags
  address : some (NeighborEvent.fromNlmsghdr request.requestPayload).address =
    inetNtop afInet6 address.toList inet6Addrstrlen

namespace NeighborRequest

section Built

variable {msgType ndmState ndmFlags : Nat} (msgFlags : Nat) (sequence : UInt32) {ifindex : UInt16}
  (address : AddressBytes)

/-- Everything of a request is decoded as it was asked for but the family and, for want of
one, the address. -/
theorem fromNlmsghdr_requestPayload (type : EventKind.neighbor.Decodes msgType)
    (stateFits : ndmState < 2 ^ 16) (flagsFit : ndmFlags < 2 ^ 8) (nonzero : ifindex ≠ 0) :
    NeighborEvent.fromNlmsghdr (buildRequest msgType msgFlags ndmState ndmFlags sequence ifindex
        address {}).requestPayload =
      { type := NeighborEvent.typeOf msgType
        index := ifindex.toNat
        state := ndmState
        flags := ndmFlags } := by
  have fits : Ndmsg.Fits ⟨rtnUnspec, ifindex.toNat, ndmState, ndmFlags, rtnUnspec⟩ := by
    have bound := ifindex.toNat_lt
    exact ⟨Nat.two_pow_pos 8, show ifindex.toNat < 2 ^ 31 by omega, stateFits, flagsFit,
      Nat.two_pow_pos 8⟩
  rw [requestPayload_buildRequest _ _ _ _ _ _ nonzero, fromNlmsghdr_asMessage type fits]
  simp only [addressText_of_unknown (show addressSize rtnUnspec = 0 by decide)]

theorem buildRequest_oneMessage (msgType ndmState ndmFlags : Nat) (nonzero : ifindex ≠ 0) :
    (buildRequest msgType msgFlags ndmState ndmFlags sequence ifindex address {}).OneMessage := by
  constructor
  · rw [length_memory_buildRequest _ _ _ _ _ _ nonzero, buildRequest_eq _ _ _ _ _ _ nonzero]
  · rw [requestPayload_buildRequest _ _ _ _ _ _ nonzero]
    exact ⟨_, encode_asMessage⟩

theorem not_roundTrips (type : EventKind.neighbor.Decodes msgType)
    (stateFits : ndmState < 2 ^ 16) (flagsFit : ndmFlags < 2 ^ 8) (nonzero : ifindex ≠ 0) :
    ¬ (buildRequest msgType msgFlags ndmState ndmFlags sequence ifindex address {}).RoundTrips
      (NeighborEvent.typeOf msgType) ifindex ndmState ndmFlags address := by
  intro trips
  have lost := trips.address
  rw [fromNlmsghdr_requestPayload _ _ _ type stateFits flagsFit nonzero] at lost
  obtain ⟨text, printed, shown⟩ := exists_inetNtop (.inr rfl) address.toList
  rw [printed, Option.some.injEq] at lost
  exact shown lost.symm

end Built

theorem nlmsgSeq_requestPayload (msgType msgFlags ndmState ndmFlags : Nat) (sequence : UInt32)
    (ifindex : UInt16) (address : AddressBytes) :
    nlmsgSeq (buildRequest msgType msgFlags ndmState ndmFlags sequence ifindex address
      {}).requestPayload = sequence.toNat := by
  have read : ∀ request : NeighborRequest, 16 ≤ request.header.len →
      request.header.seq = sequence.toNat → nlmsgSeq request.requestPayload = sequence.toNat := by
    intro request long same
    rw [requestPayload, memory, List.take_append, List.take_of_length_le (by simpa using long),
      nlmsgSeq_append _ (by simp), nlmsgSeq_nlmsghdr (by rw [same]; exact sequence.toNat_lt), same]
  by_cases zero : ifindex = 0
  · subst zero
    exact read _ (show 16 ≤ 28 by decide) rfl
  · rw [buildRequest_eq _ _ _ _ _ _ zero]
    exact read _ (show 16 ≤ 48 by decide) rfl

end NeighborRequest

namespace Control.Request

/-- The bytes that a neighbor operation sends under a number. -/
def Sends (sequence : Nat) (payload : Bytes) : Request → Prop
  | .dump _ => False
  | .getNeighbor => ∃ ifindex address, payload =
      (NeighborGetTask.prepareRequest (.ofNat sequence) ifindex address).requestPayload
  | .probeNeighbor => ∃ ifindex address, payload =
      (NeighborProbeTask.prepareRequest (.ofNat sequence) ifindex address).requestPayload
  | .flushNeighbor => ∃ ifindex address, payload =
      (NeighborFlushTask.prepareRequest (.ofNat sequence) ifindex address).requestPayload

theorem nlmsgSeq_of_sends {request : Request} {sequence : Nat} {payload : Bytes}
    (small : sequence < 2 ^ 32) (sends : request.Sends sequence payload) :
    nlmsgSeq payload = sequence := by
  have converted : (UInt32.ofNat sequence).toNat = sequence := UInt32.toNat_ofNat_of_lt' small
  cases request with
  | dump kind => exact sends.elim
  | getNeighbor =>
      obtain ⟨ifindex, address, rfl⟩ := sends
      exact (NeighborRequest.nlmsgSeq_requestPayload ..).trans converted
  | probeNeighbor =>
      obtain ⟨ifindex, address, rfl⟩ := sends
      exact (NeighborRequest.nlmsgSeq_requestPayload ..).trans converted
  | flushNeighbor =>
      obtain ⟨ifindex, address, rfl⟩ := sends
      exact (NeighborRequest.nlmsgSeq_requestPayload ..).trans converted

end Control.Request

/-- The requests of a probe and of a flush are one message each, with the type, the index, the
state and the flags asked for, but no request is decoded to the address it asks for. -/
theorem neighbor_request_loses_address (sequence : UInt32) {ifindex : UInt16}
    (nonzero : ifindex ≠ 0) (address : AddressBytes) :
    let probe := NeighborProbeTask.prepareRequest sequence ifindex address
    let flush := NeighborFlushTask.prepareRequest sequence ifindex address
    (probe.OneMessage ∧
      NeighborEvent.fromNlmsghdr probe.requestPayload =
        { type := .newNeighbor, index := ifindex.toNat, state := NeighborRequest.nudProbe,
          flags := NeighborRequest.ntfUse } ∧
      ¬ probe.RoundTrips .newNeighbor ifindex NeighborRequest.nudProbe NeighborRequest.ntfUse
        address) ∧
    flush.OneMessage ∧
      NeighborEvent.fromNlmsghdr flush.requestPayload =
        { type := .deleteNeighbor, index := ifindex.toNat } ∧
      ¬ flush.RoundTrips .deleteNeighbor ifindex 0 0 address := by
  intro probe flush
  have isNew : EventKind.neighbor.Decodes rtmNewneigh := .inl rfl
  have isDel : EventKind.neighbor.Decodes rtmDelneigh := .inr rfl
  refine ⟨⟨?_, ?_, ?_⟩, ?_, ?_, ?_⟩
  · exact NeighborRequest.buildRequest_oneMessage _ _ _ _ _ _ nonzero
  · exact NeighborRequest.fromNlmsghdr_requestPayload _ _ _ isNew (by decide) (by decide) nonzero
  · exact NeighborRequest.not_roundTrips _ _ _ isNew (by decide) (by decide) nonzero
  · exact NeighborRequest.buildRequest_oneMessage _ _ _ _ _ _ nonzero
  · exact NeighborRequest.fromNlmsghdr_requestPayload _ _ _ isDel (by decide) (by decide) nonzero
  · exact NeighborRequest.not_roundTrips _ _ _ isDel (by decide) (by decide) nonzero

theorem neighbor_request_loses_address_loopback :
    (NeighborEvent.fromNlmsghdr
      (NeighborFlushTask.prepareRequest 7 3 (.ofFn fun index => if index = 15 then 1 else 0)
        ).requestPayload).address = [] := by
  rw [(neighbor_request_loses_address 7 (by decide) _).2.2.1]

/-- The request of a flush of `::1` on interface 3 is decoded to no address. -/
theorem flush_request_without_address :
    ¬ ∀ (sequence : UInt32) (ifindex : UInt16), ifindex ≠ 0 → ∀ address : AddressBytes,
      (NeighborProbeTask.prepareRequest sequence ifindex address).RoundTrips .newNeighbor ifindex
          NeighborRequest.nudProbe NeighborRequest.ntfUse address ∧
        (NeighborFlushTask.prepareRequest sequence ifindex address).RoundTrips .deleteNeighbor
          ifindex 0 0 address := by
  intro trips
  have lost := (trips 7 3 (by decide) (.ofFn fun index => if index = 15 then 1 else 0)).2.address
  revert lost
  decide +kernel

end Rtaco
