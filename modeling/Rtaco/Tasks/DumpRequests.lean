import Rtaco.Tasks.NeighborRequest

/-!
# The requests of the dump tasks

`nl_link_task.hxx`, `nl_address_task.hxx` and `nl_route_task.hxx` fill a header and one structure
without attributes. All seven requests are one message each, under the number of their operation.
-/

namespace Rtaco

open Netlink

universe u

/-- A structure of the uapi headers, laid out without gaps. -/
class FixedStruct (Payload : Type u) where
  size : Nat
  memory : Payload → Bytes
  length_memory : ∀ payload, (memory payload).length = size

structure FixedRequest (Payload : Type u) where
  header : Nlmsghdr := ⟨0, 0, 0, 0, 0⟩
  message : Payload

namespace FixedRequest

variable {Payload : Type u} [FixedStruct Payload]

/-- The bytes of `request_`. -/
def memory (request : FixedRequest Payload) : Bytes :=
  nlmsghdr request.header.len request.header.type request.header.flags request.header.seq
      request.header.pid ++
    FixedStruct.memory request.message

def requestPayload (request : FixedRequest Payload) : Bytes :=
  request.memory.take request.header.len

end FixedRequest

structure Ifinfomsg where
  family : Nat := 0
  type : Nat := 0
  index : Nat := 0
  flags : Nat := 0
  change : Nat := 0

structure Ifaddrmsg where
  family : Nat := 0
  prefixlen : Nat := 0
  flags : Nat := 0
  scope : Nat := 0
  index : Nat := 0

structure Rtmsg where
  family : Nat := 0
  dstLen : Nat := 0
  srcLen : Nat := 0
  tos : Nat := 0
  table : Nat := 0
  protocol : Nat := 0
  scope : Nat := 0
  type : Nat := 0
  flags : Nat := 0

open LittleEndian in
instance : FixedStruct Ifinfomsg where
  size := sizeofIfinfomsg
  memory := fun message =>
    write 1 message.family ++ (write 1 0 ++ (write 2 message.type ++ (write 4 message.index ++
      (write 4 message.flags ++ write 4 message.change))))
  length_memory := by simp

open LittleEndian in
instance : FixedStruct Ifaddrmsg where
  size := sizeofIfaddrmsg
  memory := fun message =>
    write 1 message.family ++ (write 1 message.prefixlen ++ (write 1 message.flags ++
      (write 1 message.scope ++ write 4 message.index)))
  length_memory := by simp

open LittleEndian in
instance : FixedStruct Rtmsg where
  size := sizeofRtmsg
  memory := fun message =>
    write 1 message.family ++ (write 1 message.dstLen ++ (write 1 message.srcLen ++
      (write 1 message.tos ++ (write 1 message.table ++ (write 1 message.protocol ++
        (write 1 message.scope ++ (write 1 message.type ++ write 4 message.flags)))))))
  length_memory := by simp

abbrev LinkRequest := FixedRequest Ifinfomsg
abbrev AddressRequest := FixedRequest Ifaddrmsg
abbrev RouteRequest := FixedRequest Rtmsg

namespace Netlink

abbrev nlmFDump : Nat := 0x300
abbrev rtmGetlink : Nat := 18
abbrev rtmGetaddr : Nat := 22
abbrev rtmGetroute : Nat := 26
abbrev afUnspec : Nat := 0
abbrev rtScopeUniverse : Nat := 0

end Netlink

open NeighborRequest (nlmFRequest rtnUnspec)

def LinkRequest.buildRequest (msgFlags family type flags change : Nat) (sequence : UInt32)
    (ifindex : UInt16) (request : LinkRequest) : LinkRequest :=
  { request with
    header :=
      { len := nlmsgLength sizeofIfinfomsg
        type := rtmGetlink
        flags := msgFlags
        seq := sequence.toNat
        pid := 0 }
    message := { family, type, index := ifindex.toNat, flags, change } }

def AddressRequest.buildRequest (msgFlags addressFamily prefixlen ifaFlags scope : Nat)
    (sequence : UInt32) (ifindex : UInt16) (request : AddressRequest) : AddressRequest :=
  { request with
    header :=
      { len := nlmsgLength sizeofIfaddrmsg
        type := rtmGetaddr
        flags := msgFlags
        seq := sequence.toNat
        pid := 0 }
    message :=
      { family := addressFamily, prefixlen, flags := ifaFlags, scope, index := ifindex.toNat } }

def RouteRequest.buildRequest (msgFlags addressFamily routeTable scope protocol : Nat)
    (sequence : UInt32) (request : RouteRequest) : RouteRequest :=
  { request with
    header :=
      { len := nlmsgLength sizeofRtmsg
        type := rtmGetroute
        flags := msgFlags
        seq := sequence.toNat
        pid := 0 }
    message :=
      { request.message with
        family := addressFamily
        table := routeTable
        scope := scope
        protocol := protocol
        type := rtnUnspec } }

/-- `prepare_request` on a new task. -/
def LinkDumpTask.prepareRequest (sequence : UInt32) (ifindex : UInt16) : LinkRequest :=
  LinkRequest.buildRequest (nlmFRequest ||| nlmFDump) afUnspec 0 0 0 sequence ifindex
    { message := {} }

def AddressDumpTask.prepareRequest (sequence : UInt32) (ifindex : UInt16) : AddressRequest :=
  AddressRequest.buildRequest (nlmFRequest ||| nlmFDump) rtnUnspec 0 0 rtScopeUniverse sequence
    ifindex { message := {} }

/-- A route dump does not use its interface index. -/
def RouteDumpTask.prepareRequest (sequence : UInt32) (_ifindex : UInt16) : RouteRequest :=
  RouteRequest.buildRequest (nlmFRequest ||| nlmFDump) rtnUnspec rtTableMain rtScopeUniverse
    rtnUnspec sequence { message := {} }

/-- The address of a neighbor dump is the zeroed `request_.dst` itself. -/
def NeighborDumpTask.prepareRequest (sequence : UInt32) (ifindex : UInt16) : NeighborRequest :=
  NeighborRequest.buildRequest NeighborRequest.rtmGetneigh (nlmFRequest ||| nlmFDump) 0 0 sequence
    ifindex ({} : NeighborRequest).dst {}

/-- The payload is one message with nothing behind it, and its header has the given members. -/
structure IsRequest (payload : Bytes) (type flags sequence : Nat) : Prop where
  message : ∃ message : Message, Records.Format.encode [message] = payload
  header : Nlmsghdr.at payload = ⟨payload.length, type, flags, sequence, 0⟩

theorem Nlmsghdr.at_nlmsghdr {header : Nlmsghdr} (len : header.len < 2 ^ 32)
    (type : header.type < 2 ^ 16) (flags : header.flags < 2 ^ 16) (seq : header.seq < 2 ^ 32)
    (pid : header.pid < 2 ^ 32) (behind : Bytes) :
    Nlmsghdr.at (nlmsghdr header.len header.type header.flags header.seq header.pid ++ behind) =
      header := by
  have whole : 16 ≤ (nlmsghdr header.len header.type header.flags header.seq
      header.pid).length := by simp
  have front : nlmsghdr header.len header.type header.flags header.seq header.pid =
      LittleEndian.write 4 header.len ++ LittleEndian.write 2 header.type ++
        (LittleEndian.write 2 header.flags ++
          (LittleEndian.write 4 header.seq ++ (LittleEndian.write 4 header.pid ++ []))) := by
    simp only [nlmsghdr, List.append_assoc, List.append_nil]
  have flagsRead : nlmsgFlags (nlmsghdr header.len header.type header.flags header.seq
      header.pid) = header.flags := by
    rw [front, nlmsgFlags, field_written (by simp), Nat.mod_eq_of_lt (by omega)]
  have pidRead : nlmsgPid (nlmsghdr header.len header.type header.flags header.seq
      header.pid) = header.pid := by
    rw [front, ← List.append_assoc, ← List.append_assoc, nlmsgPid, field_written (by simp),
      Nat.mod_eq_of_lt (by omega)]
  unfold Nlmsghdr.at
  rw [nlmsgLen_append _ whole, nlmsgLen_nlmsghdr len, nlmsgType_append _ whole,
    nlmsgType_nlmsghdr type, nlmsgFlags_append _ whole, flagsRead, nlmsgSeq_append _ whole,
    nlmsgSeq_nlmsghdr seq, nlmsgPid_append _ whole, pidRead]

theorem isRequest_of_header {type flags : Nat} (sequence : UInt32) {body : Bytes}
    (typeFits : type < 2 ^ 16) (flagsFit : flags < 2 ^ 16) (small : 16 + body.length < 2 ^ 32)
    (aligned : 4 ∣ body.length) :
    IsRequest (nlmsghdr (16 + body.length) type flags sequence.toNat 0 ++ body) type flags
      sequence.toNat := by
  constructor
  · let message := Message.build type flags sequence.toNat 0 body small
    have padding : message.padding = [] := by
      apply List.eq_nil_of_length_eq_zero
      rw [message.padding_length]
      have length : message.bytes.length = 16 + body.length := by
        simp [message, Message.build]
      have rounded : messageFormat.round message.bytes.length =
          (message.bytes.length + 3) / 4 * 4 := rfl
      omega
    refine ⟨message, ?_⟩
    rw [Records.Format.encode_cons, Records.Format.encode_nil, List.append_nil,
      Records.Format.Record.encode, padding, List.append_nil]
    rfl
  · have read := @Nlmsghdr.at_nlmsghdr ⟨16 + body.length, type, flags, sequence.toNat, 0⟩ small
      typeFits flagsFit sequence.toNat_lt (Nat.two_pow_pos 32) body
    rw [List.length_append, length_nlmsghdr]
    exact read

theorem FixedRequest.requestPayload_eq {Payload : Type u} [FixedStruct Payload]
    {request : FixedRequest Payload}
    (len : request.header.len = nlmsgLength (FixedStruct.size Payload)) :
    request.requestPayload =
      nlmsghdr (16 + (FixedStruct.memory request.message).length) request.header.type
          request.header.flags request.header.seq request.header.pid ++
        FixedStruct.memory request.message := by
  have total : nlmsgLength (FixedStruct.size Payload) =
      16 + (FixedStruct.memory request.message).length := by
    rw [nlmsgLength_eq, FixedStruct.length_memory, Nat.add_comm]
  rw [requestPayload, memory, len, total, List.take_of_length_le]
  rw [List.length_append, length_nlmsghdr]

theorem FixedRequest.isRequest {Payload : Type u} [FixedStruct Payload]
    {request : FixedRequest Payload} {sequence : UInt32}
    (len : request.header.len = nlmsgLength (FixedStruct.size Payload))
    (seq : request.header.seq = sequence.toNat) (pid : request.header.pid = 0)
    (type : request.header.type < 2 ^ 16) (flags : request.header.flags < 2 ^ 16)
    (aligned : 4 ∣ FixedStruct.size Payload) (small : FixedStruct.size Payload < 2 ^ 16) :
    IsRequest request.requestPayload request.header.type request.header.flags sequence.toNat := by
  have length := FixedStruct.length_memory request.message
  rw [requestPayload_eq len, seq, pid]
  refine isRequest_of_header sequence type flags ?_ ?_
  · omega
  · rw [length]
    exact aligned

theorem NeighborRequest.isRequest {msgType msgFlags : Nat} (ndmState ndmFlags : Nat)
    (sequence : UInt32) (ifindex : UInt16) (address : AddressBytes) (type : msgType < 2 ^ 16)
    (flags : msgFlags < 2 ^ 16) :
    IsRequest (buildRequest msgType msgFlags ndmState ndmFlags sequence ifindex address
      {}).requestPayload msgType msgFlags sequence.toNat := by
  by_cases zero : ifindex = 0
  · subst zero
    let message : Ndmsg := ⟨rtnUnspec, 0, ndmState, ndmFlags, rtnUnspec⟩
    have length : message.memory.length = 12 := length_memory_ndmsg message
    have payload : (buildRequest msgType msgFlags ndmState ndmFlags sequence 0 address
        {}).requestPayload =
          nlmsghdr (16 + message.memory.length) msgType msgFlags sequence.toNat 0 ++
            message.memory := by
      rw [length]
      change (nlmsghdr 28 msgType msgFlags sequence.toNat 0 ++ (message.memory ++ _)).take 28 = _
      rw [← List.append_assoc]
      exact List.take_left' (by rw [List.length_append, length_nlmsghdr, length])
    rw [payload]
    refine isRequest_of_header sequence type flags ?_ ?_
    · rw [length]
      decide
    · rw [length]
      decide
  · rw [requestPayload_buildRequest _ _ _ _ _ _ zero]
    refine isRequest_of_header sequence type flags ?_ ?_
    · simp [length_memory_ndmsg, encode_dstAttribute]
    · simp [length_memory_ndmsg, encode_dstAttribute]

namespace EventKind

/-- What the dump of a kind sends. -/
def dumpPayload (sequence : UInt32) (ifindex : UInt16) : EventKind → Bytes
  | link => (LinkDumpTask.prepareRequest sequence ifindex).requestPayload
  | address => (AddressDumpTask.prepareRequest sequence ifindex).requestPayload
  | route => (RouteDumpTask.prepareRequest sequence ifindex).requestPayload
  | neighbor => (NeighborDumpTask.prepareRequest sequence ifindex).requestPayload

def getType : EventKind → Nat
  | link => rtmGetlink
  | address => rtmGetaddr
  | route => rtmGetroute
  | neighbor => NeighborRequest.rtmGetneigh

theorem isRequest_dumpPayload (kind : EventKind) (sequence : UInt32) (ifindex : UInt16) :
    IsRequest (kind.dumpPayload sequence ifindex) kind.getType (nlmFRequest ||| nlmFDump)
      sequence.toNat := by
  cases kind with
  | link =>
      exact FixedRequest.isRequest rfl rfl rfl (by decide : rtmGetlink < 2 ^ 16)
        (by decide : nlmFRequest ||| nlmFDump < 2 ^ 16) (by decide : 4 ∣ sizeofIfinfomsg)
        (by decide : sizeofIfinfomsg < 2 ^ 16)
  | address =>
      exact FixedRequest.isRequest rfl rfl rfl (by decide : rtmGetaddr < 2 ^ 16)
        (by decide : nlmFRequest ||| nlmFDump < 2 ^ 16) (by decide : 4 ∣ sizeofIfaddrmsg)
        (by decide : sizeofIfaddrmsg < 2 ^ 16)
  | route =>
      exact FixedRequest.isRequest rfl rfl rfl (by decide : rtmGetroute < 2 ^ 16)
        (by decide : nlmFRequest ||| nlmFDump < 2 ^ 16) (by decide : 4 ∣ sizeofRtmsg)
        (by decide : sizeofRtmsg < 2 ^ 16)
  | neighbor =>
      exact NeighborRequest.isRequest 0 0 sequence ifindex _
        (by decide : NeighborRequest.rtmGetneigh < 2 ^ 16)
        (by decide : nlmFRequest ||| nlmFDump < 2 ^ 16)

end EventKind

namespace Control.Request

open NeighborRequest

/-- The bytes that the task of a request sends under a number; `Control` dumps all interfaces. -/
def Asks (sequence : Nat) (payload : Bytes) : Request → Prop
  | .dump kind => payload = kind.dumpPayload (.ofNat sequence) 0
  | .getNeighbor => Request.getNeighbor.Sends sequence payload
  | .probeNeighbor => Request.probeNeighbor.Sends sequence payload
  | .flushNeighbor => Request.flushNeighbor.Sends sequence payload

def messageType : Request → Nat
  | .dump kind => kind.getType
  | .getNeighbor => rtmGetneigh
  | .probeNeighbor => rtmNewneigh
  | .flushNeighbor => rtmDelneigh

def messageFlags : Request → Nat
  | .dump _ => nlmFRequest ||| nlmFDump
  | .getNeighbor => nlmFRequest
  | .probeNeighbor => nlmFRequest ||| nlmFAck ||| nlmFCreate ||| nlmFReplace
  | .flushNeighbor => nlmFRequest ||| nlmFAck

/-- A task sends one message, whose header carries the number of its operation. -/
theorem isRequest_of_asks {request : Request} {sequence : Nat} {payload : Bytes}
    (small : sequence < 2 ^ 32) (asks : request.Asks sequence payload) :
    IsRequest payload request.messageType request.messageFlags sequence := by
  have converted : (UInt32.ofNat sequence).toNat = sequence := UInt32.toNat_ofNat_of_lt' small
  cases request with
  | dump kind =>
      obtain rfl := asks
      have sent := kind.isRequest_dumpPayload (.ofNat sequence) 0
      rwa [converted] at sent
  | getNeighbor =>
      obtain ⟨ifindex, address, rfl⟩ := asks
      have sent := isRequest 0 0 (.ofNat sequence) ifindex address
        (by decide : rtmGetneigh < 2 ^ 16) (by decide : nlmFRequest < 2 ^ 16)
      rwa [converted] at sent
  | probeNeighbor =>
      obtain ⟨ifindex, address, rfl⟩ := asks
      have sent := isRequest nudProbe ntfUse (.ofNat sequence) ifindex address
        (by decide : rtmNewneigh < 2 ^ 16)
        (by decide : nlmFRequest ||| nlmFAck ||| nlmFCreate ||| nlmFReplace < 2 ^ 16)
      rwa [converted] at sent
  | flushNeighbor =>
      obtain ⟨ifindex, address, rfl⟩ := asks
      have sent := isRequest 0 0 (.ofNat sequence) ifindex address
        (by decide : rtmDelneigh < 2 ^ 16) (by decide : nlmFRequest ||| nlmFAck < 2 ^ 16)
      rwa [converted] at sent

end Control.Request

end Rtaco
