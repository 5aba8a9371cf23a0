import Mathlib.Data.List.DropRight
import Rtaco.Library.LittleEndian
import Rtaco.Library.Records

/-!
# Wire layout of rtnetlink messages

The uapi structures, constants and macros the library uses, for a little-endian
host. A C pointer is the list of the bytes in memory from its target on; a byte
behind the modelled memory reads as zero.
-/

namespace Rtaco

abbrev Bytes := List UInt8

namespace Netlink

/-- The unsigned field of `width` bytes at an offset from a pointer. -/
def field (offset width : Nat) (pointer : Bytes) : Nat :=
  LittleEndian.read width (pointer.drop offset)

theorem field_lt (offset width : Nat) (pointer : Bytes) :
    field offset width pointer < 256 ^ width :=
  LittleEndian.read_lt _ _

theorem field_append {offset width : Nat} {front : Bytes} (rest : Bytes)
    (inside : offset + width ≤ front.length) :
    field offset width (front ++ rest) = field offset width front := by
  have offsetInside : offset ≤ front.length := by omega
  unfold field
  rw [List.drop_append_of_le_length offsetInside]
  exact LittleEndian.read_append rest (by simp only [List.length_drop]; omega)

theorem field_write (width value : Nat) (rest : Bytes) :
    field 0 width (LittleEndian.write width value ++ rest) = value % 256 ^ width := by
  rw [field, List.drop_zero, LittleEndian.read_append rest (by simp), LittleEndian.read_write]

theorem field_written {offset width value : Nat} {front : Bytes} (behind : front.length = offset)
    (rest : Bytes) :
    field offset width (front ++ (LittleEndian.write width value ++ rest)) =
      value % 256 ^ width := by
  rw [← field_write width value rest, field, field, List.drop_left' behind, List.drop_zero]

/-- Conversion to `int`. -/
def toInt32 (value : Int) : Int := Int.bmod value (2 ^ 32)

theorem toInt32_eq {value : Int} (low : -(2 ^ 31) ≤ value) (high : value < 2 ^ 31) :
    toInt32 value = value := by
  unfold toInt32
  rw [Int.bmod_eq_of_le] <;> omega

/-- Conversion to `size_t`. -/
def toSize (value : Int) : Nat := (value % 2 ^ 64).toNat

abbrev sizeofNlmsghdr : Nat := 16

def nlmsgLen (header : Bytes) : Nat := field 0 4 header
def nlmsgType (header : Bytes) : Nat := field 4 2 header
def nlmsgFlags (header : Bytes) : Nat := field 6 2 header
def nlmsgSeq (header : Bytes) : Nat := field 8 4 header
def nlmsgPid (header : Bytes) : Nat := field 12 4 header

/-- `NLMSG_ALIGN` of a 32-bit length. -/
def nlmsgAlign (len : Nat) : Nat := (len + 3) % 2 ^ 32 / 4 * 4

/-- `NLMSG_LENGTH`. -/
def nlmsgLength (len : Nat) : Nat := len + nlmsgAlign sizeofNlmsghdr

/-- `NLMSG_DATA`. -/
def nlmsgData (header : Bytes) : Bytes := header.drop (nlmsgLength 0)

/-- `NLMSG_PAYLOAD`, in 32-bit arithmetic. -/
def nlmsgPayload (header : Bytes) (len : Nat) : Nat :=
  (nlmsgLen header + 2 ^ 32 - nlmsgAlign (nlmsgLength len)) % 2 ^ 32

/-- `NLMSG_OK`. -/
def NlmsgOk (header : Bytes) (len : Nat) : Prop :=
  sizeofNlmsghdr ≤ len ∧ sizeofNlmsghdr ≤ nlmsgLen header ∧ nlmsgLen header ≤ len

instance (header : Bytes) (len : Nat) : Decidable (NlmsgOk header len) :=
  inferInstanceAs (Decidable (_ ∧ _ ∧ _))

theorem nlmsgAlign_eq {len : Nat} (small : len + 3 < 2 ^ 32) :
    nlmsgAlign len = (len + 3) / 4 * 4 := by
  unfold nlmsgAlign
  rw [Nat.mod_eq_of_lt small]

theorem nlmsgLength_eq (len : Nat) : nlmsgLength len = len + 16 := rfl

theorem nlmsgData_eq (header : Bytes) : nlmsgData header = header.drop 16 := rfl

theorem nlmsgLen_lt (header : Bytes) : nlmsgLen header < 2 ^ 32 := field_lt 0 4 header

theorem nlmsgLen_append {front : Bytes} (rest : Bytes) (inside : 16 ≤ front.length) :
    nlmsgLen (front ++ rest) = nlmsgLen front := field_append rest (by omega)

theorem nlmsgType_append {front : Bytes} (rest : Bytes) (inside : 16 ≤ front.length) :
    nlmsgType (front ++ rest) = nlmsgType front := field_append rest (by omega)

theorem nlmsgFlags_append {front : Bytes} (rest : Bytes) (inside : 16 ≤ front.length) :
    nlmsgFlags (front ++ rest) = nlmsgFlags front := field_append rest (by omega)

theorem nlmsgSeq_append {front : Bytes} (rest : Bytes) (inside : 16 ≤ front.length) :
    nlmsgSeq (front ++ rest) = nlmsgSeq front := field_append rest (by omega)

theorem nlmsgPid_append {front : Bytes} (rest : Bytes) (inside : 16 ≤ front.length) :
    nlmsgPid (front ++ rest) = nlmsgPid front := field_append rest (by omega)

/-- The kernel's framing of a datagram: `nlmsg_len` bytes a message, each message
starting at a multiple of four. -/
def messageFormat : Records.Format UInt8 where
  header := sizeofNlmsghdr
  size := nlmsgLen
  round := fun len => (len + 3) / 4 * 4
  header_pos := by decide
  le_round := by intro len; omega
  size_append := nlmsgLen_append

/-- A complete message and the padding behind it. -/
abbrev Message := messageFormat.Record

theorem nlmsgData_append (message : Message) (behind : Bytes) :
    nlmsgData (message.bytes ++ behind) = nlmsgData message.bytes ++ behind := by
  have header : 16 ≤ message.bytes.length := message.header_le
  rw [nlmsgData_eq, nlmsgData_eq, List.drop_append_of_le_length header]

open LittleEndian in
def nlmsghdr (len type flags seq pid : Nat) : Bytes :=
  write 4 len ++ (write 2 type ++ (write 2 flags ++ (write 4 seq ++ write 4 pid)))

@[simp]
theorem length_nlmsghdr (len type flags seq pid : Nat) :
    (nlmsghdr len type flags seq pid).length = 16 := by
  simp [nlmsghdr]

theorem nlmsgLen_nlmsghdr {len : Nat} (small : len < 2 ^ 32) (type flags seq pid : Nat) :
    nlmsgLen (nlmsghdr len type flags seq pid) = len := by
  unfold nlmsgLen field nlmsghdr
  rw [List.drop_zero, LittleEndian.read_append _ (by simp), LittleEndian.read_write]
  exact Nat.mod_eq_of_lt small

theorem nlmsgType_nlmsghdr {type : Nat} (small : type < 2 ^ 16) (len flags seq pid : Nat) :
    nlmsgType (nlmsghdr len type flags seq pid) = type := by
  unfold nlmsgType nlmsghdr
  rw [field_written (LittleEndian.length_write _ _)]
  exact Nat.mod_eq_of_lt (by omega)

theorem nlmsgSeq_nlmsghdr {seq : Nat} (small : seq < 2 ^ 32) (len type flags pid : Nat) :
    nlmsgSeq (nlmsghdr len type flags seq pid) = seq := by
  have grouped : nlmsghdr len type flags seq pid = (LittleEndian.write 4 len ++
      (LittleEndian.write 2 type ++ LittleEndian.write 2 flags)) ++
        (LittleEndian.write 4 seq ++ LittleEndian.write 4 pid) := by
    simp only [nlmsghdr, List.append_assoc]
  rw [grouped, nlmsgSeq, field_written (by simp)]
  exact Nat.mod_eq_of_lt (by omega)

/-- The message with the given header fields and payload, padded with zeros. -/
def Message.build (type flags seq pid : Nat) (payload : Bytes)
    (small : 16 + payload.length < 2 ^ 32) : Message where
  bytes := nlmsghdr (16 + payload.length) type flags seq pid ++ payload
  padding := List.replicate ((16 + payload.length + 3) / 4 * 4 - (16 + payload.length)) 0
  header_le := by simp [messageFormat]
  size_eq := by
    change nlmsgLen _ = _
    rw [nlmsgLen_append _ (by simp), nlmsgLen_nlmsghdr small, List.length_append, length_nlmsghdr]
  padding_length := by simp [messageFormat]

theorem nlmsgData_nlmsghdr (len type flags seq pid : Nat) (payload : Bytes) :
    nlmsgData (nlmsghdr len type flags seq pid ++ payload) = payload := by
  rw [nlmsgData_eq]
  exact List.drop_left' (by simp)

abbrev nlmsgError : Nat := 2
abbrev nlmsgDone : Nat := 3
abbrev rtmNewlink : Nat := 16
abbrev rtmDellink : Nat := 17
abbrev rtmNewaddr : Nat := 20
abbrev rtmDeladdr : Nat := 21
abbrev rtmNewroute : Nat := 24
abbrev rtmDelroute : Nat := 25
abbrev rtmNewneigh : Nat := 28
abbrev rtmDelneigh : Nat := 29

abbrev sizeofIfinfomsg : Nat := 16
abbrev sizeofIfaddrmsg : Nat := 8
abbrev sizeofRtmsg : Nat := 12
abbrev sizeofNdmsg : Nat := 12
abbrev sizeofNlmsgerr : Nat := 20

def ifiIndex (info : Bytes) : Int := toInt32 (field 4 4 info)
def ifiFlags (info : Bytes) : Nat := field 8 4 info
def ifiChange (info : Bytes) : Nat := field 12 4 info

def ifaFamily (info : Bytes) : Nat := field 0 1 info
def ifaPrefixlen (info : Bytes) : Nat := field 1 1 info
def ifaFlags (info : Bytes) : Nat := field 2 1 info
def ifaScope (info : Bytes) : Nat := field 3 1 info
def ifaIndex (info : Bytes) : Nat := field 4 4 info

def rtmFamily (info : Bytes) : Nat := field 0 1 info
def rtmDstLen (info : Bytes) : Nat := field 1 1 info
def rtmSrcLen (info : Bytes) : Nat := field 2 1 info
def rtmTable (info : Bytes) : Nat := field 4 1 info
def rtmProtocol (info : Bytes) : Nat := field 5 1 info
def rtmScope (info : Bytes) : Nat := field 6 1 info
def rtmType (info : Bytes) : Nat := field 7 1 info
def rtmFlags (info : Bytes) : Nat := field 8 4 info

def ndmFamily (info : Bytes) : Nat := field 0 1 info
def ndmIfindex (info : Bytes) : Int := toInt32 (field 4 4 info)
def ndmState (info : Bytes) : Nat := field 8 2 info
def ndmFlags (info : Bytes) : Nat := field 10 1 info
def ndmType (info : Bytes) : Nat := field 11 1 info

/-- `nlmsgerr::error`. -/
def nlmsgerrError (err : Bytes) : Int := toInt32 (field 0 4 err)

abbrev sizeofRtattr : Nat := 4

def rtaLen (attr : Bytes) : Nat := field 0 2 attr
def rtaType (attr : Bytes) : Nat := field 2 2 attr

/-- `RTA_ALIGN` of an attribute length. -/
def rtaAlign (len : Nat) : Nat := (len + 3) % 2 ^ 32 / 4 * 4

/-- `RTA_DATA`. -/
def rtaData (attr : Bytes) : Bytes := attr.drop (rtaAlign sizeofRtattr)

/-- `RTA_PAYLOAD`, before it wraps as a `size_t`. -/
def rtaPayload (attr : Bytes) : Int := (rtaLen attr : Int) - rtaAlign sizeofRtattr

/-- `RTA_OK` with the `int` of bytes left. -/
def RtaOk (attr : Bytes) (len : Int) : Prop :=
  (sizeofRtattr : Int) ≤ len ∧ sizeofRtattr ≤ rtaLen attr ∧ (rtaLen attr : Int) ≤ len

instance (attr : Bytes) (len : Int) : Decidable (RtaOk attr len) :=
  inferInstanceAs (Decidable (_ ∧ _ ∧ _))

theorem rtaLen_lt (attr : Bytes) : rtaLen attr < 2 ^ 16 := field_lt 0 2 attr

@[simp] theorem rtaData_eq (attr : Bytes) : rtaData attr = attr.drop 4 := rfl

theorem rtaAlign_eq (attr : Bytes) : rtaAlign (rtaLen attr) = (rtaLen attr + 3) / 4 * 4 := by
  have short := rtaLen_lt attr
  unfold rtaAlign
  rw [Nat.mod_eq_of_lt (by omega)]

/-- `RTA_NEXT`: the next attribute and what is left of the `int` length, from
which the unsigned aligned length was subtracted. -/
def rtaNext (attr : Bytes) (len : Int) : Bytes × Int :=
  (attr.drop (rtaAlign (rtaLen attr)), toInt32 (len - rtaAlign (rtaLen attr)))

theorem toSize_rtaPayload {attr : Bytes} (enough : 4 ≤ rtaLen attr) :
    toSize (rtaPayload attr) = rtaLen attr - 4 := by
  have short := rtaLen_lt attr
  have aligned : rtaAlign sizeofRtattr = 4 := rfl
  unfold toSize rtaPayload
  rw [aligned]
  omega

theorem rtaLen_append {front : Bytes} (rest : Bytes) (inside : 4 ≤ front.length) :
    rtaLen (front ++ rest) = rtaLen front := field_append rest (by omega)

theorem rtaType_append {front : Bytes} (rest : Bytes) (inside : 4 ≤ front.length) :
    rtaType (front ++ rest) = rtaType front := field_append rest (by omega)

abbrev iflaIfname : Nat := 3

abbrev ifaAddress : Nat := 1
abbrev ifaLocal : Nat := 2
abbrev ifaLabel : Nat := 3

abbrev rtaDst : Nat := 1
abbrev rtaSrc : Nat := 2
abbrev rtaOif : Nat := 4
abbrev rtaGateway : Nat := 5
abbrev rtaPriority : Nat := 6
abbrev rtaPrefsrc : Nat := 7
abbrev rtaTable : Nat := 15

abbrev ndaDst : Nat := 1
abbrev ndaLladdr : Nat := 2

abbrev afInet : Nat := 2
abbrev afInet6 : Nat := 10

abbrev rtTableMain : Nat := 254

end Netlink

open Netlink

structure Nlmsghdr where
  len : Nat
  type : Nat
  flags : Nat
  seq : Nat
  pid : Nat
  deriving DecidableEq

def Nlmsghdr.at (header : Bytes) : Nlmsghdr where
  len := nlmsgLen header
  type := nlmsgType header
  flags := nlmsgFlags header
  seq := nlmsgSeq header
  pid := nlmsgPid header

end Rtaco
