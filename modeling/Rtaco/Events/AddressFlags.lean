import Rtaco.Events.AttributeLists

/-!
# The flags of an address

The kernel reports the low eight bits of the flags of an address in `ifa_flags`
and all of them in an `IFA_FLAGS` attribute, which the decoder does not read.
-/

namespace Rtaco

open Netlink

abbrev ifaFlagsAttribute : Nat := 8

namespace AddressEvent

inductive Flags where
  | none
  | secondary
  | noDad
  | optimistic
  | dadFailed
  | homeAddress
  | deprecated
  | tentative
  | permanent
  | manageTempAddr
  | noPrefixRoute
  | mcAutoJoin
  | stablePrivacy
  deriving DecidableEq

namespace Flags

abbrev temporary : Flags := secondary

def value : Flags → Nat
  | none => 0
  | secondary => 1 <<< 0
  | noDad => 1 <<< 1
  | optimistic => 1 <<< 2
  | dadFailed => 1 <<< 3
  | homeAddress => 1 <<< 4
  | deprecated => 1 <<< 5
  | tentative => 1 <<< 6
  | permanent => 1 <<< 7
  | manageTempAddr => 1 <<< 8
  | noPrefixRoute => 1 <<< 9
  | mcAutoJoin => 1 <<< 10
  | stablePrivacy => 1 <<< 11

/-- The flags joined with `operator|`. -/
def join : List Flags → Nat
  | [] => none.value
  | flag :: flags => flag.value ||| join flags

theorem join_lt_two_pow_iff (flags : List Flags) (width : Nat) :
    join flags < 2 ^ width ↔ ∀ flag ∈ flags, flag.value < 2 ^ width := by
  induction flags with
  | nil => simp [join, value]
  | cons flag flags inductionHypothesis =>
      rw [List.forall_mem_cons, ← inductionHypothesis, join]
      constructor
      · intro small
        exact ⟨lt_of_le_of_lt Nat.left_le_or small, lt_of_le_of_lt Nat.right_le_or small⟩
      · rintro ⟨here, later⟩
        exact Nat.or_lt_two_pow here later

theorem join_lt (flags : List Flags) : join flags < 2 ^ 12 := by
  rw [join_lt_two_pow_iff]
  intro flag _
  cases flag <;> decide

/-- The flags that do not fit in `ifa_flags`. -/
def wide : List Flags := [manageTempAddr, noPrefixRoute, mcAutoJoin, stablePrivacy]

theorem value_lt_iff (flag : Flags) : flag.value < 2 ^ 8 ↔ flag ∉ wide := by
  cases flag <;> decide

/-- The low byte holds all flags unless one of them does not fit. -/
theorem join_mod_eq_iff (flags : List Flags) :
    join flags % 256 = join flags ↔ ∀ flag ∈ flags, flag ∉ wide := by
  have small := join_lt_two_pow_iff flags 8
  simp only [value_lt_iff] at small
  rw [← small]
  exact Nat.mod_eq_iff_lt (by decide)

end Flags

/-- A message that reports the flags the way the kernel does. -/
structure Reports (message : Message) (attrs : List Attribute) (flags : List Flags) : Prop where
  carries : EventKind.address.Carries message attrs
  low : ifaFlags (EventKind.address.fixed message) = Flags.join flags % 256
  full : ∃ attr ∈ attrs, attr.type = ifaFlagsAttribute ∧
    attr.payload = LittleEndian.write 4 (Flags.join flags)

variable {message : Message} {attrs : List Attribute} {flags : List Flags}

theorem Reports.attributeUint32 (reports : Reports message attrs flags) (behind : Bytes) :
    ∃ attr ∈ attrs, attr.type = ifaFlagsAttribute ∧
      attributeUint32 (attr.bytes ++ behind) = Flags.join flags := by
  obtain ⟨attr, member, typed, holds⟩ := reports.full
  refine ⟨attr, member, typed, ?_⟩
  have small := Flags.join_lt flags
  rw [attr.attributeUint32_append, holds, uint32Value, if_neg (by simp), field, List.drop_zero,
    LittleEndian.read_write, Nat.mod_eq_of_lt (by omega)]

theorem fromNlmsghdr_flags (carries : EventKind.address.Carries message attrs) (behind : Bytes) :
    (fromNlmsghdr (message.bytes ++ behind)).flags =
      ifaFlags (EventKind.address.fixed message) := by
  have header : 16 ≤ message.bytes.length := message.header_le
  have type := nlmsgType_append behind header
  have known : typeOf (nlmsgType (message.bytes ++ behind)) ≠ .unknown := by
    rw [type]
    exact typeOf_known.mpr carries.decodes
  have enough : nlmsgLength sizeofIfaddrmsg ≤ nlmsgLen (message.bytes ++ behind) := by
    rw [nlmsgLen_append behind header]
    exact carries.enough
  have size : (EventKind.address.fixed message).length = 8 := EventKind.length_fixed carries.enough
  calc (fromNlmsghdr (message.bytes ++ behind)).flags
      = ifaFlags (nlmsgData (message.bytes ++ behind)) :=
        congrArg AddressEvent.flags (decodeEvent_of_enough known enough)
    _ = ifaFlags (EventKind.address.fixed message) := by
        rw [EventKind.address.nlmsgData_eq_fixed]
        exact field_append _ (by omega)

/-- The event has the reported flags exactly when all of them fit in `ifa_flags`, and always has
those of `ifa_flags`. -/
theorem flags_reported_iff (carries : EventKind.address.Carries message attrs) (behind : Bytes) :
    (∀ flags, Reports message attrs flags →
      ((fromNlmsghdr (message.bytes ++ behind)).flags = Flags.join flags ↔
        ∀ flag ∈ flags, flag ∉ Flags.wide)) ∧
    ((∀ attr ∈ attrs, attr.type ≠ ifaFlagsAttribute) →
      (fromNlmsghdr (message.bytes ++ behind)).flags =
        ifaFlags (EventKind.address.fixed message)) := by
  have decoded := fromNlmsghdr_flags carries behind
  constructor
  · intro flags reports
    rw [decoded, reports.low]
    exact Flags.join_mod_eq_iff flags
  · intro _
    exact decoded

end AddressEvent

theorem small_flags : 4 + ([0x82, 0, 0, 0] : Bytes).length < 2 ^ 16 := by decide

theorem small_label : 4 + ([108, 111, 0] : Bytes).length < 2 ^ 16 := by decide

/-- A permanent address without duplicate detection, the flags behind a label. -/
def narrowAttributes : List Attribute :=
  [.build ifaLabel [108, 111, 0] small_label,
    .build ifaFlagsAttribute [0x82, 0, 0, 0] small_flags]

def narrowMessage : Message :=
  Message.build rtmNewaddr 0 0 0
    ([2, 8, 0x82, 0, 1, 0, 0, 0] ++ Records.Format.encode narrowAttributes) (by decide)

theorem flags_reported_iff_narrowMessage :
    (AddressEvent.fromNlmsghdr (narrowMessage.bytes ++ [])).flags = 0x82 := by
  have carries : EventKind.address.Carries narrowMessage narrowAttributes :=
    ⟨by decide, by decide, [], by decide, by decide⟩
  have reports : AddressEvent.Reports narrowMessage narrowAttributes [.permanent, .noDad] :=
    ⟨carries, by decide, _, .tail _ (.head _), by decide, by decide⟩
  exact ((AddressEvent.flags_reported_iff carries []).1 _ reports).mpr (by decide)

/-- A permanent address that adds no route for its prefix. -/
def wideAttributes : List Attribute :=
  [.build ifaFlagsAttribute [0x80, 2, 0, 0] small_flags]

def wideMessage : Message :=
  Message.build rtmNewaddr 0 0 0
    ([2, 8, 0x80, 0, 1, 0, 0, 0] ++ Records.Format.encode wideAttributes) (by decide)

/-- The event of that address has lost `NOPREFIXROUTE`. -/
theorem noPrefixRoute_lost :
    AddressEvent.Reports wideMessage wideAttributes [.permanent, .noPrefixRoute] ∧
      (AddressEvent.fromNlmsghdr wideMessage.bytes).flags = 0x080 ∧
      AddressEvent.Flags.join [.permanent, .noPrefixRoute] = 0x280 := by
  have carries : EventKind.address.Carries wideMessage wideAttributes :=
    ⟨by decide, by decide, [], by decide, by decide⟩
  exact ⟨⟨carries, by decide, _, .head _, by decide, by decide⟩, by decide, by decide⟩

end Rtaco
