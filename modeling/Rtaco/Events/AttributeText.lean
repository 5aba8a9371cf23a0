import Rtaco.Events.Confinement

/-!
# What the attribute helpers return

An attribute is a record of its own: a length, a type and a payload. Each helper
of `nl_common.hxx`, given a pointer to an attribute, returns a function of the
payload, as long as the payload holds what the helper reads.
-/

namespace Rtaco

open Netlink

namespace Netlink

/-- The framing of the attributes of a message. -/
def attributeFormat : Records.Format UInt8 where
  header := sizeofRtattr
  size := rtaLen
  round := fun len => (len + 3) / 4 * 4
  header_pos := by decide
  le_round := messageFormat.le_round
  size_append := rtaLen_append

/-- A well-formed attribute and the padding behind it. -/
abbrev Attribute := attributeFormat.Record

namespace Attribute

def type (attr : Attribute) : Nat := rtaType attr.bytes

def payload (attr : Attribute) : Bytes := rtaData attr.bytes

theorem inside (attr : Attribute) : Inside attr.bytes := by
  have header : 4 ≤ attr.bytes.length := attr.header_le
  have size : rtaLen attr.bytes = attr.bytes.length := attr.size_eq
  exact ⟨by omega, by omega⟩

theorem toSize_rtaPayload (attr : Attribute) :
    toSize (rtaPayload attr.bytes) = attr.payload.length := by
  have size : rtaLen attr.bytes = attr.bytes.length := attr.size_eq
  rw [Netlink.toSize_rtaPayload attr.inside.1, size, payload, rtaData_eq, List.length_drop]

theorem rtaLen_written (type : Nat) {payload : Bytes} (small : 4 + payload.length < 2 ^ 16) :
    rtaLen (LittleEndian.write 2 (4 + payload.length) ++
      (LittleEndian.write 2 type ++ payload)) = 4 + payload.length := by
  change field 0 2 _ = _
  rw [field, List.drop_zero, LittleEndian.read_append _ (by simp), LittleEndian.read_write,
    Nat.mod_eq_of_lt (show _ < 256 ^ 2 by omega)]

theorem length_written (type : Nat) (payload : Bytes) :
    (LittleEndian.write 2 (4 + payload.length) ++
      (LittleEndian.write 2 type ++ payload)).length = 4 + payload.length := by
  simp only [List.length_append, LittleEndian.length_write]
  omega

/-- The attribute with the given type and payload, padded with zeros. -/
def build (type : Nat) (payload : Bytes) (small : 4 + payload.length < 2 ^ 16) : Attribute where
  bytes := LittleEndian.write 2 (4 + payload.length) ++ (LittleEndian.write 2 type ++ payload)
  padding := List.replicate ((4 + payload.length + 3) / 4 * 4 - (4 + payload.length)) 0
  header_le := by
    rw [length_written]
    exact Nat.le_add_right 4 payload.length
  size_eq := by
    rw [length_written]
    exact rtaLen_written type small
  padding_length := by
    rw [length_written, List.length_replicate]
    rfl

end Attribute

end Netlink

theorem trimString_of_notMem {text : Bytes} (clean : (0 : UInt8) ∉ text) :
    trimString text = text := by
  unfold trimString
  rw [List.rdropWhile_eq_self_iff]
  intro nonempty last
  have member := List.getLast_mem nonempty
  rw [beq_iff_eq.mp last] at member
  exact clean member

theorem trimString_append_replicate {text : Bytes} (clean : (0 : UInt8) ∉ text) (count : Nat) :
    trimString (text ++ List.replicate count 0) = text := by
  induction count with
  | zero => simpa using trimString_of_notMem clean
  | succ count inductionHypothesis =>
      rw [List.replicate_succ', ← List.append_assoc, trimString, List.rdropWhile_concat_pos _ _ _
        (by decide)]
      exact inductionHypothesis

theorem zero_notMem_cString (buffer : Bytes) : (0 : UInt8) ∉ cString buffer := by
  intro member
  have kept := List.mem_takeWhile_imp member
  simp at kept

theorem trimString_cString (buffer : Bytes) : trimString (cString buffer) = cString buffer :=
  trimString_of_notMem (zero_notMem_cString buffer)

/-- The text of an address, which is empty for a family without one. -/
def addressText (family : Nat) (payload : Bytes) : Bytes :=
  (inetNtop family payload inet6Addrstrlen).getD []

theorem attributeAddress_eq (attr : Bytes) (family : Nat) :
    attributeAddress attr family = addressText family (rtaData attr) := by
  unfold attributeAddress addressText
  by_cases known : family = afInet ∨ family = afInet6
  · rw [if_pos known]
    cases printed : inetNtop family (rtaData attr) inet6Addrstrlen with
    | none => rfl
    | some text => exact trimString_append_replicate (zero_notMem_inetNtop printed) _
  · have unprinted : inetNtop family (rtaData attr) inet6Addrstrlen = none := by
      obtain ⟨notInet, notInet6⟩ := not_or.mp known
      simp [inetNtop, notInet, notInet6]
    rw [if_neg known, unprinted, Option.getD_none]

theorem addressText_append {family : Nat} {payload : Bytes} (behind : Bytes)
    (holds : addressSize family ≤ payload.length) :
    addressText family (payload ++ behind) = addressText family payload := by
  unfold addressText
  rw [inetNtop_append behind holds]

theorem addressText_ne_nil {family : Nat} (known : family = afInet ∨ family = afInet6)
    (payload : Bytes) : addressText family payload ≠ [] := by
  obtain ⟨text, printed, nonempty⟩ := exists_inetNtop known payload
  unfold addressText
  rw [printed]
  exact nonempty

theorem addressText_of_unknown {family : Nat} (unknown : addressSize family = 0)
    (payload : Bytes) : addressText family payload = [] := by
  unfold addressSize at unknown
  split_ifs at unknown with isInet isInet6
  simp [addressText, inetNtop, isInet, isInet6]

/-- The two digits of a byte. -/
def hexPair (byte : UInt8) : Bytes :=
  [kHex.getD (byte.toNat / 16 % 16) 0, kHex.getD (byte.toNat % 16) 0]

/-- Two digits for each byte, with colons between the bytes. -/
def hwaddrText : Bytes → Bytes
  | [] => []
  | [byte] => hexPair byte
  | byte :: next :: rest => hexPair byte ++ ':'.toUInt8 :: hwaddrText (next :: rest)

theorem hwaddrText_cons (byte : UInt8) (rest : Bytes) :
    hwaddrText (byte :: rest) =
      hexPair byte ++ rest.flatMap fun byte => ':'.toUInt8 :: hexPair byte := by
  induction rest generalizing byte with
  | nil => simp [hwaddrText]
  | cons next rest inductionHypothesis =>
      rw [hwaddrText, inductionHypothesis next, List.flatMap_cons, List.cons_append]

theorem flatMap_zipIdx_succ {fn : UInt8 × Nat → Bytes} {later : UInt8 → Bytes}
    (same : ∀ byte index, fn (byte, index + 1) = later byte) (bytes : Bytes) (index : Nat) :
    (bytes.zipIdx (index + 1)).flatMap fn = bytes.flatMap later := by
  induction bytes generalizing index with
  | nil => rfl
  | cons byte bytes inductionHypothesis =>
      rw [List.zipIdx_cons, List.flatMap_cons, List.flatMap_cons, same, inductionHypothesis]

theorem attributeHwaddr_eq {attr : Bytes}
    (inside : toSize (rtaPayload attr) ≤ (rtaData attr).length) :
    attributeHwaddr attr = hwaddrText ((rtaData attr).take (toSize (rtaPayload attr))) := by
  unfold attributeHwaddr
  simp only [List.takeD_eq_take _ inside]
  cases (rtaData attr).take (toSize (rtaPayload attr)) with
  | nil => rfl
  | cons byte rest =>
      rw [hwaddrText_cons, List.zipIdx_cons, List.flatMap_cons, if_pos rfl, List.nil_append]
      exact congrArg _ (flatMap_zipIdx_succ (fun _ _ => rfl) rest 0)

/-- The bytes a text of colon-separated pairs of digits stands for. -/
def hwaddrBytes : Bytes → Bytes
  | high :: low :: rest =>
      UInt8.ofNat (kHex.idxOf high * 16 + kHex.idxOf low) ::
        match rest with
        | [] => []
        | _ :: rest => hwaddrBytes rest
  | _ => []

theorem idxOf_kHex {digit : Nat} (small : digit < 16) : kHex.idxOf (kHex.getD digit 0) = digit := by
  decide +revert

theorem ofNat_hexPair (byte : UInt8) :
    UInt8.ofNat (kHex.idxOf (kHex.getD (byte.toNat / 16 % 16) 0) * 16 +
      kHex.idxOf (kHex.getD (byte.toNat % 16) 0)) = byte := by
  have bound := byte.toNat_lt
  rw [idxOf_kHex (Nat.mod_lt _ (by decide)), idxOf_kHex (Nat.mod_lt _ (by decide))]
  have halves : byte.toNat / 16 % 16 * 16 + byte.toNat % 16 = byte.toNat := by omega
  rw [halves, UInt8.ofNat_toNat]

theorem hwaddrBytes_hwaddrText (payload : Bytes) : hwaddrBytes (hwaddrText payload) = payload := by
  induction payload with
  | nil => rfl
  | cons byte rest inductionHypothesis =>
      cases rest with
      | nil => simp only [hwaddrText, hexPair, hwaddrBytes, ofNat_hexPair]
      | cons next rest =>
          simp only [hwaddrText, hexPair, List.cons_append, List.nil_append, hwaddrBytes,
            ofNat_hexPair, inductionHypothesis]

/-- The value of four bytes, or zero if there are fewer. -/
def uint32Value (payload : Bytes) : Nat :=
  if payload.length < 4 then 0 else field 0 4 payload

namespace Netlink.Attribute

variable (attr : Attribute) (behind : Bytes)

theorem rtaType_append : rtaType (attr.bytes ++ behind) = attr.type :=
  attr.inside.rtaType_append behind

theorem rtaData_append : rtaData (attr.bytes ++ behind) = attr.payload ++ behind :=
  attr.inside.rtaData_append behind

theorem toSize_rtaPayload_append :
    toSize (rtaPayload (attr.bytes ++ behind)) = attr.payload.length := by
  rw [attr.inside.rtaPayload_append, attr.toSize_rtaPayload]

theorem attributeAddress_append {family : Nat} (holds : addressSize family ≤ attr.payload.length) :
    attributeAddress (attr.bytes ++ behind) family = addressText family attr.payload := by
  rw [attributeAddress_eq, attr.rtaData_append, addressText_append behind holds]

theorem attributeString_append
    (terminated : attr.payload ≠ [] → (0 : UInt8) ∈ attr.payload) :
    attributeString (attr.bytes ++ behind) = cString attr.payload := by
  unfold attributeString
  rw [attr.toSize_rtaPayload_append, attr.rtaData_append]
  by_cases empty : attr.payload = []
  · simp [empty, cString]
  · have present : attr.payload.length ≠ 0 := fun none => empty (List.length_eq_zero_iff.mp none)
    rw [if_neg present, cString_append behind (terminated empty), trimString_cString]

theorem attributeUint32_append :
    attributeUint32 (attr.bytes ++ behind) = uint32Value attr.payload := by
  unfold attributeUint32 uint32Value
  rw [attr.toSize_rtaPayload_append, attr.rtaData_append]
  split_ifs with short
  · rfl
  · exact field_append behind (by omega)

theorem attributeHwaddr_append :
    attributeHwaddr (attr.bytes ++ behind) = hwaddrText attr.payload := by
  have covered : attr.payload.length ≤ (attr.payload ++ behind).length := by simp
  rw [attributeHwaddr_eq (by rwa [attr.toSize_rtaPayload_append, attr.rtaData_append]),
    attr.toSize_rtaPayload_append, attr.rtaData_append, List.take_left]

end Netlink.Attribute

end Rtaco
