import Rtaco.Events.Decoders

/-!
# Decoding a complete message

A decoder given a complete message reads the message only, whatever follows it
in memory, provided that address attributes hold an address of the family and
string attributes are terminated.
-/

namespace Rtaco

open Netlink

universe u

variable {State : Type u}

/-- The attribute at the front of the list lies inside it. -/
def Inside (attr : Bytes) : Prop := 4 ≤ rtaLen attr ∧ rtaLen attr ≤ attr.length

instance (attr : Bytes) : Decidable (Inside attr) := inferInstanceAs (Decidable (_ ∧ _))

theorem rtaOk_length_iff {attr : Bytes} : RtaOk attr attr.length ↔ Inside attr := by
  unfold RtaOk Inside sizeofRtattr
  omega

theorem rtaOk_append {attr : Bytes} (behind : Bytes) (length : Int)
    (here : length ≤ attr.length) : RtaOk (attr ++ behind) length ↔ RtaOk attr length := by
  unfold RtaOk
  by_cases header : (4 : Int) ≤ length
  · rw [rtaLen_append behind (by omega)]
  · simp [header]

theorem rtaNext_length {attr : Bytes} (inside : Inside attr) (short : attr.length < 2 ^ 31) :
    (rtaNext attr attr.length).2 = attr.length - ((rtaLen attr + 3) / 4 * 4 : Nat) := by
  have enough := inside.1
  have small := rtaLen_lt attr
  simp only [rtaNext, rtaAlign_eq]
  rw [toInt32_eq] <;> omega

theorem attributesFrom_of_short {fuel : Nat} {attr : Bytes} {length : Int} (short : length < 4) :
    attributesFrom fuel attr length = [] := by
  cases fuel with
  | zero => rfl
  | succ fuel =>
      have stops : ¬ RtaOk attr length := fun ok => by
        have enough : (4 : Int) ≤ length := ok.1
        omega
      simp [attributesFrom, stops]

theorem attributesFrom_append (fuel : Nat) (attr behind : Bytes) (short : attr.length < 2 ^ 31) :
    attributesFrom fuel (attr ++ behind) attr.length =
      (attributesFrom fuel attr attr.length).map (· ++ behind) := by
  induction fuel generalizing attr with
  | zero => rfl
  | succ fuel inductionHypothesis =>
      by_cases ok : RtaOk attr attr.length
      · have inside := rtaOk_length_iff.mp ok
        have header : 4 ≤ attr.length := le_trans inside.1 inside.2
        have okAll := (rtaOk_append behind attr.length (le_refl _)).mpr ok
        have left := rtaNext_length inside short
        simp only [attributesFrom, ok, okAll, if_true, List.map_cons, List.cons.injEq, true_and]
        simp only [rtaNext, rtaLen_append behind header, rtaAlign_eq] at left ⊢
        rw [left]
        by_cases padded : (rtaLen attr + 3) / 4 * 4 ≤ attr.length
        · have rest : ((attr.length : Int) - ((rtaLen attr + 3) / 4 * 4 : Nat)) =
              (attr.drop ((rtaLen attr + 3) / 4 * 4)).length := by
            rw [List.length_drop]
            omega
          rw [List.drop_append_of_le_length padded, rest]
          exact inductionHypothesis _ (by simp only [List.length_drop]; omega)
        · rw [attributesFrom_of_short (by omega), attributesFrom_of_short (by omega)]
          rfl
      · have stops : ¬ RtaOk (attr ++ behind) attr.length :=
          fun okAll => ok ((rtaOk_append behind attr.length (le_refl _)).mp okAll)
        simp [attributesFrom, ok, stops]

theorem inside_of_mem_attributesFrom (fuel : Nat) (attr : Bytes) (short : attr.length < 2 ^ 31) :
    ∀ visited ∈ attributesFrom fuel attr attr.length, Inside visited := by
  induction fuel generalizing attr with
  | zero => simp [attributesFrom]
  | succ fuel inductionHypothesis =>
      intro visited member
      by_cases ok : RtaOk attr attr.length
      · have inside := rtaOk_length_iff.mp ok
        have left := rtaNext_length inside short
        simp only [attributesFrom, ok, if_true, List.mem_cons] at member
        rcases member with rfl | member
        · exact inside
        · simp only [rtaNext, rtaAlign_eq] at left member
          rw [left] at member
          by_cases padded : (rtaLen attr + 3) / 4 * 4 ≤ attr.length
          · have rest : ((attr.length : Int) - ((rtaLen attr + 3) / 4 * 4 : Nat)) =
                (attr.drop ((rtaLen attr + 3) / 4 * 4)).length := by
              rw [List.length_drop]
              omega
            rw [rest] at member
            exact inductionHypothesis _ (by simp only [List.length_drop]; omega) visited member
          · rw [attributesFrom_of_short (by omega)] at member
            simp at member
      · simp [attributesFrom, ok] at member

/-- The attribute area of a complete message that is long enough for its structure. -/
theorem attributes_behind (kind : EventKind) (message : Message) (behind : Bytes)
    (short : message.bytes.length < 2 ^ 31)
    (enough : nlmsgLength kind.infoSize ≤ nlmsgLen message.bytes) :
    attrLength kind.infoSize (message.bytes ++ behind) =
        ((nlmsgData message.bytes).drop (nlmsgAlign kind.infoSize)).length ∧
      (nlmsgData (message.bytes ++ behind)).drop (nlmsgAlign kind.infoSize) =
        (nlmsgData message.bytes).drop (nlmsgAlign kind.infoSize) ++ behind := by
  have header : 16 ≤ message.bytes.length := message.header_le
  have length : nlmsgLen message.bytes = message.bytes.length := message.size_eq
  have aligned : nlmsgAlign kind.infoSize = kind.infoSize := by cases kind <;> rfl
  have size : kind.infoSize ≤ 16 := by cases kind <;> decide
  rw [length, nlmsgLength_eq] at enough
  constructor
  · have whole : toInt32 (message.bytes.length : Int) = message.bytes.length :=
      toInt32_eq (by omega) (by omega)
    have fixed : toInt32 ((kind.infoSize + 16 : Nat) : Int) = (kind.infoSize + 16 : Nat) :=
      toInt32_eq (by omega) (by omega)
    unfold attrLength
    rw [nlmsgLen_append behind header, length, aligned, nlmsgLength_eq, whole, fixed]
    simp only [nlmsgData_eq, List.length_drop]
    omega
  · rw [aligned, nlmsgData_eq, nlmsgData_eq, List.drop_append_of_le_length header,
      List.drop_append_of_le_length (by simp only [List.length_drop]; omega)]

theorem attributes_append (kind : EventKind) (message : Message) (behind : Bytes)
    (short : message.bytes.length < 2 ^ 31)
    (enough : nlmsgLength kind.infoSize ≤ nlmsgLen message.bytes) :
    attributes kind.infoSize (message.bytes ++ behind) =
      (attributes kind.infoSize message.bytes).map (· ++ behind) := by
  obtain ⟨left, area⟩ := attributes_behind kind message behind short enough
  obtain ⟨leftAlone, -⟩ := attributes_behind kind message [] short enough
  rw [List.append_nil] at leftAlone
  unfold attributes
  rw [left, leftAlone, area]
  apply attributesFrom_append
  simp only [nlmsgData_eq, List.length_drop]
  omega

theorem inside_of_mem_attributes (kind : EventKind) (message : Message)
    (short : message.bytes.length < 2 ^ 31)
    (enough : nlmsgLength kind.infoSize ≤ nlmsgLen message.bytes) :
    ∀ attr ∈ attributes kind.infoSize message.bytes, Inside attr := by
  obtain ⟨left, -⟩ := attributes_behind kind message [] short enough
  rw [List.append_nil] at left
  unfold attributes
  rw [left]
  apply inside_of_mem_attributesFrom
  simp only [nlmsgData_eq, List.length_drop]
  omega

section Attribute

variable {attr : Bytes} (behind : Bytes)

theorem Inside.rtaPayload_append (inside : Inside attr) :
    rtaPayload (attr ++ behind) = rtaPayload attr := by
  unfold rtaPayload
  rw [rtaLen_append behind (le_trans inside.1 inside.2)]

theorem Inside.rtaType_append (inside : Inside attr) :
    rtaType (attr ++ behind) = rtaType attr :=
  Netlink.rtaType_append behind (le_trans inside.1 inside.2)

theorem Inside.rtaData_append (inside : Inside attr) :
    rtaData (attr ++ behind) = rtaData attr ++ behind := by
  rw [rtaData_eq, rtaData_eq, List.drop_append_of_le_length (le_trans inside.1 inside.2)]

theorem Inside.payload_le (inside : Inside attr) :
    toSize (rtaPayload attr) ≤ (rtaData attr).length := by
  obtain ⟨enough, covered⟩ := inside
  rw [toSize_rtaPayload enough, rtaData_eq, List.length_drop]
  omega

theorem Inside.attributeUint32_append (inside : Inside attr) :
    attributeUint32 (attr ++ behind) = attributeUint32 attr := by
  have covered := inside.payload_le
  unfold attributeUint32
  rw [inside.rtaPayload_append behind, inside.rtaData_append behind]
  by_cases missing : toSize (rtaPayload attr) < 4
  · simp [missing]
  · simp only [missing, if_false]
    exact field_append behind (by omega)

theorem Inside.attributeHwaddr_append (inside : Inside attr) :
    attributeHwaddr (attr ++ behind) = attributeHwaddr attr := by
  have covered := inside.payload_le
  have whole : toSize (rtaPayload attr) ≤ (rtaData attr ++ behind).length := by
    simp only [List.length_append]
    omega
  have same : (rtaData attr ++ behind).takeD (toSize (rtaPayload attr)) 0 =
      (rtaData attr).takeD (toSize (rtaPayload attr)) 0 := by
    rw [List.takeD_eq_take _ whole, List.takeD_eq_take _ covered,
      List.take_append_of_le_length covered]
  unfold attributeHwaddr
  simp only [inside.rtaPayload_append behind, inside.rtaData_append behind, same]

/-- An address attribute holds an address of the family. -/
def HoldsAddress (family : Nat) (attr : Bytes) : Prop :=
  addressSize family ≤ toSize (rtaPayload attr)

instance (family : Nat) (attr : Bytes) : Decidable (HoldsAddress family attr) :=
  inferInstanceAs (Decidable (_ ≤ _))

theorem Inside.attributeAddress_append (inside : Inside attr) {family : Nat}
    (holds : HoldsAddress family attr) :
    attributeAddress (attr ++ behind) family = attributeAddress attr family := by
  have covered := inside.payload_le
  unfold attributeAddress
  rw [inside.rtaData_append behind, inetNtop_append behind (le_trans holds covered)]

/-- A string attribute is empty or contains a NUL. -/
def Terminated (attr : Bytes) : Prop :=
  toSize (rtaPayload attr) ≠ 0 → (0 : UInt8) ∈ (rtaData attr).take (toSize (rtaPayload attr))

instance (attr : Bytes) : Decidable (Terminated attr) := inferInstanceAs (Decidable (_ → _))

theorem cString_append {buffer : Bytes} (terminated : (0 : UInt8) ∈ buffer) :
    cString (buffer ++ behind) = cString buffer := by
  unfold cString
  induction buffer with
  | nil => simp at terminated
  | cons byte buffer inductionHypothesis =>
      by_cases nul : byte = 0
      · simp [nul]
      · have rest : (0 : UInt8) ∈ buffer := by
          rcases List.mem_cons.mp terminated with equal | rest
          · exact absurd equal.symm nul
          · exact rest
        simp [nul, inductionHypothesis rest]

theorem Inside.cString_append (inside : Inside attr) (terminated : Terminated attr)
    (present : toSize (rtaPayload attr) ≠ 0) :
    cString (rtaData (attr ++ behind)) = cString (rtaData attr) := by
  rw [inside.rtaData_append behind]
  exact Rtaco.cString_append behind (List.mem_of_mem_take (terminated present))

theorem Inside.attributeString_append (inside : Inside attr) (terminated : Terminated attr) :
    attributeString (attr ++ behind) = attributeString attr := by
  unfold attributeString
  rw [inside.rtaPayload_append behind]
  by_cases empty : toSize (rtaPayload attr) = 0
  · simp [empty]
  · simp only [empty, if_false, inside.cString_append behind terminated empty]

end Attribute

end Rtaco
