import Rtaco.Events.AddressConfinement

/-!
# Where a name ends

`extract_ifname` and `attribute_string` hand a bare pointer to the string trimmer, which
reads up to the first NUL. The name is the payload cut at its first NUL exactly if the
payload, or the byte of the message right behind it, has one.
-/

namespace Rtaco

open Netlink LastValue

theorem cString_of_notMem {text : Bytes} (clean : (0 : UInt8) ∉ text) (behind : Bytes) :
    cString (text ++ behind) = text ++ cString behind := by
  unfold cString
  rw [List.takeWhile_append_of_pos]
  intro byte member
  simpa using fun nul : byte = 0 => clean (nul ▸ member)

theorem cString_eq_nil {buffer : Bytes} :
    cString buffer = [] ↔ buffer = [] ∨ buffer.head? = some 0 := by
  cases buffer with
  | nil => simp [cString]
  | cons byte buffer => by_cases nul : byte = 0 <;> simp [cString, nul]

theorem cString_confined_iff {payload after : Bytes} :
    (∀ behind, cString (payload ++ (after ++ behind)) = cString payload) ↔
      (0 : UInt8) ∈ payload ++ after.take 1 := by
  by_cases terminated : (0 : UInt8) ∈ payload
  · simp [terminated, cString_append _ terminated]
  · have whole : cString payload = payload := by
      simpa [cString] using cString_of_notMem terminated []
    simp only [cString_of_notMem terminated, whole, List.append_right_eq_self,
      List.mem_append, terminated, false_or]
    cases after with
    | nil =>
        have follows : cString ([] ++ [1]) ≠ [] := by decide
        simp only [List.take_nil, List.not_mem_nil, iff_false, not_forall]
        exact ⟨[1], follows⟩
    | cons byte after =>
        have ends : ∀ behind, cString (byte :: after ++ behind) = [] ↔ byte = 0 := by
          intro behind
          rw [List.cons_append, cString_eq_nil, List.head?_cons, Option.some.injEq]
          exact or_iff_right (List.cons_ne_nil _ _)
        simp only [ends, forall_const, List.take_succ_cons, List.take_zero, List.mem_singleton]
        exact eq_comm

/-- The payload a pointer to an attribute leads to. -/
def payloadAt (pointer : Bytes) : Bytes := (rtaData pointer).take (toSize (rtaPayload pointer))

namespace EventKind

/-- The name or label of an event. -/
def nameText : (kind : EventKind) → kind.Event → Bytes
  | link, event => event.name
  | address, event => event.label
  | route, _ => []
  | neighbor, _ => []

/-- The attribute the name or label is read from. -/
def chosen (kind : EventKind) (pointers : List Bytes) : Option Bytes :=
  match kind with
  | link => pointers.find? fun pointer => NamesInterface pointer
  | address => (ofKey rtaType ifaLabel pointers).getLast?
  | route => none
  | neighbor => none

theorem chosen_map_append (kind : EventKind) {pointers : List Bytes}
    (inside : ∀ pointer ∈ pointers, Inside pointer) (behind : Bytes) :
    kind.chosen (pointers.map (· ++ behind)) = (kind.chosen pointers).map (· ++ behind) := by
  cases kind with
  | link =>
      rw [chosen, List.find?_map, chosen]
      congr 1
      apply List.find?_congr
      intro pointer member
      simp [(inside pointer member).namesInterface_append]
  | address =>
      rw [chosen, ofKey, List.filter_map, chosen, List.getLast?_map]
      congr 2
      apply List.filter_congr
      intro pointer member
      simp [(inside pointer member).rtaType_append]
  | route => rfl
  | neighbor => rfl

theorem mem_of_chosen (kind : EventKind) {pointers : List Bytes} {pointer : Bytes}
    (found : kind.chosen pointers = some pointer) : pointer ∈ pointers := by
  cases kind with
  | link => exact List.mem_of_find?_eq_some found
  | address => exact (mem_of_getLast?_ofKey found).1
  | route => cases found
  | neighbor => cases found

theorem LinkEvent.fromPayload_name {header : Bytes} (type : LinkEvent.Type)
    (enough : nlmsgLength sizeofIfinfomsg ≤ nlmsgLen header) :
    (LinkEvent.fromPayload type header (nlmsgData header)).name =
      ((link.chosen (attributes sizeofIfinfomsg header)).map attributeString).getD [] := by
  rw [LinkEvent.fromPayload, extractIfname_eq header enough, chosen]
  cases found : (attributes sizeofIfinfomsg header).find? fun attr => NamesInterface attr with
  | none => rfl
  | some attr =>
      have names : NamesInterface attr := by simpa using List.find?_some found
      rw [Option.map_some, Option.getD_some, attributeString, if_neg names.2]

theorem AddressEvent.fromPayload_label (type : AddressEvent.Type) (header : Bytes) :
    (AddressEvent.fromPayload type header (nlmsgData header)).label =
      lastValue rtaType ifaLabel attributeString [] (attributes sizeofIfaddrmsg header) := by
  have strings := forEachAttr_eq_foldl sizeofIfaddrmsg header
    (AddressEvent.onAttr (ifaFamily (nlmsgData header))) {}
  rw [AddressEvent.foldl_onAttr] at strings
  unfold AddressEvent.fromPayload
  rw [strings]

theorem nameText_fromNlmsghdr {kind : EventKind} {header : Bytes}
    (decodes : kind.Decodes (nlmsgType header))
    (enough : nlmsgLength kind.infoSize ≤ nlmsgLen header) :
    kind.nameText (kind.fromNlmsghdr header) =
      ((kind.chosen (attributes kind.infoSize header)).map attributeString).getD [] := by
  cases kind with
  | link =>
      have enough : nlmsgLength sizeofIfinfomsg ≤ nlmsgLen header := enough
      rw [fromNlmsghdr, LinkEvent.fromNlmsghdr,
        decodeEvent_of_enough (LinkEvent.typeOf_known.mpr decodes) enough]
      rw [nameText, infoSize]
      exact LinkEvent.fromPayload_name _ enough
  | address =>
      have enough : nlmsgLength sizeofIfaddrmsg ≤ nlmsgLen header := enough
      rw [fromNlmsghdr, AddressEvent.fromNlmsghdr,
        decodeEvent_of_enough (AddressEvent.typeOf_known.mpr decodes) enough]
      rw [nameText, infoSize, chosen, AddressEvent.fromPayload_label, lastValue]
  | route => rfl
  | neighbor => rfl

theorem nameText_of_short {kind : EventKind} {header : Bytes}
    (short : nlmsgLen header < nlmsgLength kind.infoSize) :
    kind.nameText (kind.fromNlmsghdr header) = [] := by
  cases kind with
  | link =>
      have short : nlmsgLen header < nlmsgLength sizeofIfinfomsg := short
      rw [fromNlmsghdr, LinkEvent.fromNlmsghdr, decodeEvent_of_short short]
      rfl
  | address =>
      have short : nlmsgLen header < nlmsgLength sizeofIfaddrmsg := short
      rw [fromNlmsghdr, AddressEvent.fromNlmsghdr, decodeEvent_of_short short]
      rfl
  | route => rfl
  | neighbor => rfl

end EventKind

/-- The string of an attribute is its payload up to the first NUL, whatever follows, exactly
if the payload is empty or ends in time. -/
theorem attributeString_confined_iff {pointer : Bytes} (inside : Inside pointer) :
    (∀ behind, attributeString (pointer ++ behind) = cString (payloadAt pointer)) ↔
      payloadAt pointer = [] ∨
        (0 : UInt8) ∈ (rtaData pointer).take ((payloadAt pointer).length + 1) := by
  have size : (payloadAt pointer).length = toSize (rtaPayload pointer) := by
    rw [payloadAt, List.length_take, Nat.min_eq_left inside.payload_le]
  obtain ⟨after, data⟩ : ∃ after, rtaData pointer = payloadAt pointer ++ after :=
    ⟨_, (List.take_append_drop _ _).symm⟩
  by_cases empty : payloadAt pointer = []
  · have none : toSize (rtaPayload pointer) = 0 := by rw [← size, empty, List.length_nil]
    have nothing (behind : Bytes) : attributeString (pointer ++ behind) = [] := by
      rw [attributeString, inside.rtaPayload_append, if_pos none]
    simp [nothing, empty, cString]
  · have some : toSize (rtaPayload pointer) ≠ 0 := by
      rw [← size]
      exact fun none => empty (List.length_eq_zero_iff.mp none)
    have string (behind : Bytes) : attributeString (pointer ++ behind) =
        cString (payloadAt pointer ++ (after ++ behind)) := by
      rw [attributeString, inside.rtaPayload_append, if_neg some, inside.rtaData_append,
        trimString_cString, data, List.append_assoc]
    have end_in_time : (rtaData pointer).take ((payloadAt pointer).length + 1) =
        payloadAt pointer ++ after.take 1 := by
      rw [data, List.take_length_add_append]
    simp only [string, cString_confined_iff, empty, false_or, end_in_time]

/-- The name or label is the chosen payload up to its first NUL, whatever follows, exactly if
that payload is empty or it or the next byte of the message has a NUL. -/
theorem nameText_confined_iff (kind : EventKind) {message : Message}
    (short : message.bytes.length < 2 ^ 31) (decodes : kind.Decodes (nlmsgType message.bytes)) :
    (∀ behind, kind.nameText (kind.fromNlmsghdr (message.bytes ++ behind)) =
      ((kind.chosen (attributes kind.infoSize message.bytes)).map fun pointer =>
        cString (payloadAt pointer)).getD []) ↔
    ∀ pointer ∈ kind.chosen (attributes kind.infoSize message.bytes),
      payloadAt pointer = [] ∨
        (0 : UInt8) ∈ (rtaData pointer).take ((payloadAt pointer).length + 1) := by
  have header : 16 ≤ message.bytes.length := message.header_le
  by_cases enough : nlmsgLength kind.infoSize ≤ nlmsgLen message.bytes
  · have inside := inside_of_mem_attributes kind message short enough
    have text (behind : Bytes) : kind.nameText (kind.fromNlmsghdr (message.bytes ++ behind)) =
        ((kind.chosen (attributes kind.infoSize message.bytes)).map fun pointer =>
          attributeString (pointer ++ behind)).getD [] := by
      rw [EventKind.nameText_fromNlmsghdr (by rwa [nlmsgType_append behind header])
        (by rwa [nlmsgLen_append behind header]),
        attributes_append kind message behind short enough, kind.chosen_map_append inside,
        Option.map_map]
      rfl
    simp only [text]
    cases found : kind.chosen (attributes kind.infoSize message.bytes) with
    | none => simp
    | some pointer =>
        have here := inside pointer (kind.mem_of_chosen found)
        simpa using attributeString_confined_iff here
  · have tooShort := Nat.lt_of_not_le enough
    have text (behind : Bytes) :
        kind.nameText (kind.fromNlmsghdr (message.bytes ++ behind)) = [] :=
      EventKind.nameText_of_short (by rwa [nlmsgLen_append behind header])
    have none : kind.chosen [] = none := by cases kind <;> rfl
    simp [text, EventKind.attributes_of_short tooShort, none]

/-- `RTM_NEWADDR` labelled `lo`, with the padding of the attribute behind the label. -/
def labelledAddress : Message :=
  Message.build rtmNewaddr 0 0 0 ([2, 8, 0, 0, 1, 0, 0, 0] ++
    (Attribute.build ifaLabel [108, 111] (by decide)).encode) (by decide)

theorem nameText_confined_iff_labelledAddress :
    EventKind.address.nameText
      (EventKind.address.fromNlmsghdr (labelledAddress.bytes ++ [49])) = [108, 111] := by
  have label := (nameText_confined_iff .address (by decide) (by decide)).mpr
    (show ∀ pointer ∈ EventKind.address.chosen
      (attributes EventKind.address.infoSize labelledAddress.bytes), _ by decide +kernel) [49]
  exact label.trans (by decide +kernel)

/-- `RTM_NEWLINK` whose name fills the last attribute of the message. -/
def unterminatedLink : Message :=
  Message.build rtmNewlink 0 0 0 ([0, 0, 1, 0, 1, 0, 0, 0, 1, 0, 0, 0, 0, 0, 0, 0] ++
    (Attribute.build iflaIfname [101, 116, 104, 48] (by decide)).encode) (by decide)

/-- A name without a NUL goes on with the bytes behind the message. -/
theorem nameText_of_following_bytes :
    ¬ ∀ (kind : EventKind) (message : Message), message.bytes.length < 2 ^ 31 →
      kind.Decodes (nlmsgType message.bytes) → ∀ behind,
        kind.nameText (kind.fromNlmsghdr (message.bytes ++ behind)) =
          ((kind.chosen (attributes kind.infoSize message.bytes)).map fun pointer =>
            cString (payloadAt pointer)).getD [] := by
  intro confined
  have same := confined .link unterminatedLink (by decide) (by decide) [49, 50]
  revert same
  decide +kernel

end Rtaco
