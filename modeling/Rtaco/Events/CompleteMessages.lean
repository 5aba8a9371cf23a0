import Mathlib.Data.List.Find
import Rtaco.Events.Confinement

/-!
# Events of complete messages

The event decoded from a well-formed complete message is a function of the
message's own bytes, and its type is known exactly when the message has one of
the two types of its kind and is long enough for the fixed structure.
-/

namespace Rtaco

open Netlink

universe u v

variable {State : Type u} {Value : Type v}

theorem getMsgPayload_of_enough {size : Nat} {header : Bytes}
    (enough : nlmsgLength size ≤ nlmsgLen header) :
    getMsgPayload size header = some (nlmsgData header) := by
  rw [getMsgPayload, if_neg (Nat.not_lt.mpr enough)]

theorem getMsgPayload_of_short {size : Nat} {header : Bytes}
    (short : nlmsgLen header < nlmsgLength size) : getMsgPayload size header = none := by
  rw [getMsgPayload, if_pos short]

theorem foldl_project {project : State → Value} {fn : State → Bytes → State}
    (keeps : ∀ state attr, project (fn state attr) = project state)
    (attrs : List Bytes) (state : State) :
    project (attrs.foldl fn state) = project state := by
  induction attrs generalizing state with
  | nil => rfl
  | cons attr attrs inductionHypothesis =>
      rw [List.foldl_cons, inductionHypothesis, keeps]

/-- A fold does not see what follows the attributes if no step does, as long as
the steps keep the value the reading of an attribute depends on. -/
theorem foldl_behind {project : State → Value} {fn : State → Bytes → State} {value : Value}
    {attrs : List Bytes} {behind : Bytes}
    (keeps : ∀ state attr, project (fn state attr) = project state)
    (same : ∀ attr ∈ attrs, ∀ state, project state = value →
      fn state (attr ++ behind) = fn state attr)
    (state : State) (initially : project state = value) :
    (attrs.map (· ++ behind)).foldl fn state = attrs.foldl fn state := by
  induction attrs generalizing state with
  | nil => rfl
  | cons attr attrs inductionHypothesis =>
      rw [List.map_cons, List.foldl_cons, List.foldl_cons, same attr (by simp) state initially]
      refine inductionHypothesis (fun later member => same later (by simp [member])) _ ?_
      rw [keeps, initially]

/-- What a step computes of one part of the state from that part alone. -/
theorem foldl_project_behind {project : State → Value} {fn : State → Bytes → State}
    {attrs : List Bytes} {behind : Bytes}
    (same : ∀ attr ∈ attrs, ∀ first second, project first = project second →
      project (fn first (attr ++ behind)) = project (fn second attr))
    {first second : State} (initially : project first = project second) :
    project ((attrs.map (· ++ behind)).foldl fn first) = project (attrs.foldl fn second) := by
  induction attrs generalizing first second with
  | nil => exact initially
  | cons attr attrs inductionHypothesis =>
      rw [List.map_cons, List.foldl_cons, List.foldl_cons]
      apply inductionHypothesis
      · intro later member
        exact same later (List.mem_cons_of_mem _ member)
      · exact same attr List.mem_cons_self first second initially

section Frame

variable {Kind : Type u} {Event : Type v} [DecidableEq Kind] {typeOf : Nat → Kind}
  {unknown : Kind} {size : Nat} {empty : Event} {body : Kind → Bytes → Bytes → Event}

theorem decodeEvent_of_unknown {header : Bytes} (foreign : typeOf (nlmsgType header) = unknown) :
    decodeEvent typeOf unknown size empty body header = empty := by
  rw [decodeEvent]
  exact if_pos foreign

theorem decodeEvent_of_short {header : Bytes} (short : nlmsgLen header < nlmsgLength size) :
    decodeEvent typeOf unknown size empty body header = empty := by
  simp only [decodeEvent, getMsgPayload_of_short short]
  exact ite_self empty

theorem decodeEvent_of_enough {header : Bytes} (known : typeOf (nlmsgType header) ≠ unknown)
    (enough : nlmsgLength size ≤ nlmsgLen header) :
    decodeEvent typeOf unknown size empty body header =
      body (typeOf (nlmsgType header)) header (nlmsgData header) := by
  simp only [decodeEvent, getMsgPayload_of_enough enough, known, if_false]

theorem decodeEvent_type (typeOfEvent : Event → Kind) (ofEmpty : typeOfEvent empty = unknown)
    (ofBody : ∀ type header, typeOfEvent (body type header (nlmsgData header)) = type)
    (header : Bytes) :
    typeOfEvent (decodeEvent typeOf unknown size empty body header) =
      if nlmsgLength size ≤ nlmsgLen header then typeOf (nlmsgType header) else unknown := by
  by_cases foreign : typeOf (nlmsgType header) = unknown
  · rw [decodeEvent_of_unknown foreign, ofEmpty, foreign, ite_self]
  · by_cases enough : nlmsgLength size ≤ nlmsgLen header
    · rw [decodeEvent_of_enough foreign enough, ofBody, if_pos enough]
    · rw [decodeEvent_of_short (Nat.lt_of_not_le enough), ofEmpty, if_neg enough]

/-- A part of the event sees nothing behind a complete message if the body's does not. -/
theorem decodeEvent_project_append (project : Event → Value) {message : Message}
    {behind : Bytes}
    (same : typeOf (nlmsgType message.bytes) ≠ unknown →
      nlmsgLength size ≤ nlmsgLen message.bytes → ∀ type,
        project (body type (message.bytes ++ behind) (nlmsgData (message.bytes ++ behind))) =
          project (body type message.bytes (nlmsgData message.bytes))) :
    project (decodeEvent typeOf unknown size empty body (message.bytes ++ behind)) =
      project (decodeEvent typeOf unknown size empty body message.bytes) := by
  have header : 16 ≤ message.bytes.length := message.header_le
  have type := nlmsgType_append behind header
  have length := nlmsgLen_append behind header
  by_cases foreign : typeOf (nlmsgType message.bytes) = unknown
  · rw [decodeEvent_of_unknown foreign, decodeEvent_of_unknown (by rw [type]; exact foreign)]
  · by_cases short : nlmsgLen message.bytes < nlmsgLength size
    · rw [decodeEvent_of_short short, decodeEvent_of_short (by rw [length]; exact short)]
    · have enough := Nat.le_of_not_lt short
      rw [decodeEvent_of_enough foreign enough,
        decodeEvent_of_enough (by rw [type]; exact foreign) (by rw [length]; exact enough),
        type, same foreign enough]

theorem decodeEvent_append {message : Message} {behind : Bytes}
    (same : typeOf (nlmsgType message.bytes) ≠ unknown →
      nlmsgLength size ≤ nlmsgLen message.bytes → ∀ type,
        body type (message.bytes ++ behind) (nlmsgData (message.bytes ++ behind)) =
          body type message.bytes (nlmsgData message.bytes)) :
    decodeEvent typeOf unknown size empty body (message.bytes ++ behind) =
      decodeEvent typeOf unknown size empty body message.bytes :=
  decodeEvent_project_append (fun event => event) same

end Frame

namespace EventKind

def addressTypes : EventKind → List Nat
  | link => []
  | address => [ifaLocal, ifaAddress]
  | route => [rtaDst, rtaSrc, rtaGateway, rtaPrefsrc]
  | neighbor => [ndaDst]

def stringTypes : EventKind → List Nat
  | link => [iflaIfname]
  | address => [ifaLabel]
  | route => []
  | neighbor => []

/-- The family the address attributes of a message are read with. -/
def family : EventKind → Bytes → Nat
  | link, _ => 0
  | address, info => ifaFamily info
  | route, info => rtmFamily info
  | neighbor, info => ndmFamily info

/-- Address attributes have their family's size and string attributes a NUL. -/
structure AttributesWellFormed (kind : EventKind) (message : Message) : Prop where
  addresses : ∀ attr ∈ attributes kind.infoSize message.bytes,
    rtaType attr ∈ kind.addressTypes →
      HoldsAddress (kind.family (nlmsgData message.bytes)) attr
  strings : ∀ attr ∈ attributes kind.infoSize message.bytes,
    rtaType attr ∈ kind.stringTypes → Terminated attr

instance (kind : EventKind) (message : Message) : Decidable (kind.AttributesWellFormed message) :=
  decidable_of_iff (_ ∧ _) ⟨fun both => ⟨both.1, both.2⟩, fun both => ⟨both.1, both.2⟩⟩

end EventKind

/-- The attributes of a message are well formed for the event it carries, if any. -/
def WellFormed (message : Message) : Prop :=
  ∀ kind : EventKind, kind.Decodes (nlmsgType message.bytes) → kind.AttributesWellFormed message

instance (message : Message) : Decidable (WellFormed message) :=
  inferInstanceAs (Decidable (∀ _ : EventKind, _ → _))

section Fixed

variable {info : Bytes} (behind : Bytes)

theorem RouteEvent.fixed_append (enough : 12 ≤ info.length) (type : RouteEvent.Type) :
    RouteEvent.fixed type (info ++ behind) = RouteEvent.fixed type info := by
  simp (disch := omega) only [RouteEvent.fixed, rtmFamily, rtmDstLen, rtmSrcLen, rtmScope,
    rtmProtocol, rtmType, rtmFlags, rtmTable, field_append]

theorem NeighborEvent.fixed_append (enough : 12 ≤ info.length) (type : NeighborEvent.Type) :
    NeighborEvent.fixed type (info ++ behind) = NeighborEvent.fixed type info := by
  simp (disch := omega) only [NeighborEvent.fixed, ndmFamily, ndmIfindex, ndmState, ndmFlags,
    ndmType, field_append]

end Fixed

theorem infoSize_le_length (kind : EventKind) {message : Message}
    (enough : nlmsgLength kind.infoSize ≤ nlmsgLen message.bytes) :
    kind.infoSize ≤ (nlmsgData message.bytes).length := by
  have length : nlmsgLen message.bytes = message.bytes.length := message.size_eq
  rw [length, nlmsgLength_eq] at enough
  rw [nlmsgData_eq, List.length_drop]
  omega

section Attribute

variable {attr behind : Bytes}

theorem Inside.namesInterface_append (inside : Inside attr) :
    NamesInterface (attr ++ behind) ↔ NamesInterface attr := by
  unfold NamesInterface
  rw [inside.rtaType_append, inside.rtaPayload_append]

theorem AddressEvent.onAttr_append {family : Nat} (inside : Inside attr)
    (holds : rtaType attr ∈ EventKind.address.addressTypes → HoldsAddress family attr)
    (terminated : rtaType attr ∈ EventKind.address.stringTypes → Terminated attr)
    (strings : AddressStrings) :
    AddressEvent.onAttr family strings (attr ++ behind) =
      AddressEvent.onAttr family strings attr := by
  unfold AddressEvent.onAttr
  rw [inside.rtaType_append]
  split_ifs with isLocal isPeer isLabel
  · rw [inside.attributeAddress_append behind (holds (by simp [EventKind.addressTypes, isLocal]))]
  · rw [inside.attributeAddress_append behind (holds (by simp [EventKind.addressTypes, isPeer]))]
  · rw [inside.attributeString_append behind
      (terminated (by simp [EventKind.stringTypes, isLabel]))]
  · rfl

theorem RouteEvent.onAttr_family (event : RouteEvent) (attr : Bytes) :
    (event.onAttr attr).family = event.family := by
  unfold RouteEvent.onAttr
  split_ifs <;> rfl

theorem RouteEvent.onAttr_type (event : RouteEvent) (attr : Bytes) :
    (event.onAttr attr).type = event.type := by
  unfold RouteEvent.onAttr
  split_ifs <;> rfl

theorem RouteEvent.onAttr_append (inside : Inside attr) (event : RouteEvent)
    (holds : rtaType attr ∈ EventKind.route.addressTypes → HoldsAddress event.family attr) :
    event.onAttr (attr ++ behind) = event.onAttr attr := by
  have address (member : rtaType attr ∈ EventKind.route.addressTypes) :
      attributeAddress (attr ++ behind) event.family = attributeAddress attr event.family :=
    inside.attributeAddress_append behind (holds member)
  unfold RouteEvent.onAttr
  rw [inside.rtaType_append, inside.attributeUint32_append]
  split_ifs with isTable isDst isSrc isGateway isPrefsrc
  · rfl
  · rw [address (by simp [EventKind.addressTypes, isDst])]
  · rw [address (by simp [EventKind.addressTypes, isSrc])]
  · rw [address (by simp [EventKind.addressTypes, isGateway])]
  · rw [address (by simp [EventKind.addressTypes, isPrefsrc])]
  · rfl
  · rfl
  · rfl

theorem NeighborEvent.onAttr_family (event : NeighborEvent) (attr : Bytes) :
    (event.onAttr attr).family = event.family := by
  unfold NeighborEvent.onAttr
  split_ifs <;> rfl

theorem NeighborEvent.onAttr_type (event : NeighborEvent) (attr : Bytes) :
    (event.onAttr attr).type = event.type := by
  unfold NeighborEvent.onAttr
  split_ifs <;> rfl

theorem NeighborEvent.onAttr_append (inside : Inside attr) (event : NeighborEvent)
    (holds : rtaType attr ∈ EventKind.neighbor.addressTypes → HoldsAddress event.family attr) :
    event.onAttr (attr ++ behind) = event.onAttr attr := by
  unfold NeighborEvent.onAttr
  rw [inside.rtaType_append, inside.attributeHwaddr_append]
  split_ifs with isDst isLladdr
  · rw [inside.attributeAddress_append behind (holds (by simp [EventKind.addressTypes, isDst]))]
  · rfl
  · rfl

end Attribute

section Payload

variable {message : Message} {behind : Bytes}

theorem extractIfname_append (short : message.bytes.length < 2 ^ 31)
    (wellFormed : EventKind.link.AttributesWellFormed message)
    (enough : nlmsgLength sizeofIfinfomsg ≤ nlmsgLen message.bytes) :
    extractIfname (message.bytes ++ behind) = extractIfname message.bytes := by
  have length := nlmsgLen_append behind message.header_le
  have inside := inside_of_mem_attributes .link message short enough
  have walked := attributes_append .link message behind short enough
  rw [extractIfname_eq _ (by rw [length]; exact enough), extractIfname_eq _ enough]
  simp only [EventKind.infoSize] at walked inside
  rw [walked, List.find?_map]
  have same : (attributes sizeofIfinfomsg message.bytes).find?
      ((fun attr => decide (NamesInterface attr)) ∘ (· ++ behind)) =
        (attributes sizeofIfinfomsg message.bytes).find? fun attr => NamesInterface attr := by
    apply List.find?_congr
    intro attr member
    simp [(inside attr member).namesInterface_append]
  rw [same]
  cases found : (attributes sizeofIfinfomsg message.bytes).find?
      fun attr => NamesInterface attr with
  | none => rfl
  | some attr =>
      have member := List.mem_of_find?_eq_some found
      have names : NamesInterface attr := by simpa using List.find?_some found
      have terminated := wellFormed.strings attr member (by simp [EventKind.stringTypes, names.1])
      simp only [Option.map_some]
      rw [(inside attr member).cString_append behind terminated names.2]

theorem LinkEvent.fromPayload_append (short : message.bytes.length < 2 ^ 31)
    (wellFormed : EventKind.link.AttributesWellFormed message)
    (enough : nlmsgLength sizeofIfinfomsg ≤ nlmsgLen message.bytes) (type : LinkEvent.Type) :
    LinkEvent.fromPayload type (message.bytes ++ behind) (nlmsgData (message.bytes ++ behind)) =
      LinkEvent.fromPayload type message.bytes (nlmsgData message.bytes) := by
  have info : 16 ≤ (nlmsgData message.bytes).length := infoSize_le_length .link enough
  rw [nlmsgData_append]
  simp (disch := omega) only [LinkEvent.fromPayload, ifiIndex, ifiFlags, ifiChange, field_append,
    extractIfname_append short wellFormed enough]

theorem AddressEvent.fromPayload_append (short : message.bytes.length < 2 ^ 31)
    (wellFormed : EventKind.address.AttributesWellFormed message)
    (enough : nlmsgLength sizeofIfaddrmsg ≤ nlmsgLen message.bytes) (type : AddressEvent.Type) :
    AddressEvent.fromPayload type (message.bytes ++ behind)
        (nlmsgData (message.bytes ++ behind)) =
      AddressEvent.fromPayload type message.bytes (nlmsgData message.bytes) := by
  have info : 8 ≤ (nlmsgData message.bytes).length :=
    infoSize_le_length .address enough
  have family : ifaFamily (nlmsgData message.bytes ++ behind) =
      ifaFamily (nlmsgData message.bytes) := field_append behind (by omega)
  have walked : attributes sizeofIfaddrmsg (message.bytes ++ behind) =
      (attributes sizeofIfaddrmsg message.bytes).map (· ++ behind) :=
    attributes_append .address message behind short enough
  have strings : forEachAttr sizeofIfaddrmsg (message.bytes ++ behind)
      (some (nlmsgData (message.bytes ++ behind)))
        (AddressEvent.onAttr (ifaFamily (nlmsgData message.bytes))) {} =
      forEachAttr sizeofIfaddrmsg message.bytes (some (nlmsgData message.bytes))
        (AddressEvent.onAttr (ifaFamily (nlmsgData message.bytes))) {} := by
    rw [forEachAttr_eq_foldl, forEachAttr_eq_foldl, walked, List.foldl_map]
    apply List.foldl_ext
    intro strings attr member
    exact AddressEvent.onAttr_append
      (inside_of_mem_attributes .address message short enough _ member)
      (wellFormed.addresses attr member) (wellFormed.strings attr member) strings
  simp only [AddressEvent.fromPayload]
  rw [nlmsgData_append] at strings ⊢
  rw [family, strings]
  simp (disch := omega) only [ifaPrefixlen, ifaScope, ifaFlags, ifaIndex, field_append]

theorem RouteEvent.fromPayload_append (short : message.bytes.length < 2 ^ 31)
    (wellFormed : EventKind.route.AttributesWellFormed message)
    (enough : nlmsgLength sizeofRtmsg ≤ nlmsgLen message.bytes) (type : RouteEvent.Type) :
    RouteEvent.fromPayload type (message.bytes ++ behind) (nlmsgData (message.bytes ++ behind)) =
      RouteEvent.fromPayload type message.bytes (nlmsgData message.bytes) := by
  have info : 12 ≤ (nlmsgData message.bytes).length := infoSize_le_length .route enough
  have walked : attributes sizeofRtmsg (message.bytes ++ behind) =
      (attributes sizeofRtmsg message.bytes).map (· ++ behind) :=
    attributes_append .route message behind short enough
  have fixed : RouteEvent.fixed type (nlmsgData (message.bytes ++ behind)) =
      RouteEvent.fixed type (nlmsgData message.bytes) := by
    rw [nlmsgData_append, RouteEvent.fixed_append behind info]
  have event : forEachAttr sizeofRtmsg (message.bytes ++ behind)
      (some (nlmsgData (message.bytes ++ behind))) RouteEvent.onAttr
        (RouteEvent.fixed type (nlmsgData message.bytes)) =
      forEachAttr sizeofRtmsg message.bytes (some (nlmsgData message.bytes)) RouteEvent.onAttr
        (RouteEvent.fixed type (nlmsgData message.bytes)) := by
    rw [forEachAttr_eq_foldl, forEachAttr_eq_foldl, walked]
    refine foldl_behind RouteEvent.onAttr_family ?_ _ rfl
    intro attr member event family
    refine RouteEvent.onAttr_append
      (inside_of_mem_attributes .route message short enough _ member) event ?_
    rw [family]
    exact wellFormed.addresses attr member
  simp only [RouteEvent.fromPayload]
  rw [fixed, event]

theorem NeighborEvent.fromPayload_append (short : message.bytes.length < 2 ^ 31)
    (wellFormed : EventKind.neighbor.AttributesWellFormed message)
    (enough : nlmsgLength sizeofNdmsg ≤ nlmsgLen message.bytes) (type : NeighborEvent.Type) :
    NeighborEvent.fromPayload type (message.bytes ++ behind)
        (nlmsgData (message.bytes ++ behind)) =
      NeighborEvent.fromPayload type message.bytes (nlmsgData message.bytes) := by
  have info : 12 ≤ (nlmsgData message.bytes).length :=
    infoSize_le_length .neighbor enough
  have walked : attributes sizeofNdmsg (message.bytes ++ behind) =
      (attributes sizeofNdmsg message.bytes).map (· ++ behind) :=
    attributes_append .neighbor message behind short enough
  have fixed : NeighborEvent.fixed type (nlmsgData (message.bytes ++ behind)) =
      NeighborEvent.fixed type (nlmsgData message.bytes) := by
    rw [nlmsgData_append, NeighborEvent.fixed_append behind info]
  unfold NeighborEvent.fromPayload
  rw [fixed, forEachAttr_eq_foldl, forEachAttr_eq_foldl, walked]
  refine foldl_behind NeighborEvent.onAttr_family ?_ _ rfl
  intro attr member event family
  refine NeighborEvent.onAttr_append
    (inside_of_mem_attributes .neighbor message short enough _ member) event ?_
  rw [family]
  exact wellFormed.addresses attr member

end Payload

theorem RouteEvent.nameOif_type (event : RouteEvent) : event.nameOif.type = event.type := by
  unfold RouteEvent.nameOif
  split_ifs <;> rfl

theorem RouteEvent.fromPayload_type (type : RouteEvent.Type) (header : Bytes) :
    (RouteEvent.fromPayload type header (nlmsgData header)).type = type := by
  rw [RouteEvent.fromPayload, forEachAttr_eq_foldl, RouteEvent.nameOif_type,
    foldl_project RouteEvent.onAttr_type, RouteEvent.fixed]

theorem NeighborEvent.fromPayload_type (type : NeighborEvent.Type) (header : Bytes) :
    (NeighborEvent.fromPayload type header (nlmsgData header)).type = type := by
  rw [NeighborEvent.fromPayload, forEachAttr_eq_foldl,
    foldl_project NeighborEvent.onAttr_type, NeighborEvent.fixed]

theorem LinkEvent.fromNlmsghdr_type (header : Bytes) :
    (LinkEvent.fromNlmsghdr header).type =
      if nlmsgLength sizeofIfinfomsg ≤ nlmsgLen header then LinkEvent.typeOf (nlmsgType header)
      else .unknown := by
  unfold LinkEvent.fromNlmsghdr
  apply decodeEvent_type LinkEvent.type
  · rfl
  · intro type header
    rfl

theorem AddressEvent.fromNlmsghdr_type (header : Bytes) :
    (AddressEvent.fromNlmsghdr header).type =
      if nlmsgLength sizeofIfaddrmsg ≤ nlmsgLen header then AddressEvent.typeOf (nlmsgType header)
      else .unknown := by
  unfold AddressEvent.fromNlmsghdr
  apply decodeEvent_type AddressEvent.type
  · rfl
  · intro type header
    rfl

theorem RouteEvent.fromNlmsghdr_type (header : Bytes) :
    (RouteEvent.fromNlmsghdr header).type =
      if nlmsgLength sizeofRtmsg ≤ nlmsgLen header then RouteEvent.typeOf (nlmsgType header)
      else .unknown := by
  unfold RouteEvent.fromNlmsghdr
  apply decodeEvent_type RouteEvent.type
  · rfl
  · exact RouteEvent.fromPayload_type

theorem NeighborEvent.fromNlmsghdr_type (header : Bytes) :
    (NeighborEvent.fromNlmsghdr header).type =
      if nlmsgLength sizeofNdmsg ≤ nlmsgLen header then NeighborEvent.typeOf (nlmsgType header)
      else .unknown := by
  unfold NeighborEvent.fromNlmsghdr
  apply decodeEvent_type NeighborEvent.type
  · rfl
  · exact NeighborEvent.fromPayload_type

namespace EventKind

def isUnknown : (kind : EventKind) → kind.Event → Bool
  | link, event => event.type = .unknown
  | address, event => event.type = .unknown
  | route, event => event.type = .unknown
  | neighbor, event => event.type = .unknown

def isNew : (kind : EventKind) → kind.Event → Bool
  | link, event => event.type = .newLink
  | address, event => event.type = .newAddress
  | route, event => event.type = .newRoute
  | neighbor, event => event.type = .newNeighbor

theorem isUnknown_fromNlmsghdr (kind : EventKind) (header : Bytes) :
    kind.isUnknown (kind.fromNlmsghdr header) = false ↔
      kind.Decodes (nlmsgType header) ∧ nlmsgLength kind.infoSize ≤ nlmsgLen header := by
  cases kind with
  | link =>
      rw [← LinkEvent.typeOf_known]
      simp only [isUnknown, fromNlmsghdr, LinkEvent.fromNlmsghdr_type, infoSize]
      split_ifs with enough <;> simp only [enough, decide_eq_false_iff_not, ne_eq, and_true,
        and_false, not_true_eq_false]
  | address =>
      rw [← AddressEvent.typeOf_known]
      simp only [isUnknown, fromNlmsghdr, AddressEvent.fromNlmsghdr_type, infoSize]
      split_ifs with enough <;> simp only [enough, decide_eq_false_iff_not, ne_eq, and_true,
        and_false, not_true_eq_false]
  | route =>
      rw [← RouteEvent.typeOf_known]
      simp only [isUnknown, fromNlmsghdr, RouteEvent.fromNlmsghdr_type, infoSize]
      split_ifs with enough <;> simp only [enough, decide_eq_false_iff_not, ne_eq, and_true,
        and_false, not_true_eq_false]
  | neighbor =>
      rw [← NeighborEvent.typeOf_known]
      simp only [isUnknown, fromNlmsghdr, NeighborEvent.fromNlmsghdr_type, infoSize]
      split_ifs with enough <;> simp only [enough, decide_eq_false_iff_not, ne_eq, and_true,
        and_false, not_true_eq_false]

theorem isNew_fromNlmsghdr (kind : EventKind) (header : Bytes) :
    kind.isNew (kind.fromNlmsghdr header) = true ↔
      nlmsgType header = kind.newType ∧ nlmsgLength kind.infoSize ≤ nlmsgLen header := by
  cases kind with
  | link =>
      simp only [isNew, fromNlmsghdr, LinkEvent.fromNlmsghdr_type, infoSize, newType,
        ← LinkEvent.typeOf_new]
      split_ifs with enough <;> simp only [enough, decide_eq_true_eq, and_true, and_false]
  | address =>
      simp only [isNew, fromNlmsghdr, AddressEvent.fromNlmsghdr_type, infoSize, newType,
        ← AddressEvent.typeOf_new]
      split_ifs with enough <;> simp only [enough, decide_eq_true_eq, and_true, and_false]
  | route =>
      simp only [isNew, fromNlmsghdr, RouteEvent.fromNlmsghdr_type, infoSize, newType,
        ← RouteEvent.typeOf_new]
      split_ifs with enough <;> simp only [enough, decide_eq_true_eq, and_true, and_false]
  | neighbor =>
      simp only [isNew, fromNlmsghdr, NeighborEvent.fromNlmsghdr_type, infoSize, newType,
        ← NeighborEvent.typeOf_new]
      split_ifs with enough <;> simp only [enough, decide_eq_true_eq, and_true, and_false]

/-- Decoding a well-formed complete message reads the message only. -/
theorem fromNlmsghdr_append (kind : EventKind) {message : Message} (behind : Bytes)
    (short : message.bytes.length < 2 ^ 31) (wellFormed : WellFormed message) :
    kind.fromNlmsghdr (message.bytes ++ behind) = kind.fromNlmsghdr message.bytes := by
  cases kind with
  | link =>
      exact decodeEvent_append fun known enough type => LinkEvent.fromPayload_append short
        (wellFormed .link (LinkEvent.typeOf_known.mp known)) enough type
  | address =>
      exact decodeEvent_append fun known enough type => AddressEvent.fromPayload_append short
        (wellFormed .address (AddressEvent.typeOf_known.mp known)) enough type
  | route =>
      exact decodeEvent_append fun known enough type => RouteEvent.fromPayload_append short
        (wellFormed .route (RouteEvent.typeOf_known.mp known)) enough type
  | neighbor =>
      exact decodeEvent_append fun known enough type => NeighborEvent.fromPayload_append short
        (wellFormed .neighbor (NeighborEvent.typeOf_known.mp known)) enough type

end EventKind

theorem NeighborEvent.onAttr_lladdr {attr behind : Bytes} (inside : Inside attr)
    {first second : NeighborEvent} (same : first.lladdr = second.lladdr) :
    (first.onAttr (attr ++ behind)).lladdr = (second.onAttr attr).lladdr := by
  unfold NeighborEvent.onAttr
  rw [inside.rtaType_append, inside.attributeHwaddr_append]
  split_ifs
  · exact same
  · rfl
  · exact same

theorem NeighborEvent.fromNlmsghdr_lladdr {message : Message}
    (short : message.bytes.length < 2 ^ 31) (behind : Bytes) :
    (NeighborEvent.fromNlmsghdr (message.bytes ++ behind)).lladdr =
      (NeighborEvent.fromNlmsghdr message.bytes).lladdr := by
  apply decodeEvent_project_append NeighborEvent.lladdr
  intro known enough type
  have walked : attributes sizeofNdmsg (message.bytes ++ behind) =
      (attributes sizeofNdmsg message.bytes).map (· ++ behind) :=
    attributes_append .neighbor message behind short enough
  unfold NeighborEvent.fromPayload
  rw [forEachAttr_eq_foldl, forEachAttr_eq_foldl, walked]
  refine foldl_project_behind ?_ rfl
  intro attr member first second same
  exact NeighborEvent.onAttr_lladdr
    (inside_of_mem_attributes .neighbor message short enough attr member) same

/-- `RTM_NEWLINK` for the interface `lo` with index 1. -/
def loLink (seq pid : Nat) : Message :=
  Message.build rtmNewlink 2 seq pid
    [0, 0, 1, 0, 1, 0, 0, 0, 1, 0, 0, 0, 0, 0, 0, 0, 7, 0, 3, 0, 108, 111, 0] (by decide)

/-- `NLMSG_DONE` with a status in its payload. -/
def doneMessage (seq pid : Nat) (status sign : UInt8) : Message :=
  Message.build nlmsgDone 2 seq pid [status, sign, sign, sign] (by simp)

end Rtaco
