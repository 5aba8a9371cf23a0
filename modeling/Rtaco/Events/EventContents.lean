import Rtaco.Events.AddressConfinement
import Rtaco.Netlink.AddressBytes

/-!
# What an event tells of its message

The texts of an event can be read back. So an event tells the type, the numbers, the names and the
bytes of the addresses of its message, and two messages of one kind have the same event exactly if
they agree in these.
-/

namespace Rtaco

open Netlink LastValue

/-- What a message says to the decoder of a kind. -/
structure Contents where
  type : Nat
  numbers : List Int
  names : List Bytes
  addresses : List (Option Bytes)
  lladdr : Bytes
  deriving DecidableEq

/-- The last attribute of a type. -/
def lastOf (type : Nat) (attrs : List Attribute) : Option Attribute :=
  (ofKey Attribute.type type attrs).getLast?

/-- The bytes of an attribute that are an address of the family. -/
def Netlink.Attribute.address (family : Nat) (attr : Attribute) : Option Bytes :=
  if addressSize family = 0 then none else some (attr.payload.take (addressSize family))

namespace EventKind

def numbers : EventKind → Bytes → List Attribute → List Int
  | link, info, _ => [ifiIndex info, ifiFlags info, ifiChange info]
  | address, info, _ =>
      [ifaFamily info, ifaPrefixlen info, ifaScope info, ifaFlags info, toInt32 (ifaIndex info)]
  | route, info, attrs =>
      [rtmFamily info, rtmDstLen info, rtmSrcLen info, rtmScope info, rtmProtocol info,
        rtmType info, rtmFlags info, (decoded rtaTable uint32Value (rtmTable info) attrs : Nat),
        (decoded rtaPriority uint32Value 0 attrs : Nat), (decoded rtaOif uint32Value 0 attrs : Nat)]
  | neighbor, info, _ =>
      [ndmFamily info, ndmIfindex info, ndmState info, ndmFlags info, ndmType info]

def names : EventKind → List Attribute → List Bytes
  | link, attrs => [((interfaceName attrs).map fun attr => cString attr.payload).getD []]
  | address, attrs => [decoded ifaLabel cString [] attrs]
  | route, _ => []
  | neighbor, _ => []

/-- The attributes that the addresses of an event are taken from. -/
def addressAttributes : EventKind → List Attribute → List (Option Attribute)
  | link, _ => []
  | address, attrs => [(lastOf ifaLocal attrs).or (lastOf ifaAddress attrs)]
  | route, attrs => [rtaDst, rtaSrc, rtaGateway, rtaPrefsrc].map fun type => lastOf type attrs
  | neighbor, attrs => [lastOf ndaDst attrs]

def lladdr : EventKind → List Attribute → Bytes
  | neighbor, attrs => decoded ndaLladdr id [] attrs
  | _, _ => []

def contents (kind : EventKind) (message : Message) (attrs : List Attribute) : Contents where
  type := nlmsgType message.bytes
  numbers := kind.numbers (kind.fixed message) attrs
  names := kind.names attrs
  addresses := (kind.addressAttributes attrs).map fun attr =>
    attr.bind (Attribute.address (kind.family (kind.fixed message)))
  lladdr := kind.lladdr attrs

end EventKind

/-- The address a text stands for, if it is not empty. -/
def readText (family : Nat) (text : Bytes) : Option Bytes :=
  if text = [] then none else some (readAddress family text)

/-- The values of the enumerators of `Type`. -/
def LinkEvent.Type.value : LinkEvent.Type → Nat
  | unknown => 0
  | newLink => rtmNewlink
  | deleteLink => rtmDellink

def AddressEvent.Type.value : AddressEvent.Type → Nat
  | unknown => 0
  | newAddress => rtmNewaddr
  | deleteAddress => rtmDeladdr

def RouteEvent.Type.value : RouteEvent.Type → Nat
  | unknown => 0
  | newRoute => rtmNewroute
  | deleteRoute => rtmDelroute

def NeighborEvent.Type.value : NeighborEvent.Type → Nat
  | unknown => 0
  | newNeighbor => rtmNewneigh
  | deleteNeighbor => rtmDelneigh

namespace EventKind

/-- What an event tells of its message. -/
def readContents : (kind : EventKind) → kind.Event → Contents
  | link, event =>
      { type := event.type.value
        numbers := [event.index, event.flags, event.change]
        names := [event.name]
        addresses := []
        lladdr := [] }
  | address, event =>
      { type := event.type.value
        numbers := [event.family, event.prefixLen, event.scope, event.flags, event.index]
        names := [event.label]
        addresses := [readText event.family event.address]
        lladdr := [] }
  | route, event =>
      { type := event.type.value
        numbers := [event.family, event.dstPrefixLen, event.srcPrefixLen, event.scope,
          event.protocol, event.routeType, event.flags, event.table, event.priority,
          event.oifIndex]
        names := []
        addresses := [event.dst, event.src, event.gateway, event.prefsrc].map
          (readText event.family)
        lladdr := [] }
  | neighbor, event =>
      { type := event.type.value
        numbers := [event.family, event.index, event.state, event.flags, event.neighborType]
        names := []
        addresses := [readText event.family event.address]
        lladdr := hwaddrBytes event.lladdr }

end EventKind

theorem LinkEvent.typeOf_value {nlmsgType : Nat} (decodes : EventKind.link.Decodes nlmsgType) :
    (LinkEvent.typeOf nlmsgType).value = nlmsgType := by
  rcases decodes with rfl | rfl <;> rfl

theorem AddressEvent.typeOf_value {nlmsgType : Nat}
    (decodes : EventKind.address.Decodes nlmsgType) :
    (AddressEvent.typeOf nlmsgType).value = nlmsgType := by
  rcases decodes with rfl | rfl <;> rfl

theorem RouteEvent.typeOf_value {nlmsgType : Nat} (decodes : EventKind.route.Decodes nlmsgType) :
    (RouteEvent.typeOf nlmsgType).value = nlmsgType := by
  rcases decodes with rfl | rfl <;> rfl

theorem NeighborEvent.typeOf_value {nlmsgType : Nat}
    (decodes : EventKind.neighbor.Decodes nlmsgType) :
    (NeighborEvent.typeOf nlmsgType).value = nlmsgType := by
  rcases decodes with rfl | rfl <;> rfl

section Text

variable {family : Nat} {attr : Option Attribute} {attrs : List Attribute}

/-- The text of an attribute, if there is one. -/
def textOf (family : Nat) (attr : Option Attribute) : Bytes :=
  (attr.map fun attr => addressText family attr.payload).getD []

theorem decoded_eq_lastOf {Value : Type} (type : Nat) (decode : Bytes → Value) (default : Value) :
    decoded type decode default attrs =
      ((lastOf type attrs).map fun attr => decode attr.payload).getD default := rfl

theorem decoded_addressText (type : Nat) :
    decoded type (addressText family) [] attrs = textOf family (lastOf type attrs) := rfl

theorem decoded_hwaddrText (type : Nat) :
    decoded type hwaddrText [] attrs = hwaddrText (decoded type id [] attrs) := by
  rw [decoded_eq_lastOf, decoded_eq_lastOf]
  cases lastOf type attrs with
  | none => rfl
  | some own => rfl

theorem readText_addressText (payload : Bytes) :
    readText family (addressText family payload) =
      if addressSize family = 0 then none else some (payload.takeD (addressSize family) 0) := by
  by_cases known : family = afInet ∨ family = afInet6
  · obtain ⟨text, printed, -⟩ := exists_inetNtop known payload
    have sized : addressSize family ≠ 0 := by rcases known with rfl | rfl <;> decide
    rw [readText, if_neg (addressText_ne_nil known payload), addressText, printed,
      Option.getD_some, readAddress_inetNtop printed, if_neg sized]
  · have unknown := addressSize_of_unknown known
    rw [addressText_of_unknown unknown, readText, if_pos rfl, if_pos unknown]

theorem readText_textOf (holds : ∀ own ∈ attr, addressSize family ≤ own.payload.length) :
    readText family (textOf family attr) = attr.bind (Attribute.address family) := by
  cases attr with
  | none => rfl
  | some own =>
      rw [textOf, Option.map_some, Option.getD_some, readText_addressText, Option.bind_some,
        Attribute.address, List.takeD_eq_take _ (holds own rfl)]

theorem textOf_eq_elim (holds : ∀ own ∈ attr, addressSize family ≤ own.payload.length) :
    textOf family attr =
      (attr.bind (Attribute.address family)).elim [] (addressText family) := by
  cases attr with
  | none => rfl
  | some own =>
      rw [textOf, Option.map_some, Option.getD_some, Option.bind_some, Attribute.address]
      split_ifs with unknown
      · exact addressText_of_unknown unknown own.payload
      · have front : addressSize family ≤ (own.payload.take (addressSize family)).length := by
          rw [List.length_take, Nat.min_eq_left (holds own rfl)]
        have text := addressText_append (own.payload.drop (addressSize family)) front
        rw [List.take_append_drop] at text
        exact text

theorem textOf_congr {other : Option Attribute}
    (holds : ∀ own ∈ attr, addressSize family ≤ own.payload.length)
    (otherHolds : ∀ own ∈ other, addressSize family ≤ own.payload.length)
    (same : attr.bind (Attribute.address family) = other.bind (Attribute.address family)) :
    textOf family attr = textOf family other := by
  rw [textOf_eq_elim holds, textOf_eq_elim otherHolds, same]

/-- The second text counts only where there is no first attribute. -/
theorem textOf_or (first second : Option Attribute)
    {decision : Decidable (textOf family first ≠ [])} :
    (if textOf family first ≠ [] then textOf family first else textOf family second) =
      textOf family (first.or second) := by
  cases first with
  | none => exact if_neg (not_not_intro rfl)
  | some own =>
      rw [Option.some_or]
      by_cases known : family = afInet ∨ family = afInet6
      · exact if_pos (addressText_ne_nil known own.payload)
      · have unknown := addressText_of_unknown (addressSize_of_unknown known)
        cases second with
        | none => simp [textOf, unknown]
        | some other => simp [textOf, unknown]

theorem AddressEvent.address_ofAttributes (type : AddressEvent.Type) (info : Bytes)
    (attrs : List Attribute) :
    (AddressEvent.ofAttributes type info attrs).address =
      textOf (ifaFamily info) ((lastOf ifaLocal attrs).or (lastOf ifaAddress attrs)) :=
  textOf_or _ _

end Text

namespace EventKind

variable {kind : EventKind} {message other : Message} {attrs others : List Attribute}

theorem ListWellFormed.holds {info : Bytes} (wellFormed : kind.ListWellFormed info attrs) :
    ∀ attr ∈ kind.addressAttributes attrs, ∀ own ∈ attr,
      addressSize (kind.family info) ≤ own.payload.length := by
  have last {type : Nat} (typed : type ∈ kind.addressTypes) :
      ∀ own ∈ lastOf type attrs, addressSize (kind.family info) ≤ own.payload.length := by
    intro own isLast
    obtain ⟨member, ofType⟩ := mem_of_getLast?_ofKey isLast
    exact wellFormed.addresses own member (ofType ▸ typed)
  cases kind with
  | link => nofun
  | address =>
      intro attr chosen own here
      rw [List.mem_singleton.mp chosen] at here
      rcases Option.or_eq_some_iff.mp here with isLocal | ⟨-, isPeer⟩
      · exact last (by decide) own isLocal
      · exact last (by decide) own isPeer
  | route =>
      intro attr chosen own here
      obtain ⟨type, typed, rfl⟩ := List.mem_map.mp chosen
      exact last typed own here
  | neighbor =>
      intro attr chosen own here
      rw [List.mem_singleton.mp chosen] at here
      exact last (by decide) own here

theorem readContents_ofAttributes (decodes : kind.Decodes (nlmsgType message.bytes))
    (wellFormed : kind.ListWellFormed (kind.fixed message) attrs) :
    kind.readContents (kind.ofAttributes (nlmsgType message.bytes) (kind.fixed message) attrs) =
      kind.contents message attrs := by
  have holds := wellFormed.holds
  cases kind with
  | link =>
      simp only [readContents, ofAttributes, LinkEvent.ofAttributes,
        LinkEvent.typeOf_value decodes]
      rfl
  | address =>
      have text := readText_textOf (holds _ (List.mem_singleton_self _))
      have type : (AddressEvent.ofAttributes (AddressEvent.typeOf (nlmsgType message.bytes))
          (address.fixed message) attrs).type.value = nlmsgType message.bytes :=
        AddressEvent.typeOf_value decodes
      rw [contents, addressAttributes, List.map_singleton, ← text]
      simp only [readContents, ofAttributes, AddressEvent.address_ofAttributes, type]
      simp only [AddressEvent.ofAttributes, AddressStrings.ofAttributes, numbers, names, lladdr,
        family]
  | route =>
      simp only [readContents, ofAttributes, RouteEvent.ofAttributes, RouteEvent.fixed,
        RouteEvent.typeOf_value decodes, decoded_addressText]
      have texts : ([rtaDst, rtaSrc, rtaGateway, rtaPrefsrc].map fun type =>
          readText (rtmFamily (route.fixed message))
            (textOf (rtmFamily (route.fixed message)) (lastOf type attrs))) =
          (route.addressAttributes attrs).map fun attr =>
            attr.bind (Attribute.address (route.family (route.fixed message))) := by
        rw [addressAttributes, List.map_map]
        apply List.map_congr_left
        intro type typed
        exact readText_textOf (holds _ (List.mem_map_of_mem typed))
      rw [contents, ← texts]
      rfl
  | neighbor =>
      have text := readText_textOf (holds _ (List.mem_singleton_self _))
      have bytes : hwaddrBytes (decoded ndaLladdr hwaddrText [] attrs) =
          decoded ndaLladdr id [] attrs := by
        rw [decoded_hwaddrText, hwaddrBytes_hwaddrText]
      simp only [readContents, ofAttributes, NeighborEvent.ofAttributes, NeighborEvent.fixed,
        NeighborEvent.typeOf_value decodes, decoded_addressText, bytes]
      rw [contents, addressAttributes, List.map_singleton, ← text]
      rfl

theorem exists_pointer {pointers : List Bytes} (points : PointsTo pointers attrs)
    {attr : Attribute} (member : attr ∈ attrs) : ∃ behind, attr.bytes ++ behind ∈ pointers := by
  induction points with
  | nil => cases member
  | @cons pointer first pointers attrs here rest inductionHypothesis =>
      rcases List.mem_cons.mp member with rfl | later
      · obtain ⟨behind, rfl⟩ := here
        exact ⟨behind, List.mem_cons_self⟩
      · obtain ⟨behind, found⟩ := inductionHypothesis later
        exact ⟨behind, List.mem_cons_of_mem _ found⟩

section Carried

variable (carries : kind.Carries message attrs) (short : message.bytes.length < 2 ^ 31)
  (sound : WellFormed message)
include carries short sound

theorem Carries.listWellFormed : kind.ListWellFormed (kind.fixed message) attrs := by
  have wellFormed := sound kind carries.decodes
  have points := carries.pointsTo short []
  rw [List.append_nil] at points
  have family : kind.family (nlmsgData message.bytes) = kind.family (kind.fixed message) := by
    have split := kind.nlmsgData_eq_fixed message []
    rw [List.append_nil] at split
    rw [split, kind.family_append _ (length_fixed carries.enough).ge]
  constructor
  · intro attr member typed
    obtain ⟨behind, visited⟩ := exists_pointer points member
    have holds := wellFormed.addresses _ visited (by rwa [attr.rtaType_append])
    rwa [HoldsAddress, attr.toSize_rtaPayload_append, family] at holds
  · intro attr member typed present
    obtain ⟨behind, visited⟩ := exists_pointer points member
    have terminated := wellFormed.strings _ visited (by rwa [attr.rtaType_append])
    rw [Terminated, attr.toSize_rtaPayload_append, attr.rtaData_append, List.take_left]
      at terminated
    exact terminated fun empty => present (List.length_eq_zero_iff.mp empty)

theorem readContents_fromNlmsghdr :
    kind.readContents (kind.fromNlmsghdr message.bytes) = kind.contents message attrs := by
  have wellFormed := carries.listWellFormed short sound
  have event := fromNlmsghdr_eq carries short wellFormed []
  rw [List.append_nil] at event
  rw [event]
  exact readContents_ofAttributes carries.decodes wellFormed

end Carried

theorem ofAttributes_of_contents
    (wellFormed : kind.ListWellFormed (kind.fixed message) attrs)
    (otherWellFormed : kind.ListWellFormed (kind.fixed other) others)
    (same : kind.contents message attrs = kind.contents other others) :
    kind.ofAttributes (nlmsgType message.bytes) (kind.fixed message) attrs =
      kind.ofAttributes (nlmsgType other.bytes) (kind.fixed other) others := by
  have holds := wellFormed.holds
  have otherHolds := otherWellFormed.holds
  obtain ⟨types, numbers, names, addresses, lladdrs⟩ := Contents.mk.inj same
  cases kind with
  | link =>
      simp only [EventKind.numbers, List.cons.injEq, Int.natCast_inj, and_true] at numbers
      obtain ⟨index, flags, change⟩ := numbers
      simp only [EventKind.names, List.cons.injEq, and_true] at names
      simp only [ofAttributes, LinkEvent.ofAttributes, types, index, flags, change, names]
  | address =>
      simp only [EventKind.numbers, List.cons.injEq, Int.natCast_inj, and_true] at numbers
      obtain ⟨family, prefixLen, scope, flags, index⟩ := numbers
      simp only [EventKind.names, List.cons.injEq, and_true] at names
      simp only [addressAttributes, List.map_cons, List.map_nil, List.cons.injEq, and_true,
        List.mem_singleton, forall_eq, EventKind.family, ← family] at addresses holds otherHolds
      have text := textOf_congr holds otherHolds addresses
      simp only [ofAttributes, AddressEvent.ofAttributes, AddressStrings.ofAttributes,
        decoded_addressText, textOf_or, types, ← family, prefixLen, scope, flags, index, names,
        text]
  | route =>
      simp only [EventKind.numbers, List.cons.injEq, Int.natCast_inj, and_true] at numbers
      obtain ⟨family, dstLen, srcLen, scope, protocol, routeType, flags, table, priority, oif⟩ :=
        numbers
      simp only [addressAttributes, List.map_map, List.map_inj_left, List.forall_mem_map,
        EventKind.family, ← family, Function.comp_apply] at addresses holds otherHolds
      have text {type : Nat} (typed : type ∈ [rtaDst, rtaSrc, rtaGateway, rtaPrefsrc]) :
          textOf (rtmFamily (route.fixed message)) (lastOf type attrs) =
            textOf (rtmFamily (route.fixed message)) (lastOf type others) :=
        textOf_congr (holds type typed) (otherHolds type typed) (addresses type typed)
      simp only [ofAttributes, RouteEvent.ofAttributes, RouteEvent.fixed, decoded_addressText,
        types, ← family, dstLen, srcLen, scope, protocol, routeType, flags, table, priority, oif,
        text (show rtaDst ∈ _ by decide), text (show rtaSrc ∈ _ by decide),
        text (show rtaGateway ∈ _ by decide), text (show rtaPrefsrc ∈ _ by decide)]
  | neighbor =>
      simp only [EventKind.numbers, List.cons.injEq, Int.natCast_inj, and_true] at numbers
      obtain ⟨family, index, state, flags, neighborType⟩ := numbers
      simp only [addressAttributes, List.map_cons, List.map_nil, List.cons.injEq, and_true,
        List.mem_singleton, forall_eq, EventKind.family, ← family] at addresses holds otherHolds
      have text := textOf_congr holds otherHolds addresses
      have hwaddr : decoded ndaLladdr hwaddrText [] attrs =
          decoded ndaLladdr hwaddrText [] others := by
        rw [decoded_hwaddrText, decoded_hwaddrText]
        exact congrArg hwaddrText lladdrs
      simp only [ofAttributes, NeighborEvent.ofAttributes, NeighborEvent.fixed,
        decoded_addressText, types, ← family, index, state, flags, neighborType, text, hwaddr]

end EventKind

/-- An event tells the type, the numbers, the names and the bytes of the addresses of its message,
and messages have the same event exactly if they agree in these. -/
theorem event_tells_contents (kind : EventKind) {message : Message} {attrs : List Attribute}
    (carries : kind.Carries message attrs) (short : message.bytes.length < 2 ^ 31)
    (wellFormed : kind.ListWellFormed (kind.fixed message) attrs) :
    (∀ behind, kind.readContents (kind.fromNlmsghdr (message.bytes ++ behind)) =
      kind.contents message attrs) ∧
    ∀ (other : Message) (others : List Attribute), kind.Carries other others →
      other.bytes.length < 2 ^ 31 → kind.ListWellFormed (kind.fixed other) others →
      ∀ behind beyond,
        (kind.fromNlmsghdr (message.bytes ++ behind) = kind.fromNlmsghdr (other.bytes ++ beyond) ↔
          kind.contents message attrs = kind.contents other others) := by
  have read {message : Message} {attrs : List Attribute} (carries : kind.Carries message attrs)
      (short : message.bytes.length < 2 ^ 31)
      (wellFormed : kind.ListWellFormed (kind.fixed message) attrs) (behind : Bytes) :
      kind.readContents (kind.fromNlmsghdr (message.bytes ++ behind)) =
        kind.contents message attrs := by
    rw [EventKind.fromNlmsghdr_eq carries short wellFormed]
    exact EventKind.readContents_ofAttributes carries.decodes wellFormed
  refine ⟨read carries short wellFormed, ?_⟩
  intro other others otherCarries otherShort otherWellFormed behind beyond
  constructor
  · intro same
    rw [← read carries short wellFormed behind, same]
    exact read otherCarries otherShort otherWellFormed beyond
  · intro same
    rw [EventKind.fromNlmsghdr_eq carries short wellFormed,
      EventKind.fromNlmsghdr_eq otherCarries otherShort otherWellFormed]
    exact EventKind.ofAttributes_of_contents wellFormed otherWellFormed same

/-- The name of `lo`, as `loLink` carries it. -/
def loAttributes : List Attribute := [.build iflaIfname [108, 111, 0] (by decide)]

theorem small_ipv6 :
    4 + ([0xfe, 0x80, 0, 0, 0, 0, 0, 0, 0, 0, 0, 0, 0, 0, 0, 1] : Bytes).length < 2 ^ 16 := by
  decide

/-- `fe80::1` behind the link-layer address `02:5f:a1`. -/
def linkLocalAttributes : List Attribute :=
  [.build ndaLladdr [2, 0x5f, 0xa1] (by decide),
    .build ndaDst [0xfe, 0x80, 0, 0, 0, 0, 0, 0, 0, 0, 0, 0, 0, 0, 0, 1] small_ipv6]

def linkLocalMessage : Message :=
  Message.build rtmNewneigh 0 7 0
    ([10, 0, 0, 0, 3, 0, 0, 0, 2, 0, 0, 1] ++ Records.Format.encode linkLocalAttributes)
    (by decide)

theorem event_tells_contents_linkLocalMessage :
    EventKind.neighbor.readContents
        (NeighborEvent.fromNlmsghdr (linkLocalMessage.bytes ++ [7, 7])) =
      { type := rtmNewneigh, numbers := [10, 3, 2, 0, 1], names := [],
        addresses := [some [0xfe, 0x80, 0, 0, 0, 0, 0, 0, 0, 0, 0, 0, 0, 0, 0, 1]],
        lladdr := [2, 0x5f, 0xa1] } := by
  have carries : EventKind.neighbor.Carries linkLocalMessage linkLocalAttributes :=
    ⟨by decide, by decide, [], by decide, by decide⟩
  have wellFormed : EventKind.neighbor.ListWellFormed
      (EventKind.neighbor.fixed linkLocalMessage) linkLocalAttributes :=
    ⟨by decide, by decide⟩
  exact ((event_tells_contents .neighbor carries (by decide) wellFormed).1 [7, 7]).trans
    (by decide +kernel)

end Rtaco
