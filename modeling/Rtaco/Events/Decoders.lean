import Mathlib.Data.Fintype.Defs
import Rtaco.Core.Common

/-!
# Event decoders

The four `from_nlmsghdr` functions. The callback given to `for_each_attr` is a
step on the locals and event fields it captures by reference.
-/

namespace Rtaco

open Netlink

universe u v

/-- The frame the decoders share: the event is empty unless the message type is
known and the message holds the fixed structure. -/
def decodeEvent {Kind : Type u} {Event : Type v} [DecidableEq Kind] (typeOf : Nat → Kind)
    (unknown : Kind) (size : Nat) (empty : Event) (body : Kind → Bytes → Bytes → Event)
    (header : Bytes) : Event :=
  let type := typeOf (nlmsgType header)
  if type = unknown then empty
  else
    match getMsgPayload size header with
    | none => empty
    | some info => body type header info

inductive LinkEvent.Type where
  | unknown
  | newLink
  | deleteLink
  deriving DecidableEq

structure LinkEvent where
  type : LinkEvent.Type := .unknown
  index : Int := 0
  flags : Nat := 0
  change : Nat := 0
  name : Bytes := []
  deriving DecidableEq

def LinkEvent.typeOf (nlmsgType : Nat) : LinkEvent.Type :=
  if nlmsgType = rtmNewlink then .newLink
  else if nlmsgType = rtmDellink then .deleteLink
  else .unknown

def LinkEvent.fromPayload (type : LinkEvent.Type) (header info : Bytes) : LinkEvent where
  type := type
  index := ifiIndex info
  flags := ifiFlags info
  change := ifiChange info
  name := extractIfname header

def LinkEvent.fromNlmsghdr : Bytes → LinkEvent :=
  decodeEvent LinkEvent.typeOf .unknown sizeofIfinfomsg {} LinkEvent.fromPayload

inductive AddressEvent.Type where
  | unknown
  | newAddress
  | deleteAddress
  deriving DecidableEq

structure AddressEvent where
  type : AddressEvent.Type := .unknown
  index : Int := 0
  prefixLen : Nat := 0
  scope : Nat := 0
  flags : Nat := 0
  family : Nat := 0
  address : Bytes := []
  label : Bytes := []
  deriving DecidableEq

def AddressEvent.typeOf (nlmsgType : Nat) : AddressEvent.Type :=
  if nlmsgType = rtmNewaddr then .newAddress
  else if nlmsgType = rtmDeladdr then .deleteAddress
  else .unknown

/-- The strings the callback of `AddressEvent::from_nlmsghdr` captures. -/
structure AddressStrings where
  localAddress : Bytes := []
  peerAddress : Bytes := []
  label : Bytes := []
  deriving DecidableEq

def AddressEvent.onAttr (family : Nat) (strings : AddressStrings) (attr : Bytes) :
    AddressStrings :=
  if rtaType attr = ifaLocal then { strings with localAddress := attributeAddress attr family }
  else if rtaType attr = ifaAddress then
    { strings with peerAddress := attributeAddress attr family }
  else if rtaType attr = ifaLabel then { strings with label := attributeString attr }
  else strings

def AddressEvent.fromPayload (type : AddressEvent.Type) (header info : Bytes) : AddressEvent :=
  let strings := forEachAttr sizeofIfaddrmsg header (some info)
    (AddressEvent.onAttr (ifaFamily info)) {}
  { type := type
    family := ifaFamily info
    prefixLen := ifaPrefixlen info
    scope := ifaScope info
    flags := ifaFlags info
    index := toInt32 (ifaIndex info)
    address := if strings.localAddress ≠ [] then strings.localAddress else strings.peerAddress
    label := strings.label }

def AddressEvent.fromNlmsghdr : Bytes → AddressEvent :=
  decodeEvent AddressEvent.typeOf .unknown sizeofIfaddrmsg {} AddressEvent.fromPayload

inductive RouteEvent.Type where
  | unknown
  | newRoute
  | deleteRoute
  deriving DecidableEq

structure RouteEvent where
  type : RouteEvent.Type := .unknown
  family : Nat := 0
  dstPrefixLen : Nat := 0
  srcPrefixLen : Nat := 0
  scope : Nat := 0
  protocol : Nat := 0
  routeType : Nat := 0
  flags : Nat := 0
  table : Nat := 0
  priority : Nat := 0
  oifIndex : Nat := 0
  dst : Bytes := []
  src : Bytes := []
  gateway : Bytes := []
  prefsrc : Bytes := []
  oif : Bytes := []
  deriving DecidableEq

def RouteEvent.typeOf (nlmsgType : Nat) : RouteEvent.Type :=
  if nlmsgType = rtmNewroute then .newRoute
  else if nlmsgType = rtmDelroute then .deleteRoute
  else .unknown

def RouteEvent.onAttr (event : RouteEvent) (attr : Bytes) : RouteEvent :=
  if rtaType attr = rtaTable then { event with table := attributeUint32 attr }
  else if rtaType attr = rtaDst then { event with dst := attributeAddress attr event.family }
  else if rtaType attr = rtaSrc then { event with src := attributeAddress attr event.family }
  else if rtaType attr = rtaGateway then
    { event with gateway := attributeAddress attr event.family }
  else if rtaType attr = rtaPrefsrc then
    { event with prefsrc := attributeAddress attr event.family }
  else if rtaType attr = rtaOif then { event with oifIndex := attributeUint32 attr }
  else if rtaType attr = rtaPriority then { event with priority := attributeUint32 attr }
  else event

def RouteEvent.fixed (type : RouteEvent.Type) (info : Bytes) : RouteEvent where
  type := type
  family := rtmFamily info
  dstPrefixLen := rtmDstLen info
  srcPrefixLen := rtmSrcLen info
  scope := rtmScope info
  protocol := rtmProtocol info
  routeType := rtmType info
  flags := rtmFlags info
  table := rtmTable info

def RouteEvent.nameOif (event : RouteEvent) : RouteEvent :=
  if event.oifIndex ≠ 0 then { event with oif := decimal event.oifIndex } else event

def RouteEvent.fromPayload (type : RouteEvent.Type) (header info : Bytes) : RouteEvent :=
  (forEachAttr sizeofRtmsg header (some info) RouteEvent.onAttr
    (RouteEvent.fixed type info)).nameOif

def RouteEvent.fromNlmsghdr : Bytes → RouteEvent :=
  decodeEvent RouteEvent.typeOf .unknown sizeofRtmsg {} RouteEvent.fromPayload

inductive NeighborEvent.Type where
  | unknown
  | newNeighbor
  | deleteNeighbor
  deriving DecidableEq

structure NeighborEvent where
  type : NeighborEvent.Type := .unknown
  index : Int := 0
  family : Nat := 0
  state : Nat := 0
  flags : Nat := 0
  neighborType : Nat := 0
  address : Bytes := []
  lladdr : Bytes := []
  deriving DecidableEq

def NeighborEvent.typeOf (nlmsgType : Nat) : NeighborEvent.Type :=
  if nlmsgType = rtmNewneigh then .newNeighbor
  else if nlmsgType = rtmDelneigh then .deleteNeighbor
  else .unknown

def NeighborEvent.onAttr (event : NeighborEvent) (attr : Bytes) : NeighborEvent :=
  if rtaType attr = ndaDst then { event with address := attributeAddress attr event.family }
  else if rtaType attr = ndaLladdr then { event with lladdr := attributeHwaddr attr }
  else event

def NeighborEvent.fixed (type : NeighborEvent.Type) (info : Bytes) : NeighborEvent where
  type := type
  family := ndmFamily info
  index := ndmIfindex info
  state := ndmState info
  flags := ndmFlags info
  neighborType := ndmType info

def NeighborEvent.fromPayload (type : NeighborEvent.Type) (header info : Bytes) :
    NeighborEvent :=
  forEachAttr sizeofNdmsg header (some info) NeighborEvent.onAttr (NeighborEvent.fixed type info)

def NeighborEvent.fromNlmsghdr : Bytes → NeighborEvent :=
  decodeEvent NeighborEvent.typeOf .unknown sizeofNdmsg {} NeighborEvent.fromPayload

inductive EventKind where
  | link
  | address
  | route
  | neighbor
  deriving DecidableEq

instance : Fintype EventKind where
  elems := ⟨([.link, .address, .route, .neighbor] : List EventKind), by decide⟩
  complete := by intro kind; cases kind <;> decide

namespace EventKind

abbrev Event : EventKind → Type
  | link => LinkEvent
  | address => AddressEvent
  | route => RouteEvent
  | neighbor => NeighborEvent

instance : (kind : EventKind) → DecidableEq kind.Event
  | link => inferInstanceAs (DecidableEq LinkEvent)
  | address => inferInstanceAs (DecidableEq AddressEvent)
  | route => inferInstanceAs (DecidableEq RouteEvent)
  | neighbor => inferInstanceAs (DecidableEq NeighborEvent)

def newType : EventKind → Nat
  | link => rtmNewlink
  | address => rtmNewaddr
  | route => rtmNewroute
  | neighbor => rtmNewneigh

def delType : EventKind → Nat
  | link => rtmDellink
  | address => rtmDeladdr
  | route => rtmDelroute
  | neighbor => rtmDelneigh

/-- The size of the fixed structure in front of the attributes. -/
def infoSize : EventKind → Nat
  | link => sizeofIfinfomsg
  | address => sizeofIfaddrmsg
  | route => sizeofRtmsg
  | neighbor => sizeofNdmsg

def fromNlmsghdr : (kind : EventKind) → Bytes → kind.Event
  | link => LinkEvent.fromNlmsghdr
  | address => AddressEvent.fromNlmsghdr
  | route => RouteEvent.fromNlmsghdr
  | neighbor => NeighborEvent.fromNlmsghdr

/-- The message type is one the event is decoded from. -/
def Decodes (kind : EventKind) (nlmsgType : Nat) : Prop :=
  nlmsgType = kind.newType ∨ nlmsgType = kind.delType

instance (kind : EventKind) (nlmsgType : Nat) : Decidable (kind.Decodes nlmsgType) :=
  inferInstanceAs (Decidable (_ ∨ _))

end EventKind

theorem LinkEvent.typeOf_new {nlmsgType : Nat} :
    LinkEvent.typeOf nlmsgType = .newLink ↔ nlmsgType = rtmNewlink := by
  unfold LinkEvent.typeOf
  split_ifs <;> simp [*]

theorem LinkEvent.typeOf_known {nlmsgType : Nat} :
    LinkEvent.typeOf nlmsgType ≠ .unknown ↔ EventKind.link.Decodes nlmsgType := by
  unfold LinkEvent.typeOf EventKind.Decodes
  split_ifs <;> simp [EventKind.newType, EventKind.delType, *]

theorem AddressEvent.typeOf_new {nlmsgType : Nat} :
    AddressEvent.typeOf nlmsgType = .newAddress ↔ nlmsgType = rtmNewaddr := by
  unfold AddressEvent.typeOf
  split_ifs <;> simp [*]

theorem AddressEvent.typeOf_known {nlmsgType : Nat} :
    AddressEvent.typeOf nlmsgType ≠ .unknown ↔ EventKind.address.Decodes nlmsgType := by
  unfold AddressEvent.typeOf EventKind.Decodes
  split_ifs <;> simp [EventKind.newType, EventKind.delType, *]

theorem RouteEvent.typeOf_new {nlmsgType : Nat} :
    RouteEvent.typeOf nlmsgType = .newRoute ↔ nlmsgType = rtmNewroute := by
  unfold RouteEvent.typeOf
  split_ifs <;> simp [*]

theorem RouteEvent.typeOf_known {nlmsgType : Nat} :
    RouteEvent.typeOf nlmsgType ≠ .unknown ↔ EventKind.route.Decodes nlmsgType := by
  unfold RouteEvent.typeOf EventKind.Decodes
  split_ifs <;> simp [EventKind.newType, EventKind.delType, *]

theorem NeighborEvent.typeOf_new {nlmsgType : Nat} :
    NeighborEvent.typeOf nlmsgType = .newNeighbor ↔ nlmsgType = rtmNewneigh := by
  unfold NeighborEvent.typeOf
  split_ifs <;> simp [*]

theorem NeighborEvent.typeOf_known {nlmsgType : Nat} :
    NeighborEvent.typeOf nlmsgType ≠ .unknown ↔ EventKind.neighbor.Decodes nlmsgType := by
  unfold NeighborEvent.typeOf EventKind.Decodes
  split_ifs <;> simp [EventKind.newType, EventKind.delType, *]

end Rtaco
