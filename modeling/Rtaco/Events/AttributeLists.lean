import Rtaco.Events.AttributeText
import Rtaco.Events.CompleteMessages
import Rtaco.Library.LastValue

/-!
# Events of attribute lists

The decoders fold a callback over the attributes of a message. On a message whose
attribute area is a list of well-formed attributes each field that comes from an
attribute is the decoded payload of the last attribute of its type.
-/

namespace Rtaco

open Netlink LastValue

universe u v w

/-- The pointers of a walk point to the attributes of a list. -/
abbrev PointsTo : List Bytes → List Attribute → Prop :=
  List.Forall₂ fun pointer attr => ∃ behind, pointer = attr.bytes ++ behind

theorem PointsTo.append {pointers : List Bytes} {attrs : List Attribute}
    (points : PointsTo pointers attrs) (behind : Bytes) :
    PointsTo (pointers.map (· ++ behind)) attrs := by
  rw [PointsTo, List.forall₂_map_left_iff]
  refine points.imp ?_
  rintro pointer attr ⟨after, rfl⟩
  exact ⟨after ++ behind, List.append_assoc _ _ _⟩

theorem PointsTo.last {pointers : List Bytes} {attrs : List Attribute}
    (points : PointsTo pointers attrs) (type : Nat) :
    Option.Rel (fun pointer attr => ∃ behind, pointer = attr.bytes ++ behind)
      (ofKey rtaType type pointers).getLast? (ofKey Attribute.type type attrs).getLast? := by
  apply LastValue.getLast?_ofKey_rel points
  rintro pointer attr ⟨behind, rfl⟩
  exact attr.rtaType_append behind

/-- The bytes are a list of attributes; padding behind the last one may be missing. -/
def AreaOf (area : Bytes) (attrs : List Attribute) : Prop :=
  ∃ cut, Records.Format.encode attrs = area ++ cut ∧
    ∀ last ∈ attrs.getLast?, cut.length ≤ last.padding.length

theorem AreaOf.nil {area : Bytes} (whole : AreaOf area []) : area = [] := by
  obtain ⟨cut, encoded, -⟩ := whole
  exact (List.append_eq_nil_iff.mp encoded.symm).1

theorem length_padding_le_of_getLast {attrs : List Attribute} {last : Attribute}
    (ends : last ∈ attrs.getLast?) :
    last.padding.length ≤ (Records.Format.encode attrs).length := by
  obtain ⟨front, rfl⟩ := List.getLast?_eq_some_iff.mp ends
  simp only [Records.Format.encode_append, Records.Format.encode_cons, Records.Format.encode_nil,
    Records.Format.Record.encode, List.length_append]
  omega

theorem AreaOf.single {area : Bytes} {attr : Attribute} (whole : AreaOf area [attr]) :
    ∃ behind, area = attr.bytes ++ behind ∧ area.length ≤ attr.encode.length := by
  obtain ⟨cut, encoded, ends⟩ := whole
  have covered := ends attr rfl
  have parts : attr.bytes ++ attr.padding = area ++ cut := by
    simpa [Records.Format.Record.encode] using encoded
  have lengths := congrArg List.length parts
  simp only [List.length_append] at lengths
  refine ⟨area.drop attr.bytes.length, ?_, ?_⟩
  · have front := congrArg (List.take attr.bytes.length) parts
    rw [List.take_left, List.take_append_of_le_length (by omega)] at front
    calc area = area.take attr.bytes.length ++ area.drop attr.bytes.length :=
          (List.take_append_drop _ _).symm
      _ = attr.bytes ++ area.drop attr.bytes.length := by rw [← front]
  · simp only [Records.Format.Record.encode, List.length_append]
    omega

theorem AreaOf.cons_cons {area : Bytes} {attr next : Attribute} {attrs : List Attribute}
    (whole : AreaOf area (attr :: next :: attrs)) :
    ∃ rest, area = attr.encode ++ rest ∧ AreaOf rest (next :: attrs) := by
  obtain ⟨cut, encoded, ends⟩ := whole
  rw [List.getLast?_cons_cons] at ends
  rw [Records.Format.encode_cons] at encoded
  obtain ⟨last, isLast⟩ := List.getLast?_isSome.mpr (List.cons_ne_nil next attrs) |>
    Option.isSome_iff_exists.mp
  have covered := ends last isLast
  have inside := length_padding_le_of_getLast isLast
  have lengths := congrArg List.length encoded
  simp only [List.length_append] at lengths
  rcases List.append_eq_append_iff.mp encoded with ⟨rest, area, encoded⟩ | ⟨beyond, front, cutoff⟩
  · exact ⟨rest, area, cut, encoded, ends⟩
  · have nothing : beyond = [] := by
      have lengths := congrArg List.length cutoff
      rw [List.length_append] at lengths
      exact List.eq_nil_of_length_eq_zero (by omega)
    subst nothing
    refine ⟨[], by simpa using front.symm, cut, ?_, ends⟩
    simpa using cutoff.symm

/-- What a walk does at an attribute: it visits it and goes on behind its padding. -/
theorem attributesFrom_cons (attr : Attribute) {behind : Bytes} {fuel : Nat}
    (short : (attr.bytes ++ behind).length < 2 ^ 31) :
    attributesFrom (fuel + 1) (attr.bytes ++ behind) (attr.bytes ++ behind).length =
      (attr.bytes ++ behind) ::
        attributesFrom fuel ((attr.bytes ++ behind).drop attr.encode.length)
          ((attr.bytes ++ behind).length - attr.encode.length) := by
  have size : rtaLen (attr.bytes ++ behind) = attr.bytes.length := attr.size_append behind
  have header : 4 ≤ attr.bytes.length := attr.header_le
  have rounded : attr.encode.length = (attr.bytes.length + 3) / 4 * 4 := attr.length_encode
  have inside : Inside (attr.bytes ++ behind) := by
    refine ⟨by omega, ?_⟩
    rw [size, List.length_append]
    omega
  have next := rtaNext_length inside short
  rw [attributesFrom, if_pos (rtaOk_length_iff.mpr inside), next, rtaNext, rtaAlign_eq, size,
    rounded]

theorem attributesFrom_areaOf {fuel : Nat} {area : Bytes} {attrs : List Attribute}
    (whole : AreaOf area attrs) (short : area.length < 2 ^ 31) (enough : area.length ≤ fuel) :
    PointsTo (attributesFrom fuel area area.length) attrs := by
  induction attrs generalizing fuel area with
  | nil =>
      rw [whole.nil, attributesFrom_of_short (by simp)]
      exact .nil
  | cons attr attrs inductionHypothesis =>
      have header : 4 ≤ attr.bytes.length := attr.header_le
      cases attrs with
      | nil =>
          obtain ⟨behind, rfl, padded⟩ := whole.single
          obtain ⟨fuel, rfl⟩ : ∃ spare, fuel = spare + 1 := by
            rw [List.length_append] at enough
            exact ⟨fuel - 1, by omega⟩
          rw [attributesFrom_cons attr short, attributesFrom_of_short (by omega)]
          exact .cons ⟨behind, rfl⟩ .nil
      | cons next attrs =>
          obtain ⟨rest, rfl, others⟩ := whole.cons_cons
          have split : attr.encode ++ rest = attr.bytes ++ (attr.padding ++ rest) := by
            simp [Records.Format.Record.encode]
          have atLeast : 4 ≤ attr.encode.length := by
            simp only [Records.Format.Record.encode, List.length_append]
            omega
          rw [List.length_append] at enough short
          obtain ⟨fuel, rfl⟩ : ∃ spare, fuel = spare + 1 := ⟨fuel - 1, by omega⟩
          have later := @inductionHypothesis fuel _ others (by omega) (by omega)
          have left : (((attr.encode ++ rest).length : Nat) : Int) - attr.encode.length =
              rest.length := by
            rw [List.length_append]
            omega
          rw [split] at left ⊢
          rw [attributesFrom_cons attr (by rw [← split, List.length_append]; exact short), left,
            ← split, List.drop_left]
          exact .cons ⟨_, split⟩ later

theorem AddressEvent.foldl_onAttr (family : Nat) (strings : AddressStrings)
    (pointers : List Bytes) :
    pointers.foldl (AddressEvent.onAttr family) strings =
      { localAddress := lastValue rtaType ifaLocal (attributeAddress · family)
          strings.localAddress pointers
        peerAddress := lastValue rtaType ifaAddress (attributeAddress · family)
          strings.peerAddress pointers
        label := lastValue rtaType ifaLabel attributeString strings.label pointers } := by
  induction pointers generalizing strings with
  | nil => rfl
  | cons pointer pointers inductionHypothesis =>
      rw [List.foldl_cons, inductionHypothesis]
      unfold AddressEvent.onAttr
      split_ifs with isLocal isPeer isLabel
      · simp [isLocal]
      · simp [isPeer]
      · simp [isLabel]
      · simp [isLocal, isPeer, isLabel]

theorem RouteEvent.foldl_onAttr (event : RouteEvent) (pointers : List Bytes) :
    pointers.foldl RouteEvent.onAttr event =
      { event with
        table := lastValue rtaType rtaTable attributeUint32 event.table pointers
        priority := lastValue rtaType rtaPriority attributeUint32 event.priority pointers
        oifIndex := lastValue rtaType rtaOif attributeUint32 event.oifIndex pointers
        dst := lastValue rtaType rtaDst (attributeAddress · event.family) event.dst pointers
        src := lastValue rtaType rtaSrc (attributeAddress · event.family) event.src pointers
        gateway := lastValue rtaType rtaGateway (attributeAddress · event.family) event.gateway
          pointers
        prefsrc := lastValue rtaType rtaPrefsrc (attributeAddress · event.family) event.prefsrc
          pointers } := by
  induction pointers generalizing event with
  | nil => rfl
  | cons pointer pointers inductionHypothesis =>
      rw [List.foldl_cons, inductionHypothesis, event.onAttr_family]
      unfold RouteEvent.onAttr
      split_ifs with isTable isDst isSrc isGateway isPrefsrc isOif isPriority
      · simp [isTable]
      · simp [isDst]
      · simp [isSrc]
      · simp [isGateway]
      · simp [isPrefsrc]
      · simp [isOif]
      · simp [isPriority]
      · simp [isTable, isDst, isSrc, isGateway, isPrefsrc, isOif, isPriority]

theorem NeighborEvent.foldl_onAttr (event : NeighborEvent) (pointers : List Bytes) :
    pointers.foldl NeighborEvent.onAttr event =
      { event with
        address := lastValue rtaType ndaDst (attributeAddress · event.family) event.address
          pointers
        lladdr := lastValue rtaType ndaLladdr attributeHwaddr event.lladdr pointers } := by
  induction pointers generalizing event with
  | nil => rfl
  | cons pointer pointers inductionHypothesis =>
      rw [List.foldl_cons, inductionHypothesis, event.onAttr_family]
      unfold NeighborEvent.onAttr
      split_ifs with isDst isLladdr
      · simp [isDst]
      · simp [isLladdr]
      · simp [isDst, isLladdr]

/-- The decoded payload of the last attribute of a type, if there is one. -/
def decoded {Value : Type v} (type : Nat) (decode : Bytes → Value) (default : Value)
    (attrs : List Attribute) : Value :=
  lastValue Attribute.type type (fun attr => decode attr.payload) default attrs

/-- A helper that reads the payload only decodes the attribute it is given a pointer to. -/
theorem lastValue_pointers {Value : Type v} {type : Nat} {read : Bytes → Value}
    {decode : Bytes → Value} {default : Value} {pointers : List Bytes} {attrs : List Attribute}
    (points : PointsTo pointers attrs)
    (reads : ∀ attr ∈ attrs, attr.type = type → ∀ behind,
      read (attr.bytes ++ behind) = decode attr.payload) :
    lastValue rtaType type read default pointers = decoded type decode default attrs := by
  apply LastValue.lastValue_forall₂ points
  · rintro pointer attr ⟨behind, rfl⟩
    exact attr.rtaType_append behind
  · rintro pointer attr member ⟨behind, rfl⟩ own
    exact reads attr member own behind

/-- The first attribute that names the interface. -/
def interfaceName (attrs : List Attribute) : Option Attribute :=
  attrs.find? fun attr => attr.type = iflaIfname ∧ attr.payload ≠ []

def LinkEvent.ofAttributes (type : LinkEvent.Type) (info : Bytes) (attrs : List Attribute) :
    LinkEvent where
  type := type
  index := ifiIndex info
  flags := ifiFlags info
  change := ifiChange info
  name := ((interfaceName attrs).map fun attr => cString attr.payload).getD []

def AddressStrings.ofAttributes (family : Nat) (attrs : List Attribute) : AddressStrings where
  localAddress := decoded ifaLocal (addressText family) [] attrs
  peerAddress := decoded ifaAddress (addressText family) [] attrs
  label := decoded ifaLabel cString [] attrs

def AddressEvent.ofAttributes (type : AddressEvent.Type) (info : Bytes) (attrs : List Attribute) :
    AddressEvent :=
  let strings := AddressStrings.ofAttributes (ifaFamily info) attrs
  { type := type
    family := ifaFamily info
    prefixLen := ifaPrefixlen info
    scope := ifaScope info
    flags := ifaFlags info
    index := toInt32 (ifaIndex info)
    address := if strings.localAddress ≠ [] then strings.localAddress else strings.peerAddress
    label := strings.label }

def RouteEvent.ofAttributes (type : RouteEvent.Type) (info : Bytes) (attrs : List Attribute) :
    RouteEvent :=
  let text := fun type => decoded type (addressText (rtmFamily info)) [] attrs
  let oifIndex := decoded rtaOif uint32Value 0 attrs
  { RouteEvent.fixed type info with
    table := decoded rtaTable uint32Value (rtmTable info) attrs
    priority := decoded rtaPriority uint32Value 0 attrs
    oifIndex := oifIndex
    dst := text rtaDst
    src := text rtaSrc
    gateway := text rtaGateway
    prefsrc := text rtaPrefsrc
    oif := if oifIndex ≠ 0 then decimal oifIndex else [] }

def NeighborEvent.ofAttributes (type : NeighborEvent.Type) (info : Bytes)
    (attrs : List Attribute) : NeighborEvent :=
  { NeighborEvent.fixed type info with
    address := decoded ndaDst (addressText (ndmFamily info)) [] attrs
    lladdr := decoded ndaLladdr hwaddrText [] attrs }

namespace EventKind

def ofAttributes : (kind : EventKind) → Nat → Bytes → List Attribute → kind.Event
  | link, nlmsgType => LinkEvent.ofAttributes (LinkEvent.typeOf nlmsgType)
  | address, nlmsgType => AddressEvent.ofAttributes (AddressEvent.typeOf nlmsgType)
  | route, nlmsgType => RouteEvent.ofAttributes (RouteEvent.typeOf nlmsgType)
  | neighbor, nlmsgType => NeighborEvent.ofAttributes (NeighborEvent.typeOf nlmsgType)

/-- Address attributes have the size of the family and string attributes a NUL. -/
structure ListWellFormed (kind : EventKind) (info : Bytes) (attrs : List Attribute) : Prop where
  addresses : ∀ attr ∈ attrs, attr.type ∈ kind.addressTypes →
    addressSize (kind.family info) ≤ attr.payload.length
  strings : ∀ attr ∈ attrs, attr.type ∈ kind.stringTypes →
    attr.payload ≠ [] → (0 : UInt8) ∈ attr.payload

end EventKind

section Pointers

variable {pointers : List Bytes} {attrs : List Attribute}

theorem lastValue_attributeAddress {type family : Nat} {default : Bytes}
    (points : PointsTo pointers attrs)
    (holds : ∀ attr ∈ attrs, attr.type = type → addressSize family ≤ attr.payload.length) :
    lastValue rtaType type (attributeAddress · family) default pointers =
      decoded type (addressText family) default attrs :=
  lastValue_pointers points fun attr member own behind =>
    attr.attributeAddress_append behind (holds attr member own)

theorem lastValue_attributeString {type : Nat} {default : Bytes} (points : PointsTo pointers attrs)
    (terminated : ∀ attr ∈ attrs, attr.type = type →
      attr.payload ≠ [] → (0 : UInt8) ∈ attr.payload) :
    lastValue rtaType type attributeString default pointers =
      decoded type cString default attrs :=
  lastValue_pointers points fun attr member own behind =>
    attr.attributeString_append behind (terminated attr member own)

theorem lastValue_attributeUint32 {type default : Nat} (points : PointsTo pointers attrs) :
    lastValue rtaType type attributeUint32 default pointers =
      decoded type uint32Value default attrs :=
  lastValue_pointers points fun attr _ _ behind => attr.attributeUint32_append behind

theorem lastValue_attributeHwaddr {type : Nat} {default : Bytes}
    (points : PointsTo pointers attrs) :
    lastValue rtaType type attributeHwaddr default pointers =
      decoded type hwaddrText default attrs :=
  lastValue_pointers points fun attr _ _ behind => attr.attributeHwaddr_append behind

theorem namesInterface_append (attr : Attribute) (behind : Bytes) :
    NamesInterface (attr.bytes ++ behind) ↔ attr.type = iflaIfname ∧ attr.payload ≠ [] := by
  unfold NamesInterface
  rw [attr.rtaType_append, attr.toSize_rtaPayload_append, ne_eq, List.length_eq_zero_iff]

theorem find?_namesInterface (points : PointsTo pointers attrs) :
    Option.Rel (fun pointer attr => ∃ behind, pointer = attr.bytes ++ behind)
      (pointers.find? fun pointer => NamesInterface pointer) (interfaceName attrs) := by
  unfold interfaceName
  induction points with
  | nil => exact .none
  | @cons pointer attr pointers attrs points rest inductionHypothesis =>
      obtain ⟨behind, rfl⟩ := points
      have names := namesInterface_append attr behind
      by_cases chosen : attr.type = iflaIfname ∧ attr.payload ≠ []
      · rw [List.find?_cons_of_pos (by simpa using names.mpr chosen),
          List.find?_cons_of_pos (by simpa using chosen)]
        exact .some ⟨behind, rfl⟩
      · rw [List.find?_cons_of_neg (by simpa using fun named => chosen (names.mp named)),
          List.find?_cons_of_neg (by simpa using chosen)]
        exact inductionHypothesis

end Pointers

/-- A message long enough for the structure of its kind, with a list of attributes behind it. -/
structure EventKind.Carries (kind : EventKind) (message : Message) (attrs : List Attribute) :
    Prop where
  decodes : kind.Decodes (nlmsgType message.bytes)
  enough : nlmsgLength kind.infoSize ≤ nlmsgLen message.bytes
  area : AreaOf ((nlmsgData message.bytes).drop (nlmsgAlign kind.infoSize)) attrs

/-- The fixed structure of a message. -/
def EventKind.fixed (kind : EventKind) (message : Message) : Bytes :=
  (nlmsgData message.bytes).take kind.infoSize

namespace EventKind

variable {kind : EventKind} {message : Message}

theorem length_fixed (enough : nlmsgLength kind.infoSize ≤ nlmsgLen message.bytes) :
    (kind.fixed message).length = kind.infoSize := by
  rw [fixed, List.length_take, Nat.min_eq_left]
  exact infoSize_le_length kind enough

theorem nlmsgData_eq_fixed (kind : EventKind) (message : Message) (behind : Bytes) :
    nlmsgData (message.bytes ++ behind) =
      kind.fixed message ++ ((nlmsgData message.bytes).drop kind.infoSize ++ behind) := by
  rw [nlmsgData_append, fixed, ← List.append_assoc, List.take_append_drop]

end EventKind

namespace EventKind.Carries

variable {kind : EventKind} {message : Message} {attrs : List Attribute}

theorem pointsTo (carries : kind.Carries message attrs) (short : message.bytes.length < 2 ^ 31)
    (behind : Bytes) : PointsTo (attributes kind.infoSize (message.bytes ++ behind)) attrs := by
  obtain ⟨left, -⟩ := attributes_behind kind message [] short carries.enough
  rw [List.append_nil] at left
  have bound : ((nlmsgData message.bytes).drop (nlmsgAlign kind.infoSize)).length < 2 ^ 31 := by
    simp only [nlmsgData_eq, List.length_drop]
    omega
  have visited : PointsTo (attributes kind.infoSize message.bytes) attrs := by
    unfold attributes
    rw [left]
    exact attributesFrom_areaOf carries.area bound (by simp)
  rw [attributes_append kind message behind short carries.enough]
  exact PointsTo.append visited behind

end EventKind.Carries

section Decoding

variable {message : Message} {attrs : List Attribute}

theorem LinkEvent.fromPayload_eq (carries : EventKind.link.Carries message attrs)
    (short : message.bytes.length < 2 ^ 31)
    (wellFormed : EventKind.link.ListWellFormed (EventKind.link.fixed message) attrs)
    (type : LinkEvent.Type) (behind : Bytes) :
    LinkEvent.fromPayload type (message.bytes ++ behind) (nlmsgData (message.bytes ++ behind)) =
      LinkEvent.ofAttributes type (EventKind.link.fixed message) attrs := by
  have size : (EventKind.link.fixed message).length = 16 := EventKind.length_fixed carries.enough
  have length := nlmsgLen_append behind message.header_le
  have name : extractIfname (message.bytes ++ behind) =
      ((interfaceName attrs).map fun attr => cString attr.payload).getD [] := by
    rw [extractIfname_eq _ (by rw [length]; exact carries.enough)]
    have found := find?_namesInterface (carries.pointsTo short behind)
    simp only [EventKind.infoSize] at found
    cases chosen : interfaceName attrs with
    | none =>
        rw [chosen] at found
        rw [eq_none_of_rel found]
        rfl
    | some attr =>
        rw [chosen] at found
        obtain ⟨pointer, pointed, after, rfl⟩ := exists_of_rel_some found
        rw [pointed]
        have names : attr.type = iflaIfname ∧ attr.payload ≠ [] := by
          simpa using List.find?_some chosen
        have terminated := wellFormed.strings attr (List.mem_of_find?_eq_some chosen)
          (by simp [EventKind.stringTypes, names.1]) names.2
        simp only [Option.map_some, Option.getD_some]
        rw [attr.rtaData_append, cString_append after terminated, trimString_cString]
  rw [EventKind.link.nlmsgData_eq_fixed]
  simp (disch := omega) only [LinkEvent.fromPayload, LinkEvent.ofAttributes, ifiIndex, ifiFlags,
    ifiChange, field_append, name]

theorem AddressEvent.fromPayload_eq (carries : EventKind.address.Carries message attrs)
    (short : message.bytes.length < 2 ^ 31)
    (wellFormed : EventKind.address.ListWellFormed (EventKind.address.fixed message) attrs)
    (type : AddressEvent.Type) (behind : Bytes) :
    AddressEvent.fromPayload type (message.bytes ++ behind)
        (nlmsgData (message.bytes ++ behind)) =
      AddressEvent.ofAttributes type (EventKind.address.fixed message) attrs := by
  have size : (EventKind.address.fixed message).length = 8 := EventKind.length_fixed carries.enough
  have info := EventKind.address.nlmsgData_eq_fixed message behind
  have family : ifaFamily (nlmsgData (message.bytes ++ behind)) =
      ifaFamily (EventKind.address.fixed message) := by
    rw [info]
    exact field_append _ (by omega)
  have strings : forEachAttr sizeofIfaddrmsg (message.bytes ++ behind)
      (some (nlmsgData (message.bytes ++ behind)))
        (AddressEvent.onAttr (ifaFamily (EventKind.address.fixed message))) {} =
      AddressStrings.ofAttributes (ifaFamily (EventKind.address.fixed message)) attrs := by
    have points := carries.pointsTo short behind
    have holds (type : Nat) (listed : type ∈ EventKind.address.addressTypes) :
        ∀ attr ∈ attrs, attr.type = type →
          addressSize (ifaFamily (EventKind.address.fixed message)) ≤ attr.payload.length :=
      fun attr member own => wellFormed.addresses attr member (own ▸ listed)
    have terminated : ∀ attr ∈ attrs, attr.type = ifaLabel →
        attr.payload ≠ [] → (0 : UInt8) ∈ attr.payload :=
      fun attr member own => wellFormed.strings attr member (own ▸ by decide)
    rw [forEachAttr_eq_foldl, AddressEvent.foldl_onAttr]
    simp only [EventKind.infoSize] at points
    rw [lastValue_attributeAddress points (holds ifaLocal (by decide)),
      lastValue_attributeAddress points (holds ifaAddress (by decide)),
      lastValue_attributeString points terminated]
    rfl
  simp only [AddressEvent.fromPayload, AddressEvent.ofAttributes]
  rw [family, strings, info]
  simp (disch := omega) only [ifaPrefixlen, ifaScope, ifaFlags, ifaIndex, field_append]

theorem RouteEvent.fromPayload_eq (carries : EventKind.route.Carries message attrs)
    (short : message.bytes.length < 2 ^ 31)
    (wellFormed : EventKind.route.ListWellFormed (EventKind.route.fixed message) attrs)
    (type : RouteEvent.Type) (behind : Bytes) :
    RouteEvent.fromPayload type (message.bytes ++ behind) (nlmsgData (message.bytes ++ behind)) =
      RouteEvent.ofAttributes type (EventKind.route.fixed message) attrs := by
  have size : (EventKind.route.fixed message).length = 12 := EventKind.length_fixed carries.enough
  have fixed : RouteEvent.fixed type (nlmsgData (message.bytes ++ behind)) =
      RouteEvent.fixed type (EventKind.route.fixed message) := by
    rw [EventKind.route.nlmsgData_eq_fixed, RouteEvent.fixed_append _ (by omega)]
  have points := carries.pointsTo short behind
  have holds (type : Nat) (listed : type ∈ EventKind.route.addressTypes) :
      ∀ attr ∈ attrs, attr.type = type →
        addressSize (rtmFamily (EventKind.route.fixed message)) ≤ attr.payload.length :=
    fun attr member own => wellFormed.addresses attr member (own ▸ listed)
  simp only [EventKind.infoSize] at points
  rw [RouteEvent.fromPayload, forEachAttr_eq_foldl, fixed, RouteEvent.foldl_onAttr]
  simp only [RouteEvent.fixed, lastValue_attributeUint32 points,
    lastValue_attributeAddress points (holds rtaDst (by decide)),
    lastValue_attributeAddress points (holds rtaSrc (by decide)),
    lastValue_attributeAddress points (holds rtaGateway (by decide)),
    lastValue_attributeAddress points (holds rtaPrefsrc (by decide))]
  by_cases named : decoded rtaOif uint32Value 0 attrs = 0
  · simp [RouteEvent.nameOif, RouteEvent.ofAttributes, RouteEvent.fixed, named]
  · simp [RouteEvent.nameOif, RouteEvent.ofAttributes, RouteEvent.fixed, named]

theorem NeighborEvent.fromPayload_eq (carries : EventKind.neighbor.Carries message attrs)
    (short : message.bytes.length < 2 ^ 31)
    (wellFormed : EventKind.neighbor.ListWellFormed (EventKind.neighbor.fixed message) attrs)
    (type : NeighborEvent.Type) (behind : Bytes) :
    NeighborEvent.fromPayload type (message.bytes ++ behind)
        (nlmsgData (message.bytes ++ behind)) =
      NeighborEvent.ofAttributes type (EventKind.neighbor.fixed message) attrs := by
  have size : (EventKind.neighbor.fixed message).length = 12 :=
    EventKind.length_fixed carries.enough
  have fixed : NeighborEvent.fixed type (nlmsgData (message.bytes ++ behind)) =
      NeighborEvent.fixed type (EventKind.neighbor.fixed message) := by
    rw [EventKind.neighbor.nlmsgData_eq_fixed, NeighborEvent.fixed_append _ (by omega)]
  have points := carries.pointsTo short behind
  have holds : ∀ attr ∈ attrs, attr.type = ndaDst →
      addressSize (ndmFamily (EventKind.neighbor.fixed message)) ≤ attr.payload.length :=
    fun attr member own => wellFormed.addresses attr member (own ▸ by decide)
  simp only [EventKind.infoSize] at points
  rw [NeighborEvent.fromPayload, forEachAttr_eq_foldl, fixed, NeighborEvent.foldl_onAttr]
  simp only [NeighborEvent.fixed, NeighborEvent.ofAttributes, lastValue_attributeHwaddr points,
    lastValue_attributeAddress points holds]

end Decoding

theorem EventKind.fromNlmsghdr_eq {kind : EventKind} {message : Message} {attrs : List Attribute}
    (carries : kind.Carries message attrs) (short : message.bytes.length < 2 ^ 31)
    (wellFormed : kind.ListWellFormed (kind.fixed message) attrs) (behind : Bytes) :
    kind.fromNlmsghdr (message.bytes ++ behind) =
      kind.ofAttributes (nlmsgType message.bytes) (kind.fixed message) attrs := by
  have header : 16 ≤ message.bytes.length := message.header_le
  have type := nlmsgType_append behind header
  have enough : nlmsgLength kind.infoSize ≤ nlmsgLen (message.bytes ++ behind) := by
    rw [nlmsgLen_append behind header]
    exact carries.enough
  have decodes := carries.decodes
  cases kind with
  | link =>
      have known := LinkEvent.typeOf_known.mpr decodes
      rw [← type] at known
      refine (decodeEvent_of_enough known enough).trans ?_
      rw [type]
      exact LinkEvent.fromPayload_eq carries short wellFormed _ behind
  | address =>
      have known := AddressEvent.typeOf_known.mpr decodes
      rw [← type] at known
      refine (decodeEvent_of_enough known enough).trans ?_
      rw [type]
      exact AddressEvent.fromPayload_eq carries short wellFormed _ behind
  | route =>
      have known := RouteEvent.typeOf_known.mpr decodes
      rw [← type] at known
      refine (decodeEvent_of_enough known enough).trans ?_
      rw [type]
      exact RouteEvent.fromPayload_eq carries short wellFormed _ behind
  | neighbor =>
      have known := NeighborEvent.typeOf_known.mpr decodes
      rw [← type] at known
      refine (decodeEvent_of_enough known enough).trans ?_
      rw [type]
      exact NeighborEvent.fromPayload_eq carries short wellFormed _ behind

namespace EventKind

/-- The attribute types a decoder looks at. -/
def attributeTypes : EventKind → List Nat
  | link => [iflaIfname]
  | address => [ifaLocal, ifaAddress, ifaLabel]
  | route => [rtaTable, rtaDst, rtaSrc, rtaGateway, rtaPrefsrc, rtaOif, rtaPriority]
  | neighbor => [ndaDst, ndaLladdr]

/-- Attributes of different types change places, and attributes of other types come in. -/
inductive Rearranged (kind : EventKind) : List Attribute → List Attribute → Prop where
  | refl (attrs : List Attribute) : Rearranged kind attrs attrs
  | swap {first second : Attribute} (different : first.type ≠ second.type)
      (front back : List Attribute) :
      Rearranged kind (front ++ first :: second :: back) (front ++ second :: first :: back)
  | insert {attr : Attribute} (foreign : attr.type ∉ kind.attributeTypes)
      (front back : List Attribute) :
      Rearranged kind (front ++ back) (front ++ attr :: back)
  | trans {first second third : List Attribute} (before : Rearranged kind first second)
      (after : Rearranged kind second third) : Rearranged kind first third

theorem Rearranged.ofKey_eq {kind : EventKind} {attrs others : List Attribute}
    (rearranged : kind.Rearranged attrs others) {type : Nat} (known : type ∈ kind.attributeTypes) :
    ofKey Attribute.type type others = ofKey Attribute.type type attrs := by
  unfold ofKey
  induction rearranged with
  | refl attrs => rfl
  | @swap first second different front back =>
      by_cases isFirst : first.type = type
      · have notSecond : ¬ second.type = type := fun isSecond =>
          different (isFirst.trans isSecond.symm)
        simp [isFirst, notSecond]
      · simp [List.filter_cons, isFirst]
  | @insert attr foreign front back =>
      have other : ¬ attr.type = type := fun same => foreign (same ▸ known)
      simp [other]
  | trans before after first second => exact second.trans first

theorem decoded_congr {Value : Type v} {type : Nat} {decode : Bytes → Value} {default : Value}
    {attrs others : List Attribute}
    (same : ofKey Attribute.type type others = ofKey Attribute.type type attrs) :
    decoded type decode default others = decoded type decode default attrs :=
  lastValue_congr same

theorem interfaceName_congr {attrs others : List Attribute}
    (same : ofKey Attribute.type iflaIfname others = ofKey Attribute.type iflaIfname attrs) :
    interfaceName others = interfaceName attrs := by
  have narrowed (list : List Attribute) : interfaceName list =
      (ofKey Attribute.type iflaIfname list).find? fun attr => attr.payload ≠ [] := by
    rw [interfaceName, ofKey, List.find?_filter]
    simp
  rw [narrowed, narrowed, same]

/-- An event sees the attributes of each type it looks at on their own. -/
theorem ofAttributes_congr {kind : EventKind} {attrs others : List Attribute}
    (same : ∀ type ∈ kind.attributeTypes,
      ofKey Attribute.type type others = ofKey Attribute.type type attrs)
    (nlmsgType : Nat) (info : Bytes) :
    kind.ofAttributes nlmsgType info others = kind.ofAttributes nlmsgType info attrs := by
  cases kind with
  | link =>
      simp only [ofAttributes, LinkEvent.ofAttributes,
        interfaceName_congr (same iflaIfname (by decide))]
  | address =>
      have strings (family : Nat) : AddressStrings.ofAttributes family others =
          AddressStrings.ofAttributes family attrs := by
        simp only [AddressStrings.ofAttributes, decoded_congr (same ifaLocal (by decide)),
          decoded_congr (same ifaAddress (by decide)), decoded_congr (same ifaLabel (by decide))]
      simp only [ofAttributes, AddressEvent.ofAttributes]
      rw [strings]
  | route =>
      simp only [ofAttributes, RouteEvent.ofAttributes, decoded_congr (same rtaTable (by decide)),
        decoded_congr (same rtaDst (by decide)), decoded_congr (same rtaSrc (by decide)),
        decoded_congr (same rtaGateway (by decide)), decoded_congr (same rtaPrefsrc (by decide)),
        decoded_congr (same rtaOif (by decide)), decoded_congr (same rtaPriority (by decide))]
  | neighbor =>
      simp only [ofAttributes, NeighborEvent.ofAttributes,
        decoded_congr (same ndaDst (by decide)), decoded_congr (same ndaLladdr (by decide))]

theorem mem_attributeTypes (kind : EventKind) :
    kind.addressTypes ⊆ kind.attributeTypes ∧ kind.stringTypes ⊆ kind.attributeTypes := by
  cases kind <;> decide

theorem ListWellFormed.rearranged {kind : EventKind} {info : Bytes}
    {attrs others : List Attribute} (wellFormed : kind.ListWellFormed info attrs)
    (rearranged : kind.Rearranged attrs others) : kind.ListWellFormed info others := by
  have back : ∀ attr ∈ others, attr.type ∈ kind.attributeTypes → attr ∈ attrs := by
    intro attr member known
    have inside : attr ∈ ofKey Attribute.type attr.type others :=
      List.mem_filter.mpr ⟨member, by simp⟩
    rw [rearranged.ofKey_eq known] at inside
    exact (List.mem_filter.mp inside).1
  obtain ⟨addresses, strings⟩ := kind.mem_attributeTypes
  constructor
  · intro attr member typed
    exact wellFormed.addresses attr (back attr member (addresses typed)) typed
  · intro attr member typed
    exact wellFormed.strings attr (back attr member (strings typed)) typed

end EventKind

/-- The event is the fixed structure and the last attribute of each type, so rearranging
the list does not change it; the text of a link-layer address stands for its bytes. -/
theorem event_of_last_attributes (kind : EventKind) {message : Message} {attrs : List Attribute}
    (carries : kind.Carries message attrs) (short : message.bytes.length < 2 ^ 31)
    (wellFormed : kind.ListWellFormed (kind.fixed message) attrs) :
    (∀ behind, kind.fromNlmsghdr (message.bytes ++ behind) =
      kind.ofAttributes (nlmsgType message.bytes) (kind.fixed message) attrs) ∧
    (∀ (other : Message) (others : List Attribute), kind.Carries other others →
      other.bytes.length < 2 ^ 31 → nlmsgType other.bytes = nlmsgType message.bytes →
      kind.fixed other = kind.fixed message → kind.Rearranged attrs others →
      ∀ behind, kind.fromNlmsghdr (other.bytes ++ behind) = kind.fromNlmsghdr message.bytes) ∧
    ∀ payload, hwaddrBytes (hwaddrText payload) = payload := by
  refine ⟨EventKind.fromNlmsghdr_eq carries short wellFormed, ?_, hwaddrBytes_hwaddrText⟩
  intro other others otherCarries otherShort sameType sameFixed rearranged behind
  have otherWellFormed : kind.ListWellFormed (kind.fixed other) others := by
    rw [sameFixed]
    exact wellFormed.rearranged rearranged
  have decodedMessage := EventKind.fromNlmsghdr_eq carries short wellFormed []
  rw [List.append_nil] at decodedMessage
  calc kind.fromNlmsghdr (other.bytes ++ behind)
      = kind.ofAttributes (nlmsgType other.bytes) (kind.fixed other) others :=
        EventKind.fromNlmsghdr_eq otherCarries otherShort otherWellFormed behind
    _ = kind.ofAttributes (nlmsgType message.bytes) (kind.fixed message) others := by
        rw [sameType, sameFixed]
    _ = kind.ofAttributes (nlmsgType message.bytes) (kind.fixed message) attrs :=
        EventKind.ofAttributes_congr (fun _ => rearranged.ofKey_eq) _ _
    _ = kind.fromNlmsghdr message.bytes := decodedMessage.symm

theorem small_ipv4 : 4 + ([10, 0, 0, 7] : Bytes).length < 2 ^ 16 := by decide

/-- `10.0.0.7` and two link-layer addresses, the second of which counts. -/
def neighborAttributes : List Attribute :=
  [.build ndaLladdr [0xaa] (by decide), .build ndaDst [10, 0, 0, 7] small_ipv4,
    .build ndaLladdr [2, 0x5f] (by decide)]

def neighborMessage : Message :=
  Message.build rtmNewneigh 0 7 0
    ([2, 0, 0, 0, 3, 0, 0, 0, 2, 0, 0, 1] ++ Records.Format.encode neighborAttributes) (by decide)

theorem event_of_last_attributes_neighborMessage :
    NeighborEvent.fromNlmsghdr (neighborMessage.bytes ++ []) =
      { type := .newNeighbor, index := 3, family := afInet, state := 2, flags := 0,
        neighborType := 1, address := "10.0.0.7".toList.map Char.toUInt8,
        lladdr := "02:5f".toList.map Char.toUInt8 } := by
  have carries : EventKind.neighbor.Carries neighborMessage neighborAttributes :=
    ⟨by decide, by decide, [], by decide, by decide⟩
  have wellFormed : EventKind.neighbor.ListWellFormed
      (EventKind.neighbor.fixed neighborMessage) neighborAttributes :=
    ⟨by decide, by decide⟩
  exact ((event_of_last_attributes .neighbor carries (by decide) wellFormed).1 []).trans
    (by decide +kernel)

end Rtaco
