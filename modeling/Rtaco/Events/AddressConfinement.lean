import Rtaco.Events.AttributeLists

/-!
# Whose bytes an address text shows

`attribute_address` is given the family of the message and a pointer, and reads as
many bytes as the family has. The text is that of the attribute's own payload exactly
if the payload of each attribute that decides a text is long enough.
-/

namespace Rtaco

open Netlink LastValue

/-- The attribute a pointer points to, without what follows it. -/
def Netlink.Attribute.ofPointer (pointer : Bytes) (inside : Inside pointer) : Attribute where
  bytes := pointer.take (rtaLen pointer)
  padding := List.replicate ((rtaLen pointer + 3) / 4 * 4 - rtaLen pointer) 0
  header_le := by
    rw [List.length_take, Nat.min_eq_left inside.2]
    exact inside.1
  size_eq := by
    have split := List.take_append_drop (rtaLen pointer) pointer
    have header : 4 ≤ (pointer.take (rtaLen pointer)).length := by
      rw [List.length_take, Nat.min_eq_left inside.2]
      exact inside.1
    have whole := rtaLen_append (pointer.drop (rtaLen pointer)) header
    rw [split] at whole
    change rtaLen _ = _
    rw [← whole, List.length_take, Nat.min_eq_left inside.2]
  padding_length := by
    rw [List.length_replicate, List.length_take, Nat.min_eq_left inside.2]
    rfl

/-- The attributes that pointers point to. -/
def attributesAt (pointers : List Bytes) : List Attribute :=
  pointers.filterMap fun pointer =>
    if inside : Inside pointer then some (.ofPointer pointer inside) else none

theorem pointsTo_attributesAt {pointers : List Bytes} (inside : ∀ p ∈ pointers, Inside p) :
    PointsTo pointers (attributesAt pointers) := by
  unfold attributesAt
  induction pointers with
  | nil => exact .nil
  | cons pointer pointers inductionHypothesis =>
      have here := inside pointer List.mem_cons_self
      rw [List.filterMap_cons, dif_pos here]
      refine .cons ⟨pointer.drop (rtaLen pointer), (List.take_append_drop _ _).symm⟩ ?_
      exact inductionHypothesis fun p member => inside p (List.mem_cons_of_mem _ member)

theorem map_bytes_attributesAt {pointers : List Bytes} {attrs : List Attribute}
    (points : PointsTo pointers attrs) :
    (attributesAt pointers).map (·.bytes) = attrs.map (·.bytes) := by
  unfold attributesAt
  induction points with
  | nil => rfl
  | @cons pointer attr pointers attrs here rest inductionHypothesis =>
      obtain ⟨behind, rfl⟩ := here
      have size : rtaLen (attr.bytes ++ behind) = attr.bytes.length := attr.size_append behind
      have inside : Inside (attr.bytes ++ behind) := by
        refine ⟨?_, ?_⟩
        · rw [size]
          exact attr.header_le
        · rw [size, List.length_append]
          exact Nat.le_add_right _ _
      rw [List.filterMap_cons, dif_pos inside, List.map_cons, List.map_cons, inductionHypothesis]
      simp [Attribute.ofPointer, size]

namespace EventKind

/-- The attributes `for_each_attr` visits in a message of the kind. -/
def visited (kind : EventKind) (message : Message) : List Attribute :=
  attributesAt (attributes kind.infoSize message.bytes)

theorem attributes_of_short {kind : EventKind} {header : Bytes}
    (short : nlmsgLen header < nlmsgLength kind.infoSize) :
    attributes kind.infoSize header = [] := by
  have size : kind.infoSize ≤ 16 := by cases kind <;> decide
  rw [nlmsgLength_eq] at short
  have none : attrLength kind.infoSize header < 4 := by
    unfold attrLength
    rw [nlmsgLength_eq, toInt32_eq (by omega) (by omega), toInt32_eq (by omega) (by omega)]
    omega
  exact attributesFrom_of_short none

theorem pointsTo_visited (kind : EventKind) {message : Message}
    (short : message.bytes.length < 2 ^ 31)
    (enough : nlmsgLength kind.infoSize ≤ nlmsgLen message.bytes) (behind : Bytes) :
    PointsTo (attributes kind.infoSize (message.bytes ++ behind)) (kind.visited message) := by
  have points := pointsTo_attributesAt (inside_of_mem_attributes kind message short enough)
  rw [attributes_append kind message behind short enough]
  exact PointsTo.append points behind

/-- The address texts of an event. -/
def addressTexts : (kind : EventKind) → kind.Event → List Bytes
  | link, _ => []
  | address, event => [event.address]
  | route, event => [event.dst, event.src, event.gateway, event.prefsrc]
  | neighbor, event => [event.address]

/-- The address texts made of one text for each attribute type. -/
def select (kind : EventKind) (text : Nat → Bytes) : List Bytes :=
  match kind with
  | link => []
  | address => [if text ifaLocal ≠ [] then text ifaLocal else text ifaAddress]
  | route => [text rtaDst, text rtaSrc, text rtaGateway, text rtaPrefsrc]
  | neighbor => [text ndaDst]

/-- The last attributes of the types whose text an event shows. -/
def deciding (kind : EventKind) (attrs : List Attribute) : List Attribute :=
  let last := fun type => (ofKey Attribute.type type attrs).getLast?
  match kind with
  | link => []
  | address => ((last ifaLocal).or (last ifaAddress)).toList
  | route => [rtaDst, rtaSrc, rtaGateway, rtaPrefsrc].filterMap last
  | neighbor => (last ndaDst).toList

end EventKind

/-- The text of a payload that holds an address, and no text of a shorter one. -/
def ownText (family : Nat) (payload : Bytes) : Bytes :=
  if payload.length < addressSize family then [] else addressText family payload

/-- The texts that the payloads of the attributes stand for. -/
def EventKind.ownTexts (kind : EventKind) (family : Nat) (attrs : List Attribute) : List Bytes :=
  kind.select fun type => decoded type (ownText family) [] attrs

namespace EventKind

theorem addressTexts_fromNlmsghdr {kind : EventKind} {header : Bytes}
    (decodes : kind.Decodes (nlmsgType header))
    (enough : nlmsgLength kind.infoSize ≤ nlmsgLen header) :
    kind.addressTexts (kind.fromNlmsghdr header) = kind.select fun type =>
      lastValue rtaType type (attributeAddress · (kind.family (nlmsgData header))) []
        (attributes kind.infoSize header) := by
  cases kind with
  | link => rfl
  | address =>
      have enough : nlmsgLength sizeofIfaddrmsg ≤ nlmsgLen header := enough
      rw [fromNlmsghdr, AddressEvent.fromNlmsghdr,
        decodeEvent_of_enough (AddressEvent.typeOf_known.mpr decodes) enough]
      simp only [AddressEvent.fromPayload]
      rw [forEachAttr_eq_foldl, AddressEvent.foldl_onAttr, infoSize, family]
      generalize attributes sizeofIfaddrmsg header = pointers
      rfl
  | route =>
      have enough : nlmsgLength sizeofRtmsg ≤ nlmsgLen header := enough
      have kept (event : RouteEvent) : route.addressTexts event.nameOif =
          route.addressTexts event := by
        unfold RouteEvent.nameOif
        split_ifs <;> rfl
      rw [fromNlmsghdr, RouteEvent.fromNlmsghdr,
        decodeEvent_of_enough (RouteEvent.typeOf_known.mpr decodes) enough, RouteEvent.fromPayload,
        kept, forEachAttr_eq_foldl, RouteEvent.foldl_onAttr]
      simp only [RouteEvent.fixed, addressTexts, select, family, infoSize]
  | neighbor =>
      have enough : nlmsgLength sizeofNdmsg ≤ nlmsgLen header := enough
      rw [fromNlmsghdr, NeighborEvent.fromNlmsghdr,
        decodeEvent_of_enough (NeighborEvent.typeOf_known.mpr decodes) enough,
        NeighborEvent.fromPayload, forEachAttr_eq_foldl, NeighborEvent.foldl_onAttr]
      simp only [NeighborEvent.fixed, addressTexts, select, family, infoSize]

theorem addressTexts_of_short {kind : EventKind} {header : Bytes}
    (short : nlmsgLen header < nlmsgLength kind.infoSize) :
    kind.addressTexts (kind.fromNlmsghdr header) = kind.select fun _ => [] := by
  cases kind with
  | link => rfl
  | address =>
      have short : nlmsgLen header < nlmsgLength sizeofIfaddrmsg := short
      rw [fromNlmsghdr, AddressEvent.fromNlmsghdr, decodeEvent_of_short short]
      rfl
  | route =>
      have short : nlmsgLen header < nlmsgLength sizeofRtmsg := short
      rw [fromNlmsghdr, RouteEvent.fromNlmsghdr, decodeEvent_of_short short]
      rfl
  | neighbor =>
      have short : nlmsgLen header < nlmsgLength sizeofNdmsg := short
      rw [fromNlmsghdr, NeighborEvent.fromNlmsghdr, decodeEvent_of_short short]
      rfl

end EventKind

theorem addressSize_of_unknown {family : Nat} (unknown : ¬ (family = afInet ∨ family = afInet6)) :
    addressSize family = 0 := by
  obtain ⟨notInet, notInet6⟩ := not_or.mp unknown
  rw [addressSize, if_neg notInet, if_neg notInet6]

section Text

variable {pointers : List Bytes} {attrs : List Attribute} (type family : Nat)
  (points : PointsTo pointers attrs)

include points

theorem texts_of_none (none : (ofKey Attribute.type type attrs).getLast? = none) :
    lastValue rtaType type (attributeAddress · family) [] pointers = [] ∧
      decoded type (ownText family) [] attrs = [] := by
  have last := PointsTo.last points type
  rw [none] at last
  rw [decoded, lastValue, lastValue, none, eq_none_of_rel last]
  exact ⟨rfl, rfl⟩

/-- The shown text reads the payload and what follows it, the own text the payload only. -/
theorem texts_of_last {attr : Attribute}
    (isLast : (ofKey Attribute.type type attrs).getLast? = some attr) :
    ∃ behind, lastValue rtaType type (attributeAddress · family) [] pointers =
        addressText family (attr.payload ++ behind) ∧
      decoded type (ownText family) [] attrs = ownText family attr.payload := by
  have last := PointsTo.last points type
  rw [isLast] at last
  obtain ⟨pointer, found, behind, rfl⟩ := exists_of_rel_some last
  refine ⟨behind, ?_, lastValue_of_last isLast⟩
  rw [lastValue_of_last found, attributeAddress_eq, attr.rtaData_append]

theorem texts_of_holds {attr : Attribute}
    (isLast : (ofKey Attribute.type type attrs).getLast? = some attr)
    (holds : addressSize family ≤ attr.payload.length) :
    lastValue rtaType type (attributeAddress · family) [] pointers =
        addressText family attr.payload ∧
      decoded type (ownText family) [] attrs = addressText family attr.payload := by
  obtain ⟨behind, shown, own⟩ := texts_of_last type family points isLast
  refine ⟨shown.trans (addressText_append behind holds), own.trans ?_⟩
  exact if_neg (Nat.not_lt.mpr holds)

/-- A payload too short for its family is shown as an address made up of other bytes. -/
theorem texts_of_short {attr : Attribute}
    (isLast : (ofKey Attribute.type type attrs).getLast? = some attr)
    (short : attr.payload.length < addressSize family) :
    lastValue rtaType type (attributeAddress · family) [] pointers ≠ [] ∧
      decoded type (ownText family) [] attrs = [] := by
  have known : family = afInet ∨ family = afInet6 := by
    by_contra unknown
    rw [addressSize_of_unknown unknown] at short
    exact Nat.not_lt_zero _ short
  obtain ⟨behind, shown, own⟩ := texts_of_last type family points isLast
  refine ⟨?_, own.trans (if_pos short)⟩
  rw [shown]
  exact addressText_ne_nil known _

theorem texts_eq (holds : ∀ attr ∈ (ofKey Attribute.type type attrs).getLast?,
      addressSize family ≤ attr.payload.length) :
    lastValue rtaType type (attributeAddress · family) [] pointers =
      decoded type (ownText family) [] attrs := by
  cases isLast : (ofKey Attribute.type type attrs).getLast? with
  | none =>
      obtain ⟨shown, own⟩ := texts_of_none type family points isLast
      rw [shown, own]
  | some attr =>
      obtain ⟨shown, own⟩ := texts_of_holds type family points isLast (holds attr isLast)
      rw [shown, own]

end Text

namespace EventKind

section Deciding

variable {pointers : List Bytes} {attrs : List Attribute} {family : Nat}
  (points : PointsTo pointers attrs)

include points

theorem select_eq_ownTexts (kind : EventKind)
    (holds : ∀ attr ∈ kind.deciding attrs, addressSize family ≤ attr.payload.length) :
    kind.select (fun type => lastValue rtaType type (attributeAddress · family) [] pointers) =
      kind.ownTexts family attrs := by
  cases kind with
  | link => rfl
  | address =>
      by_cases known : family = afInet ∨ family = afInet6
      · cases isLast : (ofKey Attribute.type ifaLocal attrs).getLast? with
        | some attr =>
            obtain ⟨shown, own⟩ := texts_of_holds ifaLocal family points isLast
              (holds attr (by simp [deciding, isLast]))
            simp only [select, ownTexts, shown, own, addressText_ne_nil known, ne_eq,
              not_false_eq_true, if_true]
        | none =>
            obtain ⟨shown, own⟩ := texts_of_none ifaLocal family points isLast
            have peer := texts_eq ifaAddress family points fun attr isPeer =>
              holds attr (by simpa [deciding, isLast] using isPeer)
            simp only [select, ownTexts, shown, own, peer]
      · have same (type : Nat) := texts_eq type family points fun attr _ => by
          rw [addressSize_of_unknown known]
          exact Nat.zero_le _
        simp only [ownTexts, same]
  | route =>
      have same (type : Nat) (listed : type ∈ [rtaDst, rtaSrc, rtaGateway, rtaPrefsrc]) :=
        texts_eq type family points fun attr isLast =>
          holds attr (List.mem_filterMap.mpr ⟨type, listed, isLast⟩)
      simp only [select, ownTexts, same rtaDst (by decide), same rtaSrc (by decide),
        same rtaGateway (by decide), same rtaPrefsrc (by decide)]
  | neighbor =>
      have same := texts_eq ndaDst family points fun attr isLast =>
        holds attr (by simpa [deciding] using isLast)
      simp only [select, ownTexts, same]

/-- A deciding attribute that is too short changes the texts, unless it is an `IFA_LOCAL`
whose place another attribute may take. -/
theorem select_ne_ownTexts (kind : EventKind)
    (alone : kind = .address → ofKey Attribute.type ifaLocal attrs ≠ [] →
      ofKey Attribute.type ifaAddress attrs = [])
    {attr : Attribute} (decides : attr ∈ kind.deciding attrs)
    (short : attr.payload.length < addressSize family) :
    kind.select (fun type => lastValue rtaType type (attributeAddress · family) [] pointers) ≠
      kind.ownTexts family attrs := by
  intro same
  cases kind with
  | link => cases decides
  | address =>
      cases isLocal : (ofKey Attribute.type ifaLocal attrs).getLast? with
      | some first =>
          have isFirst : attr = first := by simpa [deciding, isLocal] using decides
          subst isFirst
          have others : ofKey Attribute.type ifaLocal attrs ≠ [] := by
            intro none
            rw [none] at isLocal
            cases isLocal
          obtain ⟨shown, own⟩ := texts_of_short ifaLocal family points isLocal short
          obtain ⟨-, peer⟩ := texts_of_none ifaAddress family points
            (List.getLast?_eq_none_iff.mpr (alone rfl others))
          simp only [select, ownTexts, own, peer, ne_eq, shown, not_false_eq_true, if_true,
            not_true_eq_false, if_false, List.cons.injEq, and_true] at same
      | none =>
          have isPeer : (ofKey Attribute.type ifaAddress attrs).getLast? = some attr := by
            simpa [deciding, isLocal] using decides
          obtain ⟨shownLocal, ownLocal⟩ := texts_of_none ifaLocal family points isLocal
          obtain ⟨shown, own⟩ := texts_of_short ifaAddress family points isPeer short
          simp only [select, ownTexts, shownLocal, ownLocal, ne_eq, not_true_eq_false, if_false,
            List.cons.injEq, and_true] at same
          exact shown (same.trans own)
  | route =>
      obtain ⟨type, listed, isLast⟩ := List.mem_filterMap.mp decides
      obtain ⟨shown, own⟩ := texts_of_short type family points isLast short
      simp only [select, ownTexts, List.cons.injEq, and_true] at same
      obtain ⟨dst, src, gateway, prefsrc⟩ := same
      simp only [List.mem_cons, List.not_mem_nil, or_false] at listed
      rcases listed with rfl | rfl | rfl | rfl
      · exact shown (dst.trans own)
      · exact shown (src.trans own)
      · exact shown (gateway.trans own)
      · exact shown (prefsrc.trans own)
  | neighbor =>
      have isLast : (ofKey Attribute.type ndaDst attrs).getLast? = some attr := by
        simpa [deciding] using decides
      obtain ⟨shown, own⟩ := texts_of_short ndaDst family points isLast short
      simp only [select, ownTexts, List.cons.injEq, and_true] at same
      exact shown (same.trans own)

end Deciding

theorem family_append (kind : EventKind) {info : Bytes} (rest : Bytes)
    (enough : kind.infoSize ≤ info.length) : kind.family (info ++ rest) = kind.family info := by
  have byte : 0 + 1 ≤ info.length := by
    have positive : 1 ≤ kind.infoSize := by cases kind <;> decide
    omega
  cases kind with
  | link => rfl
  | address => exact field_append rest byte
  | route => exact field_append rest byte
  | neighbor => exact field_append rest byte

theorem addressTexts_eq_select {kind : EventKind} {message : Message}
    (decodes : kind.Decodes (nlmsgType message.bytes))
    (enough : nlmsgLength kind.infoSize ≤ nlmsgLen message.bytes) (behind : Bytes) :
    kind.addressTexts (kind.fromNlmsghdr (message.bytes ++ behind)) = kind.select fun type =>
      lastValue rtaType type (attributeAddress · (kind.family (kind.fixed message))) []
        (attributes kind.infoSize (message.bytes ++ behind)) := by
  have header : 16 ≤ message.bytes.length := message.header_le
  have family : kind.family (nlmsgData (message.bytes ++ behind)) =
      kind.family (kind.fixed message) := by
    rw [kind.nlmsgData_eq_fixed, kind.family_append _ (length_fixed enough).ge]
  rw [addressTexts_fromNlmsghdr (by rwa [nlmsgType_append behind header])
    (by rwa [nlmsgLen_append behind header]), family]

theorem addressTexts_eq_ownTexts {kind : EventKind} {message : Message}
    (short : message.bytes.length < 2 ^ 31) (decodes : kind.Decodes (nlmsgType message.bytes))
    (holds : ∀ attr ∈ kind.deciding (kind.visited message),
      addressSize (kind.family (kind.fixed message)) ≤ attr.payload.length) (behind : Bytes) :
    kind.addressTexts (kind.fromNlmsghdr (message.bytes ++ behind)) =
      kind.ownTexts (kind.family (kind.fixed message)) (kind.visited message) := by
  by_cases enough : nlmsgLength kind.infoSize ≤ nlmsgLen message.bytes
  · rw [addressTexts_eq_select decodes enough]
    exact select_eq_ownTexts (kind.pointsTo_visited short enough behind) kind holds
  · have tooShort := Nat.lt_of_not_le enough
    rw [addressTexts_of_short (by rwa [nlmsgLen_append behind message.header_le]), visited,
      attributes_of_short tooShort]
    rfl

/-- Another message of the same type with the same structure in front and the same deciding
attributes. -/
structure Agrees (kind : EventKind) (message other : Message) : Prop where
  short : other.bytes.length < 2 ^ 31
  type : nlmsgType other.bytes = nlmsgType message.bytes
  fixed : kind.fixed other = kind.fixed message
  deciding : (kind.deciding (kind.visited other)).map (·.bytes) =
    (kind.deciding (kind.visited message)).map (·.bytes)

theorem length_fixed_append_encode (kind : EventKind) (message : Message) (attr : Attribute) :
    16 + (kind.fixed message ++ attr.encode).length < 2 ^ 31 := by
  have size : kind.infoSize ≤ 16 := by cases kind <;> decide
  have fixed : (kind.fixed message).length ≤ kind.infoSize := List.length_take_le _ _
  have encoded : attr.encode.length = (attr.bytes.length + 3) / 4 * 4 := attr.length_encode
  have whole : rtaLen attr.bytes = attr.bytes.length := attr.size_eq
  have bounded := rtaLen_lt attr.bytes
  rw [List.length_append]
  omega

/-- The message with the same structure and a single attribute. -/
def withOnly (kind : EventKind) (message : Message) (attr : Attribute) : Message :=
  Message.build (nlmsgType message.bytes) 0 0 0 (kind.fixed message ++ attr.encode)
    (lt_trans (kind.length_fixed_append_encode message attr) (by decide))

section WithOnly

variable {kind : EventKind} {message : Message} (attr : Attribute)

theorem nlmsgType_withOnly :
    nlmsgType (kind.withOnly message attr).bytes = nlmsgType message.bytes := by
  rw [withOnly, Message.build, nlmsgType_append _ (by simp)]
  exact nlmsgType_nlmsghdr (field_lt 4 2 _) _ _ _ _

theorem nlmsgData_withOnly :
    nlmsgData (kind.withOnly message attr).bytes = kind.fixed message ++ attr.encode :=
  nlmsgData_nlmsghdr _ _ _ _ _ _

theorem length_withOnly :
    (kind.withOnly message attr).bytes.length =
      16 + (kind.fixed message ++ attr.encode).length := by
  rw [withOnly, Message.build, List.length_append, length_nlmsghdr]

variable (enough : nlmsgLength kind.infoSize ≤ nlmsgLen message.bytes)

include enough

theorem fixed_withOnly : kind.fixed (kind.withOnly message attr) = kind.fixed message := by
  rw [fixed, nlmsgData_withOnly, List.take_left' (length_fixed enough)]

theorem withOnly_carries (decodes : kind.Decodes (nlmsgType message.bytes)) :
    kind.Carries (kind.withOnly message attr) [attr] where
  decodes := by rwa [nlmsgType_withOnly]
  enough := by
    have size : nlmsgLen (kind.withOnly message attr).bytes =
        (kind.withOnly message attr).bytes.length := (kind.withOnly message attr).size_eq
    rw [size, length_withOnly, List.length_append, length_fixed enough, nlmsgLength_eq]
    omega
  area := by
    have aligned : nlmsgAlign kind.infoSize = kind.infoSize := by cases kind <;> rfl
    refine ⟨[], ?_, by simp⟩
    rw [nlmsgData_withOnly, aligned, List.drop_left' (length_fixed enough)]
    simp

theorem visited_withOnly (decodes : kind.Decodes (nlmsgType message.bytes)) :
    ∃ copy : Attribute, copy.bytes = attr.bytes ∧
      kind.visited (kind.withOnly message attr) = [copy] := by
  have short : (kind.withOnly message attr).bytes.length < 2 ^ 31 := by
    rw [length_withOnly]
    exact kind.length_fixed_append_encode message attr
  have points := (withOnly_carries attr enough decodes).pointsTo short []
  rw [List.append_nil] at points
  have bytes := map_bytes_attributesAt points
  cases copies : kind.visited (kind.withOnly message attr) with
  | nil =>
      rw [visited] at copies
      rw [copies] at bytes
      cases bytes
  | cons copy rest =>
      rw [visited] at copies
      rw [copies, List.map_cons, List.map_cons, List.map_nil, List.cons.injEq,
        List.map_eq_nil_iff] at bytes
      exact ⟨copy, bytes.1, by rw [bytes.2]⟩

end WithOnly

theorem deciding_address {attrs : List Attribute} {attr : Attribute}
    (decides : attr ∈ address.deciding attrs) :
    address.deciding attrs = [attr] ∧ (attr.type = ifaLocal ∨ attr.type = ifaAddress) := by
  cases isLocal : (ofKey Attribute.type ifaLocal attrs).getLast? with
  | some first =>
      have isFirst : attr = first := by simpa [deciding, isLocal] using decides
      subst isFirst
      exact ⟨by simp [deciding, isLocal], .inl (mem_of_getLast?_ofKey isLocal).2⟩
  | none =>
      have isPeer : (ofKey Attribute.type ifaAddress attrs).getLast? = some attr := by
        simpa [deciding, isLocal] using decides
      exact ⟨by simp [deciding, isLocal, isPeer], .inr (mem_of_getLast?_ofKey isPeer).2⟩

theorem deciding_single {attr : Attribute} (typed : attr.type = ifaLocal ∨ attr.type = ifaAddress) :
    address.deciding [attr] = [attr] := by
  rcases typed with isLocal | isPeer
  · simp [deciding, ofKey, isLocal]
  · simp [deciding, ofKey, isPeer]

/-- A deciding attribute that is too short shows in the texts of a message that agrees. -/
theorem exists_agrees_of_short {kind : EventKind} {message : Message}
    (short : message.bytes.length < 2 ^ 31) (decodes : kind.Decodes (nlmsgType message.bytes))
    {attr : Attribute} (decides : attr ∈ kind.deciding (kind.visited message))
    (tooShort : attr.payload.length < addressSize (kind.family (kind.fixed message))) :
    ∃ other, kind.Agrees message other ∧
      kind.addressTexts (kind.fromNlmsghdr (other.bytes ++ [])) ≠
        kind.ownTexts (kind.family (kind.fixed message)) (kind.visited other) := by
  have enough : nlmsgLength kind.infoSize ≤ nlmsgLen message.bytes := by
    by_contra missing
    rw [visited, attributes_of_short (Nat.lt_of_not_le missing)] at decides
    cases kind <;> cases decides
  by_cases isAddress : kind = .address
  · subst isAddress
    obtain ⟨copy, bytes, alone⟩ := visited_withOnly attr enough decodes
    obtain ⟨decided, typed⟩ := deciding_address decides
    have sameType : copy.type = attr.type := congrArg rtaType bytes
    have samePayload : copy.payload = attr.payload := congrArg rtaData bytes
    rw [← sameType] at typed
    have carries := withOnly_carries attr enough decodes
    have otherShort : (address.withOnly message attr).bytes.length < 2 ^ 31 := by
      rw [length_withOnly]
      exact address.length_fixed_append_encode message attr
    refine ⟨address.withOnly message attr, ⟨otherShort, nlmsgType_withOnly attr,
      fixed_withOnly attr enough, ?_⟩, ?_⟩
    · rw [alone, deciding_single typed, decided, List.map_singleton, List.map_singleton, bytes]
    · rw [addressTexts_eq_select carries.decodes carries.enough, fixed_withOnly attr enough]
      have points := address.pointsTo_visited otherShort carries.enough []
      have decidesAlone : copy ∈ address.deciding [copy] := by
        rw [deciding_single typed]
        exact List.mem_singleton_self copy
      rw [alone] at points ⊢
      refine select_ne_ownTexts points .address ?_ decidesAlone (by rwa [samePayload])
      intro _ isLocal
      rcases typed with own | own
      · simp [ofKey, own]
      · simp [ofKey, own] at isLocal
  · refine ⟨message, ⟨short, rfl, rfl, rfl⟩, ?_⟩
    rw [addressTexts_eq_select decodes enough]
    exact select_ne_ownTexts (kind.pointsTo_visited short enough []) kind
      (fun same => absurd same isAddress) decides tooShort

/-- The texts are those of the deciding attributes' own payloads, whatever the other
attributes are and whatever follows, exactly if those payloads hold addresses. -/
theorem addressTexts_confined_iff (kind : EventKind) {message : Message}
    (short : message.bytes.length < 2 ^ 31) (decodes : kind.Decodes (nlmsgType message.bytes)) :
    (∀ other, kind.Agrees message other → ∀ behind,
      kind.addressTexts (kind.fromNlmsghdr (other.bytes ++ behind)) =
        kind.ownTexts (kind.family (kind.fixed message)) (kind.visited other)) ↔
    ∀ attr ∈ kind.deciding (kind.visited message),
      addressSize (kind.family (kind.fixed message)) ≤ attr.payload.length := by
  constructor
  · intro confined attr decides
    by_contra tooShort
    obtain ⟨other, agrees, differs⟩ :=
      exists_agrees_of_short short decodes decides (Nat.lt_of_not_le tooShort)
    exact differs (confined other agrees [])
  · intro holds other agrees behind
    rw [← agrees.fixed]
    refine addressTexts_eq_ownTexts agrees.short (by rwa [agrees.type]) ?_ behind
    intro attr decides
    have member : attr.bytes ∈ (kind.deciding (kind.visited message)).map (·.bytes) := by
      rw [← agrees.deciding]
      exact List.mem_map_of_mem decides
    obtain ⟨original, decided, same⟩ := List.mem_map.mp member
    have payload : attr.payload = original.payload := congrArg rtaData same.symm
    rw [agrees.fixed, payload]
    exact holds original decided

end EventKind

/-- `RTM_NEWADDR` with the address `10.0.0.7` and an empty `IFA_ADDRESS`, which is not shown. -/
def localAddress : Message :=
  Message.build rtmNewaddr 0 0 0 ([2, 24, 0, 0, 3, 0, 0, 0] ++ Records.Format.encode
    [Attribute.build ifaLocal [10, 0, 0, 7] small_ipv4,
      Attribute.build ifaAddress [] (by decide)]) (by decide)

theorem addressTexts_confined_iff_localAddress :
    EventKind.address.addressTexts
        (EventKind.address.fromNlmsghdr (localAddress.bytes ++ [192, 0, 2, 1])) =
      ["10.0.0.7".toList.map Char.toUInt8] := by
  have texts := (EventKind.addressTexts_confined_iff .address (by decide) (by decide)).mpr
    (show ∀ attr ∈ EventKind.address.deciding (EventKind.address.visited localAddress), _
      by decide +kernel)
  exact (texts localAddress ⟨by decide, rfl, rfl, rfl⟩ [192, 0, 2, 1]).trans (by decide +kernel)

/-- `RTM_NEWADDR` whose only address attribute is empty. -/
def emptyAddress : Message :=
  Message.build rtmNewaddr 0 0 0 ([2, 24, 0, 0, 3, 0, 0, 0] ++
    (Attribute.build ifaAddress [] (by decide)).encode) (by decide)

/-- The four bytes behind an empty attribute are shown as its address. -/
theorem addressTexts_of_following_bytes :
    ¬ ∀ (kind : EventKind) (message : Message), message.bytes.length < 2 ^ 31 →
      kind.Decodes (nlmsgType message.bytes) → ∀ other, kind.Agrees message other → ∀ behind,
        kind.addressTexts (kind.fromNlmsghdr (other.bytes ++ behind)) =
          kind.ownTexts (kind.family (kind.fixed message)) (kind.visited other) := by
  intro confined
  have same := confined .address emptyAddress (by decide) (by decide) emptyAddress
    ⟨by decide, rfl, rfl, rfl⟩ [192, 0, 2, 1]
  revert same
  decide +kernel

end Rtaco
