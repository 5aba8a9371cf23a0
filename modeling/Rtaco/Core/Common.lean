import Mathlib.Data.List.DropRight
import Rtaco.Netlink.InetNtop

/-!
# `nl_common.hxx`

Attribute decoding helpers. A message header is a pointer, so every helper may
see the memory behind the message; the walks are recursions on a bound of the
`int` of attribute bytes that is left.
-/

namespace Rtaco

open Netlink

universe u v

variable {State : Type u}

/-- `std::error_code`. -/
structure ErrorCode where
  value : Int
  deriving DecidableEq

/-- `boost::asio::error::operation_aborted`. -/
abbrev operationAborted : ErrorCode := ⟨125⟩

/-- `boost::asio::error::bad_descriptor`. -/
abbrev badDescriptor : ErrorCode := ⟨9⟩

/-- `std::expected<Result, std::error_code>`. -/
inductive Expected (Result : Type u) where
  | value (result : Result)
  | unexpected (error : ErrorCode)
  deriving DecidableEq

def Expected.map {Result : Type u} {Answer : Type v} (wrap : Result → Answer) :
    Expected Result → Expected Answer
  | value result => .value (wrap result)
  | unexpected error => .unexpected error

def trimString (sv : Bytes) : Bytes := sv.rdropWhile (· == 0)

/-- The `std::string_view` of a `const char*`. -/
def cString (buffer : Bytes) : Bytes := buffer.takeWhile (· != 0)

def attributeString (attr : Bytes) : Bytes :=
  if toSize (rtaPayload attr) = 0 then [] else trimString (cString (rtaData attr))

abbrev inet6Addrstrlen : Nat := 46

def attributeAddress (attr : Bytes) (family : Nat) : Bytes :=
  if family = afInet ∨ family = afInet6 then
    match inetNtop family (rtaData attr) inet6Addrstrlen with
    | none => []
    | some text => trimString (text ++ List.replicate (inet6Addrstrlen - text.length) 0)
  else
    []

def attributeUint32 (attr : Bytes) : Nat :=
  if toSize (rtaPayload attr) < 4 then 0 else field 0 4 (rtaData attr)

def kHex : Bytes :=
  ['0', '1', '2', '3', '4', '5', '6', '7', '8', '9', 'a', 'b', 'c', 'd', 'e', 'f'].map
    Char.toUInt8

def attributeHwaddr (attr : Bytes) : Bytes :=
  let payload := toSize (rtaPayload attr)
  ((rtaData attr).takeD payload 0).zipIdx.flatMap fun (byte, index) =>
    (if index = 0 then [] else [':'.toUInt8]) ++
      [kHex.getD (byte.toNat / 16 % 16) 0, kHex.getD (byte.toNat % 16) 0]

/-- The payload of the header, unless the message is too short for a `MsgT` of
the given size. -/
def getMsgPayload (size : Nat) (header : Bytes) : Option Bytes :=
  if nlmsgLen header < nlmsgLength size then none else some (nlmsgData header)

/-- The attribute bytes behind a `MsgT` of the given size. -/
def attrLength (size : Nat) (header : Bytes) : Int :=
  toInt32 (nlmsgLen header) - toInt32 (nlmsgLength size)

def forEachAttrLoop (fn : State → Bytes → State) : Nat → Bytes → Int → State → State
  | 0, _, _, state => state
  | fuel + 1, attr, length, state =>
      if RtaOk attr length then
        let next := rtaNext attr length
        forEachAttrLoop fn fuel next.1 next.2 (fn state attr)
      else
        state

def forEachAttr (size : Nat) (header : Bytes) (info : Option Bytes)
    (fn : State → Bytes → State) (state : State) : State :=
  match info with
  | none => state
  | some info =>
      let length := attrLength size header
      if length ≤ 0 then state
      else forEachAttrLoop fn length.toNat (info.drop (nlmsgAlign size)) length state

def extractIfnameLoop : Nat → Bytes → Int → Bytes
  | 0, _, _ => []
  | fuel + 1, attr, length =>
      if RtaOk attr length then
        let next := rtaNext attr length
        if rtaType attr ≠ iflaIfname then extractIfnameLoop fuel next.1 next.2
        else if toSize (rtaPayload attr) = 0 then extractIfnameLoop fuel next.1 next.2
        else trimString (cString (rtaData attr))
      else
        []

def extractIfname (header : Bytes) : Bytes :=
  if nlmsgLen header < nlmsgLength sizeofIfinfomsg then []
  else
    let info := nlmsgData header
    let length := attrLength sizeofIfinfomsg header
    if length ≤ 0 then []
    else extractIfnameLoop length.toNat (info.drop (nlmsgAlign sizeofIfinfomsg)) length

def attributesFrom : Nat → Bytes → Int → List Bytes
  | 0, _, _ => []
  | fuel + 1, attr, length =>
      if RtaOk attr length then
        attr :: attributesFrom fuel (rtaNext attr length).1 (rtaNext attr length).2
      else
        []

/-- The attributes behind a `MsgT` of the given size, as pointers. -/
def attributes (size : Nat) (header : Bytes) : List Bytes :=
  attributesFrom (attrLength size header).toNat
    ((nlmsgData header).drop (nlmsgAlign size)) (attrLength size header)

theorem forEachAttrLoop_eq_foldl (fn : State → Bytes → State) (fuel : Nat) (attr : Bytes)
    (length : Int) (state : State) :
    forEachAttrLoop fn fuel attr length state =
      (attributesFrom fuel attr length).foldl fn state := by
  induction fuel generalizing attr length state with
  | zero => rfl
  | succ fuel inductionHypothesis =>
      by_cases ok : RtaOk attr length
      · simp [forEachAttrLoop, attributesFrom, ok, inductionHypothesis]
      · simp [forEachAttrLoop, attributesFrom, ok]

theorem forEachAttr_eq_foldl (size : Nat) (header : Bytes) (fn : State → Bytes → State)
    (state : State) :
    forEachAttr size header (some (nlmsgData header)) fn state =
      (attributes size header).foldl fn state := by
  unfold forEachAttr attributes
  by_cases empty : attrLength size header ≤ 0
  · simp [empty, Int.toNat_of_nonpos empty, attributesFrom]
  · simp only [empty, if_false]
    exact forEachAttrLoop_eq_foldl _ _ _ _ _

/-- The attribute whose payload names the interface. -/
def NamesInterface (attr : Bytes) : Prop :=
  rtaType attr = iflaIfname ∧ toSize (rtaPayload attr) ≠ 0

instance (attr : Bytes) : Decidable (NamesInterface attr) :=
  inferInstanceAs (Decidable (_ ∧ _))

theorem extractIfnameLoop_eq (fuel : Nat) (attr : Bytes) (length : Int) :
    extractIfnameLoop fuel attr length =
      match (attributesFrom fuel attr length).find? fun attr => NamesInterface attr with
      | none => []
      | some attr => trimString (cString (rtaData attr)) := by
  induction fuel generalizing attr length with
  | zero => rfl
  | succ fuel inductionHypothesis =>
      by_cases ok : RtaOk attr length
      · by_cases typed : rtaType attr = iflaIfname
        · by_cases empty : toSize (rtaPayload attr) = 0
          · simp [extractIfnameLoop, attributesFrom, NamesInterface, ok, typed, empty,
              inductionHypothesis]
          · simp [extractIfnameLoop, attributesFrom, NamesInterface, ok, typed, empty]
        · simp [extractIfnameLoop, attributesFrom, NamesInterface, ok, typed,
            inductionHypothesis]
      · simp [extractIfnameLoop, attributesFrom, ok]

/-- The interface name is the first non-empty `IFLA_IFNAME` of the same walk. -/
theorem extractIfname_eq (header : Bytes)
    (enough : nlmsgLength sizeofIfinfomsg ≤ nlmsgLen header) :
    extractIfname header =
      match (attributes sizeofIfinfomsg header).find? fun attr => NamesInterface attr with
      | none => []
      | some attr => trimString (cString (rtaData attr)) := by
  rw [extractIfname, attributes, if_neg (Nat.not_lt.mpr enough)]
  by_cases empty : attrLength sizeofIfinfomsg header ≤ 0
  · simp [empty, Int.toNat_of_nonpos empty, attributesFrom]
  · simp only [empty, if_false]
    rw [extractIfnameLoop_eq]

end Rtaco
