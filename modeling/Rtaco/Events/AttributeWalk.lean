import Rtaco.Events.Decoders
import Rtaco.Library.Loop

/-!
# The loops over the attributes

`for_each_attr` and `extract_ifname` as the loops the source writes, with no bound
on their steps. Both step a pointer and the `int` of bytes that is left, and both
visit the longest front of well-formed attributes.
-/

namespace Rtaco

open Netlink Loop

universe u

variable {State : Type u}

/-- The attribute pointer and the `int` of bytes left that `RTA_NEXT` steps. -/
abbrev AttrCursor := Bytes × Int

namespace AttrCursor

def Ok (cursor : AttrCursor) : Prop := RtaOk cursor.1 cursor.2

def next (cursor : AttrCursor) : AttrCursor := rtaNext cursor.1 cursor.2

/-- The first attribute behind a `MsgT` of the given size. -/
def first (size : Nat) (header info : Bytes) : AttrCursor :=
  (info.drop (nlmsgAlign size), attrLength size header)

end AttrCursor

/-- The body of the loop in `for_each_attr`, which no call of `fn` leaves. -/
def callBody (fn : State → Bytes → State) (state : State) (cursor : AttrCursor) :
    State × Option Empty :=
  (fn state cursor.1, none)

/-- The pointers `for_each_attr` calls `fn` with, and the state that leaves. -/
inductive ForEachAttr (size : Nat) (header : Bytes) (fn : State → Bytes → State) :
    Option Bytes → State → List Bytes → State → Prop where
  | null {state : State} : ForEachAttr size header fn none state [] state
  | empty {info : Bytes} {state : State} (short : attrLength size header ≤ 0) :
      ForEachAttr size header fn (some info) state [] state
  | loop {info : Bytes} {state finish : State} {visited : List AttrCursor}
      (long : ¬ attrLength size header ≤ 0)
      (runs : Runs AttrCursor.Ok AttrCursor.next (callBody fn) state
        (AttrCursor.first size header info) visited (.running finish)) :
      ForEachAttr size header fn (some info) state (visited.map Prod.fst) finish

/-- The body of the loop in `extract_ifname`. -/
def ifnameBody (_ : Unit) (cursor : AttrCursor) : Unit × Option Bytes :=
  if rtaType cursor.1 ≠ iflaIfname then ((), none)
  else if toSize (rtaPayload cursor.1) = 0 then ((), none)
  else ((), some (trimString (cString (rtaData cursor.1))))

/-- The pointers `extract_ifname` inspects, and the name it returns. -/
inductive ExtractIfname (header : Bytes) : List Bytes → Bytes → Prop where
  | short (tooShort : nlmsgLen header < nlmsgLength sizeofIfinfomsg) :
      ExtractIfname header [] []
  | empty (enough : ¬ nlmsgLen header < nlmsgLength sizeofIfinfomsg)
      (short : attrLength sizeofIfinfomsg header ≤ 0) : ExtractIfname header [] []
  | unnamed {inspected : List AttrCursor}
      (enough : ¬ nlmsgLen header < nlmsgLength sizeofIfinfomsg)
      (long : ¬ attrLength sizeofIfinfomsg header ≤ 0)
      (runs : Runs AttrCursor.Ok AttrCursor.next ifnameBody ()
        (AttrCursor.first sizeofIfinfomsg header (nlmsgData header)) inspected (.running ())) :
      ExtractIfname header (inspected.map Prod.fst) []
  | named {inspected : List AttrCursor} {name : Bytes}
      (enough : ¬ nlmsgLen header < nlmsgLength sizeofIfinfomsg)
      (long : ¬ attrLength sizeofIfinfomsg header ≤ 0)
      (runs : Runs AttrCursor.Ok AttrCursor.next ifnameBody ()
        (AttrCursor.first sizeofIfinfomsg header (nlmsgData header)) inspected
        (.returned name)) :
      ExtractIfname header (inspected.map Prod.fst) name

/-- The attribute at an offset has a length of its own that fits in the area. -/
def WellFormedAt (area : Bytes) (length offset : Nat) : Prop :=
  4 ≤ rtaLen (area.drop offset) ∧ offset + rtaLen (area.drop offset) ≤ length

instance (area : Bytes) (length offset : Nat) : Decidable (WellFormedAt area length offset) :=
  inferInstanceAs (Decidable (_ ∧ _))

def followingOffset (area : Bytes) (offset : Nat) : Nat :=
  offset + rtaAlign (rtaLen (area.drop offset))

/-- The longest front of well-formed attributes of an area. -/
structure MaximalFront (area : Bytes) (length : Nat) (offsets : List Nat) : Prop where
  starts : ∀ offset ∈ offsets.head?, offset = 0
  follows : offsets.IsChain fun offset following => following = followingOffset area offset
  aligned : ∀ offset ∈ offsets, 4 ∣ offset
  increasing : offsets.Pairwise (· < ·)
  wellFormed : ∀ offset ∈ offsets, WellFormedAt area length offset
  apart : offsets.Pairwise fun offset later => offset + rtaLen (area.drop offset) ≤ later
  stops : ¬ WellFormedAt area length (finish (followingOffset area) 0 offsets)

variable {area : Bytes} {length : Nat}

theorem followingOffset_eq (area : Bytes) (offset : Nat) :
    followingOffset area offset = offset + (rtaLen (area.drop offset) + 3) / 4 * 4 := by
  rw [followingOffset, rtaAlign_eq]

theorem maximalFront_of_walks {offsets : List Nat}
    (walks : Walks (WellFormedAt area length) (followingOffset area) 0 offsets) :
    MaximalFront area length offsets := by
  have wellFormed := walks.guard_of_mem
  have apart : offsets.Pairwise fun offset later =>
      offset + rtaLen (area.drop offset) ≤ later := by
    apply @List.IsChain.pairwise _ _ _ ⟨fun first second => by omega⟩
    apply walks.isChain.imp
    intro offset following follows
    rw [follows, followingOffset_eq]
    omega
  refine ⟨walks.head, walks.isChain, ?_, ?_, wellFormed, apart, walks.ended⟩
  · apply walks.invariant _ (Nat.dvd_zero 4)
    intro offset aligned _
    rw [followingOffset_eq]
    omega
  · apply apart.imp_of_mem
    intro offset later member _ behind
    have enough := (wellFormed offset member).1
    omega

theorem exists_walk (area : Bytes) (length : Nat) :
    ∃ offsets, Walks (WellFormedAt area length) (followingOffset area) 0 offsets ∧
      offsets.length ≤ length := by
  apply @Walks.exists_of_measure _ _ _ _ (fun _ => True) (fun offset => length - offset)
  · rintro offset - ⟨enough, fits⟩
    rw [followingOffset_eq]
    exact ⟨trivial, by omega⟩
  · trivial

/-- The cursor of the loops when the attribute at an offset comes next. -/
def cursorAt (area : Bytes) (length offset : Nat) : AttrCursor :=
  (area.drop offset, length - offset)

theorem cursorAt_ok_iff (area : Bytes) (length offset : Nat) :
    (cursorAt area length offset).Ok ↔ WellFormedAt area length offset := by
  change RtaOk (area.drop offset) (length - offset) ↔ _
  unfold RtaOk WellFormedAt sizeofRtattr
  omega

/-- `RTA_NEXT` moves to the following offset, also where the length turns negative. -/
theorem cursorAt_next (short : length ≤ 65536) {offset : Nat}
    (wellFormed : WellFormedAt area length offset) :
    cursorAt area length (followingOffset area offset) =
      (cursorAt area length offset).next := by
  obtain ⟨enough, fits⟩ := wellFormed
  have exact : toInt32 ((length : Int) - offset - (rtaAlign (rtaLen (area.drop offset)) : Nat)) =
      length - offset - (rtaAlign (rtaLen (area.drop offset)) : Nat) := by
    rw [rtaAlign_eq]
    apply toInt32_eq <;> omega
  simp only [cursorAt, AttrCursor.next, rtaNext, exact, followingOffset, List.drop_drop]
  congr 1
  omega

theorem walks_cursorAt (short : length ≤ 65536) {offsets : List Nat}
    (walks : Walks (WellFormedAt area length) (followingOffset area) 0 offsets) :
    Walks AttrCursor.Ok AttrCursor.next (cursorAt area length 0)
      (offsets.map (cursorAt area length)) := by
  apply @Walks.map _ _ _ _ _ _ _ _ (fun _ => True) (cursorAt area length) _ _ walks trivial
  · intro offset _
    exact cursorAt_ok_iff area length offset
  · intro offset _ wellFormed
    exact ⟨trivial, cursorAt_next short wellFormed⟩

/-- The pointers to the attributes at the given offsets. -/
def pointersAt (area : Bytes) (offsets : List Nat) : List Bytes :=
  offsets.map fun offset => area.drop offset

theorem map_fst_cursorAt (area : Bytes) (length : Nat) (offsets : List Nat) :
    (offsets.map (cursorAt area length)).map Prod.fst = pointersAt area offsets := by
  rw [List.map_map]
  rfl

/-- The bounded recursion visits what the loop visits. -/
theorem attributesFrom_of_walks {cursor : AttrCursor} {visited : List AttrCursor}
    (walks : Walks AttrCursor.Ok AttrCursor.next cursor visited) {fuel : Nat}
    (enough : visited.length ≤ fuel) :
    attributesFrom fuel cursor.1 cursor.2 = visited.map Prod.fst := by
  induction walks generalizing fuel with
  | @stop cursor ended =>
      cases fuel with
      | zero => rfl
      | succ fuel => exact if_neg ended
  | @move cursor visited enters later inductionHypothesis =>
      cases fuel with
      | zero => simp at enough
      | succ fuel =>
          rw [List.length_cons] at enough
          have ok : RtaOk cursor.1 cursor.2 := enters
          rw [attributesFrom, if_pos ok, List.map_cons]
          exact congrArg _ (inductionHypothesis (by omega))

section Area

variable (kind : EventKind) {header info : Bytes}

/-- The number of attribute bytes a header announces. -/
def areaLength (kind : EventKind) (header : Bytes) : Nat :=
  nlmsgLen header - nlmsgLength kind.infoSize

/-- The offsets of the well-formed attributes behind the fixed structure. -/
def AreaWalk (kind : EventKind) (header info : Bytes) (offsets : List Nat) : Prop :=
  Walks (WellFormedAt (info.drop kind.infoSize) (areaLength kind header))
    (followingOffset (info.drop kind.infoSize)) 0 offsets

theorem infoSize_aligned : nlmsgAlign kind.infoSize = kind.infoSize := by
  cases kind <;> rfl

theorem areaLength_le (size : nlmsgLen header ≤ 65536) : areaLength kind header ≤ 65536 :=
  le_trans (Nat.sub_le _ _) size

theorem attrLength_eq (size : nlmsgLen header ≤ 65536)
    (enough : nlmsgLength kind.infoSize ≤ nlmsgLen header) :
    attrLength kind.infoSize header = areaLength kind header := by
  have small : nlmsgLength kind.infoSize ≤ 32 := by
    cases kind <;> decide
  unfold attrLength areaLength
  rw [toInt32_eq (by omega) (by omega), toInt32_eq (by omega) (by omega)]
  omega

theorem first_eq_cursorAt (size : nlmsgLen header ≤ 65536)
    (enough : nlmsgLength kind.infoSize ≤ nlmsgLen header) :
    AttrCursor.first kind.infoSize header info =
      cursorAt (info.drop kind.infoSize) (areaLength kind header) 0 := by
  unfold AttrCursor.first cursorAt
  rw [attrLength_eq kind size enough, infoSize_aligned]
  simp

theorem enough_of_payload (payload : getMsgPayload kind.infoSize header = some info) :
    nlmsgLength kind.infoSize ≤ nlmsgLen header ∧ nlmsgData header = info := by
  unfold getMsgPayload at payload
  split at payload
  · simp at payload
  · next enough => exact ⟨Nat.le_of_not_lt enough, Option.some.inj payload⟩

theorem cursors_of_areaWalk (size : nlmsgLen header ≤ 65536)
    (payload : getMsgPayload kind.infoSize header = some info) {offsets : List Nat}
    (walks : AreaWalk kind header info offsets) :
    Walks AttrCursor.Ok AttrCursor.next (AttrCursor.first kind.infoSize header info)
      (offsets.map (cursorAt (info.drop kind.infoSize) (areaLength kind header))) := by
  rw [first_eq_cursorAt kind size (enough_of_payload kind payload).1]
  exact walks_cursorAt (areaLength_le kind size) walks

theorem runs_callBody_iff {cursor : AttrCursor} {visited : List AttrCursor}
    (walks : Walks AttrCursor.Ok AttrCursor.next cursor visited) (fn : State → Bytes → State)
    (state finish : State) (looked : List AttrCursor) :
    Runs AttrCursor.Ok AttrCursor.next (callBody fn) state cursor looked (.running finish) ↔
      looked = visited ∧ finish = (visited.map Prod.fst).foldl fn state := by
  have silent : ∀ state cursor, (callBody fn state cursor).2 = none := fun _ _ => rfl
  rw [runs_iff walks, Scan.seen_of_silent silent, Scan.scan_of_silent silent, List.foldl_map,
    Scan.Outcome.running.injEq]
  rfl

theorem no_offset_of_short (size : nlmsgLen header ≤ 65536)
    (payload : getMsgPayload kind.infoSize header = some info) {offsets : List Nat}
    (walks : AreaWalk kind header info offsets)
    (short : attrLength kind.infoSize header ≤ 0) : offsets = [] := by
  rw [attrLength_eq kind size (enough_of_payload kind payload).1] at short
  cases walks with
  | stop ended => rfl
  | move enters later =>
      obtain ⟨enough, fits⟩ := enters
      omega

/-- What `for_each_attr` does is settled by the walk through the attribute area. -/
theorem forEachAttr_iff (size : nlmsgLen header ≤ 65536)
    (payload : getMsgPayload kind.infoSize header = some info) {offsets : List Nat}
    (walks : AreaWalk kind header info offsets)
    (fn : State → Bytes → State) (state finish : State) (visited : List Bytes) :
    ForEachAttr kind.infoSize header fn (some info) state visited finish ↔
      visited = pointersAt (info.drop kind.infoSize) offsets ∧
        finish = visited.foldl fn state := by
  have cursors := cursors_of_areaWalk kind size payload walks
  have pointers := map_fst_cursorAt (info.drop kind.infoSize) (areaLength kind header) offsets
  have loop := runs_callBody_iff cursors fn state finish
  rw [pointers] at loop
  by_cases short : attrLength kind.infoSize header ≤ 0
  · obtain rfl := no_offset_of_short kind size payload walks short
    constructor
    · intro loops
      cases loops with
      | empty => exact ⟨rfl, rfl⟩
      | loop long => exact absurd short long
    · rintro ⟨rfl, rfl⟩
      exact .empty short
  · constructor
    · intro loops
      cases loops with
      | empty shorter => exact absurd shorter short
      | loop long runs =>
          obtain ⟨rfl, finishes⟩ := (loop _).mp runs
          rw [pointers]
          exact ⟨rfl, finishes⟩
    · rintro ⟨rfl, rfl⟩
      have called := ForEachAttr.loop short ((loop _).mpr ⟨rfl, rfl⟩)
      rw [pointers] at called
      exact called

theorem attributes_eq_offsets (size : nlmsgLen header ≤ 65536)
    (payload : getMsgPayload kind.infoSize header = some info) {offsets : List Nat}
    (walks : AreaWalk kind header info offsets) :
    attributes kind.infoSize header = pointersAt (info.drop kind.infoSize) offsets := by
  obtain ⟨enough, rfl⟩ := enough_of_payload kind payload
  obtain ⟨others, same, short⟩ := exists_walk
    ((nlmsgData header).drop kind.infoSize) (areaLength kind header)
  obtain rfl := same.unique walks
  have cursors := cursors_of_areaWalk kind size payload walks
  have fuel : (others.map (cursorAt ((nlmsgData header).drop kind.infoSize)
      (areaLength kind header))).length ≤ (attrLength kind.infoSize header).toNat := by
    rw [List.length_map, attrLength_eq kind size enough]
    exact short
  have visits := attributesFrom_of_walks cursors fuel
  rw [map_fst_cursorAt] at visits
  exact visits

theorem forEachAttr_of_loop (size : nlmsgLen header ≤ 65536)
    (payload : getMsgPayload kind.infoSize header = some info) {fn : State → Bytes → State}
    {state finish : State} {visited : List Bytes}
    (loops : ForEachAttr kind.infoSize header fn (some info) state visited finish) :
    forEachAttr kind.infoSize header (some info) fn state = finish := by
  obtain ⟨offsets, walks, -⟩ := exists_walk (info.drop kind.infoSize) (areaLength kind header)
  obtain ⟨rfl, rfl⟩ := (forEachAttr_iff kind size payload walks fn state finish visited).mp loops
  rw [← attributes_eq_offsets kind size payload walks]
  obtain ⟨-, rfl⟩ := enough_of_payload kind payload
  exact forEachAttr_eq_foldl kind.infoSize header fn state

end Area

/-- `for_each_attr` ends, and calls `fn` for the longest front of well-formed attributes behind
the fixed structure, in order. -/
theorem forEachAttr_visits_maximalFront (kind : EventKind) (header info : Bytes)
    (size : nlmsgLen header ≤ 65536)
    (payload : getMsgPayload kind.infoSize header = some info) :
    ∃ offsets, MaximalFront (info.drop kind.infoSize)
        (nlmsgLen header - nlmsgLength kind.infoSize) offsets ∧
      ∀ (State : Type u) (fn : State → Bytes → State) (state finish : State)
        (visited : List Bytes),
        ForEachAttr kind.infoSize header fn (some info) state visited finish ↔
          visited = pointersAt (info.drop kind.infoSize) offsets ∧
            finish = visited.foldl fn state := by
  obtain ⟨offsets, walks, -⟩ := exists_walk (info.drop kind.infoSize) (areaLength kind header)
  refine ⟨offsets, maximalFront_of_walks walks, ?_⟩
  intro State fn state finish visited
  exact forEachAttr_iff kind size payload walks fn state finish visited

/-- An address message whose only attribute has an unpadded payload of one byte. -/
def unpaddedLabel : Bytes :=
  nlmsghdr 29 rtmNewaddr 0 0 0 ++ ([2, 8, 0, 0, 1, 0, 0, 0] ++ [5, 0, 3, 0, 97])

theorem forEachAttr_visits_unpaddedLabel :
    ∃ offsets, MaximalFront [5, 0, 3, 0, 97] 5 offsets ∧
      ∀ (State : Type) (fn : State → Bytes → State) (state finish : State)
        (visited : List Bytes),
        ForEachAttr sizeofIfaddrmsg unpaddedLabel fn (some (nlmsgData unpaddedLabel)) state
            visited finish ↔
          visited = pointersAt [5, 0, 3, 0, 97] offsets ∧ finish = visited.foldl fn state :=
  forEachAttr_visits_maximalFront .address unpaddedLabel (nlmsgData unpaddedLabel)
    (by decide) (by decide)

theorem attributeString_of_namesInterface {attr : Bytes} (names : NamesInterface attr) :
    attributeString attr = trimString (cString (rtaData attr)) :=
  if_neg names.2

theorem ifnameBody_eq (state : Unit) (cursor : AttrCursor) :
    ifnameBody state cursor =
      (state, if NamesInterface cursor.1 then some (attributeString cursor.1) else none) := by
  by_cases typed : rtaType cursor.1 = iflaIfname
  · by_cases empty : toSize (rtaPayload cursor.1) = 0
    · simp [ifnameBody, NamesInterface, typed, empty]
    · have names : NamesInterface cursor.1 := ⟨typed, empty⟩
      rw [if_pos names, attributeString_of_namesInterface names]
      simp [ifnameBody, typed, empty]
  · simp [ifnameBody, NamesInterface, typed]

/-- The name of the first of the attributes that names the interface. -/
def firstName (attrs : List Bytes) : Bytes :=
  match attrs.find? fun attr => NamesInterface attr with
  | none => []
  | some attr => attributeString attr

theorem firstName_eq (attrs : List Bytes) :
    firstName attrs =
      match attrs.find? fun attr => NamesInterface attr with
      | none => []
      | some attr => trimString (cString (rtaData attr)) := by
  rcases found : attrs.find? (fun attr => NamesInterface attr) with _ | attr
  · simp only [firstName, found]
  · have names : NamesInterface attr := by simpa using List.find?_some found
    simp only [firstName, found]
    exact attributeString_of_namesInterface names

theorem scan_ifnameBody (cursors : List AttrCursor) :
    (Scan.scan ifnameBody () cursors = .running () ∧ firstName (cursors.map Prod.fst) = []) ∨
      Scan.scan ifnameBody () cursors = .returned (firstName (cursors.map Prod.fst)) := by
  induction cursors with
  | nil => exact .inl ⟨rfl, rfl⟩
  | cons cursor cursors inductionHypothesis =>
      by_cases names : NamesInterface cursor.1
      · right
        simp [Scan.scan, ifnameBody_eq, firstName, names]
      · simpa [Scan.scan, ifnameBody_eq, firstName, names] using inductionHypothesis

/-- The loop of `extract_ifname` looks at a front of the walk and returns the first name in it. -/
theorem extractIfname_iff_of_walks {header : Bytes} {visited : List AttrCursor}
    (enough : ¬ nlmsgLen header < nlmsgLength sizeofIfinfomsg)
    (long : ¬ attrLength sizeofIfinfomsg header ≤ 0)
    (walks : Walks AttrCursor.Ok AttrCursor.next
      (AttrCursor.first sizeofIfinfomsg header (nlmsgData header)) visited)
    (inspected : List Bytes) (name : Bytes) :
    ExtractIfname header inspected name ↔
      inspected = (Scan.seen ifnameBody () visited).map Prod.fst ∧
        name = firstName (visited.map Prod.fst) := by
  have loop := @runs_iff _ _ _ _ _ ifnameBody _ _ walks ()
  constructor
  · intro extracts
    cases extracts with
    | short tooShort => exact absurd tooShort enough
    | empty _ short => exact absurd short long
    | unnamed _ _ runs =>
        obtain ⟨rfl, ends⟩ := (loop _ _).mp runs
        rcases scan_ifnameBody visited with ⟨-, nothing⟩ | found
        · exact ⟨rfl, nothing.symm⟩
        · exact nomatch ends.trans found
    | named _ _ runs =>
        obtain ⟨rfl, ends⟩ := (loop _ _).mp runs
        rcases scan_ifnameBody visited with ⟨goesOn, -⟩ | found
        · exact nomatch ends.trans goesOn
        · exact ⟨rfl, Scan.Outcome.returned.inj (ends.trans found)⟩
  · rintro ⟨rfl, rfl⟩
    rcases scan_ifnameBody visited with ⟨goesOn, nothing⟩ | found
    · rw [nothing]
      exact .unnamed enough long ((loop _ _).mpr ⟨rfl, goesOn.symm⟩)
    · exact .named enough long ((loop _ _).mpr ⟨rfl, found.symm⟩)

theorem extractIfname_iff_of_empty {header : Bytes}
    (nothing : nlmsgLen header < nlmsgLength sizeofIfinfomsg ∨
      attrLength sizeofIfinfomsg header ≤ 0) (inspected : List Bytes) (name : Bytes) :
    ExtractIfname header inspected name ↔ inspected = [] ∧ name = [] := by
  constructor
  · intro extracts
    cases extracts with
    | short => exact ⟨rfl, rfl⟩
    | empty => exact ⟨rfl, rfl⟩
    | unnamed enough long => exact absurd nothing (not_or.mpr ⟨enough, long⟩)
    | named enough long => exact absurd nothing (not_or.mpr ⟨enough, long⟩)
  · rintro ⟨rfl, rfl⟩
    by_cases tooShort : nlmsgLen header < nlmsgLength sizeofIfinfomsg
    · exact .short tooShort
    · exact .empty tooShort (nothing.resolve_left tooShort)

theorem exists_extractIfname_iff {header info : Bytes} (size : nlmsgLen header ≤ 65536)
    (payload : getMsgPayload sizeofIfinfomsg header = some info) {offsets : List Nat}
    (walks : AreaWalk .link header info offsets) :
    ∃ looked, looked <+: pointersAt (info.drop sizeofIfinfomsg) offsets ∧
      ∀ inspected name, ExtractIfname header inspected name ↔ inspected = looked ∧
        name = firstName (pointersAt (info.drop sizeofIfinfomsg) offsets) := by
  by_cases short : attrLength sizeofIfinfomsg header ≤ 0
  · obtain rfl := no_offset_of_short .link size payload walks short
    exact ⟨[], List.nil_prefix, extractIfname_iff_of_empty (.inr short)⟩
  · obtain ⟨enough, rfl⟩ := enough_of_payload .link payload
    have cursors := cursors_of_areaWalk .link size payload walks
    have extracts := extractIfname_iff_of_walks (Nat.not_lt.mpr enough) short cursors
    have looked := (Scan.seen_prefix ifnameBody () (offsets.map (cursorAt
      ((nlmsgData header).drop EventKind.link.infoSize) (areaLength .link header)))).map Prod.fst
    rw [map_fst_cursorAt] at extracts looked
    exact ⟨_, looked, extracts⟩

theorem extractIfname_of_loop {header : Bytes} (size : nlmsgLen header ≤ 65536)
    {inspected : List Bytes} {name : Bytes} (loops : ExtractIfname header inspected name) :
    extractIfname header = name := by
  by_cases tooShort : nlmsgLen header < nlmsgLength sizeofIfinfomsg
  · obtain ⟨-, rfl⟩ := (extractIfname_iff_of_empty (.inl tooShort) inspected name).mp loops
    exact if_pos tooShort
  · have payload : getMsgPayload sizeofIfinfomsg header = some (nlmsgData header) :=
      if_neg tooShort
    obtain ⟨offsets, walks, -⟩ := exists_walk
      ((nlmsgData header).drop EventKind.link.infoSize) (areaLength .link header)
    obtain ⟨looked, -, extracts⟩ := exists_extractIfname_iff size payload walks
    obtain ⟨-, rfl⟩ := (extracts inspected name).mp loops
    have visits : attributes sizeofIfinfomsg header =
        pointersAt ((nlmsgData header).drop sizeofIfinfomsg) offsets :=
      attributes_eq_offsets .link size payload walks
    rw [extractIfname_eq header (Nat.le_of_not_lt tooShort), visits]
    exact (firstName_eq _).symm

/-- `extract_ifname` ends, looks at a front of the attributes the generic walk visits, and
returns the string of the first of them that names the interface. -/
theorem extractIfname_agrees (header : Bytes) (size : nlmsgLen header ≤ 65536) :
    ∃ visited inspected : List Bytes,
      (∀ (State : Type u) (fn : State → Bytes → State) (state finish : State)
        (called : List Bytes),
        ForEachAttr sizeofIfinfomsg header fn (getMsgPayload sizeofIfinfomsg header) state
            called finish ↔
          called = visited ∧ finish = visited.foldl fn state) ∧
      inspected <+: visited ∧
      ∀ looked name, ExtractIfname header looked name ↔
        looked = inspected ∧ name = firstName visited := by
  by_cases tooShort : nlmsgLen header < nlmsgLength sizeofIfinfomsg
  · refine ⟨[], [], ?_, List.prefix_refl [], extractIfname_iff_of_empty (.inl tooShort)⟩
    intro State fn state finish called
    have payload : getMsgPayload sizeofIfinfomsg header = none := if_pos tooShort
    rw [payload]
    constructor
    · intro loops
      cases loops with
      | null => exact ⟨rfl, rfl⟩
    · rintro ⟨rfl, rfl⟩
      exact .null
  · have payload : getMsgPayload sizeofIfinfomsg header = some (nlmsgData header) :=
      if_neg tooShort
    obtain ⟨offsets, walks, -⟩ := exists_walk
      ((nlmsgData header).drop EventKind.link.infoSize) (areaLength .link header)
    obtain ⟨looked, inspects, extracts⟩ := exists_extractIfname_iff size payload walks
    refine ⟨_, looked, ?_, inspects, extracts⟩
    intro State fn state finish called
    rw [payload]
    constructor
    · intro loops
      obtain ⟨rfl, rfl⟩ :=
        (forEachAttr_iff .link size payload walks fn state finish called).mp loops
      exact ⟨rfl, rfl⟩
    · rintro ⟨rfl, rfl⟩
      exact (forEachAttr_iff .link size payload walks fn state _ _).mpr ⟨rfl, rfl⟩

/-- A link message with an empty name in front of the name and an attribute that is cut off. -/
def renamedLink : Bytes :=
  nlmsghdr 46 rtmNewlink 0 0 0 ++ (List.replicate 16 0 ++
    [4, 0, 3, 0, 6, 0, 3, 0, 108, 111, 0, 0, 9, 0])

theorem extractIfname_agrees_renamedLink :
    ∃ visited inspected : List Bytes,
      (∀ (State : Type) (fn : State → Bytes → State) (state finish : State)
        (called : List Bytes),
        ForEachAttr sizeofIfinfomsg renamedLink fn (getMsgPayload sizeofIfinfomsg renamedLink)
            state called finish ↔
          called = visited ∧ finish = visited.foldl fn state) ∧
      inspected <+: visited ∧
      ∀ looked name, ExtractIfname renamedLink looked name ↔
        looked = inspected ∧ name = firstName visited :=
  extractIfname_agrees renamedLink (by decide)

end Rtaco
