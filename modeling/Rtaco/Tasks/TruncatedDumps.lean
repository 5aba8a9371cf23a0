import Rtaco.Tasks.Datagrams
import Rtaco.Tasks.DumpCompleteness
import Rtaco.Tasks.Framing

/-!
# Dumps of datagrams of any length

`read_loop` tests for a full receive buffer and does nothing about it, so a dump
goes on behind a datagram it could not read to the end and reports success at the
terminator.
-/

namespace Rtaco

open Netlink Scan

section Filters

variable {message : Message} (behind : Bytes)

theorem LinkEvent.fromNlmsghdr_index :
    (LinkEvent.fromNlmsghdr (message.bytes ++ behind)).index =
      (LinkEvent.fromNlmsghdr message.bytes).index := by
  apply decodeEvent_project_append LinkEvent.index
  intro known enough type
  have info : 16 ≤ (nlmsgData message.bytes).length := infoSize_le_length .link enough
  simp only [LinkEvent.fromPayload, ifiIndex]
  rw [nlmsgData_append, field_append behind (by omega)]

theorem AddressEvent.fromNlmsghdr_index :
    (AddressEvent.fromNlmsghdr (message.bytes ++ behind)).index =
      (AddressEvent.fromNlmsghdr message.bytes).index := by
  apply decodeEvent_project_append AddressEvent.index
  intro known enough type
  have info : 8 ≤ (nlmsgData message.bytes).length := infoSize_le_length .address enough
  simp only [AddressEvent.fromPayload, ifaIndex]
  rw [nlmsgData_append, field_append behind (by omega)]

theorem NeighborEvent.onAttr_index (event : NeighborEvent) (attr : Bytes) :
    (event.onAttr attr).index = event.index := by
  unfold NeighborEvent.onAttr
  split_ifs <;> rfl

theorem NeighborEvent.fromNlmsghdr_index :
    (NeighborEvent.fromNlmsghdr (message.bytes ++ behind)).index =
      (NeighborEvent.fromNlmsghdr message.bytes).index := by
  apply decodeEvent_project_append NeighborEvent.index
  intro known enough type
  have info : 12 ≤ (nlmsgData message.bytes).length := infoSize_le_length .neighbor enough
  unfold NeighborEvent.fromPayload
  rw [forEachAttr_eq_foldl, forEachAttr_eq_foldl, foldl_project NeighborEvent.onAttr_index,
    foldl_project NeighborEvent.onAttr_index]
  simp only [NeighborEvent.fixed, ndmIfindex]
  rw [nlmsgData_append, field_append behind (by omega)]

/-- What the filter of the route dump looks at. -/
def RouteEvent.tableAndOif (event : RouteEvent) : Nat × Nat := (event.table, event.oifIndex)

theorem RouteEvent.nameOif_tableAndOif (event : RouteEvent) :
    event.nameOif.tableAndOif = event.tableAndOif := by
  unfold RouteEvent.nameOif
  split_ifs <;> rfl

theorem RouteEvent.onAttr_tableAndOif {attr : Bytes} (inside : Inside attr)
    {first second : RouteEvent} (same : first.tableAndOif = second.tableAndOif) :
    (first.onAttr (attr ++ behind)).tableAndOif = (second.onAttr attr).tableAndOif := by
  obtain ⟨table, oif⟩ := Prod.mk.inj same
  unfold RouteEvent.onAttr
  rw [inside.rtaType_append, inside.attributeUint32_append]
  split_ifs <;> simp [RouteEvent.tableAndOif, table, oif]

theorem RouteEvent.fromNlmsghdr_tableAndOif (short : message.bytes.length < 2 ^ 31) :
    (RouteEvent.fromNlmsghdr (message.bytes ++ behind)).tableAndOif =
      (RouteEvent.fromNlmsghdr message.bytes).tableAndOif := by
  apply decodeEvent_project_append RouteEvent.tableAndOif
  intro known enough type
  have info : 12 ≤ (nlmsgData message.bytes).length := infoSize_le_length .route enough
  have walked : attributes sizeofRtmsg (message.bytes ++ behind) =
      (attributes sizeofRtmsg message.bytes).map (· ++ behind) :=
    attributes_append .route message behind short enough
  have fixed : RouteEvent.fixed type (nlmsgData (message.bytes ++ behind)) =
      RouteEvent.fixed type (nlmsgData message.bytes) := by
    rw [nlmsgData_append, RouteEvent.fixed_append behind info]
  unfold RouteEvent.fromPayload
  rw [RouteEvent.nameOif_tableAndOif, RouteEvent.nameOif_tableAndOif, forEachAttr_eq_foldl,
    forEachAttr_eq_foldl, walked, fixed]
  refine foldl_project_behind ?_ rfl
  intro attr member first second same
  exact RouteEvent.onAttr_tableAndOif behind
    (inside_of_mem_attributes .route message short enough attr member) same

namespace EventKind

theorem passes_append (kind : EventKind) (short : message.bytes.length < 2 ^ 31) :
    kind.Passes (kind.fromNlmsghdr (message.bytes ++ behind)) ↔
      kind.Passes (kind.fromNlmsghdr message.bytes) := by
  cases kind with
  | link =>
      simp only [Passes, fromNlmsghdr]
      rw [LinkEvent.fromNlmsghdr_index]
  | address =>
      simp only [Passes, fromNlmsghdr]
      rw [AddressEvent.fromNlmsghdr_index]
  | route =>
      obtain ⟨table, oif⟩ := Prod.mk.inj (RouteEvent.fromNlmsghdr_tableAndOif behind short)
      simp only [Passes, fromNlmsghdr]
      rw [table, oif]
  | neighbor =>
      simp only [Passes, fromNlmsghdr]
      rw [NeighborEvent.fromNlmsghdr_index]

theorem accepts_append (kind : EventKind) (sequence : Nat)
    (short : message.bytes.length < 2 ^ 31) :
    kind.Accepts sequence (message.bytes ++ behind) ↔ kind.Accepts sequence message.bytes := by
  have header : 16 ≤ message.bytes.length := message.header_le
  unfold Accepts
  rw [nlmsgSeq_append behind header, nlmsgType_append behind header,
    nlmsgLen_append behind header, kind.passes_append behind short]

end EventKind

end Filters

/-- The datagrams a dump receives: those up to the first in which it hears a terminator. -/
def received (sequence : Nat) : List Datagram → List Datagram
  | [] => []
  | datagram :: datagrams =>
      if ∃ message ∈ datagram.heard, Terminates sequence message.bytes then [datagram]
      else datagram :: received sequence datagrams

/-- The first terminator a dump hears. -/
def heardTerminator (sequence : Nat) (buffer : Bytes) (datagrams : List Datagram) :
    Option Bytes :=
  (heardPointers buffer datagrams).find? fun header => Terminates sequence header

namespace EventKind

variable (kind : EventKind) (sequence : Nat)

/-- What a dump returns for any datagrams. -/
theorem readLoop_dump_queue (buffer : Bytes) (datagrams : List Datagram) :
    readLoop (kind.dumpProcessMessage sequence) [] buffer (queue datagrams) =
      match heardTerminator sequence buffer datagrams with
      | none =>
          .waiting (((heardPointers buffer datagrams).filter
            fun header => kind.Accepts sequence header).map kind.fromNlmsghdr)
      | some terminator =>
          .returned (DumpTask.finish terminator ((((heardPointers buffer datagrams).takeWhile
            fun header => ¬ Terminates sequence header).filter
              fun header => kind.Accepts sequence header).map kind.fromNlmsghdr)) := by
  have collects : Collects (kind.dumpProcessMessage sequence) (kind.verdict sequence) :=
    kind.dumpProcessMessage_eq_verdict sequence
  have stops := kind.firstStop?_verdict sequence id (heardPointers buffer datagrams)
  have before := kind.beforeStop_verdict sequence id (heardPointers buffer datagrams)
  have keeps := kind.kept_verdict sequence (id : Bytes → Bytes)
  simp only [id_eq] at stops before keeps
  rw [readLoop_queue, scan_eq _ collects, stops, before, keeps, keeps]
  unfold heardTerminator
  cases (heardPointers buffer datagrams).find? fun header => Terminates sequence header <;> rfl

variable {sequence}

theorem exists_running_iff_of_points {pointers : List Bytes} {messages : List Message}
    (points : List.Forall₂ (fun pointer message => ∃ behind, pointer = message.bytes ++ behind)
      pointers messages) (learned : List kind.Event) :
    (∃ next, scan (kind.dumpProcessMessage sequence) learned pointers = .running next) ↔
      ∀ message ∈ messages, ¬ Terminates sequence message.bytes := by
  apply @exists_running_iff _ _ _ _ _ fun message : Message => Terminates sequence message.bytes
  apply points.imp
  rintro pointer message ⟨behind, rfl⟩ learned
  rw [kind.dump_isSome_iff, Terminates.append_iff]

variable (sequence)

theorem scan_received (learned : List kind.Event) (buffer : Bytes) (datagrams : List Datagram) :
    scan (kind.dumpProcessMessage sequence) learned
        (heardPointers buffer (received sequence datagrams)) =
      scan (kind.dumpProcessMessage sequence) learned (heardPointers buffer datagrams) := by
  induction datagrams generalizing learned buffer with
  | nil => rfl
  | cons datagram datagrams inductionHypothesis =>
      have goesOn := @exists_running_iff_of_points kind sequence _ _ (forall₂_pointers
        datagram.heard (datagram.unread ++
          buffer.drop (datagram.bytes.take maxResponseBytes).length)) learned
      rw [received]
      split_ifs with ends
      · simp only [heardPointers, scan_append]
        rcases outcome : scan (kind.dumpProcessMessage sequence) learned (pointers datagram.heard
          (datagram.unread ++ buffer.drop (datagram.bytes.take maxResponseBytes).length))
          with next | result
        · obtain ⟨message, member, terminates⟩ := ends
          exact absurd terminates (goesOn.mp ⟨next, outcome⟩ message member)
        · rfl
      · simp only [heardPointers, scan_append, inductionHypothesis]

end EventKind

theorem not_terminates_of_mem_dropLast {sequence : Nat} {datagrams : List Datagram} :
    ∀ datagram ∈ (received sequence datagrams).dropLast, ∀ message ∈ datagram.heard,
      ¬ Terminates sequence message.bytes := by
  induction datagrams with
  | nil => simp [received]
  | cons first datagrams inductionHypothesis =>
      rw [received]
      split_ifs with ends
      · simp
      · intro datagram member message inside terminates
        cases later : received sequence datagrams with
        | nil => simp [later] at member
        | cons next others =>
            rw [later, List.dropLast_cons_cons, List.mem_cons] at member
            rcases member with rfl | member
            · exact ends ⟨message, inside, terminates⟩
            · rw [← later] at member
              exact inductionHypothesis datagram member message inside terminates

section Before

variable {sequence : Nat} {first : List Message}

theorem beforeTerminator_append_of_ends
    (ends : ∃ message ∈ first, Terminates sequence message.bytes) (second : List Message) :
    beforeTerminator sequence (first ++ second) = beforeTerminator sequence first := by
  unfold beforeTerminator
  induction first with
  | nil => simp at ends
  | cons message first inductionHypothesis =>
      by_cases here : Terminates sequence message.bytes
      · simp [here]
      · have later : ∃ message ∈ first, Terminates sequence message.bytes := by
          simpa [here] using ends
        simpa [here] using inductionHypothesis later

theorem beforeTerminator_append_of_quiet
    (quiet : ¬ ∃ message ∈ first, Terminates sequence message.bytes) (second : List Message) :
    beforeTerminator sequence (first ++ second) =
      first ++ beforeTerminator sequence second := by
  apply List.takeWhile_append_of_pos
  intro message member
  simpa using fun ends => quiet ⟨message, member, ends⟩

end Before

namespace EventKind

variable (kind : EventKind) (sequence : Nat)

theorem readLoop_received (buffer : Bytes) (datagrams : List Datagram) :
    readLoop (kind.dumpProcessMessage sequence) [] buffer (queue (received sequence datagrams)) =
        readLoop (kind.dumpProcessMessage sequence) [] buffer (queue datagrams) ∧
      ∃ learned, readLoop (kind.dumpProcessMessage sequence) [] buffer
        (queue (received sequence datagrams).dropLast) = .waiting learned := by
  constructor
  · rw [readLoop_queue, readLoop_queue, scan_received]
  · have points := forall₂_heardPointers buffer (received sequence datagrams).dropLast
    have goesOn := @exists_running_iff_of_points kind sequence _ _ points []
    obtain ⟨learned, runs⟩ := goesOn.mpr fun message member => by
      obtain ⟨datagram, inside, heard⟩ := List.mem_flatMap.mp member
      exact not_terminates_of_mem_dropLast datagram inside message heard
    exact ⟨learned, by rw [readLoop_queue, runs]⟩

/-- The events are those of the accepted messages in front of the first terminator of the
datagrams, whatever the decoder saw behind them. -/
def ListsAccepted (datagrams : List Datagram) (list : List kind.Event) : Prop :=
  List.Forall₂ (fun event message => ∃ behind, event = kind.fromNlmsghdr (message.bytes ++ behind))
    list ((beforeTerminator sequence (datagrams.flatMap Datagram.messages)).filter
      fun message => kind.Accepts sequence message.bytes)

/-- A dump that succeeds has read all datagrams it received and lists what was in them. -/
def Complete (buffer : Bytes) (datagrams : List Datagram) : Prop :=
  ∀ list, readLoop (kind.dumpProcessMessage sequence) [] buffer (queue datagrams) =
      .returned (.value list) →
    (∀ datagram ∈ received sequence datagrams, datagram.Whole) ∧
      kind.ListsAccepted sequence datagrams list

variable {sequence}

theorem beforeTerminator_of_whole {datagrams : List Datagram}
    (whole : ∀ datagram ∈ received sequence datagrams, datagram.Whole) :
    beforeTerminator sequence (datagrams.flatMap Datagram.messages) =
      beforeTerminator sequence (datagrams.flatMap Datagram.heard) := by
  induction datagrams with
  | nil => rfl
  | cons datagram datagrams inductionHypothesis =>
      rw [received] at whole
      split_ifs at whole with ends
      · have here := (whole datagram List.mem_cons_self).heard_eq
        rw [List.flatMap_cons, List.flatMap_cons, here]
        rw [here] at ends
        rw [beforeTerminator_append_of_ends ends, beforeTerminator_append_of_ends ends]
      · have here := (whole datagram List.mem_cons_self).heard_eq
        have later := inductionHypothesis fun other member =>
          whole other (List.mem_cons_of_mem _ member)
        rw [List.flatMap_cons, List.flatMap_cons, here]
        rw [here] at ends
        rw [beforeTerminator_append_of_quiet ends, beforeTerminator_append_of_quiet ends, later]

theorem forall₂_entries (buffer : Bytes) (datagrams : List Datagram) :
    List.Forall₂ (fun event message =>
        ∃ behind, event = kind.fromNlmsghdr (message.bytes ++ behind))
      ((((heardPointers buffer datagrams).takeWhile
        fun header => ¬ Terminates sequence header).filter
          fun header => kind.Accepts sequence header).map kind.fromNlmsghdr)
      ((beforeTerminator sequence (datagrams.flatMap Datagram.heard)).filter
        fun message => kind.Accepts sequence message.bytes) := by
  have short : ∀ message ∈ datagrams.flatMap Datagram.heard,
      message.bytes.length < 2 ^ 31 := by
    intro message member
    obtain ⟨datagram, inside, heard⟩ := List.mem_flatMap.mp member
    exact datagram.short_of_mem_heard heard
  have matched := (forall₂_heardPointers buffer datagrams).flip
  have points := ((List.forall₂_and_left ..).mpr ⟨short, matched⟩).flip
  rw [List.forall₂_map_left_iff]
  apply @List.Forall₂.imp _ _ (fun pointer message => message.bytes.length < 2 ^ 31 ∧
    ∃ behind, pointer = message.bytes ++ behind)
  · rintro pointer message ⟨-, behind, rfl⟩
    exact ⟨behind, rfl⟩
  · apply List.rel_filter
    · rintro pointer message ⟨small, behind, rfl⟩
      simpa using kind.accepts_append behind sequence small
    · apply forall₂_takeWhile _ points
      rintro pointer message ⟨-, behind, rfl⟩
      simpa using Terminates.append_iff sequence message behind

variable (sequence)

/-- A dump keeps its promise exactly if, where a terminator it hears reports success, every
datagram it received was whole. -/
theorem complete_iff_received_whole (buffer : Bytes) (datagrams : List Datagram) :
    kind.Complete sequence buffer datagrams ↔
      ∀ terminator, heardTerminator sequence buffer datagrams = some terminator →
        Succeeds terminator → ∀ datagram ∈ received sequence datagrams, datagram.Whole := by
  unfold Complete
  rw [readLoop_dump_queue]
  constructor
  · intro complete terminator heard succeeds
    rw [heard] at complete
    exact (complete _ (congrArg _ (DumpTask.finish_eq_value_iff.mpr ⟨succeeds, rfl⟩))).1
  · intro whole list returned
    cases heard : heardTerminator sequence buffer datagrams with
    | none => simp [heard] at returned
    | some terminator =>
        simp only [heard, ReadOutcome.returned.injEq, DumpTask.finish_eq_value_iff] at returned
        obtain ⟨succeeds, rfl⟩ := returned
        have all := whole terminator heard succeeds
        refine ⟨all, ?_⟩
        unfold ListsAccepted
        rw [beforeTerminator_of_whole all]
        exact forall₂_entries kind buffer datagrams

end EventKind

/-- The `ifinfomsg` of a link of index 1 and the header of an attribute of 65504 bytes. -/
def longFront : Bytes :=
  [0, 0, 1, 0, 1, 0, 0, 0, 1, 0, 0, 0, 0, 0, 0, 0, 0xe0, 0xff, 22, 0]

def longPayload : Bytes := longFront ++ List.replicate 65500 0

theorem length_longPayload : longPayload.length = 65520 := by
  rw [longPayload, List.length_append, List.length_replicate]
  rfl

theorem small_longPayload : 16 + longPayload.length < 2 ^ 32 := by
  rw [length_longPayload]
  decide

def longLink : Message := Message.build rtmNewlink 2 7 0 longPayload small_longPayload

theorem length_longLink : longLink.bytes.length = 65536 := by
  rw [longLink, Message.build, List.length_append, length_nlmsghdr, length_longPayload]

theorem nlmsgType_longLink : nlmsgType longLink.bytes = rtmNewlink := by
  rw [longLink, Message.build, nlmsgType_append _ (by simp)]
  exact nlmsgType_nlmsghdr (by decide) _ _ _ _

theorem LinkEvent.index_of_enough {header : Bytes}
    (known : LinkEvent.typeOf (nlmsgType header) ≠ .unknown)
    (enough : nlmsgLength sizeofIfinfomsg ≤ nlmsgLen header) :
    (LinkEvent.fromNlmsghdr header).index = ifiIndex (nlmsgData header) := by
  have decoded : LinkEvent.fromNlmsghdr header =
      LinkEvent.fromPayload (LinkEvent.typeOf (nlmsgType header)) header (nlmsgData header) :=
    decodeEvent_of_enough known enough
  rw [decoded, LinkEvent.fromPayload]

theorem nlmsgLen_longLink : nlmsgLen longLink.bytes = 65536 :=
  longLink.size_eq.trans length_longLink

theorem index_longLink : (LinkEvent.fromNlmsghdr longLink.bytes).index = 1 := by
  have known : LinkEvent.typeOf (nlmsgType longLink.bytes) ≠ .unknown :=
    LinkEvent.typeOf_known.mpr (.inl nlmsgType_longLink)
  have enough : nlmsgLength sizeofIfinfomsg ≤ nlmsgLen longLink.bytes := by
    rw [nlmsgLen_longLink]
    decide
  have payload : nlmsgData longLink.bytes = longPayload := by
    rw [longLink, Message.build, nlmsgData_nlmsghdr]
  calc (LinkEvent.fromNlmsghdr longLink.bytes).index
      = ifiIndex (nlmsgData longLink.bytes) := LinkEvent.index_of_enough known enough
    _ = ifiIndex longPayload := by rw [payload]
    _ = ifiIndex longFront := by
        have front : field 4 4 longPayload = field 4 4 longFront :=
          @field_append 4 4 longFront (List.replicate 65500 0) (by decide)
        rw [ifiIndex, front, ifiIndex]
    _ = 1 := by decide

theorem accepts_longLink : EventKind.link.Accepts 7 longLink.bytes := by
  refine ⟨?_, nlmsgType_longLink, ?_, ?_⟩
  · rw [longLink, Message.build, nlmsgSeq_append _ (by simp)]
    exact nlmsgSeq_nlmsghdr (by decide) _ _ _ _
  · rw [show nlmsgLen longLink.bytes = 65536 from longLink.size_eq.trans length_longLink]
    decide
  · change ValidIndex (LinkEvent.fromNlmsghdr longLink.bytes).index
    rw [index_longLink]
    decide

def cutDatagram : Datagram := ⟨[longLink, loLink 7 9], [], by decide⟩

def doneDatagram : Datagram := ⟨[doneMessage 7 9 0 0], [], by decide⟩

theorem length_encode_longLink : longLink.encode.length = 65536 := by
  rw [longLink.length_encode, length_longLink]
  decide

theorem heard_cutDatagram : cutDatagram.heard = [longLink] := by
  have nothing : fitting 0 [loLink 7 9] = [] := by decide
  rw [Datagram.heard, cutDatagram, fitting, if_pos (le_of_eq length_encode_longLink),
    length_encode_longLink, Nat.sub_self, nothing]

theorem short_longLink : longLink.bytes.length < 2 ^ 31 := by
  rw [length_longLink]
  decide

theorem flatMap_heard :
    [cutDatagram, doneDatagram].flatMap Datagram.heard = [longLink, doneMessage 7 9 0 0] := by
  have done : doneDatagram.heard = [doneMessage 7 9 0 0] := by
    exact Datagram.Whole.heard_eq (by decide)
  rw [List.flatMap_cons, List.flatMap_cons, heard_cutDatagram, done]
  rfl

theorem first_received : cutDatagram ∈ received 7 [cutDatagram, doneDatagram] := by
  rw [received]
  split_ifs <;> exact List.mem_cons_self

/-- The second link is cut off, and the dump returns the first alone. -/
theorem cutDump_succeeds :
    (∃ event, readLoop (EventKind.link.dumpProcessMessage 7) [] []
      (queue [cutDatagram, doneDatagram]) = .returned (.value [event])) ∧
    (∀ message ∈ cutDatagram.messages, EventKind.link.Accepts 7 message.bytes) ∧
    ¬ EventKind.link.Complete 7 [] [cutDatagram, doneDatagram] := by
  have returned : ∃ event, readLoop (EventKind.link.dumpProcessMessage 7) [] []
      (queue [cutDatagram, doneDatagram]) = .returned (.value [event]) := by
    have points := forall₂_heardPointers [] [cutDatagram, doneDatagram]
    rw [flatMap_heard] at points
    rw [EventKind.readLoop_dump_queue, heardTerminator]
    generalize heardPointers [] [cutDatagram, doneDatagram] = headers at points ⊢
    rcases points with _ | ⟨⟨behind, rfl⟩, _ | ⟨⟨after, rfl⟩, _ | _⟩⟩
    have goesOn : ¬ Terminates 7 (longLink.bytes ++ behind) := fun ends =>
      EventKind.not_accepts_of_terminates .link 7 ends
        ((EventKind.accepts_append behind .link 7 short_longLink).mpr accepts_longLink)
    have entry := (EventKind.accepts_append behind .link 7 short_longLink).mpr accepts_longLink
    have ends : Terminates 7 ((doneMessage 7 9 0 0).bytes ++ after) :=
      (Terminates.append_iff 7 _ after).mpr (by decide)
    have succeeds : Succeeds ((doneMessage 7 9 0 0).bytes ++ after) :=
      .inl (nlmsgType_append after (by decide))
    refine ⟨EventKind.link.fromNlmsghdr (longLink.bytes ++ behind), ?_⟩
    simp [goesOn, ends, entry, DumpTask.finish_eq_value_iff.mpr ⟨succeeds, rfl⟩]
  refine ⟨returned, ?_, ?_⟩
  · intro message member
    rcases List.mem_cons.mp member with rfl | member
    · exact accepts_longLink
    · rw [List.mem_singleton.mp member]
      decide
  · intro complete
    obtain ⟨event, succeeded⟩ := returned
    have whole := (complete _ succeeded).1 cutDatagram first_received
    have length := whole.1
    rw [Datagram.bytes, cutDatagram, Records.Format.encode_cons, List.append_assoc,
      List.length_append, length_encode_longLink] at length
    exact absurd length (by decide)

end Rtaco
