import Rtaco.Events.AddressConfinement
import Rtaco.Tasks.ForeignMessages
import Rtaco.Tasks.Requests

/-!
# The message a task returns on

A task should return on the message that ends the kernel's answer to its request: a later
receive would wait for a message that never comes.
-/

namespace Rtaco

open Netlink Scan LastValue

namespace Control.Request

/-- The message ends the kernel's answer to the request. -/
def Ends (request : Request) (sequence : Nat) (header : Bytes) : Prop :=
  nlmsgSeq header = sequence ∧
    match request with
    | .dump _ => nlmsgType header = nlmsgDone ∨ nlmsgType header = nlmsgError
    | .getNeighbor => nlmsgType header = nlmsgError ∨
        nlmsgType header = rtmNewneigh ∧ nlmsgLength sizeofNdmsg ≤ nlmsgLen header
    | .probeNeighbor => nlmsgType header = nlmsgError
    | .flushNeighbor => nlmsgType header = nlmsgError

/-- The message is one a get task waits for: an error, or a neighbor with a link-layer
address. -/
def Conclusive (message : Message) : Prop :=
  nlmsgType message.bytes = nlmsgError ∨
    ∃ attr ∈ (ofKey Attribute.type ndaLladdr (EventKind.neighbor.visited message)).getLast?,
      attr.payload ≠ []

/-- The message makes the task return. -/
def Stops (request : Request) (sequence : Nat) (message : Message) : Prop :=
  match request with
  | .getNeighbor => nlmsgSeq message.bytes = sequence ∧ nlmsgType message.bytes = nlmsgDone ∨
      Ends .getNeighbor sequence message.bytes ∧ Conclusive message
  | request => request.Ends sequence message.bytes

theorem hwaddrText_eq_nil {payload : Bytes} : hwaddrText payload = [] ↔ payload = [] := by
  cases payload with
  | nil => simp [hwaddrText]
  | cons byte rest => simp [hwaddrText_cons, hexPair]

theorem lladdr_ne_nil_iff {message : Message} (short : message.bytes.length < 2 ^ 31)
    (type : nlmsgType message.bytes = rtmNewneigh)
    (enough : nlmsgLength sizeofNdmsg ≤ nlmsgLen message.bytes) (behind : Bytes) :
    (NeighborEvent.fromNlmsghdr (message.bytes ++ behind)).lladdr ≠ [] ↔
      ∃ attr ∈ (ofKey Attribute.type ndaLladdr (EventKind.neighbor.visited message)).getLast?,
        attr.payload ≠ [] := by
  have header : 16 ≤ message.bytes.length := message.header_le
  have points := EventKind.neighbor.pointsTo_visited short enough behind
  have known : NeighborEvent.typeOf (nlmsgType (message.bytes ++ behind)) ≠ .unknown := by
    rw [nlmsgType_append behind header]
    exact NeighborEvent.typeOf_known.mpr (.inl type)
  have long : nlmsgLength sizeofNdmsg ≤ nlmsgLen (message.bytes ++ behind) := by
    rwa [nlmsgLen_append behind header]
  simp only [EventKind.infoSize] at points
  have lladdr : (NeighborEvent.fromNlmsghdr (message.bytes ++ behind)).lladdr =
      decoded ndaLladdr hwaddrText [] (EventKind.neighbor.visited message) := by
    rw [NeighborEvent.fromNlmsghdr, decodeEvent_of_enough known long,
      NeighborEvent.fromPayload, forEachAttr_eq_foldl, NeighborEvent.foldl_onAttr]
    simp only [NeighborEvent.fixed]
    rw [lastValue_attributeHwaddr points]
  rw [lladdr, decoded, lastValue]
  cases (ofKey Attribute.type ndaLladdr (EventKind.neighbor.visited message)).getLast? with
  | none => simp
  | some attr => simp [hwaddrText_eq_nil]

section Stops

variable {sequence : Nat} {message : Message} {behind : Bytes}

theorem acknowledge_isSome_iff (state : Unit) (header : Bytes) :
    (acknowledge handleAcknowledgement sequence state header).2.isSome ↔
      nlmsgSeq header = sequence ∧ nlmsgType header = nlmsgError := by
  unfold acknowledge
  split_ifs with foreign error <;> simp_all

theorem get_isSome_iff (short : message.bytes.length < 2 ^ 31) (state : Unit) :
    (NeighborGetTask.processMessage sequence state (message.bytes ++ behind)).2.isSome ↔
      Request.getNeighbor.Stops sequence message := by
  have header : 16 ≤ message.bytes.length := message.header_le
  have type := nlmsgType_append behind header
  have seq := nlmsgSeq_append behind header
  have length := nlmsgLen_append behind header
  have answers : NeighborGetTask.Answers sequence (message.bytes ++ behind) ↔
      nlmsgSeq message.bytes = sequence ∧ nlmsgType message.bytes = rtmNewneigh ∧
        nlmsgLength sizeofNdmsg ≤ nlmsgLen message.bytes ∧
        ∃ attr ∈ (ofKey Attribute.type ndaLladdr (EventKind.neighbor.visited message)).getLast?,
          attr.payload ≠ [] := by
    simp only [NeighborGetTask.Answers, type, seq, length]
    refine and_congr_right fun _ => and_congr_right fun new => and_congr_right fun enough => ?_
    exact lladdr_ne_nil_iff short new enough behind
  have ends : Terminates sequence (message.bytes ++ behind) ↔
      nlmsgSeq message.bytes = sequence ∧
        (nlmsgType message.bytes = nlmsgDone ∨ nlmsgType message.bytes = nlmsgError) := by
    simp only [Terminates, type, seq]
  rw [NeighborGetTask.processMessage, NeighborGetTask.answer_isSome_iff, answers, ends]
  simp only [Stops, Ends, Conclusive]
  have apart : nlmsgError ≠ rtmNewneigh := by decide
  constructor
  · rintro (⟨own, new, enough, resolved⟩ | ⟨own, done | error⟩)
    · exact .inr ⟨⟨own, .inr ⟨new, enough⟩⟩, .inr resolved⟩
    · exact .inl ⟨own, done⟩
    · exact .inr ⟨⟨own, .inl error⟩, .inl error⟩
  · rintro (⟨own, done⟩ | ⟨⟨own, error | ⟨new, enough⟩⟩, conclusive⟩)
    · exact .inr ⟨own, .inl done⟩
    · exact .inr ⟨own, .inr error⟩
    · refine .inl ⟨own, new, enough, conclusive.resolve_left fun error => apart ?_⟩
      rw [← error, new]

/-- Whether a message makes a task return depends on the message only. -/
theorem processMessage_isSome_iff (request : Request) (short : message.bytes.length < 2 ^ 31)
    (state : request.State) :
    (request.processMessage sequence state (message.bytes ++ behind)).2.isSome ↔
      request.Stops sequence message := by
  have header : 16 ≤ message.bytes.length := message.header_le
  have type := nlmsgType_append behind header
  have seq := nlmsgSeq_append behind header
  cases request with
  | dump kind =>
      refine (kind.dump_isSome_iff sequence state _).trans ?_
      simp only [Terminates, Stops, Ends, type, seq]
  | getNeighbor => exact get_isSome_iff short state
  | probeNeighbor =>
      refine (acknowledge_isSome_iff state _).trans ?_
      simp only [Stops, Ends, type, seq]
  | flushNeighbor =>
      refine (acknowledge_isSome_iff state _).trans ?_
      simp only [Stops, Ends, type, seq]

end Stops

/-- The first message of the stream that ends the answer. -/
structure FirstEnd (request : Request) (sequence : Nat) (stream : List (List Message))
    (before : List Message) (last : Message) (after : List Message) : Prop where
  split : stream.flatten = before ++ last :: after
  before : ∀ message ∈ before, ¬ request.Ends sequence message.bytes
  last : request.Ends sequence last.bytes

/-- The task goes on over the first messages of the stream, and returns on the next one: it
asks for no receive beyond the datagram of that message. -/
structure ReturnsAfter (request : Request) (sequence : Nat) (buffer : Bytes)
    (stream : List (List Message)) (count : Nat) : Prop where
  goesOn : ∃ state, scan (request.processMessage sequence) request.initial
    ((streamPointers buffer stream).take count) = .running state
  returns : ∃ result, scan (request.processMessage sequence) request.initial
      ((streamPointers buffer stream).take (count + 1)) = .returned result ∧
    ∀ datagrams, count < (stream.take datagrams).flatten.length →
      request.readLoop sequence buffer (deliver (stream.take datagrams)) =
        .returned (result.map request.answer)

/-- The get task does not meet `NLMSG_DONE`, and is answered by an error or by a neighbor with
a link-layer address. -/
def Answered (request : Request) (sequence : Nat) (stream : List (List Message)) : Prop :=
  request = .getNeighbor → ∀ before last after, request.FirstEnd sequence stream before last after →
    (∀ message ∈ before,
      ¬ (nlmsgSeq message.bytes = sequence ∧ nlmsgType message.bytes = nlmsgDone)) ∧
    Conclusive last

section Stream

variable {request : Request} {sequence : Nat} {stream : List (List Message)}
  {before after : List Message} {last : Message}

theorem stops_iff_of_not_ends {message : Message}
    (continues : ¬ request.Ends sequence message.bytes) :
    request.Stops sequence message ↔ request = .getNeighbor ∧
      nlmsgSeq message.bytes = sequence ∧ nlmsgType message.bytes = nlmsgDone := by
  cases request with
  | dump kind => simpa [Stops] using continues
  | getNeighbor => simp [Stops, continues]
  | probeNeighbor => simpa [Stops] using continues
  | flushNeighbor => simpa [Stops] using continues

theorem stops_iff_of_ends {message : Message} (ends : request.Ends sequence message.bytes) :
    request.Stops sequence message ↔ (request = .getNeighbor → Conclusive message) := by
  cases request with
  | dump kind => simpa [Stops] using ends
  | getNeighbor =>
      have unfinished : nlmsgType message.bytes ≠ nlmsgDone := by
        rcases ends.2 with error | ⟨new, enough⟩
        · rw [error]
          decide
        · rw [new]
          decide
      simp [Stops, ends, unfinished]
  | probeNeighbor => simpa [Stops] using ends
  | flushNeighbor => simpa [Stops] using ends

theorem forall₂_stops (request : Request) (sequence : Nat)
    (fits : ∀ messages ∈ stream, (Records.Format.encode messages).length ≤ maxResponseBytes)
    (buffer : Bytes) :
    List.Forall₂ (fun pointer message => ∀ state,
        (request.processMessage sequence state pointer).2.isSome ↔
          request.Stops sequence message)
      (streamPointers buffer stream) stream.flatten := by
  have short : ∀ message ∈ stream.flatten, message.bytes.length < 2 ^ 31 := by
    intro message member
    obtain ⟨messages, datagram, inside⟩ := List.mem_flatten.mp member
    refine lt_of_le_of_lt (length_le_length_encode_of_mem inside) ?_
    exact lt_of_le_of_lt (fits messages datagram) (by decide)
  have matched := (forall₂_streamPointers buffer stream).flip
  have bounded := (List.forall₂_and_left ..).mpr ⟨short, matched⟩
  refine (bounded.imp ?_).flip
  rintro message pointer ⟨small, behind, rfl⟩ state
  exact processMessage_isSome_iff request small state

/-- A task that returns on a message returns on every beginning of the stream that has it. -/
theorem readLoop_take
    (fits : ∀ messages ∈ stream, (Records.Format.encode messages).length ≤ maxResponseBytes)
    {buffer : Bytes} {count datagrams : Nat} {result : Expected request.Result}
    (returned : scan (request.processMessage sequence) request.initial
      ((streamPointers buffer stream).take (count + 1)) = .returned result)
    (enough : count < (stream.take datagrams).flatten.length) :
    request.readLoop sequence buffer (deliver (stream.take datagrams)) =
      .returned (result.map request.answer) := by
  have received : ∀ messages ∈ stream.take datagrams,
      (Records.Format.encode messages).length ≤ maxResponseBytes :=
    fun messages member => fits messages (List.mem_of_mem_take member)
  obtain ⟨filled, split⟩ :=
    streamPointers_append buffer (stream.take datagrams) (stream.drop datagrams)
  rw [List.take_append_drop] at split
  have length := (forall₂_streamPointers buffer (stream.take datagrams)).length_eq
  have inside : (streamPointers buffer stream).take (count + 1) =
      (streamPointers buffer (stream.take datagrams)).take (count + 1) := by
    rw [split, List.take_append_of_le_length]
    omega
  have scanned : scan (request.processMessage sequence) request.initial
      (streamPointers buffer (stream.take datagrams)) = .returned result := by
    rw [← List.take_append_drop (count + 1) (streamPointers buffer (stream.take datagrams)),
      scan_append, ← inside, returned]
  rw [readLoop_eq, readLoop_streamPointers _ received, scanned]
  rfl

/-- A task returns on a message exactly when that is the first one it stops at. -/
theorem returnsAfter_iff
    (fits : ∀ messages ∈ stream, (Records.Format.encode messages).length ≤ maxResponseBytes)
    (buffer : Bytes) (split : stream.flatten = before ++ last :: after) :
    request.ReturnsAfter sequence buffer stream before.length ↔
      (∀ message ∈ before, ¬ request.Stops sequence message) ∧
        request.Stops sequence last := by
  have matched := forall₂_stops request sequence fits buffer
  have skipped := List.forall₂_take before.length matched
  have taken := List.forall₂_take (before.length + 1) matched
  have front : stream.flatten.take before.length = before := by
    rw [split, List.take_left]
  have ending : stream.flatten.take (before.length + 1) = before ++ [last] := by
    rw [split, List.take_length_add_append]
    rfl
  rw [front] at skipped
  rw [ending] at taken
  have quiet := exists_running_iff skipped request.initial
  have runs := exists_running_iff taken request.initial
  simp only [List.forall_mem_append, List.forall_mem_singleton] at runs
  constructor
  · rintro ⟨goesOn, result, returned, -⟩
    refine ⟨quiet.mp goesOn, ?_⟩
    by_contra silent
    obtain ⟨next, running⟩ := runs.mpr ⟨quiet.mp goesOn, silent⟩
    rw [returned] at running
    cases running
  · rintro ⟨silent, stops⟩
    refine ⟨quiet.mpr silent, ?_⟩
    cases scanned : scan (request.processMessage sequence) request.initial
        ((streamPointers buffer stream).take (before.length + 1)) with
    | running next => exact absurd stops (runs.mp ⟨next, scanned⟩).2
    | returned result =>
        refine ⟨result, rfl, fun datagrams enough => ?_⟩
        exact readLoop_take fits scanned enough

end Stream

/-- A task returns on the message that ends the answer to its request, unless it is a get task
whose neighbor has no link-layer address. -/
theorem returnsAfter_iff_answered (request : Request) (sequence : Nat) (buffer : Bytes)
    (stream : List (List Message))
    (fits : ∀ messages ∈ stream, (Records.Format.encode messages).length ≤ maxResponseBytes) :
    (∀ before last after, request.FirstEnd sequence stream before last after →
        request.ReturnsAfter sequence buffer stream before.length) ↔
      request.Answered sequence stream := by
  constructor
  · rintro returns rfl before last after first
    obtain ⟨quiet, stops⟩ := (returnsAfter_iff fits buffer first.split).mp
      (returns before last after first)
    refine ⟨fun message member done => ?_, (stops_iff_of_ends first.last).mp stops rfl⟩
    exact quiet message member
      ((stops_iff_of_not_ends (first.before message member)).mpr ⟨rfl, done⟩)
  · intro answered before last after first
    apply (returnsAfter_iff fits buffer first.split).mpr
    refine ⟨fun message member stops => ?_, (stops_iff_of_ends first.last).mpr fun get =>
      (answered get before last after first).2⟩
    obtain ⟨get, done⟩ := (stops_iff_of_not_ends (first.before message member)).mp stops
    exact (answered get before last after first).1 message member done

end Control.Request

theorem returnsAfter_iff_answered_linkDump :
    (Control.Request.dump .link).ReturnsAfter 7 [] [[loLink 7 9], [doneMessage 7 9 0 0]] 1 := by
  have first : (Control.Request.dump .link).FirstEnd 7 [[loLink 7 9], [doneMessage 7 9 0 0]]
      [loLink 7 9] (doneMessage 7 9 0 0) [] := by
    refine ⟨rfl, ?_, by decide, .inl (by decide)⟩
    rintro message member ⟨own, ends⟩
    rcases List.mem_singleton.mp member with rfl
    exact absurd ends (by decide)
  exact (Control.Request.returnsAfter_iff_answered (.dump .link) 7 []
    [[loLink 7 9], [doneMessage 7 9 0 0]] (by decide)).mpr (fun get => by cases get) _ _ _ first

/-- The entry of a neighbor that failed to resolve. -/
def failedNeighbor (seq pid : Nat) : Message :=
  Message.build rtmNewneigh 0 seq pid
    ([2, 0, 0, 0, 3, 0, 0, 0, 32, 0, 0, 1] ++
      Records.Format.encode [Attribute.build ndaDst [10, 0, 0, 7] small_ipv4]) (by simp; decide)

/-- A get task is answered by the entry of a failed neighbor, and waits for another message. -/
theorem getNeighbor_waits_after_answer :
    Control.Request.getNeighbor.FirstEnd 7 [[failedNeighbor 7 9]] [] (failedNeighbor 7 9) [] ∧
      ReplyStream [[failedNeighbor 7 9]] ∧
      Control.Request.getNeighbor.readLoop 7 [] (deliver [[failedNeighbor 7 9]]) = .waiting () ∧
      ¬ Control.Request.getNeighbor.ReturnsAfter 7 [] [[failedNeighbor 7 9]] 0 := by
  have waits : Control.Request.getNeighbor.readLoop 7 [] (deliver [[failedNeighbor 7 9]]) =
      .waiting () := by
    decide +kernel
  refine ⟨⟨rfl, by simp, by decide, .inr ⟨by decide, by decide⟩⟩,
    ⟨by decide, by decide, by decide⟩, waits, fun returns => ?_⟩
  obtain ⟨result, -, received⟩ := returns.returns
  have returned := received 1 (by decide)
  rw [List.take_succ_cons, List.take_zero, waits] at returned
  cases returned

end Rtaco
