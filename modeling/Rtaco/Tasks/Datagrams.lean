import Rtaco.Tasks.RequestTask

/-!
# Datagrams of any length

A datagram is a list of padded messages with bytes behind them that hold no
complete message. A receive cuts it at the length of the buffer, so the loop hears
the messages in front of the cut and leaves the rest unread.
-/

namespace Rtaco

open Netlink Scan

universe u v

variable {State : Type u} {Result : Type v}

/-- The messages whose padded bytes fit in the capacity. -/
def fitting : Nat → List Message → List Message
  | _, [] => []
  | capacity, message :: messages =>
      if message.encode.length ≤ capacity then
        message :: fitting (capacity - message.encode.length) messages
      else
        []

theorem fitting_of_fits {capacity : Nat} {messages : List Message}
    (fits : (Records.Format.encode messages).length ≤ capacity) :
    fitting capacity messages = messages := by
  induction messages generalizing capacity with
  | nil => rfl
  | cons message messages inductionHypothesis =>
      rw [Records.Format.encode_cons, List.length_append] at fits
      rw [fitting, if_pos (by omega), inductionHypothesis (by omega)]

/-- A cut at a multiple of four inside a message leaves no complete message in front of it. -/
theorem not_fits_cut {capacity : Nat} (aligned : 4 ∣ capacity) {message : Message}
    (short : capacity < message.encode.length) (behind : Bytes) :
    ¬ messageFormat.Fits ((message.encode ++ behind).take capacity) := by
  intro fits
  obtain ⟨header, enough, inside⟩ := fits
  have whole := messageFormat.size_append ((message.encode ++ behind).drop capacity) header
  have size : messageFormat.size (message.encode ++ behind) = message.bytes.length := by
    rw [Records.Format.Record.encode, List.append_assoc]
    exact message.size_append _
  have rounded : message.encode.length = (message.bytes.length + 3) / 4 * 4 :=
    message.length_encode
  have bound := List.length_take_le capacity (message.encode ++ behind)
  rw [List.take_append_drop, size] at whole
  omega

/-- A cut datagram is the messages in front of the cut and bytes without a message. -/
theorem take_encode {capacity : Nat} (aligned : 4 ∣ capacity) {rest : Bytes}
    (ended : ¬ messageFormat.Fits rest) (messages : List Message) :
    ∃ unread, (Records.Format.encode messages ++ rest).take capacity =
        Records.Format.encode (fitting capacity messages) ++ unread ∧
      ¬ messageFormat.Fits unread := by
  induction messages generalizing capacity with
  | nil => exact ⟨rest.take capacity, rfl, fun fits => ended fits.of_take⟩
  | cons message messages inductionHypothesis =>
      rw [Records.Format.encode_cons, List.append_assoc, fitting]
      split_ifs with fits
      · have rounded : message.encode.length = (message.bytes.length + 3) / 4 * 4 :=
          message.length_encode
        have later : 4 ∣ capacity - message.encode.length := by omega
        obtain ⟨unread, cut, nothing⟩ := inductionHypothesis later
        refine ⟨unread, ?_, nothing⟩
        rw [List.take_append, List.take_of_length_le fits, cut, Records.Format.encode_cons,
          List.append_assoc]
      · exact ⟨_, rfl, not_fits_cut aligned (Nat.lt_of_not_le fits) _⟩

/-- A datagram in the queue of a socket. -/
structure Datagram where
  messages : List Message
  rest : Bytes
  ended : ¬ messageFormat.Fits rest

namespace Datagram

variable (datagram : Datagram)

def bytes : Bytes := Records.Format.encode datagram.messages ++ datagram.rest

/-- The datagram fits the receive buffer and ends with its last message. -/
def Whole : Prop := datagram.bytes.length ≤ maxResponseBytes ∧ datagram.rest = []

instance : Decidable datagram.Whole := inferInstanceAs (Decidable (_ ∧ _))

/-- The messages the loop hears. -/
def heard : List Message := fitting maxResponseBytes datagram.messages

/-- The bytes it received but did not read. -/
def unread : Bytes :=
  (datagram.bytes.take maxResponseBytes).drop (Records.Format.encode datagram.heard).length

theorem take_bytes :
    datagram.bytes.take maxResponseBytes =
      Records.Format.encode datagram.heard ++ datagram.unread := by
  obtain ⟨unread, cut, -⟩ := @take_encode maxResponseBytes (by decide) _ datagram.ended
    datagram.messages
  change datagram.bytes.take maxResponseBytes =
    Records.Format.encode datagram.heard ++ unread at cut
  rw [Datagram.unread, cut, List.drop_left]

theorem not_fits_unread : ¬ messageFormat.Fits datagram.unread := by
  obtain ⟨unread, cut, nothing⟩ := @take_encode maxResponseBytes (by decide) _ datagram.ended
    datagram.messages
  change datagram.bytes.take maxResponseBytes =
    Records.Format.encode datagram.heard ++ unread at cut
  rw [Datagram.unread, cut, List.drop_left]
  exact nothing

theorem length_received_le :
    (Records.Format.encode datagram.heard ++ datagram.unread).length ≤ maxResponseBytes := by
  rw [← datagram.take_bytes]
  exact List.length_take_le _ _

theorem short_of_mem_heard {message : Message} (member : message ∈ datagram.heard) :
    message.bytes.length < 2 ^ 31 := by
  have received := datagram.length_received_le
  have inside := length_le_length_encode_of_mem member
  rw [List.length_append] at received
  unfold maxResponseBytes at received
  omega

variable {datagram}

theorem Whole.heard_eq (whole : datagram.Whole) : datagram.heard = datagram.messages := by
  obtain ⟨fits, nothing⟩ := whole
  rw [bytes, nothing, List.append_nil] at fits
  exact fitting_of_fits fits

end Datagram

/-- The completed receives of the datagrams in the queue. -/
def queue (datagrams : List Datagram) : List (Except ErrorCode Bytes) :=
  datagrams.map fun datagram => .ok datagram.bytes

/-- The pointers `read_loop` hands on while it receives the datagrams. -/
def heardPointers : Bytes → List Datagram → List Bytes
  | _, [] => []
  | buffer, datagram :: datagrams =>
      let stale := buffer.drop (datagram.bytes.take maxResponseBytes).length
      pointers datagram.heard (datagram.unread ++ stale) ++
        heardPointers (datagram.bytes.take maxResponseBytes ++ stale) datagrams

theorem forall₂_heardPointers (buffer : Bytes) (datagrams : List Datagram) :
    List.Forall₂ (fun pointer message => ∃ behind, pointer = message.bytes ++ behind)
      (heardPointers buffer datagrams) (datagrams.flatMap Datagram.heard) := by
  induction datagrams generalizing buffer with
  | nil => exact .nil
  | cons datagram datagrams inductionHypothesis =>
      rw [List.flatMap_cons]
      exact List.rel_append (forall₂_pointers datagram.heard _) (inductionHypothesis _)

/-- `read_loop` scans the pointers to the messages it hears and takes no notice of the rest. -/
theorem readLoop_queue (processMessage : State → Bytes → State × Option (Expected Result))
    (datagrams : List Datagram) (state : State) (buffer : Bytes) :
    readLoop processMessage state buffer (queue datagrams) =
      match scan processMessage state (heardPointers buffer datagrams) with
      | .returned result => .returned result
      | .running next => .waiting next := by
  induction datagrams generalizing state buffer with
  | nil => rfl
  | cons datagram datagrams inductionHypothesis =>
      have here := datagram.length_received_le
      have walked := walkMessages_rest processMessage datagram.heard datagram.not_fits_unread
        (buffer.drop (datagram.bytes.take maxResponseBytes).length) state
        (lt_of_le_of_lt here (by decide))
      rw [← List.append_assoc, ← datagram.take_bytes] at walked
      simp only [queue, List.map_cons, readLoop, receive] at inductionHypothesis ⊢
      rw [walked, heardPointers, scan_append]
      cases scan processMessage state (pointers datagram.heard
        (datagram.unread ++ buffer.drop (datagram.bytes.take maxResponseBytes).length)) with
      | returned result => rfl
      | running next => exact inductionHypothesis next _

end Rtaco
