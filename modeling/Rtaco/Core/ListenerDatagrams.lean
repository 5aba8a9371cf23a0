import Rtaco.Core.ListenerEmissions
import Rtaco.Tasks.Datagrams

/-!
# The signals of a datagram of any length

A receive cuts a datagram at the length of `buffer_`. The listener emits the signals of
the messages in front of the cut and only warns about the bytes behind them.
-/

namespace Rtaco

open Netlink Scan

theorem fitting_prefix (capacity : Nat) (messages : List Message) :
    fitting capacity messages <+: messages := by
  induction messages generalizing capacity with
  | nil => exact List.prefix_refl []
  | cons message messages inductionHypothesis =>
      rw [fitting]
      split_ifs with fits
      · exact (List.prefix_cons_inj message).mpr (inductionHypothesis _)
      · exact List.nil_prefix

namespace Listener

/-- The messages of a datagram that the buffer holds completely. -/
def heard (datagram : Datagram) : List Message := fitting bufferSize datagram.messages

/-- The messages the listener hears are well formed. -/
def Readable (datagram : Datagram) : Prop := ∀ message ∈ heard datagram, WellFormed message

instance (datagram : Datagram) : Decidable (Readable datagram) :=
  inferInstanceAs (Decidable (∀ _ ∈ _, _))

/-- The signals of the messages that are heard. -/
def signals (datagram : Datagram) : List Emission :=
  (heard datagram).filterMap fun message => expected message.bytes

/-- The buffer after a receive: the messages that are heard, what is left unread, and what an
earlier datagram left behind them. -/
theorem exists_received (datagram : Datagram) (buffer : Bytes) :
    ∃ unread stale, ¬ messageFormat.Fits unread ∧
      (Records.Format.encode (heard datagram) ++ unread).length ≤ bufferSize ∧
      receive bufferSize buffer datagram.bytes =
        (Records.Format.encode (heard datagram) ++ (unread ++ stale),
          (Records.Format.encode (heard datagram) ++ unread).length) := by
  obtain ⟨unread, cut, nothing⟩ := @take_encode bufferSize (by decide) _ datagram.ended
    datagram.messages
  change datagram.bytes.take bufferSize = Records.Format.encode (heard datagram) ++ unread at cut
  refine ⟨unread, buffer.drop (datagram.bytes.take bufferSize).length, nothing, ?_, ?_⟩
  · rw [← cut]
    exact List.length_take_le _ _
  · simp only [receive, cut, List.append_assoc]

theorem short_of_mem_heard {datagram : Datagram} {message : Message}
    (member : message ∈ heard datagram) : message.bytes.length < 2 ^ 31 := by
  obtain ⟨unread, -, -, fits, -⟩ := exists_received datagram []
  have inside := length_le_length_encode_of_mem member
  rw [List.length_append] at fits
  unfold bufferSize at fits
  omega

theorem processMessages_receive {datagram : Datagram} (readable : Readable datagram)
    (buffer : Bytes) :
    processMessages (receive bufferSize buffer datagram.bytes).1
        (receive bufferSize buffer datagram.bytes).2 =
      some (signals datagram) := by
  obtain ⟨unread, stale, nothing, fits, received⟩ := exists_received datagram buffer
  have confined : ∀ message ∈ heard datagram, ReadsOnly handle message := fun message member =>
    handle_readsOnly (short_of_mem_heard member) (readable message member)
  rw [received]
  unfold processMessages
  rw [walkMessages_rest handle _ nothing stale [] (lt_of_le_of_lt fits (by decide)),
    scan_pointers confined, scan_handle]
  rfl

/-- Of a datagram of any length the listener emits the signals of the messages that fit into its
buffer, in order and whatever the buffer held before. Nothing is lost exactly if the messages
behind the cut stand for no signal. -/
theorem cut_datagram_emits {datagram : Datagram} (readable : Readable datagram)
    (buffer : Bytes) :
    processMessages (receive bufferSize buffer datagram.bytes).1
        (receive bufferSize buffer datagram.bytes).2 =
      some (signals datagram) ∧
    (datagram.bytes.length ≤ bufferSize → heard datagram = datagram.messages) ∧
    ∃ lost, datagram.messages = heard datagram ++ lost ∧
      (signals datagram =
          datagram.messages.filterMap (fun message => expected message.bytes) ↔
        ∀ message ∈ lost, expected message.bytes = none) := by
  refine ⟨processMessages_receive readable buffer, ?_, ?_⟩
  · intro fits
    apply fitting_of_fits
    refine le_trans ?_ fits
    rw [Datagram.bytes, List.length_append]
    exact Nat.le_add_right _ _
  · obtain ⟨lost, split⟩ := fitting_prefix bufferSize datagram.messages
    change heard datagram ++ lost = datagram.messages at split
    refine ⟨lost, split.symm, ?_⟩
    rw [← split, List.filterMap_append, signals, List.self_eq_append_right,
      List.filterMap_eq_nil_iff]

/-- A link message with three bytes behind it that hold no header. -/
def loDatagram : Datagram where
  messages := [loLink 0 0]
  rest := [1, 2, 3]
  ended := by decide

theorem cut_datagram_emits_lo :
    processMessages (receive bufferSize [9] loDatagram.bytes).1
        (receive bufferSize [9] loDatagram.bytes).2 =
      some [.event .link { type := .newLink, index := 1, flags := 1, name := [108, 111] }] := by
  have readable : Readable loDatagram := by decide
  rw [(cut_datagram_emits readable [9]).1]
  decide +kernel

end Listener

end Rtaco
