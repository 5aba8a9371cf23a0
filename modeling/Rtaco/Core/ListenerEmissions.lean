import Rtaco.Core.Listener

/-!
# The signals of a datagram

A datagram of complete padded messages is turned into the signals its messages
stand for, in order, and a message does not see its neighbours.
-/

namespace Rtaco

open Netlink Scan

variable {message : Message} {messages : List Message}

theorem Nlmsghdr.at_append (behind : Bytes) {header : Bytes} (inside : 16 ≤ header.length) :
    Nlmsghdr.at (header ++ behind) = Nlmsghdr.at header := by
  unfold Nlmsghdr.at
  rw [nlmsgLen_append behind inside, nlmsgType_append behind inside,
    nlmsgFlags_append behind inside, nlmsgSeq_append behind inside,
    nlmsgPid_append behind inside]

theorem Nlmsgerr.at_append (behind : Bytes) {err : Bytes} (inside : 20 ≤ err.length) :
    Nlmsgerr.at (err ++ behind) = Nlmsgerr.at err := by
  have msg : 16 ≤ (err.drop 4).length := by
    rw [List.length_drop]
    omega
  unfold Nlmsgerr.at nlmsgerrError
  rw [field_append behind (by omega), List.drop_append_of_le_length (by omega),
    Nlmsghdr.at_append behind msg]

namespace Listener

/-- A well-formed message decides its signal by its own bytes. -/
theorem expected_append (short : message.bytes.length < 2 ^ 31) (wellFormed : WellFormed message)
    (behind : Bytes) : expected (message.bytes ++ behind) = expected message.bytes := by
  have header : 16 ≤ message.bytes.length := message.header_le
  have length : nlmsgLen message.bytes = message.bytes.length := message.size_eq
  unfold expected
  rw [nlmsgType_append behind header, nlmsgLen_append behind header]
  cases kindOf (nlmsgType message.bytes) with
  | some kind => simp only [kind.fromNlmsghdr_append behind short wellFormed]
  | none =>
      by_cases error : nlmsgType message.bytes = nlmsgError ∧
          nlmsgLength sizeofNlmsgerr ≤ nlmsgLen message.bytes
      · have whole : 36 ≤ message.bytes.length := length ▸ error.2
        have payload : 20 ≤ (nlmsgData message.bytes).length := by
          rw [nlmsgData_eq, List.length_drop]
          omega
        simp only [nlmsgData_append, Nlmsghdr.at_append behind header,
          Nlmsgerr.at_append behind payload]
      · simp only [error, if_false]

theorem handle_readsOnly (short : message.bytes.length < 2 ^ 31)
    (wellFormed : WellFormed message) : ReadsOnly handle message := by
  intro emitted behind
  unfold handle
  rw [handleMessage_eq_expected, handleMessage_eq_expected,
    expected_append short wellFormed behind]

theorem scan_handle (emitted : List Emission) :
    scan (fun emitted (message : Message) => handle emitted message.bytes) emitted messages =
      .running (emitted ++ messages.filterMap fun message => expected message.bytes) := by
  induction messages generalizing emitted with
  | nil => simp [scan]
  | cons message messages inductionHypothesis =>
      change scan (fun emitted (message : Message) => handle emitted message.bytes)
        (emitted ++ (handleMessage message.bytes).toList) messages = _
      rw [inductionHypothesis, handleMessage_eq_expected, List.filterMap_cons, List.append_assoc]
      cases expected message.bytes <;> rfl

theorem processMessages_encode (wellFormed : ∀ message ∈ messages, WellFormed message)
    (stale : Bytes) (small : (Records.Format.encode messages).length < 2 ^ 31) :
    processMessages (Records.Format.encode messages ++ stale)
        (Records.Format.encode messages).length =
      some (messages.filterMap fun message => expected message.bytes) := by
  have confined : ∀ message ∈ messages, ReadsOnly handle message := by
    intro message member
    have inside := length_le_length_encode_of_mem member
    exact handle_readsOnly (by omega) (wellFormed message member)
  unfold processMessages
  rw [walkMessages_encode confined stale [] (by omega), scan_handle]
  rfl

/-- The listener emits one signal for each long enough message of the nine types,
the length tests of dispatch and decoder agree, and two datagrams in a row give
the signals of their concatenation. -/
theorem processMessages_emits (first second : List Message)
    (wellFormed : ∀ message ∈ first ++ second, WellFormed message)
    (firstFits : (Records.Format.encode first).length ≤ bufferSize)
    (secondFits : (Records.Format.encode second).length ≤ bufferSize)
    (firstStale secondStale stale : Bytes) :
    processMessages (Records.Format.encode first ++ firstStale)
        (Records.Format.encode first).length =
      some (first.filterMap fun message => expected message.bytes) ∧
    (∀ header minLen, hasPayload header minLen = (getMsgPayload minLen header).isSome) ∧
    (∀ (kind : EventKind) (header : Bytes), kind.Decodes (nlmsgType header) →
      hasPayload header kind.infoSize = true →
        kind.isUnknown (kind.fromNlmsghdr header) = false) ∧
    processMessages (Records.Format.encode (first ++ second) ++ stale)
        (Records.Format.encode (first ++ second)).length =
      (processMessages (Records.Format.encode first ++ firstStale)
        (Records.Format.encode first).length).bind fun emitted =>
          (processMessages (Records.Format.encode second ++ secondStale)
            (Records.Format.encode second).length).map (emitted ++ ·) := by
  have firstSmall : (Records.Format.encode first).length ≤ 32768 := firstFits
  have secondSmall : (Records.Format.encode second).length ≤ 32768 := secondFits
  have both : (Records.Format.encode (first ++ second)).length < 2 ^ 31 := by
    rw [Records.Format.encode_append, List.length_append]
    omega
  have one := processMessages_encode
    (fun message member => wellFormed message (List.mem_append_left _ member)) firstStale
    (by omega)
  have two := processMessages_encode
    (fun message member => wellFormed message (List.mem_append_right _ member)) secondStale
    (by omega)
  refine ⟨one, hasPayload_eq, ?_, ?_⟩
  · intro kind header decodes payload
    exact isUnknown_of_hasPayload decodes payload
  · rw [processMessages_encode wellFormed stale both, one, two, List.filterMap_append]
    rfl

theorem processMessages_emits_lo :
    processMessages (Records.Format.encode [loLink 0 0, doneMessage 0 0 0 0] ++ [1, 2, 3])
        (Records.Format.encode [loLink 0 0, doneMessage 0 0 0 0]).length =
      some [.event .link { type := .newLink, index := 1, flags := 1, name := [108, 111] }] := by
  have emitted := (processMessages_emits [loLink 0 0, doneMessage 0 0 0 0] []
    (by decide) (by decide) (by decide) [1, 2, 3] [] []).1
  rw [emitted]
  decide +kernel

end Listener

end Rtaco
