import Rtaco.Library.Scan
import Rtaco.Netlink.Layout

/-!
# The message loop

`Listener::process_messages` and `RequestTask::read_loop` walk a received
datagram with the same loop; they differ in the body, which is the handler
here. `remaining` is a 32-bit unsigned counter, from which `NLMSG_NEXT` takes
the aligned message length whether or not the counter holds that much.
-/

namespace Rtaco.Netlink

open Scan

universe u v

variable {State : Type u} {Result : Type v}

/-- A receive into a buffer: the new contents and the number of bytes received. -/
def receive (capacity : Nat) (buffer datagram : Bytes) : Bytes × Nat :=
  let received := datagram.take capacity
  (received ++ buffer.drop received.length, received.length)

theorem receive_of_fits {capacity : Nat} {datagram : Bytes} (fits : datagram.length ≤ capacity)
    (buffer : Bytes) :
    receive capacity buffer datagram =
      (datagram ++ buffer.drop datagram.length, datagram.length) := by
  simp [receive, List.take_of_length_le fits]

/-- The loop variables: the offset of `header` in the buffer and `remaining`. -/
structure Cursor where
  header : Nat
  remaining : Nat
  deriving DecidableEq

namespace Cursor

def start (size : Nat) : Cursor := ⟨0, size % 2 ^ 32⟩

/-- The loop condition. -/
def Continues (memory : Bytes) (cursor : Cursor) : Prop :=
  sizeofNlmsghdr ≤ cursor.remaining ∧ NlmsgOk (memory.drop cursor.header) cursor.remaining

instance (memory : Bytes) (cursor : Cursor) : Decidable (cursor.Continues memory) :=
  inferInstanceAs (Decidable (_ ∧ _))

/-- `NLMSG_NEXT`. -/
def next (memory : Bytes) (cursor : Cursor) : Cursor :=
  let aligned := nlmsgAlign (nlmsgLen (memory.drop cursor.header))
  ⟨cursor.header + aligned, (cursor.remaining + 2 ^ 32 - aligned) % 2 ^ 32⟩

end Cursor

inductive LoopOutcome (State : Type u) (Result : Type v) where
  | finished (state : State) (cursor : Cursor)
  | returned (result : Result)
  | diverged
  deriving DecidableEq

def messageLoop (handle : State → Bytes → State × Option Result) (memory : Bytes) :
    Nat → State → Cursor → LoopOutcome State Result
  | 0, _, _ => .diverged
  | fuel + 1, state, cursor =>
      if cursor.Continues memory then
        match handle state (memory.drop cursor.header) with
        | (_, some result) => .returned result
        | (next, none) => messageLoop handle memory fuel next (cursor.next memory)
      else
        .finished state cursor

/-- The loop on a buffer whose first `size` bytes were received. A loop that
moves on takes fewer iterations than the buffer has bytes. -/
def walkMessages (handle : State → Bytes → State × Option Result) (buffer : Bytes)
    (size : Nat) (state : State) : LoopOutcome State Result :=
  messageLoop handle buffer (buffer.length + 1) state (Cursor.start size)

theorem alignedLen_of_record {total : Nat} (message : Message)
    (fits : message.encode.length ≤ total) (small : total < 2 ^ 32) :
    nlmsgAlign message.bytes.length = message.encode.length := by
  have encoded := message.length_encode
  have rounded : messageFormat.round message.bytes.length = (message.bytes.length + 3) / 4 * 4 :=
    rfl
  rw [nlmsgAlign_eq (by omega), encoded, rounded]

/-- What the loop sees at a cursor placed on a complete, padded message. -/
theorem cursor_on_message (front behind : Bytes) {remaining : Nat} (message : Message)
    (fits : message.encode.length ≤ remaining) (small : remaining < 2 ^ 32) :
    let memory := front ++ (message.encode ++ behind)
    let cursor : Cursor := ⟨front.length, remaining⟩
    cursor.Continues memory ∧
      cursor.next memory =
        ⟨front.length + message.encode.length, remaining - message.encode.length⟩ := by
  intro memory cursor
  have here : memory.drop cursor.header = message.bytes ++ (message.padding ++ behind) := by
    simp [memory, cursor, Records.Format.Record.encode]
  have length : nlmsgLen (memory.drop cursor.header) = message.bytes.length := by
    rw [here]
    exact message.size_append _
  have atLeast : 16 ≤ message.bytes.length := message.header_le
  have covered : message.bytes.length ≤ message.encode.length := by
    simp [Records.Format.Record.encode]
  have aligned := alignedLen_of_record message fits small
  constructor
  · refine ⟨?_, ?_, ?_, ?_⟩
    · exact le_trans atLeast (le_trans covered fits)
    · exact le_trans atLeast (le_trans covered fits)
    · rw [length]
      exact atLeast
    · rw [length]
      exact le_trans covered fits
  · simp only [Cursor.next, length, aligned, Cursor.mk.injEq]
    refine ⟨rfl, ?_⟩
    change (remaining + 2 ^ 32 - message.encode.length) % 2 ^ 32 = _
    omega

/-- At the end of the padded messages the loop goes on only with a complete
message whose padding was not received. -/
theorem cursor_on_rest {front rest stale : Bytes} :
    (⟨front.length, rest.length⟩ : Cursor).Continues (front ++ (rest ++ stale)) ↔
      messageFormat.Fits rest := by
  have here : (front ++ (rest ++ stale)).drop front.length = rest ++ stale := by simp
  unfold Cursor.Continues NlmsgOk Records.Format.Fits
  simp only [here]
  by_cases header : 16 ≤ rest.length
  · rw [nlmsgLen_append stale header]
    simp [messageFormat, header]
  · simp [messageFormat, header]

theorem cursor_wraps {front rest stale : Bytes} (dangles : messageFormat.Dangles rest)
    (small : rest.length < 2 ^ 31) :
    2 ^ 31 ≤
      ((⟨front.length, rest.length⟩ : Cursor).next (front ++ (rest ++ stale))).remaining := by
  have here : (front ++ (rest ++ stale)).drop front.length = rest ++ stale := by simp
  obtain ⟨⟨header, -, inside⟩, short⟩ := dangles
  have inside : nlmsgLen rest ≤ rest.length := inside
  have short : rest.length < (nlmsgLen rest + 3) / 4 * 4 := short
  simp only [Cursor.next, here, nlmsgLen_append stale header]
  rw [nlmsgAlign_eq (by omega)]
  omega

/-- The pointers the loop hands on while it walks the messages. -/
def pointers : List Message → Bytes → List Bytes
  | [], _ => []
  | message :: messages, behind =>
      (message.encode ++ (Records.Format.encode messages ++ behind)) :: pointers messages behind

theorem forall₂_pointers (messages : List Message) (behind : Bytes) :
    List.Forall₂ (fun pointer message => ∃ behind, pointer = message.bytes ++ behind)
      (pointers messages behind) messages := by
  induction messages with
  | nil => exact .nil
  | cons message messages inductionHypothesis =>
      refine .cons ?_ inductionHypothesis
      rw [Records.Format.Record.encode, List.append_assoc]
      exact ⟨_, rfl⟩

theorem messageLoop_encode (handle : State → Bytes → State × Option Result)
    (messages : List Message) (front rest stale : Bytes) (fuel : Nat) (state : State)
    (small : (Records.Format.encode messages ++ rest).length < 2 ^ 32) :
    messageLoop handle (front ++ (Records.Format.encode messages ++ (rest ++ stale)))
        (fuel + messages.length) state
        ⟨front.length, (Records.Format.encode messages ++ rest).length⟩ =
      match scan handle state (pointers messages (rest ++ stale)) with
      | .returned result => .returned result
      | .running next =>
          messageLoop handle (front ++ (Records.Format.encode messages ++ (rest ++ stale))) fuel
            next ⟨(front ++ Records.Format.encode messages).length, rest.length⟩ := by
  induction messages generalizing front state with
  | nil => simp [pointers, scan]
  | cons message messages inductionHypothesis =>
      have fits : message.encode.length ≤
          (Records.Format.encode (message :: messages) ++ rest).length := by
        simp
      have memory : front ++ (Records.Format.encode (message :: messages) ++ (rest ++ stale)) =
          front ++ (message.encode ++ (Records.Format.encode messages ++ (rest ++ stale))) := by
        simp
      have moved :
          front ++ (message.encode ++ (Records.Format.encode messages ++ (rest ++ stale))) =
          (front ++ message.encode) ++ (Records.Format.encode messages ++ (rest ++ stale)) := by
        simp
      obtain ⟨continues, next⟩ := cursor_on_message front
        (Records.Format.encode messages ++ (rest ++ stale)) message fits small
      have remaining : (Records.Format.encode (message :: messages) ++ rest).length -
          message.encode.length = (Records.Format.encode messages ++ rest).length := by
        simp only [Records.Format.encode_cons, List.length_append]
        omega
      have smaller : (Records.Format.encode messages ++ rest).length < 2 ^ 32 := by omega
      rw [memory, List.length_cons, ← Nat.add_assoc, messageLoop, if_pos continues, next,
        remaining]
      have here : (front ++ (message.encode ++
          (Records.Format.encode messages ++ (rest ++ stale)))).drop front.length =
          message.encode ++ (Records.Format.encode messages ++ (rest ++ stale)) := by
        simp
      rcases handled : handle state (message.encode ++
          (Records.Format.encode messages ++ (rest ++ stale))) with ⟨after, _ | result⟩
      · simp only [here, pointers, scan, handled]
        rw [moved, ← List.length_append, inductionHypothesis (front ++ message.encode) _ smaller]
        simp
      · simp only [here, pointers, scan, handled]

theorem length_le_length_encode (messages : List Message) :
    messages.length ≤ (Records.Format.encode messages).length := by
  induction messages with
  | nil => simp
  | cons message messages inductionHypothesis =>
      have atLeast : 16 ≤ message.bytes.length := message.header_le
      simp only [List.length_cons, Records.Format.encode_cons, List.length_append,
        Records.Format.Record.encode]
      omega

theorem length_le_length_encode_of_mem {messages : List Message} {message : Message}
    (member : message ∈ messages) :
    message.bytes.length ≤ (Records.Format.encode messages).length := by
  induction messages with
  | nil => simp at member
  | cons first messages inductionHypothesis =>
      simp only [Records.Format.encode_cons, List.length_append, Records.Format.Record.encode]
      rcases List.mem_cons.mp member with rfl | member
      · omega
      · have later := inductionHypothesis member
        omega

/-- The handler reads nothing behind the message it is given. -/
def ReadsOnly (handle : State → Bytes → State × Option Result) (message : Message) : Prop :=
  ∀ state behind, handle state (message.bytes ++ behind) = handle state message.bytes

theorem scan_pointers {handle : State → Bytes → State × Option Result}
    {messages : List Message} (confined : ∀ message ∈ messages, ReadsOnly handle message)
    (behind : Bytes) (state : State) :
    scan handle state (pointers messages behind) =
      scan (fun state message => handle state message.bytes) state messages := by
  induction messages generalizing state with
  | nil => rfl
  | cons message messages inductionHypothesis =>
      have here : handle state (message.encode ++ (Records.Format.encode messages ++ behind)) =
          handle state message.bytes := by
        rw [Records.Format.Record.encode, List.append_assoc]
        exact confined message (by simp) state _
      have later : ∀ message ∈ messages, ReadsOnly handle message :=
        fun message member => confined message (List.mem_cons_of_mem _ member)
      simp only [pointers, scan, here]
      split
      · rfl
      · exact inductionHypothesis later _

/-- The loop hands the pointers to the messages of a datagram to its body and stops in front of
what holds no further message. -/
theorem walkMessages_rest (handle : State → Bytes → State × Option Result)
    (messages : List Message) {rest : Bytes} (ended : ¬ messageFormat.Fits rest) (stale : Bytes)
    (state : State) (small : (Records.Format.encode messages ++ rest).length < 2 ^ 32) :
    walkMessages handle (Records.Format.encode messages ++ (rest ++ stale))
        (Records.Format.encode messages ++ rest).length state =
      match scan handle state (pointers messages (rest ++ stale)) with
      | .returned result => .returned result
      | .running next =>
          .finished next ⟨(Records.Format.encode messages).length, rest.length⟩ := by
  have enough := length_le_length_encode messages
  obtain ⟨spare, fuel⟩ : ∃ spare,
      (Records.Format.encode messages ++ (rest ++ stale)).length + 1 =
        spare + 1 + messages.length := by
    refine ⟨(Records.Format.encode messages ++ (rest ++ stale)).length - messages.length, ?_⟩
    simp only [List.length_append]
    omega
  have loop := messageLoop_encode handle messages [] rest stale (spare + 1) state small
  simp only [List.nil_append, List.length_nil] at loop
  rw [walkMessages, fuel, Cursor.start, Nat.mod_eq_of_lt small, loop]
  cases scan handle state (pointers messages (rest ++ stale)) with
  | returned result => rfl
  | running next => exact if_neg fun continues => ended (cursor_on_rest.mp continues)

theorem walkMessages_pointers (handle : State → Bytes → State × Option Result)
    (messages : List Message) (stale : Bytes) (state : State)
    (small : (Records.Format.encode messages).length < 2 ^ 32) :
    walkMessages handle (Records.Format.encode messages ++ stale)
        (Records.Format.encode messages).length state =
      match scan handle state (pointers messages stale) with
      | .returned result => .returned result
      | .running next => .finished next ⟨(Records.Format.encode messages).length, 0⟩ := by
  have ended : ¬ messageFormat.Fits [] := fun fits => absurd fits.1 (by decide)
  have walked := walkMessages_rest handle messages ended stale state (by simpa using small)
  rw [List.append_nil, List.nil_append] at walked
  exact walked

theorem walkMessages_encode {handle : State → Bytes → State × Option Result}
    {messages : List Message} (confined : ∀ message ∈ messages, ReadsOnly handle message)
    (stale : Bytes) (state : State)
    (small : (Records.Format.encode messages).length < 2 ^ 32) :
    walkMessages handle (Records.Format.encode messages ++ stale)
        (Records.Format.encode messages).length state =
      match scan (fun state message => handle state message.bytes) state messages with
      | .returned result => .returned result
      | .running next => .finished next ⟨(Records.Format.encode messages).length, 0⟩ := by
  rw [walkMessages_pointers handle messages stale state small, scan_pointers confined]

end Rtaco.Netlink
