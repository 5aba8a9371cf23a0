import Rtaco.Events.CompleteMessages
import Rtaco.Netlink.MessageLoop

/-!
# Request tasks

`RequestTask::read_loop` over the derived task's `process_message`. A receive
completes with an error or with a datagram, of which the first
`MAX_RESPONSE_BYTES` bytes replace the front of the receive buffer.
-/

namespace Rtaco

open Netlink Scan

universe u v w

variable {State : Type u} {Result : Type v}

/-- The error code `-err->error` of an `NLMSG_ERROR`; `NLMSG_DATA` is never null. -/
def errorCode (header : Bytes) : ErrorCode :=
  ⟨toInt32 (-nlmsgerrError (nlmsgData header))⟩

theorem errorCode_append {message : Message} (inside : 20 ≤ nlmsgLen message.bytes)
    (behind : Bytes) : errorCode (message.bytes ++ behind) = errorCode message.bytes := by
  have length : nlmsgLen message.bytes = message.bytes.length := message.size_eq
  unfold errorCode nlmsgerrError
  rw [nlmsgData_append, field_append behind]
  rw [nlmsgData_eq, List.length_drop]
  omega

abbrev maxResponseBytes : Nat := 64 * 1024

/-- Where a task is after a finite number of completed receives. -/
inductive ReadOutcome (State : Type u) (Result : Type v) where
  | returned (result : Expected Result)
  | waiting (state : State)
  | diverged
  deriving DecidableEq

/-- The value the coroutine has returned, if it has. -/
def ReadOutcome.result? : ReadOutcome State Result → Option (Expected Result)
  | returned result => some result
  | _ => none

/-- The outcome of a task whose state nobody looks at. -/
def ReadOutcome.wrap {Answer : Type w} (wrap : Result → Answer) :
    ReadOutcome State Result → ReadOutcome Unit Answer
  | returned result => .returned (result.map wrap)
  | waiting _ => .waiting ()
  | diverged => .diverged

namespace ReadOutcome

variable {Answer : Type w} {outcome : ReadOutcome State Result} {wrapped : Result → Answer}

theorem waiting_of_wrap (waits : outcome.wrap wrapped = .waiting ()) :
    ∃ state, outcome = .waiting state := by
  cases outcome with
  | waiting state => exact ⟨state, rfl⟩
  | returned result => cases waits
  | diverged => cases waits

theorem returned_of_wrap {answer : Expected Answer}
    (returns : outcome.wrap wrapped = .returned answer) :
    ∃ result, outcome = .returned result ∧ answer = result.map wrapped := by
  cases outcome with
  | waiting state => cases returns
  | returned result =>
      cases returns
      exact ⟨result, rfl, rfl⟩
  | diverged => cases returns

end ReadOutcome

def readLoop (processMessage : State → Bytes → State × Option (Expected Result)) :
    State → Bytes → List (Except ErrorCode Bytes) → ReadOutcome State Result
  | state, _, [] => .waiting state
  | _, _, .error error :: _ => .returned (.unexpected error)
  | state, buffer, .ok datagram :: completions =>
      let (filled, bytes) := receive maxResponseBytes buffer datagram
      match walkMessages processMessage filled bytes state with
      | .returned result => .returned result
      | .finished next _ => readLoop processMessage next filled completions
      | .diverged => .diverged

theorem readLoop_append_error {processMessage : State → Bytes → State × Option (Expected Result)}
    {state next : State} {buffer : Bytes} {completions : List (Except ErrorCode Bytes)}
    (waits : readLoop processMessage state buffer completions = .waiting next) (error : ErrorCode) :
    readLoop processMessage state buffer (completions ++ [.error error]) =
      .returned (.unexpected error) := by
  induction completions generalizing state buffer with
  | nil => rfl
  | cons completion completions inductionHypothesis =>
      cases completion with
      | error earlier => cases waits
      | ok datagram =>
          simp only [List.cons_append, readLoop] at waits ⊢
          split at waits
          next result walked => cases waits
          next after cursor walked => exact inductionHypothesis waits
          next walked => cases waits

/-- The completed receives of a stream of datagrams, each a list of padded messages. -/
def deliver (stream : List (List Message)) : List (Except ErrorCode Bytes) :=
  stream.map fun messages => .ok (Records.Format.encode messages)

/-- A stream whose datagrams fit the receive buffer and whose messages the task
reads without looking behind them. -/
structure Readable (processMessage : State → Bytes → State × Option (Expected Result))
    (stream : List (List Message)) : Prop where
  fits : ∀ messages ∈ stream, (Records.Format.encode messages).length ≤ maxResponseBytes
  confined : ∀ messages ∈ stream, ∀ message ∈ messages, ReadsOnly processMessage message

/-- The pointers `read_loop` hands on while it receives the datagrams of a stream. -/
def streamPointers : Bytes → List (List Message) → List Bytes
  | _, [] => []
  | buffer, messages :: stream =>
      let stale := buffer.drop (Records.Format.encode messages).length
      pointers messages stale ++ streamPointers (Records.Format.encode messages ++ stale) stream

theorem streamPointers_append (buffer : Bytes) (first second : List (List Message)) :
    ∃ filled, streamPointers buffer (first ++ second) =
      streamPointers buffer first ++ streamPointers filled second := by
  induction first generalizing buffer with
  | nil => exact ⟨buffer, rfl⟩
  | cons messages first inductionHypothesis =>
      obtain ⟨filled, split⟩ := inductionHypothesis (Records.Format.encode messages ++
        buffer.drop (Records.Format.encode messages).length)
      refine ⟨filled, ?_⟩
      simp only [List.cons_append, streamPointers, split, List.append_assoc]

theorem forall₂_streamPointers (buffer : Bytes) (stream : List (List Message)) :
    List.Forall₂ (fun pointer message => ∃ behind, pointer = message.bytes ++ behind)
      (streamPointers buffer stream) stream.flatten := by
  induction stream generalizing buffer with
  | nil => exact .nil
  | cons messages stream inductionHypothesis =>
      exact List.rel_append (forall₂_pointers messages _) (inductionHypothesis _)

theorem readLoop_streamPointers (processMessage : State → Bytes → State × Option (Expected Result))
    {stream : List (List Message)}
    (fits : ∀ messages ∈ stream, (Records.Format.encode messages).length ≤ maxResponseBytes)
    (state : State) (buffer : Bytes) :
    readLoop processMessage state buffer (deliver stream) =
      match scan processMessage state (streamPointers buffer stream) with
      | .returned result => .returned result
      | .running next => .waiting next := by
  induction stream generalizing state buffer with
  | nil => rfl
  | cons messages stream inductionHypothesis =>
      have here := fits messages List.mem_cons_self
      have continued := fun next filled => inductionHypothesis
        (fun later member => fits later (List.mem_cons_of_mem _ member)) next filled
      have walked := walkMessages_pointers processMessage messages
        (buffer.drop (Records.Format.encode messages).length) state
        (lt_of_le_of_lt here (by decide))
      simp only [deliver, List.map_cons, readLoop, receive_of_fits here] at continued ⊢
      rw [walked, streamPointers, scan_append]
      cases scan processMessage state
        (pointers messages (buffer.drop (Records.Format.encode messages).length)) with
      | returned result => rfl
      | running next => exact continued next _

theorem scan_streamPointers {processMessage : State → Bytes → State × Option (Expected Result)}
    {stream : List (List Message)}
    (confined : ∀ messages ∈ stream, ∀ message ∈ messages, ReadsOnly processMessage message)
    (buffer : Bytes) (state : State) :
    scan processMessage state (streamPointers buffer stream) =
      scan (fun state message => processMessage state message.bytes) state stream.flatten := by
  induction stream generalizing buffer state with
  | nil => rfl
  | cons messages stream inductionHypothesis =>
      have later := fun buffer state => inductionHypothesis
        (fun messages member => confined messages (List.mem_cons_of_mem _ member)) buffer state
      rw [streamPointers, scan_append, scan_pointers (confined messages List.mem_cons_self),
        List.flatten_cons, scan_append]
      simp only [later]

/-- `read_loop` scans the messages of the stream, however they are cut into
datagrams and whatever the buffer held before. -/
theorem readLoop_deliver {processMessage : State → Bytes → State × Option (Expected Result)}
    {stream : List (List Message)} (readable : Readable processMessage stream)
    (state : State) (buffer : Bytes) :
    readLoop processMessage state buffer (deliver stream) =
      match scan (fun state message => processMessage state message.bytes) state stream.flatten with
      | .returned result => .returned result
      | .running next => .waiting next := by
  rw [readLoop_streamPointers processMessage readable.fits,
    scan_streamPointers readable.confined]

/-- Whatever it is in front of, the handler passes over the message. -/
def Ignores (processMessage : State → Bytes → State × Option (Expected Result))
    (message : Message) : Prop :=
  ∀ state behind, processMessage state (message.bytes ++ behind) = (state, none)

theorem readLoop_of_ignored {processMessage : State → Bytes → State × Option (Expected Result)}
    {stream : List (List Message)}
    (fits : ∀ messages ∈ stream, (Records.Format.encode messages).length ≤ maxResponseBytes)
    (ignored : ∀ messages ∈ stream, ∀ message ∈ messages, Ignores processMessage message)
    (state : State) (buffer : Bytes) :
    readLoop processMessage state buffer (deliver stream) = .waiting state := by
  have alone : ∀ messages ∈ stream, ∀ message ∈ messages, ∀ state,
      processMessage state message.bytes = (state, none) := by
    intro messages datagram message member state
    simpa using ignored messages datagram message member state []
  have readable : Readable processMessage stream := by
    refine ⟨fits, fun messages datagram message member state behind => ?_⟩
    rw [ignored messages datagram message member, alone messages datagram message member]
  rw [readLoop_deliver readable, scan_of_ignored]
  intro message member
  obtain ⟨messages, datagram, inside⟩ := List.mem_flatten.mp member
  exact alone messages datagram message inside state

/-- What the kernel promises of a message: well-formed attributes and whole `nlmsgerr`s. -/
structure Reply (message : Message) : Prop where
  short : message.bytes.length < 2 ^ 31
  wellFormed : WellFormed message
  errors : nlmsgType message.bytes = nlmsgError →
    nlmsgLength sizeofNlmsgerr ≤ nlmsgLen message.bytes

theorem Reply.errorCode_append {message : Message} (reply : Reply message) (behind : Bytes)
    (error : nlmsgType message.bytes = nlmsgError) :
    errorCode (message.bytes ++ behind) = errorCode message.bytes :=
  Rtaco.errorCode_append ((by decide : 20 ≤ nlmsgLength sizeofNlmsgerr).trans (reply.errors error))
    behind

/-- A reply stream: every datagram fits the receive buffer and is made of
complete padded messages, with well-formed attributes and whole `nlmsgerr`s. -/
structure ReplyStream (stream : List (List Message)) : Prop where
  fits : ∀ messages ∈ stream, (Records.Format.encode messages).length ≤ maxResponseBytes
  wellFormed : ∀ messages ∈ stream, ∀ message ∈ messages, WellFormed message
  errors : ∀ messages ∈ stream, ∀ message ∈ messages,
    nlmsgType message.bytes = nlmsgError →
      nlmsgLength sizeofNlmsgerr ≤ nlmsgLen message.bytes

instance (stream : List (List Message)) : Decidable (ReplyStream stream) :=
  decidable_of_iff (_ ∧ _ ∧ _)
    ⟨fun all => ⟨all.1, all.2.1, all.2.2⟩, fun all => ⟨all.1, all.2, all.3⟩⟩

theorem ReplyStream.reply {stream : List (List Message)} (replies : ReplyStream stream)
    {messages : List Message} (datagram : messages ∈ stream) {message : Message}
    (member : message ∈ messages) : Reply message where
  short := by
    have fits : (Records.Format.encode messages).length ≤ 65536 := replies.fits messages datagram
    have inside := length_le_length_encode_of_mem member
    omega
  wellFormed := replies.wellFormed messages datagram message member
  errors := replies.errors messages datagram message member

theorem ReplyStream.readable {stream : List (List Message)} (replies : ReplyStream stream)
    {processMessage : State → Bytes → State × Option (Expected Result)}
    (confined : ∀ message, Reply message → ReadsOnly processMessage message) :
    Readable processMessage stream where
  fits := replies.fits
  confined := fun _ datagram message member => confined message (replies.reply datagram member)

end Rtaco
