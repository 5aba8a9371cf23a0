import Rtaco.Tasks.Requests

/-!
# The message that decides a result

`read_loop` again, with the pointer to the message on which the task had its result.
-/

namespace Rtaco

open Netlink

universe u v

namespace Netlink

variable {State : Type u} {Result : Type v}

/-- The loop body with the pointer it was given as part of its result. -/
def traced (handle : State → Bytes → State × Option Result) (state : State) (header : Bytes) :
    State × Option (Bytes × Result) :=
  let (next, result) := handle state header
  (next, result.map fun result => (header, result))

/-- Forget the pointer. -/
def LoopOutcome.untraced : LoopOutcome State (Bytes × Result) → LoopOutcome State Result
  | finished state cursor => .finished state cursor
  | returned result => .returned result.2
  | diverged => .diverged

theorem untraced_messageLoop (handle : State → Bytes → State × Option Result) (memory : Bytes)
    (fuel : Nat) (state : State) (cursor : Cursor) :
    (messageLoop (traced handle) memory fuel state cursor).untraced =
      messageLoop handle memory fuel state cursor := by
  induction fuel generalizing state cursor with
  | zero => rfl
  | succ fuel inductionHypothesis =>
      unfold messageLoop
      split_ifs with continues
      · rcases handled : handle state (memory.drop cursor.header) with ⟨next, _ | result⟩
        · simp only [traced, handled, Option.map_none]
          exact inductionHypothesis next (cursor.next memory)
        · simp only [traced, handled, Option.map_some]
          rfl
      · rfl

theorem handled_of_traced {handle : State → Bytes → State × Option Result} {memory : Bytes}
    {fuel : Nat} {state : State} {cursor : Cursor} {header : Bytes} {result : Result}
    (returned : messageLoop (traced handle) memory fuel state cursor = .returned (header, result)) :
    ∃ earlier, (handle earlier header).2 = some result := by
  induction fuel generalizing state cursor with
  | zero => cases returned
  | succ fuel inductionHypothesis =>
      unfold messageLoop at returned
      split_ifs at returned with continues
      rcases handled : handle state (memory.drop cursor.header) with ⟨next, _ | outcome⟩
      · simp only [traced, handled, Option.map_none] at returned
        exact inductionHypothesis returned
      · simp only [traced, handled, Option.map_some, LoopOutcome.returned.injEq,
          Prod.mk.injEq] at returned
        obtain ⟨rfl, rfl⟩ := returned
        exact ⟨state, by rw [handled]⟩

end Netlink

variable {State : Type u} {Result : Type v}

/-- The pointer on which `read_loop` returns, if it returns on a message. -/
def decidingMessage (processMessage : State → Bytes → State × Option (Expected Result)) :
    State → Bytes → List (Except ErrorCode Bytes) → Option Bytes
  | _, _, [] => none
  | _, _, .error _ :: _ => none
  | state, buffer, .ok datagram :: completions =>
      let (filled, bytes) := receive maxResponseBytes buffer datagram
      match walkMessages (traced processMessage) filled bytes state with
      | .returned (header, _) => some header
      | .finished next _ => decidingMessage processMessage next filled completions
      | .diverged => none

theorem decided_of_returned {processMessage : State → Bytes → State × Option (Expected Result)}
    {state : State} {buffer : Bytes} {completions : List (Except ErrorCode Bytes)}
    {result : Expected Result}
    (returned : readLoop processMessage state buffer completions = .returned result) :
    (∃ error, .error error ∈ completions ∧ result = .unexpected error) ∨
      ∃ header earlier, decidingMessage processMessage state buffer completions = some header ∧
        (processMessage earlier header).2 = some result := by
  induction completions generalizing state buffer with
  | nil => cases returned
  | cons completion completions inductionHypothesis =>
      cases completion with
      | error error =>
          cases returned
          exact .inl ⟨error, List.mem_cons_self, rfl⟩
      | ok datagram =>
          simp only [readLoop, decidingMessage] at returned ⊢
          rw [walkMessages, ← untraced_messageLoop] at returned
          rw [walkMessages]
          cases walked : messageLoop (traced processMessage)
              (receive maxResponseBytes buffer datagram).1
              ((receive maxResponseBytes buffer datagram).1.length + 1) state
              (Cursor.start (receive maxResponseBytes buffer datagram).2) with
          | finished next cursor =>
              rw [walked] at returned
              rcases inductionHypothesis returned with ⟨error, member, same⟩ | decided
              · exact .inl ⟨error, List.mem_cons_of_mem _ member, same⟩
              · exact .inr decided
          | returned pair =>
              obtain ⟨header, outcome⟩ := pair
              rw [walked] at returned
              cases returned
              obtain ⟨earlier, handled⟩ := handled_of_traced walked
              exact .inr ⟨header, earlier, rfl, handled⟩
          | diverged =>
              rw [walked] at returned
              cases returned

theorem no_error_of_waiting {processMessage : State → Bytes → State × Option (Expected Result)}
    {state next : State} {buffer : Bytes} {completions : List (Except ErrorCode Bytes)}
    (waits : readLoop processMessage state buffer completions = .waiting next) (error : ErrorCode) :
    .error error ∉ completions := by
  induction completions generalizing state buffer with
  | nil => simp
  | cons completion completions inductionHypothesis =>
      cases completion with
      | error earlier => cases waits
      | ok datagram =>
          simp only [readLoop] at waits
          split at waits
          next result walked => cases waits
          next after cursor walked => simpa using inductionHypothesis waits
          next walked => cases waits

namespace Control.Request

/-- The message on which the task of a request returns. -/
def decidingMessage (request : Request) (sequence : Nat) (buffer : Bytes)
    (completions : List (Except ErrorCode Bytes)) : Option Bytes :=
  Rtaco.decidingMessage (request.processMessage sequence) request.initial buffer completions

theorem nlmsgSeq_of_processMessage {request : Request} {sequence : Nat} {state : request.State}
    {header : Bytes} {result : Expected request.Result}
    (handled : (request.processMessage sequence state header).2 = some result) :
    nlmsgSeq header = sequence := by
  by_contra foreign
  rw [processMessage_of_otherSequence request foreign] at handled
  cases handled

theorem no_error_of_waiting {request : Request} {sequence : Nat} {buffer : Bytes}
    {completions : List (Except ErrorCode Bytes)}
    (waits : request.readLoop sequence buffer completions = .waiting ()) (error : ErrorCode) :
    .error error ∉ completions := by
  rw [readLoop_eq] at waits
  obtain ⟨state, outcome⟩ := ReadOutcome.waiting_of_wrap waits
  exact Rtaco.no_error_of_waiting outcome error

/-- The result on a message is what the task makes of it, and the message carries the sequence
of the task. -/
structure DecidedBy (request : Request) (sequence : Nat) (result : Expected Answer)
    (header : Bytes) : Prop where
  own : nlmsgSeq header = sequence
  decides : ∃ state outcome, (request.processMessage sequence state header).2 = some outcome ∧
    result = outcome.map request.answer

/-- After a receive, a task that returns does so for the error of the receive or on a message of
its own sequence. -/
theorem decided_of_returned {request : Request} {sequence : Nat} {buffer : Bytes}
    {completions : List (Except ErrorCode Bytes)} {completion : Except ErrorCode Bytes}
    {result : Expected Answer}
    (waits : request.readLoop sequence buffer completions = .waiting ())
    (returned : request.readLoop sequence buffer (completions ++ [completion]) =
      .returned result) :
    (∃ error, completion = .error error ∧ result = .unexpected error) ∨
      ∃ header, request.decidingMessage sequence buffer (completions ++ [completion]) =
          some header ∧
        request.DecidedBy sequence result header := by
  rw [readLoop_eq] at returned
  obtain ⟨own, outcome, rfl⟩ := ReadOutcome.returned_of_wrap returned
  rcases Rtaco.decided_of_returned outcome with ⟨error, member, rfl⟩ | decided
  · rcases List.mem_append.mp member with earlier | last
    · exact absurd earlier (no_error_of_waiting waits error)
    · exact .inl ⟨error, (List.mem_singleton.mp last).symm, rfl⟩
  · obtain ⟨header, earlier, decides, handled⟩ := decided
    exact .inr ⟨header, decides, nlmsgSeq_of_processMessage handled, earlier, own, handled, rfl⟩

end Control.Request

end Rtaco
