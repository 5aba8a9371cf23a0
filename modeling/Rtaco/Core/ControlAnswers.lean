import Rtaco.Core.ControlCoherence
import Rtaco.Tasks.DumpResult

/-!
# The answers of a `Control`

Over a whole run the answer of an operation is what the loop of its task makes of the receives
that were completed for it, whatever the other operations do. A dump has a socket of its own, so
its list is the one that the datagrams of that socket spell out.
-/

namespace Rtaco.Control

open Netlink

variable {state next : State} {operation : Nat}

/-- What the label completes a receive of the operation with. -/
def completedWith (state : State) (operation : Nat) : Label → List (Except ErrorCode Bytes)
  | .reply id messages _ =>
      if (state.channels id).receives.head? = some operation then
        [.ok (Records.Format.encode messages)]
      else []
  | .notify id datagram =>
      if (state.channels id).receives.head? = some operation then [.ok datagram] else []
  | .fail id error =>
      if (state.channels id).receives.head? = some operation then [.error error] else []
  | .stop =>
      if state.shared.guard.socket.isOpen = true ∧ operation ∈ state.shared.receives then
        [.error operationAborted]
      else []
  | _ => []

/-- What the receives of the operation complete with over a run. -/
def completions (operation : Nat) : State → List Label → List (Except ErrorCode Bytes)
  | _, [] => []
  | state, label :: labels =>
      completedWith state operation label ++
        match step state label with
        | none => []
        | some next => completions operation next labels

theorem completedWith_of_completes {label : Label} {completion : Except ErrorCode Bytes}
    (completes : label.Completes state operation completion) :
    completedWith state operation label = [completion] := by
  cases label with
  | reply id messages last =>
      obtain ⟨head, rfl⟩ := completes
      exact if_pos head
  | notify id datagram =>
      obtain ⟨head, rfl⟩ := completes
      exact if_pos head
  | fail id error =>
      obtain ⟨head, rfl⟩ := completes
      exact if_pos head
  | stop =>
      obtain ⟨isOpen, receives, rfl⟩ := completes
      exact if_pos ⟨isOpen, receives⟩
  | _ => exact completes.elim

theorem completedWith_of_spares {label : Label} (spares : label.Spares state operation) :
    completedWith state operation label = [] := by
  cases label with
  | reply id messages last => exact if_neg spares
  | notify id datagram => exact if_neg spares
  | fail id error => exact if_neg spares
  | stop => exact if_neg fun both => (spares both.1).1 both.2
  | _ => rfl

theorem completedWith_of_opensGate {label : Label} (opens : label.OpensGate) :
    completedWith state operation label = [] := by
  cases label with
  | issue issued request => rfl
  | expire => rfl
  | _ => exact opens.elim

namespace Operation

/-- The operation has its result. -/
def Ended (entry : Operation) (result : Expected Answer) : Prop :=
  entry.phase = .returning result ∨ entry.phase = .finished result

/-- The task of the operation is still waiting after the completed receives. -/
def Waits (entry : Operation) (completed : List (Except ErrorCode Bytes)) : Prop :=
  ∀ sequence, entry.sequence = some sequence →
    entry.request.readLoop sequence entry.buffer completed = .waiting ()

/-- The task of the operation has its result after the completed receives. -/
def Returns (entry : Operation) (completed : List (Except ErrorCode Bytes))
    (result : Expected Answer) : Prop :=
  ∃ sequence, entry.sequence = some sequence ∧
    entry.request.readLoop sequence entry.buffer completed = .returned result

/-- An operation ends with the result of its task, or with an error of another step. -/
def Gives (entry : Operation) (completed : List (Except ErrorCode Bytes))
    (result : Expected Answer) : Prop :=
  entry.Returns completed result ∨
    entry.Waits completed ∧ ∃ error, result = .unexpected error

/-- The operation is where its task is after the completed receives. -/
def Follows (entry : Operation) (completed : List (Except ErrorCode Bytes)) : Prop :=
  match entry.phase with
  | .ready completions => completions = completed ∧ entry.Waits completed
  | .receiving completions => completions = completed ∧ entry.Waits completed
  | .returning result => entry.Gives completed result
  | .finished result => entry.Gives completed result
  | _ => completed = []

variable {entry : Operation} {completed : List (Except ErrorCode Bytes)}

theorem waits_nil (entry : Operation) : entry.Waits [] :=
  fun sequence _ => readLoop_nil entry.request sequence entry.buffer

theorem Gives.of_waits (waits : entry.Waits completed) (error : ErrorCode) :
    entry.Gives completed (.unexpected error) :=
  .inr ⟨waits, error, rfl⟩

theorem not_returns_of_waits (waits : entry.Waits completed) {result : Expected Answer} :
    ¬ entry.Returns completed result := by
  rintro ⟨sequence, drawn, returned⟩
  rw [waits sequence drawn] at returned
  cases returned

theorem Follows.ended (follows : entry.Follows completed) {result : Expected Answer}
    (returns : entry.Returns completed result) : entry.Ended result := by
  have gives : ∀ other, entry.Gives completed other → other = result := by
    rintro other (⟨sequence, drawn, returned⟩ | ⟨waits, -⟩)
    · obtain ⟨same, found, outcome⟩ := returns
      rw [drawn] at found
      cases found
      rw [returned] at outcome
      cases outcome
      rfl
    · exact absurd returns (not_returns_of_waits waits)
  have unanswered : completed ≠ [] := by
    rintro rfl
    exact not_returns_of_waits entry.waits_nil returns
  unfold Follows at follows
  cases phase : entry.phase with
  | ready completions =>
      rw [phase] at follows
      exact absurd returns (not_returns_of_waits follows.2)
  | receiving completions =>
      rw [phase] at follows
      exact absurd returns (not_returns_of_waits follows.2)
  | returning other =>
      rw [phase] at follows
      rw [← gives other follows]
      exact .inl phase
  | finished other =>
      rw [phase] at follows
      rw [← gives other follows]
      exact .inr phase
  | _ =>
      rw [phase] at follows
      exact absurd follows unanswered

theorem Follows.returns (follows : entry.Follows completed) {answer : Answer}
    (ended : entry.Ended (.value answer)) : entry.Returns completed (.value answer) := by
  have gives : entry.Gives completed (.value answer) := by
    unfold Follows at follows
    rcases ended with phase | phase
    · rwa [phase] at follows
    · rwa [phase] at follows
  rcases gives with returned | ⟨-, error, unexpected⟩
  · exact returned
  · cases unexpected

end Operation

theorem Operation.Follows.step {label : Label} {entry later : Operation}
    {completed : List (Except ErrorCode Bytes)} (coherent : state.Coherent)
    (taken : step state label = some next) (present : state.operations operation = some entry)
    (found : next.operations operation = some later) (follows : entry.Follows completed) :
    later.Follows (completed ++ completedWith state operation label) := by
  have moves := step_moves taken operation
  rw [present, found] at moves
  unfold Operation.Follows at follows
  cases moves with
  | stay spares =>
      rw [completedWith_of_spares spares, List.append_nil]
      exact follows
  | wake opens phase =>
      rw [phase] at follows
      rw [completedWith_of_opensGate opens, List.append_nil]
      exact follows
  | failWait phase failed =>
      rw [phase] at follows
      exact (List.append_nil _).trans follows
  | refuse phase result =>
      rw [phase] at follows
      obtain rfl := follows
      exact .of_waits (Operation.waits_nil _) _
  | throw phase result =>
      rw [phase] at follows
      exact (List.append_nil _).trans follows
  | start phase result =>
      rw [phase] at follows
      exact (List.append_nil _).trans follows
  | send phase isOpen =>
      rw [phase] at follows
      obtain rfl := follows
      exact ⟨rfl, Operation.waits_nil _⟩
  | failSend phase =>
      rw [phase] at follows
      obtain rfl := follows
      exact .of_waits (Operation.waits_nil _) _
  | postReceive phase isOpen =>
      rw [phase] at follows
      change Operation.Follows _ (completed ++ [])
      rw [List.append_nil]
      exact follows
  | badDescriptor phase closed =>
      rw [phase] at follows
      change Operation.Follows _ (completed ++ [])
      rw [List.append_nil]
      exact .of_waits follows.2 _
  | wait completes phase drawn outcome =>
      rw [phase] at follows
      rw [completedWith_of_completes completes, ← follows.1]
      refine ⟨rfl, fun sequence same => ?_⟩
      rw [drawn] at same
      cases same
      exact outcome
  | result completes phase drawn outcome =>
      rw [phase] at follows
      rw [completedWith_of_completes completes, ← follows.1]
      exact .inl ⟨_, drawn, outcome⟩
  | abortSend isOpen phase shares =>
      rw [phase] at follows
      obtain rfl := follows
      have aside : operation ∉ state.shared.receives := by
        intro member
        obtain ⟨-, completions, receiving⟩ := channel_of_receives coherent member present
        rw [phase] at receiving
        cases receiving
      rw [completedWith, if_neg fun both => aside both.2]
      exact .of_waits (Operation.waits_nil _) _
  | finish phase =>
      rw [phase] at follows
      change Operation.Follows _ (completed ++ [])
      rw [List.append_nil]
      exact follows

/-- An operation that was issued is where its task is. -/
def State.Follows (state : State) (operation : Nat)
    (completed : List (Except ErrorCode Bytes)) : Prop :=
  match state.operations operation with
  | none => completed = []
  | some entry => entry.Follows completed

theorem follows_step {label : Label} {completed : List (Except ErrorCode Bytes)}
    (coherent : state.Coherent) (taken : step state label = some next)
    (follows : state.Follows operation completed) :
    next.Follows operation (completed ++ completedWith state operation label) := by
  unfold State.Follows at follows ⊢
  cases present : state.operations operation with
  | none =>
      rw [present] at follows
      obtain rfl := follows
      have moves := step_moves taken operation
      rw [present] at moves
      generalize next.operations operation = after at moves
      cases moves with
      | stay spares => exact completedWith_of_spares spares
      | issue request => exact rfl
  | some entry =>
      rw [present] at follows
      have moves := step_moves taken operation
      rw [present] at moves
      obtain ⟨later, found, -⟩ := exists_entry_of_moves moves
      rw [found]
      exact follows.step coherent taken present found

theorem follows_run {labels : List Label} {finish : State}
    {completed : List (Except ErrorCode Bytes)} (coherent : state.Coherent)
    (reached : Machine.run step state labels = some finish)
    (follows : state.Follows operation completed) :
    finish.Follows operation (completed ++ completions operation state labels) := by
  induction labels generalizing state completed with
  | nil =>
      cases reached
      rw [completions, List.append_nil]
      exact follows
  | cons label labels inductionHypothesis =>
      obtain ⟨next, taken, rest⟩ := Machine.run_cons_eq_some.mp reached
      have later := inductionHypothesis (coherent_step coherent taken) rest
        (follows_step coherent taken follows)
      rw [List.append_assoc] at later
      simp only [completions, taken]
      exact later

theorem follows_of_run (now : Int) {labels : List Label} {finish : State}
    (reached : Machine.run step { now := now } labels = some finish) {entry : Operation}
    (present : finish.operations operation = some entry) :
    entry.Follows (completions operation { now := now } labels) := by
  have follows : finish.Follows operation ([] ++ completions operation { now := now } labels) :=
    follows_run (coherent_initial now 1) reached rfl
  unfold State.Follows at follows
  rwa [present, List.nil_append] at follows

/-- In every state of every run, an operation whose task has a result ends with it, and an
operation that ends with a value has it from its task: the loop of its own task over what its own
receives were completed with, whatever the other operations do. -/
theorem ended_iff_task_returns (now : Int) {labels : List Label} {finish : State}
    (reached : Machine.run step { now := now } labels = some finish) {entry : Operation}
    (present : finish.operations operation = some entry) :
    (∀ result, entry.Returns (completions operation { now := now } labels) result →
      entry.Ended result) ∧
    ∀ answer, entry.Ended (.value answer) ↔
      entry.Returns (completions operation { now := now } labels) (.value answer) := by
  have follows := follows_of_run now reached present
  exact ⟨fun result => follows.ended, fun answer => ⟨follows.returns, follows.ended⟩⟩

theorem completeReceive_of_returned {request : Request} {sequence : Nat} {buffer : Bytes}
    {earlier : List (Except ErrorCode Bytes)} {completion : Except ErrorCode Bytes}
    {result : Expected Answer}
    (receiving : state.operations operation =
      some ⟨request, some sequence, buffer, .receiving earlier⟩)
    (returns : request.readLoop sequence buffer (earlier ++ [completion]) = .returned result) :
    completeReceive operation completion state =
      some (state.setPhase operation (.returning result)) := by
  simp only [completeReceive, receiving, returns]

/-- The reply that holds the terminator of a dump ends its `read_loop`. -/
theorem step_reply_of_dump {kind : EventKind} {sequence : Nat} {buffer : Bytes}
    {messages : List Message} {terminator : Message}
    (receives : (state.channels (.own operation)).receives = [operation])
    (requests : (state.channels (.own operation)).requests = [operation])
    (present : state.operations operation =
      some ⟨.dump kind, some sequence, buffer, .receiving []⟩)
    (replies : ReplyStream [messages])
    (own : ∀ message ∈ messages, nlmsgSeq message.bytes = sequence)
    (found : firstTerminator sequence messages = some terminator) :
    ∃ next, step state (.reply (.own operation) messages true) = some next ∧
      next.operations operation = some ⟨.dump kind, some sequence, buffer,
        .returning ((DumpTask.finish terminator.bytes
          (kind.entries sequence (beforeTerminator sequence messages))).map (.events kind))⟩ := by
  have some : messages ≠ [] := by
    rintro rfl
    cases found
  have answers : state.Answers operation messages := by
    refine ⟨some, fun message member => ?_⟩
    rw [State.sequenceOf, present, own message member]
    rfl
  have returns : (Request.dump kind).readLoop sequence buffer
      ([] ++ [.ok (Records.Format.encode messages)]) =
        .returned ((DumpTask.finish terminator.bytes
          (kind.entries sequence (beforeTerminator sequence messages))).map (.events kind)) := by
    have outcome := kind.readLoop_dump sequence replies buffer
    rw [List.flatten_singleton, found] at outcome
    exact congrArg (ReadOutcome.wrap (Answer.events kind)) outcome
  let answered : State := state.setChannel (.own operation)
    { guard := (state.channels (.own operation)).guard, receives := [], requests := [] }
  have receiving : answered.operations operation =
      .some ⟨.dump kind, .some sequence, buffer, .receiving []⟩ := present
  refine ⟨_, ?_, setPhase_self receiving⟩
  have unshared : ChannelId.own operation = .shared → True := fun _ => trivial
  simp only [step, receives, requests, if_true]
  rw [if_pos ⟨answers, unshared⟩]
  exact completeReceive_of_returned receiving returns

/-- A probe is issued while a dump receives, and has its turn when the dump has its list. -/
def dumpWithProbe : List Label :=
  [.issue 0 (.dump .link), .tick 5, .expire, .resume 0 {} [], .send 0, .postReceive 0,
    .issue 1 .probeNeighbor, .tick 5, .expire] ++
  [.reply (.own 0) [loLink 1 9, doneMessage 1 9 0 0] true]

theorem run_dumpWithProbe :
    ∃ finish entry, Machine.run step { now := 0 } dumpWithProbe = some finish ∧
      finish.operations 0 = some entry ∧ entry.request = .dump .link ∧ entry.sequence = some 1 ∧
      entry.phase = .returning (.value (.events .link
        [{ type := .newLink, index := 1, flags := 1, name := [108, 111] }])) := by
  have ends : (Machine.run step { now := 0 } (dumpWithProbe.take 9)).map (fun state =>
      ((state.channels (.own 0)).receives, (state.channels (.own 0)).requests,
        (state.operations 0).map fun entry => { entry with buffer := [] })) =
          some ([0], [0], some ⟨.dump .link, some 1, [], .receiving []⟩) := by
    decide +kernel
  obtain ⟨state, reached, observed⟩ := Option.map_eq_some_iff.mp ends
  simp only [Prod.mk.injEq] at observed
  obtain ⟨receives, requests, observed⟩ := observed
  obtain ⟨⟨request, sequence, buffer, phase⟩, present, entry⟩ :=
    Option.map_eq_some_iff.mp observed
  cases entry
  obtain ⟨finish, taken, returning⟩ := @step_reply_of_dump state 0 .link 1 buffer
    [loLink 1 9, doneMessage 1 9 0 0] (doneMessage 1 9 0 0) receives requests present (by decide)
    (by decide) rfl
  refine ⟨finish, _, ?_, returning, rfl, rfl, ?_⟩
  · rw [← List.take_append_drop 9 dumpWithProbe, Machine.run_append, reached]
    exact Machine.run_cons_eq_some.mpr ⟨finish, taken, rfl⟩
  · dsimp only
    decide +kernel

theorem ended_iff_task_returns_dumpWithProbe :
    ∃ finish entry, Machine.run step { now := 0 } dumpWithProbe = some finish ∧
      finish.operations 0 = some entry ∧
      entry.Returns (completions 0 { now := 0 } dumpWithProbe) (.value (.events .link
        [{ type := .newLink, index := 1, flags := 1, name := [108, 111] }])) := by
  obtain ⟨finish, entry, reached, present, -, -, phase⟩ := run_dumpWithProbe
  exact ⟨finish, entry, reached, present,
    ((ended_iff_task_returns 0 reached present).2 _).mp (.inl phase)⟩

end Rtaco.Control
