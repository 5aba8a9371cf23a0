import Rtaco.Core.ControlSteps

/-!
# Who receives a reply

Replies come in the order of the requests and receives complete in the order they
were posted, so a reply reaches its own operation as long as the operations with an
outstanding receive are the first ones that wait for a reply.
-/

namespace Rtaco.Control

open Netlink

variable {state next : State} {operation : Nat}

/-- Only the guard of the channel differs. -/
structure Channel.SameQueues (before after : Channel) : Prop where
  receives : after.receives = before.receives
  requests : after.requests = before.requests

theorem Channel.SameQueues.refl (channel : Channel) : channel.SameQueues channel := ⟨rfl, rfl⟩

/-- The operation uses `socket_guard_`. -/
def State.Shares (state : State) (operation : Nat) : Prop :=
  ∃ entry ∈ state.operations operation, entry.request.channel operation = .shared

instance (state : State) (operation : Nat) : Decidable (state.Shares operation) := by
  unfold State.Shares
  cases state.operations operation with
  | none => exact .isFalse nofun
  | some entry =>
      exact decidable_of_iff (entry.request.channel operation = .shared)
        ⟨fun shared => ⟨entry, rfl, shared⟩, fun ⟨_, rfl, shared⟩ => shared⟩

/-- What a step may do to the queues of the shared socket. -/
inductive QueueStep (state next : State) : Label → Prop where
  | same {label : Label} (queues : state.shared.SameQueues next.shared) :
      QueueStep state next label
  | send {operation : Nat} (receives : next.shared.receives = state.shared.receives)
      (requests : next.shared.requests = state.shared.requests ++ [operation]) :
      QueueStep state next (.send operation)
  | postReceive {operation : Nat} (shares : state.Shares operation)
      (isOpen : state.shared.guard.socket.isOpen = true)
      (receives : next.shared.receives = state.shared.receives ++ [operation])
      (requests : next.shared.requests = state.shared.requests) :
      QueueStep state next (.postReceive operation)
  | reply {messages : List Message} {last : Bool} {reader owner : Nat}
      (answers : state.Answers owner messages)
      (receives : state.shared.receives = reader :: next.shared.receives)
      (requests : state.shared.requests = owner :: next.shared.requests) :
      QueueStep state next (.reply .shared messages last)
  | notify {datagram : Bytes} {reader : Nat}
      (receives : state.shared.receives = reader :: next.shared.receives)
      (requests : next.shared.requests = state.shared.requests) :
      QueueStep state next (.notify .shared datagram)
  | fail {error : ErrorCode} {reader : Nat}
      (receives : state.shared.receives = reader :: next.shared.receives)
      (requests : next.shared.requests = state.shared.requests) :
      QueueStep state next (.fail .shared error)
  | stop (receives : next.shared.receives = []) (requests : next.shared.requests = []) :
      QueueStep state next .stop

theorem queueStep {label : Label} (taken : step state label = some next) :
    QueueStep state next label := by
  have rewires : Rewires state .shared label state.shared next.shared := step_rewires taken .shared
  generalize before : state.shared = shared at rewires
  generalize after : next.shared = rewired at rewires
  cases rewires with
  | keep keeps => exact .same ⟨by rw [after, before], by rw [after, before]⟩
  | resume present phase uses => exact .same ⟨by rw [after, before], by rw [after, before]⟩
  | send present phase uses isOpen => exact .send (by rw [after, before]) (by rw [after, before])
  | postReceive present phase uses isOpen =>
      exact .postReceive ⟨_, present, uses⟩ (by rw [before, isOpen]) (by rw [after, before])
        (by rw [after, before])
  | reply received requested answers single =>
      refine .reply answers (by rw [after, before, received]) ?_
      rw [after, before, requested, single rfl]
      rfl
  | notify received => exact .notify (by rw [after, before, received]) (by rw [after, before])
  | fail received => exact .fail (by rw [after, before, received]) (by rw [after, before])
  | stop same isOpen => exact .stop (by rw [after]) (by rw [after])

/-- An operation asks for the next datagram only when the reply to it comes right after
the ones that earlier receives wait for, and a receive that ends without a reply is the
only one outstanding. -/
def ReceivesInTurn (state : State) : Label → Prop
  | .postReceive operation =>
      state.Shares operation → state.shared.guard.socket.isOpen = true →
        state.shared.receives ++ [operation] <+: state.shared.requests
  | .notify .shared _ => state.shared.receives.length ≤ 1
  | .fail .shared _ => state.shared.receives.length ≤ 1
  | _ => True

instance (state : State) (label : Label) : Decidable (ReceivesInTurn state label) := by
  unfold ReceivesInTurn
  split <;> infer_instance

/-- A reply is handed to the operation whose request it answers and whose sequence it
carries. -/
def ReachesOwner (state : State) : Label → Prop
  | .reply .shared messages _ =>
      match state.shared.receives, state.shared.requests with
      | reader :: _, owner :: _ =>
          state.Answers owner messages →
            reader = owner ∧
              ∀ message ∈ messages, state.sequenceOf reader = some (nlmsgSeq message.bytes)
      | _, _ => True
  | _ => True

/-- The outstanding receives belong to the first unanswered requests. -/
def State.InTurn (state : State) : Prop := state.shared.receives <+: state.shared.requests

theorem inTurn_of_sameQueues (inTurn : state.InTurn)
    (queues : state.shared.SameQueues next.shared) : next.InTurn := by
  unfold State.InTurn
  rw [queues.receives, queues.requests]
  exact inTurn

theorem inTurn_of_only {receives : List Nat} {reader : Nat}
    (received : state.shared.receives = reader :: receives)
    (only : state.shared.receives.length ≤ 1) : receives = [] := by
  rw [received, List.length_cons] at only
  exact List.eq_nil_of_length_eq_zero (by omega)

theorem inTurn_step {label : Label} (inTurn : state.InTurn) (allowed : ReceivesInTurn state label)
    (taken : step state label = some next) : next.InTurn := by
  cases queueStep taken with
  | same queues => exact inTurn_of_sameQueues inTurn queues
  | send receives requests =>
      unfold State.InTurn
      rw [receives, requests]
      exact inTurn.trans (List.prefix_append _ _)
  | postReceive shares isOpen receives requests =>
      unfold State.InTurn
      rw [receives, requests]
      exact allowed shares isOpen
  | reply answers receives requests =>
      unfold State.InTurn at inTurn
      rw [receives, requests] at inTurn
      exact (List.cons_prefix_cons.mp inTurn).2
  | notify receives requests =>
      unfold State.InTurn
      rw [inTurn_of_only receives allowed]
      exact List.nil_prefix
  | fail receives requests =>
      unfold State.InTurn
      rw [inTurn_of_only receives allowed]
      exact List.nil_prefix
  | stop receives requests =>
      unfold State.InTurn
      rw [receives]
      exact List.nil_prefix

theorem reachesOwner_of_inTurn (inTurn : state.InTurn) (label : Label) :
    ReachesOwner state label := by
  unfold ReachesOwner
  split
  next messages last =>
    split
    next reader receives owner requests received requested =>
      intro answers
      unfold State.InTurn at inTurn
      rw [received, requested] at inTurn
      obtain ⟨rfl, -⟩ := List.cons_prefix_cons.mp inTurn
      exact ⟨rfl, answers.2⟩
    next => trivial
  next => trivial

/-- As long as the receives are posted in turn, every reply reaches its operation. -/
theorem replies_reach_owner (now : Int) {labels : List Label}
    (inTurn : Machine.Allowed step ReceivesInTurn { now := now } labels) :
    Machine.Allowed step ReachesOwner { now := now } labels := by
  refine inTurn.of_invariant (fun state label holds _ => reachesOwner_of_inTurn holds label)
    (fun _ _ _ => inTurn_step) ?_
  exact List.nil_prefix

/-- The acknowledgement of a request. -/
def acknowledgement (seq pid : Nat) : Message :=
  Message.build nlmsgError 0 seq pid (List.replicate 4 0 ++ nlmsghdr 60 rtmNewneigh 1285 seq pid)
    (by simp)

/-- Two probes, the second of which aborts the wait of the first. -/
def twoProbes : List Label :=
  [.issue 0 .probeNeighbor, .issue 1 .probeNeighbor, .resume 0 {} [], .send 0, .postReceive 0,
    .tick 5, .expire, .resume 1 {} [], .send 1, .postReceive 1]

theorem replies_reach_owner_twoProbes :
    Machine.Allowed step ReachesOwner { now := 0 }
      (twoProbes ++ [.reply .shared [acknowledgement 1 9] true,
        .reply .shared [acknowledgement 2 9] true]) := by
  have posted : Machine.Allowed step ReceivesInTurn { now := 0 } twoProbes := by decide +kernel
  refine replies_reach_owner 0 (posted.append fun middle _ => ?_)
  exact ⟨trivial, fun _ _ => ⟨trivial, fun _ _ => trivial⟩⟩

theorem readLoop_of_otherSequence (stream : List (List Message)) {sequence : Nat}
    (fits : ∀ messages ∈ stream, (Records.Format.encode messages).length ≤ maxResponseBytes)
    (other : ∀ messages ∈ stream, ∀ message ∈ messages, nlmsgSeq message.bytes ≠ sequence)
    (buffer : Bytes) (request : Request) :
    request.readLoop sequence buffer (deliver stream) = .waiting () := by
  have ignored : ∀ messages ∈ stream, ∀ message ∈ messages,
      Ignores (request.processMessage sequence) message := by
    intro messages datagram message member state behind
    apply request.processMessage_of_otherSequence
    rw [nlmsgSeq_append behind message.header_le]
    exact other messages datagram message member
  rw [Request.readLoop_eq, readLoop_of_ignored fits ignored]
  rfl

theorem completeReceive_of_waiting {request : Request} {sequence : Nat} {buffer : Bytes}
    {completions : List (Except ErrorCode Bytes)} {completion : Except ErrorCode Bytes}
    (receiving : state.operations operation =
      some ⟨request, some sequence, buffer, .receiving completions⟩)
    (waits : request.readLoop sequence buffer (completions ++ [completion]) = .waiting ()) :
    completeReceive operation completion state =
      some (state.setPhase operation (.ready (completions ++ [completion]))) := by
  simp only [completeReceive, receiving, waits]

/-- Two operations wait for their replies in turn. -/
structure State.TwoWaiting (state : State) (first second : Nat) (request : Request)
    (sequence : Nat) : Prop where
  different : second ≠ first
  receives : state.shared.receives = [first, second]
  requests : state.shared.requests = [first, second]
  isOpen : state.shared.guard.socket.isOpen = true
  receiving : ∃ buffer,
    state.operations first = some ⟨request, some sequence, buffer, .receiving []⟩
  shares : request.channel first = .shared

/-- One notification in front of the replies swaps the receives of two operations, and the
first reply is handed to the second operation. -/
theorem swapped_by_notification {first second sequence : Nat} {request : Request}
    (waiting : state.TwoWaiting first second request sequence) (notification : Message)
    (fits : (Records.Format.encode [notification]).length ≤ maxResponseBytes)
    (other : nlmsgSeq notification.bytes ≠ sequence) :
    ∃ swapped, Machine.run step state
        [.notify .shared (Records.Format.encode [notification]), .postReceive first] =
          some swapped ∧
      swapped.sequenceOf first = some sequence ∧
      ∀ messages last, swapped.Answers first messages →
        ¬ ReachesOwner swapped (.reply .shared messages last) := by
  obtain ⟨buffer, started⟩ := waiting.receiving
  have waits : request.readLoop sequence buffer
      ([] ++ [.ok (Records.Format.encode [notification])]) = .waiting () :=
    readLoop_of_otherSequence [[notification]] (by simpa using fits) (by simpa using other) buffer
      request
  let notified : State := (state.setChannel .shared
    { state.shared with receives := [second] }).setPhase first
      (.ready [.ok (Records.Format.encode [notification])])
  have notify : step state (.notify .shared (Records.Format.encode [notification])) =
      some notified := by
    have received := waiting.receives
    simp only [State.shared] at received
    have receiving : (state.setChannel .shared
        { state.shared with receives := [second] }).operations first =
          some ⟨request, some sequence, buffer, .receiving []⟩ := started
    simp only [step, received]
    exact completeReceive_of_waiting receiving waits
  have ready : notified.operations first = some ⟨request, some sequence, buffer,
      .ready [.ok (Records.Format.encode [notification])]⟩ := by
    simp [notified, State.setPhase, State.setChannel, started]
  have queues : notified.shared = { state.shared with receives := [second] } := by
    simp [notified, State.shared]
  let swapped : State := (notified.setChannel .shared
    { notified.shared with receives := [second, first] }).setPhase first
      (.receiving [.ok (Records.Format.encode [notification])])
  have posted : step notified (.postReceive first) = some swapped := by
    have isOpen : notified.shared.guard.socket.isOpen = true := by
      rw [queues]
      exact waiting.isOpen
    simp only [step, ready, waiting.shares, isOpen, if_true, swapped]
    rw [queues]
    rfl
  refine ⟨swapped, ?_, ?_, ?_⟩
  · refine Machine.run_cons_eq_some.mpr ⟨notified, notify, ?_⟩
    exact Machine.run_cons_eq_some.mpr ⟨swapped, posted, rfl⟩
  · simp [swapped, State.sequenceOf, State.setPhase, State.setChannel, ready]
  · intro messages last answers reaches
    have receives : swapped.shared.receives = [second, first] := by simp [swapped, State.shared]
    have requests : swapped.shared.requests = [first, second] := by
      rw [← waiting.requests]
      simp [swapped, queues, State.shared]
    unfold ReachesOwner at reaches
    simp only [receives, requests] at reaches
    exact waiting.different (reaches answers).1

theorem twoProbes_waiting : ∃ state, Machine.run step { now := 0 } twoProbes = some state ∧
    state.TwoWaiting 0 1 .probeNeighbor 1 := by
  have ends : (Machine.run step { now := 0 } twoProbes).map (fun state =>
      (state.shared.receives, state.shared.requests, state.shared.guard.socket.isOpen,
        (state.operations 0).map fun entry => { entry with buffer := [] })) =
      some ([0, 1], [0, 1], true, some ⟨.probeNeighbor, some 1, [], .receiving []⟩) := by
    decide +kernel
  obtain ⟨state, reached, observed⟩ := Option.map_eq_some_iff.mp ends
  simp only [Prod.mk.injEq] at observed
  obtain ⟨receives, requests, isOpen, observed⟩ := observed
  obtain ⟨⟨request, sequence, buffer, phase⟩, receiving, entry⟩ :=
    Option.map_eq_some_iff.mp observed
  cases entry
  exact ⟨state, reached, by decide, receives, requests, isOpen, ⟨buffer, receiving⟩, rfl⟩

/-- A link notification ends the first receive, and the operation asks again behind the
other one: the other one is handed the reply. -/
theorem reply_reaches_other :
    ¬ ∀ labels, Machine.Allowed step ReachesOwner { now := 0 } labels := by
  intro reaches
  obtain ⟨state, reached, waiting⟩ := twoProbes_waiting
  obtain ⟨swapped, moved, sequence, misses⟩ :=
    swapped_by_notification waiting (loLink 0 0) (by decide) (by decide)
  have all := reaches (twoProbes ++ ([.notify .shared (Records.Format.encode [loLink 0 0]),
    .postReceive 0] ++ [.reply .shared [acknowledgement 1 9] true]))
  have last := (all.append_right reached).append_right moved
  refine misses [acknowledgement 1 9] true ⟨by decide, ?_⟩ last.1
  intro message member
  rw [List.mem_singleton.mp member, sequence]
  decide +kernel

end Rtaco.Control
