import Mathlib.Data.Set.Card
import Rtaco.Core.ControlCoherence
import Rtaco.Core.ControlReplies
import Rtaco.Tasks.DecidingMessage
import Rtaco.Tasks.FirstAnswer
import Rtaco.Tasks.NeighborRequest

/-!
# The sequence numbers of a `Control`

Every operation draws its own sequence number, and a task returns on a message of its own
number only: what earlier operations left unread on the shared socket decides nothing.
-/

namespace Rtaco.Control

open Netlink

variable {state next : State} {operation : Nat}

theorem completeReceive_sequence {completion : Except ErrorCode Bytes}
    (completed : completeReceive operation completion state = some next) :
    next.sequence = state.sequence := by
  obtain ⟨phase, entry, completions, present, receiving, -, rfl⟩ :=
    completeReceive_eq_some completed
  rfl

theorem abortReceives_sequence {receives : List Nat}
    (aborted : receives.foldlM (fun state operation =>
      completeReceive operation (.error operationAborted) state) state = some next) :
    next.sequence = state.sequence := by
  induction receives generalizing state with
  | nil =>
      cases aborted
      rfl
  | cons reader receives inductionHypothesis =>
      obtain ⟨middle, completed, rest⟩ := Option.bind_eq_some_iff.mp aborted
      exact (inductionHypothesis rest).trans (completeReceive_sequence completed)

theorem sequence_of_step {label : Label} (taken : step state label = some next)
    (passes : ∀ woken outcomes stale, label ≠ .resume woken outcomes stale) :
    next.sequence = state.sequence := by
  cases step_effect taken with
  | resume present phase outcomes stale => exact absurd rfl (passes _ outcomes stale)
  | reply received requested answers single completed =>
      exact (completeReceive_sequence completed).trans rfl
  | notify received completed => exact (completeReceive_sequence completed).trans rfl
  | fail received completed => exact (completeReceive_sequence completed).trans rfl
  | stop isOpen aborted => exact (abortReceives_sequence aborted).trans rfl
  | _ => rfl

/-- What a step may do to the counter and to the numbers of the operations. -/
inductive Draws (state next : State) : Prop where
  | none (counter : next.sequence = state.sequence)
      (kept : ∀ operation, next.sequenceOf operation = state.sequenceOf operation)
  | one (operation : Nat) (fresh : state.sequenceOf operation = none)
      (counter : next.sequence = (state.sequence + 1) % 2 ^ 32)
      (drawn : next.sequenceOf operation = some state.sequence)
      (kept : ∀ other, other ≠ operation → next.sequenceOf other = state.sequenceOf other)

theorem sequenceOf_of_present {entry : Operation}
    (present : state.operations operation = some entry) :
    state.sequenceOf operation = entry.sequence := by
  rw [State.sequenceOf, present, Option.bind_some]

theorem sequenceOf_setPhase (actor : Nat) (phase : Phase) (operation : Nat) :
    (state.setPhase actor phase).sequenceOf operation = state.sequenceOf operation := by
  unfold State.sequenceOf
  by_cases same : operation = actor
  · subst same
    cases present : state.operations operation with
    | none => simp [State.setPhase, present]
    | some entry => simp [setPhase_self present]
  · rw [setPhase_of_ne same]

theorem sequenceOf_of_step {label : Label} (taken : step state label = some next)
    (waits : ∀ outcomes stale, label ≠ .resume operation outcomes stale) :
    next.sequenceOf operation = state.sequenceOf operation := by
  have moves := step_moves taken operation
  unfold State.sequenceOf
  generalize state.operations operation = before at moves ⊢
  generalize next.operations operation = after at moves ⊢
  cases moves with
  | start => exact absurd rfl (waits _ _)
  | _ => rfl

theorem sequence_of_openSocket {entry : Operation} (outcomes : Outcomes) (stale : Bytes)
    (present : state.operations operation = some entry)
    (opened : openSocket operation entry outcomes stale state = next) :
    next.sequence = state.sequence ∧ next.sequenceOf operation = entry.sequence ∨
      next.sequence = (state.sequence + 1) % 2 ^ 32 ∧
        next.sequenceOf operation = some state.sequence := by
  unfold openSocket at opened
  simp only [] at opened
  rcases called : (state.channels (entry.request.channel operation)).guard.ensureOpen outcomes with
    ⟨guard, result⟩
  rw [called] at opened
  cases result with
  | unexpected error =>
      cases opened
      exact .inl ⟨rfl, (sequenceOf_setPhase _ _ _).trans (sequenceOf_of_present present)⟩
  | thrown action error =>
      cases opened
      exact .inl ⟨rfl, (sequenceOf_setPhase _ _ _).trans (sequenceOf_of_present present)⟩
  | value =>
      cases opened
      exact .inr ⟨rfl, by simp [State.sequenceOf]⟩

theorem undrawn_of_woken (coherent : state.Coherent) {entry : Operation}
    (present : state.operations operation = some entry) (phase : entry.phase = .woken) :
    state.sequenceOf operation = none := by
  have holds := coherent.phases operation entry present
  simp only [State.Holds, phase] at holds
  exact (sequenceOf_of_present present).trans holds

theorem step_draws {label : Label} (coherent : state.Coherent)
    (taken : step state label = some next) : Draws state next := by
  by_cases resumes : ∃ woken outcomes stale, label = .resume woken outcomes stale
  · obtain ⟨woken, outcomes, stale, rfl⟩ := resumes
    have others : ∀ other, other ≠ woken → next.sequenceOf other = state.sequenceOf other := by
      intro other different
      refine sequenceOf_of_step taken ?_
      rintro outcomes stale ⟨⟩
      exact different rfl
    cases step_effect taken with
    | resume present phase =>
        have before := undrawn_of_woken coherent present phase
        rcases sequence_of_openSocket outcomes stale present rfl with
          ⟨counter, kept⟩ | ⟨counter, drawn⟩
        · refine .none counter fun operation => ?_
          by_cases same : operation = woken
          · subst same
            exact kept.trans (sequenceOf_of_present present).symm
          · exact others operation same
        · exact .one woken before counter drawn others
  · have passes : ∀ woken outcomes stale, label ≠ .resume woken outcomes stale :=
      fun woken outcomes stale same => resumes ⟨woken, outcomes, stale, same⟩
    exact .none (sequence_of_step taken passes)
      fun operation => sequenceOf_of_step taken (passes operation)

/-- The operations in the order in which they drew their numbers. -/
structure State.Numbered (state : State) (order : List Nat) : Prop where
  nodup : order.Nodup
  counter : state.sequence = (1 + order.length) % 2 ^ 32
  drawn : ∀ operation sequence, state.sequenceOf operation = some sequence ↔
    ∃ index, order[index]? = some operation ∧ sequence = (1 + index) % 2 ^ 32

theorem getElem?_snoc {order : List Nat} {last index : Nat} :
    (order ++ [last])[index]? = some operation ↔
      order[index]? = some operation ∨ index = order.length ∧ operation = last := by
  rcases Nat.lt_trichotomy index order.length with inside | rfl | outside
  · rw [List.getElem?_append_left inside]
    simp [inside.ne]
  · simp [eq_comm]
  · rw [List.getElem?_eq_none (by simp; omega), List.getElem?_eq_none outside.le]
    simp [outside.ne']

theorem numbered_step {order : List Nat} {label : Label} (coherent : state.Coherent)
    (numbered : state.Numbered order) (taken : step state label = some next) :
    ∃ longer, next.Numbered longer := by
  cases step_draws coherent taken with
  | none counter kept =>
      refine ⟨order, numbered.nodup, counter.trans numbered.counter, fun operation sequence => ?_⟩
      rw [kept]
      exact numbered.drawn operation sequence
  | one drawer fresh counter drawn kept =>
      have absent : drawer ∉ order := by
        intro member
        obtain ⟨index, found⟩ := List.mem_iff_getElem?.mp member
        rw [(numbered.drawn drawer _).mpr ⟨index, found, rfl⟩] at fresh
        cases fresh
      refine ⟨order ++ [drawer], ?_, ?_, ?_⟩
      · refine List.nodup_append.mpr ⟨numbered.nodup, List.nodup_singleton _, ?_⟩
        intro earlier member other last same
        rw [List.mem_singleton.mp last] at same
        exact absent (same ▸ member)
      · rw [counter, numbered.counter, List.length_append]
        simp only [List.length_cons, List.length_nil]
        omega
      · intro operation sequence
        simp only [getElem?_snoc]
        by_cases same : operation = drawer
        · subst same
          rw [drawn, Option.some.injEq, numbered.counter]
          constructor
          · rintro rfl
            exact ⟨order.length, .inr ⟨rfl, rfl⟩, rfl⟩
          · rintro ⟨index, earlier | ⟨rfl, -⟩, rfl⟩
            · exact absurd (List.mem_of_getElem? earlier) absent
            · rfl
        · simp only [kept operation same, numbered.drawn, same, and_false, or_false]

theorem numbered_of_run {now : Int} {labels : List Label} {finish : State}
    (reached : Machine.run step { now := now } labels = some finish) :
    ∃ order, finish.Numbered order := by
  have initially : State.Coherent { now := now } ∧ ∃ order, State.Numbered { now := now } order :=
    ⟨coherent_initial now 1, [], List.nodup_nil, rfl, by simp [State.sequenceOf]⟩
  have preserved : ∀ (state : State) (label : Label) (next : State),
      (state.Coherent ∧ ∃ order, state.Numbered order) → step state label = some next →
      next.Coherent ∧ ∃ order, next.Numbered order := by
    rintro state label next ⟨coherent, order, numbered⟩ taken
    exact ⟨coherent_step coherent taken, numbered_step coherent numbered taken⟩
  exact (Machine.invariant_of_run preserved initially reached).2

/-- The operations that have drawn a number for their request. -/
def State.requested (state : State) : Set Nat :=
  fun operation => (state.sequenceOf operation).isSome

theorem requested_eq {order : List Nat} (numbered : state.Numbered order) :
    state.requested = ↑order.toFinset := by
  ext operation
  rw [List.coe_toFinset, Set.mem_ofPred_eq, List.mem_iff_getElem?]
  change (state.sequenceOf operation).isSome ↔ _
  rw [Option.isSome_iff_exists]
  constructor
  · rintro ⟨sequence, drawn⟩
    obtain ⟨index, found, -⟩ := (numbered.drawn _ _).mp drawn
    exact ⟨index, found⟩
  · rintro ⟨index, found⟩
    exact ⟨_, (numbered.drawn _ _).mpr ⟨index, found, rfl⟩⟩

theorem sequence_injective {order : List Nat} (numbered : state.Numbered order)
    (few : state.requested.ncard < 2 ^ 32) {first second sequence : Nat}
    (left : state.sequenceOf first = some sequence)
    (right : state.sequenceOf second = some sequence) : first = second := by
  rw [requested_eq numbered, Set.ncard_coe_finset,
    List.toFinset_card_of_nodup numbered.nodup] at few
  obtain ⟨index, found, same⟩ := (numbered.drawn _ _).mp left
  obtain ⟨other, foundOther, sameOther⟩ := (numbered.drawn _ _).mp right
  obtain ⟨inside, -⟩ := List.getElem?_eq_some_iff.mp found
  obtain ⟨insideOther, -⟩ := List.getElem?_eq_some_iff.mp foundOther
  have equal : index = other := by omega
  rw [equal, foundOther] at found
  exact (Option.some.inj found).symm

theorem sequence_lt {order : List Nat} {sequence : Nat} (numbered : state.Numbered order)
    (drawn : state.sequenceOf operation = some sequence) : sequence < 2 ^ 32 := by
  obtain ⟨index, -, rfl⟩ := (numbered.drawn _ _).mp drawn
  exact Nat.mod_lt _ (by decide)

/-- The number of an operation is that of its request, and the result that a receive gives it is
the error of the receive or what its task makes of a message with that number, which is not the
number of any other operation. -/
structure DecidedAlone (state : State) (operation : Nat) (entry : Operation)
    (completions : List (Except ErrorCode Bytes)) (completion : Except ErrorCode Bytes)
    (result : Expected Answer) (sequence : Nat) : Prop where
  drawn : entry.sequence = some sequence
  sent : ∀ payload, entry.request.Sends sequence payload → nlmsgSeq payload = sequence
  decided : (∃ error, completion = .error error ∧ result = .unexpected error) ∨
    ∃ header, entry.request.decidingMessage sequence entry.buffer (completions ++ [completion]) =
        some header ∧
      entry.request.DecidedBy sequence result header ∧
      ∀ other, other ≠ operation → state.sequenceOf other ≠ some (nlmsgSeq header)

theorem returned_of_receiving {label : Label} (taken : step state label = some next)
    {entry later : Operation} {completions : List (Except ErrorCode Bytes)} {sequence : Nat}
    {result : Expected Answer} (present : state.operations operation = some entry)
    (receives : entry.phase = .receiving completions) (drawn : entry.sequence = some sequence)
    (found : next.operations operation = some later) (returns : later.phase = .returning result) :
    ∃ completion, label.Completes state operation completion ∧
      entry.request.readLoop sequence entry.buffer (completions ++ [completion]) =
        .returned result := by
  have moves := step_moves taken operation
  rw [present] at moves
  rcases moves_of_receiving moves receives with
    ⟨-, same⟩ | ⟨completion, completes, number, own, ⟨-, same⟩ | ⟨outcome, returned, same⟩⟩
  · rw [found] at same
    cases same
    rw [receives] at returns
    cases returns
  · rw [found] at same
    cases same
    cases returns
  · rw [found] at same
    rw [drawn] at own
    cases same
    cases own
    cases returns
    exact ⟨completion, completes, returned⟩

/-- In every run with fewer than `2 ^ 32` requests, whatever the receives of an operation are
completed with, its result is decided by a message of its own number. -/
theorem decided_alone (now : Int) {labels : List Label} {state next : State} {label : Label}
    (reached : Machine.run step { now := now } labels = some state)
    (few : state.requested.ncard < 2 ^ 32) (taken : step state label = some next)
    {operation : Nat} {entry later : Operation} {completions : List (Except ErrorCode Bytes)}
    {result : Expected Answer} (present : state.operations operation = some entry)
    (receives : entry.phase = .receiving completions)
    (found : next.operations operation = some later) (returns : later.phase = .returning result) :
    ∃ completion sequence, label.Completes state operation completion ∧
      DecidedAlone state operation entry completions completion result sequence := by
  have coherent := coherent_of_run reached
  obtain ⟨order, numbered⟩ := numbered_of_run reached
  have holds := coherent.phases operation entry present
  simp only [State.Holds, receives] at holds
  obtain ⟨⟨sequence, drawn, waits⟩, -⟩ := holds
  obtain ⟨completion, completes, outcome⟩ := returned_of_receiving taken present receives drawn
    found returns
  refine ⟨completion, sequence, completes, drawn, ?_, ?_⟩
  · intro payload sends
    have number := (sequenceOf_of_present present).trans drawn
    exact Request.nlmsgSeq_of_sends (sequence_lt numbered number) sends
  · rcases Request.decided_of_returned waits outcome with error | ⟨header, decides, decided⟩
    · exact .inl error
    · refine .inr ⟨header, decides, decided, fun other different same => different ?_⟩
      rw [decided.own] at same
      exact sequence_injective numbered few same ((sequenceOf_of_present present).trans drawn)

/-- A probe passes over what is left of another request and returns on its acknowledgement. -/
theorem readLoop_acknowledgement (sequence : Nat) (buffer : Bytes) (leftover message : Message)
    (foreign : nlmsgSeq leftover.bytes ≠ sequence) (own : nlmsgSeq message.bytes = sequence)
    (error : nlmsgType message.bytes = nlmsgError)
    (fits : (Records.Format.encode [leftover, message]).length ≤ maxResponseBytes) :
    ∃ result, Request.probeNeighbor.readLoop sequence buffer
      [.ok (Records.Format.encode [leftover, message])] = .returned result := by
  have passed : ∀ other ∈ [leftover], ¬ Request.probeNeighbor.Stops sequence other := by
    intro other member stops
    rw [List.mem_singleton.mp member] at stops
    exact foreign stops.1
  have ends : Request.probeNeighbor.ReturnsAfter sequence buffer [[leftover, message]] 1 :=
    (@Request.returnsAfter_iff .probeNeighbor sequence [[leftover, message]] [leftover] [] message
      (by simpa using fits) buffer rfl).mpr ⟨passed, own, error⟩
  obtain ⟨result, -, returned⟩ := ends.returns
  exact ⟨_, returned 1 (by simp)⟩

/-- The receive of the first probe fails, and its acknowledgement is left for the second one. -/
def leftoverReply : List Label := twoProbes ++ [.fail .shared ⟨105⟩]

theorem decided_alone_leftoverReply : ∃ state entry completion result sequence,
    Machine.run step { now := 0 } leftoverReply = some state ∧
      state.operations 1 = some entry ∧
      (Label.notify .shared
        (Records.Format.encode [acknowledgement 1 9, acknowledgement 2 9])).Completes state 1
          completion ∧
      DecidedAlone state 1 entry [] completion result sequence := by
  have ends : (Machine.run step { now := 0 } leftoverReply).map (fun state =>
      (state.shared.receives, (state.operations 1).map fun entry => { entry with buffer := [] })) =
      some ([1], some ⟨.probeNeighbor, some 2, [], .receiving []⟩) := by
    decide +kernel
  obtain ⟨state, reached, observed⟩ := Option.map_eq_some_iff.mp ends
  obtain ⟨receives, observed⟩ := Prod.mk.inj observed
  obtain ⟨⟨request, sequence, buffer, phase⟩, present, entry⟩ :=
    Option.map_eq_some_iff.mp observed
  cases entry
  obtain ⟨result, returned⟩ := readLoop_acknowledgement 2 buffer (acknowledgement 1 9)
    (acknowledgement 2 9) (by decide) (by decide) (by decide) (by decide)
  have few : state.requested.ncard < 2 ^ 32 := by
    have inside : state.requested ⊆ ({0, 1} : Set Nat) := by
      intro operation number
      obtain ⟨sequence, drawn⟩ := Option.isSome_iff_exists.mp number
      obtain ⟨entry, found, -⟩ := Option.bind_eq_some_iff.mp drawn
      obtain ⟨request, issued⟩ := issued_of_run reached rfl found
      simp only [leftoverReply, twoProbes, List.cons_append, List.nil_append, List.mem_cons,
        Label.issue.injEq, reduceCtorEq, List.not_mem_nil, or_false] at issued
      exact issued.imp And.left And.left
    have bounded := Set.ncard_le_ncard inside (Set.toFinite _)
    have two := Set.ncard_pair (show (0 : Nat) ≠ 1 by decide)
    omega
  have taken : step state (.notify .shared
      (Records.Format.encode [acknowledgement 1 9, acknowledgement 2 9])) =
        some ((state.setChannel .shared { state.shared with receives := [] }).setPhase 1
          (.returning result)) := by
    simp only [State.shared] at receives
    simp only [step, receives, completeReceive, setChannel_operations, present, List.nil_append,
      returned]
  have found := @setPhase_self (state.setChannel .shared { state.shared with receives := [] }) 1
    (.returning result) _ present
  obtain ⟨completion, sequence, completes, alone⟩ :=
    decided_alone 0 reached few taken present rfl found rfl
  exact ⟨state, _, completion, result, sequence, reached, present, completes, alone⟩

end Rtaco.Control
