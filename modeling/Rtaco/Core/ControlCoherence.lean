import Rtaco.Core.ControlSteps

/-!
# What holds in every state of a `Control`

The queues of a channel and the phases of the operations agree: the outstanding receives of a
channel are those of the operations that use it and receive.
-/

namespace Rtaco.Control

open Netlink

variable {state next : State} {operation : Nat}

namespace State

/-- What a phase says about the rest of the state. -/
def Holds (state : State) (operation : Nat) (entry : Operation) : Prop :=
  match entry.phase with
  | .waiting => entry.sequence = none
  | .woken => entry.sequence = none
  | .sending => (∃ sequence, entry.sequence = some sequence) ∧
      (state.guardOf operation entry).socket.isOpen = true
  | .ready completions => (∃ sequence, entry.sequence = some sequence ∧
        entry.request.readLoop sequence entry.buffer completions = .waiting ()) ∧
      (entry.request.channel operation ≠ .shared →
        (state.guardOf operation entry).socket.isOpen = true)
  | .receiving completions => (∃ sequence, entry.sequence = some sequence ∧
        entry.request.readLoop sequence entry.buffer completions = .waiting ()) ∧
      (state.guardOf operation entry).socket.isOpen = true ∧
      operation ∈ (state.channels (entry.request.channel operation)).receives
  | _ => True

/-- The operation has a receive outstanding on the channel. -/
def Receives (state : State) (operation : Nat) (id : ChannelId) : Prop :=
  ∃ entry completions, state.operations operation = some entry ∧
    entry.phase = .receiving completions ∧ entry.request.channel operation = id

structure Coherent (state : State) : Prop where
  receives : ∀ id, ∀ operation ∈ (state.channels id).receives, state.Receives operation id
  nodup : ∀ id, (state.channels id).receives.Nodup
  requests : ∀ id, ∀ operation ∈ (state.channels id).requests,
    ∃ entry ∈ state.operations operation, entry.request.channel operation = id
  phases : ∀ operation, ∀ entry ∈ state.operations operation, state.Holds operation entry
  finite : ∃ bound, ∀ operation, bound ≤ operation → state.operations operation = none

end State

theorem coherent_initial (now : Int) (sequence : Nat) :
    State.Coherent { now := now, sequence := sequence } where
  receives := by simp
  nodup := by simp
  requests := by simp
  phases := by simp
  finite := ⟨0, fun _ _ => rfl⟩

section Rewires

variable {label : Label} {id : ChannelId} {before after : Channel}

theorem isOpen_of_rewires (rewires : Rewires state id label before after)
    (isOpen : before.guard.socket.isOpen = true) (spared : label = .stop → id ≠ .shared) :
    after.guard.socket.isOpen = true := by
  cases rewires with
  | resume present phase uses => rwa [SocketGuard.ensureOpen_of_open isOpen]
  | stop shared stays => exact absurd shared (spared rfl)
  | _ => exact isOpen

theorem mem_tail_of_head_ne {queue rest : List Nat} {reader : Nat}
    (received : queue = reader :: rest) (waits : operation ∈ queue)
    (elsewhere : queue.head? ≠ some operation) : operation ∈ rest := by
  rw [received] at waits elsewhere
  rcases List.mem_cons.mp waits with rfl | later
  · exact absurd rfl elsewhere
  · exact later

theorem mem_receives_of_spares (rewires : Rewires state id label (state.channels id) after)
    (spares : label.Spares state operation) (receives : operation ∈ (state.channels id).receives) :
    operation ∈ after.receives := by
  generalize channel : state.channels id = before at rewires receives
  cases rewires with
  | postReceive present phase uses isOpen => exact List.mem_append_left _ receives
  | reply received requested answers single =>
      rw [← channel] at received receives
      exact mem_tail_of_head_ne received receives spares
  | notify received =>
      rw [← channel] at received receives
      exact mem_tail_of_head_ne received receives spares
  | fail received =>
      rw [← channel] at received receives
      exact mem_tail_of_head_ne received receives spares
  | stop shared isOpen =>
      subst shared
      rw [← channel] at isOpen receives
      exact absurd receives (spares isOpen).1
  | _ => exact receives

theorem notMem_tail_of_head {queue rest : List Nat} {reader : Nat}
    (received : queue = reader :: rest) (nodup : queue.Nodup)
    (head : queue.head? = some operation) : operation ∉ rest := by
  rw [received] at nodup head
  cases head
  exact (List.nodup_cons.mp nodup).1

theorem notMem_receives_of_completes {completion : Except ErrorCode Bytes}
    (rewires : Rewires state id label (state.channels id) after)
    (nodup : (state.channels id).receives.Nodup)
    (completes : label.Completes state operation completion)
    (only : ∀ other, operation ∈ (state.channels other).receives → other = id) :
    operation ∉ after.receives := by
  cases label with
  | reply other messages last =>
      obtain ⟨head, -⟩ := completes
      obtain rfl := only other (List.mem_of_mem_head? head)
      generalize channel : state.channels other = before at rewires
      cases rewires with
      | keep different => exact absurd rfl different
      | reply received => exact notMem_tail_of_head received (channel ▸ nodup) (channel ▸ head)
  | notify other datagram =>
      obtain ⟨head, -⟩ := completes
      obtain rfl := only other (List.mem_of_mem_head? head)
      generalize channel : state.channels other = before at rewires
      cases rewires with
      | keep different => exact absurd rfl different
      | notify received => exact notMem_tail_of_head received (channel ▸ nodup) (channel ▸ head)
  | fail other error =>
      obtain ⟨head, -⟩ := completes
      obtain rfl := only other (List.mem_of_mem_head? head)
      generalize channel : state.channels other = before at rewires
      cases rewires with
      | keep different => exact absurd rfl different
      | fail received => exact notMem_tail_of_head received (channel ▸ nodup) (channel ▸ head)
  | stop =>
      obtain ⟨isOpen, member, -⟩ := completes
      obtain rfl := only .shared member
      generalize channel : state.channels .shared = before at rewires
      cases rewires with
      | keep closed =>
          rw [closed rfl] at isOpen
          cases isOpen
      | stop shared stays => simp
  | _ => exact completes.elim

/-- What a step may do to the outstanding receives of a channel. -/
inductive Requeues (state : State) (id : ChannelId) (label : Label) (before : Channel) :
    List Nat → Prop where
  | same : Requeues state id label before before.receives
  | taken {reader : Nat} {receives : List Nat} (received : before.receives = reader :: receives) :
      Requeues state id label before receives
  | dropped : Requeues state id label before []
  | posted {reader : Nat} {entry : Operation} {completions : List (Except ErrorCode Bytes)}
      (posts : label = .postReceive reader) (isOpen : before.guard.socket.isOpen = true)
      (present : state.operations reader = some entry) (phase : entry.phase = .ready completions)
      (uses : entry.request.channel reader = id) :
      Requeues state id label before (before.receives ++ [reader])

theorem requeues_of_rewires (rewires : Rewires state id label before after) :
    Requeues state id label before after.receives := by
  cases rewires with
  | keep keeps => exact .same
  | resume present phase uses => exact .same
  | send present phase uses isOpen => exact .same
  | postReceive present phase uses isOpen => exact .posted rfl isOpen present phase uses
  | reply received => exact .taken received
  | notify received => exact .taken received
  | fail received => exact .taken received
  | stop shared isOpen => exact .dropped

theorem mem_receives_of_rewires (rewires : Rewires state id label before after)
    (receives : operation ∈ after.receives) :
    operation ∈ before.receives ∨ label = .postReceive operation ∧
      before.guard.socket.isOpen = true ∧ ∃ entry completions,
        state.operations operation = some entry ∧ entry.phase = .ready completions ∧
        entry.request.channel operation = id := by
  have requeues := requeues_of_rewires rewires
  generalize after.receives = queue at requeues receives
  cases requeues with
  | same => exact .inl receives
  | taken received =>
      rw [received]
      exact .inl (List.mem_cons_of_mem _ receives)
  | dropped => cases receives
  | posted posts isOpen present phase uses =>
      rcases List.mem_append.mp receives with earlier | posted
      · exact .inl earlier
      · rcases List.mem_singleton.mp posted with rfl
        exact .inr ⟨posts, isOpen, _, _, present, phase, uses⟩

theorem nodup_of_rewires (rewires : Rewires state id label before after)
    (nodup : before.receives.Nodup)
    (posts : ∀ operation entry completions, state.operations operation = some entry →
      entry.phase = .ready completions → operation ∉ before.receives) : after.receives.Nodup := by
  have requeues := requeues_of_rewires rewires
  generalize after.receives = queue at requeues ⊢
  cases requeues with
  | same => exact nodup
  | taken received =>
      rw [received] at nodup
      exact (List.nodup_cons.mp nodup).2
  | dropped => exact List.nodup_nil
  | posted posted isOpen present phase uses =>
      refine List.nodup_append.mpr ⟨nodup, List.nodup_singleton _, ?_⟩
      intro earlier member other last same
      rcases List.mem_singleton.mp last with rfl
      exact posts _ _ _ present phase (same ▸ member)

theorem mem_requests_of_rewires (rewires : Rewires state id label before after)
    (requests : operation ∈ after.requests) :
    operation ∈ before.requests ∨
      ∃ entry ∈ state.operations operation, entry.request.channel operation = id := by
  cases rewires with
  | send present phase uses isOpen =>
      rcases List.mem_append.mp requests with earlier | sent
      · exact .inl earlier
      · rcases List.mem_singleton.mp sent with rfl
        exact .inr ⟨_, present, uses⟩
  | @reply messages last _ _ _ _ _ received requested =>
      rw [requested]
      cases last with
      | true => exact .inl (List.mem_cons_of_mem _ requests)
      | false => exact .inl requests
  | stop shared isOpen => cases requests
  | _ => exact .inl requests

end Rewires

theorem exists_entry_of_moves {label : Label} {entry : Operation} {after : Option Operation}
    (moves : Moves state operation label (some entry) after) :
    ∃ later, after = some later ∧ later.request = entry.request := by
  cases moves <;> exact ⟨_, rfl, rfl⟩

theorem channel_of_receives {id : ChannelId} (coherent : state.Coherent)
    (receives : operation ∈ (state.channels id).receives) {entry : Operation}
    (present : state.operations operation = some entry) :
    entry.request.channel operation = id ∧
      ∃ completions, entry.phase = .receiving completions := by
  obtain ⟨other, completions, found, phase, uses⟩ := coherent.receives id operation receives
  rw [present] at found
  cases found
  exact ⟨uses, completions, phase⟩

theorem receives_step {label : Label} (coherent : state.Coherent)
    (taken : step state label = some next) (id : ChannelId)
    (receives : operation ∈ (next.channels id).receives) : next.Receives operation id := by
  have rewires := step_rewires taken id
  have moves := step_moves taken operation
  rcases mem_receives_of_rewires rewires receives with before | ⟨rfl, isOpen, posted⟩
  · obtain ⟨entry, completions, present, phase, uses⟩ := coherent.receives id operation before
    have only : ∀ other, operation ∈ (state.channels other).receives → other = id := by
      intro other member
      exact (channel_of_receives coherent member present).1.symm.trans uses
    rw [present] at moves
    rcases moves_of_receiving moves phase with ⟨-, later⟩ | ⟨completion, completes, -⟩
    · exact ⟨entry, completions, later, phase, uses⟩
    · exact absurd receives
        (notMem_receives_of_completes rewires (coherent.nodup id) completes only)
  · obtain ⟨entry, completions, present, phase, uses⟩ := posted
    subst uses
    rw [present] at moves
    generalize later : next.operations operation = after at moves
    cases moves with
    | stay spares => exact absurd rfl spares
    | wake opens => exact opens.elim
    | postReceive ready opened => exact ⟨_, _, later, rfl, rfl⟩
    | badDescriptor ready closed =>
        rw [State.guardOf, isOpen] at closed
        cases closed
    | wait completes => exact completes.elim
    | result completes => exact completes.elim

theorem notMem_receives_of_ready {id : ChannelId} (coherent : state.Coherent) {entry : Operation}
    {completions : List (Except ErrorCode Bytes)}
    (present : state.operations operation = some entry) (phase : entry.phase = .ready completions) :
    operation ∉ (state.channels id).receives := by
  intro member
  obtain ⟨-, earlier, receiving⟩ := channel_of_receives coherent member present
  rw [phase] at receiving
  cases receiving

theorem requests_step {label : Label} (coherent : state.Coherent)
    (taken : step state label = some next) (id : ChannelId)
    (requests : operation ∈ (next.channels id).requests) :
    ∃ entry ∈ next.operations operation, entry.request.channel operation = id := by
  have before : ∃ entry ∈ state.operations operation, entry.request.channel operation = id :=
    (mem_requests_of_rewires (step_rewires taken id) requests).elim
      (coherent.requests id operation) fun sent => sent
  obtain ⟨entry, present, uses⟩ := before
  have moves := step_moves taken operation
  rw [present] at moves
  obtain ⟨later, found, same⟩ := exists_entry_of_moves moves
  exact ⟨later, found, by rw [same, uses]⟩

theorem readLoop_nil (request : Request) (sequence : Nat) (buffer : Bytes) :
    request.readLoop sequence buffer [] = .waiting () := by
  cases request <;> rfl

/-- What an operation's phase says stays true as long as the label spares the operation. -/
theorem holds_of_spares {label : Label} (taken : step state label = some next)
    {entry : Operation} (present : state.operations operation = some entry)
    (spares : label.Spares state operation) (holds : state.Holds operation entry) :
    next.Holds operation entry := by
  have rewires := step_rewires taken (entry.request.channel operation)
  rcases entry with ⟨request, sequence, buffer, phase⟩
  cases phase with
  | sending =>
      obtain ⟨drawn, isOpen⟩ := holds
      refine ⟨drawn, isOpen_of_rewires rewires isOpen ?_⟩
      rintro rfl shared
      simp only [State.guardOf, shared] at isOpen
      exact (spares isOpen).2 _ present rfl shared
  | ready completions =>
      obtain ⟨waits, isOpen⟩ := holds
      exact ⟨waits, fun own => isOpen_of_rewires rewires (isOpen own) fun _ => own⟩
  | receiving completions =>
      obtain ⟨waits, isOpen, receives⟩ := holds
      refine ⟨waits, isOpen_of_rewires rewires isOpen ?_, ?_⟩
      · rintro rfl shared
        simp only [State.guardOf, shared] at isOpen receives
        exact (spares isOpen).1 receives
      · exact mem_receives_of_spares rewires spares receives
  | _ => exact holds

theorem holds_step {label : Label} (coherent : state.Coherent)
    (taken : step state label = some next) {entry : Operation}
    (present : next.operations operation = some entry) : next.Holds operation entry := by
  have moves := step_moves taken operation
  rw [present] at moves
  generalize before : state.operations operation = earlier at moves
  cases moves with
  | stay spares => exact holds_of_spares taken before spares (coherent.phases operation _ before)
  | issue request => exact rfl
  | wake opens phase =>
      have holds := coherent.phases operation _ before
      simpa only [State.Holds, phase] using holds
  | @start outcomes stale entry phase result =>
      refine ⟨⟨_, rfl⟩, ?_⟩
      have rewires := step_rewires taken (entry.request.channel operation)
      simp only [State.guardOf] at result ⊢
      generalize state.channels (entry.request.channel operation) = old at rewires result
      generalize next.channels (entry.request.channel operation) = new at rewires
      cases rewires with
      | keep keeps => exact absurd rfl (keeps entry before)
      | resume found woken uses => exact SocketGuard.isOpen_of_value result
  | @send entry phase isOpen =>
      have holds := coherent.phases operation _ before
      simp only [State.Holds, phase] at holds
      obtain ⟨⟨sequence, drawn⟩, -⟩ := holds
      refine ⟨⟨sequence, drawn, readLoop_nil _ _ _⟩, fun own => ?_⟩
      exact isOpen_of_rewires (step_rewires taken _) isOpen fun _ => own
  | @postReceive entry completions phase isOpen =>
      have holds := coherent.phases operation _ before
      simp only [State.Holds, phase] at holds
      have rewires := step_rewires taken (entry.request.channel operation)
      refine ⟨holds.1, isOpen_of_rewires rewires isOpen ?_, ?_⟩
      · rintro ⟨⟩
      · generalize state.channels (entry.request.channel operation) = old at rewires
        generalize next.channels (entry.request.channel operation) = new at rewires
        cases rewires with
        | keep keeps =>
            simp only [State.guardOf] at isOpen
            rw [keeps entry before rfl] at isOpen
            cases isOpen
        | postReceive found ready uses opened => simp
  | wait completes phase drawn outcome =>
      have holds := coherent.phases operation _ before
      simp only [State.Holds, phase] at holds
      refine ⟨⟨_, drawn, outcome⟩, fun own => ?_⟩
      exact isOpen_of_rewires (step_rewires taken _) holds.2.1 fun _ => own
  | _ => trivial

theorem finite_step {label : Label} (coherent : state.Coherent)
    (taken : step state label = some next) :
    ∃ bound, ∀ operation, bound ≤ operation → next.operations operation = none := by
  obtain ⟨bound, unused⟩ := coherent.finite
  have keeps : ∀ operation, bound ≤ operation → (∀ request, label ≠ .issue operation request) →
      next.operations operation = none := by
    intro operation large other
    have moves := step_moves taken operation
    rw [unused operation large] at moves
    generalize next.operations operation = after at moves
    cases moves with
    | stay spares => rfl
    | issue request => exact absurd rfl (other request)
  by_cases issues : ∃ issued request, label = .issue issued request
  · obtain ⟨issued, request, rfl⟩ := issues
    refine ⟨max bound (issued + 1), fun operation large => keeps operation (by omega) ?_⟩
    intro other same
    cases same
    omega
  · exact ⟨bound, fun operation large => keeps operation large fun request same =>
      issues ⟨operation, request, same⟩⟩

theorem coherent_step {label : Label} (coherent : state.Coherent)
    (taken : step state label = some next) : next.Coherent where
  receives := fun id _ receives => receives_step coherent taken id receives
  nodup := fun id => nodup_of_rewires (step_rewires taken id) (coherent.nodup id)
    fun _ _ _ present phase => notMem_receives_of_ready coherent present phase
  requests := fun id _ requests => requests_step coherent taken id requests
  phases := fun _ _ present => holds_step coherent taken present
  finite := finite_step coherent taken

theorem coherent_of_run {now : Int} {sequence : Nat} {labels : List Label} {finish : State}
    (reached : Machine.run step { now := now, sequence := sequence } labels = some finish) :
    finish.Coherent :=
  Machine.invariant_of_run (fun _ _ _ => coherent_step) (coherent_initial now sequence) reached

theorem issued_of_run {labels : List Label} {finish : State} {entry : Operation}
    (reached : Machine.run step state labels = some finish)
    (fresh : state.operations operation = none)
    (present : finish.operations operation = some entry) :
    ∃ request, .issue operation request ∈ labels := by
  induction labels generalizing state with
  | nil =>
      cases reached
      rw [fresh] at present
      cases present
  | cons label labels inductionHypothesis =>
      obtain ⟨next, taken, rest⟩ := Machine.run_cons_eq_some.mp reached
      have moves := step_moves taken operation
      rw [fresh] at moves
      generalize found : next.operations operation = later at moves
      cases moves with
      | stay spares =>
          obtain ⟨request, member⟩ := inductionHypothesis rest found
          exact ⟨request, List.mem_cons_of_mem _ member⟩
      | issue request => exact ⟨request, List.mem_cons_self⟩

end Rtaco.Control
