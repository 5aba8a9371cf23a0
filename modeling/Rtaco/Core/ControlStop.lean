import Rtaco.Core.ControlCoherence

/-!
# What `stop` stops

`stop` closes the shared socket. It reaches the operations that wait for their send or for a
receive on it, and neither the ones at the gate nor those with sockets of their own.
-/

namespace Rtaco.Control

open Netlink

variable {state next : State} {operation : Nat}

/-- With the label the operation opens its socket, sends its request or returns a value. -/
def Acts (state : State) (operation : Nat) : Label → Prop
  | .resume woken _ _ => woken = operation ∧ ∃ entry ∈ state.operations operation,
      (state.guardOf operation entry).socket.isOpen = false
  | .send sender => sender = operation
  | .finish finisher => finisher = operation ∧ ∃ entry answer,
      state.operations operation = some entry ∧ entry.phase = .returning (.value answer)
  | _ => False

/-- All the operation has left to do is to return an error. -/
def Operation.Spent (entry : Operation) : Prop :=
  match entry.phase with
  | .returning (.unexpected _) => True
  | .finished _ => True
  | .threw _ _ => True
  | _ => False

/-- `stop` reaches the operation: it waits for its send or for a receive on the shared socket, or
has nothing left but to return an error. -/
def Operation.Reached (operation : Nat) (entry : Operation) : Prop :=
  match entry.phase with
  | .sending => entry.request.channel operation = .shared
  | .receiving _ => entry.request.channel operation = .shared
  | _ => entry.Spent

namespace State

/-- No receive is outstanding for the operation, and it does nothing but fail. -/
structure Ended (state : State) (operation : Nat) : Prop where
  receives : ∀ id, operation ∉ (state.channels id).receives
  idle : ∀ label next, step state label = some next → ¬ Acts state operation label

/-- `stop` returns, and from then on the operations that were started before have ended. -/
def StopEndsAll (state : State) : Prop :=
  ∃ stopped, step state .stop = some stopped ∧
    ∀ labels later, Machine.run step stopped labels = some later →
      ∀ operation, ∀ entry ∈ state.operations operation, later.Ended operation

end State

theorem completeReceive_error {entry : Operation} {completions : List (Except ErrorCode Bytes)}
    (coherent : state.Coherent) (present : state.operations operation = some entry)
    (phase : entry.phase = .receiving completions) {middle : State}
    (untouched : middle.operations operation = state.operations operation) (error : ErrorCode) :
    completeReceive operation (.error error) middle =
      some (middle.setPhase operation (.returning (.unexpected error))) := by
  have holds := coherent.phases operation entry present
  simp only [State.Holds, phase] at holds
  obtain ⟨⟨sequence, drawn, waits⟩, -, -⟩ := holds
  rcases entry with ⟨request, drawnSequence, buffer, receiving⟩
  cases phase
  cases drawn
  simp only [completeReceive, untouched, present, Request.readLoop_append_error waits]

theorem exists_abortReceives (coherent : state.Coherent) {receives : List Nat}
    (nodup : receives.Nodup) {middle : State}
    (receiving : ∀ reader ∈ receives, ∃ entry completions,
      state.operations reader = some entry ∧ entry.phase = .receiving completions)
    (untouched : ∀ reader ∈ receives, middle.operations reader = state.operations reader) :
    ∃ stopped, receives.foldlM (fun state operation =>
      completeReceive operation (.error operationAborted) state) middle = some stopped := by
  induction receives generalizing middle with
  | nil => exact ⟨middle, rfl⟩
  | cons reader receives inductionHypothesis =>
      obtain ⟨outside, distinct⟩ := List.nodup_cons.mp nodup
      obtain ⟨entry, completions, present, phase⟩ := receiving reader List.mem_cons_self
      have completed := completeReceive_error coherent present phase
        (untouched reader List.mem_cons_self) operationAborted
      rw [List.foldlM_cons, completed]
      refine inductionHypothesis distinct
        (fun other member => receiving other (List.mem_cons_of_mem _ member)) ?_
      intro other member
      have different : other ≠ reader := by
        rintro rfl
        exact outside member
      rw [setPhase_of_ne different]
      exact untouched other (List.mem_cons_of_mem _ member)

theorem exists_stop (coherent : state.Coherent) : ∃ stopped, step state .stop = some stopped := by
  simp only [step, stop]
  split_ifs with isOpen
  · refine exists_abortReceives coherent (coherent.nodup .shared) ?_ ?_
    · intro reader member
      obtain ⟨entry, completions, present, phase, -⟩ := coherent.receives .shared reader member
      exact ⟨entry, completions, present, phase⟩
    · intro reader member
      refine abortSends_of_ne ?_
      intro entry present sending
      obtain ⟨-, completions, receiving⟩ := channel_of_receives coherent member present
      rw [sending] at receiving
      cases receiving
  · exact ⟨state, rfl⟩

theorem moves_of_spent {label : Label} {entry : Operation} {after : Option Operation}
    (moves : Moves state operation label (some entry) after) (spent : entry.Spent) :
    label.Spares state operation ∧ after = some entry ∨
      label = .finish operation ∧
        ∃ result, after = some { entry with phase := .finished result } := by
  rcases entry with ⟨request, number, buffer, phase⟩
  cases moves with
  | stay spares => exact .inl ⟨spares, rfl⟩
  | finish returns => exact .inr ⟨rfl, _, rfl⟩
  | _ =>
      obtain rfl : phase = _ := by assumption
      exact spent.elim

theorem spent_step {label : Label} (taken : step state label = some next)
    (spent : ∃ entry ∈ state.operations operation, entry.Spent) :
    ∃ entry ∈ next.operations operation, entry.Spent := by
  obtain ⟨entry, present, spent⟩ := spent
  have moves := step_moves taken operation
  rw [present] at moves
  rcases moves_of_spent moves spent with ⟨-, same⟩ | ⟨-, result, later⟩
  · exact ⟨entry, same, spent⟩
  · exact ⟨_, later, trivial⟩

theorem spent_of_sending (coherent : state.Coherent) (taken : step state .stop = some next)
    {entry : Operation} (present : state.operations operation = some entry)
    (sending : entry.phase = .sending) (shares : entry.request.channel operation = .shared) :
    ∃ later ∈ next.operations operation, later.Spent := by
  have holds := coherent.phases operation entry present
  simp only [State.Holds, sending, State.guardOf, shares] at holds
  have moves := step_moves taken operation
  rw [present] at moves
  generalize next.operations operation = after at moves
  cases moves with
  | stay spares => exact absurd shares ((spares holds.2).2 entry present sending)
  | abortSend isOpen phase shared => exact ⟨_, rfl, trivial⟩
  | wake opens => exact opens.elim
  | wait completes phase =>
      rw [sending] at phase
      cases phase
  | result completes phase =>
      rw [sending] at phase
      cases phase

theorem spent_of_receiving (coherent : state.Coherent) (taken : step state .stop = some next)
    {entry : Operation} {completions : List (Except ErrorCode Bytes)}
    (present : state.operations operation = some entry)
    (receiving : entry.phase = .receiving completions)
    (shares : entry.request.channel operation = .shared) :
    ∃ later ∈ next.operations operation, later.Spent := by
  have holds := coherent.phases operation entry present
  simp only [State.Holds, receiving, State.guardOf, shares] at holds
  obtain ⟨⟨sequence, drawn, waits⟩, isOpen, member⟩ := holds
  have moves := step_moves taken operation
  rw [present] at moves
  rcases moves_of_receiving moves receiving with
    ⟨spares, -⟩ | ⟨completion, ⟨-, -, rfl⟩, number, own, outcome⟩
  · exact absurd member (spares isOpen).1
  · rw [drawn] at own
    cases own
    rw [Request.readLoop_append_error waits] at outcome
    rcases outcome with ⟨goesOn, -⟩ | ⟨result, returned, later⟩
    · cases goesOn
    · cases returned
      exact ⟨_, later, trivial⟩

theorem spent_of_reached (coherent : state.Coherent) (taken : step state .stop = some next)
    {entry : Operation} (present : state.operations operation = some entry)
    (reached : entry.Reached operation) :
    ∃ later ∈ next.operations operation, later.Spent := by
  unfold Operation.Reached at reached
  split at reached
  next sending => exact spent_of_sending coherent taken present sending reached
  next completions receiving => exact spent_of_receiving coherent taken present receiving reached
  next => exact spent_step taken ⟨entry, present, reached⟩

theorem ended_of_spent (coherent : state.Coherent) {entry : Operation}
    (present : state.operations operation = some entry) (spent : entry.Spent) :
    state.Ended operation where
  receives := by
    intro id member
    obtain ⟨-, completions, receiving⟩ := channel_of_receives coherent member present
    rw [Operation.Spent, receiving] at spent
    exact spent
  idle := by
    intro label next taken acts
    have moves := step_moves taken operation
    rw [present] at moves
    rcases moves_of_spent moves spent with ⟨spares, -⟩ | ⟨rfl, -⟩
    · cases label with
      | resume woken outcomes stale => exact spares acts.1.symm
      | send sender => exact spares acts.symm
      | finish finisher => exact spares acts.1.symm
      | _ => exact acts.elim
    · obtain ⟨-, other, answer, found, phase⟩ := acts
      rw [present] at found
      cases found
      rw [Operation.Spent, phase] at spent
      exact spent

theorem ended_of_reached (coherent : state.Coherent) (taken : step state .stop = some next)
    {entry : Operation} (present : state.operations operation = some entry)
    (reached : entry.Reached operation) {labels : List Label} {later : State}
    (goesOn : Machine.run step next labels = some later) : later.Ended operation := by
  have initially : next.Coherent ∧ ∃ entry ∈ next.operations operation, entry.Spent :=
    ⟨coherent_step coherent taken, spent_of_reached coherent taken present reached⟩
  have preserved : ∀ (state : State) (label : Label) (next : State),
      (state.Coherent ∧ ∃ entry ∈ state.operations operation, entry.Spent) →
      step state label = some next →
      next.Coherent ∧ ∃ entry ∈ next.operations operation, entry.Spent :=
    fun _ _ _ both taken => ⟨coherent_step both.1 taken, spent_step taken both.2⟩
  obtain ⟨coherentLater, entry, found, spent⟩ :=
    Machine.invariant_of_run preserved initially goesOn
  exact ended_of_spent coherentLater found spent

theorem ensureOpen_default (guard : SocketGuard) : (guard.ensureOpen {}).2 = .value := by
  cases isOpen : guard.socket.isOpen with
  | true => rw [SocketGuard.ensureOpen_of_open isOpen]
  | false => rw [SocketGuard.ensureOpen_of_connected isOpen rfl (fun _ => rfl) rfl rfl]

/-- A waiting operation is woken when the gate opens, and the others go on waiting for what they
wait for. -/
theorem exists_woken {entry : Operation} (present : state.operations operation = some entry)
    (phase : entry.phase = .waiting) :
    ∃ labels later, Machine.run step state labels = some later ∧
      later.operations operation = some { entry with phase := .woken } ∧
      ∀ other entry, state.operations other = some entry → entry.phase ≠ .waiting →
        later.operations other = some entry := by
  refine ⟨state.opening, state.opened, run_opening state, openGate_of_waiting present phase, ?_⟩
  intro other entry found passed
  rw [opened_operations, openGate_of_ne, found]
  intro same member
  rw [found] at member
  cases member
  exact passed

theorem exists_sending {entry : Operation} (present : state.operations operation = some entry)
    (phase : entry.phase = .woken) :
    ∃ next later, step state (.resume operation {} []) = some next ∧
      next.operations operation = some later ∧ later.request = entry.request ∧
      later.phase = .sending := by
  have taken := step_resume {} [] present phase
  have moves := step_moves taken operation
  rw [present] at moves
  generalize after : openSocket operation entry {} [] state = next at taken moves
  generalize found : next.operations operation = later at moves
  have opens := ensureOpen_default (state.guardOf operation entry)
  cases moves with
  | stay spares => exact absurd rfl spares
  | wake gate => exact gate.elim
  | refuse woken result =>
      rw [opens] at result
      cases result
  | throw woken result =>
      rw [opens] at result
      cases result
  | start woken result => exact ⟨next, _, taken, found, rfl, rfl⟩
  | wait completes => exact completes.elim
  | result completes => exact completes.elim

theorem isOpen_of_sending (coherent : state.Coherent) {entry : Operation}
    (present : state.operations operation = some entry) (phase : entry.phase = .sending) :
    (state.guardOf operation entry).socket.isOpen = true := by
  have holds := coherent.phases operation entry present
  simp only [State.Holds, phase] at holds
  exact holds.2

/-- A new operation can open the shared socket, while the others go on waiting for what they wait
for. -/
theorem exists_reopened (coherent : state.Coherent) :
    ∃ labels later, Machine.run step state labels = some later ∧
      later.shared.guard.socket.isOpen = true ∧
      ∀ other entry, state.operations other = some entry → entry.phase ≠ .waiting →
        later.operations other = some entry := by
  obtain ⟨bound, unused⟩ := coherent.finite
  have fresh := unused bound le_rfl
  have others : ∀ other entry, state.operations other = some entry → other ≠ bound := by
    rintro other entry found rfl
    rw [fresh] at found
    cases found
  obtain ⟨issued, taken⟩ := step_issue fresh .probeNeighbor
  have waiting : issued.operations bound = some { request := .probeNeighbor } := by
    have moves := step_moves taken bound
    rw [fresh] at moves
    generalize issued.operations bound = entry at moves ⊢
    cases moves with
    | stay spares => exact absurd rfl spares
    | issue request => rfl
  obtain ⟨labels, woken, reached, present, waitFor⟩ := exists_woken waiting rfl
  obtain ⟨opened, entry, resumed, sending, same, phase⟩ := exists_sending present rfl
  have run : Machine.run step state (.issue bound .probeNeighbor :: (labels ++
      [.resume bound {} []])) = some opened := by
    refine Machine.run_cons_eq_some.mpr ⟨issued, taken, ?_⟩
    rw [Machine.run_append, reached]
    exact Machine.run_cons_eq_some.mpr ⟨opened, resumed, rfl⟩
  have coherentLater := Machine.invariant_of_run (fun _ _ _ => coherent_step) coherent run
  refine ⟨_, opened, run, ?_, ?_⟩
  · have isOpen := isOpen_of_sending coherentLater sending phase
    rwa [State.guardOf, same] at isOpen
  · intro other entry found passed
    have different := others other entry found
    have afterIssue := kept_of_spares taken different found passed
    exact kept_of_spares resumed different (waitFor other entry afterIssue passed) passed

/-- What holds of an operation wherever a state leads. -/
def Lasting (operation : Nat) (state : State) : Prop :=
  ∀ labels later, Machine.run step state labels = some later → later.Ended operation

theorem Lasting.here (lasting : Lasting operation state) : state.Ended operation :=
  lasting [] state rfl

theorem Lasting.run {labels : List Label} (lasting : Lasting operation state)
    (taken : Machine.run step state labels = some next) : Lasting operation next := by
  intro more later reached
  refine lasting (labels ++ more) later ?_
  rw [Machine.run_append, taken]
  exact reached

theorem Lasting.step {label : Label} (lasting : Lasting operation state)
    (taken : step state label = some next) : Lasting operation next := by
  have reached : Machine.run Control.step state [label] = some next :=
    Machine.run_cons_eq_some.mpr ⟨next, taken, rfl⟩
  exact lasting.run reached

section Active

variable {entry : Operation} (coherent : state.Coherent)
  (present : state.operations operation = some entry)

include coherent present

theorem not_lasting_of_sending (phase : entry.phase = .sending) : ¬ Lasting operation state := by
  intro lasting
  obtain ⟨next, sent⟩ := step_send present phase (isOpen_of_sending coherent present phase)
  exact lasting.here.idle _ _ sent rfl

theorem not_lasting_of_woken (phase : entry.phase = .woken) : ¬ Lasting operation state := by
  intro lasting
  obtain ⟨next, later, taken, found, -, sending⟩ := exists_sending present phase
  exact not_lasting_of_sending (coherent_step coherent taken) found sending (lasting.step taken)

theorem not_lasting_of_waiting (phase : entry.phase = .waiting) : ¬ Lasting operation state := by
  intro lasting
  obtain ⟨labels, later, reached, woken, -⟩ := exists_woken present phase
  have coherentLater := Machine.invariant_of_run (fun _ _ _ => coherent_step) coherent reached
  exact not_lasting_of_woken coherentLater woken rfl (lasting.run reached)

theorem not_lasting_of_receiving {completions : List (Except ErrorCode Bytes)}
    (phase : entry.phase = .receiving completions) : ¬ Lasting operation state := by
  intro lasting
  have holds := coherent.phases operation entry present
  simp only [State.Holds, phase] at holds
  exact lasting.here.receives _ holds.2.2

omit coherent in
theorem not_lasting_of_value {answer : Answer} (phase : entry.phase = .returning (.value answer)) :
    ¬ Lasting operation state := by
  intro lasting
  obtain ⟨next, finished⟩ := step_finish present phase
  exact lasting.here.idle _ _ finished ⟨rfl, entry, answer, present, phase⟩

theorem not_lasting_of_open {completions : List (Except ErrorCode Bytes)}
    (phase : entry.phase = .ready completions)
    (isOpen : (state.guardOf operation entry).socket.isOpen = true) :
    ¬ Lasting operation state := by
  intro lasting
  obtain ⟨next, posted⟩ := step_postReceive present phase isOpen
  have moves := step_moves posted operation
  rw [present] at moves
  generalize found : next.operations operation = later at moves
  cases moves with
  | stay spares => exact absurd rfl spares
  | wake opens => exact opens.elim
  | postReceive ready opened =>
      exact not_lasting_of_receiving (coherent_step coherent posted) found rfl (lasting.step posted)
  | badDescriptor ready closed =>
      rw [isOpen] at closed
      cases closed
  | wait completes => exact completes.elim
  | result completes => exact completes.elim

theorem not_lasting_of_ready {completions : List (Except ErrorCode Bytes)}
    (phase : entry.phase = .ready completions) : ¬ Lasting operation state := by
  by_cases shared : entry.request.channel operation = .shared
  · intro lasting
    obtain ⟨labels, later, reached, isOpen, kept⟩ := exists_reopened coherent
    have found := kept operation entry present (by simp [phase])
    have coherentLater := Machine.invariant_of_run (fun _ _ _ => coherent_step) coherent reached
    refine not_lasting_of_open coherentLater found phase ?_ (lasting.run reached)
    rw [State.guardOf, shared]
    exact isOpen
  · have holds := coherent.phases operation entry present
    simp only [State.Holds, phase] at holds
    exact not_lasting_of_open coherent present phase (holds.2 shared)

end Active

theorem kept_of_unreached (coherent : state.Coherent) (taken : step state .stop = some next)
    {entry : Operation} (present : state.operations operation = some entry)
    (unreached : ¬ entry.Reached operation) : next.operations operation = some entry := by
  have moves := step_moves taken operation
  rw [present] at moves
  generalize next.operations operation = later at moves
  have elsewhere : ∀ completion, ¬ Label.Completes state operation completion .stop := by
    rintro completion ⟨-, member, -⟩
    obtain ⟨shared, completions, receiving⟩ := channel_of_receives coherent member present
    exact unreached (by simpa only [Operation.Reached, receiving] using shared)
  cases moves with
  | stay spares => rfl
  | wake opens => exact opens.elim
  | wait completes => exact absurd completes (elsewhere _)
  | result completes => exact absurd completes (elsewhere _)
  | abortSend isOpen phase shares =>
      exact absurd (by simpa only [Operation.Reached, phase] using shares) unreached

theorem reached_of_lasting (coherent : state.Coherent) (taken : step state .stop = some next)
    {entry : Operation} (present : state.operations operation = some entry)
    (lasting : Lasting operation next) : entry.Reached operation := by
  by_contra unreached
  have coherentLater := coherent_step coherent taken
  have found := kept_of_unreached coherent taken present unreached
  revert lasting
  cases phase : entry.phase with
  | waiting => exact not_lasting_of_waiting coherentLater found phase
  | woken => exact not_lasting_of_woken coherentLater found phase
  | sending => exact not_lasting_of_sending coherentLater found phase
  | ready completions => exact not_lasting_of_ready coherentLater found phase
  | receiving completions => exact not_lasting_of_receiving coherentLater found phase
  | returning result =>
      cases result with
      | value answer => exact not_lasting_of_value found phase
      | unexpected error =>
          exact absurd (by simp only [Operation.Reached, Operation.Spent, phase]) unreached
  | finished result =>
      exact absurd (by simp only [Operation.Reached, Operation.Spent, phase]) unreached
  | threw action error =>
      exact absurd (by simp only [Operation.Reached, Operation.Spent, phase]) unreached

/-- `stop` ends every operation exactly when it reaches every operation: none is at the gate, in
front of a receive, about to return a value or on a socket of its own. -/
theorem stopEndsAll_iff (now : Int) {labels : List Label} {state : State}
    (reached : Machine.run step { now := now } labels = some state) :
    state.StopEndsAll ↔ ∀ operation, ∀ entry ∈ state.operations operation,
      entry.Reached operation := by
  have coherent := coherent_of_run reached
  constructor
  · rintro ⟨stopped, taken, ends⟩ operation entry present
    exact reached_of_lasting coherent taken present fun labels later goesOn =>
      ends labels later goesOn operation entry present
  · intro reaches
    obtain ⟨stopped, taken⟩ := exists_stop coherent
    refine ⟨stopped, taken, fun labels later goesOn operation entry present => ?_⟩
    exact ended_of_reached coherent taken present (reaches operation entry present) goesOn

/-- A probe that waits for its acknowledgement. -/
def probing : List Label :=
  [.issue 0 .probeNeighbor, .tick 1, .expire, .resume 0 {} [], .send 0, .postReceive 0]

theorem stopEndsAll_iff_probing : ∃ state, Machine.run step { now := 0 } probing = some state ∧
    state.StopEndsAll := by
  have ends : (Machine.run step { now := 0 } probing).map (fun state =>
      (state.operations 0).map fun entry => (entry.request, entry.phase)) =
        some (some (.probeNeighbor, .receiving [])) := by
    decide +kernel
  obtain ⟨state, reached, observed⟩ := Option.map_eq_some_iff.mp ends
  refine ⟨state, reached, (stopEndsAll_iff 0 reached).mpr ?_⟩
  intro operation entry present
  obtain ⟨request, issued⟩ := issued_of_run reached rfl present
  simp only [probing, List.mem_cons, Label.issue.injEq, reduceCtorEq, List.not_mem_nil,
    or_false] at issued
  obtain ⟨rfl, -⟩ := issued
  rw [Option.mem_def] at present
  rw [present, Option.map_some, Option.some.injEq, Prod.mk.injEq] at observed
  simp only [Operation.Reached, observed.1, observed.2]
  rfl

/-- A dump of the links that waits for the kernel, and a dump of the routes at the gate. -/
def dumping : List Label :=
  [.issue 0 (.dump .link), .tick 1, .expire, .resume 0 {} [], .send 0, .postReceive 0,
    .issue 1 (.dump .route)]

/-- The receive of the one dump stays outstanding, and the other one opens its socket and sends
its request after `stop`. -/
theorem dumps_survive_stop : ∃ state stopped,
    Machine.run step { now := 0 } dumping = some state ∧ step state .stop = some stopped ∧
      0 ∈ (stopped.channels (.own 0)).receives ∧
      (Machine.run step stopped [.tick 5, .expire, .resume 1 {} [], .send 1]).isSome ∧
      ¬ state.StopEndsAll := by
  have ends : ((Machine.run step { now := 0 } dumping).bind fun state =>
      (step state .stop).map fun stopped => ((state.operations 0).isSome,
        decide (0 ∈ (stopped.channels (.own 0)).receives),
        (Machine.run step stopped [.tick 5, .expire, .resume 1 {} [], .send 1]).isSome)) =
      some (true, true, true) := by
    decide +kernel
  obtain ⟨state, reached, observed⟩ := Option.bind_eq_some_iff.mp ends
  obtain ⟨stopped, taken, observed⟩ := Option.map_eq_some_iff.mp observed
  simp only [Prod.mk.injEq, decide_eq_true_eq] at observed
  obtain ⟨started, outstanding, sends⟩ := observed
  refine ⟨state, stopped, reached, taken, outstanding, sends, ?_⟩
  rintro ⟨other, same, ended⟩
  obtain rfl : stopped = other := Option.some.inj (taken.symm.trans same)
  obtain ⟨entry, present⟩ := Option.isSome_iff_exists.mp started
  exact (ended [] stopped rfl 0 entry present).receives _ outstanding

end Rtaco.Control
