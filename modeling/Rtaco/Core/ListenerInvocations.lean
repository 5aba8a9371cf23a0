import Rtaco.Core.ListenerDelivery

/-!
# The slots of a listener

Every signal is handed to the slots connected to it, one after the other, before the walk goes
on. A run that neither connects nor disconnects slots invokes each of them once for each signal.
-/

namespace Rtaco.Listener

open Netlink

/-- What the label invokes a slot with: the signal that is being emitted. -/
def invoked (state : State) : Label → List Emission
  | .enterSlot => state.emitted.getLast?.toList
  | _ => []

/-- The arguments of the slots a run invokes, in order. -/
def invocations : State → List Label → List Emission
  | _, [] => []
  | state, label :: labels =>
      invoked state label ++
        match step state label with
        | none => []
        | some next => invocations next labels

/-- Each signal once for each slot connected to it. -/
def dispatched (slots : Signal → Nat) (emitted : List Emission) : List Emission :=
  emitted.flatMap fun emission => List.replicate (slots emission.signal) emission

/-- The slots of the current message that were not invoked yet. -/
def State.pending (state : State) : List Emission :=
  match state.activity with
  | .emitting _ left => state.emitted.getLast?.toList.flatMap (List.replicate left)
  | .inSlot _ left => state.emitted.getLast?.toList.flatMap (List.replicate left)
  | _ => []

/-- The label connects no slot, and no slot is passed over or throws. -/
def Label.Dispatches : Label → Prop
  | .skipSlot => False
  | .throwSlot => False
  | .setSlots _ _ => False
  | _ => True

/-- Between two states of a run: the signals emitted, and the slots invoked and left. -/
structure Hands (state : State) (calls : List Emission) (next : State)
    (signalled : List Emission) : Prop where
  emitted : next.emitted = state.emitted ++ signalled
  slots : next.slots = state.slots
  calls : calls ++ next.pending = state.pending ++ dispatched state.slots signalled

theorem dispatched_append (slots : Signal → Nat) (first second : List Emission) :
    dispatched slots (first ++ second) = dispatched slots first ++ dispatched slots second :=
  List.flatMap_append

section Step

variable {state next : State} {label : Label}

theorem hands_nothing (activity : next.activity = state.activity)
    (emitted : next.emitted = state.emitted) (slots : next.slots = state.slots) :
    Hands state [] next [] := by
  refine ⟨emitted.trans (List.append_nil _).symm, slots, ?_⟩
  unfold State.pending
  rw [activity, emitted]
  exact (List.append_nil _).symm

theorem pending_emit (cursor : Cursor) (state : State) (left : Nat) :
    (emit cursor state left).pending =
      state.emitted.getLast?.toList.flatMap (List.replicate left) := by
  cases left with
  | zero =>
      change [] = _
      cases state.emitted.getLast? <;> rfl
  | succ left => rfl

theorem hands_requestRead (idle : state.pending = []) :
    Hands state [] (requestRead { state with activity := .idle }) [] := by
  obtain ⟨outstanding, queue, -, requested⟩ := requestRead_eq { state with activity := .idle }
  rw [requested]
  refine ⟨(List.append_nil _).symm, rfl, ?_⟩
  rw [idle]
  rfl

theorem hands_processNext {cursor : Cursor} (walking : state.activity = .walking cursor) :
    ∃ signalled, Hands state [] (processNext cursor state) signalled := by
  have none : state.pending = [] := by
    unfold State.pending
    rw [walking]
  unfold processNext
  split_ifs with continues
  · cases handleMessage (state.buffer.drop cursor.header) with
    | none =>
        refine ⟨[], (List.append_nil _).symm, rfl, ?_⟩
        rw [none]
        rfl
    | some emission =>
        obtain ⟨activity, emits, -⟩ := emit_position cursor
          { state with emitted := state.emitted ++ [emission] } (state.slots emission.signal)
        have left := pending_emit cursor
          { state with emitted := state.emitted ++ [emission] } (state.slots emission.signal)
        simp only [emits] at left ⊢
        refine ⟨[emission], rfl, rfl, ?_⟩
        rw [left, none]
        simp [dispatched]
  · exact ⟨[], hands_requestRead none⟩

theorem hands_handleRead {completion : Completion} {queue : List Completion}
    (idle : state.activity = .idle) :
    Hands state [] (handleRead completion { state with queue := queue }) [] := by
  have none : state.pending = [] := by
    unfold State.pending
    rw [idle]
  unfold handleRead
  split_ifs with running
  · cases completion with
    | failed error =>
        simp only
        split_ifs with aborted
        · exact hands_nothing rfl rfl rfl
        · obtain ⟨outstanding, requests, -, requested⟩ :=
            requestRead_eq { state with queue := queue }
          rw [requested]
          exact hands_nothing rfl rfl rfl
    | received bytes =>
        refine ⟨(List.append_nil _).symm, rfl, ?_⟩
        rw [none]
        rfl
  · exact hands_nothing rfl rfl rfl

theorem hands_step (dispatches : label.Dispatches) (taken : step state label = some next) :
    ∃ signalled, Hands state (invoked state label) next signalled := by
  cases label with
  | start outcomes =>
      obtain ⟨-, rfl⟩ := step_start taken
      refine ⟨[], ?_⟩
      by_cases starts : Starts state (.start outcomes)
      · rw [start_of_starts starts]
        exact hands_nothing rfl rfl rfl
      · obtain ⟨guard, same, -⟩ := start_of_not_starts starts
        rw [same]
        exact hands_nothing rfl rfl rfl
  | stop =>
      obtain ⟨-, rfl⟩ := step_stop taken
      refine ⟨[], ?_⟩
      unfold stop closeSocket
      split_ifs <;> exact hands_nothing rfl rfl rfl
  | complete datagram =>
      obtain ⟨-, rfl⟩ := step_complete taken
      exact ⟨[], hands_nothing rfl rfl rfl⟩
  | fail error =>
      obtain ⟨-, rfl⟩ := step_fail taken
      exact ⟨[], hands_nothing rfl rfl rfl⟩
  | runHandler =>
      obtain ⟨completion, queue, idle, -, rfl⟩ := step_runHandler taken
      exact ⟨[], hands_handleRead idle⟩
  | advance =>
      obtain ⟨cursor, walking, rfl⟩ := step_advance taken
      exact hands_processNext walking
  | enterSlot =>
      obtain ⟨cursor, left, emitting, rfl⟩ := step_enterSlot taken
      refine ⟨[], (List.append_nil _).symm, rfl, ?_⟩
      unfold State.pending
      rw [emitting]
      change state.emitted.getLast?.toList ++
        state.emitted.getLast?.toList.flatMap (List.replicate left) = _
      cases state.emitted.getLast? with
      | none => rfl
      | some emission => simp [dispatched, List.replicate_succ]
  | skipSlot => exact dispatches.elim
  | leaveSlot =>
      obtain ⟨cursor, left, inSlot, rfl⟩ := step_leaveSlot taken
      obtain ⟨activity, emits, -⟩ := emit_position cursor state left
      have pending := pending_emit cursor state left
      rw [emits] at pending ⊢
      refine ⟨[], (List.append_nil _).symm, rfl, ?_⟩
      change State.pending { state with activity := activity } = _
      rw [pending]
      unfold State.pending
      rw [inSlot]
      exact (List.append_nil _).symm
  | throwSlot => exact dispatches.elim
  | setSlots signal count => exact dispatches.elim

end Step

/-- Over a run the slots invoked are those of the signals emitted, up to the slots that the
current message still waits for. -/
theorem hands_run {state finish : State} {labels : List Label}
    (dispatches : ∀ label ∈ labels, label.Dispatches)
    (reached : Machine.run step state labels = some finish) :
    ∃ signalled, Hands state (invocations state labels) finish signalled := by
  induction labels generalizing state with
  | nil =>
      cases reached
      exact ⟨[], hands_nothing rfl rfl rfl⟩
  | cons label labels inductionHypothesis =>
      obtain ⟨next, taken, rest⟩ := Machine.run_cons_eq_some.mp reached
      obtain ⟨first, here⟩ := hands_step (dispatches label List.mem_cons_self) taken
      obtain ⟨second, later⟩ := inductionHypothesis
        (fun label member => dispatches label (List.mem_cons_of_mem _ member)) rest
      refine ⟨first ++ second, ?_, later.slots.trans here.slots, ?_⟩
      · rw [later.emitted, here.emitted, List.append_assoc]
      · simp only [invocations, taken]
        rw [List.append_assoc, later.calls, ← List.append_assoc, here.calls, here.slots,
          dispatched_append, List.append_assoc]

/-- In every run without `stop` that leaves the slots alone, each slot is invoked with each signal
of each received datagram once, datagram by datagram and signal by signal: never too often or out
of order, and completely once the listener is idle with an empty queue. -/
theorem invocations_of_run {state finish : State} {labels : List Label}
    {datagrams : List Datagram} (initial : state.Initial) (silent : state.emitted = [])
    (readable : ∀ datagram ∈ datagrams, Readable datagram)
    (arrived : received labels = datagrams.map Datagram.bytes)
    (dispatches : ∀ label ∈ labels, label.Dispatches) (never : .stop ∉ labels)
    (reached : Machine.run step state labels = some finish) :
    invocations state labels <+: dispatched state.slots (datagrams.flatMap signals) ∧
      (finish.activity = .idle → finish.queue = [] →
        invocations state labels = dispatched state.slots (datagrams.flatMap signals)) := by
  have returns : ∀ label ∈ labels, label ≠ .throwSlot := by
    rintro label member rfl
    exact dispatches _ member
  have alone := completesAlone_of_never initial never
  obtain ⟨handled, waiting, ahead, account⟩ :=
    account_of_run initial silent readable arrived returns alone reached
  obtain ⟨signalled, hands⟩ := hands_run dispatches reached
  obtain rfl := account.all never
  have calls := hands.calls
  have same := hands.emitted
  have resting : state.pending = [] := by
    unfold State.pending
    rw [initial.activity]
  rw [silent, List.nil_append] at same
  rw [resting, List.nil_append, ← same] at calls
  constructor
  · refine List.IsPrefix.trans ⟨finish.pending, calls⟩ ?_
    rw [List.flatMap_append, ← account.emitted, dispatched_append, dispatched_append,
      List.append_assoc]
    exact List.prefix_append _ _
  · intro idle empty
    obtain rfl := account.waiting_of_empty empty
    have done : finish.pending = [] := by
      unfold State.pending
      rw [idle]
    rw [List.append_nil, ← account.emitted_of_idle idle, ← calls, done, List.append_nil]

def oneDatagram : List Label :=
  [.start {}, .complete loDatagram.bytes, .runHandler, .advance, .enterSlot, .leaveSlot,
    .enterSlot, .leaveSlot, .advance]

theorem invocations_of_run_twoSlots :
    invocations { slots := fun _ => 2 } oneDatagram =
      dispatched (fun _ => 2) (signals loDatagram) := by
  have readable : ∀ datagram ∈ [loDatagram], Readable datagram := by decide
  have dispatches : ∀ label ∈ oneDatagram, label.Dispatches := by
    simp [oneDatagram, Label.Dispatches]
  have never : .stop ∉ oneDatagram := by
    simp [oneDatagram]
  have ends : (Machine.run step { slots := fun _ => 2 } oneDatagram).map (fun finish =>
      (finish.activity, finish.queue)) = some (.idle, []) := by
    decide +kernel
  obtain ⟨finish, reached, observed⟩ := Option.map_eq_some_iff.mp ends
  obtain ⟨idle, empty⟩ := Prod.mk.inj observed
  have completely := (invocations_of_run ⟨rfl, rfl, rfl, rfl⟩ rfl readable rfl dispatches never
    reached).2 idle empty
  rw [completely, List.flatMap_singleton]

end Rtaco.Listener
