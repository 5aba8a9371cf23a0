import Rtaco.Core.ListenerRun
import Rtaco.Events.CompleteMessages

/-!
# The receives of a listener

A receive is in flight from the moment it is posted until its handler returns.
Every handler that finds the listener running posts the next one, so the number
in flight changes only with `start`, `stop`, an abort and a throwing slot.
-/

namespace Rtaco.Listener

open Netlink

/-- The handler of the completion does not return at once. -/
def Completion.Live (completion : Completion) : Prop := completion ≠ .failed operationAborted

instance (completion : Completion) : Decidable completion.Live :=
  inferInstanceAs (Decidable (_ ≠ _))

def live (queue : List Completion) : Nat := queue.countP fun completion => completion.Live

namespace State

def busy (state : State) : Nat := if state.activity = .idle then 0 else 1

def inFlight (state : State) : Nat := state.outstanding + live state.queue + state.busy

/-- A running listener has an open socket, a stopped one no outstanding receive. -/
structure Coherent (state : State) : Prop where
  isOpen : state.running = true → state.guard.socket.isOpen = true
  quiet : state.running = false → state.outstanding = 0

end State

@[simp]
theorem live_nil : live [] = 0 := rfl

@[simp]
theorem live_append (first second : List Completion) :
    live (first ++ second) = live first + live second := List.countP_append

@[simp]
theorem live_received (bytes : Nat) : live [.received bytes] = 1 := by
  simp [live, Completion.Live]

theorem live_failed (error : ErrorCode) :
    live [.failed error] = if error = operationAborted then 0 else 1 := by
  by_cases aborted : error = operationAborted <;> simp [live, Completion.Live, aborted]

@[simp]
theorem live_aborted (count : Nat) :
    live (List.replicate count (.failed operationAborted)) = 0 := by
  unfold live
  rw [List.countP_replicate, if_neg (by simp [Completion.Live])]

section Effects

variable {state : State}

theorem requestRead_of_stopped (stopped : state.running = false) : requestRead state = state := by
  simp [requestRead, stopped]

theorem requestRead_of_open (state : State) (running : state.running = true)
    (isOpen : state.guard.socket.isOpen = true) :
    requestRead state = { state with outstanding := state.outstanding + 1 } := by
  simp [requestRead, running, isOpen]

/-- The label is a `start` that takes effect. -/
def Starts (state : State) : Label → Prop
  | .start outcomes => state.running = false ∧ (state.guard.ensureOpen outcomes).2 = .value
  | _ => False

theorem start_of_starts {outcomes : Outcomes} (starts : Starts state (.start outcomes)) :
    start outcomes state =
      { state with
        guard := (state.guard.ensureOpen outcomes).1
        running := true
        outstanding := state.outstanding + 1 } := by
  obtain ⟨stopped, succeeded⟩ := starts
  have isOpen := SocketGuard.isOpen_of_value succeeded
  unfold start
  rcases opened : state.guard.ensureOpen outcomes with ⟨guard, result⟩
  rw [opened] at succeeded isOpen
  cases succeeded
  simp only [stopped, Bool.false_eq_true, if_false]
  exact requestRead_of_open _ rfl isOpen

theorem start_of_not_starts {outcomes : Outcomes} (idles : ¬ Starts state (.start outcomes)) :
    ∃ guard : SocketGuard, start outcomes state = { state with guard := guard } ∧
      (state.running = true → guard = state.guard) := by
  by_cases running : state.running = true
  · refine ⟨state.guard, ?_, fun _ => rfl⟩
    rw [start, if_pos running]
  · rcases opened : state.guard.ensureOpen outcomes with ⟨guard, result⟩
    refine ⟨guard, ?_, fun runs => absurd runs running⟩
    rw [start, if_neg running, opened]
    cases result with
    | value => exact absurd ⟨by simpa using running, by rw [opened]⟩ idles
    | unexpected error => rfl
    | thrown action error => rfl

theorem stop_of_running (running : state.running = true)
    (isOpen : state.guard.socket.isOpen = true) :
    stop state =
      { state with
        running := false
        guard := state.guard.stop
        outstanding := 0
        queue := state.queue ++ List.replicate state.outstanding (.failed operationAborted) } := by
  simp [stop, closeSocket, running, isOpen]

theorem stop_of_stopped (stopped : state.running = false) : stop state = state := by
  simp [stop, stopped]

theorem emit_eq (cursor : Cursor) (state : State) (left : Nat) :
    ∃ activity : Activity, activity ≠ .idle ∧
      emit cursor state left = { state with activity := activity } := by
  cases left with
  | zero => exact ⟨.walking (cursor.next state.buffer), nofun, rfl⟩
  | succ left => exact ⟨.emitting cursor (left + 1), nofun, rfl⟩

theorem processNext_eq (cursor : Cursor) (state : State) :
    (∃ (activity : Activity) (emitted : List Emission), activity ≠ .idle ∧
      processNext cursor state = { state with activity := activity, emitted := emitted }) ∨
    processNext cursor state = requestRead { state with activity := .idle } := by
  unfold processNext
  split_ifs with continues
  · left
    cases handleMessage (state.buffer.drop cursor.header) with
    | none =>
        obtain ⟨activity, busy, emitted⟩ := emit_eq cursor state 0
        exact ⟨activity, state.emitted, busy, emitted⟩
    | some emission =>
        obtain ⟨activity, busy, emitted⟩ := emit_eq cursor
          { state with emitted := state.emitted ++ [emission] } (state.slots emission.signal)
        exact ⟨activity, _, busy, emitted⟩
  · right
    rfl

end Effects

/-- An effective `start` posts a receive. -/
def gained (state : State) : Label → Nat
  | .start outcomes =>
      if state.running = false ∧ (state.guard.ensureOpen outcomes).2 = .value then 1 else 0
  | _ => 0

/-- What ends a receive without a successor while the listener runs. -/
def dropped : Label → Nat
  | .fail error => if error = operationAborted then 1 else 0
  | .throwSlot => 1
  | _ => 0

/-- A step leaves the state coherent and accounts for every receive in flight. -/
structure Balanced (state : State) (label : Label) (next : State) : Prop where
  coherent : next.Coherent
  upper : next.inFlight ≤ state.inFlight + gained state label
  lower : next.running = true →
    state.inFlight + gained state label ≤ next.inFlight + dropped label
  starts : next.running = true → state.running = true ∨ Starts state label

section Balance

variable {state next : State} {label : Label}

theorem balanced_of_lost (coherent : state.Coherent) (lost : Nat)
    (running : next.running = state.running) (guard : next.guard = state.guard)
    (posted : next.outstanding ≤ state.outstanding ∨ state.running = true)
    (balance : next.inFlight + lost = state.inFlight)
    (drops : state.running = true → lost ≤ dropped label)
    (starts : gained state label = 0) : Balanced state label next := by
  refine ⟨⟨?_, ?_⟩, ?_, ?_, ?_⟩
  · intro runs
    rw [guard]
    exact coherent.isOpen (running ▸ runs)
  · intro stopped
    rw [running] at stopped
    rcases posted with fewer | runs
    · exact Nat.eq_zero_of_le_zero (coherent.quiet stopped ▸ fewer)
    · rw [stopped] at runs
      cases runs
  · omega
  · intro runs
    have few := drops (running ▸ runs)
    omega
  · intro runs
    exact .inl (running ▸ runs)

theorem balanced_start (coherent : state.Coherent) (outcomes : Outcomes) :
    Balanced state (.start outcomes) (start outcomes state) := by
  by_cases starts : Starts state (.start outcomes)
  · have one : gained state (.start outcomes) = 1 := if_pos starts
    rw [start_of_starts starts]
    have isOpen := SocketGuard.isOpen_of_value starts.2
    refine ⟨⟨fun _ => isOpen, nofun⟩, ?_, ?_, fun _ => .inr starts⟩
    · rw [one]
      simp only [State.inFlight, State.busy]
      omega
    · intro _
      rw [one]
      simp only [State.inFlight, State.busy]
      omega
  · have none : gained state (.start outcomes) = 0 := if_neg starts
    obtain ⟨guard, same, kept⟩ := start_of_not_starts starts
    rw [same]
    refine ⟨⟨?_, coherent.quiet⟩, Nat.le_add_right _ _, ?_, fun runs => .inl runs⟩
    · intro runs
      rw [kept runs]
      exact coherent.isOpen runs
    · intro _
      rw [none]
      exact Nat.le_add_right _ _

theorem balanced_stop (coherent : state.Coherent) : Balanced state .stop (stop state) := by
  by_cases running : state.running = true
  · rw [stop_of_running running (coherent.isOpen running)]
    refine ⟨⟨nofun, fun _ => rfl⟩, ?_, nofun, nofun⟩
    simp only [State.inFlight, State.busy, live_append, live_aborted]
    omega
  · rw [stop_of_stopped (by simpa using running)]
    exact balanced_of_lost coherent 0 rfl rfl (.inl (Nat.le_refl _)) rfl (fun _ => Nat.zero_le _)
      rfl

theorem balanced_handleRead {completion : Completion} {queue : List Completion}
    (coherent : state.Coherent) (idle : state.activity = .idle)
    (queued : state.queue = completion :: queue) :
    Balanced state .runHandler (handleRead completion { state with queue := queue }) := by
  have popped : live state.queue = live [completion] + live queue := by
    rw [queued]
    exact live_append [completion] queue
  by_cases running : state.running = true
  · have isOpen := coherent.isOpen running
    unfold handleRead
    rw [if_neg (by simpa using running)]
    cases completion with
    | failed error =>
        rw [live_failed] at popped
        by_cases aborted : error = operationAborted
        · simp only [aborted, if_true] at popped ⊢
          refine balanced_of_lost coherent 0 rfl rfl (.inl (Nat.le_refl _)) ?_
            (fun _ => Nat.zero_le _) rfl
          simp only [State.inFlight, State.busy, popped]
          omega
        · simp only [aborted, if_false] at popped ⊢
          rw [requestRead_of_open { state with queue := queue } running isOpen]
          refine balanced_of_lost coherent 0 rfl rfl (.inr running) ?_
            (fun _ => Nat.zero_le _) rfl
          simp only [State.inFlight, State.busy, popped]
          omega
    | received bytes =>
        rw [live_received] at popped
        refine balanced_of_lost coherent 0 rfl rfl (.inl (Nat.le_refl _)) ?_
          (fun _ => Nat.zero_le _) rfl
        simp only [State.inFlight, State.busy, popped, idle, reduceCtorEq, if_true, if_false]
        omega
  · unfold handleRead
    rw [if_pos running]
    refine balanced_of_lost coherent (live [completion]) rfl rfl (.inl (Nat.le_refl _)) ?_
      (fun runs => absurd runs running) rfl
    simp only [State.inFlight, State.busy, popped]
    omega

theorem balanced_processNext {cursor : Cursor} (coherent : state.Coherent)
    (walking : state.activity = .walking cursor) :
    Balanced state .advance (processNext cursor state) := by
  rcases processNext_eq cursor state with ⟨activity, emitted, busy, same⟩ | ended
  · rw [same]
    refine balanced_of_lost coherent 0 rfl rfl (.inl (Nat.le_refl _)) ?_ (fun _ => Nat.zero_le _)
      rfl
    simp only [State.inFlight, State.busy, walking, busy, reduceCtorEq, if_false, Nat.add_zero]
  · rw [ended]
    by_cases running : state.running = true
    · rw [requestRead_of_open { state with activity := .idle } running
        (coherent.isOpen running)]
      refine balanced_of_lost coherent 0 rfl rfl (.inr running) ?_ (fun _ => Nat.zero_le _) rfl
      simp only [State.inFlight, State.busy, walking, reduceCtorEq, if_true, if_false]
      omega
    · rw [requestRead_of_stopped (by simpa using running)]
      refine balanced_of_lost coherent 1 rfl rfl (.inl (Nat.le_refl _)) ?_
        (fun runs => absurd runs running) rfl
      simp only [State.inFlight, State.busy, walking, reduceCtorEq, if_true, if_false]

theorem balanced_activity (coherent : state.Coherent) (busy : state.activity ≠ .idle)
    {activity : Activity} (stays : activity ≠ .idle) (starts : gained state label = 0) :
    Balanced state label { state with activity := activity } := by
  refine balanced_of_lost coherent 0 rfl rfl (.inl (Nat.le_refl _)) ?_ (fun _ => Nat.zero_le _)
    starts
  simp only [State.inFlight, State.busy, busy, stays, if_false, Nat.add_zero]

theorem balanced_emit {cursor : Cursor} (coherent : state.Coherent)
    (busy : state.activity ≠ .idle) (left : Nat) (starts : gained state label = 0) :
    Balanced state label (emit cursor state left) := by
  obtain ⟨activity, stays, emitted⟩ := emit_eq cursor state left
  rw [emitted]
  exact balanced_activity coherent busy stays starts

theorem balanced_step (coherent : state.Coherent) (taken : step state label = some next) :
    Balanced state label next := by
  cases label with
  | start outcomes =>
      obtain ⟨-, rfl⟩ := step_start taken
      exact balanced_start coherent outcomes
  | stop =>
      obtain ⟨-, rfl⟩ := step_stop taken
      exact balanced_stop coherent
  | complete datagram =>
      obtain ⟨posted, rfl⟩ := step_complete taken
      refine balanced_of_lost coherent 0 rfl rfl (.inl (Nat.sub_le _ _)) ?_
        (fun _ => Nat.zero_le _) rfl
      simp only [State.inFlight, State.busy, live_append, live_received]
      omega
  | fail error =>
      obtain ⟨posted, rfl⟩ := step_fail taken
      refine balanced_of_lost coherent (if error = operationAborted then 1 else 0) rfl rfl
        (.inl (Nat.sub_le _ _)) ?_ (fun _ => Nat.le_refl _) rfl
      simp only [State.inFlight, State.busy, live_append, live_failed]
      split_ifs <;> omega
  | runHandler =>
      obtain ⟨completion, queue, idle, queued, rfl⟩ := step_runHandler taken
      exact balanced_handleRead coherent idle queued
  | advance =>
      obtain ⟨cursor, walking, rfl⟩ := step_advance taken
      exact balanced_processNext coherent walking
  | enterSlot =>
      obtain ⟨cursor, left, emitting, rfl⟩ := step_enterSlot taken
      exact balanced_activity coherent (by rw [emitting]; nofun) nofun rfl
  | skipSlot =>
      obtain ⟨cursor, left, emitting, rfl⟩ := step_skipSlot taken
      exact balanced_emit coherent (by rw [emitting]; nofun) left rfl
  | leaveSlot =>
      obtain ⟨cursor, left, inSlot, rfl⟩ := step_leaveSlot taken
      exact balanced_emit coherent (by rw [inSlot]; nofun) left rfl
  | throwSlot =>
      obtain ⟨cursor, left, inSlot, rfl⟩ := step_throwSlot taken
      refine balanced_of_lost coherent 1 rfl rfl (.inl (Nat.le_refl _)) ?_
        (fun _ => Nat.le_refl _) rfl
      simp only [State.inFlight, State.busy, inSlot, reduceCtorEq, if_true, if_false]
  | setSlots signal count =>
      obtain rfl := step_setSlots taken
      exact balanced_of_lost coherent 0 rfl rfl (.inl (Nat.le_refl _)) rfl
        (fun _ => Nat.zero_le _) rfl

end Balance

/-- An unprocessed datagram is alone: no receive can write over it. -/
structure State.Exclusive (state : State) : Prop where
  one : state.outstanding ≤ 1
  walking : state.activity ≠ .idle → state.outstanding = 0
  waiting : ∀ bytes, .received bytes ∈ state.queue → state.outstanding = 0

/-- A `start` that takes effect finds no receive in flight. -/
def StartsFresh (state : State) : Label → Prop
  | .start outcomes =>
      state.running = false → (state.guard.ensureOpen outcomes).2 = .value → state.inFlight = 0
  | _ => True

instance (state : State) (label : Label) : Decidable (StartsFresh state label) := by
  unfold StartsFresh
  cases label <;> infer_instance

/-- Nothing happened yet, apart from connecting slots. -/
structure State.Initial (state : State) : Prop where
  stopped : state.running = false
  outstanding : state.outstanding = 0
  queue : state.queue = []
  activity : state.activity = .idle

namespace State

variable {state : State}

theorem Initial.coherent (initial : state.Initial) : state.Coherent where
  isOpen runs := absurd runs (by rw [initial.stopped]; nofun)
  quiet _ := initial.outstanding

theorem Initial.inFlight (initial : state.Initial) : state.inFlight = 0 := by
  unfold State.inFlight State.busy
  rw [initial.outstanding, initial.queue, initial.activity]
  rfl

theorem busy_of_ne (busy : state.activity ≠ .idle) : state.busy = 1 := if_neg busy

theorem live_pos {bytes : Nat} {queue : List Completion}
    (waiting : .received bytes ∈ queue) : 0 < live queue :=
  List.countP_pos_iff.mpr ⟨_, waiting, by simp [Completion.Live]⟩

theorem exclusive_of_inFlight (single : state.inFlight ≤ 1) : state.Exclusive := by
  unfold State.inFlight at single
  refine ⟨by omega, ?_, ?_⟩
  · intro walking
    have busy := busy_of_ne walking
    omega
  · intro bytes waiting
    have counted := live_pos waiting
    omega

end State

theorem gained_eq_zero {state : State} {label : Label} (fresh : StartsFresh state label)
    (busy : state.inFlight ≠ 0) : gained state label = 0 := by
  cases label with
  | start outcomes => exact if_neg fun starts => busy (fresh starts.1 starts.2)
  | _ => rfl

theorem gained_le_one (state : State) (label : Label) : gained state label ≤ 1 := by
  cases label with
  | start outcomes =>
      simp only [gained]
      split_ifs <;> decide
  | _ => exact Nat.zero_le _

theorem single_step {state next : State} {label : Label}
    (single : state.Coherent ∧ state.inFlight ≤ 1) (fresh : StartsFresh state label)
    (taken : step state label = some next) : next.Coherent ∧ next.inFlight ≤ 1 := by
  have balanced := balanced_step single.1 taken
  refine ⟨balanced.coherent, balanced.upper.trans ?_⟩
  by_cases none : state.inFlight = 0
  · rw [none, Nat.zero_add]
    exact gained_le_one state label
  · rw [gained_eq_zero fresh none]
    exact single.2

/-- As long as every effective `start` finds no receive in flight, at most one is. -/
theorem receives_exclusive {state finish : State} {labels : List Label} (initial : state.Initial)
    (fresh : Machine.Allowed step StartsFresh state labels)
    (reached : Machine.run step state labels = some finish) : finish.Exclusive := by
  have single := Machine.invariant (fun _ _ _ => single_step)
    ⟨initial.coherent, initial.inFlight.le.trans (Nat.zero_le 1)⟩ fresh reached
  exact State.exclusive_of_inFlight single.2

def restartWhenIdle : List Label :=
  [.start {}, .complete (Records.Format.encode [loLink 0 0]), .runHandler, .advance, .advance,
    .stop, .runHandler, .start {}]

theorem receives_exclusive_restartWhenIdle :
    Machine.Allowed step StartsFresh {} restartWhenIdle ∧
      ∃ finish, Machine.run step {} restartWhenIdle = some finish ∧ finish.Exclusive := by
  have fresh : Machine.Allowed step StartsFresh {} restartWhenIdle := by decide +kernel
  have ends : (Machine.run step {} restartWhenIdle).isSome = true := by decide +kernel
  obtain ⟨finish, reached⟩ := Option.isSome_iff_exists.mp ends
  exact ⟨fresh, finish, reached, receives_exclusive ⟨rfl, rfl, rfl, rfl⟩ fresh reached⟩

def restartBeforeHandler : List Label :=
  [.start {}, .complete (Records.Format.encode [loLink 0 0]), .stop, .start {}, .runHandler]

/-- A completion queued before a restart is walked while the new receive is outstanding. -/
theorem walking_beside_receive :
    ¬ ∀ labels finish, Machine.run step {} labels = some finish → finish.Exclusive := by
  intro exclusive
  have restarted : (Machine.run step {} restartBeforeHandler).map
      (fun finish => (finish.activity, finish.outstanding)) =
        some (.walking (.start 40), 1) := by
    decide +kernel
  obtain ⟨finish, reached, observed⟩ := Option.map_eq_some_iff.mp restarted
  obtain ⟨walking, outstanding⟩ := Prod.mk.inj observed
  have none := (exclusive _ finish reached).walking (by rw [walking]; nofun)
  rw [outstanding] at none
  cases none

/-- A running listener waits for a datagram unless a handler runs or is queued. -/
def State.Hears (state : State) : Prop :=
  state.running = true → state.activity = .idle → state.queue = [] →
    state.outstanding ≠ 0 ∧ state.guard.socket.isOpen = true

/-- A running listener loses a receive only while another one is in flight. -/
def LosesSpare (state : State) : Label → Prop
  | .fail error => error = operationAborted → state.running = true → 1 < state.inFlight
  | .throwSlot => state.running = true → 1 < state.inFlight
  | _ => True

instance (state : State) (label : Label) : Decidable (LosesSpare state label) := by
  unfold LosesSpare
  cases label <;> infer_instance

theorem dropped_lt {state : State} {label : Label} (spare : LosesSpare state label)
    (running : state.running = true) (some : state.inFlight ≠ 0) :
    dropped label < state.inFlight := by
  have positive := Nat.pos_of_ne_zero some
  cases label with
  | fail error =>
      by_cases aborted : error = operationAborted
      · rw [dropped, if_pos aborted]
        exact spare aborted running
      · rwa [dropped, if_neg aborted]
  | throwSlot => exact spare running
  | _ => exact positive

theorem hearing_step {state next : State} {label : Label}
    (hearing : state.Coherent ∧ (state.running = true → state.inFlight ≠ 0))
    (spare : LosesSpare state label) (taken : step state label = some next) :
    next.Coherent ∧ (next.running = true → next.inFlight ≠ 0) := by
  have balanced := balanced_step hearing.1 taken
  refine ⟨balanced.coherent, fun runs => ?_⟩
  have kept := balanced.lower runs
  rcases balanced.starts runs with running | starts
  · have fewer := dropped_lt spare running (hearing.2 running)
    omega
  · cases label with
    | start outcomes =>
        have one : gained state (.start outcomes) = 1 := if_pos starts
        rw [one] at kept
        exact Nat.ne_of_gt (Nat.lt_of_lt_of_le (Nat.succ_pos _) kept)
    | _ => exact starts.elim

/-- As long as a running listener keeps a receive in flight when an abort or a throwing
slot ends one, it always waits for the next datagram. -/
theorem listener_hears {state finish : State} {labels : List Label} (initial : state.Initial)
    (spare : Machine.Allowed step LosesSpare state labels)
    (reached : Machine.run step state labels = some finish) : finish.Hears := by
  obtain ⟨coherent, flying⟩ := Machine.invariant (fun _ _ _ => hearing_step)
    ⟨initial.coherent, fun runs => absurd runs (by rw [initial.stopped]; nofun)⟩ spare reached
  intro running idle empty
  refine ⟨?_, coherent.isOpen running⟩
  have waiting := flying running
  unfold State.inFlight State.busy at waiting
  rw [if_pos idle, empty] at waiting
  exact waiting

def slotRestartsAndThrows : List Label :=
  [.setSlots (.event .link) 1, .start {}, .complete (Records.Format.encode [loLink 0 0]),
    .runHandler, .advance, .enterSlot, .stop, .start {}, .throwSlot]

theorem listener_hears_slotRestartsAndThrows :
    Machine.Allowed step LosesSpare {} slotRestartsAndThrows ∧
      ∃ finish, Machine.run step {} slotRestartsAndThrows = some finish ∧ finish.Hears := by
  have spare : Machine.Allowed step LosesSpare {} slotRestartsAndThrows := by decide +kernel
  have ends : (Machine.run step {} slotRestartsAndThrows).isSome = true := by decide +kernel
  obtain ⟨finish, reached⟩ := Option.isSome_iff_exists.mp ends
  exact ⟨spare, finish, reached, listener_hears ⟨rfl, rfl, rfl, rfl⟩ spare reached⟩

def slotThrows : List Label :=
  [.setSlots (.event .link) 1, .start {}, .complete (Records.Format.encode [loLink 0 0]),
    .runHandler, .advance, .enterSlot, .throwSlot]

/-- A throwing slot leaves a running listener without a receive. -/
theorem deaf_after_throw :
    ¬ ∀ labels finish, Machine.run step {} labels = some finish → finish.Hears := by
  intro hears
  have thrown : (Machine.run step {} slotThrows).map (fun finish =>
      (finish.running, finish.activity, finish.queue, finish.outstanding)) =
        some (true, .idle, [], 0) := by
    decide +kernel
  obtain ⟨finish, reached, observed⟩ := Option.map_eq_some_iff.mp thrown
  simp only [Prod.mk.injEq] at observed
  obtain ⟨running, idle, empty, outstanding⟩ := observed
  exact (hears _ finish reached running idle empty).1 outstanding

end Rtaco.Listener
