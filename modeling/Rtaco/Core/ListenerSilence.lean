import Rtaco.Core.ListenerReceives

/-!
# The slots after `stop`

`stop` lets the slots of the current message finish. A history variable follows
whether the listener was stopped and whether its walk moved on since.
-/

namespace Rtaco.Listener

open Netlink

/-- How far the listener got since `stop` returned and `start` was not called. -/
inductive SinceStop where
  | listening
  | stopped
  | laterMessage
  deriving DecidableEq

def SinceStop.observe (since : SinceStop) : Label → SinceStop
  | .start _ => .listening
  | .stop => if since = .listening then .stopped else since
  | .advance => if since = .stopped then .laterMessage else since
  | _ => since

abbrev stepSince : State × SinceStop → Label → Option (State × SinceStop) :=
  Machine.observed step SinceStop.observe

/-- No slot can be invoked for a later message. -/
def Silent (state : State × SinceStop) : Prop :=
  state.2 = .laterMessage → step state.1 .enterSlot = none

/-- The slots that the message at the cursor is dispatched to. -/
def State.audience (state : State) : Nat :=
  match state.activity with
  | .walking cursor =>
      if cursor.Continues state.buffer then
        match handleMessage (state.buffer.drop cursor.header) with
        | none => 0
        | some emission => state.slots emission.signal
      else 0
  | _ => 0

/-- A stopped listener walks on only over messages that no slot listens to. -/
def WalksUnheard (state : State × SinceStop) : Label → Prop
  | .advance => state.2 ≠ .listening → state.1.audience = 0
  | _ => True

instance (state : State × SinceStop) (label : Label) : Decidable (WalksUnheard state label) := by
  unfold WalksUnheard
  split
  · exact decidable_of_iff (state.2 = .listening ∨ state.1.audience = 0) or_iff_not_imp_left
  · exact .isTrue trivial

/-- The slots of a message are being invoked. -/
def Activity.Emits : Activity → Prop
  | .emitting _ _ => True
  | .inSlot _ _ => True
  | _ => False

structure Muted (state : State × SinceStop) : Prop where
  stopped : state.2 ≠ .listening → state.1.running = false
  unheard : state.2 = .laterMessage → ¬ state.1.activity.Emits

theorem running_stop (state : State) : (stop state).running = false := by
  unfold stop closeSocket
  by_cases running : state.running = true
  · simp only [running, not_true, if_false]
    split_ifs <;> rfl
  · simp [running]

theorem activity_stop (state : State) : (stop state).activity = state.activity := by
  unfold stop closeSocket
  split_ifs <;> rfl

theorem handleRead_of_stopped (state : State) (stopped : state.running = false)
    (completion : Completion) : handleRead completion state = state := by
  simp [handleRead, stopped]

theorem processNext_of_unheard {state : State} {cursor : Cursor}
    (walking : state.activity = .walking cursor) (unheard : state.audience = 0)
    (stopped : state.running = false) :
    (processNext cursor state).running = false ∧
      ¬ (processNext cursor state).activity.Emits := by
  unfold State.audience at unheard
  simp only [walking] at unheard
  unfold processNext
  by_cases continues : cursor.Continues state.buffer
  · rw [if_pos continues] at unheard ⊢
    cases dispatched : handleMessage (state.buffer.drop cursor.header) with
    | none => exact ⟨stopped, id⟩
    | some emission =>
        rw [dispatched] at unheard
        simp only [unheard]
        exact ⟨stopped, id⟩
  · have ended : requestRead { state with activity := .idle } = { state with activity := .idle } :=
      requestRead_of_stopped stopped
    rw [if_neg continues, ended]
    exact ⟨stopped, id⟩

theorem running_emit (cursor : Cursor) (state : State) (left : Nat) :
    (emit cursor state left).running = state.running := by
  cases left <;> rfl

theorem muted_of_start {next : State × SinceStop} (listening : next.2 = .listening) :
    Muted next where
  stopped silenced := absurd listening silenced
  unheard later := nomatch listening.symm.trans later

theorem muted_of_unchanged {state next : State × SinceStop} (muted : Muted state)
    (running : next.1.running = state.1.running) (since : next.2 = state.2)
    (emits : next.1.activity.Emits → state.1.activity.Emits) : Muted next where
  stopped silenced := running.trans (muted.stopped (since ▸ silenced))
  unheard later activity := muted.unheard (since ▸ later) (emits activity)

theorem muted_stop {state next : State × SinceStop} (muted : Muted state)
    (stopped : next.1 = stop state.1) (since : next.2 = state.2.observe .stop) : Muted next where
  stopped _ := stopped ▸ running_stop state.1
  unheard later := by
    rw [stopped, activity_stop]
    refine muted.unheard ?_
    rw [since, SinceStop.observe] at later
    split_ifs at later
    exact later

theorem muted_advance {state next : State × SinceStop} {cursor : Cursor} (muted : Muted state)
    (walking : state.1.activity = .walking cursor) (unheard : WalksUnheard state .advance)
    (moved : next.1 = processNext cursor state.1) (since : next.2 = state.2.observe .advance) :
    Muted next := by
  by_cases listening : state.2 = .listening
  · rw [listening] at since
    exact muted_of_start since
  · have passed := processNext_of_unheard walking (unheard listening) (muted.stopped listening)
    rw [← moved] at passed
    exact ⟨fun _ => passed.1, fun _ => passed.2⟩

theorem muted_runHandler {state next : State × SinceStop} {completion : Completion}
    {queue : List Completion} (muted : Muted state)
    (handled : next.1 = handleRead completion { state.1 with queue := queue })
    (since : next.2 = state.2) : Muted next := by
  by_cases listening : state.2 = .listening
  · exact muted_of_start (since.trans listening)
  · have ignored : handleRead completion { state.1 with queue := queue } =
        { state.1 with queue := queue } :=
      handleRead_of_stopped { state.1 with queue := queue } (muted.stopped listening) completion
    rw [ignored] at handled
    refine muted_of_unchanged muted (by rw [handled]) since ?_
    rw [handled]
    exact id

theorem muted_step {state next : State × SinceStop} {label : Label} (muted : Muted state)
    (unheard : WalksUnheard state label) (taken : stepSince state label = some next) :
    Muted next := by
  obtain ⟨taken, since⟩ := Machine.observed_eq_some.mp taken
  cases label with
  | start outcomes => exact muted_of_start since
  | stop => exact muted_stop muted (step_stop taken).2 since
  | complete datagram =>
      obtain ⟨-, same⟩ := step_complete taken
      exact muted_of_unchanged muted (by rw [same]) since (by rw [same]; exact id)
  | fail error =>
      obtain ⟨-, same⟩ := step_fail taken
      exact muted_of_unchanged muted (by rw [same]) since (by rw [same]; exact id)
  | runHandler =>
      obtain ⟨completion, queue, -, -, handled⟩ := step_runHandler taken
      exact muted_runHandler muted handled since
  | advance =>
      obtain ⟨cursor, walking, moved⟩ := step_advance taken
      exact muted_advance muted walking unheard moved since
  | enterSlot =>
      obtain ⟨cursor, left, emitting, same⟩ := step_enterSlot taken
      refine muted_of_unchanged muted (by rw [same]) since fun _ => ?_
      rw [emitting]
      trivial
  | skipSlot =>
      obtain ⟨cursor, left, emitting, same⟩ := step_skipSlot taken
      refine muted_of_unchanged muted (by rw [same, running_emit]) since fun _ => ?_
      rw [emitting]
      trivial
  | leaveSlot =>
      obtain ⟨cursor, left, inSlot, same⟩ := step_leaveSlot taken
      refine muted_of_unchanged muted (by rw [same, running_emit]) since fun _ => ?_
      rw [inSlot]
      trivial
  | throwSlot =>
      obtain ⟨cursor, left, inSlot, same⟩ := step_throwSlot taken
      exact muted_of_unchanged muted (by rw [same]) since (by rw [same]; exact False.elim)
  | setSlots signal count =>
      have same := step_setSlots taken
      exact muted_of_unchanged muted (by rw [same]) since (by rw [same]; exact id)

theorem silent_of_muted {state : State × SinceStop} (muted : Muted state) : Silent state := by
  intro later
  by_contra entered
  obtain ⟨next, taken⟩ := Option.ne_none_iff_exists'.mp entered
  obtain ⟨cursor, left, emitting, -⟩ := step_enterSlot taken
  have unheard := muted.unheard later
  rw [emitting] at unheard
  exact unheard trivial

theorem not_silent_of_audience {state : State × SinceStop} (silenced : state.2 ≠ .listening)
    (heard : state.1.audience ≠ 0) :
    ∃ next, stepSince state .advance = some next ∧ ¬ Silent next := by
  unfold State.audience at heard
  split at heard
  next cursor walking =>
    split_ifs at heard with continues
    · cases dispatched : handleMessage (state.1.buffer.drop cursor.header) with
      | none => exact absurd (by rw [dispatched]) heard
      | some emission =>
          rw [dispatched] at heard
          obtain ⟨left, slots⟩ := Nat.exists_eq_succ_of_ne_zero heard
          have moved : step state.1 .advance = some (processNext cursor state.1) := by
            simp only [step, walking]
          refine ⟨(processNext cursor state.1, state.2.observe .advance),
            Machine.observed_eq_some.mpr ⟨moved, rfl⟩, fun silent => ?_⟩
          have later : state.2.observe .advance = .laterMessage := by
            cases since : state.2 with
            | listening => exact absurd since silenced
            | stopped => rfl
            | laterMessage => rfl
          have refused := silent later
          simp only [processNext, if_pos continues, dispatched, slots, emit, step] at refused
          cases refused
    · exact absurd rfl heard
  next => exact absurd rfl heard

/-- The run keeps silent exactly as long as the walk of the stopped listener finds no slot
for the messages it still dispatches. -/
theorem silent_iff_walksUnheard (state : State) (labels : List Label) :
    (∀ before finish, before <+: labels → Machine.run step state before = some finish →
      Silent (finish, before.foldl SinceStop.observe .listening)) ↔
      Machine.Allowed stepSince WalksUnheard (state, .listening) labels := by
  have initially : Muted (state, .listening) := muted_of_start rfl
  have agree : ∀ state label, Muted state → (WalksUnheard state label ↔
      ∀ next, stepSince state label = some next → Silent next) := by
    intro state label muted
    constructor
    · intro unheard next taken
      exact silent_of_muted (muted_step muted unheard taken)
    · intro silent
      cases label with
      | advance =>
          intro silenced
          by_contra heard
          obtain ⟨next, taken, invoked⟩ := not_silent_of_audience silenced heard
          exact invoked (silent next taken)
      | _ => trivial
  have sameRuns := Machine.Allowed.iff_of_invariant agree (fun _ _ _ => muted_step) initially labels
  rw [sameRuns]
  refine Iff.trans ?_ (Machine.forall_prefix_iff.trans (and_iff_right (silent_of_muted initially)))
  constructor
  · intro silent before finish inside follows
    rw [Machine.run_observed] at follows
    obtain ⟨reached, taken, rfl⟩ := Option.map_eq_some_iff.mp follows
    exact silent before reached inside taken
  · intro silent before finish inside reached
    refine silent before _ inside ?_
    rw [Machine.run_observed, reached]
    rfl

/-- Two link messages, and the slot stops the listener at the first one. -/
def stopInFirstSlot : List Label :=
  [.setSlots (.event .link) 1, .start {},
    .complete (Records.Format.encode [loLink 0 0, loLink 0 0]), .runHandler, .advance,
    .enterSlot, .stop, .leaveSlot, .advance]

theorem invoked_after_stop :
    ¬ ∀ labels before finish, before <+: labels →
      Machine.run step {} before = some finish →
        Silent (finish, before.foldl SinceStop.observe .listening) := by
  intro silent
  have invoked : ((Machine.run step {} stopInFirstSlot).bind fun finish =>
      step finish .enterSlot).isSome = true := by
    decide +kernel
  obtain ⟨next, taken⟩ := Option.isSome_iff_exists.mp invoked
  obtain ⟨finish, reached, entered⟩ := Option.bind_eq_some_iff.mp taken
  have refused := silent stopInFirstSlot stopInFirstSlot finish List.prefix_rfl reached rfl
  rw [refused] at entered
  cases entered

/-- A stop in the last slot of a message, with a message for no signal behind it. -/
example : Machine.Allowed stepSince WalksUnheard ({}, .listening)
    [.setSlots (.event .link) 2, .start {},
      .complete (Records.Format.encode [loLink 0 0, doneMessage 0 0 0 0]), .runHandler, .advance,
      .enterSlot, .stop, .leaveSlot, .enterSlot, .leaveSlot, .advance] := by
  decide +kernel

end Rtaco.Listener
