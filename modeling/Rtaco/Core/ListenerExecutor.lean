import Rtaco.Core.ListenerInvocations
import Rtaco.Core.VoidSignal

/-!
# A listener, its signals and their executor

The handlers of the listener are the emitting thread of its five signals: what `ListenerRun` calls
a slot is a step of `VoidSignal`, in place or as a coroutine that the executor runs later, at any
time. Together they bring every message of a datagram to every slot.
-/

namespace Rtaco.Listener

open Netlink TaskPool

/-- The label connects and disconnects no slot. -/
def Label.KeepsSlots : Label → Prop
  | .skipSlot => False
  | .setSlots _ _ => False
  | _ => True

instance : (label : Label) → Decidable label.KeepsSlots
  | .skipSlot | .setSlots _ _ => .isFalse id
  | .start _ | .stop | .complete _ | .fail _ | .runHandler | .advance | .enterSlot | .leaveSlot
  | .throwSlot => .isTrue trivial

/-- The policies of the slots connected to the signal of an emission. -/
abbrev slotsOf (policies : Signal → List ExecPolicy) (emission : Emission) : List ExecPolicy :=
  policies emission.signal

structure System where
  listener : State
  signals : VoidSignal.State Emission := {}

namespace System

inductive Label where
  | listener (label : Listener.Label)
  | turn (turn : Turn)

/-- The emission that the handler is in. -/
def current (system : System) : Nat := system.signals.emissions.length - 1

/-- The slot that the handler is in runs in place. -/
def InPlace (system : System) : Prop :=
  system.signals.emissions[system.current]?.map VoidSignal.Emission.phase = some .inSlot

instance (system : System) : Decidable system.InPlace :=
  inferInstanceAs (Decidable (_ = _))

/-- What a step of the listener does to its signals. -/
def driven (system : System) (next : State) : Listener.Label → List (VoidSignal.Label Emission)
  | .advance => (next.emitted.drop system.listener.emitted.length).map .emit
  | .enterSlot => [.call system.current]
  | .leaveSlot => if system.InPlace then [.leaveSlot system.current] else []
  | .throwSlot => [.throwSlot system.current]
  | _ => []

/-- One step, with the slots that the policies stand for. -/
def step (policies : Signal → List ExecPolicy) (system : System) : Label → Option System
  | .listener label =>
      if label.KeepsSlots then
        match Listener.step system.listener label with
        | none => none
        | some next =>
            (Machine.run (VoidSignal.step (slotsOf policies)) system.signals
              (system.driven next label)).map fun signals =>
                { listener := next, signals := signals }
      else none
  | .turn turn =>
      (VoidSignal.step (slotsOf policies) system.signals (.turn turn)).map fun signals =>
        { system with signals := signals }

/-- A listener that was not started, with slots of the given policies. -/
def start (policies : Signal → List ExecPolicy) : System where
  listener := { slots := fun signal => (policies signal).length }

/-- The steps of the listener in a run of the system. -/
def heard (labels : List Label) : List Listener.Label :=
  labels.filterMap fun
    | .listener label => some label
    | .turn _ => none

end System

section Matches

variable {slots : Emission → List ExecPolicy} {emissions : List (VoidSignal.Emission Emission)}

/-- The emission has returned, or a slot threw out of it. -/
def Over (slots : Emission → List ExecPolicy) (emission : VoidSignal.Emission Emission) : Prop :=
  emission.Returned slots ∨ emission.phase = .threw

/-- The last emission has the given number of slots left to call, and the others are finished. -/
def AtSlot (slots : Emission → List ExecPolicy) (emissions : List (VoidSignal.Emission Emission))
    (left : Nat) : Prop :=
  ∃ earlier last, emissions = earlier ++ [last] ∧
    (∀ emission ∈ earlier, Over slots emission) ∧ last.phase = .calling ∧
    last.first + left = (slots last.args).length

/-- The same, from inside of a slot that runs in place. -/
def InSlot (slots : Emission → List ExecPolicy) (emissions : List (VoidSignal.Emission Emission))
    (left : Nat) : Prop :=
  ∃ earlier last, emissions = earlier ++ [last] ∧
    (∀ emission ∈ earlier, Over slots emission) ∧ last.phase = .inSlot ∧
    last.first + 1 + left = (slots last.args).length

/-- Where the signals are when the handler of the listener is here. -/
def Activity.Matches (slots : Emission → List ExecPolicy) (activity : Activity)
    (emissions : List (VoidSignal.Emission Emission)) : Prop :=
  match activity with
  | .idle => ∀ emission ∈ emissions, Over slots emission
  | .walking _ => ∀ emission ∈ emissions, Over slots emission
  | .emitting _ left => AtSlot slots emissions left
  | .inSlot _ left => InSlot slots emissions left ∨ AtSlot slots emissions left

theorem AtSlot.finished (atSlot : AtSlot slots emissions 0) :
    ∀ emission ∈ emissions, Over slots emission := by
  obtain ⟨earlier, last, rfl, finished, calling, all⟩ := atSlot
  intro emission member
  rcases List.mem_append.mp member with before | here
  · exact finished emission before
  · rw [List.mem_singleton.mp here]
    exact .inl ⟨calling, all⟩

theorem AtSlot.emit {left : Nat} (atSlot : AtSlot slots emissions left) (cursor : Cursor)
    (state : State) : (emit cursor state left).activity.Matches slots emissions := by
  cases left with
  | zero => exact atSlot.finished
  | succ left => exact atSlot

theorem atSlot_concat (finished : ∀ emission ∈ emissions, Over slots emission) (args : Emission) :
    AtSlot slots (emissions ++ [{ args := args }]) (slots args).length :=
  ⟨emissions, _, rfl, finished, rfl, Nat.zero_add _⟩

end Matches

namespace System

variable {policies : Signal → List ExecPolicy} {system : System} {next : State}

structure Matches (policies : Signal → List ExecPolicy) (system : System) : Prop where
  slots : ∀ signal, system.listener.slots signal = (policies signal).length
  args : system.signals.emissions.map VoidSignal.Emission.args = system.listener.emitted
  activity : system.listener.activity.Matches (slotsOf policies) system.signals.emissions

/-- The listener moves and its signals follow. -/
def Follows (policies : Signal → List ExecPolicy) (system : System) (next : State)
    (label : Listener.Label) : Prop :=
  ∃ signals, Machine.run (VoidSignal.step (slotsOf policies)) system.signals
    (system.driven next label) = some signals ∧
      Matches policies { listener := next, signals := signals }

theorem Matches.quiet (matched : Matches policies system) {label : Listener.Label}
    (drives : system.driven next label = []) (slots : next.slots = system.listener.slots)
    (emitted : next.emitted = system.listener.emitted)
    (activity : next.activity.Matches (slotsOf policies) system.signals.emissions) :
    Follows policies system next label := by
  refine ⟨system.signals, ?_, ?_, ?_, activity⟩
  · rw [drives]
    rfl
  · rw [slots]
    exact matched.slots
  · rw [emitted]
    exact matched.args

theorem Matches.aside (matched : Matches policies system) {label : Listener.Label}
    (drives : system.driven next label = []) (slots : next.slots = system.listener.slots)
    (emitted : next.emitted = system.listener.emitted)
    (activity : next.activity = system.listener.activity) :
    Follows policies system next label := by
  refine matched.quiet drives slots emitted ?_
  rw [activity]
  exact matched.activity

theorem Matches.start (matched : Matches policies system) (outcomes : Outcomes) :
    Follows policies system (Listener.start outcomes system.listener) (.start outcomes) := by
  by_cases starts : Starts system.listener (.start outcomes)
  · rw [start_of_starts starts]
    exact matched.aside rfl rfl rfl rfl
  · obtain ⟨guard, same, -⟩ := start_of_not_starts starts
    rw [same]
    exact matched.aside rfl rfl rfl rfl

theorem Matches.stop (matched : Matches policies system) :
    Follows policies system (Listener.stop system.listener) .stop := by
  unfold Listener.stop closeSocket
  split_ifs
  · exact matched.aside rfl rfl rfl rfl
  · exact matched.aside rfl rfl rfl rfl
  · exact matched.aside rfl rfl rfl rfl

theorem Matches.runHandler (matched : Matches policies system) {completion : Completion}
    {queue : List Completion} (idle : system.listener.activity = .idle) :
    Follows policies system (handleRead completion { system.listener with queue := queue })
      .runHandler := by
  unfold handleRead
  split_ifs with running
  · cases completion with
    | failed error =>
        simp only
        split_ifs with aborted
        · exact matched.aside rfl rfl rfl rfl
        · obtain ⟨outstanding, requests, -, requested⟩ :=
            requestRead_eq { system.listener with queue := queue }
          rw [requested]
          exact matched.aside rfl rfl rfl rfl
    | received bytes =>
        have activity := matched.activity
        rw [idle] at activity
        exact matched.quiet rfl rfl rfl activity
  · exact matched.aside rfl rfl rfl rfl

theorem Matches.advance (matched : Matches policies system) {cursor : Cursor}
    (walking : system.listener.activity = .walking cursor) :
    Follows policies system (processNext cursor system.listener) .advance := by
  have finished := matched.activity
  rw [walking] at finished
  have nothing : (system.listener.emitted.drop system.listener.emitted.length).map
      VoidSignal.Label.emit = [] := by
    rw [List.drop_length, List.map_nil]
  unfold processNext
  split_ifs with continues
  · cases handleMessage (system.listener.buffer.drop cursor.header) with
    | none => exact matched.quiet nothing rfl rfl finished
    | some emission =>
        obtain ⟨activity, -, emits⟩ := emit_eq cursor
          { system.listener with emitted := system.listener.emitted ++ [emission] }
          (system.listener.slots emission.signal)
        have atSlot := (atSlot_concat finished emission).emit cursor
          { system.listener with emitted := system.listener.emitted ++ [emission] }
        rw [← matched.slots emission.signal, emits] at atSlot
        simp only [emits]
        refine ⟨{ system.signals with
          emissions := system.signals.emissions ++ [{ args := emission }] }, ?_, matched.slots, ?_,
          atSlot⟩
        · unfold driven
          rw [List.drop_left]
          rfl
        · exact List.map_append.trans (congrArg (· ++ [emission]) matched.args)
  · obtain ⟨outstanding, queue, -, requested⟩ :=
      requestRead_eq { system.listener with activity := .idle }
    rw [requested]
    exact matched.quiet nothing rfl rfl finished

theorem current_concat {earlier : List (VoidSignal.Emission Emission)}
    {last : VoidSignal.Emission Emission}
    (emissions : system.signals.emissions = earlier ++ [last]) :
    system.current = earlier.length ∧ system.signals.emissions[system.current]? = some last := by
  have current : system.current = earlier.length := by
    rw [current, emissions, List.length_append, List.length_singleton, Nat.add_sub_cancel]
  rw [current, emissions]
  exact ⟨rfl, List.getElem?_concat_length⟩

theorem put_concat {earlier : List (VoidSignal.Emission Emission)}
    {last : VoidSignal.Emission Emission}
    (emissions : system.signals.emissions = earlier ++ [last])
    (changed : VoidSignal.Emission Emission) :
    (system.signals.put system.current changed).emissions = earlier ++ [changed] := by
  rw [VoidSignal.State.put, (current_concat emissions).1, emissions]
  simp

theorem Matches.enterSlot (matched : Matches policies system) {cursor : Cursor} {left : Nat}
    (emitting : system.listener.activity = .emitting cursor (left + 1)) :
    Follows policies system { system.listener with activity := .inSlot cursor left }
      .enterSlot := by
  have activity := matched.activity
  rw [emitting] at activity
  obtain ⟨earlier, last, emissions, finished, calling, count⟩ := activity
  obtain ⟨-, present⟩ := current_concat emissions
  have connected : last.first < (slotsOf policies last.args).length := by omega
  have called : VoidSignal.step (slotsOf policies) system.signals (.call system.current) = some
      (VoidSignal.callSlot system.signals system.current last
        (slotsOf policies last.args)[last.first]) := by
    simp only [VoidSignal.step, present, calling, List.getElem?_eq_getElem connected]
  refine ⟨_, Machine.run_cons_eq_some.mpr ⟨_, called, rfl⟩, matched.slots, ?_, ?_⟩
  · rw [← matched.args]
    cases (slotsOf policies last.args)[last.first] with
    | sync => exact VoidSignal.args_put present rfl
    | async => exact VoidSignal.args_put present rfl
  · cases (slotsOf policies last.args)[last.first] with
    | sync =>
        refine .inl ⟨earlier, { last with phase := .inSlot }, put_concat emissions _, finished, rfl,
          ?_⟩
        change last.first + 1 + left = (slotsOf policies last.args).length
        omega
    | async =>
        refine .inr ⟨earlier, last.increment, put_concat emissions _, finished, rfl, ?_⟩
        change last.first + 1 + left = (slotsOf policies last.args).length
        omega

theorem Matches.leaveSlot (matched : Matches policies system) {cursor : Cursor} {left : Nat}
    (inSlot : system.listener.activity = .inSlot cursor left) :
    Follows policies system (emit cursor system.listener left) .leaveSlot := by
  obtain ⟨activity, -, emits⟩ := emit_eq cursor system.listener left
  have here := matched.activity
  rw [inSlot] at here
  rcases here with inPlace | atSlot
  · obtain ⟨earlier, last, emissions, finished, phase, count⟩ := inPlace
    obtain ⟨-, present⟩ := current_concat emissions
    have place : system.InPlace := by
      rw [InPlace, present, Option.map_some, phase]
    have leaves : VoidSignal.step (slotsOf policies) system.signals (.leaveSlot system.current) =
        some (system.signals.put system.current last.increment) := by
      simp only [VoidSignal.step, present, phase, if_true]
    have atSlot : AtSlot (slotsOf policies)
        (system.signals.put system.current last.increment).emissions left := by
      refine ⟨earlier, last.increment, put_concat emissions _, finished, rfl, ?_⟩
      exact count
    have position := atSlot.emit cursor system.listener
    rw [emits] at position ⊢
    refine ⟨system.signals.put system.current last.increment, ?_, matched.slots, ?_, position⟩
    · rw [driven, if_pos place]
      exact Machine.run_cons_eq_some.mpr ⟨_, leaves, rfl⟩
    · rw [← matched.args]
      exact VoidSignal.args_put present rfl
  · have position := atSlot.emit cursor system.listener
    obtain ⟨earlier, last, emissions, finished, phase, count⟩ := atSlot
    have away : ¬ system.InPlace := by
      rw [InPlace, (current_concat emissions).2, Option.map_some, phase]
      decide
    rw [emits] at position ⊢
    refine matched.quiet ?_ rfl rfl position
    rw [driven, if_neg away]

theorem inPlace_of_throwSlot {signals : VoidSignal.State Emission}
    (driven : Machine.run (VoidSignal.step (slotsOf policies)) system.signals
      (system.driven next .throwSlot) = some signals) : system.InPlace := by
  obtain ⟨after, taken, -⟩ := Machine.run_cons_eq_some.mp driven
  obtain ⟨emission, present, inSlot, -⟩ := VoidSignal.step_throwSlot taken
  rw [InPlace, present, Option.map_some, inSlot]

theorem Matches.throwSlot (matched : Matches policies system) {cursor : Cursor} {left : Nat}
    (inSlot : system.listener.activity = .inSlot cursor left) (place : system.InPlace) :
    Follows policies system { system.listener with activity := .idle } .throwSlot := by
  have here := matched.activity
  rw [inSlot] at here
  rcases here with inPlace | atSlot
  · obtain ⟨earlier, last, emissions, finished, phase, -⟩ := inPlace
    obtain ⟨-, present⟩ := current_concat emissions
    have throws : VoidSignal.step (slotsOf policies) system.signals (.throwSlot system.current) =
        some (system.signals.put system.current { last with phase := .threw }) := by
      simp only [VoidSignal.step, present, phase, if_true]
    refine ⟨system.signals.put system.current { last with phase := .threw },
      Machine.run_cons_eq_some.mpr ⟨_, throws, rfl⟩, matched.slots, ?_, ?_⟩
    · rw [← matched.args]
      exact VoidSignal.args_put present rfl
    · intro emission member
      rw [put_concat emissions] at member
      rcases List.mem_append.mp member with before | last
      · exact finished emission before
      · rw [List.mem_singleton.mp last]
        exact .inr rfl
  · obtain ⟨earlier, last, emissions, -, phase, -⟩ := atSlot
    rw [InPlace, (current_concat emissions).2, Option.map_some, phase] at place
    cases place

/-- Whatever the listener does while its slots stay connected, its signals can do with it. Only a
slot that runs in place can throw out of the handler. -/
theorem follows_of_step (matched : Matches policies system) {label : Listener.Label}
    (keeps : label.KeepsSlots) (throws : label = .throwSlot → system.InPlace)
    (taken : Listener.step system.listener label = some next) :
    Follows policies system next label := by
  cases label with
  | start outcomes =>
      obtain ⟨-, rfl⟩ := step_start taken
      exact matched.start outcomes
  | stop =>
      obtain ⟨-, rfl⟩ := step_stop taken
      exact matched.stop
  | complete datagram =>
      obtain ⟨-, rfl⟩ := step_complete taken
      exact matched.aside rfl rfl rfl rfl
  | fail error =>
      obtain ⟨-, rfl⟩ := step_fail taken
      exact matched.aside rfl rfl rfl rfl
  | runHandler =>
      obtain ⟨completion, queue, idle, -, rfl⟩ := step_runHandler taken
      exact matched.runHandler idle
  | advance =>
      obtain ⟨cursor, walking, rfl⟩ := step_advance taken
      exact matched.advance walking
  | enterSlot =>
      obtain ⟨cursor, left, emitting, rfl⟩ := step_enterSlot taken
      exact matched.enterSlot emitting
  | skipSlot => exact keeps.elim
  | leaveSlot =>
      obtain ⟨cursor, left, inSlot, rfl⟩ := step_leaveSlot taken
      exact matched.leaveSlot inSlot
  | throwSlot =>
      obtain ⟨cursor, left, inSlot, rfl⟩ := step_throwSlot taken
      exact matched.throwSlot inSlot (throws rfl)
  | setSlots signal count => exact keeps.elim

theorem step_listener {label : Listener.Label} {after : System}
    (taken : step policies system (.listener label) = some after) :
    label.KeepsSlots ∧ Listener.step system.listener label = some after.listener ∧
      Machine.run (VoidSignal.step (slotsOf policies)) system.signals
        (system.driven after.listener label) = some after.signals := by
  obtain ⟨keeps, taken⟩ := Option.ite_none_right_eq_some.mp taken
  split at taken
  next => cases taken
  next next moved =>
    obtain ⟨signals, driven, rfl⟩ := Option.map_eq_some_iff.mp taken
    exact ⟨keeps, moved, driven⟩

theorem step_turn {turn : Turn} {after : System}
    (taken : step policies system (.turn turn) = some after) :
    VoidSignal.step (slotsOf policies) system.signals (.turn turn) = some after.signals ∧
      after.listener = system.listener := by
  obtain ⟨signals, turned, rfl⟩ := Option.map_eq_some_iff.mp taken
  exact ⟨turned, rfl⟩

theorem matches_step {label : Label} {after : System} (matched : Matches policies system)
    (taken : step policies system label = some after) : Matches policies after := by
  cases label with
  | listener label =>
      obtain ⟨keeps, moved, driven⟩ := step_listener taken
      have throws : label = .throwSlot → system.InPlace := by
        rintro rfl
        exact inPlace_of_throwSlot driven
      obtain ⟨signals, follows, later⟩ := follows_of_step matched keeps throws moved
      obtain rfl := Option.some.inj (driven.symm.trans follows)
      exact later
  | turn turn =>
      obtain ⟨turned, same⟩ := step_turn taken
      obtain ⟨executor, -, signals⟩ := VoidSignal.step_turn turned
      refine ⟨?_, ?_, ?_⟩
      · rw [same]
        exact matched.slots
      · rw [same, signals]
        exact matched.args
      · rw [same, signals]
        exact matched.activity

theorem matches_start (policies : Signal → List ExecPolicy) : Matches policies (start policies) :=
  ⟨fun _ => rfl, rfl, nofun⟩

theorem matches_of_run {labels : List Label} {finish : System}
    (reached : Machine.run (step policies) (start policies) labels = some finish) :
    Matches policies finish :=
  Machine.invariant_of_run (fun _ _ _ matched taken => matches_step matched taken)
    (matches_start policies) reached

theorem run_heard {labels : List Label} {finish : System}
    (reached : Machine.run (step policies) system labels = some finish) :
    Machine.run Listener.step system.listener (heard labels) = some finish.listener := by
  induction labels generalizing system with
  | nil =>
      cases reached
      rfl
  | cons label labels inductionHypothesis =>
      obtain ⟨after, taken, rest⟩ := Machine.run_cons_eq_some.mp reached
      have later := inductionHypothesis rest
      cases label with
      | listener label =>
          exact Machine.run_cons_eq_some.mpr ⟨_, (step_listener taken).2.1, later⟩
      | turn turn =>
          rw [(step_turn taken).2] at later
          exact later

theorem throwSlot_of_driven {label : Listener.Label} {index : Nat}
    (throws : .throwSlot index ∈ system.driven next label) : label = .throwSlot := by
  cases label with
  | advance =>
      obtain ⟨emission, -, other⟩ := List.mem_map.mp throws
      cases other
  | enterSlot => cases List.mem_singleton.mp throws
  | leaveSlot =>
      obtain ⟨-, here⟩ := List.mem_ite_nil_right.mp throws
      cases List.mem_singleton.mp here
  | throwSlot => rfl
  | _ => cases throws

/-- The signals' part of a run of the system is a run of the signals, in which a slot throws only
where the listener says so. -/
theorem run_signals {labels : List Label} {finish : System}
    (reached : Machine.run (step policies) system labels = some finish) :
    ∃ driven, Machine.run (VoidSignal.step (slotsOf policies)) system.signals driven =
        some finish.signals ∧
      ∀ index, .throwSlot index ∈ driven → .throwSlot ∈ heard labels := by
  induction labels generalizing system with
  | nil =>
      cases reached
      exact ⟨[], rfl, nofun⟩
  | cons label labels inductionHypothesis =>
      obtain ⟨after, taken, rest⟩ := Machine.run_cons_eq_some.mp reached
      obtain ⟨driven, later, throws⟩ := inductionHypothesis rest
      cases label with
      | listener label =>
          obtain ⟨-, -, first⟩ := step_listener taken
          refine ⟨system.driven after.listener label ++ driven, ?_, fun index member => ?_⟩
          · rw [Machine.run_append, first]
            exact later
          · rcases List.mem_append.mp member with here | behind
            · rw [throwSlot_of_driven here]
              exact List.mem_cons_self
            · exact List.mem_cons_of_mem _ (throws index behind)
      | turn turn =>
          refine ⟨_, Machine.run_cons_eq_some.mpr ⟨_, (step_turn taken).1, later⟩, ?_⟩
          intro index member
          rcases List.mem_cons.mp member with here | behind
          · cases here
          · exact throws index behind

theorem run_turns {turns : List Turn} {settled : VoidSignal.State Emission}
    (turned : Machine.run (VoidSignal.step (slotsOf policies)) system.signals
      (turns.map .turn) = some settled) :
    Machine.run (step policies) system (turns.map .turn) =
      some { system with signals := settled } := by
  induction turns generalizing system with
  | nil =>
      cases turned
      rfl
  | cons turn turns inductionHypothesis =>
      obtain ⟨signals, first, rest⟩ := Machine.run_cons_eq_some.mp turned
      refine Machine.run_cons_eq_some.mpr ⟨{ system with signals := signals }, ?_, ?_⟩
      · rw [step, first]
        rfl
      · exact @inductionHypothesis { system with signals := signals } rest

theorem emits_of_driven {label : Listener.Label} :
    ∀ driven ∈ system.driven next label, driven.Emits := by
  intro driven member
  cases label with
  | advance =>
      obtain ⟨emission, -, rfl⟩ := List.mem_map.mp member
      trivial
  | enterSlot =>
      rw [List.mem_singleton.mp member]
      trivial
  | leaveSlot =>
      obtain ⟨-, here⟩ := List.mem_ite_nil_right.mp member
      rw [List.mem_singleton.mp here]
      trivial
  | throwSlot =>
      rw [List.mem_singleton.mp member]
      trivial
  | _ => cases member

/-- Wherever a run of the system leads, throwing slots included, the listener can do in it what it
can do by itself: whatever coroutines are in flight, no handler waits for the executor. An exception
leaves the handler only out of a slot that runs in place. -/
theorem listener_goes_on {labels : List Label} {finish : System}
    (reached : Machine.run (step policies) (start policies) labels = some finish)
    {label : Listener.Label} (keeps : label.KeepsSlots)
    (throws : label = .throwSlot → finish.InPlace)
    (taken : Listener.step finish.listener label = some next) :
    ∃ after, step policies finish (.listener label) = some after ∧ after.listener = next ∧
      finish.signals.executor.waiting <+: after.signals.executor.waiting := by
  have matched := matches_of_run reached
  obtain ⟨signals, driven, -⟩ := follows_of_step matched keeps throws taken
  refine ⟨{ listener := next, signals := signals }, ?_, rfl,
    VoidSignal.waiting_run emits_of_driven driven⟩
  simp only [step, if_pos keeps, taken, driven, Option.map_some]

def syncAndAsync (_ : Signal) : List ExecPolicy := [.sync, .async]

/-- The Sync slot throws out of the first datagram. The listener is started anew and gets as far as
the Async slot of the second one. -/
def throwAndRestart : List Listener.Label :=
  [.start {}, .complete loDatagram.bytes, .runHandler, .advance, .enterSlot, .throwSlot, .stop,
    .start {}, .complete loDatagram.bytes, .runHandler, .advance, .enterSlot, .leaveSlot]

theorem listener_goes_on_throwAndRestart :
    ∃ finish next after, Machine.run (step syncAndAsync) (start syncAndAsync)
        (throwAndRestart.map .listener) = some finish ∧
      Listener.step finish.listener .enterSlot = some next ∧
      step syncAndAsync finish (.listener .enterSlot) = some after ∧ after.listener = next := by
  have ends : ((Machine.run (step syncAndAsync) (start syncAndAsync)
      (throwAndRestart.map .listener)).map fun finish =>
        (Listener.step finish.listener .enterSlot).isSome) = some true := by
    decide +kernel
  obtain ⟨finish, reached, goes⟩ := Option.map_eq_some_iff.mp ends
  obtain ⟨next, taken⟩ := Option.isSome_iff_exists.mp goes
  have keeps : Listener.Label.enterSlot.KeepsSlots := trivial
  obtain ⟨after, follows, same, -⟩ := listener_goes_on reached keeps nofun taken
  exact ⟨finish, next, after, reached, taken, follows, same⟩

/-- Between walks every emission has called all its slots, if none of them threw. -/
theorem Matches.called (matched : Matches policies system)
    (idle : system.listener.activity = .idle)
    (unthrown : ∀ emission ∈ system.signals.emissions, emission.phase ≠ .threw) (index : Nat) :
    system.signals.called index = system.listener.emitted[index]?.map fun emission =>
      (emission, (slotsOf policies emission).length) := by
  have finished := matched.activity
  rw [idle] at finished
  rw [← matched.args, List.getElem?_map, VoidSignal.State.called]
  cases present : system.signals.emissions[index]? with
  | none => rfl
  | some emission =>
      have member := List.mem_of_getElem? present
      obtain ⟨calling, all⟩ := (finished emission member).resolve_right (unthrown emission member)
      rw [Option.map_some, Option.map_some, Option.map_some,
        VoidSignal.Emission.begun_of_calling calling, all]

/-- What is owed for the signals: a call of every slot connected to each. -/
def Owed (policies : Signal → List ExecPolicy) (emitted : List Emission)
    (call : VoidSignal.Call Emission) : Prop :=
  emitted[call.emission]? = some call.args ∧ call.slot < (slotsOf policies call.args).length

/-- However the executor's turns fall between the steps of a listener that never stops, when all
received datagrams are handled every slot was called for every signal they stand for, exactly once:
the Sync slots in connection order, while the signal was emitted, and the Async slots by
coroutines that have run or are in flight, and that all run once the executor takes its turns. -/
theorem every_slot_is_called {labels : List Label} {finish : System} {datagrams : List Datagram}
    (readable : ∀ datagram ∈ datagrams, Readable datagram)
    (arrived : received (heard labels) = datagrams.map Datagram.bytes)
    (returns : .throwSlot ∉ heard labels) (never : .stop ∉ heard labels)
    (reached : Machine.run (step policies) (start policies) labels = some finish)
    (idle : finish.listener.activity = .idle) (empty : finish.listener.queue = []) :
    finish.signals.executor.tasks.Nodup ∧
    (∀ call, call ∈ finish.signals.executor.tasks ↔
      Owed policies (datagrams.flatMap Listener.signals) call) ∧
    (∀ index emission, (datagrams.flatMap Listener.signals)[index]? = some emission →
      finish.signals.syncSlots (slotsOf policies) index =
        VoidSignal.firstSync (slotsOf policies) emission (slotsOf policies emission).length) ∧
    ∃ (turns : List Turn) (settled : System),
      Machine.run (step policies) finish (turns.map .turn) = some settled ∧
      settled.signals.executor.waiting = [] ∧
      settled.signals.executor.done.Perm finish.signals.executor.tasks := by
  have matched := matches_of_run reached
  have calm : ∀ label ∈ heard labels, label ≠ .throwSlot := by
    rintro label member rfl
    exact returns member
  have initial : (start policies).listener.Initial := ⟨rfl, rfl, rfl, rfl⟩
  have alone := completesAlone_of_never initial never
  obtain ⟨handled, waiting, ahead, account⟩ := account_of_run initial rfl readable arrived calm
    alone (run_heard reached)
  have all := account.all never
  rw [account.waiting_of_empty empty, List.append_nil] at all
  have emitted := account.emitted_of_idle idle
  rw [all] at emitted
  obtain ⟨driven, run, throws⟩ := run_signals reached
  have unthrown :=
    VoidSignal.unthrown_of_run (fun index member => returns (throws index member)) run
  have called := matched.called idle unthrown
  rw [emitted] at called
  have delivers := VoidSignal.delivers_of_run run
  refine ⟨delivers.nodup, fun call => ?_, fun index emission present => ?_, ?_⟩
  · rw [delivers.mem, called]
    constructor
    · rintro ⟨begun, same, below⟩
      obtain ⟨emission, present, here⟩ := Option.map_eq_some_iff.mp same
      obtain ⟨rfl, rfl⟩ := Prod.mk.inj here
      exact ⟨present, below⟩
    · rintro ⟨present, below⟩
      refine ⟨_, ?_, below⟩
      rw [present, Option.map_some]
  · refine delivers.inOrder index emission _ ?_
    rw [called, present, Option.map_some]
  · obtain ⟨turns, settled, -, turned, none, done⟩ :=
      finish.signals.executor.exists_run_settled
    exact ⟨turns, _, run_turns (VoidSignal.run_turns turned), none, done⟩

/-- The coroutine of the Async slot is posted while the handler has not left that slot. -/
def turnInHandler : List Label :=
  (oneDatagram.take 7).map .listener ++ .turn (.post 0) :: (oneDatagram.drop 7).map .listener

theorem every_slot_is_called_turnInHandler :
    ∃ finish, Machine.run (step syncAndAsync) (start syncAndAsync) turnInHandler = some finish ∧
      finish.signals.executor.tasks.Nodup ∧
      ∀ call, call ∈ finish.signals.executor.tasks ↔
        Owed syncAndAsync ([loDatagram].flatMap Listener.signals) call := by
  have readable : ∀ datagram ∈ [loDatagram], Readable datagram := by decide
  have returns : .throwSlot ∉ heard turnInHandler := by
    simp [turnInHandler, heard, oneDatagram]
  have never : .stop ∉ heard turnInHandler := by
    simp [turnInHandler, heard, oneDatagram]
  have ends : (Machine.run (step syncAndAsync) (start syncAndAsync) turnInHandler).map
      (fun finish => (finish.listener.activity, finish.listener.queue)) = some (.idle, []) := by
    decide +kernel
  obtain ⟨finish, reached, observed⟩ := Option.map_eq_some_iff.mp ends
  obtain ⟨idle, empty⟩ := Prod.mk.inj observed
  obtain ⟨once, owed, -⟩ :=
    every_slot_is_called readable rfl returns never reached idle empty
  exact ⟨finish, reached, once, owed⟩

end System

end Rtaco.Listener
