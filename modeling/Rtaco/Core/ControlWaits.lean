import Rtaco.Core.ControlCoherence

/-!
# What the operations of a `Control` wait for

At the gate only the operation that came last still waits, and every earlier one moved the expiry
by a nanosecond at most. On a socket, the outstanding receives are those of the operations that
wait for one.
-/

namespace Rtaco.Control

open Netlink

variable {state next : State} {operation : Nat}

def State.AtGate (state : State) (operation : Nat) : Prop :=
  ∃ entry, state.operations operation = some entry ∧ entry.phase = .waiting

def Label.issues : Label → Nat
  | .issue _ _ => 1
  | _ => 0

/-- How many operations the labels issue. -/
def issues (labels : List Label) : Nat := (labels.map Label.issues).sum

theorem not_atGate_openGate (state : State) (operation : Nat) :
    ¬ state.openGate.AtGate operation := by
  rintro ⟨entry, present, phase⟩
  unfold State.openGate at present
  obtain ⟨earlier, -, rfl⟩ := Option.map_eq_some_iff.mp present
  cases waits : earlier.phase with
  | waiting => simp [waits] at phase
  | _ => simp [waits] at phase

theorem atGate_of_step {label : Label} (taken : step state label = some next)
    (waits : next.AtGate operation) :
    (∃ request, label = .issue operation request) ∨
      state.AtGate operation ∧ label.issues = 0 := by
  obtain ⟨later, found, phase⟩ := waits
  have moves := step_moves taken operation
  rw [found] at moves
  generalize present : state.operations operation = before at moves
  cases moves with
  | stay spares =>
      right
      refine ⟨⟨later, present, phase⟩, ?_⟩
      cases label with
      | issue issued request =>
          -- the expiry is moved, which ends every earlier wait
          cases step_effect taken with
          | issue fresh =>
              change Function.update (acquireSocketToken state).operations issued _ operation = _
                at found
              rw [Function.update_of_ne spares] at found
              exact absurd ⟨later, found, phase⟩ (not_atGate_openGate state operation)
      | _ => rfl
  | issue request => exact .inl ⟨request, rfl⟩
  | _ => cases phase

theorem atGate_unique_step {label : Label} (taken : step state label = some next)
    (unique : ∀ first second, state.AtGate first → state.AtGate second → first = second)
    (first second : Nat) (one : next.AtGate first) (other : next.AtGate second) :
    first = second := by
  rcases atGate_of_step taken one with ⟨request, rfl⟩ | ⟨before, quiet⟩
  · rcases atGate_of_step taken other with ⟨later, same⟩ | ⟨-, quiet⟩
    · cases same
      rfl
    · cases quiet
  · rcases atGate_of_step taken other with ⟨later, rfl⟩ | ⟨earlier, -⟩
    · cases quiet
    · exact unique first second before earlier

theorem completeReceive_clock {completion : Except ErrorCode Bytes}
    (completed : completeReceive operation completion state = some next) :
    next.gate = state.gate ∧ next.now = state.now := by
  obtain ⟨phase, entry, completions, present, receiving, -, rfl⟩ :=
    completeReceive_eq_some completed
  exact ⟨rfl, rfl⟩

theorem abortReceives_clock {receives : List Nat}
    (aborted : receives.foldlM (fun state operation =>
      completeReceive operation (.error operationAborted) state) state = some next) :
    next.gate = state.gate ∧ next.now = state.now := by
  induction receives generalizing state with
  | nil =>
      cases aborted
      exact ⟨rfl, rfl⟩
  | cons reader receives inductionHypothesis =>
      obtain ⟨middle, completed, rest⟩ := Option.bind_eq_some_iff.mp aborted
      obtain ⟨gate, now⟩ := completeReceive_clock completed
      obtain ⟨gates, nows⟩ := inductionHypothesis rest
      exact ⟨gates.trans gate, nows.trans now⟩

theorem openSocket_clock (entry : Operation) (outcomes : Outcomes) (stale : Bytes)
    (state : State) :
    (openSocket operation entry outcomes stale state).gate = state.gate ∧
      (openSocket operation entry outcomes stale state).now = state.now := by
  unfold openSocket
  simp only []
  rcases (state.channels (entry.request.channel operation)).guard.ensureOpen outcomes with
    ⟨guard, result⟩
  cases result <;> exact ⟨rfl, rfl⟩

/-- An operation moves the expiry to the next nanosecond that is free. -/
theorem acquireSocketToken_clock (state : State) :
    (acquireSocketToken state).gate = max (state.gate + 1) (state.now + 1) ∧
      (acquireSocketToken state).now = state.now := by
  refine ⟨?_, rfl⟩
  change (if state.gate + 1 ≤ state.now then state.now + 1 else state.gate + 1) = _
  split_ifs with late
  · exact (max_eq_right (by omega)).symm
  · exact (max_eq_left (by omega)).symm

theorem gate_step {label : Label} {delay : Nat} (taken : step state label = some next)
    (bound : state.gate ≤ state.now + delay) :
    next.gate ≤ next.now + (delay + label.issues : Nat) := by
  have kept : next.gate = state.gate ∧ next.now = state.now →
      next.gate ≤ next.now + (delay + label.issues : Nat) := by
    rintro ⟨gate, now⟩
    rw [gate, now]
    omega
  cases step_effect taken with
  | issue fresh request =>
      obtain ⟨gate, now⟩ := acquireSocketToken_clock state
      change (acquireSocketToken state).gate ≤ (acquireSocketToken state).now + _
      rw [gate, now, Label.issues]
      omega
  | tick elapsed =>
      change state.gate ≤ state.now + elapsed + _
      omega
  | resume present phase outcomes stale => exact kept (openSocket_clock _ _ _ _)
  | reply received requested answers single completed =>
      exact kept (completeReceive_clock completed :)
  | notify received completed => exact kept (completeReceive_clock completed :)
  | fail received completed => exact kept (completeReceive_clock completed :)
  | stop isOpen aborted => exact kept (abortReceives_clock aborted :)
  | _ => exact kept ⟨rfl, rfl⟩

theorem issues_append (first second : List Label) :
    issues (first ++ second) = issues first + issues second := by
  unfold issues
  rw [List.map_append, List.sum_append]

/-- What a run keeps of the gate. -/
structure Gated (state : State) (past : List Label) : Prop where
  bound : state.gate ≤ state.now + issues past
  unique : ∀ first second, state.AtGate first → state.AtGate second → first = second

/-- Wherever a run leads, the gate expires within as many nanoseconds as operations were issued,
no two operations wait at it, and when that time has passed none does. -/
theorem gate_of_run {now : Int} (clock : -2 ^ 63 ≤ now) {labels : List Label} {finish : State}
    (reached : Machine.run step { now := now } labels = some finish) :
    (finish.gate - finish.now).toNat ≤ issues labels ∧
      (∀ first second, finish.AtGate first → finish.AtGate second → first = second) ∧
      ∃ opened, Machine.run step finish [.tick (finish.gate - finish.now).toNat, .expire] =
        some opened ∧ ∀ operation, ¬ opened.AtGate operation := by
  have gated : Gated finish labels := by
    refine Machine.invariant_of_run_trace (fun state past label next gated taken => ?_) ?_ reached
    · refine ⟨?_, atGate_unique_step taken gated.unique⟩
      rw [issues_append]
      exact gate_step taken gated.bound
    · refine ⟨clock.trans ?_, ?_⟩
      · exact Int.le_add_of_nonneg_right (Int.natCast_nonneg _)
      · rintro first second ⟨entry, present, -⟩
        cases present
  have bound := gated.bound
  refine ⟨by omega, gated.unique, finish.opened, run_opening finish, fun operation waits => ?_⟩
  obtain ⟨entry, present, phase⟩ := waits
  rw [opened_operations] at present
  exact not_atGate_openGate finish operation ⟨entry, present, phase⟩

theorem gate_of_run_twoIssues :
    ∃ finish, Machine.run step { now := 0 }
        [.issue 0 .probeNeighbor, .issue 1 (.dump .link)] = some finish ∧
      ∀ first second, finish.AtGate first → finish.AtGate second → first = second := by
  have ends : (Machine.run step { now := 0 }
      [.issue 0 .probeNeighbor, .issue 1 (.dump .link)]).isSome = true := rfl
  obtain ⟨finish, reached⟩ := Option.isSome_iff_exists.mp ends
  exact ⟨finish, reached, (gate_of_run (by decide) reached).2.1⟩

/-- In every state of every run, the operations with an outstanding receive on a socket are those
that use the socket and wait for a receive, each with one: no receive outlives the task whose
buffer it fills, and no operation waits for a receive that nobody completes. -/
theorem outstanding_iff_receiving {now : Int} {labels : List Label} {finish : State}
    (reached : Machine.run step { now := now } labels = some finish) (id : ChannelId) :
    (finish.channels id).receives.Nodup ∧
      ∀ operation, operation ∈ (finish.channels id).receives ↔
        ∃ entry completions, finish.operations operation = some entry ∧
          entry.phase = .receiving completions ∧ entry.request.channel operation = id := by
  have coherent := coherent_of_run reached
  refine ⟨coherent.nodup id, fun operation => ⟨coherent.receives id operation, ?_⟩⟩
  rintro ⟨entry, completions, present, phase, rfl⟩
  have holds := coherent.phases operation entry present
  simp only [State.Holds, phase] at holds
  exact holds.2.2

theorem outstanding_iff_receiving_linkDump :
    ∃ finish, Machine.run step { now := 0 } [.issue 0 (.dump .link), .tick 5, .expire,
        .resume 0 {} [], .send 0, .postReceive 0] = some finish ∧
      ∃ entry completions, finish.operations 0 = some entry ∧
        entry.phase = .receiving completions ∧ entry.request.channel 0 = .own 0 := by
  have ends : (Machine.run step { now := 0 } [.issue 0 (.dump .link), .tick 5, .expire,
      .resume 0 {} [], .send 0, .postReceive 0]).map (fun finish =>
        (finish.channels (.own 0)).receives) = some [0] := by
    decide +kernel
  obtain ⟨finish, reached, receives⟩ := Option.map_eq_some_iff.mp ends
  refine ⟨finish, reached, ((outstanding_iff_receiving reached (.own 0)).2 0).mp ?_⟩
  rw [receives]
  exact List.mem_cons_self

end Rtaco.Control
