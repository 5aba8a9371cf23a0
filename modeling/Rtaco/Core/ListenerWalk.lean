import Rtaco.Core.ListenerReceives

/-!
# A handler run to its end

With slots that only return, the machine emits what `process_messages` does for
the received bytes, and then asks for the next datagram.
-/

namespace Rtaco.Listener

open Netlink

/-- The labels of a walk whose slots neither throw nor call the listener. -/
def Label.Walks : Label → Prop
  | .advance => True
  | .enterSlot => True
  | .leaveSlot => True
  | _ => False

variable {state : State}

theorem run_emit (cursor : Cursor) (state : State) (left : Nat) :
    ∃ labels : List Label, (∀ label ∈ labels, label.Walks) ∧
      Machine.run step (emit cursor state left) labels =
        some { state with activity := .walking (cursor.next state.buffer) } := by
  induction left with
  | zero => exact ⟨[], nofun, rfl⟩
  | succ left inductionHypothesis =>
      obtain ⟨labels, walks, reached⟩ := inductionHypothesis
      refine ⟨.enterSlot :: .leaveSlot :: labels, ?_, ?_⟩
      · intro label member
        rcases List.mem_cons.mp member with rfl | member
        · trivial
        · rcases List.mem_cons.mp member with rfl | member
          · trivial
          · exact walks label member
      · cases left <;> exact reached

theorem run_processNext {cursor : Cursor} (continues : cursor.Continues state.buffer) :
    ∃ labels : List Label, (∀ label ∈ labels, label.Walks) ∧
      Machine.run step (processNext cursor state) labels =
        some { state with
          activity := .walking (cursor.next state.buffer)
          emitted := (handle state.emitted (state.buffer.drop cursor.header)).1 } := by
  unfold processNext handle
  rw [if_pos continues]
  cases handleMessage (state.buffer.drop cursor.header) with
  | none =>
      simp only [Option.toList_none, List.append_nil]
      exact run_emit cursor state 0
  | some emission =>
      exact run_emit cursor { state with emitted := state.emitted ++ [emission] } _

/-- The walk of the machine is the loop of `process_messages`. -/
theorem run_messageLoop {fuel : Nat} {cursor last : Cursor} {before emitted final : List Emission}
    (walking : state.activity = .walking cursor) (sofar : state.emitted = before ++ emitted)
    (finished : messageLoop handle state.buffer fuel emitted cursor = .finished final last) :
    ∃ labels : List Label, (∀ label ∈ labels, label.Walks) ∧
      Machine.run step state labels =
        some (requestRead { state with activity := .idle, emitted := before ++ final }) := by
  induction fuel generalizing state cursor emitted with
  | zero => cases finished
  | succ fuel inductionHypothesis =>
      have advanced : step state .advance = some (processNext cursor state) := by
        simp only [step, walking]
      rw [messageLoop] at finished
      split_ifs at finished with continues
      · obtain ⟨first, firstWalks, moved⟩ := run_processNext continues
        have grown : (handle state.emitted (state.buffer.drop cursor.header)).1 =
            before ++ (handle emitted (state.buffer.drop cursor.header)).1 := by
          simp only [handle, sofar, List.append_assoc]
        rw [grown] at moved
        let following : State :=
          { state with
            activity := .walking (cursor.next state.buffer)
            emitted := before ++ (handle emitted (state.buffer.drop cursor.header)).1 }
        have follows : following.activity = .walking (cursor.next state.buffer) := rfl
        obtain ⟨rest, restWalks, ends⟩ := inductionHypothesis follows rfl finished
        refine ⟨.advance :: (first ++ rest), ?_, ?_⟩
        · intro label member
          rcases List.mem_cons.mp member with rfl | member
          · trivial
          · exact (List.mem_append.mp member).elim (firstWalks label) (restWalks label)
        · refine Machine.run_cons_eq_some.mpr ⟨_, advanced, ?_⟩
          rw [Machine.run_append, moved]
          exact ends
      · cases finished
        refine ⟨[.advance], ?_, ?_⟩
        · intro label member
          rw [List.mem_singleton.mp member]
          trivial
        · refine Machine.run_cons_eq_some.mpr ⟨_, advanced, ?_⟩
          rw [processNext, if_neg continues, ← sofar]
          rfl

theorem run_processMessages {bytes : Nat} {queue : List Completion} {emitted : List Emission}
    (running : state.running = true) (idle : state.activity = .idle)
    (queued : state.queue = .received bytes :: queue)
    (processed : processMessages state.buffer bytes = some emitted) :
    ∃ labels : List Label, (∀ label ∈ labels, label.Walks) ∧
      Machine.run step state (.runHandler :: labels) =
        some (requestRead
          { state with queue := queue, emitted := state.emitted ++ emitted }) := by
  unfold processMessages walkMessages at processed
  split at processed
  next final last finished =>
    cases processed
    let handling : State := { state with queue := queue, activity := .walking (.start bytes) }
    have handled : step state .runHandler = some handling := by
      simp only [step, idle, queued, handleRead, running, not_true, if_false, handling]
    have walking : handling.activity = .walking (.start bytes) := rfl
    have sofar : handling.emitted = state.emitted ++ [] := (List.append_nil _).symm
    obtain ⟨labels, walks, reached⟩ := run_messageLoop walking sofar finished
    refine ⟨labels, walks, Machine.run_cons_eq_some.mpr ⟨_, handled, ?_⟩⟩
    rw [reached]
    simp only [handling, idle]
  next => cases processed

end Rtaco.Listener
