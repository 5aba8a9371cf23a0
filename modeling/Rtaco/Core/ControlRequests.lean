import Rtaco.Core.ControlSequences
import Rtaco.Tasks.DumpRequests

/-!
# The requests of a `Control`

What the operations of a run send: one message each, no two of them under one number.
-/

namespace Rtaco.Control

open Netlink

/-- In every run with fewer than `2 ^ 32` requests, whatever an operation sends is one message of
its request with the number it drew and no port id, and no two operations send the same number. -/
theorem requests_of_run (now : Int) {labels : List Label} {state : State}
    (reached : Machine.run step { now := now } labels = some state)
    (few : state.requested.ncard < 2 ^ 32) {operation : Nat} {entry : Operation}
    (present : state.operations operation = some entry) {sequence : Nat}
    (drawn : entry.sequence = some sequence) {payload : Bytes}
    (asks : entry.request.Asks sequence payload) :
    IsRequest payload entry.request.messageType entry.request.messageFlags sequence ∧
      ∀ other another number bytes, state.operations other = some another →
        another.sequence = some number → another.request.Asks number bytes →
          nlmsgSeq bytes = nlmsgSeq payload → other = operation := by
  obtain ⟨order, numbered⟩ := numbered_of_run reached
  have small : ∀ {issued : Nat} {entry : Operation} {sequence : Nat},
      state.operations issued = some entry → entry.sequence = some sequence →
        sequence < 2 ^ 32 := by
    intro issued entry sequence present drawn
    exact sequence_lt numbered ((sequenceOf_of_present present).trans drawn)
  have sent := Request.isRequest_of_asks (small present drawn) asks
  refine ⟨sent, fun other another number bytes found number' asked same => ?_⟩
  have reads : ∀ {payload : Bytes} {type flags sequence : Nat},
      IsRequest payload type flags sequence → nlmsgSeq payload = sequence :=
    fun request => congrArg Nlmsghdr.seq request.header
  rw [reads sent, reads (Request.isRequest_of_asks (small found number') asked)] at same
  subst same
  exact sequence_injective numbered few ((sequenceOf_of_present found).trans number')
    ((sequenceOf_of_present present).trans drawn)

theorem requests_of_run_linkDump :
    IsRequest (EventKind.link.dumpPayload 1 0) rtmGetlink 0x301 1 := by
  have ends : (Machine.run step { now := 0 }
      [.issue 0 (.dump .link), .tick 5, .expire, .resume 0 {} []]).bind (fun state =>
        (state.operations 0).map fun entry => (entry.request, entry.sequence)) =
          some (.dump .link, some 1) := by
    decide +kernel
  obtain ⟨state, reached, observed⟩ := Option.bind_eq_some_iff.mp ends
  obtain ⟨entry, present, same⟩ := Option.map_eq_some_iff.mp observed
  obtain ⟨dump, drawn⟩ := Prod.mk.inj same
  have few : state.requested.ncard < 2 ^ 32 := by
    have inside : state.requested ⊆ ({0} : Set Nat) := by
      intro operation number
      obtain ⟨sequence, taken⟩ := Option.isSome_iff_exists.mp number
      obtain ⟨other, found, -⟩ := Option.bind_eq_some_iff.mp taken
      obtain ⟨request, issued⟩ := issued_of_run reached rfl found
      simp only [List.mem_cons, Label.issue.injEq, reduceCtorEq, List.not_mem_nil, or_false]
        at issued
      exact issued.1
    refine lt_of_le_of_lt (Set.ncard_le_ncard inside) ?_
    rw [Set.ncard_singleton]
    decide
  have asks : entry.request.Asks 1 (EventKind.link.dumpPayload 1 0) := by
    rw [dump]
    rfl
  have sent := (requests_of_run 0 reached few present drawn asks).1
  rw [dump] at sent
  exact sent

end Rtaco.Control
