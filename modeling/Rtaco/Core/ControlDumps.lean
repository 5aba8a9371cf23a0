import Rtaco.Core.ControlAnswers
import Rtaco.Core.ControlIndependence

/-!
# The lists that dumps return

The receives of a dump complete with what arrives on the socket of its own, so the messages on
that socket decide its list in every run.
-/

namespace Rtaco.Control

open Netlink

variable {state next : State} {operation : Nat}

/-- What completes the receives on a socket, in order. -/
def arrived (id : ChannelId) (labels : List Label) : List (Except ErrorCode Bytes) :=
  labels.filterMap fun
    | .reply other messages _ =>
        if other = id then some (.ok (Records.Format.encode messages)) else none
    | .notify other datagram => if other = id then some (.ok datagram) else none
    | .fail other error => if other = id then some (.error error) else none
    | _ => none

theorem arrived_cons (id : ChannelId) (label : Label) (labels : List Label) :
    arrived id (label :: labels) = arrived id [label] ++ arrived id labels :=
  @List.filterMap_append _ _ [label] labels _

theorem arrived_of_foreign {label : Label} (foreign : label.owned operation = false) :
    arrived (.own operation) [label] = [] := by
  cases label with
  | reply id messages last =>
      have other : id ≠ .own operation := by simpa [Label.owned] using foreign
      simp [arrived, other]
  | notify id datagram =>
      have other : id ≠ .own operation := by simpa [Label.owned] using foreign
      simp [arrived, other]
  | fail id error =>
      have other : id ≠ .own operation := by simpa [Label.owned] using foreign
      simp [arrived, other]
  | _ => rfl

theorem completedWith_of_not_completes {label : Label}
    (not : ∀ completion, ¬ label.Completes state operation completion) :
    completedWith state operation label = [] := by
  cases label with
  | reply id messages last => exact if_neg fun head => not _ ⟨head, rfl⟩
  | notify id datagram => exact if_neg fun head => not _ ⟨head, rfl⟩
  | fail id error => exact if_neg fun head => not _ ⟨head, rfl⟩
  | stop => exact if_neg fun both => not _ ⟨both.1, both.2, rfl⟩
  | _ => rfl

/-- A dump is completed by everything on its own socket, and by nothing else. -/
theorem completedWith_eq_arrived {label : Label} (coherent : state.Coherent)
    (dumps : state.Dumps operation) (taken : step state label = some next) :
    completedWith state operation label = arrived (.own operation) [label] := by
  cases foreign : label.owned operation with
  | false =>
      rw [arrived_of_foreign foreign]
      apply completedWith_of_not_completes
      exact fun completion => not_completes_of_foreign foreign coherent dumps
  | true =>
      have head : ∀ {reader : Nat} {receives : List Nat},
          (state.channels (.own operation)).receives = reader :: receives →
            (state.channels (.own operation)).receives.head? = some operation := by
        intro reader receives received
        rw [received, reader_eq coherent received, List.head?_cons]
      cases step_effect taken with
      | reply received =>
          obtain rfl := of_decide_eq_true foreign
          simp [completedWith, arrived, head received]
      | notify received =>
          obtain rfl := of_decide_eq_true foreign
          simp [completedWith, arrived, head received]
      | fail received =>
          obtain rfl := of_decide_eq_true foreign
          simp [completedWith, arrived, head received]
      | stop => cases foreign
      | stopClosed => cases foreign
      | _ => rfl

theorem completions_eq_arrived {labels : List Label} {finish : State} (coherent : state.Coherent)
    (reached : Machine.run step state labels = some finish) (dumps : finish.Dumps operation) :
    state.Dumps operation ∧
      completions operation state labels = arrived (.own operation) labels := by
  induction labels generalizing state with
  | nil =>
      cases reached
      exact ⟨dumps, rfl⟩
  | cons label labels inductionHypothesis =>
      obtain ⟨next, taken, rest⟩ := Machine.run_cons_eq_some.mp reached
      obtain ⟨later, same⟩ := inductionHypothesis (coherent_step coherent taken) rest
      have before := dumps_of_step taken later
      refine ⟨before, ?_⟩
      simp only [completions, taken]
      rw [same, completedWith_eq_arrived coherent before taken, ← arrived_cons]

theorem dump_follows_arrived {now : Int} {labels : List Label} {finish : State}
    (reached : Machine.run step { now := now } labels = some finish) {entry : Operation}
    (present : finish.operations operation = some entry) {kind : EventKind}
    (dump : entry.request = .dump kind) :
    entry.Follows (arrived (.own operation) labels) := by
  have dumps : finish.Dumps operation := by
    intro other found
    rw [present] at found
    cases found
    exact ⟨kind, dump⟩
  rw [← (completions_eq_arrived (coherent_initial now 1) reached dumps).2]
  exact follows_of_run now reached present

theorem readLoop_of_dump {request : Request} {kind : EventKind} (dump : request = .dump kind)
    (sequence : Nat) (buffer : Bytes) (completions : List (Except ErrorCode Bytes)) :
    request.readLoop sequence buffer completions =
      (readLoop (kind.dumpProcessMessage sequence) [] buffer completions).wrap (.events kind) := by
  rw [dump]
  rfl

/-- In every run, whatever other operations there are, a dump on whose socket a reply stream
arrives ends when its terminator has arrived and not before, with the entries in front of it: each
entry once and in order. -/
theorem dump_ends_with_entries (now : Int) {labels : List Label} {finish : State}
    (reached : Machine.run step { now := now } labels = some finish) {entry : Operation}
    (present : finish.operations operation = some entry) {kind : EventKind}
    (dump : entry.request = .dump kind) {sequence : Nat} (drawn : entry.sequence = some sequence)
    {stream : List (List Message)} (replies : ReplyStream stream)
    (arrives : arrived (.own operation) labels = deliver stream) :
    match firstTerminator sequence stream.flatten with
    | none => ∀ answer, ¬ entry.Ended (.value answer)
    | some terminator =>
        entry.Ended ((DumpTask.finish terminator.bytes
          (kind.entries sequence (beforeTerminator sequence stream.flatten))).map
            (.events kind)) := by
  have follows := dump_follows_arrived reached present dump
  rw [arrives] at follows
  have outcome := readLoop_of_dump dump sequence entry.buffer (deliver stream)
  rw [kind.readLoop_dump sequence replies] at outcome
  cases found : firstTerminator sequence stream.flatten with
  | none =>
      rw [found] at outcome
      intro answer ended
      obtain ⟨same, number, returned⟩ := follows.returns ended
      rw [drawn] at number
      cases number
      rw [outcome] at returned
      cases returned
  | some terminator =>
      rw [found] at outcome
      exact follows.ended ⟨sequence, drawn, outcome⟩

theorem dump_ends_with_entries_dumpWithProbe :
    ∃ finish entry, Machine.run step { now := 0 } dumpWithProbe = some finish ∧
      finish.operations 0 = some entry ∧ entry.Ended (.value (.events .link
        [{ type := .newLink, index := 1, flags := 1, name := [108, 111] }])) := by
  obtain ⟨finish, entry, reached, present, dump, drawn, -⟩ := run_dumpWithProbe
  have replies : ReplyStream [[loLink 1 9, doneMessage 1 9 0 0]] := by decide
  have ended := dump_ends_with_entries 0 reached present dump drawn replies rfl
  have terminator : firstTerminator 1 [[loLink 1 9, doneMessage 1 9 0 0]].flatten =
      some (doneMessage 1 9 0 0) := rfl
  refine ⟨finish, entry, reached, present, ?_⟩
  rw [terminator] at ended
  convert ended using 1
  decide +kernel

end Rtaco.Control
