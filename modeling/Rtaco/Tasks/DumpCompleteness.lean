import Rtaco.Tasks.DumpResult

/-!
# The result of a dump

A list returned by a dump is the sequence of its entries, and nothing but the
messages of its own sequence up to the first terminator decides the result.
-/

namespace Rtaco

open Netlink

/-- The messages that decide a dump: those of its sequence, up to and including
the first terminator. -/
def relevant (sequence : Nat) : List Message → List Message
  | [] => []
  | message :: messages =>
      if nlmsgSeq message.bytes ≠ sequence then relevant sequence messages
      else if Terminates sequence message.bytes then [message]
      else message :: relevant sequence messages

theorem firstTerminator_relevant (sequence : Nat) (messages : List Message) :
    firstTerminator sequence (relevant sequence messages) = firstTerminator sequence messages := by
  unfold firstTerminator
  induction messages with
  | nil => rfl
  | cons message messages inductionHypothesis =>
      unfold relevant
      split_ifs with foreign ends
      · have notTerminator : ¬ Terminates sequence message.bytes := fun ends => foreign ends.1
        rw [inductionHypothesis, List.find?_cons_of_neg (by simpa using notTerminator)]
      · rw [List.find?_cons_of_pos (by simpa using ends),
          List.find?_cons_of_pos (by simpa using ends)]
      · rw [List.find?_cons_of_neg (by simpa using ends),
          List.find?_cons_of_neg (by simpa using ends), inductionHypothesis]

namespace EventKind

variable (kind : EventKind) (sequence : Nat)

theorem entries_relevant (messages : List Message) :
    kind.entries sequence (beforeTerminator sequence (relevant sequence messages)) =
      kind.entries sequence (beforeTerminator sequence messages) := by
  unfold entries beforeTerminator
  induction messages with
  | nil => rfl
  | cons message messages inductionHypothesis =>
      unfold relevant
      split_ifs with foreign ends
      · have notTerminator : ¬ Terminates sequence message.bytes := fun ends => foreign ends.1
        have notEntry : ¬ kind.Accepts sequence message.bytes := fun entry => foreign entry.1
        rw [inductionHypothesis]
        simp [notTerminator, notEntry]
      · simp [ends]
      · by_cases entry : kind.Accepts sequence message.bytes
        · simpa [ends, entry] using inductionHypothesis
        · simpa [ends, entry] using inductionHypothesis

theorem beforeTerminator_of_none {messages : List Message}
    (endless : firstTerminator sequence messages = none) :
    beforeTerminator sequence messages = messages := by
  unfold beforeTerminator
  rw [List.takeWhile_eq_self_iff]
  intro message member
  simpa using List.find?_eq_none.mp endless message member

theorem readLoop_dump_relevant {stream : List (List Message)} (replies : ReplyStream stream)
    (buffer : Bytes) :
    readLoop (kind.dumpProcessMessage sequence) [] buffer (deliver stream) =
      match firstTerminator sequence (relevant sequence stream.flatten) with
      | none =>
          .waiting (kind.entries sequence
            (beforeTerminator sequence (relevant sequence stream.flatten)))
      | some terminator =>
          .returned (DumpTask.finish terminator.bytes (kind.entries sequence
            (beforeTerminator sequence (relevant sequence stream.flatten)))) := by
  rw [readLoop_dump kind sequence replies, firstTerminator_relevant, entries_relevant]
  cases found : firstTerminator sequence stream.flatten with
  | none => rw [beforeTerminator_of_none sequence found]
  | some terminator => rfl

/-- A returned list is exactly the entries in front of the first terminator, and
two streams with the same relevant messages have the same outcome, whatever the
cuts, the receive buffer, the other sequences and what follows the terminator. -/
theorem dump_list_eq_entries {stream : List (List Message)} (replies : ReplyStream stream)
    (buffer : Bytes) :
    (∀ list, readLoop (kind.dumpProcessMessage sequence) [] buffer (deliver stream) =
        .returned (.value list) →
      list = kind.entries sequence (beforeTerminator sequence stream.flatten)) ∧
    ∀ (other : List (List Message)) (otherBuffer : Bytes), ReplyStream other →
      relevant sequence other.flatten = relevant sequence stream.flatten →
        readLoop (kind.dumpProcessMessage sequence) [] otherBuffer (deliver other) =
          readLoop (kind.dumpProcessMessage sequence) [] buffer (deliver stream) := by
  constructor
  · intro list returned
    rw [readLoop_dump kind sequence replies] at returned
    cases found : firstTerminator sequence stream.flatten with
    | none => simp [found] at returned
    | some terminator =>
        simp only [found, ReadOutcome.returned.injEq] at returned
        exact (DumpTask.finish_eq_value_iff.mp returned).2.symm
  · intro other otherBuffer otherReplies same
    rw [readLoop_dump_relevant kind sequence otherReplies,
      readLoop_dump_relevant kind sequence replies, same]

end EventKind

theorem dump_list_eq_entries_lo :
    [({ type := .newLink, index := 1, flags := 1, name := [108, 111] } : LinkEvent)] =
        EventKind.link.entries 7
          (beforeTerminator 7 [loLink 7 9, loLink 8 9, doneMessage 7 9 0 0]) ∧
      readLoop (EventKind.link.dumpProcessMessage 7) [] [1, 2, 3]
          (deliver [[loLink 7 9], [], [doneMessage 7 9 0 0, loLink 7 9]]) =
        readLoop (EventKind.link.dumpProcessMessage 7) [] []
          (deliver [[loLink 7 9, loLink 8 9], [doneMessage 7 9 0 0]]) := by
  have replies : ReplyStream [[loLink 7 9, loLink 8 9], [doneMessage 7 9 0 0]] := by decide
  obtain ⟨list, outcome⟩ := EventKind.dump_list_eq_entries .link 7 replies []
  refine ⟨list _ ?_, outcome _ _ ?_ ?_⟩
  · decide +kernel
  · decide +kernel
  · rfl

end Rtaco
