import Rtaco.Tasks.DumpStatus
import Rtaco.Tasks.NeighborTasks

/-!
# Notifications among the replies

A task accepts a message by its sequence number alone. On a socket that is also
joined to multicast groups, a notification with the number of the request is
taken for a reply.
-/

namespace Rtaco

open Netlink Scan

namespace NeighborGetTask

/-- The message carries the neighbor a get task waits for. -/
def Answers (sequence : Nat) (header : Bytes) : Prop :=
  nlmsgSeq header = sequence ∧ nlmsgType header = rtmNewneigh ∧
    nlmsgLength sizeofNdmsg ≤ nlmsgLen header ∧ (NeighborEvent.fromNlmsghdr header).lladdr ≠ []

instance (sequence : Nat) (header : Bytes) : Decidable (Answers sequence header) :=
  inferInstanceAs (Decidable (_ ∧ _ ∧ _ ∧ _))

/-- The first message a get task returns on. -/
def decider (sequence : Nat) (messages : List Message) : Option Message :=
  messages.find? fun message =>
    Answers sequence message.bytes ∨ Terminates sequence message.bytes

theorem answer_of_answers {sequence : Nat} {header : Bytes} (answers : Answers sequence header) :
    answer sequence header = some (.value (NeighborEvent.fromNlmsghdr header)) := by
  obtain ⟨own, new, enough, resolved⟩ := answers
  have known : (NeighborEvent.fromNlmsghdr header).type ≠ .unknown := by
    rw [NeighborEvent.fromNlmsghdr_type, if_pos enough, NeighborEvent.typeOf_known]
    exact .inl new
  simp [answer, own, new, handleNeighbor, known, resolved]

theorem answer_of_terminates {sequence : Nat} {header : Bytes}
    (ends : Terminates sequence header) :
    ∃ error, answer sequence header = some (.unexpected error) := by
  obtain ⟨own, done | error⟩ := ends
  · exact ⟨enoent, by simp [answer, own, done, handleDone]⟩
  · by_cases zero : (errorCode header).value = 0
    · exact ⟨enoent, by simp [answer, own, error, handleError, zero]⟩
    · exact ⟨errorCode header, by simp [answer, own, error, handleError, zero]⟩

theorem answer_eq_none {sequence : Nat} {header : Bytes} (quiet : ¬ Answers sequence header)
    (continues : ¬ Terminates sequence header) : answer sequence header = none := by
  unfold answer
  by_cases own : nlmsgSeq header = sequence
  · have type : nlmsgType header ≠ nlmsgDone ∧ nlmsgType header ≠ nlmsgError :=
      ⟨fun done => continues ⟨own, .inl done⟩, fun error => continues ⟨own, .inr error⟩⟩
    by_cases new : nlmsgType header = rtmNewneigh
    · have dropped : handleNeighbor header = none := by
        simp only [handleNeighbor, NeighborEvent.fromNlmsghdr_type]
        by_cases enough : nlmsgLength sizeofNdmsg ≤ nlmsgLen header
        · have unresolved : (NeighborEvent.fromNlmsghdr header).lladdr = [] := by
            by_contra resolved
            exact quiet ⟨own, new, enough, resolved⟩
          simp [unresolved]
        · simp [enough]
      simp [own, new, dropped]
    · simp [own, type, new]
  · simp [own]

theorem answer_isSome_iff (sequence : Nat) (header : Bytes) :
    (answer sequence header).isSome ↔ Answers sequence header ∨ Terminates sequence header := by
  by_cases answers : Answers sequence header
  · simp [answer_of_answers answers, answers]
  · by_cases ends : Terminates sequence header
    · obtain ⟨error, given⟩ := answer_of_terminates ends
      simp [given, ends]
    · simp [answer_eq_none answers ends, answers, ends]

theorem findSome?_answer (sequence : Nat) (messages : List Message) :
    (messages.findSome? fun message => answer sequence message.bytes) =
      (decider sequence messages).bind fun message => answer sequence message.bytes := by
  unfold decider
  induction messages with
  | nil => rfl
  | cons message messages inductionHypothesis =>
      rw [List.findSome?_cons]
      by_cases answers : Answers sequence message.bytes
      · rw [List.find?_cons_of_pos (by simp [answers]), answer_of_answers answers]
        exact (answer_of_answers answers).symm
      · by_cases ends : Terminates sequence message.bytes
        · obtain ⟨error, given⟩ := answer_of_terminates ends
          rw [List.find?_cons_of_pos (by simp [ends]), given]
          exact given.symm
        · rw [List.find?_cons_of_neg (by simp [answers, ends]), answer_eq_none answers ends]
          exact inductionHypothesis

theorem processMessage_readsOnly (sequence : Nat) {message : Message} (reply : Reply message) :
    ReadsOnly (processMessage sequence) message := by
  intro state behind
  have header : 16 ≤ message.bytes.length := message.header_le
  have event : NeighborEvent.fromNlmsghdr (message.bytes ++ behind) =
      NeighborEvent.fromNlmsghdr message.bytes :=
    EventKind.neighbor.fromNlmsghdr_append behind reply.short reply.wellFormed
  unfold processMessage answer handleNeighbor
  rw [nlmsgSeq_append behind header, nlmsgType_append behind header, event]
  by_cases error : nlmsgType message.bytes = nlmsgError
  · unfold handleError
    rw [reply.errorCode_append behind error]
  · simp only [error, if_false]

theorem readLoop_get (sequence : Nat) {stream : List (List Message)}
    (replies : ReplyStream stream) (buffer : Bytes) :
    (readLoop (processMessage sequence) () buffer (deliver stream)).result? =
      (decider sequence stream.flatten).bind fun message => answer sequence message.bytes := by
  rw [readLoop_deliver (replies.readable fun _ => processMessage_readsOnly sequence)]
  have scanned := scan_eq_findSome?
    (fun message : Message => answer sequence message.bytes) () stream.flatten
  rw [← findSome?_answer]
  unfold processMessage
  rw [scanned]
  cases stream.flatten.findSome? fun message => answer sequence message.bytes <;> rfl

end NeighborGetTask

/-- A message of another port, of a type `RTM_NEW*` or `RTM_DEL*`. -/
def Notification (port : Nat) (message : Message) : Prop :=
  nlmsgPid message.bytes ≠ port ∧ rtmNewlink ≤ nlmsgType message.bytes ∧
    nlmsgType message.bytes % 4 ≤ 1

instance (port : Nat) (message : Message) : Decidable (Notification port message) :=
  inferInstanceAs (Decidable (_ ∧ _ ∧ _))

def ownMessage (port : Nat) (message : Message) : Bool := nlmsgPid message.bytes = port

/-- The second stream is the first one with notifications inserted, however both
are cut into datagrams. -/
structure Interleaved (port : Nat) (replies merged : List (List Message)) : Prop where
  repliesStream : ReplyStream replies
  mergedStream : ReplyStream merged
  own : merged.flatten.filter (ownMessage port) = replies.flatten
  foreign : ∀ message ∈ merged.flatten, ownMessage port message = false →
    Notification port message

theorem Notification.not_terminates {port : Nat} {message : Message}
    (notification : Notification port message) (sequence : Nat) :
    ¬ Terminates sequence message.bytes := by
  rintro ⟨-, done | error⟩
  · exact absurd notification.2.1 (by rw [done]; decide)
  · exact absurd notification.2.1 (by rw [error]; decide)

/-- A terminator that reports success passes the list on, and hides it otherwise. -/
theorem DumpTask.finish_eq_iff {Event : Type} {sequence : Nat} {header : Bytes}
    (ends : Terminates sequence header) (first second : List Event) :
    DumpTask.finish header first = DumpTask.finish header second ↔
      ((nlmsgType header = nlmsgError → (errorCode header).value = 0) → first = second) := by
  unfold DumpTask.finish DumpTask.handleDone DumpTask.handleError
  rcases ends.2 with done | error
  · simp [done]
  · by_cases zero : (errorCode header).value = 0
    · simp [error, zero]
    · simp [error, zero]

section Interleaved

variable {port : Nat} {replies merged : List (List Message)}

theorem Interleaved.firstTerminator_eq (interleaved : Interleaved port replies merged)
    (sequence : Nat) :
    firstTerminator sequence replies.flatten = firstTerminator sequence merged.flatten := by
  unfold firstTerminator
  rw [← interleaved.own, List.find?_filter]
  apply List.find?_congr
  intro message member
  cases own : ownMessage port message with
  | true => simp
  | false =>
      have continues := (interleaved.foreign message member own).not_terminates sequence
      simp [continues]

theorem Interleaved.beforeTerminator_eq (interleaved : Interleaved port replies merged)
    (sequence : Nat) :
    beforeTerminator sequence replies.flatten =
      (beforeTerminator sequence merged.flatten).filter (ownMessage port) := by
  rw [← EventKind.beforeStop_classify .link, ← EventKind.beforeStop_classify .link,
    ← interleaved.own]
  apply beforeStop_filter
  intro message member own
  rw [EventKind.classify_stop?,
    if_neg ((interleaved.foreign message member own).not_terminates sequence)]

namespace EventKind

/-- The dump returns the same on both streams. -/
def Undisturbed (kind : EventKind) (sequence : Nat) (replies merged : List (List Message)) :
    Prop :=
  ∀ buffer mergedBuffer : Bytes,
    (readLoop (kind.dumpProcessMessage sequence) [] buffer (deliver replies)).result? =
      (readLoop (kind.dumpProcessMessage sequence) [] mergedBuffer (deliver merged)).result?

theorem entries_filter_eq_iff (kind : EventKind) (sequence : Nat) (messages : List Message)
    (own : Message → Bool) :
    kind.entries sequence (messages.filter own) = kind.entries sequence messages ↔
      ∀ message ∈ messages, own message = false → ¬ kind.Accepts sequence message.bytes := by
  rw [← kept_classify, ← kept_classify, kept_filter_eq_iff]
  simp only [classify_kept?, ite_eq_right_iff, reduceCtorEq, imp_false]

/-- The dump fails anyway, or no notification in front of the terminator is taken
for an entry. -/
def NoForeignEntry (kind : EventKind) (port sequence : Nat) (merged : List (List Message)) :
    Prop :=
  ∀ terminator, firstTerminator sequence merged.flatten = some terminator →
    (nlmsgType terminator.bytes = nlmsgError → (errorCode terminator.bytes).value = 0) →
    ∀ message ∈ beforeTerminator sequence merged.flatten,
      nlmsgPid message.bytes ≠ port → ¬ kind.Accepts sequence message.bytes

theorem undisturbed_iff (kind : EventKind) (sequence : Nat)
    (interleaved : Interleaved port replies merged) :
    kind.Undisturbed sequence replies merged ↔ kind.NoForeignEntry port sequence merged := by
  unfold Undisturbed NoForeignEntry
  simp only [readLoop_dump kind sequence interleaved.mergedStream,
    readLoop_dump kind sequence interleaved.repliesStream, interleaved.firstTerminator_eq,
    interleaved.beforeTerminator_eq, forall_const]
  cases found : firstTerminator sequence merged.flatten with
  | none => simp [ReadOutcome.result?]
  | some terminator =>
      have ends : Terminates sequence terminator.bytes := by simpa using List.find?_some found
      simp only [ReadOutcome.result?, Option.some.injEq, forall_eq', DumpTask.finish_eq_iff ends]
      simp only [entries_filter_eq_iff, ownMessage, decide_eq_false_iff_not, ne_eq]

end EventKind

namespace NeighborGetTask

/-- The get task returns the same on both streams. -/
def Undisturbed (sequence : Nat) (replies merged : List (List Message)) : Prop :=
  ∀ buffer mergedBuffer : Bytes,
    (readLoop (processMessage sequence) () buffer (deliver replies)).result? =
      (readLoop (processMessage sequence) () mergedBuffer (deliver merged)).result?

theorem decides_of_decider {sequence : Nat} {messages : List Message} {message : Message}
    (found : decider sequence messages = some message) :
    Answers sequence message.bytes ∨ Terminates sequence message.bytes := by
  simpa using List.find?_some found

theorem answers_of_foreign {sequence : Nat} (interleaved : Interleaved port replies merged)
    {message : Message} (found : decider sequence merged.flatten = some message)
    (foreign : nlmsgPid message.bytes ≠ port) : Answers sequence message.bytes := by
  have notification := interleaved.foreign message (List.mem_of_find?_eq_some found)
    (by simpa [ownMessage] using foreign)
  exact (decides_of_decider found).resolve_right (notification.not_terminates sequence)

theorem decider_of_none {sequence : Nat} (interleaved : Interleaved port replies merged)
    (found : decider sequence merged.flatten = none) :
    decider sequence replies.flatten = none := by
  unfold decider at found ⊢
  rw [List.find?_eq_none] at found ⊢
  intro message member
  rw [← interleaved.own] at member
  exact found message (List.mem_of_mem_filter member)

theorem decider_of_own {sequence : Nat} (interleaved : Interleaved port replies merged)
    {message : Message} (found : decider sequence merged.flatten = some message)
    (own : nlmsgPid message.bytes = port) :
    decider sequence replies.flatten = some message := by
  unfold decider at found ⊢
  rw [List.find?_eq_some_iff_append] at found
  obtain ⟨decides, before, after, split, quiet⟩ := found
  rw [← interleaved.own, split, List.filter_append, List.find?_append,
    List.filter_cons_of_pos (by simpa [ownMessage] using own)]
  have skipped : (before.filter (ownMessage port)).find? (fun message =>
      decide (Answers sequence message.bytes ∨ Terminates sequence message.bytes)) = none := by
    rw [List.find?_eq_none]
    intro other member
    simpa using quiet other (List.mem_of_mem_filter member)
  rw [skipped, Option.none_or]
  exact List.find?_cons_of_pos decides

/-- The first message the task returns on is a reply, or a notification of the
same neighbor as the reply the task would have returned on. -/
def NoForeignAnswer (port sequence : Nat) (replies merged : List (List Message)) : Prop :=
  ∀ message, decider sequence merged.flatten = some message → nlmsgPid message.bytes ≠ port →
    ∃ reply, decider sequence replies.flatten = some reply ∧ Answers sequence reply.bytes ∧
      NeighborEvent.fromNlmsghdr reply.bytes = NeighborEvent.fromNlmsghdr message.bytes

theorem undisturbed_iff (sequence : Nat) (interleaved : Interleaved port replies merged) :
    Undisturbed sequence replies merged ↔ NoForeignAnswer port sequence replies merged := by
  unfold Undisturbed NoForeignAnswer
  simp only [readLoop_get sequence interleaved.mergedStream,
    readLoop_get sequence interleaved.repliesStream, forall_const]
  constructor
  · intro same message found foreign
    have answers := answers_of_foreign interleaved found foreign
    rw [found] at same
    simp only [Option.bind_some, answer_of_answers answers] at same
    cases foundReply : decider sequence replies.flatten with
    | none => simp [foundReply] at same
    | some reply =>
        rw [foundReply, Option.bind_some] at same
        rcases decides_of_decider foundReply with replyAnswers | ends
        · refine ⟨reply, rfl, replyAnswers, ?_⟩
          simpa [answer_of_answers replyAnswers] using same
        · obtain ⟨error, given⟩ := answer_of_terminates ends
          simp [given] at same
  · intro agrees
    cases found : decider sequence merged.flatten with
    | none => rw [decider_of_none interleaved found]
    | some message =>
        by_cases own : nlmsgPid message.bytes = port
        · rw [decider_of_own interleaved found own]
        · obtain ⟨reply, foundReply, replyAnswers, event⟩ := agrees message found own
          have answers := answers_of_foreign interleaved found own
          rw [foundReply, Option.bind_some, Option.bind_some, answer_of_answers answers,
            answer_of_answers replyAnswers, event]

end NeighborGetTask

/-- Notifications leave a task undisturbed exactly when none of them is taken for
a reply; the acceptance test alone does not exclude that. -/
theorem undisturbed_iff_none_taken (sequence : Nat)
    (interleaved : Interleaved port replies merged) :
    (∀ kind : EventKind,
      kind.Undisturbed sequence replies merged ↔ kind.NoForeignEntry port sequence merged) ∧
    (NeighborGetTask.Undisturbed sequence replies merged ↔
      NeighborGetTask.NoForeignAnswer port sequence replies merged) :=
  ⟨fun kind => kind.undisturbed_iff sequence interleaved,
    NeighborGetTask.undisturbed_iff sequence interleaved⟩

end Interleaved

theorem undisturbed_by_other_sequence :
    EventKind.link.Undisturbed 7 [[loLink 7 9, doneMessage 7 9 0 0]]
      [[loLink 8 0], [loLink 7 9, doneMessage 7 9 0 0]] := by
  have interleaved : Interleaved 9 [[loLink 7 9, doneMessage 7 9 0 0]]
      [[loLink 8 0], [loLink 7 9, doneMessage 7 9 0 0]] :=
    ⟨by decide, by decide, rfl, by decide⟩
  refine ((undisturbed_iff_none_taken 7 interleaved).1 .link).mpr ?_
  intro terminator found clean message member foreign accepted
  have before : beforeTerminator 7 [loLink 8 0, loLink 7 9, doneMessage 7 9 0 0] =
      [loLink 8 0, loLink 7 9] := rfl
  rcases List.mem_pair.mp (before ▸ member) with rfl | rfl
  · exact absurd accepted (by decide)
  · exact foreign (by decide)

/-- A link change of another process with the dump's sequence number. -/
theorem disturbed_by_same_sequence :
    Interleaved 9 [[loLink 7 9, doneMessage 7 9 0 0]]
        [[loLink 7 0], [loLink 7 9, doneMessage 7 9 0 0]] ∧
      ¬ EventKind.link.Undisturbed 7 [[loLink 7 9, doneMessage 7 9 0 0]]
        [[loLink 7 0], [loLink 7 9, doneMessage 7 9 0 0]] := by
  refine ⟨⟨by decide, by decide, rfl, by decide⟩, ?_⟩
  intro undisturbed
  have twice : (readLoop (EventKind.link.dumpProcessMessage 7) [] []
      (deliver [[loLink 7 0], [loLink 7 9, doneMessage 7 9 0 0]])).result? ≠
        (readLoop (EventKind.link.dumpProcessMessage 7) [] []
          (deliver [[loLink 7 9, doneMessage 7 9 0 0]])).result? := by
    decide +kernel
  exact twice (undisturbed [] []).symm

end Rtaco
