import Rtaco.Events.CompleteMessages
import Rtaco.Tasks.DumpTasks

/-!
# What a dump returns

A dump task reads every reply stream as a collecting scan: it keeps the events
its filter lets pass and finishes at the first terminator of its sequence.
-/

namespace Rtaco

open Netlink Scan

/-- The message ends the dump of a sequence. -/
def Terminates (sequence : Nat) (header : Bytes) : Prop :=
  nlmsgSeq header = sequence ∧ (nlmsgType header = nlmsgDone ∨ nlmsgType header = nlmsgError)

instance (sequence : Nat) (header : Bytes) : Decidable (Terminates sequence header) :=
  inferInstanceAs (Decidable (_ ∧ _))

def firstTerminator (sequence : Nat) (messages : List Message) : Option Message :=
  messages.find? fun message => Terminates sequence message.bytes

def beforeTerminator (sequence : Nat) (messages : List Message) : List Message :=
  messages.takeWhile fun message => ¬ Terminates sequence message.bytes

/-- An interface index the dump filters let pass. -/
def ValidIndex (index : Int) : Prop := 1 ≤ index ∧ index ≤ uint16Max

instance (index : Int) : Decidable (ValidIndex index) := inferInstanceAs (Decidable (_ ∧ _))

namespace EventKind

def Passes : (kind : EventKind) → kind.Event → Prop
  | link, event => ValidIndex event.index
  | address, event => ValidIndex event.index
  | route, event => event.table = rtTableMain ∧ ValidIndex event.oifIndex
  | neighbor, event => ValidIndex event.index

instance : (kind : EventKind) → (event : kind.Event) → Decidable (kind.Passes event)
  | link, event => inferInstanceAs (Decidable (ValidIndex event.index))
  | address, event => inferInstanceAs (Decidable (ValidIndex event.index))
  | route, event => inferInstanceAs (Decidable (event.table = _ ∧ ValidIndex event.oifIndex))
  | neighbor, event => inferInstanceAs (Decidable (ValidIndex event.index))

/-- The message is an entry of the dump. -/
def Accepts (kind : EventKind) (sequence : Nat) (header : Bytes) : Prop :=
  nlmsgSeq header = sequence ∧ nlmsgType header = kind.newType ∧
    nlmsgLength kind.infoSize ≤ nlmsgLen header ∧ kind.Passes (kind.fromNlmsghdr header)

instance (kind : EventKind) (sequence : Nat) (header : Bytes) :
    Decidable (kind.Accepts sequence header) :=
  inferInstanceAs (Decidable (_ ∧ _ ∧ _ ∧ _))

/-- The events of the entries, in order. -/
def entries (kind : EventKind) (sequence : Nat) (messages : List Message) : List kind.Event :=
  (messages.filter fun message => kind.Accepts sequence message.bytes).map
    fun message => kind.fromNlmsghdr message.bytes

end EventKind

/-- The result of a dump that a terminator ends. -/
def DumpTask.finish {Event : Type} (header : Bytes) (learned : List Event) :
    Expected (List Event) :=
  if nlmsgType header = nlmsgDone then DumpTask.handleDone learned
  else DumpTask.handleError learned header

/-- The header of a terminator reports success. -/
def Succeeds (header : Bytes) : Prop :=
  nlmsgType header = nlmsgDone ∨ (errorCode header).value = 0

instance (header : Bytes) : Decidable (Succeeds header) := inferInstanceAs (Decidable (_ ∨ _))

theorem DumpTask.finish_eq_value_iff {Event : Type} {header : Bytes}
    {learned list : List Event} :
    DumpTask.finish header learned = .value list ↔ Succeeds header ∧ learned = list := by
  unfold DumpTask.finish DumpTask.handleDone DumpTask.handleError Succeeds
  by_cases done : nlmsgType header = nlmsgDone
  · simp [done]
  · by_cases clean : (errorCode header).value = 0
    · simp [done, clean]
    · simp [done, clean]

namespace EventKind

/-- A dump appends the event of a message exactly when it is new and passes. -/
theorem dispatch_eq (kind : EventKind) (learned : List kind.Event) (header : Bytes) :
    kind.dispatch learned header =
      if kind.isNew (kind.fromNlmsghdr header) ∧ kind.Passes (kind.fromNlmsghdr header) then
        learned ++ [kind.fromNlmsghdr header]
      else learned := by
  cases kind with
  | link =>
      simp only [dispatch, LinkDumpTask.dispatchLink, isNew, Passes, ValidIndex, fromNlmsghdr]
      grind
  | address =>
      simp only [dispatch, AddressDumpTask.dispatchAddress, isNew, Passes, ValidIndex,
        fromNlmsghdr]
      grind
  | route =>
      simp only [dispatch, RouteDumpTask.dispatchRoute, isNew, Passes, ValidIndex, fromNlmsghdr]
      grind
  | neighbor =>
      simp only [dispatch, NeighborDumpTask.dispatchNeighbor, isNew, Passes, ValidIndex,
        fromNlmsghdr]
      grind

/-- What a dump does to a message, decided from the message alone. -/
def classify (kind : EventKind) (sequence : Nat) (message : Message) :
    Verdict kind.Event (Expected (List kind.Event)) :=
  if Terminates sequence message.bytes then .stop (DumpTask.finish message.bytes)
  else if kind.Accepts sequence message.bytes then .keep (kind.fromNlmsghdr message.bytes)
  else .skip

/-- What a dump does at a pointer. -/
def verdict (kind : EventKind) (sequence : Nat) (header : Bytes) :
    Verdict kind.Event (Expected (List kind.Event)) :=
  if Terminates sequence header then .stop (DumpTask.finish header)
  else if kind.Accepts sequence header then .keep (kind.fromNlmsghdr header)
  else .skip

theorem newType_not_terminator (kind : EventKind) :
    kind.newType ≠ nlmsgDone ∧ kind.newType ≠ nlmsgError := by
  cases kind <;> decide

theorem dumpProcessMessage_eq_verdict (kind : EventKind) (sequence : Nat)
    (learned : List kind.Event) (header : Bytes) :
    kind.dumpProcessMessage sequence learned header =
      (kind.verdict sequence header).apply learned := by
  obtain ⟨notDone, notError⟩ := kind.newType_not_terminator
  simp only [dumpProcessMessage_eq]
  unfold DumpTask.processMessage verdict Terminates Accepts
  by_cases foreign : nlmsgSeq header ≠ sequence
  · simp [foreign, Verdict.apply]
  · rw [not_not] at foreign
    by_cases done : nlmsgType header = nlmsgDone
    · simp [foreign, done, Verdict.apply, DumpTask.finish]
    · by_cases error : nlmsgType header = nlmsgError
      · simp [foreign, error, Verdict.apply, DumpTask.finish]
      · by_cases new : nlmsgType header = kind.newType
        · simp only [dispatch_eq, isNew_fromNlmsghdr, foreign, new, notDone, notError]
          by_cases enough : nlmsgLength kind.infoSize ≤ nlmsgLen header ∧
              kind.Passes (kind.fromNlmsghdr header)
          · simp [enough, Verdict.apply]
          · simp [enough, Verdict.apply]
        · simp [foreign, done, error, new, Verdict.apply]

theorem dumpProcessMessage_collects (kind : EventKind) (sequence : Nat) :
    Collects (fun learned message => kind.dumpProcessMessage sequence learned message.bytes)
      (kind.classify sequence) :=
  fun learned message => kind.dumpProcessMessage_eq_verdict sequence learned message.bytes

theorem dump_isSome_iff (kind : EventKind) (sequence : Nat) (learned : List kind.Event)
    (header : Bytes) :
    (kind.dumpProcessMessage sequence learned header).2.isSome ↔ Terminates sequence header := by
  rw [dumpProcessMessage_eq]
  unfold DumpTask.processMessage Terminates
  by_cases own : nlmsgSeq header = sequence
  · by_cases done : nlmsgType header = nlmsgDone
    · simp [own, done]
    · by_cases error : nlmsgType header = nlmsgError
      · simp [own, error]
      · simp only [own, done, error, ne_eq, not_true_eq_false, if_false]
        split_ifs <;> simp
  · simp [own]

theorem dumpProcessMessage_readsOnly (kind : EventKind) (sequence : Nat) {message : Message}
    (reply : Reply message) : ReadsOnly (kind.dumpProcessMessage sequence) message := by
  intro learned behind
  have header : 16 ≤ message.bytes.length := message.header_le
  have dispatched : kind.dispatch learned (message.bytes ++ behind) =
      kind.dispatch learned message.bytes := by
    rw [dispatch_eq, dispatch_eq, kind.fromNlmsghdr_append behind reply.short reply.wellFormed]
  rw [dumpProcessMessage_eq]
  unfold DumpTask.processMessage
  rw [nlmsgSeq_append behind header, nlmsgType_append behind header, dispatched]
  by_cases error : nlmsgType message.bytes = nlmsgError
  · unfold DumpTask.handleError
    rw [reply.errorCode_append behind error]
  · simp only [error, if_false]

end EventKind

namespace EventKind

variable (kind : EventKind) (sequence : Nat)

theorem verdict_stop? (header : Bytes) :
    (kind.verdict sequence header).stop? =
      if Terminates sequence header then some (DumpTask.finish header) else none := by
  unfold verdict
  split_ifs <;> rfl

theorem not_accepts_of_terminates {header : Bytes} (ends : Terminates sequence header) :
    ¬ kind.Accepts sequence header := by
  obtain ⟨notDone, notError⟩ := kind.newType_not_terminator
  rintro ⟨-, new, -⟩
  rcases ends.2 with done | error
  · exact notDone (new.symm.trans done)
  · exact notError (new.symm.trans error)

theorem verdict_kept? (header : Bytes) :
    (kind.verdict sequence header).kept? =
      if kind.Accepts sequence header then some (kind.fromNlmsghdr header) else none := by
  unfold verdict
  split_ifs with ends accepted
  · exact absurd accepted (kind.not_accepts_of_terminates sequence ends)
  · rfl
  · rfl
  · rfl

section Items

variable {Item : Type} (bytes : Item → Bytes)

theorem firstStop?_verdict (items : List Item) :
    firstStop? (fun item => kind.verdict sequence (bytes item)) items =
      (items.find? fun item => Terminates sequence (bytes item)).map fun item =>
        DumpTask.finish (bytes item) := by
  simp only [firstStop?, verdict_stop?]
  induction items with
  | nil => rfl
  | cons item items inductionHypothesis =>
      rw [List.findSome?_cons, List.find?_cons]
      by_cases ends : Terminates sequence (bytes item)
      · simp [ends]
      · simp [ends, inductionHypothesis]

theorem beforeStop_verdict (items : List Item) :
    beforeStop (fun item => kind.verdict sequence (bytes item)) items =
      items.takeWhile fun item => ¬ Terminates sequence (bytes item) := by
  unfold beforeStop
  congr 1
  funext item
  by_cases ends : Terminates sequence (bytes item) <;> simp [verdict_stop?, ends]

theorem kept_verdict (items : List Item) :
    kept (fun item => kind.verdict sequence (bytes item)) items =
      (items.filter fun item => kind.Accepts sequence (bytes item)).map
        fun item => kind.fromNlmsghdr (bytes item) := by
  simp only [kept, verdict_kept?]
  induction items with
  | nil => rfl
  | cons item items inductionHypothesis =>
      rw [List.filterMap_cons, List.filter_cons, inductionHypothesis]
      by_cases accepted : kind.Accepts sequence (bytes item) <;> simp [accepted]

end Items

theorem classify_stop? (message : Message) :
    (kind.classify sequence message).stop? =
      if Terminates sequence message.bytes then some (DumpTask.finish message.bytes)
      else none :=
  kind.verdict_stop? sequence message.bytes

theorem classify_kept? (message : Message) :
    (kind.classify sequence message).kept? =
      if kind.Accepts sequence message.bytes then some (kind.fromNlmsghdr message.bytes)
      else none :=
  kind.verdict_kept? sequence message.bytes

theorem firstStop?_classify (messages : List Message) :
    firstStop? (kind.classify sequence) messages =
      (firstTerminator sequence messages).map fun message => DumpTask.finish message.bytes :=
  kind.firstStop?_verdict sequence Records.Format.Record.bytes messages

theorem beforeStop_classify (messages : List Message) :
    beforeStop (kind.classify sequence) messages = beforeTerminator sequence messages :=
  kind.beforeStop_verdict sequence Records.Format.Record.bytes messages

theorem kept_classify (messages : List Message) :
    kept (kind.classify sequence) messages = kind.entries sequence messages :=
  kind.kept_verdict sequence Records.Format.Record.bytes messages

/-- The dump finishes at the first terminator with the entries in front of it,
and waits with all entries while there is none. -/
theorem readLoop_dump {stream : List (List Message)} (replies : ReplyStream stream)
    (buffer : Bytes) :
    readLoop (kind.dumpProcessMessage sequence) [] buffer (deliver stream) =
      match firstTerminator sequence stream.flatten with
      | none => .waiting (kind.entries sequence stream.flatten)
      | some terminator =>
          .returned (DumpTask.finish terminator.bytes
            (kind.entries sequence (beforeTerminator sequence stream.flatten))) := by
  rw [readLoop_deliver (replies.readable fun _ => kind.dumpProcessMessage_readsOnly sequence),
    scan_eq _ (kind.dumpProcessMessage_collects sequence), firstStop?_classify,
    beforeStop_classify, kept_classify, kept_classify]
  cases firstTerminator sequence stream.flatten <;> rfl

end EventKind

end Rtaco
