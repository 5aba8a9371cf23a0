import Rtaco.Core.ControlDumps
import Rtaco.Events.EventContents

/-!
# The tables that dumps tell

The kernel answers a dump with a message for each entry of a table. The events the dump ends with,
read back, are the table, but for the entries that its task filters out.
-/

namespace Rtaco

open Netlink

namespace EventKind

/-- The dump task lists an entry with these contents. -/
def Lists : EventKind → Contents → Prop
  | link, contents => ValidIndex (contents.numbers.getD 0 0)
  | address, contents => ValidIndex (contents.numbers.getD 4 0)
  | route, contents =>
      contents.numbers.getD 7 0 = rtTableMain ∧ ValidIndex (contents.numbers.getD 9 0)
  | neighbor, contents => ValidIndex (contents.numbers.getD 1 0)

instance : (kind : EventKind) → (contents : Contents) → Decidable (kind.Lists contents)
  | link, _ => inferInstanceAs (Decidable (ValidIndex _))
  | address, _ => inferInstanceAs (Decidable (ValidIndex _))
  | route, _ => inferInstanceAs (Decidable (_ ∧ ValidIndex _))
  | neighbor, _ => inferInstanceAs (Decidable (ValidIndex _))

theorem lists_readContents (kind : EventKind) (event : kind.Event) :
    kind.Lists (kind.readContents event) ↔ kind.Passes event := by
  cases kind with
  | route => exact and_congr_left' Int.natCast_inj
  | _ => rfl

/-- A message of a dump that carries an entry of the table. -/
structure Row (kind : EventKind) (sequence : Nat) where
  message : Message
  attrs : List Attribute
  ofDump : nlmsgSeq message.bytes = sequence
  isNew : nlmsgType message.bytes = kind.newType
  carries : kind.Carries message attrs

def Row.contents {kind : EventKind} {sequence : Nat} (row : kind.Row sequence) : Contents :=
  kind.contents row.message row.attrs

section Rows

variable {kind : EventKind} {sequence : Nat}

theorem Row.readContents_eq (row : kind.Row sequence) (reply : Reply row.message) :
    kind.readContents (kind.fromNlmsghdr row.message.bytes) = row.contents :=
  readContents_fromNlmsghdr row.carries reply.short reply.wellFormed

theorem Row.accepts_iff (row : kind.Row sequence) (reply : Reply row.message) :
    kind.Accepts sequence row.message.bytes ↔ kind.Lists row.contents := by
  rw [← row.readContents_eq reply, lists_readContents]
  exact ⟨fun accepts => accepts.2.2.2,
    fun passes => ⟨row.ofDump, row.isNew, row.carries.enough, passes⟩⟩

/-- The entries of a dump, read back, are the rows that its task lists. -/
theorem readContents_entries {table : List (kind.Row sequence)}
    (replies : ∀ row ∈ table, Reply row.message) :
    (kind.entries sequence (table.map Row.message)).map kind.readContents =
      (table.map Row.contents).filter kind.Lists := by
  unfold entries
  induction table with
  | nil => rfl
  | cons row table inductionHypothesis =>
      obtain ⟨reply, later⟩ := List.forall_mem_cons.mp replies
      have rest := inductionHypothesis later
      have accepts := row.accepts_iff reply
      rw [List.map_cons, List.map_cons]
      by_cases lists : kind.Lists row.contents
      · rw [List.filter_cons_of_pos (by simpa using accepts.mpr lists),
          List.filter_cons_of_pos (by simpa using lists), List.map_cons, List.map_cons, rest,
          row.readContents_eq reply]
      · rw [List.filter_cons_of_neg (by simpa using fun accepted => lists (accepts.mp accepted)),
          List.filter_cons_of_neg (by simpa using lists), rest]

theorem Row.not_terminates (row : kind.Row sequence) : ¬ Terminates sequence row.message.bytes := by
  obtain ⟨notDone, notError⟩ := kind.newType_not_terminator
  rintro ⟨-, done | error⟩
  · exact notDone (row.isNew.symm.trans done)
  · exact notError (row.isNew.symm.trans error)

theorem terminator_of_table (table : List (kind.Row sequence)) {done : Message}
    (ends : Terminates sequence done.bytes) (rest : List Message) :
    firstTerminator sequence (table.map Row.message ++ done :: rest) = some done ∧
      beforeTerminator sequence (table.map Row.message ++ done :: rest) =
        table.map Row.message := by
  unfold firstTerminator beforeTerminator
  induction table with
  | nil => simp [ends]
  | cons row table inductionHypothesis =>
      obtain ⟨first, before⟩ := inductionHypothesis
      have goes := row.not_terminates
      rw [List.map_cons, List.cons_append, List.find?_cons_of_neg (by simpa using goes),
        List.takeWhile_cons_of_pos (by simpa using goes), before]
      exact ⟨first, rfl⟩

end Rows

end EventKind

namespace Control

variable {operation : Nat}

/-- In every run, whatever other operations there are, a dump on whose socket the messages of a
table and `NLMSG_DONE` arrive as a reply stream ends with a list that reads back as the rows of the
table that its task lists, in order. -/
theorem dump_tells_table (now : Int) {labels : List Label} {finish : State}
    (reached : Machine.run step { now := now } labels = some finish) {entry : Operation}
    (present : finish.operations operation = some entry) {kind : EventKind}
    (dump : entry.request = .dump kind) {sequence : Nat} (drawn : entry.sequence = some sequence)
    {stream : List (List Message)} (replies : ReplyStream stream)
    (arrives : arrived (.own operation) labels = deliver stream)
    {table : List (kind.Row sequence)} {done : Message} {rest : List Message}
    (sent : stream.flatten = table.map EventKind.Row.message ++ done :: rest)
    (own : nlmsgSeq done.bytes = sequence) (isDone : nlmsgType done.bytes = nlmsgDone) :
    ∃ list, entry.Ended (.value (.events kind list)) ∧
      list.map kind.readContents = (table.map EventKind.Row.contents).filter kind.Lists := by
  have follows := dump_follows_arrived reached present dump
  rw [arrives] at follows
  have outcome := readLoop_of_dump dump sequence entry.buffer (deliver stream)
  obtain ⟨first, before⟩ := EventKind.terminator_of_table table ⟨own, .inl isDone⟩ rest
  rw [kind.readLoop_dump sequence replies, sent, first, before] at outcome
  have ended := follows.ended ⟨sequence, drawn, outcome⟩
  rw [DumpTask.finish, if_pos isDone] at ended
  refine ⟨_, ended, EventKind.readContents_entries fun row member => ?_⟩
  have inside : row.message ∈ stream.flatten := by
    rw [sent]
    exact List.mem_append_left _ (List.mem_map_of_mem member)
  obtain ⟨datagram, received, here⟩ := List.mem_flatten.mp inside
  exact replies.reply received here

/-- An entry for `fe80::1`. -/
def neighborEntry (index : UInt8) : Message :=
  Message.build rtmNewneigh 2 1 9
    ([10, 0, 0, 0, index, 0, 0, 0, 2, 0, 0, 1] ++ Records.Format.encode linkLocalAttributes)
    (by simp; decide)

/-- A neighbor of interface 3, and one that the task filters out. -/
def neighborTable : List (EventKind.neighbor.Row 1) :=
  [{ message := neighborEntry 3
     attrs := linkLocalAttributes
     ofDump := by decide
     isNew := by decide
     carries := ⟨by decide, by decide, [], by decide, by decide⟩ },
   { message := neighborEntry 0
     attrs := linkLocalAttributes
     ofDump := by decide
     isNew := by decide
     carries := ⟨by decide, by decide, [], by decide, by decide⟩ }]

def dumpNeighbors : List Label :=
  [.issue 0 (.dump .neighbor), .tick 5, .expire, .resume 0 {} [], .send 0, .postReceive 0] ++
  [.reply (.own 0) [neighborEntry 3, neighborEntry 0, doneMessage 1 9 0 0] true]

theorem dump_tells_table_dumpNeighbors :
    ∃ finish entry list, Machine.run step { now := 0 } dumpNeighbors = some finish ∧
      finish.operations 0 = some entry ∧ entry.Ended (.value (.events .neighbor list)) ∧
      list.map EventKind.neighbor.readContents =
        [{ type := rtmNewneigh, numbers := [10, 3, 2, 0, 1], names := [],
           addresses := [some [0xfe, 0x80, 0, 0, 0, 0, 0, 0, 0, 0, 0, 0, 0, 0, 0, 1]],
           lladdr := [2, 0x5f, 0xa1] }] := by
  have ends : (Machine.run step { now := 0 } (dumpNeighbors.take 6)).map (fun state =>
      ((state.channels (.own 0)).receives, (state.channels (.own 0)).requests,
        (state.operations 0).map fun entry => { entry with buffer := [] })) =
          some ([0], [0], some ⟨.dump .neighbor, some 1, [], .receiving []⟩) := by
    decide +kernel
  obtain ⟨state, before, observed⟩ := Option.map_eq_some_iff.mp ends
  simp only [Prod.mk.injEq] at observed
  obtain ⟨receives, requests, observed⟩ := observed
  obtain ⟨⟨request, sequence, buffer, phase⟩, receiving, entry⟩ :=
    Option.map_eq_some_iff.mp observed
  cases entry
  have replies : ReplyStream [[neighborEntry 3, neighborEntry 0, doneMessage 1 9 0 0]] := by
    decide +kernel
  obtain ⟨finish, taken, present⟩ := @step_reply_of_dump state 0 .neighbor 1 buffer
    [neighborEntry 3, neighborEntry 0, doneMessage 1 9 0 0] (doneMessage 1 9 0 0) receives requests
    receiving replies (by decide) rfl
  have reached : Machine.run step { now := 0 } dumpNeighbors = some finish := by
    rw [← List.take_append_drop 6 dumpNeighbors, Machine.run_append, before]
    exact Machine.run_cons_eq_some.mpr ⟨finish, taken, rfl⟩
  obtain ⟨list, ended, read⟩ := @dump_tells_table 0 0 dumpNeighbors finish reached _ present
    .neighbor rfl 1 rfl _ replies rfl neighborTable (doneMessage 1 9 0 0) [] rfl (by decide)
    (by decide)
  refine ⟨finish, _, list, reached, present, ended, read.trans ?_⟩
  decide +kernel

end Control

end Rtaco
