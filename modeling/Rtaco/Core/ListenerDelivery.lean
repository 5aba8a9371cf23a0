import Rtaco.Core.ListenerDatagrams
import Rtaco.Core.ListenerRun
import Rtaco.Core.ListenerSilence

/-!
# From received datagrams to signals

Over a whole run the listener turns the datagrams it received into their signals, each datagram
once and in order. Slots may be connected, disconnected and call the listener meanwhile.
-/

namespace Rtaco.Listener

open Netlink

/-- The datagrams that completed a receive. -/
def received (labels : List Label) : List Bytes :=
  labels.filterMap fun
    | .complete datagram => some datagram
    | _ => none

/-- The sizes of the receives whose handlers have not run. -/
def sizes (queue : List Completion) : List Nat :=
  queue.filterMap fun
    | .received bytes => some bytes
    | .failed _ => none

/-- The messages from the cursor on. -/
def Ahead (buffer : Bytes) (cursor : Cursor) (messages : List Message) : Prop :=
  (∀ message ∈ messages, WellFormed message ∧ message.bytes.length < 2 ^ 31) ∧
  ∃ front unread stale, ¬ messageFormat.Fits unread ∧
    (Records.Format.encode messages ++ unread).length < 2 ^ 32 ∧
    buffer = front ++ (Records.Format.encode messages ++ (unread ++ stale)) ∧
    cursor = ⟨front.length, (Records.Format.encode messages ++ unread).length⟩

section Walk

variable {buffer : Bytes} {cursor : Cursor} {message : Message} {messages : List Message}

theorem Ahead.ends (ahead : Ahead buffer cursor []) : ¬ cursor.Continues buffer := by
  obtain ⟨-, front, unread, stale, nothing, -, rfl, rfl⟩ := ahead
  exact fun continues => nothing (cursor_on_rest.mp continues)

theorem Ahead.continues (ahead : Ahead buffer cursor (message :: messages)) :
    cursor.Continues buffer ∧ Ahead buffer (cursor.next buffer) messages ∧
      handleMessage (buffer.drop cursor.header) = expected message.bytes := by
  obtain ⟨sound, front, unread, stale, nothing, small, rfl, rfl⟩ := ahead
  have fits : message.encode.length ≤
      (Records.Format.encode (message :: messages) ++ unread).length := by
    simp
  have memory : front ++ (Records.Format.encode (message :: messages) ++ (unread ++ stale)) =
      front ++ (message.encode ++ (Records.Format.encode messages ++ (unread ++ stale))) := by
    simp
  have remaining : (Records.Format.encode (message :: messages) ++ unread).length -
      message.encode.length = (Records.Format.encode messages ++ unread).length := by
    simp only [Records.Format.encode_cons, List.length_append]
    omega
  obtain ⟨continues, next⟩ := cursor_on_message front
    (Records.Format.encode messages ++ (unread ++ stale)) message fits small
  rw [memory]
  refine ⟨continues, ?_, ?_⟩
  · refine ⟨fun later member => sound later (List.mem_cons_of_mem _ member),
      front ++ message.encode, unread, stale, nothing, ?_, ?_, ?_⟩
    · omega
    · rw [List.append_assoc]
    · rw [next, remaining, ← List.length_append]
  · obtain ⟨wellFormed, short⟩ := sound message List.mem_cons_self
    rw [List.drop_left, Records.Format.Record.encode, List.append_assoc,
      handleMessage_eq_expected, expected_append short wellFormed]

theorem ahead_start {datagram : Datagram} (readable : Readable datagram) (buffer : Bytes) :
    Ahead (receive bufferSize buffer datagram.bytes).1
      (.start (receive bufferSize buffer datagram.bytes).2) (heard datagram) := by
  obtain ⟨unread, stale, nothing, fits, received⟩ := exists_received datagram buffer
  have small : (Records.Format.encode (heard datagram) ++ unread).length < 2 ^ 32 :=
    lt_of_le_of_lt fits (by decide)
  rw [received]
  refine ⟨fun message member => ⟨readable message member, short_of_mem_heard member⟩,
    [], unread, stale, nothing, small, rfl, ?_⟩
  rw [Cursor.start, Nat.mod_eq_of_lt small]
  rfl

end Walk

/-- Where the walk goes on after the slots of the current message. -/
def State.position (state : State) : Option Cursor :=
  match state.activity with
  | .idle => none
  | .walking cursor => some cursor
  | .emitting cursor _ => some (cursor.next state.buffer)
  | .inSlot cursor _ => some (cursor.next state.buffer)

/-- The messages that the walk has not reached. -/
def State.Left (state : State) (messages : List Message) : Prop :=
  match state.position with
  | none => messages = []
  | some cursor => Ahead state.buffer cursor messages

/-- The datagrams in the queue. -/
def State.Waits (state : State) (waiting : List Datagram) : Prop :=
  List.Forall₂ (fun bytes datagram => Ahead state.buffer (.start bytes) (heard datagram))
    (sizes state.queue) waiting

/-- After the labels, the datagrams that were handled (the last one perhaps not to its end), those
in the queue, and the messages that the walk has not reached. -/
structure Account (state : State) (past : List Label) (datagrams handled waiting : List Datagram)
    (ahead : List Message) : Prop where
  left : state.Left ahead
  waits : state.Waits waiting
  emitted : state.emitted ++ ahead.filterMap (fun message => expected message.bytes) =
    handled.flatMap signals
  order : (handled ++ waiting).Sublist datagrams
  all : .stop ∉ past → handled ++ waiting = datagrams
  started : .stop ∉ past → state.running = false → waiting = []

section Account

variable {state next : State} {past : List Label} {label : Label}
  {datagrams handled waiting : List Datagram} {ahead : List Message}

/-- A step of the walk emits what it passes and leaves buffer and queue. -/
theorem Account.moves {later : List Message}
    (account : Account state past datagrams handled waiting ahead) (left : next.Left later)
    (emitted : next.emitted ++ later.filterMap (fun message => expected message.bytes) =
      state.emitted ++ ahead.filterMap fun message => expected message.bytes)
    (buffer : next.buffer = state.buffer) (queue : sizes next.queue = sizes state.queue)
    (running : label = .stop ∨ (next.running = false → state.running = false)) :
    Account next (past ++ [label]) datagrams handled waiting later := by
  have earlier : .stop ∉ past ++ [label] → .stop ∉ past := fun none member =>
    none (List.mem_append_left _ member)
  refine ⟨left, ?_, emitted.trans account.emitted, account.order,
    fun none => account.all (earlier none), ?_⟩
  · unfold State.Waits
    rw [queue, buffer]
    exact account.waits
  · intro none stopped
    rcases running with rfl | kept
    · exact absurd (List.mem_append_right past List.mem_cons_self) none
    · exact account.started (earlier none) (kept stopped)

theorem Account.unchanged (account : Account state past datagrams handled waiting ahead)
    (position : next.position = state.position) (buffer : next.buffer = state.buffer)
    (queue : sizes next.queue = sizes state.queue) (emitted : next.emitted = state.emitted)
    (running : label = .stop ∨ (next.running = false → state.running = false)) :
    Account next (past ++ [label]) datagrams handled waiting ahead := by
  refine account.moves ?_ (by rw [emitted]) buffer queue running
  unfold State.Left
  rw [position, buffer]
  exact account.left

theorem sizes_append (first second : List Completion) :
    sizes (first ++ second) = sizes first ++ sizes second := List.filterMap_append

theorem sizes_replicate_failed (count : Nat) (error : ErrorCode) :
    sizes (List.replicate count (.failed error)) = [] := by
  apply List.filterMap_eq_nil_iff.mpr
  intro completion member
  rw [List.eq_of_mem_replicate member]

theorem requestRead_eq (state : State) :
    ∃ outstanding queue, sizes queue = sizes state.queue ∧
      requestRead state = { state with outstanding := outstanding, queue := queue } := by
  unfold requestRead
  split_ifs
  · exact ⟨state.outstanding + 1, state.queue, rfl, rfl⟩
  · refine ⟨state.outstanding, _, ?_, rfl⟩
    rw [sizes_append]
    exact List.append_nil _
  · exact ⟨state.outstanding, state.queue, rfl, rfl⟩

theorem emit_position (cursor : Cursor) (state : State) (left : Nat) :
    ∃ activity, emit cursor state left = { state with activity := activity } ∧
      (emit cursor state left).position = some (cursor.next state.buffer) := by
  cases left with
  | zero => exact ⟨_, rfl, rfl⟩
  | succ left => exact ⟨_, rfl, rfl⟩

variable (account : Account state past datagrams handled waiting ahead)
include account

theorem Account.of_start (outcomes : Outcomes) :
    Account (start outcomes state) (past ++ [.start outcomes]) datagrams handled waiting
      ahead := by
  by_cases starts : Starts state (.start outcomes)
  · rw [start_of_starts starts]
    exact account.unchanged rfl rfl rfl rfl (.inr nofun)
  · obtain ⟨guard, same, -⟩ := start_of_not_starts starts
    rw [same]
    exact account.unchanged rfl rfl rfl rfl (.inr id)

theorem Account.of_stop : Account (stop state) (past ++ [.stop]) datagrams handled waiting
    ahead := by
  unfold stop closeSocket
  split_ifs with running isOpen
  · refine account.unchanged rfl rfl ?_ rfl (.inl rfl)
    rw [sizes_append, sizes_replicate_failed, List.append_nil]
  · exact account.unchanged rfl rfl rfl rfl (.inl rfl)
  · exact account.unchanged rfl rfl rfl rfl (.inl rfl)

theorem Account.of_emit {cursor : Cursor} (left : Nat)
    (position : state.position = some (cursor.next state.buffer)) :
    Account (emit cursor state left) (past ++ [label]) datagrams handled waiting ahead := by
  obtain ⟨activity, emits, after⟩ := emit_position cursor state left
  rw [← position] at after
  rw [emits] at after ⊢
  exact account.unchanged after rfl rfl rfl (.inr id)

theorem Account.of_processNext {cursor : Cursor} (walking : state.activity = .walking cursor) :
    ∃ later, Account (processNext cursor state) (past ++ [.advance]) datagrams handled waiting
      later := by
  have left := account.left
  unfold State.Left State.position at left
  simp only [walking] at left
  unfold processNext
  cases ahead with
  | nil =>
      rw [if_neg left.ends]
      obtain ⟨outstanding, queue, same, requested⟩ :=
        requestRead_eq { state with activity := .idle }
      rw [requested]
      exact ⟨[], account.moves rfl rfl rfl same (.inr id)⟩
  | cons message messages =>
      obtain ⟨continues, next, handled⟩ := left.continues
      rw [if_pos continues, handled]
      refine ⟨messages, ?_⟩
      cases signal : expected message.bytes with
      | none =>
          refine account.moves next ?_ rfl rfl (.inr id)
          simp only [List.filterMap_cons, signal]
          rfl
      | some emission =>
          obtain ⟨activity, emits, after⟩ := emit_position cursor
            { state with emitted := state.emitted ++ [emission] } (state.slots emission.signal)
          simp only [emits] at after ⊢
          refine account.moves ?_ ?_ rfl rfl (.inr id)
          · unfold State.Left
            rw [after]
            exact next
          · simp only [List.filterMap_cons, signal, List.append_assoc, List.singleton_append]

theorem Account.idle (idle : state.activity = .idle) : ahead = [] := by
  have left := account.left
  unfold State.Left State.position at left
  rw [idle] at left
  exact left

theorem Account.emitted_of_idle (idle : state.activity = .idle) :
    state.emitted = handled.flatMap signals := by
  obtain rfl := account.idle idle
  have emitted := account.emitted
  rwa [List.filterMap_nil, List.append_nil] at emitted

theorem Account.waiting_of_empty (empty : state.queue = []) : waiting = [] := by
  have waits := account.waits
  unfold State.Waits at waits
  rw [empty] at waits
  cases waits
  rfl

/-- An idle listener walks the first datagram of the queue, and drops it if it was stopped. -/
theorem Account.of_received {bytes : Nat} {queue : List Completion}
    (idle : state.activity = .idle) (queued : state.queue = .received bytes :: queue) :
    ∃ handled waiting ahead, Account (handleRead (.received bytes) { state with queue := queue })
      (past ++ [.runHandler]) datagrams handled waiting ahead := by
  obtain rfl := account.idle idle
  have waits := account.waits
  unfold State.Waits at waits
  rw [queued] at waits
  cases waits with
  | @cons _ datagram _ waiting here later =>
      have earlier : Label.stop ∉ past ++ [Label.runHandler] → Label.stop ∉ past :=
        fun none member => none (List.mem_append_left _ member)
      have emitted : state.emitted = handled.flatMap signals := account.emitted_of_idle idle
      unfold handleRead
      split_ifs with running
      · have moved : handled ++ [datagram] ++ waiting = handled ++ datagram :: waiting :=
          List.append_assoc handled [datagram] waiting
        refine ⟨handled ++ [datagram], waiting, heard datagram, here, later, ?_, ?_, ?_, ?_⟩
        · rw [List.flatMap_append, List.flatMap_singleton, ← emitted]
          rfl
        · rw [moved]
          exact account.order
        · intro none
          rw [moved]
          exact account.all (earlier none)
        · intro none stopped
          cases account.started (earlier none) stopped
      · have dropped : (handled ++ waiting).Sublist (handled ++ datagram :: waiting) :=
          List.Sublist.append_left (List.sublist_cons_self datagram waiting) handled
        refine ⟨handled, waiting, [], ?_, later, account.emitted, dropped.trans account.order,
          ?_, ?_⟩
        · unfold State.Left State.position
          simp only [idle]
        · intro none
          cases account.started (earlier none) (by simpa using running)
        · intro none stopped
          cases account.started (earlier none) stopped

theorem Account.of_failed {error : ErrorCode} {queue : List Completion}
    (queued : state.queue = .failed error :: queue) :
    Account (handleRead (.failed error) { state with queue := queue }) (past ++ [.runHandler])
      datagrams handled waiting ahead := by
  have same : sizes queue = sizes state.queue := by rw [queued]; rfl
  unfold handleRead
  split_ifs with running
  · simp only
    split_ifs with aborted
    · exact account.unchanged rfl rfl same rfl (.inr id)
    · obtain ⟨outstanding, requests, kept, requested⟩ :=
        requestRead_eq { state with queue := queue }
      rw [requested]
      exact account.unchanged rfl rfl (kept.trans same) rfl (.inr id)
  · exact account.unchanged rfl rfl same rfl (.inr id)

theorem Account.of_complete {datagram : Datagram} (readable : Readable datagram)
    (idle : state.activity = .idle) (empty : sizes state.queue = [])
    (running : state.running = true) :
    Account
      { state with
        outstanding := state.outstanding - 1
        buffer := (receive bufferSize state.buffer datagram.bytes).1
        queue := state.queue ++ [.received (receive bufferSize state.buffer datagram.bytes).2] }
      (past ++ [.complete datagram.bytes]) (datagrams ++ [datagram]) handled [datagram] [] := by
  obtain rfl := account.idle idle
  have waits := account.waits
  unfold State.Waits at waits
  rw [empty] at waits
  cases waits
  refine ⟨?_, ?_, account.emitted, ?_, ?_, ?_⟩
  · unfold State.Left State.position
    simp only [idle]
  · unfold State.Waits
    simp only [sizes_append, empty]
    exact .cons (ahead_start readable state.buffer) .nil
  · have order := account.order
    rw [List.append_nil] at order
    exact order.append (List.Sublist.refl _)
  · intro none
    have all := account.all fun member => none (List.mem_append_left _ member)
    rw [List.append_nil] at all
    rw [all]
  · intro _ stopped
    rw [running] at stopped
    cases stopped

end Account

/-- A receive that completes finds no earlier datagram in the buffer: none is walked or queued. -/
def CompletesAlone (state : State) : Label → Prop
  | .complete _ => state.outstanding ≠ 0 → state.activity = .idle ∧ sizes state.queue = []
  | _ => True

instance (state : State) : (label : Label) → Decidable (CompletesAlone state label)
  | .complete _ => inferInstanceAs (Decidable (state.outstanding ≠ 0 → _ ∧ _))
  | .start _ | .stop | .fail _ | .runHandler | .advance | .enterSlot | .skipSlot | .leaveSlot
  | .throwSlot | .setSlots _ _ => .isTrue trivial

theorem State.Exclusive.completesAlone {state : State} (exclusive : state.Exclusive)
    (label : Label) : CompletesAlone state label := by
  cases label with
  | complete datagram =>
      intro posted
      refine ⟨?_, List.filterMap_eq_nil_iff.mpr ?_⟩
      · by_contra busy
        exact posted (exclusive.walking busy)
      · rintro (bytes | error) member
        · exact absurd (exclusive.waiting bytes member) posted
        · rfl
  | _ => trivial

/-- It does in every run whose effective `start`s find no receive in flight. -/
theorem completesAlone_of_fresh {state : State} {labels : List Label} (initial : state.Initial)
    (fresh : Machine.Allowed step StartsFresh state labels) :
    Machine.Allowed step CompletesAlone state labels := by
  refine Machine.Allowed.of_invariant (fun state label single _ => ?_)
    (fun _ _ _ => single_step) ⟨initial.coherent, initial.inFlight.le.trans (Nat.zero_le 1)⟩ fresh
  exact (State.exclusive_of_inFlight single.2).completesAlone label

theorem running_requestRead (state : State) : (requestRead state).running = state.running := by
  obtain ⟨outstanding, queue, -, same⟩ := requestRead_eq state
  rw [same]

theorem running_handleRead (completion : Completion) (state : State) :
    (handleRead completion state).running = state.running := by
  unfold handleRead
  split_ifs with running
  · cases completion with
    | failed error =>
        simp only
        split_ifs with aborted
        · rfl
        · exact running_requestRead state
    | received bytes => rfl
  · rfl

theorem running_processNext (cursor : Cursor) (state : State) :
    (processNext cursor state).running = state.running := by
  rcases processNext_eq cursor state with ⟨activity, emitted, -, same⟩ | ended
  · rw [same]
  · rw [ended]
    exact running_requestRead _

theorem running_of_step {state next : State} {label : Label} (goes : label ≠ .stop)
    (taken : step state label = some next) (stopped : next.running = false) :
    state.running = false ∧ gained state label = 0 := by
  cases label with
  | start outcomes =>
      obtain ⟨-, rfl⟩ := step_start taken
      by_cases starts : Starts state (.start outcomes)
      · rw [start_of_starts starts] at stopped
        cases stopped
      · obtain ⟨guard, same, -⟩ := start_of_not_starts starts
        rw [same] at stopped
        exact ⟨stopped, if_neg starts⟩
  | stop => exact absurd rfl goes
  | complete datagram =>
      obtain ⟨-, rfl⟩ := step_complete taken
      exact ⟨stopped, rfl⟩
  | fail error =>
      obtain ⟨-, rfl⟩ := step_fail taken
      exact ⟨stopped, rfl⟩
  | runHandler =>
      obtain ⟨completion, queue, -, -, rfl⟩ := step_runHandler taken
      rw [running_handleRead] at stopped
      exact ⟨stopped, rfl⟩
  | advance =>
      obtain ⟨cursor, -, rfl⟩ := step_advance taken
      rw [running_processNext] at stopped
      exact ⟨stopped, rfl⟩
  | enterSlot =>
      obtain ⟨cursor, left, -, rfl⟩ := step_enterSlot taken
      exact ⟨stopped, rfl⟩
  | skipSlot =>
      obtain ⟨cursor, left, -, rfl⟩ := step_skipSlot taken
      rw [running_emit] at stopped
      exact ⟨stopped, rfl⟩
  | leaveSlot =>
      obtain ⟨cursor, left, -, rfl⟩ := step_leaveSlot taken
      rw [running_emit] at stopped
      exact ⟨stopped, rfl⟩
  | throwSlot =>
      obtain ⟨cursor, left, -, rfl⟩ := step_throwSlot taken
      exact ⟨stopped, rfl⟩
  | setSlots signal count =>
      obtain rfl := step_setSlots taken
      exact ⟨stopped, rfl⟩

/-- A listener that is never stopped starts at most once, with no receive in flight. -/
theorem startsFresh_of_never {state : State} {labels : List Label} (initial : state.Initial)
    (never : .stop ∉ labels) : Machine.Allowed step StartsFresh state labels := by
  have goes : ∀ label ∈ labels, ∀ _ : State, label ≠ .stop := by
    rintro label member - rfl
    exact never member
  refine @Machine.Allowed.of_invariant _ _ step
    (fun state => state.Coherent ∧ (state.running = false → state.inFlight = 0)) _ _ ?_ ?_ state
    ⟨initial.coherent, fun _ => initial.inFlight⟩ labels (Machine.Allowed.of_mem goes)
  · intro state label inv _
    cases label with
    | start outcomes => exact fun stopped _ => inv.2 stopped
    | _ => trivial
  · intro state label next inv goes taken
    have balanced := balanced_step inv.1 taken
    refine ⟨balanced.coherent, fun stopped => ?_⟩
    obtain ⟨before, none⟩ := running_of_step goes taken stopped
    have upper := balanced.upper
    rw [inv.2 before, none] at upper
    exact Nat.eq_zero_of_le_zero upper

theorem completesAlone_of_never {state : State} {labels : List Label} (initial : state.Initial)
    (never : .stop ∉ labels) : Machine.Allowed step CompletesAlone state labels :=
  completesAlone_of_fresh initial (startsFresh_of_never initial never)

/-- What a run keeps whose receives complete alone. -/
structure Delivers (state : State) (past : List Label) : Prop where
  coherent : state.Coherent
  account : (∀ label ∈ past, label ≠ .throwSlot) → ∀ datagrams : List Datagram,
    (∀ datagram ∈ datagrams, Readable datagram) →
      received past = datagrams.map Datagram.bytes →
        ∃ handled waiting ahead, Account state past datagrams handled waiting ahead

theorem received_append (first second : List Label) :
    received (first ++ second) = received first ++ received second := List.filterMap_append

/-- A step that receives nothing moves datagrams from the queue to the walk and on. -/
theorem Account.step {state next : State} {past : List Label} {label : Label}
    {datagrams handled waiting : List Datagram} {ahead : List Message}
    (account : Account state past datagrams handled waiting ahead)
    (taken : step state label = some next) (returns : label ≠ .throwSlot)
    (nothing : received [label] = []) :
    ∃ handled waiting ahead,
      Account next (past ++ [label]) datagrams handled waiting ahead := by
  cases label with
  | start outcomes =>
      obtain ⟨-, rfl⟩ := step_start taken
      exact ⟨_, _, _, account.of_start outcomes⟩
  | stop =>
      obtain ⟨-, rfl⟩ := step_stop taken
      exact ⟨_, _, _, account.of_stop⟩
  | complete datagram => cases nothing
  | fail error =>
      obtain ⟨-, rfl⟩ := step_fail taken
      refine ⟨_, _, _, account.unchanged rfl rfl ?_ rfl (.inr id)⟩
      rw [sizes_append]
      exact List.append_nil _
  | runHandler =>
      obtain ⟨completion, queue, idle, queued, rfl⟩ := step_runHandler taken
      cases completion with
      | received bytes => exact account.of_received idle queued
      | failed error => exact ⟨_, _, _, account.of_failed queued⟩
  | advance =>
      obtain ⟨cursor, walking, rfl⟩ := step_advance taken
      obtain ⟨later, account⟩ := account.of_processNext walking
      exact ⟨_, _, _, account⟩
  | enterSlot =>
      obtain ⟨cursor, left, emitting, rfl⟩ := step_enterSlot taken
      refine ⟨_, _, _, account.unchanged ?_ rfl rfl rfl (.inr id)⟩
      simp only [State.position, emitting]
  | skipSlot =>
      obtain ⟨cursor, left, emitting, rfl⟩ := step_skipSlot taken
      refine ⟨_, _, _, account.of_emit left ?_⟩
      simp only [State.position, emitting]
  | leaveSlot =>
      obtain ⟨cursor, left, inSlot, rfl⟩ := step_leaveSlot taken
      refine ⟨_, _, _, account.of_emit left ?_⟩
      simp only [State.position, inSlot]
  | throwSlot => exact absurd rfl returns
  | setSlots signal count =>
      obtain rfl := step_setSlots taken
      exact ⟨_, _, _, account.unchanged rfl rfl rfl rfl (.inr id)⟩

theorem received_singleton (label : Label) :
    received [label] = [] ∨ ∃ bytes, label = .complete bytes ∧ received [label] = [bytes] := by
  cases label with
  | complete bytes => exact .inr ⟨bytes, rfl, rfl⟩
  | _ => exact .inl rfl

theorem delivers_step {state next : State} {past : List Label} {label : Label}
    (delivers : Delivers state past) (alone : CompletesAlone state label)
    (taken : step state label = some next) : Delivers next (past ++ [label]) := by
  refine ⟨(balanced_step delivers.coherent taken).coherent,
    fun returns datagrams readable arrived => ?_⟩
  have earlier := delivers.account fun label member => returns label (List.mem_append_left _ member)
  rw [received_append] at arrived
  rcases received_singleton label with nothing | ⟨bytes, rfl, one⟩
  · rw [nothing, List.append_nil] at arrived
    obtain ⟨handled, waiting, ahead, account⟩ := earlier datagrams readable arrived
    exact account.step taken (returns label (List.mem_append_right _ List.mem_cons_self)) nothing
  · obtain ⟨posted, rfl⟩ := step_complete taken
    have running : state.running = true := by
      by_contra stopped
      exact posted (delivers.coherent.quiet (by simpa using stopped))
    rw [one] at arrived
    obtain ⟨before, last, rfl, front, here⟩ := List.map_eq_append_iff.mp arrived.symm
    obtain ⟨datagram, rfl, rfl⟩ := List.map_eq_singleton_iff.mp here
    obtain ⟨handled, waiting, ahead, account⟩ := earlier before
      (fun datagram member => readable datagram (List.mem_append_left _ member)) front.symm
    obtain ⟨idle, empty⟩ := alone posted
    exact ⟨_, _, _, account.of_complete
      (readable datagram (List.mem_append_right _ List.mem_cons_self)) idle empty running⟩

theorem State.Initial.delivers {state : State} (initial : state.Initial)
    (silent : state.emitted = []) : Delivers state [] := by
  refine ⟨initial.coherent, ?_⟩
  intro _ datagrams _ arrived
  obtain rfl : datagrams = [] := List.map_eq_nil_iff.mp arrived.symm
  refine ⟨[], [], [], ?_, ?_, by rw [silent]; rfl, List.Sublist.refl [], fun _ => rfl,
    fun _ _ => rfl⟩
  · unfold State.Left State.position
    rw [initial.activity]
  · unfold State.Waits
    rw [initial.queue]
    exact .nil

theorem account_of_run {state finish : State} {labels : List Label} {datagrams : List Datagram}
    (initial : state.Initial) (silent : state.emitted = [])
    (readable : ∀ datagram ∈ datagrams, Readable datagram)
    (arrived : received labels = datagrams.map Datagram.bytes)
    (returns : ∀ label ∈ labels, label ≠ .throwSlot)
    (alone : Machine.Allowed step CompletesAlone state labels)
    (reached : Machine.run step state labels = some finish) :
    ∃ handled waiting ahead, Account finish labels datagrams handled waiting ahead := by
  have delivers : Delivers finish labels := Machine.invariant_of_trace
    (fun _ _ _ _ => delivers_step) (initial.delivers silent) alone reached
  exact delivers.account returns datagrams readable arrived

/-- In every run in which no slot throws and no receive completes while an earlier datagram is
walked or queued, the listener emits the signals of the datagrams it handled, each once and in
order. It drops a datagram only after a `stop`; without one every datagram is handled but those in
the queue. -/
theorem emitted_of_run {state finish : State} {labels : List Label} {datagrams : List Datagram}
    (initial : state.Initial) (silent : state.emitted = [])
    (readable : ∀ datagram ∈ datagrams, Readable datagram)
    (arrived : received labels = datagrams.map Datagram.bytes)
    (returns : ∀ label ∈ labels, label ≠ .throwSlot)
    (alone : Machine.Allowed step CompletesAlone state labels)
    (reached : Machine.run step state labels = some finish) :
    ∃ handled : List Datagram, handled.Sublist datagrams ∧
      finish.emitted <+: handled.flatMap signals ∧
      (finish.activity = .idle → finish.emitted = handled.flatMap signals) ∧
      (.stop ∉ labels → ∃ waiting, handled ++ waiting = datagrams ∧
        waiting.length = (sizes finish.queue).length) := by
  obtain ⟨handled, waiting, ahead, account⟩ :=
    account_of_run initial silent readable arrived returns alone reached
  refine ⟨handled, ?_, ⟨_, account.emitted⟩, account.emitted_of_idle, ?_⟩
  · exact (List.sublist_append_left handled waiting).trans account.order
  · intro never
    exact ⟨waiting, account.all never, account.waits.length_eq.symm⟩

/-- The slot stops and starts the listener for the first datagram, and disconnects itself for the
second. -/
def restartInSlot : List Label :=
  [.setSlots (.event .link) 1, .start {}, .complete loDatagram.bytes, .runHandler, .advance,
    .enterSlot, .stop, .start {}, .leaveSlot, .advance, .complete loDatagram.bytes, .runHandler,
    .advance, .enterSlot, .setSlots (.event .link) 0, .leaveSlot, .advance]

theorem emitted_of_run_restartInSlot :
    ∃ finish, Machine.run step {} restartInSlot = some finish ∧
      ∃ handled : List Datagram, handled.Sublist [loDatagram, loDatagram] ∧
        finish.emitted = handled.flatMap signals := by
  have readable : ∀ datagram ∈ [loDatagram, loDatagram], Readable datagram := by decide
  have returns : ∀ label ∈ restartInSlot, label ≠ .throwSlot := by
    simp [restartInSlot]
  have alone : Machine.Allowed step CompletesAlone {} restartInSlot := by decide +kernel
  have ends : (Machine.run step {} restartInSlot).map State.activity = some .idle := by
    decide +kernel
  obtain ⟨finish, reached, idle⟩ := Option.map_eq_some_iff.mp ends
  obtain ⟨handled, some, -, emitted, -⟩ :=
    emitted_of_run ⟨rfl, rfl, rfl, rfl⟩ rfl readable rfl returns alone reached
  exact ⟨finish, reached, handled, some, emitted idle⟩

end Rtaco.Listener
