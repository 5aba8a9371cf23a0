import Rtaco.Core.Control

/-!
# What a step of a `Control` can do

One inversion of the step function, and from it one for the operations and one for the
channels. Invariants are read off these, not off the step function.
-/

namespace Rtaco.Control

open Netlink

variable {state next : State} {operation : Nat}

@[simp]
theorem setPhase_channels (operation : Nat) (phase : Phase) (state : State) :
    (state.setPhase operation phase).channels = state.channels := rfl

@[simp]
theorem abortSends_channels (state : State) : state.abortSends.channels = state.channels := rfl

@[simp]
theorem setChannel_operations (id : ChannelId) (channel : Channel) (state : State) :
    (state.setChannel id channel).operations = state.operations := rfl

@[simp]
theorem setChannel_self (id : ChannelId) (channel : Channel) (state : State) :
    (state.setChannel id channel).channels id = channel := Function.update_self _ _ _

theorem setPhase_self {phase : Phase} {entry : Operation}
    (present : state.operations operation = some entry) :
    (state.setPhase operation phase).operations operation = some { entry with phase := phase } := by
  simp [State.setPhase, present]

theorem setPhase_of_ne {other : Nat} (different : operation ≠ other) (phase : Phase) :
    (state.setPhase other phase).operations operation = state.operations operation :=
  Function.update_of_ne different _ _

theorem completeReceive_channels {completion : Except ErrorCode Bytes}
    (completed : completeReceive operation completion state = some next) :
    next.channels = state.channels := by
  unfold completeReceive at completed
  split at completed
  next request sequence buffer completions receiving =>
    split at completed
    next result returned =>
      cases completed
      rfl
    next waiting =>
      cases completed
      rfl
    next => cases completed
  next => cases completed

theorem abortReceives_channels {receives : List Nat}
    (aborted : receives.foldlM (fun state operation =>
      completeReceive operation (.error operationAborted) state) state = some next) :
    next.channels = state.channels := by
  induction receives generalizing state with
  | nil => cases aborted; rfl
  | cons reader receives inductionHypothesis =>
      obtain ⟨middle, completed, rest⟩ := Option.bind_eq_some_iff.mp aborted
      exact (inductionHypothesis rest).trans (completeReceive_channels completed)

namespace Label

/-- The waits on the gate end, because it opens or because its expiry is moved. -/
def OpensGate : Label → Prop
  | .issue _ _ => True
  | .expire => True
  | _ => False

/-- The oldest outstanding receive of a channel is this one, or all of them are aborted. -/
def Completes (state : State) (operation : Nat) (completion : Except ErrorCode Bytes) :
    Label → Prop
  | .reply id messages _ => (state.channels id).receives.head? = some operation ∧
      completion = .ok (Records.Format.encode messages)
  | .notify id datagram => (state.channels id).receives.head? = some operation ∧
      completion = .ok datagram
  | .fail id error => (state.channels id).receives.head? = some operation ∧
      completion = .error error
  | .stop => state.shared.guard.socket.isOpen = true ∧ operation ∈ state.shared.receives ∧
      completion = .error operationAborted
  | _ => False

/-- The label is about other operations. -/
def Spares (state : State) (operation : Nat) : Label → Prop
  | .issue issued _ => operation ≠ issued
  | .failWait waiting _ => operation ≠ waiting
  | .resume woken _ _ => operation ≠ woken
  | .send sender => operation ≠ sender
  | .failSend sender _ => operation ≠ sender
  | .postReceive reader => operation ≠ reader
  | .finish finisher => operation ≠ finisher
  | .reply id _ _ => (state.channels id).receives.head? ≠ some operation
  | .notify id _ => (state.channels id).receives.head? ≠ some operation
  | .fail id _ => (state.channels id).receives.head? ≠ some operation
  | .tick _ => True
  | .expire => ∀ entry ∈ state.operations operation, entry.phase ≠ .waiting
  | .stop => state.shared.guard.socket.isOpen = true →
      operation ∉ state.shared.receives ∧ ∀ entry ∈ state.operations operation,
        entry.phase = .sending → entry.request.channel operation ≠ .shared

/-- The label leaves the channel as it is. -/
def Keeps (state : State) (id : ChannelId) : Label → Prop
  | .resume woken _ _ => ∀ entry ∈ state.operations woken, id ≠ entry.request.channel woken
  | .send sender => ∀ entry ∈ state.operations sender, id ≠ entry.request.channel sender
  | .postReceive reader => ∀ entry ∈ state.operations reader,
      id = entry.request.channel reader → (state.channels id).guard.socket.isOpen = false
  | .reply other _ _ => id ≠ other
  | .notify other _ => id ≠ other
  | .fail other _ => id ≠ other
  | .stop => id = .shared → state.shared.guard.socket.isOpen = false
  | _ => True

end Label

/-- The guard of the socket that an operation uses. -/
def State.guardOf (state : State) (operation : Nat) (entry : Operation) : SocketGuard :=
  (state.channels (entry.request.channel operation)).guard

/-- The states that a label leads to, with what the step takes for granted. -/
inductive Effect (state : State) : Label → State → Prop where
  | issue {operation : Nat} (fresh : state.operations operation = none) (request : Request) :
      Effect state (.issue operation request)
        { acquireSocketToken state with
          operations := Function.update (acquireSocketToken state).operations operation
            (some { request := request }) }
  | tick (elapsed : Nat) : Effect state (.tick elapsed) { state with now := state.now + elapsed }
  | expire (due : state.gate ≤ state.now) : Effect state .expire state.openGate
  | failWait {operation : Nat} {error : ErrorCode} {entry : Operation}
      (present : state.operations operation = some entry) (phase : entry.phase = .waiting)
      (failed : error ≠ operationAborted) :
      Effect state (.failWait operation error)
        (state.setPhase operation (.threw "gate wait failed" error))
  | resume {operation : Nat} {entry : Operation}
      (present : state.operations operation = some entry) (phase : entry.phase = .woken)
      (outcomes : Outcomes) (stale : Bytes) :
      Effect state (.resume operation outcomes stale)
        (openSocket operation entry outcomes stale state)
  | send {operation : Nat} {entry : Operation} {id : ChannelId}
      (present : state.operations operation = some entry) (phase : entry.phase = .sending)
      (uses : entry.request.channel operation = id)
      (isOpen : (state.channels id).guard.socket.isOpen = true) :
      Effect state (.send operation)
        ((state.setChannel id { state.channels id with
          requests := (state.channels id).requests ++ [operation] }).setPhase operation (.ready []))
  | failSend {operation : Nat} {entry : Operation}
      (present : state.operations operation = some entry) (phase : entry.phase = .sending)
      (error : ErrorCode) :
      Effect state (.failSend operation error)
        (state.setPhase operation (.returning (.unexpected error)))
  | postReceive {operation : Nat} {entry : Operation} {id : ChannelId}
      {completions : List (Except ErrorCode Bytes)}
      (present : state.operations operation = some entry)
      (phase : entry.phase = .ready completions) (uses : entry.request.channel operation = id)
      (isOpen : (state.channels id).guard.socket.isOpen = true) :
      Effect state (.postReceive operation)
        ((state.setChannel id { state.channels id with
          receives := (state.channels id).receives ++ [operation] }).setPhase operation
            (.receiving completions))
  | badDescriptor {operation : Nat} {entry : Operation}
      {completions : List (Except ErrorCode Bytes)}
      (present : state.operations operation = some entry)
      (phase : entry.phase = .ready completions)
      (closed : (state.guardOf operation entry).socket.isOpen = false) :
      Effect state (.postReceive operation)
        (state.setPhase operation (.returning (.unexpected badDescriptor)))
  | reply {id : ChannelId} {messages : List Message} {last : Bool} {reader owner : Nat}
      {receives requests : List Nat} {next : State}
      (received : (state.channels id).receives = reader :: receives)
      (requested : (state.channels id).requests = owner :: requests)
      (answers : state.Answers owner messages) (single : id = .shared → last = true)
      (completed : completeReceive reader (.ok (Records.Format.encode messages))
        (state.setChannel id { state.channels id with
          receives := receives
          requests := if last then requests else owner :: requests }) = some next) :
      Effect state (.reply id messages last) next
  | notify {id : ChannelId} {datagram : Bytes} {reader : Nat} {receives : List Nat} {next : State}
      (received : (state.channels id).receives = reader :: receives)
      (completed : completeReceive reader (.ok datagram)
        (state.setChannel id { state.channels id with receives := receives }) = some next) :
      Effect state (.notify id datagram) next
  | fail {id : ChannelId} {error : ErrorCode} {reader : Nat} {receives : List Nat} {next : State}
      (received : (state.channels id).receives = reader :: receives)
      (completed : completeReceive reader (.error error)
        (state.setChannel id { state.channels id with receives := receives }) = some next) :
      Effect state (.fail id error) next
  | finish {operation : Nat} {entry : Operation} {result : Expected Answer}
      (present : state.operations operation = some entry)
      (phase : entry.phase = .returning result) :
      Effect state (.finish operation) (state.setPhase operation (.finished result))
  | stop {next : State} (isOpen : state.shared.guard.socket.isOpen = true)
      (aborted : state.shared.receives.foldlM
        (fun state operation => completeReceive operation (.error operationAborted) state)
        (state.setChannel .shared { guard := state.shared.guard.stop }).abortSends = some next) :
      Effect state .stop next
  | stopClosed (closed : state.shared.guard.socket.isOpen = false) : Effect state .stop state

theorem step_effect {label : Label} (taken : step state label = some next) :
    Effect state label next := by
  cases label with
  | issue operation request =>
      simp only [step] at taken
      split at taken
      next => cases taken
      next fresh =>
        cases taken
        exact .issue fresh request
  | tick elapsed =>
      cases taken
      exact .tick elapsed
  | expire =>
      obtain ⟨due, opened⟩ := Option.ite_none_right_eq_some.mp taken
      cases opened
      exact .expire due
  | failWait operation error =>
      simp only [step] at taken
      split at taken
      next request sequence buffer present =>
        obtain ⟨failed, moved⟩ := Option.ite_none_left_eq_some.mp taken
        cases moved
        exact .failWait present rfl failed
      next => cases taken
  | resume operation outcomes stale =>
      simp only [step] at taken
      split at taken
      next request sequence buffer present =>
        rw [implOf_eq] at taken
        cases taken
        exact .resume present rfl outcomes stale
      next => cases taken
  | send operation =>
      simp only [step] at taken
      split at taken
      next request sequence buffer present =>
        obtain ⟨isOpen, sent⟩ := Option.ite_none_right_eq_some.mp taken
        cases sent
        exact .send present rfl rfl isOpen
      next => cases taken
  | failSend operation error =>
      simp only [step] at taken
      split at taken
      next request sequence buffer present =>
        cases taken
        exact .failSend present rfl error
      next => cases taken
  | postReceive operation =>
      simp only [step] at taken
      split at taken
      next request sequence buffer completions present =>
        split_ifs at taken with isOpen
        · cases taken
          exact .postReceive present rfl rfl isOpen
        · cases taken
          exact .badDescriptor present rfl (Bool.eq_false_of_not_eq_true isOpen)
      next => cases taken
  | reply id messages last =>
      simp only [step] at taken
      split at taken
      next reader receives owner requests received requested =>
        obtain ⟨⟨answers, single⟩, completed⟩ := Option.ite_none_right_eq_some.mp taken
        exact .reply received requested answers single completed
      next => cases taken
  | notify id datagram =>
      simp only [step] at taken
      split at taken
      next reader receives received => exact .notify received taken
      next => cases taken
  | fail id error =>
      simp only [step] at taken
      split at taken
      next reader receives received => exact .fail received taken
      next => cases taken
  | finish operation =>
      simp only [step] at taken
      split at taken
      next request sequence buffer result present =>
        cases taken
        exact .finish present rfl
      next => cases taken
  | stop =>
      simp only [step, stop] at taken
      split_ifs at taken with isOpen
      · exact .stop isOpen taken
      · cases taken
        exact .stopClosed (Bool.eq_false_of_not_eq_true isOpen)

/-- What a step may do to an operation. -/
inductive Moves (state : State) (operation : Nat) :
    Label → Option Operation → Option Operation → Prop where
  | stay {label : Label} (spares : label.Spares state operation) (entry : Option Operation) :
      Moves state operation label entry entry
  | issue (request : Request) :
      Moves state operation (.issue operation request) none (some { request := request })
  | wake {label : Label} (opens : label.OpensGate) {entry : Operation}
      (phase : entry.phase = .waiting) :
      Moves state operation label (some entry) (some { entry with phase := .woken })
  | failWait {error : ErrorCode} {entry : Operation} (phase : entry.phase = .waiting)
      (failed : error ≠ operationAborted) :
      Moves state operation (.failWait operation error) (some entry)
        (some { entry with phase := .threw "gate wait failed" error })
  | refuse {outcomes : Outcomes} {stale : Bytes} {entry : Operation} {error : ErrorCode}
      (phase : entry.phase = .woken)
      (result : ((state.guardOf operation entry).ensureOpen outcomes).2 = .unexpected error) :
      Moves state operation (.resume operation outcomes stale) (some entry)
        (some { entry with phase := .finished (.unexpected error) })
  | throw {outcomes : Outcomes} {stale : Bytes} {entry : Operation} {action : String}
      {error : ErrorCode} (phase : entry.phase = .woken)
      (result : ((state.guardOf operation entry).ensureOpen outcomes).2 = .thrown action error) :
      Moves state operation (.resume operation outcomes stale) (some entry)
        (some { entry with phase := .threw action error })
  | start {outcomes : Outcomes} {stale : Bytes} {entry : Operation} (phase : entry.phase = .woken)
      (result : ((state.guardOf operation entry).ensureOpen outcomes).2 = .value) :
      Moves state operation (.resume operation outcomes stale) (some entry)
        (some { entry with
          sequence := some state.sequence
          buffer := freshBuffer stale
          phase := .sending })
  | send {entry : Operation} (phase : entry.phase = .sending)
      (isOpen : (state.guardOf operation entry).socket.isOpen = true) :
      Moves state operation (.send operation) (some entry)
        (some { entry with phase := .ready [] })
  | failSend {error : ErrorCode} {entry : Operation} (phase : entry.phase = .sending) :
      Moves state operation (.failSend operation error) (some entry)
        (some { entry with phase := .returning (.unexpected error) })
  | postReceive {entry : Operation} {completions : List (Except ErrorCode Bytes)}
      (phase : entry.phase = .ready completions)
      (isOpen : (state.guardOf operation entry).socket.isOpen = true) :
      Moves state operation (.postReceive operation) (some entry)
        (some { entry with phase := .receiving completions })
  | badDescriptor {entry : Operation} {completions : List (Except ErrorCode Bytes)}
      (phase : entry.phase = .ready completions)
      (closed : (state.guardOf operation entry).socket.isOpen = false) :
      Moves state operation (.postReceive operation) (some entry)
        (some { entry with phase := .returning (.unexpected badDescriptor) })
  | wait {label : Label} {completion : Except ErrorCode Bytes} {entry : Operation}
      {completions : List (Except ErrorCode Bytes)} {sequence : Nat}
      (completes : label.Completes state operation completion)
      (phase : entry.phase = .receiving completions) (drawn : entry.sequence = some sequence)
      (outcome : entry.request.readLoop sequence entry.buffer (completions ++ [completion]) =
        .waiting ()) :
      Moves state operation label (some entry)
        (some { entry with phase := .ready (completions ++ [completion]) })
  | result {label : Label} {completion : Except ErrorCode Bytes} {entry : Operation}
      {completions : List (Except ErrorCode Bytes)} {sequence : Nat} {result : Expected Answer}
      (completes : label.Completes state operation completion)
      (phase : entry.phase = .receiving completions) (drawn : entry.sequence = some sequence)
      (outcome : entry.request.readLoop sequence entry.buffer (completions ++ [completion]) =
        .returned result) :
      Moves state operation label (some entry) (some { entry with phase := .returning result })
  | abortSend {entry : Operation} (isOpen : state.shared.guard.socket.isOpen = true)
      (phase : entry.phase = .sending) (shares : entry.request.channel operation = .shared) :
      Moves state operation .stop (some entry)
        (some { entry with phase := .returning (.unexpected operationAborted) })
  | finish {entry : Operation} {result : Expected Answer}
      (phase : entry.phase = .returning result) :
      Moves state operation (.finish operation) (some entry)
        (some { entry with phase := .finished result })

theorem openGate_of_ne (elsewhere : ∀ entry ∈ state.operations operation, entry.phase ≠ .waiting) :
    state.openGate.operations operation = state.operations operation := by
  unfold State.openGate
  cases present : state.operations operation with
  | none => simp [present]
  | some entry =>
      rcases entry with ⟨request, sequence, buffer, phase⟩
      cases phase with
      | waiting => exact absurd rfl (elsewhere _ present)
      | _ => simp [present]

theorem openGate_of_waiting {entry : Operation}
    (present : state.operations operation = some entry) (phase : entry.phase = .waiting) :
    state.openGate.operations operation = some { entry with phase := .woken } := by
  simp [State.openGate, present, phase]

theorem moves_openGate {label : Label} (opens : label.OpensGate)
    (spares : (∀ entry ∈ state.operations operation, entry.phase ≠ .waiting) →
      label.Spares state operation) :
    Moves state operation label (state.operations operation)
      (state.openGate.operations operation) := by
  by_cases waits : ∃ entry ∈ state.operations operation, entry.phase = .waiting
  · obtain ⟨entry, present, phase⟩ := waits
    rw [openGate_of_waiting present phase, present]
    exact .wake opens phase
  · have elsewhere : ∀ entry ∈ state.operations operation, entry.phase ≠ .waiting :=
      fun entry present phase => waits ⟨entry, present, phase⟩
    rw [openGate_of_ne elsewhere]
    exact .stay (spares elsewhere) _

theorem moves_setPhase {label : Label} {actor : Nat} {phase : Phase} {entry : Operation}
    {middle : State} (untouched : middle.operations = state.operations)
    (present : state.operations actor = some entry)
    (moves : Moves state actor label (some entry) (some { entry with phase := phase }))
    (operation : Nat) (spares : operation ≠ actor → label.Spares state operation) :
    Moves state operation label (state.operations operation)
      ((middle.setPhase actor phase).operations operation) := by
  by_cases same : operation = actor
  · subst same
    rw [← untouched] at present
    rwa [setPhase_self present, ← untouched, present]
  · rw [setPhase_of_ne same, untouched]
    exact .stay (spares same) _

theorem moves_openSocket {woken : Nat} {entry : Operation} (outcomes : Outcomes) (stale : Bytes)
    (present : state.operations woken = some entry) (phase : entry.phase = .woken)
    (operation : Nat) :
    Moves state operation (.resume woken outcomes stale) (state.operations operation)
      ((openSocket woken entry outcomes stale state).operations operation) := by
  unfold openSocket
  simp only []
  rcases called : (state.channels (entry.request.channel woken)).guard.ensureOpen outcomes with
    ⟨guard, result⟩
  have given : ((state.guardOf woken entry).ensureOpen outcomes).2 = result := by
    rw [State.guardOf, called]
  cases result with
  | unexpected error => exact moves_setPhase rfl present (.refuse phase given) operation id
  | thrown action error => exact moves_setPhase rfl present (.throw phase given) operation id
  | value =>
      by_cases same : operation = woken
      · subst same
        simpa [present] using Moves.start phase given
      · have spares : Label.Spares state operation (.resume woken outcomes stale) := same
        simpa [same] using Moves.stay spares (state.operations operation)

theorem completeReceive_eq_some {reader : Nat} {completion : Except ErrorCode Bytes}
    (completed : completeReceive reader completion state = some next) :
    ∃ phase entry completions, state.operations reader = some entry ∧
      entry.phase = .receiving completions ∧ (∀ later, phase ≠ .receiving later) ∧
      next = state.setPhase reader phase := by
  unfold completeReceive at completed
  split at completed
  next request sequence buffer completions receiving =>
    split at completed
    next result outcome =>
      cases completed
      exact ⟨_, _, _, receiving, rfl, by simp, rfl⟩
    next waiting outcome =>
      cases completed
      exact ⟨_, _, _, receiving, rfl, by simp, rfl⟩
    next => cases completed
  next => cases completed

theorem moves_reader {label : Label} {reader : Nat} {middle : State}
    {completion : Except ErrorCode Bytes} (completes : label.Completes state reader completion)
    (completed : completeReceive reader completion middle = some next) :
    Moves state reader label (middle.operations reader) (next.operations reader) := by
  unfold completeReceive at completed
  split at completed
  next request sequence buffer completions receiving =>
    rw [receiving]
    split at completed
    next result outcome =>
      cases completed
      rw [setPhase_self receiving]
      exact .result completes rfl rfl outcome
    next waiting outcome =>
      cases completed
      rw [setPhase_self receiving]
      exact .wait completes rfl rfl outcome
    next => cases completed
  next => cases completed

theorem moves_completeReceive {label : Label} {reader : Nat} {middle : State}
    {completion : Except ErrorCode Bytes} (untouched : middle.operations = state.operations)
    (completes : label.Completes state reader completion)
    (completed : completeReceive reader completion middle = some next) (operation : Nat)
    (spares : operation ≠ reader → label.Spares state operation) :
    Moves state operation label (state.operations operation) (next.operations operation) := by
  by_cases same : operation = reader
  · subst same
    rw [← untouched]
    exact moves_reader completes completed
  · obtain ⟨phase, entry, completions, present, receiving, -, rfl⟩ :=
      completeReceive_eq_some completed
    rw [setPhase_of_ne same, untouched]
    exact .stay (spares same) _

theorem head_ne_of_cons {queue rest : List Nat} {reader : Nat} (received : queue = reader :: rest)
    (different : operation ≠ reader) : queue.head? ≠ some operation := by
  rw [received, List.head?_cons]
  exact fun same => different (Option.some.inj same).symm

theorem abortReceives_of_not_receiving {receives : List Nat}
    (aborted : receives.foldlM (fun state operation =>
      completeReceive operation (.error operationAborted) state) state = some next)
    (elsewhere : ∀ entry completions, state.operations operation = some entry →
      entry.phase ≠ .receiving completions) :
    next.operations operation = state.operations operation := by
  induction receives generalizing state with
  | nil =>
      cases aborted
      rfl
  | cons reader receives inductionHypothesis =>
      obtain ⟨middle, completed, rest⟩ := Option.bind_eq_some_iff.mp aborted
      obtain ⟨phase, entry, completions, present, receiving, -, rfl⟩ :=
        completeReceive_eq_some completed
      have different : operation ≠ reader := by
        rintro rfl
        exact elsewhere entry completions present receiving
      rw [inductionHypothesis rest, setPhase_of_ne different]
      rwa [setPhase_of_ne different]

theorem moves_abortReceives {receives : List Nat} {middle : State}
    (isOpen : state.shared.guard.socket.isOpen = true)
    (inside : ∀ reader ∈ receives, reader ∈ state.shared.receives)
    (aborted : receives.foldlM (fun state operation =>
      completeReceive operation (.error operationAborted) state) middle = some next)
    (receiving : operation ∈ receives) :
    Moves state operation .stop (middle.operations operation) (next.operations operation) := by
  induction receives generalizing middle with
  | nil => cases receiving
  | cons reader receives inductionHypothesis =>
      obtain ⟨aside, completed, rest⟩ := Option.bind_eq_some_iff.mp aborted
      by_cases same : operation = reader
      · subst same
        have completes : Label.Completes state operation (.error operationAborted) .stop :=
          ⟨isOpen, inside operation List.mem_cons_self, rfl⟩
        have moves := moves_reader completes completed
        obtain ⟨phase, entry, completions, present, received, elsewhere, rfl⟩ :=
          completeReceive_eq_some completed
        rwa [abortReceives_of_not_receiving rest]
        intro later completions found same
        rw [setPhase_self present] at found
        cases found
        exact elsewhere completions same
      · have later := inductionHypothesis
          (fun other member => inside other (List.mem_cons_of_mem _ member)) rest
          ((List.mem_cons.mp receiving).resolve_left same)
        obtain ⟨phase, entry, completions, present, received, -, rfl⟩ :=
          completeReceive_eq_some completed
        rwa [setPhase_of_ne same] at later

theorem abortReceives_of_notMem {receives : List Nat}
    (aborted : receives.foldlM (fun state operation =>
      completeReceive operation (.error operationAborted) state) state = some next)
    (outside : operation ∉ receives) : next.operations operation = state.operations operation := by
  induction receives generalizing state with
  | nil =>
      cases aborted
      rfl
  | cons reader receives inductionHypothesis =>
      obtain ⟨middle, completed, rest⟩ := Option.bind_eq_some_iff.mp aborted
      obtain ⟨different, later⟩ := not_or.mp (List.mem_cons.not.mp outside)
      obtain ⟨phase, entry, completions, present, received, -, rfl⟩ :=
        completeReceive_eq_some completed
      rw [inductionHypothesis rest later, setPhase_of_ne different]

theorem abortSends_of_ne (elsewhere : ∀ entry ∈ state.operations operation,
      entry.phase = .sending → entry.request.channel operation ≠ .shared) :
    state.abortSends.operations operation = state.operations operation := by
  unfold State.abortSends
  cases present : state.operations operation with
  | none => simp [present]
  | some entry =>
      rcases entry with ⟨request, sequence, buffer, phase⟩
      cases phase with
      | sending =>
          have own : request.channel operation ≠ .shared := elsewhere _ present rfl
          simp [present, own]
      | _ => simp [present]

theorem abortSends_of_sending {entry : Operation}
    (present : state.operations operation = some entry) (sending : entry.phase = .sending)
    (shares : entry.request.channel operation = .shared) :
    state.abortSends.operations operation =
      some { entry with phase := .returning (.unexpected operationAborted) } := by
  simp [State.abortSends, present, sending, shares]

theorem moves_stop (isOpen : state.shared.guard.socket.isOpen = true)
    (aborted : state.shared.receives.foldlM
      (fun state operation => completeReceive operation (.error operationAborted) state)
      (state.setChannel .shared { guard := state.shared.guard.stop }).abortSends = some next)
    (operation : Nat) :
    Moves state operation .stop (state.operations operation) (next.operations operation) := by
  generalize cleared : state.setChannel .shared { guard := state.shared.guard.stop } = middle
    at aborted
  have untouched : middle.operations = state.operations := by
    rw [← cleared, setChannel_operations]
  by_cases sends : ∃ entry ∈ state.operations operation,
      entry.phase = .sending ∧ entry.request.channel operation = .shared
  · obtain ⟨entry, present, sending, shares⟩ := sends
    rw [← untouched] at present
    have returned := abortSends_of_sending present sending shares
    rw [abortReceives_of_not_receiving aborted, returned, ← untouched, present]
    · exact .abortSend isOpen sending shares
    · intro later completions found
      rw [returned] at found
      cases found
      simp
  · have elsewhere : ∀ entry ∈ state.operations operation,
        entry.phase = .sending → entry.request.channel operation ≠ .shared :=
      fun entry present sending shares => sends ⟨entry, present, sending, shares⟩
    have kept : middle.abortSends.operations operation = state.operations operation := by
      rw [abortSends_of_ne (by rwa [untouched]), untouched]
    by_cases receiving : operation ∈ state.shared.receives
    · rw [← kept]
      exact moves_abortReceives isOpen (fun reader member => member) aborted receiving
    · rw [abortReceives_of_notMem aborted receiving, kept]
      refine .stay ?_ _
      exact fun _ => ⟨receiving, elsewhere⟩

/-- Every step does to an operation what its label may do. -/
theorem step_moves {label : Label} (taken : step state label = some next) (operation : Nat) :
    Moves state operation label (state.operations operation) (next.operations operation) := by
  cases step_effect taken with
  | @issue issued fresh request =>
      by_cases same : operation = issued
      · subst same
        simpa [fresh] using Moves.issue request
      · have opens : Label.OpensGate (.issue issued request) := trivial
        have opened := @moves_openGate state operation _ opens fun _ => same
        simpa [same, acquireSocketToken] using opened
  | tick elapsed =>
      have spares : Label.Spares state operation (.tick elapsed) := trivial
      exact .stay spares _
  | expire due =>
      have opens : Label.OpensGate .expire := trivial
      exact moves_openGate opens id
  | failWait present phase failed =>
      exact moves_setPhase rfl present (.failWait phase failed) operation id
  | resume present phase outcomes stale =>
      exact moves_openSocket outcomes stale present phase operation
  | send present phase uses isOpen =>
      subst uses
      exact moves_setPhase rfl present (.send phase isOpen) operation id
  | failSend present phase error =>
      exact moves_setPhase rfl present (.failSend phase) operation id
  | postReceive present phase uses isOpen =>
      subst uses
      exact moves_setPhase rfl present (.postReceive phase isOpen) operation id
  | badDescriptor present phase closed =>
      exact moves_setPhase rfl present (.badDescriptor phase closed) operation id
  | @reply id messages last reader _ _ _ _ received requested answers single completed =>
      have completes : Label.Completes state reader (.ok (Records.Format.encode messages))
          (.reply id messages last) := ⟨by rw [received]; rfl, rfl⟩
      exact moves_completeReceive (setChannel_operations _ _ _) completes completed operation
        (head_ne_of_cons received)
  | @notify id datagram reader _ _ received completed =>
      have completes : Label.Completes state reader (.ok datagram) (.notify id datagram) :=
        ⟨by rw [received]; rfl, rfl⟩
      exact moves_completeReceive (setChannel_operations _ _ _) completes completed operation
        (head_ne_of_cons received)
  | @fail id error reader _ _ received completed =>
      have completes : Label.Completes state reader (.error error) (.fail id error) :=
        ⟨by rw [received]; rfl, rfl⟩
      exact moves_completeReceive (setChannel_operations _ _ _) completes completed operation
        (head_ne_of_cons received)
  | finish present phase => exact moves_setPhase rfl present (.finish phase) operation id
  | stop isOpen aborted => exact moves_stop isOpen aborted operation
  | stopClosed closed =>
      refine .stay ?_ _
      intro isOpen
      rw [closed] at isOpen
      cases isOpen

theorem not_completes_of_spares {label : Label} {completion : Except ErrorCode Bytes}
    (spares : label.Spares state operation) : ¬ label.Completes state operation completion := by
  intro completes
  cases label with
  | reply id messages last => exact spares completes.1
  | notify id datagram => exact spares completes.1
  | fail id error => exact spares completes.1
  | stop => exact (spares completes.1).1 completes.2.1
  | _ => exact completes.elim

/-- A label that spares an operation leaves it as it is, unless the operation waits at the gate. -/
theorem kept_of_spares {label : Label} {entry : Operation} (taken : step state label = some next)
    (spares : label.Spares state operation) (present : state.operations operation = some entry)
    (passed : entry.phase ≠ .waiting) : next.operations operation = some entry := by
  have moves := step_moves taken operation
  rw [present] at moves
  generalize next.operations operation = later at moves
  cases moves with
  | stay => rfl
  | wake opens phase => exact absurd phase passed
  | wait completes => exact absurd completes (not_completes_of_spares spares)
  | result completes => exact absurd completes (not_completes_of_spares spares)
  | abortSend isOpen phase shares => exact absurd shares ((spares isOpen).2 _ present phase)
  | _ => exact absurd rfl spares

section Enabled

variable {entry : Operation}

theorem step_failWait {error : ErrorCode}
    (present : state.operations operation = some entry) (phase : entry.phase = .waiting)
    (failed : error ≠ operationAborted) :
    step state (.failWait operation error) =
      some (state.setPhase operation (.threw "gate wait failed" error)) := by
  rcases entry with ⟨request, sequence, buffer, _⟩
  cases phase
  simp [step, present, failed]

theorem step_resume (outcomes : Outcomes) (stale : Bytes)
    (present : state.operations operation = some entry) (phase : entry.phase = .woken) :
    step state (.resume operation outcomes stale) =
      some (openSocket operation entry outcomes stale state) := by
  rcases entry with ⟨request, sequence, buffer, _⟩
  cases phase
  simp [step, present]

theorem step_send (present : state.operations operation = some entry)
    (phase : entry.phase = .sending)
    (isOpen : (state.guardOf operation entry).socket.isOpen = true) :
    ∃ next, step state (.send operation) = some next := by
  rcases entry with ⟨request, sequence, buffer, _⟩
  cases phase
  simp only [State.guardOf] at isOpen
  simp [step, present, isOpen]

theorem step_postReceive {completions : List (Except ErrorCode Bytes)}
    (present : state.operations operation = some entry) (phase : entry.phase = .ready completions)
    (isOpen : (state.guardOf operation entry).socket.isOpen = true) :
    ∃ next, step state (.postReceive operation) = some next := by
  rcases entry with ⟨request, sequence, buffer, _⟩
  cases phase
  simp only [State.guardOf] at isOpen
  simp [step, present, isOpen]

theorem step_finish {result : Expected Answer} (present : state.operations operation = some entry)
    (phase : entry.phase = .returning result) :
    ∃ next, step state (.finish operation) = some next := by
  rcases entry with ⟨request, sequence, buffer, _⟩
  cases phase
  simp [step, present]

theorem step_issue (fresh : state.operations operation = none) (request : Request) :
    ∃ next, step state (.issue operation request) = some next := by
  simp [step, fresh]

/-- The time passes until the gate expires. -/
def State.opening (state : State) : List Label :=
  [.tick (state.gate - state.now).toNat, .expire]

def State.opened (state : State) : State :=
  ({ state with now := state.now + (state.gate - state.now).toNat } : State).openGate

theorem run_opening (state : State) :
    Machine.run step state state.opening = some state.opened := by
  have opens : state.gate ≤ state.now + (state.gate - state.now).toNat := by
    have reached := Int.self_le_toNat (state.gate - state.now)
    omega
  refine Machine.run_cons_eq_some.mpr ⟨_, rfl, ?_⟩
  refine Machine.run_cons_eq_some.mpr ⟨_, ?_, rfl⟩
  simp only [step, if_pos opens]
  rfl

theorem opened_operations (state : State) :
    state.opened.operations = state.openGate.operations := rfl

end Enabled

theorem moves_of_receiving {label : Label} {entry : Operation} {after : Option Operation}
    {completions : List (Except ErrorCode Bytes)}
    (moves : Moves state operation label (some entry) after)
    (receiving : entry.phase = .receiving completions) :
    label.Spares state operation ∧ after = some entry ∨
      ∃ completion, label.Completes state operation completion ∧
        ∃ sequence, entry.sequence = some sequence ∧
          (entry.request.readLoop sequence entry.buffer (completions ++ [completion]) =
              .waiting () ∧
            after = some { entry with phase := .ready (completions ++ [completion]) } ∨
          ∃ result, entry.request.readLoop sequence entry.buffer (completions ++ [completion]) =
              .returned result ∧
            after = some { entry with phase := .returning result }) := by
  rcases entry with ⟨request, number, buffer, phase⟩
  cases receiving
  cases moves with
  | stay spares => exact .inl ⟨spares, rfl⟩
  | wait completes phase drawn outcome =>
      cases phase
      exact .inr ⟨_, completes, _, drawn, .inl ⟨outcome, rfl⟩⟩
  | result completes phase drawn outcome =>
      cases phase
      exact .inr ⟨_, completes, _, drawn, .inr ⟨_, outcome, rfl⟩⟩
  | _ => contradiction

/-- What a step may do to a channel. -/
inductive Rewires (state : State) (id : ChannelId) : Label → Channel → Channel → Prop where
  | keep {label : Label} (keeps : label.Keeps state id) (channel : Channel) :
      Rewires state id label channel channel
  | resume {operation : Nat} {outcomes : Outcomes} {stale : Bytes} {entry : Operation}
      {channel : Channel} (present : state.operations operation = some entry)
      (phase : entry.phase = .woken) (uses : entry.request.channel operation = id) :
      Rewires state id (.resume operation outcomes stale) channel
        { channel with guard := (channel.guard.ensureOpen outcomes).1 }
  | send {operation : Nat} {entry : Operation} {channel : Channel}
      (present : state.operations operation = some entry) (phase : entry.phase = .sending)
      (uses : entry.request.channel operation = id)
      (isOpen : channel.guard.socket.isOpen = true) :
      Rewires state id (.send operation) channel
        { channel with requests := channel.requests ++ [operation] }
  | postReceive {operation : Nat} {entry : Operation} {channel : Channel}
      {completions : List (Except ErrorCode Bytes)}
      (present : state.operations operation = some entry)
      (phase : entry.phase = .ready completions) (uses : entry.request.channel operation = id)
      (isOpen : channel.guard.socket.isOpen = true) :
      Rewires state id (.postReceive operation) channel
        { channel with receives := channel.receives ++ [operation] }
  | reply {messages : List Message} {last : Bool} {channel : Channel} {reader owner : Nat}
      {receives requests : List Nat} (received : channel.receives = reader :: receives)
      (requested : channel.requests = owner :: requests) (answers : state.Answers owner messages)
      (single : id = .shared → last = true) :
      Rewires state id (.reply id messages last) channel
        { channel with
          receives := receives
          requests := if last then requests else owner :: requests }
  | notify {datagram : Bytes} {channel : Channel} {reader : Nat} {receives : List Nat}
      (received : channel.receives = reader :: receives) :
      Rewires state id (.notify id datagram) channel { channel with receives := receives }
  | fail {error : ErrorCode} {channel : Channel} {reader : Nat} {receives : List Nat}
      (received : channel.receives = reader :: receives) :
      Rewires state id (.fail id error) channel { channel with receives := receives }
  | stop {channel : Channel} (shared : id = .shared)
      (isOpen : channel.guard.socket.isOpen = true) :
      Rewires state id .stop channel { guard := channel.guard.stop }

theorem rewires_update {label : Label} {id other : ChannelId} {channel : Channel}
    (rewires : id = other → Rewires state id label (state.channels other) channel)
    (keeps : id ≠ other → label.Keeps state id) :
    Rewires state id label (state.channels id)
      (Function.update state.channels other channel id) := by
  by_cases same : id = other
  · subst same
    rw [Function.update_self]
    exact rewires rfl
  · rw [Function.update_of_ne same]
    exact .keep (keeps same) _

theorem openSocket_channels (operation : Nat) (entry : Operation) (outcomes : Outcomes)
    (stale : Bytes) (state : State) :
    (openSocket operation entry outcomes stale state).channels =
      Function.update state.channels (entry.request.channel operation)
        { state.channels (entry.request.channel operation) with
          guard := ((state.channels (entry.request.channel operation)).guard.ensureOpen
            outcomes).1 } := by
  unfold openSocket
  simp only []
  rcases (state.channels (entry.request.channel operation)).guard.ensureOpen outcomes with
    ⟨guard, result⟩
  cases result <;> rfl

theorem step_rewires {label : Label} (taken : step state label = some next) (id : ChannelId) :
    Rewires state id label (state.channels id) (next.channels id) := by
  cases step_effect taken with
  | @issue operation fresh request =>
      have keeps : Label.Keeps state id (.issue operation request) := trivial
      exact .keep keeps _
  | tick elapsed =>
      have keeps : Label.Keeps state id (.tick elapsed) := trivial
      exact .keep keeps _
  | expire due =>
      have keeps : Label.Keeps state id .expire := trivial
      exact .keep keeps _
  | @failWait operation error _ present phase failed =>
      have keeps : Label.Keeps state id (.failWait operation error) := trivial
      exact .keep keeps _
  | resume present phase outcomes stale =>
      rw [openSocket_channels]
      refine rewires_update (fun same => .resume present phase same.symm) ?_
      rintro different entry member
      rw [present] at member
      cases member
      exact different
  | send present phase uses isOpen =>
      subst uses
      refine rewires_update (fun same => .send present phase same.symm isOpen) ?_
      rintro different entry member
      rw [present] at member
      cases member
      exact different
  | @failSend operation _ present phase error =>
      have keeps : Label.Keeps state id (.failSend operation error) := trivial
      exact .keep keeps _
  | postReceive present phase uses isOpen =>
      subst uses
      refine rewires_update (fun same => .postReceive present phase same.symm isOpen) ?_
      rintro different entry member same
      rw [present] at member
      cases member
      exact absurd same different
  | badDescriptor present phase closed =>
      refine .keep ?_ _
      rintro entry member same
      rw [present] at member
      cases member
      rw [same]
      exact closed
  | reply received requested answers single completed =>
      rw [completeReceive_channels completed]
      refine rewires_update ?_ fun different => different
      rintro rfl
      exact .reply received requested answers single
  | notify received completed =>
      rw [completeReceive_channels completed]
      refine rewires_update ?_ fun different => different
      rintro rfl
      exact .notify received
  | fail received completed =>
      rw [completeReceive_channels completed]
      refine rewires_update ?_ fun different => different
      rintro rfl
      exact .fail received
  | @finish operation _ result present phase =>
      have keeps : Label.Keeps state id (.finish operation) := trivial
      exact .keep keeps _
  | stop isOpen aborted =>
      rw [abortReceives_channels aborted, abortSends_channels]
      refine rewires_update (fun same => .stop same isOpen) ?_
      exact fun different same => absurd same different
  | stopClosed closed =>
      refine .keep ?_ _
      exact fun _ => closed

end Rtaco.Control
