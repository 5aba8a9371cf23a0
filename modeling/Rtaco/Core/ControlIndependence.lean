import Rtaco.Core.ControlSequences

/-!
# Dumps that run side by side

The dumps of a `Control` share the gate and the counter. What a dump does in a run is what it
does alone when its own steps are taken in the same order, with time passing in between.
-/

namespace Rtaco.Control

open Netlink

variable {state alone next : State} {operation : Nat}

/-- The label is a step of the operation or an event on the socket of its own. -/
def Label.owned (operation : Nat) : Label → Bool
  | .issue issued _ => issued = operation
  | .failWait waiting _ => waiting = operation
  | .resume woken _ _ => woken = operation
  | .send sender => sender = operation
  | .failSend sender _ => sender = operation
  | .postReceive reader => reader = operation
  | .finish finisher => finisher = operation
  | .reply id _ _ => id = .own operation
  | .notify id _ => id = .own operation
  | .fail id _ => id = .own operation
  | _ => false

/-- The label is about the gate only. -/
def Label.Clock : Label → Prop
  | .tick _ => True
  | .expire => True
  | _ => False

/-- What an operation and its own socket are like in a state. -/
def State.view (operation : Nat) (state : State) : Option Operation × Channel :=
  (state.operations operation, state.channels (.own operation))

/-- The second state has the operation as in the first one, and no other operation. -/
structure Mirrors (operation : Nat) (state alone : State) : Prop where
  view : alone.view operation = state.view operation
  only : ∀ other, other ≠ operation → alone.operations other = none

/-- If the operation was issued, it is a dump. -/
def State.Dumps (state : State) (operation : Nat) : Prop :=
  ∀ entry ∈ state.operations operation, ∃ kind, entry.request = .dump kind

theorem channel_eq_own {request : Request} {other : Nat}
    (uses : request.channel other = .own operation) : other = operation := by
  cases request with
  | dump kind =>
      cases uses
      rfl
  | _ => cases uses

theorem channel_of_dumps (dumps : state.Dumps operation) {entry : Operation}
    (present : state.operations operation = some entry) :
    entry.request.channel operation = .own operation := by
  obtain ⟨kind, dump⟩ := dumps entry present
  rw [dump]
  rfl

section Foreign

variable {label : Label} (foreign : label.owned operation = false)

include foreign

theorem channel_of_foreign (taken : step state label = some next) :
    next.channels (.own operation) = state.channels (.own operation) := by
  have rewires := step_rewires taken (.own operation)
  generalize state.channels (.own operation) = before at rewires ⊢
  generalize next.channels (.own operation) = after at rewires ⊢
  cases rewires with
  | keep keeps => rfl
  | resume present phase uses =>
      obtain rfl := channel_eq_own uses
      simp [Label.owned] at foreign
  | send present phase uses isOpen =>
      obtain rfl := channel_eq_own uses
      simp [Label.owned] at foreign
  | postReceive present phase uses isOpen =>
      obtain rfl := channel_eq_own uses
      simp [Label.owned] at foreign
  | stop shared isOpen => cases shared
  | _ => simp [Label.owned] at foreign

theorem not_completes_of_foreign (coherent : state.Coherent) (dumps : state.Dumps operation)
    {completion : Except ErrorCode Bytes} : ¬ label.Completes state operation completion := by
  have own : ∀ id, operation ∈ (state.channels id).receives → id = .own operation := by
    intro id member
    obtain ⟨entry, completions, present, phase, uses⟩ := coherent.receives id operation member
    exact uses.symm.trans (channel_of_dumps dumps present)
  intro completes
  cases label with
  | reply id messages last =>
      have same := own id (List.mem_of_mem_head? completes.1)
      simp [Label.owned, same] at foreign
  | notify id datagram =>
      have same := own id (List.mem_of_mem_head? completes.1)
      simp [Label.owned, same] at foreign
  | fail id error =>
      have same := own id (List.mem_of_mem_head? completes.1)
      simp [Label.owned, same] at foreign
  | stop => cases own .shared completes.2.1
  | _ => exact completes.elim

theorem entry_of_foreign (coherent : state.Coherent) (dumps : state.Dumps operation)
    (taken : step state label = some next) :
    next.operations operation = state.operations operation ∨
      ∃ entry, state.operations operation = some entry ∧ entry.phase = .waiting ∧
        next.operations operation = some { entry with phase := .woken } := by
  have moves := step_moves taken operation
  generalize before : state.operations operation = earlier at moves
  generalize next.operations operation = later at moves ⊢
  cases moves with
  | stay spares => exact .inl rfl
  | wake opens phase => exact .inr ⟨_, rfl, phase, rfl⟩
  | wait completes => exact absurd completes (not_completes_of_foreign foreign coherent dumps)
  | result completes => exact absurd completes (not_completes_of_foreign foreign coherent dumps)
  | abortSend isOpen phase shares =>
      rw [channel_of_dumps dumps before] at shares
      cases shares
  | _ => simp [Label.owned] at foreign

end Foreign

theorem operations_of_view (same : alone.view operation = state.view operation) :
    alone.operations operation = state.operations operation := congrArg Prod.fst same

theorem channels_of_view (same : alone.view operation = state.view operation) :
    alone.channels (.own operation) = state.channels (.own operation) := congrArg Prod.snd same

theorem view_setPhase (phase : Phase) (state : State) :
    (state.setPhase operation phase).view operation =
      ((state.view operation).1.map fun entry => { entry with phase := phase },
        (state.view operation).2) := by
  simp [State.view, State.setPhase]

theorem view_setChannel (channel : Channel) (state : State) :
    (state.setChannel (.own operation) channel).view operation =
      ((state.view operation).1, channel) := by
  simp [State.view]

theorem view_completeReceive (completion : Except ErrorCode Bytes)
    (same : alone.view operation = state.view operation) :
    (completeReceive operation completion alone).map (State.view operation) =
      (completeReceive operation completion state).map (State.view operation) := by
  have entry := operations_of_view same
  unfold completeReceive
  rw [entry]
  split
  next request sequence buffer completions receiving =>
    split
    · simp only [Option.map_some, view_setPhase, same]
    · simp only [Option.map_some, view_setPhase, same]
    · rfl
  next => rfl

section Own

variable {label : Label} (same : alone.view operation = state.view operation)

include same

theorem view_issue (request : Request) :
    (step alone (.issue operation request)).map (State.view operation) =
      (step state (.issue operation request)).map (State.view operation) := by
  have entry := operations_of_view same
  have channel := channels_of_view same
  simp only [step]
  rw [entry]
  split
  · rfl
  · simp [State.view, acquireSocketToken, State.openGate, channel]

theorem view_failWait (error : ErrorCode) :
    (step alone (.failWait operation error)).map (State.view operation) =
      (step state (.failWait operation error)).map (State.view operation) := by
  have entry := operations_of_view same
  simp only [step]
  rw [entry]
  split
  · split_ifs with aborted
    · rfl
    · simp only [Option.map_some, view_setPhase, same]
  · rfl

theorem view_failSend (error : ErrorCode) :
    (step alone (.failSend operation error)).map (State.view operation) =
      (step state (.failSend operation error)).map (State.view operation) := by
  have entry := operations_of_view same
  simp only [step]
  rw [entry]
  split
  · simp only [Option.map_some, view_setPhase, same]
  · rfl

theorem view_finish :
    (step alone (.finish operation)).map (State.view operation) =
      (step state (.finish operation)).map (State.view operation) := by
  have entry := operations_of_view same
  simp only [step]
  rw [entry]
  split
  · simp only [Option.map_some, view_setPhase, same]
  · rfl

variable (dumps : state.Dumps operation)

include dumps

theorem view_send :
    (step alone (.send operation)).map (State.view operation) =
      (step state (.send operation)).map (State.view operation) := by
  have entry := operations_of_view same
  have channel := channels_of_view same
  simp only [step]
  rw [entry]
  split
  next request sequence buffer present =>
    have uses : request.channel operation = .own operation := channel_of_dumps dumps present
    rw [uses, channel]
    split_ifs with isOpen
    · simp only [Option.map_some, view_setPhase, view_setChannel, same]
    · rfl
  next => rfl

theorem view_postReceive :
    (step alone (.postReceive operation)).map (State.view operation) =
      (step state (.postReceive operation)).map (State.view operation) := by
  have entry := operations_of_view same
  have channel := channels_of_view same
  simp only [step]
  rw [entry]
  split
  next request sequence buffer completions present =>
    have uses : request.channel operation = .own operation := channel_of_dumps dumps present
    rw [uses, channel]
    split_ifs with isOpen
    · simp only [Option.map_some, view_setPhase, view_setChannel, same]
    · simp only [Option.map_some, view_setPhase, same]
  next => rfl

theorem view_resume (outcomes : Outcomes) (stale : Bytes)
    (numbers : ((state.channels (.own operation)).guard.ensureOpen outcomes).2 = .value →
      alone.sequence = state.sequence) :
    (step alone (.resume operation outcomes stale)).map (State.view operation) =
      (step state (.resume operation outcomes stale)).map (State.view operation) := by
  have entry := operations_of_view same
  have channel := channels_of_view same
  simp only [step]
  rw [entry]
  split
  next request sequence buffer present =>
    have uses : request.channel operation = .own operation := channel_of_dumps dumps present
    simp only [implOf_eq, openSocket, uses, channel]
    rcases called : (state.channels (.own operation)).guard.ensureOpen outcomes with
      ⟨guard, result⟩
    rw [called] at numbers
    cases result with
    | unexpected error => simp only [Option.map_some, view_setPhase, view_setChannel, same]
    | thrown action error => simp only [Option.map_some, view_setPhase, view_setChannel, same]
    | value => simp [State.view, numbers rfl]
  next => rfl

end Own

theorem reader_eq (coherent : state.Coherent) {reader : Nat} {receives : List Nat}
    (received : (state.channels (.own operation)).receives = reader :: receives) :
    reader = operation := by
  obtain ⟨entry, completions, present, phase, uses⟩ := coherent.receives (.own operation) reader
    (by rw [received]; exact List.mem_cons_self)
  exact channel_eq_own uses

theorem owner_eq (coherent : state.Coherent) {owner : Nat} {requests : List Nat}
    (requested : (state.channels (.own operation)).requests = owner :: requests) :
    owner = operation := by
  obtain ⟨entry, present, uses⟩ := coherent.requests (.own operation) owner
    (by rw [requested]; exact List.mem_cons_self)
  exact channel_eq_own uses

section Received

variable (coherent : state.Coherent) (same : alone.view operation = state.view operation)

include coherent same

theorem view_received {label : Label} {completion : Except ErrorCode Bytes}
    (completes : ∀ state : State, step state label =
      match (state.channels (.own operation)).receives with
      | reader :: receives =>
          completeReceive reader completion (state.setChannel (.own operation)
            { state.channels (.own operation) with receives := receives })
      | [] => none) :
    (step alone label).map (State.view operation) =
      (step state label).map (State.view operation) := by
  rw [completes, completes, channels_of_view same]
  split
  next reader receives received =>
    obtain rfl := reader_eq coherent received
    apply view_completeReceive
    rw [view_setChannel, view_setChannel, same]
  next => rfl

theorem view_notify (datagram : Bytes) :
    (step alone (.notify (.own operation) datagram)).map (State.view operation) =
      (step state (.notify (.own operation) datagram)).map (State.view operation) :=
  view_received coherent same fun _ => rfl

theorem view_fail (error : ErrorCode) :
    (step alone (.fail (.own operation) error)).map (State.view operation) =
      (step state (.fail (.own operation) error)).map (State.view operation) :=
  view_received coherent same fun _ => rfl

theorem view_reply (messages : List Message) (last : Bool) :
    (step alone (.reply (.own operation) messages last)).map (State.view operation) =
      (step state (.reply (.own operation) messages last)).map (State.view operation) := by
  have entry := operations_of_view same
  have channel := channels_of_view same
  have answers : alone.Answers operation messages ↔ state.Answers operation messages := by
    simp only [State.Answers, State.sequenceOf, entry]
  simp only [step]
  rw [channel]
  split
  next reader receives owner requests received requested =>
    obtain rfl := reader_eq coherent received
    obtain rfl := owner_eq coherent requested
    have guarded : alone.Answers owner messages ∧ (ChannelId.own owner = .shared → last = true) ↔
        state.Answers owner messages ∧ (ChannelId.own owner = .shared → last = true) :=
      and_congr_left' answers
    by_cases answered : state.Answers owner messages ∧ (ChannelId.own owner = .shared → last = true)
    · rw [if_pos answered, if_pos (guarded.mpr answered)]
      apply view_completeReceive
      rw [view_setChannel, view_setChannel, same]
    · rw [if_neg answered, if_neg (guarded.not.mpr answered)]
  next => rfl

end Received

/-- A step of an operation or on its own socket does the same wherever the operation and its
socket are the same and, where it draws a number, the counter is. -/
theorem view_step {label : Label} (owned : label.owned operation = true)
    (coherent : state.Coherent) (dumps : state.Dumps operation)
    (same : alone.view operation = state.view operation)
    (numbers : ∀ outcomes stale, label = .resume operation outcomes stale →
      ((state.channels (.own operation)).guard.ensureOpen outcomes).2 = .value →
        alone.sequence = state.sequence) :
    (step alone label).map (State.view operation) =
      (step state label).map (State.view operation) := by
  cases label with
  | issue issued request =>
      obtain rfl : issued = operation := by simpa [Label.owned] using owned
      exact view_issue same request
  | failWait waiting error =>
      obtain rfl : waiting = operation := by simpa [Label.owned] using owned
      exact view_failWait same error
  | resume woken outcomes stale =>
      obtain rfl : woken = operation := by simpa [Label.owned] using owned
      exact view_resume same dumps outcomes stale (numbers outcomes stale rfl)
  | send sender =>
      obtain rfl : sender = operation := by simpa [Label.owned] using owned
      exact view_send same dumps
  | failSend sender error =>
      obtain rfl : sender = operation := by simpa [Label.owned] using owned
      exact view_failSend same error
  | postReceive reader =>
      obtain rfl : reader = operation := by simpa [Label.owned] using owned
      exact view_postReceive same dumps
  | finish finisher =>
      obtain rfl : finisher = operation := by simpa [Label.owned] using owned
      exact view_finish same
  | reply id messages last =>
      obtain rfl : id = .own operation := by simpa [Label.owned] using owned
      exact view_reply coherent same messages last
  | notify id datagram =>
      obtain rfl : id = .own operation := by simpa [Label.owned] using owned
      exact view_notify coherent same datagram
  | fail id error =>
      obtain rfl : id = .own operation := by simpa [Label.owned] using owned
      exact view_fail coherent same error
  | _ => cases owned

/-- A run of an operation alone: its own steps are those of a run with others, only time passes
in between, and it leads to the same. -/
structure Alone (now : Int) (start operation : Nat) (labels : List Label) (state : State)
    (schedule : List Label) (alone : State) : Prop where
  reached : Machine.run step { now := now, sequence := start } schedule = some alone
  sameSteps : schedule.filter (Label.owned operation) = labels.filter (Label.owned operation)
  undisturbed : ∀ label ∈ schedule, label.owned operation = false → label.Clock
  mirrors : Mirrors operation state alone

theorem dumps_of_step {label : Label} (taken : step state label = some next)
    (dumps : next.Dumps operation) : state.Dumps operation := by
  intro entry present
  have moves := step_moves taken operation
  rw [present] at moves
  obtain ⟨later, found, same⟩ := exists_entry_of_moves moves
  obtain ⟨kind, dump⟩ := dumps later found
  exact ⟨kind, same.symm.trans dump⟩

theorem sequenceOf_persists {label : Label} {sequence : Nat} (coherent : state.Coherent)
    (taken : step state label = some next) (drawn : state.sequenceOf operation = some sequence) :
    next.sequenceOf operation = some sequence := by
  cases step_draws coherent taken with
  | none counter kept => rw [kept, drawn]
  | one drawer fresh counter number kept =>
      have different : operation ≠ drawer := by
        rintro rfl
        rw [fresh] at drawn
        cases drawn
      rw [kept operation different, drawn]

theorem alone_initial (now : Int) (start operation : Nat) :
    Alone now start operation [] { now := now } [] { now := now, sequence := start } where
  reached := rfl
  sameSteps := rfl
  undisturbed := by simp
  mirrors := ⟨rfl, fun _ _ => rfl⟩

section Extend

variable {now : Int} {start : Nat} {labels schedule : List Label} {label : Label}
  (solo : Alone now start operation labels state schedule alone)

include solo

/-- A step of another operation that changes nothing for this one. -/
theorem Alone.skip (foreign : label.owned operation = false)
    (same : next.view operation = state.view operation) :
    Alone now start operation (labels ++ [label]) next schedule alone where
  reached := solo.reached
  sameSteps := by
    rw [solo.sameSteps, List.filter_append, List.filter_cons_of_neg (by simp [foreign])]
    simp
  undisturbed := solo.undisturbed
  mirrors := ⟨solo.mirrors.view.trans same.symm, solo.mirrors.only⟩

/-- Where another operation wakes this one, alone the time passes until the gate opens. -/
theorem Alone.wake (foreign : label.owned operation = false) {entry : Operation}
    (present : state.operations operation = some entry) (phase : entry.phase = .waiting)
    (woken : next.operations operation = some { entry with phase := .woken })
    (channel : next.channels (.own operation) = state.channels (.own operation)) :
    ∃ later, Alone now start operation (labels ++ [label]) next (schedule ++ alone.opening) later ∧
      later.sequence = alone.sequence := by
  have found : alone.operations operation = some entry :=
    (operations_of_view solo.mirrors.view).trans present
  have own := channels_of_view solo.mirrors.view
  refine ⟨alone.opened, ⟨?_, ?_, ?_, ?_, ?_⟩, rfl⟩
  · rw [Machine.run_append, solo.reached]
    exact run_opening alone
  · rw [List.filter_append, List.filter_append, solo.sameSteps,
      List.filter_cons_of_neg (by simp [foreign])]
    rfl
  · intro other member
    rcases List.mem_append.mp member with earlier | opens
    · exact solo.undisturbed other earlier
    · rcases List.mem_pair.mp opens with rfl | rfl
      · exact fun _ => trivial
      · exact fun _ => trivial
  · refine Prod.ext ?_ ?_
    · exact (openGate_of_waiting found phase).trans woken.symm
    · exact own.trans channel.symm
  · intro other different
    have absent := solo.mirrors.only other different
    rw [opened_operations, openGate_of_ne, absent]
    rw [absent]
    exact fun _ member => nomatch member

theorem Alone.own (owned : label.owned operation = true) (coherent : state.Coherent)
    (dumps : state.Dumps operation)
    (numbers : ∀ outcomes stale, label = .resume operation outcomes stale →
      ((state.channels (.own operation)).guard.ensureOpen outcomes).2 = .value →
        alone.sequence = state.sequence)
    (taken : step state label = some next) :
    ∃ later, Alone now start operation (labels ++ [label]) next (schedule ++ [label]) later ∧
      step alone label = some later := by
  have views := view_step owned coherent dumps solo.mirrors.view numbers
  rw [taken, Option.map_some] at views
  obtain ⟨later, stepped, view⟩ := Option.map_eq_some_iff.mp views
  refine ⟨later, ⟨?_, ?_, ?_, view, ?_⟩, stepped⟩
  · rw [Machine.run_append, solo.reached]
    exact Machine.run_cons_eq_some.mpr ⟨later, stepped, rfl⟩
  · rw [List.filter_append, List.filter_append, solo.sameSteps]
  · intro other member
    rcases List.mem_append.mp member with earlier | last
    · exact solo.undisturbed other earlier
    · rw [List.mem_singleton.mp last, owned]
      exact fun foreign => nomatch foreign
  · intro other different
    have moves := step_moves stepped other
    rw [solo.mirrors.only other different] at moves
    generalize later.operations other = after at moves ⊢
    cases moves with
    | stay spares => rfl
    | issue request =>
        simp only [Label.owned, decide_eq_true_eq] at owned
        exact absurd owned different

end Extend

/-- A dump whose socket opens draws the number the counter stands at. -/
theorem number_of_started {outcomes : Outcomes} {stale : Bytes} (dumps : state.Dumps operation)
    (taken : step state (.resume operation outcomes stale) = some next)
    (opens : ((state.channels (.own operation)).guard.ensureOpen outcomes).2 = .value) :
    next.sequenceOf operation = some state.sequence := by
  have moves := step_moves taken operation
  have guards : ∀ entry, state.operations operation = some entry →
      ((state.guardOf operation entry).ensureOpen outcomes).2 = .value := by
    intro entry present
    rw [State.guardOf, channel_of_dumps dumps present, opens]
  unfold State.sequenceOf
  generalize before : state.operations operation = earlier at moves guards
  generalize next.operations operation = later at moves ⊢
  cases moves with
  | stay spares => exact absurd rfl spares
  | wake gate => exact gate.elim
  | refuse phase result =>
      rw [guards _ rfl] at result
      cases result
  | throw phase result =>
      rw [guards _ rfl] at result
      cases result
  | start phase result => rfl
  | wait completes => exact completes.elim
  | result completes => exact completes.elim

theorem counter_of_alone {label : Label} (coherent : alone.Coherent)
    (taken : step alone label = some next)
    (only : ∀ other, other ≠ operation → next.operations other = none)
    (undrawn : next.sequenceOf operation = none) : next.sequence = alone.sequence := by
  cases step_draws coherent taken with
  | none counter kept => exact counter
  | one drawer fresh counter drawn kept =>
      by_cases same : drawer = operation
      · subst same
        rw [drawn] at undrawn
        cases undrawn
      · rw [State.sequenceOf, only drawer same] at drawn
        cases drawn

theorem sequenceOf_of_view (same : alone.view operation = state.view operation) :
    alone.sequenceOf operation = state.sequenceOf operation := by
  have entry := operations_of_view same
  rw [State.sequenceOf, State.sequenceOf, entry]

/-- Whatever else a run does, a dump in it does what it does alone. -/
theorem exists_alone (now : Int) {labels : List Label} {state : State}
    (reached : Machine.run step { now := now } labels = some state)
    (dumps : state.Dumps operation) (start : Nat)
    (number : ∀ sequence, state.sequenceOf operation = some sequence → sequence = start) :
    ∃ schedule alone, Alone now start operation labels state schedule alone ∧
      (state.sequenceOf operation = none → alone.sequence = start) := by
  induction labels using List.reverseRecOn generalizing state with
  | nil =>
      cases reached
      exact ⟨[], _, alone_initial now start operation, fun _ => rfl⟩
  | append_singleton labels label inductionHypothesis =>
      rw [Machine.run_append] at reached
      obtain ⟨before, earlier, last⟩ := Option.bind_eq_some_iff.mp reached
      obtain ⟨next, taken, rfl⟩ : ∃ next, step before label = some next ∧ next = state := by
        obtain ⟨next, taken, rest⟩ := Machine.run_cons_eq_some.mp last
        exact ⟨next, taken, Option.some.inj rest⟩
      have coherent := coherent_of_run earlier
      have dumpsBefore := dumps_of_step taken dumps
      obtain ⟨schedule, alone, solo, counter⟩ := inductionHypothesis earlier dumpsBefore
        fun sequence drawn => number sequence (sequenceOf_persists coherent taken drawn)
      have undrawn : next.sequenceOf operation = none → before.sequenceOf operation = none := by
        intro later
        by_contra drawn
        obtain ⟨sequence, earlierNumber⟩ := Option.ne_none_iff_exists'.mp drawn
        rw [sequenceOf_persists coherent taken earlierNumber] at later
        cases later
      cases owned : label.owned operation with
      | true =>
          have numbers : ∀ outcomes stale, label = .resume operation outcomes stale →
              ((before.channels (.own operation)).guard.ensureOpen outcomes).2 = .value →
                alone.sequence = before.sequence := by
            rintro outcomes stale rfl opens
            have drawn := number_of_started dumpsBefore taken opens
            rw [number _ drawn]
            cases step_effect taken with
            | resume present phase => exact counter (undrawn_of_woken coherent present phase)
          obtain ⟨later, extended, stepped⟩ := solo.own owned coherent dumpsBefore numbers taken
          refine ⟨_, later, extended, fun none => ?_⟩
          rw [counter_of_alone (coherent_of_run solo.reached) stepped extended.mirrors.only
            ((sequenceOf_of_view extended.mirrors.view).trans none)]
          exact counter (undrawn none)
      | false =>
          have channel := channel_of_foreign owned taken
          rcases entry_of_foreign owned coherent dumpsBefore taken with
            same | ⟨entry, present, phase, woken⟩
          · refine ⟨schedule, alone, solo.skip owned ?_, fun none => counter (undrawn none)⟩
            rw [State.view, State.view, same, channel]
          · obtain ⟨later, extended, kept⟩ := solo.wake owned present phase woken channel
            exact ⟨_, later, extended, fun none => kept.trans (counter (undrawn none))⟩

theorem isSome_resume (outcomes : Outcomes) (stale : Bytes) :
    (step state (.resume operation outcomes stale)).isSome ↔
      ∃ entry ∈ state.operations operation, entry.phase = .woken := by
  constructor
  · intro enabled
    obtain ⟨next, taken⟩ := Option.isSome_iff_exists.mp enabled
    cases step_effect taken with
    | resume present phase => exact ⟨_, present, phase⟩
  · rintro ⟨entry, present, phase⟩
    rw [step_resume outcomes stale present phase]
    rfl

theorem isSome_step {label : Label} (owned : label.owned operation = true)
    (coherent : state.Coherent) (dumps : state.Dumps operation)
    (same : alone.view operation = state.view operation) :
    (step state label).isSome ↔ (step alone label).isSome := by
  by_cases resumes : ∃ outcomes stale, label = .resume operation outcomes stale
  · obtain ⟨outcomes, stale, rfl⟩ := resumes
    have entry := operations_of_view same
    rw [isSome_resume, isSome_resume, entry]
  · have views := view_step owned coherent dumps same fun outcomes stale resumed _ =>
      absurd ⟨outcomes, stale, resumed⟩ resumes
    have equal := congrArg Option.isSome views
    rw [Option.isSome_map, Option.isSome_map] at equal
    rw [equal]

/-- In every state of every run, whatever other operations there are, a dump is where a run of it
alone leads with the replies of its own socket, it can take the same steps as there, and at the
gate it is woken when the time passes. -/
theorem dump_alone (now : Int) {labels : List Label} {state : State}
    (reached : Machine.run step { now := now } labels = some state) {operation : Nat}
    {entry : Operation} (present : state.operations operation = some entry) {kind : EventKind}
    (dump : entry.request = .dump kind) :
    (∃ start schedule alone, Alone now start operation labels state schedule alone ∧
      ∀ label, label.owned operation = true →
        ((step state label).isSome ↔ (step alone label).isSome)) ∧
    (entry.phase = .waiting → ∃ opened, Machine.run step state state.opening = some opened ∧
      opened.operations operation = some { entry with phase := .woken }) := by
  have dumps : state.Dumps operation := by
    intro other found
    rw [present] at found
    obtain rfl := Option.some.inj found
    exact ⟨kind, dump⟩
  refine ⟨?_, fun phase => ⟨state.opened, run_opening state, ?_⟩⟩
  · obtain ⟨schedule, alone, solo, -⟩ := exists_alone now reached dumps
      ((state.sequenceOf operation).getD state.sequence)
      fun sequence drawn => by rw [drawn, Option.getD_some]
    exact ⟨_, schedule, alone, solo, fun label owned =>
      isSome_step owned (coherent_of_run reached) dumps solo.mirrors.view⟩
  · rw [opened_operations]
    exact openGate_of_waiting present phase

/-- The later dump aborts the wait of the earlier one, draws the first number and sends first. -/
def twoDumps : List Label :=
  [.issue 0 (.dump .link), .issue 1 (.dump .route), .tick 5, .expire, .resume 1 {} [],
    .resume 0 {} [], .send 1, .send 0, .postReceive 1, .postReceive 0]

theorem dump_alone_twoDumps : ∃ state entry, Machine.run step { now := 0 } twoDumps = some state ∧
    state.operations 0 = some entry ∧ entry.sequence = some 2 ∧ entry.phase = .receiving [] ∧
    ∃ start schedule alone, Alone 0 start 0 twoDumps state schedule alone ∧
      ∀ label, label.owned 0 = true →
        ((step state label).isSome ↔ (step alone label).isSome) := by
  have ends : ((Machine.run step { now := 0 } twoDumps).map fun state =>
      (state.operations 0).map fun entry => (entry.request, entry.sequence, entry.phase)) =
        some (some (.dump .link, some 2, .receiving [])) := by
    decide +kernel
  obtain ⟨state, reached, observed⟩ := Option.map_eq_some_iff.mp ends
  obtain ⟨entry, present, same⟩ := Option.map_eq_some_iff.mp observed
  simp only [Prod.mk.injEq] at same
  obtain ⟨dump, drawn, receives⟩ := same
  exact ⟨state, entry, reached, present, drawn, receives, (dump_alone 0 reached present dump).1⟩

end Rtaco.Control
