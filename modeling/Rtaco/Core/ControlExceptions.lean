import Rtaco.Core.ControlSteps

/-!
# Operations that end with an exception

The operations report errors in their result, but `open` throws when the socket cannot be
opened or bound, and `acquire_socket_token` when its wait fails.
-/

namespace Rtaco

namespace SocketGuard

/-- The call throws: the socket cannot be opened or, when all options are set, not be bound. -/
def Throws (guard : SocketGuard) (outcomes : Outcomes) : Prop :=
  guard.socket.isOpen = false ∧
    (outcomes.opening ≠ none ∨
      (∀ option, outcomes.option option = none) ∧ outcomes.binding ≠ none)

theorem thrown_iff (guard : SocketGuard) (outcomes : Outcomes) :
    (∃ action error, (guard.ensureOpen outcomes).2 = .thrown action error) ↔
      guard.Throws outcomes := by
  unfold Throws
  cases isOpen : guard.socket.isOpen with
  | true => simp [ensureOpen_of_open isOpen]
  | false =>
      cases opened : outcomes.opening with
      | some error => simp [ensureOpen_of_openError isOpen opened]
      | none =>
          by_cases accepted : ∀ option, outcomes.option option = none
          · cases bound : outcomes.binding with
            | some error => simp [ensureOpen_of_bindError isOpen opened accepted bound, accepted]
            | none =>
                cases connected : outcomes.connecting with
                | some error =>
                    simp [ensureOpen_of_connectError isOpen opened accepted bound connected]
                | none => simp [ensureOpen_of_connected isOpen opened accepted bound connected]
          · obtain ⟨option, refused⟩ := not_forall.mp accepted
            obtain ⟨socket, error, -, called⟩ := ensureOpen_of_refused isOpen opened refused
            simp [called, accepted]

end SocketGuard

namespace Control

variable {state next : State}

/-- An operation ended with an exception. -/
def State.Threw (state : State) : Prop :=
  ∃ operation entry action error,
    state.operations operation = some entry ∧ entry.phase = .threw action error

/-- The wait at the gate does not fail, and the socket of the operation is opened and bound. -/
def Reports (state : State) : Label → Prop
  | .failWait operation error => ∀ entry, state.operations operation = some entry →
      entry.phase = .waiting → error = operationAborted
  | .resume operation outcomes _ => ∀ entry, state.operations operation = some entry →
      entry.phase = .woken → ¬ (state.guardOf operation entry).Throws outcomes
  | _ => True

theorem moves_no_throw {label : Label} {operation : Nat} {before after : Option Operation}
    (moves : Moves state operation label before after) (reports : Reports state label)
    (present : state.operations operation = before)
    (silent : ∀ entry ∈ before, ∀ action error, entry.phase ≠ .threw action error) :
    ∀ entry ∈ after, ∀ action error, entry.phase ≠ .threw action error := by
  cases moves with
  | stay entry => exact silent
  | failWait phase failed => exact absurd (reports _ present phase) failed
  | throw phase result =>
      exact absurd ((SocketGuard.thrown_iff _ _).mp ⟨_, _, result⟩) (reports _ present phase)
  | _ =>
      intro entry member
      cases member
      simp

theorem threw_setPhase {middle : State} {operation : Nat} {entry : Operation} {action : String}
    {error : ErrorCode} (present : middle.operations operation = some entry) :
    (middle.setPhase operation (.threw action error)).Threw :=
  ⟨operation, _, action, error, setPhase_self present, rfl⟩

theorem threw_openSocket {operation : Nat} {entry : Operation} {outcomes : Outcomes}
    (stale : Bytes) (present : state.operations operation = some entry)
    (throws : (state.guardOf operation entry).Throws outcomes) :
    (openSocket operation entry outcomes stale state).Threw := by
  obtain ⟨action, error, thrown⟩ := (SocketGuard.thrown_iff _ _).mpr throws
  unfold openSocket
  simp only []
  rcases called : (state.channels (entry.request.channel operation)).guard.ensureOpen outcomes with
    ⟨guard, result⟩
  rw [State.guardOf, called] at thrown
  cases thrown
  exact threw_setPhase present

/-- A step after which an operation threw is one in which its wait failed or its socket was not
opened or bound. -/
theorem reports_iff (silent : ¬ state.Threw) (label : Label) :
    (∀ next, step state label = some next → ¬ next.Threw) ↔ Reports state label := by
  constructor
  · intro quiet
    cases label with
    | failWait operation error =>
        intro entry present phase
        by_contra failed
        exact quiet _ (step_failWait present phase failed) (threw_setPhase present)
    | resume operation outcomes stale =>
        intro entry present phase throws
        exact quiet _ (step_resume outcomes stale present phase)
          (threw_openSocket stale present throws)
    | _ => trivial
  · rintro reports next taken ⟨operation, entry, action, error, present, threw⟩
    refine moves_no_throw (step_moves taken operation) reports rfl ?_ entry present action error
      threw
    intro before member action error phase
    exact silent ⟨operation, before, action, error, member, phase⟩

/-- The operations of a run end with a value or an error code exactly when no wait fails and
every socket is opened and bound. -/
theorem never_threw_iff (now : Int) (labels : List Label) :
    (∀ before finish, before <+: labels →
        Machine.run step { now := now } before = some finish → ¬ finish.Threw) ↔
      Machine.Allowed step Reports { now := now } labels := by
  have initially : ¬ State.Threw { now := now } := by
    rintro ⟨operation, entry, action, error, present, -⟩
    cases present
  rw [Machine.forall_prefix_iff]
  refine (and_iff_right initially).trans ?_
  apply @Machine.Allowed.iff_of_invariant _ _ step fun state => ¬ state.Threw
  · exact fun state label silent => reports_iff silent label
  · exact fun state label next silent allowed taken => allowed next taken
  · exact initially

/-- The file descriptors run out, and the dump of the routes throws. -/
theorem routeDump_throws : ∃ finish,
    Machine.run step { now := 0 } [.issue 0 (.dump .route), .tick 1, .expire,
      .resume 0 { opening := some ⟨24⟩ } []] = some finish ∧ finish.Threw := by
  refine ⟨_, rfl, 0, _, "open", ⟨24⟩, rfl, rfl⟩

end Control

end Rtaco
