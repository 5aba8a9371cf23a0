import Rtaco.Core.Common
import Rtaco.Library.Machine

/-!
# `nl_socket.cxx` and `nl_socket_guard.cxx`

The guarded socket with every step of its set-up, each of which may fail. The
outcomes of the steps of a call are part of the call.
-/

namespace Rtaco

inductive SocketOption where
  | recvBuf
  | noEnobufs
  | extAck
  | strictChk
  deriving DecidableEq

/-- A socket with what was done to it since it was last closed. -/
structure Socket where
  isOpen : Bool := false
  options : List SocketOption := []
  boundTo : Option Nat := none
  connectedTo : Option Nat := none
  deriving DecidableEq

/-- The error of each step of `ensure_open`, if it fails. -/
structure Outcomes where
  opening : Option ErrorCode := none
  option : SocketOption → Option ErrorCode := fun _ => none
  binding : Option ErrorCode := none
  connecting : Option ErrorCode := none

/-- How a call ends; `thrown` carries the action that a `std::runtime_error` names. -/
inductive CallResult where
  | value
  | unexpected (error : ErrorCode)
  | thrown (action : String) (error : ErrorCode)
  deriving DecidableEq

namespace Socket

/-- `close`; the descriptor is closed whether or not an error is reported. -/
def close (_ : Socket) : Socket := {}

/-- The options `open` sets, in order. -/
def requiredOptions : List SocketOption := [.recvBuf, .noEnobufs, .extAck, .strictChk]

/-- Set options until one of them fails. -/
def enableOptions (outcome : SocketOption → Option ErrorCode) :
    List SocketOption → Socket → Socket × Option ErrorCode
  | [], socket => (socket, none)
  | option :: options, socket =>
      match outcome option with
      | some error => (socket, some error)
      | none =>
          enableOptions outcome options { socket with options := socket.options ++ [option] }

/-- `boost::asio::error::already_open`. -/
abbrev alreadyOpen : ErrorCode := ⟨1⟩

def «open» (outcomes : Outcomes) (groups : Nat) (socket : Socket) : Socket × CallResult :=
  if socket.isOpen then (socket, .thrown "open" alreadyOpen)
  else
    match outcomes.opening with
    | some error => (socket, .thrown "open" error)
    | none =>
        match enableOptions outcomes.option requiredOptions { isOpen := true } with
        | (opened, some error) => (opened, .unexpected error)
        | (opened, none) =>
            match outcomes.binding with
            | some error => (opened.close, .thrown "bind" error)
            | none => ({ opened with boundTo := some groups }, .value)

end Socket

structure SocketGuard where
  socket : Socket := {}
  groupMask : Nat
  deriving DecidableEq

namespace SocketGuard

/-- `DEFAULT_GROUP_MASK`. -/
abbrev defaultGroupMask : Nat := 0x1 ||| 0x4 ||| 0x10 ||| 0x100 ||| 0x40 ||| 0x400

def ensureOpen (outcomes : Outcomes) (guard : SocketGuard) : SocketGuard × CallResult :=
  if guard.socket.isOpen then (guard, .value)
  else
    match guard.socket.open outcomes guard.groupMask with
    | (socket, .unexpected error) => ({ guard with socket := socket }, .unexpected error)
    | (socket, .thrown action error) => ({ guard with socket := socket }, .thrown action error)
    | (socket, .value) =>
        match outcomes.connecting with
        | some error => ({ guard with socket := socket.close }, .unexpected error)
        | none =>
            ({ guard with socket := { socket with connectedTo := some guard.groupMask } }, .value)

def stop (guard : SocketGuard) : SocketGuard :=
  if guard.socket.isOpen then { guard with socket := guard.socket.close } else guard

/-- Opened, with all options set, bound and connected to the group mask. -/
structure Configured (guard : SocketGuard) : Prop where
  isOpen : guard.socket.isOpen = true
  options : guard.socket.options = Socket.requiredOptions
  boundTo : guard.socket.boundTo = some guard.groupMask
  connectedTo : guard.socket.connectedTo = some guard.groupMask

inductive Call where
  | ensureOpen (outcomes : Outcomes)
  | stop

def step (guard : SocketGuard) : Call → Option SocketGuard
  | .ensureOpen outcomes => some (guard.ensureOpen outcomes).1
  | .stop => some guard.stop

/-- A success leaves a configured socket, a failure a closed socket. -/
def Reported (outcome : SocketGuard × CallResult) : Prop :=
  (outcome.2 = .value → outcome.1.Configured) ∧
    (outcome.2 ≠ .value → outcome.1.socket.isOpen = false)

def Honest (guard : SocketGuard) : Call → Prop
  | .ensureOpen outcomes => Reported (guard.ensureOpen outcomes)
  | .stop => True

/-- If the call opens the socket, no option of it is refused. -/
def OptionsHold (guard : SocketGuard) : Call → Prop
  | .ensureOpen outcomes =>
      guard.socket.isOpen = false → outcomes.opening = none →
        ∀ option, outcomes.option option = none
  | .stop => True

/-- Between two calls the socket is closed or configured. -/
def Settled (guard : SocketGuard) : Prop :=
  guard.socket.isOpen = false ∨ guard.Configured

end SocketGuard

namespace Socket

theorem enableOptions_of_none {outcome : SocketOption → Option ErrorCode}
    (accepted : ∀ option, outcome option = none) (options : List SocketOption) (socket : Socket) :
    enableOptions outcome options socket =
      ({ socket with options := socket.options ++ options }, none) := by
  induction options generalizing socket with
  | nil => simp [enableOptions]
  | cons option options inductionHypothesis =>
      simp [enableOptions, accepted option, inductionHypothesis]

/-- A refused option is reported and leaves the socket as open as it was. -/
theorem enableOptions_of_refused {outcome : SocketOption → Option ErrorCode}
    {options : List SocketOption} {option : SocketOption} (member : option ∈ options)
    (refused : outcome option ≠ none) (socket : Socket) :
    ∃ socket' error, socket'.isOpen = socket.isOpen ∧
      enableOptions outcome options socket = (socket', some error) := by
  induction options generalizing socket with
  | nil => cases member
  | cons first options inductionHypothesis =>
      unfold enableOptions
      cases given : outcome first with
      | some error => exact ⟨socket, error, rfl, rfl⟩
      | none =>
          rcases List.mem_cons.mp member with rfl | later
          · exact absurd given refused
          · exact inductionHypothesis later { socket with options := socket.options ++ [first] }

theorem mem_requiredOptions (option : SocketOption) : option ∈ requiredOptions := by
  cases option <;> decide

end Socket

namespace SocketGuard

variable {guard : SocketGuard} {outcomes : Outcomes}

theorem ensureOpen_of_open (isOpen : guard.socket.isOpen = true) :
    guard.ensureOpen outcomes = (guard, .value) := by
  rw [ensureOpen, if_pos isOpen]

section Closed

variable (closed : guard.socket.isOpen = false)

include closed

theorem ensureOpen_of_openError {error : ErrorCode} (failed : outcomes.opening = some error) :
    guard.ensureOpen outcomes = (guard, .thrown "open" error) := by
  simp [ensureOpen, Socket.open, closed, failed]

variable (opened : outcomes.opening = none)

include opened

theorem ensureOpen_of_refused {option : SocketOption} (refused : outcomes.option option ≠ none) :
    ∃ socket error, socket.isOpen = true ∧
      guard.ensureOpen outcomes = ({ guard with socket := socket }, .unexpected error) := by
  obtain ⟨socket, error, stays, enabled⟩ := Socket.enableOptions_of_refused
    (Socket.mem_requiredOptions option) refused { isOpen := true }
  refine ⟨socket, error, stays, ?_⟩
  simp [ensureOpen, Socket.open, closed, opened, enabled]

variable (accepted : ∀ option, outcomes.option option = none)

include accepted

theorem ensureOpen_of_bindError {error : ErrorCode} (failed : outcomes.binding = some error) :
    guard.ensureOpen outcomes = ({ guard with socket := {} }, .thrown "bind" error) := by
  simp [ensureOpen, Socket.open, closed, opened, Socket.enableOptions_of_none accepted, failed,
    Socket.close]

variable (bound : outcomes.binding = none)

include bound

theorem ensureOpen_of_connectError {error : ErrorCode}
    (failed : outcomes.connecting = some error) :
    guard.ensureOpen outcomes = ({ guard with socket := {} }, .unexpected error) := by
  simp [ensureOpen, Socket.open, closed, opened, Socket.enableOptions_of_none accepted, bound,
    failed, Socket.close]

theorem ensureOpen_of_connected (connected : outcomes.connecting = none) :
    guard.ensureOpen outcomes =
      ({ guard with socket := ⟨true, Socket.requiredOptions, some guard.groupMask,
        some guard.groupMask⟩ }, .value) := by
  simp [ensureOpen, Socket.open, closed, opened, Socket.enableOptions_of_none accepted, bound,
    connected]

end Closed

theorem isOpen_of_value (succeeded : (guard.ensureOpen outcomes).2 = .value) :
    (guard.ensureOpen outcomes).1.socket.isOpen = true := by
  cases isOpen : guard.socket.isOpen with
  | true =>
      rw [ensureOpen_of_open isOpen]
      exact isOpen
  | false =>
      cases opened : outcomes.opening with
      | some error =>
          rw [ensureOpen_of_openError isOpen opened] at succeeded
          cases succeeded
      | none =>
          by_cases accepted : ∀ option, outcomes.option option = none
          · cases bound : outcomes.binding with
            | some error =>
                rw [ensureOpen_of_bindError isOpen opened accepted bound] at succeeded
                cases succeeded
            | none =>
                cases connected : outcomes.connecting with
                | some error =>
                    rw [ensureOpen_of_connectError isOpen opened accepted bound connected]
                      at succeeded
                    cases succeeded
                | none =>
                    rw [ensureOpen_of_connected isOpen opened accepted bound connected]
          · obtain ⟨option, refused⟩ := not_forall.mp accepted
            obtain ⟨socket, error, stays, outcome⟩ := ensureOpen_of_refused isOpen opened refused
            rw [outcome]
            exact stays

theorem honest_of_open (configured : guard.Configured) (outcomes : Outcomes) :
    guard.Honest (.ensureOpen outcomes) := by
  change Reported (guard.ensureOpen outcomes)
  rw [ensureOpen_of_open configured.isOpen]
  exact ⟨fun _ => configured, fun failed => absurd rfl failed⟩

theorem honest_of_accepted (closed : guard.socket.isOpen = false)
    (accepted : outcomes.opening = none → ∀ option, outcomes.option option = none) :
    guard.Honest (.ensureOpen outcomes) := by
  change Reported (guard.ensureOpen outcomes)
  cases opened : outcomes.opening with
  | some error =>
      rw [ensureOpen_of_openError closed opened]
      exact ⟨nofun, fun _ => closed⟩
  | none =>
      cases bound : outcomes.binding with
      | some error =>
          rw [ensureOpen_of_bindError closed opened (accepted opened) bound]
          exact ⟨nofun, fun _ => rfl⟩
      | none =>
          cases connected : outcomes.connecting with
          | some error =>
              rw [ensureOpen_of_connectError closed opened (accepted opened) bound connected]
              exact ⟨nofun, fun _ => rfl⟩
          | none =>
              rw [ensureOpen_of_connected closed opened (accepted opened) bound connected]
              exact ⟨fun _ => ⟨rfl, rfl, rfl, rfl⟩, fun failed => absurd rfl failed⟩

theorem not_honest_of_refused (closed : guard.socket.isOpen = false)
    (opened : outcomes.opening = none) (option : SocketOption)
    (refused : outcomes.option option ≠ none) : ¬ guard.Honest (.ensureOpen outcomes) := by
  obtain ⟨socket, error, stays, outcome⟩ := ensureOpen_of_refused closed opened refused
  change ¬ Reported (guard.ensureOpen outcomes)
  rw [outcome]
  rintro ⟨-, failed⟩
  rw [failed nofun] at stays
  cases stays

theorem honest_iff (settled : guard.Settled) (call : Call) :
    guard.Honest call ↔ guard.OptionsHold call := by
  cases call with
  | stop => exact Iff.rfl
  | ensureOpen outcomes =>
      rcases settled with closed | configured
      · constructor
        · intro honest _ opened option
          by_contra refused
          exact not_honest_of_refused closed opened option refused honest
        · intro holds
          exact honest_of_accepted closed (holds closed)
      · refine ⟨fun _ closed => ?_, fun _ => honest_of_open configured outcomes⟩
        rw [configured.isOpen] at closed
        cases closed

theorem settled_step {next : SocketGuard} {call : Call} (settled : guard.Settled)
    (honest : guard.Honest call) (taken : guard.step call = some next) : next.Settled := by
  cases call with
  | stop =>
      cases taken
      unfold stop
      split_ifs with isOpen
      · exact .inl rfl
      · exact settled
  | ensureOpen outcomes =>
      cases taken
      by_cases succeeded : (guard.ensureOpen outcomes).2 = .value
      · exact .inr (honest.1 succeeded)
      · exact .inl (honest.2 succeeded)

/-- In every sequence of calls on a new guard, the calls are honest exactly as
long as no option is refused while the socket is being opened. -/
theorem honest_iff_options_hold (groupMask : Nat) (calls : List Call) :
    Machine.Allowed step Honest { groupMask := groupMask } calls ↔
      Machine.Allowed step OptionsHold { groupMask := groupMask } calls :=
  Machine.Allowed.iff_of_invariant (fun _ call settled => honest_iff settled call)
    (fun _ _ _ settled honest taken => settled_step settled honest taken) (.inl rfl) calls

/-- The receive buffer size is refused; the next call trusts the open socket. -/
theorem half_configured_after_refused_option :
    let refused : Outcomes := { option := fun _ => some ⟨105⟩ }
    let guard : SocketGuard := { groupMask := defaultGroupMask }
    let left := (guard.ensureOpen refused).1
    ¬ Machine.Allowed step Honest guard [.ensureOpen refused, .ensureOpen {}] ∧
      left.ensureOpen {} = (left, .value) ∧ left.socket.options = [] := by
  refine ⟨?_, rfl, rfl⟩
  intro honest
  exact not_honest_of_refused rfl rfl .recvBuf (Option.some_ne_none _) honest.1

end SocketGuard

end Rtaco
