import Rtaco.Tasks.DumpCompleteness

/-!
# The status a dump reports

Both terminators carry a status, the error of an `NLMSG_ERROR` and the payload
of an `NLMSG_DONE`. A dump reports the first and ignores the second.
-/

namespace Rtaco

open Netlink

/-- The status in a terminator, if it holds one. -/
def terminatorStatus (header : Bytes) : Option Int :=
  if nlmsgType header = nlmsgError then some (nlmsgerrError (nlmsgData header))
  else if nlmsgType header = nlmsgDone ∧ nlmsgLength 4 ≤ nlmsgLen header then
    some (toInt32 (field 0 4 (nlmsgData header)))
  else none

namespace EventKind

/-- The task succeeds exactly if the message that ended the dump reports success,
and returns the negated status otherwise. -/
def ReportsStatus (kind : EventKind) (sequence : Nat) (stream : List (List Message))
    (buffer : Bytes) : Prop :=
  ∀ terminator status, firstTerminator sequence stream.flatten = some terminator →
    terminatorStatus terminator.bytes = some status →
      readLoop (kind.dumpProcessMessage sequence) [] buffer (deliver stream) =
        .returned (if status = 0 then
          .value (kind.entries sequence (beforeTerminator sequence stream.flatten))
        else .unexpected ⟨toInt32 (-status)⟩)

end EventKind

theorem toInt32_neg_eq_zero (value : Int) : toInt32 (-toInt32 value) = 0 ↔ toInt32 value = 0 := by
  unfold toInt32
  rw [Int.bmod_neg_bmod, ← Int.dvd_iff_bmod_eq_zero, ← Int.dvd_iff_bmod_eq_zero, Int.dvd_neg]

theorem DumpTask.finish_of_error {Event : Type} {header : Bytes} {status : Int}
    (error : nlmsgType header = nlmsgError) (holds : terminatorStatus header = some status)
    (learned : List Event) :
    DumpTask.finish header learned =
      if status = 0 then .value learned else .unexpected ⟨toInt32 (-status)⟩ := by
  have same : nlmsgerrError (nlmsgData header) = status := by
    simpa [terminatorStatus, error] using holds
  have zero : toInt32 (-status) = 0 ↔ status = 0 := by
    rw [← same]
    exact toInt32_neg_eq_zero _
  simp [DumpTask.finish, error, DumpTask.handleError, errorCode, same, zero]

theorem DumpTask.finish_of_done {Event : Type} {header : Bytes}
    (done : nlmsgType header = nlmsgDone) (learned : List Event) :
    DumpTask.finish header learned = .value learned := by
  simp [DumpTask.finish, done, DumpTask.handleDone]

namespace EventKind

/-- A dump reports the status of its terminator exactly when that is not an
`NLMSG_DONE` with a status other than zero. -/
theorem reportsStatus_iff (kind : EventKind) (sequence : Nat) {stream : List (List Message)}
    (replies : ReplyStream stream) (buffer : Bytes) :
    kind.ReportsStatus sequence stream buffer ↔
      ∀ terminator status, firstTerminator sequence stream.flatten = some terminator →
        nlmsgType terminator.bytes = nlmsgDone →
          terminatorStatus terminator.bytes = some status → status = 0 := by
  unfold ReportsStatus
  constructor
  · intro reports terminator status found done holds
    have returned := reports terminator status found holds
    rw [readLoop_dump kind sequence replies, found] at returned
    simp only [DumpTask.finish_of_done done, ReadOutcome.returned.injEq] at returned
    by_contra failed
    simp [failed] at returned
  · intro clean terminator status found holds
    rw [readLoop_dump kind sequence replies, found]
    have ends : Terminates sequence terminator.bytes := by
      simpa using List.find?_some found
    rcases ends.2 with done | error
    · simp only [DumpTask.finish_of_done done, clean terminator status found done holds, if_true]
    · simp only [DumpTask.finish_of_error error holds]

theorem reportsStatus_lo :
    EventKind.link.ReportsStatus 7 [[loLink 7 9], [doneMessage 7 9 0 0]] [] := by
  have replies : ReplyStream [[loLink 7 9], [doneMessage 7 9 0 0]] := by decide
  refine (reportsStatus_iff .link 7 replies []).mpr ?_
  intro terminator status found done holds
  have last : terminator = doneMessage 7 9 0 0 := by
    have computed : firstTerminator 7 [loLink 7 9, doneMessage 7 9 0 0] =
        some (doneMessage 7 9 0 0) := rfl
    exact Option.some.inj (found.symm.trans computed)
  have zero : terminatorStatus (doneMessage 7 9 0 0).bytes = some 0 := by decide +kernel
  rw [last, zero] at holds
  exact (Option.some.inj holds).symm

/-- A dump that failed with `-EBUSY` after its first entry returns that entry. -/
theorem not_reportsStatus_busy :
    ¬ EventKind.link.ReportsStatus 7 [[loLink 7 9, doneMessage 7 9 240 255]] [] := by
  intro reports
  have returned := reports (doneMessage 7 9 240 255) (-16) rfl (by decide +kernel)
  have list : readLoop (EventKind.link.dumpProcessMessage 7) [] []
      (deliver [[loLink 7 9, doneMessage 7 9 240 255]]) =
        .returned (.value [{ type := .newLink, index := 1, flags := 1, name := [108, 111] }]) := by
    decide +kernel
  rw [list] at returned
  simp at returned

end EventKind

end Rtaco
