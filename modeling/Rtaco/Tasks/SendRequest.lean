import Rtaco.Tasks.DumpRequests

/-!
# `RequestTask::async_run`

`send_request` hands the payload to the socket until all of it was taken; then `read_loop` runs.
A completed send says how many bytes were taken.
-/

namespace Rtaco

open Netlink

/-- The loop of `send_request` from an offset on: the bytes that the completed sends took, and what
the coroutine returned, if it has. -/
def sendRequest (payload : Bytes) :
    Nat → List (Except ErrorCode Nat) → List Bytes × Option (Expected Unit)
  | offset, completions =>
      if offset < payload.length then
        match completions with
        | [] => ([], none)
        | .error error :: _ => ([], some (.unexpected error))
        | .ok sent :: completions =>
            let (chunks, result) := sendRequest payload (offset + sent) completions
            ((payload.drop offset).take sent :: chunks, result)
      else ([], some (.value ()))

/-- What the task of a request has sent and returned, after the completed sends and receives. -/
def asyncRun (request : Control.Request) (sequence : Nat) (buffer payload : Bytes)
    (sends : List (Except ErrorCode Nat)) (receives : List (Except ErrorCode Bytes)) :
    List Bytes × Option (Expected Control.Answer) :=
  match sendRequest payload 0 sends with
  | (chunks, none) => (chunks, none)
  | (chunks, some (.unexpected error)) => (chunks, some (.unexpected error))
  | (chunks, some (.value ())) => (chunks, (request.readLoop sequence buffer receives).result?)

/-- No send takes more bytes than it is given. -/
def Accepted : Nat → List (Except ErrorCode Nat) → Prop
  | _, [] => True
  | _, .error _ :: _ => True
  | remaining, .ok sent :: completions =>
      remaining ≠ 0 → sent ≤ remaining ∧ Accepted (remaining - sent) completions

instance decidableAccepted : ∀ remaining completions, Decidable (Accepted remaining completions)
  | _, [] => .isTrue trivial
  | _, .error _ :: _ => .isTrue trivial
  | remaining, .ok sent :: completions =>
      have := decidableAccepted (remaining - sent) completions
      inferInstanceAs (Decidable (remaining ≠ 0 → _ ∧ _))

/-- The first sends take all bytes together. -/
def Covers (length : Nat) (completions : List (Except ErrorCode Nat)) : Prop :=
  ∃ (earlier : List Nat) (later : List (Except ErrorCode Nat)),
    completions = earlier.map .ok ++ later ∧ earlier.sum = length

/-- A send fails behind so many bytes, before all were taken. -/
def FailsBehind (length count : Nat) (completions : List (Except ErrorCode Nat))
    (error : ErrorCode) : Prop :=
  ∃ (earlier : List Nat) (later : List (Except ErrorCode Nat)),
    completions = earlier.map .ok ++ .error error :: later ∧ earlier.sum = count ∧ count < length

/-- All sends take so many bytes together, which are not all. -/
def Lacks (length count : Nat) (completions : List (Except ErrorCode Nat)) : Prop :=
  ∃ earlier : List Nat, completions = earlier.map .ok ∧ earlier.sum = count ∧ count < length

section Loop

variable {payload : Bytes} {offset : Nat} {completions : List (Except ErrorCode Nat)}

theorem sendRequest_done (done : payload.length ≤ offset) :
    sendRequest payload offset completions = ([], some (.value ())) := by
  cases completions with
  | nil => rw [sendRequest, if_neg (Nat.not_lt.mpr done)]
  | cons completion completions =>
      cases completion <;> rw [sendRequest, if_neg (Nat.not_lt.mpr done)]

theorem sendRequest_ok (unsent : offset < payload.length) (sent : Nat) :
    sendRequest payload offset (.ok sent :: completions) =
      ((payload.drop offset).take sent :: (sendRequest payload (offset + sent) completions).1,
        (sendRequest payload (offset + sent) completions).2) := by
  rw [sendRequest, if_pos unsent]

theorem sendRequest_error (unsent : offset < payload.length) (error : ErrorCode) :
    sendRequest payload offset (.error error :: completions) = ([], some (.unexpected error)) := by
  rw [sendRequest, if_pos unsent]

theorem sendRequest_nil (unsent : offset < payload.length) :
    sendRequest payload offset [] = ([], none) := by
  rw [sendRequest, if_pos unsent]

/-- Sends that fit take the next bytes, and the loop goes on behind them. -/
theorem sendRequest_append (earlier : List Nat) (fits : offset + earlier.sum ≤ payload.length)
    (rest : List (Except ErrorCode Nat)) :
    ∃ chunks, chunks.flatten = (payload.drop offset).take earlier.sum ∧
      sendRequest payload offset (earlier.map .ok ++ rest) =
        (chunks ++ (sendRequest payload (offset + earlier.sum) rest).1,
          (sendRequest payload (offset + earlier.sum) rest).2) := by
  induction earlier generalizing offset with
  | nil => exact ⟨[], rfl, rfl⟩
  | cons sent earlier inductionHypothesis =>
      rw [List.sum_cons] at fits
      rcases Nat.lt_or_ge offset payload.length with unsent | done
      · obtain ⟨chunks, taken, loop⟩ := @inductionHypothesis (offset + sent) (by omega)
        refine ⟨(payload.drop offset).take sent :: chunks, ?_, ?_⟩
        · rw [List.flatten_cons, taken, List.sum_cons, List.take_add, List.drop_drop]
        · rw [List.map_cons, List.cons_append, sendRequest_ok unsent, loop, List.sum_cons,
            Nat.add_assoc]
          rfl
      · -- Nothing is left, so the sends behind take no bytes and the loop does not ask for them.
        have none : (sent :: earlier).sum = 0 := by
          rw [List.sum_cons]
          omega
        refine ⟨[], ?_, ?_⟩
        · rw [none]
          rfl
        · rw [none, Nat.add_zero, sendRequest_done done, sendRequest_done done]
          rfl

theorem sendRequest_covers (covers : Covers payload.length completions) :
    (sendRequest payload 0 completions).1.flatten = payload ∧
      (sendRequest payload 0 completions).2 = some (.value ()) := by
  obtain ⟨earlier, later, rfl, all⟩ := covers
  have fits : 0 + earlier.sum ≤ payload.length := by omega
  obtain ⟨chunks, taken, loop⟩ := sendRequest_append earlier fits later
  have done : payload.length ≤ 0 + earlier.sum := by omega
  rw [loop, sendRequest_done done, List.append_nil, taken, all, List.drop_zero, List.take_length]
  exact ⟨rfl, rfl⟩

theorem sendRequest_fails {count : Nat} {error : ErrorCode}
    (fails : FailsBehind payload.length count completions error) :
    (sendRequest payload 0 completions).1.flatten = payload.take count ∧
      (sendRequest payload 0 completions).2 = some (.unexpected error) := by
  obtain ⟨earlier, later, rfl, rfl, short⟩ := fails
  have fits : 0 + earlier.sum ≤ payload.length := by omega
  obtain ⟨chunks, taken, loop⟩ := sendRequest_append earlier fits (.error error :: later)
  have unsent : 0 + earlier.sum < payload.length := by omega
  rw [loop, sendRequest_error unsent, List.append_nil, taken, List.drop_zero]
  exact ⟨rfl, rfl⟩

theorem sendRequest_lacks {count : Nat} (lacks : Lacks payload.length count completions) :
    (sendRequest payload 0 completions).1.flatten = payload.take count ∧
      (sendRequest payload 0 completions).2 = none := by
  obtain ⟨earlier, rfl, rfl, short⟩ := lacks
  have fits : 0 + earlier.sum ≤ payload.length := by omega
  obtain ⟨chunks, taken, loop⟩ := sendRequest_append earlier fits []
  have unsent : 0 + earlier.sum < payload.length := by omega
  rw [List.append_nil, sendRequest_nil unsent, List.append_nil] at loop
  rw [loop, taken, List.drop_zero]
  exact ⟨rfl, rfl⟩

/-- Sends that take no more than they are given cover the bytes, fail before, or are too few. -/
theorem Accepted.cases {length : Nat} (accepted : Accepted length completions) :
    Covers length completions ∨ (∃ count error, FailsBehind length count completions error) ∨
      ∃ count, Lacks length count completions := by
  induction completions generalizing length with
  | nil =>
      rcases Nat.eq_zero_or_pos length with rfl | left
      · exact .inl ⟨[], [], rfl, rfl⟩
      · exact .inr (.inr ⟨0, [], rfl, rfl, left⟩)
  | cons completion completions inductionHypothesis =>
      rcases Nat.eq_zero_or_pos length with rfl | left
      · exact .inl ⟨[], completion :: completions, rfl, rfl⟩
      · cases completion with
        | error error => exact .inr (.inl ⟨0, error, [], completions, rfl, rfl, left⟩)
        | ok sent =>
            obtain ⟨fits, later⟩ := accepted (Nat.ne_of_gt left)
            rcases inductionHypothesis later with covers | ⟨count, error, fails⟩ | ⟨count, lacks⟩
            · obtain ⟨earlier, rest, rfl, all⟩ := covers
              refine .inl ⟨sent :: earlier, rest, rfl, ?_⟩
              rw [List.sum_cons]
              omega
            · obtain ⟨earlier, rest, rfl, taken, short⟩ := fails
              refine .inr (.inl ⟨sent + count, error, sent :: earlier, rest, rfl, ?_, by omega⟩)
              rw [List.sum_cons, taken]
            · obtain ⟨earlier, rfl, taken, short⟩ := lacks
              refine .inr (.inr ⟨sent + count, sent :: earlier, rfl, ?_, by omega⟩)
              rw [List.sum_cons, taken]

end Loop

theorem asyncRun_eq (request : Control.Request) (sequence : Nat) (buffer payload : Bytes)
    (sends : List (Except ErrorCode Nat)) (receives : List (Except ErrorCode Bytes)) :
    asyncRun request sequence buffer payload sends receives =
      ((sendRequest payload 0 sends).1, (sendRequest payload 0 sends).2.bind fun
        | .value () => (request.readLoop sequence buffer receives).result?
        | .unexpected error => some (.unexpected error)) := by
  unfold asyncRun
  rcases sendRequest payload 0 sends with ⟨chunks, _ | _ | _⟩
  · rfl
  · rfl
  · rfl

/-- What a task has sent and returned, by what its sends take of the payload. -/
structure Exchanges (request : Control.Request) (sequence : Nat) (buffer payload : Bytes)
    (sends : List (Except ErrorCode Nat)) (receives : List (Except ErrorCode Bytes))
    (taken : Bytes) (result : Option (Expected Control.Answer)) : Prop where
  covered : Covers payload.length sends →
    taken = payload ∧ result = (request.readLoop sequence buffer receives).result?
  failed : ∀ count error, FailsBehind payload.length count sends error →
    taken = payload.take count ∧ result = some (.unexpected error)
  waiting : ∀ count, Lacks payload.length count sends → taken = payload.take count ∧ result = none

/-- However the sends of a task split its payload, the bytes taken are the first ones of the
payload, each once and in order. When the sends cover the payload, all of it was sent and the task
is where `read_loop` is on the receives, whether that returned a value, an error or nothing yet.
When a send fails before that, its error is the result, and while sends are missing the task
waits. -/
theorem asyncRun_exchanges (request : Control.Request) (sequence : Nat) (buffer : Bytes)
    {payload : Bytes} {sends : List (Except ErrorCode Nat)}
    (accepted : Accepted payload.length sends) (receives : List (Except ErrorCode Bytes)) :
    Exchanges request sequence buffer payload sends receives
        (asyncRun request sequence buffer payload sends receives).1.flatten
        (asyncRun request sequence buffer payload sends receives).2 ∧
      (Covers payload.length sends ∨ (∃ count error, FailsBehind payload.length count sends error) ∨
        ∃ count, Lacks payload.length count sends) := by
  refine ⟨⟨fun covers => ?_, fun count error fails => ?_, fun count lacks => ?_⟩, accepted.cases⟩
  · obtain ⟨all, returned⟩ := sendRequest_covers covers
    rw [asyncRun_eq, returned]
    exact ⟨all, rfl⟩
  · obtain ⟨front, returned⟩ := sendRequest_fails fails
    rw [asyncRun_eq, returned]
    exact ⟨front, rfl⟩
  · obtain ⟨front, waits⟩ := sendRequest_lacks lacks
    rw [asyncRun_eq, waits]
    exact ⟨front, rfl⟩

theorem asyncRun_exchanges_linkDump :
    (asyncRun (.dump .link) 7 [] (EventKind.link.dumpPayload 7 0) [.ok 20, .ok 12]
        [.ok (Records.Format.encode [doneMessage 7 9 0 0])]).1.flatten =
      EventKind.link.dumpPayload 7 0 ∧
    (asyncRun (.dump .link) 7 [] (EventKind.link.dumpPayload 7 0) [.ok 20, .ok 12]
        [.ok (Records.Format.encode [doneMessage 7 9 0 0])]).2 =
      some (.value (.events .link [])) := by
  have accepted : Accepted (EventKind.link.dumpPayload 7 0).length [.ok 20, .ok 12] := by
    decide +kernel
  have covers : Covers (EventKind.link.dumpPayload 7 0).length [.ok 20, .ok 12] :=
    ⟨[20, 12], [], rfl, by decide +kernel⟩
  have exchanges := (asyncRun_exchanges (.dump .link) 7 [] accepted
    [.ok (Records.Format.encode [doneMessage 7 9 0 0])]).1
  obtain ⟨all, result⟩ := exchanges.covered covers
  refine ⟨all, result.trans ?_⟩
  decide +kernel

end Rtaco
