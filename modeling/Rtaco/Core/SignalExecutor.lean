import Rtaco.Core.SignalRuns

/-!
# Emitting on the executor

The thread that emits may be the only one that runs the executor. While `WaitAllCombiner` waits in
`get`, no coroutine is posted or run then, so an Async slot is waited for in vain.
-/

namespace Rtaco.Signal

universe u

variable {Object Target Args Result : Type u}
  {invoke : Object → Target → Args → (Object × Target) × Result}
  {slots : List (Slot Object Target)} {emissions : List Args}
  {state next : State Object Target Args Result}

/-- The thread of the emissions runs the coroutines as well, between the emissions. -/
def OneThread (state : State Object Target Args Result) : Label → Prop
  | .post _ => state.combiner = none
  | .run _ => state.combiner = none
  | _ => True

instance [DecidableEq Args] [DecidableEq Result] (state : State Object Target Args Result)
    (label : Label) : Decidable (OneThread state label) := by
  cases label <;> unfold OneThread <;> infer_instance

/-- The first slots are all Sync. -/
def FirstSync (slots : List (Slot Object Target)) (count : Nat) : Prop :=
  ∀ slot ∈ slots.take count, slot.policy = .sync

/-- What has an answer on one thread: the Sync slots before the first Async one. -/
structure Alone (slots : List (Slot Object Target)) (state : State Object Target Args Result) :
    Prop where
  returned : state.returned ≠ [] → FirstSync slots slots.length
  passed : ∀ combiner, state.combiner = some combiner → FirstSync slots combiner.first
  answered : ∀ combiner future result, state.combiner = some combiner →
    combiner.waiting = some future → state.futures[future]? = some (some result) →
      FirstSync slots (combiner.first + 1)

@[simp]
theorem policy_answer (slot : Slot Object Target) (args : Args) :
    (slot.answer invoke args).1.policy = slot.policy := rfl

theorem map_policy_called (args : Args) (slots : List (Slot Object Target)) :
    (called invoke args slots).map Slot.policy = slots.map Slot.policy := by
  rw [called, List.map_map]
  rfl

theorem map_policy_after (slots : List (Slot Object Target)) (made : List Args) :
    (Mealy.after (Slot.answer invoke) slots made).map Slot.policy = slots.map Slot.policy := by
  induction made generalizing slots with
  | nil => rfl
  | cons args made inductionHypothesis =>
      exact (inductionHypothesis (called invoke args slots)).trans (map_policy_called args slots)

theorem policy_current {made : List Args} {front back : List (Slot Object Target)}
    {slot : Slot Object Target}
    (current : Mealy.after (Slot.answer invoke) slots made = front ++ slot :: back) :
    (slots.map Slot.policy)[front.length]? = some slot.policy := by
  rw [← map_policy_after slots made, current, List.map_append, List.getElem?_append_right (by simp)]
  simp

theorem FirstSync.succ {count : Nat} (first : FirstSync slots count)
    (sync : (slots.map Slot.policy)[count]? = some .sync) : FirstSync slots (count + 1) := by
  rw [List.getElem?_map] at sync
  obtain ⟨slot, present, policy⟩ := Option.map_eq_some_iff.mp sync
  intro other member
  rw [List.take_add_one, present] at member
  rcases List.mem_append.mp member with earlier | here
  · exact first other earlier
  · rw [List.mem_singleton.mp here, policy]

theorem alone_step {label : Label} (progress : Progress invoke slots emissions state)
    (alone : Alone slots state) (oneThread : OneThread state label)
    (taken : step invoke state label = some next) : Alone slots next := by
  cases progress with
  | @idle made left futures split =>
      cases label with
      | emit =>
          cases left with
          | nil => simp [step] at taken
          | cons args left =>
              simp only [step, Option.some.injEq] at taken
              subst taken
              refine ⟨alone.returned, ?_, ?_⟩
              · rintro combiner ⟨⟩ slot member
                cases member
              · rintro combiner future result ⟨⟩ ⟨⟩
      | _ => simp [step] at taken
  | @between made left args futures front back split current =>
      have passed := alone.passed _ rfl
      cases label with
      | call =>
          cases back with
          | nil =>
              simp only [step, getElem?_called] at taken
              simp at taken
          | cons slot back =>
              have policy := policy_current current
              simp only [step, getElem?_called, List.head?_cons, Option.some.injEq] at taken
              subst taken
              cases kind : slot.policy with
              | sync =>
                  rw [kind] at policy
                  rw [callSlot_of_sync kind]
                  refine ⟨alone.returned, ?_, ?_⟩
                  · rintro combiner ⟨⟩
                    exact passed
                  · rintro combiner future result ⟨⟩ - -
                    exact passed.succ policy
              | async =>
                  rw [callSlot_of_async kind]
                  refine ⟨alone.returned, ?_, ?_⟩
                  · rintro combiner ⟨⟩
                    exact passed
                  · rintro combiner future result ⟨⟩ ⟨⟩ set
                    simp at set
      | leave =>
          cases back with
          | cons slot back => simp [step] at taken
          | nil =>
              have count := length_of_split current
              simp only [step, getElem?_called, List.head?_nil, Option.some.injEq] at taken
              subst taken
              refine ⟨fun _ => ?_, ?_, ?_⟩
              · rw [count]
                exact passed
              · rintro combiner ⟨⟩
              · rintro combiner future result ⟨⟩
      | _ => simp [step] at taken
  | @spawned made left args futures front back slot future posted split current async unset =>
      cases label with
      | post index => cases oneThread
      | run index => cases oneThread
      | _ => simp [step, unset] at taken
  | @ready made left args futures front back slot future split current set =>
      cases label with
      | get =>
          simp only [step, Option.bind_some, set, Option.join_some, Option.some.injEq] at taken
          subst taken
          refine ⟨alone.returned, ?_, ?_⟩
          · rintro combiner ⟨⟩
            exact alone.answered _ _ _ rfl rfl set
          · rintro combiner future result ⟨⟩ ⟨⟩
      | _ => simp [step] at taken

theorem alone_start : Alone slots (start slots emissions : State Object Target Args Result) :=
  ⟨fun some => absurd rfl some, nofun, nofun⟩

theorem FirstSync.not_async {count : Nat} (sync : FirstSync slots slots.length) :
    (slots.map Slot.policy)[count]? ≠ some .async := by
  intro async
  rw [List.getElem?_map] at async
  obtain ⟨slot, present, policy⟩ := Option.map_eq_some_iff.mp async
  have member : slot ∈ slots.take slots.length := by
    rw [List.take_length]
    exact List.mem_of_getElem? present
  rw [sync slot member] at policy
  cases policy

/-- Where one thread can do no more, all emissions have returned, or the combiner waits for the
first Async slot in the first emission. -/
theorem done_or_blocked (progress : Progress invoke slots emissions state)
    (alone : Alone slots state)
    (ended : ∀ label, OneThread state label → step invoke state label = none) :
    state.Done ∨ emissions ≠ [] ∧ state.returned = [] ∧ ∃ combiner,
      state.combiner = some combiner ∧ FirstSync slots combiner.first ∧
        (slots.map Slot.policy)[combiner.first]? = some .async := by
  by_cases done : state.Done
  · exact .inl done
  · right
    obtain ⟨label, goes⟩ := progress.exists_step done
    cases progress with
    | @idle made left futures split =>
        cases left with
        | nil => exact absurd ⟨rfl, rfl⟩ done
        | cons args left => cases ended .emit trivial
    | @between made left args futures front back split current =>
        cases back with
        | nil =>
            have leaves := ended .leave trivial
            simp [step] at leaves
        | cons slot back =>
            have calls := ended .call trivial
            simp [step] at calls
    | @spawned made left args futures front back slot future posted split current async unset =>
        have policy := policy_current current
        rw [async] at policy
        refine ⟨?_, ?_, _, rfl, alone.passed _ rfl, policy⟩
        · rintro rfl
          cases (List.append_eq_nil_iff.mp split).2
        · by_contra answered
          exact (alone.returned answered).not_async policy
    | ready split current set =>
        have gets := ended .get trivial
        simp [step, set] at gets

/-- On one thread the emissions all return exactly if there are none or no slot is Async, and then
with what the slots do with their state carried over. Otherwise the first emission ends at its first
Async slot, and nothing is ever returned. -/
theorem return_on_one_thread_iff (slots : List (Slot Object Target)) (emissions : List Args)
    {labels : List Label} {finish : State Object Target Args Result}
    (oneThread : Machine.Allowed (step invoke) OneThread (start slots emissions) labels)
    (reached : Machine.run (step invoke) (start slots emissions) labels = some finish)
    (ended : ∀ label, OneThread finish label → step invoke finish label = none) :
    (finish.Done ↔ emissions = [] ∨ ∀ slot ∈ slots, slot.policy = .sync) ∧
    (finish.Done → finish.returned = expected invoke (slots.map Slot.functor) emissions) ∧
    (¬ finish.Done → finish.returned = [] ∧ ∃ combiner, finish.combiner = some combiner ∧
      FirstSync slots combiner.first ∧
        (slots.map Slot.policy)[combiner.first]? = some .async) := by
  obtain ⟨progress, alone⟩ := Machine.invariant
    (fun state label next (both : Progress invoke slots emissions state ∧ Alone slots state)
      allowed taken =>
        ⟨(both.1.step taken).1, alone_step both.1 both.2 allowed taken⟩)
    ⟨.idle (List.nil_append emissions), alone_start⟩ oneThread reached
  have ends := done_or_blocked progress alone ended
  have returns : finish.Done → emissions = [] ∨ ∀ slot ∈ slots, slot.policy = .sync := by
    intro done
    rcases emissions.eq_nil_or_concat with none | ⟨made, args, some⟩
    · exact .inl none
    · right
      have answered : finish.returned ≠ [] := by
        rw [progress.returned_of_done done, some, List.concat_eq_append, Mealy.rows_concat]
        exact List.append_ne_nil_of_right_ne_nil _ nofun
      intro slot member
      apply alone.returned answered slot
      rwa [List.take_length]
  refine ⟨⟨returns, ?_⟩, ?_, ?_⟩
  · intro sync
    rcases ends with done | ⟨some, -, combiner, -, -, async⟩
    · exact done
    · rcases sync with none | all
      · exact absurd none some
      · have whole : FirstSync slots slots.length := by
          intro slot member
          rw [List.take_length] at member
          exact all slot member
        exact absurd async whole.not_async
  · intro done
    rw [progress.returned_of_done done]
    rcases returns done with rfl | all
    · rfl
    · refine (rows_answer_eq_expected_iff slots emissions).mpr fun slot member async => ?_
      rw [all slot member] at async
      cases async
  · intro waits
    rcases ends with done | ⟨-, nothing, blocked⟩
    · exact absurd done waits
    · exact ⟨nothing, blocked⟩

/-- The Sync slot has answered; the coroutine of the Async slot stays where it is. -/
def waitingInGet : State Unit Nat Nat Nat where
  slots := [⟨(), 3, .sync⟩, ⟨(), 10, .async⟩]
  coroutines := [{ slot := 1, slotFn := (), args := 3, future := 1, posted := false }]
  futures := [some 3, none]
  combiner := some { args := 3, first := 1, waiting := some 1, results := [3] }
  emissions := [4]

theorem return_on_one_thread_waitingInGet :
    Machine.run (step addTo) (start addingSlots [3, 4]) [.emit, .call, .get, .call] =
        some waitingInGet ∧ ¬ waitingInGet.Done := by
  have reached : Machine.run (step addTo) (start addingSlots [3, 4]) [.emit, .call, .get, .call] =
      some waitingInGet := rfl
  have oneThread : Machine.Allowed (step addTo) OneThread (start addingSlots [3, 4])
      [.emit, .call, .get, .call] := by
    decide +kernel
  have ended : ∀ label, OneThread waitingInGet label → step addTo waitingInGet label = none := by
    intro label oneThread
    cases label with
    | post index => cases oneThread
    | run index => cases oneThread
    | _ => rfl
  have returns := (return_on_one_thread_iff addingSlots [3, 4] oneThread reached ended).1
  refine ⟨reached, fun done => ?_⟩
  rcases returns.mp done with none | sync
  · cases none
  · cases sync ⟨(), 10, .async⟩ (by decide)

end Rtaco.Signal
