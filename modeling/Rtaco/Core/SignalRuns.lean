import Rtaco.Core.Signal

/-!
# Runs of a signal

At most one coroutine is on the executor, and the combiner waits for it. So a run
is determined up to the steps the executor takes in between: every emission
returns what the slots answer in connection order.
-/

namespace Rtaco.Signal

universe u

variable {Object Target Args Result : Type u}
  {invoke : Object → Target → Args → (Object × Target) × Result}

/-- What one emission does to a slot. -/
def Slot.answer (invoke : Object → Target → Args → (Object × Target) × Result)
    (slot : Slot Object Target) (args : Args) : Slot Object Target × Result :=
  let moved := match slot.policy with
    | .sync => carry invoke slot.functor args
    | .async => copy invoke slot.functor args
  ({ slotFn := moved.1.1, target := moved.1.2, policy := slot.policy }, moved.2)

/-- The slots of a list behind the call of each. -/
def called (invoke : Object → Target → Args → (Object × Target) × Result) (args : Args)
    (slots : List (Slot Object Target)) : List (Slot Object Target) :=
  slots.map fun slot => (slot.answer invoke args).1

def answers (invoke : Object → Target → Args → (Object × Target) × Result) (args : Args)
    (slots : List (Slot Object Target)) : List Result :=
  slots.map fun slot => (slot.answer invoke args).2

@[simp]
theorem length_called (args : Args) (slots : List (Slot Object Target)) :
    (called invoke args slots).length = slots.length :=
  List.length_map _

theorem called_concat (args : Args) (slots : List (Slot Object Target))
    (slot : Slot Object Target) :
    called invoke args (slots ++ [slot]) =
      called invoke args slots ++ [(slot.answer invoke args).1] := by
  simp [called]

theorem answers_concat (args : Args) (slots : List (Slot Object Target))
    (slot : Slot Object Target) :
    answers invoke args (slots ++ [slot]) =
      answers invoke args slots ++ [(slot.answer invoke args).2] := by
  simp [answers]

/-- The states of a run: `made` are the arguments of the emissions that have returned, and the
combiner is behind the slots of `front`. -/
inductive Progress (invoke : Object → Target → Args → (Object × Target) × Result)
    (slots : List (Slot Object Target)) (emissions : List Args) :
    State Object Target Args Result → Prop where
  | idle {made left : List Args} {futures : List (Option Result)}
      (split : made ++ left = emissions) :
      Progress invoke slots emissions
        { slots := Mealy.after (Slot.answer invoke) slots made
          futures := futures
          emissions := left
          returned := Mealy.rows (Slot.answer invoke) slots made }
  | between {made left : List Args} {args : Args} {futures : List (Option Result)}
      {front back : List (Slot Object Target)} (split : made ++ args :: left = emissions)
      (current : Mealy.after (Slot.answer invoke) slots made = front ++ back) :
      Progress invoke slots emissions
        { slots := called invoke args front ++ back
          futures := futures
          combiner := some {
            args := args
            first := front.length
            results := answers invoke args front }
          emissions := left
          returned := Mealy.rows (Slot.answer invoke) slots made }
  | spawned {made left : List Args} {args : Args} {futures : List (Option Result)}
      {front back : List (Slot Object Target)} {slot : Slot Object Target} {future : Nat}
      {posted : Bool} (split : made ++ args :: left = emissions)
      (current : Mealy.after (Slot.answer invoke) slots made = front ++ slot :: back)
      (async : slot.policy = .async) (unset : futures[future]? = some none) :
      Progress invoke slots emissions
        { slots := called invoke args front ++ slot :: back
          coroutines := [{
            slot := front.length
            slotFn := slot.slotFn
            args := args
            future := future
            posted := posted }]
          futures := futures
          combiner := some {
            args := args
            first := front.length
            waiting := some future
            results := answers invoke args front }
          emissions := left
          returned := Mealy.rows (Slot.answer invoke) slots made }
  | ready {made left : List Args} {args : Args} {futures : List (Option Result)}
      {front back : List (Slot Object Target)} {slot : Slot Object Target} {future : Nat}
      (split : made ++ args :: left = emissions)
      (current : Mealy.after (Slot.answer invoke) slots made = front ++ slot :: back)
      (set : futures[future]? = some (some (slot.answer invoke args).2)) :
      Progress invoke slots emissions
        { slots := called invoke args front ++ (slot.answer invoke args).1 :: back
          futures := futures
          combiner := some {
            args := args
            first := front.length
            waiting := some future
            results := answers invoke args front }
          emissions := left
          returned := Mealy.rows (Slot.answer invoke) slots made }

/-- The steps the combiner and the executor can take before the combiner leaves: four for each
slot and one to leave. -/
def combinerSteps (count : Nat) : Option (Combiner Args Result) → Nat
  | none => 0
  | some combiner =>
      match combiner.waiting with
      | none => 4 * (count - combiner.first) + 1
      | some _ => 4 * (count - combiner.first) - 2

/-- The steps a coroutine has left. -/
def coroutineSteps (coroutine : Coroutine Object Args) : Nat :=
  match coroutine.posted with
  | true => 1
  | false => 2

def remaining (count : Nat) (state : State Object Target Args Result) : Nat :=
  state.emissions.length * (4 * count + 2) + combinerSteps count state.combiner +
    state.coroutines.foldr (fun coroutine steps => coroutineSteps coroutine + steps) 0

variable {slots : List (Slot Object Target)} {emissions : List Args}
  {state next : State Object Target Args Result}

theorem getElem?_called (args : Args) (front back : List (Slot Object Target)) :
    (called invoke args front ++ back)[front.length]? = back.head? := by
  rw [List.getElem?_append_right (by simp), length_called, Nat.sub_self, List.head?_eq_getElem?]

theorem set_called (args : Args) (front back : List (Slot Object Target))
    (slot changed : Slot Object Target) :
    (called invoke args front ++ slot :: back).set front.length changed =
      called invoke args front ++ changed :: back := by
  simp

theorem callSlot_of_sync {combiner : Combiner Args Result} {slot : Slot Object Target}
    (sync : slot.policy = .sync) :
    callSlot invoke state combiner slot =
      { state with
        slots := state.slots.set combiner.first (slot.answer invoke combiner.args).1
        futures := state.futures ++ [some (slot.answer invoke combiner.args).2]
        combiner := some { combiner with waiting := some state.futures.length } } := by
  obtain ⟨slotFn, target, policy⟩ := slot
  cases sync
  rfl

theorem callSlot_of_async {combiner : Combiner Args Result} {slot : Slot Object Target}
    (async : slot.policy = .async) :
    callSlot invoke state combiner slot =
      { state with
        coroutines := state.coroutines ++ [{
          slot := combiner.first
          slotFn := slot.slotFn
          args := combiner.args
          future := state.futures.length
          posted := false }]
        futures := state.futures ++ [none]
        combiner := some { combiner with waiting := some state.futures.length } } := by
  obtain ⟨slotFn, target, policy⟩ := slot
  cases async
  rfl

/-- A coroutine does to the slot it was spawned by what its call would do. -/
theorem runCoroutine_of_async {coroutine : Coroutine Object Args} {slot : Slot Object Target}
    (index : Nat) (async : slot.policy = .async) (copied : coroutine.slotFn = slot.slotFn) :
    runCoroutine invoke state index coroutine slot =
      { state with
        slots := state.slots.set coroutine.slot (slot.answer invoke coroutine.args).1
        coroutines := state.coroutines.eraseIdx index
        futures := state.futures.set coroutine.future
          (some (slot.answer invoke coroutine.args).2) } := by
  obtain ⟨slotFn, target, policy⟩ := slot
  obtain ⟨place, object, args, future, posted⟩ := coroutine
  cases async
  cases copied
  rfl

theorem length_of_split {made front back : List (Slot Object Target)} {inputs : List Args}
    (current : Mealy.after (Slot.answer invoke) made inputs = front ++ back) :
    made.length = front.length + back.length := by
  rw [← List.length_append, ← current, Mealy.length_after]

namespace Progress

theorem emit (progress : Progress invoke slots emissions state)
    (taken : step invoke state .emit = some next) :
    Progress invoke slots emissions next ∧ remaining slots.length next <
      remaining slots.length state := by
  cases progress with
  | @idle made left futures split =>
      cases left with
      | nil => simp [step] at taken
      | cons args left =>
          simp only [step, Option.some.injEq] at taken
          subst taken
          refine ⟨?_, ?_⟩
          · exact @between _ _ _ _ invoke slots emissions made left args futures [] _ split rfl
          · simp only [remaining, combinerSteps, List.length_cons, Nat.succ_mul]
            omega
  | between => simp [step] at taken
  | spawned => simp [step] at taken
  | ready => simp [step] at taken

theorem call (progress : Progress invoke slots emissions state)
    (taken : step invoke state .call = some next) :
    Progress invoke slots emissions next ∧ remaining slots.length next <
      remaining slots.length state := by
  cases progress with
  | idle => simp [step] at taken
  | @between made left args futures front back split current =>
      cases back with
      | nil =>
          simp only [step, getElem?_called] at taken
          simp at taken
      | cons slot back =>
          have count := length_of_split current
          rw [List.length_cons] at count
          simp only [step, getElem?_called, List.head?_cons, Option.some.injEq] at taken
          subst taken
          cases policy : slot.policy with
          | sync =>
              rw [callSlot_of_sync policy, set_called]
              refine ⟨?_, ?_⟩
              · exact ready split current (by simp)
              · simp only [remaining, combinerSteps, List.foldr_nil]
                omega
          | async =>
              rw [callSlot_of_async policy]
              refine ⟨?_, ?_⟩
              · exact spawned split current policy (by simp)
              · simp only [remaining, combinerSteps, coroutineSteps, List.nil_append, List.foldr_cons,
                  List.foldr_nil]
                omega
  | spawned => simp [step] at taken
  | ready => simp [step] at taken

theorem get (progress : Progress invoke slots emissions state)
    (taken : step invoke state .get = some next) :
    Progress invoke slots emissions next ∧ remaining slots.length next <
      remaining slots.length state := by
  cases progress with
  | idle => simp [step] at taken
  | between => simp [step] at taken
  | spawned split current async unset => simp [step, unset] at taken
  | @ready made left args futures front back slot future split current set =>
      have count := length_of_split current
      rw [List.length_cons] at count
      simp only [step, Option.bind_some, set, Option.join_some, Option.some.injEq] at taken
      subst taken
      refine ⟨?_, ?_⟩
      · have following : Mealy.after (Slot.answer invoke) slots made =
            (front ++ [slot]) ++ back := by
          simp [current]
        have moved := @between _ _ _ _ invoke slots emissions made left args futures _ _ split
          following
        simpa [called_concat, answers_concat] using moved
      · simp only [remaining, combinerSteps, List.foldr_nil]
        omega

theorem leave (progress : Progress invoke slots emissions state)
    (taken : step invoke state .leave = some next) :
    Progress invoke slots emissions next ∧ remaining slots.length next <
      remaining slots.length state := by
  cases progress with
  | idle => simp [step] at taken
  | @between made left args futures front back split current =>
      cases back with
      | cons slot back => simp [step] at taken
      | nil =>
          have count := length_of_split current
          simp only [step, getElem?_called, List.head?_nil, Option.some.injEq] at taken
          subst taken
          rw [List.append_nil] at current
          refine ⟨?_, ?_⟩
          · have finished := @idle _ _ _ _ invoke slots emissions (made ++ [args]) left futures
              (by simpa using split)
            rw [Mealy.after_concat, Mealy.rows_concat, current] at finished
            simpa [called, answers] using finished
          · simp only [remaining, combinerSteps, List.foldr_nil]
            omega
  | spawned => simp [step] at taken
  | ready => simp [step] at taken

theorem post {index : Nat} (progress : Progress invoke slots emissions state)
    (taken : step invoke state (.post index) = some next) :
    Progress invoke slots emissions next ∧ remaining slots.length next <
      remaining slots.length state := by
  cases progress with
  | idle => simp [step] at taken
  | between => simp [step] at taken
  | @spawned made left args futures front back slot future posted split current async unset =>
      cases index with
      | succ index => simp [step] at taken
      | zero =>
          cases posted with
          | true => simp [step] at taken
          | false =>
              simp [step] at taken
              subst taken
              refine ⟨spawned split current async unset, ?_⟩
              simp only [remaining, coroutineSteps, List.foldr_cons, List.foldr_nil]
              omega
  | ready => simp [step] at taken

theorem run {index : Nat} (progress : Progress invoke slots emissions state)
    (taken : step invoke state (.run index) = some next) :
    Progress invoke slots emissions next ∧ remaining slots.length next <
      remaining slots.length state := by
  cases progress with
  | idle => simp [step] at taken
  | between => simp [step] at taken
  | @spawned made left args futures front back slot future posted split current async unset =>
      cases index with
      | succ index => simp [step] at taken
      | zero =>
          cases posted with
          | false => simp [step] at taken
          | true =>
              have inside := (List.getElem?_eq_some_iff.mp unset).1
              simp only [step, List.getElem?_cons_zero, getElem?_called, List.head?_cons,
                Option.some.injEq] at taken
              subst taken
              rw [runCoroutine_of_async 0 async rfl, set_called]
              refine ⟨ready split current ?_, ?_⟩
              · simp [inside]
              · simp only [remaining, coroutineSteps, List.eraseIdx_cons_zero, List.foldr_cons,
                  List.foldr_nil]
                omega
  | ready => simp [step] at taken

/-- The step lemma: every step keeps the description of the run and leaves fewer to take. -/
theorem step {label : Label} (progress : Progress invoke slots emissions state)
    (taken : Signal.step invoke state label = some next) :
    Progress invoke slots emissions next ∧ remaining slots.length next <
      remaining slots.length state := by
  cases label with
  | emit => exact progress.emit taken
  | call => exact progress.call taken
  | get => exact progress.get taken
  | leave => exact progress.leave taken
  | post index => exact progress.post taken
  | run index => exact progress.run taken

theorem exists_step (progress : Progress invoke slots emissions state) (waits : ¬ state.Done) :
    ∃ label, (Signal.step invoke state label).isSome := by
  cases progress with
  | @idle made left futures split =>
      cases left with
      | nil => exact absurd ⟨rfl, rfl⟩ waits
      | cons args left => exact ⟨.emit, by simp [Signal.step]⟩
  | @between made left args futures front back split current =>
      cases back with
      | nil => exact ⟨.leave, by simp [Signal.step]⟩
      | cons slot back => exact ⟨.call, by simp [Signal.step]⟩
  | @spawned made left args futures front back slot future posted split current async unset =>
      cases posted with
      | false => exact ⟨.post 0, by simp [Signal.step]⟩
      | true => exact ⟨.run 0, by simp [Signal.step]⟩
  | ready split current set => exact ⟨.get, by simp [Signal.step, set]⟩

theorem returned_prefix (progress : Progress invoke slots emissions state) :
    state.returned <+: Mealy.rows (Slot.answer invoke) slots emissions := by
  cases progress with
  | idle split =>
      rw [← split, Mealy.rows_append]
      exact List.prefix_append _ _
  | between split =>
      rw [← split, Mealy.rows_append]
      exact List.prefix_append _ _
  | spawned split =>
      rw [← split, Mealy.rows_append]
      exact List.prefix_append _ _
  | ready split =>
      rw [← split, Mealy.rows_append]
      exact List.prefix_append _ _

theorem returned_of_done (progress : Progress invoke slots emissions state) (done : state.Done) :
    state.returned = Mealy.rows (Slot.answer invoke) slots emissions := by
  obtain ⟨noCombiner, noEmission⟩ := done
  cases progress with
  | @idle made left futures split =>
      cases noEmission
      rw [List.append_nil] at split
      rw [split]
  | between => simp at noCombiner
  | spawned => simp at noCombiner
  | ready => simp at noCombiner

end Progress

theorem outputs_answer_of_sync {slot : Slot Object Target} (sync : slot.policy = .sync)
    (emissions : List Args) :
    Mealy.outputs (Slot.answer invoke) slot emissions =
      Mealy.outputs (carry invoke) slot.functor emissions := by
  apply @Mealy.outputs_eq _ _ _ _ _ _ Slot.functor (fun slot => slot.policy = .sync) _ _ sync
  rintro ⟨slotFn, target, policy⟩ args same
  cases same
  exact ⟨rfl, rfl, rfl⟩

theorem outputs_answer_of_async {slot : Slot Object Target} (async : slot.policy = .async)
    (emissions : List Args) :
    Mealy.outputs (Slot.answer invoke) slot emissions =
      Mealy.outputs (copy invoke) slot.functor emissions := by
  apply @Mealy.outputs_eq _ _ _ _ _ _ Slot.functor (fun slot => slot.policy = .async) _ _ async
  rintro ⟨slotFn, target, policy⟩ args same
  cases same
  exact ⟨rfl, rfl, rfl⟩

theorem rows_answer_eq_expected_iff (slots : List (Slot Object Target)) (emissions : List Args) :
    Mealy.rows (Slot.answer invoke) slots emissions =
        expected invoke (slots.map Slot.functor) emissions ↔
      ∀ slot ∈ slots, slot.policy = .async → CopiesAgree invoke slot.functor emissions := by
  rw [expected, Mealy.rows_eq_iff]
  constructor
  · intro same slot member async
    have answers := same slot member
    rw [outputs_answer_of_async async] at answers
    exact answers
  · intro agree slot member
    cases policy : slot.policy with
    | sync => exact outputs_answer_of_sync policy emissions
    | async =>
        rw [outputs_answer_of_async policy]
        exact agree slot member policy

/-- Under every schedule the emissions return, and they return what the slots do with their
state carried over exactly if no Async slot can tell a fresh copy from the slot it connected. -/
theorem emissions_carry_over_iff (slots : List (Slot Object Target)) (emissions : List Args)
    {labels : List Label} {finish : State Object Target Args Result}
    (reached : Machine.run (step invoke) (start slots emissions) labels = some finish) :
    labels.length ≤ emissions.length * (4 * slots.length + 2) ∧
    (¬ finish.Done → ∃ label, (step invoke finish label).isSome) ∧
    ((∀ slot ∈ slots, slot.policy = .async → CopiesAgree invoke slot.functor emissions) →
      finish.returned <+: expected invoke (slots.map Slot.functor) emissions) ∧
    (finish.Done →
      (finish.returned = expected invoke (slots.map Slot.functor) emissions ↔
        ∀ slot ∈ slots, slot.policy = .async → CopiesAgree invoke slot.functor emissions)) := by
  have initially : Progress invoke slots emissions (start slots emissions) :=
    .idle (List.nil_append emissions)
  have steps := Machine.length_add_measure_le (remaining slots.length)
    (fun _ _ _ progress taken => progress.step taken) initially reached
  have progress := Machine.invariant_of_run
    (fun _ _ _ progress taken => (progress.step taken).1) initially reached
  have agree := @rows_answer_eq_expected_iff _ _ _ _ invoke slots emissions
  refine ⟨?_, progress.exists_step, ?_, ?_⟩
  · simp [remaining, combinerSteps, start] at steps
    omega
  · intro copies
    rw [← agree.mpr copies]
    exact progress.returned_prefix
  · intro done
    rw [progress.returned_of_done done]
    exact agree

/-- A functor that adds to a sum it refers to. -/
def addTo (_ : Unit) (sum args : Nat) : (Unit × Nat) × Nat := (((), sum + args), sum + args)

def addingSlots : List (Slot Unit Nat) := [⟨(), 0, .sync⟩, ⟨(), 10, .async⟩]

def mixedSchedule : List Label := [.emit, .call, .get, .call, .post 0, .run 0, .get, .leave]

theorem emissions_carry_over_addTo :
    ∃ finish, Machine.run (step addTo) (start addingSlots [3, 4])
        (mixedSchedule ++ mixedSchedule) = some finish ∧
      finish.returned = [[3, 13], [7, 17]] := by
  have reached : Machine.run (step addTo) (start addingSlots [3, 4])
      (mixedSchedule ++ mixedSchedule) = some {
        slots := [⟨(), 7, .sync⟩, ⟨(), 17, .async⟩]
        futures := [some 3, some 13, some 7, some 17]
        emissions := []
        returned := [[3, 13], [7, 17]] } := rfl
  have entries := (emissions_carry_over_iff addingSlots [3, 4] reached).2.2.2
  exact ⟨_, reached, (entries ⟨rfl, rfl⟩).mpr (by decide)⟩

/-- A functor that counts its own calls. -/
def countCalls (calls : Nat) (_ _ : Unit) : (Nat × Unit) × Nat := ((calls + 1, ()), calls + 1)

/-- Connected as Async, it counts every call as its first. -/
theorem async_counter_starts_again :
    ∃ finish, Machine.run (step countCalls) (start [⟨0, (), .async⟩] [(), ()])
        [.emit, .call, .post 0, .run 0, .get, .leave,
          .emit, .call, .post 0, .run 0, .get, .leave] = some finish ∧
      finish.Done ∧ finish.returned = [[1], [1]] ∧
      expected countCalls [(0, ())] [(), ()] = [[1], [2]] :=
  ⟨_, rfl, ⟨rfl, rfl⟩, rfl, rfl⟩

end Rtaco.Signal
