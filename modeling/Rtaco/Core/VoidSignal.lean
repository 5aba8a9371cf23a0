import Rtaco.Core.Signal
import Rtaco.Library.TaskPool

/-!
# `nl_signal.hxx`: slots without a result

Any number of threads emit, each walking the slots with `WaitAllCombiner<void>`, whose futures are
all ready. A Sync slot runs in place and may throw out of its emission. An Async slot hands a
coroutine to the executor, and `detached` drops what that throws.
-/

namespace Rtaco.VoidSignal

open TaskPool

universe u

variable {Args : Type u}

/-- A call of a slot function: by which emission, of which slot, and with what. -/
structure Call (Args : Type u) where
  emission : Nat
  slot : Nat
  args : Args
  deriving DecidableEq

/-- An emission is at the slot `first`, inside of it, or was left by its exception. -/
inductive Phase where
  | calling
  | inSlot
  | threw
  deriving DecidableEq

/-- The loop of `WaitAllCombiner<void>` in one emission. -/
structure Emission (Args : Type u) where
  args : Args
  first : Nat := 0
  phase : Phase := .calling
  deriving DecidableEq

/-- The emissions so far, and the calls of slot functions. -/
structure State (Args : Type u) where
  emissions : List (Emission Args) := []
  executor : Pool (Call Args) := {}
  deriving DecidableEq

inductive Label (Args : Type u) where
  | emit (args : Args)
  | call (emission : Nat)
  | leaveSlot (emission : Nat)
  | throwSlot (emission : Nat)
  | turn (turn : Turn)
  deriving DecidableEq

def State.put (state : State Args) (index : Nat) (emission : Emission Args) : State Args :=
  { state with emissions := state.emissions.set index emission }

/-- Behind the current slot. -/
def Emission.increment (emission : Emission Args) : Emission Args :=
  { emission with first := emission.first + 1, phase := .calling }

/-- The lambda of a slot. The future of an Async slot is ready, so the loop goes on at once. -/
def callSlot (state : State Args) (index : Nat) (emission : Emission Args) :
    ExecPolicy → State Args
  | .sync =>
      { state.put index { emission with phase := .inSlot } with
        executor := state.executor.perform ⟨index, emission.first, emission.args⟩ }
  | .async =>
      { state.put index emission.increment with
        executor := state.executor.spawn ⟨index, emission.first, emission.args⟩ }

/-- One step, where `slots` are those connected to the signal that takes the arguments. -/
def step (slots : Args → List ExecPolicy) (state : State Args) : Label Args → Option (State Args)
  | .emit args => some { state with emissions := state.emissions ++ [{ args := args }] }
  | .call index =>
      match state.emissions[index]? with
      | some emission =>
          match emission.phase, (slots emission.args)[emission.first]? with
          | .calling, some policy => some (callSlot state index emission policy)
          | _, _ => none
      | none => none
  | .leaveSlot index =>
      match state.emissions[index]? with
      | some emission =>
          if emission.phase = .inSlot then some (state.put index emission.increment) else none
      | none => none
  | .throwSlot index =>
      match state.emissions[index]? with
      | some emission =>
          if emission.phase = .inSlot then some (state.put index { emission with phase := .threw })
          else none
      | none => none
  | .turn turn => (state.executor.step turn).map fun executor => { state with executor := executor }

namespace Emission

/-- The number of slots that the emission has called. -/
def begun (emission : Emission Args) : Nat :=
  match emission.phase with
  | .calling => emission.first
  | .inSlot => emission.first + 1
  | .threw => emission.first + 1

theorem begun_of_calling {emission : Emission Args} (calling : emission.phase = .calling) :
    emission.begun = emission.first := by
  rw [begun, calling]

theorem begun_of_inSlot {emission : Emission Args} (inSlot : emission.phase = .inSlot) :
    emission.begun = emission.first + 1 := by
  rw [begun, inSlot]

/-- The loop has passed the last slot. -/
def Returned (slots : Args → List ExecPolicy) (emission : Emission Args) : Prop :=
  emission.phase = .calling ∧ emission.first = (slots emission.args).length

end Emission

section Inversion

variable {slots : Args → List ExecPolicy} {state next : State Args} {index : Nat}

theorem step_call (taken : step slots state (.call index) = some next) :
    ∃ emission policy, state.emissions[index]? = some emission ∧ emission.phase = .calling ∧
      (slots emission.args)[emission.first]? = some policy ∧
      next = callSlot state index emission policy := by
  simp only [step] at taken
  split at taken
  next emission present =>
    split at taken
    next policy calling connected =>
      exact ⟨emission, policy, present, calling, connected, (Option.some.inj taken).symm⟩
    next => cases taken
  next => cases taken

theorem step_leaveSlot (taken : step slots state (.leaveSlot index) = some next) :
    ∃ emission, state.emissions[index]? = some emission ∧ emission.phase = .inSlot ∧
      next = state.put index emission.increment := by
  simp only [step] at taken
  split at taken
  next emission present =>
    obtain ⟨inSlot, taken⟩ := Option.ite_none_right_eq_some.mp taken
    exact ⟨emission, present, inSlot, (Option.some.inj taken).symm⟩
  next => cases taken

theorem step_throwSlot (taken : step slots state (.throwSlot index) = some next) :
    ∃ emission, state.emissions[index]? = some emission ∧ emission.phase = .inSlot ∧
      next = state.put index { emission with phase := .threw } := by
  simp only [step] at taken
  split at taken
  next emission present =>
    obtain ⟨inSlot, taken⟩ := Option.ite_none_right_eq_some.mp taken
    exact ⟨emission, present, inSlot, (Option.some.inj taken).symm⟩
  next => cases taken

theorem step_turn {turn : Turn} (taken : step slots state (.turn turn) = some next) :
    ∃ executor, state.executor.step turn = some executor ∧
      next = { state with executor := executor } := by
  obtain ⟨executor, turned, same⟩ := Option.map_eq_some_iff.mp taken
  exact ⟨executor, turned, same.symm⟩

end Inversion

variable {slots : Args → List ExecPolicy} {state next : State Args} {label : Label Args}

/-- The arguments of an emission and how many slots it has called. -/
def State.called (state : State Args) (index : Nat) : Option (Args × Nat) :=
  state.emissions[index]?.map fun emission => (emission.args, emission.begun)

def IsSync (slots : Args → List ExecPolicy) (call : Call Args) : Prop :=
  (slots call.args)[call.slot]? = some .sync

instance (slots : Args → List ExecPolicy) (call : Call Args) : Decidable (IsSync slots call) :=
  inferInstanceAs (Decidable (_ = _))

/-- The Sync slots that ran in an emission, in the order they did. -/
def State.syncSlots (slots : Args → List ExecPolicy) (state : State Args) (index : Nat) :
    List Nat :=
  (state.executor.done.filter fun call => call.emission = index ∧ IsSync slots call).map Call.slot

/-- The first slots of an emission that are Sync. -/
def firstSync (slots : Args → List ExecPolicy) (args : Args) (count : Nat) : List Nat :=
  (List.range count).filter fun slot => (slots args)[slot]? = some .sync

/-- What every run keeps. -/
structure Delivers (slots : Args → List ExecPolicy) (state : State Args) : Prop where
  nodup : state.executor.tasks.Nodup
  mem : ∀ call, call ∈ state.executor.tasks ↔
    ∃ begun, state.called call.emission = some (call.args, begun) ∧ call.slot < begun
  inside : ∀ index args begun, state.called index = some (args, begun) →
    begun ≤ (slots args).length
  async : ∀ call ∈ state.executor.waiting.map Prod.fst, ¬ IsSync slots call
  inOrder : ∀ index args begun, state.called index = some (args, begun) →
    state.syncSlots slots index = firstSync slots args begun

theorem called_put {index : Nat} {emission : Emission Args}
    (present : state.emissions[index]? = some emission) (changed : Emission Args) :
    (state.put index changed).called =
      Function.update state.called index (some (changed.args, changed.begun)) := by
  obtain ⟨inside, -⟩ := List.getElem?_eq_some_iff.mp present
  funext other
  by_cases same : other = index
  · subst same
    rw [Function.update_self, State.called, State.put, List.getElem?_set_self inside]
    rfl
  · rw [Function.update_of_ne same, State.called, State.put, List.getElem?_set_ne (Ne.symm same)]
    rfl

theorem called_put_same {index : Nat} {emission changed : Emission Args}
    (present : state.emissions[index]? = some emission) (args : changed.args = emission.args)
    (begun : changed.begun = emission.begun) :
    (state.put index changed).called = state.called := by
  rw [called_put present, args, begun, Function.update_eq_self_iff, State.called, present]
  rfl

theorem called_emit (args : Args) :
    ({ state with emissions := state.emissions ++ [{ args := args }] } : State Args).called =
      Function.update state.called state.emissions.length (some (args, 0)) := by
  funext other
  by_cases same : other = state.emissions.length
  · subst same
    rw [Function.update_self, State.called, List.getElem?_concat_length]
    rfl
  · rw [Function.update_of_ne same, State.called, State.called, List.getElem?_append]
    split_ifs with inside
    · rfl
    · rw [List.getElem?_eq_none (by simp; omega), List.getElem?_eq_none (by omega)]

theorem firstSync_succ (args : Args) (count : Nat) :
    firstSync slots args (count + 1) =
      firstSync slots args count ++
        if (slots args)[count]? = some .sync then [count] else [] := by
  unfold firstSync
  rw [List.range_succ, List.filter_append, List.filter_singleton]
  simp

theorem Delivers.frame (delivers : Delivers slots state) (called : next.called = state.called)
    (executor : next.executor = state.executor) : Delivers slots next := by
  refine ⟨?_, ?_, ?_, ?_, ?_⟩
  · rw [executor]
    exact delivers.nodup
  · rw [executor, called]
    exact delivers.mem
  · rw [called]
    exact delivers.inside
  · rw [executor]
    exact delivers.async
  · unfold State.syncSlots
    rw [executor, called]
    exact delivers.inOrder

theorem Delivers.emit (delivers : Delivers slots state) (args : Args) :
    Delivers slots { state with emissions := state.emissions ++ [{ args := args }] } := by
  have fresh : state.called state.emissions.length = none := by
    rw [State.called, List.getElem?_eq_none (Nat.le_refl _)]
    rfl
  have unused : ∀ call ∈ state.executor.tasks, call.emission ≠ state.emissions.length := by
    intro call member same
    obtain ⟨begun, called, -⟩ := (delivers.mem call).mp member
    rw [same, fresh] at called
    cases called
  refine ⟨delivers.nodup, fun call => ?_, fun index other begun called => ?_, delivers.async,
    fun index other begun called => ?_⟩
  · rw [called_emit]
    by_cases same : call.emission = state.emissions.length
    · rw [same, Function.update_self]
      refine ⟨fun member => absurd same (unused call member), ?_⟩
      rintro ⟨begun, called, below⟩
      cases called
      exact absurd below (Nat.not_lt_zero _)
    · rw [Function.update_of_ne same]
      exact delivers.mem call
  · rw [called_emit] at called
    by_cases same : index = state.emissions.length
    · rw [same, Function.update_self] at called
      cases called
      exact Nat.zero_le _
    · rw [Function.update_of_ne same] at called
      exact delivers.inside index other begun called
  · rw [called_emit] at called
    by_cases same : index = state.emissions.length
    · rw [same, Function.update_self] at called
      cases called
      refine List.map_eq_nil_iff.mpr (List.filter_eq_nil_iff.mpr fun call member => ?_)
      have task : call ∈ state.executor.tasks := List.mem_append_left _ member
      simp [same, unused call task]
    · rw [Function.update_of_ne same] at called
      exact delivers.inOrder index other begun called

section Call

variable {index : Nat} {emission : Emission Args} {policy : ExecPolicy}

theorem callSlot_spec (present : state.emissions[index]? = some emission) :
    (callSlot state index emission policy).called =
        Function.update state.called index (some (emission.args, emission.first + 1)) ∧
      (callSlot state index emission policy).executor.tasks.Perm
        (state.executor.tasks ++ [⟨index, emission.first, emission.args⟩]) := by
  cases policy with
  | sync => exact ⟨called_put present _, Pool.tasks_perform _ _⟩
  | async =>
      refine ⟨called_put present _, ?_⟩
      exact List.Perm.of_eq (Pool.tasks_spawn state.executor ⟨index, emission.first, emission.args⟩)

theorem syncSlots_callSlot (connected : (slots emission.args)[emission.first]? = some policy)
    (other : Nat) :
    (callSlot state index emission policy).syncSlots slots other =
      state.syncSlots slots other ++
        if other = index ∧ policy = .sync then [emission.first] else [] := by
  cases policy with
  | sync =>
      unfold State.syncSlots callSlot Pool.perform
      rw [List.filter_append, List.map_append, List.filter_singleton]
      by_cases same : index = other <;> simp [same, IsSync, connected, eq_comm]
  | async =>
      rw [if_neg fun both => nomatch both.2]
      exact (List.append_nil _).symm

theorem Delivers.call (delivers : Delivers slots state)
    (present : state.emissions[index]? = some emission) (calling : emission.phase = .calling)
    (connected : (slots emission.args)[emission.first]? = some policy) :
    Delivers slots (callSlot state index emission policy) := by
  obtain ⟨called, tasks⟩ := @callSlot_spec _ _ _ _ policy present
  have here : state.called index = some (emission.args, emission.first) := by
    rw [State.called, present, Option.map_some, Emission.begun_of_calling calling]
  have new : (⟨index, emission.first, emission.args⟩ : Call Args) ∉ state.executor.tasks := by
    intro member
    obtain ⟨begun, earlier, below⟩ := (delivers.mem _).mp member
    rw [here] at earlier
    cases earlier
    exact absurd below (Nat.lt_irrefl _)
  refine ⟨?_, fun call => ?_, fun other args begun => ?_, ?_, fun other args begun => ?_⟩
  · refine (tasks.trans List.perm_append_comm).nodup_iff.mpr ?_
    exact List.nodup_cons.mpr ⟨new, delivers.nodup⟩
  · rw [tasks.mem_iff, List.mem_append, List.mem_singleton, called, delivers.mem]
    by_cases same : call.emission = index
    · rw [same, here, Function.update_self]
      constructor
      · rintro (⟨begun, earlier, below⟩ | rfl)
        · obtain ⟨args, rfl⟩ := Prod.mk.inj (Option.some.inj earlier)
          rw [← args]
          exact ⟨_, rfl, Nat.lt_succ_of_lt below⟩
        · exact ⟨_, rfl, Nat.lt_succ_self _⟩
      · rintro ⟨begun, later, below⟩
        obtain ⟨args, rfl⟩ := Prod.mk.inj (Option.some.inj later)
        rcases Nat.lt_succ_iff_lt_or_eq.mp below with earlier | last
        · rw [← args]
          exact .inl ⟨_, rfl, earlier⟩
        · refine .inr ?_
          cases call
          cases same
          cases args
          cases last
          rfl
    · rw [Function.update_of_ne same]
      refine or_iff_left fun equal => same ?_
      rw [equal]
  · rw [called]
    by_cases same : other = index
    · rw [same, Function.update_self]
      intro later
      cases later
      exact (List.getElem?_eq_some_iff.mp connected).1
    · rw [Function.update_of_ne same]
      exact delivers.inside other args begun
  · cases policy with
    | sync => exact delivers.async
    | async =>
        intro call member
        change call ∈ (state.executor.waiting ++ [(_, false)]).map Prod.fst at member
        rw [List.map_append, List.mem_append] at member
        rcases member with earlier | new
        · exact delivers.async call earlier
        · rw [List.mem_singleton.mp new, IsSync, connected]
          nofun
  · rw [called, syncSlots_callSlot connected]
    by_cases same : other = index
    · subst same
      rw [Function.update_self]
      intro later
      cases later
      rw [firstSync_succ, delivers.inOrder other _ _ here, connected]
      simp
    · rw [Function.update_of_ne same]
      intro earlier
      rw [if_neg fun both => same both.1, List.append_nil]
      exact delivers.inOrder other args begun earlier

end Call

theorem Delivers.turn {turn : Turn} {executor : Pool (Call Args)} (delivers : Delivers slots state)
    (turned : state.executor.step turn = some executor) :
    Delivers slots { state with executor := executor } := by
  have tasks := Pool.tasks_step turned
  obtain ⟨finished, done, flying⟩ := Pool.done_step turned
  refine ⟨tasks.nodup_iff.mpr delivers.nodup, fun call => ?_, delivers.inside, ?_, ?_⟩
  · exact tasks.mem_iff.trans (delivers.mem call)
  · exact fun call member => delivers.async call (Pool.waiting_step turned call member)
  · intro index args begun called
    have none : finished.filter
        (fun call => call.emission = index ∧ IsSync slots call) = [] := by
      refine List.filter_eq_nil_iff.mpr fun call member => ?_
      simp [delivers.async call (flying call member)]
    unfold State.syncSlots
    rw [done, List.filter_append, none, List.append_nil]
    exact delivers.inOrder index args begun called

theorem delivers_step (delivers : Delivers slots state)
    (taken : step slots state label = some next) : Delivers slots next := by
  cases label with
  | emit args =>
      cases taken
      exact delivers.emit args
  | call index =>
      obtain ⟨emission, policy, present, calling, connected, rfl⟩ := step_call taken
      exact delivers.call present calling connected
  | leaveSlot index =>
      obtain ⟨emission, present, inSlot, rfl⟩ := step_leaveSlot taken
      refine delivers.frame (called_put_same present rfl ?_) rfl
      exact (Emission.begun_of_inSlot inSlot).symm
  | throwSlot index =>
      obtain ⟨emission, present, inSlot, rfl⟩ := step_throwSlot taken
      refine delivers.frame (called_put_same present rfl ?_) rfl
      exact (Emission.begun_of_inSlot inSlot).symm
  | turn turn =>
      obtain ⟨executor, turned, rfl⟩ := step_turn taken
      exact delivers.turn turned

theorem delivers_start : Delivers slots {} := by
  refine ⟨List.nodup_nil, fun call => ?_, nofun, nofun, nofun⟩
  constructor
  · nofun
  · rintro ⟨begun, called, -⟩
    cases called

theorem delivers_of_run {labels : List (Label Args)} {finish : State Args}
    (reached : Machine.run (step slots) {} labels = some finish) : Delivers slots finish :=
  Machine.invariant_of_run (fun _ _ _ delivers taken => delivers_step delivers taken)
    delivers_start reached

theorem called_of_present {index : Nat} {emission : Emission Args}
    (present : state.emissions[index]? = some emission) :
    state.called index = some (emission.args, emission.begun) := by
  rw [State.called, present, Option.map_some]

theorem Delivers.begun_le (delivers : Delivers slots state) {index : Nat}
    {emission : Emission Args} (present : state.emissions[index]? = some emission) :
    emission.begun ≤ (slots emission.args).length :=
  delivers.inside index _ _ (called_of_present present)

/-- The arguments of the emissions of a run. -/
def emitted (labels : List (Label Args)) : List Args :=
  labels.filterMap fun
    | .emit args => some args
    | _ => none

theorem args_put {index : Nat} {emission changed : Emission Args}
    (present : state.emissions[index]? = some emission) (args : changed.args = emission.args) :
    (state.put index changed).emissions.map Emission.args = state.emissions.map Emission.args := by
  obtain ⟨inside, rfl⟩ := List.getElem?_eq_some_iff.mp present
  have same : state.emissions.map Emission.args =
      (state.emissions.map Emission.args).set index changed.args := by
    rw [args, ← List.map_set, List.set_getElem_self]
  rw [State.put, List.map_set]
  exact same.symm

theorem unthrown_put {index : Nat} {changed : Emission Args}
    (unthrown : ∀ emission ∈ state.emissions, emission.phase ≠ .threw)
    (goes : changed.phase ≠ .threw) :
    ∀ emission ∈ (state.put index changed).emissions, emission.phase ≠ .threw := by
  intro emission member
  rcases List.mem_or_eq_of_mem_set member with earlier | rfl
  · exact unthrown emission earlier
  · exact goes

theorem args_step (taken : step slots state label = some next) :
    next.emissions.map Emission.args = state.emissions.map Emission.args ++ emitted [label] := by
  cases label with
  | emit args =>
      cases taken
      exact List.map_append
  | call index =>
      obtain ⟨emission, policy, present, -, -, rfl⟩ := step_call taken
      refine Eq.trans ?_ (List.append_nil _).symm
      cases policy with
      | sync => exact args_put present rfl
      | async => exact args_put present rfl
  | leaveSlot index =>
      obtain ⟨emission, present, -, rfl⟩ := step_leaveSlot taken
      refine Eq.trans ?_ (List.append_nil _).symm
      exact args_put present rfl
  | throwSlot index =>
      obtain ⟨emission, present, -, rfl⟩ := step_throwSlot taken
      refine Eq.trans ?_ (List.append_nil _).symm
      exact args_put present rfl
  | turn turn =>
      obtain ⟨executor, -, rfl⟩ := step_turn taken
      exact (List.append_nil _).symm

theorem args_of_run {labels : List (Label Args)} {finish : State Args}
    (reached : Machine.run (step slots) {} labels = some finish) :
    finish.emissions.map Emission.args = emitted labels := by
  refine @Machine.invariant_of_run_trace _ _ (step slots)
    (fun state past => state.emissions.map Emission.args = emitted past)
    (fun state past label next earlier taken => ?_) _ _ _ rfl reached
  rw [args_step taken, earlier, emitted, emitted, emitted, List.filterMap_append]

theorem unthrown_step (calm : ∀ index, label ≠ .throwSlot index)
    (unthrown : ∀ emission ∈ state.emissions, emission.phase ≠ .threw)
    (taken : step slots state label = some next) :
    ∀ emission ∈ next.emissions, emission.phase ≠ .threw := by
  cases label with
  | emit args =>
      cases taken
      exact List.forall_mem_append.mpr ⟨unthrown, List.forall_mem_singleton.mpr nofun⟩
  | call index =>
      obtain ⟨emission, policy, -, -, -, rfl⟩ := step_call taken
      cases policy with
      | sync => exact unthrown_put unthrown nofun
      | async => exact unthrown_put unthrown nofun
  | leaveSlot index =>
      obtain ⟨emission, -, -, rfl⟩ := step_leaveSlot taken
      exact unthrown_put unthrown nofun
  | throwSlot index => exact absurd rfl (calm index)
  | turn turn =>
      obtain ⟨executor, -, rfl⟩ := step_turn taken
      exact unthrown

theorem unthrown_of_run {labels : List (Label Args)} {finish : State Args}
    (calm : ∀ index, .throwSlot index ∉ labels)
    (reached : Machine.run (step slots) {} labels = some finish) :
    ∀ emission ∈ finish.emissions, emission.phase ≠ .threw := by
  have allowed : Machine.Allowed (step slots)
      (fun _ label => ∀ index, label ≠ .throwSlot index) {} labels := by
    refine Machine.Allowed.of_mem fun label member _ index => ?_
    rintro rfl
    exact calm index member
  exact Machine.invariant (fun _ _ _ unthrown calm taken => unthrown_step calm unthrown taken)
    (fun _ member => absurd member List.not_mem_nil) allowed reached

/-- However the emitting threads and the executor interleave, and whichever slots throw, each
emission calls its slots from the first one on, each once and with its own arguments. The Sync slots
among them ran in place and in order; an Async one ran once or is in flight. -/
theorem calls_of_run {labels : List (Label Args)} {finish : State Args}
    (reached : Machine.run (step slots) {} labels = some finish) :
    finish.emissions.map Emission.args = emitted labels ∧
    finish.executor.tasks.Nodup ∧
    (∀ call, call ∈ finish.executor.tasks ↔ ∃ emission,
      finish.emissions[call.emission]? = some emission ∧ emission.args = call.args ∧
        call.slot < emission.begun) ∧
    (∀ call ∈ finish.executor.waiting.map Prod.fst, ¬ IsSync slots call) ∧
    ∀ index emission, finish.emissions[index]? = some emission →
      finish.syncSlots slots index = firstSync slots emission.args emission.begun ∧
        emission.begun ≤ (slots emission.args).length := by
  have delivers := delivers_of_run reached
  refine ⟨args_of_run reached, delivers.nodup, fun call => ?_, delivers.async,
    fun index emission present => ?_⟩
  · rw [delivers.mem, State.called]
    constructor
    · rintro ⟨begun, called, below⟩
      obtain ⟨emission, present, same⟩ := Option.map_eq_some_iff.mp called
      obtain ⟨args, rfl⟩ := Prod.mk.inj same
      exact ⟨emission, present, args, below⟩
    · rintro ⟨emission, present, args, below⟩
      refine ⟨emission.begun, ?_, below⟩
      rw [present, Option.map_some, args]
  · exact ⟨delivers.inOrder index _ _ (called_of_present present), delivers.begun_le present⟩

def twoEmissions : List (Label Nat) :=
  [.emit 3, .emit 4, .call 0, .call 1, .leaveSlot 1, .throwSlot 0, .call 1, .turn (.post 0)]

theorem calls_of_run_twoEmissions :
    ∃ finish, Machine.run (step fun _ => [.sync, .async]) {} twoEmissions = some finish ∧
      finish.emissions.map Emission.args = [3, 4] ∧ finish.executor.tasks.Nodup ∧
      finish.executor.done = [⟨0, 0, 3⟩, ⟨1, 0, 4⟩] := by
  have facts := @calls_of_run _ (fun _ => [.sync, .async]) twoEmissions _ rfl
  exact ⟨_, rfl, facts.1, facts.2.1, rfl⟩

/-- A step of an emitting thread. -/
def Label.Emits : Label Args → Prop
  | .turn _ => False
  | _ => True

theorem waiting_step (emits : label.Emits) (taken : step slots state label = some next) :
    state.executor.waiting <+: next.executor.waiting := by
  cases label with
  | emit args =>
      cases taken
      exact List.prefix_rfl
  | call index =>
      obtain ⟨emission, policy, -, -, -, rfl⟩ := step_call taken
      cases policy with
      | sync => exact List.prefix_rfl
      | async => exact List.prefix_append _ _
  | leaveSlot index =>
      obtain ⟨emission, -, -, rfl⟩ := step_leaveSlot taken
      exact List.prefix_rfl
  | throwSlot index =>
      obtain ⟨emission, -, -, rfl⟩ := step_throwSlot taken
      exact List.prefix_rfl
  | turn turn => exact emits.elim

theorem waiting_run {labels : List (Label Args)} {finish : State Args}
    (emits : ∀ label ∈ labels, label.Emits)
    (reached : Machine.run (step slots) state labels = some finish) :
    state.executor.waiting <+: finish.executor.waiting := by
  induction labels generalizing state with
  | nil =>
      cases reached
      exact List.prefix_rfl
  | cons label labels inductionHypothesis =>
      obtain ⟨next, taken, rest⟩ := Machine.run_cons_eq_some.mp reached
      obtain ⟨here, later⟩ := List.forall_mem_cons.mp emits
      exact (waiting_step here taken).trans (inductionHypothesis later rest)

/-- The emission goes on with its slots alone, and the executor takes no turn. -/
def Own (index : Nat) (label : Label Args) : Prop :=
  label = .call index ∨ label = .leaveSlot index

/-- From the slot it is at, an emission returns by two steps of its own for each slot left. -/
theorem exists_return {index : Nat} {emission : Emission Args} {count : Nat}
    (present : state.emissions[index]? = some emission) (calling : emission.phase = .calling)
    (left : emission.first + count = (slots emission.args).length) :
    ∃ labels after returned, labels.length ≤ 2 * count ∧ (∀ label ∈ labels, Own index label) ∧
      Machine.run (step slots) state labels = some after ∧
      after.emissions[index]? = some returned ∧ returned.Returned slots := by
  induction count generalizing state emission with
  | zero =>
      exact ⟨[], state, emission, Nat.le_refl _, nofun, rfl, present, calling, left⟩
  | succ count inductionHypothesis =>
      have connected : emission.first < (slots emission.args).length := by omega
      obtain ⟨inside, -⟩ := List.getElem?_eq_some_iff.mp present
      have called : step slots state (.call index) = some
          (callSlot state index emission (slots emission.args)[emission.first]) := by
        simp only [step, present, calling, List.getElem?_eq_getElem connected]
      have behind : emission.increment.first + count = (slots emission.increment.args).length := by
        change emission.first + 1 + count = (slots emission.args).length
        omega
      cases policy : (slots emission.args)[emission.first] with
      | async =>
          rw [policy] at called
          have moved : (callSlot state index emission .async).emissions[index]? =
              some emission.increment := List.getElem?_set_self inside
          obtain ⟨labels, after, returned, few, own, reached, whole⟩ :=
            inductionHypothesis moved rfl behind
          refine ⟨.call index :: labels, after, returned, ?_, ?_,
            Machine.run_cons_eq_some.mpr ⟨_, called, reached⟩, whole⟩
          · rw [List.length_cons]
            omega
          · exact List.forall_mem_cons.mpr ⟨.inl rfl, own⟩
      | sync =>
          rw [policy] at called
          have entered : (callSlot state index emission .sync).emissions[index]? =
              some { emission with phase := .inSlot } := List.getElem?_set_self inside
          have left : step slots (callSlot state index emission .sync) (.leaveSlot index) =
              some ((callSlot state index emission .sync).put index emission.increment) := by
            simp only [step, entered]
            rfl
          have moved : ((callSlot state index emission .sync).put index
              emission.increment).emissions[index]? = some emission.increment :=
            List.getElem?_set_self (by simpa [callSlot, State.put] using inside)
          obtain ⟨labels, after, returned, few, own, reached, whole⟩ :=
            inductionHypothesis moved rfl behind
          refine ⟨.call index :: .leaveSlot index :: labels, after, returned, ?_, ?_, ?_, whole⟩
          · rw [List.length_cons, List.length_cons]
            omega
          · exact List.forall_mem_cons.mpr ⟨.inl rfl, List.forall_mem_cons.mpr ⟨.inr rfl, own⟩⟩
          · exact Machine.run_cons_eq_some.mpr ⟨_, called,
              Machine.run_cons_eq_some.mpr ⟨_, left, reached⟩⟩

theorem run_turns {turns : List Turn} {settled : Pool (Call Args)}
    (turned : Machine.run Pool.step state.executor turns = some settled) :
    Machine.run (step slots) state (turns.map .turn) =
      some { state with executor := settled } := by
  induction turns generalizing state with
  | nil =>
      cases turned
      rfl
  | cons turn turns inductionHypothesis =>
      obtain ⟨executor, first, rest⟩ := Machine.run_cons_eq_some.mp turned
      refine Machine.run_cons_eq_some.mpr ⟨{ state with executor := executor }, ?_, ?_⟩
      · rw [step, first]
        rfl
      · exact @inductionHypothesis { state with executor := executor } rest

/-- Wherever a run leads, an emission that no slot has thrown out of can return by steps of its own,
at most two for each of its slots, while no coroutine runs. Then the turns of the executor end with
every call made that was handed over. -/
theorem emission_returns {labels : List (Label Args)} {finish : State Args}
    (reached : Machine.run (step slots) {} labels = some finish) {index : Nat}
    {emission : Emission Args} (present : finish.emissions[index]? = some emission)
    (unthrown : emission.phase ≠ .threw) :
    ∃ own after, own.length ≤ 2 * (slots emission.args).length ∧
      (∀ label ∈ own, Own index label) ∧ Machine.run (step slots) finish own = some after ∧
      finish.executor.waiting <+: after.executor.waiting ∧
      (∃ returned, after.emissions[index]? = some returned ∧ returned.Returned slots) ∧
      ∃ (turns : List Turn) (settled : State Args),
        Machine.run (step slots) after (turns.map .turn) = some settled ∧
        settled.executor.waiting = [] ∧ settled.executor.done.Perm after.executor.tasks := by
  have bound := (delivers_of_run reached).begun_le present
  obtain ⟨inside, -⟩ := List.getElem?_eq_some_iff.mp present
  have returns : ∃ own after returned, own.length ≤ 2 * (slots emission.args).length ∧
      (∀ label ∈ own, Own index label) ∧ Machine.run (step slots) finish own = some after ∧
      after.emissions[index]? = some returned ∧ returned.Returned slots := by
    cases phase : emission.phase with
    | calling =>
        rw [Emission.begun_of_calling phase] at bound
        obtain ⟨own, after, returned, few, rest⟩ :=
          exists_return present phase (Nat.add_sub_cancel' bound)
        refine ⟨own, after, returned, Nat.le_trans few ?_, rest⟩
        exact Nat.mul_le_mul_left 2 (Nat.sub_le _ _)
    | inSlot =>
        rw [Emission.begun_of_inSlot phase] at bound
        have left : step slots finish (.leaveSlot index) =
            some (finish.put index emission.increment) := by
          simp only [step, present, phase, if_true]
        have moved : (finish.put index emission.increment).emissions[index]? =
            some emission.increment := List.getElem?_set_self inside
        obtain ⟨own, after, returned, few, steps, run, whole⟩ :=
          exists_return moved rfl (Nat.add_sub_cancel' bound)
        refine ⟨.leaveSlot index :: own, after, returned, ?_,
          List.forall_mem_cons.mpr ⟨.inr rfl, steps⟩,
          Machine.run_cons_eq_some.mpr ⟨_, left, run⟩, whole⟩
        change own.length ≤ 2 * ((slots emission.args).length - (emission.first + 1)) at few
        rw [List.length_cons]
        omega
    | threw => exact absurd phase unthrown
  obtain ⟨own, after, returned, few, steps, run, whole⟩ := returns
  have emits : ∀ label ∈ own, label.Emits := by
    intro label member
    rcases steps label member with rfl | rfl <;> trivial
  obtain ⟨turns, settled, -, turned, empty, done⟩ := after.executor.exists_run_settled
  exact ⟨own, after, few, steps, run, waiting_run emits run, ⟨returned, whole⟩, turns, _,
    run_turns turned, empty, done⟩

theorem emission_returns_twoEmissions :
    ∃ finish own after, Machine.run (step fun _ => [.sync, .async]) {} (twoEmissions.take 4) =
        some finish ∧
      Machine.run (step fun _ => [.sync, .async]) finish own = some after ∧
      ∃ returned, after.emissions[1]? = some returned ∧
        returned.Returned fun _ => [.sync, .async] := by
  obtain ⟨own, after, -, -, run, -, returns, -⟩ := @emission_returns Nat
    (fun _ => [.sync, .async]) (twoEmissions.take 4) _ rfl 1 ⟨4, 0, .inSlot⟩ rfl (by decide)
  exact ⟨_, own, after, rfl, run, returns⟩

end Rtaco.VoidSignal
