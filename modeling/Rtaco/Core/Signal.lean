import Rtaco.Library.Machine
import Rtaco.Library.Mealy

/-!
# `nl_signal.hxx`: slots with a result

One thread emits and other threads run the executor. A label is a step of the
combiner on the emitting thread, or a step of a coroutine on the executor. A slot
function is an object with state of its own, which a copy does not share, and a
target it refers to, which all copies share.
-/

namespace Rtaco

universe u

inductive ExecPolicy where
  | sync
  | async
  deriving DecidableEq

namespace Signal

variable {Object Target Args Result : Type u}

/-- What the lambda that `connect` hands to `signal_` captures. -/
structure Slot (Object Target : Type u) where
  slotFn : Object
  target : Target
  policy : ExecPolicy
  deriving DecidableEq

/-- A coroutine given to `co_spawn`, with its copy of the slot function; `posted` once it is
past its `co_await post`. -/
structure Coroutine (Object Args : Type u) where
  slot : Nat
  slotFn : Object
  args : Args
  future : Nat
  posted : Bool
  deriving DecidableEq

/-- The loop of `WaitAllCombiner`; it waits in `get` for the future of the current slot. -/
structure Combiner (Args Result : Type u) where
  args : Args
  first : Nat := 0
  waiting : Option Nat := none
  results : List Result := []
  deriving DecidableEq

structure State (Object Target Args Result : Type u) where
  slots : List (Slot Object Target)
  coroutines : List (Coroutine Object Args) := []
  futures : List (Option Result) := []
  combiner : Option (Combiner Args Result) := none
  emissions : List Args
  returned : List (List Result) := []
  deriving DecidableEq

inductive Label where
  | emit
  | call
  | get
  | leave
  | post (coroutine : Nat)
  | run (coroutine : Nat)
  deriving DecidableEq

section Step

variable (invoke : Object → Target → Args → (Object × Target) × Result)

/-- The lambda of a slot: it calls the slot function, or spawns a coroutine with a copy. -/
def callSlot (state : State Object Target Args Result) (combiner : Combiner Args Result)
    (slot : Slot Object Target) : State Object Target Args Result :=
  let waiting := some { combiner with waiting := some state.futures.length }
  match slot.policy with
  | .sync =>
      let ((slotFn, target), result) := invoke slot.slotFn slot.target combiner.args
      { state with
        slots := state.slots.set combiner.first { slot with slotFn := slotFn, target := target }
        futures := state.futures ++ [some result]
        combiner := waiting }
  | .async =>
      { state with
        coroutines := state.coroutines ++ [{
          slot := combiner.first
          slotFn := slot.slotFn
          args := combiner.args
          future := state.futures.length
          posted := false }]
        futures := state.futures ++ [none]
        combiner := waiting }

/-- The body of a coroutine; its copy of the slot function ends with it. -/
def runCoroutine (state : State Object Target Args Result) (index : Nat)
    (coroutine : Coroutine Object Args) (slot : Slot Object Target) :
    State Object Target Args Result :=
  let ((_, target), result) := invoke coroutine.slotFn slot.target coroutine.args
  { state with
    slots := state.slots.set coroutine.slot { slot with target := target }
    coroutines := state.coroutines.eraseIdx index
    futures := state.futures.set coroutine.future (some result) }

def step (state : State Object Target Args Result) :
    Label → Option (State Object Target Args Result)
  | .emit =>
      match state.combiner, state.emissions with
      | none, args :: emissions =>
          some { state with combiner := some { args := args }, emissions := emissions }
      | _, _ => none
  | .call =>
      match state.combiner with
      | some combiner =>
          match combiner.waiting, state.slots[combiner.first]? with
          | none, some slot => some (callSlot invoke state combiner slot)
          | _, _ => none
      | none => none
  | .get =>
      match state.combiner with
      | some combiner =>
          match combiner.waiting.bind fun future => state.futures[future]?.join with
          | some result =>
              some { state with combiner := some { combiner with
                first := combiner.first + 1
                waiting := none
                results := combiner.results ++ [result] } }
          | none => none
      | none => none
  | .leave =>
      match state.combiner with
      | some combiner =>
          match combiner.waiting, state.slots[combiner.first]? with
          | none, none =>
              some { state with combiner := none, returned := state.returned ++ [combiner.results] }
          | _, _ => none
      | none => none
  | .post index =>
      match state.coroutines[index]? with
      | some coroutine =>
          if coroutine.posted then none
          else
            some { state with
              coroutines := state.coroutines.set index { coroutine with posted := true } }
      | none => none
  | .run index =>
      match state.coroutines[index]? with
      | some coroutine =>
          match coroutine.posted, state.slots[coroutine.slot]? with
          | true, some slot => some (runCoroutine invoke state index coroutine slot)
          | _, _ => none
      | none => none

end Step

/-- A thread about to make the emissions, on a signal with the given slots connected. -/
def start (slots : List (Slot Object Target)) (emissions : List Args) :
    State Object Target Args Result where
  slots := slots
  emissions := emissions

/-- All emissions have returned. -/
def State.Done (state : State Object Target Args Result) : Prop :=
  state.combiner = none ∧ state.emissions = []

/-- The slot function as connected, without its policy. -/
def Slot.functor (slot : Slot Object Target) : Object × Target := (slot.slotFn, slot.target)

section Calls

variable (invoke : Object → Target → Args → (Object × Target) × Result)

/-- A call that carries the state of the slot function over to the next one. -/
def carry (functor : Object × Target) (args : Args) : (Object × Target) × Result :=
  invoke functor.1 functor.2 args

/-- A call of a copy of the slot function. -/
def copy (functor : Object × Target) (args : Args) : (Object × Target) × Result :=
  ((functor.1, (invoke functor.1 functor.2 args).1.2), (invoke functor.1 functor.2 args).2)

/-- One row an emission, with what each slot function returns on its call of that number when
its state is carried over from its earlier calls. -/
def expected (functors : List (Object × Target)) (emissions : List Args) : List (List Result) :=
  Mealy.rows (carry invoke) functors emissions

/-- The slot function returns the same values when each call is of a fresh copy of it. -/
def CopiesAgree (functor : Object × Target) (emissions : List Args) : Prop :=
  Mealy.outputs (copy invoke) functor emissions = Mealy.outputs (carry invoke) functor emissions

instance [DecidableEq Result] (functor : Object × Target) (emissions : List Args) :
    Decidable (CopiesAgree invoke functor emissions) :=
  inferInstanceAs (Decidable (_ = _))

end Calls

end Signal

end Rtaco
