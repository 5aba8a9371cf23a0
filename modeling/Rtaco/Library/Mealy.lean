import Mathlib.Data.List.Basic
import Mathlib.Tactic.Common

/-!
# Mealy machines in lockstep

A Mealy machine answers every input and moves to a next state. Several machines
that see the same inputs give one row of answers for each input.
-/

namespace Mealy

universe u v w

variable {State : Type u} {Input : Type v} {Output : Type w}

/-- The answers of one machine. -/
def outputs (step : State → Input → State × Output) : State → List Input → List Output
  | _, [] => []
  | state, input :: inputs => (step state input).2 :: outputs step (step state input).1 inputs

/-- The answers of several machines, a row for each input. -/
def rows (step : State → Input → State × Output) : List State → List Input → List (List Output)
  | _, [] => []
  | states, input :: inputs =>
      (states.map fun state => (step state input).2) ::
        rows step (states.map fun state => (step state input).1) inputs

/-- The machines behind a list of inputs. -/
def after (step : State → Input → State × Output) (states : List State) (inputs : List Input) :
    List State :=
  inputs.foldl (fun states input => states.map fun state => (step state input).1) states

variable {step : State → Input → State × Output}

@[simp]
theorem length_rows (states : List State) (inputs : List Input) :
    (rows step states inputs).length = inputs.length := by
  induction inputs generalizing states with
  | nil => rfl
  | cons input inputs inductionHypothesis => simp [rows, inductionHypothesis]

@[simp]
theorem length_after (states : List State) (inputs : List Input) :
    (after step states inputs).length = states.length := by
  unfold after
  induction inputs generalizing states with
  | nil => rfl
  | cons input inputs inductionHypothesis => simp [inductionHypothesis]

theorem after_concat (states : List State) (inputs : List Input) (input : Input) :
    after step states (inputs ++ [input]) =
      (after step states inputs).map fun state => (step state input).1 := by
  simp [after]

theorem rows_append (states : List State) (first second : List Input) :
    rows step states (first ++ second) =
      rows step states first ++ rows step (after step states first) second := by
  induction first generalizing states with
  | nil => rfl
  | cons input first inductionHypothesis =>
      simp only [List.cons_append, rows, inductionHypothesis]
      rfl

theorem rows_concat (states : List State) (inputs : List Input) (input : Input) :
    rows step states (inputs ++ [input]) =
      rows step states inputs ++
        [(after step states inputs).map fun state => (step state input).2] :=
  rows_append states inputs [input]

theorem rows_entry (states : List State) (inputs : List Input) (row column : Nat) :
    ((rows step states inputs)[row]?.bind fun answers => answers[column]?) =
      states[column]?.bind fun state => (outputs step state inputs)[row]? := by
  induction inputs generalizing states row with
  | nil => simp [rows, outputs]
  | cons input inputs inductionHypothesis =>
      cases row with
      | zero => cases found : states[column]? <;> simp [rows, outputs, found]
      | succ row =>
          simp only [rows, outputs, List.getElem?_cons_succ, inductionHypothesis,
            List.getElem?_map]
          cases states[column]? <;> rfl

/-- Machines and their views give the same rows exactly if each gives the answers of its view. -/
theorem rows_eq_iff {View : Type u} {other : View → Input → View × Output} (view : State → View)
    (states : List State) (inputs : List Input) :
    rows step states inputs = rows other (states.map view) inputs ↔
      ∀ state ∈ states, outputs step state inputs = outputs other (view state) inputs := by
  constructor
  · intro same state member
    obtain ⟨column, found⟩ := List.mem_iff_getElem?.mp member
    apply List.ext_getElem?
    intro row
    have first := @rows_entry _ _ _ step states inputs row column
    have second := @rows_entry _ _ _ other (states.map view) inputs row column
    rw [List.getElem?_map] at second
    rw [found, Option.bind_some] at first
    rw [found, Option.map_some, Option.bind_some] at second
    rw [← first, ← second, same]
  · intro same
    apply List.ext_getElem (by simp)
    intro row inFirst inSecond
    apply List.ext_getElem?
    intro column
    have first := @rows_entry _ _ _ step states inputs row column
    have second := @rows_entry _ _ _ other (states.map view) inputs row column
    rw [List.getElem?_map] at second
    rw [List.getElem?_eq_getElem inFirst, Option.bind_some] at first
    rw [List.getElem?_eq_getElem inSecond, Option.bind_some] at second
    rw [first, second]
    cases found : states[column]? with
    | none => rfl
    | some state =>
        have answers := same state (List.mem_of_getElem? found)
        rw [Option.map_some, Option.bind_some, Option.bind_some, answers]

theorem outputs_eq {View : Type u} {other : View → Input → View × Output} {view : State → View}
    {Kept : State → Prop}
    (agree : ∀ state input, Kept state → Kept (step state input).1 ∧
      view (step state input).1 = (other (view state) input).1 ∧
      (step state input).2 = (other (view state) input).2)
    {state : State} (kept : Kept state) (inputs : List Input) :
    outputs step state inputs = outputs other (view state) inputs := by
  induction inputs generalizing state with
  | nil => rfl
  | cons input inputs inductionHypothesis =>
      obtain ⟨still, moved, answered⟩ := agree state input kept
      rw [outputs, outputs, answered, inductionHypothesis still, moved]

end Mealy
