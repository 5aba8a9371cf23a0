import Mathlib.Data.List.Basic
import Mathlib.Tactic.Common

/-!
# Labelled machines and their runs

A machine is a partial step function; the label resolves every choice the
environment makes. A condition on steps restricts the runs, and an invariant
of the steps it allows holds wherever a run of allowed steps leads.
-/

namespace Machine

universe u v

variable {State : Type u} {Label : Type v}

def run (step : State → Label → Option State) : State → List Label → Option State
  | state, [] => some state
  | state, label :: labels => (step state label).bind fun next => run step next labels

/-- Every step of the run is taken in a state where the condition allows it. -/
def Allowed (step : State → Label → Option State) (allow : State → Label → Prop) :
    State → List Label → Prop
  | _, [] => True
  | state, label :: labels =>
      allow state label ∧ ∀ next, step state label = some next → Allowed step allow next labels

variable {step : State → Label → Option State} {allow : State → Label → Prop}

instance decidableAllowed [decide : ∀ state label, Decidable (allow state label)] :
    ∀ state labels, Decidable (Allowed step allow state labels)
  | _, [] => .isTrue trivial
  | state, label :: labels =>
      match decide state label with
      | .isFalse refused => .isFalse fun allowed => refused allowed.1
      | .isTrue here =>
          match taken : step state label with
          | none => .isTrue ⟨here, fun _ reached => nomatch taken.symm.trans reached⟩
          | some next =>
              match decidableAllowed next labels with
              | .isTrue later =>
                  .isTrue ⟨here, fun _ reached =>
                    Option.some.inj (taken.symm.trans reached) ▸ later⟩
              | .isFalse refused => .isFalse fun allowed => refused (allowed.2 next taken)

theorem run_cons_eq_some {state finish : State} {label : Label} {labels : List Label} :
    run step state (label :: labels) = some finish ↔
      ∃ next, step state label = some next ∧ run step next labels = some finish := by
  simp [run, Option.bind_eq_some_iff]

theorem run_append (state : State) (first second : List Label) :
    run step state (first ++ second) =
      (run step state first).bind fun middle => run step middle second := by
  induction first generalizing state with
  | nil => rfl
  | cons label labels inductionHypothesis =>
      simp only [List.cons_append, run, Option.bind_assoc, inductionHypothesis]

theorem Allowed.append {state : State} {first second : List Label}
    (allowed : Allowed step allow state first)
    (later : ∀ middle, run step state first = some middle → Allowed step allow middle second) :
    Allowed step allow state (first ++ second) := by
  induction first generalizing state with
  | nil => exact later state rfl
  | cons label labels inductionHypothesis =>
      refine ⟨allowed.1, fun next taken => inductionHypothesis (allowed.2 next taken) ?_⟩
      intro middle reached
      exact later middle (run_cons_eq_some.mpr ⟨next, taken, reached⟩)

theorem Allowed.append_right {state middle : State} {first second : List Label}
    (allowed : Allowed step allow state (first ++ second))
    (reached : run step state first = some middle) : Allowed step allow middle second := by
  induction first generalizing state with
  | nil => cases reached; exact allowed
  | cons label labels inductionHypothesis =>
      obtain ⟨next, taken, rest⟩ := run_cons_eq_some.mp reached
      exact inductionHypothesis (allowed.2 next taken) rest

/-- The induction over a run: what holds at its start and survives every allowed
step holds at its end. -/
theorem invariant {Inv : State → Prop}
    (preserved : ∀ state label next, Inv state → allow state label →
      step state label = some next → Inv next)
    {start finish : State} {labels : List Label} (initially : Inv start)
    (allowed : Allowed step allow start labels)
    (reached : run step start labels = some finish) : Inv finish := by
  induction labels generalizing start with
  | nil => cases reached; exact initially
  | cons label labels inductionHypothesis =>
      obtain ⟨next, taken, rest⟩ := run_cons_eq_some.mp reached
      exact inductionHypothesis (preserved start label next initially allowed.1 taken)
        (allowed.2 next taken) rest

theorem Allowed.of_forall (always : ∀ state label, allow state label) (state : State)
    (labels : List Label) : Allowed step allow state labels := by
  induction labels generalizing state with
  | nil => trivial
  | cons label labels inductionHypothesis =>
      exact ⟨always state label, fun next _ => inductionHypothesis next⟩

theorem Allowed.of_mem {labels : List Label} (always : ∀ label ∈ labels, ∀ state, allow state label)
    {state : State} : Allowed step allow state labels := by
  induction labels generalizing state with
  | nil => trivial
  | cons label labels inductionHypothesis =>
      obtain ⟨here, later⟩ := List.forall_mem_cons.mp always
      exact ⟨here state, fun next _ => inductionHypothesis later⟩

theorem invariant_of_run {Inv : State → Prop}
    (preserved : ∀ state label next, Inv state → step state label = some next → Inv next)
    {start finish : State} {labels : List Label} (initially : Inv start)
    (reached : run step start labels = some finish) : Inv finish :=
  invariant (fun state label next holds _ taken => preserved state label next holds taken) initially
    (@Allowed.of_forall _ _ step (fun _ _ => True) (fun _ _ => trivial) start labels) reached

/-- A measure that every step decreases bounds the length of a run. -/
theorem length_add_measure_le {Inv : State → Prop} (measure : State → Nat)
    (preserved : ∀ state label next, Inv state → step state label = some next →
      Inv next ∧ measure next < measure state)
    {start finish : State} {labels : List Label} (initially : Inv start)
    (reached : run step start labels = some finish) :
    labels.length + measure finish ≤ measure start := by
  induction labels generalizing start with
  | nil =>
      cases reached
      simp
  | cons label labels inductionHypothesis =>
      obtain ⟨next, taken, rest⟩ := run_cons_eq_some.mp reached
      obtain ⟨kept, smaller⟩ := preserved start label next initially taken
      have later := inductionHypothesis kept rest
      rw [List.length_cons]
      omega

/-- Under an invariant of the steps it allows, a condition implies what it does in
every state where the invariant holds. -/
theorem Allowed.of_invariant {Inv : State → Prop} {first second : State → Label → Prop}
    (implies : ∀ state label, Inv state → first state label → second state label)
    (preserved : ∀ state label next, Inv state → first state label →
      step state label = some next → Inv next)
    {state : State} (initially : Inv state) {labels : List Label}
    (allowed : Allowed step first state labels) : Allowed step second state labels := by
  induction labels generalizing state with
  | nil => trivial
  | cons label labels inductionHypothesis =>
      obtain ⟨here, later⟩ := allowed
      refine ⟨implies state label initially here, fun next taken => ?_⟩
      exact inductionHypothesis (preserved state label next initially here taken) (later next taken)

theorem Allowed.iff_of_invariant {Inv : State → Prop} {first second : State → Label → Prop}
    (agree : ∀ state label, Inv state → (first state label ↔ second state label))
    (preserved : ∀ state label next, Inv state → first state label →
      step state label = some next → Inv next)
    {state : State} (initially : Inv state) (labels : List Label) :
    Allowed step first state labels ↔ Allowed step second state labels := by
  constructor
  · exact Allowed.of_invariant (fun state label holds => (agree state label holds).mp) preserved
      initially
  · refine Allowed.of_invariant (fun state label holds => (agree state label holds).mpr) ?_
      initially
    intro state label next holds allowed
    exact preserved state label next holds ((agree state label holds).mpr allowed)

/-- What holds in every state of a run holds at its start and after each step. -/
theorem forall_prefix_iff {Good : State → Prop} {state : State} {labels : List Label} :
    (∀ before finish, before <+: labels → run step state before = some finish → Good finish) ↔
      Good state ∧ Allowed step
        (fun state label => ∀ next, step state label = some next → Good next) state labels := by
  induction labels generalizing state with
  | nil =>
      constructor
      · intro good
        exact ⟨good [] state List.nil_prefix rfl, trivial⟩
      · rintro ⟨here, -⟩ before finish inside reached
        rw [List.prefix_nil.mp inside] at reached
        cases reached
        exact here
  | cons label labels inductionHypothesis =>
      constructor
      · intro good
        have later : ∀ next, step state label = some next → Good next ∧ Allowed step
            (fun state label => ∀ next, step state label = some next → Good next)
            next labels := by
          intro next taken
          refine inductionHypothesis.mp fun before finish inside reached => ?_
          exact good (label :: before) finish (List.cons_prefix_cons.mpr ⟨rfl, inside⟩)
            (run_cons_eq_some.mpr ⟨next, taken, reached⟩)
        exact ⟨good [] state List.nil_prefix rfl, fun next taken => (later next taken).1,
          fun next taken => (later next taken).2⟩
      · rintro ⟨here, goes, later⟩ before finish inside reached
        cases before with
        | nil => cases reached; exact here
        | cons first before =>
            obtain ⟨rfl, shorter⟩ := List.cons_prefix_cons.mp inside
            obtain ⟨next, taken, rest⟩ := run_cons_eq_some.mp reached
            exact inductionHypothesis.mpr ⟨goes next taken, later next taken⟩ before finish shorter
              rest

/-- The machine with a variable that follows its labels and that no step reads. -/
def observed {History : Type u} (step : State → Label → Option State)
    (observe : History → Label → History) (state : State × History) (label : Label) :
    Option (State × History) :=
  (step state.1 label).map fun next => (next, observe state.2 label)

theorem observed_eq_some {History : Type u} {observe : History → Label → History}
    {state next : State × History} {label : Label} :
    observed step observe state label = some next ↔
      step state.1 label = some next.1 ∧ next.2 = observe state.2 label := by
  rcases next with ⟨next, history⟩
  simp only [observed, Option.map_eq_some_iff, Prod.mk.injEq]
  constructor
  · rintro ⟨_, taken, rfl, rfl⟩
    exact ⟨taken, rfl⟩
  · rintro ⟨taken, rfl⟩
    exact ⟨next, taken, rfl, rfl⟩

theorem run_observed {History : Type u} (observe : History → Label → History) (state : State)
    (history : History) (labels : List Label) :
    run (observed step observe) (state, history) labels =
      (run step state labels).map fun finish => (finish, labels.foldl observe history) := by
  induction labels generalizing state history with
  | nil => rfl
  | cons label labels inductionHypothesis =>
      cases taken : step state label with
      | none => simp only [run, observed, taken, Option.map_none, Option.bind_none]
      | some next =>
          simp only [run, observed, taken, Option.map_some, Option.bind_some, List.foldl_cons]
          exact inductionHypothesis next (observe history label)

/-- The induction over a run with the labels it has taken so far: what holds of its start and no
labels, and survives every allowed step, holds of its end and all labels. -/
theorem invariant_of_trace {Inv : State → List Label → Prop}
    (preserved : ∀ state past label next, Inv state past → allow state label →
      step state label = some next → Inv next (past ++ [label]))
    {start finish : State} {labels : List Label} (initially : Inv start [])
    (allowed : Allowed step allow start labels)
    (reached : run step start labels = some finish) : Inv finish labels := by
  have general : ∀ past, Inv start past → Inv finish (past ++ labels) := by
    clear initially
    induction labels generalizing start with
    | nil =>
        intro past here
        cases reached
        rw [List.append_nil]
        exact here
    | cons label labels inductionHypothesis =>
        intro past here
        obtain ⟨next, taken, rest⟩ := run_cons_eq_some.mp reached
        have later := inductionHypothesis (allowed.2 next taken) rest (past ++ [label])
          (preserved start past label next here allowed.1 taken)
        rw [List.append_assoc] at later
        exact later
  exact general [] initially

theorem invariant_of_run_trace {Inv : State → List Label → Prop}
    (preserved : ∀ state past label next, Inv state past →
      step state label = some next → Inv next (past ++ [label]))
    {start finish : State} {labels : List Label} (initially : Inv start [])
    (reached : run step start labels = some finish) : Inv finish labels := by
  refine invariant_of_trace (fun state past label next holds _ taken => ?_) initially
    (@Allowed.of_forall _ _ step (fun _ _ => True) (fun _ _ => trivial) start labels) reached
  exact preserved state past label next holds taken

end Machine
