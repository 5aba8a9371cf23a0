import Mathlib.Data.List.Chain
import Rtaco.Library.Scan

/-!
# `for` loops

The loop `for (; guard; cursor = next)` as a relation, so that a loop that never
ends is related to nothing. A walk is the loop with an empty body; the body of a
run may change a state or leave the loop with a result.
-/

namespace Loop

open Scan

universe u v w

variable {Cursor : Type u} {State : Type v} {Result : Type w}

/-- The cursors an empty loop visits. -/
inductive Walks (guard : Cursor → Prop) (next : Cursor → Cursor) : Cursor → List Cursor → Prop
    where
  | stop {cursor : Cursor} (ended : ¬ guard cursor) : Walks guard next cursor []
  | move {cursor : Cursor} {visited : List Cursor} (enters : guard cursor)
      (later : Walks guard next (next cursor) visited) :
      Walks guard next cursor (cursor :: visited)

/-- The cursors a loop visits before its guard fails or its body leaves it. -/
inductive Runs (guard : Cursor → Prop) (next : Cursor → Cursor)
    (body : State → Cursor → State × Option Result) :
    State → Cursor → List Cursor → Outcome State Result → Prop where
  | stop {state : State} {cursor : Cursor} (ended : ¬ guard cursor) :
      Runs guard next body state cursor [] (.running state)
  | leave {state after : State} {cursor : Cursor} {result : Result} (enters : guard cursor)
      (leaves : body state cursor = (after, some result)) :
      Runs guard next body state cursor [cursor] (.returned result)
  | move {state after : State} {cursor : Cursor} {visited : List Cursor}
      {outcome : Outcome State Result} (enters : guard cursor)
      (continues : body state cursor = (after, none))
      (later : Runs guard next body after (next cursor) visited outcome) :
      Runs guard next body state cursor (cursor :: visited) outcome

/-- The cursor at which a loop that visited the given cursors ended. -/
def finish (next : Cursor → Cursor) (cursor : Cursor) (visited : List Cursor) : Cursor :=
  match visited.getLast? with
  | none => cursor
  | some last => next last

variable {guard : Cursor → Prop} {next : Cursor → Cursor}

namespace Walks

variable {cursor : Cursor} {visited : List Cursor}

theorem head (walks : Walks guard next cursor visited) :
    ∀ first ∈ visited.head?, first = cursor := by
  intro first front
  cases walks with
  | stop ended => simp at front
  | move enters later => simpa using front.symm

theorem unique {others : List Cursor} (walks : Walks guard next cursor visited)
    (same : Walks guard next cursor others) : visited = others := by
  induction walks generalizing others with
  | stop ended =>
      cases same with
      | stop _ => rfl
      | move enters _ => exact absurd enters ended
  | @move cursor visited enters later inductionHypothesis =>
      cases same with
      | stop ended => exact absurd enters ended
      | move _ later => exact congrArg _ (inductionHypothesis later)

theorem guard_of_mem (walks : Walks guard next cursor visited) :
    ∀ place ∈ visited, guard place := by
  induction walks with
  | stop ended => simp
  | move enters later inductionHypothesis =>
      exact List.forall_mem_cons.mpr ⟨enters, inductionHypothesis⟩

theorem isChain (walks : Walks guard next cursor visited) :
    visited.IsChain fun place following => following = next place := by
  induction walks with
  | stop ended => exact List.IsChain.nil
  | @move cursor visited enters later inductionHypothesis =>
      exact List.isChain_cons.mpr ⟨later.head, inductionHypothesis⟩

/-- What every step of the loop keeps holds at every cursor. -/
theorem invariant {Invariant : Cursor → Prop}
    (keeps : ∀ place, Invariant place → guard place → Invariant (next place))
    (walks : Walks guard next cursor visited) (start : Invariant cursor) :
    ∀ place ∈ visited, Invariant place := by
  induction walks with
  | stop ended => simp
  | @move cursor visited enters later inductionHypothesis =>
      exact List.forall_mem_cons.mpr
        ⟨start, inductionHypothesis (keeps cursor start enters)⟩

theorem ended (walks : Walks guard next cursor visited) :
    ¬ guard (finish next cursor visited) := by
  induction walks with
  | stop ended => exact ended
  | @move cursor visited enters later inductionHypothesis =>
      cases visited with
      | nil => exact inductionHypothesis
      | cons following visited =>
          simp only [finish, List.getLast?_cons_cons] at inductionHypothesis ⊢
          rcases final : (following :: visited).getLast? with _ | last
          · simp at final
          · simpa only [final] using inductionHypothesis

/-- A loop whose steps keep an invariant and decrease a measure ends within that measure. -/
theorem exists_of_measure {Invariant : Cursor → Prop} (measure : Cursor → Nat)
    (keeps : ∀ place, Invariant place → guard place →
      Invariant (next place) ∧ measure (next place) < measure place)
    (start : Invariant cursor) :
    ∃ visited, Walks guard next cursor visited ∧ visited.length ≤ measure cursor := by
  induction size : measure cursor using Nat.strongRecOn generalizing cursor with
  | _ bound inductionHypothesis =>
      by_cases enters : guard cursor
      · obtain ⟨kept, smaller⟩ := keeps cursor start enters
        rw [size] at smaller
        obtain ⟨visited, later, short⟩ := inductionHypothesis _ smaller kept rfl
        refine ⟨cursor :: visited, .move enters later, ?_⟩
        simp only [List.length_cons]
        omega
      · exact ⟨[], .stop enters, Nat.zero_le _⟩

/-- A view of the cursors that agrees with the guard and the step carries a walk over. -/
theorem map {View : Type w} {guardView : View → Prop} {nextView : View → View}
    {Invariant : Cursor → Prop} (view : Cursor → View)
    (guards : ∀ place, Invariant place → (guardView (view place) ↔ guard place))
    (nexts : ∀ place, Invariant place → guard place →
      Invariant (next place) ∧ view (next place) = nextView (view place))
    (walks : Walks guard next cursor visited) (start : Invariant cursor) :
    Walks guardView nextView (view cursor) (visited.map view) := by
  induction walks with
  | stop ended => exact .stop fun entersView => ended ((guards _ start).mp entersView)
  | @move cursor visited enters later inductionHypothesis =>
      obtain ⟨kept, following⟩ := nexts cursor start enters
      apply Walks.move ((guards cursor start).mpr enters)
      rw [← following]
      exact inductionHypothesis kept

end Walks

/-- A loop that ends runs its body as a scan of the cursors it would visit. -/
theorem runs_iff {body : State → Cursor → State × Option Result} {cursor : Cursor}
    {visited : List Cursor} (walks : Walks guard next cursor visited) (state : State)
    (looked : List Cursor) (outcome : Outcome State Result) :
    Runs guard next body state cursor looked outcome ↔
      looked = seen body state visited ∧ outcome = scan body state visited := by
  induction walks generalizing state looked outcome with
  | stop ended =>
      constructor
      · intro runs
        cases runs with
        | stop => exact ⟨rfl, rfl⟩
        | leave enters => exact absurd enters ended
        | move enters => exact absurd enters ended
      · rintro ⟨rfl, rfl⟩
        exact .stop ended
  | @move cursor visited enters later inductionHypothesis =>
      rcases ran : body state cursor with ⟨after, _ | result⟩
      · simp only [seen, scan, ran]
        constructor
        · intro runs
          cases runs with
          | stop ended => exact absurd enters ended
          | leave _ leaves => simp [ran] at leaves
          | move _ continues later =>
              obtain ⟨rfl, -⟩ := Prod.mk.inj (ran.symm.trans continues)
              obtain ⟨looked, finishes⟩ := (inductionHypothesis _ _ _).mp later
              exact ⟨congrArg _ looked, finishes⟩
        · rintro ⟨rfl, rfl⟩
          exact .move enters ran ((inductionHypothesis _ _ _).mpr ⟨rfl, rfl⟩)
      · simp only [seen, scan, ran]
        constructor
        · intro runs
          cases runs with
          | stop ended => exact absurd enters ended
          | leave _ leaves =>
              obtain ⟨-, same⟩ := Prod.mk.inj (ran.symm.trans leaves)
              rw [Option.some.inj same]
              exact ⟨rfl, rfl⟩
          | move _ continues => simp [ran] at continues
        · rintro ⟨rfl, rfl⟩
          exact .leave enters ran

end Loop
