import Mathlib.Data.List.Basic
import Mathlib.Tactic.Common

/-!
# Scans with an early result

A handler sees one item at a time, updates its state and may return a result,
which ends the scan. A collecting handler decides from the item alone whether
to skip it, to append an entry to its state, or to finish on the entries
collected so far.
-/

namespace Scan

universe u v w

variable {State : Type u} {Item : Type v} {Result : Type w}

inductive Outcome (State : Type u) (Result : Type w) where
  | running (state : State)
  | returned (result : Result)
  deriving DecidableEq

/-- The result of a scan that ended. -/
def Outcome.result? : Outcome State Result → Option Result
  | .running _ => none
  | .returned result => some result

/-- Feed the items to the handler until one of them gives a result. -/
def scan (handle : State → Item → State × Option Result) :
    State → List Item → Outcome State Result
  | state, [] => .running state
  | state, item :: items =>
      match handle state item with
      | (_, some result) => .returned result
      | (next, none) => scan handle next items

theorem scan_append (handle : State → Item → State × Option Result)
    (state : State) (first second : List Item) :
    scan handle state (first ++ second) =
      match scan handle state first with
      | .running next => scan handle next second
      | .returned result => .returned result := by
  induction first generalizing state with
  | nil => rfl
  | cons item items inductionHypothesis =>
      simp only [List.cons_append, scan]
      split
      · rfl
      · exact inductionHypothesis _

theorem scan_of_ignored {handle : State → Item → State × Option Result} {items : List Item}
    {state : State} (ignored : ∀ item ∈ items, handle state item = (state, none)) :
    scan handle state items = .running state := by
  induction items with
  | nil => rfl
  | cons item items inductionHypothesis =>
      rw [scan, ignored item List.mem_cons_self]
      exact inductionHypothesis fun item member => ignored item (List.mem_cons_of_mem _ member)

/-- The items a scan looks at: those up to the one that gives a result. -/
def seen (handle : State → Item → State × Option Result) : State → List Item → List Item
  | _, [] => []
  | state, item :: items =>
      match handle state item with
      | (_, some _) => [item]
      | (next, none) => item :: seen handle next items

theorem seen_prefix (handle : State → Item → State × Option Result) (state : State)
    (items : List Item) : seen handle state items <+: items := by
  induction items generalizing state with
  | nil => exact List.prefix_refl []
  | cons item items inductionHypothesis =>
      simp only [seen]
      split
      · exact List.prefix_append [item] items
      · exact (List.prefix_cons_inj item).mpr (inductionHypothesis _)

section Silent

variable {handle : State → Item → State × Option Result}

theorem scan_of_silent (silent : ∀ state item, (handle state item).2 = none) (state : State)
    (items : List Item) :
    scan handle state items =
      .running (items.foldl (fun state item => (handle state item).1) state) := by
  induction items generalizing state with
  | nil => rfl
  | cons item items inductionHypothesis =>
      have goesOn := silent state item
      rcases handled : handle state item with ⟨next, _ | result⟩
      · simp [scan, handled, inductionHypothesis]
      · simp [handled] at goesOn

theorem seen_of_silent (silent : ∀ state item, (handle state item).2 = none) (state : State)
    (items : List Item) : seen handle state items = items := by
  induction items generalizing state with
  | nil => rfl
  | cons item items inductionHypothesis =>
      have goesOn := silent state item
      rcases handled : handle state item with ⟨next, _ | result⟩
      · simp [seen, handled, inductionHypothesis]
      · simp [handled] at goesOn

end Silent

/-- When the keys of the items say which of them give a result, a scan goes on exactly over
the keys that do not. -/
theorem exists_running_iff {Key : Type w} {handle : State → Item → State × Option Result}
    {Stops : Key → Prop} {items : List Item} {keys : List Key}
    (matched : List.Forall₂ (fun item key => ∀ state, (handle state item).2.isSome ↔ Stops key)
      items keys) (state : State) :
    (∃ next, scan handle state items = .running next) ↔ ∀ key ∈ keys, ¬ Stops key := by
  induction matched generalizing state with
  | nil => simp [scan]
  | @cons item key items keys here matched inductionHypothesis =>
      have stops := here state
      rcases handled : handle state item with ⟨next, _ | result⟩
      · rw [handled] at stops
        have goesOn : ¬ Stops key := by simpa using stops
        simp only [scan, handled, List.forall_mem_cons, goesOn, not_false_eq_true, true_and]
        exact inductionHypothesis next
      · rw [handled] at stops
        have stopped : Stops key := by simpa using stops
        simp [scan, handled, stopped]

theorem forall₂_takeWhile {Key : Type w} {related : Item → Key → Prop} {goesOn : Item → Bool}
    {passes : Key → Bool} (agree : ∀ item key, related item key → goesOn item = passes key)
    {items : List Item} {keys : List Key} (matched : List.Forall₂ related items keys) :
    List.Forall₂ related (items.takeWhile goesOn) (keys.takeWhile passes) := by
  induction matched with
  | nil => exact .nil
  | @cons item key items keys here matched inductionHypothesis =>
      rw [List.takeWhile_cons, List.takeWhile_cons, agree item key here]
      split_ifs
      · exact .cons here inductionHypothesis
      · exact .nil

theorem scan_eq_findSome? (decides : Item → Option Result) (state : State) (items : List Item) :
    scan (fun state item => (state, decides item)) state items =
      match items.findSome? decides with
      | none => .running state
      | some result => .returned result := by
  induction items with
  | nil => rfl
  | cons item items inductionHypothesis =>
      rw [scan, List.findSome?_cons]
      cases decides item with
      | none => exact inductionHypothesis
      | some result => rfl

inductive Verdict (Entry : Type u) (Result : Type w) where
  | skip
  | keep (entry : Entry)
  | stop (finish : List Entry → Result)

namespace Verdict

variable {Entry : Type u}

def apply : Verdict Entry Result → List Entry → List Entry × Option Result
  | skip, entries => (entries, none)
  | keep entry, entries => (entries ++ [entry], none)
  | stop finish, entries => (entries, some (finish entries))

def kept? : Verdict Entry Result → Option Entry
  | keep entry => some entry
  | _ => none

def stop? : Verdict Entry Result → Option (List Entry → Result)
  | stop finish => some finish
  | _ => none

end Verdict

variable {Entry : Type u}

/-- The handler does to every item what the classification says. -/
def Collects (handle : List Entry → Item → List Entry × Option Result)
    (classify : Item → Verdict Entry Result) : Prop :=
  ∀ entries item, handle entries item = (classify item).apply entries

section Classification

variable (classify : Item → Verdict Entry Result)

/-- The items in front of the first one that finishes. -/
def beforeStop (items : List Item) : List Item :=
  items.takeWhile fun item => (classify item).stop?.isNone

def kept (items : List Item) : List Entry :=
  items.filterMap fun item => (classify item).kept?

def firstStop? (items : List Item) : Option (List Entry → Result) :=
  items.findSome? fun item => (classify item).stop?

/-- A collecting scan finishes at the first item that asks for it, on the
entries kept in front of that item, and never otherwise. -/
theorem scan_eq {handle : List Entry → Item → List Entry × Option Result}
    (collects : Collects handle classify) (entries : List Entry) (items : List Item) :
    scan handle entries items =
      match firstStop? classify items with
      | none => .running (entries ++ kept classify items)
      | some finish =>
          .returned (finish (entries ++ kept classify (beforeStop classify items))) := by
  induction items generalizing entries with
  | nil => simp [scan, firstStop?, kept]
  | cons item items inductionHypothesis =>
      simp only [scan, collects entries item]
      cases verdict : classify item with
      | skip =>
          simp only [Verdict.apply, inductionHypothesis]
          simp [firstStop?, kept, beforeStop, verdict, Verdict.stop?, Verdict.kept?]
      | keep entry =>
          simp only [Verdict.apply, inductionHypothesis]
          simp [firstStop?, kept, beforeStop, verdict, Verdict.stop?, Verdict.kept?]
      | stop finish =>
          simp [Verdict.apply, firstStop?, kept, beforeStop, verdict, Verdict.stop?]

variable {classify} {own : Item → Bool}

theorem beforeStop_filter {items : List Item}
    (foreign : ∀ item ∈ items, own item = false → (classify item).stop? = none) :
    beforeStop classify (items.filter own) = (beforeStop classify items).filter own := by
  unfold beforeStop
  induction items with
  | nil => rfl
  | cons item items inductionHypothesis =>
      have later := inductionHypothesis fun item member =>
        foreign item (List.mem_cons_of_mem _ member)
      cases mine : own item with
      | true =>
          by_cases stops : (classify item).stop?.isNone
          · simp [mine, stops, later]
          · simp [mine, stops]
      | false => simp [mine, foreign item (by simp) mine, later]

theorem kept_filter_eq_iff (items : List Item) :
    kept classify (items.filter own) = kept classify items ↔
      ∀ item ∈ items, own item = false → (classify item).kept? = none := by
  induction items with
  | nil => simp
  | cons item items inductionHypothesis =>
      unfold kept at inductionHypothesis ⊢
      cases mine : own item with
      | true =>
          cases entry : (classify item).kept? <;>
            simp [mine, entry, inductionHypothesis]
      | false =>
          cases entry : (classify item).kept? with
          | none => simp [mine, entry, inductionHypothesis]
          | some value =>
              have shorter : ((items.filter own).filterMap fun item => (classify item).kept?) ≠
                  value :: items.filterMap fun item => (classify item).kept? := by
                intro equal
                have bound := ((@List.filter_sublist _ own items).filterMap
                  fun item => (classify item).kept?).length_le
                have lengths := congrArg List.length equal
                simp only [List.length_cons] at lengths
                omega
              simp [mine, entry, shorter]

end Classification

end Scan
