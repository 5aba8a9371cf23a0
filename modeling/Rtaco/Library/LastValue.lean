import Mathlib.Data.List.Forall2
import Mathlib.Tactic.Common

/-!
# The last item of a key

A fold that overwrites one part of its state for the items of each key ends with the
decoded last item of the key. Such a value depends only on the items of its own key.
-/

namespace LastValue

universe u v w x

variable {Item : Type u} {Other : Type x} {Key : Type v} {Value : Type w} [DecidableEq Key]

/-- The items of one key, in order. -/
def ofKey (key : Item → Key) (chosen : Key) (items : List Item) : List Item :=
  items.filter fun item => key item = chosen

/-- The decoded last item of a key, if there is one. -/
def lastValue (key : Item → Key) (chosen : Key) (decode : Item → Value) (default : Value)
    (items : List Item) : Value :=
  ((ofKey key chosen items).getLast?.map decode).getD default

variable {key : Item → Key} {chosen : Key} {decode : Item → Value} {default : Value}

@[simp]
theorem lastValue_nil : lastValue key chosen decode default [] = default := rfl

theorem lastValue_cons (item : Item) (items : List Item) :
    lastValue key chosen decode default (item :: items) =
      lastValue key chosen decode (if key item = chosen then decode item else default) items := by
  unfold lastValue ofKey
  by_cases own : key item = chosen
  · rw [List.filter_cons_of_pos (by simpa using own), List.getLast?_cons, if_pos own]
    cases (items.filter fun item => key item = chosen).getLast? <;> rfl
  · rw [List.filter_cons_of_neg (by simpa using own), if_neg own]

@[simp]
theorem lastValue_cons_of_eq {item : Item} (own : key item = chosen) (items : List Item) :
    lastValue key chosen decode default (item :: items) =
      lastValue key chosen decode (decode item) items := by
  rw [lastValue_cons, if_pos own]

@[simp]
theorem lastValue_cons_of_ne {item : Item} (foreign : key item ≠ chosen) (items : List Item) :
    lastValue key chosen decode default (item :: items) =
      lastValue key chosen decode default items := by
  rw [lastValue_cons, if_neg foreign]

theorem lastValue_of_last {items : List Item} {last : Item}
    (isLast : (ofKey key chosen items).getLast? = some last) :
    lastValue key chosen decode default items = decode last := by
  rw [lastValue, isLast, Option.map_some, Option.getD_some]

theorem mem_of_getLast?_ofKey {items : List Item} {last : Item}
    (isLast : (ofKey key chosen items).getLast? = some last) :
    last ∈ items ∧ key last = chosen := by
  obtain ⟨member, own⟩ := List.mem_filter.mp (List.mem_of_getLast? isLast)
  exact ⟨member, by simpa using own⟩

theorem lastValue_congr {items others : List Item}
    (same : ofKey key chosen others = ofKey key chosen items) :
    lastValue key chosen decode default others = lastValue key chosen decode default items := by
  rw [lastValue, lastValue, same]

section Related

variable {otherKey : Other → Key} {Rel : Item → Other → Prop} {items : List Item}
  {others : List Other}

theorem eq_none_of_rel {found : Option Item} (rel : Option.Rel Rel found none) : found = none := by
  cases rel
  rfl

theorem exists_of_rel_some {found : Option Item} {other : Other}
    (rel : Option.Rel Rel found (some other)) : ∃ item, found = some item ∧ Rel item other := by
  cases rel with
  | some here => exact ⟨_, rfl, here⟩

/-- Where the items of two lists correspond, so do the last items of a key. -/
theorem getLast?_ofKey_rel (related : List.Forall₂ Rel items others)
    (keys : ∀ item other, Rel item other → key item = otherKey other) :
    Option.Rel Rel (ofKey key chosen items).getLast? (ofKey otherKey chosen others).getLast? := by
  have chosenRelated :
      List.Forall₂ Rel (ofKey key chosen items) (ofKey otherKey chosen others) := by
    refine List.rel_filter ?_ related
    intro item other here
    simp only [keys item other here]
  have reversed := List.rel_reverse chosenRelated
  rw [List.getLast?_eq_head?_reverse, List.getLast?_eq_head?_reverse]
  generalize (ofKey key chosen items).reverse = front at reversed ⊢
  generalize (ofKey otherKey chosen others).reverse = otherFront at reversed ⊢
  cases reversed with
  | nil => exact .none
  | cons here _ => exact .some here

/-- Two lists whose items correspond have the same value if the last items of the key do. -/
theorem lastValue_forall₂ {otherDecode : Other → Value} (related : List.Forall₂ Rel items others)
    (keys : ∀ item other, Rel item other → key item = otherKey other)
    (values : ∀ item other, other ∈ others → Rel item other → otherKey other = chosen →
      decode item = otherDecode other) :
    lastValue key chosen decode default items =
      lastValue otherKey chosen otherDecode default others := by
  have last := @getLast?_ofKey_rel _ _ _ _ key chosen _ _ _ _ related keys
  unfold lastValue
  cases isLast : (ofKey otherKey chosen others).getLast? with
  | none =>
      rw [isLast] at last
      rw [eq_none_of_rel last]
      rfl
  | some other =>
      obtain ⟨member, own⟩ := mem_of_getLast?_ofKey isLast
      rw [isLast] at last
      obtain ⟨item, found, here⟩ := exists_of_rel_some last
      rw [found]
      exact values item other member here own

end Related

end LastValue
