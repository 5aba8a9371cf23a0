import Mathlib.Data.Nat.Bitwise
import Rtaco.Events.Decoders
import Rtaco.Library.Words

/-!
# The text of a neighbor state

`NeighborEvent::state_to_string` joins the names of the state flags that are set. The text can be
split into these names again.
-/

namespace Rtaco.NeighborEvent

namespace State

abbrev none : Nat := 0x00
abbrev incomplete : Nat := 0x01
abbrev reachable : Nat := 0x02
abbrev stale : Nat := 0x04
abbrev delay : Nat := 0x08
abbrev probe : Nat := 0x10
abbrev failed : Nat := 0x20
abbrev noarp : Nat := 0x40
abbrev permanent : Nat := 0x80

end State

/-- The bytes of an ASCII literal. -/
def text (literal : String) : Bytes := literal.toList.map Char.toUInt8

abbrev bar : UInt8 := '|'.toUInt8

/-- `state_names`: masks and names. -/
def stateNames : List (Nat × Bytes) := [
  (State.incomplete, text "NUD_INCOMPLETE"),
  (State.reachable, text "NUD_REACHABLE"),
  (State.stale, text "NUD_STALE"),
  (State.delay, text "NUD_DELAY"),
  (State.probe, text "NUD_PROBE"),
  (State.failed, text "NUD_FAILED"),
  (State.noarp, text "NUD_NOARP"),
  (State.permanent, text "NUD_PERMANENT")]

/-- The body of the loop over `state_names`. -/
def appendState (state : Nat) (result : Bytes) (entry : Nat × Bytes) : Bytes :=
  if state &&& entry.1 ≠ 0 then
    (if result ≠ [] then result ++ [bar] else result) ++ entry.2
  else result

def stateToString (event : NeighborEvent) : Bytes :=
  if event.state = State.none then text "NUD_NONE"
  else
    let result := stateNames.foldl (appendState event.state) []
    if result = [] then text "UNKNOWN" else result

/-- The names of the flags that are set. -/
def setNames (entries : List (Nat × Bytes)) (state : Nat) : List Bytes :=
  (entries.filter fun entry => state &&& entry.1 ≠ 0).map Prod.snd

/-- The loop joins the names, behind those it has joined already. -/
theorem foldl_appendState (state : Nat) {entries : List (Nat × Bytes)}
    (written : ∀ entry ∈ entries, entry.2 ≠ []) {words : List Bytes}
    (before : ∀ word ∈ words, word ≠ []) :
    entries.foldl (appendState state) ([bar].intercalate words) =
      [bar].intercalate (words ++ setNames entries state) := by
  induction entries generalizing words with
  | nil =>
      rw [setNames, List.filter_nil, List.map_nil, List.append_nil]
      rfl
  | cons entry entries inductionHypothesis =>
      obtain ⟨here, later⟩ := List.forall_mem_cons.mp written
      rw [List.foldl_cons, appendState]
      by_cases set : state &&& entry.1 ≠ 0
      · have joined : (if [bar].intercalate words ≠ [] then [bar].intercalate words ++ [bar]
            else [bar].intercalate words) ++ entry.2 = [bar].intercalate (words ++ [entry.2]) := by
          by_cases some : words = []
          · subst some
            simp
          · rw [if_pos (Words.intercalate_ne_nil bar some before),
              Words.intercalate_concat bar some]
        have next : ∀ word ∈ words ++ [entry.2], word ≠ [] := by
          intro word member
          rcases List.mem_append.mp member with earlier | last
          · exact before word earlier
          · rwa [List.mem_singleton.mp last]
        rw [if_pos set, joined, inductionHypothesis later next, List.append_assoc]
        simp [setNames, set]
      · rw [if_neg set, inductionHypothesis later before]
        simp [setNames, set]

theorem stateNames_written : ∀ entry ∈ stateNames, entry.2 ≠ [] := by decide

theorem stateNames_barless : ∀ entry ∈ stateNames, bar ∉ entry.2 := by decide

/-- What the text of a state is made of. -/
def stateWords (state : Nat) : List Bytes :=
  if state = State.none then [text "NUD_NONE"]
  else if setNames stateNames state = [] then [text "UNKNOWN"]
  else setNames stateNames state

theorem mem_setNames {state : Nat} {name : Bytes} (member : name ∈ setNames stateNames state) :
    ∃ entry ∈ stateNames, state &&& entry.1 ≠ 0 ∧ entry.2 = name := by
  obtain ⟨entry, kept, same⟩ := List.mem_map.mp member
  obtain ⟨known, set⟩ := List.mem_filter.mp kept
  exact ⟨entry, known, of_decide_eq_true set, same⟩

theorem stateToString_eq (event : NeighborEvent) :
    event.stateToString = [bar].intercalate (stateWords event.state) := by
  have joined := @foldl_appendState event.state stateNames stateNames_written [] nofun
  rw [List.intercalate_nil, List.nil_append] at joined
  unfold stateToString stateWords
  rw [joined]
  by_cases zero : event.state = State.none
  · rw [if_pos zero, if_pos zero, List.intercalate_singleton]
  · rw [if_neg zero, if_neg zero]
    by_cases unnamed : setNames stateNames event.state = []
    · rw [if_pos unnamed, unnamed, List.intercalate_singleton]
      exact if_pos List.intercalate_nil
    · have written : ∀ word ∈ setNames stateNames event.state, word ≠ [] := by
        intro word member
        obtain ⟨entry, known, -, rfl⟩ := mem_setNames member
        exact stateNames_written entry known
      rw [if_neg unnamed]
      exact if_neg (Words.intercalate_ne_nil bar unnamed written)

theorem stateWords_ne_nil (state : Nat) : stateWords state ≠ [] := by
  unfold stateWords
  split_ifs with zero unnamed
  · nofun
  · nofun
  · exact unnamed

theorem stateWords_barless (state : Nat) : ∀ word ∈ stateWords state, bar ∉ word := by
  unfold stateWords
  split_ifs with zero unnamed
  · decide
  · decide
  · intro word member
    obtain ⟨entry, known, -, rfl⟩ := mem_setNames member
    exact stateNames_barless entry known

theorem splitOn_stateToString (event : NeighborEvent) :
    event.stateToString.splitOn bar = stateWords event.state := by
  rw [stateToString_eq]
  exact List.splitOn_intercalate bar (stateWords_barless event.state)
    (stateWords_ne_nil event.state)

theorem stateNames_injective :
    ∀ first ∈ stateNames, ∀ second ∈ stateNames, first.2 = second.2 → first = second := by
  decide

theorem setNames_eq_iff {first second : Nat} :
    setNames stateNames first = setNames stateNames second ↔
      ∀ entry ∈ stateNames, (first &&& entry.1 ≠ 0 ↔ second &&& entry.1 ≠ 0) := by
  have kept : ∀ {state other : Nat}, setNames stateNames state = setNames stateNames other →
      ∀ entry ∈ stateNames, state &&& entry.1 ≠ 0 → other &&& entry.1 ≠ 0 := by
    intro state other same entry known set
    have member : entry.2 ∈ setNames stateNames state :=
      List.mem_map_of_mem (List.mem_filter.mpr ⟨known, decide_eq_true set⟩)
    rw [same] at member
    obtain ⟨found, named, also, equal⟩ := mem_setNames member
    obtain rfl := stateNames_injective found named entry known equal
    exact also
  constructor
  · intro same entry known
    exact ⟨kept same entry known, kept same.symm entry known⟩
  · intro agree
    unfold setNames
    rw [List.filter_congr fun entry known => decide_eq_decide.mpr (agree entry known)]

theorem mem_stateNames_mask {mask : Nat} :
    mask ∈ stateNames.map Prod.fst ↔ ∃ bit < 8, mask = 2 ^ bit := by
  have masks : stateNames.map Prod.fst = (List.range 8).map fun bit => 2 ^ bit := by decide
  rw [masks, List.mem_map]
  constructor
  · rintro ⟨bit, inside, rfl⟩
    exact ⟨bit, List.mem_range.mp inside, rfl⟩
  · rintro ⟨bit, inside, rfl⟩
    exact ⟨bit, List.mem_range.mpr inside, rfl⟩

theorem flag_set_iff (state bit : Nat) : state &&& 2 ^ bit ≠ 0 ↔ state.testBit bit := by
  simp [Nat.and_two_pow]

theorem masks_agree_iff {first second : Nat} :
    (∀ entry ∈ stateNames, (first &&& entry.1 ≠ 0 ↔ second &&& entry.1 ≠ 0)) ↔
      first % 2 ^ 8 = second % 2 ^ 8 := by
  constructor
  · intro agree
    apply Nat.eq_of_testBit_eq
    intro bit
    rw [Nat.testBit_mod_two_pow, Nat.testBit_mod_two_pow]
    by_cases low : bit < 8
    · obtain ⟨entry, known, mask⟩ := List.mem_map.mp (mem_stateNames_mask.mpr ⟨bit, low, rfl⟩)
      have here := agree entry known
      rw [mask, flag_set_iff, flag_set_iff, ← Bool.eq_iff_iff] at here
      rw [here]
    · rw [decide_eq_false low, Bool.false_and, Bool.false_and]
  · intro same entry known
    obtain ⟨bit, low, mask⟩ := mem_stateNames_mask.mp (List.mem_map_of_mem known)
    have bits := congrArg (fun value => value.testBit bit) same
    simp only [Nat.testBit_mod_two_pow, low, decide_true, Bool.true_and] at bits
    rw [mask, flag_set_iff, flag_set_iff, bits]

theorem special_not_mem_setNames (state : Nat) :
    [text "NUD_NONE"] ≠ setNames stateNames state ∧
      [text "UNKNOWN"] ≠ setNames stateNames state := by
  have named : ∀ entry ∈ stateNames, entry.2 ≠ text "NUD_NONE" ∧ entry.2 ≠ text "UNKNOWN" := by
    decide
  constructor
  · intro same
    have member : text "NUD_NONE" ∈ setNames stateNames state := by
      rw [← same]
      exact List.mem_singleton_self _
    obtain ⟨entry, known, -, equal⟩ := mem_setNames member
    exact (named entry known).1 equal
  · intro same
    have member : text "UNKNOWN" ∈ setNames stateNames state := by
      rw [← same]
      exact List.mem_singleton_self _
    obtain ⟨entry, known, -, equal⟩ := mem_setNames member
    exact (named entry known).2 equal

theorem stateWords_eq_iff {first second : Nat} :
    stateWords first = stateWords second ↔
      (first = State.none ↔ second = State.none) ∧
        setNames stateNames first = setNames stateNames second := by
  have none : setNames stateNames State.none = [] := by decide
  have differ : [text "NUD_NONE"] ≠ [text "UNKNOWN"] := by decide
  unfold stateWords
  by_cases zero : first = State.none <;> by_cases other : second = State.none
  · simp [zero, other]
  · have named := special_not_mem_setNames second
    simp only [zero, other, if_true, if_false, not_true, false_and, iff_false]
    split_ifs
    · exact differ
    · exact named.1
  · have named := special_not_mem_setNames first
    simp only [zero, other, if_true, if_false, iff_true, false_and, iff_false]
    split_ifs
    · exact differ.symm
    · exact named.1.symm
  · have here := special_not_mem_setNames first
    have there := special_not_mem_setNames second
    simp only [zero, other, if_false, true_and]
    split_ifs with empty blank blank
    · simp [empty, blank]
    · simp only [empty, there.2, false_iff]
      exact fun same => blank same.symm
    · simp only [here.2.symm, blank, false_iff]
      exact empty
    · rfl

theorem setNames_eq_nil_iff {state : Nat} : setNames stateNames state = [] ↔ state % 2 ^ 8 = 0 :=
  (@setNames_eq_iff state State.none).trans masks_agree_iff

/-- The text of a state splits at its bars into the names of the flags that are set, except for zero
and for the states without a named flag, which have texts of their own. Two states have the same
text exactly if they agree in the flags that have names and in being zero. -/
theorem stateToString_reads (event other : NeighborEvent) :
    (event.state % 2 ^ 8 ≠ 0 →
      event.stateToString.splitOn bar = setNames stateNames event.state) ∧
    (event.state = State.none → event.stateToString = text "NUD_NONE") ∧
    (event.state ≠ State.none → event.state % 2 ^ 8 = 0 →
      event.stateToString = text "UNKNOWN") ∧
    (event.stateToString = other.stateToString ↔
      (event.state = State.none ↔ other.state = State.none) ∧
        event.state % 2 ^ 8 = other.state % 2 ^ 8) := by
  refine ⟨?_, ?_, ?_, ?_⟩
  · intro named
    have nonzero : event.state ≠ State.none := by
      intro zero
      rw [zero] at named
      exact named rfl
    rw [splitOn_stateToString, stateWords, if_neg nonzero,
      if_neg fun unnamed => named (setNames_eq_nil_iff.mp unnamed)]
  · intro zero
    rw [stateToString_eq, stateWords, if_pos zero, List.intercalate_singleton]
  · intro nonzero unnamed
    rw [stateToString_eq, stateWords, if_neg nonzero, if_pos (setNames_eq_nil_iff.mpr unnamed),
      List.intercalate_singleton]
  · rw [← masks_agree_iff, ← setNames_eq_iff, ← stateWords_eq_iff]
    constructor
    · intro same
      rw [← splitOn_stateToString, ← splitOn_stateToString, same]
    · intro same
      rw [stateToString_eq, stateToString_eq, same]

theorem stateToString_reads_staleNoarp :
    ({ state := State.stale ||| State.noarp } : NeighborEvent).stateToString.splitOn bar =
        [text "NUD_STALE", text "NUD_NOARP"] ∧
      ({ state := 256 } : NeighborEvent).stateToString = text "UNKNOWN" := by
  have named := (stateToString_reads { state := State.stale ||| State.noarp } {}).1 (by decide)
  have unnamed := (stateToString_reads { state := 256 } {}).2.2.1 (by decide) (by decide)
  refine ⟨named.trans ?_, unnamed⟩
  decide

end Rtaco.NeighborEvent
