import Mathlib.Tactic.Common

/-!
# Words and numerals

Words joined by a separator, of which one run may be left out between two separators, and the
numbers that words of digits stand for.
-/

namespace Words

universe u

variable {Symbol : Type u}

theorem intercalate_cons (separator : Symbol) (word : List Symbol) (words : List (List Symbol)) :
    [separator].intercalate (word :: words) = word ++ words.flatMap (separator :: ·) := by
  induction words generalizing word with
  | nil => simp
  | cons next words inductionHypothesis =>
      rw [List.intercalate_cons_cons, inductionHypothesis next, List.flatMap_cons]
      simp only [List.append_assoc, List.cons_append, List.nil_append]

theorem flatMap_separator (separator : Symbol) {words : List (List Symbol)} (some : words ≠ []) :
    words.flatMap (separator :: ·) = separator :: [separator].intercalate words := by
  obtain ⟨word, words, rfl⟩ := List.exists_cons_of_ne_nil some
  rw [intercalate_cons, List.flatMap_cons, List.cons_append]

theorem intercalate_concat (separator : Symbol) {words : List (List Symbol)} (some : words ≠ [])
    (word : List Symbol) :
    [separator].intercalate (words ++ [word]) =
      [separator].intercalate words ++ [separator] ++ word := by
  obtain ⟨first, words, rfl⟩ := List.exists_cons_of_ne_nil some
  rw [List.cons_append, intercalate_cons, intercalate_cons, List.flatMap_append]
  simp only [List.flatMap_singleton, List.append_assoc, List.cons_append, List.nil_append]

theorem intercalate_ne_nil (separator : Symbol) {words : List (List Symbol)} (some : words ≠ [])
    (written : ∀ word ∈ words, word ≠ []) : [separator].intercalate words ≠ [] := by
  obtain ⟨first, words, rfl⟩ := List.exists_cons_of_ne_nil some
  rw [intercalate_cons]
  exact List.append_ne_nil_of_left_ne_nil (written first List.mem_cons_self) _

/-- Words in front of a gap and words behind it. -/
def withGap (separator : Symbol) (front back : List (List Symbol)) : List Symbol :=
  [separator].intercalate front ++ separator :: separator :: [separator].intercalate back

/-- The words before the first empty one, and the nonempty words behind it. -/
def sides (words : List (List Symbol)) : List (List Symbol) × List (List Symbol) :=
  (words.takeWhile (!·.isEmpty), (words.dropWhile (!·.isEmpty)).filter (!·.isEmpty))

theorem takeWhile_written {words : List (List Symbol)} (written : ∀ word ∈ words, word ≠ [])
    (rest : List (List Symbol)) :
    (words ++ rest).takeWhile (!·.isEmpty) = words ++ rest.takeWhile (!·.isEmpty) ∧
      (words ++ rest).dropWhile (!·.isEmpty) = rest.dropWhile (!·.isEmpty) := by
  have holds : ∀ word ∈ words, (!word.isEmpty) = true := by
    intro word member
    simpa using written word member
  exact ⟨List.takeWhile_append_of_pos holds, List.dropWhile_append_of_pos holds⟩

theorem filter_written {words : List (List Symbol)} (written : ∀ word ∈ words, word ≠ []) :
    (if words = [] then [[]] else words).filter (!·.isEmpty) = words := by
  split_ifs with none
  · subst none
    rfl
  · rw [List.filter_eq_self]
    intro word member
    simpa using written word member

section Split

variable [BEq Symbol] [LawfulBEq Symbol] {separator : Symbol}
  {words front back : List (List Symbol)}

theorem splitOn_joined (clean : ∀ word ∈ words, separator ∉ word) :
    ([separator].intercalate words).splitOn separator = if words = [] then [[]] else words := by
  split_ifs with none
  · subst none
    rfl
  · exact List.splitOn_intercalate separator clean none

theorem splitOn_withGap (frontClean : ∀ word ∈ front, separator ∉ word)
    (backClean : ∀ word ∈ back, separator ∉ word) :
    (withGap separator front back).splitOn separator =
      (if front = [] then [[]] else front) ++ [] :: if back = [] then [[]] else back := by
  have behind := List.splitOn_append_cons_self [] ([separator].intercalate back) (a := separator)
  rw [List.nil_append] at behind
  rw [withGap, List.splitOn_append_cons_self, behind, splitOn_joined frontClean,
    splitOn_joined backClean]
  rfl

/-- A text with a gap reads back as the words on the two sides of the gap. -/
theorem sides_withGap (frontClean : ∀ word ∈ front, separator ∉ word)
    (frontWritten : ∀ word ∈ front, word ≠ []) (backClean : ∀ word ∈ back, separator ∉ word)
    (backWritten : ∀ word ∈ back, word ≠ []) :
    sides ((withGap separator front back).splitOn separator) = (front, back) := by
  rw [splitOn_withGap frontClean backClean, sides]
  generalize behind : (if back = [] then [[]] else back) = rest
  have kept : rest.filter (!·.isEmpty) = back := by
    rw [← behind]
    exact filter_written backWritten
  split_ifs with none
  · subst none
    simpa using kept
  · obtain ⟨taken, dropped⟩ := takeWhile_written frontWritten ([] :: rest)
    rw [taken, dropped]
    simpa using kept

theorem sides_joined (clean : ∀ word ∈ words, separator ∉ word)
    (written : ∀ word ∈ words, word ≠ []) (some : words ≠ []) :
    sides (([separator].intercalate words).splitOn separator) = (words, []) := by
  obtain ⟨taken, dropped⟩ := takeWhile_written written []
  rw [List.append_nil] at taken dropped
  rw [splitOn_joined clean, if_neg some, sides, taken, dropped]
  simp

end Split

/-- The number that a word of digits stands for. -/
def numeral (digit : Symbol → Nat) (base : Nat) (word : List Symbol) : Nat :=
  word.foldl (fun value symbol => value * base + digit symbol) 0

theorem numeral_toDigits {digit : Symbol → Nat} {write : Char → Symbol} {base : Nat}
    (reads : ∀ value < base, digit (write (Nat.digitChar value)) = value) (positive : 1 < base)
    (value : Nat) : numeral digit base ((Nat.toDigits base value).map write) = value := by
  induction value using Nat.strongRecOn with
  | _ value inductionHypothesis =>
      rw [Nat.toDigits_eq_if positive]
      split_ifs with below
      · simpa [numeral] using reads value below
      · have smaller : value / base < value := Nat.div_lt_self (by omega) positive
        have earlier := inductionHypothesis (value / base) smaller
        unfold numeral at earlier ⊢
        rw [List.map_append, List.foldl_append, earlier]
        simpa [reads (value % base) (Nat.mod_lt value (by omega))] using
          Nat.div_add_mod' value base

end Words
