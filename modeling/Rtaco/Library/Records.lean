import Mathlib.Data.List.Basic
import Mathlib.Tactic.Common

/-!
# Streams of self-delimiting records

A record format reads the length of a record from the record's own header and
rounds it up to the place where the next record starts. Every input splits
into padded records followed by a tail that starts no padded record.
-/

namespace Records

universe u

structure Format (Alpha : Type u) where
  header : Nat
  size : List Alpha → Nat
  round : Nat → Nat
  header_pos : 0 < header
  le_round : ∀ length, length ≤ round length
  size_append : ∀ {front : List Alpha} (rest : List Alpha),
    header ≤ front.length → size (front ++ rest) = size front

namespace Format

variable {Alpha : Type u} (format : Format Alpha)

/-- The input starts with a complete record, padding not counted. -/
def Fits (input : List Alpha) : Prop :=
  format.header ≤ input.length ∧ format.header ≤ format.size input ∧
    format.size input ≤ input.length

instance (input : List Alpha) : Decidable (format.Fits input) :=
  inferInstanceAs (Decidable (_ ∧ _ ∧ _))

/-- The input starts with a complete record whose padding is cut off. -/
def Dangles (input : List Alpha) : Prop :=
  format.Fits input ∧ input.length < format.round (format.size input)

instance (input : List Alpha) : Decidable (format.Dangles input) :=
  inferInstanceAs (Decidable (_ ∧ _))

variable {format} in
theorem Fits.of_take {input : List Alpha} {count : Nat} (fits : format.Fits (input.take count)) :
    format.Fits input := by
  obtain ⟨header, enough, inside⟩ := fits
  have whole := format.size_append (input.drop count) header
  rw [List.take_append_drop] at whole
  have shorter := List.length_take_le' count input
  refine ⟨?_, ?_, ?_⟩
  · omega
  · rw [whole]
    exact enough
  · rw [whole]
    omega

structure Record where
  bytes : List Alpha
  padding : List Alpha
  header_le : format.header ≤ bytes.length
  size_eq : format.size bytes = bytes.length
  padding_length : padding.length = format.round bytes.length - bytes.length

variable {format}

def Record.encode (record : format.Record) : List Alpha := record.bytes ++ record.padding

theorem Record.length_encode (record : format.Record) :
    record.encode.length = format.round record.bytes.length := by
  have rounded := format.le_round record.bytes.length
  simp [Record.encode, record.padding_length]
  omega

theorem Record.size_append (record : format.Record) (rest : List Alpha) :
    format.size (record.bytes ++ rest) = record.bytes.length := by
  rw [format.size_append rest record.header_le, record.size_eq]

def encode (records : List format.Record) : List Alpha := records.flatMap Record.encode

@[simp] theorem encode_nil : encode ([] : List format.Record) = [] := rfl

@[simp] theorem encode_cons (record : format.Record) (records : List format.Record) :
    encode (record :: records) = record.encode ++ encode records := rfl

@[simp] theorem encode_append (first second : List format.Record) :
    encode (first ++ second) = encode first ++ encode second := by
  simp [encode]

theorem size_take (input : List Alpha) (fits : format.Fits input) :
    format.size (input.take (format.size input)) = format.size input := by
  have front : format.size (input.take (format.size input) ++ input.drop (format.size input)) =
      format.size (input.take (format.size input)) :=
    format.size_append _ (by rw [List.length_take]; exact Nat.le_min.mpr ⟨fits.2.1, fits.1⟩)
  rw [List.take_append_drop] at front
  exact front.symm

def Record.ofFits (input : List Alpha) (fits : format.Fits input)
    (padded : format.round (format.size input) ≤ input.length) : format.Record where
  bytes := input.take (format.size input)
  padding := (input.drop (format.size input)).take
    (format.round (format.size input) - format.size input)
  header_le := by rw [List.length_take]; exact Nat.le_min.mpr ⟨fits.2.1, fits.1⟩
  size_eq := by rw [size_take input fits]; simp [fits.2.2]
  padding_length := by
    have inside := fits.2.2
    simp only [List.length_take, List.length_drop, Nat.min_eq_left inside]
    omega

theorem Record.encode_ofFits (input : List Alpha) (fits : format.Fits input)
    (padded : format.round (format.size input) ≤ input.length) :
    (Record.ofFits input fits padded).encode ++
      input.drop (format.round (format.size input)) = input := by
  have rounded := format.le_round (format.size input)
  have rest : input.drop (format.round (format.size input)) =
      (input.drop (format.size input)).drop
        (format.round (format.size input) - format.size input) := by
    rw [List.drop_drop]
    congr 1
    omega
  rw [rest]
  simp only [Record.encode, Record.ofFits, List.append_assoc, List.take_append_drop]

/-- Every input is a stream of padded records and a tail that starts no padded
record: nothing complete is left, or one record whose padding is cut off. -/
theorem exists_split (input : List Alpha) :
    ∃ (records : List format.Record) (rest : List Alpha),
      input = encode records ++ rest ∧ (¬ format.Fits rest ∨ format.Dangles rest) := by
  induction length : input.length using Nat.strongRecOn generalizing input with
  | _ bound inductionHypothesis =>
      by_cases fits : format.Fits input
      · by_cases dangles : format.Dangles input
        · exact ⟨[], input, rfl, .inr dangles⟩
        · have padded : format.round (format.size input) ≤ input.length :=
            Nat.le_of_not_lt fun short => dangles ⟨fits, short⟩
          have shorter : (input.drop (format.round (format.size input))).length < bound := by
            have positive := format.header_pos
            have rounded := format.le_round (format.size input)
            have enough := fits.2.1
            simp only [List.length_drop]
            omega
          obtain ⟨records, rest, split, ended⟩ :=
            inductionHypothesis _ shorter _ rfl
          refine ⟨.ofFits input fits padded :: records, rest, ?_, ended⟩
          rw [encode_cons, List.append_assoc, ← split, Record.encode_ofFits]
      · exact ⟨[], input, rfl, .inl fits⟩

/-- The same split, cut at the first record that stops a reader. -/
theorem exists_stop (stops : List Alpha → Prop) (input : List Alpha) :
    ∃ (records : List format.Record) (rest : List Alpha), input = encode records ++ rest ∧
      (∀ record ∈ records, ¬ stops record.bytes) ∧
      (¬ format.Fits rest ∨ format.Fits rest ∧ stops (rest.take (format.size rest)) ∨
        format.Dangles rest ∧ ¬ stops (rest.take (format.size rest))) := by
  obtain ⟨records, rest, split, ended⟩ := @exists_split _ format input
  induction records generalizing input with
  | nil =>
      refine ⟨[], rest, split, by simp, ?_⟩
      rcases ended with unfit | dangles
      · exact .inl unfit
      · by_cases stopped : stops (rest.take (format.size rest))
        · exact .inr (.inl ⟨dangles.1, stopped⟩)
        · exact .inr (.inr ⟨dangles, stopped⟩)
  | cons record records inductionHypothesis =>
      by_cases stopped : stops record.bytes
      · have front : input = record.bytes ++ (record.padding ++ (encode records ++ rest)) := by
          simp [split, Record.encode]
        have size : format.size input = record.bytes.length := by
          rw [front, record.size_append]
        refine ⟨[], input, rfl, by simp, .inr (.inl ⟨⟨?_, ?_, ?_⟩, ?_⟩)⟩
        · rw [front, List.length_append]
          exact Nat.le_add_right_of_le record.header_le
        · rw [size]
          exact record.header_le
        · rw [size, front, List.length_append]
          exact Nat.le_add_right _ _
        · rw [size, front, List.take_left']
          · exact stopped
          · rfl
      · obtain ⟨later, rest', split', quiet, ended'⟩ :=
          inductionHypothesis (encode records ++ rest) rfl
        refine ⟨record :: later, rest', ?_, ?_, ended'⟩
        · rw [split, encode_cons, encode_cons, List.append_assoc, List.append_assoc, split']
        · intro other member
          rcases List.mem_cons.mp member with rfl | member
          · exact stopped
          · exact quiet other member

end Format

end Records
