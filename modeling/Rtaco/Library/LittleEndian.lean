import Mathlib.Data.List.Basic
import Mathlib.Tactic.Ring

/-!
# Little-endian integers in byte lists

Reading is total: a byte past the end of the list reads as zero.
-/

namespace LittleEndian

/-- The unsigned integer held by the first `width` bytes. -/
def read : Nat → List UInt8 → Nat
  | 0, _ => 0
  | width + 1, bytes => (bytes.headD 0).toNat + 256 * read width bytes.tail

/-- The first `width` bytes of an unsigned integer. -/
def write : Nat → Nat → List UInt8
  | 0, _ => []
  | width + 1, value => UInt8.ofNat value :: write width (value / 256)

theorem read_lt (width : Nat) (bytes : List UInt8) : read width bytes < 256 ^ width := by
  induction width generalizing bytes with
  | zero => simp [read]
  | succ width inductionHypothesis =>
      have low := (bytes.headD 0).toNat_lt
      have high := inductionHypothesis bytes.tail
      simp only [read, Nat.pow_succ]
      omega

/-- A read that stays inside the first list does not see the second one. -/
theorem read_append {width : Nat} {front : List UInt8} (rest : List UInt8)
    (inside : width ≤ front.length) : read width (front ++ rest) = read width front := by
  induction width generalizing front with
  | zero => rfl
  | succ width inductionHypothesis =>
      cases front with
      | nil => simp at inside
      | cons byte tail =>
          have tailInside : width ≤ tail.length := by simpa using inside
          simp [read, inductionHypothesis tailInside]

theorem read_replicate_zero (width count : Nat) : read width (List.replicate count 0) = 0 := by
  induction width generalizing count with
  | zero => rfl
  | succ width inductionHypothesis =>
      cases count with
      | zero => simpa [read] using inductionHypothesis 0
      | succ count => simpa [read, List.replicate_succ] using inductionHypothesis count

/-- In front of zeros, the bytes of a list bound what is read. -/
theorem read_append_zeros_lt (width count : Nat) (front : List UInt8) :
    read width (front ++ List.replicate count 0) < 256 ^ front.length := by
  induction front generalizing width with
  | nil => simp [read_replicate_zero]
  | cons byte front inductionHypothesis =>
      have low := byte.toNat_lt
      cases width with
      | zero => simp [read]
      | succ width =>
          have high := inductionHypothesis width
          simp only [List.cons_append, read, List.headD_cons, List.tail_cons, List.length_cons,
            Nat.pow_succ]
          omega

@[simp]
theorem length_write (width value : Nat) : (write width value).length = width := by
  induction width generalizing value with
  | zero => rfl
  | succ width inductionHypothesis => simp [write, inductionHypothesis]

theorem read_write (width value : Nat) : read width (write width value) = value % 256 ^ width := by
  induction width generalizing value with
  | zero => simp [read, Nat.mod_one]
  | succ width inductionHypothesis =>
      have split : value % (256 * 256 ^ width) = value % 256 + 256 * (value / 256 % 256 ^ width) :=
        Nat.mod_mul
      simp only [read, write, List.headD_cons, List.tail_cons, inductionHypothesis, Nat.pow_succ,
        Nat.mul_comm (256 ^ width), split]
      simp

end LittleEndian
