import Mathlib.Data.List.TakeDrop
import Mathlib.Data.Nat.Digits.Defs
import Mathlib.Tactic.Common
import Rtaco.Netlink.Layout

/-!
# `inet_ntop`

The presentation format of the C library: dotted decimal for four bytes; for
sixteen bytes hexadecimal words with the first longest run of at least two zero
words shortened, and an embedded IPv4 address in dotted decimal.
-/

namespace Rtaco.Netlink

/-- `"%u"`. -/
def decimal (value : Nat) : Bytes := (Nat.toDigits 10 value).map Char.toUInt8

/-- `"%x"`. -/
def hexadecimal (value : Nat) : Bytes := (Nat.toDigits 16 value).map Char.toUInt8

def inetNtop4 (src : Bytes) : Bytes :=
  decimal (src.getD 0 0).toNat ++ '.'.toUInt8 :: decimal (src.getD 1 0).toNat ++
    '.'.toUInt8 :: decimal (src.getD 2 0).toNat ++ '.'.toUInt8 :: decimal (src.getD 3 0).toNat

structure ZeroRun where
  base : Nat
  len : Nat

def ZeroRun.longer : Option ZeroRun → Option ZeroRun → Option ZeroRun
  | best, none => best
  | none, some current => some current
  | some best, some current => if best.len < current.len then some current else some best

/-- One word of the search for the longest run of zero words. -/
def ZeroRun.step (state : Option ZeroRun × Option ZeroRun) (entry : Nat × Nat) :
    Option ZeroRun × Option ZeroRun :=
  if entry.1 = 0 then
    match state.2 with
    | none => (state.1, some ⟨entry.2, 1⟩)
    | some current => (state.1, some { current with len := current.len + 1 })
  else
    (longer state.1 state.2, none)

def ZeroRun.best (words : List Nat) : Option ZeroRun :=
  let state := words.zipIdx.foldl step (none, none)
  (longer state.1 state.2).filter fun run => 2 ≤ run.len

def ZeroRun.covers (best : Option ZeroRun) (index : Nat) : Bool :=
  best.any fun run => run.base ≤ index && index < run.base + run.len

def ZeroRun.starts (best : Option ZeroRun) (index : Nat) : Bool :=
  best.any fun run => run.base == index

/-- The low words hold an IPv4 address. -/
def embedsIpv4 (best : Option ZeroRun) (words : List Nat) : Bool :=
  best.any fun run =>
    run.base == 0 && (run.len == 6 || (run.len == 5 && words.getD 5 0 == 0xffff))

def formatWords (src : Bytes) (words : List Nat) (best : Option ZeroRun) : List Nat → Bytes
  | [] => []
  | index :: rest =>
      if ZeroRun.covers best index then
        (if ZeroRun.starts best index then [':'.toUInt8] else []) ++
          formatWords src words best rest
      else
        (if index = 0 then [] else [':'.toUInt8]) ++
          if index = 6 ∧ embedsIpv4 best words then
            inetNtop4 (src.drop 12)
          else
            hexadecimal (words.getD index 0) ++ formatWords src words best rest

def inetNtop6 (src : Bytes) : Bytes :=
  let words := (List.range 8).map fun index =>
    (src.getD (2 * index) 0).toNat * 256 + (src.getD (2 * index + 1) 0).toNat
  let best := ZeroRun.best words
  formatWords src words best (List.range 8) ++
    if best.any fun run => run.base + run.len == 8 then [':'.toUInt8] else []

/-- The bytes `inet_ntop` reads for a family. -/
def addressSize (family : Nat) : Nat :=
  if family = afInet then 4 else if family = afInet6 then 16 else 0

def inetNtop (family : Nat) (src : Bytes) (size : Nat) : Option Bytes :=
  let address := src.takeD (addressSize family) 0
  let text :=
    if family = afInet then some (inetNtop4 address)
    else if family = afInet6 then some (inetNtop6 address)
    else none
  text.filter fun text => text.length < size

theorem inetNtop_append {family size : Nat} {front : Bytes} (rest : Bytes)
    (inside : addressSize family ≤ front.length) :
    inetNtop family (front ++ rest) size = inetNtop family front size := by
  have whole : addressSize family ≤ (front ++ rest).length := by
    simp only [List.length_append]
    omega
  unfold inetNtop
  rw [List.takeD_eq_take _ whole, List.takeD_eq_take _ inside, List.take_append_of_le_length inside]

theorem toUInt8_digitChar_ne_zero {digit : Nat} (small : digit < 16) :
    (Nat.digitChar digit).toUInt8 ≠ 0 := by
  decide +revert

theorem zero_notMem_toDigits {base : Nat} (positive : 1 < base) (small : base ≤ 16) (value : Nat) :
    (0 : UInt8) ∉ (Nat.toDigits base value).map Char.toUInt8 := by
  induction value using Nat.strongRecOn with
  | _ value inductionHypothesis =>
      rw [Nat.toDigits_eq_if positive]
      split_ifs with below
      · simpa using (toUInt8_digitChar_ne_zero (Nat.lt_of_lt_of_le below small)).symm
      · have smaller : value / base < value := Nat.div_lt_self (by omega) positive
        have last : value % base < 16 := by
          have bound := Nat.mod_lt value (show base > 0 by omega)
          omega
        have earlier := inductionHypothesis (value / base) smaller
        rw [List.map_append, List.mem_append, not_or]
        exact ⟨earlier, by simpa using (toUInt8_digitChar_ne_zero last).symm⟩

theorem zero_notMem_decimal (value : Nat) : (0 : UInt8) ∉ decimal value :=
  zero_notMem_toDigits (by decide) (by decide) value

theorem zero_notMem_hexadecimal (value : Nat) : (0 : UInt8) ∉ hexadecimal value :=
  zero_notMem_toDigits (by decide) (by decide) value

theorem length_decimal_le (byte : UInt8) : (decimal byte.toNat).length ≤ 3 := by
  have bound := byte.toNat_lt
  simpa [decimal] using Nat.toDigits_length 10 byte.toNat 3 (by decide) (by omega)

theorem length_hexadecimal_le {word : Nat} (small : word < 2 ^ 16) :
    (hexadecimal word).length ≤ 4 := by
  simpa [hexadecimal] using Nat.toDigits_length 16 word 4 (by decide) (by omega)

theorem zero_notMem_inetNtop4 (src : Bytes) : (0 : UInt8) ∉ inetNtop4 src := by
  have dot : (0 : UInt8) ≠ '.'.toUInt8 := by decide
  simp [inetNtop4, zero_notMem_decimal, dot]

theorem length_inetNtop4_le (src : Bytes) : (inetNtop4 src).length ≤ 15 := by
  have first := length_decimal_le (src.getD 0 0)
  have second := length_decimal_le (src.getD 1 0)
  have third := length_decimal_le (src.getD 2 0)
  have fourth := length_decimal_le (src.getD 3 0)
  simp only [inetNtop4, List.length_append, List.length_cons]
  omega

theorem inetNtop4_ne_nil (src : Bytes) : inetNtop4 src ≠ [] := by
  simp [inetNtop4]

section Words

variable (src : Bytes) (words : List Nat) (best : Option ZeroRun)

theorem zero_notMem_formatWords (indices : List Nat) :
    (0 : UInt8) ∉ formatWords src words best indices := by
  have colon : (0 : UInt8) ≠ ':'.toUInt8 := by decide
  induction indices with
  | nil => simp [formatWords]
  | cons index rest inductionHypothesis =>
      unfold formatWords
      split_ifs <;>
        simp [colon, inductionHypothesis, zero_notMem_inetNtop4, zero_notMem_hexadecimal]

theorem length_formatWords_le (small : ∀ index, words.getD index 0 < 2 ^ 16)
    (plain : ¬ embedsIpv4 best words = true) (indices : List Nat) :
    (formatWords src words best indices).length ≤ 5 * indices.length := by
  induction indices with
  | nil => simp [formatWords]
  | cons index rest inductionHypothesis =>
      have word := length_hexadecimal_le (small index)
      have colon : (if index = 0 then [] else [':'.toUInt8]).length ≤ 1 := by split_ifs <;> simp
      have start : (if ZeroRun.starts best index = true then [':'.toUInt8] else []).length ≤ 1 := by
        split_ifs <;> simp
      unfold formatWords
      by_cases covered : ZeroRun.covers best index = true
      · rw [if_pos covered, List.length_append, List.length_cons]
        omega
      · have unembedded : ¬ (index = 6 ∧ embedsIpv4 best words = true) :=
          fun embedded => plain embedded.2
        rw [if_neg covered, if_neg unembedded, List.length_append, List.length_append,
          List.length_cons]
        omega

/-- The words in front of an embedded IPv4 address are one run of zeros and at most one
other word. -/
theorem length_formatWords_of_embeds (small : ∀ index, words.getD index 0 < 2 ^ 16)
    (embeds : embedsIpv4 best words = true) :
    (formatWords src words best (List.range 8)).length ≤ 22 ∧
      best.any (fun run => run.base + run.len == 8) = false := by
  have address := length_inetNtop4_le (src.drop 12)
  have word := length_hexadecimal_le (small 5)
  cases best with
  | none => cases embeds
  | some run =>
      rcases run with ⟨base, len⟩
      have indices : List.range 8 = [0, 1, 2, 3, 4, 5, 6, 7] := rfl
      simp only [embedsIpv4, Option.any_some, Bool.and_eq_true, beq_iff_eq, Bool.or_eq_true]
        at embeds
      obtain ⟨rfl, rfl | ⟨rfl, mapped⟩⟩ := embeds
      · simp [indices, formatWords, ZeroRun.covers, ZeroRun.starts, embedsIpv4]
        omega
      · rw [List.getD_eq_getElem?_getD] at mapped word
        simp [indices, formatWords, ZeroRun.covers, ZeroRun.starts, embedsIpv4, mapped]
        rw [mapped] at word
        omega

theorem formatWords_ne_nil (index : Nat) (rest : List Nat)
    (starts : ZeroRun.covers best index = true → ZeroRun.starts best index = true) :
    formatWords src words best (index :: rest) ≠ [] := by
  unfold formatWords
  by_cases covered : ZeroRun.covers best index = true
  · simp [covered, starts covered]
  · by_cases embedded : index = 6 ∧ embedsIpv4 best words = true
    · rw [if_neg covered, if_pos embedded]
      exact List.append_ne_nil_of_right_ne_nil _ (inetNtop4_ne_nil _)
    · rw [if_neg covered, if_neg embedded]
      simp [hexadecimal]

end Words

theorem zero_notMem_inetNtop6 (src : Bytes) : (0 : UInt8) ∉ inetNtop6 src := by
  have colon : (0 : UInt8) ≠ ':'.toUInt8 := by decide
  simp only [inetNtop6, List.mem_append, not_or]
  refine ⟨zero_notMem_formatWords _ _ _ _, ?_⟩
  split_ifs <;> simp [colon]

theorem length_inetNtop6_lt (src : Bytes) : (inetNtop6 src).length < 46 := by
  unfold inetNtop6
  extract_lets words best
  have small : ∀ index, words.getD index 0 < 2 ^ 16 := by
    intro index
    by_cases inside : index < 8
    · have high := (src.getD (2 * index) 0).toNat_lt
      have low := (src.getD (2 * index + 1) 0).toNat_lt
      simp only [words, List.getD_eq_getElem?_getD, List.getElem?_map, List.getElem?_range inside,
        Option.map_some, Option.getD_some] at high low ⊢
      omega
    · simp [words, List.getD_eq_getElem?_getD, Nat.le_of_not_lt inside]
  rw [List.length_append]
  by_cases embeds : embedsIpv4 best words = true
  · obtain ⟨bound, tail⟩ := length_formatWords_of_embeds src words best small embeds
    rw [tail]
    simp only [Bool.false_eq_true, if_false, List.length_nil]
    omega
  · have bound := length_formatWords_le src words best small embeds (List.range 8)
    rw [List.length_range] at bound
    split_ifs <;> simp only [List.length_nil, List.length_singleton] <;> omega

theorem inetNtop6_ne_nil (src : Bytes) : inetNtop6 src ≠ [] := by
  unfold inetNtop6
  extract_lets words best
  apply List.append_ne_nil_of_left_ne_nil
  apply formatWords_ne_nil
  cases best with
  | none => simp [ZeroRun.covers]
  | some run => simp [ZeroRun.covers, ZeroRun.starts]; omega

theorem zero_notMem_inetNtop {family size : Nat} {src text : Bytes}
    (printed : inetNtop family src size = some text) : (0 : UInt8) ∉ text := by
  obtain ⟨chosen, -⟩ := Option.filter_eq_some_iff.mp printed
  split_ifs at chosen with isInet isInet6
  · cases chosen
    exact zero_notMem_inetNtop4 _
  · cases chosen
    exact zero_notMem_inetNtop6 _

theorem inetNtop_eq_some {family size : Nat} {src text : Bytes} (fits : text.length < size)
    (printed : (if family = afInet then some (inetNtop4 (src.takeD (addressSize family) 0))
      else if family = afInet6 then some (inetNtop6 (src.takeD (addressSize family) 0))
      else none) = some text) :
    inetNtop family src size = some text :=
  Option.filter_eq_some_iff.mpr ⟨printed, decide_eq_true fits⟩

theorem exists_inetNtop {family : Nat} (known : family = afInet ∨ family = afInet6) (src : Bytes) :
    ∃ text, inetNtop family src 46 = some text ∧ text ≠ [] := by
  rcases known with rfl | rfl
  · have fits := length_inetNtop4_le (src.takeD (addressSize afInet) 0)
    exact ⟨_, inetNtop_eq_some (by omega) (if_pos rfl), inetNtop4_ne_nil _⟩
  · have fits := length_inetNtop6_lt (src.takeD (addressSize afInet6) 0)
    exact ⟨_, inetNtop_eq_some fits (by simp), inetNtop6_ne_nil _⟩

example : inetNtop afInet6 [0x20, 1, 0xd, 0xb8, 0, 0, 0, 0, 0, 0, 0, 0, 0, 0, 0, 1] 46 =
    some ("2001:db8::1".toList.map Char.toUInt8) := by decide +kernel

end Rtaco.Netlink
