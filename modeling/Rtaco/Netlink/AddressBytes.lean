import Mathlib.Data.List.GetD
import Rtaco.Library.Words
import Rtaco.Netlink.InetNtop

/-!
# The bytes of an address text

What the texts of `inet_ntop` stand for: the words of an address, of which one run of zeros may be
left out and the last two may be an IPv4 address.
-/

namespace Rtaco.Netlink

abbrev dot : UInt8 := '.'.toUInt8

abbrev colon : UInt8 := ':'.toUInt8

def digits : Bytes := (List.range 16).map fun value => (Nat.digitChar value).toUInt8

/-- The number of a word of digits. -/
def number (base : Nat) (word : Bytes) : Nat := Words.numeral digits.idxOf base word

def readIpv4 (text : Bytes) : Bytes :=
  (text.splitOn dot).map fun word => UInt8.ofNat (number 10 word)

/-- The bytes of what stands between two colons. -/
def readWord (word : Bytes) : Bytes :=
  if dot ∈ word then readIpv4 word
  else [UInt8.ofNat (number 16 word / 2 ^ 8), UInt8.ofNat (number 16 word)]

/-- The bytes on the two sides of a gap, with zeros in between. -/
def fillGap (front back : Bytes) : Bytes :=
  front ++ List.replicate (16 - front.length - back.length) 0 ++ back

def readIpv6 (text : Bytes) : Bytes :=
  let sides := Words.sides (text.splitOn colon)
  fillGap (sides.1.flatMap readWord) (sides.2.flatMap readWord)

def readAddress (family : Nat) (text : Bytes) : Bytes :=
  if family = afInet then readIpv4 text
  else if family = afInet6 then readIpv6 text
  else []

theorem mem_digits_of_mem_toDigits {base : Nat} (positive : 1 < base) (small : base ≤ 16)
    (value : Nat) : ∀ symbol ∈ (Nat.toDigits base value).map Char.toUInt8, symbol ∈ digits := by
  have digit : ∀ value < 16, (Nat.digitChar value).toUInt8 ∈ digits := by decide
  induction value using Nat.strongRecOn with
  | _ value inductionHypothesis =>
      rw [Nat.toDigits_eq_if positive]
      split_ifs with below
      · simpa using digit value (by omega)
      · have smaller : value / base < value := Nat.div_lt_self (by omega) positive
        have last : value % base < 16 := by
          have bound := Nat.mod_lt value (show base > 0 by omega)
          omega
        intro symbol member
        rw [List.map_append, List.mem_append] at member
        rcases member with earlier | final
        · exact inductionHypothesis (value / base) smaller symbol earlier
        · obtain rfl : symbol = (Nat.digitChar (value % base)).toUInt8 := by simpa using final
          exact digit (value % base) last

theorem dot_notMem_decimal (value : Nat) : dot ∉ decimal value := fun member =>
  absurd (mem_digits_of_mem_toDigits (by decide) (by decide) value dot member) (by decide)

theorem colon_notMem_decimal (value : Nat) : colon ∉ decimal value := fun member =>
  absurd (mem_digits_of_mem_toDigits (by decide) (by decide) value colon member) (by decide)

theorem dot_notMem_hexadecimal (value : Nat) : dot ∉ hexadecimal value := fun member =>
  absurd (mem_digits_of_mem_toDigits (by decide) (by decide) value dot member) (by decide)

theorem colon_notMem_hexadecimal (value : Nat) : colon ∉ hexadecimal value := fun member =>
  absurd (mem_digits_of_mem_toDigits (by decide) (by decide) value colon member) (by decide)

theorem hexadecimal_ne_nil (value : Nat) : hexadecimal value ≠ [] := by
  simp [hexadecimal]

theorem number_decimal (value : Nat) : number 10 (decimal value) = value :=
  Words.numeral_toDigits (by decide) (by decide) value

theorem number_hexadecimal (value : Nat) : number 16 (hexadecimal value) = value :=
  Words.numeral_toDigits (by decide) (by decide) value

theorem map_getD_range {src : Bytes} {count : Nat} (length : src.length = count) :
    ((List.range count).map fun index => src.getD index 0) = src := by
  apply List.ext_getElem
  · rw [List.length_map, List.length_range, length]
  · intro index first second
    rw [List.getElem_map, List.getElem_range, List.getD_eq_getElem src 0 second]

theorem readIpv4_inetNtop4 (src : Bytes) :
    readIpv4 (inetNtop4 src) = [src.getD 0 0, src.getD 1 0, src.getD 2 0, src.getD 3 0] := by
  have joined : inetNtop4 src = [dot].intercalate ([0, 1, 2, 3].map fun index =>
      decimal (src.getD index 0).toNat) := by
    simp [inetNtop4]
  have clean : ∀ word ∈ [0, 1, 2, 3].map (fun index => decimal (src.getD index 0).toNat),
      dot ∉ word := by
    intro word member
    obtain ⟨index, -, rfl⟩ := List.mem_map.mp member
    exact dot_notMem_decimal _
  rw [readIpv4, joined, List.splitOn_intercalate dot clean (by simp)]
  simp [number_decimal]

theorem dot_mem_inetNtop4 (src : Bytes) : dot ∈ inetNtop4 src := by
  simp [inetNtop4]

theorem colon_notMem_inetNtop4 (src : Bytes) : colon ∉ inetNtop4 src := by
  have other : colon ≠ dot := by decide
  simp [inetNtop4, colon_notMem_decimal, other]

section Words

variable (src : Bytes)

/-- A word of an address. -/
def wordAt (index : Nat) : Nat :=
  (src.getD (2 * index) 0).toNat * 256 + (src.getD (2 * index + 1) 0).toNat

/-- Its bytes. -/
def pairAt (index : Nat) : Bytes := [src.getD (2 * index) 0, src.getD (2 * index + 1) 0]

theorem readWord_hexadecimal (index : Nat) :
    readWord (hexadecimal (wordAt src index)) = pairAt src index := by
  have high := (src.getD (2 * index) 0).toNat_lt
  have low := (src.getD (2 * index + 1) 0).toNat_lt
  have upper : wordAt src index / 2 ^ 8 = (src.getD (2 * index) 0).toNat := by
    unfold wordAt
    omega
  have lower : UInt8.ofNat (wordAt src index) = src.getD (2 * index + 1) 0 := by
    apply UInt8.toNat_inj.mp
    rw [UInt8.toNat_ofNat', wordAt]
    omega
  rw [readWord, if_neg (dot_notMem_hexadecimal _), number_hexadecimal, upper, lower,
    UInt8.ofNat_toNat, pairAt]

theorem pairAt_of_zero {index : Nat} (zero : wordAt src index = 0) : pairAt src index = [0, 0] := by
  have high : (src.getD (2 * index) 0).toNat = 0 := by unfold wordAt at zero; omega
  have low : (src.getD (2 * index + 1) 0).toNat = 0 := by unfold wordAt at zero; omega
  rw [pairAt, UInt8.toNat_inj.mp (high.trans UInt8.toNat_zero.symm),
    UInt8.toNat_inj.mp (low.trans UInt8.toNat_zero.symm)]

/-- The words from one index on. -/
def wordsFrom (index count : Nat) : List Bytes :=
  (List.range' index count).map fun index => hexadecimal (wordAt src index)

def pairsFrom (index count : Nat) : Bytes :=
  (List.range' index count).flatMap (pairAt src)

theorem wordsFrom_clean (index count : Nat) :
    (∀ word ∈ wordsFrom src index count, colon ∉ word) ∧
      ∀ word ∈ wordsFrom src index count, word ≠ [] := by
  constructor
  · intro word member
    obtain ⟨index, -, rfl⟩ := List.mem_map.mp member
    exact colon_notMem_hexadecimal _
  · intro word member
    obtain ⟨index, -, rfl⟩ := List.mem_map.mp member
    exact hexadecimal_ne_nil _

theorem readWord_wordsFrom (index count : Nat) :
    (wordsFrom src index count).flatMap readWord = pairsFrom src index count := by
  rw [wordsFrom, List.flatMap_map, pairsFrom]
  simp only [readWord_hexadecimal]

theorem length_pairsFrom (index count : Nat) : (pairsFrom src index count).length = 2 * count := by
  induction count generalizing index with
  | zero => rfl
  | succ count inductionHypothesis =>
      have rest := inductionHypothesis (index + 1)
      unfold pairsFrom at rest ⊢
      rw [List.range'_succ, List.flatMap_cons, List.length_append, rest, pairAt]
      simp only [List.length_cons, List.length_nil]
      omega

theorem pairsFrom_append (index first second : Nat) :
    pairsFrom src index first ++ pairsFrom src (index + first) second =
      pairsFrom src index (first + second) := by
  unfold pairsFrom
  rw [← List.flatMap_append, List.range'_append_1]

theorem pairsFrom_of_zeros {index count : Nat}
    (zeros : ∀ other, index ≤ other → other < index + count → wordAt src other = 0) :
    pairsFrom src index count = List.replicate (2 * count) 0 := by
  induction count generalizing index with
  | zero => rfl
  | succ count inductionHypothesis =>
      have here := pairAt_of_zero src (zeros index (by omega) (by omega))
      have rest := @inductionHypothesis (index + 1) fun other lower upper =>
        zeros other (by omega) (by omega)
      unfold pairsFrom at rest ⊢
      rw [List.range'_succ, List.flatMap_cons, here, rest, Nat.mul_succ, Nat.add_comm,
        List.replicate_add]
      rfl

theorem pairsFrom_eq {src : Bytes} (length : src.length = 16) : pairsFrom src 0 8 = src :=
  map_getD_range length

end Words

namespace ZeroRun

/-- A run of words that are all zero. -/
structure Within (words : List Nat) (run : ZeroRun) : Prop where
  inside : run.base + run.len ≤ words.length
  zeros : ∀ index, run.base ≤ index → index < run.base + run.len → words.getD index 0 = 0

theorem Within.append {words : List Nat} {run : ZeroRun} (within : Within words run) (word : Nat) :
    Within (words ++ [word]) run := by
  refine ⟨?_, fun index lower upper => ?_⟩
  · have inside := within.inside
    rw [List.length_append]
    omega
  · rw [List.getD_append _ _ _ _ (by have inside := within.inside; omega)]
    exact within.zeros index lower upper

theorem longer_eq_some {best current : Option ZeroRun} {run : ZeroRun}
    (chosen : longer best current = some run) : best = some run ∨ current = some run := by
  unfold longer at chosen
  split at chosen
  · exact .inl chosen
  · exact .inr chosen
  · split_ifs at chosen
    · exact .inr chosen
    · exact .inl chosen

/-- What the search has found in the words it has seen. -/
structure Searched (words : List Nat) (state : Option ZeroRun × Option ZeroRun) : Prop where
  best : ∀ run, state.1 = some run → Within words run
  current : ∀ run, state.2 = some run → Within words run ∧ run.base + run.len = words.length

theorem getD_concat (words : List Nat) (word : Nat) :
    (words ++ [word]).getD words.length 0 = word := by
  rw [List.getD_append_right _ _ _ _ le_rfl, Nat.sub_self]
  rfl

theorem Searched.step {words : List Nat} {state : Option ZeroRun × Option ZeroRun}
    (searched : Searched words state) (word : Nat) :
    Searched (words ++ [word]) (ZeroRun.step state (word, words.length)) := by
  have kept : ∀ run, state.1 = some run → Within (words ++ [word]) run :=
    fun run found => (searched.best run found).append word
  obtain ⟨best, current⟩ := state
  by_cases zero : word = 0
  · subst zero
    cases current with
    | none =>
        -- a run starts at this word
        refine ⟨kept, fun run found => ?_⟩
        cases found
        refine ⟨⟨by simp, fun index lower upper => ?_⟩, by simp⟩
        obtain rfl : index = words.length := Nat.le_antisymm (Nat.lt_succ_iff.mp upper) lower
        exact getD_concat words 0
    | some run =>
        obtain ⟨within, ends⟩ := searched.current run rfl
        refine ⟨kept, fun longer found => ?_⟩
        cases found
        refine ⟨⟨?_, fun index lower upper => ?_⟩, ?_⟩
        · simp only [List.length_append, List.length_singleton]
          omega
        · by_cases last : index = words.length
          · rw [last]
            exact getD_concat words 0
          · exact (within.append 0).zeros index lower (by simp only at upper; omega)
        · simp only [List.length_append, List.length_singleton]
          omega
  · rw [ZeroRun.step, if_neg zero]
    refine ⟨fun run found => ?_, nofun⟩
    rcases longer_eq_some found with earlier | last
    · exact kept run earlier
    · exact (searched.current run last).1.append word

theorem searched (words : List Nat) : Searched words (words.zipIdx.foldl step (none, none)) := by
  induction words using List.reverseRecOn with
  | nil => exact ⟨nofun, nofun⟩
  | append_singleton words word inductionHypothesis =>
      rw [List.zipIdx_append, List.foldl_append]
      simpa using inductionHypothesis.step word

theorem best_within {words : List Nat} {run : ZeroRun} (chosen : best words = some run) :
    2 ≤ run.len ∧ Within words run := by
  obtain ⟨found, long⟩ := Option.filter_eq_some_iff.mp chosen
  refine ⟨of_decide_eq_true long, ?_⟩
  rcases longer_eq_some found with earlier | last
  · exact (searched words).best run earlier
  · exact ((searched words).current run last).1

end ZeroRun

theorem readIpv6_withGap {front back : List Bytes}
    (frontClean : (∀ word ∈ front, colon ∉ word) ∧ ∀ word ∈ front, word ≠ [])
    (backClean : (∀ word ∈ back, colon ∉ word) ∧ ∀ word ∈ back, word ≠ []) :
    readIpv6 (Words.withGap colon front back) =
      fillGap (front.flatMap readWord) (back.flatMap readWord) := by
  rw [readIpv6, Words.sides_withGap frontClean.1 frontClean.2 backClean.1 backClean.2]

theorem fillGap_pairsFrom {src : Bytes} (length : src.length = 16) {base len count : Nat}
    (eight : base + len + count = 8)
    (zeros : ∀ index, base ≤ index → index < base + len → wordAt src index = 0) :
    fillGap (pairsFrom src 0 base) (pairsFrom src (base + len) count) = src := by
  have gap : 16 - (pairsFrom src 0 base).length - (pairsFrom src (base + len) count).length =
      2 * len := by
    rw [length_pairsFrom, length_pairsFrom]
    omega
  have front := pairsFrom_append src 0 base len
  have whole := pairsFrom_append src 0 (base + len) count
  rw [Nat.zero_add] at front whole
  rw [fillGap, gap, ← pairsFrom_of_zeros src zeros, front, whole, eight, pairsFrom_eq length]

/-- The words of an address, as `inet_ntop` computes them. -/
abbrev addressWords (src : Bytes) : List Nat := (List.range 8).map (wordAt src)

theorem getD_addressWords (src : Bytes) {index : Nat} (inside : index < 8) :
    (addressWords src).getD index 0 = wordAt src index := by
  rw [List.getD_eq_getElem _ _ (by simpa using inside)]
  simp

section Text

variable (src : Bytes) (best : Option ZeroRun)

/-- What the text has for a word. -/
def piece (index : Nat) : Bytes :=
  if ZeroRun.covers best index then (if ZeroRun.starts best index then [colon] else [])
  else (if index = 0 then [] else [colon]) ++ hexadecimal ((addressWords src).getD index 0)

theorem formatWords_eq_flatMap (plain : ¬ embedsIpv4 best (addressWords src) = true)
    (indices : List Nat) :
    formatWords src (addressWords src) best indices = indices.flatMap (piece src best) := by
  induction indices with
  | nil => rfl
  | cons index rest inductionHypothesis =>
      have unembedded : ¬ (index = 6 ∧ embedsIpv4 best (addressWords src) = true) :=
        fun embedded => plain embedded.2
      rw [formatWords, List.flatMap_cons, piece, if_neg unembedded, inductionHypothesis]
      split_ifs <;> simp

theorem flatMap_piece_later {index count : Nat} (later : 0 < index) (inside : index + count ≤ 8)
    (uncovered : ∀ other, index ≤ other → other < index + count →
      ZeroRun.covers best other = false) :
    (List.range' index count).flatMap (piece src best) =
      (wordsFrom src index count).flatMap (colon :: ·) := by
  rw [wordsFrom, List.flatMap_map]
  apply List.flatMap_congr
  intro other member
  obtain ⟨lower, upper⟩ := List.mem_range'_1.mp member
  rw [piece, uncovered other lower upper, getD_addressWords src (by omega),
    if_neg (show ¬ other = 0 by omega)]
  rfl

theorem flatMap_piece_front {count : Nat} (inside : count ≤ 8)
    (uncovered : ∀ other < count, ZeroRun.covers best other = false) :
    (List.range' 0 count).flatMap (piece src best) =
      [colon].intercalate (wordsFrom src 0 count) := by
  cases count with
  | zero => rfl
  | succ count =>
      have first : piece src best 0 = hexadecimal (wordAt src 0) := by
        rw [piece, uncovered 0 (by omega), getD_addressWords src (by omega)]
        rfl
      have rest := @flatMap_piece_later src best 1 count (by omega) (by omega)
        fun other _ upper => uncovered other (by omega)
      have words : wordsFrom src 0 (count + 1) =
          hexadecimal (wordAt src 0) :: wordsFrom src 1 count := by
        rw [wordsFrom, List.range'_succ, List.map_cons]
        rfl
      rw [List.range'_succ, List.flatMap_cons, first, rest, words, Words.intercalate_cons]

end Text

theorem flatMap_piece_run (src : Bytes) {run : ZeroRun} (long : 2 ≤ run.len) :
    (List.range' run.base run.len).flatMap (piece src (some run)) = [colon] := by
  obtain ⟨len, more⟩ : ∃ len, run.len = len + 1 := ⟨run.len - 1, by omega⟩
  have first : piece src (some run) run.base = [colon] := by
    simp [piece, ZeroRun.covers, ZeroRun.starts]
    omega
  have rest : (List.range' (run.base + 1) len).flatMap (piece src (some run)) = [] := by
    rw [List.flatMap_eq_nil_iff]
    intro index member
    obtain ⟨lower, upper⟩ := List.mem_range'_1.mp member
    have covered : ZeroRun.covers (some run) index = true := by
      simp [ZeroRun.covers]
      omega
    have behind : ZeroRun.starts (some run) index = false := by
      simp [ZeroRun.starts]
      omega
    rw [piece, covered, behind]
    rfl
  rw [more, List.range'_succ, List.flatMap_cons, first, rest]
  rfl

theorem readIpv6_plain {src : Bytes} (length : src.length = 16)
    (none : ZeroRun.best (addressWords src) = none) : readIpv6 (inetNtop6 src) = src := by
  obtain ⟨clean, written⟩ := wordsFrom_clean src 0 8
  have text : inetNtop6 src = [colon].intercalate (wordsFrom src 0 8) := by
    change formatWords src (addressWords src) (ZeroRun.best (addressWords src)) _ ++
      (if (ZeroRun.best (addressWords src)).any _ then [colon] else []) = _
    rw [none, formatWords_eq_flatMap src Option.none nofun, List.range_eq_range',
      flatMap_piece_front src Option.none (by omega) fun _ _ => rfl]
    simp
  rw [readIpv6, text, Words.sides_joined clean written (by simp [wordsFrom]), readWord_wordsFrom,
    List.flatMap_nil, pairsFrom_eq length, fillGap, length]
  simp

theorem readIpv6_shortened {src : Bytes} (length : src.length = 16) {run : ZeroRun}
    (some : ZeroRun.best (addressWords src) = some run)
    (plain : ¬ embedsIpv4 (.some run) (addressWords src) = true) :
    readIpv6 (inetNtop6 src) = src := by
  obtain ⟨long, inside, zeros⟩ := ZeroRun.best_within some
  rw [List.length_map, List.length_range] at inside
  obtain ⟨count, eight⟩ : ∃ count, run.base + run.len + count = 8 :=
    ⟨8 - (run.base + run.len), by omega⟩
  have indices : List.range 8 = List.range' 0 run.base ++ (List.range' run.base run.len ++
      List.range' (run.base + run.len) count) := by
    rw [List.range'_append_1, List.range_eq_range', ← eight, Nat.add_assoc]
    have joined := @List.range'_append_1 0 run.base (run.len + count)
    rw [Nat.zero_add] at joined
    exact joined.symm
  have front := @flatMap_piece_front src (.some run) run.base (by omega) fun other upper => by
    simp [ZeroRun.covers]
    omega
  have back := @flatMap_piece_later src (.some run) (run.base + run.len) count (by omega)
    (by omega) fun other lower _ => by
      simp [ZeroRun.covers]
      omega
  have text : inetNtop6 src = Words.withGap colon (wordsFrom src 0 run.base)
      (wordsFrom src (run.base + run.len) count) := by
    change formatWords src (addressWords src) (ZeroRun.best (addressWords src)) _ ++
      (if (ZeroRun.best (addressWords src)).any _ then [colon] else []) = _
    rw [some, formatWords_eq_flatMap src (.some run) plain, indices, List.flatMap_append,
      List.flatMap_append, front, flatMap_piece_run src long, back, Words.withGap]
    by_cases last : count = 0
    · have ends : run.base + run.len = 8 := by omega
      subst last
      simp [wordsFrom, ends]
    · have more : wordsFrom src (run.base + run.len) count ≠ [] := by
        simpa [wordsFrom] using last
      have goes : ¬ run.base + run.len = 8 := by omega
      rw [Words.flatMap_separator colon more]
      simp [goes]
  rw [text, readIpv6_withGap (wordsFrom_clean src _ _) (wordsFrom_clean src _ _),
    readWord_wordsFrom, readWord_wordsFrom]
  apply fillGap_pairsFrom length eight
  intro index lower upper
  rw [← getD_addressWords src (by omega)]
  exact zeros index lower upper

theorem readWord_inetNtop4 (src : Bytes) :
    readWord (inetNtop4 (src.drop 12)) = pairsFrom src 6 2 := by
  rw [readWord, if_pos (dot_mem_inetNtop4 _), readIpv4_inetNtop4]
  simp [pairsFrom, pairAt, List.range']

theorem embedsIpv4_cases {words : List Nat} {run : ZeroRun}
    (embeds : embedsIpv4 (some run) words = true) :
    run = ⟨0, 6⟩ ∨ run = ⟨0, 5⟩ ∧ words.getD 5 0 = 0xffff := by
  obtain ⟨base, len⟩ := run
  simp only [embedsIpv4, Option.any_some, Bool.and_eq_true, beq_iff_eq, Bool.or_eq_true] at embeds
  obtain ⟨rfl, rfl | ⟨rfl, mapped⟩⟩ := embeds
  · exact .inl rfl
  · exact .inr ⟨rfl, mapped⟩

/-- An address that ends in an IPv4 address leaves out all words in front of it, but for a word of
ones. -/
theorem readIpv6_embedded {src : Bytes} (length : src.length = 16) {run : ZeroRun}
    (some : ZeroRun.best (addressWords src) = some run)
    (embeds : embedsIpv4 (.some run) (addressWords src) = true) :
    readIpv6 (inetNtop6 src) = src := by
  obtain ⟨-, -, zeros⟩ := ZeroRun.best_within some
  have cases := embedsIpv4_cases embeds
  have base : run.base = 0 := by rcases cases with rfl | ⟨rfl, -⟩ <;> rfl
  have len : run.len ≤ 6 := by rcases cases with rfl | ⟨rfl, -⟩ <;> decide
  have text : inetNtop6 src = Words.withGap colon []
      (wordsFrom src run.len (6 - run.len) ++ [inetNtop4 (src.drop 12)]) := by
    change formatWords src (addressWords src) (ZeroRun.best (addressWords src)) _ ++
      (if (ZeroRun.best (addressWords src)).any _ then [colon] else []) = _
    rw [some]
    have indices : List.range 8 = [0, 1, 2, 3, 4, 5, 6, 7] := rfl
    rcases cases with rfl | ⟨rfl, mapped⟩
    · simp [indices, formatWords, ZeroRun.covers, ZeroRun.starts, embeds, Words.withGap, wordsFrom]
    · have word : wordAt src 5 = 0xffff := by rw [← getD_addressWords src (by decide), mapped]
      simp [indices, formatWords, ZeroRun.covers, ZeroRun.starts, embeds, Words.withGap, wordsFrom,
        word]
  obtain ⟨clean, written⟩ := wordsFrom_clean src run.len (6 - run.len)
  have back : (∀ word ∈ wordsFrom src run.len (6 - run.len) ++ [inetNtop4 (src.drop 12)],
      colon ∉ word) ∧ ∀ word ∈ wordsFrom src run.len (6 - run.len) ++ [inetNtop4 (src.drop 12)],
        word ≠ [] := by
    simp only [List.forall_mem_append, List.forall_mem_singleton]
    exact ⟨⟨clean, colon_notMem_inetNtop4 _⟩, ⟨written, inetNtop4_ne_nil _⟩⟩
  have joined := pairsFrom_append src run.len (6 - run.len) 2
  rw [show run.len + (6 - run.len) = 6 by omega] at joined
  have front : (∀ word ∈ ([] : List Bytes), colon ∉ word) ∧ ∀ word ∈ ([] : List Bytes), word ≠ [] :=
    ⟨List.forall_mem_nil _, List.forall_mem_nil _⟩
  rw [text, readIpv6_withGap front back, List.flatMap_append, readWord_wordsFrom,
    List.flatMap_singleton, readWord_inetNtop4, joined]
  have filled := @fillGap_pairsFrom src length 0 run.len (6 - run.len + 2) (by omega)
  rw [Nat.zero_add] at filled
  apply filled
  intro index lower upper
  rw [← getD_addressWords src (by omega)]
  exact zeros index (by omega) (by omega)

theorem readIpv6_inetNtop6 {src : Bytes} (length : src.length = 16) :
    readIpv6 (inetNtop6 src) = src := by
  cases best : ZeroRun.best (addressWords src) with
  | none => exact readIpv6_plain length best
  | some run =>
      by_cases embeds : embedsIpv4 (some run) (addressWords src) = true
      · exact readIpv6_embedded length best embeds
      · exact readIpv6_shortened length best embeds

theorem readAddress_inetNtop {family size : Nat} {src text : Bytes}
    (printed : inetNtop family src size = some text) :
    readAddress family text = src.takeD (addressSize family) 0 := by
  obtain ⟨chosen, -⟩ := Option.filter_eq_some_iff.mp printed
  unfold readAddress
  split_ifs at chosen ⊢ with isInet isInet6
  · cases chosen
    subst isInet
    rw [readIpv4_inetNtop4]
    exact @map_getD_range (src.takeD 4 0) 4 (List.takeD_length ..)
  · cases chosen
    subst isInet6
    apply readIpv6_inetNtop6
    exact List.takeD_length ..

example : readAddress afInet6 ("2001:db8::1".toList.map Char.toUInt8) =
    [0x20, 1, 0xd, 0xb8, 0, 0, 0, 0, 0, 0, 0, 0, 0, 0, 0, 1] := by decide +kernel

end Rtaco.Netlink
