import Mathlib.Algebra.Field.Rat
import Mathlib.Tactic.NormNum
import SeisLog.Proofs.Numbers

/-!
# The numbers that words denote

A finite double denotes a rational number, told by its fields (`Binary64.value`). The double of a
hexadecimal word denotes the number of the word, and so does its double in a block
(`IbmSingle.decoding_exact`); the double of a single denotes the number of the single.
-/

namespace SeisLog

namespace Binary64

/-- The number of a finite double: a sign, an exponent in excess 1023 and 52 bits of a fraction,
with an implicit one in front of it unless the exponent is zero. -/
def value (x : Binary64) : ℚ :=
  (-1) ^ x.isNegative.toNat *
    if x.exponentField = 0 then (x.fraction : ℚ) / 2 ^ 52 * 2 ^ (-1022 : ℤ)
    else (1 + (x.fraction : ℚ) / 2 ^ 52) * 2 ^ ((x.exponentField : ℤ) - 1023)

def IsNormal (x : Binary64) : Prop := 1 ≤ x.exponentField ∧ x.exponentField ≤ 2046

instance (x : Binary64) : Decidable x.IsNormal := inferInstanceAs (Decidable (_ ∧ _))

variable {x : Binary64} {negative : Bool} {units : Nat}

theorem fraction_mul_zpow (fraction : ℚ) (bits : ℕ) (exponent : ℤ) :
    fraction / 2 ^ bits * 2 ^ exponent = fraction * 2 ^ (exponent - bits) := by
  rw [zpow_sub₀ two_ne_zero, zpow_natCast, div_mul_eq_mul_div, mul_div_assoc]

theorem significand_mul_zpow (fraction : ℚ) (bits : ℕ) (exponent : ℤ) :
    (1 + fraction / 2 ^ bits) * 2 ^ exponent = (2 ^ bits + fraction) * 2 ^ (exponent - bits) := by
  have hone : (1 : ℚ) = 2 ^ bits / 2 ^ bits := (div_self (pow_ne_zero _ two_ne_zero)).symm
  rw [hone, ← add_div, fraction_mul_zpow]

theorem cast_significand (bits fraction : ℕ) :
    ((1 <<< bits + fraction : ℕ) : ℚ) = 2 ^ bits + (fraction : ℚ) := by
  rw [Nat.one_shiftLeft, Nat.cast_add, Nat.cast_pow, Nat.cast_ofNat]

theorem value_eq (x : Binary64) :
    x.value = (-1) ^ x.isNegative.toNat * (x.units * 2 ^ (-1074 : ℤ)) := by
  unfold value Binary64.units significand
  congr 1
  by_cases h : x.exponentField = 0
  · rw [if_pos h, if_pos h, h, fraction_mul_zpow]
    rfl
  · have hexponent : (x.exponentField : ℤ) - 1023 - (52 : ℕ) =
        ((x.exponentField - 1 : ℕ) : ℤ) + -1074 := by omega
    rw [if_neg h, if_neg h, significand_mul_zpow, hexponent, zpow_add₀ two_ne_zero, zpow_natCast,
      Nat.shiftLeft_eq _ (x.exponentField - 1), Nat.cast_mul, Nat.cast_pow, Nat.cast_ofNat,
      cast_significand, mul_assoc]

theorem Exactly.value_shiftLeft {m shift : Nat} (h : x.Exactly negative (m <<< shift)) :
    x.value = (-1) ^ negative.toNat * (m * 2 ^ ((shift : ℤ) - 1074)) := by
  have hscale : (2 : ℚ) ^ shift * 2 ^ (-1074 : ℤ) = 2 ^ ((shift : ℤ) - 1074) := by
    rw [← zpow_natCast, ← zpow_add₀ two_ne_zero, sub_eq_add_neg]
  rw [value_eq, h.isNegative, h.units, Nat.shiftLeft_eq, Nat.cast_mul, Nat.cast_pow, mul_assoc,
    Nat.cast_ofNat, hscale]

/-- A double of at least `2 ^ 52` units has an implicit one. -/
theorem Exactly.isNormal (h : x.Exactly negative units) (hunits : 2 ^ 52 ≤ units) :
    x.IsNormal := by
  have hfinite : x.magnitude < 2047 <<< 52 := of_decide_eq_true h.isFinite
  have hexponent : x.exponentField = x.magnitude / 2 ^ 52 := rfl
  rw [Nat.shiftLeft_eq] at hfinite
  refine ⟨Nat.one_le_iff_ne_zero.mpr ?_, by omega⟩
  intro hzero
  have hfraction : x.fraction < 2 ^ 52 := Nat.mod_lt _ (by decide)
  rw [← h.units, Binary64.units, significand, if_pos hzero, hzero] at hunits
  exact absurd hfraction (Nat.not_lt.mpr hunits)

end Binary64

namespace Single

/-- The double stands for the word of a sign, an exponent in excess 127 and 23 bits of a fraction.
The last exponent holds the infinities and what is no number. -/
def Denotes (word : ℤ) (x : Binary64) : Prop :=
  let negative := decide (word / 2 ^ 31 % 2 = 1)
  let exponent : ℤ := word / 2 ^ 23 % 2 ^ 8
  let fraction : ℤ := word % 2 ^ 23
  if exponent = 255 then
    if fraction = 0 then x = Binary64.infinity negative else x.isNaN = true
  else
    x.isFinite = true ∧ x.isNegative = negative ∧ x.value = (-1) ^ negative.toNat *
      if exponent = 0 then (fraction : ℚ) / 2 ^ 23 * 2 ^ (-126 : ℤ)
      else (1 + (fraction : ℚ) / 2 ^ 23) * 2 ^ (exponent - 127)

theorem value_widen {word : UInt32} (h : magnitude word < infinityMagnitude) :
    (widen word).value = (-1) ^ (isNegative word).toNat *
      if exponentField word = 0 then (fraction word : ℚ) / 2 ^ 23 * 2 ^ (-126 : ℤ)
      else (1 + (fraction word : ℚ) / 2 ^ 23) * 2 ^ ((exponentField word : ℤ) - 127) := by
  rw [Binary64.Exactly.value_shiftLeft (exactly_widen h)]
  congr 1
  unfold significand
  by_cases hzero : exponentField word = 0
  · rw [if_pos hzero, if_pos hzero, hzero, Binary64.fraction_mul_zpow]
    rfl
  · have hexponent : ((max (exponentField word) 1 + 924 : ℕ) : ℤ) - 1074 =
        (exponentField word : ℤ) - 127 - (23 : ℕ) := by omega
    rw [if_neg hzero, if_neg hzero, Binary64.significand_mul_zpow, Binary64.cast_significand,
      hexponent]

theorem isNaN_widen {word : UInt32} (h : exponentField word = 255) (hf : fraction word ≠ 0) :
    (widen word).isNaN = true := by
  have hlt : fraction word < 1 <<< 23 := Nat.mod_lt _ (by decide)
  simp only [Nat.reduceShiftLeft] at hlt
  rw [widen, if_pos h, Binary64.isNaN, decide_eq_true_eq, Nat.shiftLeft_eq,
    Binary64.magnitude_ofMagnitude]
  · omega
  · simp only [Binary64.infinityMagnitude, Nat.reduceShiftLeft]
    omega

theorem denotes_widen (word : UInt32) : Denotes word.toNat (widen word) := by
  have hlt := word.toNat_lt
  have hmagnitude : magnitude word = word.toNat % 2 ^ 31 := rfl
  have hexponent : exponentField word = magnitude word / 2 ^ 23 := rfl
  have hfraction : fraction word = magnitude word % 2 ^ 23 := rfl
  have hnegative : decide ((word.toNat : ℤ) / 2 ^ 31 % 2 = 1) = isNegative word := by
    rw [isNegative, decide_eq_decide]
    simp only [Nat.reduceShiftLeft]
    omega
  have hexponents : (word.toNat : ℤ) / 2 ^ 23 % 2 ^ 8 = (exponentField word : ℤ) := by omega
  have hfractions : (word.toNat : ℤ) % 2 ^ 23 = (fraction word : ℤ) := by omega
  unfold Denotes
  dsimp only
  rw [hnegative, hexponents, hfractions]
  by_cases hlast : exponentField word = 255
  · rw [if_pos (by omega)]
    by_cases hzero : fraction word = 0
    · rw [if_pos (by omega)]
      exact widen_of_eq (by simp only [infinityMagnitude, Nat.reduceShiftLeft]; omega)
    · rw [if_neg (by omega)]
      exact isNaN_widen hlast hzero
  · have hfinite : magnitude word < infinityMagnitude := by
      simp only [infinityMagnitude, Nat.reduceShiftLeft]
      omega
    have hexactly := exactly_widen hfinite
    rw [if_neg (by omega)]
    refine ⟨hexactly.isFinite, hexactly.isNegative, ?_⟩
    simpa only [Int.natCast_eq_zero, Int.cast_natCast] using value_widen hfinite

theorem denotes_ofBytes {bytes : Bytes} (h : bytes.length = 4) :
    Denotes (Bytes.unsigned bytes) (ofBytes bytes) := by
  rw [← Bytes.toNat_word h]
  exact denotes_widen _

end Single

namespace IbmSingle

/-- The double stands for the word: zero is positive, and any other number is
`(-1) ^ s * m * 16 ^ (e - 70)` for the sign bit `s`, the seven bits `e` and the fraction `m`. Only
the low 32 bits of the word are looked at. -/
def Denotes (word : ℤ) (x : Binary64) : Prop :=
  if word % 2 ^ 24 = 0 then x = ⟨0⟩
  else x.IsNormal ∧ x.value =
    (-1) ^ (word / 2 ^ 31 % 2).toNat * (word % 2 ^ 24 : ℤ) * 16 ^ (word / 2 ^ 24 % 2 ^ 7 - 70)

theorem value_toBinary64 {word : UInt32} (h : fraction word ≠ 0) :
    (toBinary64 word).value = (-1) ^ (isNegative word).toNat * fraction word *
      16 ^ ((exponentField word : ℤ) - 70) := by
  have hbase : (16 : ℚ) = 2 ^ (4 : ℤ) := by norm_num
  have hexponent : ((4 * exponentField word + 794 : ℕ) : ℤ) - 1074 =
      4 * ((exponentField word : ℤ) - 70) := by omega
  rw [Binary64.Exactly.value_shiftLeft (exactly_toBinary64 h), hexponent, hbase, zpow_mul,
    mul_assoc]

theorem isNormal_toBinary64 {word : UInt32} (h : fraction word ≠ 0) :
    (toBinary64 word).IsNormal := by
  refine (exactly_toBinary64 h).isNormal ?_
  have hshift : 52 ≤ 4 * exponentField word + 794 := by omega
  unfold units
  generalize 4 * exponentField word + 794 = shift at hshift
  rw [Nat.shiftLeft_eq]
  calc 2 ^ 52 ≤ 2 ^ shift := Nat.pow_le_pow_right (by decide) hshift
    _ ≤ fraction word * 2 ^ shift := Nat.le_mul_of_pos_left _ (Nat.pos_of_ne_zero h)

theorem denotes_toBinary64 (word : UInt32) : Denotes word.toNat (toBinary64 word) := by
  have hlt := word.toNat_lt
  have hfraction : ((word.toNat : ℤ) % 2 ^ 24) = (fraction word : ℤ) := rfl
  unfold Denotes
  rw [hfraction]
  by_cases h : fraction word = 0
  · rw [if_pos (by omega), toBinary64, if_pos h]
    rfl
  · have hsign : ((word.toNat : ℤ) / 2 ^ 31 % 2).toNat = (isNegative word).toNat := by
      unfold isNegative
      by_cases hn : 1 <<< 31 ≤ word.toNat
      · rw [decide_eq_true hn]
        simp only [Nat.reduceShiftLeft, Bool.toNat_true] at hn ⊢
        omega
      · rw [decide_eq_false hn]
        simp only [Nat.reduceShiftLeft, Bool.toNat_false] at hn ⊢
        omega
    have hexponent : (word.toNat : ℤ) / 2 ^ 24 % 2 ^ 7 = (exponentField word : ℤ) := rfl
    rw [if_neg (by omega), hsign, hexponent]
    exact ⟨isNormal_toBinary64 h, value_toBinary64 h⟩

/-- A number and its low 32 bits denote the same. -/
theorem denotes_emod (word : ℤ) (x : Binary64) : Denotes (word % 2 ^ 32) x ↔ Denotes word x := by
  have hfraction : word % 2 ^ 32 % 2 ^ 24 = word % 2 ^ 24 := by omega
  have hsign : word % 2 ^ 32 / 2 ^ 31 % 2 = word / 2 ^ 31 % 2 := by omega
  have hexponent : word % 2 ^ 32 / 2 ^ 24 % 2 ^ 7 = word / 2 ^ 24 % 2 ^ 7 := by omega
  rw [Denotes, Denotes, hfraction, hsign, hexponent]

theorem denotes_ofInt (word : ℤ) : Denotes word (ofInt word) := by
  have hword : ((UInt32.ofNat (word % (1 <<< 32 : ℕ)).toNat).toNat : ℤ) = word % 2 ^ 32 := by
    rw [UInt32.toNat_ofNat']
    simp only [Nat.reduceShiftLeft]
    omega
  rw [← denotes_emod, ← hword]
  exact denotes_toBinary64 _

theorem denotes_ofBytes {bytes : Bytes} (h : bytes.length = 4) :
    Denotes (Bytes.unsigned bytes) (ofBytes bytes) := by
  rw [← Bytes.toNat_word h]
  exact denotes_toBinary64 _

theorem ofBlockBytes_eq (bytes : Bytes) : ofBlockBytes bytes = ofBytes bytes :=
  blockToBinary64_eq _

theorem decodeBlock_of_dvd {bytes : Bytes} (h : 4 ∣ bytes.length) :
    ∃ numbers, decodeBlock bytes = .ok numbers ∧ numbers.length = bytes.length / 4 ∧
      ∀ i (hi : i < numbers.length),
        decodeWord (bytes.slice (4 * i) (4 * i + 4)) = .ok numbers[i] ∧
          Denotes (Bytes.unsigned (bytes.slice (4 * i) (4 * i + 4))) numbers[i] := by
  have hlength : ((Bytes.groups 4 bytes).map ofBlockBytes).length = bytes.length / 4 := by
    rw [List.length_map, Bytes.length_groups (by decide) (Nat.div_mul_cancel h).symm]
  refine ⟨_, if_pos (Nat.mod_eq_zero_of_dvd h), hlength, ?_⟩
  intro i hi
  rw [hlength] at hi
  have hstop : 4 * i + 4 ≤ bytes.length := by omega
  have hword : (bytes.slice (4 * i) (4 * i + 4)).length = 4 := by
    rw [Bytes.length_slice_of_le hstop, Nat.add_sub_cancel_left]
  have hgroup : (Bytes.groups 4 bytes)[i]? = some (bytes.slice (4 * i) (4 * i + 4)) := by
    rw [Bytes.getElem?_groups (by decide), if_pos (by omega), Nat.mul_comm]
  rw [List.getElem_map, ofBlockBytes_eq, (List.getElem?_eq_some_iff.mp hgroup).2]
  exact ⟨if_pos hword, denotes_ofBytes hword⟩

/-- Reading a hexadecimal word is exact, whatever its bits, and a block of words is read as its
words are, one by one; only a block that is cut inside a word is refused. -/
theorem decoding_exact :
    (∀ word : ℤ, Denotes word (ofInt word)) ∧
    ∀ bytes : Bytes,
      ((∃ fault, decodeBlock bytes = .error fault) ↔ ¬ 4 ∣ bytes.length) ∧
      (4 ∣ bytes.length →
        ∃ numbers, decodeBlock bytes = .ok numbers ∧ numbers.length = bytes.length / 4 ∧
          ∀ i (hi : i < numbers.length),
            decodeWord (bytes.slice (4 * i) (4 * i + 4)) = .ok numbers[i] ∧
              Denotes (Bytes.unsigned (bytes.slice (4 * i) (4 * i + 4))) numbers[i]) := by
  refine ⟨denotes_ofInt, fun bytes => ⟨?_, decodeBlock_of_dvd⟩⟩
  constructor
  · rintro ⟨fault, hfault⟩ hdvd
    obtain ⟨numbers, hnumbers, -⟩ := decodeBlock_of_dvd hdvd
    rw [hnumbers] at hfault
    cases hfault
  · intro hdvd
    exact ⟨_, if_neg fun hmod => hdvd (Nat.dvd_of_mod_eq_zero hmod)⟩

theorem decoding_exact_twoWords :
    (ofInt 0xC276A000).value = -949 / 8 ∧
    ∃ numbers, decodeBlock [0xC2, 0x76, 0xA0, 0x00, 0xFF, 0x00, 0x00, 0x00] = .ok numbers ∧
      numbers[1]? = some Binary64.zero := by
  obtain ⟨hwords, hblocks⟩ := decoding_exact
  constructor
  · have hword := hwords 0xC276A000
    rw [Denotes, if_neg (by decide)] at hword
    rw [hword.2]
    norm_num
  · obtain ⟨numbers, hnumbers, hlength, hget⟩ :=
      (hblocks [0xC2, 0x76, 0xA0, 0x00, 0xFF, 0x00, 0x00, 0x00]).2 (by decide)
    have hlt : 1 < numbers.length := by
      rw [hlength]
      decide
    have hzero : Except.ok Binary64.zero = Except.ok numbers[1] := (hget 1 hlt).1
    refine ⟨numbers, hnumbers, ?_⟩
    rw [List.getElem?_eq_getElem hlt, ← Except.ok.inj hzero]

end IbmSingle

end SeisLog
