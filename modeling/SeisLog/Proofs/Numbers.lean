import SeisLog.Number.IbmSingle
import SeisLog.Number.Single

/-!
# Words and doubles

Doubles with at most 53 significant bits in range are exact, so a word of either single format is
found again from its double: every single that is not NaN, and every hexadecimal word with a full
leading digit. The doubles that such words give are found again from their words.
-/

namespace SeisLog

theorem Bytes.toNat_word {bytes : Bytes} (h : bytes.length = 4) :
    (UInt32.ofNat (unsigned bytes)).toNat = unsigned bytes := by
  have hlt := unsigned_lt bytes
  rw [h] at hlt
  rw [UInt32.toNat_ofNat', Nat.mod_eq_of_lt hlt]

namespace Binary64

variable {x : Binary64} {negative : Bool} {magnitude : Nat}

theorem ofMagnitude_magnitude (x : Binary64) : ofMagnitude x.isNegative x.magnitude = x := by
  obtain ⟨bits⟩ := x
  have hlt := bits.toNat_lt
  unfold ofMagnitude isNegative Binary64.magnitude
  congr 1
  apply UInt64.toNat_inj.mp
  rw [UInt64.toNat_ofNat']
  simp only [Nat.reduceShiftLeft, decide_eq_true_eq]
  split <;> omega

theorem magnitude_ofMagnitude (h : magnitude < 1 <<< 63) :
    (ofMagnitude negative magnitude).magnitude = magnitude := by
  unfold ofMagnitude Binary64.magnitude
  dsimp only
  rw [UInt64.toNat_ofNat']
  cases negative <;> simp <;> omega

theorem isNegative_ofMagnitude (h : magnitude < 1 <<< 63) :
    (ofMagnitude negative magnitude).isNegative = negative := by
  unfold ofMagnitude isNegative
  dsimp only
  rw [UInt64.toNat_ofNat']
  cases negative <;> simp <;> omega

theorem units_eq (x : Binary64) : x.units = Grid.units 52 x.magnitude := rfl

theorem ofUnits_eq (negative : Bool) (units : Nat) : ofUnits negative units =
    ofMagnitude negative (min (Grid.nearest 52 units 1) infinityMagnitude) := rfl

theorem ofUnits_grid (h : magnitude < infinityMagnitude) :
    ofUnits negative (Grid.units 52 magnitude) = ofMagnitude negative magnitude := by
  have hnearest := @Grid.nearest_units 52 1 Nat.zero_lt_one magnitude
  rw [Nat.mul_one] at hnearest
  rw [ofUnits_eq, hnearest, Nat.min_eq_left (Nat.le_of_lt h)]

theorem ofUnits_units (h : x.isFinite = true) : ofUnits x.isNegative x.units = x := by
  rw [units_eq, ofUnits_grid (of_decide_eq_true h), ofMagnitude_magnitude]

/-- A number with at most 53 significant bits in range is a double. -/
structure Exactly (x : Binary64) (negative : Bool) (units : Nat) : Prop where
  isFinite : x.isFinite = true
  isNegative : x.isNegative = negative
  units : x.units = units

theorem exactly_ofUnits {m shift : Nat} (hm : m < 1 <<< 53) (hs : shift ≤ 2045) :
    (ofUnits negative (m <<< shift)).Exactly negative (m <<< shift) := by
  obtain ⟨rank, hunits, hlt⟩ := @Grid.exists_units 52 m hm shift
  have hrank : rank < infinityMagnitude := by
    have hle := Nat.mul_le_mul_right (2 ^ 52) (show shift + 2 ≤ 2047 by omega)
    rw [Nat.shiftLeft_eq] at hlt
    exact Nat.lt_of_lt_of_le hlt hle
  have hbound : rank < 1 <<< 63 := Nat.lt_trans hrank (by decide)
  rw [← hunits, ofUnits_grid hrank]
  refine ⟨?_, isNegative_ofMagnitude hbound, ?_⟩
  · rw [Binary64.isFinite, magnitude_ofMagnitude hbound]
    exact decide_eq_true hrank
  · rw [units_eq, magnitude_ofMagnitude hbound]

theorem isZero_iff : x.isZero = true ↔ x.units = 0 := by
  rw [isZero, decide_eq_true_eq, units_eq, Grid.units_eq_zero_iff]

theorem isNaN_of_isFinite (h : x.isFinite = true) : x.isNaN = false := by
  unfold isFinite at h
  unfold isNaN
  simp only [decide_eq_true_eq, decide_eq_false_iff_not] at h ⊢
  omega

theorem isInfinite_of_isFinite (h : x.isFinite = true) : x.isInfinite = false := by
  unfold isFinite at h
  unfold isInfinite
  simp only [decide_eq_true_eq, decide_eq_false_iff_not] at h ⊢
  omega

/-- A product that is a whole number of units is not rounded. -/
theorem mul_of_exactly {y : Binary64} {other : Bool} {first second units : Nat}
    (hx : x.Exactly negative first) (hy : y.Exactly other second)
    (h : first * second = units * one) :
    x.mul y = ofUnits (negative != other) units := by
  have hnearest := @Grid.nearest_mul_mul 52 units 1 one one_pos
  rw [Nat.one_mul] at hnearest
  unfold mul
  dsimp only
  rw [isNaN_of_isFinite hx.isFinite, isNaN_of_isFinite hy.isFinite,
    isInfinite_of_isFinite hx.isFinite, isInfinite_of_isFinite hy.isFinite, hx.isNegative,
    hy.isNegative, hx.units, hy.units, h, ofUnits_eq, ← hnearest]
  rfl

end Binary64

namespace Single

variable {word : UInt32} {negative : Bool} {rank : Nat}

def IsNaN (word : UInt32) : Prop := infinityMagnitude < magnitude word

/-- A double that is a single: infinite, or with at most 24 significant bits in range. -/
def Represents (x : Binary64) : Prop :=
  x.isInfinite = true ∨
    x.isFinite = true ∧ ∃ m shift, m < 1 <<< 24 ∧ shift ≤ 253 ∧ x.units = m <<< (shift + 925)

theorem ofMagnitude_magnitude (word : UInt32) :
    ofMagnitude (isNegative word) (magnitude word) = word := by
  have hlt := word.toNat_lt
  unfold ofMagnitude isNegative magnitude
  apply UInt32.toNat_inj.mp
  rw [UInt32.toNat_ofNat']
  simp only [Nat.reduceShiftLeft, decide_eq_true_eq]
  split <;> omega

theorem magnitude_ofMagnitude (h : rank < 1 <<< 31) : magnitude (ofMagnitude negative rank) = rank := by
  unfold ofMagnitude magnitude
  rw [UInt32.toNat_ofNat']
  cases negative <;> simp <;> omega

theorem isNegative_ofMagnitude (h : rank < 1 <<< 31) :
    isNegative (ofMagnitude negative rank) = negative := by
  unfold ofMagnitude isNegative
  rw [UInt32.toNat_ofNat']
  cases negative <;> simp <;> omega

theorem units_eq (word : UInt32) : units word = Grid.units 23 (magnitude word) <<< 925 := by
  rw [Grid.units, ← Nat.shiftLeft_add]
  show significand word <<< _ = significand word <<< (exponentField word - 1 + 925)
  congr 1
  omega

theorem exponentField_lt (h : magnitude word < infinityMagnitude) : exponentField word < 255 := by
  unfold exponentField
  unfold infinityMagnitude at h
  simp only [Nat.reduceShiftLeft] at h ⊢
  omega

theorem widen_of_lt (h : magnitude word < infinityMagnitude) :
    widen word = Binary64.ofUnits (isNegative word) (units word) := by
  have hlt := exponentField_lt h
  exact if_neg (by omega)

theorem widen_of_eq (h : magnitude word = infinityMagnitude) :
    widen word = Binary64.infinity (isNegative word) := by
  have hexponent : exponentField word = 255 := by rw [exponentField, h]; rfl
  have hfraction : fraction word = 0 := by rw [fraction, h]; rfl
  rw [widen, if_pos hexponent, hfraction]
  rfl

theorem exactly_widen (h : magnitude word < infinityMagnitude) :
    (widen word).Exactly (isNegative word) (units word) := by
  have hlt := exponentField_lt h
  have hsignificand : significand word < 1 <<< 53 :=
    Nat.lt_trans (Grid.significand_lt 23 (magnitude word)) (by decide)
  rw [widen_of_lt h]
  exact Binary64.exactly_ofUnits hsignificand (by omega)

theorem narrow?_of_units {x : Binary64} (hx : x.isFinite = true) (hlt : rank < infinityMagnitude)
    (hunits : x.units = Grid.units 23 rank <<< 925) :
    narrow? x = some (ofMagnitude x.isNegative rank) := by
  have hnearest : Grid.nearest 23 x.units (1 <<< 925) = rank := by
    rw [hunits]
    exact Grid.nearest_units_shiftLeft rank 925
  rw [narrow?, if_pos hx]
  dsimp only
  rw [hnearest, if_pos hlt]

theorem narrow?_infinity {x : Binary64} (hx : x.isInfinite = true) :
    narrow? x = some (ofMagnitude x.isNegative infinityMagnitude) := by
  have hmagnitude : x.magnitude = Binary64.infinityMagnitude := of_decide_eq_true hx
  have hfinite : x.isFinite = false := by
    rw [Binary64.isFinite, hmagnitude]
    exact decide_eq_false (Nat.lt_irrefl _)
  have hfraction : x.fraction = 0 := by rw [Binary64.fraction, hmagnitude]; rfl
  rw [narrow?, hfinite, hfraction]
  rfl

theorem narrow?_widen (h : ¬ IsNaN word) : narrow? (widen word) = some word := by
  rcases Nat.lt_or_eq_of_le (Nat.le_of_not_lt h) with hlt | heq
  · obtain ⟨hfinite, hnegative, hunits⟩ := exactly_widen hlt
    rw [units_eq] at hunits
    rw [narrow?_of_units hfinite hlt hunits, hnegative, ofMagnitude_magnitude]
  · rw [widen_of_eq heq]
    have hbound : Binary64.infinityMagnitude < 1 <<< 63 := by decide
    have hinfinite : (Binary64.infinity (isNegative word)).isInfinite = true := by
      rw [Binary64.isInfinite, Binary64.infinity, Binary64.magnitude_ofMagnitude hbound]
      exact decide_eq_true rfl
    rw [narrow?_infinity hinfinite, Binary64.infinity, Binary64.isNegative_ofMagnitude hbound,
      ← heq, ofMagnitude_magnitude]

theorem exists_narrow? {x : Binary64} (h : Represents x) :
    ∃ word, narrow? x = some word ∧ widen word = x := by
  rcases h with hinfinite | ⟨hfinite, m, shift, hm, hs, hunits⟩
  · have hmagnitude : x.magnitude = Binary64.infinityMagnitude := of_decide_eq_true hinfinite
    have hbound : infinityMagnitude < 1 <<< 31 := by decide
    refine ⟨_, narrow?_infinity hinfinite, ?_⟩
    rw [widen_of_eq (magnitude_ofMagnitude hbound), isNegative_ofMagnitude hbound,
      Binary64.infinity, ← hmagnitude, Binary64.ofMagnitude_magnitude]
  · obtain ⟨rank, hrank, hlt⟩ := @Grid.exists_units 23 m hm shift
    have hlast : rank < infinityMagnitude := by
      have hle := Nat.mul_le_mul_right (2 ^ 23) (show shift + 2 ≤ 255 by omega)
      rw [Nat.shiftLeft_eq] at hlt
      exact Nat.lt_of_lt_of_le hlt hle
    have hbound : rank < 1 <<< 31 := Nat.lt_trans hlast (by decide)
    rw [Nat.shiftLeft_add, ← hrank] at hunits
    have hmagnitude : magnitude (ofMagnitude x.isNegative rank) = rank :=
      magnitude_ofMagnitude hbound
    refine ⟨_, narrow?_of_units hfinite hlast hunits, ?_⟩
    rw [widen_of_lt (by rwa [hmagnitude]), units_eq, hmagnitude, isNegative_ofMagnitude hbound,
      ← hunits, Binary64.ofUnits_units hfinite]

end Single

namespace IbmSingle

variable {word : UInt32} {negative : Bool} {exponent m : Nat}

/-- The word zero, or a word with a full leading digit. -/
def IsNormal (word : UInt32) : Prop := word = 0 ∨ 1 <<< 20 ≤ fraction word

/-- A double that is the number of a normal word. -/
def Represents (x : Binary64) : Prop :=
  x = Binary64.zero ∨ x.isFinite = true ∧ ∃ m exponent,
    1 <<< 20 ≤ m ∧ m < 1 <<< 24 ∧ exponent < 128 ∧ x.units = m <<< (4 * exponent + 794)

theorem ofParts_parts (word : UInt32) :
    ofParts (isNegative word) (exponentField word) (fraction word) = word := by
  have hlt := word.toNat_lt
  unfold ofParts isNegative exponentField fraction
  apply UInt32.toNat_inj.mp
  rw [UInt32.toNat_ofNat', Nat.shiftLeft_eq _ 24]
  simp only [Nat.reduceShiftLeft, decide_eq_true_eq]
  split <;> omega

theorem exponentField_lt (word : UInt32) : exponentField word < 128 := Nat.mod_lt _ (by decide)

theorem fraction_lt (word : UInt32) : fraction word < 1 <<< 24 := Nat.mod_lt _ (by decide)

section

variable (hm : m < 1 <<< 24) (he : exponent < 128)

include hm he

theorem toNat_ofParts : (ofParts negative exponent m).toNat =
    m + exponent * 16777216 + if negative then 2147483648 else 0 := by
  simp only [Nat.reduceShiftLeft] at hm
  have hshift : exponent <<< 24 = exponent * 16777216 := by
    rw [Nat.shiftLeft_eq]
  rw [ofParts, UInt32.toNat_ofNat', hshift]
  cases negative
  · simp only [Bool.false_eq_true, if_false]
    omega
  · simp only [Nat.reduceShiftLeft, if_true]
    omega

theorem isNegative_ofParts : isNegative (ofParts negative exponent m) = negative := by
  rw [isNegative, toNat_ofParts hm he]
  simp only [Nat.reduceShiftLeft] at hm ⊢
  cases negative
  · simp only [Bool.false_eq_true, if_false, decide_eq_false_iff_not]
    omega
  · simp only [if_true, decide_eq_true_eq]
    omega

theorem exponentField_ofParts : exponentField (ofParts negative exponent m) = exponent := by
  rw [exponentField, toNat_ofParts hm he]
  simp only [Nat.reduceShiftLeft] at hm ⊢
  split <;> omega

theorem fraction_ofParts : fraction (ofParts negative exponent m) = m := by
  rw [fraction, toNat_ofParts hm he]
  simp only [Nat.reduceShiftLeft] at hm ⊢
  split <;> omega

theorem units_ofParts : units (ofParts negative exponent m) = m <<< (4 * exponent + 794) := by
  unfold units
  rw [fraction_ofParts hm he, exponentField_ofParts hm he]

/-- A number with a full leading digit has the word of its parts. -/
theorem ofBinary64?_of_units {x : Binary64} (hx : x.isFinite = true) (hlow : 1 <<< 20 ≤ m)
    (hunits : x.units = m <<< (4 * exponent + 794)) :
    ofBinary64? x = some (ofParts x.isNegative exponent m) := by
  have hm0 : m ≠ 0 := by
    rintro rfl
    cases hlow
  have hlog20 : 20 ≤ m.log2 := by
    rwa [Nat.le_log2 hm0, ← Nat.one_shiftLeft]
  have hlog24 : m.log2 < 24 := by
    rwa [Nat.log2_lt hm0, ← Nat.one_shiftLeft]
  have hlog : x.units.log2 = m.log2 + (4 * exponent + 794) := by
    rw [hunits, Grid.log2_shiftLeft hm0]
  have hexponent : (x.units.log2 - 814) / 4 = exponent := by omega
  have hle : 814 ≤ x.units.log2 := by omega
  have hne : x.units ≠ 0 := by
    intro hzero
    rw [hzero] at hle
    simp at hle
  have hfraction : roundDiv x.units (1 <<< (4 * exponent + 794)) = m := by
    rw [hunits]
    exact Grid.roundDiv_shiftLeft m _
  rw [ofBinary64?, if_neg hne, hx, if_pos (by simpa using hle)]
  dsimp only
  rw [hexponent, hfraction, if_pos hm]
  exact if_pos he

end

theorem exactly_sign (word : UInt32) :
    (sign word).Exactly (isNegative word) Binary64.one := by
  have hone := @Binary64.exactly_ofUnits (isNegative word) 1 1074 (by decide) (by decide)
  cases hn : isNegative word <;> rw [hn] at hone <;> rw [sign, hn] <;> exact hone

theorem exactly_mantissa (word : UInt32) :
    (mantissa word).Exactly false (fraction word * Binary64.one) := by
  have hm := @Binary64.exactly_ofUnits false (fraction word) 1074
    (Nat.lt_trans (fraction_lt word) (by decide)) (by decide)
  have hnegative : decide ((fraction word : Int) < 0) = false :=
    decide_eq_false (Int.not_lt.mpr (Int.natCast_nonneg _))
  rw [Binary64.shiftLeft_one] at hm
  rw [mantissa, Binary64.ofInt, hnegative, Int.natAbs_natCast]
  exact hm

theorem exactly_power (word : UInt32) :
    (power word).Exactly false (1 <<< (4 * exponentField word + 794)) := by
  have hexponent := exponentField_lt word
  exact Binary64.exactly_ofUnits (by decide) (by omega)

theorem exactly_ofUnits (word : UInt32) :
    (Binary64.ofUnits (isNegative word) (units word)).Exactly (isNegative word) (units word) := by
  have hexponent := exponentField_lt word
  exact Binary64.exactly_ofUnits (Nat.lt_trans (fraction_lt word) (by decide)) (by omega)

/-- Neither multiplication rounds: a sign, 24 bits of a fraction and a power of two. -/
theorem product_eq (word : UInt32) :
    product word = Binary64.ofUnits (isNegative word) (units word) := by
  have hsigned : ((sign word).mul (mantissa word)).Exactly (isNegative word)
      (fraction word * Binary64.one) := by
    have hm := @Binary64.exactly_ofUnits (isNegative word) (fraction word) 1074
      (Nat.lt_trans (fraction_lt word) (by decide)) (by decide)
    rw [Binary64.shiftLeft_one] at hm
    rwa [Binary64.mul_of_exactly (exactly_sign word) (exactly_mantissa word) (Nat.mul_comm _ _),
      Bool.bne_false]
  have hunits : ∀ shift, fraction word * Binary64.one * 1 <<< shift =
      fraction word <<< shift * Binary64.one := by
    intro shift
    rw [Nat.one_shiftLeft, Nat.shiftLeft_eq, Nat.mul_right_comm]
  rw [product, Binary64.mul_of_exactly hsigned (exactly_power word) (hunits _), Bool.bne_false]
  rfl

theorem exactly_toBinary64 (h : fraction word ≠ 0) :
    (toBinary64 word).Exactly (isNegative word) (units word) := by
  rw [toBinary64, if_neg h, product_eq]
  exact exactly_ofUnits word

/-- It does not matter whether a zero fraction is told before or after the product. -/
theorem blockToBinary64_eq (word : UInt32) : blockToBinary64 word = toBinary64 word := by
  have hzero : (mantissa word).isZero = true ↔ fraction word = 0 := by
    rw [Binary64.isZero_iff, (exactly_mantissa word).units, Nat.mul_eq_zero]
    exact or_iff_left (Nat.ne_of_gt Binary64.one_pos)
  simp only [blockToBinary64, toBinary64, hzero]

theorem ofBinary64?_toBinary64 (h : IsNormal word) : ofBinary64? (toBinary64 word) = some word := by
  rcases h with rfl | hlow
  · rfl
  · have hne : fraction word ≠ 0 := by
      intro hzero
      rw [hzero] at hlow
      cases hlow
    obtain ⟨hfinite, hnegative, hunits⟩ := exactly_toBinary64 hne
    rw [ofBinary64?_of_units (fraction_lt word) (exponentField_lt word) hfinite hlow hunits,
      hnegative, ofParts_parts]

theorem exists_ofBinary64? {x : Binary64} (h : Represents x) :
    ∃ word, ofBinary64? x = some word ∧ toBinary64 word = x := by
  rcases h with rfl | ⟨hfinite, m, exponent, hlow, hm, he, hunits⟩
  · exact ⟨0, rfl, rfl⟩
  · have hword := ofBinary64?_of_units hm he hfinite hlow hunits
    refine ⟨_, hword, ?_⟩
    have hne : m ≠ 0 := by
      intro hzero
      rw [hzero] at hlow
      cases hlow
    have hword : units (ofParts x.isNegative exponent m) = x.units :=
      (units_ofParts hm he).trans hunits.symm
    rw [toBinary64, fraction_ofParts hm he, if_neg hne, product_eq, isNegative_ofParts hm he, hword]
    exact Binary64.ofUnits_units hfinite

end IbmSingle

end SeisLog
