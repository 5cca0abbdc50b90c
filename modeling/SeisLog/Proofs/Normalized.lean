import SeisLog.Proofs.Encoding
import SeisLog.Proofs.Order

/-!
# Normalized words

A hexadecimal word is normalized if the first digit of its fraction is not zero. Normalized words
are in the order of their numbers, the negative ones the other way around, and no two of them have
the same number. Of all words those with one sign and one `m * 16 ^ e` have the same number, and so
do those that are zero (`IbmSingle.ordering_exact`).
-/

namespace SeisLog

/-- Comparisons that are decided in the same way come out the same. -/
theorem compare_congr {α β : Type} [LinearOrder α] [LinearOrder β] {a b : α} {c d : β}
    (hlt : a < b ↔ c < d) (hgt : b < a ↔ d < c) : compare a b = compare c d := by
  rcases lt_trichotomy c d with h | h | h
  · rw [compare_lt_iff_lt.mpr h, compare_lt_iff_lt, hlt]
    exact h
  · rw [compare_eq_iff_eq.mpr h, compare_eq_iff_eq]
    exact le_antisymm (not_lt.mp (hgt.not.mpr h.not_gt)) (not_lt.mp (hlt.not.mpr h.not_lt))
  · rw [compare_gt_iff_gt.mpr h, compare_gt_iff_gt, hgt]
    exact h

namespace Binary64

variable {x y : Binary64}

/-- Two doubles stand in the given order, as numbers and as doubles are compared. -/
structure Compares (x y : Binary64) (ordering : Ordering) : Prop where
  value : compare x.value y.value = ordering
  lt : x.lt y = true ↔ ordering = .lt
  gt : y.lt x = true ↔ ordering = .gt

theorem lt_iff_signedUnits (hx : x.isFinite = true) (hy : y.isFinite = true) :
    x.lt y = true ↔ x.signedUnits < y.signedUnits := by
  rw [lt, isNaN_of_isFinite hx, isNaN_of_isFinite hy]
  simp

theorem compares_of_isFinite (hx : x.isFinite = true) (hy : y.isFinite = true) :
    x.Compares y (compare x.signedUnits y.signedUnits) where
  value := compare_congr value_lt_iff value_lt_iff
  lt := (lt_iff_signedUnits hx hy).trans compare_lt_iff_lt.symm
  gt := (lt_iff_signedUnits hy hx).trans compare_gt_iff_gt.symm

end Binary64

namespace IbmSingle

variable {word first second : UInt32}

def scaled (word : UInt32) : ℕ := fraction word * 16 ^ exponentField word

/-- One of the six digits of the fraction, the first one at zero. -/
def digit (word : UInt32) (i : ℕ) : ℕ := fraction word / 16 ^ (5 - i) % 16

def digits (word : UInt32) : List ℕ := (List.range 6).map (digit word)

/-- The first digit of the fraction is not zero. -/
def IsNormalized (word : UInt32) : Prop := digit word 0 ≠ 0

instance (word : UInt32) : Decidable (IsNormalized word) := inferInstanceAs (Decidable (_ ≠ _))

/-- The number of digits before the first one that is not zero. -/
def zeroDigits (word : UInt32) : ℕ := (digits word).findIdx (· ≠ 0)

/-- The same number with its zero digits shifted out. -/
def normalize (word : UInt32) : UInt32 :=
  ofParts (isNegative word) (exponentField word - zeroDigits word)
    (fraction word * 16 ^ zeroDigits word)

theorem shiftLeft_four_mul (m exponent shift : ℕ) :
    m <<< (4 * exponent + shift) = m * 16 ^ exponent * 2 ^ shift := by
  have hbase : 2 ^ (4 * exponent) = 16 ^ exponent := by rw [Nat.pow_mul]
  rw [Nat.shiftLeft_eq, Nat.pow_add, hbase, Nat.mul_assoc]

theorem shiftLeft_four_mul_lt_iff {m n e f : ℕ} (shift : ℕ) :
    m <<< (4 * e + shift) < n <<< (4 * f + shift) ↔ m * 16 ^ e < n * 16 ^ f := by
  rw [shiftLeft_four_mul, shiftLeft_four_mul]
  exact Nat.mul_lt_mul_right (Nat.two_pow_pos shift)

theorem units_lt_iff : units first < units second ↔ scaled first < scaled second :=
  shiftLeft_four_mul_lt_iff 794

theorem units_eq_iff : units first = units second ↔ scaled first = scaled second := by
  simp only [le_antisymm_iff, ← not_lt, units_lt_iff]

theorem units_eq_zero_iff : units word = 0 ↔ fraction word = 0 := by
  unfold units
  generalize 4 * exponentField word + 794 = shift
  rw [Nat.shiftLeft_eq, Nat.mul_eq_zero]
  exact or_iff_left (Nat.ne_of_gt (Nat.two_pow_pos shift))

/-- The units of a word, also where the fraction is zero. -/
theorem units_toBinary64 (word : UInt32) : (toBinary64 word).units = units word := by
  by_cases h : fraction word = 0
  · rw [toBinary64, if_pos h, units_eq_zero_iff.mpr h]
    decide
  · exact (exactly_toBinary64 h).units

theorem isNegative_toBinary64 (h : fraction word ≠ 0) :
    (toBinary64 word).isNegative = isNegative word := (exactly_toBinary64 h).isNegative

theorem isFinite_toBinary64 (word : UInt32) : (toBinary64 word).isFinite = true := by
  by_cases h : fraction word = 0
  · rw [toBinary64, if_pos h]
    decide
  · exact (exactly_toBinary64 h).isFinite

/-- The exponent and the fraction in one number. -/
def body (word : UInt32) : ℕ := exponentField word * 16777216 + fraction word

/-- A word is its sign, its exponent and its fraction. -/
theorem toNat_eq (word : UInt32) :
    word.toNat = body word + if isNegative word then 2147483648 else 0 := by
  have hlt := word.toNat_lt
  unfold body exponentField fraction isNegative
  simp only [Nat.reduceShiftLeft, decide_eq_true_eq]
  split <;> omega

/-- Under one sign words are in the order of their bodies. -/
theorem body_lt_iff (h : isNegative first = isNegative second) :
    body first < body second ↔ first.toNat < second.toNat := by
  rw [toNat_eq first, toNat_eq second, h]
  exact Nat.add_lt_add_iff_right.symm

theorem isNormalized_iff : IsNormalized word ↔ 16 ^ 5 ≤ fraction word := by
  have hlt := fraction_lt word
  simp only [Nat.reduceShiftLeft] at hlt
  unfold IsNormalized digit
  omega

theorem fraction_ne_zero (h : IsNormalized word) : fraction word ≠ 0 := by
  have hle := isNormalized_iff.mp h
  omega

/-- The largest fraction under one exponent is below the smallest full one under the next. -/
theorem scaled_lt_scaled (h : IsNormalized second)
    (hlt : body first < body second) : scaled first < scaled second := by
  have hfirst := fraction_lt first
  have hsecond := fraction_lt second
  have hfull := isNormalized_iff.mp h
  simp only [Nat.reduceShiftLeft] at hfirst hsecond
  unfold body at hlt
  unfold scaled
  rcases Nat.lt_trichotomy (exponentField first) (exponentField second) with he | he | he
  · calc fraction first * 16 ^ exponentField first
        < 16 ^ 6 * 16 ^ exponentField first :=
          Nat.mul_lt_mul_of_pos_right hfirst (Nat.pow_pos (by decide))
      _ = 16 ^ 5 * 16 ^ (exponentField first + 1) := by
          rw [Nat.pow_succ' (n := exponentField first), ← Nat.mul_assoc, ← Nat.pow_succ]
      _ ≤ fraction second * 16 ^ exponentField second :=
          Nat.mul_le_mul hfull (Nat.pow_le_pow_right (by decide) he)
  · rw [he] at hlt ⊢
    exact Nat.mul_lt_mul_of_pos_right (by omega) (Nat.pow_pos (by decide))
  · omega

theorem units_lt_iff_toNat (hf : IsNormalized first) (hs : IsNormalized second)
    (hn : isNegative first = isNegative second) :
    units first < units second ↔ first.toNat < second.toNat := by
  rw [units_lt_iff, ← body_lt_iff hn]
  refine ⟨fun hlt => ?_, scaled_lt_scaled hs⟩
  by_contra hle
  rcases Nat.lt_or_eq_of_le (Nat.le_of_not_lt hle) with hgt | heq
  · exact Nat.lt_asymm hlt (scaled_lt_scaled hf hgt)
  · -- words of one sign and one body are one word
    have hsame : first = second := by
      rw [← UInt32.toNat_inj, toNat_eq, toNat_eq second, heq, hn]
    rw [hsame] at hlt
    exact Nat.lt_irrefl _ hlt

theorem signedUnits_of_positive (h : IsNormalized word) (hn : isNegative word = false) :
    (toBinary64 word).signedUnits = units word := by
  rw [Binary64.signedUnits, isNegative_toBinary64 (fraction_ne_zero h), hn, units_toBinary64]
  exact if_neg Bool.false_ne_true

theorem signedUnits_of_negative (h : IsNormalized word) (hn : isNegative word = true) :
    (toBinary64 word).signedUnits = -(units word : ℤ) := by
  rw [Binary64.signedUnits, isNegative_toBinary64 (fraction_ne_zero h), hn, units_toBinary64]
  exact if_pos rfl

theorem compares_toBinary64 (first second : UInt32) :
    (toBinary64 first).Compares (toBinary64 second)
      (compare (toBinary64 first).signedUnits (toBinary64 second).signedUnits) :=
  Binary64.compares_of_isFinite (isFinite_toBinary64 first) (isFinite_toBinary64 second)

section

variable (hf : IsNormalized first) (hs : IsNormalized second)

include hf hs

theorem compares_of_positive (hfirst : isNegative first = false)
    (hsecond : isNegative second = false) :
    (toBinary64 first).Compares (toBinary64 second) (compare first.toNat second.toNat) := by
  have horder := units_lt_iff_toNat hf hs (hfirst.trans hsecond.symm)
  have hother := units_lt_iff_toNat hs hf (hsecond.trans hfirst.symm)
  have hcompares := compares_toBinary64 first second
  rwa [signedUnits_of_positive hf hfirst, signedUnits_of_positive hs hsecond,
    compare_congr (Int.ofNat_lt.trans horder) (Int.ofNat_lt.trans hother)] at hcompares

theorem compares_of_negative (hfirst : isNegative first = true)
    (hsecond : isNegative second = true) :
    (toBinary64 first).Compares (toBinary64 second) (compare second.toNat first.toNat) := by
  have horder := units_lt_iff_toNat hf hs (hfirst.trans hsecond.symm)
  have hother := units_lt_iff_toNat hs hf (hsecond.trans hfirst.symm)
  have hcompares := compares_toBinary64 first second
  rwa [signedUnits_of_negative hf hfirst, signedUnits_of_negative hs hsecond,
    compare_congr ((Int.neg_lt_neg_iff.trans Int.ofNat_lt).trans hother)
      ((Int.neg_lt_neg_iff.trans Int.ofNat_lt).trans horder)] at hcompares

theorem compares_of_signs (hfirst : isNegative first = true) (hsecond : isNegative second = false) :
    (toBinary64 first).Compares (toBinary64 second) .lt := by
  have hpos : units first ≠ 0 := fun hzero => fraction_ne_zero hf (units_eq_zero_iff.mp hzero)
  have hlt : -(units first : ℤ) < units second := by omega
  have hcompares := compares_toBinary64 first second
  rwa [signedUnits_of_negative hf hfirst, signedUnits_of_positive hs hsecond,
    compare_lt_iff_lt.mpr hlt] at hcompares

end

/-- Words of one sign and the same units have one double, and so have all that are zero. -/
theorem toBinary64_eq_iff : toBinary64 first = toBinary64 second ↔
    fraction first = 0 ∧ fraction second = 0 ∨
      isNegative first = isNegative second ∧ scaled first = scaled second := by
  rw [← units_eq_iff]
  constructor
  · intro heq
    have hunits : units first = units second := by rw [← units_toBinary64, heq, units_toBinary64]
    by_cases hf : fraction first = 0
    · have hzero := hunits ▸ units_eq_zero_iff.mpr hf
      exact .inl ⟨hf, units_eq_zero_iff.mp hzero⟩
    · have hs : fraction second ≠ 0 := by
        rwa [Ne, ← units_eq_zero_iff, ← hunits, units_eq_zero_iff]
      refine .inr ⟨?_, hunits⟩
      rw [← isNegative_toBinary64 hf, heq, isNegative_toBinary64 hs]
  · rintro (⟨hf, hs⟩ | ⟨hnegative, hunits⟩)
    · rw [toBinary64, toBinary64, if_pos hf, if_pos hs]
    · have hzero : fraction first = 0 ↔ fraction second = 0 := by
        rw [← units_eq_zero_iff, hunits, units_eq_zero_iff]
      simp only [toBinary64, product_eq, hzero, hnegative, hunits]

theorem toBinary64_injective (hf : IsNormalized first) (hs : IsNormalized second)
    (h : toBinary64 first = toBinary64 second) : first = second := by
  rcases toBinary64_eq_iff.mp h with ⟨hzero, -⟩ | ⟨hnegative, hscaled⟩
  · exact absurd hzero (fraction_ne_zero hf)
  · have hunits := units_eq_iff.mpr hscaled
    have horder := units_lt_iff_toNat hf hs hnegative
    have hother := units_lt_iff_toNat hs hf hnegative.symm
    exact UInt32.toNat_inj.mp (by omega)

/-! ### Zero digits -/

theorem length_digits (word : UInt32) : (digits word).length = 6 := by
  rw [digits, List.length_map, List.length_range]

theorem getElem_digits {i : ℕ} (h : i < (digits word).length) :
    (digits word)[i] = digit word i := by
  simp only [digits, List.getElem_map, List.getElem_range]

/-- Behind zero digits there is less of the fraction. -/
theorem fraction_lt_of_digits {k : ℕ} (hk : k ≤ 6) (h : ∀ i < k, digit word i = 0) :
    fraction word < 16 ^ (6 - k) := by
  induction k with
  | zero => exact fraction_lt word
  | succ k ih =>
      have hlt := ih (Nat.le_of_succ_le hk) fun i hi => h i (Nat.lt_succ_of_lt hi)
      have hsplit : 6 - k = 5 - k + 1 := by omega
      have hdigit : fraction word / 16 ^ (5 - k) % 16 = 0 := h k (Nat.lt_succ_self k)
      rw [hsplit, Nat.pow_succ] at hlt
      have hquotient := Nat.div_lt_of_lt_mul hlt
      rw [Nat.mod_eq_of_lt hquotient] at hdigit
      rw [Nat.add_sub_add_right 5 1 k]
      exact (Nat.div_eq_zero_iff_lt (Nat.pow_pos (by decide))).mp hdigit

theorem digit_of_lt_zeroDigits {i : ℕ} (h : i < zeroDigits word) : digit word i = 0 := by
  have hfalse := List.not_of_lt_findIdx h
  rw [getElem_digits] at hfalse
  simpa using hfalse

theorem zeroDigits_lt (h : fraction word ≠ 0) : zeroDigits word < 6 := by
  have hle : zeroDigits word ≤ (digits word).length := List.findIdx_le_length
  rw [length_digits] at hle
  refine Nat.lt_of_le_of_ne hle fun hall => h ?_
  have hlt := fraction_lt_of_digits hle fun i hi => digit_of_lt_zeroDigits hi
  rw [hall] at hlt
  exact Nat.lt_one_iff.mp hlt

theorem digit_zeroDigits (h : fraction word ≠ 0) : digit word (zeroDigits word) ≠ 0 := by
  have hlt : (digits word).findIdx (· ≠ 0) < (digits word).length := by
    rw [length_digits]
    exact zeroDigits_lt h
  have htrue := List.findIdx_getElem (w := hlt)
  rw [getElem_digits, decide_eq_true_eq] at htrue
  exact htrue

section

variable (h : fraction word ≠ 0)

include h

theorem fraction_shifted_lt : fraction word * 16 ^ zeroDigits word < 16 ^ 6 := by
  have hk := zeroDigits_lt h
  have hlt := fraction_lt_of_digits (Nat.le_of_lt hk) fun i hi => digit_of_lt_zeroDigits hi
  calc fraction word * 16 ^ zeroDigits word
      < 16 ^ (6 - zeroDigits word) * 16 ^ zeroDigits word :=
        Nat.mul_lt_mul_of_pos_right hlt (Nat.pow_pos (by decide))
    _ = 16 ^ 6 := by rw [← Nat.pow_add, Nat.sub_add_cancel (Nat.le_of_lt hk)]

theorem le_fraction_shifted : 16 ^ 5 ≤ fraction word * 16 ^ zeroDigits word := by
  have hk := Nat.le_of_lt_succ (zeroDigits_lt h)
  have hle : 16 ^ (5 - zeroDigits word) ≤ fraction word := by
    by_contra hlt
    apply digit_zeroDigits h
    rw [digit, Nat.div_eq_of_lt (Nat.lt_of_not_le hlt)]
  calc 16 ^ 5 = 16 ^ (5 - zeroDigits word) * 16 ^ zeroDigits word := by
        rw [← Nat.pow_add, Nat.sub_add_cancel hk]
    _ ≤ fraction word * 16 ^ zeroDigits word := Nat.mul_le_mul_right _ hle

theorem isNegative_normalize : isNegative (normalize word) = isNegative word :=
  isNegative_ofParts (fraction_shifted_lt h)
    (Nat.lt_of_le_of_lt (Nat.sub_le _ _) (exponentField_lt word))

theorem exponentField_normalize :
    exponentField (normalize word) = exponentField word - zeroDigits word :=
  exponentField_ofParts (fraction_shifted_lt h)
    (Nat.lt_of_le_of_lt (Nat.sub_le _ _) (exponentField_lt word))

theorem fraction_normalize :
    fraction (normalize word) = fraction word * 16 ^ zeroDigits word :=
  fraction_ofParts (fraction_shifted_lt h)
    (Nat.lt_of_le_of_lt (Nat.sub_le _ _) (exponentField_lt word))

theorem isNormalized_normalize : IsNormalized (normalize word) := by
  rw [isNormalized_iff, fraction_normalize h]
  exact le_fraction_shifted h

/-- Shifting zero digits out and lowering the exponent cancel out. -/
theorem toBinary64_normalize (hk : zeroDigits word ≤ exponentField word) :
    toBinary64 (normalize word) = toBinary64 word := by
  refine toBinary64_eq_iff.mpr (.inr ⟨isNegative_normalize h, ?_⟩)
  rw [scaled, scaled, fraction_normalize h, exponentField_normalize h, Nat.mul_assoc, ← Nat.pow_add,
    Nat.add_sub_cancel' hk]

end

/-! ### Bytes -/

def pack (words : List UInt32) : Bytes := words.flatMap fun word => Bytes.ofUnsigned 4 word.toNat

theorem ofInt_toNat (word : UInt32) : ofInt word.toNat = toBinary64 word := by
  have hlt := word.toNat_lt
  have hmod : ((word.toNat : ℤ) % (1 <<< 32 : ℕ)).toNat = word.toNat := by
    simp only [Nat.reduceShiftLeft]
    omega
  rw [ofInt, hmod, UInt32.ofNat_toNat]

theorem ofBytes_ofUnsigned (word : UInt32) :
    ofBytes (Bytes.ofUnsigned 4 word.toNat) = toBinary64 word :=
  congrArg toBinary64 (Bytes.word_ofUnsigned word)

theorem decodeWord_ofUnsigned (word : UInt32) :
    decodeWord (Bytes.ofUnsigned 4 word.toNat) = .ok (toBinary64 word) := by
  rw [decodeWord, if_pos (Bytes.length_ofUnsigned 4 _), ofBytes_ofUnsigned]

theorem length_pack (words : List UInt32) : (pack words).length = words.length * 4 := by
  induction words with
  | nil => rfl
  | cons word words ih =>
      rw [pack, List.flatMap_cons, List.length_append, Bytes.length_ofUnsigned, List.length_cons,
        Nat.succ_mul, Nat.add_comm]
      exact congrArg (· + 4) ih

theorem groups_pack (words : List UInt32) :
    Bytes.groups 4 (pack words) = words.map fun word => Bytes.ofUnsigned 4 word.toNat := by
  induction words with
  | nil => exact Bytes.groups_nil 4
  | cons word words ih =>
      rw [pack, List.flatMap_cons, Bytes.groups_append (Bytes.length_ofUnsigned 4 _) (by decide)]
      exact congrArg _ ih

theorem decodeBlock_pack (words : List UInt32) :
    decodeBlock (pack words) = .ok (words.map toBinary64) := by
  have hlength : (pack words).length % 4 = 0 := by rw [length_pack, Nat.mul_mod_left]
  rw [decodeBlock, if_pos hlength, groups_pack, List.map_map]
  refine congrArg Except.ok (List.map_congr_left fun word _ => ?_)
  rw [Function.comp_apply, ofBlockBytes_eq, ofBytes_ofUnsigned]

/-- Words are ordered and told apart by their numbers, however they are read. Normalized words of
one sign compare as their numbers do, and negative ones are below positive ones. Two words have one
double if both are zero, or if they agree in sign and in `m * 16 ^ e`; a word whose exponent allows
it has the double of the word without its zero digits. -/
theorem ordering_exact :
    (∀ word : UInt32, ofInt word.toNat = toBinary64 word ∧
      decodeWord (Bytes.ofUnsigned 4 word.toNat) = .ok (toBinary64 word)) ∧
    (∀ words : List UInt32, decodeBlock (pack words) = .ok (words.map toBinary64)) ∧
    (∀ first second : UInt32, IsNormalized first → IsNormalized second →
      (isNegative first = false → isNegative second = false →
        (toBinary64 first).Compares (toBinary64 second) (compare first.toNat second.toNat)) ∧
      (isNegative first = true → isNegative second = true →
        (toBinary64 first).Compares (toBinary64 second) (compare second.toNat first.toNat)) ∧
      (isNegative first = true → isNegative second = false →
        (toBinary64 first).Compares (toBinary64 second) .lt) ∧
      (first ≠ second → toBinary64 first ≠ toBinary64 second)) ∧
    (∀ first second : UInt32, toBinary64 first = toBinary64 second ↔
      fraction first = 0 ∧ fraction second = 0 ∨ isNegative first = isNegative second ∧
        fraction first * 16 ^ exponentField first = fraction second * 16 ^ exponentField second) ∧
    ∀ word : UInt32, fraction word ≠ 0 → zeroDigits word ≤ exponentField word →
      IsNormalized (normalize word) ∧ isNegative (normalize word) = isNegative word ∧
        exponentField (normalize word) = exponentField word - zeroDigits word ∧
        fraction (normalize word) = fraction word * 16 ^ zeroDigits word ∧
        toBinary64 (normalize word) = toBinary64 word := by
  refine ⟨fun word => ⟨ofInt_toNat word, decodeWord_ofUnsigned word⟩, decodeBlock_pack, ?_, ?_, ?_⟩
  · intro first second hf hs
    exact ⟨compares_of_positive hf hs, compares_of_negative hf hs, compares_of_signs hf hs,
      fun hne heq => hne (toBinary64_injective hf hs heq)⟩
  · intro first second
    exact toBinary64_eq_iff
  · intro word h hk
    exact ⟨isNormalized_normalize h, isNegative_normalize h, exponentField_normalize h,
      fraction_normalize h, toBinary64_normalize h hk⟩

/-- The largest word under one exponent and the smallest one under the next, of either sign, and a
word with two zero digits. -/
theorem ordering_exact_nextExponent :
    (toBinary64 0x41FFFFFF).Compares (toBinary64 0x42100000) .lt ∧
    (toBinary64 0xC1FFFFFF).Compares (toBinary64 0xC2100000) .gt ∧
    (toBinary64 0xC2100000).Compares (toBinary64 0x41FFFFFF) .lt ∧
    toBinary64 0x41FFFFFF ≠ toBinary64 0x42100000 ∧
    normalize 0xC2001234 = 0xC0123400 ∧ toBinary64 0xC0123400 = toBinary64 0xC2001234 := by
  obtain ⟨-, -, horder, -, hzeros⟩ := ordering_exact
  have hlow : IsNormalized 0x41FFFFFF := by decide
  have hhigh : IsNormalized 0x42100000 := by decide
  have hnegativeLow : IsNormalized 0xC1FFFFFF := by decide
  have hnegativeHigh : IsNormalized 0xC2100000 := by decide
  have hnormalize : normalize 0xC2001234 = 0xC0123400 := by decide
  have hsame := (hzeros 0xC2001234 (by decide) (by decide)).2.2.2.2
  rw [hnormalize] at hsame
  exact ⟨(horder _ _ hlow hhigh).1 (by decide) (by decide),
    (horder _ _ hnegativeLow hnegativeHigh).2.1 (by decide) (by decide),
    (horder _ _ hnegativeHigh hlow).2.2.1 (by decide) (by decide),
    (horder _ _ hlow hhigh).2.2.2 (by decide), hnormalize, hsame⟩

end IbmSingle

end SeisLog
