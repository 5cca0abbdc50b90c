import SeisLog.Number.Rounding

/-!
# Floating-point grids

The numbers with at most `bits + 1` significant bits, counted from zero on. Number `rank` of them
is `units bits rank`; up to `2 ^ (bits + 1)` that is the rank itself, and with each further
`2 ^ bits` ranks the distance doubles.
-/

namespace SeisLog.Grid

/-- The significant bits of a number, by its rank. -/
def significand (bits rank : Nat) : Nat :=
  if rank / (1 <<< bits) = 0 then rank % (1 <<< bits) else 1 <<< bits + rank % (1 <<< bits)

def units (bits rank : Nat) : Nat := significand bits rank <<< (rank / (1 <<< bits) - 1)

/-- The rank of the number nearest to `num / den`, ties to the even significand. -/
def nearest (bits num den : Nat) : Nat :=
  let shift := (num / den).log2 - bits
  roundDiv num (den <<< shift) + shift <<< bits

theorem roundDiv_mul {den : Nat} (h : 0 < den) (quotient : Nat) :
    roundDiv (quotient * den) den = quotient := by
  rw [roundDiv, Nat.mul_div_cancel _ h, Nat.mul_mod_left]
  exact if_pos h

theorem roundDiv_shiftLeft (quotient shift : Nat) :
    roundDiv (quotient <<< shift) (1 <<< shift) = quotient := by
  rw [Nat.one_shiftLeft, Nat.shiftLeft_eq]
  exact roundDiv_mul (Nat.two_pow_pos shift) quotient

variable {bits : Nat}

theorem log2_shiftLeft {n : Nat} (h : n ≠ 0) (shift : Nat) : (n <<< shift).log2 = n.log2 + shift := by
  have hpow := Nat.two_pow_pos shift
  have hle := Nat.mul_le_mul_right (2 ^ shift) (Nat.log2_self_le h)
  have hlt := Nat.mul_lt_mul_of_pos_right (@Nat.lt_log2_self n) hpow
  rw [← Nat.pow_add] at hle hlt
  have hn : n <<< shift ≠ 0 := by
    rw [Nat.shiftLeft_eq]
    exact Nat.mul_ne_zero h (by omega)
  rw [Nat.shiftLeft_eq] at hn ⊢
  have hlow := (Nat.le_log2 hn).mpr hle
  have hhigh := (Nat.log2_lt hn).mpr hlt
  omega

theorem log2_eq {n : Nat} (hlow : 1 <<< bits ≤ n) (hhigh : n < 1 <<< (bits + 1)) :
    n.log2 = bits := by
  have hpow := Nat.two_pow_pos bits
  rw [Nat.one_shiftLeft] at hlow hhigh
  have hn : n ≠ 0 := by omega
  have hle := (Nat.le_log2 hn).mpr hlow
  have hlt := (Nat.log2_lt hn).mpr hhigh
  omega

private theorem one_shiftLeft_pos : 0 < 1 <<< bits := by
  rw [Nat.one_shiftLeft]
  exact Nat.two_pow_pos bits

private theorem one_shiftLeft_succ : 1 <<< (bits + 1) = 2 * 1 <<< bits := by
  rw [Nat.one_shiftLeft, Nat.one_shiftLeft, Nat.pow_succ, Nat.mul_comm]

private theorem shiftLeft_eq_mul (n : Nat) : n <<< bits = n * 1 <<< bits := by
  rw [Nat.one_shiftLeft, Nat.shiftLeft_eq]

/-- The rank of a number in its normal form: a significand below `2 ^ bits` has no shift. -/
theorem units_add {q shift : Nat} (hq : q < 1 <<< (bits + 1))
    (hs : shift = 0 ∨ 1 <<< bits ≤ q) : units bits (q + shift <<< bits) = q <<< shift := by
  have hpos := @one_shiftLeft_pos bits
  rw [one_shiftLeft_succ] at hq
  have hdiv : (q + shift <<< bits) / 1 <<< bits = q / 1 <<< bits + shift := by
    rw [shiftLeft_eq_mul, Nat.add_mul_div_right _ _ hpos]
  have hmod : (q + shift <<< bits) % 1 <<< bits = q % 1 <<< bits := by
    rw [shiftLeft_eq_mul, Nat.add_mul_mod_self_right]
  rw [units, significand, hdiv, hmod]
  by_cases hlt : q < 1 <<< bits
  · have hshift : shift = 0 := by omega
    rw [hshift, Nat.div_eq_of_lt hlt, Nat.mod_eq_of_lt hlt]
    rfl
  · have hone : q / 1 <<< bits = 1 := Nat.div_eq_of_lt_le (by omega) (by omega)
    have hrest : q % 1 <<< bits = q - 1 <<< bits := by
      rw [Nat.mod_eq_sub_mod (by omega), Nat.mod_eq_of_lt (by omega)]
    rw [hone, hrest, if_neg (by omega), Nat.add_sub_cancel' (by omega), Nat.add_sub_cancel_left]

/-- Every rank has a normal form. -/
theorem rank_eq (bits rank : Nat) :
    significand bits rank + (rank / 1 <<< bits - 1) <<< bits = rank := by
  have hdiv := Nat.div_add_mod rank (1 <<< bits)
  rw [shiftLeft_eq_mul, Nat.sub_mul, Nat.mul_comm, significand]
  split
  · rename_i hzero
    rw [hzero] at hdiv ⊢
    omega
  · rename_i hne
    have hle := Nat.mul_le_mul_left (1 <<< bits) (Nat.one_le_iff_ne_zero.mpr hne)
    omega

theorem significand_lt (bits rank : Nat) : significand bits rank < 1 <<< (bits + 1) := by
  have hlt := Nat.mod_lt rank (@one_shiftLeft_pos bits)
  rw [one_shiftLeft_succ, significand]
  split <;> omega

theorem le_significand {rank : Nat} (h : rank / 1 <<< bits ≠ 0) :
    1 <<< bits ≤ significand bits rank := by
  rw [significand, if_neg h]
  exact Nat.le_add_right _ _

theorem units_eq_zero_iff {rank : Nat} : units bits rank = 0 ↔ rank = 0 := by
  have hpos := @one_shiftLeft_pos bits
  have hrank := rank_eq bits rank
  rw [units, Nat.shiftLeft_eq, Nat.mul_eq_zero, or_iff_left (Nat.ne_of_gt (Nat.two_pow_pos _))]
  constructor
  · intro hzero
    by_cases h : rank / 1 <<< bits = 0
    · rw [hzero, h, Nat.zero_sub, Nat.zero_shiftLeft] at hrank
      exact hrank.symm
    · have hle := le_significand h
      omega
  · rintro rfl
    rw [significand, Nat.zero_div, if_pos rfl, Nat.zero_mod]

theorem log2_units (bits rank : Nat) :
    (units bits rank).log2 - bits = rank / 1 <<< bits - 1 := by
  have hlt := significand_lt bits rank
  by_cases h : rank / 1 <<< bits = 0
  · rw [units, h, Nat.shiftLeft_zero]
    by_cases hzero : significand bits rank = 0
    · rw [hzero]
      simp
    · rw [Nat.one_shiftLeft] at hlt
      have hlog := (Nat.log2_lt hzero).mpr hlt
      omega
  · have hle := le_significand h
    have hpos := @one_shiftLeft_pos bits
    rw [units, log2_shiftLeft (by omega), log2_eq hle hlt]
    omega

theorem nearest_units {den : Nat} (h : 0 < den) (rank : Nat) :
    nearest bits (units bits rank * den) den = rank := by
  have hrank := rank_eq bits rank
  rw [nearest, Nat.mul_div_cancel _ h, log2_units, units]
  generalize rank / 1 <<< bits - 1 = shift at hrank ⊢
  have hden : 0 < den <<< shift := by
    rw [Nat.shiftLeft_eq]
    exact Nat.mul_pos h (Nat.two_pow_pos _)
  have hnum : significand bits rank <<< shift * den = significand bits rank * den <<< shift := by
    rw [Nat.shiftLeft_eq, Nat.shiftLeft_eq, Nat.mul_assoc, Nat.mul_comm (2 ^ shift)]
  rw [hnum, roundDiv_mul hden]
  exact hrank

theorem nearest_units_shiftLeft (rank shift : Nat) :
    nearest bits (units bits rank <<< shift) (1 <<< shift) = rank := by
  rw [Nat.one_shiftLeft, Nat.shiftLeft_eq]
  exact nearest_units (Nat.two_pow_pos shift) rank

theorem nearest_mul_mul (num den : Nat) {factor : Nat} (h : 0 < factor) :
    nearest bits (num * factor) (den * factor) = nearest bits num den := by
  unfold nearest
  dsimp only
  rw [Nat.mul_div_mul_right _ _ h]
  generalize (num / den).log2 - bits = shift
  have hden : (den * factor) <<< shift = den <<< shift * factor := by
    rw [Nat.shiftLeft_eq, Nat.shiftLeft_eq, Nat.mul_right_comm]
  rw [hden, roundDiv_mul_mul _ _ h]

/-- A number with few enough significant bits is on the grid. -/
theorem exists_units {m : Nat} (hm : m < 1 <<< (bits + 1)) (shift : Nat) :
    ∃ rank, units bits rank = m <<< shift ∧ rank < (shift + 2) <<< bits := by
  -- the significand takes up as much of the shift as leaves it at most `bits + 1` bits
  suffices hnormal : ∃ q left, q <<< left = m <<< shift ∧ left ≤ shift ∧
      q < 1 <<< (bits + 1) ∧ (left = 0 ∨ 1 <<< bits ≤ q) by
    obtain ⟨q, left, heq, hle, hlt, hfull⟩ := hnormal
    refine ⟨q + left <<< bits, by rw [units_add hlt hfull, heq], ?_⟩
    have hmul := Nat.mul_le_mul_right (1 <<< bits) hle
    rw [one_shiftLeft_succ] at hlt
    rw [shiftLeft_eq_mul left, shiftLeft_eq_mul (shift + 2), Nat.add_mul]
    omega
  by_cases hsmall : m <<< shift < 1 <<< (bits + 1)
  · exact ⟨m <<< shift, 0, rfl, Nat.zero_le _, hsmall, .inl rfl⟩
  · have hzero : m ≠ 0 := by
      rintro rfl
      rw [Nat.zero_shiftLeft] at hsmall
      have hpos := @one_shiftLeft_pos (bits + 1)
      omega
    have hlog : m.log2 ≤ bits := by
      rw [Nat.one_shiftLeft] at hm
      have hlt := (Nat.log2_lt hzero).mpr hm
      omega
    have htotal : bits < m.log2 + shift := by
      rw [← log2_shiftLeft hzero]
      rw [Nat.one_shiftLeft, Nat.not_lt] at hsmall
      have hle := (Nat.le_log2 (by omega)).mpr hsmall
      omega
    have hlast : (m <<< (bits - m.log2)).log2 = bits := by
      rw [log2_shiftLeft hzero]
      omega
    have hne : m <<< (bits - m.log2) ≠ 0 := by
      rw [Nat.shiftLeft_eq]
      exact Nat.mul_ne_zero hzero (Nat.ne_of_gt (Nat.two_pow_pos _))
    refine ⟨m <<< (bits - m.log2), m.log2 + shift - bits, ?_, by omega, ?_, .inr ?_⟩
    · rw [← Nat.shiftLeft_add]
      congr 1
      omega
    · rw [Nat.one_shiftLeft, ← Nat.log2_lt hne]
      omega
    · rw [Nat.one_shiftLeft, ← Nat.le_log2 hne]
      omega

end SeisLog.Grid
