/-!
# Rounding a quotient

`roundDiv num den` is the natural number nearest to `num / den`; of two equally near it is the
even one. `roundDiv_error` bounds the distance by half a unit.
-/

namespace SeisLog

def roundDiv (num den : Nat) : Nat :=
  let quotient := num / den
  let remainder := num % den
  if 2 * remainder < den then quotient
  else if den < 2 * remainder then quotient + 1
  else quotient + quotient % 2

theorem roundDiv_error (num : Nat) {den : Nat} (h : 0 < den) :
    2 * (den * roundDiv num den) ≤ 2 * num + den ∧
      2 * num ≤ 2 * (den * roundDiv num den) + den := by
  have hd := Nat.div_add_mod num den
  have hr := Nat.mod_lt num h
  unfold roundDiv
  generalize num / den = q at *
  generalize num % den = r at *
  dsimp only
  split
  · omega
  · split
    · rw [Nat.mul_add]
      omega
    · rcases Nat.mod_two_eq_zero_or_one q with hq | hq
      · rw [hq, Nat.add_zero]
        omega
      · rw [hq, Nat.mul_add]
        omega

theorem roundDiv_mul_mul (num den : Nat) {factor : Nat} (h : 0 < factor) :
    roundDiv (num * factor) (den * factor) = roundDiv num den := by
  have hlow : 2 * (num % den * factor) < den * factor ↔ 2 * (num % den) < den := by
    rw [← Nat.mul_assoc, Nat.mul_lt_mul_right h]
  have hhigh : den * factor < 2 * (num % den * factor) ↔ den < 2 * (num % den) := by
    rw [← Nat.mul_assoc, Nat.mul_lt_mul_right h]
  unfold roundDiv
  rw [Nat.mul_div_mul_right _ _ h, Nat.mul_mod_mul_right]
  simp only [hlow, hhigh]

end SeisLog
