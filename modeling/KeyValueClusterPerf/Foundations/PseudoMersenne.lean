import Mathlib

/-!
# Reduction modulo a number just below a power of two

Modulo `2 ^ width - offset`, what a number has above its low `width` bits counts `offset` times.
So sums and products are kept in words, and what is carried out of a word is added back to it.
-/

namespace PseudoMersenne

variable {width offset number summand : ℕ}

theorem two_pow_modEq (fits : offset ≤ 2 ^ width) :
    2 ^ width ≡ offset [MOD 2 ^ width - offset] := by
  apply Nat.ModEq.symm
  apply (Nat.modEq_iff_dvd' fits).mpr
  exact dvd_refl _

/-- The bits above a word are folded back to its low end. -/
theorem fold_modEq (fits : offset ≤ 2 ^ width) (number : ℕ) :
    number % 2 ^ width + offset * (number / 2 ^ width) ≡ number [MOD 2 ^ width - offset] := by
  calc
    number % 2 ^ width + offset * (number / 2 ^ width) ≡
        number % 2 ^ width + 2 ^ width * (number / 2 ^ width) [MOD 2 ^ width - offset] := by
      apply Nat.ModEq.add_left
      apply Nat.ModEq.mul_right
      exact (two_pow_modEq fits).symm
    _ = number := Nat.mod_add_div number (2 ^ width)

/-- A word that counts multiples of the modulus beside what is left. -/
theorem modEq_of_add_mul_eq {modulus quotient : ℕ}
    (same : number + modulus * quotient = summand) : number ≡ summand [MOD modulus] := by
  rw [← same]
  exact (Nat.add_mul_mod_self_left number modulus quotient).symm

/-- A sum of words that wraps, to which the offset is added if it did. -/
def addFolded (width offset number summand : ℕ) : ℕ :=
  (number + summand) % 2 ^ width +
    if (number + summand) % 2 ^ width < summand then offset else 0

/-- A sum has wrapped exactly if it is below its summands. -/
theorem wrapped_iff (numberLt : number < 2 ^ width) (summandLt : summand < 2 ^ width) :
    (number + summand) % 2 ^ width < summand ↔ 2 ^ width ≤ number + summand := by
  constructor
  · intro below
    by_contra fits
    have same : (number + summand) % 2 ^ width = number + summand :=
      Nat.mod_eq_of_lt (not_le.mp fits)
    omega
  · intro wraps
    have rest : (number + summand) % 2 ^ width = number + summand - 2 ^ width := by
      apply (Nat.mod_eq_sub_mod wraps).trans
      exact Nat.mod_eq_of_lt (by omega)
    omega

/-- The corrected sum fits a word again if a summand leaves room for the offset. -/
theorem addFolded_lt (number : ℕ) (room : summand + offset ≤ 2 ^ width) :
    addFolded width offset number summand < 2 ^ width := by
  rw [addFolded]
  split
  · omega
  · exact Nat.mod_lt _ (Nat.two_pow_pos width)

theorem addFolded_modEq (fits : offset ≤ 2 ^ width) (numberLt : number < 2 ^ width)
    (summandLt : summand < 2 ^ width) :
    addFolded width offset number summand ≡ number + summand [MOD 2 ^ width - offset] := by
  have carried : addFolded width offset number summand =
      (number + summand) % 2 ^ width + offset * ((number + summand) / 2 ^ width) := by
    rw [addFolded]
    by_cases wraps : 2 ^ width ≤ number + summand
    · have once : (number + summand) / 2 ^ width = 1 :=
        Nat.div_eq_of_lt_le (by omega) (by omega)
      rw [if_pos ((wrapped_iff numberLt summandLt).mpr wraps), once, Nat.mul_one]
    · have never : (number + summand) / 2 ^ width = 0 := Nat.div_eq_of_lt (not_le.mp wraps)
      rw [if_neg fun below => wraps ((wrapped_iff numberLt summandLt).mp below), never,
        Nat.mul_zero]
  rw [carried]
  exact fold_modEq fits (number + summand)

/-- A word is reduced by one wrapping addition of the offset. -/
theorem reduce_eq (half : 2 * offset ≤ 2 ^ width) (positive : 0 < offset)
    (numberLt : number < 2 ^ width) :
    (if 2 ^ width - offset ≤ number then (number + offset) % 2 ^ width else number) =
      number % (2 ^ width - offset) := by
  split
  · rename_i above
    have wrapped : (number + offset) % 2 ^ width = number + offset - 2 ^ width := by
      apply (Nat.mod_eq_sub_mod (by omega)).trans
      exact Nat.mod_eq_of_lt (by omega)
    have reduced : number % (2 ^ width - offset) = number - (2 ^ width - offset) := by
      apply (Nat.mod_eq_sub_mod above).trans
      exact Nat.mod_eq_of_lt (by omega)
    omega
  · rename_i below
    exact (Nat.mod_eq_of_lt (not_le.mp below)).symm

end PseudoMersenne
