import Mathlib

/-!
# Unsigned words as residues

A word of 64 bits stands for every integer with its residue. Sums, differences and products
of words stand for those of the integers, so an expression whose exact value fits in a word
has that value, whatever its parts did.
-/

namespace Residues

/-- The word is the residue of the integer. -/
def Represents (word : UInt64) (value : ℤ) : Prop :=
  (word.toNat : ℤ) ≡ value [ZMOD 2 ^ 64]

theorem represents_toNat (word : UInt64) : Represents word word.toNat :=
  Int.ModEq.refl _

/-- The difference of two signed words, read as an unsigned one. -/
theorem represents_toUInt64_sub (left right : Int64) :
    Represents (left - right).toUInt64 (left.toInt - right.toInt) := by
  have exact : (left - right).toInt = (left.toInt - right.toInt).bmod (2 ^ 64) :=
    Int64.toInt_sub left right
  have same : (left - right).toInt = ((left - right).toUInt64.toNat : ℤ).bmod (2 ^ 64) :=
    BitVec.toInt_eq_toNat_bmod _
  rw [exact] at same
  have residues : (left.toInt - right.toInt).bmod (2 ^ 64) % 2 ^ 64 =
      ((left - right).toUInt64.toNat : ℤ).bmod (2 ^ 64) % 2 ^ 64 :=
    congrArg (fun value => value % (2 ^ 64 : ℤ)) same
  exact Int.bmod_emod.symm.trans (residues.symm.trans Int.bmod_emod)

section Composition

variable {left right word : UInt64} {leftValue rightValue value : ℤ}

theorem Represents.add (leftRepresents : Represents left leftValue)
    (rightRepresents : Represents right rightValue) :
    Represents (left + right) (leftValue + rightValue) := by
  rw [Represents, UInt64.toNat_add, Int.natCast_mod, Nat.cast_add]
  exact Int.ModEq.trans (Int.mod_modEq _ _) (Int.ModEq.add leftRepresents rightRepresents)

theorem Represents.mul (leftRepresents : Represents left leftValue)
    (rightRepresents : Represents right rightValue) :
    Represents (left * right) (leftValue * rightValue) := by
  rw [Represents, UInt64.toNat_mul, Int.natCast_mod, Nat.cast_mul]
  exact Int.ModEq.trans (Int.mod_modEq _ _) (Int.ModEq.mul leftRepresents rightRepresents)

/-- A value that fits in a word is the one that the word has. -/
theorem Represents.toNat_eq (represents : Represents word value) (natural : 0 ≤ value)
    (bounded : value < 2 ^ 64) : (word.toNat : ℤ) = value := by
  have small : (word.toNat : ℤ) < 2 ^ 64 := by
    exact_mod_cast word.toNat_lt
  have residues := represents
  rw [Represents, Int.ModEq, Int.emod_eq_of_lt (Int.natCast_nonneg _) small,
    Int.emod_eq_of_lt natural bounded] at residues
  exact residues

end Composition

end Residues
