import Mathlib

/-!
# Checked 32-bit arithmetic

Signed arithmetic without a defined result on overflow: an operation yields the exact
result if 32 bits hold it, and nothing otherwise. The remainder is the one of division
towards zero.
-/

namespace CheckedInts

/-- The 32-bit integer that has a value, if there is one. -/
def checked (value : ℤ) : Option Int32 :=
  if inside : Int32.minValue.toInt ≤ value ∧ value ≤ Int32.maxValue.toInt then
    some (Int32.ofIntLE value inside.1 inside.2)
  else none

def add (left right : Int32) : Option Int32 :=
  checked (left.toInt + right.toInt)

def sub (left right : Int32) : Option Int32 :=
  checked (left.toInt - right.toInt)

/-- The remainder, if the quotient is defined. -/
def rem (dividend divisor : Int32) : Option Int32 :=
  if divisor.toInt = 0 then none
  else
    match checked (dividend.toInt.tdiv divisor.toInt) with
    | none => none
    | some _ => checked (dividend.toInt.tmod divisor.toInt)

theorem exists_checked {value : ℤ} (lower : Int32.minValue.toInt ≤ value)
    (upper : value ≤ Int32.maxValue.toInt) :
    ∃ number : Int32, checked value = some number ∧ number.toInt = value := by
  refine ⟨_, dif_pos ⟨lower, upper⟩, ?_⟩
  exact Int32.toInt_ofIntLE

theorem toInt_of_checked {value : ℤ} {number : Int32} (found : checked value = some number) :
    number.toInt = value := by
  simp only [checked] at found
  split at found
  · rcases Option.some.inj found with rfl
    exact Int32.toInt_ofIntLE
  · simp at found

/-- An operation has the result whose value is the exact one. -/
theorem checked_eq_some_iff {value : ℤ} {number : Int32} :
    checked value = some number ↔ number.toInt = value := by
  constructor
  · exact toInt_of_checked
  · rintro rfl
    rcases exists_checked number.minValue_le_toInt number.toInt_le with ⟨same, found, valueEq⟩
    rw [found, Int32.toInt_inj.mp valueEq]

theorem exists_increment {number : Int32} (below : number.toInt < Int32.maxValue.toInt) :
    ∃ following : Int32, add number 1 = some following ∧
      following.toInt = number.toInt + 1 := by
  have one : (1 : Int32).toInt = 1 := rfl
  have lowest := number.minValue_le_toInt
  rcases exists_checked (by omega : Int32.minValue.toInt ≤ number.toInt + (1 : Int32).toInt)
    (by omega) with ⟨following, defined, valueEq⟩
  exact ⟨following, defined, by omega⟩

/-- The remainder of a natural number is defined, unless the divisor is zero. -/
theorem exists_rem_of_ne_zero {dividend divisor : Int32} (natural : 0 ≤ dividend.toInt)
    (nonzero : divisor.toInt ≠ 0) :
    ∃ remainder : Int32, rem dividend divisor = some remainder ∧
      remainder.toInt = dividend.toInt.tmod divisor.toInt := by
  have lower : Int32.minValue.toInt = -Int32.maxValue.toInt - 1 := by decide
  have upper := dividend.toInt_le
  have quotientLe := Int.natAbs_tdiv_le_natAbs dividend.toInt divisor.toInt
  have remainderNatural := Int.tmod_nonneg divisor.toInt natural
  have remainderLe : (dividend.toInt.tmod divisor.toInt).natAbs ≤ dividend.toInt.natAbs := by
    rw [Int.natAbs_tmod]
    exact Nat.mod_le _ _
  rcases exists_checked (by omega : Int32.minValue.toInt ≤ dividend.toInt.tdiv divisor.toInt)
    (by omega) with ⟨quotient, quotientEq, _⟩
  rcases exists_checked (by omega : Int32.minValue.toInt ≤ dividend.toInt.tmod divisor.toInt)
    (by omega) with ⟨remainder, remainderEq, valueEq⟩
  refine ⟨remainder, ?_, valueEq⟩
  rw [rem, if_neg nonzero, quotientEq]
  exact remainderEq

theorem ne_zero_of_rem {dividend divisor remainder : Int32}
    (defined : rem dividend divisor = some remainder) : divisor.toInt ≠ 0 := by
  intro zero
  simp [rem, zero] at defined

theorem rem_eq_some_iff {dividend divisor remainder : Int32} (natural : 0 ≤ dividend.toInt) :
    rem dividend divisor = some remainder ↔
      divisor.toInt ≠ 0 ∧ remainder.toInt = dividend.toInt.tmod divisor.toInt := by
  constructor
  · intro defined
    have nonzero := ne_zero_of_rem defined
    rcases exists_rem_of_ne_zero natural nonzero with ⟨other, otherEq, otherValue⟩
    rcases Option.some.inj (otherEq.symm.trans defined) with rfl
    exact ⟨nonzero, otherValue⟩
  · rintro ⟨nonzero, valueEq⟩
    rcases exists_rem_of_ne_zero natural nonzero with ⟨other, otherEq, otherValue⟩
    rw [otherEq, Int32.toInt_inj.mp (otherValue.trans valueEq.symm)]

end CheckedInts
