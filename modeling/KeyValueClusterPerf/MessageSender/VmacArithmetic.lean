import KeyValueClusterPerf.Foundations.PseudoMersenne
import KeyValueClusterPerf.MessageSender.UniversalHash
import KeyValueClusterPerf.MessageSender.VmacBuild

/-!
# What the registers of `vmac.c` hold

The step of the polynomial keeps its value modulo `2 ^ 127 - 1` only, in registers that it never
overflows, and the last level reduces it. The inner products wrap and are then cut to 126 bits.
-/

namespace KeyValueClusterPerf

namespace Vmac

open Loads PseudoMersenne

section Registers

variable {target summand registers : Registers}

theorem Registers.toNat_lt (registers : Registers) : registers.toNat < 2 ^ 128 := by
  have highLt := registers.high.toNat_lt
  have lowLt := registers.low.toNat_lt
  rw [Registers.toNat]
  omega

theorem toNat_ADD128_of_lt (fits : target.toNat + summand.toNat < 2 ^ 128) :
    (ADD128 target summand).toNat = target.toNat + summand.toNat := by
  rw [toNat_ADD128]
  exact Nat.mod_eq_of_lt fits

/-- A word with its upper bits cleared. -/
theorem toNat_and_low {mask : UInt64} {width : ℕ} (masks : mask.toNat = 2 ^ width - 1)
    (word : UInt64) : (word &&& mask).toNat = word.toNat % 2 ^ width := by
  rw [UInt64.toNat_and, masks]
  exact Nat.and_two_pow_sub_one_eq_mod word.toNat width

theorem toNat_m63 (word : UInt64) : (word &&& m63).toNat = word.toNat % 2 ^ 63 :=
  toNat_and_low (by decide) word

/-- The top bit of the registers is cleared. -/
theorem toNat_cut (registers : Registers) :
    (⟨registers.high &&& m63, registers.low⟩ : Registers).toNat = registers.toNat % 2 ^ 127 := by
  have lowLt := registers.low.toNat_lt
  simp only [Registers.toNat, toNat_m63]
  omega

theorem toNat_masked (registers : Registers) :
    registers.masked.toNat = registers.toNat % 2 ^ 126 := by
  have masked : (registers.high &&& m62).toNat = registers.high.toNat % 2 ^ 62 :=
    toNat_and_low (by decide) registers.high
  have lowLt := registers.low.toNat_lt
  simp only [Registers.masked, Registers.toNat, masked]
  omega

theorem high_masked_lt (registers : Registers) : registers.masked.high.toNat < 2 ^ 62 := by
  have masked : (registers.high &&& m62).toNat = registers.high.toNat % 2 ^ 62 :=
    toNat_and_low (by decide) registers.high
  rw [Registers.masked, masked]
  exact Nat.mod_lt _ (Nat.two_pow_pos 62)

theorem toNat_shiftRight (word : UInt64) {shift : UInt64} (small : shift.toNat < 64) :
    (word >>> shift).toNat = word.toNat / 2 ^ shift.toNat := by
  rw [UInt64.toNat_shiftRight, Nat.mod_eq_of_lt small, Nat.shiftRight_eq_div_pow]

theorem toNat_shiftLeft (word : UInt64) {shift : UInt64} (small : shift.toNat < 64) :
    (word <<< shift).toNat = word.toNat * 2 ^ shift.toNat % 2 ^ 64 := by
  rw [UInt64.toNat_shiftLeft, Nat.mod_eq_of_lt small, Nat.shiftLeft_eq]

end Registers

section Polynomial

variable {a k m : Registers}

/-- The products that overlap in the middle register, the carry of the lower ones included. -/
theorem toNat_middle {low middle : Registers} (fits : middle.toNat < 2 ^ 127) :
    (ADD128 ⟨middle.high, low.high⟩ ⟨0, middle.low⟩).toNat = middle.toNat + low.high.toNat := by
  have sum := @toNat_ADD128_of_lt ⟨middle.high, low.high⟩ ⟨0, middle.low⟩
  have lowLt := low.high.toNat_lt
  simp only [Registers.toNat, UInt64.toNat_zero, Nat.mul_zero, Nat.zero_add] at fits sum ⊢
  omega

/-- What is above the 127 bits of a number counts once. -/
theorem poly_step_fold {low sum m : Registers} (sumLt : sum.toNat < 2 ^ 127)
    (mLt : m.high.toNat < 2 ^ 62) :
    (ADD128 (ADD128 ⟨sum.low &&& m63, low.low⟩ m)
        ⟨0, (2 : UInt64) * sum.high + sum.low >>> 63⟩).toNat =
      2 ^ 64 * (sum.toNat % 2 ^ 63) + low.low.toNat + m.toNat + sum.toNat / 2 ^ 63 := by
  have lowLt := low.low.toNat_lt
  have mLowLt := m.low.toNat_lt
  have sumLowLt := sum.low.toNat_lt
  have top : (sum.low >>> 63).toNat = sum.low.toNat / 2 ^ 63 :=
    toNat_shiftRight sum.low (by decide)
  have above : ((2 : UInt64) * sum.high + sum.low >>> 63).toNat = sum.toNat / 2 ^ 63 := by
    have two : (2 : UInt64).toNat = 2 := rfl
    simp only [UInt64.toNat_add, UInt64.toNat_mul, top, two, Registers.toNat] at sumLt ⊢
    omega
  have first := @toNat_ADD128_of_lt ⟨sum.low &&& m63, low.low⟩ m
  have second := @toNat_ADD128_of_lt (ADD128 ⟨sum.low &&& m63, low.low⟩ m)
    ⟨0, (2 : UInt64) * sum.high + sum.low >>> 63⟩
  simp only [Registers.toNat, toNat_m63, above, UInt64.toNat_zero] at first second sumLt ⊢
  omega

theorem toNat_products {x y z w : UInt64}
    (fits : x.toNat * y.toNat + z.toNat * w.toNat < 2 ^ 128) :
    (ADD128 (MUL64 x y) (MUL64 z w)).toNat = x.toNat * y.toNat + z.toNat * w.toNat := by
  have sum := @toNat_ADD128_of_lt (MUL64 x y) (MUL64 z w)
  rw [toNat_MUL64, toNat_MUL64] at sum
  exact sum fits

/-- The step is a multiplication and an addition modulo `2 ^ 127 - 1`, for every value before. -/
theorem poly_step_modEq (kHigh : k.high.toNat < 2 ^ 61) (kLow : k.low.toNat < 2 ^ 61)
    (mHigh : m.high.toNat < 2 ^ 62) :
    (poly_step a k m).toNat ≡ a.toNat * k.toNat + m.toNat [MOD 2 ^ 127 - 1] := by
  have ac : a.high.toNat * k.high.toNat < 2 ^ 64 * 2 ^ 61 :=
    Nat.mul_lt_mul'' a.high.toNat_lt kHigh
  have ad : a.high.toNat * k.low.toNat < 2 ^ 64 * 2 ^ 61 :=
    Nat.mul_lt_mul'' a.high.toNat_lt kLow
  have bc : a.low.toNat * k.high.toNat < 2 ^ 64 * 2 ^ 61 :=
    Nat.mul_lt_mul'' a.low.toNat_lt kHigh
  have bd : a.low.toNat * k.low.toNat < 2 ^ 64 * 2 ^ 61 :=
    Nat.mul_lt_mul'' a.low.toNat_lt kLow
  have doubled : (2 * k.high).toNat = 2 * k.high.toNat := by
    have two : (2 : UInt64).toNat = 2 := rfl
    rw [UInt64.toNat_mul, two]
    exact Nat.mod_eq_of_lt (by omega)
  have twice : a.high.toNat * (2 * k.high).toNat = 2 * (a.high.toNat * k.high.toNat) := by
    rw [doubled]
    ring
  have lowEq := @toNat_products a.low k.low a.high (2 * k.high) (by omega)
  have middleEq := @toNat_products a.high k.low a.low k.high (by omega)
  simp only [poly_step]
  generalize ADD128 (MUL64 a.low k.low) (MUL64 a.high (2 * k.high)) = low at lowEq ⊢
  generalize ADD128 (MUL64 a.high k.low) (MUL64 a.low k.high) = middle at middleEq ⊢
  have lowLt := low.high.toNat_lt
  have sumEq := @toNat_middle low middle (by omega)
  generalize ADD128 ⟨middle.high, low.high⟩ ⟨0, middle.low⟩ = sum at sumEq ⊢
  have folded := @poly_step_fold low sum m (by omega) mHigh
  have product : a.toNat * k.toNat = 2 ^ 128 * (a.high.toNat * k.high.toNat) +
      2 ^ 64 * (a.high.toNat * k.low.toNat + a.low.toNat * k.high.toNat) +
      a.low.toNat * k.low.toNat := by
    rw [Registers.toNat, Registers.toNat]
    ring
  rw [folded]
  apply @modEq_of_add_mul_eq _ _ _ (2 * (a.high.toNat * k.high.toNat) + sum.toNat / 2 ^ 63)
  rw [Registers.toNat] at lowEq
  omega

end Polynomial

section LastLevel

/-- The first part of `l3hash`, up to the full reduction modulo `2 ^ 127 - 1`. -/
def reducedP127 (p : Registers) (len : UInt64) : Registers :=
  let t := p.high >>> 63
  let p := ADD128 ⟨p.high &&& m63, p.low⟩ ⟨len, t⟩
  let t := (if p.high > m63 then 1 else 0) + (if p.high = m63 ∧ p.low = m64 then 1 else 0)
  let p := ADD128 p ⟨0, t⟩
  ⟨p.high &&& m63, p.low⟩

/-- The quotient and the remainder that `l3hash` computes next. -/
def divided (p : Registers) : Registers :=
  let t := p.high + (p.low >>> 32)
  let t := t + (t >>> 32)
  let t := t + (if t &&& 0xffffffff > 0xfffffffe then 1 else 0)
  let p1 := p.high + (t >>> 32)
  ⟨p1, p.low + (p1 <<< 32)⟩

def addedP64 (p k : UInt64) : UInt64 :=
  let p := p + k
  p + (if p < k then 257 else 0)

/-- The last part of `l3hash`. -/
def productP64 (p1 p2 : UInt64) : UInt64 :=
  let r := MUL64 p1 p2
  let s := ADD128 ⟨r.high >>> 56, r.low⟩ ⟨0, r.high⟩
  let s := ADD128 s ⟨0, r.high <<< 8⟩
  let t := s.high + (s.high <<< 8)
  let rl := s.low + t
  let rl := rl + (if rl < t then 257 else 0)
  rl + (if rl > p64 - 1 then 257 else 0)

theorem l3hash_eq (p : Registers) (k1 k2 len : UInt64) :
    l3hash p k1 k2 len =
      productP64 (addedP64 (divided (reducedP127 p len)).high k1)
        (addedP64 (divided (reducedP127 p len)).low k2) :=
  rfl

variable {p : Registers} {len word other key : UInt64}

/-- One is added exactly if the sum is not yet below the modulus. -/
theorem toNat_above (p : Registers) :
    ((if p.high > m63 then 1 else 0) + (if p.high = m63 ∧ p.low = m64 then 1 else 0) :
      UInt64).toNat = if 2 ^ 127 - 1 ≤ p.toNat then 1 else 0 := by
  have lowLt := p.low.toNat_lt
  have value : p.toNat = 2 ^ 64 * p.high.toNat + p.low.toNat := rfl
  have m63Eq : m63.toNat = 2 ^ 63 - 1 := rfl
  have m64Eq : m64.toNat = 2 ^ 64 - 1 := rfl
  simp only [gt_iff_lt, UInt64.lt_iff_toNat_lt, ← UInt64.toNat_inj, m63Eq, m64Eq]
  by_cases above : 2 ^ 63 - 1 < p.high.toNat
  · have notEqual : ¬(p.high.toNat = 2 ^ 63 - 1 ∧ p.low.toNat = 2 ^ 64 - 1) := by omega
    rw [if_pos above, if_neg notEqual, if_pos (by omega)]
    rfl
  · rw [if_neg above]
    by_cases equal : p.high.toNat = 2 ^ 63 - 1 ∧ p.low.toNat = 2 ^ 64 - 1
    · rw [if_pos equal, if_pos (by omega)]
      rfl
    · rw [if_neg equal, if_neg (by omega)]
      rfl

/-- Below twice the modulus, one addition and a mask reduce. -/
theorem toNat_subtracted {q : Registers} (small : q.toNat < 2 ^ 127 + 2 ^ 126 + 2 ^ 64) :
    let t := (if q.high > m63 then 1 else 0) + (if q.high = m63 ∧ q.low = m64 then 1 else 0)
    let s := ADD128 q ⟨0, t⟩
    (⟨s.high &&& m63, s.low⟩ : Registers).toNat = q.toNat % (2 ^ 127 - 1) := by
  intro t s
  have above : t.toNat = if 2 ^ 127 - 1 ≤ q.toNat then 1 else 0 := toNat_above q
  have tEq : (⟨0, t⟩ : Registers).toNat = t.toNat := Nat.zero_add t.toNat
  have added : s.toNat = q.toNat + t.toNat := by
    have sum := @toNat_ADD128_of_lt q ⟨0, t⟩
    rw [tEq] at sum
    apply sum
    split at above
    · omega
    · omega
  rw [toNat_cut, added]
  split at above
  · rename_i large
    omega
  · rename_i reduced
    omega

theorem toNat_reducedP127 (small : len.toNat < 2 ^ 62) :
    (reducedP127 p len).toNat = (p.toNat + 2 ^ 64 * len.toNat) % (2 ^ 127 - 1) := by
  have highLt := p.high.toNat_lt
  have lowLt := p.low.toNat_lt
  have top : (p.high >>> 63).toNat = p.high.toNat / 2 ^ 63 := toNat_shiftRight p.high (by decide)
  have cut := toNat_cut p
  have added := @toNat_ADD128_of_lt ⟨p.high &&& m63, p.low⟩ ⟨len, p.high >>> 63⟩
  rw [cut] at added
  simp only [reducedP127]
  generalize ADD128 ⟨p.high &&& m63, p.low⟩ ⟨len, p.high >>> 63⟩ = q at added ⊢
  have lenEq : (⟨len, p.high >>> 63⟩ : Registers).toNat =
      2 ^ 64 * len.toNat + p.toNat / 2 ^ 127 := by
    simp only [Registers.toNat, top]
    omega
  rw [lenEq] at added
  have pLt := p.toNat_lt
  have folded : p.toNat + 2 ^ 64 * len.toNat = q.toNat + (2 ^ 127 - 1) * (p.toNat / 2 ^ 127) := by
    omega
  rw [folded, Nat.add_mul_mod_self_left]
  exact toNat_subtracted (by omega)

/-- A quotient by `2 ^ 32 - 1`, from the sum of the digits to the base `2 ^ 32`. -/
theorem div_digits {number : ℕ} (small : number < 2 ^ 63 + 2 ^ 32) :
    (number + number / 2 ^ 32 +
      if (number + number / 2 ^ 32) % 2 ^ 32 > 2 ^ 32 - 2 then 1 else 0) / 2 ^ 32 =
        number / (2 ^ 32 - 1) := by
  split
  · omega
  · omega

/-- The quotient of a number by `2 ^ 32 * (2 ^ 32 - 1)`, from that of the sum of its digits. -/
theorem div_words (high low : ℕ) :
    (2 ^ 64 * high + low) / (2 ^ 64 - 2 ^ 32) =
      high + (high + low / 2 ^ 32) / (2 ^ 32 - 1) := by
  have shifted : (2 ^ 64 * high + low) / 2 ^ 32 =
      (2 ^ 32 - 1) * high + (high + low / 2 ^ 32) := by
    omega
  calc
    (2 ^ 64 * high + low) / (2 ^ 64 - 2 ^ 32) =
        (2 ^ 64 * high + low) / 2 ^ 32 / (2 ^ 32 - 1) :=
      (Nat.div_div_eq_div_mul _ (2 ^ 32) (2 ^ 32 - 1)).symm
    _ = high + (high + low / 2 ^ 32) / (2 ^ 32 - 1) := by
      rw [shifted]
      exact Nat.mul_add_div (by norm_num) high _

/-- The comparison of `l3hash` with the greatest digit to the base `2 ^ 32`. -/
theorem toNat_corrected (fits : word.toNat + 1 < 2 ^ 64) :
    (word + (if word &&& 0xffffffff > 0xfffffffe then 1 else 0)).toNat =
      word.toNat + if word.toNat % 2 ^ 32 > 2 ^ 32 - 2 then 1 else 0 := by
  have digit : (word &&& 0xffffffff).toNat = word.toNat % 2 ^ 32 :=
    toNat_and_low (by decide) word
  have greatest : (0xfffffffe : UInt64).toNat = 2 ^ 32 - 2 := rfl
  simp only [gt_iff_lt, UInt64.lt_iff_toNat_lt, digit, greatest]
  split
  · rw [UInt64.toNat_add, UInt64.toNat_one]
    exact Nat.mod_eq_of_lt fits
  · rw [UInt64.add_zero, Nat.add_zero]

theorem toNat_divided (reduced : p.toNat < 2 ^ 127 - 1) :
    (divided p).high.toNat = p.toNat / (2 ^ 64 - 2 ^ 32) ∧
      (divided p).low.toNat = p.toNat % (2 ^ 64 - 2 ^ 32) := by
  have lowLt := p.low.toNat_lt
  rw [Registers.toNat] at reduced ⊢
  have upper : (p.low >>> 32).toNat = p.low.toNat / 2 ^ 32 := toNat_shiftRight p.low (by decide)
  have digits : (p.high + p.low >>> 32).toNat = p.high.toNat + p.low.toNat / 2 ^ 32 := by
    rw [UInt64.toNat_add, upper]
    omega
  simp only [divided]
  generalize p.high + p.low >>> 32 = t at digits ⊢
  have carried : (t >>> 32).toNat = t.toNat / 2 ^ 32 := toNat_shiftRight t (by decide)
  have summed : (t + t >>> 32).toNat = t.toNat + t.toNat / 2 ^ 32 := by
    rw [UInt64.toNat_add, carried]
    omega
  have corrected := @toNat_corrected (t + t >>> 32) (by omega)
  rw [summed] at corrected
  generalize t + t >>> 32 + (if t + t >>> 32 &&& 0xffffffff > 0xfffffffe then 1 else 0) = c
    at corrected ⊢
  have quotient : (c >>> 32).toNat = t.toNat / (2 ^ 32 - 1) := by
    rw [toNat_shiftRight c (by decide), corrected]
    exact div_digits (by omega)
  have high : (p.high + c >>> 32).toNat =
      (2 ^ 64 * p.high.toNat + p.low.toNat) / (2 ^ 64 - 2 ^ 32) := by
    rw [UInt64.toNat_add, quotient, digits, div_words]
    exact Nat.mod_eq_of_lt (by omega)
  have low : (p.low + (p.high + c >>> 32) <<< 32).toNat =
      (2 ^ 64 * p.high.toNat + p.low.toNat) % (2 ^ 64 - 2 ^ 32) := by
    rw [UInt64.toNat_add, toNat_shiftLeft _ (by decide), high]
    have shift : (32 : UInt64).toNat = 32 := rfl
    rw [shift]
    omega
  exact ⟨high, low⟩

/-- The words are added in the way of a number just below `2 ^ 64`. -/
theorem toNat_folded (word : UInt64) (room : other.toNat + 257 ≤ 2 ^ 64) :
    (word + other + (if word + other < other then 257 else 0)).toNat =
      addFolded 64 257 word.toNat other.toNat := by
  have fits := @addFolded_lt 64 257 other.toNat word.toNat room
  have offset : (257 : UInt64).toNat = 257 := rfl
  simp only [addFolded, UInt64.lt_iff_toNat_lt, UInt64.toNat_add] at fits ⊢
  split
  · rename_i wrapped
    rw [if_pos wrapped] at fits
    rw [offset]
    exact Nat.mod_eq_of_lt fits
  · rw [UInt64.toNat_zero, Nat.add_zero, Nat.mod_mod]

theorem addedP64_modEq (word : UInt64) (below : key < p64) :
    (addedP64 word key).toNat ≡ word.toNat + key.toNat [MOD 2 ^ 64 - 257] := by
  have keyLt : key.toNat < 2 ^ 64 - 257 := UInt64.lt_iff_toNat_lt.mp below
  have folded : (addedP64 word key).toNat = addFolded 64 257 word.toNat key.toNat :=
    toNat_folded word (by omega)
  rw [folded]
  exact addFolded_modEq (by norm_num) word.toNat_lt key.toNat_lt

/-- The last addition reduces, since the modulus is above half of a word's range. -/
theorem toNat_reducedP64 (word : UInt64) :
    (word + (if word > p64 - 1 then 257 else 0)).toNat = word.toNat % (2 ^ 64 - 257) := by
  have last : (p64 - 1).toNat = 2 ^ 64 - 257 - 1 := rfl
  have offset : (257 : UInt64).toNat = 257 := rfl
  have reduce := @reduce_eq 64 257 word.toNat (by norm_num) (by norm_num) word.toNat_lt
  rw [← reduce]
  simp only [gt_iff_lt, UInt64.lt_iff_toNat_lt, last]
  by_cases above : 2 ^ 64 - 257 ≤ word.toNat
  · rw [if_pos above, if_pos (by omega), UInt64.toNat_add, offset]
  · rw [if_neg above, if_neg (by omega), UInt64.add_zero]

theorem summand_eq_toNat (registers : Registers) :
    registers.low.toNat + 257 * registers.high.toNat + (2 ^ 64 - 257) * registers.high.toNat =
      registers.toNat := by
  rw [Registers.toNat]
  omega

theorem toNat_productP64 (p1 p2 : UInt64) :
    (productP64 p1 p2).toNat = p1.toNat * p2.toNat % (2 ^ 64 - 257) := by
  have product := toNat_MUL64 p1 p2
  simp only [productP64]
  generalize MUL64 p1 p2 = r at product ⊢
  have highLt := r.high.toNat_lt
  have lowLt := r.low.toNat_lt
  have top : (r.high >>> 56).toNat = r.high.toNat / 2 ^ 56 := toNat_shiftRight r.high (by decide)
  have shifted : (r.high <<< 8).toNat = r.high.toNat * 2 ^ 8 % 2 ^ 64 :=
    toNat_shiftLeft r.high (by decide)
  have first := @toNat_ADD128_of_lt ⟨r.high >>> 56, r.low⟩ ⟨0, r.high⟩
  generalize ADD128 ⟨r.high >>> 56, r.low⟩ ⟨0, r.high⟩ = s at first ⊢
  have second := @toNat_ADD128_of_lt s ⟨0, r.high <<< 8⟩
  generalize ADD128 s ⟨0, r.high <<< 8⟩ = s at second ⊢
  have sumEq : s.toNat = r.low.toNat + 257 * r.high.toNat := by
    simp only [Registers.toNat, top, shifted, UInt64.toNat_zero] at first second ⊢
    omega
  have sLowLt := s.low.toNat_lt
  have scaled : (s.high + s.high <<< 8).toNat = 257 * s.high.toNat := by
    rw [UInt64.toNat_add, toNat_shiftLeft s.high (by decide)]
    have shift : (8 : UInt64).toNat = 8 := rfl
    rw [shift]
    rw [Registers.toNat] at sumEq
    omega
  have small : 257 * s.high.toNat + 257 ≤ 2 ^ 64 := by
    rw [Registers.toNat] at sumEq
    omega
  have folded := @addFolded_modEq 64 257 s.low.toNat (257 * s.high.toNat) (by norm_num) sLowLt
    (by omega)
  rw [toNat_reducedP64, toNat_folded s.low (by rwa [scaled]), scaled]
  calc
    addFolded 64 257 s.low.toNat (257 * s.high.toNat) ≡
        s.low.toNat + 257 * s.high.toNat [MOD 2 ^ 64 - 257] := folded
    _ ≡ s.toNat [MOD 2 ^ 64 - 257] :=
      modEq_of_add_mul_eq (summand_eq_toNat s)
    _ = r.low.toNat + 257 * r.high.toNat := sumEq
    _ ≡ r.toNat [MOD 2 ^ 64 - 257] := modEq_of_add_mul_eq (summand_eq_toNat r)
    _ = p1.toNat * p2.toNat := product

/-- The last level is exact, for keys below the modulus and a length of one block at most. -/
theorem toNat_l3hash {k1 k2 : UInt64} (small : len.toNat < 2 ^ 62) (k1Lt : k1 < p64)
    (k2Lt : k2 < p64) :
    (l3hash p k1 k2 len).toNat =
      ((p.toNat + 2 ^ 64 * len.toNat) % (2 ^ 127 - 1) / (2 ^ 64 - 2 ^ 32) + k1.toNat) *
        ((p.toNat + 2 ^ 64 * len.toNat) % (2 ^ 127 - 1) % (2 ^ 64 - 2 ^ 32) + k2.toNat) %
          (2 ^ 64 - 257) := by
  have reduced := @toNat_reducedP127 p len small
  rcases toNat_divided (reduced.trans_lt (Nat.mod_lt _ (by norm_num))) with ⟨quotient, rest⟩
  rw [← reduced, ← quotient, ← rest, l3hash_eq, toNat_productP64]
  exact (addedP64_modEq _ k1Lt).mul (addedP64_modEq _ k2Lt)

end LastLevel

section InnerProducts

open UniversalHash Loads.Tracked

variable {kp : Vector UInt64 18} {memory : ℕ → UInt64} {mp : ℕ}

/-- The key words from an index of the array on. -/
def keyWords (kp : Vector UInt64 18) (shift index : ℕ) : ℕ :=
  kp[shift + index]!.toNat

/-- The words of a message from an index of the memory on. -/
def messageWords (memory : ℕ → UInt64) (mp index : ℕ) : ℕ :=
  (memory (mp + index)).toNat

theorem nhSum_succ (key words : ℕ → ℕ) (pairs : ℕ) :
    nhSum key words (pairs + 1) = nhSum key words pairs +
      (words (2 * pairs) + key (2 * pairs)) % 2 ^ 64 *
        ((words (2 * pairs + 1) + key (2 * pairs + 1)) % 2 ^ 64) :=
  Finset.sum_range_succ _ pairs

/-- Both sums after some pairs of words, modulo the range of the registers. -/
def Sums (kp : Vector UInt64 18) (memory : ℕ → UInt64) (mp pairs : ℕ) (sums : Halves) : Prop :=
  sums.1.toNat = nhSum (keyWords kp 0) (messageWords memory mp) pairs % 2 ^ 128 ∧
    sums.2.toNat = nhSum (keyWords kp 2) (messageWords memory mp) pairs % 2 ^ 128

theorem sums_nhBody {pairs : ℕ} {sums : Halves} (held : Sums kp memory mp pairs sums) :
    Sums kp memory mp (pairs + 1) ((nhBody kp mp (0 + 2 * pairs) sums).run memory).1 := by
  have first : ((nhBody kp mp (0 + 2 * pairs) sums).run memory).1 =
      (ADD128 sums.1 (MUL64 (memory (mp + 2 * pairs) + kp[2 * pairs]!)
        (memory (mp + 2 * pairs + 1) + kp[2 * pairs + 1]!)),
      ADD128 sums.2 (MUL64 (memory (mp + 2 * pairs) + kp[2 * pairs + 2]!)
        (memory (mp + 2 * pairs + 1) + kp[2 * pairs + 3]!))) := by
    rw [Nat.zero_add]
    rfl
  rw [first, Sums, toNat_ADD128, toNat_ADD128, toNat_MUL64, toNat_MUL64, nhSum_succ, nhSum_succ,
    held.1, held.2]
  simp only [keyWords, messageWords, UInt64.toNat_add, Nat.zero_add, Nat.mod_add_mod,
    Nat.add_assoc, Nat.add_comm 2, and_self]

theorem sums_nh_16_2 (kp : Vector UInt64 18) (memory : ℕ → UInt64) (mp nw : ℕ) :
    Sums kp memory mp ((nw + 1) / 2) ((nh_16_2 kp mp nw).run memory).1 := by
  apply @strided_induction _ _ _ _ _ (Sums kp memory mp)
  · exact ⟨rfl, rfl⟩
  · intro pairs _ sums held
    exact sums_nhBody held

/-- The loop that is unrolled to 64 bytes is the plain one over as many pairs of words. -/
theorem nh_vmac_nhbytes_2_eq (kp : Vector UInt64 18) (mp nw : ℕ) :
    nh_vmac_nhbytes_2 kp mp nw = nh_16_2 kp mp (8 * ((nw + 7) / 8)) := by
  have rounds : ∀ i sums, nhBody64 kp mp i sums = strided 2 (nhBody kp mp) 4 i sums := by
    intro i sums
    simp only [nhBody64, strided, bind_pure]
  have pairs : (8 * ((nw + 7) / 8) + 1) / 2 = 4 * ((nw + 7) / 8) := by omega
  rw [nh_16_2, pairs]
  exact strided_unrolled rounds ((nw + 7) / 8) 0 (⟨0, 0⟩, ⟨0, 0⟩)

/-- Both hashes of a block, once their registers are masked. -/
def Hashes (kp : Vector UInt64 18) (memory : ℕ → UInt64) (mp pairs : ℕ) (sums : Halves) : Prop :=
  sums.1.masked.toNat = nh (keyWords kp 0) (messageWords memory mp) pairs ∧
    sums.2.masked.toNat = nh (keyWords kp 2) (messageWords memory mp) pairs

theorem Sums.hashes {pairs : ℕ} {sums : Halves} (held : Sums kp memory mp pairs sums) :
    Hashes kp memory mp pairs sums := by
  have cut (number : ℕ) : number % 2 ^ 128 % 2 ^ 126 = number % 2 ^ 126 :=
    Nat.mod_mod_of_dvd number (Nat.pow_dvd_pow 2 (by norm_num))
  rw [Hashes, toNat_masked, toNat_masked, held.1, held.2, cut, cut]
  exact ⟨rfl, rfl⟩

end InnerProducts

section Builds

/-- A word with the bits of `mpoly` only. -/
def IsPolyWord (word : UInt64) : Prop :=
  word &&& mpoly = word

theorem IsPolyWord.lt {word : UInt64} (masked : IsPolyWord word) : word.toNat < 2 ^ 61 := by
  rw [← masked, UInt64.toNat_and]
  exact Nat.and_le_right.trans_lt (by decide)

/-- What the parts of a build compute, whatever they keep in their registers. -/
structure Build.Computes (build : Build) : Prop where
  nh_16_2 : ∀ kp memory mp pairs, pairs ≤ 8 →
    Hashes kp memory mp pairs ((build.nh_16_2 kp mp (2 * pairs)).run memory).1
  nh_vmac_nhbytes_2 : ∀ kp memory mp,
    Hashes kp memory mp 8 ((build.nh_vmac_nhbytes_2 kp mp 16).run memory).1
  poly_step : ∀ {a k m : Registers}, IsPolyWord k.high → IsPolyWord k.low →
    m.high.toNat < 2 ^ 62 →
      (build.poly_step a k m).toNat ≡ a.toNat * k.toNat + m.toNat [MOD 2 ^ 127 - 1]

theorem computes_wide : Build.wide.Computes where
  nh_16_2 kp memory mp pairs _ := by
    have held := sums_nh_16_2 kp memory mp (2 * pairs)
    have count : (2 * pairs + 1) / 2 = pairs := by omega
    rw [count] at held
    exact held.hashes
  nh_vmac_nhbytes_2 kp memory mp := by
    have held := sums_nh_16_2 kp memory mp 16
    rw [← nh_vmac_nhbytes_2_eq kp mp 16] at held
    exact held.hashes
  poly_step high low := poly_step_modEq high.lt low.lt

end Builds

end Vmac

end KeyValueClusterPerf
