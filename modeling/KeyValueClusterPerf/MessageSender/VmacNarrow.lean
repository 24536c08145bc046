import KeyValueClusterPerf.MessageSender.VmacArithmetic

/-!
# The build of `vmac.c` for 32-bit registers

The default macros are the instructions of the wide build. The inner products and the step of the
polynomial differ from those of the wide build in what they keep in their registers, but not in
what the hash makes of it.
-/

namespace KeyValueClusterPerf

namespace Vmac

open Loads PseudoMersenne UniversalHash

section Macros

theorem toNat_MUL32 (i1 i2 : UInt32) : (MUL32 i1 i2).toNat = i1.toNat * i2.toNat := by
  have fits : i1.toNat * i2.toNat < 2 ^ 32 * 2 ^ 32 :=
    Nat.mul_lt_mul'' i1.toNat_lt i2.toNat_lt
  rw [MUL32, UInt64.toNat_mul, UInt32.toNat_toUInt64, UInt32.toNat_toUInt64]
  exact Nat.mod_eq_of_lt fits

theorem Default.ADD128_eq : Default.ADD128 = Vmac.ADD128 := by
  funext target summand
  simp only [Default.ADD128, Vmac.ADD128]
  split
  · congr 1
    rw [UInt64.add_assoc, UInt64.add_assoc, UInt64.add_comm 1]
  · rw [UInt64.add_zero]

/-- The halves of a word. -/
theorem toNat_halves (word : UInt64) :
    word.toNat = 2 ^ 32 * (word >>> 32).toUInt32.toNat + word.toUInt32.toNat ∧
      (word >>> 32).toUInt32.toNat = word.toNat / 2 ^ 32 := by
  have upper : (word >>> 32).toNat = word.toNat / 2 ^ 32 := toNat_shiftRight word (by decide)
  have wordLt := word.toNat_lt
  rw [UInt64.toNat_toUInt32, UInt64.toNat_toUInt32, upper]
  omega

/-- The product of two words from four products of their halves. -/
theorem product_halves (left right : UInt64) :
    left.toNat * right.toNat =
      2 ^ 64 * (MUL32 (left >>> 32).toUInt32 (right >>> 32).toUInt32).toNat +
        2 ^ 32 * ((MUL32 left.toUInt32 (right >>> 32).toUInt32).toNat +
          (MUL32 (left >>> 32).toUInt32 right.toUInt32).toNat) +
        (MUL32 left.toUInt32 right.toUInt32).toNat := by
  rw [(toNat_halves left).1, (toNat_halves right).1]
  simp only [toNat_MUL32]
  ring

/-- A word that is added in the middle of two registers. -/
theorem toNat_middleWord (word : UInt64) :
    (⟨word >>> 32, word <<< 32⟩ : Registers).toNat = 2 ^ 32 * word.toNat := by
  have upper : (word >>> 32).toNat = word.toNat / 2 ^ 32 := toNat_shiftRight word (by decide)
  have lower : (word <<< 32).toNat = word.toNat * 2 ^ 32 % 2 ^ 64 :=
    toNat_shiftLeft word (by decide)
  rw [Registers.toNat, upper, lower]
  omega

theorem Registers.toNat_injective : Function.Injective Registers.toNat := by
  intro registers other same
  have lowLt := registers.low.toNat_lt
  have otherLt := other.low.toNat_lt
  simp only [Registers.toNat] at same
  apply Registers.ext
  · apply UInt64.toNat_inj.mp
    omega
  · apply UInt64.toNat_inj.mp
    omega

theorem Registers.toNat_mk (high low : UInt64) :
    (⟨high, low⟩ : Registers).toNat = 2 ^ 64 * high.toNat + low.toNat :=
  rfl

/-- The default macro is the instruction for products. -/
theorem Default.MUL64_eq : Default.MUL64 = Vmac.MUL64 := by
  funext left right
  apply Registers.toNat_injective
  have productLt := (Vmac.MUL64 left right).toNat_lt
  rw [toNat_MUL64, product_halves] at productLt ⊢
  simp only [Default.MUL64, Default.ADD128_eq, toNat_ADD128, toNat_middleWord]
  rw [Registers.toNat_mk]
  omega

/-- So is the one for words with cleared top bits, if the sum of the mixed products fits. -/
theorem Default.PMUL64_eq {left right : UInt64}
    (fits : (MUL32 left.toUInt32 (right >>> 32).toUInt32).toNat +
      (MUL32 (left >>> 32).toUInt32 right.toUInt32).toNat < 2 ^ 64) :
    Default.PMUL64 left right = Vmac.MUL64 left right := by
  apply Registers.toNat_injective
  have productLt := (Vmac.MUL64 left right).toNat_lt
  rw [toNat_MUL64, product_halves] at productLt ⊢
  simp only [Default.PMUL64, Default.ADD128_eq, toNat_ADD128, toNat_middleWord, UInt64.toNat_add]
  rw [Registers.toNat_mk]
  omega

end Macros

section InnerProducts

variable {kp : Vector UInt64 18} {memory : ℕ → UInt64} {mp shift : ℕ}

/--
The sum after some pairs of words, with the low halves of the mixed products beside it. These fit
their word as long as there are fewer than `2 ^ 31` pairs.
-/
def Collected (kp : Vector UInt64 18) (memory : ℕ → UInt64) (mp shift pairs : ℕ)
    (state : Registers × UInt64) : Prop :=
  (state.1.toNat + 2 ^ 32 * state.2.toNat) % 2 ^ 128 =
      nhSum (keyWords kp shift) (messageWords memory mp) pairs % 2 ^ 128 ∧
    state.2.toNat ≤ 2 ^ 33 * pairs

/-- What the body of `nh_16` does with two words, their keys added. -/
def collect (t1 t2 : UInt64) (state : Registers × UInt64) : Registers × UInt64 :=
  let m2 := MUL32 (t1 >>> 32).toUInt32 t2.toUInt32
  let m1 := MUL32 t1.toUInt32 (t2 >>> 32).toUInt32
  let r := Default.ADD128 state.1
    ⟨MUL32 (t1 >>> 32).toUInt32 (t2 >>> 32).toUInt32, MUL32 t1.toUInt32 t2.toUInt32⟩
  ({ r with high := r.high + ((m1 >>> 32).toUInt32.toUInt64 + (m2 >>> 32).toUInt32.toUInt64) },
    state.2 + (m1.toUInt32.toUInt64 + m2.toUInt32.toUInt64))

theorem collect_sum (t1 t2 : UInt64) {r : Registers} {t : UInt64} (small : t.toNat < 2 ^ 63) :
    ((collect t1 t2 (r, t)).1.toNat + 2 ^ 32 * (collect t1 t2 (r, t)).2.toNat) % 2 ^ 128 =
        (r.toNat + 2 ^ 32 * t.toNat + t1.toNat * t2.toNat) % 2 ^ 128 ∧
      (collect t1 t2 (r, t)).2.toNat ≤ t.toNat + 2 ^ 33 := by
  have product := product_halves t1 t2
  simp only [collect, Default.ADD128_eq]
  generalize MUL32 (t1 >>> 32).toUInt32 (t2 >>> 32).toUInt32 = h at product ⊢
  generalize MUL32 t1.toUInt32 t2.toUInt32 = l at product ⊢
  generalize MUL32 t1.toUInt32 (t2 >>> 32).toUInt32 = m1 at product ⊢
  generalize MUL32 (t1 >>> 32).toUInt32 t2.toUInt32 = m2 at product ⊢
  have added := toNat_ADD128 r ⟨h, l⟩
  generalize ADD128 r ⟨h, l⟩ = s at added ⊢
  have m1Eq := (toNat_halves m1).1
  have m2Eq := (toNat_halves m2).1
  have m1Lt := m1.toUInt32.toNat_lt
  have m2Lt := m2.toUInt32.toNat_lt
  simp only [Registers.toNat_mk, UInt64.toNat_add, UInt32.toNat_toUInt64] at added ⊢
  have sEq : s.toNat = 2 ^ 64 * s.high.toNat + s.low.toNat := rfl
  omega

theorem collected_nh_16_body {pairs : ℕ} {state : Registers × UInt64} (few : pairs < 2 ^ 30)
    (held : Collected kp memory mp shift pairs state) :
    Collected kp memory mp shift (pairs + 1)
      ((nh_16_body kp mp shift (0 + 2 * pairs) state).run memory).1 := by
  rcases state with ⟨r, t⟩
  rcases held with ⟨sum, small⟩
  have tLe : t.toNat ≤ 2 ^ 33 * pairs := small
  let t1 := memory (mp + 2 * pairs) + kp[shift + 2 * pairs]!
  let t2 := memory (mp + 2 * pairs + 1) + kp[shift + 2 * pairs + 1]!
  have body : ((nh_16_body kp mp shift (0 + 2 * pairs) (r, t)).run memory).1 =
      collect t1 t2 (r, t) := by
    rw [Nat.zero_add]
    rfl
  have term : t1.toNat * t2.toNat =
      (messageWords memory mp (2 * pairs) + keyWords kp shift (2 * pairs)) % 2 ^ 64 *
        ((messageWords memory mp (2 * pairs + 1) +
          keyWords kp shift (2 * pairs + 1)) % 2 ^ 64) := by
    simp only [t1, t2, UInt64.toNat_add, messageWords, keyWords, Nat.add_assoc]
  rcases @collect_sum t1 t2 r t (by omega) with ⟨collected, bound⟩
  rw [body, Collected, nhSum_succ, ← term, collected]
  exact ⟨Nat.ModEq.add_right _ sum, by omega⟩

theorem toNat_nh_16 (kp : Vector UInt64 18) (memory : ℕ → UInt64) (mp shift : ℕ) {pairs : ℕ}
    (few : pairs ≤ 2 ^ 30) :
    ((nh_16 kp mp shift (2 * pairs)).run memory).1.toNat =
      nhSum (keyWords kp shift) (messageWords memory mp) pairs % 2 ^ 128 := by
  have count : (2 * pairs + 1) / 2 = pairs := by omega
  have collected : Collected kp memory mp shift pairs
      ((Tracked.strided 2 (nh_16_body kp mp shift) pairs 0 (⟨0, 0⟩, 0)).run memory).1 := by
    apply @Tracked.strided_induction _ _ _ _ _ (Collected kp memory mp shift)
    · exact ⟨rfl, Nat.zero_le _⟩
    · intro done below state held
      exact collected_nh_16_body (by omega) held
  rw [nh_16, count, Tracked.value_bind]
  generalize ((Tracked.strided 2 (nh_16_body kp mp shift) pairs 0 (⟨0, 0⟩, 0)).run memory).1 =
    state at collected ⊢
  change (Default.ADD128 state.1 ⟨state.2 >>> 32, state.2 <<< 32⟩).toNat = _
  rw [Default.ADD128_eq, toNat_ADD128, toNat_middleWord]
  exact collected.1

theorem sums_nh_16_twice (kp : Vector UInt64 18) (memory : ℕ → UInt64) (mp : ℕ) {pairs : ℕ}
    (few : pairs ≤ 2 ^ 30) :
    Sums kp memory mp pairs ((nh_16_twice kp mp (2 * pairs)).run memory).1 :=
  ⟨toNat_nh_16 kp memory mp 0 few, toNat_nh_16 kp memory mp 2 few⟩

end InnerProducts

section Polynomial

variable {a k m : Registers}

theorem IsPolyWord.halves {word : UInt64} (masked : IsPolyWord word) :
    (word >>> 32).toUInt32.toNat < 2 ^ 29 ∧ word.toUInt32.toNat < 2 ^ 29 := by
  have upper := (toNat_halves word).2
  have lower : word.toUInt32.toNat = word.toNat % 2 ^ 32 := UInt64.toNat_toUInt32 word
  have below := masked.lt
  have cut : word.toNat % 2 ^ 32 = word.toNat % 2 ^ 32 &&& mpoly.toNat % 2 ^ 32 := by
    calc
      word.toNat % 2 ^ 32 = (word &&& mpoly).toNat % 2 ^ 32 := by rw [masked]
      _ = (word.toNat &&& mpoly.toNat) % 2 ^ 32 := by rw [UInt64.toNat_and]
      _ = word.toNat % 2 ^ 32 &&& mpoly.toNat % 2 ^ 32 := Nat.and_mod_two_pow
  have small : word.toNat % 2 ^ 32 ≤ mpoly.toNat % 2 ^ 32 := by
    rw [cut]
    exact Nat.and_le_right
  have mpolyEq : mpoly.toNat % 2 ^ 32 = 2 ^ 29 - 1 := by decide
  omega

/-- A product with a part of the key leaves room for seven more of its kind. -/
theorem toNat_MUL32_lt (part : UInt32) {keyPart : UInt32} (small : keyPart.toNat < 2 ^ 29) :
    (MUL32 part keyPart).toNat < 2 ^ 61 := by
  rw [toNat_MUL32]
  have product : part.toNat * keyPart.toNat < 2 ^ 32 * 2 ^ 29 :=
    Nat.mul_lt_mul'' part.toNat_lt small
  omega

/-- A word from two halves, what the upper one has beyond 32 bits is cut off. -/
theorem toNat_or_shiftLeft (upper : UInt64) {lower : UInt64} (lowerLt : lower.toNat < 2 ^ 32) :
    (upper <<< 32 ||| lower).toNat = 2 ^ 32 * (upper.toNat % 2 ^ 32) + lower.toNat := by
  have shifted : (upper <<< 32).toNat = (upper.toNat % 2 ^ 32) <<< 32 := by
    rw [toNat_shiftLeft upper (by decide), Nat.shiftLeft_eq]
    have shift : (32 : UInt64).toNat = 32 := rfl
    rw [shift]
    omega
  rw [UInt64.toNat_or, shifted, ← Nat.shiftLeft_add_eq_or_of_lt lowerLt, Nat.shiftLeft_eq,
    Nat.mul_comm]

/-- Where the sum of words does not wrap. -/
theorem toNat_add_of_lt {left right : UInt64} (fits : left.toNat + right.toNat < 2 ^ 64) :
    (left + right).toNat = left.toNat + right.toNat := by
  rw [UInt64.toNat_add]
  exact Nat.mod_eq_of_lt fits

/-- The product of two numbers from the products of their parts, modulo `2 ^ 127 - 1`. -/
theorem product_parts (a k : Registers) :
    a.toNat * k.toNat =
      (MUL32 a.low.toUInt32 k.low.toUInt32).toNat +
      2 ^ 32 * ((MUL32 a.low.toUInt32 (k.low >>> 32).toUInt32).toNat +
        (MUL32 (a.low >>> 32).toUInt32 k.low.toUInt32).toNat) +
      2 ^ 64 * ((MUL32 a.low.toUInt32 k.high.toUInt32).toNat +
        (MUL32 (a.low >>> 32).toUInt32 (k.low >>> 32).toUInt32).toNat +
        (MUL32 a.high.toUInt32 k.low.toUInt32).toNat) +
      2 ^ 96 * ((MUL32 a.low.toUInt32 (k.high >>> 32).toUInt32).toNat +
        (MUL32 (a.low >>> 32).toUInt32 k.high.toUInt32).toNat +
        (MUL32 a.high.toUInt32 (k.low >>> 32).toUInt32).toNat +
        (MUL32 (a.high >>> 32).toUInt32 k.low.toUInt32).toNat) +
      2 ^ 128 * ((MUL32 (a.low >>> 32).toUInt32 (k.high >>> 32).toUInt32).toNat +
        (MUL32 a.high.toUInt32 k.high.toUInt32).toNat +
        (MUL32 (a.high >>> 32).toUInt32 (k.low >>> 32).toUInt32).toNat) +
      2 ^ 160 * ((MUL32 a.high.toUInt32 (k.high >>> 32).toUInt32).toNat +
        (MUL32 (a.high >>> 32).toUInt32 k.high.toUInt32).toNat) +
      2 ^ 192 * (MUL32 (a.high >>> 32).toUInt32 (k.high >>> 32).toUInt32).toNat := by
  rw [Registers.toNat, Registers.toNat, (toNat_halves a.low).1, (toNat_halves a.high).1,
    (toNat_halves k.low).1, (toNat_halves k.high).1]
  simp only [toNat_MUL32]
  ring

/-- What `poly_step_func` adds up from `2 ^ 64` on, cut at 63 bits. -/
theorem toNat_upperSums {x33 mh x02 x11 x20 x03 x12 x21 x30 : UInt64} (b33 : x33.toNat < 2 ^ 61)
    (mhLt : mh.toNat < 2 ^ 62) (b02 : x02.toNat < 2 ^ 61) (b11 : x11.toNat < 2 ^ 61)
    (b20 : x20.toNat < 2 ^ 61) (b03 : x03.toNat < 2 ^ 61) (b12 : x12.toNat < 2 ^ 61)
    (b21 : x21.toNat < 2 ^ 61) (b30 : x30.toNat < 2 ^ 61) :
    let w0 := x33 + x33 + mh + x02 + x11 + x20
    let w1 := w0 >>> 32 + x03 + x12 + x21 + x30
    let t := w0.toUInt32.toUInt64 ||| (w1.toUInt32 &&& 0x7fffffff).toUInt64 <<< 32
    t.toNat < 2 ^ 63 ∧ (w1 >>> 31).toNat < 2 ^ 33 ∧
      t.toNat + 2 ^ 63 * (w1 >>> 31).toNat =
        2 * x33.toNat + mh.toNat + x02.toNat + x11.toNat + x20.toNat +
          2 ^ 32 * (x03.toNat + x12.toNat + x21.toNat + x30.toNat) := by
  intro w0 w1 t
  have w0Eq : w0.toNat =
      2 * x33.toNat + mh.toNat + x02.toNat + x11.toNat + x20.toNat := by
    simp only [w0, UInt64.toNat_add]
    omega
  have w1Eq : w1.toNat = w0.toNat / 2 ^ 32 + x03.toNat + x12.toNat + x21.toNat + x30.toNat := by
    have carried : (w0 >>> 32).toNat = w0.toNat / 2 ^ 32 := toNat_shiftRight w0 (by decide)
    have w0Lt := w0.toNat_lt
    simp only [w1, UInt64.toNat_add, carried]
    omega
  have carried : (w1 >>> 31).toNat = w1.toNat / 2 ^ 31 := toNat_shiftRight w1 (by decide)
  have low : w0.toUInt32.toUInt64.toNat = w0.toNat % 2 ^ 32 := by
    rw [UInt32.toNat_toUInt64, UInt64.toNat_toUInt32]
  have middle : (w1.toUInt32 &&& 0x7fffffff).toUInt64.toNat = w1.toNat % 2 ^ 31 := by
    have mask : (0x7fffffff : UInt32).toNat = 2 ^ 31 - 1 := rfl
    rw [UInt32.toNat_toUInt64, UInt32.toNat_and, UInt64.toNat_toUInt32, mask,
      Nat.and_two_pow_sub_one_eq_mod]
    omega
  have tEq : t.toNat = 2 ^ 32 * (w1.toNat % 2 ^ 31) + w0.toNat % 2 ^ 32 := by
    have cut : w1.toNat % 2 ^ 31 % 2 ^ 32 = w1.toNat % 2 ^ 31 := by omega
    have joined := toNat_or_shiftLeft (w1.toUInt32 &&& 0x7fffffff).toUInt64
      (low.trans_lt (Nat.mod_lt _ (Nat.two_pow_pos 32)))
    rw [middle, cut, low, UInt64.or_comm] at joined
    exact joined
  have w1Lt := w1.toNat_lt
  omega

/-- What `poly_step_func` adds up from one on, with what was cut off above. -/
theorem toNat_lowerSums {c x00 x13 x22 x31 x01 x10 x23 x32 ml : UInt64} (cLt : c.toNat < 2 ^ 33)
    (b00 : x00.toNat < 2 ^ 61) (b13 : x13.toNat < 2 ^ 61) (b22 : x22.toNat < 2 ^ 61)
    (b31 : x31.toNat < 2 ^ 61) (b01 : x01.toNat < 2 ^ 61) (b10 : x10.toNat < 2 ^ 61)
    (b23 : x23.toNat < 2 ^ 61) (b32 : x32.toNat < 2 ^ 61) :
    let w2 := c + ml.toUInt32.toUInt64 + x00 + (x13 + x22 + x31 + (x13 + x22 + x31))
    let w3 := w2 >>> 32 + (ml >>> 32).toUInt32.toUInt64 + x01 + x10 + (x23 + x32 + (x23 + x32))
    2 ^ 64 * (w3 >>> 32).toNat + (w3 <<< 32 ||| w2.toUInt32.toUInt64).toNat =
      c.toNat + ml.toNat + x00.toNat + 2 * (x13.toNat + x22.toNat + x31.toNat) +
        2 ^ 32 * (x01.toNat + x10.toNat + 2 * (x23.toNat + x32.toNat)) := by
  intro w2 w3
  have mlEq := toNat_halves ml
  have mlLt := ml.toUInt32.toNat_lt
  have mlHighLt := (ml >>> 32).toUInt32.toNat_lt
  have w2Eq : w2.toNat = c.toNat + ml.toUInt32.toNat + x00.toNat +
      2 * (x13.toNat + x22.toNat + x31.toNat) := by
    simp only [w2, UInt64.toNat_add, UInt32.toNat_toUInt64]
    omega
  have w3Eq : w3.toNat = w2.toNat / 2 ^ 32 + (ml >>> 32).toUInt32.toNat + x01.toNat + x10.toNat +
      2 * (x23.toNat + x32.toNat) := by
    have carried : (w2 >>> 32).toNat = w2.toNat / 2 ^ 32 := toNat_shiftRight w2 (by decide)
    have w2Lt := w2.toNat_lt
    simp only [w3, UInt64.toNat_add, UInt32.toNat_toUInt64, carried]
    omega
  have carried : (w3 >>> 32).toNat = w3.toNat / 2 ^ 32 := toNat_shiftRight w3 (by decide)
  have low : w2.toUInt32.toUInt64.toNat = w2.toNat % 2 ^ 32 := by
    rw [UInt32.toNat_toUInt64, UInt64.toNat_toUInt32]
  rw [toNat_or_shiftLeft w3 (low.trans_lt (Nat.mod_lt _ (Nat.two_pow_pos 32))), carried, low]
  omega

/-- The step for 32-bit registers, modulo `2 ^ 127 - 1`. -/
theorem poly_step_func_modEq (kHigh : IsPolyWord k.high) (kLow : IsPolyWord k.low)
    (mHigh : m.high.toNat < 2 ^ 62) :
    (poly_step_func a k m).toNat ≡ a.toNat * k.toNat + m.toNat [MOD 2 ^ 127 - 1] := by
  have bound (i : UInt32) {j : UInt32} (small : j.toNat < 2 ^ 29) := toNat_MUL32_lt i small
  have parts := product_parts a k
  have mLow := toNat_halves m.low
  have b00 := bound a.low.toUInt32 kLow.halves.2
  have b01 := bound a.low.toUInt32 kLow.halves.1
  have b02 := bound a.low.toUInt32 kHigh.halves.2
  have b03 := bound a.low.toUInt32 kHigh.halves.1
  have b10 := bound (a.low >>> 32).toUInt32 kLow.halves.2
  have b11 := bound (a.low >>> 32).toUInt32 kLow.halves.1
  have b12 := bound (a.low >>> 32).toUInt32 kHigh.halves.2
  have b13 := bound (a.low >>> 32).toUInt32 kHigh.halves.1
  have b20 := bound a.high.toUInt32 kLow.halves.2
  have b21 := bound a.high.toUInt32 kLow.halves.1
  have b22 := bound a.high.toUInt32 kHigh.halves.2
  have b23 := bound a.high.toUInt32 kHigh.halves.1
  have b30 := bound (a.high >>> 32).toUInt32 kLow.halves.2
  have b31 := bound (a.high >>> 32).toUInt32 kLow.halves.1
  have b32 := bound (a.high >>> 32).toUInt32 kHigh.halves.2
  have b33 := bound (a.high >>> 32).toUInt32 kHigh.halves.1
  simp only [poly_step_func]
  generalize MUL32 a.low.toUInt32 k.low.toUInt32 = x00 at parts b00 ⊢
  generalize MUL32 a.low.toUInt32 (k.low >>> 32).toUInt32 = x01 at parts b01 ⊢
  generalize MUL32 a.low.toUInt32 k.high.toUInt32 = x02 at parts b02 ⊢
  generalize MUL32 a.low.toUInt32 (k.high >>> 32).toUInt32 = x03 at parts b03 ⊢
  generalize MUL32 (a.low >>> 32).toUInt32 k.low.toUInt32 = x10 at parts b10 ⊢
  generalize MUL32 (a.low >>> 32).toUInt32 (k.low >>> 32).toUInt32 = x11 at parts b11 ⊢
  generalize MUL32 (a.low >>> 32).toUInt32 k.high.toUInt32 = x12 at parts b12 ⊢
  generalize MUL32 (a.low >>> 32).toUInt32 (k.high >>> 32).toUInt32 = x13 at parts b13 ⊢
  generalize MUL32 a.high.toUInt32 k.low.toUInt32 = x20 at parts b20 ⊢
  generalize MUL32 a.high.toUInt32 (k.low >>> 32).toUInt32 = x21 at parts b21 ⊢
  generalize MUL32 a.high.toUInt32 k.high.toUInt32 = x22 at parts b22 ⊢
  generalize MUL32 a.high.toUInt32 (k.high >>> 32).toUInt32 = x23 at parts b23 ⊢
  generalize MUL32 (a.high >>> 32).toUInt32 k.low.toUInt32 = x30 at parts b30 ⊢
  generalize MUL32 (a.high >>> 32).toUInt32 (k.low >>> 32).toUInt32 = x31 at parts b31 ⊢
  generalize MUL32 (a.high >>> 32).toUInt32 k.high.toUInt32 = x32 at parts b32 ⊢
  generalize MUL32 (a.high >>> 32).toUInt32 (k.high >>> 32).toUInt32 = x33 at parts b33 ⊢
  have upper := @toNat_upperSums x33 m.high x02 x11 x20 x03 x12 x21 x30 b33 mHigh b02 b11 b20 b03
    b12 b21 b30
  simp only at upper
  generalize x33 + x33 + m.high + x02 + x11 + x20 = w0 at upper ⊢
  generalize w0 >>> 32 + x03 + x12 + x21 + x30 = w1 at upper ⊢
  generalize w0.toUInt32.toUInt64 ||| (w1.toUInt32 &&& 0x7fffffff).toUInt64 <<< 32 = t at upper ⊢
  have lower := @toNat_lowerSums (w1 >>> 31) x00 x13 x22 x31 x01 x10 x23 x32 m.low (by omega) b00
    b13 b22 b31 b01 b10 b23 b32
  simp only at lower
  generalize w1 >>> 31 + m.low.toUInt32.toUInt64 + x00 + (x13 + x22 + x31 + (x13 + x22 + x31)) = w2
    at lower ⊢
  generalize w2 >>> 32 + (m.low >>> 32).toUInt32.toUInt64 + x01 + x10 +
    (x23 + x32 + (x23 + x32)) = w3 at lower ⊢
  have top : (w3 >>> 32).toNat = w3.toNat / 2 ^ 32 := toNat_shiftRight w3 (by decide)
  have w3Lt := w3.toNat_lt
  have high : (w3 >>> 32 + t).toNat = (w3 >>> 32).toNat + t.toNat :=
    toNat_add_of_lt (by omega)
  rw [Registers.toNat_mk, high]
  apply @modEq_of_add_mul_eq _ _ _ ((w1 >>> 31).toNat + 2 * (x13.toNat + x22.toNat + x31.toNat) +
    2 ^ 33 * (x23.toNat + x32.toNat) + 2 ^ 65 * x33.toNat)
  have mEq : m.toNat = 2 ^ 64 * m.high.toNat + m.low.toNat := rfl
  omega

end Polynomial

theorem computes_narrow : Build.narrow.Computes where
  nh_16_2 kp memory mp _ few := (sums_nh_16_twice kp memory mp (by omega)).hashes
  nh_vmac_nhbytes_2 kp memory mp := (@sums_nh_16_twice kp memory mp 8 (by norm_num)).hashes
  poly_step := poly_step_func_modEq

end Vmac

end KeyValueClusterPerf
