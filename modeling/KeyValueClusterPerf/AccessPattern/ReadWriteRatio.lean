import KeyValueClusterPerf.AccessPattern.Basic

/-!
# The ratio of reads and writes

The patterns that mix reads and writes turn the configured ratio `r` into the border
`r / (1 + r)`, and an access is a read unless `rand() / RAND_MAX` is above the border. But
the ratio is stored in an `int` first, so that its fraction is lost. Without rounding in
the divisions, the number of random numbers that make a read is as configured, up to one,
exactly if the fraction is small compared to what a whole ratio leaves of this margin.
-/

namespace KeyValueClusterPerf

open Texts Doubles CheckedInts

theorem toInt_maxValue : Int32.maxValue.toInt = 2147483647 := rfl

theorem toInt_RAND_MAX : RAND_MAX.toInt = 2147483647 := rfl

/-- The division of doubles without its rounding. -/
def exactQuotient (dividend divisor : ℤ) : Double :=
  .finite (dividend / divisor)

theorem truncate_finite {ratio : ℚ} (natural : 0 ≤ ratio)
    (bounded : ratio ≤ Int32.maxValue.toInt) :
    ∃ whole : Int32, (Double.finite ratio).truncate = some whole ∧ whole.toInt = ⌊ratio⌋ := by
  have floorEq : ratio.num.tdiv ratio.den = ⌊ratio⌋ := by
    rw [Int.tdiv_eq_ediv_of_nonneg (Rat.num_nonneg.mpr natural), Rat.floor_def']
  have minimal : Int32.minValue.toInt ≤ 0 := by decide
  have upper : ⌊ratio⌋ ≤ Int32.maxValue.toInt := by
    have lifted := (Int.floor_le ratio).trans bounded
    exact_mod_cast lifted
  rcases exists_checked (minimal.trans (Int.floor_nonneg.mpr natural)) upper with
    ⟨whole, wholeEq, valueEq⟩
  refine ⟨whole, ?_, valueEq⟩
  rw [Double.truncate, floorEq]
  exact wholeEq

namespace MixedPattern

/-- The values of the first random number with which the next access is a read. -/
def readingRands (divide : ℤ → ℤ → Double) (pattern : MixedPattern) : Set Rand :=
  {random | pattern.reads divide random = true}

/-- The reads are as many as the ratio asks for, up to one. -/
def RatioKept (divide : ℤ → ℤ → Double) (pattern : MixedPattern) (ratio : ℚ) : Prop :=
  |((pattern.readingRands divide).ncard : ℚ) -
    (RAND_MAX.toInt + 1) * ratio / (1 + ratio)| ≤ 1

variable {pattern : MixedPattern} {whole : ℤ}

theorem reads_iff (natural : 0 ≤ whole)
    (border : pattern.readWriteBorder = exactQuotient whole (1 + whole)) (random : Rand) :
    pattern.reads exactQuotient random = true ↔
      random.value.toInt ≤ RAND_MAX.toInt * whole / (1 + whole) := by
  have greatestPositive : (0 : ℚ) < RAND_MAX.toInt := by
    have positive : 0 < RAND_MAX.toInt := by decide
    exact_mod_cast positive
  have divisorPositive : (0 : ℚ) < ((1 + whole : ℤ) : ℚ) := by
    have positive : 0 < 1 + whole := by omega
    exact_mod_cast positive
  have compared : pattern.reads exactQuotient random = true ↔
      (random.value.toInt / RAND_MAX.toInt : ℚ) ≤ whole / ((1 + whole : ℤ) : ℚ) := by
    simp [MixedPattern.reads, border, exactQuotient, Double.gt]
  rw [compared, div_le_div_iff₀ greatestPositive divisorPositive,
    Int.le_ediv_iff_mul_le (by omega : 0 < 1 + whole), mul_comm (whole : ℚ)]
  exact_mod_cast Iff.rfl

theorem last_le (natural : 0 ≤ whole) :
    RAND_MAX.toInt * whole / (1 + whole) ≤ RAND_MAX.toInt := by
  have greatestNatural : 0 ≤ RAND_MAX.toInt := by decide
  apply Int.ediv_le_of_le_mul (by omega)
  exact mul_le_mul_of_nonneg_left (by omega) greatestNatural

theorem ncard_readingRands (natural : 0 ≤ whole)
    (border : pattern.readWriteBorder = exactQuotient whole (1 + whole)) :
    ((pattern.readingRands exactQuotient).ncard : ℤ) =
      RAND_MAX.toInt * whole / (1 + whole) + 1 := by
  have greatestNatural : 0 ≤ RAND_MAX.toInt := by decide
  have lastNatural : 0 ≤ RAND_MAX.toInt * whole / (1 + whole) :=
    Int.ediv_nonneg (mul_nonneg greatestNatural natural) (by omega)
  have lastLe := last_le natural
  have injective : Function.Injective fun random : Rand => random.value.toInt := by
    rintro ⟨first, _, _⟩ ⟨second, _, _⟩ same
    rcases Int32.toInt_inj.mp same with rfl
    rfl
  have values : (fun random : Rand => random.value.toInt) '' pattern.readingRands exactQuotient =
      Finset.Icc 0 (RAND_MAX.toInt * whole / (1 + whole)) := by
    ext value
    simp only [Set.mem_image, Finset.coe_Icc, Set.mem_Icc]
    constructor
    · rintro ⟨random, isRead, rfl⟩
      exact ⟨random.natural, (reads_iff natural border random).mp isRead⟩
    · rintro ⟨valueNatural, valueLe⟩
      have minimal : Int32.minValue.toInt ≤ 0 := by decide
      have greatest : RAND_MAX.toInt = Int32.maxValue.toInt := rfl
      rcases exists_checked (minimal.trans valueNatural) (by omega) with ⟨random, _, randomValue⟩
      refine ⟨⟨random, by omega, by omega⟩, ?_, randomValue⟩
      exact (reads_iff natural border _).mpr (by dsimp only; omega)
  rw [← Set.ncard_image_of_injective _ injective, values, Set.ncard_coe_finset, Int.card_Icc]
  omega

end MixedPattern

/-- The fraction of a ratio fits into the margin that its whole part leaves. -/
def SmallFraction (ratio : ℚ) : Prop :=
  (RAND_MAX.toInt + 1) * Int.fract ratio ≤
    (⌊ratio⌋ + 2 - (RAND_MAX.toInt * ⌊ratio⌋ % (1 + ⌊ratio⌋) : ℤ)) * (1 + ratio)

/-- A ratio without a fraction leaves a margin. -/
theorem smallFraction_natCast (whole : ℕ) : SmallFraction whole := by
  have divisorPositive : (0 : ℤ) < 1 + whole := by omega
  have rest := Int.emod_lt_of_pos (RAND_MAX.toInt * whole) divisorPositive
  have margin : (0 : ℚ) ≤ whole + 2 - (RAND_MAX.toInt * whole % (1 + whole) : ℤ) := by
    have lifted : ((RAND_MAX.toInt * whole % (1 + whole) : ℤ) : ℚ) < ((1 + whole : ℤ) : ℚ) := by
      exact_mod_cast rest
    push_cast at lifted ⊢
    linarith
  rw [SmallFraction, Int.fract_natCast, mul_zero, Int.floor_natCast]
  exact mul_nonneg (by exact_mod_cast margin) (by positivity)

/--
The arithmetic of the border: `last` is the last random number that makes a read, the whole
quotient of `greatest * whole` by `1 + whole`, and `rest` the remainder.
-/
theorem abs_sub_le_one_iff {ratio whole greatest last rest : ℚ} (wholeNatural : 0 ≤ whole)
    (wholeLe : whole ≤ ratio) (restNatural : 0 ≤ rest) (lastLe : last ≤ greatest)
    (division : (1 + whole) * last + rest = greatest * whole) :
    |last + 1 - (greatest + 1) * ratio / (1 + ratio)| ≤ 1 ↔
      (greatest + 1) * (ratio - whole) ≤ (whole + 2 - rest) * (1 + ratio) := by
  have ratioPositive : 0 < 1 + ratio := by linarith
  have wholePositive : 0 < 1 + whole := by linarith
  -- There are never too many reads: the truncated ratio is not above the configured one.
  have upper : last ≤ (greatest + 1) * ratio / (1 + ratio) := by
    rw [le_div_iff₀ ratioPositive]
    have monotone := mul_le_mul_of_nonneg_left wholeLe (by linarith : 0 ≤ greatest + 1 - last)
    linarith
  -- Multiplied by both divisors, the other bound is the stated one.
  have scaled : ((last + 2) * (1 + ratio) - (greatest + 1) * ratio) * (1 + whole) =
      (whole + 2 - rest) * (1 + ratio) - (greatest + 1) * (ratio - whole) := by
    linear_combination (1 + ratio) * division
  have lower : (greatest + 1) * ratio / (1 + ratio) ≤ last + 2 ↔
      (greatest + 1) * (ratio - whole) ≤ (whole + 2 - rest) * (1 + ratio) := by
    rw [div_le_iff₀ ratioPositive, ← sub_nonneg, ← mul_nonneg_iff_of_pos_right wholePositive,
      scaled, sub_nonneg]
  rw [← lower, abs_le]
  constructor
  · rintro ⟨below, _⟩
    linarith
  · intro below
    constructor
    · linarith
    · linarith

namespace MixedPattern

variable {pattern : MixedPattern} {ratio : ℚ}

theorem ratioKept_iff (natural : 0 ≤ ratio)
    (border : pattern.readWriteBorder = exactQuotient ⌊ratio⌋ (1 + ⌊ratio⌋)) :
    pattern.RatioKept exactQuotient ratio ↔ SmallFraction ratio := by
  have floorNatural := Int.floor_nonneg.mpr natural
  have counted := ncard_readingRands floorNatural border
  have lastLe : RAND_MAX.toInt * ⌊ratio⌋ / (1 + ⌊ratio⌋) ≤ RAND_MAX.toInt :=
    last_le floorNatural
  have restNatural : 0 ≤ RAND_MAX.toInt * ⌊ratio⌋ % (1 + ⌊ratio⌋) :=
    Int.emod_nonneg _ (by omega)
  have division := Int.mul_ediv_add_emod (RAND_MAX.toInt * ⌊ratio⌋) (1 + ⌊ratio⌋)
  rw [RatioKept, SmallFraction, ← Int.self_sub_floor, ← Int.cast_natCast, counted, Int.cast_add,
    Int.cast_one]
  apply abs_sub_le_one_iff
  · exact_mod_cast floorNatural
  · exact Int.floor_le ratio
  · exact_mod_cast restNatural
  · exact_mod_cast lastLe
  · exact_mod_cast division

theorem exists_construct {config : AccessConfiguration}
    (configured : config.accessPatternReadWriteRatio = .finite ratio) (natural : 0 ≤ ratio)
    (bounded : ratio ≤ Int32.maxValue.toInt) :
    ∃ pattern, construct exactQuotient config = some pattern ∧
      pattern.readWriteBorder = exactQuotient ⌊ratio⌋ (1 + ⌊ratio⌋) := by
  rcases truncate_finite natural bounded with ⟨whole, truncated, wholeEq⟩
  refine ⟨⟨.construct config, exactQuotient whole.toInt (1 + whole.toInt)⟩, ?_, ?_⟩
  · rw [construct, configured, truncated]
    rfl
  · rw [wholeEq]

/-- The first random number decides whether the next access is a read. -/
theorem read_of_getNext {divide : ℤ → ℤ → Double} {valueDistribution : ConstantValueDistribution}
    {rands later : Stream' Rand} {singleAccess : SingleAccess}
    (next : pattern.getNext divide valueDistribution rands = some (singleAccess, later)) :
    singleAccess.read = pattern.reads divide rands.head := by
  rw [getNext, KeyRange.access, Option.map_map, Option.map_eq_some_iff] at next
  rcases next with ⟨_, _, same⟩
  rcases Prod.mk.inj same with ⟨rfl, _⟩
  rfl

end MixedPattern

/--
The patterns with reads and writes read as often as configured exactly if the fraction that
they lose is small.
-/
theorem ratioKept_iff_smallFraction (config : AccessConfiguration) (ratio : ℚ)
    (configured : config.accessPatternReadWriteRatio = .finite ratio) (natural : 0 ≤ ratio)
    (bounded : ratio ≤ Int32.maxValue.toInt) :
    ∃ pattern : MixedPattern,
      OCDBAccessPattern.construct exactQuotient config = some ⟨pattern⟩ ∧
      RandomAccessPattern.construct exactQuotient config = some ⟨pattern⟩ ∧
      (∀ mixed ∈ [AccessPattern.OCDB ⟨pattern⟩, .Random ⟨pattern⟩],
        ∀ valueDistribution rands singleAccess later,
          mixed.getNext exactQuotient valueDistribution rands = some (singleAccess, later) →
            singleAccess.read = pattern.reads exactQuotient rands.head) ∧
      (pattern.RatioKept exactQuotient ratio ↔ SmallFraction ratio) := by
  rcases MixedPattern.exists_construct configured natural bounded with
    ⟨pattern, constructed, border⟩
  refine ⟨pattern, ?_, ?_, ?_, MixedPattern.ratioKept_iff natural border⟩
  · rw [OCDBAccessPattern.construct, constructed]
    rfl
  · rw [RandomAccessPattern.construct, constructed]
    rfl
  · intro mixed mem valueDistribution rands singleAccess later next
    simp only [List.mem_cons, List.not_mem_nil, or_false] at mem
    rcases mem with rfl | rfl
    · exact MixedPattern.read_of_getNext next
    · exact MixedPattern.read_of_getNext next

def ratioConfiguration (ratio : ℚ) : AccessConfiguration :=
  ⟨1, 1000, .finite ratio, 1000⟩

/-- A whole ratio is kept. -/
theorem ratioKept_three :
    ∃ pattern : MixedPattern,
      OCDBAccessPattern.construct exactQuotient (ratioConfiguration 3) = some ⟨pattern⟩ ∧
        pattern.RatioKept exactQuotient 3 := by
  rcases ratioKept_iff_smallFraction (ratioConfiguration 3) 3 rfl (by norm_num)
    (by norm_num [toInt_maxValue]) with ⟨pattern, constructed, _, _, kept⟩
  exact ⟨pattern, constructed, kept.mpr (smallFraction_natCast 3)⟩

/-- A ratio of 3.33 is treated as 3. -/
theorem ratio_fraction_lost :
    ∃ pattern : MixedPattern,
      OCDBAccessPattern.construct exactQuotient (ratioConfiguration (333 / 100)) =
        some ⟨pattern⟩ ∧ ¬pattern.RatioKept exactQuotient (333 / 100) := by
  have floorEq : ⌊(333 / 100 : ℚ)⌋ = 3 := by norm_num
  rcases @MixedPattern.exists_construct (333 / 100) (ratioConfiguration (333 / 100)) rfl
    (by norm_num) (by norm_num [toInt_maxValue]) with ⟨pattern, constructed, border⟩
  refine ⟨pattern, ?_, ?_⟩
  · rw [OCDBAccessPattern.construct, constructed]
    rfl
  · rw [MixedPattern.ratioKept_iff (by norm_num) border, SmallFraction, ← Int.self_sub_floor,
      floorEq]
    norm_num [toInt_RAND_MAX]

end KeyValueClusterPerf
