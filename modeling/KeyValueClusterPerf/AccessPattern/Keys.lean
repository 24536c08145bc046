import KeyValueClusterPerf.AccessPattern.Basic

/-!
# The keys that access patterns draw

All patterns draw the key `rand() % (maxKey - minKey) + minKey`. A range with a single key
makes the divisor zero, and bounds that are too far apart make it overflow. Between these
two extremes every draw is defined and lies in the range.
-/

namespace KeyValueClusterPerf

open Texts Doubles CheckedInts

/-- The ranges from which keys can be drawn: at least two keys and a width that is an `int`. -/
structure KeyRange.Drawable (range : KeyRange) : Prop where
  ordered : range.minKey.toInt < range.maxKey.toInt
  widthRepresentable : range.maxKey.toInt - range.minKey.toInt ≤ Int32.maxValue.toInt

/-- The arithmetic of the draw stays within `int`, and its divisor is not zero. -/
structure KeyRange.Draws (range : KeyRange) (random : Rand) : Prop where
  nonzero : range.maxKey.toInt - range.minKey.toInt ≠ 0
  lower : Int32.minValue.toInt ≤ range.maxKey.toInt - range.minKey.toInt
  upper : range.maxKey.toInt - range.minKey.toInt ≤ Int32.maxValue.toInt
  key : random.value.toInt.tmod (range.maxKey.toInt - range.minKey.toInt) +
    range.minKey.toInt ≤ Int32.maxValue.toInt

namespace KeyRange

variable {range : KeyRange}

/-- A draw is defined if its width and its key are `int`s and the width is not zero. -/
theorem key_eq_some_iff {random : Rand} {key : Int32} :
    range.key random = some key ↔ ∃ width : Int32, width.toInt ≠ 0 ∧
      width.toInt = range.maxKey.toInt - range.minKey.toInt ∧
        key.toInt = random.value.toInt.tmod width.toInt + range.minKey.toInt := by
  constructor
  · intro found
    rw [KeyRange.key] at found
    split at found
    · simp at found
    · rename_i width widthEq
      split at found
      · simp at found
      · rename_i offset offsetEq
        rcases (rem_eq_some_iff random.natural).mp offsetEq with ⟨nonzero, offsetValue⟩
        refine ⟨width, nonzero, toInt_of_checked widthEq, ?_⟩
        rw [← offsetValue]
        exact toInt_of_checked found
  · rintro ⟨width, nonzero, widthValue, keyValue⟩
    have widthEq : sub range.maxKey range.minKey = some width := checked_eq_some_iff.mpr widthValue
    rcases exists_rem_of_ne_zero random.natural nonzero with ⟨offset, offsetEq, offsetValue⟩
    rw [← offsetValue] at keyValue
    simp only [KeyRange.key, widthEq, offsetEq]
    exact checked_eq_some_iff.mpr keyValue

theorem exists_key_iff {random : Rand} :
    (∃ key, range.key random = some key) ↔ range.Draws random := by
  simp only [key_eq_some_iff]
  constructor
  · rintro ⟨key, width, nonzero, widthValue, keyValue⟩
    have lower := width.minValue_le_toInt
    have upper := width.toInt_le
    have keyUpper := key.toInt_le
    rw [widthValue] at nonzero lower upper keyValue
    exact ⟨nonzero, lower, upper, keyValue ▸ keyUpper⟩
  · rintro ⟨nonzero, lower, upper, keyUpper⟩
    have offsetNatural := Int.tmod_nonneg (range.maxKey.toInt - range.minKey.toInt) random.natural
    have lowest := range.minKey.minValue_le_toInt
    rcases exists_checked lower upper with ⟨width, _, widthValue⟩
    rcases exists_checked (lowest.trans (by omega)) keyUpper with ⟨key, _, keyValue⟩
    exact ⟨key, width, by rwa [widthValue], widthValue, by rw [widthValue, keyValue]⟩

theorem Drawable.exists_key (drawable : range.Drawable) (random : Rand) :
    ∃ key : Int32, range.key random = some key ∧ key.toInt =
      random.value.toInt % (range.maxKey.toInt - range.minKey.toInt) + range.minKey.toInt := by
  have ordered := drawable.ordered
  have lowest := range.minKey.minValue_le_toInt
  have highest := range.maxKey.toInt_le
  have minimal : Int32.minValue.toInt ≤ 0 := by decide
  have positive : 0 < range.maxKey.toInt - range.minKey.toInt := by omega
  have offsetNatural := Int.emod_nonneg random.value.toInt positive.ne'
  have offsetLt := Int.emod_lt_of_pos random.value.toInt positive
  rcases exists_checked (by omega : Int32.minValue.toInt ≤ range.maxKey.toInt - range.minKey.toInt)
    drawable.widthRepresentable with ⟨width, _, widthValue⟩
  rcases exists_checked (by omega : Int32.minValue.toInt ≤ random.value.toInt %
    (range.maxKey.toInt - range.minKey.toInt) + range.minKey.toInt) (by omega) with
    ⟨key, _, keyValue⟩
  refine ⟨key, key_eq_some_iff.mpr ⟨width, by omega, widthValue, ?_⟩, keyValue⟩
  rw [keyValue, widthValue, Int.tmod_eq_emod_of_nonneg random.natural]

theorem Drawable.key_bounds (drawable : range.Drawable) {random : Rand} {key : Int32}
    (found : range.key random = some key) :
    range.minKey.toInt ≤ key.toInt ∧ key.toInt < range.maxKey.toInt := by
  have ordered := drawable.ordered
  have positive : 0 < range.maxKey.toInt - range.minKey.toInt := by omega
  have natural := Int.emod_nonneg random.value.toInt positive.ne'
  have below := Int.emod_lt_of_pos random.value.toInt positive
  rcases drawable.exists_key random with ⟨drawn, drawnEq, valueEq⟩
  rcases Option.some.inj (drawnEq.symm.trans found) with rfl
  omega

theorem drawable_iff (random : Rand) :
    range.Drawable ↔ ∃ key : Int32, range.key random = some key ∧
      range.minKey.toInt ≤ key.toInt ∧ key.toInt ≤ range.maxKey.toInt := by
  constructor
  · intro drawable
    rcases drawable.exists_key random with ⟨key, keyEq, _⟩
    have bounds := drawable.key_bounds keyEq
    exact ⟨key, keyEq, bounds.1, bounds.2.le⟩
  · rintro ⟨key, keyEq, above, below⟩
    have draws := exists_key_iff.mp ⟨key, keyEq⟩
    have nonzero := draws.nonzero
    exact ⟨by omega, draws.upper⟩

end KeyRange

namespace AccessPattern

variable (divide : ℤ → ℤ → Double) (pattern : AccessPattern)
  (valueDistribution : ConstantValueDistribution) (rands : Stream' Rand)

/-- The random number from which the key of the next access is computed. -/
def keyRand : Rand :=
  match pattern with
  | .OCDB _ => rands.tail.head
  | .Random _ => rands.tail.head
  | .ReadOnly _ => rands.head
  | .WriteOnly _ => rands.head

def reading : Bool :=
  match pattern with
  | .OCDB pattern => pattern.reads divide rands.head
  | .Random pattern => pattern.reads divide rands.head
  | .ReadOnly _ => true
  | .WriteOnly _ => false

/-- The random numbers that the next access leaves. -/
def afterAccess : Stream' Rand :=
  match pattern with
  | .OCDB _ => rands.tail.tail
  | .Random _ => rands.tail.tail
  | .ReadOnly _ => rands.tail
  | .WriteOnly _ => rands.tail

/-- The four patterns differ in how they choose between reads and writes only. -/
theorem getNext_eq :
    pattern.getNext divide valueDistribution rands =
      (pattern.range.access (pattern.reading divide rands) valueDistribution
        (pattern.keyRand rands)).map (·, pattern.afterAccess rands) := by
  cases pattern <;> rfl

/-- The random numbers that a number of accesses leave. -/
def afterAccesses (accesses : ℕ) : Stream' Rand :=
  pattern.afterAccess^[accesses] rands

theorem afterAccesses_succ (accesses : ℕ) :
    pattern.afterAccesses rands (accesses + 1) =
      pattern.afterAccesses (pattern.afterAccess rands) accesses :=
  Function.iterate_succ_apply _ _ _

variable {divide pattern valueDistribution rands} in
theorem key_of_getNext {singleAccess : SingleAccess} {later : Stream' Rand}
    (next : pattern.getNext divide valueDistribution rands = some (singleAccess, later)) :
    ∃ key, pattern.range.key (pattern.keyRand rands) = some key ∧
      singleAccess.key = decimalInt key.toInt := by
  rw [getNext_eq, KeyRange.access, Option.map_map, Option.map_eq_some_iff] at next
  rcases next with ⟨key, keyEq, same⟩
  rcases Prod.mk.inj same with ⟨rfl, _⟩
  exact ⟨key, keyEq, rfl⟩

/-- The next access is defined, and its key is the text of an integer of the range. -/
def DrawsKey : Prop :=
  ∃ singleAccess later,
    pattern.getNext divide valueDistribution rands = some (singleAccess, later) ∧
    ∃ key : ℤ, singleAccess.key = decimalInt key ∧
      pattern.range.minKey.toInt ≤ key ∧ key ≤ pattern.range.maxKey.toInt

/-- Whatever the random numbers, a key of the range is drawn exactly from the drawable ranges. -/
theorem drawsKey_iff :
    pattern.DrawsKey divide valueDistribution rands ↔ pattern.range.Drawable := by
  rw [KeyRange.drawable_iff (pattern.keyRand rands)]
  constructor
  · rintro ⟨singleAccess, later, next, key, keyText, above, below⟩
    rcases key_of_getNext next with ⟨drawn, drawnEq, drawnText⟩
    rcases decimalInt_injective (drawnText.symm.trans keyText) with rfl
    exact ⟨drawn, drawnEq, above, below⟩
  · rintro ⟨key, keyEq, above, below⟩
    refine ⟨⟨pattern.reading divide rands, decimalInt key.toInt, valueDistribution.getNext⟩,
      pattern.afterAccess rands, ?_, key.toInt, rfl, above, below⟩
    rw [getNext_eq, KeyRange.access, keyEq]
    rfl

def someRand : Rand := ⟨7, by decide, by decide⟩

/-- A single key makes the divisor zero, and the bounds of `int` make it overflow. -/
theorem extreme_bounds_undefined :
    ¬DrawsKey Doubles.divide (.ReadOnly ⟨⟨5, 5⟩⟩) ⟨[]⟩ (Stream'.const someRand) ∧
      ¬DrawsKey Doubles.divide (.WriteOnly ⟨⟨Int32.minValue, Int32.maxValue⟩⟩) ⟨[]⟩
        (Stream'.const someRand) := by
  constructor
  · rintro ⟨_, _, next, _⟩
    rcases key_of_getNext next with ⟨key, keyEq, _⟩
    have undefined : KeyRange.key ⟨5, 5⟩ someRand = none := by decide
    exact absurd (undefined.symm.trans keyEq) (by simp)
  · rintro ⟨_, _, next, _⟩
    rcases key_of_getNext next with ⟨key, keyEq, _⟩
    have undefined : KeyRange.key ⟨Int32.minValue, Int32.maxValue⟩ someRand = none := by decide
    exact absurd (undefined.symm.trans keyEq) (by simp)

end AccessPattern

end KeyValueClusterPerf
