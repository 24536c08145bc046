import KeyValueClusterPerf.AccessPattern.Simulation

/-!
# The keys that are listed and the keys that are accessed

`getInitialisationKeyValuePairs` lists the keys from `minKey` to `maxKey`, both included.
Its counter has to pass `maxKey`, so that the largest `int` must not be a key. `getNext`
draws from `minKey` on as many keys as the bounds differ by, and so never draws `maxKey`.
-/

namespace KeyValueClusterPerf

open Texts Doubles CheckedInts LastWriteWins

/-- A map that holds one value under the texts of an interval has one entry for each of them. -/
theorem size_of_constantOn {pairs : StringMap} {lower upper : ℤ} {value : Text}
    (ordered : lower ≤ upper) (constant : (storeOf pairs).ConstantOn (keyTexts lower upper) value) :
    (pairs.size : ℤ) = upper - lower := by
  have keySet : pairs.keys.toFinset = (Finset.Ico lower upper).image decimalInt := by
    ext key
    have present := constant.isSome_iff key
    rw [storeOf, Std.ExtTreeMap.isSome_getElem?_iff_mem] at present
    rw [List.mem_toFinset, Std.ExtTreeMap.mem_keys, present]
    simp [keyTexts, eq_comm, and_assoc]
  have counted := congrArg Finset.card keySet
  rw [List.toFinset_card_of_nodup Std.ExtTreeMap.nodup_keys, Std.ExtTreeMap.length_keys,
    Finset.card_image_of_injective _ decimalInt_injective, Int.card_Ico] at counted
  omega

namespace KeyRange

/-- The counter would have to pass the largest `int`. -/
theorem initialise_maxValue {maxKey : Int32} (highest : maxKey.toInt = Int32.maxValue.toInt)
    (value : Text) (i : Int32) (pairs : StringMap) :
    initialise maxKey value i pairs = none := by
  induction i, pairs using initialise.induct maxKey value with
  | case1 i pairs inside overflow =>
      rw [initialise, if_pos inside]
      split
      · rfl
      · rename_i found
        simp [overflow] at found
  | case2 i pairs inside following incremented ih =>
      rw [initialise_of_increment pairs inside incremented]
      exact ih
  | case3 i pairs outside =>
      have bounded := i.toInt_le
      omega

end KeyRange

namespace AccessPattern

variable (divide : ℤ → ℤ → Double) (pattern : AccessPattern)
  (valueDistribution : ConstantValueDistribution)

variable {pattern} in
theorem listed_ne_of_highest (highest : pattern.range.maxKey.toInt = Int32.maxValue.toInt)
    (pairs : StringMap) :
    pattern.getInitialisationKeyValuePairs valueDistribution ≠ some pairs := by
  rw [getInitialisationKeyValuePairs_eq, KeyRange.keyValuePairs,
    KeyRange.initialise_maxValue highest]
  simp

/-- The map for the initialisation is defined and has the keys of the range, with the value. -/
def ListsKeys : Prop :=
  ∃ pairs, pattern.getInitialisationKeyValuePairs valueDistribution = some pairs ∧
    (pairs.size : ℤ) = pattern.range.maxKey.toInt - pattern.range.minKey.toInt + 1 ∧
    ∀ key value : Text, pairs[key]? = some value ↔
      key ∈ pattern.range.texts ∧ value = valueDistribution.getNext

/-- The keys of a range are listed exactly if the largest `int` is not among them. -/
theorem listsKeys_iff (ordered : pattern.range.minKey.toInt ≤ pattern.range.maxKey.toInt) :
    pattern.ListsKeys valueDistribution ↔
      pattern.range.maxKey.toInt < Int32.maxValue.toInt := by
  constructor
  · rintro ⟨pairs, listed, _⟩
    apply lt_of_le_of_ne pattern.range.maxKey.toInt_le
    intro highest
    exact listed_ne_of_highest valueDistribution highest pairs listed
  · intro belowMax
    rcases KeyRange.exists_keyValuePairs ordered belowMax valueDistribution with
      ⟨pairs, pairsEq, constant⟩
    refine ⟨pairs, ?_, ?_, constant⟩
    · rw [getInitialisationKeyValuePairs_eq, pairsEq]
    · have sized := size_of_constantOn (by omega) constant
      omega

theorem listsKeys_signed_keys : ListsKeys (.ReadOnly ⟨⟨-2, 3⟩⟩) ⟨['X', 'X']⟩ :=
  (listsKeys_iff (.ReadOnly ⟨⟨-2, 3⟩⟩) ⟨['X', 'X']⟩ (by decide)).mpr (by decide)

theorem listsKeys_undefined :
    ¬ListsKeys (.WriteOnly ⟨⟨Int32.maxValue - 1, Int32.maxValue⟩⟩) ⟨['X', 'X']⟩ := by
  rintro ⟨pairs, listed, _⟩
  exact listed_ne_of_highest _ rfl pairs listed

/-- Some random numbers make the next access one to the key. -/
def Accesses (key : Text) : Prop :=
  ∃ rands singleAccess later,
    pattern.getNext divide valueDistribution rands = some (singleAccess, later) ∧
      singleAccess.key = key

variable {divide pattern valueDistribution}

theorem key_lt_maxKey_of_accesses (drawable : pattern.range.Drawable) {key : ℤ}
    (accessed : pattern.Accesses divide valueDistribution (decimalInt key)) :
    key < pattern.range.maxKey.toInt := by
  rcases accessed with ⟨rands, singleAccess, later, next, keyText⟩
  rcases key_of_getNext next with ⟨drawn, drawnEq, drawnText⟩
  rcases decimalInt_injective (drawnText.symm.trans keyText) with rfl
  exact (drawable.key_bounds drawnEq).2

/-- The key at a distance from `minKey` is drawn with this distance as the random number. -/
theorem accesses_of_lt (drawable : pattern.range.Drawable) {key : ℤ}
    (above : pattern.range.minKey.toInt ≤ key) (below : key < pattern.range.maxKey.toInt) :
    pattern.Accesses divide valueDistribution (decimalInt key) := by
  have representable := drawable.widthRepresentable
  have minimal : Int32.minValue.toInt ≤ 0 := by decide
  have greatest : RAND_MAX.toInt = Int32.maxValue.toInt := rfl
  rcases exists_checked (by omega : Int32.minValue.toInt ≤ key - pattern.range.minKey.toInt)
    (by omega) with ⟨distance, _, distanceValue⟩
  have chosen : ∃ random : Rand, random.value.toInt = key - pattern.range.minKey.toInt :=
    ⟨⟨distance, by omega, by omega⟩, distanceValue⟩
  rcases chosen with ⟨random, randomValue⟩
  rcases drawable.exists_key random with ⟨drawn, drawnEq, drawnValue⟩
  rw [randomValue, Int.emod_eq_of_lt (by omega) (by omega)] at drawnValue
  have sameRand : pattern.keyRand (Stream'.const random) = random := by
    cases pattern <;> rfl
  refine ⟨Stream'.const random, ⟨pattern.reading divide (Stream'.const random),
    decimalInt drawn.toInt, valueDistribution.getNext⟩,
    pattern.afterAccess (Stream'.const random), ?_, ?_⟩
  · rw [AccessPattern.getNext_eq, sameRand, KeyRange.access, drawnEq]
    rfl
  · have drawnKey : drawn.toInt = key := by omega
    rw [← drawnKey]

variable (divide pattern valueDistribution)

/-- All keys of a range are listed, and all of them but `maxKey` are accessed. -/
theorem accesses_iff (ordered : pattern.range.minKey.toInt < pattern.range.maxKey.toInt)
    (narrow : pattern.range.maxKey.toInt - pattern.range.minKey.toInt < RAND_MAX.toInt) :
    (∀ pairs, pattern.getInitialisationKeyValuePairs valueDistribution = some pairs →
        ∀ key, key ∈ pairs ↔ key ∈ pattern.range.texts) ∧
      ∀ key ∈ pattern.range.texts, pattern.Accesses divide valueDistribution key ↔
        key ≠ decimalInt pattern.range.maxKey.toInt := by
  have drawable : pattern.range.Drawable := ⟨ordered, narrow.le⟩
  constructor
  · intro pairs listed key
    have belowMax : pattern.range.maxKey.toInt < Int32.maxValue.toInt := by
      apply lt_of_le_of_ne pattern.range.maxKey.toInt_le
      intro highest
      exact listed_ne_of_highest valueDistribution highest pairs listed
    rcases KeyRange.exists_keyValuePairs ordered.le belowMax valueDistribution with
      ⟨_, pairsEq, constant⟩
    rw [getInitialisationKeyValuePairs_eq, pairsEq, Option.some.injEq] at listed
    subst listed
    have present := constant.isSome_iff key
    rwa [storeOf, Std.ExtTreeMap.isSome_getElem?_iff_mem] at present
  · rintro _ ⟨key, above, notPast, rfl⟩
    constructor
    · intro accessed highest
      have below := key_lt_maxKey_of_accesses drawable accessed
      exact absurd (decimalInt_injective highest) below.ne
    · intro distinct
      apply accesses_of_lt drawable above
      apply lt_of_le_of_ne (by omega)
      rintro rfl
      exact distinct rfl

/-- The pattern of a configuration with the keys from 1 to 1000. -/
def thousandKeys : AccessPattern := .OCDB ⟨⟨⟨1, 1000⟩, .finite (3 / 4)⟩⟩

theorem accesses_iff_thousandKeys :
    thousandKeys.Accesses Doubles.divide ⟨['X']⟩ (decimalInt 999) := by
  apply ((accesses_iff Doubles.divide thousandKeys ⟨['X']⟩ (by decide) (by decide)).2 _ _).mpr
  · intro same
    exact absurd (decimalInt_injective same) (by decide)
  · exact ⟨999, by decide, by decide, rfl⟩

/-- The last of a thousand listed keys is never accessed. -/
theorem last_of_thousandKeys_not_accessed :
    (∃ pairs, thousandKeys.getInitialisationKeyValuePairs ⟨['X']⟩ = some pairs ∧
        decimalInt 1000 ∈ pairs) ∧
      ¬thousandKeys.Accesses Doubles.divide ⟨['X']⟩ (decimalInt 1000) := by
  constructor
  · rcases @KeyRange.exists_keyValuePairs thousandKeys.range (by decide) (by decide) ⟨['X']⟩ with
      ⟨pairs, pairsEq, constant⟩
    refine ⟨pairs, pairsEq, ?_⟩
    apply Std.ExtTreeMap.mem_iff_isSome_getElem?.mpr
    exact (constant.isSome_iff _).mpr ⟨1000, by decide, by decide, rfl⟩
  · intro accessed
    have below := key_lt_maxKey_of_accesses ⟨by decide, by decide⟩ accessed
    exact absurd below (by decide)

end AccessPattern

end KeyValueClusterPerf
