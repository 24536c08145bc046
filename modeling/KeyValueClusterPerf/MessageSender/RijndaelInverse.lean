import KeyValueClusterPerf.MessageSender.RijndaelKeys

/-!
# The inverse cipher of `rijndael-alg-fst.c`

The schedule of the inverse holds the round keys of the cipher in the inverse order, the ones in
the middle mixed back. Decrypting with it takes every block back that was encrypted with the same
key.
-/

namespace KeyValueClusterPerf

namespace Rijndael

open BlockCipher

section Order

theorem getElem_set (rk : Array UInt32) {i : ℕ} (within : i < rk.size) (value : UInt32)
    (index : ℕ) : (rk.set! i value)[index]! = if index = i then value else rk[index]! := by
  by_cases same : index = i
  · subst same
    rw [if_pos rfl, Array.getElem!_set!_self rk index value within]
  · rw [if_neg same, Array.getElem!_set!_ne rk i index value (Ne.symm same)]

@[simp]
theorem size_swapWords (rk : Array UInt32) (i j : ℕ) : (swapWords rk i j).size = rk.size := by
  simp [swapWords]

/-- Two round keys whose first words have changed their places. -/
def exchanged (a b count : ℕ) (word : ℕ → UInt32) (index : ℕ) : UInt32 :=
  if index % 4 < count ∧ index / 4 = b then word (4 * a + index % 4)
  else if index % 4 < count ∧ index / 4 = a then word (4 * b + index % 4)
  else word index

theorem getElem_swapWords {rk : Array UInt32} {word : ℕ → UInt32} {a b count : ℕ}
    (words : ∀ index, rk[index]! = exchanged a b count word index) (order : a < b)
    (below : count < 4) (enough : 4 * b + 4 ≤ rk.size) (index : ℕ) :
    (swapWords rk (4 * a + count) (4 * b + count))[index]! =
      exchanged a b (count + 1) word index := by
  have lower : exchanged a b count word (4 * a + count) = word (4 * a + count) := by
    have late : ¬(4 * a + count) % 4 < count := by omega
    rw [exchanged, if_neg (fun both => late both.1), if_neg (fun both => late both.1)]
  have upper : exchanged a b count word (4 * b + count) = word (4 * b + count) := by
    have late : ¬(4 * b + count) % 4 < count := by omega
    rw [exchanged, if_neg (fun both => late both.1), if_neg (fun both => late both.1)]
  rw [swapWords, getElem_set _ (by simp; omega), getElem_set _ (by omega), words, words, words,
    lower, upper]
  by_cases atUpper : index = 4 * b + count
  · have now : index % 4 < count + 1 ∧ index / 4 = b := by omega
    have place : index % 4 = count := by omega
    rw [if_pos atUpper, exchanged, if_pos now, place]
  · rw [if_neg atUpper]
    by_cases atLower : index = 4 * a + count
    · have now : index % 4 < count + 1 ∧ index / 4 = a := by omega
      have other : ¬(index % 4 < count + 1 ∧ index / 4 = b) := by omega
      have place : index % 4 = count := by omega
      rw [if_pos atLower, exchanged, if_neg other, if_pos now, place]
    · have same (round : ℕ) (either : round = a ∨ round = b) :
          (index % 4 < count + 1 ∧ index / 4 = round) ↔
            (index % 4 < count ∧ index / 4 = round) := by
        omega
      simp only [if_neg atLower, exchanged, same a (.inl rfl), same b (.inr rfl)]

/-- The array after one turn of the loop. -/
def turned (rk : Array UInt32) (i j : ℕ) : Array UInt32 :=
  swapWords (swapWords (swapWords (swapWords rk i j) (i + 1) (j + 1)) (i + 2) (j + 2)) (i + 3)
    (j + 3)

/-- One turn of the loop exchanges two round keys. -/
theorem getElem_turned (rk : Array UInt32) {a b : ℕ} (order : a < b)
    (enough : 4 * b + 4 ≤ rk.size) (index : ℕ) :
    (turned rk (4 * a) (4 * b))[index]! = exchanged a b 4 (fun index => rk[index]!) index := by
  have start (index : ℕ) : rk[index]! = exchanged a b 0 (fun index => rk[index]!) index := by
    simp [exchanged]
  have first := getElem_swapWords start order (by decide) enough
  have second := getElem_swapWords first order (by decide) (by simpa using enough)
  have third := getElem_swapWords second order (by decide) (by simpa using enough)
  exact getElem_swapWords third order (by decide) (by simpa using enough) index

theorem invertOrder_turned {i j : ℕ} (order : i < j) (rk : Array UInt32) :
    invertOrder i j rk = invertOrder (i + 4) (j - 4) (turned rk i j) := by
  rw [invertOrder, if_pos order]
  rfl

/-- What the loop does to the round keys between its two indices. -/
theorem getElem_invertOrder (a b : ℕ) (rk : Array UInt32) (enough : 4 * b + 4 ≤ rk.size) :
    (invertOrder (4 * a) (4 * b) rk).size = rk.size ∧
      ∀ index, (invertOrder (4 * a) (4 * b) rk)[index]! =
        if a ≤ index / 4 ∧ index / 4 ≤ b then rk[4 * (a + b - index / 4) + index % 4]!
        else rk[index]! := by
  induction distance : b - a using Nat.strong_induction_on generalizing a b rk with
  | h distance' ih =>
      by_cases order : a < b
      · have turn : 4 * a < 4 * b := by omega
        have next : 4 * b - 4 = 4 * (b - 1) := by omega
        have kept : (turned rk (4 * a) (4 * b)).size = rk.size := by
          simp [turned]
        have inner := ih (b - 1 - (a + 1)) (by omega) (a + 1) (b - 1)
          (turned rk (4 * a) (4 * b)) (by omega) rfl
        rw [invertOrder_turned turn, next]
        refine ⟨inner.1.trans kept, ?_⟩
        intro index
        refine (inner.2 index).trans ?_
        rw [getElem_turned rk order enough, getElem_turned rk order enough]
        by_cases middle : a + 1 ≤ index / 4 ∧ index / 4 ≤ b - 1
        · have whole : a ≤ index / 4 ∧ index / 4 ≤ b := by omega
          have sum : a + 1 + (b - 1) - index / 4 = a + b - index / 4 := by omega
          have notUpper : (4 * (a + b - index / 4) + index % 4) / 4 ≠ b := by omega
          have notLower : (4 * (a + b - index / 4) + index % 4) / 4 ≠ a := by omega
          simp only [if_pos middle, if_pos whole, sum, exchanged, notUpper, notLower, and_false,
            if_false]
        · have below : index % 4 < 4 := by omega
          rw [if_neg middle]
          by_cases upper : index / 4 = b
          · have whole : a ≤ index / 4 ∧ index / 4 ≤ b := by omega
            have sum : a + b - index / 4 = a := by omega
            rw [exchanged, if_pos ⟨below, upper⟩, if_pos whole, sum]
          · have notUpper : ¬(index % 4 < 4 ∧ index / 4 = b) := fun both => upper both.2
            rw [exchanged, if_neg notUpper]
            by_cases lower : index / 4 = a
            · have whole : a ≤ index / 4 ∧ index / 4 ≤ b := by omega
              have sum : a + b - index / 4 = b := by omega
              rw [if_pos ⟨below, lower⟩, if_pos whole, sum]
            · have notLower : ¬(index % 4 < 4 ∧ index / 4 = a) := fun both => lower both.2
              have outside : ¬(a ≤ index / 4 ∧ index / 4 ≤ b) := by omega
              rw [if_neg notLower, if_neg outside]
      · have stop : ¬4 * a < 4 * b := by omega
        rw [invertOrder, if_neg stop]
        refine ⟨rfl, ?_⟩
        intro index
        by_cases middle : a ≤ index / 4 ∧ index / 4 ≤ b
        · have same : 4 * (a + b - index / 4) + index % 4 = index := by omega
          rw [if_pos middle, same]
        · rw [if_neg middle]

/-- Some words from a place on that are mixed back. -/
def mixedFrom (base count : ℕ) (word : ℕ → UInt32) (index : ℕ) : UInt32 :=
  if base ≤ index ∧ index < base + count then mixedBack (word index) else word index

theorem getElem_mixed {rk : Array UInt32} {word : ℕ → UInt32} {base count : ℕ}
    (words : ∀ index, rk[index]! = mixedFrom base count word index)
    (within : base + count < rk.size) (index : ℕ) :
    (rk.set! (base + count) (mixedBack rk[base + count]!))[index]! =
      mixedFrom base (count + 1) word index := by
  have unmixed : mixedFrom base count word (base + count) = word (base + count) := by
    rw [mixedFrom, if_neg (by omega)]
  rw [getElem_set rk within, words, words, unmixed]
  by_cases last : index = base + count
  · rw [if_pos last, mixedFrom, if_pos (by omega), last]
  · have same : (base ≤ index ∧ index < base + (count + 1)) ↔
        (base ≤ index ∧ index < base + count) := by
      omega
    simp only [if_neg last, mixedFrom, same]

/-- The loop over the middle maps its words and leaves the others. -/
theorem getElem_mixKeysBack (left base : ℕ) (rk : Array UInt32)
    (enough : base + 4 * left ≤ rk.size) (index : ℕ) :
    (mixKeysBack left base rk)[index]! =
      mixedFrom base (4 * left) (fun index => rk[index]!) index := by
  induction left generalizing base rk with
  | zero => simp [mixKeysBack, mixedFrom]
  | succ left ih =>
      have start (index : ℕ) : rk[index]! = mixedFrom base 0 (fun index => rk[index]!) index := by
        simp [mixedFrom]
      have first := getElem_mixed start (by omega)
      have second := getElem_mixed first (by simp; omega)
      have third := getElem_mixed second (by simp; omega)
      have fourth := getElem_mixed third (by simp; omega)
      refine (ih (base + 4) _ (by simp; omega)).trans ?_
      simp only [mixedFrom, Nat.zero_add] at fourth ⊢
      refine (if_congr Iff.rfl (congrArg mixedBack (fourth index)) (fourth index)).trans ?_
      by_cases done : base ≤ index ∧ index < base + 4
      · have later : ¬(base + 4 ≤ index ∧ index < base + 4 + 4 * left) := by omega
        have whole : base ≤ index ∧ index < base + 4 * (left + 1) := by omega
        rw [if_neg later, if_pos done, if_pos whole]
      · have same : (base + 4 ≤ index ∧ index < base + 4 + 4 * left) ↔
            (base ≤ index ∧ index < base + 4 * (left + 1)) := by
          omega
        simp only [if_neg done, same]

end Order

section Inverse

/-- The tables of the inverse undo the substitution, so that only the mixing is left. -/
theorem byteAt_mixedBack (word : UInt32) :
    let y0 := byteAt word.toBitVec 0
    let y1 := byteAt word.toBitVec 1
    let y2 := byteAt word.toBitVec 2
    let y3 := byteAt word.toBitVec 3
    let mixed := (mixedBack word).toBitVec
    byteAt mixed 0 = mul 14 y0 ^^^ mul 11 y1 ^^^ mul 13 y2 ^^^ mul 9 y3 ∧
      byteAt mixed 1 = mul 9 y0 ^^^ mul 14 y1 ^^^ mul 11 y2 ^^^ mul 13 y3 ∧
      byteAt mixed 2 = mul 13 y0 ^^^ mul 9 y1 ^^^ mul 14 y2 ^^^ mul 11 y3 ∧
      byteAt mixed 3 = mul 11 y0 ^^^ mul 13 y1 ^^^ mul 9 y2 ^^^ mul 14 y3 := by
  intro y0 y1 y2 y3 mixed
  have value := @entry_of_table Te4 (fun byte => scaled 1 1 1 1 (substitution byte)) Te4_computed
  have bytes (w x y z : Byte) := byteAt_append w x y z
  have lowest (byte : Byte) :
      (scaled 1 1 1 1 (substitution byte) &&& 0xff).toNat = (substitution byte).toNat := by
    rw [(toNat_indices _).2.2.2]
    exact congrArg BitVec.toNat ((bytes _ _ _ _).2.2.2.trans (mul_one _))
  have e0 := entry_of_multiples Td4_computed Td_multiples.1
  have e1 := entry_of_multiples Td4_computed Td_multiples.2.1
  have e2 := entry_of_multiples Td4_computed Td_multiples.2.2.1
  have e3 := entry_of_multiples Td4_computed Td_multiples.2.2.2
  simp only [mixed, mixedBack, entry, (toNat_indices word).1, (toNat_indices word).2.1,
    (toNat_indices word).2.2.1, (toNat_indices word).2.2.2, value, lowest, e0, e1, e2, e3,
    inverseSubstitution_substitution, UInt32.toBitVec_xor, byteAt_xor]
  simp only [scaled, (bytes _ _ _ _).1, (bytes _ _ _ _).2.1, (bytes _ _ _ _).2.2.1,
    (bytes _ _ _ _).2.2.2, y0, y1, y2, y3, and_self]

/-- A round key of words that are mixed back. -/
theorem roundKey_mixedBack {word : ℕ → UInt32} {words : ℕ → Word} {round source : ℕ}
    (mixed : ∀ column < 4, words (4 * round + column) =
      (mixedBack (word (4 * source + column))).toBitVec) :
    roundKey words round =
      aes.mix.symm (roundKey (fun index => (word index).toBitVec) source) := by
  funext row column
  have bytes := byteAt_mixedBack (word (4 * source + column))
  have spec (row : Fin 4) :
      aes.mix.symm (roundKey (fun index => (word index).toBitVec) source) row column =
        mul 14 (byteAt (word (4 * source + column)).toBitVec row) ^^^
          mul 11 (byteAt (word (4 * source + column)).toBitVec (row + 1 : Fin 4)) ^^^
          mul 13 (byteAt (word (4 * source + column)).toBitVec (row + 2 : Fin 4)) ^^^
          mul 9 (byteAt (word (4 * source + column)).toBitVec (row + 3 : Fin 4)) :=
    rfl
  rw [roundKey, mixed column column.isLt, spec]
  fin_cases row
  · exact bytes.1
  · refine bytes.2.1.trans ?_
    simp
    ac_rfl
  · refine bytes.2.2.1.trans ?_
    simp
    ac_rfl
  · refine bytes.2.2.2.trans ?_
    simp
    ac_rfl

/-- The schedule of the inverse is that of the cipher in the inverse order. -/
theorem roundKeys_inverted (rk : Array UInt32) {Nr : ℕ} (positive : 0 < Nr)
    (size : rk.size = 4 * (Nr + 1)) :
    let inverse := keyWords (mixKeysBack (Nr - 1) 4 (invertOrder 0 (4 * Nr) rk))
    roundKey inverse 0 = roundKey (keyWords rk) Nr ∧
      roundKey inverse Nr = roundKey (keyWords rk) 0 ∧
      middleKeys inverse Nr = (middleKeys (keyWords rk) Nr).reverse.map aes.mix.symm := by
  intro inverse
  have inverted := getElem_invertOrder 0 Nr rk (by omega)
  have mixed := getElem_mixKeysBack (Nr - 1) 4 (invertOrder (4 * 0) (4 * Nr) rk) (by omega)
  have word (round column : ℕ) (within : round ≤ Nr) (below : column < 4) :
      (invertOrder (4 * 0) (4 * Nr) rk)[4 * round + column]! = rk[4 * (Nr - round) + column]! := by
    have inside : 0 ≤ (4 * round + column) / 4 ∧ (4 * round + column) / 4 ≤ Nr := by omega
    have place : 4 * (0 + Nr - (4 * round + column) / 4) + (4 * round + column) % 4 =
        4 * (Nr - round) + column := by
      omega
    rw [inverted.2, if_pos inside, place]
  have outer (round : ℕ) (ends : round = 0 ∨ round = Nr) :
      roundKey inverse round = roundKey (keyWords rk) (Nr - round) := by
    funext row column
    have outside : ¬(4 ≤ 4 * round + column.val ∧ 4 * round + column.val < 4 + 4 * (Nr - 1)) := by
      omega
    have found := mixed (4 * round + column.val)
    rw [mixedFrom, if_neg outside] at found
    simp only [roundKey, inverse, keyWords]
    rw [found, word round column (by omega) column.isLt]
  refine ⟨outer 0 (.inl rfl), (outer Nr (.inr rfl)).trans (by rw [Nat.sub_self]), ?_⟩
  apply List.ext_getElem
  · simp [middleKeys]
  · intro index left right
    have below : index < Nr - 1 := by
      simpa [middleKeys] using left
    have middle := @roundKey_mixedBack (fun index => rk[index]!) inverse (index + 1)
      (Nr - (index + 1))
    have place : Nr - 1 - 1 - index + 1 = Nr - (index + 1) := by
      omega
    simp only [middleKeys, List.getElem_map, List.getElem_range, List.getElem_reverse,
      List.length_map, List.length_range, place]
    apply middle
    intro column columnBelow
    have inside : 4 ≤ 4 * (index + 1) + column ∧ 4 * (index + 1) + column < 4 + 4 * (Nr - 1) := by
      omega
    have found := mixed (4 * (index + 1) + column)
    rw [mixedFrom, if_pos inside] at found
    simp only [inverse, keyWords]
    rw [found, word (index + 1) column (by omega) columnBelow]

/-- A block that was encrypted is taken back by the inverse cipher with the same key. -/
theorem rijndaelDecrypt_rijndaelEncrypt {words : ℕ} (length : KeyLength words)
    (cipherKey : Array UInt8) (pt : Vector UInt8 16) :
    let (rk, Nr) := rijndaelKeySetupEnc cipherKey (32 * words)
    let (inverse, inverseNr) := rijndaelKeySetupDec cipherKey (32 * words)
    rijndaelDecrypt inverse inverseNr (rijndaelEncrypt rk Nr pt) = pt := by
  have ⟨rounds, scheduled⟩ := scheduled_rijndaelKeySetupEnc cipherKey length
  have ⟨half, positive⟩ := length.rounds
  have keys := roundKeys_inverted _ (Nat.succ_pos (words + 5)) scheduled.size_eq
  simp only [rijndaelKeySetupDec, rounds]
  rw [half, rijndaelDecrypt_eq _ positive, rijndaelEncrypt_eq _ positive, ← half,
    squareOf_bytesOf, keys.1, keys.2.1, keys.2.2, cipher, aes.decrypt_encrypt, bytesOf_squareOf]

theorem rijndaelDecrypt_rijndaelEncrypt_256 :
    let pt : Vector UInt8 16 := .ofFn fun index => .ofNat (17 * index)
    let (rk, Nr) := rijndaelKeySetupEnc (.ofFn fun index : Fin 32 => .ofNat index) (32 * 8)
    let (inverse, inverseNr) :=
      rijndaelKeySetupDec (.ofFn fun index : Fin 32 => .ofNat index) (32 * 8)
    rijndaelDecrypt inverse inverseNr (rijndaelEncrypt rk Nr pt) = pt :=
  rijndaelDecrypt_rijndaelEncrypt (.inr (.inr rfl)) _ _

end Inverse

end Rijndael

end KeyValueClusterPerf
