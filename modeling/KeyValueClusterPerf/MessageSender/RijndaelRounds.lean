import KeyValueClusterPerf.MessageSender.BlockCipher
import KeyValueClusterPerf.MessageSender.Rijndael

/-!
# The cipher of `rijndael-alg-fst.c` is AES

A word of the code is a column of the state. A full round looks up four bytes of different columns
in tables that hold them substituted and multiplied, so that the rows are shifted by the choice of
the columns and the column is mixed by the sum.
-/

namespace KeyValueClusterPerf

namespace Rijndael

open BlockCipher

section Words

theorem byteAt_xor (left right : Word) (row : ℕ) :
    byteAt (left ^^^ right) row = byteAt left row ^^^ byteAt right row :=
  BitVec.extractLsb'_xor

/-- The bytes of a word that is put together from four. -/
theorem byteAt_append (a b c d : Byte) :
    byteAt (a ++ b ++ c ++ d) 0 = a ∧ byteAt (a ++ b ++ c ++ d) 1 = b ∧
      byteAt (a ++ b ++ c ++ d) 2 = c ∧ byteAt (a ++ b ++ c ++ d) 3 = d := by
  refine ⟨?_, ?_, ?_, ?_⟩
  all_goals
    apply BitVec.eq_of_getLsbD_eq
    intro bit below
    simp only [byteAt, BitVec.getLsbD_extractLsb', BitVec.getLsbD_append]
    grind

/-- The indices that the code takes out of a word. -/
theorem toNat_indices (word : UInt32) :
    (word >>> 24).toNat = (byteAt word.toBitVec 0).toNat ∧
      (word >>> 16 &&& 0xff).toNat = (byteAt word.toBitVec 1).toNat ∧
      (word >>> 8 &&& 0xff).toNat = (byteAt word.toBitVec 2).toNat ∧
      (word &&& 0xff).toNat = (byteAt word.toBitVec 3).toNat := by
  have wordLt := word.toNat_lt
  have cut (number : ℕ) : number &&& 255 = number % 256 := Nat.and_two_pow_sub_one_eq_mod number 8
  refine ⟨?_, ?_, ?_, ?_⟩
  all_goals simp [byteAt, cut, Nat.shiftRight_eq_div_pow]
  omega

end Words

section Tables

/-- Four products of one byte, from the first to the last byte of a word. -/
def scaled (first second third fourth byte : Byte) : UInt32 :=
  .ofBitVec (mul first byte ++ mul second byte ++ mul third byte ++ mul fourth byte)

theorem mul_one (byte : Byte) : mul 1 byte = byte := by
  apply @forall_byte fun byte => mul 1 byte = byte
  decide +kernel

/-- A table that was computed for all bytes, at one of them. -/
theorem entry_of_table {table : Array UInt32} {value : Byte → UInt32}
    (computed : table.toList = (List.range 256).map fun number => value (.ofNat 8 number))
    (byte : Byte) : table[byte.toNat]! = value byte := by
  have below : byte.toNat < 256 := byte.isLt
  have listed : table[byte.toNat]? = some (value byte) := by
    rw [← Array.getElem?_toList, computed, List.getElem?_map, List.getElem?_range below]
    simp
  rw [getElem!_def, listed]

/-- The words of a table, multiplied by a column of the matrix. -/
def multiples (last : Array UInt32) (first second third fourth : Byte) : List UInt32 :=
  last.toList.map fun word => scaled first second third fourth (byteAt word.toBitVec 3)

/-- A table of multiples of what is in the last one. -/
theorem entry_of_multiples {table last : Array UInt32} {value : Byte → Byte}
    {first second third fourth : Byte}
    (computed : last.toList = (List.range 256).map fun number =>
      scaled 1 1 1 1 (value (.ofNat 8 number)))
    (multiplied : table.toList = multiples last first second third fourth) (byte : Byte) :
    table[byte.toNat]! = scaled first second third fourth (value byte) := by
  apply @entry_of_table _ fun byte => scaled first second third fourth (value byte)
  rw [multiplied, multiples, computed, List.map_map]
  apply List.map_congr_left
  intro number _
  simp only [Function.comp_apply]
  congr 1
  exact (byteAt_append _ _ _ _).2.2.2.trans (mul_one _)

/-- The substitutes are those of the standard. -/
theorem Te4_computed :
    Te4.toList =
      (List.range 256).map fun number => scaled 1 1 1 1 (substitution (.ofNat 8 number)) := by
  decide +kernel

theorem Td4_computed :
    Td4.toList =
      (List.range 256).map fun number =>
        scaled 1 1 1 1 (inverseSubstitution (.ofNat 8 number)) := by
  decide +kernel

theorem Te_multiples :
    Te0.toList = multiples Te4 2 1 1 3 ∧ Te1.toList = multiples Te4 3 2 1 1 ∧
      Te2.toList = multiples Te4 1 3 2 1 ∧ Te3.toList = multiples Te4 1 1 3 2 := by
  decide +kernel

theorem Td_multiples :
    Td0.toList = multiples Td4 14 9 13 11 ∧ Td1.toList = multiples Td4 11 14 9 13 ∧
      Td2.toList = multiples Td4 13 11 14 9 ∧ Td3.toList = multiples Td4 9 13 11 14 := by
  decide +kernel

end Tables

section Rounds

variable {rk : Array UInt32} {a b c d key : UInt32}

/-- A word of a full round is a column, mixed by a circulant matrix. -/
theorem byteAt_mixedWord {T0 T1 T2 T3 last : Array UInt32} {value : Byte → Byte}
    {first second third fourth : Byte}
    (computed : last.toList = (List.range 256).map fun number =>
      scaled 1 1 1 1 (value (.ofNat 8 number)))
    (multiplied : T0.toList = multiples last first second third fourth ∧
      T1.toList = multiples last fourth first second third ∧
      T2.toList = multiples last third fourth first second ∧
      T3.toList = multiples last second third fourth first) :
    let y0 := value (byteAt a.toBitVec 0)
    let y1 := value (byteAt b.toBitVec 1)
    let y2 := value (byteAt c.toBitVec 2)
    let y3 := value (byteAt d.toBitVec 3)
    let word := (mixedWord T0 T1 T2 T3 a b c d key).toBitVec
    byteAt word 0 = mul first y0 ^^^ mul fourth y1 ^^^ mul third y2 ^^^ mul second y3 ^^^
        byteAt key.toBitVec 0 ∧
      byteAt word 1 = mul second y0 ^^^ mul first y1 ^^^ mul fourth y2 ^^^ mul third y3 ^^^
        byteAt key.toBitVec 1 ∧
      byteAt word 2 = mul third y0 ^^^ mul second y1 ^^^ mul first y2 ^^^ mul fourth y3 ^^^
        byteAt key.toBitVec 2 ∧
      byteAt word 3 = mul fourth y0 ^^^ mul third y1 ^^^ mul second y2 ^^^ mul first y3 ^^^
        byteAt key.toBitVec 3 := by
  intro y0 y1 y2 y3 word
  have e0 := entry_of_multiples computed multiplied.1 (byteAt a.toBitVec 0)
  have e1 := entry_of_multiples computed multiplied.2.1 (byteAt b.toBitVec 1)
  have e2 := entry_of_multiples computed multiplied.2.2.1 (byteAt c.toBitVec 2)
  have e3 := entry_of_multiples computed multiplied.2.2.2 (byteAt d.toBitVec 3)
  have bytes (w x y z : Byte) := byteAt_append w x y z
  simp only [word, mixedWord, entry, (toNat_indices a).1, (toNat_indices b).2.1,
    (toNat_indices c).2.2.1, (toNat_indices d).2.2.2, e0, e1, e2, e3, UInt32.toBitVec_xor,
    byteAt_xor, scaled, (bytes _ _ _ _).1, (bytes _ _ _ _).2.1, (bytes _ _ _ _).2.2.1,
    (bytes _ _ _ _).2.2.2, y0, y1, y2, y3, and_self]

/-- The masks of the last round take one byte of each entry. -/
theorem byteAt_masks (word : UInt32) :
    (byteAt (word &&& 0xff000000).toBitVec 0 = byteAt word.toBitVec 0 ∧
        byteAt (word &&& 0xff000000).toBitVec 1 = 0 ∧
        byteAt (word &&& 0xff000000).toBitVec 2 = 0 ∧
        byteAt (word &&& 0xff000000).toBitVec 3 = 0) ∧
      (byteAt (word &&& 0x00ff0000).toBitVec 0 = 0 ∧
        byteAt (word &&& 0x00ff0000).toBitVec 1 = byteAt word.toBitVec 1 ∧
        byteAt (word &&& 0x00ff0000).toBitVec 2 = 0 ∧
        byteAt (word &&& 0x00ff0000).toBitVec 3 = 0) ∧
      (byteAt (word &&& 0x0000ff00).toBitVec 0 = 0 ∧
        byteAt (word &&& 0x0000ff00).toBitVec 1 = 0 ∧
        byteAt (word &&& 0x0000ff00).toBitVec 2 = byteAt word.toBitVec 2 ∧
        byteAt (word &&& 0x0000ff00).toBitVec 3 = 0) ∧
      byteAt (word &&& 0x000000ff).toBitVec 0 = 0 ∧
      byteAt (word &&& 0x000000ff).toBitVec 1 = 0 ∧
      byteAt (word &&& 0x000000ff).toBitVec 2 = 0 ∧
      byteAt (word &&& 0x000000ff).toBitVec 3 = byteAt word.toBitVec 3 := by
  have and_byte (mask : UInt32) (row : ℕ) :
      byteAt (word &&& mask).toBitVec row = byteAt word.toBitVec row &&& byteAt mask.toBitVec row :=
    BitVec.extractLsb'_and
  have all (byte : Byte) : byte &&& 0xff = byte := BitVec.and_allOnes
  simp only [and_byte]
  refine ⟨⟨?_, ?_, ?_, ?_⟩, ⟨?_, ?_, ?_, ?_⟩, ⟨?_, ?_, ?_, ?_⟩, ?_, ?_, ?_, ?_⟩
  all_goals first | exact all _ | exact BitVec.and_zero

/-- A word of the last round is a column of substitutes. -/
theorem byteAt_lastWord {last : Array UInt32} {value : Byte → Byte}
    (computed : last.toList = (List.range 256).map fun number =>
      scaled 1 1 1 1 (value (.ofNat 8 number))) :
    let word := (lastWord last a b c d key).toBitVec
    byteAt word 0 = value (byteAt a.toBitVec 0) ^^^ byteAt key.toBitVec 0 ∧
      byteAt word 1 = value (byteAt b.toBitVec 1) ^^^ byteAt key.toBitVec 1 ∧
      byteAt word 2 = value (byteAt c.toBitVec 2) ^^^ byteAt key.toBitVec 2 ∧
      byteAt word 3 = value (byteAt d.toBitVec 3) ^^^ byteAt key.toBitVec 3 := by
  intro word
  have value_eq := @entry_of_table last (fun byte => scaled 1 1 1 1 (value byte)) computed
  have bytes (w x y z : Byte) := byteAt_append w x y z
  have zero_xor (byte : Byte) : 0 ^^^ byte = byte := BitVec.zero_xor
  have xor_zero (byte : Byte) : byte ^^^ 0 = byte := BitVec.xor_zero
  simp only [word, lastWord, maskedEntry, entry, (toNat_indices a).1, (toNat_indices b).2.1,
    (toNat_indices c).2.2.1, (toNat_indices d).2.2.2, value_eq, UInt32.toBitVec_xor, byteAt_xor,
    byteAt_masks, scaled, mul_one, (bytes _ _ _ _).1, (bytes _ _ _ _).2.1, (bytes _ _ _ _).2.2.1,
    (bytes _ _ _ _).2.2.2, xor_zero, zero_xor, and_self]

/-- The words of a block are the columns of the state. -/
def Block.column (s : Block) : Fin 4 → UInt32 :=
  ![s.s0, s.s1, s.s2, s.s3]

def Block.state (s : Block) : State :=
  fun row column => byteAt (s.column column).toBitVec row

/-- A schedule as the words of round keys. -/
def keyWords (rk : Array UInt32) (index : ℕ) : Word :=
  rk[index]!.toBitVec

theorem column_encryptRound (rk : Array UInt32) (base : ℕ) (s : Block) (column : Fin 4) :
    (encryptRound rk base s).column column =
      mixedWord Te0 Te1 Te2 Te3 (s.column column) (s.column (column + 1)) (s.column (column + 2))
        (s.column (column + 3)) rk[base + column]! := by
  fin_cases column
  · rfl
  · rfl
  · rfl
  · rfl

/-- A full round of the code is a round of the standard. -/
theorem state_encryptRound (rk : Array UInt32) (round : ℕ) (s : Block) :
    (encryptRound rk (4 * round) s).state = aes.round s.state (roundKey (keyWords rk) round) := by
  funext row column
  have bytes := @byteAt_mixedWord (s.column column) (s.column (column + 1)) (s.column (column + 2))
    (s.column (column + 3)) rk[4 * round + column]! _ _ _ _ _ _ _ _ _ _ Te4_computed Te_multiples
  have spec (row : Fin 4) : aes.round s.state (roundKey (keyWords rk) round) row column =
      mul 2 (substitution (s.state row (column + row))) ^^^
        mul 3 (substitution (s.state (row + 1) (column + (row + 1)))) ^^^
        substitution (s.state (row + 2) (column + (row + 2))) ^^^
        substitution (s.state (row + 3) (column + (row + 3))) ^^^
        byteAt rk[4 * round + column]!.toBitVec row :=
    rfl
  simp only [mul_one] at bytes
  rw [Block.state, column_encryptRound, spec]
  fin_cases row
  · refine bytes.1.trans ?_
    simp [Block.state]
  · refine bytes.2.1.trans ?_
    simp [Block.state]
    ac_rfl
  · refine bytes.2.2.1.trans ?_
    simp [Block.state]
    ac_rfl
  · refine bytes.2.2.2.trans ?_
    simp [Block.state]
    ac_rfl

theorem column_decryptRound (rk : Array UInt32) (base : ℕ) (s : Block) (column : Fin 4) :
    (decryptRound rk base s).column column =
      mixedWord Td0 Td1 Td2 Td3 (s.column column) (s.column (column - 1)) (s.column (column - 2))
        (s.column (column - 3)) rk[base + column]! := by
  fin_cases column
  · rfl
  · rfl
  · rfl
  · rfl

theorem state_decryptRound (rk : Array UInt32) (round : ℕ) (s : Block) :
    (decryptRound rk (4 * round) s).state =
      aes.inverseRound s.state (roundKey (keyWords rk) round) := by
  funext row column
  have bytes := @byteAt_mixedWord (s.column column) (s.column (column - 1)) (s.column (column - 2))
    (s.column (column - 3)) rk[4 * round + column]! _ _ _ _ _ _ _ _ _ _ Td4_computed Td_multiples
  have spec (row : Fin 4) : aes.inverseRound s.state (roundKey (keyWords rk) round) row column =
      mul 14 (inverseSubstitution (s.state row (column - row))) ^^^
        mul 11 (inverseSubstitution (s.state (row + 1) (column - (row + 1)))) ^^^
        mul 13 (inverseSubstitution (s.state (row + 2) (column - (row + 2)))) ^^^
        mul 9 (inverseSubstitution (s.state (row + 3) (column - (row + 3)))) ^^^
        byteAt rk[4 * round + column]!.toBitVec row :=
    rfl
  rw [Block.state, column_decryptRound, spec]
  fin_cases row
  · refine bytes.1.trans ?_
    simp [Block.state]
  · refine bytes.2.1.trans ?_
    simp [Block.state]
    ac_rfl
  · refine bytes.2.2.1.trans ?_
    simp [Block.state]
    ac_rfl
  · refine bytes.2.2.2.trans ?_
    simp [Block.state]
    ac_rfl

end Rounds

section Blocks

variable {rk : Array UInt32}

/-- The bytes that are read as a word. -/
theorem byteAt_GETU32 (bytes : Array UInt8) (offset : ℕ) (row : Fin 4) :
    byteAt (GETU32 bytes offset).toBitVec row = bytes[offset + row]!.toBitVec := by
  have zero (byte : UInt8) (bit : ℕ) (above : 8 ≤ bit) : byte.toBitVec.getLsbD bit = false :=
    BitVec.getLsbD_of_ge byte.toBitVec bit above
  fin_cases row
  all_goals
    apply BitVec.eq_of_getLsbD_eq
    intro bit below
    simp [GETU32, byteAt, below]
    grind

/-- The bytes that are stored of a word. -/
theorem toBitVec_stores (word : UInt32) :
    (word >>> 24).toUInt8 = .ofBitVec (byteAt word.toBitVec 0) ∧
      (word >>> 16).toUInt8 = .ofBitVec (byteAt word.toBitVec 1) ∧
      (word >>> 8).toUInt8 = .ofBitVec (byteAt word.toBitVec 2) ∧
      word.toUInt8 = .ofBitVec (byteAt word.toBitVec 3) := by
  refine ⟨?_, ?_, ?_, ?_⟩
  all_goals
    apply UInt8.toBitVec_inj.mp
    apply BitVec.eq_of_getLsbD_eq
    intro bit below
    simp [byteAt]

theorem state_loaded (rk : Array UInt32) (bytes : Vector UInt8 16) :
    (loaded rk bytes).state = addRoundKey (squareOf bytes) (roundKey (keyWords rk) 0) := by
  have word (column : Fin 4) : (loaded rk bytes).column column =
      GETU32 bytes.toArray (4 * column) ^^^ rk[4 * 0 + column.val]! := by
    fin_cases column
    · rfl
    · rfl
    · rfl
    · rfl
  funext row column
  rw [Block.state, word, UInt32.toBitVec_xor, byteAt_xor, byteAt_GETU32]
  rfl

theorem stored_eq (s : Block) : stored s = bytesOf s.state := by
  rcases s with ⟨s0, s1, s2, s3⟩
  have first := toBitVec_stores s0
  have second := toBitVec_stores s1
  have third := toBitVec_stores s2
  have fourth := toBitVec_stores s3
  simp only [stored, first, second, third, fourth]
  apply Vector.ext
  intro index below
  rw [bytesOf, Vector.getElem_ofFn]
  interval_cases index
  all_goals
    simp [Block.state, Block.column, Fin.ofNat]

/-- What the last rounds of the cipher and its inverse have in common. -/
theorem state_lastEncrypt (rk : Array UInt32) (base : ℕ) (t : Block) :
    Block.state {
        s0 := lastWord Te4 t.s0 t.s1 t.s2 t.s3 rk[4 * base]!
        s1 := lastWord Te4 t.s1 t.s2 t.s3 t.s0 rk[4 * base + 1]!
        s2 := lastWord Te4 t.s2 t.s3 t.s0 t.s1 rk[4 * base + 2]!
        s3 := lastWord Te4 t.s3 t.s0 t.s1 t.s2 rk[4 * base + 3]! } =
      addRoundKey (aes.substitute t.state) (roundKey (keyWords rk) base) := by
  have word (a b c d key : UInt32) := @byteAt_lastWord a b c d key _ _ Te4_computed
  funext row column
  fin_cases column
  all_goals
    fin_cases row
    · exact (word _ _ _ _ _).1
    · exact (word _ _ _ _ _).2.1
    · exact (word _ _ _ _ _).2.2.1
    · exact (word _ _ _ _ _).2.2.2

theorem state_lastDecrypt (rk : Array UInt32) (base : ℕ) (t : Block) :
    Block.state {
        s0 := lastWord Td4 t.s0 t.s3 t.s2 t.s1 rk[4 * base]!
        s1 := lastWord Td4 t.s1 t.s0 t.s3 t.s2 rk[4 * base + 1]!
        s2 := lastWord Td4 t.s2 t.s1 t.s0 t.s3 rk[4 * base + 2]!
        s3 := lastWord Td4 t.s3 t.s2 t.s1 t.s0 rk[4 * base + 3]! } =
      addRoundKey (aes.substitute.symm t.state) (roundKey (keyWords rk) base) := by
  have word (a b c d key : UInt32) := @byteAt_lastWord a b c d key _ _ Td4_computed
  funext row column
  fin_cases column
  all_goals
    fin_cases row
    · exact (word _ _ _ _ _).1
    · exact (word _ _ _ _ _).2.1
    · exact (word _ _ _ _ _).2.2.1
    · exact (word _ _ _ _ _).2.2.2

/-- The loop of two rounds that ends between them runs through an odd number of round keys. -/
theorem state_fullRounds {round : ℕ → Block → Block} {step : State → State → State}
    {keys : ℕ → State} (single : ∀ index s, (round (4 * index) s).state = step s.state (keys index))
    (left base : ℕ) (s : Block) :
    (fullRounds round left (4 * base) s).state =
      ((List.range' (base + 1) (2 * left + 1)).map keys).foldl step s.state := by
  induction left generalizing base s with
  | zero =>
      have next := single (base + 1) s
      simpa [fullRounds, Nat.mul_add] using next
  | succ left ih =>
      have first := single (base + 1) s
      have second := single (base + 2) (round (4 * (base + 1)) s)
      have later := ih (base + 2) (round (4 * (base + 2)) (round (4 * (base + 1)) s))
      rw [second, first] at later
      rw [Nat.mul_add, Nat.add_right_comm, List.range'_succ, List.range'_succ]
      simpa [fullRounds, Nat.mul_add, Nat.add_assoc] using later

theorem middleKeys_eq (words : ℕ → Word) (half : ℕ) (positive : 0 < half) :
    (List.range' (0 + 1) (2 * (half - 1) + 1)).map (roundKey words) =
      middleKeys words (2 * half) := by
  have count : 2 * (half - 1) + 1 = 2 * half - 1 := by omega
  rw [count, List.range'_eq_map_range, List.map_map, middleKeys]
  apply List.map_congr_left
  intro round _
  simp [Nat.add_comm]

/-- The cipher of the code is the one of the standard, for the key words of an even number of
rounds. -/
theorem rijndaelEncrypt_eq (rk : Array UInt32) {half : ℕ} (positive : 0 < half)
    (pt : Vector UInt8 16) :
    rijndaelEncrypt rk (2 * half) pt = bytesOf (cipher (keyWords rk) (2 * half) (squareOf pt)) := by
  have full := state_fullRounds (state_encryptRound rk) (half - 1) 0 (loaded rk pt)
  have halved : 2 * half / 2 = half := by omega
  have base : 8 * half = 4 * (2 * half) := by omega
  rw [middleKeys_eq (keyWords rk) half positive, state_loaded] at full
  rw [rijndaelEncrypt, halved, base, stored_eq]
  apply congrArg bytesOf
  refine (state_lastEncrypt rk (2 * half) _).trans ?_
  rw [full]
  rfl

theorem rijndaelDecrypt_eq (rk : Array UInt32) {half : ℕ} (positive : 0 < half)
    (ct : Vector UInt8 16) :
    rijndaelDecrypt rk (2 * half) ct =
      bytesOf (aes.decrypt (roundKey (keyWords rk) 0) (middleKeys (keyWords rk) (2 * half))
        (roundKey (keyWords rk) (2 * half)) (squareOf ct)) := by
  have full := state_fullRounds (state_decryptRound rk) (half - 1) 0 (loaded rk ct)
  have halved : 2 * half / 2 = half := by omega
  have base : 8 * half = 4 * (2 * half) := by omega
  rw [middleKeys_eq (keyWords rk) half positive, state_loaded] at full
  rw [rijndaelDecrypt, halved, base, stored_eq]
  apply congrArg bytesOf
  refine (state_lastDecrypt rk (2 * half) _).trans ?_
  rw [full]
  rfl

end Blocks

end Rijndael

end KeyValueClusterPerf
