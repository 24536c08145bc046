import KeyValueClusterPerf.Foundations.KeyedRounds
import Mathlib

/-!
# The block cipher AES

The cipher on a square of bytes: bytes are substituted by their inverses in the field of 256
elements, rows are shifted, columns are multiplied by a matrix, and keys are added. This is what
`rijndael-alg-fst.c` is for; nothing here is taken from its code.
-/

namespace BlockCipher

abbrev Byte := BitVec 8

abbrev Word := BitVec 32

/-- Multiplication by the variable, modulo `x ^ 8 + x ^ 4 + x ^ 3 + x + 1`. -/
def xtime (number : ℕ) : ℕ :=
  bif Nat.ble 128 number then 2 * number ^^^ 0x11b else 2 * number

/-- The product of two polynomials modulo that one, by the bits of the second. -/
def product : ℕ → ℕ → ℕ → ℕ
  | 0, _, _ => 0
  | bits + 1, left, right => right % 2 * left ^^^ product bits (xtime left) (right / 2)

def mul (left right : Byte) : Byte :=
  .ofNat 8 (product 8 left.toNat right.toNat)

/-- The power with exponent 254, which is the inverse of every byte but zero. -/
def inverse (byte : Byte) : Byte :=
  let powers := (List.range 7).foldl
    (fun (power, product) _ => (mul power power, mul product (mul power power)))
    (byte, (1 : Byte))
  powers.2

def substitution (byte : Byte) : Byte :=
  let inverse := inverse byte
  inverse ^^^ inverse.rotateLeft 1 ^^^ inverse.rotateLeft 2 ^^^ inverse.rotateLeft 3 ^^^
    inverse.rotateLeft 4 ^^^ 0x63

def inverseSubstitution (byte : Byte) : Byte :=
  inverse (byte.rotateLeft 1 ^^^ byte.rotateLeft 3 ^^^ byte.rotateLeft 6 ^^^ 0x05)

/-- What holds of 256 numbers holds of every byte. -/
theorem forall_byte {holds : Byte → Prop} (checked : ∀ number : Fin 256, holds (.ofFin number))
    (byte : Byte) : holds byte :=
  checked byte.toFin

theorem mul_inverse (byte : Byte) : byte ≠ 0 → mul byte (inverse byte) = 1 := by
  apply @forall_byte fun byte => byte ≠ 0 → mul byte (inverse byte) = 1
  decide +kernel

theorem inverseSubstitution_substitution (byte : Byte) :
    inverseSubstitution (substitution byte) = byte := by
  apply @forall_byte fun byte => inverseSubstitution (substitution byte) = byte
  decide +kernel

theorem substitution_inverseSubstitution (byte : Byte) :
    substitution (inverseSubstitution byte) = byte := by
  have bijective := Finite.injective_iff_bijective.mp
    (Function.LeftInverse.injective inverseSubstitution_substitution)
  rcases bijective.surjective byte with ⟨source, rfl⟩
  rw [inverseSubstitution_substitution]

/-- The byte in a row and a column. -/
abbrev State := Fin 4 → Fin 4 → Byte

def subBytes (state : State) : State :=
  fun row column => substitution (state row column)

def shiftRows (state : State) : State :=
  fun row column => state row (column + row)

def mixColumns (state : State) : State :=
  fun row column => mul 2 (state row column) ^^^ mul 3 (state (row + 1) column) ^^^
    state (row + 2) column ^^^ state (row + 3) column

def addRoundKey (state key : State) : State :=
  fun row column => state row column ^^^ key row column

def invSubBytes (state : State) : State :=
  fun row column => inverseSubstitution (state row column)

def invShiftRows (state : State) : State :=
  fun row column => state row (column - row)

def invMixColumns (state : State) : State :=
  fun row column => mul 14 (state row column) ^^^ mul 11 (state (row + 1) column) ^^^
    mul 13 (state (row + 2) column) ^^^ mul 9 (state (row + 3) column)

section Linearity

theorem mod_two_mul_xor (left right factor : ℕ) :
    (left ^^^ right) % 2 * factor = (left % 2 * factor) ^^^ (right % 2 * factor) := by
  have bits : (left ^^^ right) % 2 = (left % 2) ^^^ (right % 2) := Nat.xor_mod_two_pow (n := 1)
  rw [bits]
  rcases Nat.mod_two_eq_zero_or_one left with zero | one
  · simp [zero]
  · rcases Nat.mod_two_eq_zero_or_one right with otherZero | otherOne
    · simp [one, otherZero]
    · simp [one, otherOne]

theorem product_xor (bits factor left right : ℕ) :
    product bits factor (left ^^^ right) =
      product bits factor left ^^^ product bits factor right := by
  induction bits generalizing factor left right with
  | zero => exact (Nat.xor_self 0).symm
  | succ bits ih =>
      have halves : (left ^^^ right) / 2 = left / 2 ^^^ right / 2 := Nat.xor_div_two
      rw [product, product, product, mod_two_mul_xor, halves, ih]
      ac_rfl

/-- A product is linear in its second factor. -/
theorem mul_xor (factor left right : Byte) :
    mul factor (left ^^^ right) = mul factor left ^^^ mul factor right := by
  rw [mul, BitVec.toNat_xor, product_xor, mul, mul]
  apply BitVec.eq_of_toNat_eq
  simp

theorem mixColumns_addRoundKey (state key : State) :
    mixColumns (addRoundKey state key) = addRoundKey (mixColumns state) (mixColumns key) := by
  funext row column
  simp only [mixColumns, addRoundKey, mul_xor]
  ac_rfl

end Linearity

section Inverses

/-- The products of the two matrices, one entry for each offset of the rows. -/
theorem invMix_mix (byte : Byte) :
    mul 14 (mul 2 byte) ^^^ mul 11 byte ^^^ mul 13 byte ^^^ mul 9 (mul 3 byte) = byte ∧
      mul 14 (mul 3 byte) ^^^ mul 11 (mul 2 byte) ^^^ mul 13 byte ^^^ mul 9 byte = 0 ∧
      mul 14 byte ^^^ mul 11 (mul 3 byte) ^^^ mul 13 (mul 2 byte) ^^^ mul 9 byte = 0 ∧
      mul 14 byte ^^^ mul 11 byte ^^^ mul 13 (mul 3 byte) ^^^ mul 9 (mul 2 byte) = 0 := by
  apply @forall_byte fun byte =>
    mul 14 (mul 2 byte) ^^^ mul 11 byte ^^^ mul 13 byte ^^^ mul 9 (mul 3 byte) = byte ∧
      mul 14 (mul 3 byte) ^^^ mul 11 (mul 2 byte) ^^^ mul 13 byte ^^^ mul 9 byte = 0 ∧
      mul 14 byte ^^^ mul 11 (mul 3 byte) ^^^ mul 13 (mul 2 byte) ^^^ mul 9 byte = 0 ∧
      mul 14 byte ^^^ mul 11 byte ^^^ mul 13 (mul 3 byte) ^^^ mul 9 (mul 2 byte) = 0
  decide +kernel

theorem invMixColumns_mixColumns (state : State) : invMixColumns (mixColumns state) = state := by
  funext row column
  simp only [invMixColumns, mixColumns, mul_xor, add_assoc]
  simp only [Fin.isValue, Fin.reduceAdd, add_zero]
  generalize state row column = a
  generalize state (row + 1) column = b
  generalize state (row + 2) column = c
  generalize state (row + 3) column = d
  calc
    _ = mul 14 (mul 2 a) ^^^ mul 11 a ^^^ mul 13 a ^^^ mul 9 (mul 3 a) ^^^
        (mul 14 (mul 3 b) ^^^ mul 11 (mul 2 b) ^^^ mul 13 b ^^^ mul 9 b) ^^^
        (mul 14 c ^^^ mul 11 (mul 3 c) ^^^ mul 13 (mul 2 c) ^^^ mul 9 c) ^^^
        (mul 14 d ^^^ mul 11 d ^^^ mul 13 (mul 3 d) ^^^ mul 9 (mul 2 d)) := by
      ac_rfl
    _ = a := by
      rw [(invMix_mix a).1, (invMix_mix b).2.1, (invMix_mix c).2.2.1, (invMix_mix d).2.2.2]
      simp

/-- A left inverse on finitely many states is an inverse. -/
theorem mixColumns_invMixColumns (state : State) : mixColumns (invMixColumns state) = state := by
  have bijective := Finite.injective_iff_bijective.mp
    (Function.LeftInverse.injective invMixColumns_mixColumns)
  rcases bijective.surjective state with ⟨source, rfl⟩
  rw [invMixColumns_mixColumns]

end Inverses

/-- The operations of a round, the substitution before the shift. -/
def aes : KeyedRounds.Rounds State where
  combine := addRoundKey
  substitute := {
    toFun state := shiftRows (subBytes state)
    invFun state := invSubBytes (invShiftRows state)
    left_inv := by
      intro state
      funext row column
      simp [invSubBytes, invShiftRows, shiftRows, subBytes, inverseSubstitution_substitution]
    right_inv := by
      intro state
      funext row column
      simp [invSubBytes, invShiftRows, shiftRows, subBytes, substitution_inverseSubstitution] }
  mix := ⟨mixColumns, invMixColumns, invMixColumns_mixColumns, mixColumns_invMixColumns⟩
  cancel state key := by
    funext row column
    simp [addRoundKey]
  mix_combine := mixColumns_addRoundKey

section Keys

def byteAt (word : Word) (row : ℕ) : Byte :=
  word.extractLsb' (24 - 8 * row) 8

def subWord (word : Word) : Word :=
  substitution (byteAt word 0) ++ substitution (byteAt word 1) ++ substitution (byteAt word 2) ++
    substitution (byteAt word 3)

/-- A power of the variable in the first byte. -/
def roundConstant (round : ℕ) : Word :=
  BitVec.ofNat 8 (xtime^[round - 1] 1) ++ (0 : BitVec 24)

/-- The words of the round keys, from a key of some words. -/
def keyWord (key : ℕ → Word) (keyLength : ℕ) (index : ℕ) : Word :=
  if index < keyLength ∨ keyLength = 0 then key index
  else
    let previous := keyWord key keyLength (index - 1)
    keyWord key keyLength (index - keyLength) ^^^
      if index % keyLength = 0 then
        subWord (previous.rotateLeft 8) ^^^ roundConstant (index / keyLength)
      else if 6 < keyLength ∧ index % keyLength = 4 then subWord previous
      else previous
termination_by index

/-- Four words are the columns of a round key. -/
def roundKey (words : ℕ → Word) (round : ℕ) : State :=
  fun row column => byteAt (words (4 * round + column)) row

def middleKeys (words : ℕ → Word) (rounds : ℕ) : List State :=
  (List.range (rounds - 1)).map fun round => roundKey words (round + 1)

/-- The cipher with the key words of some rounds. -/
def cipher (words : ℕ → Word) (rounds : ℕ) : State → State :=
  aes.encrypt (roundKey words 0) (middleKeys words rounds) (roundKey words rounds)

end Keys

section Bytes

/-- The square of the bytes of a block, column by column. -/
def squareOf (bytes : Vector UInt8 16) : State :=
  fun row column => bytes.toArray[4 * column.val + row.val]!.toBitVec

def bytesOf (state : State) : Vector UInt8 16 :=
  Vector.ofFn fun index => .ofBitVec (state (Fin.ofNat 4 index) (Fin.ofNat 4 (index / 4)))

theorem squareOf_bytesOf (state : State) : squareOf (bytesOf state) = state := by
  funext row column
  fin_cases row
  all_goals
    fin_cases column
    all_goals simp [squareOf, bytesOf, Fin.ofNat]

theorem bytesOf_squareOf (bytes : Vector UInt8 16) : bytesOf (squareOf bytes) = bytes := by
  apply Vector.ext
  intro index below
  have place : 4 * (index / 4 % 4) + index % 4 = index := by omega
  simp [squareOf, bytesOf, Fin.ofNat, place, below]

/-- The words of the bytes of a key. -/
def keyOf (key : Array UInt8) (index : ℕ) : Word :=
  key[4 * index]!.toBitVec ++ key[4 * index + 1]!.toBitVec ++
    key[4 * index + 2]!.toBitVec ++ key[4 * index + 3]!.toBitVec

/-- A block encrypted with a key of some words. -/
def encrypted (key : Array UInt8) (words : ℕ) (block : Vector UInt8 16) : Vector UInt8 16 :=
  bytesOf (cipher (keyWord (keyOf key) words) (words + 6) (squareOf block))

end Bytes

end BlockCipher
