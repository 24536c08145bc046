import Mathlib

/-!
# The universal hash VHASH

A message of 64-bit words is hashed in three levels: blocks of 128 bytes to inner products with the
key words, these to a polynomial in a second key modulo the prime `2 ^ 127 - 1`, and its value to a
product modulo the prime `2 ^ 64 - 257`. This is what `vmac.c` is for, in numbers without a bound;
nothing here is taken from its code.
-/

namespace UniversalHash

open Finset

/-- The secret numbers for one half of a tag. -/
structure Keys where
  nh : ℕ → ℕ
  poly : ℕ
  inner : ℕ
  outer : ℕ

/-- The inner product of a block with its key words, taken in pairs. -/
def nhSum (key words : ℕ → ℕ) (pairs : ℕ) : ℕ :=
  ∑ pair ∈ range pairs, (words (2 * pair) + key (2 * pair)) % 2 ^ 64 *
    ((words (2 * pair + 1) + key (2 * pair + 1)) % 2 ^ 64)

def nh (key words : ℕ → ℕ) (pairs : ℕ) : ℕ :=
  nhSum key words pairs % 2 ^ 126

/-- The polynomial with leading coefficient one and the hashes of the blocks below it. -/
def polynomial (key : ℕ) (hashes : ℕ → ℕ) (count : ℕ) : ℕ :=
  key ^ count + ∑ block ∈ range count, hashes block * key ^ (count - 1 - block)

def compressed (keys : Keys) (number : ℕ) : ℕ :=
  (number / (2 ^ 64 - 2 ^ 32) + keys.inner) * (number % (2 ^ 64 - 2 ^ 32) + keys.outer) %
    (2 ^ 64 - 257)

/-- The last block may be shorter than the others; it is taken in units of 16 bytes. -/
def blockHash (keys : Keys) (words : ℕ → ℕ) (bytes block : ℕ) : ℕ :=
  nh keys.nh (fun index => words (16 * block + index)) (min 8 ((bytes - 128 * block + 15) / 16))

/-- A message without a byte is one block. -/
def blockCount (bytes : ℕ) : ℕ :=
  max 1 ((bytes + 127) / 128)

def vhash (keys : Keys) (words : ℕ → ℕ) (bytes : ℕ) : ℕ :=
  compressed keys
    ((polynomial keys.poly (blockHash keys words bytes) (blockCount bytes) +
      2 ^ 64 * (8 * (bytes % 128))) % (2 ^ 127 - 1))

/-- The words of a message, the first byte at the bottom, with zeros behind the last. -/
def messageWord (message : List UInt8) (index : ℕ) : ℕ :=
  ∑ byte ∈ range 8, 256 ^ byte * (message.getD (8 * index + byte) 0).toNat

/-- Half of a tag, with the number that a nonce stands for. -/
def tag (keys : Keys) (pad : ℕ) (message : List UInt8) : ℕ :=
  (vhash keys (messageWord message) message.length + pad) % 2 ^ 64

variable {key : ℕ} {hashes other : ℕ → ℕ}

@[simp]
theorem polynomial_zero : polynomial key hashes 0 = 1 := by
  simp [polynomial]

/-- The polynomial is evaluated with one multiplication for each block. -/
theorem polynomial_succ (count : ℕ) :
    polynomial key hashes (count + 1) = polynomial key hashes count * key + hashes count := by
  have lower : ∑ block ∈ range count, hashes block * key ^ (count - block) =
      (∑ block ∈ range count, hashes block * key ^ (count - 1 - block)) * key := by
    rw [sum_mul]
    apply sum_congr rfl
    intro block mem
    have below : count - block = count - 1 - block + 1 := by
      have := mem_range.mp mem
      omega
    rw [below, pow_succ, mul_assoc]
  simp only [polynomial, Nat.add_sub_cancel, sum_range_succ, lower, Nat.sub_self, pow_zero, mul_one]
  ring

theorem polynomial_congr {count : ℕ} (same : ∀ block < count, hashes block = other block) :
    polynomial key hashes count = polynomial key other count := by
  have lower : ∑ block ∈ range count, hashes block * key ^ (count - 1 - block) =
      ∑ block ∈ range count, other block * key ^ (count - 1 - block) := by
    apply sum_congr rfl
    intro block mem
    rw [same block (mem_range.mp mem)]
  rw [polynomial, lower, polynomial]

theorem nhSum_congr {keyWords words otherWords : ℕ → ℕ} {pairs : ℕ}
    (same : ∀ index < 2 * pairs, words index = otherWords index) :
    nhSum keyWords words pairs = nhSum keyWords otherWords pairs := by
  apply sum_congr rfl
  intro pair mem
  have below := mem_range.mp mem
  rw [same (2 * pair) (by omega), same (2 * pair + 1) (by omega)]

/-- Only the words of the message with its zeros matter. -/
theorem vhash_congr {keys : Keys} {words otherWords : ℕ → ℕ} {bytes : ℕ}
    (same : ∀ index < 2 * ((bytes + 15) / 16), words index = otherWords index) :
    vhash keys words bytes = vhash keys otherWords bytes := by
  have hashes : ∀ block < blockCount bytes,
      blockHash keys words bytes block = blockHash keys otherWords bytes block := by
    intro block _
    rw [blockHash, blockHash, nh, nh]
    apply congrArg fun sum => sum % 2 ^ 126
    apply nhSum_congr
    intro index below
    exact same (16 * block + index) (by omega)
  rw [vhash, vhash, polynomial_congr hashes]

end UniversalHash
