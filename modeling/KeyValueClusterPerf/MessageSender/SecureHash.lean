import KeyValueClusterPerf.Foundations.Blocks
import KeyValueClusterPerf.Foundations.Text

/-!
# The secure hash algorithm

SHA-1 as a function of a message: the message is padded to whole blocks of 64 bytes with a
one bit, zeros and its length, and the blocks are compressed one after the other into five
words of 32 bits. This is what `sha1.cc` is for; nothing here is taken from its code.
-/

namespace SecureHash

open Texts

abbrev Word := BitVec 32

structure Chain where
  a : Word
  b : Word
  c : Word
  d : Word
  e : Word
  deriving DecidableEq

def initial : Chain :=
  ⟨0x67452301, 0xefcdab89, 0x98badcfe, 0x10325476, 0xc3d2e1f0⟩

def choose (x y z : Word) : Word := (x &&& y) ^^^ (~~~x &&& z)
def parity (x y z : Word) : Word := x ^^^ y ^^^ z
def majority (x y z : Word) : Word := (x &&& y) ^^^ (x &&& z) ^^^ (y &&& z)

def logical (step : ℕ) : Word → Word → Word → Word :=
  if step < 20 then choose else if step < 40 then parity else if step < 60 then majority else parity

def constant (step : ℕ) : Word :=
  if step < 20 then 0x5a827999
  else if step < 40 then 0x6ed9eba1
  else if step < 60 then 0x8f1bbcdc
  else 0xca62c1d6

/-- The words of a block, and those that are derived from them. -/
def schedule (words : ℕ → Word) (step : ℕ) : Word :=
  if step < 16 then words step
  else (schedule words (step - 3) ^^^ schedule words (step - 8) ^^^ schedule words (step - 14) ^^^
    schedule words (step - 16)).rotateLeft 1
termination_by step

def round (words : ℕ → Word) (chain : Chain) (step : ℕ) : Chain where
  a := chain.a.rotateLeft 5 + logical step chain.b chain.c chain.d + chain.e + constant step +
    schedule words step
  b := chain.a
  c := chain.b.rotateLeft 30
  d := chain.c
  e := chain.d

def Chain.add (chain other : Chain) : Chain :=
  ⟨chain.a + other.a, chain.b + other.b, chain.c + other.c, chain.d + other.d, chain.e + other.e⟩

def compressWords (chain : Chain) (words : ℕ → Word) : Chain :=
  chain.add ((List.range 80).foldl (round words) chain)

def byteAt (bytes : List UInt8) (index : ℕ) : BitVec 8 :=
  (bytes.getD index 0).toBitVec

/-- Four bytes, the first one at the top. -/
def wordAt (bytes : List UInt8) (index : ℕ) : Word :=
  byteAt bytes (4 * index) ++ byteAt bytes (4 * index + 1) ++ byteAt bytes (4 * index + 2) ++
    byteAt bytes (4 * index + 3)

def compress (chain : Chain) (block : List UInt8) : Chain :=
  compressWords chain (wordAt block)

/-- A number of 64 bits as eight bytes, the first one at the top. -/
def lengthBytes (length : BitVec 64) : List UInt8 :=
  [56, 48, 40, 32, 24, 16, 8, 0].map fun lowest => .ofBitVec (length.extractLsb' lowest 8)

def padding (length : ℕ) : List UInt8 :=
  0x80 :: List.replicate ((119 - length % 64) % 64) 0 ++ lengthBytes (.ofNat 64 (length * 8))

def hash (message : List UInt8) : Chain :=
  (Blocks.absorb 64 compress initial (message ++ padding message.length)).1

/-- Eight hexadecimal digits. -/
def wordText (word : Word) : Text :=
  [28, 24, 20, 16, 12, 8, 4, 0].map fun lowest => Nat.digitChar (word.extractLsb' lowest 4).toNat

def Chain.text (chain : Chain) : Text :=
  [chain.a, chain.b, chain.c, chain.d, chain.e].flatMap wordText

theorem schedule_of_lt {words : ℕ → Word} {step : ℕ} (inside : step < 16) :
    schedule words step = words step := by
  rw [schedule, if_pos inside]

theorem schedule_of_le {words : ℕ → Word} {step : ℕ} (derived : 16 ≤ step) :
    schedule words step = (schedule words (step - 3) ^^^ schedule words (step - 8) ^^^
      schedule words (step - 14) ^^^ schedule words (step - 16)).rotateLeft 1 := by
  rw [schedule, if_neg (not_lt.mpr derived)]

/-- The schedule is derived from the sixteen words of the block. -/
theorem schedule_congr {words others : ℕ → Word} (same : ∀ index < 16, words index = others index)
    (step : ℕ) : schedule words step = schedule others step := by
  induction step using Nat.strong_induction_on with
  | _ step ih =>
      rcases lt_or_ge step 16 with inside | derived
      · rw [schedule_of_lt inside, schedule_of_lt inside, same step inside]
      · rw [schedule_of_le derived, schedule_of_le derived, ih (step - 3) (by omega),
          ih (step - 8) (by omega), ih (step - 14) (by omega), ih (step - 16) (by omega)]

theorem compressWords_congr (chain : Chain) {words others : ℕ → Word}
    (same : ∀ index < 16, words index = others index) :
    compressWords chain words = compressWords chain others := by
  have rounds : round words = round others := by
    funext chain step
    simp only [round, schedule_congr same]
  rw [compressWords, compressWords, rounds]

theorem length_lengthBytes (length : BitVec 64) : (lengthBytes length).length = 8 :=
  rfl

end SecureHash
