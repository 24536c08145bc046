import KeyValueClusterPerf.MessageSender.RijndaelTables
import KeyValueClusterPerf.MessageSender.Vmac

/-!
# The block cipher of `rijndael-alg-fst.c`

The key schedules, the cipher and its inverse, with the loops that are compiled unless
`FULL_UNROLL` is defined. A schedule is an array that the code fills from its beginning on.
-/

namespace KeyValueClusterPerf

namespace Rijndael

/-- The entry of a table; an index of the code is one byte, so that it is within the table. -/
def entry (table : Array UInt32) (index : UInt32) : UInt32 :=
  table[index.toNat]!

def maskedEntry (table : Array UInt32) (index mask : UInt32) : UInt32 :=
  entry table index &&& mask

def GETU32 (bytes : Array UInt8) (offset : ℕ) : UInt32 :=
  (bytes[offset]!.toUInt32 <<< 24) ^^^ (bytes[offset + 1]!.toUInt32 <<< 16) ^^^
    (bytes[offset + 2]!.toUInt32 <<< 8) ^^^ bytes[offset + 3]!.toUInt32

section KeySetup

/-- The bytes of a word substituted and rotated by one place. -/
def rotatedSubstitutes (temp : UInt32) : UInt32 :=
  maskedEntry Te4 (temp >>> 16 &&& 0xff) 0xff000000 ^^^
    maskedEntry Te4 (temp >>> 8 &&& 0xff) 0x00ff0000 ^^^
    maskedEntry Te4 (temp &&& 0xff) 0x0000ff00 ^^^ maskedEntry Te4 (temp >>> 24) 0x000000ff

def substitutes (temp : UInt32) : UInt32 :=
  maskedEntry Te4 (temp >>> 24) 0xff000000 ^^^
    maskedEntry Te4 (temp >>> 16 &&& 0xff) 0x00ff0000 ^^^
    maskedEntry Te4 (temp >>> 8 &&& 0xff) 0x0000ff00 ^^^ maskedEntry Te4 (temp &&& 0xff) 0x000000ff

/-- The next word is the sum of two earlier ones. -/
def pushSum (rk : Array UInt32) (first second : ℕ) : Array UInt32 :=
  rk.push (rk[first]! ^^^ rk[second]!)

/-- The loop for keys of 128 bits, with the number of its rounds that are left. -/
def keySetup128 : ℕ → ℕ → Array UInt32 → Array UInt32
  | 0, _, rk => rk
  | left + 1, i, rk =>
    let base := 4 * i
    let rk := rk.push (rk[base]! ^^^ rotatedSubstitutes rk[base + 3]! ^^^ rcon[i]!)
    let rk := pushSum rk (base + 1) (base + 4)
    let rk := pushSum rk (base + 2) (base + 5)
    let rk := pushSum rk (base + 3) (base + 6)
    keySetup128 left (i + 1) rk

def keySetup192 : ℕ → ℕ → Array UInt32 → Array UInt32
  | 0, _, rk => rk
  | left + 1, i, rk =>
    let base := 6 * i
    let rk := rk.push (rk[base]! ^^^ rotatedSubstitutes rk[base + 5]! ^^^ rcon[i]!)
    let rk := pushSum rk (base + 1) (base + 6)
    let rk := pushSum rk (base + 2) (base + 7)
    let rk := pushSum rk (base + 3) (base + 8)
    if left = 0 then rk
    else
      let rk := pushSum rk (base + 4) (base + 9)
      let rk := pushSum rk (base + 5) (base + 10)
      keySetup192 left (i + 1) rk

def keySetup256 : ℕ → ℕ → Array UInt32 → Array UInt32
  | 0, _, rk => rk
  | left + 1, i, rk =>
    let base := 8 * i
    let rk := rk.push (rk[base]! ^^^ rotatedSubstitutes rk[base + 7]! ^^^ rcon[i]!)
    let rk := pushSum rk (base + 1) (base + 8)
    let rk := pushSum rk (base + 2) (base + 9)
    let rk := pushSum rk (base + 3) (base + 10)
    if left = 0 then rk
    else
      let rk := rk.push (rk[base + 4]! ^^^ substitutes rk[base + 11]!)
      let rk := pushSum rk (base + 5) (base + 12)
      let rk := pushSum rk (base + 6) (base + 13)
      let rk := pushSum rk (base + 7) (base + 14)
      keySetup256 left (i + 1) rk

/-- The schedule and the number of rounds, which is zero for any other length of the key. -/
def rijndaelKeySetupEnc (cipherKey : Array UInt8) (keyBits : ℕ) : Array UInt32 × ℕ :=
  let rk := #[GETU32 cipherKey 0, GETU32 cipherKey 4, GETU32 cipherKey 8, GETU32 cipherKey 12]
  if keyBits = 128 then (keySetup128 10 0 rk, 10)
  else
    let rk := (rk.push (GETU32 cipherKey 16)).push (GETU32 cipherKey 20)
    if keyBits = 192 then (keySetup192 8 0 rk, 12)
    else
      let rk := (rk.push (GETU32 cipherKey 24)).push (GETU32 cipherKey 28)
      if keyBits = 256 then (keySetup256 7 0 rk, 14)
      else (rk, 0)

def swapWords (rk : Array UInt32) (i j : ℕ) : Array UInt32 :=
  let temp := rk[i]!
  (rk.set! i rk[j]!).set! j temp

/-- The loop that inverts the order of the round keys. -/
def invertOrder (i j : ℕ) (rk : Array UInt32) : Array UInt32 :=
  if i < j then
    let rk := swapWords rk i j
    let rk := swapWords rk (i + 1) (j + 1)
    let rk := swapWords rk (i + 2) (j + 2)
    let rk := swapWords rk (i + 3) (j + 3)
    invertOrder (i + 4) (j - 4) rk
  else rk
termination_by j - i

/-- The inverse mixing of a column, through the substitution and the tables of the inverse. -/
def mixedBack (word : UInt32) : UInt32 :=
  entry Td0 (entry Te4 (word >>> 24) &&& 0xff) ^^^
    entry Td1 (entry Te4 (word >>> 16 &&& 0xff) &&& 0xff) ^^^
    entry Td2 (entry Te4 (word >>> 8 &&& 0xff) &&& 0xff) ^^^
    entry Td3 (entry Te4 (word &&& 0xff) &&& 0xff)

/-- The loop over the round keys in the middle. -/
def mixKeysBack : ℕ → ℕ → Array UInt32 → Array UInt32
  | 0, _, rk => rk
  | left + 1, base, rk =>
    let rk := rk.set! base (mixedBack rk[base]!)
    let rk := rk.set! (base + 1) (mixedBack rk[base + 1]!)
    let rk := rk.set! (base + 2) (mixedBack rk[base + 2]!)
    let rk := rk.set! (base + 3) (mixedBack rk[base + 3]!)
    mixKeysBack left (base + 4) rk

def rijndaelKeySetupDec (cipherKey : Array UInt8) (keyBits : ℕ) : Array UInt32 × ℕ :=
  let (rk, Nr) := rijndaelKeySetupEnc cipherKey keyBits
  (mixKeysBack (Nr - 1) 4 (invertOrder 0 (4 * Nr) rk), Nr)

end KeySetup

section Cipher

/-- The four words of a state. -/
structure Block where
  s0 : UInt32
  s1 : UInt32
  s2 : UInt32
  s3 : UInt32

/-- The bytes of a block with the first four words of the schedule. -/
def loaded (rk : Array UInt32) (bytes : Vector UInt8 16) : Block where
  s0 := GETU32 bytes.toArray 0 ^^^ rk[0]!
  s1 := GETU32 bytes.toArray 4 ^^^ rk[1]!
  s2 := GETU32 bytes.toArray 8 ^^^ rk[2]!
  s3 := GETU32 bytes.toArray 12 ^^^ rk[3]!

/-- The four stores of `PUTU32`. -/
def stored (s : Block) : Vector UInt8 16 :=
  #v[(s.s0 >>> 24).toUInt8, (s.s0 >>> 16).toUInt8, (s.s0 >>> 8).toUInt8, s.s0.toUInt8,
    (s.s1 >>> 24).toUInt8, (s.s1 >>> 16).toUInt8, (s.s1 >>> 8).toUInt8, s.s1.toUInt8,
    (s.s2 >>> 24).toUInt8, (s.s2 >>> 16).toUInt8, (s.s2 >>> 8).toUInt8, s.s2.toUInt8,
    (s.s3 >>> 24).toUInt8, (s.s3 >>> 16).toUInt8, (s.s3 >>> 8).toUInt8, s.s3.toUInt8]

/-- A word of a full round, from one byte of each word of the state. -/
def mixedWord (T0 T1 T2 T3 : Array UInt32) (a b c d key : UInt32) : UInt32 :=
  entry T0 (a >>> 24) ^^^ entry T1 (b >>> 16 &&& 0xff) ^^^ entry T2 (c >>> 8 &&& 0xff) ^^^
    entry T3 (d &&& 0xff) ^^^ key

/-- A word of the last round. -/
def lastWord (T4 : Array UInt32) (a b c d key : UInt32) : UInt32 :=
  maskedEntry T4 (a >>> 24) 0xff000000 ^^^ maskedEntry T4 (b >>> 16 &&& 0xff) 0x00ff0000 ^^^
    maskedEntry T4 (c >>> 8 &&& 0xff) 0x0000ff00 ^^^ maskedEntry T4 (d &&& 0xff) 0x000000ff ^^^ key

def encryptRound (rk : Array UInt32) (base : ℕ) (s : Block) : Block where
  s0 := mixedWord Te0 Te1 Te2 Te3 s.s0 s.s1 s.s2 s.s3 rk[base]!
  s1 := mixedWord Te0 Te1 Te2 Te3 s.s1 s.s2 s.s3 s.s0 rk[base + 1]!
  s2 := mixedWord Te0 Te1 Te2 Te3 s.s2 s.s3 s.s0 s.s1 rk[base + 2]!
  s3 := mixedWord Te0 Te1 Te2 Te3 s.s3 s.s0 s.s1 s.s2 rk[base + 3]!

def decryptRound (rk : Array UInt32) (base : ℕ) (s : Block) : Block where
  s0 := mixedWord Td0 Td1 Td2 Td3 s.s0 s.s3 s.s2 s.s1 rk[base]!
  s1 := mixedWord Td0 Td1 Td2 Td3 s.s1 s.s0 s.s3 s.s2 rk[base + 1]!
  s2 := mixedWord Td0 Td1 Td2 Td3 s.s2 s.s1 s.s0 s.s3 rk[base + 2]!
  s3 := mixedWord Td0 Td1 Td2 Td3 s.s3 s.s2 s.s1 s.s0 rk[base + 3]!

/-- The loop of two rounds, which ends between them, with the number of its turns after this one. -/
def fullRounds (round : ℕ → Block → Block) : ℕ → ℕ → Block → Block
  | 0, base, s => round (base + 4) s
  | left + 1, base, s =>
    let t := round (base + 4) s
    fullRounds round left (base + 8) (round (base + 8) t)

/-- At least two rounds; with fewer the loop of the source would not end. -/
def rijndaelEncrypt (rk : Array UInt32) (Nr : ℕ) (pt : Vector UInt8 16) : Vector UInt8 16 :=
  let r := Nr / 2
  let t := fullRounds (encryptRound rk) (r - 1) 0 (loaded rk pt)
  let base := 8 * r
  stored {
    s0 := lastWord Te4 t.s0 t.s1 t.s2 t.s3 rk[base]!
    s1 := lastWord Te4 t.s1 t.s2 t.s3 t.s0 rk[base + 1]!
    s2 := lastWord Te4 t.s2 t.s3 t.s0 t.s1 rk[base + 2]!
    s3 := lastWord Te4 t.s3 t.s0 t.s1 t.s2 rk[base + 3]! }

def rijndaelDecrypt (rk : Array UInt32) (Nr : ℕ) (ct : Vector UInt8 16) : Vector UInt8 16 :=
  let r := Nr / 2
  let t := fullRounds (decryptRound rk) (r - 1) 0 (loaded rk ct)
  let base := 8 * r
  stored {
    s0 := lastWord Td4 t.s0 t.s3 t.s2 t.s1 rk[base]!
    s1 := lastWord Td4 t.s1 t.s0 t.s3 t.s2 rk[base + 1]!
    s2 := lastWord Td4 t.s2 t.s1 t.s0 t.s3 rk[base + 2]!
    s3 := lastWord Td4 t.s3 t.s2 t.s1 t.s0 rk[base + 3]! }

end Cipher

end Rijndael

end KeyValueClusterPerf
