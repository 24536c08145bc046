import KeyValueClusterPerf.MessageSender.SecureHash

/-!
# The hash of `sha1.cc`

An object of `SHA1` takes a message in pieces and returns its digest as text. The header asks
of the type of its words only that it has at least 32 bits: the additions carry into the bits
above, the conversion of a block fills them with copies of a sign, and they are masked where a
value is shifted down or printed. So the object holds the chain of the secure hash algorithm
in the low 32 bits of its words, for every width of the type.
-/

namespace KeyValueClusterPerf

open Texts SecureHash

variable {width : ℕ}

def SHA1_ROL (value : BitVec width) (bits : ℕ) : BitVec width :=
  value <<< bits ||| (value &&& 0xffffffff) >>> (32 - bits)

/-- The working variables of `transform`, as the macros are given them. -/
inductive Variable
  | a | b | c | d | e
  deriving DecidableEq

structure Working (width : ℕ) where
  values : Variable → BitVec width
  block : ℕ → BitVec width

namespace Working

def SHA1_BLK (i : ℕ) (working : Working width) : BitVec width × Working width :=
  let blk := SHA1_ROL (working.block ((i + 13) &&& 15) ^^^ working.block ((i + 8) &&& 15) ^^^
    working.block ((i + 2) &&& 15) ^^^ working.block (i &&& 15)) 1
  (blk, { working with block := Function.update working.block (i &&& 15) blk })

/-- The assignments that the five operations have in common. -/
def assign (mix : BitVec width → BitVec width → BitVec width → BitVec width)
    (constant : BitVec width) (v w x y z : Variable) (input : BitVec width)
    (working : Working width) : Working width :=
  let values := Function.update working.values z (working.values z +
    (mix (working.values w) (working.values x) (working.values y) + input + constant +
      SHA1_ROL (working.values v) 5))
  { working with values := Function.update values w (SHA1_ROL (values w) 30) }

def SHA1_R0 (v w x y z : Variable) (i : ℕ) (working : Working width) : Working width :=
  assign (fun w x y => (w &&& (x ^^^ y)) ^^^ y) 0x5a827999 v w x y z (working.block i) working

def SHA1_R1 (v w x y z : Variable) (i : ℕ) (working : Working width) : Working width :=
  assign (fun w x y => (w &&& (x ^^^ y)) ^^^ y) 0x5a827999 v w x y z (working.SHA1_BLK i).1
    (working.SHA1_BLK i).2

def SHA1_R2 (v w x y z : Variable) (i : ℕ) (working : Working width) : Working width :=
  assign (fun w x y => w ^^^ x ^^^ y) 0x6ed9eba1 v w x y z (working.SHA1_BLK i).1
    (working.SHA1_BLK i).2

def SHA1_R3 (v w x y z : Variable) (i : ℕ) (working : Working width) : Working width :=
  assign (fun w x y => ((w ||| x) &&& y) ||| (w &&& x)) 0x8f1bbcdc v w x y z (working.SHA1_BLK i).1
    (working.SHA1_BLK i).2

def SHA1_R4 (v w x y z : Variable) (i : ℕ) (working : Working width) : Working width :=
  assign (fun w x y => w ^^^ x ^^^ y) 0xca62c1d6 v w x y z (working.SHA1_BLK i).1
    (working.SHA1_BLK i).2

/-- The operation in line `i` of the unrolled loop. -/
def operation (v w x y z : Variable) (i : ℕ) : Working width → Working width :=
  if i < 16 then SHA1_R0 v w x y z i
  else if i < 20 then SHA1_R1 v w x y z i
  else if i < 40 then SHA1_R2 v w x y z i
  else if i < 60 then SHA1_R3 v w x y z i
  else SHA1_R4 v w x y z i

/-- Five lines of the unrolled loop; the next five have the variables in the same places. -/
def fiveOperations (working : Working width) (i : ℕ) : Working width :=
  working
    |> operation .a .b .c .d .e i
    |> operation .e .a .b .c .d (i + 1)
    |> operation .d .e .a .b .c (i + 2)
    |> operation .c .d .e .a .b (i + 3)
    |> operation .b .c .d .e .a (i + 4)

end Working

structure SHA1 (width : ℕ) where
  digest : Fin 5 → BitVec width
  buffer : List UInt8
  transforms : BitVec 64

/-- A stream with what is left of it; a read of more than that makes it fail. -/
structure InputStream where
  content : List UInt8
  good : Bool

/-- A stream of a file; one that cannot be opened is not good. -/
def InputStream.ofFile (file : Option (List UInt8)) : InputStream :=
  ⟨file.getD [], file.isSome⟩

namespace SHA1

def BLOCK_BYTES : ℕ := 64

def reset : SHA1 width where
  digest := ![0x67452301, 0xefcdab89, 0x98badcfe, 0x10325476, 0xc3d2e1f0]
  buffer := []
  transforms := 0

/-- The working variables at the start of `transform`. -/
def values (sha : SHA1 width) : Variable → BitVec width
  | .a => sha.digest 0
  | .b => sha.digest 1
  | .c => sha.digest 2
  | .d => sha.digest 3
  | .e => sha.digest 4

/-- The block is overwritten as well; nothing reads it afterwards. -/
def transform (block : ℕ → BitVec width) (sha : SHA1 width) : SHA1 width :=
  let after := ((List.range 16).map (5 * ·)).foldl Working.fiveOperations ⟨sha.values, block⟩
  { sha with
    digest := ![sha.digest 0 + after.values .a, sha.digest 1 + after.values .b,
      sha.digest 2 + after.values .c, sha.digest 3 + after.values .d,
      sha.digest 4 + after.values .e]
    transforms := sha.transforms + 1 }

/-- The bytes are put together as an `int`, and its sign goes into the bits above. -/
def buffer_to_block (buffer : List UInt8) (i : ℕ) : BitVec width :=
  let byte (index : ℕ) : BitVec 32 := (buffer.getD index 0).toBitVec.setWidth 32
  (byte (4 * i + 3) ||| byte (4 * i + 2) <<< 8 ||| byte (4 * i + 1) <<< 16 |||
    byte (4 * i) <<< 24).signExtend width

def read (max : ℕ) (stream : InputStream) : List UInt8 × InputStream :=
  if stream.good then
    (stream.content.take max, ⟨stream.content.drop max, max ≤ stream.content.length⟩)
  else ([], stream)

/-- The loop of `update`. -/
def updateBlocks (sha : SHA1 width) (stream : InputStream) : SHA1 width :=
  if stream.good then
    let transformed := sha.transform (buffer_to_block sha.buffer)
    let next := read BLOCK_BYTES stream
    updateBlocks { transformed with buffer := next.1 } next.2
  else sha
termination_by if stream.good then stream.content.length + 1 else 0
decreasing_by
  rename_i good
  simp only [read, good, if_true, BLOCK_BYTES, List.length_drop]
  split
  · rename_i full
    have enough := of_decide_eq_true full
    omega
  · omega

def updateStream (stream : InputStream) (sha : SHA1 width) : SHA1 width :=
  let first := read (BLOCK_BYTES - sha.buffer.length) stream
  updateBlocks { sha with buffer := sha.buffer ++ first.1 } first.2

def update (s : List UInt8) (sha : SHA1 width) : SHA1 width :=
  sha.updateStream ⟨s, true⟩

/-- What the stream prints for a digit of the digest: at least eight digits, filled with zeros. -/
def hexText (value : BitVec width) : Text :=
  let digits := Nat.toDigits 16 (value &&& 0xffffffff).toNat
  List.replicate (8 - digits.length) '0' ++ digits

/-- The end of `final`, with the bits split into the last two words of the block. -/
def transformLast (total_bits : BitVec 64) (block : ℕ → BitVec width) (sha : SHA1 width) :
    SHA1 width :=
  let block := Function.update block 15 (total_bits.setWidth width)
  let block := Function.update block 14 ((total_bits >>> 32).setWidth width)
  sha.transform block

def final (sha : SHA1 width) : Text × SHA1 width :=
  let total_bits : BitVec 64 :=
    (sha.transforms * .ofNat 64 BLOCK_BYTES + .ofNat 64 sha.buffer.length) * 8
  let buffer := sha.buffer ++ [0x80]
  let orig_size := buffer.length
  let block : ℕ → BitVec width :=
    buffer_to_block (buffer ++ List.replicate (BLOCK_BYTES - orig_size) 0)
  let last :=
    if orig_size > BLOCK_BYTES - 8 then
      (sha.transform block).transformLast total_bits fun i => if i < 14 then 0 else block i
    else sha.transformLast total_bits block
  ((List.finRange 5).flatMap fun i => hexText (last.digest i), reset)

variable (width)

def from_file (file : Option (List UInt8)) : Text :=
  ((reset : SHA1 width).updateStream (.ofFile file)).final.1

end SHA1

def sha1 (width : ℕ) (string : List UInt8) : Text :=
  ((SHA1.reset : SHA1 width).update string).final.1

/-- The low bits of a word; the code keeps the words of the algorithm there. -/
def low (value : BitVec width) : Word :=
  value.setWidth 32

/-- The chain of the algorithm, in the low bits of the digest. -/
def SHA1.chain (sha : SHA1 width) : Chain :=
  ⟨low (sha.digest 0), low (sha.digest 1), low (sha.digest 2), low (sha.digest 3),
    low (sha.digest 4)⟩

end KeyValueClusterPerf
