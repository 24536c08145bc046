import KeyValueClusterPerf.Foundations.Tracked

/-!
# The hash of `vmac.c`

The 64-bit build with a tag of 128 bits, on little-endian words. The functions load the words of
the message from memory; which words these are is decided by the length that `vmac` is told.
-/

namespace KeyValueClusterPerf

namespace Vmac

open Loads

def p64 : UInt64 := 0xfffffffffffffeff
def m62 : UInt64 := 0x3fffffffffffffff
def m63 : UInt64 := 0x7fffffffffffffff
def m64 : UInt64 := 0xffffffffffffffff
def mpoly : UInt64 := 0x1fffffff1fffffff

/-- A number of 128 bits in two registers. -/
@[ext]
structure Registers where
  high : UInt64
  low : UInt64
  deriving DecidableEq

def Registers.toNat (registers : Registers) : ℕ :=
  2 ^ 64 * registers.high.toNat + registers.low.toNat

/-- The carry is taken from the low sum. -/
def ADD128 (target summand : Registers) : Registers :=
  let low := target.low + summand.low
  ⟨target.high + summand.high + (if low < summand.low then 1 else 0), low⟩

def MUL64 (left right : UInt64) : Registers :=
  ⟨.ofNat (left.toNat * right.toNat / 2 ^ 64), left * right⟩

/-- The sum of two registers wraps at 128 bits. -/
theorem toNat_ADD128 (target summand : Registers) :
    (ADD128 target summand).toNat = (target.toNat + summand.toNat) % 2 ^ 128 := by
  have targetLow := target.low.toNat_lt
  have summandLow := summand.low.toNat_lt
  simp only [ADD128, Registers.toNat, UInt64.toNat_add, UInt64.lt_iff_toNat_lt]
  split
  · rename_i carries
    rw [UInt64.toNat_one]
    omega
  · rename_i fits
    rw [UInt64.toNat_zero]
    omega

/-- A product of two words fits the registers. -/
theorem toNat_MUL64 (left right : UInt64) :
    (MUL64 left right).toNat = left.toNat * right.toNat := by
  have highLt : left.toNat * right.toNat / 2 ^ 64 < 2 ^ 64 := by
    rw [Nat.div_lt_iff_lt_mul (by decide)]
    exact Nat.mul_lt_mul'' left.toNat_lt right.toNat_lt
  rw [MUL64, Registers.toNat, UInt64.toNat_mul, UInt64.toNat_ofNat_of_lt' highLt]
  exact Nat.div_add_mod _ _

def Registers.masked (registers : Registers) : Registers :=
  { registers with high := registers.high &&& m62 }

/-- The key schedule and the block cipher of `rijndael-alg-fst.c`, for keys of 128 bits. -/
structure Rijndael where
  keySetupEnc : Vector UInt8 16 → Vector UInt32 44
  encrypt : Vector UInt32 44 → Vector UInt8 16 → Vector UInt8 16

/-- The context `vmac_ctx_t`. -/
structure Context where
  nhkey : Vector UInt64 18
  polykey : Vector UInt64 4
  l3key : Vector UInt64 4
  polytmp : Vector UInt64 4
  cipher_key : Vector UInt32 44
  first_block_processed : Bool

/-- The 64-bit words of a memory, `get64PE` being `get64LE`. -/
def wordAt (memory : ℕ → UInt8) (index : ℕ) : UInt64 :=
  (List.range 8).foldr
    (fun byte word => word <<< 8 ||| (memory (8 * index + byte)).toUInt64) 0

def get64BE (block : Vector UInt8 16) (index : ℕ) : UInt64 :=
  (List.range 8).foldl (fun word byte => word <<< 8 ||| block[8 * index + byte]!.toUInt64) 0

def get64PE (pointer : ℕ) : Tracked UInt64 UInt64 :=
  Tracked.load pointer

/-- Two sums of 128 bits, one for each half of the tag. -/
abbrev Halves : Type := Registers × Registers

section Compression

variable (kp : Vector UInt64 18) (mp : ℕ)

/-- The body of `nh_16_2`; the index is at most 14, so the keys are those of the array. -/
def nhBody (i : ℕ) (sums : Halves) : Tracked UInt64 Halves := do
  let first ← get64PE (mp + i)
  let second ← get64PE (mp + i + 1)
  let firstAgain ← get64PE (mp + i)
  let secondAgain ← get64PE (mp + i + 1)
  return (ADD128 sums.1 (MUL64 (first + kp[i]!) (second + kp[i + 1]!)),
    ADD128 sums.2 (MUL64 (firstAgain + kp[i + 2]!) (secondAgain + kp[i + 3]!)))

def nh_16_2 (nw : ℕ) : Tracked UInt64 Halves :=
  Tracked.strided 2 (nhBody kp mp) ((nw + 1) / 2) 0 (⟨0, 0⟩, ⟨0, 0⟩)

/-- The body of `nh_vmac_nhbytes_2`, unrolled to 64 bytes. -/
def nhBody64 (i : ℕ) (sums : Halves) : Tracked UInt64 Halves := do
  let sums ← nhBody kp mp i sums
  let sums ← nhBody kp mp (i + 2) sums
  let sums ← nhBody kp mp (i + 4) sums
  nhBody kp mp (i + 6) sums

def nh_vmac_nhbytes_2 (nw : ℕ) : Tracked UInt64 Halves :=
  Tracked.strided 8 (nhBody64 kp mp) ((nw + 7) / 8) 0 (⟨0, 0⟩, ⟨0, 0⟩)

end Compression

def poly_step (a k m : Registers) : Registers :=
  let t3 := MUL64 a.low k.high
  let t2 := MUL64 a.high k.low
  let t1 := MUL64 a.high (2 * k.high)
  let a := ADD128 (MUL64 a.low k.low) t1
  let t2 := ADD128 t2 t3
  -- the high register of the sum is in `t2h`, its low one in `ah`
  let sum := ADD128 ⟨t2.high, a.high⟩ ⟨0, t2.low⟩
  let top := sum.low >>> 63
  let t2h := 2 * sum.high + top
  ADD128 (ADD128 ⟨sum.low &&& m63, a.low⟩ m) ⟨0, t2h⟩

/-- The step for both halves, the high registers of the new block masked. -/
def polyStepHalves (pk ch sums : Halves) : Halves :=
  (poly_step ch.1 pk.1 sums.1.masked, poly_step ch.2 pk.2 sums.2.masked)

def l3hash (p : Registers) (k1 k2 len : UInt64) : UInt64 :=
  let t := p.high >>> 63
  let p := ADD128 ⟨p.high &&& m63, p.low⟩ ⟨len, t⟩
  let t := (if p.high > m63 then 1 else 0) + (if p.high = m63 ∧ p.low = m64 then 1 else 0)
  let p := ADD128 p ⟨0, t⟩
  let p1 := p.high &&& m63
  let t := p1 + (p.low >>> 32)
  let t := t + (t >>> 32)
  let t := t + (if t &&& 0xffffffff > 0xfffffffe then 1 else 0)
  let p1 := p1 + (t >>> 32)
  let p2 := p.low + (p1 <<< 32)
  let p1 := p1 + k1
  let p1 := p1 + (if p1 < k1 then 257 else 0)
  let p2 := p2 + k2
  let p2 := p2 + (if p2 < k2 then 257 else 0)
  let r := MUL64 p1 p2
  let s := ADD128 ⟨r.high >>> 56, r.low⟩ ⟨0, r.high⟩
  let s := ADD128 s ⟨0, r.high <<< 8⟩
  let t := s.high + (s.high <<< 8)
  let rl := s.low + t
  let rl := rl + (if rl < t then 257 else 0)
  rl + (if rl > p64 - 1 then 257 else 0)

def vhash_abort (ctx : Context) : Context :=
  { ctx with polytmp := ctx.polykey, first_block_processed := false }

def Context.polyKeys (ctx : Context) : Halves :=
  (⟨ctx.polykey[0], ctx.polykey[1]⟩, ⟨ctx.polykey[2], ctx.polykey[3]⟩)

def Context.polyTmp (ctx : Context) : Halves :=
  (⟨ctx.polytmp[0], ctx.polytmp[1]⟩, ⟨ctx.polytmp[2], ctx.polytmp[3]⟩)

/-- The return value, `*tagl` and the context after a call. -/
structure Outcome where
  returned : UInt64
  tagl : UInt64
  ctx : Context

/-- What `vhash` does from the label `do_l3` on. -/
def do_l3 (ctx : Context) (remaining : ℕ) (ch : Halves) : Outcome where
  returned := l3hash ch.1 ctx.l3key[0] ctx.l3key[1] (.ofNat (remaining * 8))
  tagl := l3hash ch.2 ctx.l3key[2] ctx.l3key[3] (.ofNat (remaining * 8))
  ctx := vhash_abort ctx

/-- The words of what remains after the blocks of 128 bytes. -/
def remainingWords (remaining : ℕ) : ℕ :=
  2 * ((remaining + 15) / 16)

/-- The loop over the blocks after the first, and what remains behind them. -/
def vhashRest (ctx : Context) (mptr i remaining : ℕ) (ch : Halves) : Tracked UInt64 Outcome := do
  let body := fun mptr ch => do
    let sums ← nh_vmac_nhbytes_2 ctx.nhkey mptr 16
    return polyStepHalves ctx.polyKeys ch sums
  let ch ← Tracked.strided 16 body i mptr ch
  if remaining ≠ 0 then
    let sums ← nh_16_2 ctx.nhkey (mptr + 16 * i) (remainingWords remaining)
    return do_l3 ctx remaining (polyStepHalves ctx.polyKeys ch sums)
  else return do_l3 ctx remaining ch

def addKeys (ctx : Context) (sums : Halves) : Halves :=
  (ADD128 sums.1.masked ctx.polyKeys.1, ADD128 sums.2.masked ctx.polyKeys.2)

def vhash (mbytes : UInt32) (ctx : Context) : Tracked UInt64 Outcome :=
  let i := mbytes.toNat / 128
  let remaining := mbytes.toNat % 128
  if ctx.first_block_processed then
    vhashRest ctx 0 i remaining
      (⟨ctx.polytmp[0], ctx.polytmp[1]⟩, ⟨ctx.polytmp[2], ctx.polytmp[3]⟩)
  else if i ≠ 0 then do
    let sums ← nh_vmac_nhbytes_2 ctx.nhkey 0 16
    vhashRest ctx 16 (i - 1) remaining (addKeys ctx sums)
  else if remaining ≠ 0 then do
    let sums ← nh_16_2 ctx.nhkey 0 (remainingWords remaining)
    return do_l3 ctx remaining (addKeys ctx sums)
  else return do_l3 ctx remaining ctx.polyKeys

section Keys

variable (rijndael : Rijndael)

def vmac (mbytes : UInt32) (n : Vector UInt8 16) (ctx : Context) : Tracked UInt64 Outcome := do
  let tmp := rijndael.encrypt ctx.cipher_key n
  let hash ← vhash mbytes ctx
  return { hash with
    returned := hash.returned + get64BE tmp 0
    tagl := hash.tagl + get64BE tmp 1 }

/-- The block that is encrypted for the key words of a kind, with its counter. -/
def keyBlock (kind counter : UInt8) : Vector UInt8 16 :=
  #v[kind, 0, 0, 0, 0, 0, 0, 0, 0, 0, 0, 0, 0, 0, 0, counter]

def keyWord (cipher_key : Vector UInt32 44) (kind counter : UInt8) (index : ℕ) : UInt64 :=
  get64BE (rijndael.encrypt cipher_key (keyBlock kind counter)) index

/--
The draws of `vmac_set_key` for two words below `p64`, with the counter after them. The counter
is a byte, so the loop ends within 256 draws or never.
-/
def drawBelowP64 (cipher_key : Vector UInt32 44) : ℕ → UInt8 → Option ((UInt64 × UInt64) × UInt8)
  | 0, _ => none
  | draws + 1, counter =>
    let first := keyWord rijndael cipher_key 0xE0 counter 0
    let second := keyWord rijndael cipher_key 0xE0 counter 1
    if first ≥ p64 ∨ second ≥ p64 then drawBelowP64 cipher_key draws (counter + 1)
    else some ((first, second), counter + 1)

/-- Nothing if the draws never end. -/
def vmac_set_key (user_key : Vector UInt8 16) : Option Context := do
  let cipher_key := rijndael.keySetupEnc user_key
  let words (kind : UInt8) (i : ℕ) := keyWord rijndael cipher_key kind (.ofNat (i / 2)) (i % 2)
  let polykey := Vector.ofFn fun i : Fin 4 => words 0xC0 i &&& mpoly
  let (first, counter) ← drawBelowP64 rijndael cipher_key 256 0
  let (second, _) ← drawBelowP64 rijndael cipher_key 256 counter
  return {
    nhkey := Vector.ofFn fun i : Fin 18 => words 0x80 i
    polykey := polykey
    l3key := #v[first.1, first.2, second.1, second.2]
    polytmp := polykey
    cipher_key := cipher_key
    first_block_processed := false }

end Keys

section Reads

variable {kp : Vector UInt64 18} {ctx : Context} {mp mptr i remaining : ℕ}

theorem reads_nhBody (sums : Halves) :
    (nhBody kp mp i sums).Reads (Set.Ico (mp + i) (mp + i + 2)) := by
  have pairTwice : (nhBody kp mp i sums).Reads
      ({mp + i} ∪ ({mp + i + 1} ∪ ({mp + i} ∪ {mp + i + 1}))) := by
    apply (Tracked.Reads.load (mp + i)).bind
    intro first
    apply (Tracked.Reads.load (mp + i + 1)).bind
    intro second
    apply (Tracked.Reads.load (mp + i)).bind
    intro firstAgain
    exact (Tracked.Reads.load (mp + i + 1)).map
  apply pairTwice.congr
  ext index
  simp only [Set.mem_union, Set.mem_singleton_iff, Set.mem_Ico]
  omega

/-- The steps of two words go up to the number of words, rounded up. -/
theorem reads_nh_16_2 (nw : ℕ) :
    (nh_16_2 kp mp nw).Reads (Set.Ico mp (mp + 2 * ((nw + 1) / 2))) :=
  Tracked.Reads.strided (fun _ sums => reads_nhBody sums) _ 0 _

theorem reads_nhBody64 (sums : Halves) :
    (nhBody64 kp mp i sums).Reads (Set.Ico (mp + i) (mp + i + 8)) := by
  apply (reads_nhBody sums).bind_Ico _ (Nat.le_add_right _ 2) (by omega)
  intro sums
  apply (reads_nhBody sums).bind_Ico _ (Nat.le_add_right _ 2) (by omega)
  intro sums
  apply (reads_nhBody sums).bind_Ico _ (Nat.le_add_right _ 2) (by omega)
  exact fun sums => reads_nhBody sums

theorem reads_nh_vmac_nhbytes_2 (nw : ℕ) :
    (nh_vmac_nhbytes_2 kp mp nw).Reads (Set.Ico mp (mp + 8 * ((nw + 7) / 8))) :=
  Tracked.Reads.strided (fun _ sums => reads_nhBody64 sums) _ 0 _

theorem reads_remaining :
    (nh_16_2 kp mp (remainingWords remaining)).Reads
      (Set.Ico mp (mp + remainingWords remaining)) := by
  apply (reads_nh_16_2 _).congr
  rw [remainingWords]
  congr 2
  omega

theorem reads_vhashRest (ch : Halves) :
    (vhashRest ctx mptr i remaining ch).Reads
      (Set.Ico mptr (mptr + 16 * i + remainingWords remaining)) := by
  have blocks := fun body reads =>
    @Tracked.Reads.strided UInt64 Halves 16 0 body reads i mptr ch
  simp only [Nat.zero_add] at blocks
  apply (blocks _ fun mptr ch => (reads_nh_vmac_nhbytes_2 16).map).bind_Ico _
    (Nat.le_add_right _ _) (Nat.le_add_right _ _)
  intro ch
  split
  · exact reads_remaining.map
  · rename_i none
    apply (Tracked.Reads.pure _).congr
    simp [remainingWords, not_not.mp none]

/-- Whatever the context holds, the words are those of the length rounded up to 16 bytes. -/
theorem reads_vhash (mbytes : UInt32) :
    (vhash mbytes ctx).Reads (Set.Ico 0 (2 * ((mbytes.toNat + 15) / 16))) := by
  have words : 2 * ((mbytes.toNat + 15) / 16) =
      16 * (mbytes.toNat / 128) + remainingWords (mbytes.toNat % 128) := by
    rw [remainingWords]
    omega
  rw [words, vhash]
  generalize mbytes.toNat / 128 = i
  generalize mbytes.toNat % 128 = remaining
  split
  · apply (reads_vhashRest _).congr
    rw [Nat.zero_add]
  split
  · rename_i some
    apply (reads_nh_vmac_nhbytes_2 16).bind_Ico _ (Nat.zero_le _) (by omega)
    intro sums
    apply (reads_vhashRest _).congr
    congr 1
    omega
  rename_i none
  split
  · apply (reads_remaining.map).congr
    simp [not_not.mp none]
  · rename_i noneRemaining
    apply (Tracked.Reads.pure _).congr
    simp [remainingWords, not_not.mp none, not_not.mp noneRemaining]

theorem reads_vmac (rijndael : Rijndael) (mbytes : UInt32) (n : Vector UInt8 16) :
    (vmac rijndael mbytes n ctx).Reads (Set.Ico 0 (2 * ((mbytes.toNat + 15) / 16))) :=
  (reads_vhash mbytes).map

end Reads

/-- Nothing of an earlier message is in the context. -/
def Context.Ready (ctx : Context) : Prop :=
  vhash_abort ctx = ctx

section Contexts

variable {rijndael : Rijndael} {ctx : Context} {memory : ℕ → UInt64}

theorem ready_of_vmac_set_key {user_key : Vector UInt8 16}
    (set : vmac_set_key rijndael user_key = some ctx) : ctx.Ready := by
  simp only [vmac_set_key, Option.bind_eq_bind, Option.bind_eq_some_iff] at set
  rcases set with ⟨first, _, second, _, result⟩
  rcases Option.some.inj result with rfl
  rfl

theorem ctx_vhashRest (mptr i remaining : ℕ) (ch : Halves) :
    ((vhashRest ctx mptr i remaining ch).run memory).1.ctx = vhash_abort ctx := by
  rw [vhashRest, Tracked.value_bind]
  split
  · rfl
  · rfl

/-- After a hash the context is as `vhash_abort` leaves it. -/
theorem ctx_vhash (mbytes : UInt32) :
    ((vhash mbytes ctx).run memory).1.ctx = vhash_abort ctx := by
  rw [vhash]
  split
  · rw [ctx_vhashRest]
  split
  · rw [Tracked.value_bind, ctx_vhashRest]
  split
  · rw [Tracked.value_bind]
    rfl
  · rfl

theorem ctx_vmac (mbytes : UInt32) (n : Vector UInt8 16) :
    ((vmac rijndael mbytes n ctx).run memory).1.ctx = vhash_abort ctx :=
  ctx_vhash mbytes

end Contexts

end Vmac

end KeyValueClusterPerf
