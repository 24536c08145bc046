import KeyValueClusterPerf.MessageSender.Vmac

/-!
# The builds of `vmac.c`

The inner products and the step of the polynomial are written for 64-bit registers, and once more
with products of 32-bit words for the architectures that have nothing else. The functions that take
a message piece by piece are the same for both.
-/

namespace KeyValueClusterPerf

namespace Vmac

open Loads

def MUL32 (i1 i2 : UInt32) : UInt64 :=
  i1.toUInt64 * i2.toUInt64

-- The macros of `vmac.c` for an architecture that defines none of its own.
namespace Default

def ADD128 (target summand : Registers) : Registers :=
  let low := target.low + summand.low
  let high := if low < summand.low then target.high + 1 else target.high
  ⟨high + summand.high, low⟩

def PMUL64 (left right : UInt64) : Registers :=
  let m := MUL32 left.toUInt32 (right >>> 32).toUInt32 + MUL32 (left >>> 32).toUInt32 right.toUInt32
  ADD128
    ⟨MUL32 (left >>> 32).toUInt32 (right >>> 32).toUInt32, MUL32 left.toUInt32 right.toUInt32⟩
    ⟨m >>> 32, m <<< 32⟩

def MUL64 (left right : UInt64) : Registers :=
  let m1 := MUL32 left.toUInt32 (right >>> 32).toUInt32
  let m2 := MUL32 (left >>> 32).toUInt32 right.toUInt32
  let r : Registers :=
    ⟨MUL32 (left >>> 32).toUInt32 (right >>> 32).toUInt32, MUL32 left.toUInt32 right.toUInt32⟩
  ADD128 (ADD128 r ⟨m1 >>> 32, m1 <<< 32⟩) ⟨m2 >>> 32, m2 <<< 32⟩

end Default

section Compression

variable (kp : Vector UInt64 18) (mp : ℕ)

/--
The body of `nh_16` on 32-bit architectures; `t` collects the low halves of the mixed products.
The keys begin `shift` words into the array.
-/
def nh_16_body (shift i : ℕ) (state : Registers × UInt64) :
    Tracked UInt64 (Registers × UInt64) := do
  let (r, t) := state
  let t1 := (← get64PE (mp + i)) + kp[shift + i]!
  let t2 := (← get64PE (mp + i + 1)) + kp[shift + i + 1]!
  let m2 := MUL32 (t1 >>> 32).toUInt32 t2.toUInt32
  let m1 := MUL32 t1.toUInt32 (t2 >>> 32).toUInt32
  let r := Default.ADD128 r
    ⟨MUL32 (t1 >>> 32).toUInt32 (t2 >>> 32).toUInt32, MUL32 t1.toUInt32 t2.toUInt32⟩
  return ({ r with high :=
      r.high + ((m1 >>> 32).toUInt32.toUInt64 + (m2 >>> 32).toUInt32.toUInt64) },
    t + (m1.toUInt32.toUInt64 + m2.toUInt32.toUInt64))

def nh_16 (shift nw : ℕ) : Tracked UInt64 Registers := do
  let (r, t) ← Tracked.strided 2 (nh_16_body kp mp shift) ((nw + 1) / 2) 0 (⟨0, 0⟩, 0)
  return Default.ADD128 r ⟨t >>> 32, t <<< 32⟩

/-- Without a version of its own, the second product takes the message once more. -/
def nh_16_twice (nw : ℕ) : Tracked UInt64 Halves := do
  let first ← nh_16 kp mp 0 nw
  let second ← nh_16 kp mp 2 nw
  return (first, second)

end Compression

def poly_step_func (a k m : Registers) : Registers :=
  let a0 := a.low.toUInt32
  let a1 := (a.low >>> 32).toUInt32
  let a2 := a.high.toUInt32
  let a3 := (a.high >>> 32).toUInt32
  let k0 := k.low.toUInt32
  let k1 := (k.low >>> 32).toUInt32
  let k2 := k.high.toUInt32
  let k3 := (k.high >>> 32).toUInt32
  let p := MUL32 a3 k3
  let p := p + p
  let p := p + m.high + MUL32 a0 k2 + MUL32 a1 k1 + MUL32 a2 k0
  let t := p.toUInt32.toUInt64
  let p := p >>> 32
  let p := p + MUL32 a0 k3 + MUL32 a1 k2 + MUL32 a2 k1 + MUL32 a3 k0
  let t := t ||| (p.toUInt32 &&& 0x7fffffff).toUInt64 <<< 32
  let p := p >>> 31
  let p := p + m.low.toUInt32.toUInt64 + MUL32 a0 k0
  let q := MUL32 a1 k3 + MUL32 a2 k2 + MUL32 a3 k1
  let q := q + q
  let p := p + q
  let t2 := p.toUInt32
  let p := p >>> 32
  let p := p + (m.low >>> 32).toUInt32.toUInt64 + MUL32 a0 k1 + MUL32 a1 k0
  let q := MUL32 a2 k3 + MUL32 a3 k2
  let q := q + q
  let p := p + q
  ⟨(p >>> 32) + t, p <<< 32 ||| t2.toUInt64⟩

/-- What is defined for each architecture on its own. -/
structure Build where
  nh_16_2 : Vector UInt64 18 → ℕ → ℕ → Tracked UInt64 Halves
  nh_vmac_nhbytes_2 : Vector UInt64 18 → ℕ → ℕ → Tracked UInt64 Halves
  poly_step : Registers → Registers → Registers → Registers

/-- For 64-bit registers. -/
def Build.wide : Build :=
  ⟨Vmac.nh_16_2, Vmac.nh_vmac_nhbytes_2, Vmac.poly_step⟩

/-- For 32-bit registers without SSE2. -/
def Build.narrow : Build :=
  ⟨nh_16_twice, nh_16_twice, poly_step_func⟩

/-- What `vhash_update` stores at its end. -/
def Context.stored (ctx : Context) (ch : Halves) : Context :=
  { ctx with
    polytmp := #v[ch.1.high, ch.1.low, ch.2.high, ch.2.low]
    first_block_processed := true }

def addMasked (target sums : Halves) : Halves :=
  (ADD128 target.1 sums.1.masked, ADD128 target.2 sums.2.masked)

namespace Build

variable (build : Build)

def polyStepHalves (pk ch sums : Halves) : Halves :=
  (build.poly_step ch.1 pk.1 sums.1.masked, build.poly_step ch.2 pk.2 sums.2.masked)

/-- The loop over whole blocks, in all functions that hash. -/
def steps (ctx : Context) (i mptr : ℕ) (ch : Halves) : Tracked UInt64 Halves :=
  let body := fun mptr ch => do
    let sums ← build.nh_vmac_nhbytes_2 ctx.nhkey mptr 16
    return build.polyStepHalves ctx.polyKeys ch sums
  Tracked.strided 16 body i mptr ch

/-- The number of blocks must not be zero. -/
def vhash_update (mbytes : UInt32) (ctx : Context) : Tracked UInt64 Context := do
  let i := mbytes.toNat / 128
  let ch ←
    if !ctx.first_block_processed then do
      let sums ← build.nh_vmac_nhbytes_2 ctx.nhkey 0 16
      build.steps ctx (i - 1) 16 (addMasked ctx.polyTmp sums)
    else build.steps ctx i 0 ctx.polyTmp
  return ctx.stored ch

def xvhash (mbytes : UInt32) (ctx : Context) : Tracked UInt64 Outcome := do
  let remaining := mbytes.toNat % 128
  let i := mbytes.toNat - remaining
  let ctx ← if i ≠ 0 then build.vhash_update (.ofNat i) ctx else pure ctx
  let ch := ctx.polyTmp
  if remaining ≠ 0 then
    let sums ← build.nh_16_2 ctx.nhkey (i / 8) (remainingWords remaining)
    return do_l3 ctx remaining
      (if i ≠ 0 then build.polyStepHalves ctx.polyKeys ch sums else addMasked ch sums)
  else return do_l3 ctx remaining ch

def vhashRest (ctx : Context) (mptr i remaining : ℕ) (ch : Halves) : Tracked UInt64 Outcome := do
  let ch ← build.steps ctx i mptr ch
  if remaining ≠ 0 then
    let sums ← build.nh_16_2 ctx.nhkey (mptr + 16 * i) (remainingWords remaining)
    return do_l3 ctx remaining (build.polyStepHalves ctx.polyKeys ch sums)
  else return do_l3 ctx remaining ch

def vhash (mbytes : UInt32) (ctx : Context) : Tracked UInt64 Outcome :=
  let i := mbytes.toNat / 128
  let remaining := mbytes.toNat % 128
  if ctx.first_block_processed then build.vhashRest ctx 0 i remaining ctx.polyTmp
  else if i ≠ 0 then do
    let sums ← build.nh_vmac_nhbytes_2 ctx.nhkey 0 16
    build.vhashRest ctx 16 (i - 1) remaining (addKeys ctx sums)
  else if remaining ≠ 0 then do
    let sums ← build.nh_16_2 ctx.nhkey 0 (remainingWords remaining)
    return do_l3 ctx remaining (addKeys ctx sums)
  else return do_l3 ctx remaining ctx.polyKeys

def vmac (rijndael : Rijndael) (mbytes : UInt32) (n : Vector UInt8 16) (ctx : Context) :
    Tracked UInt64 Outcome := do
  let tmp := rijndael.encrypt ctx.cipher_key n
  let hash ← build.vhash mbytes ctx
  return { hash with
    returned := hash.returned + get64BE tmp 0
    tagl := hash.tagl + get64BE tmp 1 }

/-- On 64-bit architectures these are the functions as they stand above. -/
theorem vhash_wide : wide.vhash = Vmac.vhash :=
  rfl

theorem vmac_wide : wide.vmac = Vmac.vmac :=
  rfl

end Build

end Vmac

end KeyValueClusterPerf
