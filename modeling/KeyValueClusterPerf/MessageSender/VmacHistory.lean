import KeyValueClusterPerf.MessageSender.RijndaelKeys
import KeyValueClusterPerf.MessageSender.VmacNarrow

/-!
# Hashing a message piece by piece

`vmac.h` lets a caller pass the blocks of a message one after the other and hash the remainder
last. Whatever is called in which order, what is returned is the hash of the message that the
calls since the last one have passed, in both builds.
-/

namespace KeyValueClusterPerf

namespace Vmac

open Loads PseudoMersenne UniversalHash

/-- The keys that one half of a tag is made with. -/
def Context.firstKeys (ctx : Context) : Keys where
  nh := keyWords ctx.nhkey 0
  poly := ctx.polyKeys.1.toNat
  inner := ctx.l3key[0]!.toNat
  outer := ctx.l3key[1]!.toNat

def Context.secondKeys (ctx : Context) : Keys where
  nh := keyWords ctx.nhkey 2
  poly := ctx.polyKeys.2.toNat
  inner := ctx.l3key[2]!.toNat
  outer := ctx.l3key[3]!.toNat

/-- The masks and the draws of `vmac_set_key` have this effect. -/
structure Context.WellKeyed (ctx : Context) : Prop where
  polykey : ∀ index : Fin 4, IsPolyWord ctx.polykey[index]
  l3key : ∀ index : Fin 4, ctx.l3key[index] < p64

section Blocks

variable {build : Build} {ctx : Context} {words other : ℕ → ℕ} {bytes count : ℕ} {ch sums : Halves}
  {memory : ℕ → UInt64} {mp : ℕ}

/-- The registers stand for both polynomials over the first blocks of a message. -/
def Evaluates (ctx : Context) (words : ℕ → ℕ) (bytes count : ℕ) (ch : Halves) : Prop :=
  ch.1.toNat ≡ polynomial ctx.firstKeys.poly (blockHash ctx.firstKeys words bytes) count
      [MOD 2 ^ 127 - 1] ∧
    ch.2.toNat ≡ polynomial ctx.secondKeys.poly (blockHash ctx.secondKeys words bytes) count
      [MOD 2 ^ 127 - 1]

/-- The words of the memory are those of a block of the message. -/
def ReadsBlock (words : ℕ → ℕ) (bytes count : ℕ) (memory : ℕ → UInt64) (mp : ℕ) : Prop :=
  ∀ index < 2 * min 8 ((bytes - 128 * count + 15) / 16),
    messageWords memory mp index = words (16 * count + index)

/-- What is read of a block is hashed to what the polynomial takes of it. -/
theorem blockHash_of_hashes (block : ReadsBlock words bytes count memory mp)
    (hashes : Hashes ctx.nhkey memory mp (min 8 ((bytes - 128 * count + 15) / 16)) sums) :
    sums.1.masked.toNat = blockHash ctx.firstKeys words bytes count ∧
      sums.2.masked.toNat = blockHash ctx.secondKeys words bytes count := by
  have same (key : ℕ → ℕ) := @nhSum_congr key _ _ _ block
  rcases hashes with ⟨first, second⟩
  rw [nh, same] at first second
  exact ⟨first, second⟩

theorem Evaluates.step (evaluates : Evaluates ctx words bytes count ch)
    (computes : build.Computes) (wellKeyed : ctx.WellKeyed)
    (block : ReadsBlock words bytes count memory mp)
    (hashes : Hashes ctx.nhkey memory mp (min 8 ((bytes - 128 * count + 15) / 16)) sums) :
    Evaluates ctx words bytes (count + 1) (build.polyStepHalves ctx.polyKeys ch sums) := by
  rcases blockHash_of_hashes block hashes with ⟨first, second⟩
  have firstStep := @Build.Computes.poly_step build computes ch.1 ctx.polyKeys.1 sums.1.masked
    (wellKeyed.polykey 0) (wellKeyed.polykey 1) (high_masked_lt sums.1)
  have secondStep := @Build.Computes.poly_step build computes ch.2 ctx.polyKeys.2 sums.2.masked
    (wellKeyed.polykey 2) (wellKeyed.polykey 3) (high_masked_lt sums.2)
  rw [first] at firstStep
  rw [second] at secondStep
  rw [Evaluates, polynomial_succ, polynomial_succ]
  exact ⟨firstStep.trans ((evaluates.1.mul_right _).add_right _),
    secondStep.trans ((evaluates.2.mul_right _).add_right _)⟩

theorem toNat_polyKey_lt {high low : UInt64} (highMasked : IsPolyWord high) :
    (⟨high, low⟩ : Registers).toNat < 2 ^ 125 := by
  have highLt := highMasked.lt
  have lowLt := low.toNat_lt
  rw [Registers.toNat_mk]
  omega

/-- The first block is added to the key, which stands for the leading coefficient. -/
theorem Evaluates.first (wellKeyed : ctx.WellKeyed) (block : ReadsBlock words bytes 0 memory mp)
    (hashes : Hashes ctx.nhkey memory mp (min 8 ((bytes - 128 * 0 + 15) / 16)) sums) :
    Evaluates ctx words bytes 1 (addMasked ctx.polyKeys sums) := by
  rcases blockHash_of_hashes block hashes with ⟨first, second⟩
  have firstLt : ctx.polyKeys.1.toNat < 2 ^ 125 := toNat_polyKey_lt (wellKeyed.polykey 0)
  have secondLt : ctx.polyKeys.2.toNat < 2 ^ 125 := toNat_polyKey_lt (wellKeyed.polykey 2)
  have firstCut := toNat_masked sums.1
  have secondCut := toNat_masked sums.2
  have firstSum := @toNat_ADD128_of_lt ctx.polyKeys.1 sums.1.masked (by omega)
  have secondSum := @toNat_ADD128_of_lt ctx.polyKeys.2 sums.2.masked (by omega)
  simp only [Evaluates, addMasked, polynomial_succ, polynomial_zero, one_mul, firstSum, secondSum,
    first, second]
  exact ⟨rfl, rfl⟩

theorem addKeys_eq (ctx : Context) (sums : Halves) :
    addKeys ctx sums = addMasked ctx.polyKeys sums := by
  have comm (left right : Registers) : ADD128 left right = ADD128 right left := by
    apply Registers.toNat_injective
    rw [toNat_ADD128, toNat_ADD128, Nat.add_comm]
  rw [addKeys, addMasked, comm, comm ctx.polyKeys.2]

/-- Only the words of the blocks so far matter, and that these are whole. -/
theorem Evaluates.congr {otherBytes : ℕ} (evaluates : Evaluates ctx words bytes count ch)
    (whole : 128 * count ≤ bytes) (otherWhole : 128 * count ≤ otherBytes)
    (same : ∀ index < 16 * count, words index = other index) :
    Evaluates ctx other otherBytes count ch := by
  have hashes (keys : Keys) : ∀ block < count,
      blockHash keys words bytes block = blockHash keys other otherBytes block := by
    intro block below
    have full : min 8 ((bytes - 128 * block + 15) / 16) = 8 := by omega
    have otherFull : min 8 ((otherBytes - 128 * block + 15) / 16) = 8 := by omega
    rw [blockHash, blockHash, full, otherFull, nh, nh]
    congr 1
    apply nhSum_congr
    intro index indexLt
    exact same (16 * block + index) (by omega)
  rw [Evaluates, polynomial_congr (hashes ctx.firstKeys),
    polynomial_congr (hashes ctx.secondKeys)] at evaluates
  exact evaluates

/-- The loop over whole blocks. -/
theorem Evaluates.steps {i mptr : ℕ} (evaluates : Evaluates ctx words bytes count ch)
    (computes : build.Computes) (wellKeyed : ctx.WellKeyed)
    (whole : 128 * (count + i) ≤ bytes)
    (reads : ∀ index < 16 * i, messageWords memory mptr index = words (16 * count + index)) :
    Evaluates ctx words bytes (count + i) ((build.steps ctx i mptr ch).run memory).1 := by
  apply @Tracked.strided_induction _ _ _ _ _ fun done => Evaluates ctx words bytes (count + done)
  · exact evaluates
  · intro done below ch held
    have full : min 8 ((bytes - 128 * (count + done) + 15) / 16) = 8 := by omega
    have block : ReadsBlock words bytes (count + done) memory (mptr + 16 * done) := by
      intro index indexLt
      have word := reads (16 * done + index) (by omega)
      rw [Nat.mul_add, Nat.add_assoc, ← word, messageWords, messageWords, Nat.add_assoc]
    apply held.step computes wellKeyed block
    rw [full]
    exact computes.nh_vmac_nhbytes_2 ctx.nhkey memory (mptr + 16 * done)

/-- The last level, once all blocks are in the registers. -/
theorem Evaluates.do_l3 (evaluates : Evaluates ctx words bytes (blockCount bytes) ch)
    (wellKeyed : ctx.WellKeyed) :
    (do_l3 ctx (bytes % 128) ch).returned.toNat = UniversalHash.vhash ctx.firstKeys words bytes ∧
      (do_l3 ctx (bytes % 128) ch).tagl.toNat = UniversalHash.vhash ctx.secondKeys words bytes := by
  have lenEq : (UInt64.ofNat (bytes % 128 * 8)).toNat = 8 * (bytes % 128) := by
    rw [UInt64.toNat_ofNat']
    omega
  have small : (UInt64.ofNat (bytes % 128 * 8)).toNat < 2 ^ 62 := by omega
  have firstSame := evaluates.1.add_right (2 ^ 64 * (8 * (bytes % 128)))
  have secondSame := evaluates.2.add_right (2 ^ 64 * (8 * (bytes % 128)))
  have firstValue := @toNat_l3hash ch.1 _ ctx.l3key[0] ctx.l3key[1] small (wellKeyed.l3key 0)
    (wellKeyed.l3key 1)
  have secondValue := @toNat_l3hash ch.2 _ ctx.l3key[2] ctx.l3key[3] small (wellKeyed.l3key 2)
    (wellKeyed.l3key 3)
  rw [lenEq, firstSame] at firstValue
  rw [lenEq, secondSame] at secondValue
  exact ⟨firstValue, secondValue⟩

end Blocks

section Functions

variable {build : Build} {ctx : Context} {words : ℕ → ℕ} {bytes count : ℕ} {mbytes : UInt32}
  {memory : ℕ → UInt64}

/-- The blocks of a message that a context has taken so far; it may have taken none. -/
inductive Continues (ctx : Context) (words : ℕ → ℕ) (bytes : ℕ) : ℕ → Prop
  | fresh (ready : ctx.Ready) : Continues ctx words bytes 0
  | begun {count : ℕ} (processed : ctx.first_block_processed = true) (positive : 0 < count)
      (evaluates : Evaluates ctx words bytes count ctx.polyTmp) : Continues ctx words bytes count

theorem Continues.evaluates (continues : Continues ctx words bytes count) (positive : 0 < count) :
    Evaluates ctx words bytes count ctx.polyTmp := by
  cases continues with
  | fresh ready => exact absurd positive (lt_irrefl 0)
  | begun processed positive evaluates => exact evaluates

section Keys

variable {later : Context}

theorem firstKeys_of_abort (same : vhash_abort later = vhash_abort ctx) :
    later.firstKeys = ctx.firstKeys := by
  have aborted : (vhash_abort later).firstKeys = (vhash_abort ctx).firstKeys := by rw [same]
  exact aborted

theorem secondKeys_of_abort (same : vhash_abort later = vhash_abort ctx) :
    later.secondKeys = ctx.secondKeys := by
  have aborted : (vhash_abort later).secondKeys = (vhash_abort ctx).secondKeys := by rw [same]
  exact aborted

theorem Context.WellKeyed.of_abort (wellKeyed : ctx.WellKeyed)
    (same : vhash_abort later = vhash_abort ctx) : later.WellKeyed where
  polykey := by
    have polykey : (vhash_abort later).polykey = (vhash_abort ctx).polykey := by rw [same]
    change later.polykey = ctx.polykey at polykey
    rw [polykey]
    exact wellKeyed.polykey
  l3key := by
    have l3key : (vhash_abort later).l3key = (vhash_abort ctx).l3key := by rw [same]
    change later.l3key = ctx.l3key at l3key
    rw [l3key]
    exact wellKeyed.l3key

end Keys

theorem Context.Ready.unprocessed (ready : ctx.Ready) : ctx.first_block_processed = false := by
  rw [← ready]
  rfl

theorem Context.Ready.polyTmp_eq (ready : ctx.Ready) : ctx.polyTmp = ctx.polyKeys := by
  have same : ctx.polytmp = ctx.polykey := congrArg Context.polytmp ready.symm
  rw [polyTmp, polyKeys, same]

/-- The remainder is one more block, unless it is empty. -/
theorem vhashRest_spec {i mptr : ℕ} {ch : Halves} (computes : build.Computes)
    (wellKeyed : ctx.WellKeyed) (positive : 0 < count)
    (evaluates : Evaluates ctx words bytes count ch)
    (blocks : bytes / 128 = count + i)
    (reads : ∀ index < 16 * i + remainingWords (bytes % 128),
      messageWords memory mptr index = words (16 * count + index)) :
    let outcome := ((build.vhashRest ctx mptr i (bytes % 128) ch).run memory).1
    outcome.returned.toNat = UniversalHash.vhash ctx.firstKeys words bytes ∧
      outcome.tagl.toNat = UniversalHash.vhash ctx.secondKeys words bytes := by
  have later : Evaluates ctx words bytes (count + i)
      ((build.steps ctx i mptr ch).run memory).1 :=
    evaluates.steps computes wellKeyed (by omega) fun index below => reads index (by omega)
  rw [Build.vhashRest, Tracked.value_bind]
  split
  · rename_i some
    have one : blockCount bytes = count + i + 1 := by
      rw [blockCount]
      omega
    have rest : remainingWords (bytes % 128) =
        2 * min 8 ((bytes - 128 * (count + i) + 15) / 16) := by
      rw [remainingWords]
      omega
    have block : ReadsBlock words bytes (count + i) memory (mptr + 16 * i) := by
      intro index below
      have word := reads (16 * i + index) (by omega)
      rw [Nat.mul_add, Nat.add_assoc, ← word, messageWords, messageWords, Nat.add_assoc]
    have hashes := computes.nh_16_2 ctx.nhkey memory (mptr + 16 * i) _ (Nat.min_le_left 8
      ((bytes - 128 * (count + i) + 15) / 16))
    rw [← rest] at hashes
    have last := later.step computes wellKeyed block hashes
    rw [← one] at last
    exact last.do_l3 wellKeyed
  · rename_i none
    have zero : blockCount bytes = count + i := by
      rw [blockCount]
      omega
    rw [← zero] at later
    exact later.do_l3 wellKeyed

/-- The words of a block are read from the beginning of the memory. -/
theorem Evaluates.firstBlock (computes : build.Computes) (wellKeyed : ctx.WellKeyed)
    (full : 128 ≤ bytes)
    (reads : ∀ index < 16, messageWords memory 0 index = words index) :
    Evaluates ctx words bytes 1 (addMasked ctx.polyKeys
      ((build.nh_vmac_nhbytes_2 ctx.nhkey 0 16).run memory).1) := by
  have eight : min 8 ((bytes - 128 * 0 + 15) / 16) = 8 := by omega
  have block : ReadsBlock words bytes 0 memory 0 := by
    intro index below
    rw [reads index (by omega), Nat.mul_zero, Nat.zero_add]
  have hashes := computes.nh_vmac_nhbytes_2 ctx.nhkey memory 0
  rw [← eight] at hashes
  exact Evaluates.first wellKeyed block hashes

/-- A hash of the remainder is the hash of the whole message. -/
theorem vhash_spec (computes : build.Computes) (wellKeyed : ctx.WellKeyed)
    (continues : Continues ctx words bytes count) (total : bytes = 128 * count + mbytes.toNat)
    (reads : ∀ index < 2 * ((mbytes.toNat + 15) / 16),
      messageWords memory 0 index = words (16 * count + index)) :
    let outcome := ((build.vhash mbytes ctx).run memory).1
    outcome.returned.toNat = UniversalHash.vhash ctx.firstKeys words bytes ∧
      outcome.tagl.toNat = UniversalHash.vhash ctx.secondKeys words bytes := by
  have remaining : mbytes.toNat % 128 = bytes % 128 := by omega
  have rest : remainingWords (bytes % 128) = 2 * ((bytes % 128 + 15) / 16) := rfl
  rw [Build.vhash, remaining]
  cases continues with
  | begun processed positive evaluates =>
      rw [if_pos processed]
      apply vhashRest_spec computes wellKeyed positive evaluates
      · omega
      · intro index below
        exact reads index (by omega)
  | fresh ready =>
      have unprocessed : ¬ctx.first_block_processed = true := by simp [ready.unprocessed]
      rw [if_neg unprocessed]
      simp only [Nat.mul_zero, Nat.zero_add] at reads total
      split
      · have first : Evaluates ctx words bytes 1 (addKeys ctx
            ((build.nh_vmac_nhbytes_2 ctx.nhkey 0 16).run memory).1) := by
          rw [addKeys_eq]
          exact Evaluates.firstBlock computes wellKeyed (by omega) fun index below =>
            reads index (by omega)
        rw [Tracked.value_bind]
        apply vhashRest_spec computes wellKeyed Nat.one_pos first
        · omega
        · intro index below
          have word := reads (16 + index) (by omega)
          rw [Nat.mul_one, ← word, messageWords, messageWords, Nat.zero_add]
      split
      · rename_i short some
        have one : blockCount bytes = 1 := by
          rw [blockCount]
          omega
        have pairs : remainingWords (bytes % 128) =
            2 * min 8 ((bytes - 128 * 0 + 15) / 16) := by omega
        have block : ReadsBlock words bytes 0 memory 0 := by
          intro index below
          rw [reads index (by omega), Nat.mul_zero, Nat.zero_add]
        have hashes := computes.nh_16_2 ctx.nhkey memory 0 _ (Nat.min_le_left 8
          ((bytes - 128 * 0 + 15) / 16))
        rw [← pairs] at hashes
        have first := Evaluates.first wellKeyed block hashes
        rw [← addKeys_eq, ← one] at first
        exact first.do_l3 wellKeyed
      · rename_i short none
        have empty : bytes = 0 := by omega
        subst empty
        have key : Evaluates ctx words 0 (blockCount 0) ctx.polyKeys := by
          simp [Evaluates, blockCount, polynomial_succ, blockHash, nh, nhSum, Context.firstKeys,
            Context.secondKeys, Nat.ModEq]
        exact key.do_l3 wellKeyed

/-- The polynomials after some blocks that are passed. -/
def Build.taken (build : Build) (mbytes : UInt32) (ctx : Context) : Tracked UInt64 Halves :=
  if ctx.first_block_processed then build.steps ctx (mbytes.toNat / 128) 0 ctx.polyTmp
  else build.nh_vmac_nhbytes_2 ctx.nhkey 0 16 >>= fun sums =>
    build.steps ctx (mbytes.toNat / 128 - 1) 16 (addMasked ctx.polyTmp sums)

theorem vhash_update_eq (build : Build) (mbytes : UInt32) (ctx : Context) :
    build.vhash_update mbytes ctx =
      build.taken mbytes ctx >>= fun ch => pure (ctx.stored ch) := by
  rw [Build.vhash_update, Build.taken]
  cases ctx.first_block_processed with
  | true => rfl
  | false =>
      simp only [Bool.not_false, if_true, Bool.false_eq_true, if_false, bind_assoc]

/-- Passing blocks changes nothing of a context but the polynomials. -/
theorem abort_vhash_update :
    vhash_abort ((build.vhash_update mbytes ctx).run memory).1 = vhash_abort ctx := by
  rw [vhash_update_eq]
  rfl

/-- Blocks that are passed are taken into the polynomials. -/
theorem vhash_update_spec (computes : build.Computes) (wellKeyed : ctx.WellKeyed)
    (continues : Continues ctx words bytes count) (some : 128 ≤ mbytes.toNat)
    (whole : 128 * (count + mbytes.toNat / 128) ≤ bytes)
    (reads : ∀ index < 16 * (mbytes.toNat / 128),
      messageWords memory 0 index = words (16 * count + index)) :
    Continues ((build.vhash_update mbytes ctx).run memory).1 words bytes
      (count + mbytes.toNat / 128) := by
  rw [vhash_update_eq]
  apply Continues.begun rfl (by omega)
  change Evaluates ctx words bytes (count + mbytes.toNat / 128)
    ((build.taken mbytes ctx).run memory).1
  rw [Build.taken]
  cases continues with
  | begun processed positive evaluates =>
      rw [if_pos processed]
      exact evaluates.steps computes wellKeyed whole reads
  | fresh ready =>
      have unprocessed : ¬ctx.first_block_processed = true := by simp [ready.unprocessed]
      simp only [Nat.mul_zero, Nat.zero_add] at reads whole ⊢
      have full : 128 ≤ bytes := by omega
      have first := Evaluates.firstBlock computes wellKeyed full fun index below =>
        reads index (by omega)
      have later := @Evaluates.steps build ctx words bytes 1 _ memory (mbytes.toNat / 128 - 1) 16
        first computes wellKeyed (by omega)
      have blocks : 1 + (mbytes.toNat / 128 - 1) = mbytes.toNat / 128 := by omega
      rw [blocks] at later
      rw [if_neg unprocessed, ready.polyTmp_eq, Tracked.value_bind]
      apply later
      intro index below
      have word := reads (16 + index) (by omega)
      rw [Nat.mul_one, ← word, messageWords, messageWords, Nat.zero_add]

/-- With at least one block, `xvhash` passes the blocks and goes on behind them. -/
theorem xvhash_of_block (some : 128 ≤ mbytes.toNat) :
    build.xvhash mbytes ctx =
      build.vhash_update (.ofNat (mbytes.toNat - mbytes.toNat % 128)) ctx >>= fun ctx =>
        build.vhashRest ctx ((mbytes.toNat - mbytes.toNat % 128) / 8) 0 (mbytes.toNat % 128)
          ctx.polyTmp := by
  have blocks : mbytes.toNat - mbytes.toNat % 128 ≠ 0 := by omega
  rw [Build.xvhash]
  simp only [ne_eq, blocks, not_false_eq_true, if_true]
  rfl

/-- Without a block it does what `vhash` does, if nothing is passed before or nothing is left. -/
theorem xvhash_of_short (continues : Continues ctx words bytes count)
    (short : mbytes.toNat < 128) (alone : count = 0 ∨ mbytes.toNat = 0) :
    build.xvhash mbytes ctx = build.vhash mbytes ctx := by
  have none : mbytes.toNat - mbytes.toNat % 128 = 0 := by omega
  have zero : mbytes.toNat / 128 = 0 := by omega
  rw [Build.xvhash, Build.vhash]
  simp only [none, zero, ne_eq, not_true_eq_false, if_false, pure_bind]
  cases continues with
  | begun processed positive evaluates =>
      have empty : mbytes.toNat % 128 = 0 := by omega
      simp only [empty, not_true_eq_false, if_false, if_pos processed]
      rfl
  | fresh ready =>
      have unprocessed : ¬ctx.first_block_processed = true := by simp [ready.unprocessed]
      rw [if_neg unprocessed, ready.polyTmp_eq]
      split
      · exact bind_congr fun sums =>
          congrArg pure (congrArg (do_l3 ctx _) (addKeys_eq ctx sums).symm)
      · rfl

theorem xvhash_spec (computes : build.Computes) (wellKeyed : ctx.WellKeyed)
    (continues : Continues ctx words bytes count) (total : bytes = 128 * count + mbytes.toNat)
    (alone : count = 0 ∨ 128 ≤ mbytes.toNat ∨ mbytes.toNat = 0)
    (reads : ∀ index < 2 * ((mbytes.toNat + 15) / 16),
      messageWords memory 0 index = words (16 * count + index)) :
    let outcome := ((build.xvhash mbytes ctx).run memory).1
    outcome.returned.toNat = UniversalHash.vhash ctx.firstKeys words bytes ∧
      outcome.tagl.toNat = UniversalHash.vhash ctx.secondKeys words bytes := by
  by_cases some : 128 ≤ mbytes.toNat
  · have blocksLt := mbytes.toNat_lt
    have blocks : (UInt32.ofNat (mbytes.toNat - mbytes.toNat % 128)).toNat =
        mbytes.toNat - mbytes.toNat % 128 := by
      rw [UInt32.toNat_ofNat']
      omega
    have count_eq : (mbytes.toNat - mbytes.toNat % 128) / 128 = mbytes.toNat / 128 := by omega
    have taken := @vhash_update_spec build ctx words bytes count
      (.ofNat (mbytes.toNat - mbytes.toNat % 128)) memory computes wellKeyed continues
    rw [blocks, count_eq] at taken
    have continued := taken (by omega) (by omega) fun index below => reads index (by omega)
    have aborted := @abort_vhash_update build ctx
      (.ofNat (mbytes.toNat - mbytes.toNat % 128)) memory
    rw [xvhash_of_block some, Tracked.value_bind]
    generalize ((build.vhash_update (.ofNat (mbytes.toNat - mbytes.toNat % 128)) ctx).run
      memory).1 = later at continued aborted ⊢
    have remaining : mbytes.toNat % 128 = bytes % 128 := by omega
    rw [remaining, ← firstKeys_of_abort aborted, ← secondKeys_of_abort aborted]
    apply vhashRest_spec computes (wellKeyed.of_abort aborted) (by omega)
      (continued.evaluates (by omega))
    · omega
    · intro index below
      have rest : remainingWords (bytes % 128) = 2 * ((bytes % 128 + 15) / 16) := rfl
      have word := reads (16 * (mbytes.toNat / 128) + index) (by omega)
      have offset : (mbytes.toNat - bytes % 128) / 8 = 16 * (mbytes.toNat / 128) := by omega
      rw [Nat.mul_add, Nat.add_assoc, ← word, messageWords, messageWords, offset, Nat.zero_add]
  · rw [xvhash_of_short continues (not_le.mp some) (by omega)]
    exact vhash_spec computes wellKeyed continues total reads

theorem Continues.congr {other : ℕ → ℕ} {otherBytes : ℕ}
    (continues : Continues ctx words bytes count) (whole : 128 * count ≤ bytes)
    (otherWhole : 128 * count ≤ otherBytes)
    (same : ∀ index < 16 * count, words index = other index) :
    Continues ctx other otherBytes count := by
  cases continues with
  | fresh ready => exact .fresh ready
  | begun processed positive evaluates =>
      exact .begun processed positive (evaluates.congr whole otherWhole same)

theorem ctx_vhashRest_build {mptr i remaining : ℕ} {ch : Halves} :
    ((build.vhashRest ctx mptr i remaining ch).run memory).1.ctx = vhash_abort ctx := by
  rw [Build.vhashRest, Tracked.value_bind]
  split
  · rfl
  · rfl

/-- In either build, a hash leaves the context as `vhash_abort` does. -/
theorem ctx_vhash_build :
    ((build.vhash mbytes ctx).run memory).1.ctx = vhash_abort ctx := by
  rw [Build.vhash]
  split
  · exact ctx_vhashRest_build
  split
  · rw [Tracked.value_bind, ctx_vhashRest_build]
  split
  · rw [Tracked.value_bind]
    rfl
  · rfl

theorem ctx_xvhash (continues : Continues ctx words bytes count)
    (alone : count = 0 ∨ 128 ≤ mbytes.toNat ∨ mbytes.toNat = 0) :
    ((build.xvhash mbytes ctx).run memory).1.ctx = vhash_abort ctx := by
  by_cases some : 128 ≤ mbytes.toNat
  · rw [xvhash_of_block some, Tracked.value_bind, ctx_vhashRest_build, abort_vhash_update]
  · rw [xvhash_of_short continues (not_le.mp some) (by omega), ctx_vhash_build]

end Functions

/-- A call of what `vmac.h` offers and of `xvhash`, with the memory from its pointer on. -/
inductive Call
  | update (mbytes : UInt32) (m : ℕ → UInt64)
  | hash (mbytes : UInt32) (m : ℕ → UInt64)
  | xhash (mbytes : UInt32) (m : ℕ → UInt64)
  | mac (mbytes : UInt32) (n : Vector UInt8 16) (m : ℕ → UInt64)
  | abort

section Calls

variable (build : Build) (rijndael : Rijndael)

/-- The context after a call, and what it returns. -/
def Build.perform (ctx : Context) : Call → Context × Option (UInt64 × UInt64)
  | .update mbytes m => (((build.vhash_update mbytes ctx).run m).1, none)
  | .hash mbytes m =>
      let outcome := ((build.vhash mbytes ctx).run m).1
      (outcome.ctx, some (outcome.returned, outcome.tagl))
  | .xhash mbytes m =>
      let outcome := ((build.xvhash mbytes ctx).run m).1
      (outcome.ctx, some (outcome.returned, outcome.tagl))
  | .mac mbytes n m =>
      let outcome := ((build.vmac rijndael mbytes n ctx).run m).1
      (outcome.ctx, some (outcome.returned, outcome.tagl))
  | .abort => (vhash_abort ctx, none)

/-- What the calls return, one after the other. -/
def Build.returned (ctx : Context) : List Call → List (Option (UInt64 × UInt64))
  | [] => []
  | call :: later =>
      (build.perform rijndael ctx call).2 ::
        Build.returned (build.perform rijndael ctx call).1 later

/-- The words of a message with its zeros up to a multiple of 16 bytes. -/
def passedWords (mbytes : UInt32) (m : ℕ → UInt64) : List UInt64 :=
  (List.range (2 * ((mbytes.toNat + 15) / 16))).map m

def wordsOf (message : List UInt64) (index : ℕ) : ℕ :=
  (message.getD index 0).toNat

/-- Both halves of the hash of a message whose beginning was passed before. -/
def hashOf (ctx : Context) (pending : List UInt64) (mbytes : UInt32) (m : ℕ → UInt64) : ℕ × ℕ :=
  let words := wordsOf (pending ++ passedWords mbytes m)
  let bytes := 8 * pending.length + mbytes.toNat
  (UniversalHash.vhash ctx.firstKeys words bytes, UniversalHash.vhash ctx.secondKeys words bytes)

/-- What a call adds to the words that are pending, or what it makes of them. -/
def specified (ctx : Context) (pending : List UInt64) : Call → List UInt64 × Option (ℕ × ℕ)
  | .update mbytes m => (pending ++ passedWords mbytes m, none)
  | .hash mbytes m => ([], some (hashOf ctx pending mbytes m))
  | .xhash mbytes m => ([], some (hashOf ctx pending mbytes m))
  | .mac mbytes n m =>
      let pad := rijndael.encrypt ctx.cipher_key n
      let hash := hashOf ctx pending mbytes m
      ([], some ((hash.1 + (get64BE pad 0).toNat) % 2 ^ 64,
        (hash.2 + (get64BE pad 1).toNat) % 2 ^ 64))
  | .abort => ([], none)

def expected (ctx : Context) : List UInt64 → List Call → List (Option (ℕ × ℕ))
  | _, [] => []
  | pending, call :: later =>
      (specified rijndael ctx pending call).2 ::
        expected ctx (specified rijndael ctx pending call).1 later

/--
Blocks are passed whole, and at least one. What `xvhash` makes of less than a block behind others
is not the hash, so it is not called there.
-/
def Permitted (pending : List UInt64) : Call → Prop
  | .update mbytes _ => mbytes.toNat ≠ 0 ∧ 128 ∣ mbytes.toNat
  | .xhash mbytes _ => pending = [] ∨ 128 ≤ mbytes.toNat ∨ mbytes.toNat = 0
  | _ => True

def PermittedCalls (ctx : Context) : List UInt64 → List Call → Prop
  | _, [] => True
  | pending, call :: later =>
      Permitted pending call ∧ PermittedCalls ctx (specified rijndael ctx pending call).1 later

end Calls

section Histories

variable {build : Build} {rijndael : Rijndael} {origin ctx : Context} {pending : List UInt64}
  {mbytes : UInt32} {m : ℕ → UInt64} {count : ℕ}

theorem wordsOf_append_of_lt {later : List UInt64} {index : ℕ} (below : index < pending.length) :
    wordsOf pending index = wordsOf (pending ++ later) index := by
  rw [wordsOf, wordsOf, List.getD_append _ _ _ _ below]

theorem wordsOf_append_passed {index : ℕ} (below : index < 2 * ((mbytes.toNat + 15) / 16)) :
    messageWords m 0 index =
      wordsOf (pending ++ passedWords mbytes m) (pending.length + index) := by
  rw [wordsOf, List.getD_append_right _ _ _ _ (Nat.le_add_right _ _), Nat.add_sub_cancel_left,
    messageWords, Nat.zero_add]
  simp [passedWords, below]

/-- A context that was set up as the origin, and has taken the words that are pending. -/
structure Represents (origin : Context) (pending : List UInt64) (ctx : Context) : Prop where
  aborted : vhash_abort ctx = origin
  continues : ∃ count, pending.length = 16 * count ∧
    Continues ctx (wordsOf pending) (128 * count) count

theorem Represents.fresh (ready : origin.Ready) : Represents origin [] origin :=
  ⟨ready, 0, rfl, .fresh ready⟩

theorem Represents.ready (represents : Represents origin pending ctx) : origin.Ready := by
  rw [← represents.aborted]
  rfl

/-- What a context has taken, as the beginning of a longer message. -/
theorem Represents.continued (represents : Represents origin pending ctx) (later : List UInt64)
    (bytes : ℕ) (whole : 8 * pending.length ≤ bytes) :
    ∃ count, pending.length = 16 * count ∧
      Continues ctx (wordsOf (pending ++ later)) bytes count := by
  rcases represents.continues with ⟨count, length, continues⟩
  refine ⟨count, length, continues.congr (le_refl _) (by omega) ?_⟩
  intro index below
  exact wordsOf_append_of_lt (by omega)

theorem Represents.sameKeys (represents : Represents origin pending ctx) :
    vhash_abort ctx = vhash_abort origin :=
  represents.aborted.trans represents.ready.symm

theorem Represents.hash (represents : Represents origin pending ctx) (computes : build.Computes)
    (wellKeyed : origin.WellKeyed) (mbytes : UInt32) (m : ℕ → UInt64) :
    let outcome := ((build.vhash mbytes ctx).run m).1
    outcome.returned.toNat = (hashOf origin pending mbytes m).1 ∧
      outcome.tagl.toNat = (hashOf origin pending mbytes m).2 := by
  rcases represents.continued (passedWords mbytes m) (8 * pending.length + mbytes.toNat)
    (Nat.le_add_right _ _) with ⟨count, length, continues⟩
  have sameKeys := represents.sameKeys
  rw [hashOf, ← firstKeys_of_abort sameKeys, ← secondKeys_of_abort sameKeys]
  apply vhash_spec computes (wellKeyed.of_abort sameKeys) continues
  · omega
  · intro index below
    rw [wordsOf_append_passed below, length]

theorem Represents.xhash (represents : Represents origin pending ctx) (computes : build.Computes)
    (wellKeyed : origin.WellKeyed) (mbytes : UInt32) (m : ℕ → UInt64)
    (alone : pending = [] ∨ 128 ≤ mbytes.toNat ∨ mbytes.toNat = 0) :
    let outcome := ((build.xvhash mbytes ctx).run m).1
    outcome.ctx = origin ∧ outcome.returned.toNat = (hashOf origin pending mbytes m).1 ∧
      outcome.tagl.toNat = (hashOf origin pending mbytes m).2 := by
  rcases represents.continued (passedWords mbytes m) (8 * pending.length + mbytes.toNat)
    (Nat.le_add_right _ _) with ⟨count, length, continues⟩
  have sameKeys := represents.sameKeys
  have first : count = 0 ∨ 128 ≤ mbytes.toNat ∨ mbytes.toNat = 0 := by
    apply alone.imp_left
    rintro rfl
    simpa using length
  rw [hashOf, ← firstKeys_of_abort sameKeys, ← secondKeys_of_abort sameKeys]
  refine ⟨(ctx_xvhash continues first).trans represents.aborted, ?_⟩
  apply xvhash_spec computes (wellKeyed.of_abort sameKeys) continues _ first
  · intro index below
    rw [wordsOf_append_passed below, length]
  · omega

theorem Represents.update (represents : Represents origin pending ctx) (computes : build.Computes)
    (wellKeyed : origin.WellKeyed) (mbytes : UInt32) (m : ℕ → UInt64)
    (whole : mbytes.toNat ≠ 0 ∧ 128 ∣ mbytes.toNat) :
    Represents origin (pending ++ passedWords mbytes m)
      ((build.vhash_update mbytes ctx).run m).1 where
  aborted := by
    rw [abort_vhash_update]
    exact represents.aborted
  continues := by
    rcases represents.continued (passedWords mbytes m) (8 * pending.length + mbytes.toNat)
      (Nat.le_add_right _ _) with ⟨count, length, continues⟩
    have total : 8 * pending.length + mbytes.toNat = 128 * (count + mbytes.toNat / 128) := by omega
    refine ⟨count + mbytes.toNat / 128, ?_, ?_⟩
    · rw [List.length_append, passedWords, List.length_map, List.length_range]
      omega
    · rw [total] at continues
      apply vhash_update_spec computes (wellKeyed.of_abort represents.sameKeys) continues
      · omega
      · exact le_refl _
      · intro index below
        have inside : index < 2 * ((mbytes.toNat + 15) / 16) := by omega
        rw [wordsOf_append_passed inside, length]

theorem Represents.mac (represents : Represents origin pending ctx) (computes : build.Computes)
    (wellKeyed : origin.WellKeyed) (mbytes : UInt32) (n : Vector UInt8 16) (m : ℕ → UInt64) :
    let outcome := ((build.vmac rijndael mbytes n ctx).run m).1
    let pad := rijndael.encrypt origin.cipher_key n
    outcome.ctx = origin ∧
      outcome.returned.toNat =
        ((hashOf origin pending mbytes m).1 + (get64BE pad 0).toNat) % 2 ^ 64 ∧
      outcome.tagl.toNat =
        ((hashOf origin pending mbytes m).2 + (get64BE pad 1).toNat) % 2 ^ 64 := by
  intro outcome pad
  have hashed := represents.hash computes wellKeyed mbytes m
  have cipher : ctx.cipher_key = origin.cipher_key := by
    rw [← represents.aborted]
    rfl
  have first : outcome.returned = ((build.vhash mbytes ctx).run m).1.returned +
      get64BE (rijndael.encrypt ctx.cipher_key n) 0 := rfl
  have second : outcome.tagl = ((build.vhash mbytes ctx).run m).1.tagl +
      get64BE (rijndael.encrypt ctx.cipher_key n) 1 := rfl
  refine ⟨ctx_vhash_build.trans represents.aborted, ?_, ?_⟩
  · rw [first, UInt64.toNat_add, hashed.1, cipher]
  · rw [second, UInt64.toNat_add, hashed.2, cipher]

/-- A call does with the context what is specified for the pending words. -/
theorem Represents.perform (represents : Represents origin pending ctx)
    (computes : build.Computes) (wellKeyed : origin.WellKeyed) {call : Call}
    (permitted : Permitted pending call) :
    Represents origin (specified rijndael origin pending call).1
        (build.perform rijndael ctx call).1 ∧
      (build.perform rijndael ctx call).2.map (Prod.map UInt64.toNat UInt64.toNat) =
        (specified rijndael origin pending call).2 := by
  cases call with
  | update mbytes m => exact ⟨represents.update computes wellKeyed mbytes m permitted, rfl⟩
  | hash mbytes m =>
      have hashed := represents.hash computes wellKeyed mbytes m
      have left : ((build.vhash mbytes ctx).run m).1.ctx = origin :=
        ctx_vhash_build.trans represents.aborted
      simp only [Build.perform, specified, left, Option.map_some, Prod.map, hashed.1, hashed.2]
      exact ⟨.fresh represents.ready, trivial⟩
  | xhash mbytes m =>
      rcases represents.xhash computes wellKeyed mbytes m permitted with ⟨left, first, second⟩
      simp only [Build.perform, specified, left, Option.map_some, Prod.map, first, second]
      exact ⟨.fresh represents.ready, trivial⟩
  | mac mbytes n m =>
      rcases @Represents.mac build rijndael _ _ _ represents computes wellKeyed mbytes n m
        with ⟨left, first, second⟩
      simp only [Build.perform, specified, left, Option.map_some, Prod.map, first, second]
      exact ⟨.fresh represents.ready, trivial⟩
  | abort =>
      rw [Build.perform, represents.aborted]
      exact ⟨.fresh represents.ready, rfl⟩

theorem Represents.returned (represents : Represents origin pending ctx)
    (computes : build.Computes) (wellKeyed : origin.WellKeyed) {calls : List Call}
    (permitted : PermittedCalls rijndael origin pending calls) :
    (build.returned rijndael ctx calls).map (Option.map (Prod.map UInt64.toNat UInt64.toNat)) =
      expected rijndael origin pending calls := by
  induction calls generalizing pending ctx with
  | nil => rfl
  | cons call later ih =>
      rcases @Represents.perform build rijndael _ _ _ represents computes wellKeyed _ permitted.1
        with ⟨next, value⟩
      rw [Build.returned, expected, List.map_cons, value, ih next permitted.2]

theorem isPolyWord_and_mpoly (word : UInt64) : IsPolyWord (word &&& mpoly) := by
  rw [IsPolyWord, UInt64.and_assoc, UInt64.and_self]

theorem lt_p64_of_drawBelowP64 {cipher_key : Vector UInt32 44} {draws : ℕ} {counter next : UInt8}
    {words : UInt64 × UInt64}
    (drawn : drawBelowP64 rijndael cipher_key draws counter = some (words, next)) :
    words.1 < p64 ∧ words.2 < p64 := by
  induction draws generalizing counter with
  | zero => exact absurd drawn (by simp [drawBelowP64])
  | succ draws ih =>
      rw [drawBelowP64] at drawn
      split at drawn
      · exact ih drawn
      · rename_i below
        simp only [ge_iff_le, not_or, UInt64.not_le] at below
        simp only [Option.some.injEq, Prod.mk.injEq] at drawn
        rw [← drawn.1]
        exact below

/-- The keys that `vmac_set_key` stores are those that the arithmetic needs. -/
theorem wellKeyed_of_vmac_set_key {user_key : Vector UInt8 16}
    (set : vmac_set_key rijndael user_key = some ctx) : ctx.WellKeyed := by
  simp only [vmac_set_key, Option.bind_eq_bind, Option.bind_eq_some_iff] at set
  rcases set with ⟨⟨first, counter⟩, firstDrawn, ⟨second, _⟩, secondDrawn, result⟩
  rcases Option.some.inj result with rfl
  have firstLt := lt_p64_of_drawBelowP64 firstDrawn
  have secondLt := lt_p64_of_drawBelowP64 secondDrawn
  constructor
  · intro index
    simp [isPolyWord_and_mpoly]
  · intro index
    fin_cases index
    · exact firstLt.1
    · exact firstLt.2
    · exact secondLt.1
    · exact secondLt.2

end Histories

end Vmac

end KeyValueClusterPerf
