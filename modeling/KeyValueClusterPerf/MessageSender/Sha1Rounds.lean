import KeyValueClusterPerf.MessageSender.Sha1

/-!
# The rounds of `sha1.cc`

The unrolled loop assigns to two of its five variables in a line and changes their places from
line to line, and it keeps the last sixteen words of the schedule in place of the block. So
after each line the variables, taken in the order of the next one, are the chain of the
algorithm after that round. All of this is about the low bits of the words.
-/

namespace KeyValueClusterPerf

open Texts SecureHash

variable {width : ℕ}

section Words

/-- Four bytes as the lowest bits of words, shifted to their places. -/
theorem or_shiftLeft_eq_append (first second third fourth : BitVec 8) :
    fourth.setWidth 32 ||| third.setWidth 32 <<< 8 ||| second.setWidth 32 <<< 16 |||
      first.setWidth 32 <<< 24 = first ++ second ++ third ++ fourth := by
  apply BitVec.eq_of_getLsbD_eq
  intro index inWord
  grind

variable (wide : 32 ≤ width)
include wide

theorem low_add (value other : BitVec width) : low (value + other) = low value + low other :=
  BitVec.setWidth_add value other wide

theorem low_ofNat (number : ℕ) : low (BitVec.ofNat width number) = BitVec.ofNat 32 number :=
  BitVec.setWidth_ofNat_of_le wide number

theorem getLsbD_mask (index : ℕ) :
    (0xffffffff : BitVec width).getLsbD index = decide (index < 32) := by
  have mask : (4294967295).testBit index = decide (index < 32) :=
    Nat.testBit_two_pow_sub_one 32 index
  show (BitVec.ofNat width 4294967295).getLsbD index = _
  rw [BitVec.getLsbD_ofNat, mask, Bool.and_eq_right_iff_imp, decide_eq_true_eq, decide_eq_true_eq]
  intro inside
  exact inside.trans_le wide

/-- The rotation of the low bits; whatever is above them is masked before it is shifted down. -/
theorem low_SHA1_ROL (value : BitVec width) {bits : ℕ} (inside : bits < 32) :
    low (SHA1_ROL value bits) = (low value).rotateLeft bits := by
  apply BitVec.eq_of_getLsbD_eq
  intro index inWord
  rw [BitVec.getLsbD_rotateLeft]
  simp only [low, SHA1_ROL, BitVec.getLsbD_setWidth, BitVec.getLsbD_or, BitVec.getLsbD_shiftLeft,
    BitVec.getLsbD_ushiftRight, BitVec.getLsbD_and, getLsbD_mask wide, Nat.mod_eq_of_lt inside,
    inWord, inWord.trans_le wide, decide_true, Bool.true_and]
  by_cases shifted : index < bits
  · have above : 32 - bits + index < 32 := by omega
    simp [shifted, above]
  · have below : index - bits < 32 := by omega
    have masked : ¬32 - bits + index < 32 := by omega
    simp [shifted, below, masked]

theorem low_signExtend (word : Word) : low (word.signExtend width) = word := by
  apply BitVec.eq_of_getLsbD_eq
  intro index inWord
  simp only [low, BitVec.getLsbD_setWidth, BitVec.getLsbD_signExtend, inWord,
    inWord.trans_le wide, decide_true, Bool.true_and, if_true]

/-- A block is converted to its words. -/
theorem low_buffer_to_block (buffer : List UInt8) (index : ℕ) :
    low (SHA1.buffer_to_block buffer index : BitVec width) = wordAt buffer index := by
  rw [SHA1.buffer_to_block, low_signExtend wide, wordAt]
  exact or_shiftLeft_eq_append ..

omit wide

theorem low_parity (first second third : BitVec width) :
    low (first ^^^ second ^^^ third) = parity (low first) (low second) (low third) := by
  simp only [low, BitVec.setWidth_xor, parity]

theorem low_choose (first second third : BitVec width) :
    low ((first &&& (second ^^^ third)) ^^^ third) =
      choose (low first) (low second) (low third) := by
  simp only [low, BitVec.setWidth_xor, BitVec.setWidth_and, choose]
  grind

theorem low_majority (first second third : BitVec width) :
    low (((first ||| second) &&& third) ||| (first &&& second)) =
      majority (low first) (low second) (low third) := by
  simp only [low, BitVec.setWidth_or, BitVec.setWidth_and, majority]
  grind

end Words

section Transform

namespace Working

/-- The words of the algorithm in the variables that the lines of the loop take turns in. -/
def chain (v w x y z : Variable) (working : Working width) : Chain :=
  ⟨low (working.values v), low (working.values w), low (working.values x), low (working.values y),
    low (working.values z)⟩

/-- The last sixteen words of the schedule before a step, in the places of the block. -/
def Scheduled (words : ℕ → Word) (step : ℕ) (working : Working width) : Prop :=
  ∀ index, index < max step 16 → step ≤ index + 16 →
    low (working.block (index &&& 15)) = schedule words index

variable {v w x y z : Variable} {working : Working width} {words : ℕ → Word} {step : ℕ}

theorem scheduled_zero {block : ℕ → BitVec width} {values : Variable → BitVec width} :
    Scheduled (fun index => low (block index)) 0 ⟨values, block⟩ := by
  intro index inside _
  have inBlock : index < 16 := inside
  rw [schedule_of_lt inBlock, Nat.and_two_pow_sub_one_eq_mod index 4, Nat.mod_eq_of_lt inBlock]

theorem Scheduled.later (scheduled : Scheduled words step working) (inBlock : step < 16) :
    Scheduled words (step + 1) working := by
  intro index inside _
  apply scheduled index
  · omega
  · omega

/-- A derived word takes the place of the oldest one. -/
theorem scheduled_SHA1_BLK (wide : 32 ≤ width) (scheduled : Scheduled words step working)
    (derived : 16 ≤ step) :
    low (working.SHA1_BLK step).1 = schedule words step ∧
      Scheduled words (step + 1) (working.SHA1_BLK step).2 := by
  have place : ∀ {index older}, index + older = step → 0 < older → older ≤ 16 →
      low (working.block ((step + (16 - older)) &&& 15)) = schedule words index := by
    intro index older sumEq positive inside
    rw [← scheduled index (by omega) (by omega)]
    congr 2
    rw [Nat.and_two_pow_sub_one_eq_mod _ 4, Nat.and_two_pow_sub_one_eq_mod _ 4]
    omega
  have word : low (working.SHA1_BLK step).1 = schedule words step := by
    rw [SHA1_BLK, low_SHA1_ROL wide _ (by decide), schedule_of_le derived,
      ← @place (step - 3) 3 (by omega) (by omega) (by omega),
      ← @place (step - 8) 8 (by omega) (by omega) (by omega),
      ← @place (step - 14) 14 (by omega) (by omega) (by omega),
      ← @place (step - 16) 16 (by omega) (by omega) (by omega)]
    simp only [low, BitVec.setWidth_xor]
    rfl
  refine ⟨word, ?_⟩
  intro index inside recent
  rcases eq_or_ne index step with rfl | older
  · rw [← word]
    exact congrArg low (Function.update_self ..)
  · have apart : index &&& 15 ≠ step &&& 15 := by
      rw [Nat.and_two_pow_sub_one_eq_mod _ 4, Nat.and_two_pow_sub_one_eq_mod _ 4]
      omega
    rw [← scheduled index (by omega) (by omega)]
    exact congrArg low (Function.update_of_ne apart ..)

/-- The assignments are one round, after which the variables have changed their places. -/
theorem chain_assign (wide : 32 ≤ width) (distinct : [v, w, x, y, z].Nodup)
    {mix : BitVec width → BitVec width → BitVec width → BitVec width}
    {constant input : BitVec width}
    (mixes : ∀ first second third, low (mix first second third) =
      logical step (low first) (low second) (low third))
    (constantEq : low constant = SecureHash.constant step)
    (inputEq : low input = schedule words step) :
    (working.assign mix constant v w x y z input).chain z v w x y =
      SecureHash.round words (working.chain v w x y z) step := by
  simp only [List.nodup_cons, List.mem_cons, List.not_mem_nil, or_false, not_or] at distinct
  rcases distinct with ⟨⟨vw, vx, vy, vz⟩, ⟨wx, wy, wz⟩, ⟨xy, xz⟩, yz, _⟩
  simp only [chain, assign, SecureHash.round, Chain.mk.injEq]
  refine ⟨?_, ?_, ?_, ?_, ?_⟩
  · rw [Function.update_of_ne (Ne.symm wz), Function.update_self, low_add wide, low_add wide,
      low_add wide, low_add wide, low_SHA1_ROL wide _ (by decide), mixes, constantEq, inputEq]
    ring
  · rw [Function.update_of_ne vw, Function.update_of_ne vz]
  · rw [Function.update_self, low_SHA1_ROL wide _ (by decide), Function.update_of_ne wz]
  · rw [Function.update_of_ne (Ne.symm wx), Function.update_of_ne xz]
  · rw [Function.update_of_ne (Ne.symm wy), Function.update_of_ne yz]

/-- A line of the loop with a derived word. -/
theorem chain_derived (wide : 32 ≤ width) (distinct : [v, w, x, y, z].Nodup)
    {mix : BitVec width → BitVec width → BitVec width → BitVec width} {constant : BitVec width}
    (mixes : ∀ first second third, low (mix first second third) =
      logical step (low first) (low second) (low third))
    (constantEq : low constant = SecureHash.constant step)
    (scheduled : Scheduled words step working) (derived : 16 ≤ step) :
    let next := assign mix constant v w x y z (working.SHA1_BLK step).1 (working.SHA1_BLK step).2
    next.chain z v w x y = SecureHash.round words (working.chain v w x y z) step ∧
      Scheduled words (step + 1) next := by
  rcases scheduled_SHA1_BLK wide scheduled derived with ⟨word, later⟩
  exact ⟨chain_assign wide distinct mixes constantEq word, later⟩

/-- Every line of the loop is one round. -/
theorem chain_operation (wide : 32 ≤ width) (distinct : [v, w, x, y, z].Nodup)
    (scheduled : Scheduled words step working) :
    (operation v w x y z step working).chain z v w x y =
        SecureHash.round words (working.chain v w x y z) step ∧
      Scheduled words (step + 1) (operation v w x y z step working) := by
  by_cases inBlock : step < 16
  · rw [operation, if_pos inBlock, SHA1_R0]
    have input : low (working.block step) = schedule words step := by
      rw [← scheduled step (by omega) (by omega), Nat.and_two_pow_sub_one_eq_mod step 4,
        Nat.mod_eq_of_lt inBlock]
    refine ⟨chain_assign wide distinct ?_ ?_ input, scheduled.later inBlock⟩
    · intro first second third
      rw [logical, if_pos (by omega)]
      exact low_choose first second third
    · rw [SecureHash.constant, if_pos (by omega)]
      exact low_ofNat wide 0x5a827999
  have derived : 16 ≤ step := not_lt.mp inBlock
  by_cases second : step < 20
  · rw [operation, if_neg inBlock, if_pos second, SHA1_R1]
    refine chain_derived wide distinct ?_ ?_ scheduled derived
    · intro first second third
      rw [logical, if_pos (by omega)]
      exact low_choose first second third
    · rw [SecureHash.constant, if_pos (by omega)]
      exact low_ofNat wide 0x5a827999
  by_cases third : step < 40
  · rw [operation, if_neg inBlock, if_neg second, if_pos third, SHA1_R2]
    refine chain_derived wide distinct ?_ ?_ scheduled derived
    · intro first second third
      rw [logical, if_neg (by omega), if_pos (by omega)]
      exact low_parity first second third
    · rw [SecureHash.constant, if_neg (by omega), if_pos (by omega)]
      exact low_ofNat wide 0x6ed9eba1
  by_cases fourth : step < 60
  · rw [operation, if_neg inBlock, if_neg second, if_neg third, if_pos fourth, SHA1_R3]
    refine chain_derived wide distinct ?_ ?_ scheduled derived
    · intro first second third
      rw [logical, if_neg (by omega), if_neg (by omega), if_pos (by omega)]
      exact low_majority first second third
    · rw [SecureHash.constant, if_neg (by omega), if_neg (by omega), if_pos (by omega)]
      exact low_ofNat wide 0x8f1bbcdc
  · rw [operation, if_neg inBlock, if_neg second, if_neg third, if_neg fourth, SHA1_R4]
    refine chain_derived wide distinct ?_ ?_ scheduled derived
    · intro first second third
      rw [logical, if_neg (by omega), if_neg (by omega), if_neg (by omega)]
      exact low_parity first second third
    · rw [SecureHash.constant, if_neg (by omega), if_neg (by omega), if_neg (by omega)]
      exact low_ofNat wide 0xca62c1d6

theorem chain_fiveOperations (wide : 32 ≤ width) (scheduled : Scheduled words step working) :
    (working.fiveOperations step).chain .a .b .c .d .e =
        ((List.range 5).map (step + ·)).foldl (SecureHash.round words)
          (working.chain .a .b .c .d .e) ∧
      Scheduled words (step + 5) (working.fiveOperations step) := by
  rcases @chain_operation _ .a .b .c .d .e _ _ _ wide (by decide) scheduled with ⟨first, one⟩
  rcases @chain_operation _ .e .a .b .c .d _ _ _ wide (by decide) one with ⟨second, two⟩
  rcases @chain_operation _ .d .e .a .b .c _ _ _ wide (by decide) two with ⟨third, three⟩
  rcases @chain_operation _ .c .d .e .a .b _ _ _ wide (by decide) three with ⟨fourth, four⟩
  rcases @chain_operation _ .b .c .d .e .a _ _ _ wide (by decide) four with ⟨fifth, five⟩
  rw [fourth, third, second, first] at fifth
  exact ⟨fifth, five⟩

/-- The unrolled loop is the sequence of all rounds. -/
theorem chain_loop (wide : 32 ≤ width) (scheduled : Scheduled words 0 working) (count : ℕ) :
    (((List.range count).map (5 * ·)).foldl fiveOperations working).chain .a .b .c .d .e =
        (List.range (5 * count)).foldl (SecureHash.round words)
          (working.chain .a .b .c .d .e) ∧
      Scheduled words (5 * count)
        (((List.range count).map (5 * ·)).foldl fiveOperations working) := by
  induction count with
  | zero => exact ⟨rfl, scheduled⟩
  | succ count ih =>
      rcases ih with ⟨chainEq, later⟩
      rcases chain_fiveOperations wide later with ⟨nextEq, next⟩
      rw [List.range_succ, List.map_append, List.foldl_append, Nat.mul_succ, List.range_add,
        List.foldl_append, ← chainEq]
      exact ⟨nextEq, next⟩

end Working

namespace SHA1

theorem chain_transform (wide : 32 ≤ width) (block : ℕ → BitVec width) (sha : SHA1 width) :
    (sha.transform block).chain = compressWords sha.chain fun index => low (block index) := by
  have scheduled := @Working.scheduled_zero _ block sha.values
  have rounds := (Working.chain_loop wide scheduled 16).1
  have start : Working.chain .a .b .c .d .e ⟨sha.values, block⟩ = sha.chain := rfl
  rw [compressWords, ← start]
  show _ = Chain.add _ (List.foldl _ _ (List.range (5 * 16)))
  rw [← rounds]
  simp [chain, transform, values, Chain.add, Working.chain, low_add wide]

theorem chain_transform_bytes (wide : 32 ≤ width) (buffer : List UInt8) (sha : SHA1 width) :
    (sha.transform (buffer_to_block buffer)).chain = compress sha.chain buffer := by
  rw [chain_transform wide, compress]
  exact compressWords_congr _ fun index _ => low_buffer_to_block wide buffer index

end SHA1

end Transform

end KeyValueClusterPerf
