import KeyValueClusterPerf.AccessPattern.Measurement

/-!
# The payload of a simulation

The size of the values is documented as the size of what is generated. But the buffer of the
distribution has that size with its terminator, so a value is one byte shorter, and without
room for the terminator the constructor writes outside the buffer. So the values that a
simulation puts add up to the configured size for each write only if there is no write.
-/

namespace KeyValueClusterPerf

open Texts Doubles CheckedInts

namespace ConstantValueDistribution

/-- The indices that the constructor writes: those of `memset`, which takes its number of
characters as an unsigned one, and that of the terminator. -/
def Writes (size index : ℤ) : Prop :=
  (0 ≤ index ∧ index < (size - 1) % 2 ^ 64) ∨ index = size - 1

def InBounds (config : AccessConfiguration) : Prop :=
  ∀ index, Writes config.valueDistributionSize.toInt index →
    0 ≤ index ∧ index < config.valueDistributionSize.toInt

variable {config : AccessConfiguration}

theorem inBounds_iff : InBounds config ↔ 1 ≤ config.valueDistributionSize.toInt := by
  have highest := config.valueDistributionSize.toInt_le
  have bound : Int32.maxValue.toInt < 2 ^ 64 := by decide
  constructor
  · intro inside
    have terminator := inside _ (.inr rfl)
    omega
  · rintro positive index (⟨natural, below⟩ | rfl)
    · rw [Int.emod_eq_of_lt (by omega) (by omega)] at below
      omega
    · omega

theorem construct_eq (positive : 1 ≤ config.valueDistributionSize.toInt) :
    construct config =
      some ⟨List.replicate (config.valueDistributionSize.toInt - 1).toNat 'X'⟩ := by
  have clean : nul ∉ List.replicate (config.valueDistributionSize.toInt - 1).toNat 'X' := by
    intro mem
    have same := List.eq_of_mem_replicate mem
    simp [nul] at same
  rw [construct]
  simp only [if_neg (not_lt.mpr positive), cString_append_nul clean]

/-- A value is one character shorter than the configured size. -/
theorem length_getNext {distribution : ConstantValueDistribution}
    (positive : 1 ≤ config.valueDistributionSize.toInt)
    (constructed : construct config = some distribution) :
    (distribution.getNext.length : ℤ) = config.valueDistributionSize.toInt - 1 := by
  rw [construct_eq positive] at constructed
  rcases Option.some.inj constructed with rfl
  simp only [getNext, List.length_replicate]
  omega

end ConstantValueDistribution

namespace DatabaseCall

def isWrite : DatabaseCall → Bool
  | .getValue _ _ => false
  | .putValue _ _ => true

/-- The number of characters of the value that is handed to `putValue`. -/
def payload : DatabaseCall → ℕ
  | .getValue _ _ => 0
  | .putValue _ value => value.length

end DatabaseCall

section Accesses

variable {divide : ℤ → ℤ → Double} {pattern : AccessPattern}
  {valueDistribution : ConstantValueDistribution} {state next last : AccessState}
  {call : DatabaseCall} {calls : List DatabaseCall} {runs : ℕ}

/-- The random numbers decide what an access calls. -/
theorem facts_of_performAccess
    (performed : performAccess divide pattern valueDistribution state = some (call, next)) :
    call.isWrite = !pattern.reading divide state.rands ∧
      call.payload = (if call.isWrite then valueDistribution.getNext.length else 0) := by
  rw [performAccess_eq, Option.map_eq_some_iff] at performed
  rcases performed with ⟨key, _, same⟩
  split at same
  · rename_i read
    rcases Prod.mk.inj same with ⟨rfl, _⟩
    exact ⟨by simp [DatabaseCall.isWrite, read], rfl⟩
  · rename_i written
    rcases Prod.mk.inj same with ⟨rfl, _⟩
    exact ⟨by simp [DatabaseCall.isWrite, written], rfl⟩

variable {simulator counted : Simulator}

theorem writes_of_count (counts : simulator.count call = some counted) :
    counted.writes.toInt = simulator.writes.toInt + if call.isWrite then 1 else 0 := by
  cases call with
  | getValue key found =>
      rcases Option.map_eq_some_iff.mp counts with ⟨reads, _, rfl⟩
      simp [DatabaseCall.isWrite]
  | putValue key written =>
      rcases Option.map_eq_some_iff.mp counts with ⟨writes, writesEq, rfl⟩
      exact toInt_of_checked writesEq

/-- The writes that are counted are the calls of `putValue`. -/
theorem writes_of_simulateLoop
    (simulated : Simulator.simulateLoop divide pattern valueDistribution runs simulator state =
      some (counted, calls, last)) :
    counted.writes.toInt = simulator.writes.toInt + calls.countP DatabaseCall.isWrite := by
  induction runs generalizing simulator state calls with
  | zero =>
      simp only [Simulator.simulateLoop, Option.some.injEq, Prod.mk.injEq] at simulated
      rcases simulated with ⟨rfl, rfl, _⟩
      simp
  | succ runs ih =>
      rcases exists_of_simulateLoop_succ simulated with
        ⟨call, next, increased, later, _, counts, laterEq, rfl⟩
      rw [ih laterEq, writes_of_count counts, List.countP_cons, Nat.cast_add, Nat.cast_ite]
      simp only [Nat.cast_one, Nat.cast_zero]
      omega

/-- Every write hands over the value of the distribution. -/
theorem payload_of_simulateLoop
    (simulated : Simulator.simulateLoop divide pattern valueDistribution runs simulator state =
      some (counted, calls, last)) :
    (calls.map DatabaseCall.payload).sum =
      calls.countP DatabaseCall.isWrite * valueDistribution.getNext.length := by
  induction runs generalizing simulator state calls with
  | zero =>
      simp only [Simulator.simulateLoop, Option.some.injEq, Prod.mk.injEq] at simulated
      rcases simulated with ⟨_, rfl, _⟩
      simp
  | succ runs ih =>
      rcases exists_of_simulateLoop_succ simulated with
        ⟨call, next, increased, later, access, _, laterEq, rfl⟩
      rw [List.map_cons, List.sum_cons, ih laterEq, (facts_of_performAccess access).2,
        List.countP_cons, Nat.add_mul, ite_mul, one_mul, zero_mul, Nat.add_comm]

/-- There is no write exactly if the random numbers say so. -/
theorem countP_isWrite_eq_zero_iff
    (simulated : Simulator.simulateLoop divide pattern valueDistribution runs simulator state =
      some (counted, calls, last)) :
    calls.countP DatabaseCall.isWrite = 0 ↔
      ∀ i < runs, pattern.reading divide (pattern.afterAccesses state.rands i) = true := by
  induction runs generalizing simulator state calls with
  | zero =>
      simp only [Simulator.simulateLoop, Option.some.injEq, Prod.mk.injEq] at simulated
      rcases simulated with ⟨_, rfl, _⟩
      simp
  | succ runs ih =>
      rcases exists_of_simulateLoop_succ simulated with
        ⟨call, next, increased, later, access, _, laterEq, rfl⟩
      have isWrite := (facts_of_performAccess access).1
      have restEq := rands_of_performAccess access
      rw [Nat.forall_lt_succ_left]
      simp only [pattern.afterAccesses_succ]
      rw [← restEq, ← ih laterEq, List.countP_cons, isWrite]
      change _ ↔ pattern.reading divide state.rands = true ∧ _
      cases pattern.reading divide state.rands <;> simp

end Accesses

/--
The constructor of the distribution writes inside its buffer, and a simulation of a new
simulator counts each run, and hands over the configured size with each write.
-/
def AccountsPayload (divide : ℤ → ℤ → Double) (config : AccessConfiguration)
    (pattern : AccessPattern) (runs : Int32) (timespecStart timespecStop : Timespec)
    (duration : Double) (accesses : AccessState) : Prop :=
  ConstantValueDistribution.InBounds config ∧
    ∃ valueDistribution statistics calls last,
      ConstantValueDistribution.construct config = some valueDistribution ∧
      Simulator.simulateLoop divide pattern valueDistribution runs.toInt.toNat .construct
        accesses = some (statistics, calls, last) ∧
      (MeasuringSimulator.construct duration accesses).simulate divide pattern valueDistribution
          runs timespecStart timespecStop =
        some ⟨statistics, calculateDurationMicroseconds timespecStart timespecStop, last⟩ ∧
      statistics.reads.toInt + statistics.writes.toInt = runs.toInt ∧
      ((calls.map DatabaseCall.payload).sum : ℤ) =
        statistics.writes.toInt * config.valueDistributionSize.toInt

section Accounts

variable {divide : ℤ → ℤ → Double} {config : AccessConfiguration} {pattern : AccessPattern}
  {runs : Int32} {timespecStart timespecStop : Timespec} {duration : Double}
  {accesses : AccessState}

theorem writes_eq_countP {valueDistribution : ConstantValueDistribution} {statistics : Simulator}
    {calls : List DatabaseCall} {last : AccessState}
    (simulated : Simulator.simulateLoop divide pattern valueDistribution runs.toInt.toNat
      .construct accesses = some (statistics, calls, last)) :
    statistics.writes.toInt = calls.countP DatabaseCall.isWrite := by
  have writes := writes_of_simulateLoop simulated
  have zero : Simulator.construct.writes.toInt = 0 := rfl
  rwa [zero, zero_add] at writes

/-- The bytes are those of the configured size, less one for each write. -/
theorem payload_eq {valueDistribution : ConstantValueDistribution} {statistics : Simulator}
    {calls : List DatabaseCall} {last : AccessState}
    (positive : 1 ≤ config.valueDistributionSize.toInt)
    (constructed : ConstantValueDistribution.construct config = some valueDistribution)
    (simulated : Simulator.simulateLoop divide pattern valueDistribution runs.toInt.toNat
      .construct accesses = some (statistics, calls, last)) :
    ((calls.map DatabaseCall.payload).sum : ℤ) =
      statistics.writes.toInt * (config.valueDistributionSize.toInt - 1) := by
  rw [payload_of_simulateLoop simulated, Nat.cast_mul, writes_eq_countP simulated,
    ConstantValueDistribution.length_getNext positive constructed]

/-- A new simulator counts all runs of a simulation. -/
theorem exists_simulate_of_performAccesses {valueDistribution : ConstantValueDistribution}
    {calls : List DatabaseCall} {last : AccessState} (someRuns : 1 ≤ runs.toInt)
    (performed : performAccesses divide pattern valueDistribution runs.toInt.toNat accesses =
      some (calls, last)) :
    ∃ statistics, Simulator.simulateLoop divide pattern valueDistribution runs.toInt.toNat
        .construct accesses = some (statistics, calls, last) ∧
      (MeasuringSimulator.construct duration accesses).simulate divide pattern valueDistribution
          runs timespecStart timespecStop =
        some ⟨statistics, calculateDurationMicroseconds timespecStart timespecStop, last⟩ ∧
      statistics.reads.toInt + statistics.writes.toInt = runs.toInt := by
  have highest := runs.toInt_le
  have readsZero : Simulator.construct.reads.toInt = 0 := rfl
  have writesZero : Simulator.construct.writes.toInt = 0 := rfl
  have nonzero : runs ≠ 0 := by
    rintro rfl
    exact absurd someRuns (by decide)
  have room : Simulator.construct.reads.toInt + Simulator.construct.writes.toInt +
      runs.toInt.toNat ≤ Int32.maxValue.toInt := by
    omega
  rcases exists_simulateLoop performed le_rfl le_rfl room with ⟨statistics, loopEq, _⟩
  have sum := MeasuringSimulator.sum_of_simulateLoop loopEq
  refine ⟨statistics, loopEq, ?_, by omega⟩
  simp only [MeasuringSimulator.simulate, MeasuringSimulator.construct, loopEq, if_neg nonzero]

/--
The accounts are right exactly if the buffer has room for the terminator, the keys can be
drawn, and nothing is written.
-/
theorem accountsPayload_iff (someRuns : 1 ≤ runs.toInt) :
    AccountsPayload divide config pattern runs timespecStart timespecStop duration accesses ↔
      1 ≤ config.valueDistributionSize.toInt ∧ ∀ i < runs.toInt.toNat,
        pattern.range.Draws (pattern.keyRand (pattern.afterAccesses accesses.rands i)) ∧
          pattern.reading divide (pattern.afterAccesses accesses.rands i) = true := by
  constructor
  · rintro ⟨inside, valueDistribution, statistics, calls, last, constructed, simulated, _, _,
      bytes⟩
    have positive := ConstantValueDistribution.inBounds_iff.mp inside
    have performed := performAccesses_of_simulateLoop simulated
    have draws := exists_performAccesses_iff.mp ⟨calls, last, performed⟩
    have nothingWritten : calls.countP DatabaseCall.isWrite = 0 := by
      rw [payload_eq positive constructed simulated, writes_eq_countP simulated, mul_sub,
        mul_one] at bytes
      omega
    have reads := (countP_isWrite_eq_zero_iff simulated).mp nothingWritten
    exact ⟨positive, fun i inside => ⟨draws i inside, reads i inside⟩⟩
  · rintro ⟨positive, decided⟩
    have constructed := ConstantValueDistribution.construct_eq positive
    rcases exists_performAccesses_iff.mpr fun i inside => (decided i inside).1 with
      ⟨calls, last, performed⟩
    rcases exists_simulate_of_performAccesses someRuns performed with
      ⟨statistics, loopEq, simulateEq, sum⟩
    refine ⟨ConstantValueDistribution.inBounds_iff.mpr positive, _, statistics, calls, last,
      constructed, loopEq, simulateEq, sum, ?_⟩
    have nothingWritten := (countP_isWrite_eq_zero_iff loopEq).mpr fun i inside =>
      (decided i inside).2
    rw [payload_eq positive constructed loopEq, writes_eq_countP loopEq, nothingWritten,
      Nat.cast_zero, zero_mul, zero_mul]

/-- Values of sixteen characters for three reads. -/
theorem accountsPayload_reads :
    AccountsPayload Doubles.divide ⟨1, 9, .finite 1, 16⟩ (.ReadOnly ⟨⟨1, 9⟩⟩) 3
      ⟨0, 0, by decide, by decide⟩ ⟨0, 1, by decide, by decide⟩ .nan
      ⟨.empty, Stream'.const AccessPattern.someRand⟩ := by
  apply (accountsPayload_iff (by decide)).mpr
  refine ⟨by decide, ?_⟩
  intro i _
  refine ⟨?_, rfl⟩
  have constant : ∀ random : Rand, KeyRange.Draws ⟨1, 9⟩ random := by
    intro random
    have drawable : KeyRange.Drawable ⟨1, 9⟩ := ⟨by decide, by decide⟩
    rcases drawable.exists_key random with ⟨key, keyEq, _⟩
    exact KeyRange.exists_key_iff.mp ⟨key, keyEq⟩
  exact constant _

/-- One write of a value that should have sixteen characters. -/
theorem not_accountsPayload_write :
    ¬AccountsPayload Doubles.divide ⟨1, 9, .finite 0, 16⟩ (.WriteOnly ⟨⟨1, 9⟩⟩) 1
      ⟨0, 0, by decide, by decide⟩ ⟨0, 1, by decide, by decide⟩ .nan
      ⟨.empty, Stream'.const AccessPattern.someRand⟩ := by
  rintro ⟨_, valueDistribution, statistics, calls, last, constructed, simulated, _, _, bytes⟩
  have nothingWritten : calls.countP DatabaseCall.isWrite = 0 := by
    rw [payload_eq (by decide) constructed simulated, writes_eq_countP simulated, mul_sub,
      mul_one] at bytes
    omega
  have reads := (countP_isWrite_eq_zero_iff simulated).mp nothingWritten 0 (by decide)
  simp [AccessPattern.reading] at reads

end Accounts

end KeyValueClusterPerf
