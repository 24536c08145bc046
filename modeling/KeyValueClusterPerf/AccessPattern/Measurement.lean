import KeyValueClusterPerf.AccessPattern.Simulation
import KeyValueClusterPerf.DBConnector.Results
import KeyValueClusterPerf.Foundations.Runs

/-!
# Repeated simulations

A simulator can be asked for several simulations, with accesses before and after them that
do not count. Each simulation adds to the numbers of reads and writes, but replaces the
duration. So what is reported belongs to one simulation only if that is the only one.
-/

namespace KeyValueClusterPerf

open Texts Doubles CheckedInts LabelledRuns

/-- A reading of the monotonic clock. -/
structure Timespec where
  tv_sec : Int64
  tv_nsec : Int64
  natural : 0 ≤ tv_sec.toInt
  fraction : 0 ≤ tv_nsec.toInt ∧ tv_nsec.toInt < 10 ^ 9

/-- The difference of two readings in nanoseconds, in unsigned arithmetic. -/
def nanosecondsDifference (start stop : Timespec) : UInt64 :=
  let secondsDifference := (stop.tv_sec - start.tv_sec).toUInt64
  let nanosecondsDifference := (stop.tv_nsec - start.tv_nsec).toUInt64
  nanosecondsDifference + secondsDifference * 1000000000

/-- The difference becomes a double before it is divided by `1000.0`. -/
def calculateDurationMicroseconds (start stop : Timespec) : Double :=
  divide (roundDouble (nanosecondsDifference start stop).toNat) 1000

/-- A simulator, the duration of its last simulation, and what it accesses. -/
structure MeasuringSimulator where
  statistics : Simulator
  duration : Double
  accesses : AccessState

/-- A call of `simulate`, with the readings of the clock around its loop, or of `burnInOut`. -/
inductive SimulatorCall
  | simulate (runs : Int32) (timespecStart timespecStop : Timespec)
  | burnInOut (runs : Int32)

namespace SimulatorCall

/-- The call is one of `simulate`. -/
def Measures : SimulatorCall → Prop
  | .simulate _ _ _ => True
  | .burnInOut _ => False

/-- The number of accesses that the call counts. -/
def counted : SimulatorCall → ℕ
  | .simulate runs _ _ => runs.toInt.toNat
  | .burnInOut _ => 0

end SimulatorCall

def readsKey : Text := "reads".toList
def writesKey : Text := "writes".toList

namespace MeasuringSimulator

/-- A new simulator; its duration is not set before the first simulation. -/
def construct (duration : Double) (accesses : AccessState) : MeasuringSimulator :=
  ⟨.construct, duration, accesses⟩

section Calls

variable (division : ℤ → ℤ → Double) (pattern : AccessPattern)
  (valueDistribution : ConstantValueDistribution)

/-- The printed averages are quotients by the number of runs, some of them of integers. -/
def simulate (runs : Int32) (timespecStart timespecStop : Timespec)
    (simulator : MeasuringSimulator) : Option MeasuringSimulator :=
  match Simulator.simulateLoop division pattern valueDistribution runs.toInt.toNat
    simulator.statistics simulator.accesses with
  | none => none
  | some (statistics, _, accesses) =>
      if runs = 0 then none
      else some ⟨statistics, calculateDurationMicroseconds timespecStart timespecStop, accesses⟩

def perform : SimulatorCall → MeasuringSimulator → Option MeasuringSimulator
  | .simulate runs timespecStart timespecStop, simulator =>
      simulator.simulate division pattern valueDistribution runs timespecStart timespecStop
  | .burnInOut runs, simulator =>
      (burnInOut division pattern valueDistribution runs simulator.accesses).map
        fun (_, accesses) => { simulator with accesses := accesses }

def Step (simulator : MeasuringSimulator) (call : SimulatorCall) (next : MeasuringSimulator) :
    Prop :=
  perform division pattern valueDistribution call simulator = some next

end Calls

/-- `getResults`; how a stream prints a double is left open. -/
def getResults (printDouble : Double → Text) (hostname : Hostname)
    (simulator : MeasuringSimulator) : StringMap :=
  (((∅ : StringMap).insert hostnameKey hostname.text).insert readsKey
      (decimalInt simulator.statistics.reads.toInt)
    |>.insert writesKey (decimalInt simulator.statistics.writes.toInt)).insert durationKey
      (printDouble simulator.duration)

section Steps

variable {division : ℤ → ℤ → Double} {pattern : AccessPattern}
  {valueDistribution : ConstantValueDistribution}

/-- Each access is counted once, as a read or as a write. -/
theorem sum_of_count {simulator counted : Simulator} {call : DatabaseCall}
    (counts : simulator.count call = some counted) :
    counted.reads.toInt + counted.writes.toInt =
      simulator.reads.toInt + simulator.writes.toInt + 1 := by
  have one : (1 : Int32).toInt = 1 := rfl
  cases call with
  | getValue key found =>
      rcases Option.map_eq_some_iff.mp counts with ⟨reads, readsEq, rfl⟩
      have value := toInt_of_checked readsEq
      dsimp only
      omega
  | putValue key written =>
      rcases Option.map_eq_some_iff.mp counts with ⟨writes, writesEq, rfl⟩
      have value := toInt_of_checked writesEq
      dsimp only
      omega

theorem sum_of_simulateLoop {runs : ℕ} {simulator counted : Simulator}
    {accesses last : AccessState} {calls : List DatabaseCall}
    (simulated : Simulator.simulateLoop division pattern valueDistribution runs simulator accesses =
      some (counted, calls, last)) :
    counted.reads.toInt + counted.writes.toInt =
      simulator.reads.toInt + simulator.writes.toInt + runs := by
  induction runs generalizing simulator accesses calls with
  | zero =>
      simp only [Simulator.simulateLoop, Option.some.injEq, Prod.mk.injEq] at simulated
      rw [simulated.1]
      simp
  | succ runs ih =>
      rcases exists_of_simulateLoop_succ simulated with
        ⟨call, next, increased, later, _, counts, laterEq, rfl⟩
      have total : counted.reads.toInt + counted.writes.toInt =
          increased.reads.toInt + increased.writes.toInt + runs := ih laterEq
      have first := sum_of_count counts
      push_cast
      omega

variable {simulator next initial final : MeasuringSimulator} {call : SimulatorCall}
  {calls : List SimulatorCall}

/-- The number of accesses that a simulator has counted. -/
def accessCount (simulator : MeasuringSimulator) : ℤ :=
  simulator.statistics.reads.toInt + simulator.statistics.writes.toInt

/-- A simulation counts its runs and leaves its duration. -/
theorem simulate_eq {runs : Int32} {timespecStart timespecStop : Timespec}
    (simulated : simulator.simulate division pattern valueDistribution runs timespecStart
      timespecStop = some next) :
    next.accessCount = simulator.accessCount + runs.toInt.toNat ∧
      next.duration = calculateDurationMicroseconds timespecStart timespecStop := by
  rw [simulate] at simulated
  split at simulated
  · simp at simulated
  · rename_i statistics calls accesses loopEq
    split at simulated
    · simp at simulated
    · rcases Option.some.inj simulated with rfl
      exact ⟨sum_of_simulateLoop loopEq, rfl⟩

theorem accessCount_construct (duration : Double) (accesses : AccessState) :
    (construct duration accesses).accessCount = 0 := rfl

theorem counted_eq_zero (uncounted : ¬call.Measures) : call.counted = 0 := by
  cases call with
  | simulate runs timespecStart timespecStop => exact absurd trivial uncounted
  | burnInOut runs => rfl

theorem accessCount_of_step
    (step : Step division pattern valueDistribution simulator call next) :
    next.accessCount = simulator.accessCount + call.counted := by
  cases call with
  | simulate runs timespecStart timespecStop => exact (simulate_eq step).1
  | burnInOut runs =>
      rcases Option.map_eq_some_iff.mp step with ⟨_, _, rfl⟩
      simp [accessCount, SimulatorCall.counted]

theorem accessCount_of_run
    (steps : Run (Step division pattern valueDistribution) initial calls final) :
    final.accessCount = initial.accessCount + (calls.map SimulatorCall.counted).sum := by
  induction steps with
  | nil => simp
  | snoc _ last ih =>
      rw [accessCount_of_step last, ih, List.map_append, List.sum_append]
      simp [add_assoc]

/-- The next call is defined if its keys can be drawn and its accesses counted. -/
theorem exists_step (drawable : pattern.range.Drawable)
    (natural : 0 ≤ simulator.statistics.reads.toInt ∧ 0 ≤ simulator.statistics.writes.toInt)
    (room : simulator.accessCount + call.counted ≤ Int32.maxValue.toInt)
    (positive : call.Measures → 0 < call.counted) :
    ∃ next, Step division pattern valueDistribution simulator call next ∧
      0 ≤ next.statistics.reads.toInt ∧ 0 ≤ next.statistics.writes.toInt := by
  cases call with
  | simulate runs timespecStart timespecStop =>
      rcases @exists_performAccesses_of_drawable division pattern valueDistribution drawable
        runs.toInt.toNat simulator.accesses with ⟨calls, last, performed⟩
      rcases exists_simulateLoop performed natural.1 natural.2 room with
        ⟨statistics, loopEq, stillNatural⟩
      have nonzero : runs ≠ 0 := by
        rintro rfl
        exact lt_irrefl 0 (positive trivial)
      refine ⟨⟨statistics, calculateDurationMicroseconds timespecStart timespecStop, last⟩, ?_,
        stillNatural⟩
      simp only [Step, perform, simulate, loopEq, if_neg nonzero]
  | burnInOut runs =>
      rcases @exists_performAccesses_of_drawable division pattern valueDistribution drawable
        runs.toInt.toNat simulator.accesses with ⟨calls, last, performed⟩
      refine ⟨{ simulator with accesses := last }, ?_, natural⟩
      simp only [Step, perform, burnInOut, performed, Option.map_some]

/-- Calls are defined as long as their accesses can be counted. -/
theorem exists_run (drawable : pattern.range.Drawable)
    (natural : 0 ≤ initial.statistics.reads.toInt ∧ 0 ≤ initial.statistics.writes.toInt)
    (room : initial.accessCount + (calls.map SimulatorCall.counted).sum ≤ Int32.maxValue.toInt)
    (positive : ∀ call ∈ calls, call.Measures → 0 < call.counted) :
    ∃ final, Run (Step division pattern valueDistribution) initial calls final := by
  induction calls generalizing initial with
  | nil => exact ⟨initial, Run.nil⟩
  | cons call rest ih =>
      rw [List.forall_mem_cons] at positive
      rw [List.map_cons, List.sum_cons, Nat.cast_add] at room
      rcases @exists_step division _ valueDistribution _ _ drawable natural (by omega)
        positive.1 with ⟨next, step, stillNatural⟩
      have counted := accessCount_of_step step
      rcases ih stillNatural (by omega) positive.2 with ⟨final, steps⟩
      exact ⟨final, (Run.single step).append steps⟩

/-- Accesses that do not count leave the statistics and the duration as they are. -/
theorem unchanged_of_run (uncounted : ∀ call ∈ calls, ¬call.Measures)
    (steps : Run (Step division pattern valueDistribution) initial calls final) :
    final.statistics = initial.statistics ∧ final.duration = initial.duration := by
  have same : (final.statistics, final.duration) = (initial.statistics, initial.duration) := by
    apply steps.unchanged (fun simulator => (simulator.statistics, simulator.duration)) _ uncounted
    intro simulator next call quiet step
    cases call with
    | simulate runs timespecStart timespecStop => exact absurd trivial quiet
    | burnInOut runs =>
        rcases Option.map_eq_some_iff.mp step with ⟨_, _, rfl⟩
        rfl
  exact Prod.mk.inj same

end Steps

end MeasuringSimulator

/-- The reported reads and writes are together the runs of a simulation, with its duration. -/
def ReportsSimulation (results : StringMap) (runs : Int32) (durationText : Text) : Prop :=
  ∃ reads writes : ℤ, results[readsKey]? = some (decimalInt reads) ∧
    results[writesKey]? = some (decimalInt writes) ∧ reads + writes = runs.toInt ∧
      results[durationKey]? = some durationText

namespace MeasuringSimulator

theorem reportsSimulation_getResults {printDouble : Double → Text} {hostname : Hostname}
    {simulator : MeasuringSimulator} {runs : Int32} {durationText : Text} :
    ReportsSimulation (simulator.getResults printDouble hostname) runs durationText ↔
      simulator.accessCount = runs.toInt ∧ printDouble simulator.duration = durationText := by
  have readsEq : (simulator.getResults printDouble hostname)[readsKey]? =
      some (decimalInt simulator.statistics.reads.toInt) := rfl
  have writesEq : (simulator.getResults printDouble hostname)[writesKey]? =
      some (decimalInt simulator.statistics.writes.toInt) := rfl
  have durationEq : (simulator.getResults printDouble hostname)[durationKey]? =
      some (printDouble simulator.duration) := rfl
  rw [ReportsSimulation, readsEq, writesEq, durationEq]
  constructor
  · rintro ⟨reads, writes, sameReads, sameWrites, sum, sameDuration⟩
    have readsValue := decimalInt_injective (Option.some.inj sameReads)
    have writesValue := decimalInt_injective (Option.some.inj sameWrites)
    exact ⟨by rw [accessCount, readsValue, writesValue, sum], Option.some.inj sameDuration⟩
  · rintro ⟨sum, rfl⟩
    exact ⟨_, _, rfl, rfl, sum, rfl⟩

/-- The last simulation is reported exactly if it is the only one. -/
theorem reportsSimulation_iff {division : ℤ → ℤ → Double} {pattern : AccessPattern}
    {valueDistribution : ConstantValueDistribution} {duration : Double} {accesses : AccessState}
    {earlier later : List SimulatorCall} {runs : Int32} {timespecStart timespecStop : Timespec}
    {final : MeasuringSimulator} (printDouble : Double → Text) (hostname : Hostname)
    (steps : Run (Step division pattern valueDistribution) (construct duration accesses)
      (earlier ++ .simulate runs timespecStart timespecStop :: later) final)
    (positive : 0 < runs.toInt)
    (earlierPositive : ∀ call ∈ earlier, call.Measures → 0 < call.counted)
    (uncounted : ∀ call ∈ later, ¬call.Measures) :
    ReportsSimulation (final.getResults printDouble hostname) runs
        (printDouble (calculateDurationMicroseconds timespecStart timespecStop)) ↔
      ∀ call ∈ earlier, ¬call.Measures := by
  rcases steps.cut with ⟨before, measured, earlierSteps, simulated, laterSteps⟩
  rcases simulate_eq simulated with ⟨counts, durationEq⟩
  rcases unchanged_of_run uncounted laterSteps with ⟨sameStatistics, sameDuration⟩
  have total := accessCount_of_run earlierSteps
  have sameCount : final.accessCount = measured.accessCount := by
    rw [accessCount, accessCount, sameStatistics]
  rw [accessCount_construct] at total
  rw [reportsSimulation_getResults, sameDuration, durationEq, and_iff_left rfl]
  have nothing : final.accessCount = runs.toInt ↔
      (earlier.map SimulatorCall.counted).sum = 0 := by
    omega
  rw [nothing, List.sum_eq_zero_iff, List.forall_mem_map]
  constructor
  · intro none call mem measures
    have some := earlierPositive call mem measures
    rw [none call mem] at some
    exact absurd some (lt_irrefl 0)
  · intro none call mem
    exact counted_eq_zero (none call mem)

end MeasuringSimulator

end KeyValueClusterPerf
