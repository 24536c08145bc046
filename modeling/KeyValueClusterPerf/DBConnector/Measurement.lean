import KeyValueClusterPerf.AccessPattern.Measurement
import KeyValueClusterPerf.DBConnector.Database

/-!
# Repeated runs

A connector can be run several times, with accesses before and after that do not count. Its
three counters are set by the constructor only, so what is reported are the sums over all
runs. They are those of the last run if the runs before it have found no file.
-/

namespace KeyValueClusterPerf

open Texts Doubles LabelledRuns

/-- A connector and what `burnInOut` accesses; both use the same database. -/
structure MeasuringConnector where
  connector : DBConnector
  accesses : AccessState

/-- A call of `run`, with what it finds at the data path, or of `burnInOut`. -/
inductive ConnectorCall
  | run (dataPath : Option (List DirectoryEntry))
  | burnInOut (runs : Int32)

namespace ConnectorCall

/-- The call is one of `run`. -/
def Measures : ConnectorCall → Prop
  | .run _ => True
  | .burnInOut _ => False

/-- The regular files that the call finds. -/
def found : ConnectorCall → List RegularFile
  | .run (some entries) => regularFiles entries
  | _ => []

/-- The regular files that the call processes on a connector. -/
def handled (connector : DBConnector) : ConnectorCall → List RegularFile
  | .run (some entries) => connector.processed entries
  | _ => []

theorem length_handled_le (connector : DBConnector) (call : ConnectorCall) :
    (call.handled connector).length ≤ call.found.length := by
  cases call with
  | burnInOut runs => exact le_rfl
  | run dataPath =>
      cases dataPath with
      | none => exact le_rfl
      | some entries => exact (DBConnector.processed_initial connector entries).length_le

/-- The first file that is found is processed, whatever the counters are. -/
theorem handled_eq_nil_iff (connector : DBConnector) (call : ConnectorCall) :
    call.handled connector = [] ↔ call.found = [] := by
  cases call with
  | burnInOut runs => exact Iff.rfl
  | run dataPath =>
      cases dataPath with
      | none => exact Iff.rfl
      | some entries =>
          rw [handled, found, DBConnector.processed]
          cases regularFiles entries with
          | nil => exact Iff.rfl
          | cons file rest => simp [Cutoff.takeThrough]

theorem found_of_not_measures (call : ConnectorCall) (uncounted : ¬call.Measures) :
    call.found = [] := by
  cases call with
  | run dataPath => exact absurd trivial uncounted
  | burnInOut runs => rfl

end ConnectorCall

namespace MeasuringConnector

def construct (bytesLimit : Double) (accesses : AccessState) : MeasuringConnector :=
  ⟨.construct bytesLimit, accesses⟩

section Calls

variable (division : ℤ → ℤ → Double) (pattern : AccessPattern)
  (valueDistribution : ConstantValueDistribution)

def perform : ConnectorCall → MeasuringConnector → Option MeasuringConnector
  | .run dataPath, ⟨connector, accesses⟩ =>
      let (measured, requests) := connector.run dataPath
      some ⟨measured, { accesses with
        keyValueDB := Database.serveAll accesses.keyValueDB requests }⟩
  | .burnInOut runs, ⟨connector, accesses⟩ =>
      (burnInOut division pattern valueDistribution runs accesses).map
        fun (_, accesses) => ⟨connector, accesses⟩

def Step (connector : MeasuringConnector) (call : ConnectorCall) (next : MeasuringConnector) :
    Prop :=
  perform division pattern valueDistribution call connector = some next

end Calls

section Steps

variable {division : ℤ → ℤ → Double} {pattern : AccessPattern}
  {valueDistribution : ConstantValueDistribution}
  {connector next initial final : MeasuringConnector} {call : ConnectorCall}
  {calls : List ConnectorCall}

theorem connector_of_step
    (step : Step division pattern valueDistribution connector call next) :
    next.connector = (call.handled connector.connector).foldl DBConnector.advance
      connector.connector := by
  cases call with
  | run dataPath =>
      rcases Option.some.inj step with rfl
      cases dataPath with
      | none => rfl
      | some entries => exact congrArg Prod.fst (DBConnector.loop_eq connector.connector entries)
  | burnInOut runs =>
      rcases Option.map_eq_some_iff.mp step with ⟨_, _, rfl⟩
      rfl

/-- Calls are defined if the keys of the uncounted accesses can be drawn. -/
theorem exists_run (drawable : pattern.range.Drawable) (initial : MeasuringConnector)
    (calls : List ConnectorCall) :
    ∃ final, Run (Step division pattern valueDistribution) initial calls final := by
  induction calls generalizing initial with
  | nil => exact ⟨initial, Run.nil⟩
  | cons call rest ih =>
      have defined : ∃ next, Step division pattern valueDistribution initial call next := by
        cases call with
        | run dataPath => exact ⟨_, rfl⟩
        | burnInOut runs =>
            rcases @exists_performAccesses_of_drawable division pattern valueDistribution drawable
              runs.toInt.toNat initial.accesses with ⟨done, last, performed⟩
            refine ⟨⟨initial.connector, last⟩, ?_⟩
            simp only [Step, perform, burnInOut, performed, Option.map_some]
      rcases defined with ⟨next, step⟩
      rcases ih next with ⟨final, steps⟩
      exact ⟨final, (Run.single step).append steps⟩

/-- After some calls the connector is as if all files that they processed were of one run. -/
theorem exists_handled_of_run
    (steps : Run (Step division pattern valueDistribution) initial calls final) :
    ∃ files, final.connector = files.foldl DBConnector.advance initial.connector ∧
      files.length ≤ (calls.map (·.found.length)).sum ∧
        (files = [] ↔ ∀ call ∈ calls, call.found = []) := by
  induction steps with
  | nil => exact ⟨[], rfl, le_rfl, by simp⟩
  | @snoc trace middle next call earlier last ih =>
      rcases ih with ⟨files, connectorEq, lengthLe, emptyIff⟩
      have lastLe := call.length_handled_le middle.connector
      refine ⟨files ++ call.handled middle.connector, ?_, ?_, ?_⟩
      · rw [connector_of_step last, List.foldl_append, connectorEq]
      · simp only [List.length_append, List.map_append, List.sum_append, List.map_cons,
          List.map_nil, List.sum_singleton]
        omega
      · rw [List.append_eq_nil_iff, call.handled_eq_nil_iff, emptyIff, List.forall_mem_append,
          List.forall_mem_singleton]

/-- Accesses that do not count leave the connector as it is. -/
theorem unchanged_of_run (uncounted : ∀ call ∈ calls, ¬call.Measures)
    (steps : Run (Step division pattern valueDistribution) initial calls final) :
    final.connector = initial.connector := by
  apply steps.unchanged MeasuringConnector.connector _ uncounted
  intro connector next call quiet step
  rw [connector_of_step step, (call.handled_eq_nil_iff _).mpr (call.found_of_not_measures quiet)]
  rfl

end Steps

end MeasuringConnector

/-- The results are those of a new connector that processes only the files of one run. -/
def ReportsRun (results : StringMap) (bytesLimit : Double) (format : DurationFormat)
    (hostname : Hostname) (files : List RegularFile) : Prop :=
  results = (files.foldl DBConnector.advance (.construct bytesLimit)).getResults format hostname

namespace MeasuringConnector

theorem objectsText_foldl (bytesLimit : Double) (files : List RegularFile) :
    (files.foldl DBConnector.advance (.construct bytesLimit)).objectsText =
      decimal (files.length % 2 ^ 32) := by
  rw [DBConnector.objectsText, DBConnector.toNat_mLoadedObjects_construct]

/-- Files that are counted besides those of a run are seen in the number of objects. -/
theorem eq_nil_of_reportsRun {bytesLimit : Double} {format : DurationFormat} {hostname : Hostname}
    {before files : List RegularFile} (few : before.length < 2 ^ 32)
    (reports : ReportsRun (((before ++ files).foldl DBConnector.advance
      (.construct bytesLimit)).getResults format hostname) bytesLimit format hostname files) :
    before = [] := by
  have sameText := congrArg (·[objectsKey]?) reports
  simp only [DBConnector.getElem?_objectsKey, objectsText_foldl, Option.some.injEq] at sameText
  have sameCount := decimal_injective sameText
  rw [List.length_append] at sameCount
  apply List.eq_nil_of_length_eq_zero
  omega

section Reports

variable {division : ℤ → ℤ → Double} {pattern : AccessPattern}
  {valueDistribution : ConstantValueDistribution} {bytesLimit : Double} {accesses : AccessState}
  {earlier later : List ConnectorCall} {dataPath : Option (List DirectoryEntry)}
  {final : MeasuringConnector}

/--
The last run is reported if the runs before it have found no file. If they have found some,
but not as many as the object counter can count, it is not.
-/
theorem exists_reportsRun_iff (format : DurationFormat) (hostname : Hostname)
    (steps : Run (Step division pattern valueDistribution) (construct bytesLimit accesses)
      (earlier ++ .run dataPath :: later) final)
    (uncounted : ∀ call ∈ later, ¬call.Measures) :
    ∃ before, Run (Step division pattern valueDistribution) (construct bytesLimit accesses)
        earlier before ∧
      ((∀ call ∈ earlier, call.found = []) →
        ReportsRun (final.connector.getResults format hostname) bytesLimit format hostname
          ((ConnectorCall.run dataPath).handled before.connector)) ∧
      ((earlier.map (·.found.length)).sum < 2 ^ 32 →
        ReportsRun (final.connector.getResults format hostname) bytesLimit format hostname
            ((ConnectorCall.run dataPath).handled before.connector) →
          ∀ call ∈ earlier, call.found = []) := by
  rcases steps.cut with ⟨before, measured, earlierSteps, last, laterSteps⟩
  rcases exists_handled_of_run earlierSteps with ⟨files, connectorEq, lengthLe, emptyIff⟩
  have finalEq : final.connector =
      (files ++ (ConnectorCall.run dataPath).handled before.connector).foldl DBConnector.advance
        (.construct bytesLimit) := by
    rw [unchanged_of_run uncounted laterSteps, connector_of_step last, List.foldl_append]
    exact congrArg (((ConnectorCall.run dataPath).handled before.connector).foldl
      DBConnector.advance ·) connectorEq
  refine ⟨before, earlierSteps, ?_, ?_⟩
  · intro nothing
    rw [finalEq, emptyIff.mpr nothing]
    exact rfl
  · intro few reports
    rw [finalEq] at reports
    exact emptyIff.mp (eq_nil_of_reportsRun (lengthLe.trans_lt few) reports)

end Reports

end MeasuringConnector

section Measurements

variable (division : ℤ → ℤ → Double) (pattern : AccessPattern)
  (valueDistribution : ConstantValueDistribution) (format : DurationFormat) (hostname : Hostname)
  (accesses : AccessState)

/--
What a connector reports belongs to its last run if no earlier run has found a file, and,
up to a wrap of the object counter, only then. What a simulator reports belongs to its last
simulation exactly if it is the only one. Uncounted accesses may stand anywhere between.
-/
theorem last_measurement_reported :
    (∀ (bytesLimit : Double) (earlier later : List ConnectorCall)
        (dataPath : Option (List DirectoryEntry)) (final : MeasuringConnector),
      Run (MeasuringConnector.Step division pattern valueDistribution)
          (.construct bytesLimit accesses) (earlier ++ .run dataPath :: later) final →
        (∀ call ∈ later, ¬call.Measures) →
          ∃ before : MeasuringConnector,
            Run (MeasuringConnector.Step division pattern valueDistribution)
              (.construct bytesLimit accesses) earlier before ∧
            ((∀ call ∈ earlier, call.found = []) →
              ReportsRun (final.connector.getResults format hostname) bytesLimit format hostname
                ((ConnectorCall.run dataPath).handled before.connector)) ∧
            ((earlier.map (·.found.length)).sum < 2 ^ 32 →
              ReportsRun (final.connector.getResults format hostname) bytesLimit format hostname
                  ((ConnectorCall.run dataPath).handled before.connector) →
                ∀ call ∈ earlier, call.found = [])) ∧
      ∀ (duration : Double) (printDouble : Double → Text) (earlier later : List SimulatorCall)
        (runs : Int32) (timespecStart timespecStop : Timespec) (final : MeasuringSimulator),
        Run (MeasuringSimulator.Step division pattern valueDistribution)
            (.construct duration accesses)
            (earlier ++ .simulate runs timespecStart timespecStop :: later) final →
          0 < runs.toInt → (∀ call ∈ earlier, call.Measures → 0 < call.counted) →
            (∀ call ∈ later, ¬call.Measures) →
              (ReportsSimulation (final.getResults printDouble hostname) runs
                  (printDouble (calculateDurationMicroseconds timespecStart timespecStop)) ↔
                ∀ call ∈ earlier, ¬call.Measures) := by
  constructor
  · intro bytesLimit earlier later dataPath final steps uncounted
    exact MeasuringConnector.exists_reportsRun_iff format hostname steps uncounted
  · intro duration printDouble earlier later runs timespecStart timespecStop final steps positive
      earlierPositive uncounted
    exact MeasuringSimulator.reportsSimulation_iff printDouble hostname steps positive
      earlierPositive uncounted

end Measurements

def oneFile : List DirectoryEntry :=
  [.regular ⟨['/', 'd', '/', 'a', '.', 'r'], ['1', '2', '3'], 7⟩]

def clock (seconds : Int64) (natural : 0 ≤ seconds.toInt) : Timespec :=
  ⟨seconds, 0, natural, by decide⟩

/-- A simulation from the first to the third second. -/
def twoSeconds (runs : Int32) : SimulatorCall :=
  .simulate runs (clock 1 (by decide)) (clock 3 (by decide))

theorem counted_twoSeconds (runs : Int32) : (twoSeconds runs).counted = runs.toInt.toNat := rfl

def readOnlyKeys : AccessPattern :=
  .ReadOnly ⟨⟨1, 1000⟩⟩

theorem drawable_readOnlyKeys : readOnlyKeys.range.Drawable :=
  ⟨by decide, by decide⟩

def someAccesses : AccessState :=
  ⟨.empty, Stream'.const AccessPattern.someRand⟩

/-- The printed doubles, as far as they are natural numbers or no numbers. -/
def printCount : Double → Text
  | .finite value => generalFormat value.num.toNat
  | .infinity => ['i', 'n', 'f']
  | .negInfinity => ['-', 'i', 'n', 'f']
  | .nan => ['n', 'a', 'n']

theorem last_measurement_reported_single :
    (∃ final before : MeasuringConnector, Run (MeasuringConnector.Step divide readOnlyKeys ⟨['X']⟩)
        (.construct (.finite (-1)) someAccesses)
        ([.burnInOut 1] ++ .run (some oneFile) :: [.burnInOut 2]) final ∧
      ReportsRun (final.connector.getResults clockDurations sampleHost) (.finite (-1))
        clockDurations sampleHost
        ((ConnectorCall.run (some oneFile)).handled before.connector)) ∧
      ∃ final, Run (MeasuringSimulator.Step divide readOnlyKeys ⟨['X']⟩)
          (.construct .nan someAccesses) ([.burnInOut 1] ++ twoSeconds 2 :: [.burnInOut 2]) final ∧
        ReportsSimulation (final.getResults printCount sampleHost) 2
          (printCount (calculateDurationMicroseconds (clock 1 (by decide))
            (clock 3 (by decide)))) := by
  have reported := last_measurement_reported divide readOnlyKeys ⟨['X']⟩ clockDurations sampleHost
    someAccesses
  constructor
  · rcases @MeasuringConnector.exists_run divide _ ⟨['X']⟩ drawable_readOnlyKeys
      (.construct (.finite (-1)) someAccesses)
      ([.burnInOut 1] ++ .run (some oneFile) :: [.burnInOut 2]) with ⟨final, steps⟩
    rcases reported.1 _ _ _ _ _ steps (by simp [ConnectorCall.Measures]) with
      ⟨before, _, reports, _⟩
    exact ⟨final, before, steps, reports (by simp [ConnectorCall.found])⟩
  · rcases @MeasuringSimulator.exists_run divide _ ⟨['X']⟩ (.construct .nan someAccesses)
      ([.burnInOut 1] ++ twoSeconds 2 :: [.burnInOut 2]) drawable_readOnlyKeys
      ⟨le_rfl, le_rfl⟩ (by decide) (by simp [SimulatorCall.Measures, counted_twoSeconds]) with
      ⟨final, steps⟩
    refine ⟨final, steps, ?_⟩
    apply (reported.2 _ printCount _ _ _ _ _ _ steps _ _ _).mpr
    · simp [SimulatorCall.Measures]
    · decide
    · simp [SimulatorCall.Measures]
    · simp [SimulatorCall.Measures]

/-- Two runs with one file each report two objects; two simulations report all their accesses. -/
theorem earlier_measurement_reported :
    (∃ final before : MeasuringConnector, Run (MeasuringConnector.Step divide readOnlyKeys ⟨['X']⟩)
        (.construct (.finite (-1)) someAccesses) [.run (some oneFile), .run (some oneFile)] final ∧
      Run (MeasuringConnector.Step divide readOnlyKeys ⟨['X']⟩)
        (.construct (.finite (-1)) someAccesses) [.run (some oneFile)] before ∧
      ¬ReportsRun (final.connector.getResults clockDurations sampleHost) (.finite (-1))
        clockDurations sampleHost
        ((ConnectorCall.run (some oneFile)).handled before.connector)) ∧
      ∃ final, Run (MeasuringSimulator.Step divide readOnlyKeys ⟨['X']⟩)
          (.construct .nan someAccesses) [twoSeconds 2, twoSeconds 2] final ∧
        ¬ReportsSimulation (final.getResults printCount sampleHost) 2
          (printCount (calculateDurationMicroseconds (clock 1 (by decide))
            (clock 3 (by decide)))) := by
  constructor
  · rcases @MeasuringConnector.exists_run divide _ ⟨['X']⟩ drawable_readOnlyKeys
      (.construct (.finite (-1)) someAccesses)
      ([.run (some oneFile)] ++ .run (some oneFile) :: []) with ⟨final, steps⟩
    rcases MeasuringConnector.exists_reportsRun_iff clockDurations sampleHost steps (by simp) with
      ⟨before, earlierSteps, _, only⟩
    refine ⟨final, before, steps, earlierSteps, ?_⟩
    intro reports
    have nothing := only (by decide) reports _ List.mem_cons_self
    simp [ConnectorCall.found, oneFile, regularFiles, DirectoryEntry.file?] at nothing
  · have positive : ∀ call ∈ [twoSeconds 2, twoSeconds 2], call.Measures → 0 < call.counted := by
      simp [counted_twoSeconds]
    rcases @MeasuringSimulator.exists_run divide _ ⟨['X']⟩ (.construct .nan someAccesses)
      ([twoSeconds 2] ++ twoSeconds 2 :: []) drawable_readOnlyKeys ⟨le_rfl, le_rfl⟩ (by decide)
      positive with ⟨final, steps⟩
    refine ⟨final, steps, ?_⟩
    intro reports
    have only := (MeasuringSimulator.reportsSimulation_iff printCount sampleHost steps
      (by decide) (by simp [counted_twoSeconds]) (by simp)).mp reports
    exact only _ List.mem_cons_self trivial

end KeyValueClusterPerf
