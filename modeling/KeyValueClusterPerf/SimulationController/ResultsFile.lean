import KeyValueClusterPerf.Configuration.CommandLine
import KeyValueClusterPerf.SimulationController.Addresses

/-!
# The results file of an iteration

The controller has a member with the name of the configuration's `simulationIteration` and
never sets it. It looks into the configuration to see whether the name of the results file
gets a number, and into the member for the number. So two iterations write to the files
that the documentation names, and not to the same one, only if the memory of the members
has happened to hold their numbers.
-/

namespace KeyValueClusterPerf

open Texts LabelledRuns

namespace SimulationController

variable {workers : ℕ} {config : ControllerConfiguration workers}
  {controller next : SimulationController workers} {event : ControllerEvent workers}
  {trace : List (ControllerEvent workers)} {simulationIteration : Int32}

/-- The results are written to the path that was fixed at the start. -/
theorem path_of_merged {path contents : Text}
    (steps : Run (Step config) (start config simulationIteration) trace controller)
    (merged : .merged path contents ∈ trace) :
    path = csvFilePath config (start config simulationIteration) := by
  rcases steps.step_of_mem merged with ⟨front, back, before, after, _, frontSteps, step⟩
  cases step with
  | mergeResults first => exact csvFilePath_of_run frontSteps

/-- A complete run writes a file. -/
theorem exists_merged
    (steps : Run (Step config) (start config simulationIteration) trace controller)
    (complete : controller.program = []) : ∃ path contents, .merged path contents ∈ trace := by
  rcases exists_event_of_action steps complete mergeResults_mem_run with
    ⟨event, mem, completes⟩
  cases event with
  | merged path contents => exact ⟨path, contents, mem⟩
  | _ => simp [ControllerEvent.action?] at completes

end SimulationController

/-- The name of the results file with a number in it. -/
def resultsPath (iteration : Int32) : Text :=
  "results".toList ++ decimalInt iteration.toInt ++ ".csv".toList

theorem resultsPath_injective : Function.Injective resultsPath := by
  intro first second same
  have numbers := List.append_cancel_left (List.append_cancel_right same)
  exact Int32.toInt_inj.mp (decimalInt_injective numbers)

theorem resultsPath_ne (iteration : Int32) : resultsPath iteration ≠ "results.csv".toList := by
  intro same
  have plain : "results.csv".toList = "results".toList ++ [] ++ ".csv".toList := rfl
  rw [plain] at same
  exact decimalInt_ne_nil _ (List.append_cancel_left (List.append_cancel_right same))

/--
A run of the program as a controller. The options and the elements of the controller
configuration are read before the controller is constructed in some memory.
-/
structure ControllerExecution where
  vm : VariablesMap
  hosts : Option (List (Text × HostTree))
  options : ProgramConfiguration
  config : Configuration
  optionsParsed : parse_cmd_line vm {} = .ok options
  isController : options.controller = true
  hostsParsed : parseControllerXML hosts options.toConfiguration = .ok config
  memory : Int32
  trace : List (ControllerEvent config.commandHosts.length)
  controller : SimulationController config.commandHosts.length
  steps : Run (SimulationController.Step
      (config.toController (paired_of_parsed optionsParsed hostsParsed)))
    (.start (config.toController (paired_of_parsed optionsParsed hostsParsed)) memory)
      trace controller

namespace ControllerExecution

variable (execution : ControllerExecution)

/-- The iteration that the command line gives, or the default. -/
def iteration : Int32 :=
  execution.vm.simulationIteration.getD (-1)

def MergesInto (path : Text) : Prop :=
  ∃ contents, .merged path contents ∈ execution.trace

variable {execution} {path : Text}

theorem MergesInto.path_eq (merges : execution.MergesInto path) :
    path = if execution.iteration = -1 then "results.csv".toList
      else resultsPath execution.memory := by
  rcases merges with ⟨contents, merged⟩
  have fixed := SimulationController.path_of_merged execution.steps merged
  have configured := simulationIteration_of_parsed execution.optionsParsed execution.hostsParsed
  rw [fixed, SimulationController.csvFilePath]
  simp only [Configuration.toController, configured]
  rfl

/-- The file has the number of the iteration exactly if the member happens to have it. -/
theorem MergesInto.eq_resultsPath_iff (merges : execution.MergesInto path)
    (numbered : execution.iteration ≠ -1) :
    path = resultsPath execution.iteration ↔ execution.memory = execution.iteration := by
  rw [merges.path_eq, if_neg numbered]
  exact resultsPath_injective.eq_iff

end ControllerExecution

/-- The paths differ, and each of them has the number of its iteration if that has one. -/
def WritesApart (first second : ControllerExecution) (firstPath secondPath : Text) : Prop :=
  firstPath ≠ secondPath ∧
    (first.iteration ≠ -1 → firstPath = resultsPath first.iteration) ∧
      (second.iteration ≠ -1 → secondPath = resultsPath second.iteration)

/--
Two iterations write to different files, with their own numbers, exactly if the memory of
the controllers happens to hold these numbers.
-/
theorem writesApart_iff {first second : ControllerExecution} {firstPath secondPath : Text}
    (different : first.iteration ≠ second.iteration) (firstMerges : first.MergesInto firstPath)
    (secondMerges : second.MergesInto secondPath) :
    WritesApart first second firstPath secondPath ↔
      (first.iteration ≠ -1 → first.memory = first.iteration) ∧
        (second.iteration ≠ -1 → second.memory = second.iteration) := by
  constructor
  · rintro ⟨_, firstNamed, secondNamed⟩
    constructor
    · intro numbered
      exact (firstMerges.eq_resultsPath_iff numbered).mp (firstNamed numbered)
    · intro numbered
      exact (secondMerges.eq_resultsPath_iff numbered).mp (secondNamed numbered)
  · rintro ⟨firstHeld, secondHeld⟩
    have firstNamed : first.iteration ≠ -1 → firstPath = resultsPath first.iteration := by
      intro numbered
      exact (firstMerges.eq_resultsPath_iff numbered).mpr (firstHeld numbered)
    have secondNamed : second.iteration ≠ -1 → secondPath = resultsPath second.iteration := by
      intro numbered
      exact (secondMerges.eq_resultsPath_iff numbered).mpr (secondHeld numbered)
    refine ⟨?_, firstNamed, secondNamed⟩
    -- At most one of the two iterations is the default, whose file has no number.
    by_cases firstDefault : first.iteration = -1
    · have numbered : second.iteration ≠ -1 := fun same => different (firstDefault.trans same.symm)
      rw [firstMerges.path_eq, if_pos firstDefault, secondNamed numbered]
      exact (resultsPath_ne _).symm
    · rw [firstNamed firstDefault]
      by_cases secondDefault : second.iteration = -1
      · rw [secondMerges.path_eq, if_pos secondDefault]
        exact resultsPath_ne _
      · rw [secondNamed secondDefault]
        exact fun same => different (resultsPath_injective same)

/-- A controller of one worker can run to its end, whatever its iteration and its member are. -/
theorem exists_localExecution (iteration memory : Int32) (numbered : iteration ≠ -1) :
    ∃ execution : ControllerExecution, execution.iteration = iteration ∧
      execution.memory = memory ∧
      execution.config.commandHosts = ["tcp://127.0.0.1:3000".toList] ∧
      execution.MergesInto (resultsPath memory) := by
  let vm : VariablesMap := { controller := true, simulationIteration := some iteration }
  have optionsParsed : parse_cmd_line vm {} = .ok (vm.notify {}) := rfl
  have fits : ∀ placement ∈ placements (-1) [localHost 1], placement.PortsFit := by
    decide +kernel
  have hostsParsed : parseControllerXML (some (hostElements [localHost 1]))
      (vm.notify {}).toConfiguration =
        .ok ((vm.notify {}).toConfiguration.extend (placements (-1) [localHost 1])) :=
    (parseControllerXML_eq_ok_iff (parsedAs_hostElements _) _ _).mpr ⟨fits, rfl⟩
  rcases SimulationController.exists_complete_run
    (Configuration.toController _ (paired_of_parsed optionsParsed hostsParsed)) memory
      (fun _ command => command) with ⟨trace, controller, steps, complete, _⟩
  let execution : ControllerExecution :=
    ⟨vm, _, _, _, optionsParsed, rfl, hostsParsed, memory, trace, controller, steps⟩
  rcases SimulationController.exists_merged steps complete with ⟨path, contents, merged⟩
  have merges : execution.MergesInto path := ⟨contents, merged⟩
  have pathEq : path = resultsPath memory := merges.path_eq.trans (if_neg numbered)
  refine ⟨execution, rfl, rfl, ?_, pathEq ▸ merges⟩
  change (placements (-1) [localHost 1]).map Placement.commandAddress = _
  decide +kernel

theorem writesApart_held :
    ∃ first second : ControllerExecution, first.iteration = 1 ∧ second.iteration = 2 ∧
      first.config.commandHosts = ["tcp://127.0.0.1:3000".toList] ∧
      second.config.commandHosts = ["tcp://127.0.0.1:3000".toList] ∧
      WritesApart first second (resultsPath 1) (resultsPath 2) := by
  rcases exists_localExecution 1 1 (by decide) with
    ⟨first, firstIteration, firstMemory, firstHosts, firstMerges⟩
  rcases exists_localExecution 2 2 (by decide) with
    ⟨second, secondIteration, secondMemory, secondHosts, secondMerges⟩
  refine ⟨first, second, firstIteration, secondIteration, firstHosts, secondHosts, ?_⟩
  have different : first.iteration ≠ second.iteration := by
    rw [firstIteration, secondIteration]
    decide
  apply (writesApart_iff different firstMerges secondMerges).mpr
  exact ⟨fun _ => firstMemory.trans firstIteration.symm,
    fun _ => secondMemory.trans secondIteration.symm⟩

/-- Two iterations in memory that holds zeros write to the same file. -/
theorem not_writesApart_zeros :
    ∃ first second : ControllerExecution, first.iteration = 1 ∧ second.iteration = 2 ∧
      first.config.commandHosts = ["tcp://127.0.0.1:3000".toList] ∧
      second.config.commandHosts = ["tcp://127.0.0.1:3000".toList] ∧
      first.MergesInto (resultsPath 0) ∧ second.MergesInto (resultsPath 0) ∧
      ¬WritesApart first second (resultsPath 0) (resultsPath 0) := by
  rcases exists_localExecution 1 0 (by decide) with
    ⟨first, firstIteration, _, firstHosts, firstMerges⟩
  rcases exists_localExecution 2 0 (by decide) with
    ⟨second, secondIteration, _, secondHosts, secondMerges⟩
  refine ⟨first, second, firstIteration, secondIteration, firstHosts, secondHosts, firstMerges,
    secondMerges, ?_⟩
  intro apart
  exact apart.1 rfl

end KeyValueClusterPerf
