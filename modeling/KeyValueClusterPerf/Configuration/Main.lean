import KeyValueClusterPerf.AccessPattern.Basic
import KeyValueClusterPerf.Configuration.CommandLine

/-!
# The start of the program

`main` parses the command line and both configuration files before it looks at the kind of the
node. So a controller does not start without the settings of the workers, and a worker does not
start without the list of hosts. A rejected command line ends the program with the status of a
success.
-/

namespace KeyValueClusterPerf

open Texts Doubles

/-- What is found at the paths of the worker configuration. -/
structure WorkerTree where
  accessPatternType : Option Text
  accessPatternMinKey : Option Int32
  accessPatternMaxKey : Option Int32
  accessPatternReadWriteRatio : Option Double
  databaseType : Option Text
  databaseSecurity : Option Text
  databaseBroker : Option Text
  valueDistributionType : Option Text
  valueDistributionSize : Option Int32

/-- The fields of the configuration that have no default. -/
structure WorkerSettings extends AccessConfiguration where
  accessPatternType : Text
  databaseType : Text
  databaseSecurity : Text
  databaseBroker : Text
  valueDistributionType : Text

def parseWorkerXML (tree : WorkerTree) : Except ParseFailure WorkerSettings := do
  let accessPatternType ← readPath "worker.accessPattern.type".toList tree.accessPatternType
  let minKey ← readPath "worker.accessPattern.minKey".toList tree.accessPatternMinKey
  let maxKey ← readPath "worker.accessPattern.maxKey".toList tree.accessPatternMaxKey
  let readWriteRatio ← readPath "worker.accessPattern.readWriteRatio".toList
    tree.accessPatternReadWriteRatio
  let databaseType ← readPath "worker.database.type".toList tree.databaseType
  let security ← readPath "worker.database.security".toList tree.databaseSecurity
  let broker ← readPath "worker.database.broker".toList tree.databaseBroker
  let valueDistributionType ← readPath "worker.valueDistribution.type".toList
    tree.valueDistributionType
  let size ← readPath "worker.valueDistribution.size".toList tree.valueDistributionSize
  return {
    accessPatternMinKey := minKey
    accessPatternMaxKey := maxKey
    accessPatternReadWriteRatio := readWriteRatio
    valueDistributionSize := size
    accessPatternType := accessPatternType
    databaseType := databaseType
    databaseSecurity := security
    databaseBroker := broker
    valueDistributionType := valueDistributionType }

/-- What the two files hold that are read in the directory of the program. -/
structure ConfigurationFiles where
  hosts : Option (List (Text × HostTree))
  worker : WorkerTree

/-- How far `main` gets: it returns a status, or it calls `run` of one kind of node. -/
inductive Started
  | returned (status : Int32)
  | controller (config : ProgramConfiguration)
  | worker (config : ProgramConfiguration) (settings : WorkerSettings)

/-- The handler of an exception; an overflow has no defined behaviour. -/
def ParseFailure.handled : ParseFailure → Option Started
  | .badPath _ => some (.returned 1)
  | .overflow => none

def main (vm : VariablesMap) (files : ConfigurationFiles) : Option Started :=
  match parse_cmd_line vm {} with
  | .error _ => some (.returned 0)
  | .ok options =>
      match parseControllerXML files.hosts options.toConfiguration with
      | .error failure => failure.handled
      | .ok hosts =>
          match parseWorkerXML files.worker with
          | .error failure => failure.handled
          | .ok settings =>
              let config := { options with toConfiguration := hosts }
              if config.controller then some (.controller config)
              else some (.worker config settings)

variable {vm : VariablesMap} {files : ConfigurationFiles} {config : ProgramConfiguration}
  {settings : WorkerSettings}

theorem ParseFailure.handled_eq {failure : ParseFailure} {started : Started}
    (ends : failure.handled = some started) : started = .returned 1 := by
  cases failure with
  | badPath path => exact (Option.some.inj ends).symm
  | overflow => simp [handled] at ends

theorem main_of_parsed {hosts : Configuration} (help : vm.help = false)
    (kind : vm.controller = !vm.worker)
    (hostsParsed : parseControllerXML files.hosts (vm.notify {}).toConfiguration = .ok hosts)
    (settingsParsed : parseWorkerXML files.worker = .ok settings) :
    main vm files = some (if vm.controller
      then .controller { vm.notify {} with toConfiguration := hosts }
      else .worker { vm.notify {} with toConfiguration := hosts } settings) := by
  have optionsParsed : parse_cmd_line vm {} = .ok (vm.notify {}) :=
    parse_cmd_line_eq_ok_iff.mpr ⟨help, kind, rfl⟩
  rw [main, optionsParsed]
  simp only [hostsParsed, settingsParsed]
  cases given : vm.controller <;> simp [VariablesMap.notify, given]

/-- A node that runs has parsed everything, and is of the kind that the command line asks for. -/
theorem parsed_of_main {started : Started} (starts : main vm files = some started)
    (runs : ∀ status, started ≠ .returned status) :
    ∃ hosts settings,
      parse_cmd_line vm {} = .ok (vm.notify {}) ∧
      parseControllerXML files.hosts (vm.notify {}).toConfiguration = .ok hosts ∧
      parseWorkerXML files.worker = .ok settings ∧
      started = if vm.controller then .controller { vm.notify {} with toConfiguration := hosts }
        else .worker { vm.notify {} with toConfiguration := hosts } settings := by
  rw [main] at starts
  cases optionsParsed : parse_cmd_line vm {} with
  | error rejection =>
      simp only [optionsParsed, Option.some.injEq] at starts
      exact absurd starts.symm (runs 0)
  | ok options =>
      rcases (parse_cmd_line_eq_ok_iff.mp optionsParsed).2.2 with rfl
      simp only [optionsParsed] at starts
      cases hostsParsed : parseControllerXML files.hosts (vm.notify {}).toConfiguration with
      | error failure =>
          simp only [hostsParsed] at starts
          exact absurd (failure.handled_eq starts) (runs 1)
      | ok hosts =>
          simp only [hostsParsed] at starts
          cases settingsParsed : parseWorkerXML files.worker with
          | error failure =>
              simp only [settingsParsed] at starts
              exact absurd (failure.handled_eq starts) (runs 1)
          | ok settings =>
              simp only [settingsParsed] at starts
              refine ⟨hosts, settings, rfl, rfl, rfl, ?_⟩
              have kind : (vm.notify {}).controller = vm.controller := by
                cases given : vm.controller <;> simp [VariablesMap.notify, given]
              rw [kind] at starts
              cases given : vm.controller <;> simp_all

theorem parsed_of_controller (starts : main vm files = some (.controller config)) :
    parse_cmd_line vm {} = .ok (vm.notify {}) ∧
      parseControllerXML files.hosts (vm.notify {}).toConfiguration =
        .ok config.toConfiguration := by
  rcases parsed_of_main starts (by simp) with ⟨hosts, settings, optionsParsed, hostsParsed, _, eq⟩
  cases given : vm.controller with
  | false => simp [given] at eq
  | true =>
      simp only [given, if_true, Started.controller.injEq] at eq
      rw [eq]
      exact ⟨optionsParsed, hostsParsed⟩

end KeyValueClusterPerf
