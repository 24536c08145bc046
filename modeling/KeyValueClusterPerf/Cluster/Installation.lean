import KeyValueClusterPerf.Cluster.Benchmark
import KeyValueClusterPerf.Cluster.Deployable
import KeyValueClusterPerf.Configuration.Main
import KeyValueClusterPerf.SimulationController.ResultsFile

/-!
# The program on its machines

The parties of a benchmark are processes of one program, each started with a command line and
configuration files. A worker binds the two ports of its command line on its machine, and the
controller connects to the addresses of its list of hosts. If each worker has been started where
the list says, and the list has no port twice, the processes form a cluster, and what is known
of its runs holds of the program from `main` on.
-/

namespace KeyValueClusterPerf

open Texts LabelledRuns

/-- A process that runs as a controller; `memory` is what its member held before. -/
structure ControllerProcess where
  vm : VariablesMap
  files : ConfigurationFiles
  config : ProgramConfiguration
  starts : main vm files = some (.controller config)
  memory : Int32

/-- A process that runs as a worker, with its machine and what it finds there. -/
structure WorkerProcess where
  machine : Text
  vm : VariablesMap
  files : ConfigurationFiles
  config : ProgramConfiguration
  settings : WorkerSettings
  starts : main vm files = some (.worker config settings)
  hostname : Hostname
  format : DurationFormat
  entries : Option (List DirectoryEntry)
  buffer : Buffer 1024

namespace WorkerProcess

/-- The command socket is bound to `tcp://*` with its port, so it has this address elsewhere. -/
def commandSocket (process : WorkerProcess) : Text :=
  address process.machine process.config.commandPort.toInt

def dataSocket (process : WorkerProcess) : Text :=
  address process.machine process.config.dataPort.toInt

def host (process : WorkerProcess) : WorkerHost :=
  ⟨⟨process.hostname, process.format, process.config.bytesLimit⟩, process.entries, process.buffer⟩

end WorkerProcess

namespace ControllerProcess

variable (process : ControllerProcess)

theorem optionsParsed : parse_cmd_line process.vm {} = .ok (process.vm.notify {}) :=
  (parsed_of_controller process.starts).1

theorem hostsParsed :
    parseControllerXML process.files.hosts (process.vm.notify {}).toConfiguration =
      .ok process.config.toConfiguration :=
  (parsed_of_controller process.starts).2

theorem paired : process.config.dataHosts.length = process.config.commandHosts.length :=
  paired_of_parsed process.optionsParsed process.hostsParsed

theorem simulationIteration :
    process.config.simulationIteration = process.vm.simulationIteration.getD (-1) :=
  simulationIteration_of_parsed process.optionsParsed process.hostsParsed

end ControllerProcess

/-- A controller, and the workers that have been started at the addresses of its hosts. -/
structure Installation where
  controller : ControllerProcess
  children : List (Text × HostTree)
  entries : List HostEntry
  hosts : controller.files.hosts = some children
  parsed : ParsedAs children entries
  apart : PortsApart (controller.vm.hostLimit.getD (-1)) entries
  workers : List WorkerProcess
  commandSockets : workers.map WorkerProcess.commandSocket = controller.config.commandHosts
  dataSockets : workers.map WorkerProcess.dataSocket = controller.config.dataHosts

namespace Installation

variable (installation : Installation)

theorem length_workers :
    installation.workers.length = installation.controller.config.commandHosts.length := by
  rw [← installation.commandSockets, List.length_map]

def worker (position : Fin installation.controller.config.commandHosts.length) : WorkerProcess :=
  installation.workers.get (position.cast installation.length_workers.symm)

/-- The sockets that the workers bind, and the number of the iteration. -/
def sockets : ControllerConfiguration installation.controller.config.commandHosts.length where
  commandHosts := fun position => (installation.worker position).commandSocket
  dataHosts := fun position => (installation.worker position).dataSocket
  simulationIteration := installation.controller.config.simulationIteration

/-- The controller connects to the sockets that the workers bind. -/
theorem sockets_eq :
    installation.sockets =
      installation.controller.config.toController installation.controller.paired := by
  have commands := installation.commandSockets
  have datas := installation.dataSockets
  simp only [sockets, Configuration.toController, ControllerConfiguration.mk.injEq, and_true]
  constructor
  · funext position
    simp [worker, ← commands]
  · funext position
    simp [worker, ← datas]

theorem distinct :
    Function.Injective (Sum.elim installation.sockets.commandHosts
      installation.sockets.dataHosts) := by
  have hostsParsed := installation.controller.hostsParsed
  rw [installation.hosts] at hostsParsed
  rw [installation.sockets_eq]
  apply injective_toController_iff.mpr
  rw [((parseControllerXML_eq_ok_iff installation.parsed _ _).mp hostsParsed).2]
  exact nodup_addresses_iff.mpr installation.apart

def deployment : Deployment installation.controller.config.commandHosts.length where
  toControllerConfiguration := installation.sockets
  distinct := installation.distinct
  hosts := fun position => (installation.worker position).host

/-- The file of the results: the member of the controller gives its number, if it has one. -/
def resultsFile : Text :=
  if installation.controller.vm.simulationIteration.getD (-1) = -1 then "results.csv".toList
  else resultsPath installation.controller.memory

end Installation

section LocalWorkers

def documentedFiles : ConfigurationFiles where
  hosts := some (hostElements [localHost 3])
  worker := {
    accessPatternType := some "OCDB".toList
    accessPatternMinKey := some 1
    accessPatternMaxKey := some 1000
    accessPatternReadWriteRatio := some (.finite (333 / 100))
    databaseType := some "RiakJava".toList
    databaseSecurity := some "none".toList
    databaseBroker := some "tcp://137.138.234.68:5559".toList
    valueDistributionType := some "Constant".toList
    valueDistributionSize := some 1000 }

/-- With any limit, the three nodes of the local host are parsed up to it. -/
theorem hostsParsed_documentedFiles (vm : VariablesMap) :
    parseControllerXML documentedFiles.hosts (vm.notify {}).toConfiguration =
      .ok ((vm.notify {}).toConfiguration.extend
        (placements (vm.hostLimit.getD (-1)) [localHost 3])) := by
  apply (parseControllerXML_eq_ok_iff (parsedAs_hostElements _) _ _).mpr
  refine ⟨?_, rfl⟩
  apply portsFit_placements_iff.mpr
  intro entry mem i inside
  rcases List.mem_singleton.mp mem with rfl
  have counting := (lt_nodeCount_iff.mp inside).1
  have count : (localHost 3).numberOfNodes.toInt = 3 := rfl
  have command : (localHost 3).firstCommandPort.toInt = 3000 := rfl
  have data : (localHost 3).firstDataPort.toInt = 4000 := rfl
  have highest : Int32.maxValue.toInt = 2147483647 := rfl
  constructor <;> simp only [command, data, highest] <;> omega

def limitedController : ControllerProcess where
  vm := { controller := true, hostLimit := some 2, simulationIteration := some 7 }
  files := documentedFiles
  config := _
  starts := main_of_parsed rfl rfl (hostsParsed_documentedFiles _) rfl
  memory := 0

def localWorker (commandPort dataPort : Int32) : WorkerProcess where
  machine := "127.0.0.1".toList
  vm := { worker := true, commandPort := some commandPort, dataPort := some dataPort }
  files := documentedFiles
  config := _
  settings := _
  starts := main_of_parsed rfl rfl (hostsParsed_documentedFiles _) rfl
  hostname := plainConfiguration.hostname
  format := clockDurations
  entries := none
  buffer := .zero 1024

def localInstallation : Installation where
  controller := limitedController
  children := hostElements [localHost 3]
  entries := [localHost 3]
  hosts := rfl
  parsed := parsedAs_hostElements _
  apart := by decide +kernel
  workers := [localWorker 3000 4000, localWorker 3001 4001]
  commandSockets := by decide +kernel
  dataSockets := by decide +kernel

end LocalWorkers

end KeyValueClusterPerf
