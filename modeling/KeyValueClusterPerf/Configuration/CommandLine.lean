import KeyValueClusterPerf.Configuration.ControllerXML
import KeyValueClusterPerf.Foundations.Double

/-!
# The options of the command line

`parse_cmd_line` puts what the command line says into the configuration and leaves the
defaults where it says nothing. `parseControllerXML` adds addresses to the result and keeps
everything else.
-/

namespace KeyValueClusterPerf

open Texts Doubles

/-- What has been stored for each option: that it occurs, or its value if it has one. -/
structure VariablesMap where
  controller : Bool := false
  worker : Bool := false
  hostLimit : Option Int32 := none
  bytesLimit : Option Double := none
  simulationIteration : Option Int32 := none
  commandPort : Option Int32 := none
  dataPort : Option Int32 := none
  help : Bool := false

/-- The configuration with the other fields that have an option, and their defaults. -/
structure ProgramConfiguration extends Configuration where
  controller : Bool := false
  bytesLimit : Double := .finite (-1)
  worker : Bool := false
  commandPort : Int32 := 3000
  dataPort : Int32 := 4000

/-- Why the program ends before it starts: it prints its options, or a message. -/
inductive CommandLineEnd
  | description
  | message (text : Text)

def VariablesMap.notify (vm : VariablesMap) (config : ProgramConfiguration) :
    ProgramConfiguration :=
  { config with
    controller := if vm.controller then true else config.controller
    worker := if vm.worker then true else config.worker
    hostLimit := vm.hostLimit.getD config.hostLimit
    bytesLimit := vm.bytesLimit.getD config.bytesLimit
    simulationIteration := vm.simulationIteration.getD config.simulationIteration
    commandPort := vm.commandPort.getD config.commandPort
    dataPort := vm.dataPort.getD config.dataPort }

def parse_cmd_line (vm : VariablesMap) (config : ProgramConfiguration) :
    Except CommandLineEnd ProgramConfiguration :=
  if vm.help then .error .description
  else if vm.controller && vm.worker then
    .error (.message "The node cannot be both a worker and a controller".toList)
  else if !vm.controller && !vm.worker then
    .error (.message "Please specify if this node is a worker or a controller".toList)
  else .ok (vm.notify config)

/-- A command line is accepted if it asks for exactly one kind of node, and not for help. -/
theorem parse_cmd_line_eq_ok_iff {vm : VariablesMap} {config result : ProgramConfiguration} :
    parse_cmd_line vm config = .ok result ↔
      vm.help = false ∧ vm.controller = !vm.worker ∧ result = vm.notify config := by
  rw [parse_cmd_line]
  cases vm.help <;> cases vm.controller <;> cases vm.worker <;> simp [eq_comm]

theorem eq_extend_of_addNodes {entry : HostEntry} {i : ℕ} {config result : Configuration}
    (added : addNodes entry i config = .ok result) : ∃ nodes, result = config.extend nodes :=
  ⟨_, ((addNodes_eq_ok_iff entry i config result).mp added).2⟩

theorem exists_of_bind_eq_ok {α β : Type} {first : Except ParseFailure α}
    {next : α → Except ParseFailure β} {result : β} (ok : first >>= next = .ok result) :
    ∃ value, first = .ok value ∧ next value = .ok result := by
  cases first with
  | error failure => simp [bind, Except.bind] at ok
  | ok value => exact ⟨value, rfl, ok⟩

/-- Whatever the elements are, they add addresses of nodes and nothing else. -/
theorem eq_extend_of_parseHosts {children : List (Text × HostTree)}
    {config result : Configuration} (parsed : parseHosts children config = .ok result) :
    ∃ nodes, result = config.extend nodes := by
  induction children generalizing config with
  | nil =>
      rcases Except.ok.inj parsed with rfl
      exact ⟨[], config.extend_nil.symm⟩
  | cons child rest ih =>
      rcases child with ⟨name, tree⟩
      rw [parseHosts] at parsed
      split at parsed
      · rcases exists_of_bind_eq_ok parsed with ⟨entry, _, entryParsed⟩
        rcases exists_of_bind_eq_ok entryParsed with ⟨extended, added, restParsed⟩
        rcases eq_extend_of_addNodes added with ⟨first, rfl⟩
        rcases ih restParsed with ⟨others, rfl⟩
        exact ⟨first ++ others, (config.extend_append first others).symm⟩
      · exact ih parsed

theorem eq_extend_of_parseControllerXML {hosts : Option (List (Text × HostTree))}
    {config result : Configuration} (parsed : parseControllerXML hosts config = .ok result) :
    ∃ nodes, result = config.extend nodes := by
  rcases exists_of_bind_eq_ok parsed with ⟨children, _, childrenParsed⟩
  exact eq_extend_of_parseHosts childrenParsed

section Parsed

variable {vm : VariablesMap} {hosts : Option (List (Text × HostTree))}
  {options : ProgramConfiguration} {config : Configuration}

/-- There are as many data addresses as command addresses. -/
theorem paired_of_parsed (optionsParsed : parse_cmd_line vm {} = .ok options)
    (hostsParsed : parseControllerXML hosts options.toConfiguration = .ok config) :
    config.dataHosts.length = config.commandHosts.length := by
  rcases (parse_cmd_line_eq_ok_iff.mp optionsParsed).2.2 with rfl
  rcases eq_extend_of_parseControllerXML hostsParsed with ⟨nodes, rfl⟩
  simp [Configuration.extend, VariablesMap.notify]

theorem simulationIteration_of_parsed (optionsParsed : parse_cmd_line vm {} = .ok options)
    (hostsParsed : parseControllerXML hosts options.toConfiguration = .ok config) :
    config.simulationIteration = vm.simulationIteration.getD (-1) := by
  rcases (parse_cmd_line_eq_ok_iff.mp optionsParsed).2.2 with rfl
  rcases eq_extend_of_parseControllerXML hostsParsed with ⟨nodes, rfl⟩
  rfl

end Parsed

end KeyValueClusterPerf
