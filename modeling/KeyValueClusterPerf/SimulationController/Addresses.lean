import KeyValueClusterPerf.Configuration.ControllerXML
import KeyValueClusterPerf.SimulationController.Barrier

/-!
# The addresses that the controller connects to

The two lists of addresses are filled in one loop and so are aligned: at each position they
have the addresses of one node. The controller goes through the command addresses and takes
the data addresses from the front of their list, one for each request of results. So the
data socket is connected to the node that has just been sent the request.
-/

namespace KeyValueClusterPerf

open Texts LabelledRuns

/-- The configuration of a controller with as many data addresses as command addresses. -/
def Configuration.toController (config : Configuration)
    (paired : config.dataHosts.length = config.commandHosts.length) :
    ControllerConfiguration config.commandHosts.length where
  commandHosts := config.commandHosts.get
  dataHosts := fun worker => config.dataHosts.get (worker.cast paired.symm)
  simulationIteration := config.simulationIteration

/-- A connection of the data socket, with the position of its worker. -/
def ControllerEvent.opened? {workers : ℕ} : ControllerEvent workers → Option (Fin workers × Text)
  | .opened worker host => some (worker, host)
  | _ => none

namespace SimulationController

variable {workers : ℕ} {config : ControllerConfiguration workers}
  {controller : SimulationController workers} {trace : List (ControllerEvent workers)}
  {simulationIteration : Int32} {worker : Fin workers}

theorem run_at_transfer (worker : Fin workers) :
    ∃ earlier later, run = (earlier ++ [.send worker GETRESULTS]) ++
      .receiveDataFromWorker worker :: later := by
  rcases List.append_of_mem (List.mem_finRange worker) with ⟨before, after, split⟩
  refine ⟨initialisation ++ measurement ++ before.flatMap requestResults,
    after.flatMap requestResults ++ getAllNodes DONERESULTS ++ shutdown ++ [.mergeResults], ?_⟩
  simp [run, collection, split, requestResults]

/-- In the program, the transfer of a worker's results directly follows their request. -/
theorem send_before_transfer {front back : List (Action workers)}
    (split : run = front ++ .receiveDataFromWorker worker :: back) :
    ∃ earlier, front = earlier ++ [.send worker GETRESULTS] := by
  have transfers := @transfers_run workers
  have distinct := List.nodup_finRange workers
  have transfer : Action.transfer? (.receiveDataFromWorker worker) = some worker := rfl
  rw [← transfers, split, List.filterMap_append, List.filterMap_cons_some transfer,
    List.nodup_middle, List.nodup_cons, List.mem_append] at distinct
  have once : ∀ {part : List (Action workers)}, worker ∉ part.filterMap Action.transfer? →
      .receiveDataFromWorker worker ∉ part := by
    intro part absent mem
    exact absent (List.mem_filterMap.mpr ⟨_, mem, rfl⟩)
  rcases run_at_transfer worker with ⟨earlier, later, sameRun⟩
  have same := (List.append_cons_inj_of_notMem (once fun mem => distinct.1 (.inl mem))
    (once fun mem => distinct.1 (.inr mem))).mp (split.symm.trans sameRun)
  exact ⟨earlier, same.1⟩

theorem exists_opened_of_action? {event : ControllerEvent workers}
    (silent : event.action? = none) : ∃ target host, event = .opened target host := by
  cases event with
  | opened target host => exact ⟨target, host, rfl⟩
  | _ => simp [ControllerEvent.action?] at silent

theorem eq_sent_of_action? {event : ControllerEvent workers} {command : Text}
    (completes : event.action? = some (.send worker command)) : event = .sent worker command := by
  cases event with
  | sent target other =>
      rcases Option.some.inj completes with ⟨rfl, rfl⟩
      rfl
  | _ => simp [ControllerEvent.action?] at completes

/-- The data socket of a worker is opened directly after the request for its results. -/
theorem opened_after_sent
    (steps : Run (Step config) (start config simulationIteration) trace controller)
    {front back : List (ControllerEvent workers)} {host : Text}
    (split : trace = front ++ .opened worker host :: back) :
    ∃ earlier, front = earlier ++ [.sent worker GETRESULTS] := by
  rw [split] at steps
  rcases steps.cut with ⟨before, after, frontSteps, opens, _⟩
  cases opens with
  | openData first closed _ =>
      have actions := actions_of_run frontSteps
      rw [first] at actions
      rcases send_before_transfer actions.symm with ⟨sentBefore, actionsEq⟩
      cases frontSteps with
      | nil => simp at actionsEq
      | @snoc shorter middle _ last earlierSteps lastStep =>
          refine ⟨shorter, ?_⟩
          rw [List.filterMap_append] at actionsEq
          cases completes : last.action? with
          | none =>
              rcases exists_opened_of_action? completes with ⟨_, _, rfl⟩
              simp [dataSocket_of_step lastStep] at closed
          | some action =>
              rw [List.filterMap_cons_some completes, List.filterMap_nil] at actionsEq
              have sameAction := List.cons.inj (List.append_inj' actionsEq rfl).2
              rw [sameAction.1] at completes
              rw [eq_sent_of_action? completes]

/-- The workers whose data socket has not been opened; an open one belongs to the first transfer. -/
def unopened (controller : SimulationController workers) : List (Fin workers) :=
  (controller.program.filterMap Action.transfer?).drop controller.dataSocket.toList.length

/-- The connections that have been made and those that remain are one for each worker. -/
def ConnectionsPaired (config : ControllerConfiguration workers)
    (trace : List (ControllerEvent workers)) (controller : SimulationController workers) : Prop :=
  trace.filterMap ControllerEvent.opened? ++
      controller.unopened.map (fun worker => (worker, config.dataHosts worker)) =
    (List.finRange workers).map fun worker => (worker, config.dataHosts worker)

/-- An action that is no transfer connects nothing, and needs no data socket. -/
theorem ConnectionsPaired.tail (paired : ConnectionsPaired config trace controller)
    {event : ControllerEvent workers} {next : SimulationController workers}
    {action : Action workers} {rest : List (Action workers)}
    (first : controller.program = action :: rest) (other : action.transfer? = none)
    (silent : event.opened? = none) (programEq : next.program = rest)
    (socketEq : next.dataSocket = controller.dataSocket) :
    ConnectionsPaired config (trace ++ [event]) next := by
  have same : next.unopened = controller.unopened := by
    rw [unopened, unopened, programEq, socketEq, first, List.filterMap_cons_none other]
  rw [ConnectionsPaired, List.filterMap_append, List.filterMap_cons_none silent,
    List.filterMap_nil, List.append_nil, same]
  exact paired

theorem connectionsPaired_of_run
    (steps : Run (Step config) (start config simulationIteration) trace controller) :
    ConnectionsPaired config trace controller := by
  apply steps.invariant fun trace controller => ConnectionsPaired config trace controller
  · simp [ConnectionsPaired, unopened, start, transfers_run]
  · intro trace controller next event earlier before step
    have hosts := hostsPaired_of_run earlier
    cases step with
    | connect first => exact before.tail first rfl rfl rfl rfl
    | send first => exact before.tail first rfl rfl rfl rfl
    | getReply _ first => exact before.tail first rfl rfl rfl rfl
    | mergeResults first => exact before.tail first rfl rfl rfl rfl
    | openData first closed front =>
        rcases hosts.host_of_opened first closed front with rfl
        simpa [ConnectionsPaired, unopened, first, closed, Action.transfer?,
          ControllerEvent.opened?] using before
    | receiveData _ _ first connected =>
        simpa [ConnectionsPaired, unopened, first, connected, Action.transfer?,
          ControllerEvent.opened?, List.filterMap_cons] using before

/-- A complete run connects to the data address of every worker, in order. -/
theorem opened_of_complete_run
    (steps : Run (Step config) (start config simulationIteration) trace controller)
    (complete : controller.program = []) :
    trace.filterMap ControllerEvent.opened? =
      (List.finRange workers).map fun worker => (worker, config.dataHosts worker) := by
  have paired := connectionsPaired_of_run steps
  simpa [ConnectionsPaired, unopened, complete] using paired

end SimulationController

/--
What a run of the controller does with the addresses of some nodes: it starts with all data
addresses, never lacks one when it has to open the data socket, and opens the one of the
node to which it has just sent the request. It can come to its end, and whenever it does, it has
opened the data socket of each node once, in the order of the nodes.
-/
structure ConnectsToNodes {workers : ℕ} (config : ControllerConfiguration workers)
    (nodes : List Placement) : Prop where
  initial : ∀ simulationIteration : Int32,
    (SimulationController.start config simulationIteration).dataHosts =
      nodes.map Placement.dataAddress
  available : ∀ {simulationIteration trace controller worker rest},
    Run (SimulationController.Step config) (.start config simulationIteration) trace controller →
      controller.program = .receiveDataFromWorker worker :: rest →
        controller.dataSocket = none → controller.dataHosts ≠ []
  connected : ∀ {simulationIteration trace controller front worker host back},
    Run (SimulationController.Step config) (.start config simulationIteration) trace controller →
      trace = front ++ .opened worker host :: back →
        ∃ earlier node, front = earlier ++ [.sent worker GETRESULTS] ∧
          nodes[worker.val]? = some node ∧
            config.commandHosts worker = node.commandAddress ∧ host = node.dataAddress
  completes : ∀ simulationIteration, ∃ trace controller,
    Run (SimulationController.Step config) (.start config simulationIteration) trace controller ∧
      controller.program = []
  complete : ∀ {simulationIteration trace controller},
    Run (SimulationController.Step config) (.start config simulationIteration) trace controller →
      controller.program = [] →
        (trace.filterMap ControllerEvent.opened?).map (Prod.map Fin.val id) =
          nodes.mapIdx fun k node => (k, node.dataAddress)

theorem connectsToNodes {config : Configuration} {nodes : List Placement}
    (commandEq : config.commandHosts = nodes.map Placement.commandAddress)
    (dataEq : config.dataHosts = nodes.map Placement.dataAddress)
    (paired : config.dataHosts.length = config.commandHosts.length) :
    ConnectsToNodes (config.toController paired) nodes := by
  constructor
  · intro _
    rw [← dataEq]
    apply List.ext_get
    · exact List.length_ofFn.trans paired.symm
    · intro position _ _
      simp [SimulationController.start, Configuration.toController]
  · intro simulationIteration trace controller worker rest steps first closed
    have hosts := SimulationController.hostsPaired_of_run steps
    rcases hosts.front_of_closed first closed with ⟨others, front⟩
    simp [front]
  · intro simulationIteration trace controller front worker host back steps split
    rcases SimulationController.opened_after_sent steps split with ⟨earlier, sent⟩
    rw [split] at steps
    rcases steps.cut with ⟨before, after, frontSteps, opens, _⟩
    have hosts := SimulationController.hostsPaired_of_run frontSteps
    cases opens with
    | openData first closed front =>
        have inside : worker.val < nodes.length := by
          simpa [commandEq] using worker.isLt
        refine ⟨earlier, nodes[worker.val], sent, List.getElem?_eq_getElem inside, ?_, ?_⟩
        · simp [Configuration.toController, commandEq]
        · rw [hosts.host_of_opened first closed front]
          simp [Configuration.toController, dataEq]
  · intro simulationIteration
    rcases SimulationController.exists_complete_run (config.toController paired)
      simulationIteration (fun _ command => command) with ⟨trace, controller, steps, done, _⟩
    exact ⟨trace, controller, steps, done⟩
  · intro simulationIteration trace controller steps done
    rw [SimulationController.opened_of_complete_run steps done, List.map_map]
    apply List.ext_getElem
    · simp [commandEq]
    · intro k _ _
      simp [Configuration.toController, dataEq]

/-- No port number of the host is beyond `int`, also that after its last node. -/
structure HostEntry.PortsFit (entry : HostEntry) : Prop where
  command : entry.firstCommandPort.toInt + entry.numberOfNodes.toInt ≤ Int32.maxValue.toInt
  data : entry.firstDataPort.toInt + entry.numberOfNodes.toInt ≤ Int32.maxValue.toInt

theorem HostEntry.PortsFit.placement {entry : HostEntry} (fits : entry.PortsFit)
    {hostLimit : Int32} {i : ℕ} (inside : i < entry.nodeCount hostLimit) :
    Placement.PortsFit ⟨entry, i⟩ := by
  have counting := (lt_nodeCount_iff.mp inside).1
  have commandFits := fits.command
  have dataFits := fits.data
  constructor
  · show entry.firstCommandPort.toInt + i ≤ _
    omega
  · show entry.firstDataPort.toInt + i ≤ _
    omega

/--
The addresses are those of the nodes, in order, and the controller connects its data socket
to the node whose results it has just requested.
-/
theorem addresses_paired {children : List (Text × HostTree)} {entries : List HostEntry}
    (parsed : ParsedAs children entries) (fit : ∀ entry ∈ entries, entry.PortsFit)
    (hostLimit simulationIteration : Int32) :
    ∃ config, parseControllerXML (some children)
        { hostLimit := hostLimit, simulationIteration := simulationIteration } = .ok config ∧
      config.commandHosts = (placements hostLimit entries).map Placement.commandAddress ∧
        config.dataHosts = (placements hostLimit entries).map Placement.dataAddress ∧
          ∃ paired : config.dataHosts.length = config.commandHosts.length,
            ConnectsToNodes (config.toController paired) (placements hostLimit entries) := by
  have allFit : ∀ placement ∈ placements hostLimit entries, placement.PortsFit := by
    apply portsFit_placements_iff.mpr
    intro entry mem i inside
    exact (fit entry mem).placement inside
  have parsedEq := (parseControllerXML_eq_ok_iff parsed
    { hostLimit := hostLimit, simulationIteration := simulationIteration } _).mpr ⟨allFit, rfl⟩
  refine ⟨_, parsedEq, rfl, rfl, ?_, ?_⟩
  · simp [Configuration.extend]
  · apply connectsToNodes
    · rfl
    · rfl

theorem addresses_paired_localHost : ∃ config,
    parseControllerXML (some (hostElements [localHost 2, localHost 3])) { hostLimit := 2 } =
        .ok config ∧
      config.commandHosts =
          (placements 2 [localHost 2, localHost 3]).map Placement.commandAddress ∧
        config.dataHosts =
            (placements 2 [localHost 2, localHost 3]).map Placement.dataAddress ∧
          ∃ paired : config.dataHosts.length = config.commandHosts.length,
            ConnectsToNodes (config.toController paired)
              (placements 2 [localHost 2, localHost 3]) := by
  apply addresses_paired (parsedAs_hostElements _)
  simp only [List.forall_mem_cons, List.not_mem_nil, false_implies, implies_true, and_true]
  exact ⟨⟨by decide, by decide⟩, ⟨by decide, by decide⟩⟩

end KeyValueClusterPerf
