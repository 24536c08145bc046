import KeyValueClusterPerf.Cluster.Progress

/-!
# The protocol between the controller and its workers

What the sessions say about whole runs of the cluster, whatever the order of the steps:
every reply is the expected one, every worker handles the four commands once and in order,
nobody handles GO before all workers have answered INIT, the cluster is not stuck before the
controller has finished, and the controller merges the results of all workers, in order.
-/

namespace KeyValueClusterPerf

open Texts LabelledRuns Session

variable {workers : ℕ} {deployment : Deployment workers} {worker : Fin workers}
  {trace : List (ClusterEvent workers)} {cluster : Cluster workers}
  {controllerAt workerAt : ℕ} {simulationIteration : Int32}

def WorkerEvent.handled? : WorkerEvent → Option Text
  | .handled requestString => some requestString
  | _ => none

def handledCommands (worker : Fin workers) (trace : List (ClusterEvent workers)) : List Text :=
  (trace.filterMap (ClusterEvent.ofWorker worker)).filterMap WorkerEvent.handled?

/-- No reply that the controller receives differs from the expected one. -/
def RepliesExpected (trace : List (ClusterEvent workers)) : Prop :=
  ∀ worker command replyStr, .controller (.received worker command replyStr) ∈ trace →
    replyStr = command

/-- When a worker handles GO, all workers have answered INIT. -/
def GoAfterInit (trace : List (ClusterEvent workers)) : Prop :=
  ∀ front worker back, trace = front ++ .worker worker (.handled GO) :: back →
    ∀ other, .worker other (.replied INITDONE) ∈ front

/-- The state of the cluster in which the controller merges the results. -/
structure ReadyToMerge (deployment : Deployment workers) (trace : List (ClusterEvent workers))
    (cluster : Cluster workers) : Prop where
  handled : ∀ worker, handledCommands worker trace = commands
  exited : ∀ worker, (cluster.nodes worker).worker.state = .EXIT
  commandsEmpty : ∀ worker, (cluster.wires (deployment.commandHosts worker)).toBound = [] ∧
    (cluster.wires (deployment.commandHosts worker)).toConnector = []
  dataEmpty : ∀ worker, (cluster.wires (deployment.dataHosts worker)).toBound = [] ∧
    (cluster.wires (deployment.dataHosts worker)).toConnector = []
  results : cluster.controller.allResults =
    List.ofFn fun worker => (deployment.hosts worker).results

theorem WorkerLabel.handled?_event (host : WorkerHost) (label : WorkerLabel) :
    (label.event host).handled? = label.handled? := by
  cases label <;> rfl

theorem handledCommands_eq
    (session : InSession deployment worker trace cluster controllerAt workerAt) :
    handledCommands worker trace = (workerScript.take workerAt).filterMap WorkerLabel.handled? := by
  rw [handledCommands, session.workerTrace, List.filterMap_map]
  congr 1
  funext label
  exact WorkerLabel.handled?_event _ label

/-- Every worker handles the four commands at most once, and in their order. -/
theorem handledCommands_initial (sessions : Sessions deployment trace cluster)
    (worker : Fin workers) : handledCommands worker trace <+: commands := by
  rcases sessions worker with ⟨controllerAt, workerAt, session⟩
  rw [handledCommands_eq session, ← handled_workerScript]
  exact (List.take_prefix workerAt workerScript).filterMap WorkerLabel.handled?

theorem exists_label_of_mem
    (session : InSession deployment worker trace cluster controllerAt workerAt)
    {event : ControllerEvent workers} (mem : .controller event ∈ trace)
    (concerns : event.worker? = some worker) :
    ∃ label ∈ controllerScript.take controllerAt,
      event = ControllerLabel.event deployment worker label := by
  have visible := List.mem_filterMap.mpr ⟨_, mem, ClusterEvent.ofController_of_eq concerns⟩
  rw [session.controllerTrace] at visible
  rcases List.mem_map.mp visible with ⟨label, labelMem, eventEq⟩
  exact ⟨label, labelMem, eventEq.symm⟩

theorem repliesExpected (sessions : Sessions deployment trace cluster) : RepliesExpected trace := by
  intro worker command replyStr mem
  rcases sessions worker with ⟨controllerAt, workerAt, session⟩
  rcases exists_label_of_mem session mem rfl with ⟨_, _, eventEq⟩
  exact (ControllerLabel.eq_getReply_of_event eventEq).2

/-- The controller logs nothing if every reply is the expected one. -/
theorem log_eq_nil {config : ControllerConfiguration workers}
    {controller : SimulationController workers} {events : List (ControllerEvent workers)}
    (steps : Run (SimulationController.Step config) (.start config simulationIteration) events
      controller)
    (expected : ∀ worker command replyStr, .received worker command replyStr ∈ events →
      replyStr = command) : controller.log = [] := by
  induction steps with
  | nil => rfl
  | snoc _ last ih =>
      have before := ih fun worker command replyStr mem =>
        expected worker command replyStr (List.mem_append_left _ mem)
      cases last with
      | @getReply worker command _ replyStr _ =>
          have same := expected worker command replyStr (by simp)
          simp [before, same]
      | _ => exact before

theorem mem_trace_of_workerLabel
    (session : InSession deployment worker trace cluster controllerAt workerAt)
    {label : WorkerLabel} (taken : label ∈ workerScript.take workerAt) :
    .worker worker (label.event (deployment.hosts worker)) ∈ trace := by
  have visible := List.mem_map_of_mem (f := WorkerLabel.event (deployment.hosts worker)) taken
  rw [← session.workerTrace] at visible
  rcases List.mem_filterMap.mp visible with ⟨event, mem, eventEq⟩
  cases event with
  | controller _ => simp [ClusterEvent.ofWorker] at eventEq
  | worker other event =>
      simp only [ClusterEvent.ofWorker, Option.ite_none_right_eq_some, Option.some.injEq] at eventEq
      rcases eventEq with ⟨rfl, rfl⟩
      exact mem

theorem mem_trace_of_controllerLabel
    (session : InSession deployment worker trace cluster controllerAt workerAt)
    {label : ControllerLabel} (taken : label ∈ controllerScript.take controllerAt) :
    .controller (label.event deployment worker) ∈ trace := by
  have visible := List.mem_map_of_mem (f := ControllerLabel.event deployment worker) taken
  rw [← session.controllerTrace] at visible
  rcases List.mem_filterMap.mp visible with ⟨event, mem, eventEq⟩
  cases event with
  | controller event =>
      simp only [ClusterEvent.ofController, ClusterEvent.controllerEvent?,
        Option.filter_eq_some_iff, Option.some.injEq] at eventEq
      rwa [← eventEq.1]
  | worker _ _ => simp [ClusterEvent.ofController, ClusterEvent.controllerEvent?] at eventEq

theorem handle_GO_mem_of_mem
    (session : InSession deployment worker trace cluster controllerAt workerAt)
    (mem : .worker worker (.handled GO) ∈ trace) : .handle GO ∈ workerScript.take workerAt := by
  have own : (ClusterEvent.worker worker (.handled GO)).ofWorker worker = some (.handled GO) := by
    simp [ClusterEvent.ofWorker]
  have visible := List.mem_filterMap.mpr ⟨_, mem, own⟩
  rw [session.workerTrace] at visible
  rcases List.mem_map.mp visible with ⟨label, taken, eventEq⟩
  cases label <;> simp [WorkerLabel.event] at eventEq
  rwa [eventEq] at taken

/-- A worker handles GO only after every worker has answered INIT. -/
theorem goAfterInit
    (steps : Run (Cluster.Step deployment) (.start deployment simulationIteration) trace cluster) :
    GoAfterInit trace := by
  intro front worker back split other
  rw [split] at steps
  rcases steps.cut with ⟨before, after, earlier, step, _⟩
  -- The worker handles GO, so the controller has sent it before.
  rcases sessions_of_run (earlier.snoc step) worker with ⟨controllerAt, workerAt, session⟩
  have handled := handle_GO_mem_of_mem session (List.mem_append_right _ List.mem_cons_self)
  have sentMem := mem_trace_of_controllerLabel session (sent_GO_of_handled session.causal handled)
  have sent : .controller (.sent worker GO) ∈ front := by
    simpa [ControllerLabel.event] using sentMem
  -- Before that the controller has received a reply to INIT from every worker.
  have sentEvent : .sent worker GO ∈ front.filterMap ClusterEvent.controllerEvent? :=
    List.mem_filterMap.mpr ⟨_, sent, rfl⟩
  rcases List.append_of_mem sentEvent with ⟨sentFront, sentBack, sentSplit⟩
  have expects : INITDONE ∈ (ControllerEvent.sent worker GO).expects := rfl
  rcases SimulationController.exists_received_mem_front (controller_run earlier) sentSplit expects
    other with ⟨replyStr, receivedMem⟩
  have receivedEvent : .received other INITDONE replyStr ∈
      front.filterMap ClusterEvent.controllerEvent? := by
    rw [sentSplit]
    exact List.mem_append_left _ receivedMem
  rcases List.mem_filterMap.mp receivedEvent with ⟨event, eventMem, eventEq⟩
  cases event with
  | worker _ _ => simp [ClusterEvent.controllerEvent?] at eventEq
  | controller event =>
      rcases Option.some.inj eventEq with rfl
      -- That reply is the one that the other worker has sent.
      rcases sessions_of_run earlier other with ⟨otherControllerAt, otherWorkerAt, otherSession⟩
      rcases exists_label_of_mem otherSession eventMem rfl with ⟨label, taken, labelEq⟩
      rw [(ControllerLabel.eq_getReply_of_event labelEq).1] at taken
      exact mem_trace_of_workerLabel otherSession
        (replied_INITDONE_of_received otherSession.causal taken)

/-- The results received so far and those of the transfers that remain are all results, in order. -/
def ResultsPaired (deployment : Deployment workers) (controller : SimulationController workers) :
    Prop :=
  controller.allResults ++ (controller.program.filterMap Action.transfer?).map
    (fun worker => (deployment.hosts worker).results) =
      List.ofFn fun worker => (deployment.hosts worker).results

theorem ResultsPaired.tail {controller next : SimulationController workers}
    (paired : ResultsPaired deployment controller) {action : Action workers}
    {rest : List (Action workers)} (first : controller.program = action :: rest)
    (silent : action.transfer? = none) (programEq : next.program = rest)
    (resultsEq : next.allResults = controller.allResults) : ResultsPaired deployment next := by
  rw [ResultsPaired, first, List.filterMap_cons_none silent] at paired
  rwa [ResultsPaired, programEq, resultsEq]

theorem ResultsPaired.received {controller next : SimulationController workers}
    (paired : ResultsPaired deployment controller) {rest : List (Action workers)}
    (first : controller.program = .receiveDataFromWorker worker :: rest)
    (programEq : next.program = rest)
    (resultsEq : next.allResults = controller.allResults ++ [(deployment.hosts worker).results]) :
    ResultsPaired deployment next := by
  have transfers : Action.transfer? (.receiveDataFromWorker worker) = some worker := rfl
  rw [ResultsPaired, first, List.filterMap_cons_some transfers] at paired
  rw [ResultsPaired, programEq, resultsEq, ← paired, List.append_assoc]
  rfl

theorem resultsPaired_of_run
    (steps : Run (Cluster.Step deployment) (.start deployment simulationIteration) trace cluster) :
    ResultsPaired deployment cluster.controller := by
  apply steps.invariant fun _ cluster => ResultsPaired deployment cluster.controller
  · simp only [ResultsPaired, Cluster.start, SimulationController.start,
      SimulationController.transfers_run, List.nil_append, List.ofFn_eq_map]
  · intro trace cluster next event earlier before step
    cases step with
    | worker _ => exact before
    | controller acts transport =>
        have paired := SimulationController.hostsPaired_of_run (controller_run earlier)
        cases acts with
        | connect first => exact before.tail first rfl rfl rfl
        | send first => exact before.tail first rfl rfl rfl
        | getReply _ first => exact before.tail first rfl rfl rfl
        | openData _ _ _ => exact before
        | @receiveData worker host _ message behindMessage heap first connected =>
            -- The session says which message arrives, and this message holds the results.
            rcases sessions_of_run earlier worker with ⟨_, _, session⟩
            rcases session.event_eq paired (.receiveData behindMessage heap first connected)
              transport rfl with ⟨label, eventEq⟩
            cases label <;> simp [ControllerLabel.event] at eventEq
            have read := (deployment.hosts worker).readResults_frame behindMessage heap
            exact before.received first rfl (by rw [eventEq.2, read])
        | mergeResults first => exact before.tail first rfl rfl rfl

/-- No action of its session remains only at the end of the script. -/
theorem eq_length_of_remaining_eq_nil
    (session : InSession deployment worker trace cluster controllerAt workerAt)
    (nothing : remaining worker controllerAt = []) : controllerAt = 11 := by
  apply le_antisymm session.causal.1
  by_contra unfinished
  have inside : controllerAt < controllerScript.length := not_le.mp unfinished
  have found := List.getElem?_eq_getElem inside
  cases completes : controllerScript[controllerAt].action? worker with
  | some action => simp [remaining_of_label worker found, completes] at nothing
  | none =>
      rw [ControllerLabel.eq_openData_of_action? completes] at found
      rcases remaining_of_openData worker found with ⟨rest, shape⟩
      simp [shape] at nothing

/-- When the controller is about to merge the results, both scripts are at their end. -/
theorem inSession_at_end (sessions : Sessions deployment trace cluster)
    (last : cluster.controller.program = [.mergeResults]) (worker : Fin workers) :
    InSession deployment worker trace cluster 11 15 := by
  rcases sessions worker with ⟨controllerAt, workerAt, session⟩
  have nothing : remaining worker controllerAt = [] := by
    rw [← session.program, last]
    rfl
  rcases eq_length_of_remaining_eq_nil session nothing with rfl
  rcases worker_finished session.causal with rfl
  exact session

theorem program_eq_of_head?
    (steps : Run (Cluster.Step deployment) (.start deployment simulationIteration) trace cluster)
    (merges : cluster.controller.program.head? = some .mergeResults) :
    cluster.controller.program = [.mergeResults] := by
  rcases List.head?_eq_some_iff.mp merges with ⟨rest, first⟩
  have actions := SimulationController.actions_of_run (controller_run steps)
  rw [first] at actions
  rw [first, eq_nil_of_mergeResults actions.symm]

theorem readyToMerge
    (steps : Run (Cluster.Step deployment) (.start deployment simulationIteration) trace cluster)
    (merges : cluster.controller.program.head? = some .mergeResults) :
    ReadyToMerge deployment trace cluster := by
  have last := program_eq_of_head? steps merges
  have ended := inSession_at_end (sessions_of_run steps) last
  constructor
  · intro worker
    rw [handledCommands_eq (ended worker)]
    exact handled_workerScript
  · intro worker
    rw [(ended worker).node]
    rfl
  · intro worker
    rw [(ended worker).carries.1]
    decide
  · intro worker
    rw [(ended worker).carries.2]
    exact ⟨rfl, rfl⟩
  · have paired := resultsPaired_of_run steps
    rw [ResultsPaired, last, List.filterMap_cons_none rfl] at paired
    simpa using paired

/-- Every deployment has a run that brings the controller to the merge. -/
theorem exists_merging (deployment : Deployment workers) (simulationIteration : Int32) :
    ∃ trace cluster,
      Run (Cluster.Step deployment) (.start deployment simulationIteration) trace cluster ∧
        cluster.controller.program.head? = some .mergeResults := by
  have beginning : Run (Cluster.Step deployment) (.start deployment simulationIteration) []
    (.start deployment simulationIteration) := .nil
  rcases exists_completed beginning with ⟨trace, last, steps, done⟩
  rcases SimulationController.exists_event_of_action (controller_run steps) done
    SimulationController.mergeResults_mem_run with ⟨event, eventMem, completes⟩
  rcases List.mem_filterMap.mp eventMem with ⟨clusterEvent, mem, eventEq⟩
  rcases steps.step_of_mem mem with ⟨front, back, before, after, _, earlier, step⟩
  refine ⟨front, before, earlier, ?_⟩
  cases step with
  | worker _ => simp [ClusterEvent.controllerEvent?] at eventEq
  | controller acts _ =>
      rcases Option.some.inj eventEq with rfl
      have first := SimulationController.program_of_step acts
      rw [completes] at first
      rw [← first]
      rfl

/-- What the protocol promises after a run. -/
structure ProtocolHolds (deployment : Deployment workers) (trace : List (ClusterEvent workers))
    (cluster : Cluster workers) : Prop where
  repliesExpected : RepliesExpected trace
  noWrongReply : cluster.controller.log = []
  handled : ∀ worker, handledCommands worker trace <+: commands
  goAfterInit : GoAfterInit trace
  notStuck : cluster.controller.program ≠ [] → ¬Stuck (Cluster.Step deployment) cluster
  readyToMerge : cluster.controller.program.head? = some .mergeResults →
    ReadyToMerge deployment trace cluster

/-- The protocol holds after every run of the cluster, whatever the order of its steps. -/
theorem protocol_correct (deployment : Deployment workers) (simulationIteration : Int32)
    (steps : Run (Cluster.Step deployment) (.start deployment simulationIteration) trace cluster) :
    ProtocolHolds deployment trace cluster := by
  have sessions := sessions_of_run steps
  have paired := SimulationController.hostsPaired_of_run (controller_run steps)
  have expected := repliesExpected sessions
  constructor
  · exact expected
  · apply log_eq_nil (controller_run steps)
    intro worker command replyStr mem
    rcases List.mem_filterMap.mp mem with ⟨event, eventMem, eventEq⟩
    cases event with
    | controller event =>
        rcases Option.some.inj eventEq with rfl
        exact expected worker command replyStr eventMem
    | worker _ _ => simp [ClusterEvent.controllerEvent?] at eventEq
  · exact handledCommands_initial sessions
  · exact goAfterInit steps
  · exact not_stuck sessions paired
  · exact readyToMerge steps

/-- The second worker has one file more than the first. -/
def twoWorkers : Deployment 2 where
  commandHosts := ![['a'], ['b']]
  dataHosts := ![['c'], ['d']]
  simulationIteration := -1
  distinct := by decide
  hosts := fun worker => ⟨plainConfiguration, some ((.regular ⟨['/', 'x', '.', 'r'], ['1'], 3⟩) ::
    if worker = 0 then [] else [.regular ⟨['/', 'y', '.', 'r'], ['2', '3'], 4⟩]), .zero 1024⟩

/-- With two workers the controller merges one object of the first and two of the second. -/
theorem protocol_correct_twoWorkers :
    ∃ trace cluster, cluster.controller.program.head? = some .mergeResults ∧
      ProtocolHolds twoWorkers trace cluster ∧
      cluster.controller.allResults.map (·[objectsKey]?) = [some ['1'], some ['2']] := by
  rcases exists_merging twoWorkers 0 with ⟨trace, cluster, steps, merges⟩
  have holds := protocol_correct twoWorkers 0 steps
  refine ⟨trace, cluster, merges, holds, ?_⟩
  rw [(holds.readyToMerge merges).results]
  decide +kernel

end KeyValueClusterPerf
