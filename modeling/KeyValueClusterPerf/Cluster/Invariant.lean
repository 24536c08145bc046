import KeyValueClusterPerf.Cluster.Session

/-!
# The invariant of the cluster

After every run each worker is in a session at some pair of positions that causality
admits: the actions that remain, the worker, the wires and both parts of the trace are
those of the positions. Every step of the cluster advances one of the two positions of one
session; merging the results advances none.
-/

namespace KeyValueClusterPerf

open Texts LabelledRuns Session

variable {workers : ℕ} {deployment : Deployment workers} {worker : Fin workers}
  {trace : List (ClusterEvent workers)} {cluster : Cluster workers}
  {controllerAt workerAt : ℕ}

/-- A worker is in a session at the given positions of the controller and of the worker. -/
structure InSession (deployment : Deployment workers) (worker : Fin workers)
    (trace : List (ClusterEvent workers)) (cluster : Cluster workers)
    (controllerAt workerAt : ℕ) : Prop where
  causal : Causal controllerAt workerAt
  program : cluster.controller.program.filter (·.worker? = some worker) =
    remaining worker controllerAt
  socket : cluster.controller.dataSocket = some (deployment.dataHosts worker) ↔
    (wires controllerAt workerAt).opened = true
  node : cluster.nodes worker = (deployment.hosts worker).node workerAt
  carries : CarriesWires deployment worker cluster.wires (wires controllerAt workerAt)
  controllerTrace : trace.filterMap (ClusterEvent.ofController worker) =
    (controllerScript.take controllerAt).map (ControllerLabel.event deployment worker)
  workerTrace : trace.filterMap (ClusterEvent.ofWorker worker) =
    (workerScript.take workerAt).map (WorkerLabel.event (deployment.hosts worker))

namespace InSession

theorem endpoint_eq (session : InSession deployment worker trace cluster controllerAt workerAt) :
    cluster.endpoint deployment worker = (deployment.hosts worker).endpoint
      ((deployment.hosts worker).node workerAt) (wires controllerAt workerAt) := by
  rcases session.carries with ⟨command, data⟩
  rw [Cluster.endpoint, session.node, command, data]
  rfl

/-- A worker takes the next step of its script, or none. -/
theorem worker_step {event : WorkerEvent} {after : Endpoint}
    (session : InSession deployment worker trace cluster controllerAt workerAt)
    (acts : (cluster.endpoint deployment worker).step (deployment.hosts worker) =
      some (event, after)) :
    ∃ label, workerScript[workerAt]? = some label ∧ Causal controllerAt (workerAt + 1) ∧
      event = label.event (deployment.hosts worker) ∧
      after = (deployment.hosts worker).endpoint ((deployment.hosts worker).node (workerAt + 1))
        (wires controllerAt (workerAt + 1)) := by
  rw [session.endpoint_eq] at acts
  cases found : workerScript[workerAt]? with
  | none =>
      have atEnd : workerAt = 15 :=
        le_antisymm session.causal.2.1 (List.getElem?_eq_none_iff.mp found)
      rw [atEnd, WorkerHost.step_closed] at acts
      simp at acts
  | some label =>
      have nodeStep := (deployment.hosts worker).nodeStep_script workerAt label found
      rcases worker_effect session.causal label found with ⟨causal, effect⟩ | ⟨_, blocked⟩
      · rw [WorkerHost.step_of_effect nodeStep effect, Option.some.injEq, Prod.mk.injEq] at acts
        exact ⟨label, rfl, causal, acts.1.symm, acts.2.symm⟩
      · rw [WorkerHost.step_of_blocked nodeStep blocked] at acts
        simp at acts

theorem remaining_eq (session : InSession deployment worker trace cluster controllerAt workerAt)
    {action : Action workers} {rest : List (Action workers)}
    (first : cluster.controller.program = action :: rest)
    (concerns : action.worker? = some worker) :
    remaining worker controllerAt = action :: rest.filter (·.worker? = some worker) := by
  rw [← session.program, first, List.filter_cons_of_pos (by simpa using concerns)]

/-- An action other than a transfer is completed by the next step of the script. -/
theorem label_of_action (session : InSession deployment worker trace cluster controllerAt workerAt)
    {action : Action workers} {rest : List (Action workers)}
    (first : cluster.controller.program = action :: rest)
    (concerns : action.worker? = some worker) (other : action ≠ .receiveDataFromWorker worker) :
    ∃ label, controllerScript[controllerAt]? = some label ∧
      label.action? worker = some action ∧
      rest.filter (·.worker? = some worker) = remaining worker (controllerAt + 1) := by
  rcases label_of_remaining (session.remaining_eq first concerns) with
    ⟨label, found, ⟨completes, restEq⟩ | ⟨_, transfer⟩⟩
  · exact ⟨label, found, completes, restEq.symm⟩
  · exact absurd transfer other

/-- A transfer starts with connecting the data socket, and the data comes next. -/
theorem label_of_transfer
    (session : InSession deployment worker trace cluster controllerAt workerAt)
    {rest : List (Action workers)}
    (first : cluster.controller.program = .receiveDataFromWorker worker :: rest) :
    cluster.controller.dataSocket ≠ some (deployment.dataHosts worker) ∧
        controllerScript[controllerAt]? = some .openData ∧
        remaining worker (controllerAt + 1) = cluster.controller.program.filter
          (·.worker? = some worker) ∨
      cluster.controller.dataSocket = some (deployment.dataHosts worker) ∧
        controllerScript[controllerAt]? = some .fetchData ∧
        remaining worker (controllerAt + 1) = rest.filter (·.worker? = some worker) := by
  rcases label_of_remaining (session.remaining_eq first rfl) with
    ⟨label, found, ⟨completes, restEq⟩ | ⟨rfl, _⟩⟩
  · right
    have sameLabel : label = .fetchData := ControllerLabel.eq_of_action? completes rfl
    subst sameLabel
    refine ⟨session.socket.mpr ?_, found, restEq⟩
    rcases controller_effect session.causal _ found with ⟨_, opened, _⟩ | ⟨_, opened, _⟩
    · exact opened
    · exact opened
  · left
    refine ⟨?_, found, ?_⟩
    · rw [Ne, session.socket]
      rcases controller_effect session.causal _ found with ⟨_, closed, _⟩ | ⟨_, blocked⟩
      · simp [closed]
      · exact absurd blocked not_false
    · rw [session.program, remaining_of_label worker found]
      rfl

/-- A step of the controller that concerns the worker is the next one of its script. -/
theorem exists_label {event : ControllerEvent workers} {next : SimulationController workers}
    (session : InSession deployment worker trace cluster controllerAt workerAt)
    (paired : cluster.controller.HostsPaired deployment.toControllerConfiguration)
    (acts : SimulationController.Step deployment.toControllerConfiguration cluster.controller
      event next)
    (concerns : event.worker? = some worker) :
    ∃ label, controllerScript[controllerAt]? = some label ∧
      label.Matches deployment worker event ∧
      next.program.filter (·.worker? = some worker) = remaining worker (controllerAt + 1) := by
  cases acts with
  | connect first =>
      rcases Option.some.inj concerns with rfl
      rcases session.label_of_action first rfl (by simp) with ⟨label, found, completes, restEq⟩
      have sameLabel : label = .connect := ControllerLabel.eq_of_action? completes rfl
      subst sameLabel
      exact ⟨_, found, .connect, restEq⟩
  | @send _ command _ first =>
      rcases Option.some.inj concerns with rfl
      rcases session.label_of_action first rfl (by simp) with ⟨label, found, completes, restEq⟩
      have sameLabel : label = .send command := ControllerLabel.eq_of_action? completes rfl
      subst sameLabel
      exact ⟨_, found, .send command, restEq⟩
  | @getReply _ command _ replyStr first =>
      rcases Option.some.inj concerns with rfl
      rcases session.label_of_action first rfl (by simp) with ⟨label, found, completes, restEq⟩
      have sameLabel : label = .getReply command := ControllerLabel.eq_of_action? completes rfl
      subst sameLabel
      exact ⟨_, found, .getReply command replyStr, restEq⟩
  | @openData _ host _ _ first closed front =>
      rcases Option.some.inj concerns with rfl
      rcases paired.host_of_opened first closed front with rfl
      rcases session.label_of_transfer first with ⟨_, found, programEq⟩ | ⟨connected, _, _⟩
      · exact ⟨_, found, .openData, programEq.symm⟩
      · simp [closed] at connected
  | @receiveData _ host _ message _ _ first connected =>
      rcases Option.some.inj concerns with rfl
      rcases paired.host_of_connected first connected with rfl
      rcases session.label_of_transfer first with ⟨closed, _, _⟩ | ⟨_, found, programEq⟩
      · exact absurd connected closed
      · exact ⟨_, found, .fetchData message, programEq.symm⟩
  | mergeResults _ => simp [ControllerEvent.worker?] at concerns

/-- A step that touches neither the session nor its wires leaves the session as it is. -/
theorem frame (session : InSession deployment worker trace cluster controllerAt workerAt)
    {event : ClusterEvent workers} {next : Cluster workers}
    (programEq : next.controller.program.filter (·.worker? = some worker) =
      cluster.controller.program.filter (·.worker? = some worker))
    (socketIff : next.controller.dataSocket = some (deployment.dataHosts worker) ↔
      cluster.controller.dataSocket = some (deployment.dataHosts worker))
    (nodeEq : next.nodes worker = cluster.nodes worker)
    (carries : CarriesWires deployment worker next.wires (wires controllerAt workerAt))
    (noController : event.ofController worker = none) (noWorker : event.ofWorker worker = none) :
    InSession deployment worker (trace ++ [event]) next controllerAt workerAt where
  causal := session.causal
  program := programEq.trans session.program
  socket := socketIff.trans session.socket
  node := nodeEq.trans session.node
  carries := carries
  controllerTrace := by
    rw [List.filterMap_append, session.controllerTrace, List.filterMap_cons_none noController]
    simp
  workerTrace := by
    rw [List.filterMap_append, session.workerTrace, List.filterMap_cons_none noWorker]
    simp

end InSession

theorem carriesWires_worker {other : Fin workers} {after : Endpoint} {session : SessionWires}
    {wires : Text → PairWire} (distinct : other ≠ worker)
    (carries : CarriesWires deployment other wires session) :
    CarriesWires deployment other (Function.update (Function.update wires
      (deployment.commandHosts worker) after.command) (deployment.dataHosts worker) after.data)
        session := by
  have commandApart := deployment.commandHosts_ne distinct
  have dataApart := deployment.dataHosts_ne distinct
  have firstApart := deployment.commandHosts_ne_dataHosts other worker
  have secondApart := deployment.commandHosts_ne_dataHosts worker other
  rcases carries with ⟨command, data⟩
  simp [CarriesWires, command, data, commandApart, dataApart, firstApart, secondApart.symm]

def Sessions (deployment : Deployment workers) (trace : List (ClusterEvent workers))
    (cluster : Cluster workers) : Prop :=
  ∀ worker, ∃ controllerAt workerAt,
    InSession deployment worker trace cluster controllerAt workerAt

/-- A step of a worker advances its own session. -/
theorem sessions_worker (sessions : Sessions deployment trace cluster) {event : WorkerEvent}
    {after : Endpoint}
    (acts : (cluster.endpoint deployment worker).step (deployment.hosts worker) =
      some (event, after)) :
    Sessions deployment (trace ++ [.worker worker event]) {
      controller := cluster.controller
      nodes := Function.update cluster.nodes worker after.node
      wires := Function.update (Function.update cluster.wires (deployment.commandHosts worker)
        after.command) (deployment.dataHosts worker) after.data } := by
  intro other
  rcases eq_or_ne other worker with rfl | distinct
  · rcases sessions other with ⟨controllerAt, workerAt, session⟩
    rcases session.worker_step acts with ⟨label, found, causal, rfl, rfl⟩
    have apart := deployment.commandHosts_ne_dataHosts other other
    refine ⟨controllerAt, workerAt + 1, ?_⟩
    constructor
    · exact causal
    · exact session.program
    · exact session.socket
    · simp [WorkerHost.endpoint]
    · simp [CarriesWires, WorkerHost.endpoint, apart]
    · rw [List.filterMap_append, session.controllerTrace]
      simp [ClusterEvent.ofController, ClusterEvent.controllerEvent?]
    · rw [List.filterMap_append, session.workerTrace, List.take_add_one, found, List.map_append]
      simp [ClusterEvent.ofWorker]
  · rcases sessions other with ⟨controllerAt, workerAt, session⟩
    refine ⟨controllerAt, workerAt, session.frame rfl Iff.rfl ?_ ?_ rfl ?_⟩
    · exact Function.update_of_ne distinct ..
    · exact carriesWires_worker distinct session.carries
    · simp [ClusterEvent.ofWorker, distinct.symm]

theorem ControllerEvent.worker?_of_action? {event : ControllerEvent workers}
    {action : Action workers} (completes : event.action? = some action) :
    action.worker? = event.worker? := by
  cases event <;> simp [ControllerEvent.action?] at completes <;> subst completes <;> rfl

theorem filter_program_of_step {event : ControllerEvent workers}
    {controller next : SimulationController workers}
    (acts : SimulationController.Step deployment.toControllerConfiguration controller event next)
    (apart : event.worker? ≠ some worker) :
    next.program.filter (·.worker? = some worker) =
      controller.program.filter (·.worker? = some worker) := by
  rw [← SimulationController.program_of_step acts, List.filter_append]
  cases completes : event.action? with
  | none => rfl
  | some action =>
      have elsewhere : action.worker? ≠ some worker := by
        rwa [ControllerEvent.worker?_of_action? completes]
      simp [elsewhere]

theorem socket_of_step {label : ControllerLabel} {event : ControllerEvent workers}
    {controller next : SimulationController workers} {before after : SessionWires}
    (socket : controller.dataSocket = some (deployment.dataHosts worker) ↔ before.opened = true)
    (effect : label.Effect before after) (isMatch : label.Matches deployment worker event)
    (acts : SimulationController.Step deployment.toControllerConfiguration controller event next) :
    next.dataSocket = some (deployment.dataHosts worker) ↔ after.opened = true := by
  have socketEq := SimulationController.dataSocket_of_step acts
  cases isMatch with
  | connect =>
      have sameAfter : after = _ := effect
      subst sameAfter
      rwa [socketEq]
  | send _ =>
      have sameAfter : after = _ := effect
      subst sameAfter
      rwa [socketEq]
  | getReply _ _ =>
      have sameBefore : before = _ := effect
      subst sameBefore
      rwa [socketEq]
  | openData =>
      rcases effect with ⟨_, rfl⟩
      simp [socketEq]
  | fetchData _ =>
      rcases effect with ⟨_, _, rfl⟩
      simp [socketEq]

/-- In a session the controller receives what it expects. -/
theorem InSession.event_eq {event : ControllerEvent workers}
    {next : SimulationController workers} {after : Text → PairWire}
    (session : InSession deployment worker trace cluster controllerAt workerAt)
    (paired : cluster.controller.HostsPaired deployment.toControllerConfiguration)
    (acts : SimulationController.Step deployment.toControllerConfiguration cluster.controller
      event next)
    (transport : Transport deployment.toControllerConfiguration cluster.wires event after)
    (concerns : event.worker? = some worker) :
    ∃ label, event = ControllerLabel.event deployment worker label := by
  rcases session.exists_label paired acts concerns with ⟨label, found, isMatch, _⟩
  rcases controller_effect session.causal label found with ⟨_, effect⟩ | ⟨_, blocked⟩
  · exact ⟨label, (carriesWires_of_effect session.carries effect isMatch transport).1⟩
  · exact absurd transport (not_transport_of_blocked session.carries blocked isMatch)

theorem inSession_controller {event : ControllerEvent workers}
    {next : SimulationController workers} {after : Text → PairWire}
    (session : InSession deployment worker trace cluster controllerAt workerAt)
    (paired : cluster.controller.HostsPaired deployment.toControllerConfiguration)
    (acts : SimulationController.Step deployment.toControllerConfiguration cluster.controller
      event next)
    (transport : Transport deployment.toControllerConfiguration cluster.wires event after)
    (concerns : event.worker? = some worker) :
    InSession deployment worker (trace ++ [.controller event]) ⟨next, cluster.nodes, after⟩
      (controllerAt + 1) workerAt := by
  rcases session.exists_label paired acts concerns with ⟨label, found, isMatch, programEq⟩
  rcases controller_effect session.causal label found with ⟨causal, effect⟩ | ⟨_, blocked⟩
  · rcases carriesWires_of_effect session.carries effect isMatch transport with ⟨eventEq, carries⟩
    constructor
    · exact causal
    · exact programEq
    · exact socket_of_step session.socket effect isMatch acts
    · exact session.node
    · exact carries
    · rw [List.filterMap_append, session.controllerTrace, List.take_add_one, found,
        List.map_append, List.filterMap_cons_some (ClusterEvent.ofController_of_eq concerns)]
      simp [← eventEq]
    · rw [List.filterMap_append, session.workerTrace]
      simp [ClusterEvent.ofWorker]
  · exact absurd transport (not_transport_of_blocked session.carries blocked isMatch)

/-- Connecting or closing the socket of one transfer does not concern another session. -/
theorem socket_of_ne {other : Fin workers} {label : ControllerLabel}
    {event : ControllerEvent workers} {controller next : SimulationController workers}
    (distinct : other ≠ worker) (isMatch : label.Matches deployment worker event)
    (acts : SimulationController.Step deployment.toControllerConfiguration controller event next) :
    next.dataSocket = some (deployment.dataHosts other) ↔
      controller.dataSocket = some (deployment.dataHosts other) := by
  have socketEq := SimulationController.dataSocket_of_step acts
  have apart := (deployment.dataHosts_ne distinct).symm
  cases isMatch with
  | connect => rw [socketEq]
  | send _ => rw [socketEq]
  | getReply _ _ => rw [socketEq]
  | openData =>
      cases acts with
      | openData _ closed _ => simp [closed, apart]
  | fetchData _ =>
      cases acts with
      | receiveData _ _ _ connected => simp [connected, apart]

/-- A step of the controller advances the session that it concerns, if it concerns one. -/
theorem sessions_controller (sessions : Sessions deployment trace cluster)
    (paired : cluster.controller.HostsPaired deployment.toControllerConfiguration)
    {event : ControllerEvent workers} {next : SimulationController workers}
    {after : Text → PairWire}
    (acts : SimulationController.Step deployment.toControllerConfiguration cluster.controller
      event next)
    (transport : Transport deployment.toControllerConfiguration cluster.wires event after) :
    Sessions deployment (trace ++ [.controller event]) ⟨next, cluster.nodes, after⟩ := by
  intro other
  rcases sessions other with ⟨controllerAt, workerAt, session⟩
  by_cases concerns : event.worker? = some other
  · exact ⟨_, _, inSession_controller session paired acts transport concerns⟩
  · refine ⟨controllerAt, workerAt, session.frame (filter_program_of_step acts concerns) ?_ rfl ?_
      (ClusterEvent.ofController_of_ne concerns) rfl⟩
    · cases target : event.worker? with
      | none =>
          cases acts with
          | mergeResults _ => rfl
          | _ => simp [ControllerEvent.worker?] at target
      | some worker =>
          rcases sessions worker with ⟨_, _, targetSession⟩
          rcases targetSession.exists_label paired acts target with ⟨_, _, isMatch, _⟩
          have distinct : other ≠ worker := by
            rintro rfl
            exact concerns target
          exact socket_of_ne distinct isMatch acts
    · cases target : event.worker? with
      | none =>
          cases transport with
          | merged _ _ => exact session.carries
          | _ => simp [ControllerEvent.worker?] at target
      | some worker =>
          rcases sessions worker with ⟨_, _, targetSession⟩
          rcases targetSession.exists_label paired acts target with ⟨_, _, isMatch, _⟩
          have distinct : other ≠ worker := by
            rintro rfl
            exact concerns target
          exact carriesWires_of_ne distinct session.carries isMatch transport

theorem filter_flatMap_finRange {actions : Fin workers → List (Action workers)}
    (own : ∀ other, ∀ action ∈ actions other, action.worker? = some other)
    (worker : Fin workers) :
    ((List.finRange workers).flatMap actions).filter (·.worker? = some worker) =
      actions worker := by
  have whole : (actions worker).filter (·.worker? = some worker) = actions worker := by
    apply List.filter_eq_self.mpr
    intro action mem
    simp [own worker action mem]
  have nothing : ∀ others : List (Fin workers), worker ∉ others →
      (others.flatMap actions).filter (·.worker? = some worker) = [] := by
    intro others absent
    apply List.filter_eq_nil_iff.mpr
    intro action mem
    rcases List.mem_flatMap.mp mem with ⟨other, otherMem, actionMem⟩
    have distinct : other ≠ worker := by
      rintro rfl
      exact absent otherMem
    simp [own other action actionMem, distinct]
  rcases List.append_of_mem (List.mem_finRange worker) with ⟨front, back, split⟩
  have distinct := List.nodup_finRange workers
  rw [split] at distinct ⊢
  rcases List.nodup_append.mp distinct with ⟨_, backDistinct, apart⟩
  have notFront : worker ∉ front := by
    intro mem
    exact apart worker mem worker List.mem_cons_self rfl
  rw [List.flatMap_append, List.filter_append, nothing front notFront, List.flatMap_cons,
    List.filter_append, whole, nothing back (List.nodup_cons.mp backDistinct).1]
  simp

theorem filter_map_finRange {action : Fin workers → Action workers}
    (own : ∀ other, (action other).worker? = some other) (worker : Fin workers) :
    ((List.finRange workers).map action).filter (·.worker? = some worker) = [action worker] := by
  have singles := @filter_flatMap_finRange workers (fun other => [action other])
    (by simpa using own) worker
  rwa [← List.map_eq_flatMap] at singles

/-- The actions of the program that concern a worker are those of its session. -/
theorem filter_run (worker : Fin workers) :
    (SimulationController.run : List (Action workers)).filter (·.worker? = some worker) =
      remaining worker 0 := by
  have sends : ∀ command, (SimulationController.sendAllNodes command : List (Action workers)).filter
      (·.worker? = some worker) = [.send worker command] := by
    intro command
    apply filter_map_finRange
    intro other
    rfl
  have gets : ∀ command, (SimulationController.getAllNodes command : List (Action workers)).filter
      (·.worker? = some worker) = [.getReply worker command] := by
    intro command
    apply filter_map_finRange
    intro other
    rfl
  have connects : ((List.finRange workers).map Action.connect).filter (·.worker? = some worker) =
      [.connect worker] := by
    apply filter_map_finRange
    intro other
    rfl
  have requests : ((List.finRange workers).flatMap SimulationController.requestResults).filter
      (·.worker? = some worker) = SimulationController.requestResults worker := by
    apply filter_flatMap_finRange
    intro other action mem
    simp only [SimulationController.requestResults, List.mem_cons, List.not_mem_nil,
      or_false] at mem
    rcases mem with rfl | rfl <;> rfl
  simp only [SimulationController.run, SimulationController.initialisation,
    SimulationController.measurement, SimulationController.collection,
    SimulationController.shutdown, List.filter_append, sends, gets, connects, requests]
  rfl

theorem sessions_start (deployment : Deployment workers) (simulationIteration : Int32) :
    Sessions deployment [] (.start deployment simulationIteration) := by
  intro worker
  refine ⟨0, 0, causal_start, filter_run worker, ?_, rfl, ⟨rfl, rfl⟩, rfl, rfl⟩
  have closed : (wires 0 0).opened = false := rfl
  simp [Cluster.start, SimulationController.start, closed]

/-- The part of a run of the cluster that the controller takes is a run of the controller. -/
theorem controller_run {simulationIteration : Int32}
    (steps : Run (Cluster.Step deployment) (.start deployment simulationIteration) trace cluster) :
    Run (SimulationController.Step deployment.toControllerConfiguration)
      (.start deployment.toControllerConfiguration simulationIteration)
      (trace.filterMap ClusterEvent.controllerEvent?) cluster.controller := by
  apply steps.project Cluster.controller ClusterEvent.controllerEvent?
  intro cluster next event step
  cases step with
  | controller acts _ => exact acts
  | worker _ => rfl

/-- After every run of the cluster each worker is in a session. -/
theorem sessions_of_run {simulationIteration : Int32}
    (steps : Run (Cluster.Step deployment) (.start deployment simulationIteration) trace cluster) :
    Sessions deployment trace cluster := by
  apply steps.invariant (Sessions deployment) (sessions_start deployment simulationIteration)
  intro trace cluster next event earlier sessions step
  cases step with
  | controller acts transport =>
      have paired := SimulationController.hostsPaired_of_run (controller_run earlier)
      exact sessions_controller sessions paired acts transport
  | worker acts => exact sessions_worker sessions acts

end KeyValueClusterPerf
