import KeyValueClusterPerf.Cluster.Protocol
import KeyValueClusterPerf.Foundations.Parts

/-!
# The outcome of a run

The controller and the workers take their steps in any order, and yet a run that cannot go
on leaves nothing open. Its events are those of the sessions and of one merge, in some order,
and its last state is determined: every worker is at its end, nothing is underway, and the
results are those of the workers in the order of the configuration.
-/

namespace KeyValueClusterPerf

open Texts LabelledRuns Session

variable {workers : ℕ} {deployment : Deployment workers} {worker : Fin workers}
  {trace : List (ClusterEvent workers)} {cluster : Cluster workers}
  {controllerAt workerAt : ℕ} {simulationIteration : Int32}

deriving instance DecidableEq for ControllerEvent, ClusterEvent

namespace Deployment

variable (deployment : Deployment workers) (simulationIteration : Int32)

def allResults : List StringMap :=
  List.ofFn fun worker => (deployment.hosts worker).results

def merge : ClusterEvent workers :=
  .controller (.merged
    (SimulationController.csvFilePath deployment.toControllerConfiguration
      (.start deployment.toControllerConfiguration simulationIteration))
    (SimulationController.mergeResults deployment.allResults))

/-- Both sides of the session with a worker. -/
def sessionEvents (worker : Fin workers) : List (ClusterEvent workers) :=
  controllerScript.map (fun label => .controller (label.event deployment worker)) ++
    workerScript.map (fun label => .worker worker (label.event (deployment.hosts worker)))

def events : List (ClusterEvent workers) :=
  (List.finRange workers).flatMap deployment.sessionEvents ++ [deployment.merge simulationIteration]

end Deployment

/-- The cluster after the last step of a run; only the command sockets stay connected. -/
def Cluster.finished (deployment : Deployment workers) (simulationIteration : Int32) :
    Cluster workers where
  controller := {
    program := []
    dataHosts := []
    dataSocket := none
    allResults := deployment.allResults
    log := []
    simulationIteration := simulationIteration }
  nodes := fun worker => (deployment.hosts worker).node 15
  wires := fun address => ⟨decide (∃ worker, deployment.commandHosts worker = address), [], []⟩

section Controller

theorem count_mergeResults_run :
    (SimulationController.run : List (Action workers)).count .mergeResults = 1 := by
  have notBefore : .mergeResults ∉ (SimulationController.initialisation ++
      SimulationController.measurement ++ SimulationController.collection ++
      SimulationController.shutdown : List (Action workers)) := by
    intro mem
    exact worker?_ne_none mem rfl
  rw [SimulationController.run, List.count_append, List.count_eq_zero.mpr notBefore]
  rfl

/-- An event that concerns no worker is the merge of all results. -/
theorem eq_merge_of_mem
    (steps : Run (Cluster.Step deployment) (.start deployment simulationIteration) trace cluster)
    {event : ClusterEvent workers} (mem : event ∈ trace) (apart : event.worker? = none) :
    event = deployment.merge simulationIteration := by
  rcases steps.step_of_mem mem with ⟨front, back, before, after, _, earlier, step⟩
  cases step with
  | worker _ => simp [ClusterEvent.worker?] at apart
  | controller acts _ =>
      cases acts with
      | mergeResults first =>
          have last := program_eq_of_head? earlier (by rw [first]; rfl)
          have paired := resultsPaired_of_run earlier
          rw [ResultsPaired, last, List.filterMap_cons_none rfl, List.filterMap_nil, List.map_nil,
            List.append_nil] at paired
          have path := SimulationController.csvFilePath_of_run (controller_run earlier)
          rw [Deployment.merge, Deployment.allResults, path, paired]
      | _ => simp [ClusterEvent.worker?, ControllerEvent.worker?] at apart

/-- The controller merges the results once in a run that comes to its end. -/
theorem filter_none_of_run
    (steps : Run (Cluster.Step deployment) (.start deployment simulationIteration) trace cluster)
    (done : cluster.controller.program = []) :
    trace.filter (·.worker? = none) = [deployment.merge simulationIteration] := by
  have actions := SimulationController.actions_of_run (controller_run steps)
  rw [done, List.append_nil] at actions
  have once : trace.countP (·.worker? = none) = 1 := by
    rw [count_none, actions]
    exact count_mergeResults_run
  rw [List.countP_eq_length_filter] at once
  apply List.eq_replicate_iff.mpr ⟨once, ?_⟩
  intro event mem
  have parts := List.mem_filter.mp mem
  exact eq_merge_of_mem steps parts.1 (of_decide_eq_true parts.2)

end Controller

section Sessions

/-- At the end of the program both scripts are at their end. -/
theorem inSession_of_done (sessions : Sessions deployment trace cluster)
    (done : cluster.controller.program = []) (worker : Fin workers) :
    InSession deployment worker trace cluster 11 15 := by
  rcases sessions worker with ⟨controllerAt, workerAt, session⟩
  have nothing : remaining worker controllerAt = [] := by
    rw [← session.program, done]
    rfl
  rcases eq_length_of_remaining_eq_nil session nothing with rfl
  rcases worker_finished session.causal with rfl
  exact session

/-- The part of a trace that concerns a worker, with the two sides of the session apart. -/
theorem filter_worker_perm (worker : Fin workers) (trace : List (ClusterEvent workers)) :
    (trace.filter (·.worker? = some worker)).Perm
      ((trace.filterMap (ClusterEvent.ofController worker)).map .controller ++
        (trace.filterMap (ClusterEvent.ofWorker worker)).map (.worker worker)) := by
  induction trace with
  | nil => exact List.Perm.refl _
  | cons event trace ih =>
      cases event with
      | controller event =>
          rw [List.filterMap_cons_none (f := ClusterEvent.ofWorker worker) rfl]
          by_cases concerns : (ClusterEvent.controller event).worker? = some worker
          · rw [List.filterMap_cons_some (ClusterEvent.ofController_of_eq concerns),
              List.filter_cons_of_pos (by simpa using concerns)]
            exact ih.cons _
          · rw [List.filterMap_cons_none (ClusterEvent.ofController_of_ne concerns),
              List.filter_cons_of_neg (by simpa using concerns)]
            exact ih
      | worker other event =>
          rw [List.filterMap_cons_none (f := ClusterEvent.ofController worker) rfl]
          by_cases own : other = worker
          · subst own
            have visible : (ClusterEvent.worker other event).ofWorker other = some event :=
              if_pos rfl
            rw [List.filterMap_cons_some visible,
              List.filter_cons_of_pos (by simp [ClusterEvent.worker?])]
            exact (ih.cons _).trans List.perm_middle.symm
          · have hidden : (ClusterEvent.worker other event).ofWorker worker = none := if_neg own
            rw [List.filterMap_cons_none hidden,
              List.filter_cons_of_neg (by simpa [ClusterEvent.worker?] using own)]
            exact ih

theorem InSession.perm_sessionEvents (session : InSession deployment worker trace cluster 11 15) :
    (trace.filter (·.worker? = some worker)).Perm (deployment.sessionEvents worker) := by
  have split := filter_worker_perm worker trace
  rw [session.controllerTrace, session.workerTrace, List.map_map, List.map_map] at split
  exact split

theorem worker?_sessionEvents (worker : Fin workers) :
    ∀ event ∈ deployment.sessionEvents worker, event.worker? = some worker := by
  intro event mem
  rcases List.mem_append.mp mem with fromController | fromWorker
  · rcases List.mem_map.mp fromController with ⟨label, _, rfl⟩
    cases label <;> rfl
  · rcases List.mem_map.mp fromWorker with ⟨label, _, rfl⟩
    rfl

theorem mem_events (deployment : Deployment workers) (simulationIteration : Int32)
    (worker : Fin workers) {label : WorkerLabel} (inScript : label ∈ workerScript) :
    .worker worker (label.event (deployment.hosts worker)) ∈
      deployment.events simulationIteration := by
  apply List.mem_append_left
  apply List.mem_flatMap.mpr
  refine ⟨worker, List.mem_finRange worker, List.mem_append_right _ ?_⟩
  exact List.mem_map.mpr ⟨label, inScript, rfl⟩

end Sessions

/-- A run that comes to its end consists of both sides of all sessions and of one merge. -/
theorem perm_events
    (steps : Run (Cluster.Step deployment) (.start deployment simulationIteration) trace cluster)
    (done : cluster.controller.program = []) :
    trace.Perm (deployment.events simulationIteration) := by
  apply Parts.perm_of_filter ClusterEvent.worker?
  intro concerned
  cases concerned with
  | none =>
      have apart : ((List.finRange workers).flatMap deployment.sessionEvents).filter
          (·.worker? = none) = [] := by
        apply List.filter_eq_nil_iff.mpr
        intro event mem
        rcases List.mem_flatMap.mp mem with ⟨worker, _, eventMem⟩
        simp [worker?_sessionEvents worker event eventMem]
      rw [filter_none_of_run steps done, Deployment.events, List.filter_append, apart]
      exact List.Perm.refl _
  | some worker =>
      have own := Parts.filter_flatMap (@worker?_sessionEvents _ deployment)
        (List.nodup_finRange workers) (List.mem_finRange worker)
      rw [Deployment.events, List.filter_append, own]
      have session := inSession_of_done (sessions_of_run steps) done worker
      simpa [Deployment.merge, ClusterEvent.worker?, ControllerEvent.worker?] using
        session.perm_sessionEvents

section State

theorem wires_of_controller {event : ControllerEvent workers}
    {next : SimulationController workers} {after : Text → PairWire}
    (paired : cluster.controller.HostsPaired deployment.toControllerConfiguration)
    (acts : SimulationController.Step deployment.toControllerConfiguration cluster.controller
      event next)
    (transport : Transport deployment.toControllerConfiguration cluster.wires event after)
    {address : Text} (commandApart : ∀ worker, deployment.commandHosts worker ≠ address)
    (dataApart : ∀ worker, deployment.dataHosts worker ≠ address) :
    after address = cluster.wires address := by
  cases transport with
  | connected worker => exact Function.update_of_ne (commandApart worker).symm ..
  | sent worker _ => exact Function.update_of_ne (commandApart worker).symm ..
  | @received worker _ _ _ _ => exact Function.update_of_ne (commandApart worker).symm ..
  | opened worker host =>
      cases acts with
      | openData first closed front =>
          rcases paired.host_of_opened first closed front with rfl
          exact Function.update_of_ne (dataApart worker).symm ..
  | fetched worker _ =>
      cases acts with
      | receiveData _ _ first connected =>
          rcases paired.host_of_connected first connected with rfl
          exact Function.update_of_ne (dataApart worker).symm ..
  | merged _ _ => rfl

/-- Nothing happens at an address that no worker has. -/
theorem wires_of_run
    (steps : Run (Cluster.Step deployment) (.start deployment simulationIteration) trace cluster)
    {address : Text} (commandApart : ∀ worker, deployment.commandHosts worker ≠ address)
    (dataApart : ∀ worker, deployment.dataHosts worker ≠ address) :
    cluster.wires address = ⟨false, [], []⟩ := by
  apply steps.invariant fun _ cluster => cluster.wires address = ⟨false, [], []⟩
  · rfl
  · intro trace cluster next event earlier before step
    cases step with
    | controller acts transport =>
        have paired := SimulationController.hostsPaired_of_run (controller_run earlier)
        rw [← before]
        exact wires_of_controller paired acts transport commandApart dataApart
    | @worker worker event after acts =>
        rw [← before]
        exact (Function.update_of_ne (dataApart worker).symm ..).trans
          (Function.update_of_ne (commandApart worker).symm ..)

theorem log_of_run
    (steps : Run (Cluster.Step deployment) (.start deployment simulationIteration) trace cluster) :
    cluster.controller.log = [] := by
  apply log_eq_nil (controller_run steps)
  intro worker command replyStr mem
  rcases List.mem_filterMap.mp mem with ⟨event, eventMem, eventEq⟩
  cases event with
  | controller event =>
      rcases Option.some.inj eventEq with rfl
      exact repliesExpected (sessions_of_run steps) worker command replyStr eventMem
  | worker _ _ => simp [ClusterEvent.controllerEvent?] at eventEq

/-- At the end of its program the controller has all results and no address left. -/
theorem controller_of_done
    (steps : Run (Cluster.Step deployment) (.start deployment simulationIteration) trace cluster)
    (done : cluster.controller.program = []) :
    cluster.controller = (Cluster.finished deployment simulationIteration).controller := by
  have hosts := (SimulationController.hostsPaired_of_run (controller_run steps)).hosts
  have results := resultsPaired_of_run steps
  have log := log_of_run steps
  have iteration := SimulationController.simulationIteration_of_run (controller_run steps)
  rw [done, List.filterMap_nil, List.map_nil, List.append_eq_nil_iff,
    Option.toList_eq_nil_iff] at hosts
  rw [ResultsPaired, done, List.filterMap_nil, List.map_nil, List.append_nil] at results
  rcases hosts with ⟨socket, hosts⟩
  rcases cluster with ⟨controller, nodes, wires⟩
  rcases controller with ⟨program, dataHosts, dataSocket, allResults, log, iteration⟩
  simp only at done hosts socket results log iteration
  subst done hosts socket results log iteration
  rfl

theorem wires_of_done
    (steps : Run (Cluster.Step deployment) (.start deployment simulationIteration) trace cluster)
    (done : cluster.controller.program = []) :
    cluster.wires = (Cluster.finished deployment simulationIteration).wires := by
  funext address
  by_cases command : ∃ worker, deployment.commandHosts worker = address
  · rcases command with ⟨worker, rfl⟩
    rw [(inSession_of_done (sessions_of_run steps) done worker).carries.1]
    simp [Cluster.finished]
    decide
  · have commandApart := not_exists.mp command
    simp only [Cluster.finished, command, decide_false]
    by_cases data : ∃ worker, deployment.dataHosts worker = address
    · rcases data with ⟨worker, rfl⟩
      exact (inSession_of_done (sessions_of_run steps) done worker).carries.2
    · exact wires_of_run steps commandApart (not_exists.mp data)

end State

/-- The cluster goes on until the controller has performed its last action. -/
theorem done_of_maximal
    (steps : Run (Cluster.Step deployment) (.start deployment simulationIteration) trace cluster)
    (maximal : Stuck (Cluster.Step deployment) cluster) : cluster.controller.program = [] := by
  have paired := SimulationController.hostsPaired_of_run (controller_run steps)
  by_contra unfinished
  exact not_stuck (sessions_of_run steps) paired unfinished maximal

/-- A run that comes to its end leaves one state of the cluster. -/
theorem finished_of_done
    (steps : Run (Cluster.Step deployment) (.start deployment simulationIteration) trace cluster)
    (done : cluster.controller.program = []) :
    cluster = .finished deployment simulationIteration := by
  have controllerEq := controller_of_done steps done
  have wiresEq := wires_of_done steps done
  have nodesEq : cluster.nodes = (Cluster.finished deployment simulationIteration).nodes := by
    funext worker
    exact (inSession_of_done (sessions_of_run steps) done worker).node
  rcases cluster with ⟨controller, nodes, wires⟩
  simp only at controllerEq wiresEq nodesEq
  rw [controllerEq, wiresEq, nodesEq]

theorem exists_maximal_run (deployment : Deployment workers) (simulationIteration : Int32) :
    ∃ trace cluster,
      Run (Cluster.Step deployment) (.start deployment simulationIteration) trace cluster ∧
        Stuck (Cluster.Step deployment) cluster := by
  have beginning : Run (Cluster.Step deployment) (.start deployment simulationIteration) []
    (.start deployment simulationIteration) := .nil
  rcases beginning.exists_final length_le (fun _ unfinished => unfinished) with
    ⟨trace, cluster, steps, maximal⟩
  exact ⟨_, cluster, steps, maximal⟩

end KeyValueClusterPerf
