import KeyValueClusterPerf.Cluster.Invariant

/-!
# The cluster makes progress

While the controller has an action left, some party can take a step. An action concerns one
worker, and in the session with this worker one of the two positions can be advanced: if it
is the one of the controller, the controller performs the action, and if it is the one of
the worker, the worker takes the next step of its script.

Both scripts are finite, so runs are bounded in length and every run can be completed.
-/

namespace KeyValueClusterPerf

open Texts LabelledRuns Session

variable {workers : ℕ} {deployment : Deployment workers} {worker : Fin workers}
  {trace : List (ClusterEvent workers)} {cluster : Cluster workers}
  {controllerAt workerAt : ℕ} {simulationIteration : Int32}

namespace InSession

theorem exists_step_of_worker
    (session : InSession deployment worker trace cluster controllerAt workerAt)
    (causal : Causal controllerAt (workerAt + 1)) :
    ∃ event next, Cluster.Step deployment cluster event next := by
  have inside : workerAt < workerScript.length := causal.2.1
  have found := List.getElem?_eq_getElem inside
  have nodeStep := (deployment.hosts worker).nodeStep_script workerAt _ found
  rcases worker_effect session.causal _ found with ⟨_, effect⟩ | ⟨waits, _⟩
  · have acts := WorkerHost.step_of_effect nodeStep effect
    rw [← session.endpoint_eq] at acts
    exact ⟨_, _, .worker acts⟩
  · exact absurd causal waits

/-- The controller performs the first action if the next step of the session has its effect. -/
theorem exists_acts
    (session : InSession deployment worker trace cluster controllerAt workerAt)
    (paired : cluster.controller.HostsPaired deployment.toControllerConfiguration)
    {action : Action workers} {rest : List (Action workers)}
    (first : cluster.controller.program = action :: rest)
    (concerns : action.worker? = some worker) {label : ControllerLabel}
    (found : controllerScript[controllerAt]? = some label) {after : SessionWires}
    (effect : label.Effect (wires controllerAt workerAt) after) :
    ∃ next, SimulationController.Step deployment.toControllerConfiguration cluster.controller
      (label.event deployment worker) next := by
  rcases label_of_remaining (session.remaining_eq first concerns) with ⟨same, sameFound, shape⟩
  have sameSame : same = label := Option.some.inj (sameFound.symm.trans found)
  subst sameSame
  rcases shape with ⟨completes, _⟩ | ⟨rfl, rfl⟩
  · cases same with
    | connect =>
        rcases Option.some.inj completes with rfl
        exact ⟨_, .connect first⟩
    | send command =>
        rcases Option.some.inj completes with rfl
        exact ⟨_, .send first⟩
    | getReply command =>
        rcases Option.some.inj completes with rfl
        exact ⟨_, .getReply command first⟩
    | openData => simp [ControllerLabel.action?] at completes
    | fetchData =>
        rcases Option.some.inj completes with rfl
        have connected := session.socket.mpr effect.1
        exact ⟨_, .receiveData (fun _ => nul) (fun _ => nul) first connected⟩
  · have closed : cluster.controller.dataSocket = none := by
      cases connected : cluster.controller.dataSocket with
      | none => rfl
      | some host =>
          rcases paired.host_of_connected first connected with rfl
          have opened := session.socket.mp connected
          rw [effect.1] at opened
          exact absurd opened (by decide)
    rcases paired.front_of_closed first closed with ⟨others, front⟩
    exact ⟨_, .openData first closed front⟩

/-- While the first action concerns the worker, one of the two parties takes a step. -/
theorem exists_step
    (session : InSession deployment worker trace cluster controllerAt workerAt)
    (paired : cluster.controller.HostsPaired deployment.toControllerConfiguration)
    {action : Action workers} {rest : List (Action workers)}
    (first : cluster.controller.program = action :: rest)
    (concerns : action.worker? = some worker) :
    ∃ event next, Cluster.Step deployment cluster event next := by
  rcases label_of_remaining (session.remaining_eq first concerns) with ⟨label, found, _⟩
  have unfinished : controllerAt < 11 := (List.getElem?_eq_some_iff.mp found).1
  rcases causal_progress session.causal unfinished with advances | advances
  · rcases controller_effect session.causal label found with ⟨_, effect⟩ | ⟨waits, _⟩
    · rcases session.exists_acts paired first concerns found effect with ⟨next, acts⟩
      rcases exists_transport_of_effect session.carries effect with ⟨after, transport⟩
      exact ⟨_, _, .controller acts transport⟩
    · exact absurd advances waits
  · exact session.exists_step_of_worker advances

end InSession

/-- The cluster is not stuck while the controller has an action left. -/
theorem not_stuck (sessions : Sessions deployment trace cluster)
    (paired : cluster.controller.HostsPaired deployment.toControllerConfiguration)
    (unfinished : cluster.controller.program ≠ []) : ¬Stuck (Cluster.Step deployment) cluster := by
  apply not_not_intro
  rcases List.exists_cons_of_ne_nil unfinished with ⟨action, rest, first⟩
  cases concerns : action.worker? with
  | none =>
      have sameAction : action = .mergeResults := by
        cases action <;> simp [Action.worker?] at concerns ⊢
      subst sameAction
      exact ⟨_, _, .controller (.mergeResults first) (.merged _ _)⟩
  | some worker =>
      rcases sessions worker with ⟨controllerAt, workerAt, session⟩
      exact session.exists_step paired first concerns

/-- Every action before the merge concerns a worker. -/
theorem worker?_ne_none {action : Action workers}
    (mem : action ∈ SimulationController.initialisation ++ SimulationController.measurement ++
      SimulationController.collection ++ SimulationController.shutdown) :
    action.worker? ≠ none := by
  simp only [SimulationController.initialisation, SimulationController.measurement,
    SimulationController.collection, SimulationController.shutdown,
    SimulationController.sendAllNodes, SimulationController.getAllNodes,
    SimulationController.requestResults, List.mem_append, List.mem_map, List.mem_flatMap,
    List.mem_cons, List.not_mem_nil, or_false, List.mem_finRange, true_and] at mem
  cases action with
  | mergeResults => simp at mem
  | _ => simp [Action.worker?]

/-- The merge is the last action of the program. -/
theorem eq_nil_of_mergeResults {front rest : List (Action workers)}
    (split : SimulationController.run = front ++ .mergeResults :: rest) : rest = [] := by
  rcases List.eq_nil_or_concat rest with rfl | ⟨shorter, last, rfl⟩
  · rfl
  · rw [List.concat_eq_append, ← List.cons_append, ← List.append_assoc] at split
    have parts := List.append_inj' split rfl
    have mem : .mergeResults ∈ front ++ Action.mergeResults :: shorter := by simp
    rw [← parts.1] at mem
    exact absurd rfl (worker?_ne_none mem)

def ClusterEvent.worker? : ClusterEvent workers → Option (Fin workers)
  | .controller event => event.worker?
  | .worker worker _ => some worker

theorem count_worker (worker : Fin workers) (trace : List (ClusterEvent workers)) :
    trace.countP (·.worker? = some worker) =
      (trace.filterMap (ClusterEvent.ofController worker)).length +
        (trace.filterMap (ClusterEvent.ofWorker worker)).length := by
  induction trace with
  | nil => rfl
  | cons event trace ih =>
      rw [List.countP_cons, ih]
      cases event with
      | controller event =>
          rw [List.filterMap_cons_none (f := ClusterEvent.ofWorker worker) rfl]
          by_cases concerns : event.worker? = some worker
          · rw [List.filterMap_cons_some (ClusterEvent.ofController_of_eq concerns)]
            simp [ClusterEvent.worker?, concerns]
            omega
          · rw [List.filterMap_cons_none (ClusterEvent.ofController_of_ne concerns)]
            simp [ClusterEvent.worker?, concerns]
      | worker other event =>
          rw [List.filterMap_cons_none (f := ClusterEvent.ofController worker) rfl]
          by_cases own : other = worker
          · simp [ClusterEvent.worker?, ClusterEvent.ofWorker, own]
            omega
          · simp [ClusterEvent.worker?, ClusterEvent.ofWorker, own]

theorem InSession.count_le
    (session : InSession deployment worker trace cluster controllerAt workerAt) :
    trace.countP (·.worker? = some worker) ≤ 26 := by
  rw [count_worker, session.controllerTrace, session.workerTrace, List.length_map,
    List.length_map]
  have controllerLe := List.length_take_le' controllerAt controllerScript
  have workerLe := List.length_take_le' workerAt workerScript
  exact Nat.add_le_add controllerLe workerLe

theorem count_none (trace : List (ClusterEvent workers)) :
    trace.countP (·.worker? = none) =
      ((trace.filterMap ClusterEvent.controllerEvent?).filterMap ControllerEvent.action?).count
        .mergeResults := by
  induction trace with
  | nil => rfl
  | cons event trace ih =>
      rw [List.countP_cons, ih]
      cases event with
      | controller event =>
          rw [List.filterMap_cons_some (f := ClusterEvent.controllerEvent?) rfl]
          cases event <;> simp [ClusterEvent.worker?, ControllerEvent.worker?,
            List.filterMap_cons, ControllerEvent.action?]
      | worker _ _ =>
          rw [List.filterMap_cons_none (f := ClusterEvent.controllerEvent?) rfl]
          simp [ClusterEvent.worker?]

/-- The controller merges the results at most once. -/
theorem count_none_le
    (steps : Run (Cluster.Step deployment) (.start deployment simulationIteration) trace cluster) :
    trace.countP (·.worker? = none) ≤ 1 := by
  have actions := SimulationController.actions_of_run (controller_run steps)
  have notBefore : .mergeResults ∉ (SimulationController.initialisation ++
      SimulationController.measurement ++ SimulationController.collection ++
      SimulationController.shutdown : List (Action workers)) := by
    intro mem
    exact worker?_ne_none mem rfl
  calc trace.countP (·.worker? = none)
      = ((trace.filterMap ClusterEvent.controllerEvent?).filterMap
          ControllerEvent.action?).count .mergeResults := count_none trace
    _ ≤ (SimulationController.run : List (Action workers)).count .mergeResults := by
        have whole : SimulationController.run = _ := actions.symm
        rw [whole, List.count_append]
        exact Nat.le_add_right ..
    _ = 1 := by
        rw [SimulationController.run, List.count_append, List.count_eq_zero.mpr notBefore]
        rfl

theorem sum_countP {Item Key : Type} [Fintype Key] [DecidableEq Key] (key : Item → Key)
    (items : List Item) : ∑ wanted, items.countP (key · = wanted) = items.length := by
  induction items with
  | nil => simp
  | cons item items ih => simp [List.countP_cons, Finset.sum_add_distrib, ih]

theorem length_le
    (steps : Run (Cluster.Step deployment) (.start deployment simulationIteration) trace cluster) :
    trace.length ≤ 1 + workers * 26 := by
  have sessions := sessions_of_run steps
  calc trace.length = ∑ concerned, trace.countP (·.worker? = concerned) :=
        (sum_countP ClusterEvent.worker? trace).symm
    _ = trace.countP (·.worker? = none) +
          ∑ worker, trace.countP (·.worker? = some worker) :=
        Fintype.sum_option _
    _ ≤ 1 + ∑ _worker : Fin workers, 26 := by
        apply Nat.add_le_add (count_none_le steps)
        apply Finset.sum_le_sum
        intro worker _
        rcases sessions worker with ⟨controllerAt, workerAt, session⟩
        exact session.count_le
    _ = 1 + workers * 26 := by simp

/-- Every run can be completed. -/
theorem exists_completed
    (steps : Run (Cluster.Step deployment) (.start deployment simulationIteration) trace cluster) :
    ∃ later last, Run (Cluster.Step deployment) (.start deployment simulationIteration)
      (trace ++ later) last ∧ last.controller.program = [] := by
  apply steps.exists_final length_le
  intro trace cluster steps unfinished
  have paired := SimulationController.hostsPaired_of_run (controller_run steps)
  exact not_stuck (sessions_of_run steps) paired unfinished

end KeyValueClusterPerf
