import KeyValueClusterPerf.Cluster.Outcome
import KeyValueClusterPerf.SimulationController.Addresses

/-!
# The workers go through the phases together

The controller collects the replies of all workers before it starts the next phase, and it
fetches the results of one worker at a time. So no worker is ever two commands ahead of
another, and no two workers have a data socket at the same time.
-/

namespace KeyValueClusterPerf

open Texts LabelledRuns Session

variable {workers : ℕ} {deployment : Deployment workers} {worker other : Fin workers}
  {trace : List (ClusterEvent workers)} {cluster : Cluster workers}
  {controllerAt workerAt : ℕ} {simulationIteration : Int32}

/-- The number of commands that a worker has handled at a position of its script. -/
def handledCount (worker : ℕ) : ℕ :=
  ((workerScript.take worker).filterMap WorkerLabel.handled?).length

theorem handledCount_le (worker : ℕ) : handledCount worker ≤ 4 := by
  have initial := (List.take_prefix worker workerScript).filterMap WorkerLabel.handled?
  rw [handled_workerScript] at initial
  exact initial.length_le

theorem length_handledCommands
    (session : InSession deployment worker trace cluster controllerAt workerAt) :
    (handledCommands worker trace).length = handledCount workerAt := by
  rw [handledCommands_eq session]
  rfl

/-- A phase, by the replies that end it and the command that starts the next one. -/
def phases : List (Text × Text) :=
  [(INITDONE, GO), (RESULTSREADY, GETRESULTS), (DONERESULTS, EXIT)]

theorem expects_of_phase {phase : ℕ} {reply command : Text}
    (found : phases[phase]? = some (reply, command)) (worker : Fin workers) :
    reply ∈ (ControllerEvent.sent worker command).expects := by
  have mem := List.mem_of_getElem? found
  simp only [phases, List.mem_cons, Prod.mk.injEq, List.not_mem_nil, or_false] at mem
  rcases mem with ⟨rfl, rfl⟩ | ⟨rfl, rfl⟩ | ⟨rfl, rfl⟩ <;> rfl

set_option synthInstance.maxSize 512 in
/-- A worker handles a command of a later phase only after the controller has sent it. -/
theorem send_mem_of_handledCount (causal : Causal controllerAt workerAt) {phase : ℕ}
    {reply command : Text} (found : phases[phase]? = some (reply, command))
    (ahead : phase + 2 ≤ handledCount workerAt) :
    .send command ∈ controllerScript.take controllerAt := by
  have inside : phase < 3 := (List.getElem?_eq_some_iff.mp found).1
  have checked := @of_causal _ _ (fun controller worker => ∀ phase < 3, ∀ pair ∈ phases[phase]?,
    phase + 2 ≤ handledCount worker → .send pair.2 ∈ controllerScript.take controller) causal
      (by decide +kernel)
  exact checked phase inside _ found ahead

set_option synthInstance.maxSize 512 in
/-- The controller receives the replies that end a phase after the commands of the phase. -/
theorem handledCount_of_getReply (causal : Causal controllerAt workerAt) {phase : ℕ}
    {reply command : Text} (found : phases[phase]? = some (reply, command))
    (received : .getReply reply ∈ controllerScript.take controllerAt) :
    phase + 1 ≤ handledCount workerAt := by
  have inside : phase < 3 := (List.getElem?_eq_some_iff.mp found).1
  have checked := @of_causal _ _ (fun controller worker => ∀ phase < 3, ∀ pair ∈ phases[phase]?,
    .getReply pair.1 ∈ controllerScript.take controller → phase + 1 ≤ handledCount worker) causal
      (by decide +kernel)
  exact checked phase inside _ found received

/-- What the controller sends to one worker waits for the replies of every other one. -/
theorem getReply_mem_of_send
    (steps : Run (Cluster.Step deployment) (.start deployment simulationIteration) trace cluster)
    (session : InSession deployment worker trace cluster controllerAt workerAt)
    {otherControllerAt otherWorkerAt : ℕ}
    (otherSession : InSession deployment other trace cluster otherControllerAt otherWorkerAt)
    {reply command : Text} (sent : .send command ∈ controllerScript.take controllerAt)
    (expects : reply ∈ (ControllerEvent.sent worker command).expects) :
    .getReply reply ∈ controllerScript.take otherControllerAt := by
  have sentMem := mem_trace_of_controllerLabel session sent
  have sentEvent : .sent worker command ∈ trace.filterMap ClusterEvent.controllerEvent? :=
    List.mem_filterMap.mpr ⟨_, sentMem, rfl⟩
  rcases List.append_of_mem sentEvent with ⟨front, back, split⟩
  rcases SimulationController.exists_received_mem_front (controller_run steps) split expects
    other with ⟨replyStr, receivedMem⟩
  have receivedEvent : .received other reply replyStr ∈
      trace.filterMap ClusterEvent.controllerEvent? := by
    rw [split]
    exact List.mem_append_left _ receivedMem
  rcases List.mem_filterMap.mp receivedEvent with ⟨event, eventMem, eventEq⟩
  cases event with
  | worker _ _ => simp [ClusterEvent.controllerEvent?] at eventEq
  | controller event =>
      rcases Option.some.inj eventEq with rfl
      rcases exists_label_of_mem otherSession eventMem rfl with ⟨label, taken, labelEq⟩
      rwa [(ControllerLabel.eq_getReply_of_event labelEq).1] at taken

/-- In every state that the cluster reaches, no worker is two commands ahead of another. -/
theorem handled_in_step
    (steps : Run (Cluster.Step deployment) (.start deployment simulationIteration) trace cluster)
    (worker other : Fin workers) :
    (handledCommands worker trace).length ≤ (handledCommands other trace).length + 1 := by
  rcases sessions_of_run steps worker with ⟨controllerAt, workerAt, session⟩
  rcases sessions_of_run steps other with ⟨otherControllerAt, otherWorkerAt, otherSession⟩
  rw [length_handledCommands session, length_handledCommands otherSession]
  by_contra ahead
  have bound := handledCount_le workerAt
  have inside : handledCount otherWorkerAt < phases.length := by
    show handledCount otherWorkerAt < 3
    omega
  have found := List.getElem?_eq_getElem inside
  have sent := send_mem_of_handledCount session.causal found (by omega)
  have received := getReply_mem_of_send steps session otherSession sent (expects_of_phase found _)
  have behind := handledCount_of_getReply otherSession.causal found received
  omega

theorem handled_in_step_twoWorkers :
    ∃ trace cluster,
      Run (Cluster.Step twoWorkers) (.start twoWorkers 0) trace cluster ∧
        cluster.controller.program.head? = some .mergeResults ∧
          (handledCommands (0 : Fin 2) trace).length ≤ (handledCommands 1 trace).length + 1 := by
  rcases exists_merging twoWorkers 0 with ⟨trace, cluster, steps, merges⟩
  exact ⟨trace, cluster, steps, merges, handled_in_step steps 0 1⟩

/-- The worker is in `sendDataToController`. -/
def WorkerPc.sendsData : WorkerPc → Bool
  | .bindingData _ _ => true
  | .sendingData _ _ => true
  | _ => false

theorem position_of_sendsData
    (session : InSession deployment worker trace cluster controllerAt workerAt)
    (sends : (cluster.nodes worker).pc.sendsData = true) :
    workerAt = 9 ∨ workerAt = 10 := by
  have inside : workerAt ≤ 15 := session.causal.2.1
  rw [session.node] at sends
  interval_cases workerAt <;> simp [WorkerHost.node, WorkerPc.sendsData] at sends ⊢

theorem controller_of_sendsData
    (session : InSession deployment worker trace cluster controllerAt workerAt)
    (sends : (cluster.nodes worker).pc.sendsData = true) :
    remaining worker controllerAt = remaining worker 6 := by
  have checked := @of_causal _ _ (fun controller worker =>
    worker = 9 ∨ worker = 10 → controller = 6 ∨ controller = 7) session.causal (by decide +kernel)
  rcases checked (position_of_sendsData session sends) with rfl | rfl
  · rfl
  · rfl

/-- While a worker has a data socket, the controller does nothing but fetch from this worker. -/
theorem head?_of_sendsData
    (steps : Run (Cluster.Step deployment) (.start deployment simulationIteration) trace cluster)
    (sends : (cluster.nodes worker).pc.sendsData = true) :
    cluster.controller.program.head? = some (.receiveDataFromWorker worker) := by
  rcases sessions_of_run steps worker with ⟨controllerAt, workerAt, session⟩
  have program := session.program.trans (controller_of_sendsData session sends)
  rcases SimulationController.run_at_transfer worker with ⟨earlier, later, runEq⟩
  have actions := SimulationController.actions_of_run (controller_run steps)
  -- Of this worker's actions, those up to the request have been performed.
  have performed := congrArg (List.filter (·.worker? = some worker)) actions
  have requested : remaining worker 0 =
      [.connect worker, .send worker INIT, .getReply worker INITDONE, .send worker GO,
        .getReply worker RESULTSREADY, .send worker GETRESULTS] ++ remaining worker 6 := rfl
  rw [List.filter_append, program, SimulationController.start, filter_run, requested] at performed
  have performedEq := List.append_cancel_right performed
  rw [SimulationController.start, runEq] at actions
  rcases List.append_eq_append_iff.mp actions with
    ⟨between, requestEq, transferEq⟩ | ⟨between, requestEq, transferEq⟩
  · rcases List.eq_nil_or_concat between with rfl | ⟨shorter, last, rfl⟩
    · rw [transferEq]
      rfl
    · rw [List.concat_eq_append, ← List.append_assoc] at requestEq
      have lastEq : .send worker GETRESULTS = last := by
        simpa using (List.append_inj' requestEq rfl).2
      have again : .send worker GETRESULTS ∈ cluster.controller.program := by
        simp [transferEq, lastEq]
      have inSession : .send worker GETRESULTS ∈ remaining worker 6 := by
        rw [← program]
        exact List.mem_filter.mpr ⟨again, decide_eq_true rfl⟩
      exact absurd inSession (by simp [remaining, controllerScript, ControllerLabel.action?,
        GETRESULTS, EXIT])
  · cases between with
    | nil =>
        rw [List.nil_append] at transferEq
        rw [← transferEq]
        rfl
    | cons first others =>
        have firstEq := (List.cons.inj transferEq).1
        have already : .receiveDataFromWorker worker ∈
            (trace.filterMap ClusterEvent.controllerEvent?).filterMap ControllerEvent.action? := by
          rw [requestEq, firstEq]
          simp
        have absent : .receiveDataFromWorker worker ∉ ((trace.filterMap
            ClusterEvent.controllerEvent?).filterMap ControllerEvent.action?).filter
              (·.worker? = some worker) := by
          rw [performedEq]
          simp
        exact absurd (List.mem_filter.mpr ⟨already, decide_eq_true rfl⟩) absent

theorem sendsData_of_boundData {host : WorkerHost} {endpoint after : Endpoint}
    (acts : endpoint.step host = some (.boundData, after)) :
    endpoint.node.pc.sendsData = true := by
  rcases endpoint with ⟨⟨node, pc⟩, command, data⟩
  cases pc with
  | bindingData frame done => rfl
  | sendingData frame done => rfl
  | receiving => cases arrived : command.toBound <;> simp [Endpoint.step, arrived] at acts
  | _ => simp [Endpoint.step] at acts

/-- Every worker comes to the point where it has a data socket. -/
theorem exists_sendsData (deployment : Deployment workers) (simulationIteration : Int32)
    (worker : Fin workers) :
    ∃ trace cluster,
      Run (Cluster.Step deployment) (.start deployment simulationIteration) trace cluster ∧
        (cluster.nodes worker).pc.sendsData = true := by
  rcases exists_maximal_run deployment simulationIteration with ⟨trace, last, steps, maximal⟩
  have permuted := perm_events steps (done_of_maximal steps maximal)
  have inEvents := mem_events deployment simulationIteration worker
    (show .bindData ∈ workerScript by decide)
  rcases steps.step_of_mem (permuted.mem_iff.mpr inEvents) with
    ⟨front, back, before, after, _, earlier, step⟩
  refine ⟨front, before, earlier, ?_⟩
  cases step with
  | worker acts =>
      exact sendsData_of_boundData acts

end KeyValueClusterPerf
