import KeyValueClusterPerf.Cluster.Phases
import KeyValueClusterPerf.DBConnector.FinalDatabase

/-!
# A benchmark of the whole cluster

A worker that handles GO goes through its files against the database that all workers share. The
database serves one request at a time, of any worker that is in its loop, and between two of them
anything else can happen in the cluster. A worker leaves GO behind when its loop has ended.
-/

namespace KeyValueClusterPerf

open Texts LastWriteWins LabelledRuns Session

/-- The files that the loop of a worker goes through. -/
def WorkerHost.files (host : WorkerHost) : List RegularFile :=
  match host.entries with
  | some entries => (DBConnector.construct host.config.bytesLimit).processed entries
  | none => []

structure Benchmark (workers : ℕ) where
  cluster : Cluster workers
  shared : SharedState workers

inductive BenchmarkEvent (workers : ℕ)
  | cluster (event : ClusterEvent workers)
  | served (request : Served workers)

variable {workers : ℕ}

namespace BenchmarkEvent

def cluster? : BenchmarkEvent workers → Option (ClusterEvent workers)
  | .cluster event => some event
  | .served _ => none

def served? : BenchmarkEvent workers → Option (Served workers)
  | .cluster _ => none
  | .served request => some request

end BenchmarkEvent

namespace Benchmark

inductive Step (deployment : Deployment workers) :
    Benchmark workers → BenchmarkEvent workers → Benchmark workers → Prop
  | cluster {benchmark : Benchmark workers} {event next}
      (acts : Cluster.Step deployment benchmark.cluster event next)
      (returned : ∀ worker, event = .worker worker (.handled GO) →
        (benchmark.shared.clients worker).Done) :
      Step deployment benchmark (.cluster event) ⟨next, benchmark.shared⟩
  | served {benchmark : Benchmark workers} {request next}
      (serve : Serve benchmark.shared request next)
      (inLoop : (benchmark.cluster.nodes request.worker).pc = .handling GO) :
      Step deployment benchmark (.served request) ⟨benchmark.cluster, next⟩

def start (deployment : Deployment workers) (simulationIteration : Int32) : Benchmark workers where
  cluster := .start deployment simulationIteration
  shared := .start fun worker => (deployment.hosts worker).files

end Benchmark

section Views

variable {deployment : Deployment workers} {simulationIteration : Int32}
  {trace : List (BenchmarkEvent workers)} {benchmark : Benchmark workers}

def clusterTrace (trace : List (BenchmarkEvent workers)) : List (ClusterEvent workers) :=
  trace.filterMap BenchmarkEvent.cluster?

def servedTrace (trace : List (BenchmarkEvent workers)) : List (Served workers) :=
  trace.filterMap BenchmarkEvent.served?

/-- To the cluster a benchmark is one of its runs. -/
theorem cluster_run
    (steps : Run (Benchmark.Step deployment) (.start deployment simulationIteration) trace
      benchmark) :
    Run (Cluster.Step deployment) (.start deployment simulationIteration) (clusterTrace trace)
      benchmark.cluster := by
  apply steps.project Benchmark.cluster BenchmarkEvent.cluster?
  intro state next event step
  cases step with
  | cluster acts _ => exact acts
  | served _ _ => rfl

/-- To the database it is a run of its clients. -/
theorem shared_run
    (steps : Run (Benchmark.Step deployment) (.start deployment simulationIteration) trace
      benchmark) :
    Run Serve (SharedState.start fun worker => (deployment.hosts worker).files)
      (servedTrace trace) benchmark.shared := by
  apply steps.project Benchmark.shared BenchmarkEvent.served?
  intro state next event step
  cases step with
  | cluster _ _ => rfl
  | served serve _ => exact serve

end Views

section Phases

variable {deployment : Deployment workers} {simulationIteration : Int32}
  {trace : List (BenchmarkEvent workers)} {benchmark : Benchmark workers} {worker : Fin workers}
  {clusterEvents : List (ClusterEvent workers)} {cluster : Cluster workers}
  {controllerAt workerAt : ℕ}

/-- A worker handles GO at one position of its script. -/
theorem position_of_handling_GO
    (session : InSession deployment worker clusterEvents cluster controllerAt workerAt)
    (inLoop : (cluster.nodes worker).pc = .handling GO) : workerAt = 5 := by
  have inside : workerAt ≤ 15 := session.causal.2.1
  have distinct : INIT ≠ GO ∧ GETRESULTS ≠ GO ∧ EXIT ≠ GO := by
    decide
  rw [session.node] at inLoop
  interval_cases workerAt
  all_goals simp [WorkerHost.node, distinct] at inLoop ⊢

set_option synthInstance.maxSize 512 in
/-- While a worker is in its loop, the controller waits for the end of all loops. -/
theorem controller_in_loop (causal : Causal controllerAt 5) :
    .send GO ∈ controllerScript.take controllerAt ∧
      .getReply RESULTSREADY ∉ controllerScript.take controllerAt := by
  have checked := @of_causal _ _ (fun controller worker => worker = 5 →
    .send GO ∈ controllerScript.take controller ∧
      .getReply RESULTSREADY ∉ controllerScript.take controller) causal (by decide +kernel)
  exact checked rfl

theorem mem_sessionTrace_of_label
    (session : InSession deployment worker clusterEvents cluster controllerAt workerAt)
    {command : Text} (sent : .controller (.sent worker command) ∈ clusterEvents) :
    .send command ∈ controllerScript.take controllerAt := by
  rcases exists_label_of_mem session sent rfl with ⟨label, taken, labelEq⟩
  cases label with
  | send other =>
      simp only [ControllerLabel.event, ControllerEvent.sent.injEq, true_and] at labelEq
      rwa [labelEq]
  | _ => simp [ControllerLabel.event] at labelEq

end Phases

section Outcome

variable {deployment : Deployment workers} {simulationIteration : Int32}
  {trace : List (BenchmarkEvent workers)} {benchmark : Benchmark workers} {worker : Fin workers}
  {clusterEvents : List (ClusterEvent workers)} {cluster : Cluster workers}
  {controllerAt workerAt : ℕ}

theorem position_of_handled_GO
    (session : InSession deployment worker clusterEvents cluster controllerAt workerAt)
    (handled : .worker worker (.handled GO) ∈ clusterEvents) : 6 ≤ workerAt := by
  have visible : WorkerEvent.handled GO ∈ clusterEvents.filterMap (ClusterEvent.ofWorker worker) :=
    List.mem_filterMap.mpr ⟨_, handled, if_pos rfl⟩
  rw [session.workerTrace] at visible
  rcases List.mem_map.mp visible with ⟨label, taken, labelEq⟩
  have isHandle : label = .handle GO := by
    cases label <;> simp [WorkerLabel.event] at labelEq ⊢
    exact labelEq
  rw [isHandle] at taken
  by_contra early
  have before : workerScript.take workerAt <+: workerScript.take 5 := by
    rw [← Nat.min_eq_left (Nat.le_of_lt_succ (not_le.mp early)), ← List.take_take]
    exact List.take_prefix _ _
  exact absurd (before.subset taken) (by decide)

/-- A worker that has handled GO has no request left. -/
theorem done_of_handled_GO
    (steps : Run (Benchmark.Step deployment) (.start deployment simulationIteration) trace
      benchmark) :
    ∀ worker, .worker worker (.handled GO) ∈ clusterTrace trace →
      (benchmark.shared.clients worker).Done := by
  apply steps.invariant fun trace benchmark => ∀ worker,
    .worker worker (.handled GO) ∈ clusterTrace trace → (benchmark.shared.clients worker).Done
  · intro worker handled
    simp [clusterTrace] at handled
  · intro trace benchmark next event earlier before step worker handled
    cases step with
    | @cluster event _ acts returned =>
        simp only [clusterTrace, List.filterMap_append, List.mem_append] at handled
        rcases handled with already | now
        · exact before worker already
        · have same : .worker worker (.handled GO) = event := by
            simpa [BenchmarkEvent.cluster?] using now
          exact returned worker same.symm
    | @served request _ serve inLoop =>
        have already : .worker worker (.handled GO) ∈ clusterTrace trace := by
          simpa [clusterTrace, BenchmarkEvent.cluster?] using handled
        have apart : worker ≠ request.worker := by
          rintro rfl
          rcases sessions_of_run (cluster_run earlier) request.worker with ⟨_, _, session⟩
          have late := position_of_handled_GO session already
          rw [position_of_handling_GO session inLoop] at late
          omega
        have kept := clients_of_serve serve apart
        exact kept ▸ before worker already

/-- A client that is not done has a request that can be served. -/
theorem exists_serve {shared : SharedState workers} (unfinished : ¬(shared.clients worker).Done) :
    ∃ request next, request.worker = worker ∧ Serve shared request next := by
  rcases client : shared.clients worker with ⟨todo, pending⟩
  cases pending with
  | some file => exact ⟨_, _, rfl, .get client⟩
  | none =>
      cases todo with
      | nil => exact absurd ⟨by rw [client], by rw [client]⟩ unfinished
      | cons file rest => exact ⟨_, _, rfl, .put client⟩

theorem handling_of_step {host : WorkerHost} {endpoint after : Endpoint} {requestString : Text}
    (acts : endpoint.step host = some (.handled requestString, after)) :
    endpoint.node.pc = .handling requestString := by
  rcases endpoint with ⟨⟨node, pc⟩, command, data⟩
  cases pc with
  | handling other =>
      simp only [Endpoint.step, Option.map_eq_some_iff, Prod.mk.injEq,
        WorkerEvent.handled.injEq] at acts
      rcases acts with ⟨_, _, rfl, _⟩
      rfl
  | receiving => cases arrived : command.toBound <;> simp [Endpoint.step, arrived] at acts
  | _ => simp [Endpoint.step] at acts

/-- A worker that leaves GO behind was in its loop. -/
theorem handling_of_handled {next : Cluster workers}
    (acts : Cluster.Step deployment cluster (.worker worker (.handled GO)) next) :
    (cluster.nodes worker).pc = .handling GO := by
  cases acts with
  | worker acts => exact handling_of_step acts

/-- The benchmark goes on until the cluster does not. -/
theorem stuck_cluster (maximal : Stuck (Benchmark.Step deployment) benchmark) :
    Stuck (Cluster.Step deployment) benchmark.cluster := by
  rintro ⟨event, next, acts⟩
  apply maximal
  by_cases returns : ∃ worker, event = .worker worker (.handled GO) ∧
      ¬(benchmark.shared.clients worker).Done
  · rcases returns with ⟨worker, handled, unfinished⟩
    rcases exists_serve unfinished with ⟨request, shared, rfl, serve⟩
    subst handled
    exact ⟨_, _, .served serve (handling_of_handled acts)⟩
  · refine ⟨_, _, .cluster acts ?_⟩
    intro worker handled
    by_contra unfinished
    exact returns ⟨worker, handled, unfinished⟩

/-- The requests of a worker's run are those for its files. -/
theorem requests_files (host : WorkerHost) :
    host.files.flatMap DBConnector.requestsFor =
      ((DBConnector.construct host.config.bytesLimit).run host.entries).2 := by
  rcases host with ⟨config, entries, buffer⟩
  cases entries with
  | none => rfl
  | some entries => simp [WorkerHost.files, DBConnector.run, DBConnector.loop_eq]

/-- In a benchmark that cannot go on every worker has come to the end of its loop. -/
theorem done_of_maximal_benchmark
    (steps : Run (Benchmark.Step deployment) (.start deployment simulationIteration) trace
      benchmark)
    (maximal : Stuck (Benchmark.Step deployment) benchmark) (worker : Fin workers) :
    (benchmark.shared.clients worker).Done := by
  have clusterSteps := cluster_run steps
  have ended := done_of_maximal clusterSteps (stuck_cluster maximal)
  have handled := mem_events deployment simulationIteration worker
    (show .handle GO ∈ workerScript by decide)
  apply done_of_handled_GO steps worker
  exact (perm_events clusterSteps ended).mem_iff.mpr handled

theorem requests_of_maximal_benchmark
    (steps : Run (Benchmark.Step deployment) (.start deployment simulationIteration) trace
      benchmark)
    (maximal : Stuck (Benchmark.Step deployment) benchmark) (worker : Fin workers) :
    (servedTrace trace).filterMap (Served.request? worker) =
      ((DBConnector.construct (deployment.hosts worker).config.bytesLimit).run
        (deployment.hosts worker).entries).2 := by
  have served := served_of_run (shared_run steps) worker
  have done := done_of_maximal_benchmark steps maximal worker
  have nothing : (benchmark.shared.clients worker).remaining = [] := by
    simp [Client.remaining, done.1, done.2]
  rw [nothing, List.append_nil] at served
  rw [served, requests_files]

theorem count_served (worker : Fin workers) (trace : List (Served workers)) :
    trace.countP (·.worker = worker) = (trace.filterMap (Served.request? worker)).length := by
  induction trace with
  | nil => rfl
  | cons request trace ih =>
      rw [List.countP_cons, ih, List.filterMap_cons]
      cases request with
      | put other file =>
          by_cases own : other = worker <;> simp [Served.worker, Served.request?, own]
      | get other file value =>
          by_cases own : other = worker <;> simp [Served.worker, Served.request?, own]

theorem length_split (trace : List (BenchmarkEvent workers)) :
    trace.length = (clusterTrace trace).length + (servedTrace trace).length := by
  induction trace with
  | nil => rfl
  | cons event trace ih =>
      rw [List.length_cons, ih]
      cases event with
      | cluster event =>
          simp only [clusterTrace, servedTrace, List.filterMap_cons, BenchmarkEvent.cluster?,
            BenchmarkEvent.served?, List.length_cons]
          omega
      | served request =>
          simp only [clusterTrace, servedTrace, List.filterMap_cons, BenchmarkEvent.cluster?,
            BenchmarkEvent.served?, List.length_cons]
          omega

theorem length_benchmark_le
    (steps : Run (Benchmark.Step deployment) (.start deployment simulationIteration) trace
      benchmark) :
    trace.length ≤ 1 + workers * 26 +
      ∑ worker, ((deployment.hosts worker).files.flatMap DBConnector.requestsFor).length := by
  rw [length_split]
  apply Nat.add_le_add (length_le (cluster_run steps))
  rw [← sum_countP Served.worker]
  apply Finset.sum_le_sum
  intro worker _
  have served := served_of_run (shared_run steps) worker
  rw [count_served, ← served, List.length_append]
  exact Nat.le_add_right _ _

theorem exists_maximal_benchmark (deployment : Deployment workers) (simulationIteration : Int32) :
    ∃ trace benchmark, Run (Benchmark.Step deployment) (.start deployment simulationIteration)
      trace benchmark ∧ Stuck (Benchmark.Step deployment) benchmark := by
  have beginning : Run (Benchmark.Step deployment) (.start deployment simulationIteration) []
    (.start deployment simulationIteration) := .nil
  rcases beginning.exists_final length_benchmark_le (fun _ unfinished => unfinished) with
    ⟨trace, benchmark, steps, maximal⟩
  exact ⟨_, benchmark, steps, maximal⟩

/-- Two workers with different objects for one key. -/
def rivals : Deployment 2 where
  toControllerConfiguration := twoWorkers.toControllerConfiguration
  distinct := twoWorkers.distinct
  hosts := fun worker => ⟨plainConfiguration, some (walk (rivalTrees worker)), .zero 1024⟩

end Outcome

section Results

variable {deployment : Deployment workers} {simulationIteration : Int32}
  {trace : List (BenchmarkEvent workers)} {benchmark : Benchmark workers}

/-- A file that the controller writes, with its contents. -/
def ClusterEvent.merged? : ClusterEvent workers → Option (Text × Text)
  | .controller (.merged path contents) => some (path, contents)
  | _ => none

theorem filterMap_merged {clusterEvents : List (ClusterEvent workers)} {cluster : Cluster workers}
    (steps : Run (Cluster.Step deployment) (.start deployment simulationIteration) clusterEvents
      cluster)
    (done : cluster.controller.program = []) :
    clusterEvents.filterMap ClusterEvent.merged? =
      [(SimulationController.csvFilePath deployment.toControllerConfiguration
          (.start deployment.toControllerConfiguration simulationIteration),
        SimulationController.mergeResults deployment.allResults)] := by
  have apart : clusterEvents.filterMap ClusterEvent.merged? =
      (clusterEvents.filter (·.worker? = none)).filterMap ClusterEvent.merged? := by
    rw [List.filterMap_filter]
    apply List.filterMap_congr
    intro event _
    cases event with
    | controller event => cases event <;> rfl
    | worker worker event => rfl
  rw [apart, filter_none_of_run steps done]
  rfl

theorem measured_mLoadedObjects (host : WorkerHost) :
    host.measured.mLoadedObjects.toNat = host.files.length % 2 ^ 32 := by
  rcases host with ⟨config, entries, buffer⟩
  cases entries with
  | none => rfl
  | some entries => exact DBConnector.run_mLoadedObjects config.bytesLimit entries

/-- The fields of a worker, with the number of its objects as the database has seen it. -/
def reportedFields (host : WorkerHost) (objects : ℕ) : List Text :=
  [host.config.hostname.text, decimal (objects % 2 ^ 32), host.measured.sizeText,
    host.measured.timeText host.config.format]

/--
A benchmark that cannot go on has written one file: a header, and for every worker a line that
counts the PUT requests which the database has served for this worker.
-/
theorem rows_of_maximal_benchmark
    (steps : Run (Benchmark.Step deployment) (.start deployment simulationIteration) trace
      benchmark)
    (maximal : Stuck (Benchmark.Step deployment) benchmark) :
    ∃ contents rows, (clusterTrace trace).filterMap ClusterEvent.merged? =
        [(SimulationController.csvFilePath deployment.toControllerConfiguration
          (.start deployment.toControllerConfiguration simulationIteration), contents)] ∧
      lines contents = SimulationController.csvHeader :: rows ∧
      rows.map (List.splitOn ',') = List.ofFn fun worker =>
        reportedFields (deployment.hosts worker)
          ((puts (servedTrace trace)).countP (·.1 = worker)) := by
  have clusterSteps := cluster_run steps
  have ended := done_of_maximal clusterSteps (stuck_cluster maximal)
  refine ⟨_, deployment.allResults.map SimulationController.csvLine,
    filterMap_merged clusterSteps ended, ?_, ?_⟩
  · apply lines_unlines
    intro line mem
    rcases List.mem_cons.mp mem with rfl | rowMem
    · decide
    · simp only [Deployment.allResults, List.map_ofFn, List.mem_ofFn, Function.comp_apply] at rowMem
      rcases rowMem with ⟨worker, rfl⟩
      exact newline_not_mem_csvLine _ _ _
  · rw [Deployment.allResults, List.map_ofFn, List.map_ofFn]
    congr 1
    funext worker
    have done := done_of_maximal_benchmark steps maximal worker
    have put := congrArg List.length (puts_of_done (shared_run steps) done)
    rw [List.length_map, ← List.countP_eq_length_filter] at put
    rw [put, reportedFields, ← measured_mLoadedObjects]
    exact splitOn_csvLine _ _ _

end Results

section Barriers

variable {deployment : Deployment workers} {simulationIteration : Int32}
  {trace : List (BenchmarkEvent workers)} {benchmark : Benchmark workers}

/--
The database is used between two barriers: when it serves a request, the controller has received
INITDONE from every worker, and it has not asked any worker for results.
-/
theorem served_between_barriers
    (steps : Run (Benchmark.Step deployment) (.start deployment simulationIteration) trace
      benchmark)
    {front back : List (BenchmarkEvent workers)} {request : Served workers}
    (split : trace = front ++ .served request :: back) (worker : Fin workers) :
    .controller (.received worker INITDONE INITDONE) ∈ clusterTrace front ∧
      .controller (.sent worker GETRESULTS) ∉ clusterTrace front := by
  rw [split] at steps
  rcases steps.cut with ⟨before, after, earlier, step, _⟩
  have clusterSteps := cluster_run earlier
  have sessions := sessions_of_run clusterSteps
  cases step with
  | served serve inLoop =>
      rcases sessions request.worker with ⟨controllerAt, workerAt, session⟩
      rcases sessions worker with ⟨otherControllerAt, otherWorkerAt, otherSession⟩
      rcases position_of_handling_GO session inLoop with rfl
      have waits := controller_in_loop session.causal
      constructor
      · have received := getReply_mem_of_send clusterSteps session otherSession waits.1
          (@expects_of_phase _ 0 _ _ rfl request.worker)
        exact mem_trace_of_controllerLabel otherSession received
      · intro asked
        have sent := mem_sessionTrace_of_label otherSession asked
        have received := getReply_mem_of_send clusterSteps otherSession session sent
          (@expects_of_phase _ 1 _ _ rfl worker)
        exact waits.2 received

/-- A request of the second worker is served in every benchmark of the two workers. -/
theorem served_between_barriers_rivals :
    ∃ (front back : List (BenchmarkEvent 2)) (request : Served 2) (benchmark : Benchmark 2),
      Run (Benchmark.Step rivals) (.start rivals 0) (front ++ .served request :: back) benchmark ∧
        .controller (.received 0 INITDONE INITDONE) ∈ clusterTrace front ∧
          .controller (.sent 0 GETRESULTS) ∉ clusterTrace front := by
  rcases exists_maximal_benchmark rivals 0 with ⟨trace, benchmark, steps, maximal⟩
  have requests := requests_of_maximal_benchmark steps maximal 1
  have some : (.get ['x'] : Request) ∈ (servedTrace trace).filterMap (Served.request? 1) := by
    rw [requests]
    decide +kernel
  rcases List.mem_filterMap.mp some with ⟨request, inServed, _⟩
  rcases List.mem_filterMap.mp inServed with ⟨event, mem, eventEq⟩
  cases event with
  | cluster event => simp [BenchmarkEvent.served?] at eventEq
  | served other =>
      rcases List.append_of_mem mem with ⟨front, back, split⟩
      refine ⟨front, back, other, benchmark, split ▸ steps, ?_⟩
      exact served_between_barriers steps split 0

end Barriers

end KeyValueClusterPerf
