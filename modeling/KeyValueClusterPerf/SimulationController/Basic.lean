import KeyValueClusterPerf.Foundations.Decimal
import KeyValueClusterPerf.Foundations.Runs
import KeyValueClusterPerf.SimulationWorker.Basic

/-!
# The controller as a transition system

`SimulationController::run` performs a fixed sequence of actions: nothing it receives
changes what it does next. So its program is the list of these actions, with the loops over
the command sockets written out, and a step performs the first action that remains.

What the sockets yield is left open here. A text received as a reply is compared with the
expected one, and a difference is logged and nothing else. The message received as data can be
any, with any memory behind it and from the start of the controller's buffer on.
-/

namespace KeyValueClusterPerf

open Texts LabelledRuns

structure ControllerConfiguration (workers : ℕ) where
  commandHosts : Fin workers → Text
  dataHosts : Fin workers → Text
  simulationIteration : Int32

/-- The blocking actions of `run`, with the position of their worker among the sockets. -/
inductive Action (workers : ℕ)
  | connect (worker : Fin workers)
  | send (worker : Fin workers) (command : Text)
  | getReply (worker : Fin workers) (command : Text)
  | receiveDataFromWorker (worker : Fin workers)
  | mergeResults
  deriving DecidableEq

/-- What can be observed of the controller. -/
inductive ControllerEvent (workers : ℕ)
  | connected (worker : Fin workers)
  | sent (worker : Fin workers) (command : Text)
  | received (worker : Fin workers) (command replyStr : Text)
  | opened (worker : Fin workers) (host : Text)
  | fetched (worker : Fin workers) (host message : Text)
  | merged (path contents : Text)

/--
The controller between two actions. `dataSocket` is the address to which the local socket of
`receiveDataFromWorker` is connected while that function runs.
-/
structure SimulationController (workers : ℕ) where
  program : List (Action workers)
  dataHosts : List Text
  dataSocket : Option Text
  allResults : List StringMap
  log : List Text
  simulationIteration : Int32

namespace SimulationController

variable {workers : ℕ}

def sendAllNodes (command : Text) : List (Action workers) :=
  (List.finRange workers).map (.send · command)

def getAllNodes (command : Text) : List (Action workers) :=
  (List.finRange workers).map (.getReply · command)

/-- The loop body that requests and receives the results of one worker. -/
def requestResults (worker : Fin workers) : List (Action workers) :=
  [.send worker GETRESULTS, .receiveDataFromWorker worker]

/-- `run`, up to the replies that the workers give to INIT. -/
def initialisation : List (Action workers) :=
  (List.finRange workers).map .connect ++ sendAllNodes INIT ++ getAllNodes INITDONE

def measurement : List (Action workers) :=
  sendAllNodes GO ++ getAllNodes RESULTSREADY

def collection : List (Action workers) :=
  (List.finRange workers).flatMap requestResults ++ getAllNodes DONERESULTS

def shutdown : List (Action workers) :=
  sendAllNodes EXIT ++ getAllNodes EXITING

def run : List (Action workers) :=
  initialisation ++ measurement ++ collection ++ shutdown ++ [.mergeResults]

/-- The path of the results file; a file name with an iteration takes it from the member. -/
def csvFilePath (config : ControllerConfiguration workers)
    (controller : SimulationController workers) : Text :=
  if config.simulationIteration = -1 then "results.csv".toList
  else "results".toList ++ decimalInt controller.simulationIteration.toInt ++ ".csv".toList

/-- The controller at the start of `run`; the member `simulationIteration` is arbitrary. -/
def start (config : ControllerConfiguration workers) (simulationIteration : Int32) :
    SimulationController workers where
  program := run
  dataHosts := List.ofFn config.dataHosts
  dataSocket := none
  allResults := []
  log := []
  simulationIteration := simulationIteration

inductive Step (config : ControllerConfiguration workers) :
    SimulationController workers → ControllerEvent workers → SimulationController workers → Prop
  | connect {controller worker rest} (next : controller.program = .connect worker :: rest) :
      Step config controller (.connected worker) { controller with program := rest }
  | send {controller worker command rest}
      (next : controller.program = .send worker command :: rest) :
      Step config controller (.sent worker command) { controller with program := rest }
  | getReply {controller worker command rest} (replyStr : Text)
      (next : controller.program = .getReply worker command :: rest) :
      Step config controller (.received worker command replyStr) { controller with
        program := rest
        log := if replyStr = command then controller.log
          else controller.log ++ ["WRONG REPLY".toList] }
  | openData {controller worker host others rest}
      (next : controller.program = .receiveDataFromWorker worker :: rest)
      (closed : controller.dataSocket = none) (front : controller.dataHosts = host :: others) :
      Step config controller (.opened worker host) { controller with
        dataSocket := some host
        dataHosts := others }
  | receiveData {controller worker host rest message} (behindMessage heap : ℕ → Char)
      (next : controller.program = .receiveDataFromWorker worker :: rest)
      (connected : controller.dataSocket = some host) :
      Step config controller (.fetched worker host message) { controller with
        program := rest
        dataSocket := none
        allResults := controller.allResults ++
          [readResults (messageExtent (some message) behindMessage) ⟨1024, heap⟩] }
  | mergeResults {controller rest} (next : controller.program = .mergeResults :: rest) :
      Step config controller
        (.merged (controller.csvFilePath config) (mergeResults controller.allResults))
        { controller with program := rest }

end SimulationController

/-- The action that an event completes; connecting the data socket completes none. -/
def ControllerEvent.action? {workers : ℕ} : ControllerEvent workers → Option (Action workers)
  | .connected worker => some (.connect worker)
  | .sent worker command => some (.send worker command)
  | .received worker command _ => some (.getReply worker command)
  | .opened _ _ => none
  | .fetched worker _ _ => some (.receiveDataFromWorker worker)
  | .merged _ _ => some .mergeResults

def Action.transfer? {workers : ℕ} : Action workers → Option (Fin workers)
  | .receiveDataFromWorker worker => some worker
  | _ => none

namespace SimulationController

variable {workers : ℕ} {config : ControllerConfiguration workers}
  {controller next : SimulationController workers} {event : ControllerEvent workers}
  {trace : List (ControllerEvent workers)}

/-- A step completes the first action of the program, or none. -/
theorem program_of_step (step : Step config controller event next) :
    event.action?.toList ++ next.program = controller.program := by
  cases step with
  | connect first => exact first.symm
  | send first => exact first.symm
  | getReply _ first => exact first.symm
  | openData _ _ _ => rfl
  | receiveData _ _ first _ => exact first.symm
  | mergeResults first => exact first.symm

theorem dataSocket_of_step (step : Step config controller event next) :
    next.dataSocket =
      match event with
      | .opened _ host => some host
      | .fetched _ _ _ => none
      | _ => controller.dataSocket := by
  cases step <;> rfl

/-- No step sets the member. -/
theorem simulationIteration_of_step (step : Step config controller event next) :
    next.simulationIteration = controller.simulationIteration := by
  cases step <;> rfl

theorem simulationIteration_of_run {simulationIteration : Int32}
    (steps : Run (Step config) (start config simulationIteration) trace controller) :
    controller.simulationIteration = simulationIteration := by
  apply steps.invariant fun _ reached => reached.simulationIteration = simulationIteration
  · rfl
  · intro _ _ _ _ _ same step
    exact (simulationIteration_of_step step).trans same

/-- The path of the results file is fixed at the start. -/
theorem csvFilePath_of_run {simulationIteration : Int32}
    (steps : Run (Step config) (start config simulationIteration) trace controller) :
    controller.csvFilePath config = csvFilePath config (start config simulationIteration) := by
  rw [csvFilePath, csvFilePath, simulationIteration_of_run steps]
  rfl

/-- The completed actions are those of the program, in its order. -/
theorem actions_of_run {initial : SimulationController workers}
    (steps : Run (Step config) initial trace controller) :
    trace.filterMap ControllerEvent.action? ++ controller.program = initial.program := by
  induction steps with
  | nil => rfl
  | @snoc trace _ _ event _ last ih =>
      rw [← ih, ← program_of_step last, List.filterMap_append, List.append_assoc]
      cases event <;> rfl

theorem mergeResults_mem_run : .mergeResults ∈ (run : List (Action workers)) :=
  List.mem_append_right _ (List.mem_singleton_self _)

/-- The program transfers the results of each worker once, in order. -/
theorem transfers_run :
    (run : List (Action workers)).filterMap Action.transfer? = List.finRange workers := by
  have requests : ((List.finRange workers).flatMap requestResults).filterMap Action.transfer? =
      List.finRange workers := by
    rw [List.filterMap_flatMap]
    exact List.flatMap_singleton' (List.finRange workers)
  have sends : ∀ command, (sendAllNodes command : List (Action workers)).filterMap
      Action.transfer? = [] := by
    simp [sendAllNodes, List.filterMap_eq_nil_iff, Action.transfer?]
  have gets : ∀ command, (getAllNodes command : List (Action workers)).filterMap
      Action.transfer? = [] := by
    simp [getAllNodes, List.filterMap_eq_nil_iff, Action.transfer?]
  have connects : ((List.finRange workers).map Action.connect).filterMap Action.transfer? = [] := by
    simp [List.filterMap_eq_nil_iff, Action.transfer?]
  simp [run, initialisation, measurement, collection, shutdown, requests, sends, gets, connects,
    Action.transfer?]

/-- The data hosts that remain are those of the transfers that remain. -/
structure HostsPaired (config : ControllerConfiguration workers)
    (controller : SimulationController workers) : Prop where
  hosts : controller.dataSocket.toList ++ controller.dataHosts =
    (controller.program.filterMap Action.transfer?).map config.dataHosts
  socket : controller.dataSocket ≠ none →
    ∃ worker rest, controller.program = .receiveDataFromWorker worker :: rest

theorem hostsPaired_start (config : ControllerConfiguration workers)
    (simulationIteration : Int32) : HostsPaired config (start config simulationIteration) := by
  constructor
  · simp only [start, transfers_run, List.ofFn_eq_map, Option.toList_none, List.nil_append]
  · intro connected
    exact absurd rfl connected

theorem HostsPaired.tail (paired : HostsPaired config controller) {action : Action workers}
    {rest : List (Action workers)} (first : controller.program = action :: rest)
    (silent : action.transfer? = none) (programEq : next.program = rest)
    (hostsEq : next.dataHosts = controller.dataHosts)
    (socketEq : next.dataSocket = controller.dataSocket) : HostsPaired config next := by
  have closed : controller.dataSocket = none := by
    by_contra connected
    rcases paired.socket connected with ⟨worker, others, transfer⟩
    rw [first, List.cons.injEq] at transfer
    simp [transfer.1, Action.transfer?] at silent
  constructor
  · rw [socketEq, hostsEq, programEq, paired.hosts, first, List.filterMap_cons_none silent]
  · intro connected
    exact absurd (socketEq.trans closed) connected

/-- The first data host is that of the transfer that opens it. -/
theorem HostsPaired.host_eq (paired : HostsPaired config controller) {worker : Fin workers}
    {rest : List (Action workers)}
    (first : controller.program = .receiveDataFromWorker worker :: rest) {host : Text}
    {others : List Text}
    (front : controller.dataSocket.toList ++ controller.dataHosts = host :: others) :
    host = config.dataHosts worker ∧
      others = (rest.filterMap Action.transfer?).map config.dataHosts := by
  have hosts := paired.hosts
  rw [front, first] at hosts
  exact List.cons.inj hosts

theorem hostsPaired_step (paired : HostsPaired config controller)
    (step : Step config controller event next) : HostsPaired config next := by
  cases step with
  | connect first => exact paired.tail first rfl rfl rfl rfl
  | send first => exact paired.tail first rfl rfl rfl rfl
  | getReply _ first => exact paired.tail first rfl rfl rfl rfl
  | mergeResults first => exact paired.tail first rfl rfl rfl rfl
  | openData first closed front =>
      constructor
      · have hosts := paired.hosts
        rwa [closed, front] at hosts
      · intro _
        exact ⟨_, _, first⟩
  | receiveData _ _ first connected =>
      rcases paired.host_eq first (by rw [connected]; rfl) with ⟨_, othersEq⟩
      constructor
      · exact othersEq
      · intro stillConnected
        exact absurd rfl stillConnected

theorem hostsPaired_of_run {simulationIteration : Int32}
    (steps : Run (Step config) (start config simulationIteration) trace controller) :
    HostsPaired config controller := by
  apply steps.invariant fun _ reached => HostsPaired config reached
  · exact hostsPaired_start config simulationIteration
  · intro _ _ _ _ _ paired step
    exact hostsPaired_step paired step

section Hosts

variable {worker : Fin workers} {host : Text} {others : List Text} {rest : List (Action workers)}

theorem HostsPaired.host_of_opened (paired : HostsPaired config controller)
    (first : controller.program = .receiveDataFromWorker worker :: rest)
    (closed : controller.dataSocket = none) (front : controller.dataHosts = host :: others) :
    host = config.dataHosts worker :=
  (paired.host_eq first (by rw [closed, front]; rfl)).1

theorem HostsPaired.host_of_connected (paired : HostsPaired config controller)
    (first : controller.program = .receiveDataFromWorker worker :: rest)
    (connected : controller.dataSocket = some host) : host = config.dataHosts worker :=
  (paired.host_eq first (by rw [connected]; rfl)).1

theorem HostsPaired.front_of_closed (paired : HostsPaired config controller)
    (first : controller.program = .receiveDataFromWorker worker :: rest)
    (closed : controller.dataSocket = none) :
    ∃ others, controller.dataHosts = config.dataHosts worker :: others := by
  have hosts := paired.hosts
  rw [closed, first] at hosts
  exact ⟨_, hosts⟩

end Hosts

end SimulationController

end KeyValueClusterPerf
