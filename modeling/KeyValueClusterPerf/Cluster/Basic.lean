import KeyValueClusterPerf.SimulationController.Barrier
import KeyValueClusterPerf.SimulationWorker.Basic

/-!
# The controller and its workers over reliable sockets

Each address carries one pair of sockets: a worker binds it and the controller connects to
it. Both directions are queues that lose, invent and reorder nothing. The connecting side
can send at any time; the bound side can send once the other side has connected.

A worker goes through its command loop in separate steps: it receives a command, performs
it, binds and uses the data socket if the command produced data, and replies. All parties
take their steps in any order.
-/

namespace KeyValueClusterPerf

open Texts LabelledRuns

/-- A pair of sockets, with the messages that are underway in both directions. -/
structure PairWire where
  connected : Bool
  toBound : List Text
  toConnector : List Text
  deriving DecidableEq

/-- A worker process: its configuration, its files, and what its stack buffer holds. -/
structure WorkerHost where
  config : WorkerConfiguration
  entries : Option (List DirectoryEntry)
  buffer : Buffer 1024

/-- The place of a worker in `SimulationWorker::run` and `sendDataToController`. -/
inductive WorkerPc
  | binding
  | receiving
  | handling (requestString : Text)
  | bindingData (frame : Buffer 1024) (done : Handled)
  | sendingData (frame : Buffer 1024) (done : Handled)
  | replying (replyString : Text)
  | closed

structure WorkerNode where
  worker : SimulationWorker
  pc : WorkerPc

inductive WorkerEvent
  | bound
  | requested (requestString : Text)
  | handled (requestString : Text)
  | boundData
  | sentData (message : Text)
  | replied (replyString : Text)
  deriving DecidableEq

/-- A worker with the wires at its command address and at its data address. -/
structure Endpoint where
  node : WorkerNode
  command : PairWire
  data : PairWire

namespace Endpoint

/-- The next step of a worker, unless it has to wait, is at its end or has no defined behaviour. -/
def step (host : WorkerHost) (endpoint : Endpoint) : Option (WorkerEvent × Endpoint) :=
  match endpoint.node.pc with
  | .binding =>
      some (.bound, { endpoint with node := ⟨endpoint.node.worker, .receiving⟩ })
  | .receiving =>
      match endpoint.command.toBound with
      | [] => none
      | requestString :: later =>
          some (.requested requestString, { endpoint with
            node := ⟨endpoint.node.worker, .handling requestString⟩
            command := { endpoint.command with toBound := later } })
  | .handling requestString =>
      (endpoint.node.worker.handle host.config ⟨requestString, host.entries, host.buffer⟩).map
        fun done => (.handled requestString, { endpoint with
          node :=
            match done.data with
            | none => ⟨done.worker, .replying done.replyString⟩
            | some frame => ⟨endpoint.node.worker, .bindingData frame done⟩ })
  | .bindingData frame done =>
      some (.boundData, { endpoint with node := ⟨endpoint.node.worker, .sendingData frame done⟩ })
  | .sendingData frame done =>
      if endpoint.data.connected then
        some (.sentData frame.bytes, { endpoint with
          node := ⟨done.worker, .replying done.replyString⟩
          data := { endpoint.data with
            toConnector := endpoint.data.toConnector ++ [frame.bytes] } })
      else none
  | .replying replyString =>
      if endpoint.command.connected then
        some (.replied replyString, { endpoint with
          node := ⟨endpoint.node.worker,
            if endpoint.node.worker.listens then .receiving else .closed⟩
          command := { endpoint.command with
            toConnector := endpoint.command.toConnector ++ [replyString] } })
      else none
  | .closed => none

end Endpoint

/-- A controller configuration with pairwise distinct addresses, and the workers behind them. -/
structure Deployment (workers : ℕ) extends ControllerConfiguration workers where
  distinct : Function.Injective (Sum.elim commandHosts dataHosts)
  hosts : Fin workers → WorkerHost

inductive ClusterEvent (workers : ℕ)
  | controller (event : ControllerEvent workers)
  | worker (worker : Fin workers) (event : WorkerEvent)

structure Cluster (workers : ℕ) where
  controller : SimulationController workers
  nodes : Fin workers → WorkerNode
  wires : Text → PairWire

variable {workers : ℕ}

/-- What an event of the controller does to the wires, where the wires admit it. -/
inductive Transport (config : ControllerConfiguration workers) (wires : Text → PairWire) :
    ControllerEvent workers → (Text → PairWire) → Prop
  | connected (worker : Fin workers) :
      Transport config wires (.connected worker)
        (Function.update wires (config.commandHosts worker)
          { wires (config.commandHosts worker) with connected := true })
  | sent (worker : Fin workers) (command : Text) :
      Transport config wires (.sent worker command)
        (Function.update wires (config.commandHosts worker)
          { wires (config.commandHosts worker) with
            toBound := (wires (config.commandHosts worker)).toBound ++ [command] })
  | received {worker : Fin workers} {replyStr : Text} {later : List Text} (command : Text)
      (arrived : (wires (config.commandHosts worker)).toConnector = replyStr :: later) :
      Transport config wires (.received worker command replyStr)
        (Function.update wires (config.commandHosts worker)
          { wires (config.commandHosts worker) with toConnector := later })
  | opened (worker : Fin workers) (host : Text) :
      Transport config wires (.opened worker host)
        (Function.update wires host { wires host with connected := true })
  | fetched {host message : Text} {later : List Text} (worker : Fin workers)
      (arrived : (wires host).toConnector = message :: later) :
      Transport config wires (.fetched worker host message)
        (Function.update wires host { wires host with connected := false, toConnector := later })
  | merged (path contents : Text) : Transport config wires (.merged path contents) wires

namespace Cluster

def endpoint (deployment : Deployment workers) (cluster : Cluster workers) (worker : Fin workers) :
    Endpoint :=
  ⟨cluster.nodes worker, cluster.wires (deployment.commandHosts worker),
    cluster.wires (deployment.dataHosts worker)⟩

inductive Step (deployment : Deployment workers) :
    Cluster workers → ClusterEvent workers → Cluster workers → Prop
  | controller {cluster event next wires}
      (acts : SimulationController.Step deployment.toControllerConfiguration cluster.controller
        event next)
      (transport : Transport deployment.toControllerConfiguration cluster.wires event wires) :
      Step deployment cluster (.controller event) ⟨next, cluster.nodes, wires⟩
  | worker {cluster worker event after}
      (acts : (cluster.endpoint deployment worker).step (deployment.hosts worker) =
        some (event, after)) :
      Step deployment cluster (.worker worker event) {
        controller := cluster.controller
        nodes := Function.update cluster.nodes worker after.node
        wires := Function.update (Function.update cluster.wires (deployment.commandHosts worker)
          after.command) (deployment.dataHosts worker) after.data }

def start (deployment : Deployment workers) (simulationIteration : Int32) : Cluster workers where
  controller := .start deployment.toControllerConfiguration simulationIteration
  nodes := fun _ => ⟨.construct, .binding⟩
  wires := fun _ => ⟨false, [], []⟩

end Cluster

end KeyValueClusterPerf
