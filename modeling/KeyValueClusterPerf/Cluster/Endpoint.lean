import KeyValueClusterPerf.Cluster.Script

/-!
# A worker follows its script

At each position of its script a worker is at a known place with a known connector. From
there its next step is the one of the script if the wires admit it, and none at all if it
has to wait.
-/

namespace KeyValueClusterPerf

open Texts LabelledRuns

namespace WorkerHost

variable (host : WorkerHost)

def measured : DBConnector :=
  ((DBConnector.construct host.config.bytesLimit).run host.entries).1

def results : StringMap :=
  host.measured.getResults host.config.format host.config.hostname

theorem isSome_resultsFrame : (resultsFrame host.results host.buffer).isSome := by
  rcases resultsFrame_holds host.config.format host.config.hostname host.measured host.buffer with
    ⟨_, frame, _, frameEq, _⟩
  exact Option.isSome_of_eq_some frameEq

def frame : Buffer 1024 :=
  (resultsFrame host.results host.buffer).get host.isSome_resultsFrame

theorem resultsFrame_eq : resultsFrame host.results host.buffer = some host.frame :=
  (Option.some_get host.isSome_resultsFrame).symm

/-- The controller reads the statistics from the frame, whatever the memory held. -/
theorem readResults_frame (behindMessage heap : ℕ → Char) :
    SimulationController.readResults (messageExtent (some host.frame.bytes) behindMessage)
      ⟨1024, heap⟩ = host.results := by
  rcases readResults_resultsFrame host.config.format host.config.hostname host.measured
    host.buffer behindMessage heap with ⟨frame, frameEq, read⟩
  have sameFrame : frame = host.frame := Option.some.inj (frameEq.symm.trans host.resultsFrame_eq)
  subst sameFrame
  exact read

def initialised : SimulationWorker := SimulationWorker.construct.initialise host.config
def finished : SimulationWorker := host.initialised.finishRun 0 host.measured
def released : SimulationWorker := host.finished.release 0
def exited : SimulationWorker := { host.released with state := .EXIT }

def reported : Handled :=
  ⟨host.released, DBConnector.destroy, some host.frame, DONERESULTS⟩

/-- The worker at a position of its script. -/
def node : ℕ → WorkerNode
  | 0 => ⟨.construct, .binding⟩
  | 1 => ⟨.construct, .receiving⟩
  | 2 => ⟨.construct, .handling INIT⟩
  | 3 => ⟨host.initialised, .replying INITDONE⟩
  | 4 => ⟨host.initialised, .receiving⟩
  | 5 => ⟨host.initialised, .handling GO⟩
  | 6 => ⟨host.finished, .replying RESULTSREADY⟩
  | 7 => ⟨host.finished, .receiving⟩
  | 8 => ⟨host.finished, .handling GETRESULTS⟩
  | 9 => ⟨host.finished, .bindingData host.frame host.reported⟩
  | 10 => ⟨host.finished, .sendingData host.frame host.reported⟩
  | 11 => ⟨host.released, .replying DONERESULTS⟩
  | 12 => ⟨host.released, .receiving⟩
  | 13 => ⟨host.released, .handling EXIT⟩
  | 14 => ⟨host.exited, .replying EXITING⟩
  | _ => ⟨host.exited, .closed⟩

def endpoint (node : WorkerNode) (wires : SessionWires) : Endpoint where
  node := node
  command := wires.command
  data := ⟨wires.opened, [], if wires.frame then [host.frame.bytes] else []⟩

end WorkerHost

def WorkerLabel.event (host : WorkerHost) : WorkerLabel → WorkerEvent
  | .bind => .bound
  | .receive requestString => .requested requestString
  | .handle requestString => .handled requestString
  | .bindData => .boundData
  | .sendData => .sentData host.frame.bytes
  | .reply replyString => .replied replyString

/-- The worker before and after a step, apart from the wires. -/
inductive NodeStep (host : WorkerHost) : WorkerLabel → WorkerNode → WorkerNode → Prop
  | bind {worker} : NodeStep host .bind ⟨worker, .binding⟩ ⟨worker, .receiving⟩
  | receive {worker requestString} : NodeStep host (.receive requestString)
      ⟨worker, .receiving⟩ ⟨worker, .handling requestString⟩
  | handle {worker requestString after calls replyString}
      (handled : worker.handle host.config ⟨requestString, host.entries, host.buffer⟩ =
        some ⟨after, calls, none, replyString⟩) :
      NodeStep host (.handle requestString) ⟨worker, .handling requestString⟩
        ⟨after, .replying replyString⟩
  | handleData {worker requestString after calls frame replyString}
      (handled : worker.handle host.config ⟨requestString, host.entries, host.buffer⟩ =
        some ⟨after, calls, some frame, replyString⟩) :
      NodeStep host (.handle requestString) ⟨worker, .handling requestString⟩
        ⟨worker, .bindingData frame ⟨after, calls, some frame, replyString⟩⟩
  | bindData {worker frame done} : NodeStep host .bindData
      ⟨worker, .bindingData frame done⟩ ⟨worker, .sendingData frame done⟩
  | sendData {worker done} : NodeStep host .sendData
      ⟨worker, .sendingData host.frame done⟩ ⟨done.worker, .replying done.replyString⟩
  | reply {worker replyString} : NodeStep host (.reply replyString)
      ⟨worker, .replying replyString⟩
      ⟨worker, if worker.listens then .receiving else .closed⟩

namespace WorkerHost

variable {host : WorkerHost} {label : WorkerLabel} {node next : WorkerNode}
  {before after : SessionWires}

/-- A step that the wires admit is taken, with its effect on the wires. -/
theorem step_of_effect (nodeStep : NodeStep host label node next)
    (effect : label.Effect before after) :
    (host.endpoint node before).step host = some (label.event host, host.endpoint next after) := by
  cases nodeStep with
  | bind =>
      have sameAfter : after = before := effect
      subst sameAfter
      rfl
  | receive =>
      have sameBefore : before = _ := effect
      subst sameBefore
      rfl
  | handle handled =>
      have sameAfter : after = before := effect
      subst sameAfter
      simp [endpoint, Endpoint.step, handled, WorkerLabel.event]
  | handleData handled =>
      have sameAfter : after = before := effect
      subst sameAfter
      simp [endpoint, Endpoint.step, handled, WorkerLabel.event]
  | bindData =>
      have sameAfter : after = before := effect
      subst sameAfter
      rfl
  | sendData =>
      rcases effect with ⟨opened, empty, rfl⟩
      simp [endpoint, Endpoint.step, opened, empty, WorkerLabel.event]
  | reply =>
      rcases effect with ⟨connected, rfl⟩
      exact if_pos connected

theorem step_of_blocked (nodeStep : NodeStep host label node next)
    (blocked : label.Blocked before) : (host.endpoint node before).step host = none := by
  cases nodeStep with
  | bind => exact absurd blocked not_false
  | receive =>
      have empty : before.command.toBound = [] := blocked
      simp [endpoint, Endpoint.step, empty]
  | handle _ => exact absurd blocked not_false
  | handleData _ => exact absurd blocked not_false
  | bindData => exact absurd blocked not_false
  | sendData =>
      have closed : before.opened = false := blocked
      simp [endpoint, Endpoint.step, closed]
  | reply => exact absurd blocked not_false

variable (host)

theorem pointee_initialised :
    host.initialised.objects.pointee host.initialised.connector =
      some (0, .construct host.config.bytesLimit) :=
  SimulationWorker.pointee_initialise host.config

theorem pointee_finished :
    host.finished.objects.pointee host.finished.connector = some (0, host.measured) :=
  SimulationWorker.pointee_finishRun host.pointee_initialised host.measured

/-- On this host GETRESULTS produces the frame with the statistics. -/
theorem handle_GETRESULTS_finished :
    host.finished.handle host.config ⟨GETRESULTS, host.entries, host.buffer⟩ =
      some host.reported := by
  rcases SimulationWorker.handle_GETRESULTS host.config host.entries host.buffer
    host.pointee_finished with ⟨frame, frameEq, handled⟩
  have sameFrame : frame = host.frame := Option.some.inj (frameEq.symm.trans host.resultsFrame_eq)
  subst sameFrame
  exact handled

/-- Between two positions of its script the worker takes the step of the script. -/
theorem nodeStep_script : ∀ position, ∀ label ∈ workerScript[position]?,
    NodeStep host label (host.node position) (host.node (position + 1))
  | 0, _, rfl => .bind
  | 1, _, rfl => .receive
  | 2, _, rfl => .handle (SimulationWorker.handle_INIT ..)
  | 3, _, rfl => .reply
  | 4, _, rfl => .receive
  | 5, _, rfl => .handle (SimulationWorker.handle_GO _ _ _ host.pointee_initialised)
  | 6, _, rfl => .reply
  | 7, _, rfl => .receive
  | 8, _, rfl => .handleData host.handle_GETRESULTS_finished
  | 9, _, rfl => .bindData
  | 10, _, rfl => .sendData
  | 11, _, rfl => .reply
  | 12, _, rfl => .receive
  | 13, _, rfl => .handle (SimulationWorker.handle_EXIT ..)
  | 14, _, rfl => .reply

theorem step_closed (wires : SessionWires) :
    (host.endpoint (host.node 15) wires).step host = none :=
  rfl

end WorkerHost

end KeyValueClusterPerf
