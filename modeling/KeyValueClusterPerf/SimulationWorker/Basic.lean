import KeyValueClusterPerf.Foundations.Objects
import KeyValueClusterPerf.ResultsTransfer

/-!
# The command loop of a worker

`SimulationWorker::run` receives a command, compares it with the five commands it knows,
acts on its connector and sends a reply, which is empty for any other command. It leaves
the loop when its state is EXIT or ERROR. It never consults the state before it acts.

The pointer `connector` is indeterminate until the first INIT. A branch that needs the
object behind it has no defined behaviour unless that object is alive.
-/

namespace KeyValueClusterPerf

open Texts Doubles Lifetimes

-- The texts that a worker recognises as commands, and its replies to them.
def INIT : Text := ['I', 'N', 'I', 'T']
def GO : Text := ['G', 'O']
def GETRESULTS : Text := ['G', 'E', 'T', 'R', 'E', 'S', 'U', 'L', 'T', 'S']
def RESTART : Text := ['R', 'E', 'S', 'T', 'A', 'R', 'T']
def EXIT : Text := ['E', 'X', 'I', 'T']

def INITDONE : Text := ['I', 'N', 'I', 'T', 'D', 'O', 'N', 'E']
def RESULTSREADY : Text := ['R', 'E', 'S', 'U', 'L', 'T', 'S', 'R', 'E', 'A', 'D', 'Y']
def DONERESULTS : Text := ['D', 'O', 'N', 'E', 'R', 'E', 'S', 'U', 'L', 'T', 'S']
def RESTARTING : Text := ['R', 'E', 'S', 'T', 'A', 'R', 'T', 'I', 'N', 'G']
def EXITING : Text := ['E', 'X', 'I', 'T', 'I', 'N', 'G']

inductive SimulatorState
  | START
  | RESULTS
  | EXIT
  | ERROR
  | DONE
  deriving DecidableEq

/-- What the results of a worker depend on besides its files. -/
structure WorkerConfiguration where
  hostname : Hostname
  format : DurationFormat
  bytesLimit : Double

def plainConfiguration : WorkerConfiguration :=
  ⟨⟨[], by decide, PlainText.nil⟩, clockDurations, .finite (-1)⟩

/-- A command, with what a traversal of the data path finds and what the stack buffer held. -/
structure Delivery where
  requestString : Text
  entries : Option (List DirectoryEntry)
  buffer : Buffer 1024

/-- The uses of the protobuf library: building and parsing messages, and its shutdown. -/
inductive ProtobufCall
  | message (request : Request)
  | shutdownProtobufLibrary
  deriving DecidableEq

structure SimulationWorker where
  state : SimulatorState
  connector : Option ℕ
  objects : Objects DBConnector

/-- What a command did: the worker after it, its library calls, its data and its reply. -/
structure Handled where
  worker : SimulationWorker
  calls : List ProtobufCall
  data : Option (Buffer 1024)
  replyString : Text

/-- `~DBConnector`: the key value database shuts the library down, and so does the connector. -/
def DBConnector.destroy : List ProtobufCall :=
  [.shutdownProtobufLibrary, .shutdownProtobufLibrary]

namespace SimulationWorker

def construct : SimulationWorker := ⟨.START, none, .empty⟩

def initialise (config : WorkerConfiguration) (worker : SimulationWorker) : SimulationWorker where
  state := worker.state
  connector := some worker.objects.constructed
  objects := worker.objects.construct (.construct config.bytesLimit)

/-- What `connector->run()` and `state = RESULTS` leave, given the connector after its run. -/
def finishRun (worker : SimulationWorker) (identity : ℕ) (measured : DBConnector) :
    SimulationWorker where
  state := .RESULTS
  connector := worker.connector
  objects := worker.objects.assign identity measured

/-- `delete connector`; the pointer stays as it is. -/
def release (worker : SimulationWorker) (identity : ℕ) : SimulationWorker where
  state := worker.state
  connector := worker.connector
  objects := worker.objects.delete identity

/-- The body of the loop; `none` is undefined behaviour. -/
def handle (config : WorkerConfiguration) (delivery : Delivery) (worker : SimulationWorker) :
    Option Handled :=
  if delivery.requestString = INIT then
    some ⟨worker.initialise config, [], none, INITDONE⟩
  else if delivery.requestString = GO then do
    let (identity, connector) ← worker.objects.pointee worker.connector
    let (measured, requests) := connector.run delivery.entries
    some ⟨worker.finishRun identity measured, requests.map .message, none, RESULTSREADY⟩
  else if delivery.requestString = GETRESULTS then do
    let (identity, connector) ← worker.objects.pointee worker.connector
    let frame ← resultsFrame (connector.getResults config.format config.hostname) delivery.buffer
    some ⟨worker.release identity, DBConnector.destroy, some frame, DONERESULTS⟩
  else if delivery.requestString = RESTART then
    some ⟨{ worker with state := .START }, [], none, RESTARTING⟩
  else if delivery.requestString = EXIT then
    some ⟨{ worker with state := .EXIT }, [], none, EXITING⟩
  else
    some ⟨worker, [], none, []⟩

def listens (worker : SimulationWorker) : Bool :=
  worker.state ≠ .EXIT && worker.state ≠ .ERROR

/-- The loop, over the commands that are delivered while it lasts. -/
def run (config : WorkerConfiguration) (worker : SimulationWorker) :
    List Delivery → Option (List Handled)
  | [] => some []
  | delivery :: later =>
      if worker.listens then do
        let handled ← worker.handle config delivery
        let others ← handled.worker.run config later
        some (handled :: others)
      else some []

theorem run_cons {config : WorkerConfiguration} {worker after : SimulationWorker}
    {delivery : Delivery} {calls : List ProtobufCall} {data : Option (Buffer 1024)}
    {replyString : Text}
    (handledEq : worker.handle config delivery = some ⟨after, calls, data, replyString⟩)
    (listening : worker.listens = true) (later : List Delivery) :
    worker.run config (delivery :: later) =
      (after.run config later).map (⟨after, calls, data, replyString⟩ :: ·) := by
  simp only [run, listening, if_true, handledEq, Option.bind_eq_bind, Option.bind_some]
  cases after.run config later <;> rfl

section Commands

variable (config : WorkerConfiguration) (worker : SimulationWorker)
  (entries : Option (List DirectoryEntry)) (buffer : Buffer 1024)

theorem handle_INIT :
    worker.handle config ⟨INIT, entries, buffer⟩ =
      some ⟨worker.initialise config, [], none, INITDONE⟩ :=
  rfl

theorem handle_RESTART :
    worker.handle config ⟨RESTART, entries, buffer⟩ =
      some ⟨{ worker with state := .START }, [], none, RESTARTING⟩ :=
  rfl

theorem handle_EXIT :
    worker.handle config ⟨EXIT, entries, buffer⟩ =
      some ⟨{ worker with state := .EXIT }, [], none, EXITING⟩ :=
  rfl

theorem handle_unknown {requestString : Text}
    (unknown : requestString ∉ [INIT, GO, GETRESULTS, RESTART, EXIT]) :
    worker.handle config ⟨requestString, entries, buffer⟩ = some ⟨worker, [], none, []⟩ := by
  simp only [List.mem_cons, List.not_mem_nil, or_false, not_or] at unknown
  simp [handle, unknown]

variable {worker}

/-- Without a connector, GO and GETRESULTS have no defined behaviour. -/
theorem handle_of_absent {requestString : Text}
    (needs : requestString = GO ∨ requestString = GETRESULTS)
    (absent : worker.objects.pointee worker.connector = none) :
    worker.handle config ⟨requestString, entries, buffer⟩ = none := by
  rcases needs with rfl | rfl
  · change (do let (_, _) ← worker.objects.pointee worker.connector; _) = none
    rw [absent]
    rfl
  · change (do let (_, _) ← worker.objects.pointee worker.connector; _) = none
    rw [absent]
    rfl

variable {identity : ℕ} {connector : DBConnector}

theorem handle_GO (present : worker.objects.pointee worker.connector = some (identity, connector)) :
    worker.handle config ⟨GO, entries, buffer⟩ =
      some ⟨worker.finishRun identity (connector.run entries).1,
        (connector.run entries).2.map .message, none, RESULTSREADY⟩ := by
  change (do let (_, _) ← worker.objects.pointee worker.connector; _) = _
  rw [present]
  rfl

theorem handle_GETRESULTS
    (present : worker.objects.pointee worker.connector = some (identity, connector)) :
    ∃ frame, resultsFrame (connector.getResults config.format config.hostname) buffer = some frame ∧
      worker.handle config ⟨GETRESULTS, entries, buffer⟩ =
        some ⟨worker.release identity, DBConnector.destroy, some frame, DONERESULTS⟩ := by
  rcases resultsFrame_holds config.format config.hostname connector buffer with
    ⟨_, frame, _, frameEq, _⟩
  refine ⟨frame, frameEq, ?_⟩
  change (do let (_, _) ← worker.objects.pointee worker.connector; _) = _
  rw [present]
  change (resultsFrame (connector.getResults config.format config.hostname) buffer >>= _) = _
  rw [frameEq]
  rfl

theorem pointee_initialise :
    (worker.initialise config).objects.pointee (worker.initialise config).connector =
      some (worker.objects.constructed, .construct config.bytesLimit) :=
  worker.objects.pointee_construct _

theorem pointee_finishRun
    (present : worker.objects.pointee worker.connector = some (identity, connector))
    (measured : DBConnector) :
    (worker.finishRun identity measured).objects.pointee
      (worker.finishRun identity measured).connector = some (identity, measured) :=
  Objects.pointee_assign present measured

theorem pointee_release
    (present : worker.objects.pointee worker.connector = some (identity, connector)) :
    (worker.release identity).objects.pointee (worker.release identity).connector = none := by
  rcases Objects.pointee_eq_some_iff.mp present with ⟨pointerEq, _⟩
  simp [release, pointerEq]

end Commands

end SimulationWorker

end KeyValueClusterPerf
