import KeyValueClusterPerf.Cluster.Basic

/-!
# The scripts of a session

What the controller does with one worker, and what that worker does, are two fixed
sequences of steps. A session is given by how far each of them has come: the contents of
the queues between them follow from the two positions.

The positions are tied to each other by causality alone. Nothing is received before it has
been sent, and the data is sent only while the controller is connected for it. The facts
below about these finitely many pairs of positions are decided by evaluation.
-/

namespace KeyValueClusterPerf

open Texts

inductive ControllerLabel
  | connect
  | send (command : Text)
  | getReply (command : Text)
  | openData
  | fetchData
  deriving DecidableEq

inductive WorkerLabel
  | bind
  | receive (requestString : Text)
  | handle (requestString : Text)
  | bindData
  | sendData
  | reply (replyString : Text)
  deriving DecidableEq

def controllerScript : List ControllerLabel :=
  [.connect, .send INIT, .getReply INITDONE, .send GO, .getReply RESULTSREADY, .send GETRESULTS,
    .openData, .fetchData, .getReply DONERESULTS, .send EXIT, .getReply EXITING]

def workerScript : List WorkerLabel :=
  [.bind, .receive INIT, .handle INIT, .reply INITDONE, .receive GO, .handle GO,
    .reply RESULTSREADY, .receive GETRESULTS, .handle GETRESULTS, .bindData, .sendData,
    .reply DONERESULTS, .receive EXIT, .handle EXIT, .reply EXITING]

def commands : List Text := [INIT, GO, GETRESULTS, EXIT]

def ControllerLabel.sent? : ControllerLabel → Option Text
  | .send command => some command
  | _ => none

def ControllerLabel.received? : ControllerLabel → Option Text
  | .getReply command => some command
  | _ => none

def WorkerLabel.received? : WorkerLabel → Option Text
  | .receive requestString => some requestString
  | _ => none

def WorkerLabel.handled? : WorkerLabel → Option Text
  | .handle requestString => some requestString
  | _ => none

def WorkerLabel.replied? : WorkerLabel → Option Text
  | .reply replyString => some replyString
  | _ => none

/-- The wires of a session; `opened` and `frame` describe the one at the data address. -/
structure SessionWires where
  command : PairWire
  opened : Bool
  frame : Bool
  deriving DecidableEq

namespace ControllerLabel

/-- What a step of the controller does to the wires. -/
def Effect (label : ControllerLabel) (before after : SessionWires) : Prop :=
  match label with
  | .connect => after = { before with command := { before.command with connected := true } }
  | .send command =>
      after = { before with command := { before.command with
        toBound := before.command.toBound ++ [command] } }
  | .getReply command =>
      before = { after with command := { after.command with
        toConnector := command :: after.command.toConnector } }
  | .openData => before.opened = false ∧ after = { before with opened := true }
  | .fetchData =>
      before.opened = true ∧ before.frame = true ∧
        after = { before with opened := false, frame := false }

/-- The controller has to wait before the step. -/
def Blocked (label : ControllerLabel) (wires : SessionWires) : Prop :=
  match label with
  | .getReply _ => wires.command.toConnector = []
  | .fetchData => wires.opened = true ∧ wires.frame = false
  | _ => False

instance (label : ControllerLabel) (before after : SessionWires) :
    Decidable (label.Effect before after) :=
  match label with
  | .connect => inferInstanceAs (Decidable (after = _))
  | .send _ => inferInstanceAs (Decidable (after = _))
  | .getReply _ => inferInstanceAs (Decidable (before = _))
  | .openData => inferInstanceAs (Decidable (_ ∧ _))
  | .fetchData => inferInstanceAs (Decidable (_ ∧ _))

instance (label : ControllerLabel) (wires : SessionWires) : Decidable (label.Blocked wires) :=
  match label with
  | .connect => inferInstanceAs (Decidable False)
  | .send _ => inferInstanceAs (Decidable False)
  | .getReply _ => inferInstanceAs (Decidable (wires.command.toConnector = []))
  | .openData => inferInstanceAs (Decidable False)
  | .fetchData => inferInstanceAs (Decidable (_ ∧ _))

end ControllerLabel

namespace WorkerLabel

/-- What a step of a worker does to the wires. -/
def Effect (label : WorkerLabel) (before after : SessionWires) : Prop :=
  match label with
  | .receive requestString =>
      before = { after with command := { after.command with
        toBound := requestString :: after.command.toBound } }
  | .sendData =>
      before.opened = true ∧ before.frame = false ∧ after = { before with frame := true }
  | .reply replyString =>
      before.command.connected = true ∧ after = { before with command := { before.command with
        toConnector := before.command.toConnector ++ [replyString] } }
  | _ => after = before

/-- The worker has to wait before the step. -/
def Blocked (label : WorkerLabel) (wires : SessionWires) : Prop :=
  match label with
  | .receive _ => wires.command.toBound = []
  | .sendData => wires.opened = false
  | _ => False

instance (label : WorkerLabel) (before after : SessionWires) :
    Decidable (label.Effect before after) :=
  match label with
  | .bind => inferInstanceAs (Decidable (after = before))
  | .receive _ => inferInstanceAs (Decidable (before = _))
  | .handle _ => inferInstanceAs (Decidable (after = before))
  | .bindData => inferInstanceAs (Decidable (after = before))
  | .sendData => inferInstanceAs (Decidable (_ ∧ _))
  | .reply _ => inferInstanceAs (Decidable (_ ∧ _))

instance (label : WorkerLabel) (wires : SessionWires) : Decidable (label.Blocked wires) :=
  match label with
  | .bind => inferInstanceAs (Decidable False)
  | .receive _ => inferInstanceAs (Decidable (wires.command.toBound = []))
  | .handle _ => inferInstanceAs (Decidable False)
  | .bindData => inferInstanceAs (Decidable False)
  | .sendData => inferInstanceAs (Decidable (wires.opened = false))
  | .reply _ => inferInstanceAs (Decidable False)

end WorkerLabel

theorem handled_workerScript : workerScript.filterMap WorkerLabel.handled? = commands := by
  decide

namespace Session

section Positions

variable (controller worker : ℕ)

def opened : Bool := .openData ∈ controllerScript.take controller
def fetched : Bool := .fetchData ∈ controllerScript.take controller
def sent : List Text := (controllerScript.take controller).filterMap ControllerLabel.sent?
def received : List Text := (controllerScript.take controller).filterMap ControllerLabel.received?

def sentData : Bool := .sendData ∈ workerScript.take worker
def requested : List Text := (workerScript.take worker).filterMap WorkerLabel.received?
def replied : List Text := (workerScript.take worker).filterMap WorkerLabel.replied?

/-- What is underway between the two positions. -/
def wires : SessionWires where
  command := {
    connected := .connect ∈ controllerScript.take controller
    toBound := (sent controller).drop (requested worker).length
    toConnector := (replied worker).drop (received controller).length }
  opened := opened controller && !fetched controller
  frame := sentData worker && !fetched controller

/-- Causality between the position of the controller and that of the worker. -/
def Causal : Prop :=
  controller ≤ controllerScript.length ∧ worker ≤ workerScript.length ∧
    (requested worker).length ≤ (sent controller).length ∧
    (received controller).length ≤ (replied worker).length ∧
    (sentData worker = true → opened controller = true) ∧
    (fetched controller = true → sentData worker = true)

instance : Decidable (Causal controller worker) :=
  inferInstanceAs (Decidable (_ ∧ _))

end Positions

variable {controller worker : ℕ}

/-- What holds of the finitely many causal pairs of positions can be checked one by one. -/
theorem of_causal {holds : ℕ → ℕ → Prop} (causal : Causal controller worker)
    (checked : ∀ controller ≤ 11, ∀ worker ≤ 15,
      Causal controller worker → holds controller worker) : holds controller worker :=
  checked controller causal.1 worker causal.2.1 causal

theorem causal_start : Causal 0 0 := by
  decide

/-- Before its end a session is not blocked: one of the parties can take its next step. -/
theorem causal_progress (causal : Causal controller worker) :
    controller < 11 → Causal (controller + 1) worker ∨ Causal controller (worker + 1) := by
  apply @of_causal _ _ (fun controller worker => controller < 11 →
    Causal (controller + 1) worker ∨ Causal controller (worker + 1)) causal
  decide +kernel

theorem worker_finished (causal : Causal 11 worker) : worker = 15 := by
  have finished := @of_causal 11 worker (fun controller worker => controller = 11 → worker = 15)
    causal (by decide +kernel)
  exact finished rfl

/-- The next step of the controller has its effect, or the controller has to wait for it. -/
theorem controller_effect (causal : Causal controller worker) :
    ∀ label ∈ controllerScript[controller]?,
      (Causal (controller + 1) worker ∧
        label.Effect (wires controller worker) (wires (controller + 1) worker)) ∨
      (¬Causal (controller + 1) worker ∧ label.Blocked (wires controller worker)) := by
  apply @of_causal _ _ (fun controller worker => ∀ label ∈ controllerScript[controller]?,
    (Causal (controller + 1) worker ∧
      label.Effect (wires controller worker) (wires (controller + 1) worker)) ∨
    (¬Causal (controller + 1) worker ∧ label.Blocked (wires controller worker))) causal
  decide +kernel

theorem worker_effect (causal : Causal controller worker) :
    ∀ label ∈ workerScript[worker]?,
      (Causal controller (worker + 1) ∧
        label.Effect (wires controller worker) (wires controller (worker + 1))) ∨
      (¬Causal controller (worker + 1) ∧ label.Blocked (wires controller worker)) := by
  apply @of_causal _ _ (fun controller worker => ∀ label ∈ workerScript[worker]?,
    (Causal controller (worker + 1) ∧
      label.Effect (wires controller worker) (wires controller (worker + 1))) ∨
    (¬Causal controller (worker + 1) ∧ label.Blocked (wires controller worker))) causal
  decide +kernel

theorem sent_GO_of_handled (causal : Causal controller worker)
    (handled : .handle GO ∈ workerScript.take worker) :
    .send GO ∈ controllerScript.take controller := by
  have either := @of_causal _ _ (fun controller worker =>
    (!decide (.handle GO ∈ workerScript.take worker) ||
      decide (.send GO ∈ controllerScript.take controller)) = true) causal (by decide +kernel)
  simpa [handled] using either

theorem replied_INITDONE_of_received (causal : Causal controller worker)
    (received : .getReply INITDONE ∈ controllerScript.take controller) :
    .reply INITDONE ∈ workerScript.take worker := by
  have either := @of_causal _ _ (fun controller worker =>
    (!decide (.getReply INITDONE ∈ controllerScript.take controller) ||
      decide (.reply INITDONE ∈ workerScript.take worker)) = true) causal (by decide +kernel)
  simpa [received] using either

end Session

end KeyValueClusterPerf
