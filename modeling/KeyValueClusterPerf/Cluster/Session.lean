import KeyValueClusterPerf.Cluster.Endpoint

/-!
# Every worker is in a session with the controller

From the point of view of one worker the cluster is a session: the actions that concern
this worker, the worker itself and the two wires between them. A step of the cluster is a
step of one session, or of none, and leaves all other sessions as they are. The addresses
have to be distinct for this, and the data sockets have to be opened in the order of the
workers.
-/

namespace KeyValueClusterPerf

open Texts LabelledRuns Session

variable {workers : ℕ}

def ControllerEvent.worker? : ControllerEvent workers → Option (Fin workers)
  | .connected worker => some worker
  | .sent worker _ => some worker
  | .received worker _ _ => some worker
  | .opened worker _ => some worker
  | .fetched worker _ _ => some worker
  | .merged _ _ => none

def Action.worker? : Action workers → Option (Fin workers)
  | .connect worker => some worker
  | .send worker _ => some worker
  | .getReply worker _ => some worker
  | .receiveDataFromWorker worker => some worker
  | .mergeResults => none

namespace ClusterEvent

def controllerEvent? : ClusterEvent workers → Option (ControllerEvent workers)
  | .controller event => some event
  | .worker _ _ => none

def ofController (worker : Fin workers) (event : ClusterEvent workers) :
    Option (ControllerEvent workers) :=
  event.controllerEvent?.filter (·.worker? = some worker)

def ofWorker (worker : Fin workers) : ClusterEvent workers → Option WorkerEvent
  | .controller _ => none
  | .worker other event => if other = worker then some event else none

theorem ofController_of_eq {worker : Fin workers} {event : ControllerEvent workers}
    (concerns : event.worker? = some worker) :
    (ClusterEvent.controller event).ofController worker = some event := by
  simp [ofController, controllerEvent?, concerns]

theorem ofController_of_ne {worker : Fin workers} {event : ControllerEvent workers}
    (apart : event.worker? ≠ some worker) :
    (ClusterEvent.controller event).ofController worker = none := by
  simp [ofController, controllerEvent?, apart]

end ClusterEvent

namespace ControllerLabel

def action? (worker : Fin workers) : ControllerLabel → Option (Action workers)
  | .connect => some (.connect worker)
  | .send command => some (.send worker command)
  | .getReply command => some (.getReply worker command)
  | .openData => none
  | .fetchData => some (.receiveDataFromWorker worker)

/-- The event of a step in a session that goes as it should. -/
def event (deployment : Deployment workers) (worker : Fin workers) :
    ControllerLabel → ControllerEvent workers
  | .connect => .connected worker
  | .send command => .sent worker command
  | .getReply command => .received worker command command
  | .openData => .opened worker (deployment.dataHosts worker)
  | .fetchData =>
      .fetched worker (deployment.dataHosts worker) (deployment.hosts worker).frame.bytes

/-- An event is one of a step, whatever the controller receives in it. -/
inductive Matches (deployment : Deployment workers) (worker : Fin workers) :
    ControllerLabel → ControllerEvent workers → Prop
  | connect : Matches deployment worker .connect (.connected worker)
  | send (command : Text) : Matches deployment worker (.send command) (.sent worker command)
  | getReply (command replyStr : Text) :
      Matches deployment worker (.getReply command) (.received worker command replyStr)
  | openData : Matches deployment worker .openData
      (.opened worker (deployment.dataHosts worker))
  | fetchData (message : Text) : Matches deployment worker .fetchData
      (.fetched worker (deployment.dataHosts worker) message)

variable {worker : Fin workers} {label other : ControllerLabel}

theorem eq_of_action? {action : Action workers} (completes : label.action? worker = some action)
    (otherCompletes : other.action? worker = some action) : label = other := by
  have same := completes.trans otherCompletes.symm
  cases label <;> cases other <;> simp [action?] at completes same ⊢ <;> exact same

theorem eq_openData_of_action? (silent : label.action? worker = none) : label = .openData := by
  cases label <;> simp [action?] at silent ⊢

/-- In a session that goes as it should, a reply is the expected one. -/
theorem eq_getReply_of_event {deployment : Deployment workers} {target : Fin workers}
    {command replyStr : Text}
    (received : .received target command replyStr = label.event deployment worker) :
    label = .getReply command ∧ replyStr = command := by
  cases label <;> simp [event] at received
  rw [received.2.1, received.2.2]
  exact ⟨rfl, rfl⟩

end ControllerLabel

/-- The actions of a session from a position of the controller on. -/
def remaining (worker : Fin workers) (position : ℕ) : List (Action workers) :=
  (controllerScript.drop position).filterMap (ControllerLabel.action? worker)

theorem remaining_of_label (worker : Fin workers) {position : ℕ} {label : ControllerLabel}
    (found : controllerScript[position]? = some label) :
    remaining worker position =
      (label.action? worker).toList ++ remaining worker (position + 1) := by
  rcases List.getElem?_eq_some_iff.mp found with ⟨inside, labelEq⟩
  rw [remaining, List.drop_eq_getElem_cons inside, labelEq]
  cases completes : label.action? worker with
  | none => rw [List.filterMap_cons_none completes]; rfl
  | some action => rw [List.filterMap_cons_some completes]; rfl

theorem remaining_of_openData (worker : Fin workers) {position : ℕ}
    (found : controllerScript[position]? = some .openData) :
    ∃ rest, remaining worker position = .receiveDataFromWorker worker :: rest := by
  rcases List.getElem?_eq_some_iff.mp found with ⟨inside, _⟩
  have unique : ∀ position < 11, controllerScript[position]? = some .openData → position = 6 := by
    decide
  rcases unique position inside found with rfl
  exact ⟨_, rfl⟩

/-- The first action of a session is that of its next step, or of the one after connecting. -/
theorem label_of_remaining {worker : Fin workers} {position : ℕ} {action : Action workers}
    {rest : List (Action workers)} (next : remaining worker position = action :: rest) :
    ∃ label, controllerScript[position]? = some label ∧
      (label.action? worker = some action ∧ remaining worker (position + 1) = rest ∨
        label = .openData ∧ action = .receiveDataFromWorker worker) := by
  cases found : controllerScript[position]? with
  | none =>
      have short := List.getElem?_eq_none_iff.mp found
      rw [remaining, List.drop_eq_nil_of_le short] at next
      simp at next
  | some label =>
      refine ⟨label, rfl, ?_⟩
      have split := remaining_of_label worker found
      cases completes : label.action? worker with
      | some completed =>
          rw [next, completes] at split
          rcases List.cons.inj split with ⟨actionEq, restEq⟩
          exact .inl ⟨by rw [actionEq], restEq.symm⟩
      | none =>
          have isOpen := ControllerLabel.eq_openData_of_action? completes
          subst isOpen
          rcases remaining_of_openData worker found with ⟨others, shape⟩
          rw [next] at shape
          exact .inr ⟨rfl, (List.cons.inj shape).1⟩

/-- The wires of a worker hold what its session says. -/
def CarriesWires (deployment : Deployment workers) (worker : Fin workers)
    (wires : Text → PairWire) (session : SessionWires) : Prop :=
  wires (deployment.commandHosts worker) = session.command ∧
    wires (deployment.dataHosts worker) = ⟨session.opened, [],
      if session.frame then [(deployment.hosts worker).frame.bytes] else []⟩

namespace Deployment

variable (deployment : Deployment workers) {first second : Fin workers}

theorem commandHosts_ne (distinct : first ≠ second) :
    deployment.commandHosts first ≠ deployment.commandHosts second := by
  intro same
  exact distinct (Sum.inl.inj (@deployment.distinct (.inl first) (.inl second) same))

theorem dataHosts_ne (distinct : first ≠ second) :
    deployment.dataHosts first ≠ deployment.dataHosts second := by
  intro same
  exact distinct (Sum.inr.inj (@deployment.distinct (.inr first) (.inr second) same))

theorem commandHosts_ne_dataHosts (first second : Fin workers) :
    deployment.commandHosts first ≠ deployment.dataHosts second := by
  intro same
  exact absurd (@deployment.distinct (.inl first) (.inr second) same) Sum.inl_ne_inr

end Deployment

section Wires

variable {deployment : Deployment workers} {worker : Fin workers} {wires next : Text → PairWire}
  {before after : SessionWires} {label : ControllerLabel} {event : ControllerEvent workers}

/-- A step with its effect receives what the session says, and has this effect on the wires. -/
theorem carriesWires_of_effect (carries : CarriesWires deployment worker wires before)
    (effect : label.Effect before after) (isMatch : label.Matches deployment worker event)
    (transport : Transport deployment.toControllerConfiguration wires event next) :
    event = label.event deployment worker ∧ CarriesWires deployment worker next after := by
  rcases carries with ⟨command, data⟩
  have apart := deployment.commandHosts_ne_dataHosts worker worker
  cases isMatch with
  | connect =>
      cases transport
      have sameAfter : after = _ := effect
      subst sameAfter
      simp [ControllerLabel.event, CarriesWires, command, data, apart.symm]
  | send sent =>
      cases transport
      have sameAfter : after = _ := effect
      subst sameAfter
      simp [ControllerLabel.event, CarriesWires, command, data, apart.symm]
  | getReply expected replyStr =>
      cases transport with
      | received _ arrived =>
          have sameBefore : before = _ := effect
          subst sameBefore
          rw [command, List.cons.injEq] at arrived
          rcases arrived with ⟨rfl, rfl⟩
          simp [ControllerLabel.event, CarriesWires, command, data, apart.symm]
  | openData =>
      cases transport
      rcases effect with ⟨_, rfl⟩
      simp [ControllerLabel.event, CarriesWires, command, data, apart]
  | fetchData message =>
      cases transport with
      | fetched _ arrived =>
          rcases effect with ⟨_, frame, rfl⟩
          rw [data, frame, if_pos rfl, List.cons.injEq] at arrived
          rcases arrived with ⟨rfl, rfl⟩
          simp [ControllerLabel.event, CarriesWires, command, data, apart]

/-- The wires do not admit a step for which the controller has to wait. -/
theorem not_transport_of_blocked (carries : CarriesWires deployment worker wires before)
    (blocked : label.Blocked before) (isMatch : label.Matches deployment worker event) :
    ¬Transport deployment.toControllerConfiguration wires event next := by
  intro transport
  rcases carries with ⟨command, data⟩
  cases isMatch with
  | connect => exact blocked
  | send _ => exact blocked
  | getReply _ _ =>
      cases transport with
      | received _ arrived =>
          have empty : before.command.toConnector = [] := blocked
          rw [command, empty] at arrived
          simp at arrived
  | openData => exact blocked
  | fetchData _ =>
      cases transport with
      | fetched _ arrived =>
          rcases blocked with ⟨_, frame⟩
          rw [data, frame] at arrived
          simp at arrived

theorem exists_transport_of_effect (carries : CarriesWires deployment worker wires before)
    (effect : label.Effect before after) :
    ∃ next, Transport deployment.toControllerConfiguration wires (label.event deployment worker)
      next := by
  rcases carries with ⟨command, data⟩
  cases label with
  | connect => exact ⟨_, .connected worker⟩
  | send sent => exact ⟨_, .sent worker sent⟩
  | getReply expected =>
      have sameBefore : before = _ := effect
      subst sameBefore
      exact ⟨_, .received expected (by rw [command])⟩
  | openData => exact ⟨_, .opened worker _⟩
  | fetchData =>
      rcases effect with ⟨_, frame, _⟩
      exact ⟨_, .fetched worker (by rw [data, frame, if_pos rfl])⟩

/-- A step of one session leaves the wires of the others as they are. -/
theorem carriesWires_of_ne {other : Fin workers} (distinct : other ≠ worker)
    (carries : CarriesWires deployment other wires before)
    (isMatch : label.Matches deployment worker event)
    (transport : Transport deployment.toControllerConfiguration wires event next) :
    CarriesWires deployment other next before := by
  rcases carries with ⟨command, data⟩
  have commandApart := deployment.commandHosts_ne distinct
  have dataApart := deployment.dataHosts_ne distinct
  have firstApart := deployment.commandHosts_ne_dataHosts other worker
  have secondApart := deployment.commandHosts_ne_dataHosts worker other
  cases isMatch <;> cases transport <;>
    simp [CarriesWires, command, data, commandApart, dataApart, firstApart, secondApart.symm]

end Wires

end KeyValueClusterPerf
