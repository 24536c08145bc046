import KeyValueClusterPerf.SimulationController.Basic

/-!
# The phases of the controller and the replies between them

The comments in `run` expect every worker to answer a command before the next phase starts,
and `getAllNodes` compares each text it receives with the expected reply. It logs a
difference and goes on. So the controller always waits for as many texts as there are
workers, but it starts the next phase whatever they are.

The phases are therefore separated by the expected replies exactly when all workers give
the expected replies.
-/

namespace KeyValueClusterPerf

open Texts LabelledRuns

/-- The reply that every worker should have given before the controller goes this far. -/
def ControllerEvent.expects {workers : ℕ} : ControllerEvent workers → Option Text
  | .sent _ command =>
      if command = GO then some INITDONE
      else if command = GETRESULTS then some RESULTSREADY
      else if command = EXIT then some DONERESULTS
      else none
  | .merged _ _ => some EXITING
  | _ => none

def expectedReplies : List Text :=
  [INITDONE, RESULTSREADY, DONERESULTS, EXITING]

/-- The events that rely on replies, with the replies they rely on. -/
theorem ControllerEvent.expects_cases {workers : ℕ} {event : ControllerEvent workers} {reply : Text}
    (expects : reply ∈ event.expects) :
    (∃ worker, event = .sent worker GO ∧ reply = INITDONE) ∨
      (∃ worker, event = .sent worker GETRESULTS ∧ reply = RESULTSREADY) ∨
      (∃ worker, event = .sent worker EXIT ∧ reply = DONERESULTS) ∨
      ∃ path contents, event = .merged path contents ∧ reply = EXITING := by
  cases event with
  | sent worker command =>
      simp only [ControllerEvent.expects] at expects
      split at expects
      · rename_i goes
        exact .inl ⟨worker, by rw [goes], (Option.some.inj expects).symm⟩
      split at expects
      · rename_i requests
        exact .inr (.inl ⟨worker, by rw [requests], (Option.some.inj expects).symm⟩)
      split at expects
      · rename_i exits
        exact .inr (.inr (.inl ⟨worker, by rw [exits], (Option.some.inj expects).symm⟩))
      · simp at expects
  | merged path contents =>
      exact .inr (.inr (.inr ⟨path, contents, rfl, (Option.some.inj expects).symm⟩))
  | _ => simp [ControllerEvent.expects] at expects

theorem ControllerEvent.expects_mem {workers : ℕ} {event : ControllerEvent workers} {reply : Text}
    (expects : reply ∈ event.expects) : reply ∈ expectedReplies := by
  rcases event.expects_cases expects with
    ⟨_, _, rfl⟩ | ⟨_, _, rfl⟩ | ⟨_, _, rfl⟩ | ⟨_, _, _, rfl⟩ <;> simp [expectedReplies]

def Action.fetches {workers : ℕ} : Action workers → Bool
  | .receiveDataFromWorker _ => true
  | _ => false

namespace SimulationController

variable {workers : ℕ} {config : ControllerConfiguration workers}
  {controller : SimulationController workers} {trace : List (ControllerEvent workers)}
  {replies : Fin workers → Text → Text} {simulationIteration : Int32}

/-- Before each phase the controller has received the expected reply from every worker. -/
def Barrier (trace : List (ControllerEvent workers)) : Prop :=
  ∀ front event back, trace = front ++ event :: back →
    ∀ reply ∈ event.expects, ∀ worker, .received worker reply reply ∈ front

/-- What the sockets yield for each worker where the controller expects a given reply. -/
def Feeds (replies : Fin workers → Text → Text) (trace : List (ControllerEvent workers)) : Prop :=
  ∀ worker command replyStr, .received worker command replyStr ∈ trace →
    replyStr = replies worker command

theorem mem_getAllNodes (worker : Fin workers) (command : Text) :
    .getReply worker command ∈ getAllNodes command :=
  List.mem_map_of_mem (List.mem_finRange worker)

theorem subset_of_append_eq {α : Type} {early late front back : List α} {action : α}
    (split : early ++ late = front ++ action :: back) (absent : action ∉ early) :
    early ⊆ front := by
  rcases List.append_eq_append_iff.mp split with ⟨between, frontEq, _⟩ | ⟨between, earlyEq, lateEq⟩
  · rw [frontEq]
    exact List.subset_append_left early between
  · cases between with
    | nil =>
        rw [earlyEq, List.append_nil]
        exact List.Subset.refl front
    | cons first others =>
        rw [List.cons_append, List.cons.injEq] at lateEq
        rw [earlyEq, lateEq.1] at absent
        exact absurd (List.mem_append_right front List.mem_cons_self) absent

/-- An action that occurs only behind the replies of a phase is preceded by all of them. -/
theorem getReply_mem_of_parts (early late : List (Action workers))
    {front back : List (Action workers)} {action : Action workers} {reply : Text}
    (parts : run = early ++ getAllNodes reply ++ late) (program : run = front ++ action :: back)
    (absent : action ∉ early ++ getAllNodes reply) (worker : Fin workers) :
    .getReply worker reply ∈ front := by
  have before := subset_of_append_eq (parts.symm.trans program) absent
  exact before (List.mem_append_right early (mem_getAllNodes worker reply))

/-- In the program, all expected replies of a phase precede the actions that rely on them. -/
theorem getReply_mem_front {event : ControllerEvent workers} {action : Action workers}
    {front back : List (Action workers)} {reply : Text}
    (program : run = front ++ action :: back) (completes : event.action? = some action)
    (expects : reply ∈ event.expects) (worker : Fin workers) :
    .getReply worker reply ∈ front := by
  rcases event.expects_cases expects with
    ⟨target, rfl, rfl⟩ | ⟨target, rfl, rfl⟩ | ⟨target, rfl, rfl⟩ | ⟨_, _, rfl, rfl⟩
  · rcases Option.some.inj completes with rfl
    apply getReply_mem_of_parts ((List.finRange workers).map .connect ++ sendAllNodes INIT)
      (measurement ++ collection ++ shutdown ++ [.mergeResults])
      (by simp [run, initialisation]) program
    simp [sendAllNodes, getAllNodes, INIT, GO]
  · rcases Option.some.inj completes with rfl
    apply getReply_mem_of_parts (initialisation ++ sendAllNodes GO)
      (collection ++ shutdown ++ [.mergeResults]) (by simp [run, measurement]) program
    simp [initialisation, sendAllNodes, getAllNodes, INIT, GO, GETRESULTS]
  · rcases Option.some.inj completes with rfl
    apply getReply_mem_of_parts
      (initialisation ++ measurement ++ (List.finRange workers).flatMap requestResults)
      (shutdown ++ [.mergeResults]) (by simp [run, collection]) program
    simp [initialisation, measurement, sendAllNodes, getAllNodes, requestResults, INIT, GO,
      GETRESULTS, EXIT]
  · rcases Option.some.inj completes with rfl
    apply getReply_mem_of_parts
      (initialisation ++ measurement ++ collection ++ sendAllNodes EXIT) [.mergeResults]
      (by simp [run, shutdown]) program
    simp [initialisation, measurement, collection, sendAllNodes, getAllNodes, requestResults]

/-- When the controller goes on, it has received some text from every worker. -/
theorem exists_received_mem_front
    (steps : Run (Step config) (start config simulationIteration) trace controller)
    {front back : List (ControllerEvent workers)} {event : ControllerEvent workers}
    (split : trace = front ++ event :: back) {reply : Text} (expects : reply ∈ event.expects)
    (worker : Fin workers) : ∃ replyStr, .received worker reply replyStr ∈ front := by
  have actions := actions_of_run steps
  cases completes : event.action? with
  | none =>
      rcases event.expects_cases expects with
        ⟨_, rfl, _⟩ | ⟨_, rfl, _⟩ | ⟨_, rfl, _⟩ | ⟨_, _, rfl, _⟩ <;>
        simp [ControllerEvent.action?] at completes
  | some action =>
      have program : run = front.filterMap ControllerEvent.action? ++
          action :: (back.filterMap ControllerEvent.action? ++ controller.program) := by
        rw [split, List.filterMap_append, List.filterMap_cons, completes] at actions
        simpa [start] using actions.symm
      have mem := getReply_mem_front program completes expects worker
      rcases List.mem_filterMap.mp mem with ⟨earlier, earlierMem, earlierCompletes⟩
      cases earlier with
      | received source command replyStr =>
          simp only [ControllerEvent.action?, Option.some.injEq, Action.getReply.injEq]
            at earlierCompletes
          rcases earlierCompletes with ⟨rfl, rfl⟩
          exact ⟨replyStr, earlierMem⟩
      | _ => simp [ControllerEvent.action?] at earlierCompletes

theorem received_mem_front
    (steps : Run (Step config) (start config simulationIteration) trace controller)
    (feeds : Feeds replies trace) {front back : List (ControllerEvent workers)}
    {event : ControllerEvent workers} (split : trace = front ++ event :: back) {reply : Text}
    (expects : reply ∈ event.expects) (worker : Fin workers) :
    .received worker reply (replies worker reply) ∈ front := by
  rcases exists_received_mem_front steps split expects worker with ⟨replyStr, received⟩
  have inTrace : ControllerEvent.received worker reply replyStr ∈ trace := by
    rw [split]
    exact List.mem_append_left _ received
  rwa [← feeds worker reply replyStr inTrace]

/-- A controller with enough data hosts can go on to its end, whatever replies it gets. -/
theorem exists_run_to_end (replies : Fin workers → Text → Text) {program : List (Action workers)}
    {controller : SimulationController workers} (remaining : controller.program = program)
    (closed : controller.dataSocket = none)
    (enough : program.countP Action.fetches ≤ controller.dataHosts.length) :
    ∃ trace next, Run (Step config) controller trace next ∧ next.program = [] ∧
      Feeds replies trace := by
  induction program generalizing controller with
  | nil => exact ⟨[], controller, Run.nil, remaining, by simp [Feeds]⟩
  | cons action rest ih =>
      -- The steps of the first action, and then those of the rest.
      suffices first : ∃ trace after, Run (Step config) controller trace after ∧
          after.program = rest ∧ after.dataSocket = none ∧
          rest.countP Action.fetches ≤ after.dataHosts.length ∧ Feeds replies trace by
        rcases first with ⟨trace, after, steps, programEq, socketEq, stillEnough, feeds⟩
        rcases ih programEq socketEq stillEnough with ⟨later, next, laterSteps, done, laterFeeds⟩
        refine ⟨trace ++ later, next, steps.append laterSteps, done, ?_⟩
        intro worker command replyStr mem
        rcases List.mem_append.mp mem with early | late
        · exact feeds worker command replyStr early
        · exact laterFeeds worker command replyStr late
      cases action with
      | connect worker =>
          exact ⟨_, _, Run.single (Step.connect remaining), rfl, closed, enough, by simp [Feeds]⟩
      | send worker command =>
          exact ⟨_, _, Run.single (Step.send remaining), rfl, closed, enough, by simp [Feeds]⟩
      | getReply worker command =>
          refine ⟨_, _, Run.single (Step.getReply (replies worker command) remaining), rfl, closed,
            enough, ?_⟩
          intro source expected replyStr mem
          simp only [List.mem_cons, ControllerEvent.received.injEq, List.not_mem_nil,
            or_false] at mem
          rcases mem with ⟨rfl, rfl, rfl⟩
          rfl
      | mergeResults =>
          exact ⟨_, _, Run.single (Step.mergeResults remaining), rfl, closed, enough,
            by simp [Feeds]⟩
      | receiveDataFromWorker worker =>
          cases front : controller.dataHosts with
          | nil => simp [front, Action.fetches] at enough
          | cons host others =>
              let connected : SimulationController workers :=
                { controller with dataSocket := some host, dataHosts := others }
              have opened : Step config controller (.opened worker host) connected :=
                Step.openData remaining closed front
              have fetched := @Step.receiveData workers config connected worker host rest []
                (fun _ => nul) (fun _ => nul) remaining rfl
              refine ⟨_, _, (Run.single opened).snoc fetched, rfl, rfl, ?_, by simp [Feeds]⟩
              rw [front, List.countP_cons_of_pos rfl, List.length_cons] at enough
              exact Nat.le_of_succ_le_succ enough

theorem countP_fetches_run : (run : List (Action workers)).countP Action.fetches = workers := by
  have fetches : Action.fetches = fun action : Action workers => action.transfer?.isSome := by
    funext action
    cases action <;> rfl
  rw [fetches, ← List.length_filterMap_eq_countP, transfers_run, List.length_finRange]

theorem exists_complete_run (config : ControllerConfiguration workers)
    (simulationIteration : Int32) (replies : Fin workers → Text → Text) :
    ∃ trace controller, Run (Step config) (start config simulationIteration) trace controller ∧
      controller.program = [] ∧ Feeds replies trace :=
  exists_run_to_end replies rfl rfl (by simp [start, countP_fetches_run])

theorem exists_action_of_expected {reply : Text} (expected : reply ∈ expectedReplies)
    (worker : Fin workers) :
    ∃ action ∈ (run : List (Action workers)), ∀ event : ControllerEvent workers,
      event.action? = some action → event.expects = some reply := by
  have completed : ∀ (command : Text) (event : ControllerEvent workers),
      event.action? = some (.send worker command) → event = .sent worker command := by
    intro command event completes
    cases event <;> simp_all [ControllerEvent.action?]
  have requested : ∀ command,
      .send worker command ∈ (sendAllNodes command : List (Action workers)) :=
    fun _ => List.mem_map_of_mem (List.mem_finRange worker)
  simp only [expectedReplies, List.mem_cons, List.not_mem_nil, or_false] at expected
  rcases expected with rfl | rfl | rfl | rfl
  · refine ⟨.send worker GO, by simp [run, measurement, requested], ?_⟩
    intro event completes
    rw [completed GO event completes]
    rfl
  · refine ⟨.send worker GETRESULTS, by simp [run, collection, requestResults], ?_⟩
    intro event completes
    rw [completed GETRESULTS event completes]
    rfl
  · refine ⟨.send worker EXIT, by simp [run, shutdown, requested], ?_⟩
    intro event completes
    rw [completed EXIT event completes]
    rfl
  · refine ⟨.mergeResults, mergeResults_mem_run, ?_⟩
    intro event completes
    cases event <;> simp_all [ControllerEvent.action?, ControllerEvent.expects]

theorem exists_event_of_action
    (steps : Run (Step config) (start config simulationIteration) trace controller)
    (done : controller.program = []) {action : Action workers} (actionMem : action ∈ run) :
    ∃ event ∈ trace, event.action? = some action := by
  have actions := actions_of_run steps
  rw [done, List.append_nil] at actions
  apply List.mem_filterMap.mp
  rw [actions]
  exact actionMem

/-- A complete run with a wrong reply breaks the barrier. -/
theorem replies_eq_of_barrier
    (steps : Run (Step config) (start config simulationIteration) trace controller)
    (done : controller.program = []) (feeds : Feeds replies trace) (barrier : Barrier trace)
    (worker : Fin workers) {reply : Text} (expected : reply ∈ expectedReplies) :
    replies worker reply = reply := by
  rcases exists_action_of_expected expected worker with ⟨action, actionMem, relies⟩
  rcases exists_event_of_action steps done actionMem with ⟨event, eventMem, completes⟩
  rcases List.append_of_mem eventMem with ⟨front, back, split⟩
  have received := barrier front event back split reply (relies event completes) worker
  have inTrace : ControllerEvent.received worker reply reply ∈ trace := by
    rw [split]
    exact List.mem_append_left _ received
  exact (feeds worker reply reply inTrace).symm

/--
In all runs with the given replies every phase waits for the expected replies exactly when
these are the replies that every worker gives.
-/
theorem barrier_iff (config : ControllerConfiguration workers) (simulationIteration : Int32)
    (replies : Fin workers → Text → Text) :
    (∀ trace controller, Run (Step config) (start config simulationIteration) trace controller →
      Feeds replies trace → Barrier trace) ↔
    ∀ worker, ∀ reply ∈ expectedReplies, replies worker reply = reply := by
  constructor
  · intro barriers worker reply expected
    rcases exists_complete_run config simulationIteration replies with
      ⟨trace, controller, steps, done, feeds⟩
    exact replies_eq_of_barrier steps done feeds (barriers trace controller steps feeds) worker
      expected
  · intro right trace controller steps feeds front event back split reply expects worker
    have received := received_mem_front steps feeds split expects worker
    rwa [right worker reply (event.expects_mem expects)] at received

def singleConfiguration : ControllerConfiguration 1 :=
  ⟨fun _ => ['c'], fun _ => ['d'], -1⟩

/-- The controller runs to its end although every text it receives is empty. -/
theorem goes_on_after_wrong_reply :
    ∃ trace controller, Run (Step singleConfiguration) (start singleConfiguration 0) trace
        controller ∧ controller.program = [] ∧ Feeds (fun _ _ => []) trace ∧ ¬Barrier trace := by
  rcases exists_complete_run singleConfiguration 0 (fun _ _ => []) with
    ⟨trace, controller, steps, done, feeds⟩
  refine ⟨trace, controller, steps, done, feeds, ?_⟩
  intro barrier
  have expected : INITDONE ∈ expectedReplies := List.mem_cons_self
  exact absurd (replies_eq_of_barrier steps done feeds barrier 0 expected) (by decide)

end SimulationController

end KeyValueClusterPerf
