import KeyValueClusterPerf.SimulationWorker.Basic

/-!
# The lifetime of the connector

INIT overwrites the pointer without a look at the object behind it, GO and GETRESULTS
dereference it without knowing whether there is one, and GETRESULTS deletes the object
and leaves the pointer as it is. So the order of the commands alone decides whether a
connector is used before its construction or after its deletion, and whether one is lost.

The invariant between two commands is that no connector is alive but the one behind the
pointer; whether that one is alive depends on the last command that touched it.
-/

namespace KeyValueClusterPerf

open Texts Lifetimes

/-- The commands up to the first EXIT that touch the connector. -/
def connectorCommands (requests : List Text) : List Text :=
  (requests.takeWhile (· ≠ EXIT)).filter (· ∈ [INIT, GO, GETRESULTS])

/-- What follows GETRESULTS is INIT, and INIT follows nothing else. -/
def FollowsInCycle (earlier later : Text) : Prop :=
  later = INIT ↔ earlier = GETRESULTS

instance (earlier later : Text) : Decidable (FollowsInCycle earlier later) :=
  inferInstanceAs (Decidable (_ ↔ _))

namespace SimulationWorker

variable {config : WorkerConfiguration} {worker : SimulationWorker}

/-- No connector is alive but the one behind the pointer. -/
def OnlyConnector (worker : SimulationWorker) : Prop :=
  worker.objects.OnlyPointee worker.connector

def pointee (worker : SimulationWorker) : Option (ℕ × DBConnector) :=
  worker.objects.pointee worker.connector

/--
No command uses or deletes a connector that is not alive, and after each command at most
one connector is alive, the one behind the pointer.
-/
def LifetimesRespected (config : WorkerConfiguration) (worker : SimulationWorker)
    (deliveries : List Delivery) : Prop :=
  ∃ handled, worker.run config deliveries = some handled ∧
    ∀ done ∈ handled, done.worker.OnlyConnector

theorem lifetimesRespected_of_not_listens (deaf : worker.listens = false)
    (deliveries : List Delivery) : LifetimesRespected config worker deliveries := by
  refine ⟨[], ?_, by simp⟩
  cases deliveries with
  | nil => rfl
  | cons delivery later => simp [run, deaf]

theorem lifetimesRespected_cons (listening : worker.listens = true) (delivery : Delivery)
    (later : List Delivery) :
    LifetimesRespected config worker (delivery :: later) ↔
      ∃ done, worker.handle config delivery = some done ∧
        done.worker.OnlyConnector ∧ LifetimesRespected config done.worker later := by
  simp only [LifetimesRespected, run, listening, if_true, Option.bind_eq_bind,
    Option.bind_eq_some_iff, Option.some.injEq]
  constructor
  · rintro ⟨_, ⟨done, handledEq, others, othersEq, rfl⟩, only⟩
    rcases List.forall_mem_cons.mp only with ⟨onlyNow, onlyLater⟩
    exact ⟨done, handledEq, onlyNow, others, othersEq, onlyLater⟩
  · rintro ⟨done, handledEq, onlyNow, others, othersEq, onlyLater⟩
    refine ⟨done :: others, ⟨done, handledEq, others, othersEq, rfl⟩, ?_⟩
    exact List.forall_mem_cons.mpr ⟨onlyNow, onlyLater⟩

/-- Commands that do not touch the connector leave pointer and objects as they are. -/
theorem handle_untouched {delivery : Delivery}
    (untouched : delivery.requestString ∉ [INIT, GO, GETRESULTS])
    (goesOn : delivery.requestString ≠ EXIT) (listening : worker.listens = true) :
    ∃ done, worker.handle config delivery = some done ∧ done.worker.listens = true ∧
      done.worker.connector = worker.connector ∧ done.worker.objects = worker.objects := by
  rcases delivery with ⟨requestString, entries, buffer⟩
  by_cases restarts : requestString = RESTART
  · subst restarts
    exact ⟨_, worker.handle_RESTART config entries buffer, rfl, rfl, rfl⟩
  · have unknown : requestString ∉ [INIT, GO, GETRESULTS, RESTART, EXIT] := by
      simp only [List.mem_cons, List.not_mem_nil, or_false, not_or] at untouched ⊢
      exact ⟨untouched.1, untouched.2.1, untouched.2.2, restarts, goesOn⟩
    exact ⟨_, worker.handle_unknown config entries buffer unknown, listening, rfl, rfl⟩

theorem connectorCommands_cons_of_mem {request : Text} (touches : request ∈ [INIT, GO, GETRESULTS])
    (requests : List Text) :
    connectorCommands (request :: requests) = request :: connectorCommands requests := by
  have goesOn : request ≠ EXIT := by
    rintro rfl
    exact absurd touches (by decide)
  rw [connectorCommands, List.takeWhile_cons_of_pos (by simpa using goesOn),
    List.filter_cons_of_pos (by simpa only [decide_eq_true_eq] using touches)]
  rfl

theorem connectorCommands_cons_of_not_mem {request : Text}
    (untouched : request ∉ [INIT, GO, GETRESULTS]) (goesOn : request ≠ EXIT)
    (requests : List Text) :
    connectorCommands (request :: requests) = connectorCommands requests := by
  rw [connectorCommands, List.takeWhile_cons_of_pos (by simpa using goesOn),
    List.filter_cons_of_neg (by simpa only [decide_eq_true_eq] using untouched)]
  rfl

@[simp]
theorem connectorCommands_EXIT (requests : List Text) :
    connectorCommands (EXIT :: requests) = [] := by
  simp [connectorCommands]

section Invariant

variable {deliveries : List Delivery} {entries : Option (List DirectoryEntry)}
  {buffer : Buffer 1024}

/-- INIT keeps the invariant exactly if there is no connector yet. -/
theorem onlyConnector_initialise_iff (only : worker.OnlyConnector) :
    (worker.initialise config).OnlyConnector ↔ worker.pointee = none :=
  Objects.onlyPointee_construct_iff only _

theorem OnlyConnector.finishRun (only : worker.OnlyConnector) (identity : ℕ)
    (measured : DBConnector) : (worker.finishRun identity measured).OnlyConnector :=
  Objects.OnlyPointee.assign only identity measured

theorem OnlyConnector.release (only : worker.OnlyConnector) (identity : ℕ) :
    (worker.release identity).OnlyConnector :=
  Objects.OnlyPointee.delete only identity

theorem lifetimesRespected_INIT_iff (listening : worker.listens = true)
    (only : worker.OnlyConnector) :
    LifetimesRespected config worker (⟨INIT, entries, buffer⟩ :: deliveries) ↔
      worker.pointee = none ∧ LifetimesRespected config (worker.initialise config) deliveries := by
  simp only [lifetimesRespected_cons listening, handle_INIT, Option.some.injEq, exists_eq_left',
    onlyConnector_initialise_iff only]

theorem lifetimesRespected_GO_iff (listening : worker.listens = true)
    (only : worker.OnlyConnector) :
    LifetimesRespected config worker (⟨GO, entries, buffer⟩ :: deliveries) ↔
      ∃ identity connector, worker.pointee = some (identity, connector) ∧
        LifetimesRespected config (worker.finishRun identity (connector.run entries).1)
          deliveries := by
  rw [lifetimesRespected_cons listening]
  constructor
  · rintro ⟨done, handledEq, _, respected⟩
    cases present : worker.objects.pointee worker.connector with
    | none => simp [handle_of_absent config entries buffer (.inl rfl) present] at handledEq
    | some found =>
        rw [handle_GO config entries buffer present, Option.some.injEq] at handledEq
        subst handledEq
        exact ⟨found.1, found.2, present, respected⟩
  · rintro ⟨identity, connector, present, respected⟩
    exact ⟨_, handle_GO config entries buffer present, only.finishRun _ _, respected⟩

theorem lifetimesRespected_GETRESULTS_iff (listening : worker.listens = true)
    (only : worker.OnlyConnector) :
    LifetimesRespected config worker (⟨GETRESULTS, entries, buffer⟩ :: deliveries) ↔
      ∃ identity connector, worker.pointee = some (identity, connector) ∧
        LifetimesRespected config (worker.release identity) deliveries := by
  rw [lifetimesRespected_cons listening]
  constructor
  · rintro ⟨done, handledEq, _, respected⟩
    cases present : worker.objects.pointee worker.connector with
    | none => simp [handle_of_absent config entries buffer (.inr rfl) present] at handledEq
    | some found =>
        rcases handle_GETRESULTS config entries buffer present with ⟨frame, _, reported⟩
        rw [reported, Option.some.injEq] at handledEq
        subst handledEq
        exact ⟨found.1, found.2, present, respected⟩
  · rintro ⟨identity, connector, present, respected⟩
    rcases handle_GETRESULTS config entries buffer present with ⟨frame, _, reported⟩
    exact ⟨_, reported, only.release _, respected⟩

theorem followsInCycle_INIT_iff {previous : Text} :
    FollowsInCycle previous INIT ↔ previous = GETRESULTS := by
  simp [FollowsInCycle]

theorem followsInCycle_iff_of_ne {previous request : Text} (other : request ≠ INIT) :
    FollowsInCycle previous request ↔ previous ≠ GETRESULTS := by
  simp [FollowsInCycle, other]

/--
From any state that satisfies the invariant, where `previous` tells whether the connector
is alive, the commands respect the lifetimes exactly if they continue the cycle.
-/
theorem lifetimesRespected_iff_of_onlyConnector {previous : Text}
    (listening : worker.listens = true) (only : worker.OnlyConnector)
    (agrees : worker.pointee = none ↔ previous = GETRESULTS) :
    LifetimesRespected config worker deliveries ↔
      (previous :: connectorCommands (deliveries.map (·.requestString))).IsChain
        FollowsInCycle := by
  induction deliveries generalizing worker previous with
  | nil => simp [LifetimesRespected, run, connectorCommands]
  | cons delivery later ih =>
      rw [List.map_cons]
      rcases delivery with ⟨requestString, entries, buffer⟩
      by_cases touches : requestString ∈ [INIT, GO, GETRESULTS]
      · rw [connectorCommands_cons_of_mem touches, List.isChain_cons_cons]
        simp only [List.mem_cons, List.not_mem_nil, or_false] at touches
        rcases touches with rfl | rfl | rfl
        · -- INIT: there must be no connector, and then there is one.
          rw [lifetimesRespected_INIT_iff listening only, followsInCycle_INIT_iff, agrees]
          apply and_congr_right
          intro absent
          apply @ih (worker.initialise config) INIT listening
          · exact (onlyConnector_initialise_iff only).mpr (agrees.mpr absent)
          · simp [pointee, pointee_initialise, INIT, GETRESULTS]
        · -- GO: there must be a connector, and it stays.
          rw [lifetimesRespected_GO_iff listening only, followsInCycle_iff_of_ne (by decide),
            ne_eq, ← agrees]
          cases present : worker.pointee with
          | none => simp
          | some found =>
              simp only [Option.some.injEq, reduceCtorEq, not_false_eq_true, true_and]
              have continues := @ih (worker.finishRun found.1 (found.2.run entries).1) GO rfl
                (only.finishRun _ _)
                (by simp [pointee, pointee_finishRun present, GO, GETRESULTS])
              rw [← continues]
              simp [Prod.ext_iff]
        · -- GETRESULTS: there must be a connector, and then there is none.
          rw [lifetimesRespected_GETRESULTS_iff listening only,
            followsInCycle_iff_of_ne (by decide), ne_eq, ← agrees]
          cases present : worker.pointee with
          | none => simp
          | some found =>
              simp only [Option.some.injEq, reduceCtorEq, not_false_eq_true, true_and]
              have continues := @ih (worker.release found.1) GETRESULTS listening
                (only.release _) (by simp [pointee, pointee_release present])
              rw [← continues]
              simp [Prod.ext_iff]
      · rw [lifetimesRespected_cons listening]
        by_cases exits : requestString = EXIT
        · subst exits
          simp only [handle_EXIT, Option.some.injEq, exists_eq_left', connectorCommands_EXIT,
            List.isChain_singleton, iff_true]
          exact ⟨only, lifetimesRespected_of_not_listens rfl later⟩
        · rcases @handle_untouched config worker ⟨requestString, entries, buffer⟩ touches exits
            listening with ⟨done, handledEq, stillListening, connectorEq, objectsEq⟩
          rw [OnlyConnector, ← connectorEq, ← objectsEq] at only
          rw [pointee, ← connectorEq, ← objectsEq] at agrees
          simp only [handledEq, Option.some.injEq, exists_eq_left',
            connectorCommands_cons_of_not_mem touches exits]
          rw [ih stillListening only agrees]
          exact and_iff_right only

end Invariant

theorem onlyConnector_construct : construct.OnlyConnector :=
  Objects.onlyPointee_empty none

theorem pointee_construct : construct.pointee = none := by
  rfl

/--
A fresh worker respects the lifetimes exactly if, up to the first EXIT, the commands that
touch the connector form cycles of INIT, any number of GOs, and GETRESULTS.
-/
theorem lifetimesRespected_iff (config : WorkerConfiguration) (deliveries : List Delivery) :
    LifetimesRespected config construct deliveries ↔
      (GETRESULTS :: connectorCommands (deliveries.map (·.requestString))).IsChain
        FollowsInCycle :=
  lifetimesRespected_iff_of_onlyConnector rfl onlyConnector_construct
    (iff_of_true pointee_construct rfl)

def plainDelivery (requestString : Text) : Delivery :=
  ⟨requestString, none, .zero 1024⟩

/--
A second GETRESULTS uses the deleted connector, and an INIT after a RESTART loses the
connector of the cycle before.
-/
theorem lifetimes_violated :
    ¬LifetimesRespected plainConfiguration construct
      ([INIT, GO, GETRESULTS, GETRESULTS].map plainDelivery) ∧
    ¬LifetimesRespected plainConfiguration construct
      ([INIT, RESTART, INIT].map plainDelivery) := by
  have general (deliveries : List Delivery) := @lifetimesRespected_iff_of_onlyConnector
    plainConfiguration construct deliveries GETRESULTS rfl onlyConnector_construct
      (iff_of_true pointee_construct rfl)
  constructor
  · intro respected
    have chain := (general _).mp respected
    simp only [List.map_cons, List.map_nil, plainDelivery] at chain
    exact absurd chain (by decide)
  · intro respected
    have chain := (general _).mp respected
    simp only [List.map_cons, List.map_nil, plainDelivery] at chain
    exact absurd chain (by decide)

end SimulationWorker

end KeyValueClusterPerf
