import KeyValueClusterPerf.SimulationWorker.Basic

/-!
# Several cycles in one process

After RESTART a worker accepts another INIT, GO and GETRESULTS, and it answers all of them
as before. But the connector that the first GETRESULTS deletes has shut the protobuf
library down for the whole process, and the next cycle builds, serialises and parses
messages for every file it processes.

So the shutdown is respected exactly when no cycle after the first processes a file.
-/

namespace KeyValueClusterPerf

open Texts Lifetimes

/-- What a traversal in the cycle finds, and what the stack buffer holds before GETRESULTS. -/
structure Cycle where
  entries : Option (List DirectoryEntry)
  buffer : Buffer 1024

namespace Cycle

def deliveries (cycle : Cycle) : List Delivery :=
  [INIT, GO, GETRESULTS, RESTART].map (⟨·, cycle.entries, cycle.buffer⟩)

def replies : List Text :=
  [INITDONE, RESULTSREADY, DONERESULTS, RESTARTING]

def files (cycle : Cycle) : List RegularFile :=
  regularFiles (cycle.entries.getD [])

def calls (config : WorkerConfiguration) (cycle : Cycle) : List ProtobufCall :=
  ((DBConnector.construct config.bytesLimit).run cycle.entries).2.map .message ++
    DBConnector.destroy

end Cycle

/-- INIT, GO, GETRESULTS and RESTART for each of the cycles, and then EXIT. -/
def cyclesThenExit (cycles : List Cycle) : List Delivery :=
  cycles.flatMap Cycle.deliveries ++ [⟨EXIT, none, .zero 1024⟩]

/-- No message is built, serialised or parsed after the library has been shut down. -/
def NoMessageAfterShutdown (calls : List ProtobufCall) : Prop :=
  calls.Pairwise fun earlier later =>
    earlier = .shutdownProtobufLibrary → ∀ request, later ≠ .message request

variable {config : WorkerConfiguration}

theorem DBConnector.run_requests_eq_nil_iff (connector : DBConnector)
    (entries : Option (List DirectoryEntry)) :
    (connector.run entries).2 = [] ↔ regularFiles (entries.getD []) = [] := by
  cases entries with
  | none => simp [DBConnector.run, regularFiles]
  | some found =>
      simp only [DBConnector.run, loop_eq, processed, Option.getD_some]
      -- The first regular file is always processed: the limit is tested after the work.
      cases regularFiles found with
      | nil => simp [Cutoff.takeThrough]
      | cons file rest => simp [Cutoff.takeThrough, requestsFor]

theorem noMessage_of_calls_iff (cycle : Cycle) :
    (∀ call ∈ cycle.calls config, ∀ request, call ≠ .message request) ↔ cycle.files = [] := by
  rw [Cycle.files, ← DBConnector.run_requests_eq_nil_iff (.construct config.bytesLimit)]
  constructor
  · intro silent
    apply List.eq_nil_iff_forall_not_mem.mpr
    intro request sent
    exact silent (.message request) (List.mem_append_left _ (List.mem_map_of_mem sent)) request rfl
  · intro silent call mem request
    rw [Cycle.calls, silent] at mem
    simp only [List.map_nil, List.nil_append, DBConnector.destroy, List.mem_cons,
      List.not_mem_nil, or_false, or_self] at mem
    simp [mem]

/-- A sequence of cycles respects the shutdown if no cycle after the first processes a file. -/
theorem noMessageAfterShutdown_iff (cycles : List Cycle) :
    NoMessageAfterShutdown (cycles.flatMap (Cycle.calls config)) ↔
      ∀ cycle ∈ cycles.tail, cycle.files = [] := by
  cases cycles with
  | nil => simp [NoMessageAfterShutdown]
  | cons first later =>
      have split : (first :: later).flatMap (Cycle.calls config) =
          ((DBConnector.construct config.bytesLimit).run first.entries).2.map .message ++
            (DBConnector.destroy ++ later.flatMap (Cycle.calls config)) := by
        simp [Cycle.calls]
      rw [NoMessageAfterShutdown, split, List.tail_cons]
      constructor
      · intro respected cycle mem
        apply (@noMessage_of_calls_iff config cycle).mp
        intro call callMem
        have behind := (List.pairwise_append.mp (List.pairwise_append.mp respected).2.1).2.2
        exact behind .shutdownProtobufLibrary (by simp [DBConnector.destroy]) call
          (List.mem_flatMap_of_mem mem callMem) rfl
      · intro silent
        have silentCalls : ∀ call ∈ DBConnector.destroy ++ later.flatMap (Cycle.calls config),
            ∀ request, call ≠ .message request := by
          intro call mem
          rcases List.mem_append.mp mem with destroyed | used
          · simp only [DBConnector.destroy, List.mem_cons, List.not_mem_nil, or_false,
              or_self] at destroyed
            simp [destroyed]
          · rcases List.mem_flatMap.mp used with ⟨cycle, cycleMem, callMem⟩
            exact (noMessage_of_calls_iff cycle).mpr (silent cycle cycleMem) call callMem
        apply List.pairwise_append.mpr
        refine ⟨?_, ?_, ?_⟩
        · apply List.pairwise_map.mpr
          exact List.pairwise_of_forall fun _ _ shut => by cases shut
        · apply List.pairwise_of_forall_mem_list
          intro _ _ call mem _
          exact silentCalls call mem
        · intro _ _ call mem _
          exact silentCalls call mem

namespace SimulationWorker

variable {worker : SimulationWorker}

/-- A worker that listens answers the commands of a cycle and listens again. -/
theorem run_cycle (listening : worker.listens = true) (cycle : Cycle) (later : List Delivery) :
    ∃ (after : SimulationWorker) (handled : List Handled), after.listens = true ∧
      worker.run config (cycle.deliveries ++ later) =
        (after.run config later).map (handled ++ ·) ∧
      handled.map (·.replyString) = Cycle.replies ∧
      handled.flatMap (·.calls) = cycle.calls config := by
  let measurement := (DBConnector.construct config.bytesLimit).run cycle.entries
  let ready := worker.initialise config
  let finished := ready.finishRun worker.objects.constructed measurement.1
  let released := finished.release worker.objects.constructed
  let after : SimulationWorker := { released with state := .START }
  have constructed := @pointee_initialise config worker
  have measured := pointee_finishRun constructed measurement.1
  have initialised := worker.handle_INIT config cycle.entries cycle.buffer
  have ran := handle_GO config cycle.entries cycle.buffer constructed
  rcases handle_GETRESULTS config cycle.entries cycle.buffer measured with ⟨frame, _, reported⟩
  have restarted := handle_RESTART config released cycle.entries cycle.buffer
  refine ⟨after, [⟨ready, [], none, INITDONE⟩,
    ⟨finished, measurement.2.map .message, none, RESULTSREADY⟩,
    ⟨released, DBConnector.destroy, some frame, DONERESULTS⟩, ⟨after, [], none, RESTARTING⟩],
    rfl, ?_, rfl, by simp [Cycle.calls, measurement]⟩
  change worker.run config (⟨INIT, cycle.entries, cycle.buffer⟩ ::
    ⟨GO, cycle.entries, cycle.buffer⟩ :: ⟨GETRESULTS, cycle.entries, cycle.buffer⟩ ::
      ⟨RESTART, cycle.entries, cycle.buffer⟩ :: later) = _
  rw [run_cons initialised listening, run_cons ran listening, run_cons reported rfl,
    run_cons restarted rfl]
  simp only [Option.map_map]
  rfl

/-- A worker answers all commands of all cycles, with the library calls of each cycle. -/
theorem run_cyclesThenExit (listening : worker.listens = true) (cycles : List Cycle) :
    ∃ handled, worker.run config (cyclesThenExit cycles) = some handled ∧
      handled.map (·.replyString) = cycles.flatMap (fun _ => Cycle.replies) ++ [EXITING] ∧
      handled.flatMap (·.calls) = cycles.flatMap (Cycle.calls config) := by
  induction cycles generalizing worker with
  | nil =>
      have exited := worker.handle_EXIT config none (.zero 1024)
      refine ⟨[_], run_cons exited listening [], rfl, rfl⟩
  | cons cycle later ih =>
      have split : cyclesThenExit (cycle :: later) = cycle.deliveries ++ cyclesThenExit later := by
        simp [cyclesThenExit]
      rcases @run_cycle config worker listening cycle (cyclesThenExit later) with
        ⟨after, handled, again, cycleRun, cycleReplies, cycleCalls⟩
      rcases ih again with ⟨others, laterRun, laterReplies, laterCalls⟩
      refine ⟨handled ++ others, ?_, ?_, ?_⟩
      · rw [split, cycleRun, laterRun, Option.map_some]
      · rw [List.map_append, cycleReplies, laterReplies, List.flatMap_cons, List.append_assoc]
      · rw [List.flatMap_append, cycleCalls, laterCalls, List.flatMap_cons]

/--
Over any number of cycles a worker answers every command with its reply and uses no
message after the shutdown exactly when no cycle after the first finds a regular file.
-/
theorem restart_respects_shutdown_iff (config : WorkerConfiguration) (cycles : List Cycle) :
    (∃ handled, construct.run config (cyclesThenExit cycles) = some handled ∧
      handled.map (·.replyString) = cycles.flatMap (fun _ => Cycle.replies) ++ [EXITING] ∧
      NoMessageAfterShutdown (handled.flatMap (·.calls))) ↔
    ∀ cycle ∈ cycles.tail, cycle.files = [] := by
  rcases @run_cyclesThenExit config construct rfl cycles with ⟨handled, ran, replies, calls⟩
  rw [← @noMessageAfterShutdown_iff config]
  constructor
  · rintro ⟨others, othersRan, _, respected⟩
    have sameHandled : handled = others := Option.some.inj (ran.symm.trans othersRan)
    subst sameHandled
    rwa [calls] at respected
  · intro respected
    refine ⟨handled, ran, replies, ?_⟩
    rwa [calls]

def oneFileCycle : Cycle :=
  ⟨some [.regular ⟨['/', 'a', '.', 'r'], ['1'], 7⟩], .zero 1024⟩

/-- The second of two cycles with a file each uses messages after the shutdown. -/
theorem second_cycle_uses_message :
    ¬∃ handled, construct.run plainConfiguration (cyclesThenExit [oneFileCycle, oneFileCycle]) =
        some handled ∧ NoMessageAfterShutdown (handled.flatMap (·.calls)) := by
  rintro ⟨others, othersRan, respected⟩
  rcases @run_cyclesThenExit plainConfiguration construct rfl [oneFileCycle, oneFileCycle] with
    ⟨handled, ran, _, calls⟩
  have sameHandled : handled = others := Option.some.inj (ran.symm.trans othersRan)
  subst sameHandled
  rw [calls] at respected
  have silent := (noMessageAfterShutdown_iff _).mp respected oneFileCycle (by simp)
  simp [Cycle.files, oneFileCycle, regularFiles, DirectoryEntry.file?] at silent

end SimulationWorker

end KeyValueClusterPerf
