import KeyValueClusterPerf.DBConnector.SharedDatabase

/-!
# What the workers leave in the database

When all workers have come to the end of their loops, the database holds under each key the
object of the last file with that key of one of the workers. Which worker this is depends on
the order in which the requests were served, and on nothing else: each of them can be the one.
-/

namespace KeyValueClusterPerf

open Texts LastWriteWins LabelledRuns

/-- The object of the last file with a key. -/
def lastObject (files : List RegularFile) (key : Text) : Option Text :=
  (files.reverse.find? (·.key = key)).map (·.object)

/-- Nothing is left to do for a client. -/
def Client.Done (client : Client) : Prop :=
  client.todo = [] ∧ client.pending = none

variable {workers : ℕ}

def Served.worker : Served workers → Fin workers
  | .put worker _ => worker
  | .get worker _ _ => worker

def Served.put? : Served workers → Option (Fin workers × RegularFile)
  | .put worker file => some (worker, file)
  | .get _ _ _ => none

def puts (trace : List (Served workers)) : List (Fin workers × RegularFile) :=
  trace.filterMap Served.put?

/-- The database serves a worker without the others noticing. -/
theorem clients_of_serve {state next : SharedState workers} {request : Served workers}
    (serve : Serve state request next) {worker : Fin workers} (apart : worker ≠ request.worker) :
    next.clients worker = state.clients worker := by
  cases serve with
  | put atFile => exact state.afterPut_clients_of_ne _ _ apart
  | get atFile => exact state.afterGet_clients_of_ne _ _ apart

@[simp]
theorem puts_put (trace : List (Served workers)) (worker : Fin workers) (file : RegularFile) :
    puts (trace ++ [.put worker file]) = puts trace ++ [(worker, file)] := by
  simp [puts, Served.put?]

@[simp]
theorem puts_get (trace : List (Served workers)) (worker : Fin workers) (file : RegularFile)
    (value : Option Text) : puts (trace ++ [.get worker file value]) = puts trace := by
  simp [puts, Served.put?]

section Runs

variable {files : Fin workers → List RegularFile} {trace : List (Served workers)}
  {state : SharedState workers}

/-- The database holds what was put last, whoever has put it. -/
theorem database_of_run (run : Run Serve (SharedState.start files) trace state) (key : Text) :
    state.database key = ((puts trace).reverse.find? (·.2.key = key)).map (·.2.object) := by
  induction run with
  | nil => rfl
  | snoc earlier last ih =>
      cases last with
      | @put mover file rest atFile =>
          by_cases same : file.key = key
          · simp [SharedState.afterPut, Database.serve, ← same]
          · have apart : key ≠ file.key := Ne.symm same
            simpa [SharedState.afterPut, Database.serve, same, Store.put_of_ne _ _ apart] using ih
      | get atFile => simpa [SharedState.afterGet, Database.serve] using ih

/-- The files that a worker has put, and those that it has still to put, are its files. -/
theorem puts_of_run (run : Run Serve (SharedState.start files) trace state)
    (worker : Fin workers) :
    ((puts trace).filter (·.1 = worker)).map Prod.snd ++ (state.clients worker).todo =
      files worker := by
  induction run with
  | nil => rfl
  | snoc earlier last ih =>
      rw [← ih]
      cases last with
      | @put mover file rest atFile =>
          by_cases same : mover = worker
          · subst same
            simp [atFile]
          · simp [same, SharedState.afterPut_clients_of_ne _ _ _ (Ne.symm same)]
      | @get mover file rest atFile =>
          by_cases same : mover = worker
          · subst same
            simp [atFile]
          · simp [SharedState.afterGet_clients_of_ne _ _ _ (Ne.symm same)]

theorem puts_of_done (run : Run Serve (SharedState.start files) trace state)
    {worker : Fin workers} (done : (state.clients worker).Done) :
    ((puts trace).filter (·.1 = worker)).map Prod.snd = files worker := by
  have whole := puts_of_run run worker
  rwa [done.1, List.append_nil] at whole

/-- The last file with a key that a worker has put, found among the puts of all workers. -/
theorem lastObject_of_done (run : Run Serve (SharedState.start files) trace state)
    {worker : Fin workers} (done : (state.clients worker).Done) (key : Text) :
    lastObject (files worker) key =
      ((puts trace).reverse.find? fun put => put.1 = worker ∧ put.2.key = key).map
        (·.2.object) := by
  rw [lastObject, ← puts_of_done run done, ← List.map_reverse, ← List.filter_reverse,
    List.find?_map, List.find?_filter, Option.map_map]
  simp [Function.comp_def]

/-- A worker's requests that were served, and those that are left, are those for its files. -/
theorem served_of_run (run : Run Serve (SharedState.start files) trace state)
    (worker : Fin workers) :
    trace.filterMap (Served.request? worker) ++ (state.clients worker).remaining =
      (files worker).flatMap DBConnector.requestsFor := by
  induction run with
  | nil => simp [SharedState.start, Client.remaining]
  | snoc earlier last ih =>
      rw [← ih, List.filterMap_append, List.append_assoc]
      congr 1
      cases last with
      | @put mover file rest atFile =>
          by_cases same : mover = worker
          · subst same
            simp [atFile, Client.remaining, Served.request?, DBConnector.requestsFor]
          · simp [Served.request?, same, SharedState.afterPut_clients_of_ne _ _ _ (Ne.symm same)]
      | @get mover file rest atFile =>
          by_cases same : mover = worker
          · subst same
            simp [atFile, Client.remaining, Served.request?]
          · simp [Served.request?, same, SharedState.afterGet_clients_of_ne _ _ _ (Ne.symm same)]

/-- When all workers are done, each key holds what one of them has put there last. -/
theorem database_of_done (run : Run Serve (SharedState.start files) trace state)
    (done : ∀ worker, (state.clients worker).Done) (key : Text) :
    (state.database key = none ↔ ∀ worker, lastObject (files worker) key = none) ∧
      ∀ object, state.database key = some object →
        ∃ worker, lastObject (files worker) key = some object := by
  have last (worker : Fin workers) := lastObject_of_done run (done worker) key
  rw [database_of_run run key]
  refine ⟨⟨?_, ?_⟩, ?_⟩
  · intro nothing worker
    rw [last worker, Option.map_eq_none_iff, List.find?_eq_none]
    rw [Option.map_eq_none_iff, List.find?_eq_none] at nothing
    intro put mem both
    exact nothing put mem (by simpa using (of_decide_eq_true both).2)
  · intro nothing
    rw [Option.map_eq_none_iff, List.find?_eq_none]
    intro put mem same
    have own := nothing put.1
    rw [last put.1, Option.map_eq_none_iff, List.find?_eq_none] at own
    exact own put mem (by simpa using same)
  · intro object held
    rcases Option.map_eq_some_iff.mp held with ⟨put, found, rfl⟩
    refine ⟨put.1, ?_⟩
    rcases List.find?_eq_some_iff_append.mp found with ⟨same, later, earlier, split, without⟩
    -- The last put of all with this key is the last one of its worker.
    have own : (puts trace).reverse.find? (fun other => other.1 = put.1 ∧ other.2.key = key) =
        some put := by
      apply List.find?_eq_some_iff_append.mpr
      refine ⟨by simpa using same, later, earlier, split, ?_⟩
      intro other mem
      have apart := without other mem
      simp only [Bool.not_eq_eq_eq_not, Bool.not_true, decide_eq_false_iff_not] at apart ⊢
      exact fun both => apart both.2
    rw [last put.1, own]
    rfl

end Runs

section Orders

variable {files : Fin workers → List RegularFile}

/-- Some workers come to the end of their loops, one after the other. -/
theorem exists_run_of_workers (turns : List (Fin workers)) {state : SharedState workers}
    (idle : ∀ worker, (state.clients worker).pending = none) :
    ∃ trace next, Run Serve state trace next ∧ (∀ worker ∈ turns, (next.clients worker).Done) ∧
      (∀ worker, (next.clients worker).pending = none) ∧
      ∀ worker ∉ turns, next.clients worker = state.clients worker := by
  induction turns generalizing state with
  | nil => exact ⟨[], state, .nil, by simp, idle, by simp⟩
  | cons worker later ih =>
      have atFiles : state.clients worker = ⟨(state.clients worker).todo ++ [], none⟩ := by
        rw [List.append_nil, ← idle worker]
      rcases exists_run_of_iterations _ atFiles with ⟨trace, middle, run, ended, others⟩
      have idleMiddle : ∀ other, (middle.clients other).pending = none := by
        intro other
        by_cases same : other = worker
        · rw [same, ended]
        · rw [others other same, idle other]
      rcases ih idleMiddle with ⟨laterTrace, next, laterRun, done, idleNext, untouched⟩
      refine ⟨_, next, run.append laterRun, ?_, idleNext, ?_⟩
      · intro other mem
        by_cases inLater : other ∈ later
        · exact done other inLater
        · have same : other = worker := by
            simpa [inLater] using mem
          rw [untouched other inLater, same, ended]
          exact ⟨rfl, rfl⟩
      · intro other absent
        rw [List.mem_cons, not_or] at absent
        rw [untouched other absent.2, others other absent.1]

/-- The worker that is served last decides what its keys hold. -/
theorem exists_run_ending_with (worker : Fin workers) {key object : Text}
    (last : lastObject (files worker) key = some object) :
    ∃ trace state, Run Serve (SharedState.start files) trace state ∧
      (∀ other, (state.clients other).Done) ∧ state.database key = some object := by
  have idle : ∀ other, ((SharedState.start files).clients other).pending = none := fun _ => rfl
  rcases exists_run_of_workers ((List.finRange workers).filter (· ≠ worker)) idle with
    ⟨front, middle, frontRun, frontDone, idleMiddle, untouched⟩
  rcases exists_run_of_workers [worker] idleMiddle with
    ⟨back, state, backRun, backDone, _, others⟩
  have done : ∀ other, (state.clients other).Done := by
    intro other
    by_cases same : other = worker
    · exact backDone other (by simp [same])
    · rw [others other (by simpa using same)]
      exact frontDone other (by simp [same])
  have whole := frontRun.append backRun
  refine ⟨front ++ back, state, whole, done, ?_⟩
  have waiting : middle.clients worker = ⟨files worker, none⟩ := untouched worker (by simp)
  have joined : puts (front ++ back) = puts front ++ puts back := List.filterMap_append
  have noneBefore : ∀ put ∈ puts front, put.1 ≠ worker := by
    have own := puts_of_run frontRun worker
    rw [waiting, List.append_left_eq_self, List.map_eq_nil_iff, List.filter_eq_nil_iff] at own
    simpa using own
  have onlyAfter : ∀ put ∈ puts back, put.1 = worker := by
    intro put mem
    by_contra other
    have front := puts_of_done frontRun (frontDone put.1 (by simp [other]))
    have both := puts_of_done whole (done put.1)
    rw [joined, List.filter_append, List.map_append, front, List.append_right_eq_self,
      List.map_eq_nil_iff, List.filter_eq_nil_iff] at both
    exact both put mem (decide_eq_true rfl)
  have nothing : (puts front).reverse.find? (fun put => put.1 = worker ∧ put.2.key = key) =
      none := by
    apply List.find?_eq_none.mpr
    intro put mem both
    exact noneBefore put (List.mem_reverse.mp mem) (of_decide_eq_true both).1
  have same : (puts back).reverse.find? (fun put => put.1 = worker ∧ put.2.key = key) =
      (puts back).reverse.find? (·.2.key = key) := by
    apply List.find?_congr
    intro put mem
    simp [onlyAfter put (List.mem_reverse.mp mem)]
  have found := lastObject_of_done whole (done worker) key
  rw [last, joined, List.reverse_append, List.find?_append, nothing, Option.or_none, same] at found
  rw [database_of_run whole, joined, List.reverse_append, List.find?_append, Option.map_or, ← found]
  rfl

/--
Exactly the objects that workers have last under a key can be left there; if no worker has the
key, nothing is.
-/
theorem final_database_iff (files : Fin workers → List RegularFile) (key : Text) :
    (∀ object, (∃ trace state, Run Serve (SharedState.start files) trace state ∧
        (∀ worker, (state.clients worker).Done) ∧ state.database key = some object) ↔
      ∃ worker, lastObject (files worker) key = some object) ∧
    ∀ trace state, Run Serve (SharedState.start files) trace state →
      (∀ worker, (state.clients worker).Done) →
        (state.database key = none ↔ ∀ worker, lastObject (files worker) key = none) := by
  refine ⟨?_, ?_⟩
  · intro object
    constructor
    · rintro ⟨trace, state, run, done, held⟩
      exact (database_of_done run done key).2 object held
    · rintro ⟨worker, last⟩
      exact exists_run_ending_with worker last
  · intro trace state run done
    exact (database_of_done run done key).1

end Orders

end KeyValueClusterPerf
