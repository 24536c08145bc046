import KeyValueClusterPerf.DBConnector.Database
import KeyValueClusterPerf.Foundations.Runs

/-!
# Workers that share one database

Every worker runs the driver loop over its own directory tree and with its own limit;
the database serves the PUT and GET requests of all workers one at a time, in any order
that keeps each worker's own order. A worker sends the GET of an iteration only after
the PUT of that iteration has been answered.

Between the two requests another worker may put under the same key. What a GET returns is
therefore the object of the worker's own file or of another worker's file with that key,
and it is always the own object exactly when files of different workers agree on the
object of a common key.
-/

namespace KeyValueClusterPerf

open Texts Doubles LastWriteWins LabelledRuns

/-- A worker's place in its loop: the files to come and the file put but not yet read back. -/
structure Client where
  todo : List RegularFile
  pending : Option RegularFile

structure SharedState (workers : ℕ) where
  database : Database
  clients : Fin workers → Client

/-- A request served for a worker, with the iteration it belongs to and the value a GET returns. -/
inductive Served (workers : ℕ)
  | put (worker : Fin workers) (file : RegularFile)
  | get (worker : Fin workers) (file : RegularFile) (value : Option Text)

variable {workers : ℕ}

namespace SharedState

def afterPut (state : SharedState workers) (worker : Fin workers) (file : RegularFile)
    (rest : List RegularFile) : SharedState workers where
  database := (state.database.serve (.put file.key file.object)).1
  clients := Function.update state.clients worker ⟨rest, some file⟩

def afterGet (state : SharedState workers) (worker : Fin workers) (file : RegularFile)
    (rest : List RegularFile) : SharedState workers where
  database := (state.database.serve (.get file.key)).1
  clients := Function.update state.clients worker ⟨rest, none⟩

variable (state : SharedState workers) (worker : Fin workers) (file : RegularFile)
  (rest : List RegularFile)

@[simp]
theorem afterPut_clients_self : (state.afterPut worker file rest).clients worker =
    ⟨rest, some file⟩ :=
  Function.update_self worker _ _

@[simp]
theorem afterGet_clients_self : (state.afterGet worker file rest).clients worker = ⟨rest, none⟩ :=
  Function.update_self worker _ _

variable {worker}

theorem afterPut_clients_of_ne {other : Fin workers} (distinct : other ≠ worker) :
    (state.afterPut worker file rest).clients other = state.clients other :=
  Function.update_of_ne distinct _ _

theorem afterGet_clients_of_ne {other : Fin workers} (distinct : other ≠ worker) :
    (state.afterGet worker file rest).clients other = state.clients other :=
  Function.update_of_ne distinct _ _

end SharedState

/-- The database serves the next request of one of the workers. -/
inductive Serve : SharedState workers → Served workers → SharedState workers → Prop
  | put {state : SharedState workers} {worker : Fin workers} {file : RegularFile}
      {rest : List RegularFile} (atFile : state.clients worker = ⟨file :: rest, none⟩) :
      Serve state (.put worker file) (state.afterPut worker file rest)
  | get {state : SharedState workers} {worker : Fin workers} {file : RegularFile}
      {rest : List RegularFile} (atFile : state.clients worker = ⟨rest, some file⟩) :
      Serve state (.get worker file (state.database.serve (.get file.key)).2)
        (state.afterGet worker file rest)

def filesOf (limits : Fin workers → Double) (trees : Fin workers → List DirectoryTree)
    (worker : Fin workers) : List RegularFile :=
  (DBConnector.construct (limits worker)).processed (walk (trees worker))

def SharedState.start (files : Fin workers → List RegularFile) : SharedState workers where
  database := Store.empty
  clients worker := ⟨files worker, none⟩

/-- The request of a worker that a label records. -/
def Served.request? (worker : Fin workers) : Served workers → Option Request
  | .put other file => if other = worker then some (.put file.key file.object) else none
  | .get other file _ => if other = worker then some (.get file.key) else none

def Client.remaining (client : Client) : List Request :=
  (client.pending.toList.map fun file => .get file.key) ++
    client.todo.flatMap DBConnector.requestsFor

/-- Every worker sends the requests of its own run, in their order. -/
theorem requests_of_run {limits : Fin workers → Double}
    {trees : Fin workers → List DirectoryTree} {trace : List (Served workers)}
    {state : SharedState workers}
    (run : Run Serve (SharedState.start (filesOf limits trees)) trace state)
    (worker : Fin workers) :
    trace.filterMap (Served.request? worker) ++ (state.clients worker).remaining =
      ((DBConnector.construct (limits worker)).run (some (walk (trees worker)))).2 := by
  induction run with
  | nil => simp [SharedState.start, Client.remaining, DBConnector.run, DBConnector.loop_eq, filesOf]
  | snoc earlier last ih =>
      rw [← ih, List.filterMap_append, List.append_assoc]
      congr 1
      cases last with
      | @put mover file rest atFile =>
          by_cases same : mover = worker
          · subst same
            simp [atFile, Client.remaining, Served.request?, DBConnector.requestsFor]
          · simp [Served.request?, same, SharedState.afterPut_clients_of_ne _ _ _ (Ne.symm same)]
      | @get mover file rest atFile =>
          by_cases same : mover = worker
          · subst same
            simp [atFile, Client.remaining, Served.request?]
          · simp [Served.request?, same, SharedState.afterGet_clients_of_ne _ _ _ (Ne.symm same)]

variable {files : Fin workers → List RegularFile}

/-- What the database can hold under the key of a file whose PUT was answered. -/
def HeldFor (files : Fin workers → List RegularFile) (database : Database)
    (worker : Fin workers) (file : RegularFile) : Prop :=
  ∃ owner other, other ∈ files owner ∧ other.key = file.key ∧
    database file.key = some other.object ∧ (owner = worker → other = file)

/-- A worker handles its own files, and its pending file's key is held. -/
structure ClientInvariant (files : Fin workers → List RegularFile) (database : Database)
    (worker : Fin workers) (client : Client) : Prop where
  todoMem : ∀ file ∈ client.todo, file ∈ files worker
  pendingMem : ∀ file ∈ client.pending, file ∈ files worker
  held : ∀ file ∈ client.pending, HeldFor files database worker file

def SharedInvariant (files : Fin workers → List RegularFile) (state : SharedState workers) : Prop :=
  ∀ worker, ClientInvariant files state.database worker (state.clients worker)

theorem sharedInvariant_start : SharedInvariant files (SharedState.start files) := by
  intro worker
  constructor
  · intro file mem
    exact mem
  · simp [SharedState.start]
  · simp [SharedState.start]

theorem SharedInvariant.update {database : Database} {clients : Fin workers → Client}
    {mover : Fin workers} {client : Client} (moved : ClientInvariant files database mover client)
    (others : ∀ worker, worker ≠ mover → ClientInvariant files database worker (clients worker)) :
    SharedInvariant files ⟨database, Function.update clients mover client⟩ :=
  (Function.forall_update_iff clients
    fun worker current => ClientInvariant files database worker current).mpr ⟨moved, others⟩

/-- A PUT of some worker keeps the key of every other worker's pending file held. -/
theorem HeldFor.put {database : Database} {worker mover : Fin workers} {file moved : RegularFile}
    (held : HeldFor files database worker file) (distinct : worker ≠ mover)
    (movedMem : moved ∈ files mover) :
    HeldFor files (database.put moved.key moved.object) worker file := by
  by_cases same : moved.key = file.key
  · refine ⟨mover, moved, movedMem, same, ?_, ?_⟩
    · rw [← same, Store.put_self]
    · intro own
      exact absurd own.symm distinct
  · rcases held with ⟨owner, other, otherMem, otherKey, stored, own⟩
    refine ⟨owner, other, otherMem, otherKey, ?_, own⟩
    rw [Store.put_of_ne _ _ (Ne.symm same), stored]

theorem sharedInvariant_step {state next : SharedState workers} {label : Served workers}
    (invariant : SharedInvariant files state) (step : Serve state label next) :
    SharedInvariant files next := by
  cases step with
  | @put mover moved rest atFile =>
      have moverInvariant := invariant mover
      rw [atFile] at moverInvariant
      have movedMem := moverInvariant.todoMem moved (by simp)
      apply SharedInvariant.update
      · constructor
        · intro file mem
          exact moverInvariant.todoMem file (List.mem_cons_of_mem moved mem)
        · intro file mem
          rwa [← Option.mem_some_iff.mp mem]
        · intro file mem
          rw [← Option.mem_some_iff.mp mem]
          exact ⟨mover, moved, movedMem, rfl, Store.put_self _ _ _, fun _ => rfl⟩
      · intro worker distinct
        rcases invariant worker with ⟨todoMem, pendingMem, held⟩
        refine ⟨todoMem, pendingMem, ?_⟩
        intro file mem
        exact (held file mem).put distinct movedMem
  | @get mover moved rest atFile =>
      have moverInvariant := invariant mover
      rw [atFile] at moverInvariant
      apply SharedInvariant.update
      · exact ⟨moverInvariant.todoMem, by simp, by simp⟩
      · intro worker _
        exact invariant worker

theorem sharedInvariant_of_run {trace : List (Served workers)} {state : SharedState workers}
    (run : Run Serve (SharedState.start files) trace state) : SharedInvariant files state := by
  apply run.invariant fun _ reached => SharedInvariant files reached
  · exact sharedInvariant_start
  · intro _ _ _ _ _ invariant step
    exact sharedInvariant_step invariant step

/-- A GET returns the object of the own file or of another worker's file with the same key. -/
theorem value_of_get {trace : List (Served workers)} {state : SharedState workers}
    (run : Run Serve (SharedState.start files) trace state) {worker : Fin workers}
    {file : RegularFile} {value : Option Text} (read : .get worker file value ∈ trace) :
    file ∈ files worker ∧ ∃ owner other, other ∈ files owner ∧ other.key = file.key ∧
      value = some other.object ∧ (owner = worker → other = file) := by
  rcases run.step_of_mem read with ⟨_, _, before, after, _, front, step⟩
  have invariant := sharedInvariant_of_run front
  cases step with
  | get atFile =>
      have pending : file ∈ (before.clients worker).pending := by simp [atFile]
      exact ⟨(invariant worker).pendingMem file pending, (invariant worker).held file pending⟩

/-- Every GET of a trace returns the object that its own iteration has put. -/
def ReadsOwnWrites (trace : List (Served workers)) : Prop :=
  ∀ worker file value, .get worker file value ∈ trace → value = some file.object

/-- While the others wait, a worker can complete the iterations of its next files. -/
theorem exists_run_of_iterations {worker : Fin workers} {rest : List RegularFile}
    (handled : List RegularFile) {state : SharedState workers}
    (atFiles : state.clients worker = ⟨handled ++ rest, none⟩) :
    ∃ trace next, Run Serve state trace next ∧ next.clients worker = ⟨rest, none⟩ ∧
      ∀ other, other ≠ worker → next.clients other = state.clients other := by
  induction handled generalizing state with
  | nil => exact ⟨[], state, Run.nil, atFiles, fun _ _ => rfl⟩
  | cons file later ih =>
      have put : Serve state (.put worker file) (state.afterPut worker file (later ++ rest)) :=
        Serve.put atFiles
      have get := Serve.get (state.afterPut_clients_self worker file (later ++ rest))
      have atLater := (state.afterPut worker file (later ++ rest)).afterGet_clients_self worker
        file (later ++ rest)
      rcases ih atLater with ⟨trace, next, run, atRest, unchanged⟩
      refine ⟨_, next, ((Run.single put).append (Run.single get)).append run, atRest, ?_⟩
      intro other distinct
      rw [unchanged other distinct, SharedState.afterGet_clients_of_ne _ _ _ distinct,
        SharedState.afterPut_clients_of_ne _ _ _ distinct]

/-- A PUT of another worker between a PUT and its GET makes the GET return the other object. -/
theorem exists_run_reading_twin {worker other : Fin workers} (distinct : worker ≠ other)
    {file twin : RegularFile} (fileMem : file ∈ files worker) (twinMem : twin ∈ files other)
    (sameKey : file.key = twin.key) :
    ∃ trace state, Run Serve (SharedState.start files) trace state ∧
      .get worker file (some twin.object) ∈ trace := by
  rcases List.append_of_mem fileMem with ⟨handled, rest, fileSplit⟩
  rcases List.append_of_mem twinMem with ⟨twinHandled, twinRest, twinSplit⟩
  have atStart : (SharedState.start files).clients worker = ⟨handled ++ file :: rest, none⟩ := by
    simp [SharedState.start, fileSplit]
  rcases exists_run_of_iterations handled atStart with
    ⟨firstTrace, first, firstRun, atFile, firstUnchanged⟩
  have put := Serve.put atFile
  have twinStart : (first.afterPut worker file rest).clients other =
      ⟨twinHandled ++ twin :: twinRest, none⟩ := by
    rw [SharedState.afterPut_clients_of_ne _ _ _ distinct.symm, firstUnchanged other distinct.symm]
    simp [SharedState.start, twinSplit]
  rcases exists_run_of_iterations twinHandled twinStart with
    ⟨secondTrace, second, secondRun, atTwin, secondUnchanged⟩
  have twinPut := Serve.put atTwin
  have stillPending : (second.afterPut other twin twinRest).clients worker =
      ⟨rest, some file⟩ := by
    rw [SharedState.afterPut_clients_of_ne _ _ _ distinct, secondUnchanged worker distinct,
      SharedState.afterPut_clients_self]
  have get := Serve.get stillPending
  have reads : ((second.afterPut other twin twinRest).database.serve (.get file.key)).2 =
      some twin.object := by
    simp [SharedState.afterPut, Database.serve, sameKey]
  rw [reads] at get
  exact ⟨_, _, (((firstRun.snoc put).append secondRun).snoc twinPut).snoc get, by simp⟩

/--
A GET returns the object that its own iteration has put or that another worker has put
under the same key since; in every interleaving all GETs return the own objects exactly
when the files of different workers agree on the objects of their common keys.
-/
theorem reads_own_writes_iff (limits : Fin workers → Double)
    (trees : Fin workers → List DirectoryTree) :
    (∀ trace state, Run Serve (SharedState.start (filesOf limits trees)) trace state →
      ∀ worker file value, .get worker file value ∈ trace →
        ∃ owner other, other ∈ filesOf limits trees owner ∧ other.key = file.key ∧
          value = some other.object ∧ (owner = worker → other = file)) ∧
    ((∀ trace state, Run Serve (SharedState.start (filesOf limits trees)) trace state →
        ReadsOwnWrites trace) ↔
      ∀ worker other, worker ≠ other → ∀ file ∈ filesOf limits trees worker,
        ∀ twin ∈ filesOf limits trees other, file.key = twin.key → file.object = twin.object) := by
  refine ⟨?_, ?_, ?_⟩
  · intro trace state run worker file value read
    exact (value_of_get run read).2
  · intro readsOwn worker other distinct file fileMem twin twinMem sameKey
    rcases exists_run_reading_twin distinct fileMem twinMem sameKey with
      ⟨trace, state, run, read⟩
    exact (Option.some.inj (readsOwn trace state run worker file _ read)).symm
  · intro agree trace state run worker file value read
    rcases value_of_get run read with
      ⟨fileMem, owner, other, otherMem, sameKey, valueEq, own⟩
    rw [valueEq]
    by_cases same : owner = worker
    · rw [own same]
    · rw [agree worker owner (Ne.symm same) file fileMem other otherMem sameKey.symm]

def rivalTrees : Fin 2 → List DirectoryTree
  | 0 => [.file ['x', '.', 'r'] ['1'] 0]
  | 1 => [.file ['x', '.', 'r'] ['2'] 0]

/-- The first worker of `rivalTrees` can read the second worker's object. -/
theorem rivals_read_foreign_object :
    ∃ trace state, Run Serve
      (SharedState.start (filesOf (fun _ => .finite (-1)) rivalTrees)) trace state ∧
        ¬ReadsOwnWrites trace := by
  have fileMem : (RegularFile.mk (dataPath ++ ['/', 'x', '.', 'r']) ['1'] 0) ∈
      filesOf (fun _ => .finite (-1)) rivalTrees 0 := List.mem_cons_self
  have twinMem : (RegularFile.mk (dataPath ++ ['/', 'x', '.', 'r']) ['2'] 0) ∈
      filesOf (fun _ => .finite (-1)) rivalTrees 1 := List.mem_cons_self
  rcases exists_run_reading_twin (by decide) fileMem twinMem rfl with ⟨trace, state, run, read⟩
  refine ⟨trace, state, run, ?_⟩
  intro readsOwn
  exact absurd (readsOwn _ _ _ read) (by decide)

end KeyValueClusterPerf
