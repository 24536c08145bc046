import KeyValueClusterPerf.Cluster.Outcome

/-!
# What can be underway in the cluster

The queues between the processes have no bound of their own. The protocol gives them one: at
each address at most one message is underway, counting both directions, and it is one of the
four commands, the reply to it, or the frame of the worker with which the controller is
connected for data.
-/

namespace KeyValueClusterPerf

open Texts LabelledRuns Session

variable {workers : ℕ} {deployment : Deployment workers} {worker : Fin workers}
  {trace : List (ClusterEvent workers)} {cluster : Cluster workers}
  {controllerAt workerAt : ℕ} {simulationIteration : Int32}

/-- A wire with nothing underway but one message of the given kinds, in one direction. -/
structure PairWire.Carries (wire : PairWire) (requests replies : List Text) : Prop where
  single : wire.toBound.length + wire.toConnector.length ≤ 1
  toBound : ∀ message ∈ wire.toBound, message ∈ requests
  toConnector : ∀ message ∈ wire.toConnector, message ∈ replies

theorem Session.carries_command (causal : Causal controllerAt workerAt) :
    (wires controllerAt workerAt).command.Carries commands expectedReplies := by
  constructor
  · apply @of_causal _ _ (fun controller worker =>
      (wires controller worker).command.toBound.length +
        (wires controller worker).command.toConnector.length ≤ 1) causal
    decide +kernel
  · apply @of_causal _ _ (fun controller worker =>
      ∀ message ∈ (wires controller worker).command.toBound, message ∈ commands) causal
    decide +kernel
  · apply @of_causal _ _ (fun controller worker =>
      ∀ message ∈ (wires controller worker).command.toConnector, message ∈ expectedReplies) causal
    decide +kernel

/-- Data is underway only while the controller is connected for it. -/
theorem Session.opened_of_frame (causal : Causal controllerAt workerAt)
    (frame : (wires controllerAt workerAt).frame = true) :
    (wires controllerAt workerAt).opened = true := by
  have either := @of_causal _ _ (fun controller worker =>
    (!(wires controller worker).frame || (wires controller worker).opened) = true) causal
      (by decide +kernel)
  simpa [frame] using either

/-- What is underway at the addresses of the cluster. -/
structure ChannelsBounded (deployment : Deployment workers) (cluster : Cluster workers) :
    Prop where
  command : ∀ worker,
    (cluster.wires (deployment.commandHosts worker)).Carries commands expectedReplies
  data : ∀ worker,
    (cluster.wires (deployment.dataHosts worker)).Carries [] [(deployment.hosts worker).frame.bytes]
  connected : ∀ worker, (cluster.wires (deployment.dataHosts worker)).toConnector ≠ [] →
    cluster.controller.dataSocket = some (deployment.dataHosts worker)
  elsewhere : ∀ address, (∀ worker, deployment.commandHosts worker ≠ address) →
    (∀ worker, deployment.dataHosts worker ≠ address) → cluster.wires address = ⟨false, [], []⟩

/--
In every state that the cluster reaches, at most one message is underway at each address, and
data is underway only at the one to which the controller's data socket is connected.
-/
theorem channelsBounded_of_run
    (steps : Run (Cluster.Step deployment) (.start deployment simulationIteration) trace cluster) :
    ChannelsBounded deployment cluster := by
  have sessions := sessions_of_run steps
  constructor
  · intro worker
    rcases sessions worker with ⟨controllerAt, workerAt, session⟩
    rw [session.carries.1]
    exact carries_command session.causal
  · intro worker
    rcases sessions worker with ⟨controllerAt, workerAt, session⟩
    rw [session.carries.2]
    constructor
    · simp only [List.length_nil, zero_add]
      split <;> simp
    · simp
    · intro message mem
      split at mem
      · exact mem
      · simp at mem
  · intro worker underway
    rcases sessions worker with ⟨controllerAt, workerAt, session⟩
    rw [session.carries.2] at underway
    apply session.socket.mpr (opened_of_frame session.causal _)
    by_contra empty
    simp [empty] at underway
  · intro address commandApart dataApart
    exact wires_of_run steps commandApart dataApart

theorem channelsBounded_of_run_twoWorkers :
    ∃ trace cluster,
      Run (Cluster.Step twoWorkers) (.start twoWorkers 0) trace cluster ∧
        cluster.controller.program.head? = some .mergeResults ∧
          ChannelsBounded twoWorkers cluster := by
  rcases exists_merging twoWorkers 0 with ⟨trace, cluster, steps, merges⟩
  exact ⟨trace, cluster, steps, merges, channelsBounded_of_run steps⟩

end KeyValueClusterPerf
