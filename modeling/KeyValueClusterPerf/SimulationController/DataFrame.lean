import KeyValueClusterPerf.ResultsTransfer

/-!
# The reception of a data frame

`run` allocates 1024 bytes, `MQ::receive` copies 1024 bytes from a message without a look at
its length, and `receiveDataFromWorker` stores a terminator behind the 1024 bytes. With this
allocation the store is outside for every message, and so is the copy for a short one. One
byte more would make the reception safe for messages of at least 1024 bytes.
-/

namespace KeyValueClusterPerf

open Texts Extents

namespace SimulationController

/-- The reception accesses the message and the buffer inside only, and leaves a text in it. -/
structure ReceptionSafe (message buffer : Extent Char) : Prop where
  inBounds : InBounds message buffer (receiveDataFromWorker message buffer).2
  endsInside : EndsInside (receiveDataFromWorker message buffer).1

variable {message buffer : Extent Char}

theorem accesses_receiveDataFromWorker :
    (receiveDataFromWorker message buffer).2 = (memcpy message buffer 1024).2 ++ [.write 1024] := by
  simp only [receiveDataFromWorker, MQ.receiveInto, store]

theorem inBounds_receiveDataFromWorker_iff :
    InBounds message buffer (receiveDataFromWorker message buffer).2 ↔
      1024 ≤ message.size ∧ 1024 < buffer.size := by
  rw [accesses_receiveDataFromWorker, inBounds_append, inBounds_memcpy_iff, inBounds_write_iff]
  omega

/-- The message is read inside exactly if it has at least 1024 bytes. -/
theorem reads_inside_iff :
    (∀ index : ℕ, .read index ∈ (receiveDataFromWorker message buffer).2 → index < message.size) ↔
      1024 ≤ message.size := by
  rw [accesses_receiveDataFromWorker, ← forall_lt_imp_lt_iff]
  have reads : ∀ index : ℕ, .read index ∈ (memcpy message buffer 1024).2 ++ [.write 1024] ↔
      index < 1024 := by
    intro index
    rw [List.mem_append, read_mem_memcpy_iff]
    simp only [List.mem_singleton, reduceCtorEq, or_false]
  simp only [reads]

/-- A buffer with room for the terminator makes the reception of long messages safe. -/
theorem receptionSafe_iff :
    ReceptionSafe message buffer ↔ 1024 ≤ message.size ∧ 1024 < buffer.size := by
  constructor
  · intro safe
    exact inBounds_receiveDataFromWorker_iff.mp safe.inBounds
  · intro room
    constructor
    · exact inBounds_receiveDataFromWorker_iff.mpr room
    · refine ⟨1024, room.2, ?_⟩
      exact Function.update_self 1024 nul (MQ.receiveInto message buffer 1024).1.cells

/-- No message is received safely into the buffer that `run` allocates. -/
theorem not_receptionSafe (delivery : Option Text) (behindMessage buffer : ℕ → Char) :
    ¬ReceptionSafe (messageExtent delivery behindMessage) ⟨1024, buffer⟩ := by
  intro safe
  exact lt_irrefl 1024 (receptionSafe_iff.mp safe).2

/-- After a receive that has failed there is nothing to copy. -/
theorem not_receptionSafe_empty :
    ¬ReceptionSafe (messageExtent none fun _ => nul) ⟨1024, fun _ => nul⟩ := by
  intro safe
  exact Nat.not_succ_le_zero 1023 (receptionSafe_iff.mp safe).1

end SimulationController

end KeyValueClusterPerf
