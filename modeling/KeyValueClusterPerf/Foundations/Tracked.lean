import Mathlib.Order.Interval.Set.LinearOrder
import Mathlib.Tactic.Ring

/-!
# Computations that log what they load

A computation over a memory lists the indices that it loads, and carries with it that nothing
else decides its run. So two memories that agree on these indices cannot be told apart by it, and
what remains to show about a computation is which indices it loads.
-/

namespace Loads

universe u v

/-- A computation with the log of its loads, which decide the result and the log. -/
structure Tracked (α : Type u) (β : Type v) where
  run : (ℕ → α) → β × List ℕ
  run_eq : ∀ {memory other : ℕ → α},
    (∀ index ∈ (run memory).2, memory index = other index) → run other = run memory

namespace Tracked

variable {α : Type u} {β γ : Type v}

protected def pure (value : β) : Tracked α β where
  run _ := (value, [])
  run_eq _ := rfl

protected def bind (first : Tracked α β) (next : β → Tracked α γ) : Tracked α γ where
  run memory :=
    let (value, log) := first.run memory
    let (result, rest) := (next value).run memory
    (result, log ++ rest)
  run_eq := by
    intro memory other agree
    have firstEq : first.run other = first.run memory :=
      first.run_eq fun index mem => agree index (List.mem_append_left _ mem)
    have nextEq : (next (first.run memory).1).run other = (next (first.run memory).1).run memory :=
      (next (first.run memory).1).run_eq fun index mem =>
        agree index (List.mem_append_right _ mem)
    simp only [firstEq, nextEq]

instance : Monad (Tracked α) where
  pure := Tracked.pure
  bind := Tracked.bind

def load (index : ℕ) : Tracked α α where
  run memory := (memory index, [index])
  run_eq := by
    intro memory other agree
    rw [agree index (List.mem_singleton_self index)]

@[ext]
theorem ext {first second : Tracked α β} (same : ∀ memory, first.run memory = second.run memory) :
    first = second := by
  cases first
  cases second
  simp only [mk.injEq]
  exact funext same

instance : LawfulMonad (Tracked α) := LawfulMonad.mk' _
  (fun computation => ext fun memory => by
    exact Prod.ext rfl (List.append_nil _))
  (fun _ _ => rfl)
  (fun computation next last => ext fun memory => by
    exact Prod.ext rfl (List.append_assoc _ _ _))

/-- A loop over every index from the given one on that is a multiple of the stride away. -/
def strided (stride : ℕ) (body : ℕ → β → Tracked α β) : ℕ → ℕ → β → Tracked α β
  | 0, _, state => pure state
  | count + 1, index, state => do
    let next ← body index state
    strided stride body count (index + stride) next

/-- The values that a run loads, in their order. -/
def observed (computation : Tracked α β) (memory : ℕ → α) : List α :=
  (computation.run memory).2.map memory

/-- Whatever the memory, the run loads exactly these indices. -/
def Reads (computation : Tracked α β) (indices : Set ℕ) : Prop :=
  ∀ memory index, index ∈ (computation.run memory).2 ↔ index ∈ indices

variable {computation : Tracked α β} {indices others : Set ℕ} {memory other : ℕ → α}

theorem value_bind (next : β → Tracked α γ) :
    ((computation >>= next).run memory).1 =
      ((next (computation.run memory).1).run memory).1 :=
  rfl

section Loops

variable {stride : ℕ} {body : ℕ → β → Tracked α β}

theorem strided_add (count further index : ℕ) (state : β) :
    strided stride body (count + further) index state =
      strided stride body count index state >>=
        strided stride body further (index + stride * count) := by
  induction count generalizing index state with
  | zero => simp [strided]
  | succ count inductionHypothesis =>
    have later : index + stride + stride * count = index + stride * (count + 1) := by ring
    rw [Nat.add_right_comm, strided, strided, bind_assoc, ← later]
    exact bind_congr fun next => inductionHypothesis (index + stride) next

/-- A loop whose body is some rounds of another loop is that loop. -/
theorem strided_unrolled {factor : ℕ} {unrolled : ℕ → β → Tracked α β}
    (rounds : ∀ index state, unrolled index state = strided stride body factor index state)
    (count index : ℕ) (state : β) :
    strided (stride * factor) unrolled count index state =
      strided stride body (factor * count) index state := by
  induction count generalizing index state with
  | zero => rfl
  | succ count inductionHypothesis =>
    rw [strided, rounds, Nat.mul_succ, Nat.add_comm (factor * count), strided_add]
    exact bind_congr fun next => inductionHypothesis (index + stride * factor) next

/-- What every round keeps, the number of rounds counted, holds after the loop. -/
theorem strided_induction {holds : ℕ → β → Prop} {count index : ℕ} {state : β}
    (start : holds 0 state)
    (round : ∀ done < count, ∀ state, holds done state →
      holds (done + 1) ((body (index + stride * done) state).run memory).1) :
    holds count ((strided stride body count index state).run memory).1 := by
  induction count generalizing holds index state with
  | zero => exact start
  | succ count inductionHypothesis =>
    rw [strided, value_bind]
    apply @inductionHypothesis fun done => holds (done + 1)
    · simpa using round 0 (Nat.succ_pos count) state start
    · intro done below state held
      have later := round (done + 1) (Nat.succ_lt_succ below) state held
      rwa [Nat.mul_succ, Nat.add_comm (stride * done), ← Nat.add_assoc] at later

end Loops

namespace Reads

theorem run_eq (reads : computation.Reads indices)
    (agree : ∀ index ∈ indices, memory index = other index) :
    computation.run other = computation.run memory :=
  computation.run_eq fun index mem => agree index ((reads memory index).mp mem)

theorem observed_eq (reads : computation.Reads indices)
    (agree : ∀ index ∈ indices, memory index = other index) :
    computation.observed other = computation.observed memory := by
  rw [observed, observed, reads.run_eq agree]
  apply List.map_congr_left
  intro index mem
  exact (agree index ((reads memory index).mp mem)).symm

theorem congr (reads : computation.Reads indices) (same : indices = others) :
    computation.Reads others :=
  same ▸ reads

protected theorem pure (value : β) : (pure value : Tracked α β).Reads ∅ :=
  fun _ _ => List.mem_nil_iff _

protected theorem load (index : ℕ) : (load index : Tracked α α).Reads {index} :=
  fun _ _ => List.mem_singleton

protected theorem bind {next : β → Tracked α γ} (reads : computation.Reads indices)
    (nextReads : ∀ value, (next value).Reads others) :
    (computation >>= next).Reads (indices ∪ others) := by
  intro memory index
  calc
    index ∈ ((computation >>= next).run memory).2 ↔
        index ∈ (computation.run memory).2 ∨
          index ∈ ((next (computation.run memory).1).run memory).2 :=
      List.mem_append
    _ ↔ index ∈ indices ∪ others :=
      or_congr (reads memory index) (nextReads _ memory index)

/-- What follows without a load adds nothing to what is read. -/
protected theorem map {next : β → γ} (reads : computation.Reads indices) :
    (computation >>= fun value => pure (next value)).Reads indices :=
  (reads.bind fun value => Reads.pure (next value)).congr (Set.union_empty indices)

/-- Two adjacent ranges are read as one. -/
theorem bind_Ico {next : β → Tracked α γ} {start middle stop : ℕ}
    (reads : computation.Reads (Set.Ico start middle))
    (nextReads : ∀ value, (next value).Reads (Set.Ico middle stop))
    (startLe : start ≤ middle) (middleLe : middle ≤ stop) :
    (computation >>= next).Reads (Set.Ico start stop) :=
  (reads.bind nextReads).congr (Set.Ico_union_Ico_eq_Ico startLe middleLe)

/-- A loop whose body reads the stride from its index on reads all strides, one after another. -/
theorem strided {stride base : ℕ} {body : ℕ → β → Tracked α β}
    (reads : ∀ index state,
      (body index state).Reads (Set.Ico (base + index) (base + index + stride)))
    (count index : ℕ) (state : β) :
    (strided stride body count index state).Reads
      (Set.Ico (base + index) (base + index + stride * count)) := by
  induction count generalizing index state with
  | zero => exact (Reads.pure state).congr (by simp)
  | succ count inductionHypothesis =>
    have nextReads := fun next => inductionHypothesis (index + stride) next
    rw [show base + index + stride * (count + 1) = base + (index + stride) + stride * count by ring]
    apply (reads index state).bind_Ico _ (by omega) (by omega)
    intro next
    simpa only [Nat.add_assoc] using nextReads next

end Reads

end Tracked

end Loads
