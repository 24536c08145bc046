import Mathlib

/-!
# Inputs that are processed in blocks

A process that takes blocks of a fixed size absorbs as many of them as an input has, and the
rest of the input is kept for later. Pieces of an input can be absorbed one after the other
if each is put behind the rest of those before it.
-/

namespace Blocks

variable {State Item : Type} {size : ℕ} {process : State → List Item → State}

def absorb (size : ℕ) (process : State → List Item → State) (state : State) (input : List Item) :
    State × List Item :=
  if 0 < size ∧ size ≤ input.length then
    absorb size process (process state (input.take size)) (input.drop size)
  else (state, input)
termination_by input.length
decreasing_by
  rw [List.length_drop]
  omega

theorem absorb_of_lt (state : State) {input : List Item} (short : input.length < size) :
    absorb size process state input = (state, input) := by
  rw [absorb]
  exact if_neg fun full => absurd full.2 (not_le.mpr short)

theorem absorb_of_le (state : State) {input : List Item} (positive : 0 < size)
    (full : size ≤ input.length) :
    absorb size process state input =
      absorb size process (process state (input.take size)) (input.drop size) := by
  rw [absorb]
  exact if_pos ⟨positive, full⟩

/-- One block of an input. -/
theorem absorb_block (positive : 0 < size) (state : State) {block : List Item}
    (full : block.length = size) (input : List Item) :
    absorb size process state (block ++ input) =
      absorb size process (process state block) input := by
  have enough : size ≤ (block ++ input).length := by
    rw [List.length_append, full]
    exact Nat.le_add_right size input.length
  rw [absorb_of_le state positive enough, List.take_left' full, List.drop_left' full]

/-- An induction over the blocks of an input. -/
theorem induction_on (process : State → List Item → State) (holds : State → List Item → Prop)
    (positive : 0 < size)
    (short : ∀ {state input}, input.length < size → holds state input)
    (block : ∀ {state first input}, first.length = size → holds (process state first) input →
      holds state (first ++ input))
    (state : State) (input : List Item) : holds state input := by
  by_cases full : size ≤ input.length
  · have first : (input.take size).length = size := List.length_take_of_le full
    have later := induction_on process holds positive short block
      (process state (input.take size)) (input.drop size)
    rw [← List.take_append_drop size input]
    exact block first later
  · exact short (not_le.mp full)
termination_by input.length
decreasing_by
  rw [List.length_drop]
  omega

theorem absorb_append (positive : 0 < size) (state : State) (input later : List Item) :
    absorb size process state (input ++ later) =
      absorb size process (absorb size process state input).1
        ((absorb size process state input).2 ++ later) := by
  apply induction_on process (fun state input =>
    absorb size process state (input ++ later) =
      absorb size process (absorb size process state input).1
        ((absorb size process state input).2 ++ later)) positive
  · intro state input short
    rw [absorb_of_lt state short]
  · intro state first input full ih
    rw [List.append_assoc, absorb_block positive state full, absorb_block positive state full]
    exact ih

theorem length_rest (positive : 0 < size) (state : State) (input : List Item) :
    (absorb size process state input).2.length = input.length % size := by
  apply induction_on process (fun state input =>
    (absorb size process state input).2.length = input.length % size) positive
  · intro state input short
    rw [absorb_of_lt state short, Nat.mod_eq_of_lt short]
  · intro state first input full ih
    rw [absorb_block positive state full, ih, List.length_append, full, Nat.add_mod_left]

end Blocks
