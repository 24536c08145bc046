import KeyValueClusterPerf.Foundations.Text

/-!
# Character arrays of a fixed size

The C operations that put a text into a `char` array. An access behind the end of an
array has no defined result: these operations yield `none` there.
What an array held before an operation is arbitrary, and stays wherever nothing is
written.
-/

namespace Texts

structure Buffer (size : ℕ) where
  bytes : Text
  length_eq : bytes.length = size

namespace Buffer

def zero (size : ℕ) : Buffer size := ⟨List.replicate size nul, List.length_replicate⟩

variable {size : ℕ}

/-- `strcpy` of a `c_str()`: what precedes the first NUL of the source, and a NUL. -/
def strcpy (buffer : Buffer size) (source : Text) : Option (Buffer size) :=
  if fits : (cString source).length + 1 ≤ size then
    some {
      bytes := cString source ++ nul :: buffer.bytes.drop ((cString source).length + 1)
      length_eq := by
        have length := buffer.length_eq
        simp only [List.length_append, List.length_cons, List.length_drop]
        omega }
  else none

/-- `buffer[index] = character`. -/
def store (buffer : Buffer size) (index : ℕ) (character : Char) : Option (Buffer size) :=
  if index < size then
    some ⟨buffer.bytes.set index character, by rw [List.length_set, buffer.length_eq]⟩
  else none

/-- The array holds a text and a NUL at its front. -/
def Holds (buffer : Buffer size) (text : Text) : Prop :=
  ∃ behind, buffer.bytes = text ++ nul :: behind

variable {buffer : Buffer size} {text : Text}

theorem strcpy_holds (clean : nul ∉ text) (fits : text.length + 1 ≤ size) (buffer : Buffer size) :
    ∃ copied, buffer.strcpy text = some copied ∧ copied.Holds text := by
  have whole : cString text = text := cString_of_not_mem clean
  refine ⟨_, dif_pos (by rw [whole]; exact fits), ?_⟩
  refine ⟨buffer.bytes.drop (text.length + 1), ?_⟩
  simp only [whole]

theorem Holds.store (holds : buffer.Holds text) {index : ℕ} (inside : index < size)
    (behind : text.length ≤ index) :
    ∃ stored, buffer.store index nul = some stored ∧ stored.Holds text := by
  refine ⟨_, if_pos inside, ?_⟩
  rcases holds with ⟨rest, bytesEq⟩
  simp only [Holds, bytesEq, List.set_append_right _ _ behind]
  cases index - text.length with
  | zero => exact ⟨rest, rfl⟩
  | succ position => exact ⟨rest.set position nul, rfl⟩

end Buffer

end Texts
