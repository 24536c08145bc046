import KeyValueClusterPerf.Foundations.Text

/-!
# Objects in a memory that goes on behind them

An object has a size, but an access at an index beyond it reaches whatever lies there. The
operations work on the memory from the start of the object on and list the indices that they
access, so that whether these are inside can be asked afterwards.
-/

namespace Extents

open Texts

universe u

/-- The memory from the start of an object on, with the size of the object. -/
@[ext]
structure Extent (α : Type u) where
  size : ℕ
  cells : ℕ → α

/-- An access to the source or to the target of an operation. -/
inductive Access
  | read (index : ℕ)
  | write (index : ℕ)

variable {α : Type u}

/-- The bytes of the object, and what lies behind them. -/
def Extent.ofList (bytes : List α) (behind : ℕ → α) : Extent α where
  size := bytes.length
  cells index := (bytes[index]?).getD (behind (index - bytes.length))

def memcpy (source target : Extent α) (count : ℕ) : Extent α × List Access :=
  (⟨target.size, fun index => if index < count then source.cells index else target.cells index⟩,
    (List.range count).flatMap fun index => [.read index, .write index])

def store (target : Extent α) (index : ℕ) (value : α) : Extent α × List Access :=
  (⟨target.size, Function.update target.cells index value⟩, [.write index])

/-- Every access is inside the object that it is meant for. -/
def InBounds (source target : Extent α) (accesses : List Access) : Prop :=
  ∀ access ∈ accesses,
    match access with
    | .read index => index < source.size
    | .write index => index < target.size

/-- The text that starts at the front of the object ends inside it. -/
def EndsInside (object : Extent Char) : Prop :=
  ∃ index < object.size, object.cells index = nul

variable {source target : Extent α} {count index : ℕ} {value : α}

theorem cells_ofList_of_lt {bytes : List α} (inside : index < bytes.length) (behind : ℕ → α) :
    (Extent.ofList bytes behind).cells index = bytes[index] := by
  simp [Extent.ofList, inside]

theorem cells_ofList_of_le {bytes : List α} (outside : bytes.length ≤ index) (behind : ℕ → α) :
    (Extent.ofList bytes behind).cells index = behind (index - bytes.length) := by
  simp [Extent.ofList, outside]

theorem inBounds_append {first second : List Access} :
    InBounds source target (first ++ second) ↔
      InBounds source target first ∧ InBounds source target second :=
  List.forall_mem_append

theorem read_mem_memcpy_iff : .read index ∈ (memcpy source target count).2 ↔ index < count := by
  simp [memcpy]

theorem write_mem_memcpy_iff : .write index ∈ (memcpy source target count).2 ↔ index < count := by
  simp [memcpy]

theorem forall_lt_imp_lt_iff {size : ℕ} : (∀ index < count, index < size) ↔ count ≤ size := by
  constructor
  · intro inside
    by_contra longer
    exact lt_irrefl size (inside size (not_le.mp longer))
  · intro fits index below
    exact below.trans_le fits

/-- A copy is inside exactly if both objects are as long as it. -/
theorem inBounds_memcpy_iff :
    InBounds source target (memcpy source target count).2 ↔
      count ≤ source.size ∧ count ≤ target.size := by
  rw [← forall_lt_imp_lt_iff, ← forall_lt_imp_lt_iff]
  constructor
  · intro inside
    constructor
    · intro index below
      exact inside (.read index) (read_mem_memcpy_iff.mpr below)
    · intro index below
      exact inside (.write index) (write_mem_memcpy_iff.mpr below)
  · rintro ⟨readsInside, writesInside⟩ access mem
    cases access with
    | read index => exact readsInside index (read_mem_memcpy_iff.mp mem)
    | write index => exact writesInside index (write_mem_memcpy_iff.mp mem)

theorem inBounds_write_iff :
    InBounds source target [.write index] ↔ index < target.size :=
  List.forall_mem_singleton

section Strings

variable {object : Extent Char} {text : Text} {last : ℕ}

/-- The C string at the front of the memory, if there is a NUL at `last` or before. -/
def stringUpTo (object : Extent Char) (last : ℕ) : Text :=
  cString ((List.range (last + 1)).map object.cells)

theorem stringUpTo_eq (clean : nul ∉ text) (inside : text.length ≤ last)
    (front : ∀ index (below : index < text.length), object.cells index = text[index])
    (closed : object.cells text.length = nul) : stringUpTo object last = text := by
  rcases Nat.exists_eq_add_of_le inside with ⟨behind, rfl⟩
  have copied : (List.range text.length).map object.cells = text := by
    apply List.ext_getElem
    · simp
    · intro index _ below
      simp [front index below]
  rw [stringUpTo, Nat.add_assoc, List.range_add, List.map_append, copied, List.range_succ_eq_map]
  simp only [List.map_cons, Nat.add_zero, closed]
  exact cString_append_nul clean _

end Strings

end Extents
