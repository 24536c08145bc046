import Mathlib

/-!
# Objects with a lifetime

The objects of one class that a program has on its heap, by identity rather than by
address: an identity is never given to a second object, so that a pointer which outlives
its object refers to nothing.
-/

namespace Lifetimes

universe u

/-- The objects that are alive; the identities from `constructed` on are still unused. -/
structure Objects (α : Type u) where
  alive : ℕ → Option α
  constructed : ℕ
  fresh : ∀ identity, constructed ≤ identity → alive identity = none

namespace Objects

variable {α : Type u}

def empty : Objects α := ⟨fun _ => none, 0, fun _ _ => rfl⟩

/-- `new`: the object gets the next identity. -/
def construct (objects : Objects α) (value : α) : Objects α where
  alive := Function.update objects.alive objects.constructed (some value)
  constructed := objects.constructed + 1
  fresh := by
    intro identity unused
    have distinct : identity ≠ objects.constructed := by
      omega
    rw [Function.update_of_ne distinct]
    exact objects.fresh identity (by omega)

/-- An object takes another value; nothing happens to an object that is not alive. -/
def assign (objects : Objects α) (identity : ℕ) (value : α) : Objects α where
  alive := Function.update objects.alive identity ((objects.alive identity).map fun _ => value)
  constructed := objects.constructed
  fresh := by
    intro other unused
    rcases eq_or_ne other identity with rfl | distinct
    · simp [objects.fresh other unused]
    · rw [Function.update_of_ne distinct]
      exact objects.fresh other unused

def delete (objects : Objects α) (identity : ℕ) : Objects α where
  alive := Function.update objects.alive identity none
  constructed := objects.constructed
  fresh := by
    intro other unused
    rcases eq_or_ne other identity with rfl | distinct
    · simp
    · rw [Function.update_of_ne distinct]
      exact objects.fresh other unused

/-- The object a pointer refers to, with its identity, if it is alive. -/
def pointee (objects : Objects α) (pointer : Option ℕ) : Option (ℕ × α) :=
  pointer.bind fun identity => (objects.alive identity).map (identity, ·)

/-- No object is alive but the one that a pointer refers to. -/
def OnlyPointee (objects : Objects α) (pointer : Option ℕ) : Prop :=
  ∀ identity, objects.alive identity ≠ none → pointer = some identity

section Access

variable (objects : Objects α)

@[simp]
theorem alive_construct_self (value : α) :
    (objects.construct value).alive objects.constructed = some value :=
  Function.update_self ..

theorem alive_construct_of_ne {identity : ℕ} (distinct : identity ≠ objects.constructed)
    (value : α) : (objects.construct value).alive identity = objects.alive identity :=
  Function.update_of_ne distinct ..

@[simp]
theorem alive_assign_self (identity : ℕ) (value : α) :
    (objects.assign identity value).alive identity =
      (objects.alive identity).map fun _ => value :=
  Function.update_self ..

theorem alive_assign_of_ne {identity other : ℕ} (distinct : other ≠ identity) (value : α) :
    (objects.assign identity value).alive other = objects.alive other :=
  Function.update_of_ne distinct ..

@[simp]
theorem alive_delete_self (identity : ℕ) : (objects.delete identity).alive identity = none :=
  Function.update_self ..

theorem alive_delete_of_ne {identity other : ℕ} (distinct : other ≠ identity) :
    (objects.delete identity).alive other = objects.alive other :=
  Function.update_of_ne distinct ..

@[simp]
theorem pointee_construct (value : α) :
    (objects.construct value).pointee (some objects.constructed) =
      some (objects.constructed, value) := by
  simp [pointee]

@[simp]
theorem pointee_delete (identity : ℕ) :
    (objects.delete identity).pointee (some identity) = none := by
  simp [pointee]

theorem onlyPointee_empty (pointer : Option ℕ) : (empty : Objects α).OnlyPointee pointer :=
  fun _ present => absurd rfl present

end Access

variable {objects : Objects α} {pointer : Option ℕ} {identity : ℕ} {value : α}

theorem pointee_eq_some_iff :
    objects.pointee pointer = some (identity, value) ↔
      pointer = some identity ∧ objects.alive identity = some value := by
  simp only [pointee, Option.bind_eq_some_iff, Option.map_eq_some_iff, Prod.mk.injEq]
  constructor
  · rintro ⟨target, pointerEq, found, alive, rfl, rfl⟩
    exact ⟨pointerEq, alive⟩
  · rintro ⟨pointerEq, alive⟩
    exact ⟨identity, pointerEq, value, alive, rfl, rfl⟩

theorem pointee_assign (present : objects.pointee pointer = some (identity, value)) (other : α) :
    (objects.assign identity other).pointee pointer = some (identity, other) := by
  rcases pointee_eq_some_iff.mp present with ⟨pointerEq, alive⟩
  apply pointee_eq_some_iff.mpr
  simp [pointerEq, alive]

/-- A new object is the only one exactly if there was none before. -/
theorem onlyPointee_construct_iff (only : objects.OnlyPointee pointer) (value : α) :
    (objects.construct value).OnlyPointee (some objects.constructed) ↔
      objects.pointee pointer = none := by
  constructor
  · intro alone
    by_contra present
    rcases Option.ne_none_iff_exists'.mp present with ⟨⟨identity, old⟩, oldEq⟩
    rcases pointee_eq_some_iff.mp oldEq with ⟨_, oldAlive⟩
    have distinct : identity ≠ objects.constructed := by
      rintro rfl
      simp [objects.fresh objects.constructed le_rfl] at oldAlive
    have stillAlive : (objects.construct value).alive identity ≠ none := by
      rw [objects.alive_construct_of_ne distinct, oldAlive]
      exact Option.some_ne_none old
    exact distinct (Option.some.inj (alone identity stillAlive)).symm
  · intro absent identity present
    rcases eq_or_ne identity objects.constructed with rfl | distinct
    · rfl
    · rw [objects.alive_construct_of_ne distinct] at present
      rcases Option.ne_none_iff_exists'.mp present with ⟨old, oldAlive⟩
      have found := pointee_eq_some_iff.mpr ⟨only identity present, oldAlive⟩
      simp [absent] at found

theorem OnlyPointee.assign (only : objects.OnlyPointee pointer) (identity : ℕ) (value : α) :
    (objects.assign identity value).OnlyPointee pointer := by
  intro other present
  apply only other
  rcases eq_or_ne other identity with rfl | distinct
  · simpa using present
  · rwa [objects.alive_assign_of_ne distinct] at present

theorem OnlyPointee.delete (only : objects.OnlyPointee pointer) (identity : ℕ) :
    (objects.delete identity).OnlyPointee pointer := by
  intro other present
  apply only other
  rcases eq_or_ne other identity with rfl | distinct
  · simp at present
  · rwa [objects.alive_delete_of_ne distinct] at present

end Objects

end Lifetimes
