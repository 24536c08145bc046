import Mathlib

/-!
# Guarded releases

A pointer to a resource is looked at before each release of the resource. The outcome of a
release decides whether the resource is alive afterwards, and whether the pointer is
cleared. If no outcome ends the resource without clearing the pointer, every release is
applied to a live resource; otherwise it depends on what follows such an outcome.
-/

namespace GuardedReleases

universe u

/-- The outcomes that end the resource, and those after which the pointer is cleared. -/
structure Policy (Outcome : Type u) where
  ends : Outcome → Bool
  clears : Outcome → Bool

/-- A pointer, with whether the resource behind it is alive; a cleared one refers to nothing. -/
abbrev Pointer := Option Bool

variable {Outcome : Type u}

section Releases

variable (policy : Policy Outcome)

/-- A release; it yields whether the resource was alive, unless the pointer was cleared. -/
def release (outcome : Outcome) : Pointer → Pointer × Option Bool
  | none => (none, none)
  | some alive =>
      (if policy.clears outcome then none else some (alive && !policy.ends outcome), some alive)

/-- For each release that is applied to the resource, whether that was alive. -/
def applied : List Outcome → Pointer → List Bool
  | [], _ => []
  | outcome :: later, pointer =>
      let (next, alive) := release policy outcome pointer
      alive.toList ++ applied later next

/-- No release is applied to a resource that is not alive. -/
def Safe (outcomes : List Outcome) (pointer : Pointer) : Prop :=
  ∀ alive ∈ applied policy outcomes pointer, alive = true

end Releases

variable {policy : Policy Outcome} {outcome : Outcome} {outcomes later : List Outcome}
  {pointer : Pointer} {alive : Bool}

theorem safe_nil : Safe policy [] pointer := by
  intro alive mem
  exact absurd mem List.not_mem_nil

/-- Nothing is released through a cleared pointer. -/
theorem safe_of_cleared : Safe policy outcomes none := by
  induction outcomes with
  | nil => exact safe_nil
  | cons outcome later ih => exact ih

theorem safe_cons_iff :
    Safe policy (outcome :: later) (some alive) ↔
      alive = true ∧ Safe policy later
        (if policy.clears outcome then none else some (alive && !policy.ends outcome)) :=
  List.forall_mem_cons

/-- The pointer remains valid if every outcome that ends the resource clears it. -/
theorem safe_of_clears
    (clearing : ∀ outcome, policy.ends outcome = true → policy.clears outcome = true) :
    Safe policy outcomes (some true) := by
  induction outcomes with
  | nil => exact safe_nil
  | cons outcome later ih =>
      apply safe_cons_iff.mpr
      refine ⟨rfl, ?_⟩
      split
      · exact safe_of_cleared
      · rename_i keeps
        have lives : policy.ends outcome = false := by
          by_contra ends
          exact keeps (clearing outcome (by simpa using ends))
        rw [lives]
        exact ih

theorem safe_ended_iff : Safe policy outcomes (some false) ↔ outcomes = [] := by
  cases outcomes with
  | nil => simp [safe_nil]
  | cons outcome later => simp [safe_cons_iff]

/--
Releases of a live resource are safe exactly if nothing follows an outcome that ends it
without clearing the pointer, unless the pointer has been cleared before.
-/
theorem safe_iff :
    Safe policy outcomes (some true) ↔
      ∀ (earlier : List Outcome) (outcome : Outcome) (later : List Outcome),
        outcomes = earlier ++ outcome :: later → policy.ends outcome = true →
          policy.clears outcome = false →
            (∃ other ∈ earlier, policy.clears other = true) ∨ later = [] := by
  induction outcomes with
  | nil => simp [safe_nil]
  | cons first rest ih =>
      rw [safe_cons_iff, and_iff_right rfl, Bool.true_and]
      constructor
      · intro safe earlier outcome later split ends keeps
        cases earlier with
        | nil =>
            rcases List.cons.inj split with ⟨rfl, rfl⟩
            rw [ends, keeps] at safe
            exact .inr (safe_ended_iff.mp safe)
        | cons other others =>
            rcases List.cons.inj split with ⟨rfl, restEq⟩
            cases clears : policy.clears first with
            | true => exact .inl ⟨first, List.mem_cons_self, clears⟩
            | false =>
                cases ended : policy.ends first with
                | true =>
                    rw [ended, clears] at safe
                    have nothing := safe_ended_iff.mp safe
                    rw [restEq] at nothing
                    simp at nothing
                | false =>
                    rw [ended, clears] at safe
                    rcases ih.mp safe others outcome later restEq ends keeps with
                      ⟨found, mem, foundClears⟩ | nothing
                    · exact .inl ⟨found, List.mem_cons_of_mem first mem, foundClears⟩
                    · exact .inr nothing
      · intro condition
        cases clears : policy.clears first with
        | true => exact safe_of_cleared
        | false =>
            cases ended : policy.ends first with
            | true =>
                rcases condition [] first rest rfl ended clears with ⟨_, mem, _⟩ | nothing
                · exact absurd mem List.not_mem_nil
                · rw [nothing]
                  exact safe_nil
            | false =>
                apply ih.mpr
                intro earlier outcome later split ends keeps
                rcases condition (first :: earlier) outcome later (congrArg (first :: ·) split)
                    ends keeps with ⟨found, mem, foundClears⟩ | nothing
                · rcases List.mem_cons.mp mem with rfl | inEarlier
                  · rw [clears] at foundClears
                    simp at foundClears
                  · exact .inl ⟨found, inEarlier, foundClears⟩
                · exact .inr nothing

end GuardedReleases
