import Mathlib

/-!
# Loops that stop after the element that exceeds a limit

A loop folds a list into a state and tests after each element whether to stop.
`takeThrough` are the elements it handles. It is the shortest nonempty prefix whose
state asks to stop, or the whole list if no prefix does; these two facts determine it.
-/

namespace Cutoff

universe u v

variable {State : Type u} {Element : Type v} (advance : State → Element → State)
  (stop : State → Bool)

/-- The elements handled by a loop that tests its stop condition after each of them. -/
def takeThrough : State → List Element → List Element
  | _, [] => []
  | state, element :: rest =>
      element ::
        if stop (advance state element) then [] else takeThrough (advance state element) rest

variable {advance stop}

theorem takeThrough_prefix (state : State) (elements : List Element) :
    takeThrough advance stop state elements <+: elements := by
  induction elements generalizing state with
  | nil => simp [takeThrough]
  | cons element rest ih =>
      simp only [takeThrough, List.prefix_cons_inj]
      split
      · exact List.nil_prefix
      · exact ih (advance state element)

/-- A loop that stays where its stop condition fails handles everything. -/
theorem takeThrough_of_never {running : State → Prop}
    (kept : ∀ state element, running state → running (advance state element))
    (never : ∀ state, running state → stop state = false) {state : State}
    (initial : running state) (elements : List Element) :
    takeThrough advance stop state elements = elements := by
  induction elements generalizing state with
  | nil => rfl
  | cons element rest ih =>
      have next := kept state element initial
      simp [takeThrough, never _ next, ih next]

/-- The loop does not ask to stop before its last element. -/
theorem not_stop_of_proper_prefix {state : State} {elements handled : List Element}
    (shorter : handled <+: takeThrough advance stop state elements)
    (proper : handled ≠ takeThrough advance stop state elements) (nonempty : handled ≠ []) :
    stop (handled.foldl advance state) = false := by
  induction elements generalizing state handled with
  | nil => exact absurd (List.prefix_nil.mp shorter) nonempty
  | cons element rest ih =>
      rcases handled with _ | ⟨first, later⟩
      · exact absurd rfl nonempty
      simp only [takeThrough] at shorter proper
      rcases List.cons_prefix_cons.mp shorter with ⟨rfl, laterPrefix⟩
      cases stops : stop (advance state first) with
      | true => simp_all
      | false =>
          simp only [stops, Bool.false_eq_true, if_false] at laterPrefix proper
          rcases later with _ | ⟨second, others⟩
          · simpa using stops
          · rw [List.foldl_cons]
            apply ih laterPrefix _ (by simp)
            intro same
            exact proper (by rw [same])

/-- The loop handles everything unless it stops at its last element. -/
theorem takeThrough_eq_or_stop (state : State) (elements : List Element) :
    takeThrough advance stop state elements = elements ∨
      takeThrough advance stop state elements ≠ [] ∧
        stop ((takeThrough advance stop state elements).foldl advance state) = true := by
  induction elements generalizing state with
  | nil => exact .inl rfl
  | cons element rest ih =>
      cases stops : stop (advance state element) with
      | true =>
          right
          simp [takeThrough, stops]
      | false =>
          rcases ih (advance state element) with whole | ⟨_, stopped⟩
          · left
            simp [takeThrough, stops, whole]
          · right
            simp [takeThrough, stops, stopped]

end Cutoff
