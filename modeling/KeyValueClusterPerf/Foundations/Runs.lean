import Mathlib

/-!
# Labelled runs of a transition relation

A run records the labels of its steps in the order in which they happened. The
facts below are the induction rules used throughout: an invariant over the trace
and the state, cutting a run at one of its labels, and projecting a run along a
simulation that may drop labels.
-/

namespace LabelledRuns

universe u v w x

variable {State : Type u} {Label : Type v}

/-- `Run step start trace state`: the steps labelled `trace` lead from `start` to `state`. -/
inductive Run (step : State → Label → State → Prop) (start : State) :
    List Label → State → Prop
  | nil : Run step start [] start
  | snoc {trace : List Label} {state next : State} {label : Label}
      (earlier : Run step start trace state) (last : step state label next) :
      Run step start (trace ++ [label]) next

def Stuck (step : State → Label → State → Prop) (state : State) : Prop :=
  ¬∃ label next, step state label next

namespace Run

variable {step : State → Label → State → Prop} {start state : State} {trace : List Label}

theorem single {label : Label} (taken : step start label state) :
    Run step start [label] state := by
  simpa using Run.snoc Run.nil taken

theorem append {middle : State} {later : List Label} (first : Run step start trace middle)
    (second : Run step middle later state) : Run step start (trace ++ later) state := by
  induction second with
  | nil => simpa using first
  | snoc _ last ih => simpa [List.append_assoc] using ih.snoc last

/-- What holds at the start and is kept by every step that a run can take holds after every run. -/
theorem invariant (holds : List Label → State → Prop) (initial : holds [] start)
    (preserved : ∀ {trace : List Label} {state next : State} {label : Label},
      Run step start trace state → holds trace state → step state label next →
        holds (trace ++ [label]) next)
    (run : Run step start trace state) : holds trace state := by
  induction run with
  | nil => exact initial
  | snoc earlier last ih => exact preserved earlier ih last

/-- What no step with a quiet label changes is the same at both ends of a run of such steps. -/
theorem unchanged {Observation : Type w} (observe : State → Observation) {quiet : Label → Prop}
    (kept : ∀ {state next : State} {label : Label}, quiet label → step state label next →
      observe next = observe state) (quietTrace : ∀ label ∈ trace, quiet label)
    (run : Run step start trace state) : observe state = observe start := by
  induction run with
  | nil => rfl
  | @snoc trace middle next label earlier last ih =>
      rw [List.forall_mem_append, List.forall_mem_singleton] at quietTrace
      exact (kept quietTrace.2 last).trans (ih quietTrace.1)

/-- A run with a given label in its trace takes that step between two shorter runs. -/
theorem cut {front back : List Label} {label : Label}
    (run : Run step start (front ++ label :: back) state) :
    ∃ before after, Run step start front before ∧ step before label after ∧
      Run step after back state := by
  generalize labelsEq : front ++ label :: back = labels at run
  induction run generalizing back with
  | nil => simp at labelsEq
  | @snoc trace middle next last earlier taken ih =>
      rcases List.eq_nil_or_concat back with rfl | ⟨shorter, final, rfl⟩
      · have parts := List.append_inj' labelsEq rfl
        rcases parts with ⟨rfl, tailEq⟩
        have sameLabel : label = last := by simpa using tailEq
        subst sameLabel
        exact ⟨middle, next, earlier, taken, Run.nil⟩
      · have regrouped : (front ++ label :: shorter) ++ [final] = trace ++ [last] := by
          simpa using labelsEq
        have parts := List.append_inj' regrouped rfl
        rcases parts with ⟨traceEq, tailEq⟩
        have sameFinal : final = last := by simpa using tailEq
        subst sameFinal
        rcases ih traceEq with ⟨before, after, frontRun, takenLabel, backRun⟩
        exact ⟨before, after, frontRun, takenLabel, by simpa using backRun.snoc taken⟩

theorem step_of_mem {label : Label} (run : Run step start trace state) (present : label ∈ trace) :
    ∃ front back before after, trace = front ++ label :: back ∧
      Run step start front before ∧ step before label after := by
  rcases List.append_of_mem present with ⟨front, back, rfl⟩
  rcases run.cut with ⟨before, after, frontRun, taken, _⟩
  exact ⟨front, back, before, after, rfl, frontRun, taken⟩

/-- A run can be completed if runs are bounded in length and stuck in final states only. -/
theorem exists_final {bound : ℕ} {final : State → Prop}
    (bounded : ∀ {trace state}, Run step start trace state → trace.length ≤ bound)
    (progress : ∀ {trace state}, Run step start trace state → ¬final state → ¬Stuck step state)
    (run : Run step start trace state) :
    ∃ later last, Run step start (trace ++ later) last ∧ final last := by
  generalize leftEq : bound - trace.length = left
  induction left generalizing trace state with
  | zero =>
      have full := bounded run
      by_cases done : final state
      · exact ⟨[], state, by simpa using run, done⟩
      · rcases not_not.mp (progress run done) with ⟨label, next, taken⟩
        have longer := bounded (run.snoc taken)
        rw [List.length_append, List.length_singleton] at longer
        omega
  | succ left ih =>
      by_cases done : final state
      · exact ⟨[], state, by simpa using run, done⟩
      · rcases not_not.mp (progress run done) with ⟨label, next, taken⟩
        have lengthEq : (trace ++ [label]).length = trace.length + 1 := by simp
        rcases ih (run.snoc taken) (by omega) with ⟨later, last, steps, final⟩
        exact ⟨label :: later, last, by simpa using steps, final⟩

variable {Abstract : Type w} {Visible : Type x}

/--
A run projects along a simulation: a step with a visible label is simulated by a
step with that label, and every other step leaves the abstract state alone.
-/
theorem project {coarse : Abstract → Visible → Abstract → Prop} (view : State → Abstract)
    (visible : Label → Option Visible)
    (simulated : ∀ {state next : State} {label : Label}, step state label next →
      match visible label with
      | some seen => coarse (view state) seen (view next)
      | none => view next = view state)
    (run : Run step start trace state) :
    Run coarse (view start) (trace.filterMap visible) (view state) := by
  induction run with
  | nil => exact Run.nil
  | @snoc trace middle next label earlier last ih =>
      have related := simulated last
      cases seen : visible label with
      | none =>
          rw [seen] at related
          simpa [List.filterMap_append, seen, related] using ih
      | some shown =>
          rw [seen] at related
          simpa [List.filterMap_append, seen] using ih.snoc related

end Run

end LabelledRuns
