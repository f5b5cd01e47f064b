import Mathlib.Data.List.Basic
import Mathlib.Logic.Function.Basic

/-!
# Runs of partial step functions

A concurrent component is presented as a partial function taking a state and
an action to the next state; the action carries every choice the environment
makes (whose turn it is, what the clock reads, what a scan visits first).  A
run folds the step function along a list of actions, and it exists exactly
when every action was enabled in its turn.

The rules below are the only inductions over runs: an invariant kept by every
step, an invariant kept by the steps that meet a condition, the state in which
a given action of a run was taken, and the balance of a measure over a run.
-/

namespace Igloo

namespace LabelledRuns

variable {State Action : Type*}

/-- The state after a list of actions, when all of them are enabled. -/
def run (step : State → Action → Option State) :
    State → List Action → Option State
  | state, [] => some state
  | state, action :: actions =>
      (step state action).bind fun next => run step next actions

@[simp]
theorem run_nil (step : State → Action → Option State) (state : State) :
    run step state [] = some state :=
  rfl

theorem run_cons_eq_some_iff {step : State → Action → Option State}
    {state last : State} {action : Action} {actions : List Action} :
    run step state (action :: actions) = some last ↔
      ∃ next, step state action = some next ∧
        run step next actions = some last := by
  simp [run, Option.bind_eq_some_iff]

theorem run_append_eq_some_iff {step : State → Action → Option State}
    {state last : State} {first second : List Action} :
    run step state (first ++ second) = some last ↔
      ∃ middle, run step state first = some middle ∧
        run step middle second = some last := by
  induction first generalizing state with
  | nil => simp
  | cons action first induction =>
      simp only [List.cons_append, run_cons_eq_some_iff, induction]
      constructor
      · rintro ⟨next, taken, middle, toMiddle, toLast⟩
        exact ⟨middle, ⟨next, taken, toMiddle⟩, toLast⟩
      · rintro ⟨middle, ⟨next, taken, toMiddle⟩, toLast⟩
        exact ⟨next, taken, middle, toMiddle, toLast⟩

theorem exists_step_of_run {step : State → Action → Option State}
    {state last : State} {before after : List Action} {action : Action}
    (taken : run step state (before ++ action :: after) = some last) :
    ∃ current next, run step state before = some current ∧
      step current action = some next ∧
      run step next after = some last := by
  obtain ⟨current, toCurrent, rest⟩ := run_append_eq_some_iff.mp taken
  obtain ⟨next, stepped, toLast⟩ := run_cons_eq_some_iff.mp rest
  exact ⟨current, next, toCurrent, stepped, toLast⟩

/-- `Along step allowed state actions` says that every action of the run
starting in `state` meets `allowed` in the state where it is taken. -/
def Along (step : State → Action → Option State)
    (allowed : State → Action → Prop) : State → List Action → Prop
  | _, [] => True
  | state, action :: actions =>
      allowed state action ∧
        match step state action with
        | some next => Along step allowed next actions
        | none => True

instance Along.decidable (step : State → Action → Option State)
    (allowed : State → Action → Prop)
    [∀ state action, Decidable (allowed state action)] :
    ∀ state actions, Decidable (Along step allowed state actions)
  | _, [] => isTrue trivial
  | state, action :: actions =>
      let _ : Decidable (match step state action with
          | some next => Along step allowed next actions
          | none => True) :=
        match step state action with
        | some next => Along.decidable step allowed next actions
        | none => isTrue trivial
      inferInstanceAs (Decidable (allowed state action ∧ _))

theorem Along.next {step : State → Action → Option State}
    {allowed : State → Action → Prop} {state next : State} {action : Action}
    {actions : List Action}
    (along : Along step allowed state (action :: actions))
    (stepped : step state action = some next) :
    Along step allowed next actions := by
  have continued := along.2
  rwa [stepped] at continued

/-- An invariant kept by the allowed steps holds at the end of every run all
of whose steps are allowed. -/
theorem invariant_of_along {step : State → Action → Option State}
    {allowed : State → Action → Prop} {invariant : State → Prop}
    (preserved : ∀ state action next, invariant state →
      allowed state action → step state action = some next →
        invariant next)
    {state last : State} {actions : List Action}
    (initially : invariant state) (along : Along step allowed state actions)
    (taken : run step state actions = some last) : invariant last := by
  induction actions generalizing state with
  | nil =>
      cases taken
      exact initially
  | cons action actions induction =>
      obtain ⟨next, stepped, rest⟩ := run_cons_eq_some_iff.mp taken
      exact induction
        (preserved state action next initially along.1 stepped)
        (along.next stepped) rest

theorem along_of_forall {step : State → Action → Option State}
    {allowed : State → Action → Prop}
    (always : ∀ state action, allowed state action)
    (state : State) (actions : List Action) :
    Along step allowed state actions := by
  induction actions generalizing state with
  | nil => trivial
  | cons action actions induction =>
      refine ⟨always state action, ?_⟩
      split
      · exact induction _
      · trivial

/-- An invariant kept by every step holds at the end of every run. -/
theorem invariant_of_run {step : State → Action → Option State}
    {invariant : State → Prop}
    (preserved : ∀ state action next, invariant state →
      step state action = some next → invariant next)
    {state last : State} {actions : List Action}
    (initially : invariant state)
    (taken : run step state actions = some last) : invariant last := by
  have along : Along step (fun _ _ => True) state actions :=
    along_of_forall (fun _ _ => trivial) state actions
  exact invariant_of_along
    (fun state action next holds _ => preserved state action next holds)
    initially along taken

/-- A property that each step keeps exactly when it is allowed holds at the
end of a run exactly when it held at first and every step was allowed. -/
theorem iff_along_of_run {step : State → Action → Option State}
    {allowed : State → Action → Prop} {invariant property : State → Prop}
    (preserved : ∀ state action next, invariant state →
      step state action = some next → invariant next)
    (kept_iff : ∀ state action next, invariant state →
      step state action = some next →
        (property next ↔ allowed state action ∧ property state))
    {state last : State} {actions : List Action}
    (initially : invariant state)
    (taken : run step state actions = some last) :
    property last ↔ property state ∧ Along step allowed state actions := by
  induction actions generalizing state with
  | nil =>
      cases taken
      exact (and_iff_left trivial).symm
  | cons action actions induction =>
      obtain ⟨next, stepped, rest⟩ := run_cons_eq_some_iff.mp taken
      have later := induction
        (preserved state action next initially stepped) rest
      rw [later, kept_iff state action next initially stepped]
      simp only [Along, stepped]
      tauto

/-- The total of a weight over the steps of a run, each step weighed in the
state where it is taken. -/
def sumAlong (step : State → Action → Option State)
    (weight : State → Action → Nat) : State → List Action → Nat
  | _, [] => 0
  | state, action :: actions =>
      weight state action +
        match step state action with
        | some next => sumAlong step weight next actions
        | none => 0

theorem sumAlong_cons {step : State → Action → Option State}
    {state next : State} {action : Action}
    (weight : State → Action → Nat) (actions : List Action)
    (stepped : step state action = some next) :
    sumAlong step weight state (action :: actions) =
      weight state action + sumAlong step weight next actions := by
  simp only [sumAlong, stepped]

@[simp]
theorem sumAlong_zero (step : State → Action → Option State) (state : State)
    (actions : List Action) :
    sumAlong step (fun _ _ => 0) state actions = 0 := by
  induction actions generalizing state with
  | nil => rfl
  | cons action actions induction =>
      simp only [sumAlong]
      split
      · rw [induction]
      · rfl

/-- A measure whose every change is accounted for as earned or spent changes
over a run by the total earned less the total spent. -/
theorem balance_of_run {step : State → Action → Option State}
    {measure : State → Nat} {earned spent : State → Action → Nat}
    (balanced : ∀ state action next, step state action = some next →
      measure next + spent state action = measure state + earned state action)
    {state last : State} {actions : List Action}
    (taken : run step state actions = some last) :
    measure last + sumAlong step spent state actions =
      measure state + sumAlong step earned state actions := by
  induction actions generalizing state with
  | nil =>
      cases taken
      rfl
  | cons action actions induction =>
      obtain ⟨next, stepped, rest⟩ := run_cons_eq_some_iff.mp taken
      have first := balanced state action next stepped
      have others := induction rest
      rw [sumAlong_cons spent actions stepped,
        sumAlong_cons earned actions stepped]
      omega

/-- A fact about the state of every party survives an update of one party's
state to one it holds of. -/
theorem forall_update {Value : Type} {held : Nat → Option Value}
    {property : Value → Prop}
    (others : ∀ key value, held key = some value → property value)
    {key : Nat} {value : Value} (own : property value) :
    ∀ other found, Function.update held key (some value) other = some found →
      property found := by
  intro other found foundEq
  by_cases same : other = key
  · subst other
    rw [Function.update_self] at foundEq
    cases foundEq
    exact own
  · rw [Function.update_of_ne same] at foundEq
    exact others other found foundEq

end LabelledRuns

end Igloo
