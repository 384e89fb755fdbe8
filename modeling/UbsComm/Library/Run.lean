import Mathlib.Algebra.Ring.Nat

/-! # Runs of a deterministic system under a side condition

A system is a step function on states.  `Run step allowed start finish` says that
`finish` is reached from `start` by actions each of which was allowed in the state it
was taken in. -/

namespace UbsComm.Library

variable {State Action : Type*} {step : State → Action → State} {allowed : State → Action → Prop}
  {start finish : State} {motive : State → Prop}

inductive Run (step : State → Action → State) (allowed : State → Action → Prop) (start : State) : State → Prop where
  | refl : Run step allowed start start
  | snoc {middle : State} (run : Run step allowed start middle) (action : Action) (permitted : allowed middle action) :
      Run step allowed start (step middle action)

/-- What holds at the start and is kept by every allowed step holds in every state reached. -/
theorem Run.invariant (run : Run step allowed start finish) (initial : motive start)
    (preserved : ∀ state action, motive state → allowed state action → motive (step state action)) : motive finish := by
  induction run with
  | refl => exact initial
  | snoc run action permitted ih => exact preserved _ action ih permitted

/-- A guarded step keeps what its body keeps. -/
theorem guarded {guard : Prop} [Decidable guard] {state next : State} (kept : motive state)
    (taken : guard → motive next) : motive (if guard then next else state) := by
  split
  next holds => exact taken holds
  next => exact kept

/-- Each action of the list is allowed in the state it is taken in. -/
def AllAllowed (step : State → Action → State) (allowed : State → Action → Prop) : State → List Action → Prop
  | _, [] => True
  | state, action :: actions => allowed state action ∧ AllAllowed step allowed (step state action) actions

instance AllAllowed.decidable [∀ state action, Decidable (allowed state action)] :
    ∀ state actions, Decidable (AllAllowed step allowed state actions)
  | _, [] => .isTrue trivial
  | state, action :: actions =>
    have := AllAllowed.decidable (step state action) actions
    inferInstanceAs (Decidable (_ ∧ _))

theorem Run.ofList {actions : List Action} (permitted : AllAllowed step allowed start actions) :
    Run step allowed start (actions.foldl step start) := by
  have extend : ∀ middle, Run step allowed start middle → AllAllowed step allowed middle actions →
      Run step allowed start (actions.foldl step middle) := by
    clear permitted
    induction actions with
    | nil => exact fun _ run _ => run
    | cons action actions ih =>
      intro middle run permitted
      exact ih _ (run.snoc action permitted.1) permitted.2
  exact extend start .refl permitted

end UbsComm.Library
