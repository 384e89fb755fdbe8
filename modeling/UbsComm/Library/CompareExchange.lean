/-! # Loops around a weak compare-and-exchange

The body of such a loop looks at the value it has read and either leaves the loop or proposes a new
value.  A weak exchange may fail although nobody interferes; `casLoop body failures cell` is the loop run
alone on `cell`, with that many failures. -/

namespace UbsComm.Library

variable {α ρ : Type}

/-- What one round wants: to leave with a result, or to store a value and leave with a result. -/
inductive Attempt (α ρ : Type) where
  | leave (result : ρ)
  | store (after : α) (result : ρ)

def casLoop (body : α → Attempt α ρ) : Nat → α → α × ρ
  | failures, cell =>
    match body cell with
    | .leave result => (cell, result)
    | .store after result =>
      match failures with
      | 0 => (after, result)
      -- the exchange reads the cell again, which nobody has changed
      | failures + 1 => casLoop body failures cell

/-- Run alone, the loop is its body, however often the exchange fails. -/
theorem casLoop_alone {body : α → Attempt α ρ} {failures : Nat} {cell : α} :
    casLoop body failures cell =
      match body cell with
      | .leave result => (cell, result)
      | .store after result => (after, result) := by
  induction failures with
  | zero => rw [casLoop]
  | succ failures ih =>
    rw [casLoop]
    cases wanted : body cell with
    | leave result => rfl
    | store after result =>
      rw [wanted] at ih
      exact ih

end UbsComm.Library
