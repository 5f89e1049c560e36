import Mathlib.Data.List.Basic

/-!
# Calls that are made again

A call that is interrupted is made again, until it returns or fails for good. The answers
are given; while they run out before that, the caller is still waiting (`none`).
-/
namespace Android2Mouse.Library

inductive Answer (α : Type) where
  | ok (value : α)
  | again
  | fail
  deriving DecidableEq, Repr

variable {α : Type}

/-- What the call returns in the end, `none` for a failure, and the answers left. -/
def retry : List (Answer α) → Option (Option α × List (Answer α))
  | [] => none
  | .again :: answers => retry answers
  | .fail :: answers => some (none, answers)
  | .ok v :: answers => some (some v, answers)

/-- Interruptions make no difference. -/
theorem retry_again (k : ℕ) (answers : List (Answer α)) :
    retry (List.replicate k .again ++ answers) = retry answers := by
  induction k with
  | zero => rfl
  | succ k ih => rw [List.replicate_succ, List.cons_append, retry, ih]

theorem retry_ok (k : ℕ) (v : α) (answers : List (Answer α)) :
    retry (List.replicate k .again ++ .ok v :: answers) = some (some v, answers) := by
  rw [retry_again, retry]

end Android2Mouse.Library
