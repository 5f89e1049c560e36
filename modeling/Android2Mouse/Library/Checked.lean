import Mathlib.Data.List.FinRange
import Android2Mouse.Library.Attempt

/-!
# Programs whose accesses are checked

`Checked ε ρ α` is a program of attempts that a fault `ε` can end. An access by
index is one step of it: `get` and `set` fault outside the array, with the index
in the fault, where a program in C would read or write whatever is there.

`Runs c p` says that the checked program `c` has no fault and is otherwise the
program `p`. It is kept by sequencing and by branching, so that what remains to be
shown of a program are its accesses and its loops.
-/
namespace Android2Mouse.Library

abbrev Checked (ε ρ α : Type) := ExceptT ε (Attempt ρ) α

namespace Checked

variable {ε ρ α β κ : Type} {n : ℕ}

def get (fault : ℕ → ε) (xs : Vector κ n) (i : ℕ) : Checked ε ρ κ :=
  if h : i < n then pure (xs.get ⟨i, h⟩) else throw (fault i)

def set (fault : ℕ → ε) (xs : Vector κ n) (i : ℕ) (v : κ) : Checked ε ρ (Vector κ n) :=
  if h : i < n then pure (xs.set i v h) else throw (fault i)

/-- An access to an array that is given as the list of its elements. -/
def getList (fault : ℕ → ε) (xs : List κ) (i : ℕ) : Checked ε ρ κ :=
  if h : i < xs.length then pure (xs.get ⟨i, h⟩) else throw (fault i)

/-- The checked program is the plain one. -/
def Runs (c : Checked ε ρ α) (p : Attempt ρ α) : Prop := c = ExceptT.lift p

theorem Runs.lift (p : Attempt ρ α) : Runs (ExceptT.lift p : Checked ε ρ α) p := rfl

theorem Runs.pure (a : α) : Runs (pure a : Checked ε ρ α) (.done a) := rfl

theorem Runs.bind {c : Checked ε ρ α} {p : Attempt ρ α} {f : α → Checked ε ρ β}
    {g : α → Attempt ρ β} (hc : Runs c p) (hf : ∀ a, Runs (f a) (g a)) :
    Runs (c >>= f) (p >>= g) := by
  obtain rfl := hc
  obtain rfl : f = fun a => ExceptT.lift (g a) := funext hf
  induction p with
  | done a => rfl
  | send r k ih => exact congrArg (Attempt.send r) (funext ih)

/-- After a step that returns a known value. -/
theorem Runs.step {c : Checked ε ρ α} {a : α} {f : α → Checked ε ρ β} {q : Attempt ρ β}
    (hc : Runs c (.done a)) (hf : Runs (f a) q) : Runs (c >>= f) q := by
  obtain rfl := hc
  exact hf

theorem Runs.ite {P : Prop} [Decidable P] {c d : Checked ε ρ α} {p q : Attempt ρ α}
    (hc : P → Runs c p) (hd : ¬ P → Runs d q) : Runs (if P then c else d) (if P then p else q) := by
  by_cases h : P
  · rw [if_pos h, if_pos h]
    exact hc h
  · rw [if_neg h, if_neg h]
    exact hd h

theorem Runs.attempts {c : Checked ε ρ α} {p : Attempt ρ α} (h : Runs c p) (o : Outcomes) :
    c.run.attempts o = p.attempts o := by
  obtain rfl := h
  induction p generalizing o with
  | done a => rfl
  | send r k ih => exact congrArg (r :: ·) (ih (o 0) (o.after 1))

/-- No fault. -/
theorem Runs.result {c : Checked ε ρ α} {p : Attempt ρ α} (h : Runs c p) (o : Outcomes) :
    c.run.result o = .ok (p.result o) := by
  obtain rfl := h
  induction p generalizing o with
  | done a => rfl
  | send r k ih => exact ih (o 0) (o.after 1)

/-! ## Accesses in range -/

theorem get_runs (fault : ℕ → ε) (xs : Vector κ n) (i : ℕ) (h : i < n) :
    Runs (get fault xs i : Checked ε ρ κ) (.done (xs.get ⟨i, h⟩)) := dif_pos h

theorem set_runs (fault : ℕ → ε) (xs : Vector κ n) (i : ℕ) (v : κ) (h : i < n) :
    Runs (set fault xs i v : Checked ε ρ (Vector κ n)) (.done (xs.set i v h)) := dif_pos h

theorem getList_runs (fault : ℕ → ε) (xs : List κ) (i : ℕ) (h : i < xs.length) :
    Runs (getList fault xs i : Checked ε ρ κ) (.done (xs.get ⟨i, h⟩)) := dif_pos h

/-! ## Loops over an array -/

/-- `for (; i < n; ++i) if (xs[i] == old) { xs[i] = new; break; }` with `left`
iterations to go: the array, and the index at which the loop stops. -/
def replaceLoop [DecidableEq κ] (fault : ℕ → ε) (xs : Vector κ n) (old new : κ) :
    ℕ → ℕ → Checked ε ρ (Vector κ n × ℕ)
  | 0, i => pure (xs, i)
  | left + 1, i => do
    if (← get fault xs i) = old then
      let xs ← set fault xs i new
      return (xs, i)
    else replaceLoop fault xs old new left (i + 1)

/-- The array with the found place overwritten, and where the loop stops. -/
def replaced (xs : Vector κ n) (new : κ) : Option (Fin n) → Vector κ n × ℕ
  | some i => (xs.set i new i.isLt, i)
  | none => (xs, n)

theorem replaceLoop_runs [DecidableEq κ] (fault : ℕ → ε) (xs : Vector κ n) (old new : κ)
    (left i : ℕ) (h : i + left = n) :
    Runs (replaceLoop fault xs old new left i : Checked ε ρ (Vector κ n × ℕ))
      (.done (replaced xs new (((List.finRange n).drop i).find? fun j => xs.get j = old))) := by
  induction left generalizing i with
  | zero =>
    obtain rfl : i = n := h
    rw [List.drop_of_length_le (by rw [List.length_finRange])]
    exact Runs.pure _
  | succ left ih =>
    have hi : i < n := by omega
    have hdrop : (List.finRange n).drop i = ⟨i, hi⟩ :: (List.finRange n).drop (i + 1) := by
      rw [List.drop_eq_getElem_cons (by rwa [List.length_finRange]), List.getElem_finRange]
      rfl
    rw [hdrop]
    refine Runs.step (get_runs fault xs i hi) ?_
    by_cases hold : xs.get ⟨i, hi⟩ = old
    · rw [if_pos hold, List.find?_cons_of_pos (by simpa using hold)]
      exact Runs.step (set_runs fault xs i new hi) (Runs.pure _)
    · rw [if_neg hold, List.find?_cons_of_neg (by simpa using hold)]
      exact ih (i + 1) (by omega)

/-- The elements at some indices, one access after another. -/
def readAll (fault : ℕ → ε) (xs : Vector κ n) : List ℕ → Checked ε ρ (List κ)
  | [] => pure []
  | i :: is => do
    let v ← get fault xs i
    let vs ← readAll fault xs is
    return v :: vs

theorem readAll_runs (fault : ℕ → ε) (xs : Vector κ n) (is : List (Fin n)) :
    Runs (readAll fault xs (is.map Fin.val) : Checked ε ρ (List κ))
      (.done (is.map xs.get)) := by
  induction is with
  | nil => exact Runs.pure []
  | cons i is ih => exact Runs.step (get_runs fault xs i i.isLt) (Runs.step ih (Runs.pure _))

/-- `xs[i0] != v && xs[i1] != v && …` -/
def noneHolds [DecidableEq κ] (fault : ℕ → ε) (xs : Vector κ n) (v : κ) :
    List ℕ → Checked ε ρ Bool
  | [] => pure true
  | i :: is => do
    if (← get fault xs i) = v then return false
    else noneHolds fault xs v is

theorem noneHolds_runs [DecidableEq κ] (fault : ℕ → ε) (xs : Vector κ n) (v : κ)
    (is : List (Fin n)) :
    Runs (noneHolds fault xs v (is.map Fin.val) : Checked ε ρ Bool)
      (.done (is.all fun i => xs.get i ≠ v)) := by
  induction is with
  | nil => exact Runs.pure true
  | cons i is ih =>
    refine Runs.step (get_runs fault xs i i.isLt) ?_
    by_cases hv : xs.get i = v
    · rw [if_pos hv, List.all_cons, decide_eq_false (not_not_intro hv)]
      exact Runs.pure false
    · rw [if_neg hv, List.all_cons, decide_eq_true hv]
      exact ih

/-- `for (; i < n; ++i) to[i] = from[i];` with `left` iterations to go. -/
def copyLoop (fault : ℕ → ε) (source : Vector κ n) :
    ℕ → ℕ → Vector κ n → Checked ε ρ (Vector κ n)
  | 0, _, target => pure target
  | left + 1, i, target => do
    let v ← get fault source i
    let target ← set fault target i v
    copyLoop fault source left (i + 1) target

theorem copyLoop_runs (fault : ℕ → ε) (source target : Vector κ n) (left i : ℕ)
    (h : i + left = n) (hdone : ∀ j : Fin n, j < i → target.get j = source.get j) :
    Runs (copyLoop fault source left i target : Checked ε ρ (Vector κ n)) (.done source) := by
  induction left generalizing i target with
  | zero =>
    obtain rfl : i = n := h
    obtain rfl : target = source := Vector.ext fun j hj => hdone ⟨j, hj⟩ hj
    exact Runs.pure _
  | succ left ih =>
    have hi : i < n := by omega
    refine Runs.step (get_runs fault source i hi) (Runs.step (set_runs fault target i _ hi) ?_)
    refine ih _ (i + 1) (by omega) fun j hj => ?_
    have hset : (target.set i (source.get ⟨i, hi⟩) hi).get j =
        if i = j then source.get ⟨i, hi⟩ else target.get j :=
      Vector.getElem_set hi j.isLt
    rw [hset]
    split
    next heq => exact congrArg source.get (Fin.ext heq)
    next hne => exact hdone j (by omega)

end Checked

end Android2Mouse.Library
