import Mathlib.Data.List.Basic

/-!
# Attempted outputs

A program that hands outputs to an unreliable device one at a time and learns,
after each of them, only whether the device took it. The program is a finite
tree: a leaf is a returned value, a node is one attempted output with a
continuation for either outcome.

Running the tree against a pattern of outcomes gives the outputs attempted
(`attempts`), those of them that the device took (`taken`) and the value returned
(`result`). The composition laws (`attempts_bind`, `taken_bind`, `result_bind`)
and the locality law (`attempts_local`: only the outcomes of the program's own
attempts matter) are what the rest of the development uses.
-/
namespace Android2Mouse.Library

/-- One attempted output after another, each answered by success or failure. -/
inductive Attempt (ρ α : Type) where
  | done (value : α)
  | send (output : ρ) (next : Bool → Attempt ρ α)

/-- The outcome of the `n`-th attempt, for every `n`. -/
abbrev Outcomes := ℕ → Bool

namespace Outcomes

/-- The outcomes left once `n` attempts have been answered. -/
def after (n : ℕ) (o : Outcomes) : Outcomes := fun k => o (n + k)

/-- The device that takes everything. -/
def allSucceed : Outcomes := fun _ => true

@[simp] theorem after_apply (n k : ℕ) (o : Outcomes) : o.after n k = o (n + k) := rfl

@[simp] theorem after_zero (o : Outcomes) : o.after 0 = o := by
  funext k
  simp

@[simp] theorem after_after (m n : ℕ) (o : Outcomes) : (o.after m).after n = o.after (m + n) := by
  funext k
  simp [Nat.add_assoc]

@[simp] theorem after_allSucceed (n : ℕ) : allSucceed.after n = allSucceed := rfl

end Outcomes

namespace Attempt

variable {ρ α β γ : Type}

def bind : Attempt ρ α → (α → Attempt ρ β) → Attempt ρ β
  | .done a, f => f a
  | .send r k, f => .send r fun ok => (k ok).bind f

instance : Monad (Attempt ρ) where
  pure := .done
  bind := .bind

/-- Attempt one output and return its outcome. -/
def attempt (r : ρ) : Attempt ρ Bool := .send r .done

@[simp] theorem pure_eq (a : α) : (pure a : Attempt ρ α) = .done a := rfl

@[simp] theorem done_bind (a : α) (f : α → Attempt ρ β) : (Attempt.done a >>= f) = f a := rfl

@[simp] theorem send_bind (r : ρ) (k : Bool → Attempt ρ α) (f : α → Attempt ρ β) :
    (Attempt.send r k >>= f) = .send r fun ok => k ok >>= f := rfl

theorem bind_done (p : Attempt ρ α) : (p >>= Attempt.done) = p := by
  induction p with
  | done a => rfl
  | send r k ih =>
    rw [send_bind]
    congr 1
    funext ok
    exact ih ok

theorem bind_assoc (p : Attempt ρ α) (f : α → Attempt ρ β) (g : β → Attempt ρ γ) :
    (p >>= f) >>= g = p >>= fun a => f a >>= g := by
  induction p with
  | done a => rfl
  | send r k ih =>
    simp only [send_bind]
    congr 1
    funext ok
    exact ih ok

/-- The outputs handed to the device, taken or not, in order. -/
def attempts : Attempt ρ α → Outcomes → List ρ
  | .done _, _ => []
  | .send r k, o => r :: (k (o 0)).attempts (o.after 1)

/-- The value returned. -/
def result : Attempt ρ α → Outcomes → α
  | .done a, _ => a
  | .send _ k, o => (k (o 0)).result (o.after 1)

@[simp] theorem attempts_done (a : α) (o : Outcomes) :
    (Attempt.done a : Attempt ρ α).attempts o = [] := rfl

@[simp] theorem attempts_send (r : ρ) (k : Bool → Attempt ρ α) (o : Outcomes) :
    (Attempt.send r k).attempts o = r :: (k (o 0)).attempts (o.after 1) := rfl

@[simp] theorem result_done (a : α) (o : Outcomes) :
    (Attempt.done a : Attempt ρ α).result o = a := rfl

@[simp] theorem result_send (r : ρ) (k : Bool → Attempt ρ α) (o : Outcomes) :
    (Attempt.send r k).result o = (k (o 0)).result (o.after 1) := rfl

theorem result_bind (p : Attempt ρ α) (f : α → Attempt ρ β) (o : Outcomes) :
    (p >>= f).result o = (f (p.result o)).result (o.after (p.attempts o).length) := by
  induction p generalizing o with
  | done a => simp
  | send r k ih => simp [ih, Nat.add_comm]

theorem attempts_bind (p : Attempt ρ α) (f : α → Attempt ρ β) (o : Outcomes) :
    (p >>= f).attempts o =
      p.attempts o ++ (f (p.result o)).attempts (o.after (p.attempts o).length) := by
  induction p generalizing o with
  | done a => simp
  | send r k ih => simp [ih, Nat.add_comm]

/-- The outputs that the device took. -/
def taken : Attempt ρ α → Outcomes → List ρ
  | .done _, _ => []
  | .send r k, o =>
    if o 0 then r :: (k (o 0)).taken (o.after 1) else (k (o 0)).taken (o.after 1)

@[simp] theorem taken_done (a : α) (o : Outcomes) :
    (Attempt.done a : Attempt ρ α).taken o = [] := rfl

@[simp] theorem taken_send (r : ρ) (k : Bool → Attempt ρ α) (o : Outcomes) :
    (Attempt.send r k).taken o =
      (if o 0 then [r] else []) ++ (k (o 0)).taken (o.after 1) := by
  rw [taken]
  cases o 0 with
  | true => rfl
  | false => rfl

theorem taken_bind (p : Attempt ρ α) (f : α → Attempt ρ β) (o : Outcomes) :
    (p >>= f).taken o =
      p.taken o ++ (f (p.result o)).taken (o.after (p.attempts o).length) := by
  induction p generalizing o with
  | done a => simp
  | send r k ih => simp [ih, Nat.add_comm]

/-- Outcomes past the program's own attempts are never consulted. -/
theorem run_local (p : Attempt ρ α) (o o' : Outcomes)
    (h : ∀ n < (p.attempts o).length, o n = o' n) :
    p.attempts o' = p.attempts o ∧ p.result o' = p.result o := by
  induction p generalizing o o' with
  | done a => exact ⟨rfl, rfl⟩
  | send r k ih =>
    have hfirst : o 0 = o' 0 := h 0 (by simp)
    have hrest := ih (o 0) (o.after 1) (o'.after 1) (fun n hn => by
      simpa using h (1 + n) (by simp only [attempts_send, List.length_cons]; omega))
    simp only [attempts_send, result_send, ← hfirst]
    exact ⟨by rw [hrest.1], hrest.2⟩

theorem attempts_local (p : Attempt ρ α) (o o' : Outcomes)
    (h : ∀ n < (p.attempts o).length, o n = o' n) : p.attempts o' = p.attempts o :=
  (run_local p o o' h).1

/-! ## The value and the number of outputs -/

/-- With these outcomes the program returns `a` after `n` outputs. -/
def Yields (p : Attempt ρ α) (o : Outcomes) (n : ℕ) (a : α) : Prop :=
  (p.attempts o).length = n ∧ p.result o = a

theorem yields_done (o : Outcomes) (a : α) : (Attempt.done a : Attempt ρ α).Yields o 0 a :=
  ⟨rfl, rfl⟩

theorem Yields.attempt {o : Outcomes} {r : ρ} {f : Bool → Attempt ρ α} {n : ℕ} {a : α}
    (h : (f (o 0)).Yields (o.after 1) n a) : (Attempt.attempt r >>= f).Yields o (1 + n) a :=
  ⟨(Nat.add_comm 1 n).symm ▸ congrArg Nat.succ h.1, h.2⟩

theorem Yields.bind {p : Attempt ρ α} {f : α → Attempt ρ β} {o : Outcomes} {m n : ℕ} {a : α} {b : β}
    (h : p.Yields o m a) (hf : (f a).Yields (o.after m) n b) : (p >>= f).Yields o (m + n) b := by
  rw [Yields, attempts_bind, result_bind, h.2, List.length_append, h.1]
  exact ⟨congrArg (m + ·) hf.1, hf.2⟩

theorem Yields.map {p : Attempt ρ α} {o : Outcomes} {n : ℕ} {a : α} (h : p.Yields o n a) (f : α → β) :
    (p >>= fun a => pure (f a)).Yields o n (f a) :=
  Yields.bind (f := fun a => pure (f a)) h (yields_done _ (f a))

/-- Only the outcomes of its own outputs matter. -/
theorem Yields.congr {p : Attempt ρ α} {o o' : Outcomes} {n : ℕ} {a : α} (h : p.Yields o n a)
    (ho : ∀ k < n, o k = o' k) : p.Yields o' n a := by
  obtain ⟨hattempts, hresult⟩ := run_local p o o' fun k hk => ho k (h.1 ▸ hk)
  rw [Yields, hattempts, hresult]
  exact h

/-! ## Programs that may not have ended -/

/-- `q` goes on where `p` has not ended. -/
inductive Extends : Attempt ρ (Option α) → Attempt ρ (Option α) → Prop
  | none (q : Attempt ρ (Option α)) : Extends (.done none) q
  | done (a : Option α) : Extends (.done a) (.done a)
  | send (r : ρ) {k k' : Bool → Attempt ρ (Option α)} (h : ∀ ok, Extends (k ok) (k' ok)) :
      Extends (.send r k) (.send r k')

theorem Extends.refl (p : Attempt ρ (Option α)) : Extends p p := by
  induction p with
  | done a => exact .done a
  | send r k ih => exact .send r ih

theorem Extends.bind {p q : Attempt ρ (Option α)} {f g : Option α → Attempt ρ (Option β)}
    (h : Extends p q) (hnone : f .none = .done .none) (hf : ∀ a, Extends (f a) (g a)) :
    Extends (p >>= f) (q >>= g) := by
  induction h with
  | none q =>
    rw [done_bind, hnone]
    exact .none _
  | done a => exact hf a
  | send r _ ih => exact .send r ih

/-- A run that has ended is not changed. -/
theorem Extends.yields {p q : Attempt ρ (Option α)} (h : Extends p q) {o : Outcomes} {n : ℕ} {a : α}
    (hp : p.Yields o n (some a)) : q.Yields o n (some a) := by
  induction h generalizing o n with
  | none q => exact absurd hp.2 (Option.some_ne_none a).symm
  | done b => exact hp
  | send r _ ih =>
    obtain ⟨n, rfl⟩ : ∃ m, n = 1 + m := ⟨n - 1, by have := hp.1; simp at this; omega⟩
    exact Yields.attempt (ih (o 0) ⟨Nat.succ.inj (hp.1.trans (Nat.add_comm 1 n)), hp.2⟩)

/-! ## Other outputs -/

/-- The same program, its outputs written in another way. -/
def mapOutput {ρ' : Type} (f : ρ → ρ') : Attempt ρ α → Attempt ρ' α
  | .done a => .done a
  | .send r k => .send (f r) fun ok => (k ok).mapOutput f

theorem mapOutput_bind {ρ' : Type} (f : ρ → ρ') (p : Attempt ρ α) (g : α → Attempt ρ β) :
    (p >>= g).mapOutput f = p.mapOutput f >>= fun a => (g a).mapOutput f := by
  induction p with
  | done a => rfl
  | send r k ih =>
    rw [send_bind, mapOutput, mapOutput, send_bind]
    congr 1
    funext ok
    exact ih ok

theorem attempts_mapOutput {ρ' : Type} (f : ρ → ρ') (p : Attempt ρ α) (o : Outcomes) :
    (p.mapOutput f).attempts o = (p.attempts o).map f := by
  induction p generalizing o with
  | done a => rfl
  | send r k ih => rw [mapOutput, attempts_send, ih, attempts_send, List.map_cons]

theorem result_mapOutput {ρ' : Type} (f : ρ → ρ') (p : Attempt ρ α) (o : Outcomes) :
    (p.mapOutput f).result o = p.result o := by
  induction p generalizing o with
  | done a => rfl
  | send r k ih => rw [mapOutput, result_send, ih, result_send]

/-! ## One program after another -/

/-- The outputs of `f` on each input in turn, every call answered by the
outcomes that its own attempts meet. -/
def inOrder (f : α → Outcomes → List ρ) : List α → Outcomes → List ρ
  | [], _ => []
  | a :: as, o => f a o ++ inOrder f as (o.after (f a o).length)

theorem inOrder_allSucceed (f : α → Outcomes → List ρ) (as : List α) :
    inOrder f as Outcomes.allSucceed = as.flatMap fun a => f a Outcomes.allSucceed := by
  induction as with
  | nil => rfl
  | cons a as ih => simp [inOrder, ih]

end Attempt

end Android2Mouse.Library
