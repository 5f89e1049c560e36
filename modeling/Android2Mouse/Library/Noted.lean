import Android2Mouse.Library.Attempt
import Android2Mouse.Library.Heap

/-!
# Attempted outputs with notes

A program that attempts outputs and makes notes on the way, such as the entries of a log.
An output that the device does not take is answered with what went wrong. `Erases p q`
says that the program `q` with plain attempts is `p` without its notes: the two then
attempt the same outputs and return the same value (`Erases.run`).

When the notes are made in a state, and making one may fail, the run is that of the
notes in their order (`run_eq`): a program whose notes can all be made does what it does
without them.
-/
namespace Android2Mouse.Library

inductive Noted (ρ ε μ α : Type) where
  | done (value : α)
  | send (output : ρ) (next : Option ε → Noted ρ ε μ α)
  | note (m : μ) (next : Noted ρ ε μ α)

/-- What the `n`-th attempt is answered with; `none` when it is taken. -/
abbrev Answers (ε : Type) := ℕ → Option ε

namespace Answers

variable {ε : Type}

def after (n : ℕ) (a : Answers ε) : Answers ε := fun k => a (n + k)

/-- Which attempts are taken. -/
def outcomes (a : Answers ε) : Outcomes := fun n => (a n).isNone

@[simp] theorem after_zero (a : Answers ε) : a.after 0 = a := by
  funext k
  rw [after, Nat.zero_add]

@[simp] theorem after_after (m n : ℕ) (a : Answers ε) : (a.after m).after n = a.after (m + n) := by
  funext k
  simp only [after]
  rw [Nat.add_assoc]

@[simp] theorem outcomes_after (n : ℕ) (a : Answers ε) :
    (a.after n).outcomes = a.outcomes.after n := rfl

end Answers

namespace Noted

variable {ρ ε μ α β σ φ : Type}

def bind : Noted ρ ε μ α → (α → Noted ρ ε μ β) → Noted ρ ε μ β
  | .done a, f => f a
  | .send r k, f => .send r fun e => (k e).bind f
  | .note m p, f => .note m (p.bind f)

instance : Monad (Noted ρ ε μ) where
  pure := .done
  bind := .bind

@[simp] theorem pure_eq (a : α) : (pure a : Noted ρ ε μ α) = .done a := rfl

@[simp] theorem done_bind (a : α) (f : α → Noted ρ ε μ β) : (Noted.done a >>= f) = f a := rfl

@[simp] theorem send_bind (r : ρ) (k : Option ε → Noted ρ ε μ α) (f : α → Noted ρ ε μ β) :
    (Noted.send r k >>= f) = .send r fun e => k e >>= f := rfl

@[simp] theorem note_bind (m : μ) (p : Noted ρ ε μ α) (f : α → Noted ρ ε μ β) :
    (Noted.note m p >>= f) = .note m (p >>= f) := rfl

theorem bind_assoc {γ : Type} (p : Noted ρ ε μ α) (f : α → Noted ρ ε μ β) (g : β → Noted ρ ε μ γ) :
    (p >>= f) >>= g = p >>= fun a => f a >>= g := by
  induction p with
  | done a => rfl
  | send r k ih =>
    simp only [send_bind]
    congr 1
    funext e
    exact ih e
  | note m p ih =>
    simp only [note_bind]
    congr 1

/-- Make a note. -/
def noting (m : μ) : Noted ρ ε μ Unit := .note m (.done ())

@[simp] theorem noting_bind (m : μ) (f : Unit → Noted ρ ε μ β) :
    (noting m >>= f) = .note m (f ()) := rfl

/-! ## Running -/

/-- The outputs attempted, in order. -/
def attempts : Noted ρ ε μ α → Answers ε → List ρ
  | .done _, _ => []
  | .send r k, a => r :: (k (a 0)).attempts (a.after 1)
  | .note _ p, a => p.attempts a

def result : Noted ρ ε μ α → Answers ε → α
  | .done v, _ => v
  | .send _ k, a => (k (a 0)).result (a.after 1)
  | .note _ p, a => p.result a

/-- The notes made, in order. -/
def notes : Noted ρ ε μ α → Answers ε → List μ
  | .done _, _ => []
  | .send _ k, a => (k (a 0)).notes (a.after 1)
  | .note m p, a => m :: p.notes a

@[simp] theorem notes_done (v : α) (a : Answers ε) :
    (Noted.done v : Noted ρ ε μ α).notes a = [] := rfl

@[simp] theorem notes_note (m : μ) (p : Noted ρ ε μ α) (a : Answers ε) :
    (Noted.note m p).notes a = m :: p.notes a := rfl

@[simp] theorem notes_send (r : ρ) (k : Option ε → Noted ρ ε μ α) (a : Answers ε) :
    (Noted.send r k).notes a = (k (a 0)).notes (a.after 1) := rfl

theorem notes_bind (p : Noted ρ ε μ α) (f : α → Noted ρ ε μ β) (a : Answers ε) :
    (p >>= f).notes a =
      p.notes a ++ (f (p.result a)).notes (a.after (p.attempts a).length) := by
  induction p generalizing a with
  | done v => rw [done_bind, notes_done, result, attempts, List.length_nil, a.after_zero,
      List.nil_append]
  | send r k ih =>
    rw [send_bind, notes_send, ih, notes_send, result, attempts, List.length_cons,
      Answers.after_after, Nat.add_comm 1]
  | note m p ih => rw [note_bind, notes_note, ih, notes_note, List.cons_append, result, attempts]

/-! ## Making the notes -/

/-- A run whose notes change a state; it stops where a note cannot be made. -/
def run (step : σ → μ → Except φ σ) : Noted ρ ε μ α → Answers ε → σ → Except φ (σ × List ρ × α)
  | .done v, _, s => .ok (s, [], v)
  | .send r k, a, s => do
    let (s, rs, v) ← (k (a 0)).run step (a.after 1) s
    return (s, r :: rs, v)
  | .note m p, a, s => do
    let s ← step s m
    p.run step a s

theorem run_eq (step : σ → μ → Except φ σ) (p : Noted ρ ε μ α) (a : Answers ε) (s : σ) :
    p.run step a s =
      (p.notes a).foldlM step s >>= fun s => .ok (s, p.attempts a, p.result a) := by
  induction p generalizing a s with
  | done v => rfl
  | send r k ih =>
    rw [run, ih, notes_send, attempts, result]
    cases ((k (a 0)).notes (a.after 1)).foldlM step s with
    | error e => rfl
    | ok s => rfl
  | note m p ih =>
    rw [run, notes_note, List.foldlM_cons, attempts, result]
    cases step s m with
    | error e => rfl
    | ok s => exact ih a s

/-! ## Without the notes -/

/-- `q` is `p` without its notes. -/
inductive Erases : Noted ρ ε μ α → Attempt ρ α → Prop
  | done (v : α) : Erases (.done v) (.done v)
  | send (r : ρ) {k : Option ε → Noted ρ ε μ α} {k' : Bool → Attempt ρ α}
      (h : ∀ e, Erases (k e) (k' e.isNone)) : Erases (.send r k) (.send r k')
  | note (m : μ) {p : Noted ρ ε μ α} {q : Attempt ρ α} (h : Erases p q) : Erases (.note m p) q

theorem Erases.bind {p : Noted ρ ε μ α} {q : Attempt ρ α} {f : α → Noted ρ ε μ β}
    {g : α → Attempt ρ β} (h : p.Erases q) (hf : ∀ v, (f v).Erases (g v)) :
    (p >>= f).Erases (q >>= g) := by
  induction h with
  | done v => exact hf v
  | send r _ ih => exact .send r ih
  | note m _ ih => exact .note m ih

/-- Whatever is noted, the two attempt the same outputs and return the same value. -/
theorem Erases.run {p : Noted ρ ε μ α} {q : Attempt ρ α} (h : p.Erases q) (a : Answers ε) :
    p.attempts a = q.attempts a.outcomes ∧ p.result a = q.result a.outcomes := by
  induction h generalizing a with
  | done v => exact ⟨rfl, rfl⟩
  | send r _ ih =>
    obtain ⟨hattempts, hresult⟩ := ih (a 0) (a.after 1)
    exact ⟨congrArg (r :: ·) hattempts, hresult⟩
  | note m _ ih => exact ih a

end Noted

end Android2Mouse.Library
