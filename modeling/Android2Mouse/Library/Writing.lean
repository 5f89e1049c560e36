import Android2Mouse.Library.Effect

/-!
# Programs that perform attempted calls

A program that performs its calls, where another only attempts them, writes something on the
way. It faults, it has not ended, or it returns a value. `Refines Carries w p` says that
each run of `w` that ends is a run of `p`, its calls answered in some way, and that `w` has
written what these calls carry, one after the other. It is kept by sequencing
(`Refines.bind`), so that it is proved of the single calls only.
-/
namespace Android2Mouse.Library

variable {ε β ρ α γ : Type}

/-! ## Runs of attempted calls -/

namespace Attempt

/-- A run, by its calls with their outcomes and by the value that it returns. -/
inductive Runs : Attempt ρ α → List (ρ × Bool) → α → Prop
  | done (a : α) : Runs (.done a) [] a
  | send {r : ρ} {k : Bool → Attempt ρ α} (ok : Bool) {calls : List (ρ × Bool)} {a : α}
      (h : Runs (k ok) calls a) : Runs (.send r k) ((r, ok) :: calls) a

theorem Runs.bind {p : Attempt ρ α} {f : α → Attempt ρ γ} {calls calls' : List (ρ × Bool)} {a : α}
    {c : γ} (h : p.Runs calls a) (hf : (f a).Runs calls' c) : (p >>= f).Runs (calls ++ calls') c := by
  induction h with
  | done a => exact hf
  | send ok _ ih => exact .send ok (ih hf)

/-- There are outcomes that lead to each run. -/
theorem Runs.outcomes {p : Attempt ρ α} {calls : List (ρ × Bool)} {a : α} (h : p.Runs calls a) :
    ∃ o, p.trace o = calls ∧ p.result o = a := by
  induction h with
  | done a => exact ⟨Outcomes.allSucceed, rfl, rfl⟩
  | send ok _ ih =>
    obtain ⟨o, htrace, hresult⟩ := ih
    have hafter : Outcomes.after 1 (fun n => Nat.casesOn n ok o) = o := by
      funext n
      rw [Outcomes.after_apply, Nat.add_comm]
    refine ⟨fun n => Nat.casesOn n ok o, ?_, ?_⟩
    · rw [trace, hafter]
      exact congrArg ((_, ok) :: ·) htrace
    · rw [result_send, hafter]
      exact hresult

end Attempt

/-! ## Writing -/

/-- How a run of a program that writes comes out; `waiting` has not ended. -/
inductive Writing (ε β α : Type) where
  | fault (e : ε)
  | waiting
  | ended (written : List β) (value : α)
  deriving DecidableEq, Repr

namespace Writing

/-- With what was written before. -/
def after (before : List β) : Writing ε β α → Writing ε β α
  | .fault e => .fault e
  | .waiting => .waiting
  | .ended written a => .ended (before ++ written) a

def bind : Writing ε β α → (α → Writing ε β γ) → Writing ε β γ
  | .fault e, _ => .fault e
  | .waiting, _ => .waiting
  | .ended written a, f => (f a).after written

instance : Monad (Writing ε β) where
  pure := .ended []
  bind := .bind

/-- A run that is given by a fault, by `none` while it has not ended, or by what it has
written and its value. -/
def ofResult : Except ε (Option (List β × α)) → Writing ε β α
  | .error e => .fault e
  | .ok none => .waiting
  | .ok (some r) => .ended r.1 r.2

theorem ofResult_ended {r : Except ε (Option (List β × α))} {sent : List β} {a : α} :
    ofResult r = .ended sent a ↔ r = .ok (some (sent, a)) := by
  rcases r with e | _ | r
  · exact ⟨fun h => (by cases h), fun h => (by cases h)⟩
  · exact ⟨fun h => (by cases h), fun h => (by cases h)⟩
  · rw [ofResult, Writing.ended.injEq, Except.ok.injEq, Option.some.injEq, Prod.ext_iff]

theorem ended_bind (written : List β) (a : α) (f : α → Writing ε β γ) :
    (Writing.ended written a : Writing ε β α) >>= f = (f a).after written := rfl

theorem after_ended {before sent : List β} {w : Writing ε β α} {a : α} :
    w.after before = .ended sent a ↔ ∃ rest, w = .ended rest a ∧ sent = before ++ rest := by
  cases w with
  | fault e => exact ⟨fun h => (by cases h), fun ⟨_, h, _⟩ => (by cases h)⟩
  | waiting => exact ⟨fun h => (by cases h), fun ⟨_, h, _⟩ => (by cases h)⟩
  | ended written b =>
    rw [after, Writing.ended.injEq]
    constructor
    · rintro ⟨rfl, rfl⟩
      exact ⟨written, rfl, rfl⟩
    · rintro ⟨rest, h, rfl⟩
      obtain ⟨rfl, rfl⟩ := Writing.ended.inj h
      exact ⟨rfl, rfl⟩

/-- A sequence ends exactly when its two parts do. -/
theorem bind_ended {w : Writing ε β α} {f : α → Writing ε β γ} {sent : List β} {c : γ} :
    w >>= f = .ended sent c ↔
      ∃ first a rest, w = .ended first a ∧ f a = .ended rest c ∧ sent = first ++ rest := by
  cases w with
  | fault e => exact ⟨fun h => (by cases h), fun ⟨_, _, _, h, _⟩ => (by cases h)⟩
  | waiting => exact ⟨fun h => (by cases h), fun ⟨_, _, _, h, _⟩ => (by cases h)⟩
  | ended written a =>
    rw [ended_bind, after_ended]
    constructor
    · rintro ⟨rest, hf, rfl⟩
      exact ⟨written, a, rest, rfl, hf, rfl⟩
    · rintro ⟨first, a', rest, h, hf, rfl⟩
      obtain ⟨rfl, rfl⟩ := Writing.ended.inj h
      exact ⟨rest, hf, rfl⟩

/-- The run neither faults nor goes on. -/
def Ends (w : Writing ε β α) : Prop := ∃ written a, w = .ended written a

theorem Ends.pure (a : α) : Ends (pure a : Writing ε β α) := ⟨[], a, rfl⟩

theorem Ends.bind {w : Writing ε β α} {f : α → Writing ε β γ} (h : w.Ends) (hf : ∀ a, (f a).Ends) :
    (w >>= f).Ends := by
  obtain ⟨first, a, hw⟩ := h
  obtain ⟨rest, c, hrest⟩ := hf a
  exact ⟨first ++ rest, c, bind_ended.mpr ⟨first, a, rest, hw, hrest, rfl⟩⟩

/-! ## Refinement -/

/-- What calls carry, one after the other. -/
inductive Carried (Carries : ρ → Bool → List β → Prop) : List (ρ × Bool) → List β → Prop
  | nil : Carried Carries [] []
  | cons {r : ρ} {ok : Bool} {first rest : List β} {calls : List (ρ × Bool)}
      (h : Carries r ok first) (hrest : Carried Carries calls rest) :
      Carried Carries ((r, ok) :: calls) (first ++ rest)

variable {Carries : ρ → Bool → List β → Prop}

/-- A call that carries nothing. -/
theorem Carried.silent {r : ρ} {ok : Bool} {calls : List (ρ × Bool)} {sent : List β}
    (h : Carries r ok []) (hrest : Carried Carries calls sent) :
    Carried Carries ((r, ok) :: calls) sent := by
  have hcons := Carried.cons h hrest
  rwa [List.nil_append] at hcons

theorem Carried.append {calls calls' : List (ρ × Bool)} {sent sent' : List β}
    (h : Carried Carries calls sent) (h' : Carried Carries calls' sent') :
    Carried Carries (calls ++ calls') (sent ++ sent') := by
  induction h with
  | nil => exact h'
  | cons hfirst _ ih =>
    rw [List.append_assoc]
    exact .cons hfirst ih

/-- Each run of `w` that ends is one of `p`, and has written what its calls carry. -/
def Refines (Carries : ρ → Bool → List β → Prop) (w : Writing ε β α) (p : Attempt ρ α) : Prop :=
  ∀ sent a, w = .ended sent a → ∃ calls, p.Runs calls a ∧ Carried Carries calls sent

theorem Refines.pure (a : α) : Refines Carries (pure a : Writing ε β α) (.done a) := by
  intro sent b h
  obtain ⟨rfl, rfl⟩ := Writing.ended.inj h
  exact ⟨[], .done a, .nil⟩

theorem Refines.bind {w : Writing ε β α} {p : Attempt ρ α} {f : α → Writing ε β γ}
    {g : α → Attempt ρ γ} (h : Refines Carries w p) (hf : ∀ a, Refines Carries (f a) (g a)) :
    Refines Carries (w >>= f) (p >>= g) := by
  intro sent c hends
  obtain ⟨first, a, rest, hw, hrest, rfl⟩ := bind_ended.mp hends
  obtain ⟨calls, hruns, hcarried⟩ := h first a hw
  obtain ⟨calls', hruns', hcarried'⟩ := hf a rest c hrest
  exact ⟨calls ++ calls', hruns.bind hruns', hcarried.append hcarried'⟩

end Writing

end Android2Mouse.Library
