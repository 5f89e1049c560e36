import Android2Mouse.Library.Attempt

/-!
# What attempted outputs do outside

An effect says what an output, taken or not, makes of the state outside, or that it is not
allowed there. `replay` follows a run; `Ensures` is the weakest precondition for no output to
be out of place and for the program to end as it should, and `replay_of_ensures` is its
soundness over all outcomes.
-/
namespace Android2Mouse.Library

abbrev Effect (ρ σ : Type) := ρ → Bool → σ → Option σ

namespace Attempt

variable {ρ σ α β : Type}

/-- The outputs with their outcomes. -/
def trace : Attempt ρ α → Outcomes → List (ρ × Bool)
  | .done _, _ => []
  | .send r k, o => (r, o 0) :: (k (o 0)).trace (o.after 1)

/-- What a run leaves outside. -/
def replay (effect : Effect ρ σ) : σ → List (ρ × Bool) → Option σ
  | s, [] => some s
  | s, (r, ok) :: outputs => (effect r ok s).bind fun s => replay effect s outputs

def Ensures (effect : Effect ρ σ) (Q : α → σ → Prop) : Attempt ρ α → σ → Prop
  | .done a, s => Q a s
  | .send r k, s => ∀ ok, ∃ s', effect r ok s = some s' ∧ (k ok).Ensures effect Q s'

variable {effect : Effect ρ σ}

theorem Ensures.bind {Q : β → σ → Prop} {p : Attempt ρ α} {f : α → Attempt ρ β} {s : σ}
    (h : p.Ensures effect (fun a s => (f a).Ensures effect Q s) s) :
    (p >>= f).Ensures effect Q s := by
  induction p generalizing s with
  | done a => exact h
  | send r k ih =>
    intro ok
    obtain ⟨s', heffect, hrest⟩ := h ok
    exact ⟨s', heffect, ih ok hrest⟩

theorem Ensures.mono {Q Q' : α → σ → Prop} (hpost : ∀ a s, Q a s → Q' a s) {p : Attempt ρ α}
    {s : σ} (h : p.Ensures effect Q s) : p.Ensures effect Q' s := by
  induction p generalizing s with
  | done a => exact hpost a s h
  | send r k ih =>
    intro ok
    obtain ⟨s', heffect, hrest⟩ := h ok
    exact ⟨s', heffect, ih ok hrest⟩

theorem replay_of_ensures {Q : α → σ → Prop} {p : Attempt ρ α} {s : σ} (h : p.Ensures effect Q s)
    (o : Outcomes) : ∃ s', replay effect s (p.trace o) = some s' ∧ Q (p.result o) s' := by
  induction p generalizing s o with
  | done a => exact ⟨s, rfl, h⟩
  | send r k ih =>
    obtain ⟨s', heffect, hrest⟩ := h (o 0)
    obtain ⟨s'', hreplay, hpost⟩ := ih (o 0) hrest (o.after 1)
    refine ⟨s'', ?_, hpost⟩
    rw [trace, replay, heffect]
    exact hreplay

end Attempt

end Android2Mouse.Library
