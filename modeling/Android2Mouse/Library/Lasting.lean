import Mathlib.Data.List.Basic
import Mathlib.Data.List.Induction
import Mathlib.Algebra.BigOperators.Group.List.Basic
import Mathlib.Algebra.GroupWithZero.Nat

/-!
# What lasts over a history

A condition that some events of a history start and some end lasts when an
event has started it and no event since has ended it. `lasting_snoc` is the
recursion over the latest event; `run_iff_lasting` is the rule for a program
whose state tracks the condition: it is enough that every step starts and ends
it with the event the step answers to. `throughout_iff` is the rule for a run in
which some events break an invariant, `countSteps_le` bounds the steps of a run that
a measure pays for.

An event is met with the events before it, as a split of the history. A longer
history has the splits of the shorter one and one more (`split_snoc_iff`), so what
holds of all of them is proved along it (`forall_split_snoc`, `forall_split_cons`).
-/
namespace Android2Mouse.Library

variable {ε σ : Type}

/-! ## Events and what was before them -/

/-- In a history with one more event, an event with what was before it is the new one
or one of the history. -/
theorem split_snoc_iff (history before since : List ε) (e e' : ε) :
    history ++ [e] = before ++ e' :: since ↔
      (since = [] ∧ before = history ∧ e' = e) ∨
        ∃ since', since = since' ++ [e] ∧ history = before ++ e' :: since' := by
  constructor
  · intro heq
    rcases List.eq_nil_or_concat since with rfl | ⟨since', e₂, rfl⟩
    · obtain ⟨hbefore, hlast⟩ := List.append_inj' heq rfl
      exact Or.inl ⟨rfl, hbefore.symm, (List.singleton_inj.mp hlast).symm⟩
    · have hsplit : history ++ [e] = (before ++ e' :: since') ++ [e₂] := by
        rw [heq, List.concat_eq_append, List.append_assoc, List.cons_append]
      obtain ⟨hhistory, hlast⟩ := List.append_inj' hsplit rfl
      rw [List.singleton_inj] at hlast
      exact Or.inr ⟨since', by rw [List.concat_eq_append, hlast], hhistory⟩
  · rintro (⟨rfl, rfl, rfl⟩ | ⟨since', rfl, rfl⟩)
    · rfl
    · rw [List.append_assoc, List.cons_append]

/-- What holds of every event and the events before it, the last event apart. -/
theorem forall_split_snoc (P : List ε → ε → Prop) (history : List ε) (e : ε) :
    (∀ before e' since, history ++ [e] = before ++ e' :: since → P before e') ↔
      (∀ before e' since, history = before ++ e' :: since → P before e') ∧ P history e := by
  constructor
  · intro hall
    refine ⟨fun before e' since heq => hall before e' (since ++ [e]) ?_, hall history e [] rfl⟩
    exact (split_snoc_iff history before _ e e').mpr (Or.inr ⟨since, rfl, heq⟩)
  · rintro ⟨hall, hlast⟩ before e' since heq
    rcases (split_snoc_iff history before since e e').mp heq with
      ⟨_, rfl, rfl⟩ | ⟨since', _, hhistory⟩
    · exact hlast
    · exact hall before e' since' hhistory

/-- What holds of every event and the events before it, the first event apart. -/
theorem forall_split_cons (P : List ε → ε → Prop) (e : ε) (history : List ε) :
    (∀ before e' since, e :: history = before ++ e' :: since → P before e') ↔
      P [] e ∧ ∀ before e' since, history = before ++ e' :: since → P (e :: before) e' := by
  constructor
  · intro hall
    refine ⟨hall [] e history rfl, fun before e' since heq => hall (e :: before) e' since ?_⟩
    rw [heq, List.cons_append]
  · rintro ⟨hfirst, hall⟩ before e' since heq
    cases before with
    | nil =>
      obtain ⟨rfl, _⟩ := List.cons.inj heq
      exact hfirst
    | cons e₁ before =>
      obtain ⟨rfl, hhistory⟩ := List.cons.inj heq
      exact hall before e' since hhistory

theorem forall_split_nil (P : List ε → ε → Prop) (before : List ε) (e : ε) (since : List ε)
    (heq : ([] : List ε) = before ++ e :: since) : P before e :=
  absurd heq.symm (by simp)

/-! ## Lasting conditions -/

/-- Some event started it, and none since ended it. -/
def Lasting (starts ends : ε → Prop) (history : List ε) : Prop :=
  ∃ before e since, history = before ++ e :: since ∧ starts e ∧ ∀ e' ∈ since, ¬ ends e'

section

variable (starts ends : ε → Prop)

theorem not_lasting_nil : ¬ Lasting starts ends [] := by
  rintro ⟨before, e, since, heq, _⟩
  simp at heq

theorem Lasting.exists_start {starts ends : ε → Prop} {history : List ε}
    (h : Lasting starts ends history) : ∃ e ∈ history, starts e := by
  obtain ⟨before, e, since, rfl, hstarts, _⟩ := h
  exact ⟨e, by simp, hstarts⟩

/-- The latest event starts it, or does not end what lasted before. -/
theorem lasting_snoc (history : List ε) (e : ε) :
    Lasting starts ends (history ++ [e]) ↔
      starts e ∨ (Lasting starts ends history ∧ ¬ ends e) := by
  constructor
  · rintro ⟨before, e₁, since, heq, hstarts, hsince⟩
    rcases (split_snoc_iff history before since e e₁).mp heq with
      ⟨_, _, rfl⟩ | ⟨since', rfl, hhistory⟩
    · exact Or.inl hstarts
    · refine Or.inr ⟨⟨before, e₁, since', hhistory, hstarts, fun e' he' => ?_⟩, ?_⟩
      · exact hsince e' (List.mem_append_left _ he')
      · exact hsince e (List.mem_append_right _ (List.mem_singleton_self e))
  · rintro (hstarts | ⟨⟨before, e₁, since, hhistory, hstarts, hsince⟩, hends⟩)
    · exact ⟨history, e, [], rfl, hstarts, fun e' he' => absurd he' List.not_mem_nil⟩
    · refine ⟨before, e₁, since ++ [e], ?_, hstarts, fun e' he' => ?_⟩
      · exact (split_snoc_iff history before _ e e₁).mpr (Or.inr ⟨since, rfl, hhistory⟩)
      · rcases List.mem_append.mp he' with hmem | hmem
        · exact hsince e' hmem
        · rw [List.mem_singleton.mp hmem]
          exact hends

/-- A state that is moved by each event as the condition is tells whether the
condition lasts. -/
theorem run_iff_lasting (step : σ → ε → σ) (holds : σ → Prop) (s : σ) (hinit : ¬ holds s)
    (hstep : ∀ s e, holds (step s e) ↔ starts e ∨ (holds s ∧ ¬ ends e)) (history : List ε) :
    holds (history.foldl step s) ↔ Lasting starts ends history := by
  induction history using List.reverseRecOn with
  | nil => exact iff_of_false hinit (not_lasting_nil starts ends)
  | append_singleton history e ih =>
    rw [List.foldl_append, List.foldl_cons, List.foldl_nil, hstep, lasting_snoc, ih]

end

/-! ## Invariants with a known breach -/

/-- An invariant that every good event keeps holds all through a history of them. -/
theorem inv_throughout (inv : List ε → Prop) (good : List ε → ε → Prop) (hinit : inv [])
    (hkeep : ∀ before e, inv before → good before e → inv (before ++ [e])) (events : List ε)
    (h : ∀ before e since, events = before ++ e :: since → good before e) :
    ∀ before since, events = before ++ since → inv before := by
  intro before
  induction before using List.reverseRecOn with
  | nil => exact fun _ _ => hinit
  | append_singleton before e ih =>
    intro since hevents
    rw [List.append_assoc, List.singleton_append] at hevents
    exact hkeep before e (ih (e :: since) hevents) (h before e since hevents)

/-- Where an event is good exactly when it is `ok`, as long as every event before
it was good, all the events of a history are good exactly when all are `ok`. -/
theorem throughout_iff (inv : List ε → Prop) (good ok : List ε → ε → Prop) (hinit : inv [])
    (hstep : ∀ before e, inv before → (good before e ↔ ok before e))
    (hkeep : ∀ before e, inv before → good before e → inv (before ++ [e])) (events : List ε) :
    (∀ before e since, events = before ++ e :: since → good before e) ↔
      ∀ before e since, events = before ++ e :: since → ok before e := by
  constructor
  · intro h before e since hevents
    have hbefore := inv_throughout inv good hinit hkeep events h before (e :: since) hevents
    exact (hstep before e hbefore).mp (h before e since hevents)
  · intro h before e since hevents
    have hkeep' : ∀ before e, inv before → ok before e → inv (before ++ [e]) :=
      fun before e hbefore hok => hkeep before e hbefore ((hstep before e hbefore).mpr hok)
    have hbefore := inv_throughout inv ok hinit hkeep' events h before (e :: since) hevents
    exact (hstep before e hbefore).mpr (h before e since hevents)

/-- A property that each event can only break by being bad itself holds of a
history exactly when all its events are good. -/
theorem all_good_iff (P : List ε → Prop) (good : List ε → ε → Prop) (hinit : P [])
    (hsnoc : ∀ before e, P (before ++ [e]) ↔ P before ∧ good before e) (events : List ε) :
    P events ↔ ∀ before e since, events = before ++ e :: since → good before e := by
  induction events using List.reverseRecOn with
  | nil => exact iff_of_true hinit (forall_split_nil good)
  | append_singleton events e ih => rw [hsnoc, ih, forall_split_snoc]

/-- Where a step keeps the invariant exactly when it is `ok`, the invariant
holds after every step of a run exactly when every step of the run is. -/
theorem holds_throughout_iff (step : σ → ε → σ) (inv : σ → Prop) (ok : σ → ε → Prop)
    (hstep : ∀ s e, inv s → (inv (step s e) ↔ ok s e)) (s : σ) (hs : inv s) (events : List ε) :
    (∀ before e since, events = before ++ e :: since → inv ((before ++ [e]).foldl step s)) ↔
      ∀ before e since, events = before ++ e :: since → ok (before.foldl step s) e := by
  refine throughout_iff (fun before => inv (before.foldl step s))
    (fun before e => inv ((before ++ [e]).foldl step s)) (fun before e => ok (before.foldl step s) e)
    hs ?_ (fun _ _ _ hgood => hgood) events
  intro before e hbefore
  rw [List.foldl_concat]
  exact hstep _ e hbefore

/-! ## Steps that are paid for -/

section

variable (step : σ → ε → σ) (counted : σ → ε → Prop) [∀ s e, Decidable (counted s e)]

/-- The counted steps of a run. -/
def countSteps : σ → List ε → ℕ
  | _, [] => 0
  | s, e :: events => (if counted s e then 1 else 0) + countSteps (step s e) events

/-- Where every counted step lowers a measure and every event raises it by no more
than it brings in, a run has no more counted steps than the measure and the events
pay for. -/
theorem countSteps_le (load : σ → ℕ) (brings : ε → ℕ) (s : σ) (events : List ε)
    (hbrings : ∀ s e, load (step s e) ≤ load s + brings e)
    (hcounted : ∀ before e since, events = before ++ e :: since →
      counted (before.foldl step s) e →
        load (step (before.foldl step s) e) < load (before.foldl step s)) :
    countSteps step counted s events ≤ load s + (events.map brings).sum := by
  induction events generalizing s with
  | nil => exact Nat.zero_le _
  | cons e events ih =>
    obtain ⟨hfirst, hcounted⟩ := (forall_split_cons (fun before e =>
      counted (before.foldl step s) e →
        load (step (before.foldl step s) e) < load (before.foldl step s)) e events).mp hcounted
    have hrest := ih (step s e) hcounted
    rw [countSteps, List.map_cons, List.sum_cons]
    by_cases hc : counted s e
    · have hlower : load (step s e) < load s := hfirst hc
      rw [if_pos hc]
      omega
    · have hmore := hbrings s e
      rw [if_neg hc]
      omega

end

end Android2Mouse.Library
