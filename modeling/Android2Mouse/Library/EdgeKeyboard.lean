import Mathlib.Data.List.Dedup

/-!
# An edge-triggered keyboard

A host that is told, report after report, which keys are down, and types a key
when it is down in a report and was not in the one before. The text typed by
two runs of reports is not the two texts joined, since a key that stays down
over the seam is not typed again; `typed_append` says what is kept. Runs that
end with every key up compose freely (`typed_flatMap`).
-/
namespace Android2Mouse.Library.EdgeKeyboard

variable {α κ μ χ : Type} [DecidableEq κ]

/-- The keys down in one report, and the modifiers they are down under. -/
structure Snapshot (κ μ : Type) where
  modifier : μ
  keys : List κ
  deriving DecidableEq, Repr

/-- The keys that have gone down since the last report. -/
def pressed (before keys : List κ) : List κ := (keys.filter (· ∉ before)).dedup

/-- The text typed by a run of reports that starts with the keys `before` down. -/
def typed (decode : μ → κ → Option χ) : List κ → List (Snapshot κ μ) → List χ
  | _, [] => []
  | before, r :: rs =>
    (pressed before r.keys).filterMap (decode r.modifier) ++ typed decode r.keys rs

/-- The keys down at the end of a run. -/
def downAfter : List κ → List (Snapshot κ μ) → List κ
  | before, [] => before
  | _, r :: rs => downAfter r.keys rs

theorem typed_append (decode : μ → κ → Option χ) (before : List κ)
    (rs rs' : List (Snapshot κ μ)) :
    typed decode before (rs ++ rs') =
      typed decode before rs ++ typed decode (downAfter before rs) rs' := by
  induction rs generalizing before with
  | nil => rfl
  | cons r rs ih =>
    rw [List.cons_append, typed, typed, ih, List.append_assoc]
    rfl

/-- Runs that leave every key up do not disturb each other. -/
theorem typed_flatMap (decode : μ → κ → Option χ) (f : α → List (Snapshot κ μ))
    (hup : ∀ a, downAfter [] (f a) = []) (as : List α) :
    typed decode [] (as.flatMap f) = as.flatMap fun a => typed decode [] (f a) := by
  induction as with
  | nil => rfl
  | cons a as ih => rw [List.flatMap_cons, typed_append, hup, ih, List.flatMap_cons]

@[simp] theorem pressed_nil (before : List κ) : pressed before [] = [] := by
  simp [pressed]

/-- A tap of one key types what the key stands for. -/
theorem typed_tap (decode : μ → κ → Option χ) (m m' : μ) (k : κ) :
    typed decode [] [⟨m, [k]⟩, ⟨m', []⟩] = (decode m k).toList := by
  have hpressed : pressed [] [k] = [k] := by simp [pressed]
  rw [typed, hpressed, typed, typed, pressed_nil]
  cases hk : decode m k with
  | none => simp [hk]
  | some c => simp [hk]

/-- Two reports with no key down type nothing. -/
theorem typed_idle (decode : μ → κ → Option χ) (m m' : μ) :
    typed decode [] [⟨m, []⟩, ⟨m', []⟩] = [] := by
  simp [typed]

end Android2Mouse.Library.EdgeKeyboard
