import Android2Mouse.Library.Lasting
import Android2Mouse.Guarantees.KeySlots

/-!
# The report and the host

`press_kbd_char` sets the modifier bits before it looks for a slot, and a
rejected press returns without sending. So the report that the daemon keeps and
the last one the host was sent stay the same over a run exactly when no rejected
press of it brings new modifier bits. A press of modifiers alone has keycode zero,
which is never found among six keys: it is rejected like any other.
-/
namespace Android2Mouse.Guarantees.KeySync
open Library Source.ComboConn Source.Hidp KeySlots

/-- The daemon's report after some calls on a zeroed one, with every send taken. -/
def reportAfter (calls : List KeyCall) : KeyboardReport :=
  (runKeys .zero calls).result .allSucceed

/-- The last report the host has: the zeroed one it starts with, or the last sent. -/
def hostReport (calls : List KeyCall) : Payload :=
  ((runKeys .zero calls).attempts .allSucceed).getLast?.getD
    (inputPayload KeyboardReport.zero.bytes)

/-- The host's report is the daemon's. -/
def InSync (calls : List KeyCall) : Prop :=
  hostReport calls = inputPayload (reportAfter calls).bytes

/-- The call leaves the two reports the same; a rejected press changes nothing,
and a press of modifiers alone is sent. -/
def Faithful (before : List KeyCall) (call : KeyCall) : Prop :=
  InSync (before ++ [call]) ∧
    (call.Rejected (reportAfter before) → reportAfter (before ++ [call]) = reportAfter before) ∧
    ∀ modifier, call = .press 0 modifier →
      (call.run (reportAfter before)).attempts .allSucceed ≠ []

/-- A rejected press with keycode zero, or with a modifier bit that is not set. -/
def Unsettling (kbd : KeyboardReport) : KeyCall → Prop
  | .press keycode modifier =>
    Rejected kbd keycode ∧ (keycode = 0 ∨ kbd.modifier ||| modifier ≠ kbd.modifier)
  | .release _ _ => False

theorem runKeys_snoc (kbd : KeyboardReport) (calls : List KeyCall) (call : KeyCall) :
    runKeys kbd (calls ++ [call]) =
      runKeys kbd calls >>= fun kbd => call.run kbd >>= fun r => .done r.1 := by
  induction calls generalizing kbd with
  | nil => rfl
  | cons first calls ih =>
    rw [List.cons_append, runKeys, runKeys, Attempt.bind_assoc]
    congr 1
    funext r
    exact ih r.1

theorem reportAfter_snoc (calls : List KeyCall) (call : KeyCall) :
    reportAfter (calls ++ [call]) = call.after (reportAfter calls) := by
  rw [reportAfter, reportAfter, runKeys_result, runKeys_result, List.foldl_concat]

theorem hostReport_snoc (calls : List KeyCall) (call : KeyCall) :
    hostReport (calls ++ [call]) =
      ((call.run (reportAfter calls)).attempts .allSucceed).getLast?.getD (hostReport calls) := by
  rw [hostReport, runKeys_snoc, Attempt.attempts_bind, Attempt.attempts_bind,
    Outcomes.after_allSucceed, Attempt.attempts_done, List.append_nil, List.getLast?_append,
    Option.getD_or]
  rfl

theorem bytes_modifier {kbd kbd' : KeyboardReport}
    (h : inputPayload kbd.bytes = inputPayload kbd'.bytes) : kbd.modifier = kbd'.modifier := by
  have hbytes : kbd.bytes = kbd'.bytes := List.tail_eq_of_cons_eq h
  exact List.head_eq_of_cons_eq (List.tail_eq_of_cons_eq hbytes)

theorem inSync_nil : InSync [] := rfl

/-- A call that is not rejected is sent, and the host has the report again. -/
theorem inSync_of_sent (before : List KeyCall) (call : KeyCall)
    (h : ¬ call.Rejected (reportAfter before)) : InSync (before ++ [call]) := by
  have hcases := (call.run_cases (reportAfter before) .allSucceed).2
  rcases hcases with ⟨hrejected, _⟩ | ⟨_, hattempts, _⟩
  · exact absurd hrejected h
  · rw [InSync, hostReport_snoc, hattempts, reportAfter_snoc]
    rfl

/-- A rejected press leaves the host behind exactly when it changes the modifier. -/
theorem inSync_of_rejected (before : List KeyCall) (hsync : InSync before) (keycode modifier : UInt8)
    (h : Rejected (reportAfter before) keycode) :
    InSync (before ++ [.press keycode modifier]) ↔
      (reportAfter before).modifier ||| modifier = (reportAfter before).modifier := by
  have hcall : (KeyCall.press keycode modifier).Rejected (reportAfter before) := h
  have hcases := ((KeyCall.press keycode modifier).run_cases (reportAfter before) .allSucceed).2
  rcases hcases with ⟨_, hattempts, _⟩ | ⟨hsent, _⟩
  · rw [InSync, hostReport_snoc, hattempts, reportAfter_snoc, KeyCall.after, pressed_of_rejected h]
    have hhost : ([] : List Payload).getLast?.getD (hostReport before) =
        inputPayload (reportAfter before).bytes := hsync
    rw [hhost]
    constructor
    · exact fun heq => (bytes_modifier heq).symm
    · intro heq
      rw [heq]
  · exact absurd hcall hsent

/-- The step lemma. -/
theorem faithful_iff (before : List KeyCall) (call : KeyCall) (hsync : InSync before) :
    Faithful before call ↔ ¬ Unsettling (reportAfter before) call := by
  cases call with
  | release keycode modifier =>
    refine iff_of_true ⟨inSync_of_sent before _ id, fun h => h.elim, ?_⟩ id
    intro _ heq
    cases heq
  | press keycode modifier =>
    have hcases := ((KeyCall.press keycode modifier).run_cases (reportAfter before) .allSucceed).2
    rcases hcases with ⟨hrejected, hattempts, _⟩ | ⟨hsent, hattempts, _⟩
    · have hrej : Rejected (reportAfter before) keycode := hrejected
      have hsame : reportAfter (before ++ [.press keycode modifier]) = reportAfter before ↔
          (reportAfter before).modifier ||| modifier = (reportAfter before).modifier := by
        rw [reportAfter_snoc, KeyCall.after, pressed_of_rejected hrej]
        exact ⟨fun h => congrArg KeyboardReport.modifier h, fun h => by rw [h]⟩
      rw [Faithful, inSync_of_rejected before hsync keycode modifier hrej, hsame, Unsettling,
        hattempts]
      constructor
      · rintro ⟨hmod, _, hzero⟩ ⟨_, rfl | hnew⟩
        · exact hzero modifier rfl rfl
        · exact hnew hmod
      · intro h
        rw [not_and] at h
        obtain ⟨hkey, hmod⟩ := not_or.mp (h hrej)
        rw [not_not] at hmod
        refine ⟨hmod, fun _ => hmod, fun m heq => ?_⟩
        rw [KeyCall.press.injEq] at heq
        exact absurd heq.1 hkey
    · have hnot : ¬ Rejected (reportAfter before) keycode := hsent
      refine iff_of_true ⟨inSync_of_sent before _ hsent, fun h => absurd h hsent, ?_⟩ fun h => hnot h.1
      intro _ _
      rw [hattempts]
      exact List.cons_ne_nil _ _

/-- Over every run from a zeroed report: all its calls are faithful exactly when
none is an unsettling press. -/
theorem host_in_sync_iff (calls : List KeyCall) :
    (∀ before call since, calls = before ++ call :: since →
      hostReport (before ++ [call]) = inputPayload (reportAfter (before ++ [call])).bytes ∧
      (call.Rejected (reportAfter before) →
        reportAfter (before ++ [call]) = reportAfter before) ∧
      ∀ modifier, call = .press 0 modifier →
        (call.run (reportAfter before)).attempts .allSucceed ≠ []) ↔
    ∀ before call since, calls = before ++ call :: since →
      ¬ Unsettling (reportAfter before) call :=
  throughout_iff InSync Faithful (fun before call => ¬ Unsettling (reportAfter before) call)
    inSync_nil faithful_iff (fun _ _ _ hgood => hgood.1) calls

/-- Six keys down and a seventh pressed with shift: the shift bit is set in the
daemon's report and the host never hears of it. -/
theorem rejected_press_drifts :
    ¬ ∀ (calls before : List KeyCall) (call : KeyCall) (since : List KeyCall),
      calls = before ++ call :: since →
        hostReport (before ++ [call]) = inputPayload (reportAfter (before ++ [call])).bytes := by
  intro h
  have hsync := h [.press 4 0, .press 5 0, .press 6 0, .press 7 0, .press 8 0, .press 9 0,
    .press 10 2] [.press 4 0, .press 5 0, .press 6 0, .press 7 0, .press 8 0, .press 9 0]
    (.press 10 2) [] rfl
  revert hsync
  decide

end Android2Mouse.Guarantees.KeySync
