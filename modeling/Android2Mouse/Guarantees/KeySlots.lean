import Mathlib.Data.List.Induction
import Android2Mouse.Library.SlotTable
import Android2Mouse.Source.ComboConn

/-!
# Six keycode slots

`press_kbd_char` and `release_kbd_char` from any report. Each is one send of the
updated report (`pressKbdChar_eq`, `releaseKbdChar_eq`), a rejected press apart;
the update of the slots is that of a slot table with zero as its mark. From a
zeroed report the slots are then a set of at most six keycodes, over every
sequence of calls and whatever the sends meet (`slots_are_set`).
-/
namespace Android2Mouse.Guarantees.KeySlots
open Library Source.ComboConn Source.Hidp

/-! ## One call -/

theorem sendKbd_eq (kbd : KeyboardReport) :
    sendKbd kbd = .send (inputPayload kbd.bytes) fun ok => .done (kbd, if ok then 0 else -1) := by
  unfold sendKbd
  rw [sendInputRep_bind]
  congr 1
  funext ok
  simp only [sent_eq_neg_one_iff]
  cases ok <;> rfl

/-- Neither the keycode nor a free slot is among the slots. -/
def Rejected (kbd : KeyboardReport) (keycode : UInt8) : Prop :=
  ¬ SlotTable.Has kbd.keycodes keycode ∧ ¬ SlotTable.Has kbd.keycodes 0

instance (kbd : KeyboardReport) (keycode : UInt8) : Decidable (Rejected kbd keycode) :=
  inferInstanceAs (Decidable (_ ∧ _))

/-- The report after a press. -/
def pressed (kbd : KeyboardReport) (keycode modifier : UInt8) : KeyboardReport :=
  { kbd with
    modifier := kbd.modifier ||| modifier, keycodes := SlotTable.insert 0 kbd.keycodes keycode }

/-- The report after a release. -/
def released (kbd : KeyboardReport) (keycode modifier : UInt8) : KeyboardReport :=
  { kbd with
    modifier := kbd.modifier &&& ~~~modifier, keycodes := SlotTable.remove 0 kbd.keycodes keycode }

theorem firstSlot_eq (keycodes : Vector UInt8 6) (v : UInt8) :
    firstSlot keycodes v = SlotTable.first keycodes v := rfl

theorem rejected_iff (kbd : KeyboardReport) (keycode : UInt8) :
    Rejected kbd keycode ↔
      ¬ SlotTable.Has kbd.keycodes keycode ∧ firstSlot kbd.keycodes 0 = none := by
  rw [firstSlot_eq, SlotTable.first_eq_none_iff, Rejected]

/-- A rejected press sends nothing and has changed the modifier. -/
theorem pressKbdChar_eq (kbd : KeyboardReport) (keycode modifier : UInt8) :
    pressKbdChar kbd keycode modifier =
      if Rejected kbd keycode then .done ({ kbd with modifier := kbd.modifier ||| modifier }, 1)
      else sendKbd (pressed kbd keycode modifier) := by
  unfold pressKbdChar pressed
  -- the test goes through all six slots
  have hslots : (kbd.keycodes[0] ≠ keycode ∧ kbd.keycodes[1] ≠ keycode ∧
      kbd.keycodes[2] ≠ keycode ∧ kbd.keycodes[3] ≠ keycode ∧ kbd.keycodes[4] ≠ keycode ∧
      kbd.keycodes[5] ≠ keycode) ↔ ¬ SlotTable.Has kbd.keycodes keycode := by
    simp only [SlotTable.Has, not_exists, Fin.forall_fin_succ, Fin.forall_fin_zero, and_true]
    exact Iff.rfl
  simp only [hslots, rejected_iff]
  by_cases hpresent : SlotTable.Has kbd.keycodes keycode
  · rw [if_neg (fun h => h hpresent), if_neg (fun h => h.1 hpresent),
      SlotTable.insert_present 0 hpresent]
  · rw [if_pos hpresent]
    cases hfirst : firstSlot kbd.keycodes 0 with
    | none => rw [if_pos ⟨hpresent, rfl⟩]
    | some i => rw [if_neg (fun h => by cases h.2), SlotTable.insert_free 0 hpresent hfirst]

theorem releaseKbdChar_eq (kbd : KeyboardReport) (keycode modifier : UInt8) :
    releaseKbdChar kbd keycode modifier = sendKbd (released kbd keycode modifier) := by
  unfold releaseKbdChar released
  by_cases hkey : keycode = 0
  · subst hkey
    rw [if_neg (fun h => h rfl), SlotTable.remove_empty]
  · rw [if_pos hkey]
    cases hfirst : firstSlot kbd.keycodes keycode with
    | none => rw [SlotTable.remove_none 0 hfirst]
    | some i => rw [SlotTable.remove_some 0 hfirst]

/-- A rejected press leaves the slots as they are. -/
theorem pressed_of_rejected {kbd : KeyboardReport} {keycode : UInt8} (h : Rejected kbd keycode)
    (modifier : UInt8) :
    pressed kbd keycode modifier = { kbd with modifier := kbd.modifier ||| modifier } := by
  rw [pressed, SlotTable.insert_full 0 ((rejected_iff kbd keycode).mp h).2]

/-! ## Calls -/

inductive KeyCall where
  | press (keycode modifier : UInt8)
  | release (keycode modifier : UInt8)
  deriving DecidableEq, Repr

def KeyCall.run (kbd : KeyboardReport) : KeyCall → Attempt Payload (KeyboardReport × Int)
  | .press keycode modifier => pressKbdChar kbd keycode modifier
  | .release keycode modifier => releaseKbdChar kbd keycode modifier

/-- One call after another on the same report. -/
def runKeys (kbd : KeyboardReport) : List KeyCall → Attempt Payload KeyboardReport
  | [] => .done kbd
  | call :: calls => do
    let (kbd, _) ← call.run kbd
    runKeys kbd calls

/-- The report a call leaves, whatever its send met. -/
def KeyCall.after (kbd : KeyboardReport) : KeyCall → KeyboardReport
  | .press keycode modifier => pressed kbd keycode modifier
  | .release keycode modifier => released kbd keycode modifier

/-- The call is a press that finds neither its keycode nor a free slot. -/
def KeyCall.Rejected (kbd : KeyboardReport) : KeyCall → Prop
  | .press keycode _ => KeySlots.Rejected kbd keycode
  | .release _ _ => False

theorem sendKbd_run (kbd : KeyboardReport) (o : Outcomes) :
    (sendKbd kbd).attempts o = [inputPayload kbd.bytes] ∧ ((sendKbd kbd).result o).1 = kbd ∧
      ((sendKbd kbd).result o).2 ≠ 1 := by
  rw [sendKbd_eq]
  refine ⟨rfl, rfl, ?_⟩
  simp only [Attempt.result_send, Attempt.result_done]
  split <;> decide

/-- All that one call does. -/
theorem KeyCall.run_cases (call : KeyCall) (kbd : KeyboardReport) (o : Outcomes) :
    ((call.run kbd).result o).1 = call.after kbd ∧
    ((call.Rejected kbd ∧ (call.run kbd).attempts o = [] ∧ ((call.run kbd).result o).2 = 1) ∨
    (¬ call.Rejected kbd ∧ (call.run kbd).attempts o = [inputPayload (call.after kbd).bytes] ∧
      ((call.run kbd).result o).2 ≠ 1)) := by
  cases call with
  | press keycode modifier =>
    rw [KeyCall.run, KeyCall.after, KeyCall.Rejected, pressKbdChar_eq]
    by_cases h : KeySlots.Rejected kbd keycode
    · rw [if_pos h, pressed_of_rejected h]
      exact ⟨rfl, Or.inl ⟨h, rfl, rfl⟩⟩
    · obtain ⟨hattempts, hkbd, hcode⟩ := sendKbd_run (pressed kbd keycode modifier) o
      rw [if_neg h]
      exact ⟨hkbd, Or.inr ⟨h, hattempts, hcode⟩⟩
  | release keycode modifier =>
    obtain ⟨hattempts, hkbd, hcode⟩ := sendKbd_run (released kbd keycode modifier) o
    rw [KeyCall.run, KeyCall.after, KeyCall.Rejected, releaseKbdChar_eq]
    exact ⟨hkbd, Or.inr ⟨id, hattempts, hcode⟩⟩

/-- The run lemma: the report after a run does not depend on the sends. -/
theorem runKeys_result (kbd : KeyboardReport) (calls : List KeyCall) (o : Outcomes) :
    (runKeys kbd calls).result o = calls.foldl KeyCall.after kbd := by
  induction calls generalizing kbd o with
  | nil => rfl
  | cons call calls ih =>
    rw [runKeys, Attempt.result_bind, ih, (call.run_cases kbd o).1, List.foldl_cons]

/-! ## The set of held keys -/

/-- The keycodes in the slots. -/
def heldKeys (kbd : KeyboardReport) : Finset UInt8 := SlotTable.held 0 kbd.keycodes

/-- No keycode is in two slots. -/
def SlotsDistinct (kbd : KeyboardReport) : Prop := SlotTable.Distinct 0 kbd.keycodes

/-- What a call does to a set of at most six keys. -/
def KeyCall.update (S : Finset UInt8) : KeyCall → Finset UInt8
  | .press keycode _ =>
    if keycode = 0 then S else if keycode ∈ S then S
    else if S.card < 6 then insert keycode S else S
  | .release keycode _ => if keycode = 0 then S else S.erase keycode

theorem has_zero (keycode : UInt8) : SlotTable.Has KeyboardReport.zero.keycodes keycode ↔ keycode = 0 :=
  ⟨fun ⟨_, hi⟩ => hi.symm.trans (Vector.getElem_replicate _),
    fun h => ⟨0, (Vector.getElem_replicate _).trans h.symm⟩⟩

theorem zero_distinct : SlotsDistinct .zero := by
  intro i j hi
  exact absurd (Vector.getElem_replicate _) hi

theorem heldKeys_zero : heldKeys .zero = ∅ := by decide

theorem KeyCall.after_distinct (call : KeyCall) (kbd : KeyboardReport) (h : SlotsDistinct kbd) :
    SlotsDistinct (call.after kbd) := by
  cases call with
  | press keycode modifier => exact SlotTable.Distinct.insert 0 h keycode
  | release keycode modifier => exact SlotTable.Distinct.remove 0 h keycode

/-- The step lemma: a call updates the slots as it updates the set. -/
theorem KeyCall.heldKeys_after (call : KeyCall) (kbd : KeyboardReport) (h : SlotsDistinct kbd) :
    heldKeys (call.after kbd) = call.update (heldKeys kbd) := by
  cases call with
  | press keycode modifier =>
    rw [KeyCall.after, KeyCall.update, heldKeys, heldKeys, pressed]
    by_cases hkey : keycode = 0
    · rw [if_pos hkey, hkey, SlotTable.insert_empty]
    · rw [if_neg hkey, SlotTable.held_insert 0 h hkey]
  | release keycode modifier =>
    rw [KeyCall.after, KeyCall.update, heldKeys, heldKeys, released]
    by_cases hkey : keycode = 0
    · rw [if_pos hkey, hkey, SlotTable.remove_empty]
    · rw [if_neg hkey, SlotTable.held_remove 0 h hkey]

theorem heldKeys_run (calls : List KeyCall) :
    SlotsDistinct (calls.foldl KeyCall.after .zero) ∧
      heldKeys (calls.foldl KeyCall.after .zero) = calls.foldl KeyCall.update ∅ := by
  induction calls using List.reverseRecOn with
  | nil => exact ⟨zero_distinct, heldKeys_zero⟩
  | append_singleton calls call ih =>
    rw [List.foldl_concat, List.foldl_concat]
    exact ⟨call.after_distinct _ ih.1, by rw [call.heldKeys_after _ ih.1, ih.2]⟩

/-- After every sequence of calls on a zeroed report, whatever the sends meet,
the slots are the set that the calls make. A further call updates both alike; it
returns 1 exactly when it is rejected, and otherwise attempts one report, the
updated one. -/
theorem slots_are_set (calls : List KeyCall) (call : KeyCall) (o o' : Outcomes) :
    let kbd := (runKeys .zero calls).result o
    let called := call.run kbd
    SlotsDistinct kbd ∧ heldKeys kbd = calls.foldl KeyCall.update ∅ ∧
      SlotsDistinct (called.result o').1 ∧
      heldKeys (called.result o').1 = call.update (heldKeys kbd) ∧
      ((called.result o').2 = 1 ↔ call.Rejected kbd) ∧
      ((called.result o').2 ≠ 1 →
        called.attempts o' = [inputPayload (called.result o').1.bytes]) := by
  obtain ⟨hdistinct, hheld⟩ := heldKeys_run calls
  rw [runKeys_result]
  generalize calls.foldl KeyCall.after .zero = kbd at hdistinct hheld
  obtain ⟨hafter, hcases⟩ := call.run_cases kbd o'
  refine ⟨hdistinct, hheld, ?_, ?_, ?_, ?_⟩
  · rw [hafter]
    exact call.after_distinct kbd hdistinct
  · rw [hafter]
    exact call.heldKeys_after kbd hdistinct
  · rcases hcases with ⟨hrejected, _, hcode⟩ | ⟨hrejected, _, hcode⟩
    · exact iff_of_true hcode hrejected
    · exact iff_of_false hcode hrejected
  · intro hcode
    rcases hcases with ⟨_, _, hone⟩ | ⟨_, hattempts, _⟩
    · exact absurd hone hcode
    · rw [hafter]
      exact hattempts

end Android2Mouse.Guarantees.KeySlots
