import Android2Mouse.Guarantees.TapNeutral

/-!
# Taps on an idle keyboard

Every keyboard packet meets a zeroed report. From there `send_char_raw` is two
sends, key down and all keys up, whatever the outcome of the first, and it
leaves the report zeroed (`sendCharRaw_idle`), and `send_string` with a device
that takes everything is the taps of its bytes (`sendString_idle`).
-/
namespace Android2Mouse.Guarantees.KeyTap
open Library Source.ComboConn Source.Hidp Source.AsciiMap KeySlots TapNeutral

/-! ## An idle report -/

/-- No modifier and no key. -/
def Idle (kbd : KeyboardReport) : Prop := kbd.modifier = 0 ∧ kbd.keycodes = .replicate 6 0

instance (kbd : KeyboardReport) : Decidable (Idle kbd) := inferInstanceAs (Decidable (_ ∧ _))

theorem idle_zero : Idle .zero := ⟨rfl, rfl⟩

/-- The first key of an empty table goes into the first slot. -/
theorem insert_zero (key : UInt8) :
    SlotTable.insert 0 KeyboardReport.zero.keycodes key = #v[key, 0, 0, 0, 0, 0] := by
  by_cases hkey : key = 0
  · rw [hkey, SlotTable.insert_empty]
    rfl
  · have hnew : ¬ SlotTable.Has KeyboardReport.zero.keycodes key := mt (has_zero key).mp hkey
    have hfirst : SlotTable.first KeyboardReport.zero.keycodes 0 = some 0 := by decide
    rw [SlotTable.insert_free 0 hnew hfirst]
    rfl

theorem heldKeys_idle {kbd : KeyboardReport} (h : Idle kbd) : heldKeys kbd = ∅ := by
  rw [heldKeys, h.2]
  exact heldKeys_zero

theorem not_rejected_idle {kbd : KeyboardReport} (h : Idle kbd) (keycode : UInt8) :
    ¬ Rejected kbd keycode := by
  intro hrejected
  apply hrejected.2
  rw [h.2]
  exact (has_zero 0).mpr rfl

/-- The report with one key down under a modifier. -/
def withKey (kbd : KeyboardReport) (key modifier : UInt8) : KeyboardReport :=
  { kbd with modifier, keycodes := #v[key, 0, 0, 0, 0, 0] }

theorem pressed_idle {kbd : KeyboardReport} (h : Idle kbd) (key modifier : UInt8) :
    pressed kbd key modifier = withKey kbd key modifier := by
  have hslots : SlotTable.insert 0 kbd.keycodes key = #v[key, 0, 0, 0, 0, 0] := by
    rw [h.2]
    exact insert_zero key
  rw [pressed, hslots, h.1, UInt8.zero_or, withKey]

/-- A tap is two sends: key down, and the idle report again. -/
theorem sendCharRaw_tap {kbd : KeyboardReport} (h : Idle kbd) (key modifier : UInt8) :
    sendCharRaw kbd key modifier =
      .send (inputPayload (withKey kbd key modifier).bytes) fun ok =>
        .send (inputPayload kbd.bytes) fun _ => .done (kbd, if ok then 0 else -1) := by
  have hkey : key ∉ heldKeys kbd := by simp [heldKeys_idle h]
  have hmod : kbd.modifier &&& modifier = 0 := by rw [h.1, UInt8.zero_and]
  rw [sendCharRaw_eq kbd key modifier hkey hmod, if_neg (not_rejected_idle h key),
    pressed_idle h]

/-! ## The zeroed report -/

/-- One key down on an otherwise idle keyboard. -/
def keyDown (key modifier : UInt8) : KeyboardReport :=
  ⟨kbdRepId, modifier, 0, #v[key, 0, 0, 0, 0, 0]⟩

/-- The two packets of a tap. -/
def tapPayloads (key modifier : UInt8) : List Payload :=
  [inputPayload (keyDown key modifier).bytes, inputPayload KeyboardReport.zero.bytes]

theorem sendCharRaw_idle (key modifier : UInt8) :
    sendCharRaw .zero key modifier =
      .send (inputPayload (keyDown key modifier).bytes) fun ok =>
        .send (inputPayload KeyboardReport.zero.bytes) fun _ => .done (.zero, if ok then 0 else -1) :=
  sendCharRaw_tap idle_zero key modifier

/-- The modifier byte under which the table's key types the byte. -/
def shiftModifier (c : UInt8) : UInt8 := if shifted (entry c) then 0x02 else 0

/-- What typing one byte sends. A byte whose entry is zero still sends two
reports, both without a key. -/
def charPayloads (c : UInt8) : List Payload :=
  if c.toNat < kbdAsciimap.length then tapPayloads (keyOf (entry c)) (shiftModifier c) else []

/-! ## Characters -/

/-- The report with the key of a byte down, under its modifier. -/
def charDown (kbd : KeyboardReport) (c : UInt8) : KeyboardReport :=
  { kbd with modifier := shiftModifier c, keycodes := #v[keyOf (entry c), 0, 0, 0, 0, 0] }

theorem sendCharAscii_tap {kbd : KeyboardReport} (h : Idle kbd) (c : UInt8)
    (hmap : c.toNat < kbdAsciimap.length) :
    sendCharAscii kbd c 0 =
      .send (inputPayload (charDown kbd c).bytes) fun ok =>
        .send (inputPayload kbd.bytes) fun _ => .done (kbd, if ok then 0 else -1) := by
  have hshift : (if shifted (entry c) then (0 : UInt8) ||| 0x02 else 0) = shiftModifier c := rfl
  rw [sendCharAscii_mapped kbd c 0 hmap, hshift]
  exact sendCharRaw_tap h (keyOf (entry c)) (shiftModifier c)

/-- The two reports of a byte of the table. -/
def charReports (kbd : KeyboardReport) (c : UInt8) : List Payload :=
  if c.toNat < kbdAsciimap.length then
    [inputPayload (charDown kbd c).bytes, inputPayload kbd.bytes]
  else []

theorem sendCharAscii_taken {kbd : KeyboardReport} (h : Idle kbd) (c : UInt8) :
    (sendCharAscii kbd c 0).attempts .allSucceed = charReports kbd c ∧
      (sendCharAscii kbd c 0).result .allSucceed = (kbd, 0) := by
  unfold charReports
  by_cases hmap : c.toNat < kbdAsciimap.length
  · rw [sendCharAscii_tap h c hmap, if_pos hmap]
    exact ⟨rfl, rfl⟩
  · rw [sendCharAscii_unmapped kbd c 0 hmap, if_neg hmap]
    exact ⟨rfl, rfl⟩

/-- With every send taken, a string is the taps of its bytes, none left out,
and the report ends as it began. -/
theorem sendString_taken {kbd : KeyboardReport} (h : Idle kbd) (string : List UInt8) :
    (sendString kbd string).attempts .allSucceed = string.flatMap (charReports kbd) ∧
      (sendString kbd string).result .allSucceed = (kbd, string.length) := by
  induction string with
  | nil => exact ⟨rfl, rfl⟩
  | cons c string ih =>
    obtain ⟨hattempts, hresult⟩ := sendCharAscii_taken h c
    rw [sendString, Attempt.attempts_bind, Attempt.result_bind, hattempts, hresult]
    simp only [ne_eq, not_true_eq_false, if_false, Outcomes.after_allSucceed]
    rw [Attempt.attempts_bind, Attempt.result_bind, ih.1, ih.2]
    refine ⟨?_, rfl⟩
    rw [List.flatMap_cons]
    simp

/-- On the zeroed report, the taps are the packets above. -/
theorem sendString_idle (string : List UInt8) :
    (sendString .zero string).attempts .allSucceed = string.flatMap charPayloads ∧
      (sendString .zero string).result .allSucceed = (.zero, string.length) := by
  have hreports : charReports .zero = charPayloads := rfl
  rw [← hreports]
  exact sendString_taken idle_zero string

end Android2Mouse.Guarantees.KeyTap
