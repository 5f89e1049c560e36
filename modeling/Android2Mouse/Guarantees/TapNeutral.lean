import Android2Mouse.Guarantees.KeySlots

/-!
# Taps

`send_char_raw` from any report: a press and the release that undoes it, with the
sends of both, for a key that is not held and modifier bits that are not set
(`sendCharRaw_eq`). Such a tap leaves the report as it found it whatever its sends
meet, and so does `send_string`, wherever it stops (`tap_neutral`).
-/
namespace Android2Mouse.Guarantees.TapNeutral
open Library Source.ComboConn Source.Hidp Source.AsciiMap KeySlots

/-! ## One tap -/

/-- Bits that were not set are set and cleared again. -/
theorem or_and_not (a m : UInt8) (h : a &&& m = 0) : (a ||| m) &&& ~~~m = a := by
  apply UInt8.toBitVec_inj.mp
  apply BitVec.eq_of_getLsbD_eq
  intro i hi
  have hbit := congrArg (fun v : UInt8 => v.toBitVec.getLsbD i) h
  simp only [UInt8.toBitVec_and, BitVec.getLsbD_and, UInt8.toBitVec_zero, BitVec.getLsbD_zero] at hbit
  simp only [UInt8.toBitVec_and, UInt8.toBitVec_or, UInt8.toBitVec_not, BitVec.getLsbD_and,
    BitVec.getLsbD_or, BitVec.getLsbD_not, hi, decide_true, Bool.true_and]
  cases ha : a.toBitVec.getLsbD i with
  | true =>
    rw [ha, Bool.true_and] at hbit
    rw [hbit]
    rfl
  | false => rw [Bool.false_or, Bool.and_not_self]

/-- The release undoes the press, rejected or not. -/
theorem released_pressed (kbd : KeyboardReport) (key modifier : UInt8) (hkey : key ∉ heldKeys kbd)
    (hmod : kbd.modifier &&& modifier = 0) :
    released (pressed kbd key modifier) key modifier = kbd := by
  have hslots : SlotTable.remove 0 (SlotTable.insert 0 kbd.keycodes key) key = kbd.keycodes :=
    SlotTable.remove_insert 0 hkey
  rw [released, pressed, hslots, or_and_not kbd.modifier modifier hmod]

/-- A tap of a key that is not held: two sends, or the second alone when there is
no slot for the key. -/
theorem sendCharRaw_eq (kbd : KeyboardReport) (key modifier : UInt8) (hkey : key ∉ heldKeys kbd)
    (hmod : kbd.modifier &&& modifier = 0) :
    sendCharRaw kbd key modifier =
      if Rejected kbd key then .send (inputPayload kbd.bytes) fun _ => .done (kbd, 1)
      else .send (inputPayload (pressed kbd key modifier).bytes) fun ok =>
        .send (inputPayload kbd.bytes) fun _ => .done (kbd, if ok then 0 else -1) := by
  unfold sendCharRaw
  rw [pressKbdChar_eq]
  by_cases hrejected : Rejected kbd key
  · rw [if_pos hrejected, if_pos hrejected, ← pressed_of_rejected hrejected, Attempt.done_bind]
    simp only [releaseKbdChar_eq, released_pressed kbd key modifier hkey hmod, sendKbd_eq]
    rfl
  · rw [if_neg hrejected, if_neg hrejected, sendKbd_eq, Attempt.send_bind]
    congr 1
    funext ok
    rw [Attempt.done_bind]
    simp only [releaseKbdChar_eq, released_pressed kbd key modifier hkey hmod, sendKbd_eq]
    rfl

theorem sendCharRaw_neutral (kbd : KeyboardReport) (key modifier : UInt8)
    (hkey : key ∉ heldKeys kbd) (hmod : kbd.modifier &&& modifier = 0) (o : Outcomes) :
    ((sendCharRaw kbd key modifier).result o).1 = kbd := by
  rw [sendCharRaw_eq kbd key modifier hkey hmod]
  by_cases hrejected : Rejected kbd key
  · rw [if_pos hrejected]
    rfl
  · rw [if_neg hrejected]
    rfl

/-! ## Characters -/

theorem sendCharAscii_mapped (kbd : KeyboardReport) (c modifier : UInt8)
    (h : c.toNat < kbdAsciimap.length) :
    sendCharAscii kbd c modifier =
      sendCharRaw kbd (keyOf (entry c))
        (if shifted (entry c) then modifier ||| 0x02 else modifier) := by
  unfold sendCharAscii sendCharDecode
  rw [dif_pos h, ← entry_eq_getElem c h]
  cases hs : shifted (entry c) with
  | true => simp only [hs, if_true]
  | false => simp only [hs, Bool.false_eq_true, if_false, keyOf_of_not_shifted _ hs]

theorem sendCharAscii_unmapped (kbd : KeyboardReport) (c modifier : UInt8)
    (h : ¬ c.toNat < kbdAsciimap.length) : sendCharAscii kbd c modifier = .done (kbd, 0) := by
  unfold sendCharAscii sendCharDecode
  rw [dif_neg h]

/-- The report is free for the key map: shift is not set and no key of the table held. -/
def MapFree (kbd : KeyboardReport) : Prop :=
  kbd.modifier &&& 0x02 = 0 ∧ ∀ c, Typeable c → keyOf (entry c) ∉ heldKeys kbd

/-- A byte without a key taps keycode zero, which is never held. -/
theorem MapFree.key_not_held {kbd : KeyboardReport} (h : MapFree kbd) (c : UInt8) :
    keyOf (entry c) ∉ heldKeys kbd := by
  by_cases htype : Typeable c
  · exact h.2 c htype
  · rw [entry_zero_of_not_typeable c htype]
    exact fun hmem => ((SlotTable.mem_held 0).mp hmem).1 rfl

theorem sendCharAscii_neutral {kbd : KeyboardReport} (h : MapFree kbd) (c : UInt8) (o : Outcomes) :
    ((sendCharAscii kbd c 0).result o).1 = kbd := by
  by_cases hmap : c.toNat < kbdAsciimap.length
  · rw [sendCharAscii_mapped kbd c 0 hmap]
    apply sendCharRaw_neutral kbd _ _ (h.key_not_held c)
    cases shifted (entry c) with
    | true => exact h.1
    | false => exact UInt8.and_zero
  · rw [sendCharAscii_unmapped kbd c 0 hmap]
    rfl

theorem sendString_neutral {kbd : KeyboardReport} (h : MapFree kbd) (string : List UInt8)
    (o : Outcomes) : ((sendString kbd string).result o).1 = kbd := by
  induction string generalizing o with
  | nil => rfl
  | cons c string ih =>
    have hchar := sendCharAscii_neutral h c o
    rw [sendString, Attempt.result_bind]
    generalize (sendCharAscii kbd c 0).result o = typed at hchar
    obtain ⟨kbd', r⟩ := typed
    obtain rfl : kbd' = kbd := hchar
    by_cases hr : r ≠ 0
    · simp only [if_pos hr]
      rfl
    · simp only [if_neg hr]
      rw [Attempt.result_bind]
      exact ih _

/-- A tap of a key that is not held, under modifier bits that are not set, leaves
the report as it was; so does a string on a report that is free for the key map. -/
theorem tap_neutral (kbd : KeyboardReport) (o : Outcomes) :
    (∀ key modifier, key ∉ heldKeys kbd → kbd.modifier &&& modifier = 0 →
      ((sendCharRaw kbd key modifier).result o).1 = kbd) ∧
    (kbd.modifier &&& 0x02 = 0 → (∀ c, Typeable c → keyOf (entry c) ∉ heldKeys kbd) →
      ∀ string, ((sendString kbd string).result o).1 = kbd) :=
  ⟨fun key modifier hkey hmod => sendCharRaw_neutral kbd key modifier hkey hmod o,
    fun hshift hkeys string => sendString_neutral ⟨hshift, hkeys⟩ string o⟩

/-- Six keys held, and a seventh tapped with shift. -/
theorem tap_neutral_full :
    let kbd : KeyboardReport := ⟨kbdRepId, 1, 0, #v[4, 5, 6, 7, 8, 9]⟩
    ((sendCharRaw kbd 10 2).result .allSucceed).1 = kbd :=
  (tap_neutral ⟨kbdRepId, 1, 0, #v[4, 5, 6, 7, 8, 9]⟩ .allSucceed).1 10 2 (by decide) (by decide)

end Android2Mouse.Guarantees.TapNeutral
