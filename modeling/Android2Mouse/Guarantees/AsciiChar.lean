import Android2Mouse.Guarantees.FrontEnds
import Android2Mouse.Guarantees.SendString
import Android2Mouse.Source.HidpBcaster

/-!
# Characters outside ASCII

A `jchar` has sixteen bits. It becomes an `int` in the native method and one byte
in `_send_char_report`, and only the daemon compares it with the length of its
table. So what is looked up is the low byte of the code (`asciiChar_reports`), and
`ascii_char_iff` says for which codes that does not show. A low byte with a zero
entry still sends the modifiers, so the answer depends on whether these count as
keys.
-/
namespace Android2Mouse.Guarantees.AsciiChar
open Library Source.ComboConn Source.Hidp Source.AsciiMap Source.HidpClientdlib Source.HidpBcaster
open KeyTap TapNeutral FrontEnds SendString

/-- What one `reportAsciiChar` puts into the FIFO, as the daemon reads it. -/
def asciiCharReads (ch : UInt16) (mod : Int32) (packet : BinPacket) (fd : Int32) :
    List ReadResult :=
  (writtenPackets (nativeReportAsciiChar ch mod ⟨packet, fd, []⟩).calls).map .packet

/-- No key in a keyboard report, whatever its modifiers. -/
def NoKey (payload : Payload) : Prop :=
  ∃ reportId modifier reserved, payload = [0xA1, reportId, modifier, reserved, 0, 0, 0, 0, 0, 0]

/-- An ASCII character is a tap of its own key, with shift added to the modifiers
where the table asks for it; the reports of another character are quiet. -/
def TypesOwnKey (quiet : Payload → Prop) (ch : UInt16) (mod : Int32) (payloads : List Payload) :
    Prop :=
  (ch < 128 → Typeable ch.toUInt8 →
    payloads = tapPayloads (keyOf (entry ch.toUInt8))
      (intToUInt8 mod ||| shiftModifier ch.toUInt8)) ∧
  (128 ≤ ch → ∀ payload ∈ payloads, quiet payload)

/-! ## The byte that is looked up -/

theorem intToUInt8_jcharToInt (ch : UInt16) : intToUInt8 (jcharToInt ch) = ch.toUInt8 := rfl

/-- The letter in the library's packet has the narrowed code and modifiers. -/
theorem letterPacket_letter (ch mod : Int32) (flg : UInt8) :
    (letterPacket ch mod flg).letter.c = intToUInt8 ch ∧
      intToUInt8 (letterPacket ch mod flg).letter.mods = intToUInt8 mod :=
  ⟨rfl, intToUInt8_le32 _ _ _ _⟩

theorem modifier_or_shift (c mod : UInt8) :
    (if shifted (entry c) then mod ||| 0x02 else mod) = mod ||| shiftModifier c := by
  unfold shiftModifier
  cases shifted (entry c) with
  | true => rfl
  | false => exact UInt8.or_zero.symm

/-- Whatever is taken, the reports are the tap of the low byte of the code. -/
theorem asciiChar_reports (ch : UInt16) (mod : Int32) (packet stack : BinPacket) (fd : Int32)
    (o : Outcomes) :
    (processMultiBin stack (asciiCharReads ch mod packet fd)).attempts o =
      if ch.toUInt8.toNat < kbdAsciimap.length then
        tapPayloads (keyOf (entry ch.toUInt8)) (intToUInt8 mod ||| shiftModifier ch.toUInt8)
      else [] := by
  have hreads : asciiCharReads ch mod packet fd =
      [.packet (letterPacket (jcharToInt ch) mod charAscii)] :=
    libraryReads_asciiChar (jcharToInt ch) mod packet fd
  obtain ⟨hc, hmods⟩ := letterPacket_letter (jcharToInt ch) mod charAscii
  have hchar : brptChar &&& brptString = 0 ∧ brptChar &&& brptChar ≠ 0 := by decide
  have hascii : charAscii &&& charRaw = 0 := by decide
  rw [hreads, process_asciiChar stack _ rfl hchar.1 hchar.2 hascii, hmods, hc,
    intToUInt8_jcharToInt, Attempt.attempts_bind]
  by_cases hmap : ch.toUInt8.toNat < kbdAsciimap.length
  · rw [sendCharAscii_mapped _ _ _ hmap, modifier_or_shift, sendCharRaw_idle, if_pos hmap]
    rfl
  · rw [sendCharAscii_unmapped _ _ _ hmap, if_neg hmap]
    rfl

/-! ## Which codes alias -/

/-- Both reports of a tap are without a key exactly when the keycode is zero. -/
theorem noKey_tap_iff (key modifier : UInt8) :
    (∀ payload ∈ tapPayloads key modifier, NoKey payload) ↔ key = 0 := by
  constructor
  · intro h
    obtain ⟨reportId, modifier', reserved, hdown⟩ := h _ (List.mem_cons_self ..)
    exact congrArg (fun payload : Payload => payload.getD 4 0) hdown
  · rintro rfl
    refine List.forall_mem_cons.mpr ⟨⟨_, _, _, rfl⟩, ?_⟩
    exact List.forall_mem_singleton.mpr ⟨_, _, _, rfl⟩

theorem nothingDown_tap_iff (key modifier : UInt8) :
    (∀ payload ∈ tapPayloads key modifier, NothingDown payload) ↔ key = 0 ∧ modifier = 0 := by
  constructor
  · intro h
    obtain ⟨reportId, reserved, hdown⟩ := h _ (List.mem_cons_self ..)
    exact ⟨congrArg (fun payload : Payload => payload.getD 4 0) hdown,
      congrArg (fun payload : Payload => payload.getD 2 0) hdown⟩
  · rintro ⟨rfl, rfl⟩
    refine List.forall_mem_cons.mpr ⟨⟨_, _, rfl⟩, ?_⟩
    exact List.forall_mem_singleton.mpr ⟨_, _, rfl⟩

theorem keyOf_eq_zero_iff (c : UInt8) : keyOf (entry c) = 0 ↔ ¬ Typeable c := by
  refine ⟨fun hkey htype => keyOf_ne_zero c htype hkey, fun htype => ?_⟩
  rw [entry_zero_of_not_typeable c htype]
  rfl

theorem mapped_iff (c : UInt8) : c.toNat < kbdAsciimap.length ↔ ¬ 128 ≤ c := by
  rw [kbdAsciimap_length, UInt8.not_le, UInt8.lt_iff_toNat_lt]
  rfl

/-- What the low byte sends, as one of the two readings of a quiet report has it. -/
theorem typesOwnKey_iff (quiet : Payload → Prop) (ch : UInt16) (mod : Int32)
    (packet stack : BinPacket) (fd : Int32) (o : Outcomes) :
    TypesOwnKey quiet ch mod ((processMultiBin stack (asciiCharReads ch mod packet fd)).attempts o) ↔
      ch < 128 ∨ 128 ≤ ch.toUInt8 ∨ ∀ payload ∈ tapPayloads (keyOf (entry ch.toUInt8))
        (intToUInt8 mod ||| shiftModifier ch.toUInt8), quiet payload := by
  have hlow := mapped_iff ch.toUInt8
  rw [asciiChar_reports, TypesOwnKey]
  by_cases hascii : ch < 128
  · have hlt : ch.toNat < 128 := hascii
    have hmap : ch.toUInt8.toNat < kbdAsciimap.length := by
      rw [UInt16.toNat_toUInt8, kbdAsciimap_length]
      omega
    rw [if_pos hmap]
    refine iff_of_true ⟨fun _ _ => rfl, fun hge => ?_⟩ (Or.inl hascii)
    exact absurd hascii (UInt16.not_lt.mpr hge)
  · rw [or_iff_right hascii, iff_true_intro (fun hlt => absurd hlt hascii), true_and,
      forall_prop_of_true (UInt16.not_lt.mp hascii)]
    by_cases hmap : ch.toUInt8.toNat < kbdAsciimap.length
    · rw [if_pos hmap, or_iff_right (hlow.mp hmap)]
    · rw [if_neg hmap]
      refine iff_of_true (fun payload h => absurd h List.not_mem_nil) (Or.inl ?_)
      exact Decidable.not_not.mp (mt hlow.mpr hmap)

/-- No key at all: the code is an ASCII code, or its low byte has no key. -/
theorem typesOwnKey_noKey_iff (ch : UInt16) (mod : Int32) (packet stack : BinPacket) (fd : Int32)
    (o : Outcomes) :
    TypesOwnKey NoKey ch mod
        ((processMultiBin stack (asciiCharReads ch mod packet fd)).attempts o) ↔
      ch < 128 ∨ ¬ Typeable ch.toUInt8 := by
  rw [typesOwnKey_iff, noKey_tap_iff, keyOf_eq_zero_iff]
  refine or_congr_right ⟨fun h => h.elim (fun hge => ?_) id, Or.inr⟩
  exact fun htype => htype (entry_of_ge _ (Nat.le_of_not_lt fun hlt => (mapped_iff _).mp hlt hge))

/-- A call types the right key or none exactly when its code is an ASCII code, or
its low byte is not a character of the table. For no modifier either, that byte
must be past the table or come with no modifier. -/
theorem ascii_char_iff (ch : UInt16) (mod : Int32) (packet stack : BinPacket) (fd : Int32)
    (o : Outcomes) :
    let payloads := (processMultiBin stack (asciiCharReads ch mod packet fd)).attempts o
    (TypesOwnKey NoKey ch mod payloads ↔ ch < 128 ∨ ¬ Typeable ch.toUInt8) ∧
    (TypesOwnKey NothingDown ch mod payloads ↔
      ch < 128 ∨ 128 ≤ ch.toUInt8 ∨ ¬ Typeable ch.toUInt8 ∧ intToUInt8 mod = 0) := by
  refine ⟨typesOwnKey_noKey_iff ch mod packet stack fd o, ?_⟩
  rw [typesOwnKey_iff, nothingDown_tap_iff, keyOf_eq_zero_iff]
  refine or_congr_right (or_congr_right (and_congr_right fun htype => ?_))
  rw [shiftModifier, entry_zero_of_not_typeable _ htype]
  exact Iff.of_eq (congrArg (· = 0) UInt8.or_zero)

/-- The code 0x0161 types an `a`. -/
theorem latin_s_types_a :
    ¬ ∀ (ch : UInt16) (mod : Int32) (packet stack : BinPacket) (fd : Int32) (o : Outcomes),
      TypesOwnKey NoKey ch mod
        ((processMultiBin stack (asciiCharReads ch mod packet fd)).attempts o) := by
  intro h
  have hs := (typesOwnKey_noKey_iff 0x0161 0 .zero .zero 0 .allSucceed).mp
    (h 0x0161 0 .zero .zero 0 .allSucceed)
  revert hs
  decide

end Android2Mouse.Guarantees.AsciiChar
