import Android2Mouse.Guarantees.Session
import Android2Mouse.Library.EdgeKeyboard

/-!
# The text typed at the host

`hostText` is the host's reading of the interrupt channel: at each keyboard
report, a key that was not down before types the character which the table
assigns to its keycode with that shift state.

`send_str_report` cuts its string into sixteen-byte fields, and a full field has
no terminator. `process_multi_bin` terminates the field itself, over its last
byte. So what is typed is the string with every sixteenth byte gone
(`hostText_eq`), and `typed_text_iff` says for which strings that does not show.
-/
namespace Android2Mouse.Guarantees.Typing
open Library EdgeKeyboard Source.ComboConn Source.Hidp Source.AsciiMap Source.HidpClientdlib
open KeyTap PacketReports Session

/-- The shift bit of a report's modifier byte. -/
def shiftBit : UInt8 := 0x02

/-- The keyboard report in a payload; keycode zero is no key. -/
def keyboardSnapshot : Payload → Option (Snapshot UInt8 Bool)
  | [0xA1, 0x01, modifier, _, k0, k1, k2, k3, k4, k5] =>
    some ⟨modifier &&& shiftBit != 0, [k0, k1, k2, k3, k4, k5].filter (· ≠ 0)⟩
  | _ => none

/-- The text the host types on receiving the payloads. -/
def hostText (payloads : List Payload) : List UInt8 :=
  typed charOf [] (payloads.filterMap keyboardSnapshot)

/-! ## One character -/

/-- The reports of one typed byte, as the host sees them. -/
def charSnapshots (c : UInt8) : List (Snapshot UInt8 Bool) :=
  (charPayloads c).filterMap keyboardSnapshot

theorem tapSnapshots (key modifier : UInt8) :
    (tapPayloads key modifier).filterMap keyboardSnapshot =
      [⟨modifier &&& shiftBit != 0, [key].filter (· ≠ 0)⟩, ⟨false, []⟩] := by
  have hdown : keyboardSnapshot (inputPayload (keyDown key modifier).bytes) =
      some ⟨modifier &&& shiftBit != 0, [key, 0, 0, 0, 0, 0].filter (· ≠ 0)⟩ := rfl
  have hup : keyboardSnapshot (inputPayload KeyboardReport.zero.bytes) = some ⟨false, []⟩ := rfl
  rw [tapPayloads, List.filterMap_cons_some hdown, List.filterMap_cons_some hup, List.filterMap_nil]
  simp [List.filter_cons]

theorem charSnapshots_up (c : UInt8) : downAfter [] (charSnapshots c) = [] := by
  unfold charSnapshots charPayloads
  split
  · rw [tapSnapshots]
    rfl
  · rfl

theorem shiftModifier_bit (c : UInt8) : (shiftModifier c &&& shiftBit != 0) = shifted (entry c) := by
  unfold shiftModifier
  cases shifted (entry c) with
  | true => rfl
  | false => rfl

/-- A byte types itself when the table has a key for it, and nothing otherwise. -/
theorem typed_char (c : UInt8) :
    typed charOf [] (charSnapshots c) = [c].filter (fun b => Typeable b) := by
  unfold charSnapshots charPayloads
  by_cases hmap : c.toNat < kbdAsciimap.length
  · rw [if_pos hmap, tapSnapshots, shiftModifier_bit]
    by_cases htype : Typeable c
    · have hkey : [keyOf (entry c)].filter (· ≠ 0) = [keyOf (entry c)] :=
        List.filter_cons_of_pos (by simpa using keyOf_ne_zero c htype)
      rw [hkey, typed_tap, charOf_entry c htype, List.filter_cons_of_pos (by simpa using htype)]
      rfl
    · have hkey : [keyOf (entry c)].filter (· ≠ 0) = [] := by
        rw [entry_zero_of_not_typeable c htype]
        rfl
      rw [hkey, typed_idle, List.filter_cons_of_neg (by simpa using htype)]
      rfl
  · have htype : ¬ Typeable c := fun h => h (entry_of_ge c (by omega))
    rw [if_neg hmap, List.filter_cons_of_neg (by simpa using htype)]
    rfl

theorem typed_chars (s : List UInt8) :
    typed charOf [] (s.flatMap charSnapshots) = s.filter (fun b => Typeable b) := by
  rw [typed_flatMap charOf charSnapshots charSnapshots_up]
  induction s with
  | nil => rfl
  | cons c s ih =>
    rw [List.flatMap_cons, typed_char, ih, ← List.filter_append]
    rfl

theorem hostText_chars (s : List UInt8) :
    hostText (s.flatMap charPayloads) = s.filter (fun b => Typeable b) := by
  have hsplit : (s.flatMap charPayloads).filterMap keyboardSnapshot = s.flatMap charSnapshots :=
    List.filterMap_flatMap
  rw [hostText, hsplit, typed_chars]

/-! ## One fragment -/

/-- A field that holds a string and zeros after it. -/
theorem toList_padded (field : Vector UInt8 16) (s : List UInt8) (hlen : s.length ≤ 16)
    (h : ∀ i (hi : i < 16), field[i] = s.getD i 0) :
    field.toList = s ++ List.replicate (16 - s.length) 0 := by
  apply List.ext_getElem
  · rw [Vector.length_toList, List.length_append, List.length_replicate]
    omega
  · intro i hi _
    rw [Vector.length_toList] at hi
    rw [Vector.getElem_toList, h i hi, List.getElem_append]
    by_cases hin : i < s.length
    · rw [dif_pos hin, List.getD_eq_getElem?_getD, List.getElem?_eq_getElem hin, Option.getD_some]
    · rw [dif_neg hin, List.getElem_replicate, List.getD_eq_getElem?_getD,
        List.getElem?_eq_none (by omega), Option.getD_none]

/-- The daemon's own terminator replaces the sixteenth byte of a field. -/
theorem terminated_fragment (frag : List UInt8) (hlast : 15 < 16) :
    ((fragPacket frag).report.set 15 0 hlast).toList =
      frag.take 15 ++ List.replicate (16 - (frag.take 15).length) 0 := by
  refine toList_padded _ _ (by rw [List.length_take]; omega) fun i hi => ?_
  rw [Vector.getElem_set, List.getD_eq_getElem?_getD, List.getElem?_take]
  by_cases hi15 : 15 = i
  · rw [if_pos hi15, if_neg (by omega), Option.getD_none]
  · rw [if_neg hi15, if_pos (by omega), ← List.getD_eq_getElem?_getD]
    exact Vector.getElem_ofFn hi

theorem delivered_fragPacket (frag : List UInt8) (hnul : 0 ∉ frag) :
    delivered (fragPacket frag) = (frag.take 15).flatMap charPayloads := by
  have hstring : brptString &&& brptString ≠ 0 := by decide
  have hcut : cstring ((fragPacket frag).report.set 15 0).toList = frag.take 15 := by
    rw [terminated_fragment frag]
    exact cstring_padded _ _ fun h0 => hnul (List.mem_of_mem_take h0)
  rw [delivered, packetReports_string _ rfl hstring, hcut]

/-! ## A whole string -/

theorem callPayloads_str (s : List UInt8) (h : 0 ∉ s) :
    callPayloads (.str s) = (shortened maxString s).flatMap charPayloads := by
  have hfrag : ∀ frag ∈ blocks maxString s,
      delivered (fragPacket frag) = (frag.take (maxString - 1)).flatMap charPayloads := by
    intro frag hmem
    have hsub := sublist_of_mem_blocks maxString s frag hmem
    exact delivered_fragPacket frag fun h0 => h (hsub.subset h0)
  rw [callPayloads, ClientCall.packets, cstring_of_nulFree s h, List.flatMap_map,
    List.flatMap_congr hfrag, shortened, List.flatMap_assoc]

/-- What the host types on one `send_str_report`. -/
theorem hostText_eq (s : List UInt8) (h : 0 ∉ s) :
    hostText (callPayloads (.str s)) = (shortened maxString s).filter (fun b => Typeable b) := by
  rw [callPayloads_str s h, hostText_chars]

/-- The host types the string without its unmapped bytes exactly when no mapped
byte stands at the end of a full fragment. -/
theorem typed_text_iff (opened : Descriptor) (packet : BinPacket) (fd : Int32) (s : List UInt8)
    (h : 0 ∉ s)
    (d : Delivery (fifoPackets [] (sendStrReport s (openSession opened packet fd)).calls)) :
    hostText d.payloads = s.filter (fun b => Typeable b) ↔
      ∀ i (hi : i < s.length), i % 16 = 15 → ¬ Typeable s[i] := by
  have hpackets := session_packets opened packet fd [.str s]
  have hrun : runCalls [.str s] (openSession opened packet fd) =
      sendStrReport s (openSession opened packet fd) := rfl
  rw [hrun] at hpackets
  revert d
  rw [hpackets]
  intro d
  rw [session_payloads, List.flatMap_singleton, hostText_eq s h,
    shortened_filter_iff maxString (by decide)]
  simp only [decide_eq_false_iff_not]
  rfl

/-- Two characters, far from the end of a fragment. -/
theorem typed_text_hi :
    hostText (Delivery.plain (fifoPackets [] (sendStrReport [104, 105]
      (openSession ⟨3, by decide⟩ .zero 0)).calls)).payloads = [104, 105] :=
  (typed_text_iff ⟨3, by decide⟩ .zero 0 [104, 105] (by decide) (.plain _)).mpr (by
    intro i hi hmod
    rw [List.length_cons, List.length_singleton] at hi
    omega)

/-- Of sixteen `a`s the host types fifteen. -/
theorem sixteenth_byte_lost :
    ¬ ∀ (opened : Descriptor) (packet : BinPacket) (fd : Int32) (s : List UInt8), 0 ∉ s →
      ∀ d : Delivery (fifoPackets [] (sendStrReport s (openSession opened packet fd)).calls),
        hostText d.payloads = s.filter (fun b => Typeable b) := by
  intro h
  have hsixteen := h ⟨3, by decide⟩ .zero 0 (List.replicate 16 97) (by decide) (.plain _)
  revert hsixteen
  decide +kernel

end Android2Mouse.Guarantees.Typing
