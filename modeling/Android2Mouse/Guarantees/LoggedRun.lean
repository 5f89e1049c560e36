import Android2Mouse.Guarantees.LogBuffer
import Android2Mouse.Guarantees.PacketReports
import Android2Mouse.Source.LoggedConn

/-!
# The packet loop with its log

Logging changes nothing of what `process_multi_bin` sends and returns, as long as every
entry fits the buffer (`processMultiBin_erases`). Whether it does is decided by the packets
that the loop handles and the errors that it meets: a keyboard packet with a keycode of 16 or
more, a gamepad packet with too many characters and an error with a long text write past the
buffer, and nothing else does.
-/
namespace Android2Mouse.Guarantees.LoggedRun
open Library Source Source.Hidp Source.ComboConn Source.AsciiMap Source.DaemonLog
open Logging LogBuffer KeySlots KeyTap PacketReports

section

variable (sk : Int32)

/-! ## Without the log -/

/-- A report that is sent or whose failure is logged, with what follows either. -/
theorem sendReport_erases {α : Type} (data : List UInt8) (e : Failure) (listed : e ∈ failures)
    {f : Bool → LoggedConn.Prog α} {good bad : Attempt Payload α} (hgood : (f true).Erases good)
    (hbad : (f false).Erases bad) :
    (LoggedConn.sendReport sk data e listed >>= f).Erases
      (sendInputRep data >>= fun sent => if sent = -1 then bad else good) := by
  rw [sendInputRep_bind]
  refine .note _ (.send _ fun errno => .note _ ?_)
  simp only [sent_eq_neg_one_iff]
  cases errno with
  | none => exact hgood
  | some errno => exact .note _ hbad

theorem sendKbd_erases (site : KbdSite) (kbd : KeyboardReport) :
    (LoggedConn.sendKbd sk site kbd).Erases (sendKbd kbd) :=
  .note _ (.note _ (sendReport_erases sk kbd.bytes _ _ (.done _) (.done _)))

theorem mem_slots (keycodes : Vector UInt8 6) (keycode : UInt8) :
    keycode ∈ keycodes.toList ↔ SlotTable.Has keycodes keycode := by
  rw [Vector.mem_toList_iff, Vector.mem_iff_getElem]
  exact ⟨fun ⟨i, hi, hkey⟩ => ⟨⟨i, hi⟩, hkey⟩, fun ⟨i, hkey⟩ => ⟨i, i.isLt, hkey⟩⟩

/-- The slots are updated as without the log. -/
theorem pressKbdChar_eq (kbd : KeyboardReport) (keycode modifier : UInt8) :
    LoggedConn.pressKbdChar sk kbd keycode modifier =
      if Rejected kbd keycode then
        .note (.note (info "press_kbd_char" "Pressed more then 6 buttons" []) (by decide))
          (.done ({ kbd with modifier := kbd.modifier ||| modifier }, 1))
      else LoggedConn.sendKbd sk .press (pressed kbd keycode modifier) := by
  unfold LoggedConn.pressKbdChar pressed
  simp only [mem_slots, rejected_iff]
  by_cases hpresent : SlotTable.Has kbd.keycodes keycode
  · rw [if_neg (fun h => h hpresent), if_neg (fun h => h.1 hpresent),
      SlotTable.insert_present 0 hpresent]
  · rw [if_pos hpresent]
    cases hfirst : firstSlot kbd.keycodes 0 with
    | none =>
      rw [if_pos ⟨hpresent, rfl⟩]
      rfl
    | some i => rw [if_neg (fun h => by cases h.2), SlotTable.insert_free 0 hpresent hfirst]

theorem releaseKbdChar_eq (kbd : KeyboardReport) (keycode modifier : UInt8) :
    LoggedConn.releaseKbdChar sk kbd keycode modifier =
      LoggedConn.sendKbd sk .release (released kbd keycode modifier) := by
  unfold LoggedConn.releaseKbdChar released
  by_cases hkey : keycode = 0
  · subst hkey
    rw [if_neg (fun h => h rfl), SlotTable.remove_empty]
  · rw [if_pos hkey]
    cases hfirst : firstSlot kbd.keycodes keycode with
    | none => rw [SlotTable.remove_none 0 hfirst]
    | some i => rw [SlotTable.remove_some 0 hfirst]

theorem pressKbdChar_erases (kbd : KeyboardReport) (keycode modifier : UInt8) :
    (LoggedConn.pressKbdChar sk kbd keycode modifier).Erases
      (ComboConn.pressKbdChar kbd keycode modifier) := by
  rw [pressKbdChar_eq, KeySlots.pressKbdChar_eq]
  by_cases hrejected : Rejected kbd keycode
  · rw [if_pos hrejected, if_pos hrejected]
    exact .note _ (.done _)
  · rw [if_neg hrejected, if_neg hrejected]
    exact sendKbd_erases sk .press _

theorem releaseKbdChar_erases (kbd : KeyboardReport) (keycode modifier : UInt8) :
    (LoggedConn.releaseKbdChar sk kbd keycode modifier).Erases
      (ComboConn.releaseKbdChar kbd keycode modifier) := by
  rw [releaseKbdChar_eq, KeySlots.releaseKbdChar_eq]
  exact sendKbd_erases sk .release _

theorem sendCharRaw_erases (kbd : KeyboardReport) (key modifier : UInt8) :
    (LoggedConn.sendCharRaw sk kbd key modifier).Erases (sendCharRaw kbd key modifier) :=
  (pressKbdChar_erases sk kbd key modifier).bind fun _ =>
    (releaseKbdChar_erases sk _ key modifier).bind fun _ => .done _

theorem sendCharAscii_mapped (kbd : KeyboardReport) (c modifier : UInt8)
    (h : c.toNat < kbdAsciimap.length) :
    LoggedConn.sendCharAscii sk kbd c modifier =
      .note (.decoded c) (LoggedConn.sendCharRaw sk kbd (keyOf (entry c))
        (if shifted (entry c) then modifier ||| 0x02 else modifier)) := by
  unfold LoggedConn.sendCharAscii
  rw [dif_pos h, ← entry_eq_getElem c h]
  cases hs : shifted (entry c) with
  | true => simp only [hs, if_true, Noted.noting_bind]
  | false =>
    simp only [hs, Bool.false_eq_true, if_false, keyOf_of_not_shifted _ hs, Noted.noting_bind]

theorem sendCharAscii_unmapped (kbd : KeyboardReport) (c modifier : UInt8)
    (h : ¬ c.toNat < kbdAsciimap.length) :
    LoggedConn.sendCharAscii sk kbd c modifier = .done (kbd, 0) := by
  unfold LoggedConn.sendCharAscii
  rw [dif_neg h]

theorem sendCharAscii_erases (kbd : KeyboardReport) (c modifier : UInt8) :
    (LoggedConn.sendCharAscii sk kbd c modifier).Erases (sendCharAscii kbd c modifier) := by
  by_cases hmap : c.toNat < kbdAsciimap.length
  · rw [sendCharAscii_mapped sk kbd c modifier hmap, TapNeutral.sendCharAscii_mapped _ _ _ hmap]
    exact .note _ (sendCharRaw_erases sk kbd _ _)
  · rw [sendCharAscii_unmapped sk kbd c modifier hmap, TapNeutral.sendCharAscii_unmapped _ _ _ hmap]
    exact .done _

theorem sendString_erases (kbd : KeyboardReport) (string : List UInt8) :
    (LoggedConn.sendString sk kbd string).Erases (sendString kbd string) := by
  induction string generalizing kbd with
  | nil => exact .done _
  | cons c string ih =>
    rw [LoggedConn.sendString, sendString]
    refine Noted.Erases.bind (sendCharAscii_erases sk kbd c 0) fun typed => ?_
    obtain ⟨kbd', r⟩ := typed
    by_cases hr : r ≠ 0
    · simp only [if_pos hr]
      exact .done _
    · simp only [if_neg hr]
      exact Noted.Erases.bind (ih kbd') fun _ => .done _

theorem say_bind {α : Type} (c : Call) (listed : c ∈ notes) (f : Unit → LoggedConn.Prog α) :
    LoggedConn.say c listed >>= f = .note (.note c listed) (f ()) := rfl

theorem handleLetter_erases (s : Locals) :
    (LoggedConn.handleLetter sk s).Erases (handleLetter s) := by
  rw [LoggedConn.handleLetter, handleLetter, Noted.noting_bind]
  refine .note _ ?_
  split
  · exact (sendCharRaw_erases sk s.kbd _ _).bind fun _ => .done _
  · split
    · exact Noted.Erases.bind (sendCharAscii_erases sk s.kbd _ _) fun _ => .done _
    · rw [say_bind, Noted.noting_bind]
      exact .note _ (.note _ (Noted.Erases.bind (sendCharAscii_erases sk s.kbd _ _) fun _ => .done _))

theorem handleKeys_erases (s : Locals) : (LoggedConn.handleKeys sk s).Erases (handleKeys s) :=
  .note _ (.note _ (sendReport_erases sk _ _ _ (.done _) (.done _)))

theorem handleKbd_erases (s : Locals) : (LoggedConn.handleKbd sk s).Erases (handleKbd s) := by
  unfold LoggedConn.handleKbd handleKbd
  refine .note _ ?_
  split
  · exact (sendString_erases sk s.kbd _).bind fun _ => .done _
  · split
    · exact handleLetter_erases sk s
    · exact handleKeys_erases sk s

theorem handleGpad_erases (s : Locals) : (LoggedConn.handleGpad sk s).Erases (handleGpad s) :=
  .note _ (sendReport_erases sk _ _ _ (.done _) (.done _))

theorem handleMouse_erases (s : Locals) : (LoggedConn.handleMouse sk s).Erases (handleMouse s) :=
  .note _ (sendReport_erases sk _ _ _ (.done _) (.done _))

theorem handleSys_erases (s : Locals) : (LoggedConn.handleSys s).Erases (handleSys s) := by
  unfold LoggedConn.handleSys handleSys
  split
  · exact .note _ (.done _)
  · exact .done _

theorem handlePacket_erases (s : Locals) :
    (LoggedConn.handlePacket sk s).Erases (handlePacket s) := by
  unfold LoggedConn.handlePacket handlePacket
  refine .note _ ?_
  split
  · exact handleKbd_erases sk s
  · split
    · exact handleGpad_erases sk s
    · split
      · exact handleMouse_erases sk s
      · split
        · exact handleSys_erases s
        · exact .done _

theorem processLoop_erases (s : Locals) (reads : List ReadResult) :
    (LoggedConn.processLoop sk s reads).Erases (processLoop s reads) := by
  induction reads generalizing s with
  | nil => exact .done _
  | cons read reads ih =>
    cases read with
    | eof => exact .done _
    | error => exact .done _
    | data bs pos le =>
      refine (handlePacket_erases sk _).bind fun handled => ?_
      obtain ⟨s', code⟩ := handled
      cases code with
      | some code => exact .done _
      | none => exact ih s'

/-- `process_multi_bin` without its log calls is the plain one. -/
theorem processMultiBin_erases (stack : BinPacket) (reads : List ReadResult) :
    (LoggedConn.processMultiBin sk stack reads).Erases (processMultiBin stack reads) :=
  .note _ (processLoop_erases sk _ reads)

/-! ## What fits -/

variable (strerror : Int32 → List UInt8)

/-- The entry fits. Of an error this is left open: its text is no part of a packet. -/
def FitsOrError : Message → Prop
  | .failed .. => True
  | m => Fits strerror m

/-- The errors among the entries have texts that leave room for the rest. -/
def ErrorsFit (messages : List Message) : Prop :=
  ∀ e listed errno, .failed e listed errno ∈ messages →
    e.func.toList.length + e.f.toList.length + errnoWidth strerror errno ≤ 59

theorem fits_iff (m : Message) :
    Fits strerror m ↔ FitsOrError strerror m ∧
      ∀ e listed errno, m = .failed e listed errno →
        e.func.toList.length + e.f.toList.length + errnoWidth strerror errno ≤ 59 := by
  constructor
  · intro hfits
    refine ⟨?_, fun e listed errno heq => by rw [heq] at hfits; exact hfits⟩
    cases m with
    | failed e listed errno => trivial
    | _ => exact hfits
  · intro ⟨hfits, herror⟩
    cases m with
    | failed e listed errno => exact herror e listed errno rfl
    | _ => exact hfits

theorem fits_all_iff (messages : List Message) :
    (∀ m ∈ messages, Fits strerror m) ↔
      (∀ m ∈ messages, FitsOrError strerror m) ∧ ErrorsFit strerror messages := by
  simp only [fits_iff]
  constructor
  · exact fun h => ⟨fun m hm => (h m hm).1, fun e listed errno hm => (h _ hm).2 e listed errno rfl⟩
  · intro ⟨hfits, herrors⟩ m hm
    refine ⟨hfits m hm, fun e listed errno heq => herrors e listed errno ?_⟩
    rw [← heq]
    exact hm

/-- Every note fits, whatever is met, but for the errors. -/
def Quiet {α : Type} (p : LoggedConn.Prog α) : Prop :=
  ∀ a, ∀ m ∈ p.notes a, FitsOrError strerror m

variable {strerror}

theorem Quiet.done {α : Type} (v : α) : Quiet strerror (.done v) :=
  fun _ _ hm => absurd hm List.not_mem_nil

theorem Quiet.note {α : Type} {m : Message} (hm : FitsOrError strerror m)
    {p : LoggedConn.Prog α} (h : Quiet strerror p) : Quiet strerror (.note m p) := by
  intro a m' hm'
  rcases List.mem_cons.mp hm' with rfl | hm'
  · exact hm
  · exact h a m' hm'

theorem Quiet.send {α : Type} (payload : Payload) {k : Option Int32 → LoggedConn.Prog α}
    (h : ∀ errno, Quiet strerror (k errno)) : Quiet strerror (.send payload k) :=
  fun a => h (a 0) (a.after 1)

/-- The entry before a packet has room for any descriptor and size. -/
theorem fits_packet (size : Int32) : FitsOrError strerror (.packet sk size LoggedConn.cacheSize) := by
  have hsk := intWidth_le sk
  have hsize : (Printf.signedText 2 size.toInt).length ≤ 11 :=
    Printf.length_signed_word (by decide) size.toUInt32
  have hcache : intWidth LoggedConn.cacheSize.toInt32 = 2 := by decide
  change intWidth sk + ((Printf.signedText 2 size.toInt).length +
    intWidth LoggedConn.cacheSize.toInt32) ≤ 27
  omega

theorem Quiet.sendReport {α : Type} (data : List UInt8) {e : Failure} (listed : e ∈ failures)
    {f : Bool → LoggedConn.Prog α} (hf : ∀ sent, Quiet strerror (f sent)) :
    Quiet strerror (LoggedConn.sendReport sk data e listed >>= f) := by
  refine Quiet.note (fits_packet sk _) (Quiet.send _ fun errno => ?_)
  have hsent : FitsOrError strerror
      (.sent (if errno.isNone then Int32.ofNat (data.length + 1) else -1)) := trivial
  cases errno with
  | none => exact Quiet.note hsent (hf true)
  | some errno =>
    have herror : FitsOrError strerror (.failed e listed errno) := trivial
    exact Quiet.note hsent (Quiet.note herror (hf false))

theorem sendKbd_bind {α : Type} (site : KbdSite) (kbd : KeyboardReport)
    (f : KeyboardReport × Int → LoggedConn.Prog α) :
    LoggedConn.sendKbd sk site kbd >>= f = .note (.keyboard site kbd) (.note (.keycodes site kbd)
      (LoggedConn.sendReport sk kbd.bytes _ (LoggedConn.kbdFailure_listed site) >>= fun sent =>
        f (kbd, if sent then 0 else -1))) := by
  rw [LoggedConn.sendKbd, Noted.noting_bind, Noted.noting_bind, Noted.note_bind, Noted.note_bind,
    Noted.bind_assoc]
  congr 3
  funext sent
  cases sent <;> rfl

theorem Quiet.sendKbd {α : Type} (site : KbdSite) {kbd : KeyboardReport}
    (hkbd : kbd.keycodes.toList.countP (16 ≤ ·) ≤ room site)
    {f : KeyboardReport × Int → LoggedConn.Prog α} (hf : ∀ r, Quiet strerror (f (kbd, r))) :
    Quiet strerror (LoggedConn.sendKbd sk site kbd >>= f) := by
  have hkeyboard : FitsOrError strerror (.keyboard site kbd) := trivial
  have hkeycodes : FitsOrError strerror (.keycodes site kbd) := hkbd
  rw [sendKbd_bind]
  exact Quiet.note hkeyboard (Quiet.note hkeycodes
    (Quiet.sendReport sk _ _ fun sent => hf _))

/-! ## Characters -/

/-- One key at most is down while a character is typed on an idle keyboard. -/
theorem Quiet.sendCharRaw {α : Type} (key modifier : UInt8)
    {f : KeyboardReport × Int → LoggedConn.Prog α} (hf : ∀ r, Quiet strerror (f (.zero, r))) :
    Quiet strerror (LoggedConn.sendCharRaw sk .zero key modifier >>= f) := by
  have hkey : key ∉ heldKeys .zero := by simp [heldKeys_idle idle_zero]
  have hback := TapNeutral.released_pressed .zero key modifier hkey UInt8.zero_and
  have hdown : (pressed .zero key modifier).keycodes.toList.countP (16 ≤ ·) ≤ room .press := by
    rw [pressed_idle idle_zero, room]
    have hlist : (withKey .zero key modifier).keycodes.toList = [key] ++ [0, 0, 0, 0, 0] := rfl
    have hrest : ([0, 0, 0, 0, 0] : List UInt8).countP (16 ≤ ·) = 0 := by decide
    have hone : [key].countP (16 ≤ ·) ≤ 1 := List.countP_le_length
    rw [hlist, List.countP_append, hrest]
    omega
  have hup : KeyboardReport.zero.keycodes.toList.countP (16 ≤ ·) ≤ room .release := by decide
  rw [LoggedConn.sendCharRaw, Noted.bind_assoc, pressKbdChar_eq,
    if_neg (not_rejected_idle idle_zero key)]
  refine Quiet.sendKbd sk .press hdown fun r => ?_
  rw [Noted.bind_assoc, releaseKbdChar_eq, hback]
  exact Quiet.sendKbd sk .release hup fun _ => hf r

theorem Quiet.sendCharAscii {α : Type} (c modifier : UInt8)
    {f : KeyboardReport × Int → LoggedConn.Prog α} (hf : ∀ r, Quiet strerror (f (.zero, r))) :
    Quiet strerror (LoggedConn.sendCharAscii sk .zero c modifier >>= f) := by
  by_cases hmap : c.toNat < kbdAsciimap.length
  · have hdecoded : FitsOrError strerror (.decoded c) := trivial
    rw [sendCharAscii_mapped sk .zero c modifier hmap, Noted.note_bind]
    exact Quiet.note hdecoded (Quiet.sendCharRaw sk _ _ hf)
  · rw [sendCharAscii_unmapped sk .zero c modifier hmap]
    exact hf 0

theorem Quiet.sendString {α : Type} (string : List UInt8)
    {f : KeyboardReport × ℕ → LoggedConn.Prog α} (hf : ∀ i, Quiet strerror (f (.zero, i))) :
    Quiet strerror (LoggedConn.sendString sk .zero string >>= f) := by
  induction string generalizing f with
  | nil => exact hf 0
  | cons c string ih =>
    rw [LoggedConn.sendString, Noted.bind_assoc]
    refine Quiet.sendCharAscii sk c 0 fun r => ?_
    by_cases hr : r ≠ 0
    · simp only [if_pos hr]
      exact hf 0
    · simp only [if_neg hr]
      rw [Noted.bind_assoc]
      exact ih fun i => hf (i + 1)

/-! ## Packets -/

/-- The characters of the numbers in a gamepad report. -/
def gamepadWidth (g : GamepadReport) : ℕ :=
  intWidth g.x.toInt32 + (intWidth g.y.toInt32 + (intWidth g.z.toInt32 +
    (intWidth g.rx.toInt32 + (intWidth g.ry.toInt32 + (intWidth g.rz.toInt32 +
      (Strtol.numeral 16 g.buttons.toNat).length)))))

/-- The packet is a keyboard report. -/
def IsKeys (p : BinPacket) : Prop :=
  p.reportId = kbdRepId ∧ p.flags &&& brptString = 0 ∧ p.flags &&& brptChar = 0

/-- No keycode of a keyboard report has two digits, and the numbers of a gamepad report have
at most 18 characters. -/
def PacketFits (p : BinPacket) : Prop :=
  (IsKeys p → p.keyboard.keycodes.toList.countP (16 ≤ ·) = 0) ∧
    (p.reportId = gpadRepId → gamepadWidth (gamepadReport p) ≤ 18)

instance (p : BinPacket) : Decidable (IsKeys p) := inferInstanceAs (Decidable (_ ∧ _ ∧ _))

instance (p : BinPacket) : Decidable (PacketFits p) :=
  inferInstanceAs (Decidable ((_ → _) ∧ (_ → _)))

theorem Quiet.handleString (p : BinPacket) :
    Quiet strerror (LoggedConn.handleString sk (.entry p)) :=
  Quiet.sendString sk _ fun _ => Quiet.done _

theorem Quiet.handleLetter (p : BinPacket) :
    Quiet strerror (LoggedConn.handleLetter sk (.entry p)) := by
  have hletter : FitsOrError strerror (.letter (Locals.entry p).packet.letter.c
    (Locals.entry p).packet.letter.mods (Locals.entry p).packet.flags2) := trivial
  rw [LoggedConn.handleLetter, Noted.noting_bind]
  refine Quiet.note hletter ?_
  split
  · exact Quiet.sendCharRaw sk _ _ fun _ => Quiet.done _
  · split
    · exact Quiet.sendCharAscii sk _ _ fun _ => Quiet.done _
    · have hwarning : ∀ h, FitsOrError strerror (.note (info "process_multi_bin" "WARNING!" []) h) :=
        fun _ => trivial
      have hflag : FitsOrError strerror (.badFlag (Locals.entry p).packet.flags) := trivial
      rw [say_bind, Noted.noting_bind]
      exact Quiet.note (hwarning _) (Quiet.note hflag
        (Quiet.sendCharAscii sk _ _ fun _ => Quiet.done _))

/-- Of one note before a program that fits. -/
theorem fits_note_iff {α : Type} {m : Message} {p : LoggedConn.Prog α} (h : Quiet strerror p)
    (a : Answers Int32) :
    (∀ m' ∈ (Noted.note m p).notes a, FitsOrError strerror m') ↔ FitsOrError strerror m := by
  rw [Noted.notes_note, List.forall_mem_cons]
  exact and_iff_left (h a)

theorem fits_note {α : Type} {m : Message} (hm : FitsOrError strerror m) {p : LoggedConn.Prog α}
    (a : Answers Int32) :
    (∀ m' ∈ (Noted.note m p).notes a, FitsOrError strerror m') ↔
      ∀ m' ∈ p.notes a, FitsOrError strerror m' := by
  rw [Noted.notes_note, List.forall_mem_cons]
  exact and_iff_right hm

theorem handleKeys_fits_iff (p : BinPacket) (a : Answers Int32) :
    (∀ m ∈ (LoggedConn.handleKeys sk (.entry p)).notes a, FitsOrError strerror m) ↔
      p.keyboard.keycodes.toList.countP (16 ≤ ·) = 0 := by
  let kbd : KeyboardReport := { KeyboardReport.zero with
    keycodes := p.keyboard.keycodes, modifier := p.keyboard.modifier }
  have hkbd : FitsOrError strerror (.keyboard .multiBin kbd) := trivial
  rw [LoggedConn.handleKeys, Noted.noting_bind, Noted.noting_bind]
  refine (fits_note hkbd a).trans ((fits_note_iff (Quiet.sendReport sk _ _ fun sent => ?_)
    a).trans Nat.le_zero)
  cases sent with
  | true => exact Quiet.done _
  | false => exact Quiet.done _

theorem handleGpad_fits_iff (p : BinPacket) (a : Answers Int32) :
    (∀ m ∈ (LoggedConn.handleGpad sk (.entry p)).notes a, FitsOrError strerror m) ↔
      gamepadWidth (gamepadReport p) ≤ 18 := by
  rw [LoggedConn.handleGpad, Noted.noting_bind]
  refine fits_note_iff (Quiet.sendReport sk _ _ fun sent => ?_) a
  cases sent with
  | true => exact Quiet.done _
  | false => exact Quiet.done _

theorem Quiet.handleMouse (p : BinPacket) :
    Quiet strerror (LoggedConn.handleMouse sk (.entry p)) := by
  have hmouse : FitsOrError strerror (.mouse (mouseReport p)) := trivial
  rw [LoggedConn.handleMouse, Noted.noting_bind]
  refine Quiet.note hmouse (Quiet.sendReport sk _ _ fun sent => ?_)
  cases sent with
  | true => exact Quiet.done _
  | false => exact Quiet.done _

theorem Quiet.handleSys (p : BinPacket) : Quiet strerror (LoggedConn.handleSys (.entry p)) := by
  rw [LoggedConn.handleSys]
  split
  · have hnote : ∀ h, FitsOrError strerror
        (.note (dbg "process_multi_bin" "receved SHUTDOWN rq" []) h) := fun _ => trivial
    rw [say_bind]
    exact Quiet.note (hnote _) (Quiet.done _)
  · exact Quiet.done _

/-- All that a packet makes the daemon log fits exactly when `PacketFits` says so. -/
theorem handlePacket_fits_iff (p : BinPacket) (a : Answers Int32) :
    (∀ m ∈ (LoggedConn.handlePacket sk (.entry p)).notes a, FitsOrError strerror m) ↔
      PacketFits p := by
  have hid : FitsOrError strerror (.reportId (Locals.entry p).packet.reportId) := trivial
  have hpacket : (Locals.entry p).packet = p := rfl
  rw [LoggedConn.handlePacket, Noted.noting_bind, fits_note hid, hpacket]
  by_cases hk : p.reportId = kbdRepId
  · have hgpad : p.reportId ≠ gpadRepId := by rw [hk]; decide
    have hkeyboard : ∀ h, FitsOrError strerror
        (.note (dbg "process_multi_bin" "--Keyboard--" []) h) := fun _ => trivial
    rw [if_pos hk, LoggedConn.handleKbd, say_bind, fits_note (hkeyboard _), hpacket]
    by_cases hs : p.flags &&& brptString ≠ 0
    · rw [if_pos hs]
      exact iff_of_true (Quiet.handleString sk p a)
        ⟨fun h => absurd h.2.1 hs, fun h => absurd h hgpad⟩
    · rw [if_neg hs]
      by_cases hc : p.flags &&& brptChar ≠ 0
      · rw [if_pos hc]
        exact iff_of_true (Quiet.handleLetter sk p a)
          ⟨fun h => absurd h.2.2 hc, fun h => absurd h hgpad⟩
      · rw [if_neg hc, handleKeys_fits_iff sk p a]
        have hkeys : IsKeys p := ⟨hk, not_not.mp hs, not_not.mp hc⟩
        exact ⟨fun h => ⟨fun _ => h, fun h => absurd h hgpad⟩, fun h => h.1 hkeys⟩
  · have hkeys : ¬ IsKeys p := fun h => hk h.1
    rw [if_neg hk]
    by_cases hg : p.reportId = gpadRepId
    · rw [if_pos hg, handleGpad_fits_iff sk p a]
      exact ⟨fun h => ⟨fun hk => absurd hk hkeys, fun _ => h⟩, fun h => h.2 hg⟩
    · rw [if_neg hg]
      refine iff_of_true ?_ ⟨fun h => absurd h hkeys, fun h => absurd h hg⟩
      split
      · exact Quiet.handleMouse sk p a
      · split
        · exact Quiet.handleSys p a
        · exact Quiet.done _ a

/-! ## Runs -/

/-- The packets that the loop meets until it returns, when its sends meet `o`. -/
def handled (s : Locals) : List ReadResult → Outcomes → List BinPacket
  | [], _ => []
  | .eof :: _, _ => []
  | .error :: _, _ => []
  | .data bs _ _ :: reads, o =>
    let prog := handlePacket { s with packet := s.packet.overlay bs }
    s.packet.overlay bs ::
      if (prog.result o).2.isNone then
        handled (prog.result o).1 reads (o.after (prog.attempts o).length)
      else []

theorem processLoop_fits_iff (stack : BinPacket) (reads : List ReadResult)
    (a : Answers Int32) :
    (∀ m ∈ (LoggedConn.processLoop sk (.entry stack) reads).notes a, FitsOrError strerror m) ↔
      ∀ p ∈ handled (.entry stack) reads a.outcomes, PacketFits p := by
  induction reads generalizing stack a with
  | nil => exact iff_of_true (Quiet.done _ a) fun _ h => absurd h List.not_mem_nil
  | cons read reads ih =>
    cases read with
    | eof => exact iff_of_true (Quiet.done _ a) fun _ h => absurd h List.not_mem_nil
    | error => exact iff_of_true (Quiet.done _ a) fun _ h => absurd h List.not_mem_nil
    | data bs pos le =>
      let p := stack.overlay bs
      obtain ⟨hattempts, hresult⟩ := (handlePacket_erases sk (.entry p)).run a
      change (∀ m ∈ ((LoggedConn.handlePacket sk (.entry p)) >>= _).notes a,
        FitsOrError strerror m) ↔ _
      rw [Noted.notes_bind, List.forall_mem_append, handlePacket_fits_iff sk p a, hattempts,
        hresult, handled, List.forall_mem_cons]
      refine and_congr Iff.rfl ?_
      have hpacket : ({ Locals.entry stack with packet := (Locals.entry stack).packet.overlay bs } :
        Locals) = .entry p := rfl
      have hnil : ∀ p' ∈ ([] : List BinPacket), PacketFits p' := fun _ h => absurd h List.not_mem_nil
      rw [hpacket]
      rcases handlePacket_ends p a.outcomes with ⟨-, ⟨p', hend⟩ | ⟨s', hend⟩⟩ | ⟨-, -, hend⟩
      · rw [hend]
        simp only [Option.isNone_none, if_true]
        exact ih p' _
      · rw [hend]
        simp only [Option.isNone_some, Bool.false_eq_true, if_false]
        exact iff_of_true (Quiet.done _ _) hnil
      · rw [hend]
        simp only [Option.isNone_some, Bool.false_eq_true, if_false]
        exact iff_of_true (Quiet.done _ _) hnil

/-- The first entry that does not fit ends the run of the log. -/
theorem logs_error {l : Log} (h : Started l) {messages : List Message}
    (hmessages : ¬ ∀ m ∈ messages, Fits strerror m) :
    messages.foldlM (log strerror) l = .error .range := by
  induction messages generalizing l with
  | nil => exact absurd (fun m hm => absurd hm List.not_mem_nil) hmessages
  | cons m messages ih =>
    rw [List.forall_mem_cons] at hmessages
    rw [List.foldlM_cons]
    by_cases hfits : Fits strerror m
    · obtain ⟨l', hlog, hstarted⟩ := log_fits h hfits
      rw [hlog]
      exact ih hstarted fun hall => hmessages ⟨hfits, hall⟩
    · rw [log_overflows h hfits]
      rfl

theorem processMultiBin_fits_iff (stack : BinPacket) (reads : List ReadResult)
    (a : Answers Int32) :
    (∀ m ∈ (LoggedConn.processMultiBin sk stack reads).notes a, Fits strerror m) ↔
      (∀ p ∈ handled (.entry stack) reads a.outcomes, PacketFits p) ∧
        ErrorsFit strerror ((LoggedConn.processMultiBin sk stack reads).notes a) := by
  have hhello : ∀ h, FitsOrError strerror (.note (dbg "process_multi_bin" "Hello" []) h) :=
    fun _ => trivial
  have hloop : (∀ m ∈ (LoggedConn.processMultiBin sk stack reads).notes a,
      FitsOrError strerror m) ↔
      ∀ p ∈ handled (.entry stack) reads a.outcomes, PacketFits p := by
    rw [LoggedConn.processMultiBin, say_bind, fits_note (hhello _)]
    exact processLoop_fits_iff sk stack reads a
  rw [fits_all_iff, hloop]

/-- Over every sequence of reads, and whatever the sends meet, `process_multi_bin` with its log
calls sends and returns what it does without them, and writes nothing past the log's buffer,
if and only if no keyboard packet that it handles has a keycode of 16 or more, no gamepad packet
has more than 18 characters in its numbers, and of each send that fails the text and the number
of the error fit beside the names of the two functions; otherwise an entry is written past the
buffer. -/
theorem logged_run_iff {path : List UInt8} {fopen malloc : Bool} {l : Log}
    (hopen : startLog path fopen malloc = some l) (a : Answers Int32) (stack : BinPacket)
    (reads : List ReadResult) :
    let fits := (∀ p ∈ handled (.entry stack) reads a.outcomes, PacketFits p) ∧
      ErrorsFit strerror ((LoggedConn.processMultiBin sk stack reads).notes a)
    ((∃ l', (LoggedConn.processMultiBin sk stack reads).run (log strerror) a l =
        .ok (l', (processMultiBin stack reads).attempts a.outcomes,
          (processMultiBin stack reads).result a.outcomes)) ↔ fits) ∧
    (¬ fits →
      (LoggedConn.processMultiBin sk stack reads).run (log strerror) a l = .error .range) := by
  have hstarted := (startLog_started hopen).1
  obtain ⟨hattempts, hresult⟩ := (processMultiBin_erases sk stack reads).run a
  have hfits := @processMultiBin_fits_iff sk strerror stack reads a
  rw [Noted.run_eq, hattempts, hresult]
  refine ⟨?_, fun hlong => ?_⟩
  · rw [← hfits, ← logs_ok_iff hstarted strerror]
    refine ⟨fun ⟨l', hrun⟩ => ?_, fun ⟨l', hlogs⟩ => ⟨l', ?_⟩⟩
    · cases hlogs : logs strerror l ((LoggedConn.processMultiBin sk stack reads).notes a) with
      | ok l'' => exact ⟨l'', rfl⟩
      | error e =>
        rw [logs] at hlogs
        rw [hlogs] at hrun
        cases hrun
    · rw [logs] at hlogs
      rw [hlogs]
      rfl
  · rw [logs_error hstarted fun hall => hlong (hfits.mp hall)]
    rfl

end

/-- A mouse packet fits; that the host has reset the connection does not. -/
theorem logged_run_reset :
    let mouse : BinPacket := ⟨mouseRepId, 0, 0, 0, #v[0, 0, 0, 0, 0, 0, 0, 0, 0, 0, 0, 0, 0, 0, 0, 0]⟩
    let l : Log := ⟨58, 65536, ⟨[], 0⟩, Strtol.literal "hidp_clientd.log".toList, 64, false, 0⟩
    let strerror := fun _ => Strtol.literal "Connection reset by peer".toList
    PacketFits mouse ∧ (LoggedConn.processMultiBin 7 mouse [.packet mouse]).run (log strerror)
      (fun _ => some 104) l = .error .range := by
  intro mouse l strerror
  have hopen : startLog (Strtol.literal "hidp_clientd.log".toList) true true = some l := by decide
  refine ⟨by decide, (logged_run_iff 7 hopen (fun _ => some 104) mouse [.packet mouse]).2 ?_⟩
  intro hfits
  -- the entries before it: hello, the report id, the report, the packet and the result
  have hwide := hfits.2 ⟨"process_multi_bin", "send_input_rep()"⟩ (by decide) 104
    (.tail _ (.tail _ (.tail _ (.tail _ (.tail _ (.head _))))))
  exact absurd hwide (by decide)

end Android2Mouse.Guarantees.LoggedRun
