import Mathlib.Tactic.Tauto
import Android2Mouse.Library.Lasting
import Android2Mouse.Guarantees.HostView

/-!
# Held buttons

A button is held when a call has pushed it and no call since has released it
(`MouseHeld`, `JoystickHeld`): this is said of the calls alone, bit by bit, and
for any mask. The two masks of the class follow it, every mouse or gamepad
report carries its mask cut to the width of the field, and so the host's view
is exact for the buttons the field has room for.
-/
namespace Android2Mouse.Guarantees.HeldButtons
open Library Source.ComboConn Source.Hidp Source.HidpClientdlib Source.HidpBcaster
open Session HostView

/-! ## Bits -/

def bit (mask : Int32) (i : ℕ) : Bool := mask.toBitVec.getLsbD i

def bit8 (buttons : UInt8) (i : ℕ) : Bool := buttons.toBitVec.getLsbD i

def bit16 (buttons : UInt16) (i : ℕ) : Bool := buttons.toBitVec.getLsbD i

theorem bit_zero (i : ℕ) : bit 0 i = false := by
  simp [bit]

theorem bit_or (m btn : Int32) (i : ℕ) : bit (m ||| btn) i = (bit m i || bit btn i) := by
  simp [bit]

theorem bit_of_ge (m : Int32) (i : ℕ) (h : 32 ≤ i) : bit m i = false :=
  BitVec.getLsbD_of_ge _ _ h

theorem bit_and_not (m btn : Int32) (i : ℕ) :
    bit (m &&& ~~~btn) i = (bit m i && !bit btn i) := by
  by_cases h : i < 32
  · simp [bit, h]
  · rw [bit_of_ge _ _ (by omega), bit_of_ge m _ (by omega), Bool.false_and]

theorem bit8_intToUInt8 (m : Int32) (i : ℕ) : bit8 (intToUInt8 m) i = (decide (i < 8) && bit m i) := by
  simp [bit8, bit, intToUInt8]

theorem bit16_intToUInt16 (m : Int32) (i : ℕ) :
    bit16 (intToUInt16 m) i = (decide (i < 16) && bit m i) := by
  simp [bit16, bit, intToUInt16]

/-- What is left of a word is zero when its low bits are. -/
theorem setWidth_eq_zero_iff (v : BitVec 32) (w : ℕ) :
    v.setWidth w = 0#w ↔ ∀ i < w, ¬ v.getLsbD i = true := by
  rw [BitVec.eq_of_getLsbD_eq_iff]
  constructor
  · intro h i hi
    have hbit := h i hi
    rw [BitVec.getLsbD_setWidth, BitVec.getLsbD_zero] at hbit
    simpa [hi] using hbit
  · intro h i hi
    rw [BitVec.getLsbD_setWidth, BitVec.getLsbD_zero, Bool.eq_false_iff.mpr (h i hi), Bool.and_false]

theorem intToUInt8_eq_zero_iff (m : Int32) :
    intToUInt8 m = 0 ↔ ∀ i < 8, ¬ bit m i = true := by
  rw [← UInt8.toBitVec_inj]
  exact setWidth_eq_zero_iff m.toBitVec 8

theorem intToUInt16_eq_zero_iff (m : Int32) :
    intToUInt16 m = 0 ↔ ∀ i < 16, ¬ bit m i = true := by
  rw [← UInt16.toBitVec_inj]
  exact setWidth_eq_zero_iff m.toBitVec 16

/-! ## Pushed and not since released -/

def PushesMouse (i : ℕ) : Call → Prop
  | .pushMouseButton btn => bit btn i
  | .releaseMouseButton _ | .pushJoystickButton _ | .releaseJoystickButton _ | .releaseAllButtons
  | .reportMouse .. | .reportJoystick .. | .reportString _ | .reportRawChar _
  | .reportAsciiChar _ => False

def ReleasesMouse (i : ℕ) : Call → Prop
  | .releaseMouseButton btn => bit btn i
  | .releaseAllButtons => True
  | .pushMouseButton _ | .pushJoystickButton _ | .releaseJoystickButton _ | .reportMouse ..
  | .reportJoystick .. | .reportString _ | .reportRawChar _ | .reportAsciiChar _ => False

def PushesJoystick (i : ℕ) : Call → Prop
  | .pushJoystickButton btn => bit btn i
  | .pushMouseButton _ | .releaseMouseButton _ | .releaseJoystickButton _ | .releaseAllButtons
  | .reportMouse .. | .reportJoystick .. | .reportString _ | .reportRawChar _
  | .reportAsciiChar _ => False

def ReleasesJoystick (i : ℕ) : Call → Prop
  | .releaseJoystickButton btn => bit btn i
  | .releaseAllButtons => True
  | .pushMouseButton _ | .releaseMouseButton _ | .pushJoystickButton _ | .reportMouse ..
  | .reportJoystick .. | .reportString _ | .reportRawChar _ | .reportAsciiChar _ => False

/-- Mouse button `i` was pushed and not since released or cleared. -/
def MouseHeld (calls : List Call) (i : ℕ) : Prop :=
  Lasting (PushesMouse i) (ReleasesMouse i) calls

/-- Joystick button `i` was pushed and not since released or cleared. -/
def JoystickHeld (calls : List Call) (i : ℕ) : Prop :=
  Lasting (PushesJoystick i) (ReleasesJoystick i) calls

theorem mouseMask_bit (call : Call) (m : Int32) (i : ℕ) :
    bit (call.mouseMask m) i = true ↔
      PushesMouse i call ∨ (bit m i = true ∧ ¬ ReleasesMouse i call) := by
  cases call with
  | pushMouseButton btn =>
    simp only [Call.mouseMask, PushesMouse, ReleasesMouse, bit_or, Bool.or_eq_true]
    tauto
  | releaseMouseButton btn => simp [Call.mouseMask, PushesMouse, ReleasesMouse, bit_and_not]
  | releaseAllButtons => simp [Call.mouseMask, PushesMouse, ReleasesMouse, bit_zero]
  | _ => simp [Call.mouseMask, PushesMouse, ReleasesMouse]

theorem joystickMask_bit (call : Call) (m : Int32) (i : ℕ) :
    bit (call.joystickMask m) i = true ↔
      PushesJoystick i call ∨ (bit m i = true ∧ ¬ ReleasesJoystick i call) := by
  cases call with
  | pushJoystickButton btn =>
    simp only [Call.joystickMask, PushesJoystick, ReleasesJoystick, bit_or, Bool.or_eq_true]
    tauto
  | releaseJoystickButton btn =>
    simp [Call.joystickMask, PushesJoystick, ReleasesJoystick, bit_and_not]
  | releaseAllButtons => simp [Call.joystickMask, PushesJoystick, ReleasesJoystick, bit_zero]
  | _ => simp [Call.joystickMask, PushesJoystick, ReleasesJoystick]

section Masks

variable (opened : Descriptor) (packet : BinPacket) (fd : Int32) (calls : List Call)

/-- The mouse mask is the set of held mouse buttons. -/
theorem mouseButtons_held (i : ℕ) :
    bit (run calls (startOf opened packet fd)).mouseButtons i = true ↔ MouseHeld calls i := by
  refine run_iff_lasting _ _ (fun b call => call.run b) (fun b => bit b.mouseButtons i = true)
    (startOf opened packet fd) ?_ ?_ calls
  · exact Bool.eq_false_iff.mp (bit_zero i)
  · intro b call
    rw [call.run_mouseButtons]
    exact mouseMask_bit call b.mouseButtons i

/-- The joystick mask is the set of held joystick buttons. -/
theorem joystickButtons_held (i : ℕ) :
    bit (run calls (startOf opened packet fd)).joystickButtons i = true ↔ JoystickHeld calls i := by
  refine run_iff_lasting _ _ (fun b call => call.run b) (fun b => bit b.joystickButtons i = true)
    (startOf opened packet fd) ?_ ?_ calls
  · exact Bool.eq_false_iff.mp (bit_zero i)
  · intro b call
    rw [call.run_joystickButtons]
    exact joystickMask_bit call b.joystickButtons i

end Masks

/-! ## Masks and reports -/

/-- The mouse buttons the host takes to be held; none before the first report. -/
def hostMouseButtons (payloads : List Payload) : UInt8 :=
  ((last mouseOf payloads).map MouseReport.buttons).getD 0

/-- The gamepad buttons the host takes to be held. -/
def hostGamepadButtons (payloads : List Payload) : UInt16 :=
  ((last gamepadOf payloads).map GamepadReport.buttons).getD 0

theorem mouseMask_of_silent (call : Call) (m : Int32) (h : mouseReportOf m call = none) :
    call.mouseMask m = m := by
  cases call with
  | pushMouseButton | releaseMouseButton | releaseAllButtons => cases h
  | _ => rfl

theorem joystickMask_of_silent (call : Call) (m : Int32) (h : gamepadReportOf m call = none) :
    call.joystickMask m = m := by
  cases call with
  | pushJoystickButton | releaseJoystickButton | releaseAllButtons => cases h
  | _ => rfl

theorem mouseReportOf_buttons (call : Call) (m : Int32) (r : MouseReport)
    (h : mouseReportOf m call = some r) : r.buttons = intToUInt8 (call.mouseMask m) := by
  obtain ⟨motion, _, rfl⟩ := Option.map_eq_some_iff.mp h
  rfl

theorem gamepadReportOf_buttons (call : Call) (m : Int32) (r : GamepadReport)
    (h : gamepadReportOf m call = some r) : r.buttons = intToUInt16 (call.joystickMask m) := by
  obtain ⟨stick, _, rfl⟩ := Option.map_eq_some_iff.mp h
  rfl

/-- The run lemma: where every report of a device carries a mask of the class,
cut to the width of its field, and a call without a report leaves the mask
alone, the host has that mask. -/
theorem buttons_sent {ρ β : Type} (d : DeviceView ρ) (buttons : ρ → β) (cut : Int32 → β)
    (mask : Bcaster → Int32)
    (hreport : ∀ (call : Call) (b : Bcaster) (r : ρ),
      d.reportOf b.mouseButtons b.joystickButtons call = some r → buttons r = cut (mask (call.run b)))
    (hsilent : ∀ (call : Call) (b : Bcaster),
      d.reportOf b.mouseButtons b.joystickButtons call = none → mask (call.run b) = mask b)
    (b : Bcaster) (calls : List Call) :
    ((last d.view (sent calls b)).map buttons).getD (cut (mask b)) = cut (mask (run calls b)) := by
  induction calls using List.reverseRecOn with
  | nil => rfl
  | append_singleton calls call ih =>
    rw [d.last_snoc, run_snoc]
    cases hcall : d.reportOf (run calls b).mouseButtons (run calls b).joystickButtons call with
    | none =>
      rw [Option.none_or, hsilent call _ hcall]
      exact ih
    | some r => exact hreport call _ r hcall

section Reports

variable (opened : Descriptor) (packet : BinPacket) (fd : Int32) (calls : List Call)

/-- The host has the mouse mask, cut to eight bits. -/
theorem hostMouseButtons_sent :
    hostMouseButtons (sent calls (startOf opened packet fd)) =
      intToUInt8 (run calls (startOf opened packet fd)).mouseButtons := by
  refine buttons_sent mouseView MouseReport.buttons intToUInt8 Bcaster.mouseButtons ?_ ?_
    (startOf opened packet fd) calls
  · intro call b r h
    rw [mouseView_reportOf] at h
    rw [call.run_mouseButtons, mouseReportOf_buttons call _ r h]
  · intro call b h
    rw [mouseView_reportOf] at h
    rw [call.run_mouseButtons, mouseMask_of_silent call _ h]

/-- The host has the joystick mask, cut to sixteen bits. -/
theorem hostGamepadButtons_sent :
    hostGamepadButtons (sent calls (startOf opened packet fd)) =
      intToUInt16 (run calls (startOf opened packet fd)).joystickButtons := by
  refine buttons_sent gamepadView GamepadReport.buttons intToUInt16 Bcaster.joystickButtons ?_ ?_
    (startOf opened packet fd) calls
  · intro call b r h
    rw [gamepadView_reportOf] at h
    rw [call.run_joystickButtons, gamepadReportOf_buttons call _ r h]
  · intro call b h
    rw [gamepadView_reportOf] at h
    rw [call.run_joystickButtons, joystickMask_of_silent call _ h]

theorem hostMouseButtons_held (i : ℕ) :
    bit8 (hostMouseButtons (sent calls (startOf opened packet fd))) i = true ↔
      i < 8 ∧ MouseHeld calls i := by
  rw [hostMouseButtons_sent, bit8_intToUInt8, Bool.and_eq_true, decide_eq_true_iff,
    mouseButtons_held]

theorem hostGamepadButtons_held (i : ℕ) :
    bit16 (hostGamepadButtons (sent calls (startOf opened packet fd))) i = true ↔
      i < 16 ∧ JoystickHeld calls i := by
  rw [hostGamepadButtons_sent, bit16_intToUInt16, Bool.and_eq_true, decide_eq_true_iff,
    joystickButtons_held]

end Reports

/-! ## During a session -/

/-- The mask is an `|` of named buttons. -/
def BuiltFrom (named : List Int32) (mask : Int32) : Prop :=
  ∃ l : List Int32, l ⊆ named ∧ mask = l.foldr (· ||| ·) 0

/-- The masks of a call are built from the constants of its device. -/
def MasksValid : Call → Prop
  | .pushMouseButton btn | .releaseMouseButton btn => BuiltFrom mevButtons btn
  | .pushJoystickButton btn | .releaseJoystickButton btn => BuiltFrom jevButtons btn
  | .releaseAllButtons | .reportMouse .. | .reportJoystick .. | .reportString _
  | .reportRawChar _ | .reportAsciiChar _ => True

theorem BuiltFrom.bit_lt {named : List Int32} {mask : Int32} (h : BuiltFrom named mask)
    (width : ℕ) (hwidth : ∀ b ∈ named, ∀ i, bit b i = true → i < width) (i : ℕ)
    (hbit : bit mask i = true) : i < width := by
  obtain ⟨l, hl, rfl⟩ := h
  induction l with
  | nil => exact absurd hbit (Bool.eq_false_iff.mp (bit_zero i))
  | cons b l ih =>
    rw [List.cons_subset] at hl
    rw [List.foldr_cons, bit_or, Bool.or_eq_true] at hbit
    rcases hbit with hbit | hbit
    · exact hwidth b hl.1 i hbit
    · exact ih hl.2 hbit

/-- Named buttons are settled by looking at the bits of an `int`. -/
theorem named_bit_lt (named : List Int32) (width : ℕ)
    (h : (named.all fun b => (List.range 32).all fun i => !bit b i || decide (i < width)) = true) :
    ∀ b ∈ named, ∀ i, bit b i = true → i < width := by
  intro b hb i hbit
  by_cases hi : i < 32
  · have hall := List.all_eq_true.mp (List.all_eq_true.mp h b hb) i (List.mem_range.mpr hi)
    simpa [hbit] using hall
  · rw [bit_of_ge b i (by omega)] at hbit
    cases hbit

theorem mouseHeld_lt (calls : List Call) (hvalid : ∀ c ∈ calls, MasksValid c) (i : ℕ)
    (h : MouseHeld calls i) : i < 8 := by
  obtain ⟨call, hmem, hpush⟩ := h.exists_start
  have hcall := hvalid call hmem
  cases call with
  | pushMouseButton btn =>
    exact hcall.bit_lt 8 (named_bit_lt mevButtons 8 (by decide)) i hpush
  | _ => exact hpush.elim

theorem joystickHeld_lt (calls : List Call) (hvalid : ∀ c ∈ calls, MasksValid c) (i : ℕ)
    (h : JoystickHeld calls i) : i < 16 := by
  obtain ⟨call, hmem, hpush⟩ := h.exists_start
  have hcall := hvalid call hmem
  cases call with
  | pushJoystickButton btn =>
    exact hcall.bit_lt 16 (named_bit_lt jevButtons 16 (by decide)) i hpush
  | _ => exact hpush.elim

inductive Device where
  | mouse | gamepad | keyboard
  deriving DecidableEq, Repr

/-- The devices a call reports for. -/
def devices : Call → List Device
  | .pushMouseButton _ | .releaseMouseButton _ | .reportMouse .. => [.mouse]
  | .pushJoystickButton _ | .releaseJoystickButton _ | .reportJoystick .. => [.gamepad]
  | .releaseAllButtons => [.gamepad, .mouse]
  | .reportString _ | .reportRawChar _ | .reportAsciiChar _ => [.keyboard]

def IsMovement : Call → Prop
  | .reportMouse .. | .reportJoystick .. => True
  | _ => False

theorem mouseReportOf_mouse (call : Call) (m : Int32) (h : .mouse ∈ devices call) :
    ∃ r, mouseReportOf m call = some r := by
  cases call with
  | pushMouseButton | releaseMouseButton | releaseAllButtons | reportMouse => exact ⟨_, rfl⟩
  | _ => exact absurd h (by simp [devices])

theorem mouseReportOf_other (call : Call) (m : Int32) (h : .mouse ∉ devices call) :
    mouseReportOf m call = none := by
  cases call with
  | pushMouseButton | releaseMouseButton | releaseAllButtons | reportMouse =>
    exact absurd (by simp [devices]) h
  | _ => rfl

theorem gamepadReportOf_gamepad (call : Call) (m : Int32) (h : .gamepad ∈ devices call) :
    ∃ r, gamepadReportOf m call = some r := by
  cases call with
  | pushJoystickButton | releaseJoystickButton | releaseAllButtons | reportJoystick =>
    exact ⟨_, rfl⟩
  | _ => exact absurd h (by simp [devices])

theorem gamepadReportOf_other (call : Call) (m : Int32) (h : .gamepad ∉ devices call) :
    gamepadReportOf m call = none := by
  cases call with
  | pushJoystickButton | releaseJoystickButton | releaseAllButtons | reportJoystick =>
    exact absurd (by simp [devices]) h
  | _ => rfl

theorem lastKeyboard_other (call : Call) (mouse joystick : Int32) (h : .keyboard ∉ devices call) :
    last keyboardOf (reportsOf mouse joystick call) = none := by
  cases call with
  | reportString | reportRawChar | reportAsciiChar => exact absurd (by simp [devices]) h
  | releaseAllButtons =>
    rw [reportsOf, Call.clientCalls, List.flatMap_cons, List.flatMap_singleton, last_append,
      lastKeyboard_call _ id, lastKeyboard_call _ id]
    rfl
  | _ =>
    rw [reportsOf, Call.clientCalls, List.flatMap_singleton]
    exact lastKeyboard_call _ id

theorem movement_masks (call : Call) (h : IsMovement call) (m : Int32) :
    call.mouseMask m = m ∧ call.joystickMask m = m := by
  cases call with
  | reportMouse | reportJoystick => exact ⟨rfl, rfl⟩
  | _ => exact h.elim

/-- After every call of every session: a call for the mouse or the gamepad
leaves the held buttons in that device's last report, a movement changes no
buttons, and a call leaves the last report of every other device alone. -/
theorem host_buttons_exact (opened : Descriptor) (packet : BinPacket) (fd : Int32)
    (before : List Call) (call : Call) (hvalid : ∀ c ∈ before ++ [call], MasksValid c)
    (d₀ : Delivery (sessionPackets opened packet fd before))
    (d : Delivery (sessionPackets opened packet fd (before ++ [call]))) :
    (.mouse ∈ devices call → ∃ r, last mouseOf d.payloads = some r ∧
      ∀ i, bit8 r.buttons i = true ↔ MouseHeld (before ++ [call]) i) ∧
    (.gamepad ∈ devices call → ∃ r, last gamepadOf d.payloads = some r ∧
      ∀ i, bit16 r.buttons i = true ↔ JoystickHeld (before ++ [call]) i) ∧
    (IsMovement call → hostMouseButtons d.payloads = hostMouseButtons d₀.payloads ∧
      hostGamepadButtons d.payloads = hostGamepadButtons d₀.payloads) ∧
    (.mouse ∉ devices call → last mouseOf d.payloads = last mouseOf d₀.payloads) ∧
    (.gamepad ∉ devices call → last gamepadOf d.payloads = last gamepadOf d₀.payloads) ∧
    (.keyboard ∉ devices call → last keyboardOf d.payloads = last keyboardOf d₀.payloads) := by
  rw [payloads_sent, payloads_sent]
  refine ⟨fun hmouse => ?_, fun hgamepad => ?_, fun hmove => ?_, fun hmouse => ?_,
    fun hgamepad => ?_, fun hkeyboard => ?_⟩
  · obtain ⟨r, hr⟩ := mouseReportOf_mouse call
      (run before (startOf opened packet fd)).mouseButtons hmouse
    have hlast : last mouseOf (sent (before ++ [call]) (startOf opened packet fd)) = some r := by
      rw [lastMouse_snoc, hr, Option.some_or]
    refine ⟨r, hlast, fun i => ?_⟩
    have hheld := hostMouseButtons_held opened packet fd (before ++ [call]) i
    rw [hostMouseButtons, hlast] at hheld
    exact hheld.trans (and_iff_right_of_imp (mouseHeld_lt _ hvalid i))
  · obtain ⟨r, hr⟩ := gamepadReportOf_gamepad call
      (run before (startOf opened packet fd)).joystickButtons hgamepad
    have hlast : last gamepadOf (sent (before ++ [call]) (startOf opened packet fd)) = some r := by
      rw [lastGamepad_snoc, hr, Option.some_or]
    refine ⟨r, hlast, fun i => ?_⟩
    have hheld := hostGamepadButtons_held opened packet fd (before ++ [call]) i
    rw [hostGamepadButtons, hlast] at hheld
    exact hheld.trans (and_iff_right_of_imp (joystickHeld_lt _ hvalid i))
  · simp only [hostMouseButtons_sent, hostGamepadButtons_sent, run_snoc, call.run_mouseButtons,
      call.run_joystickButtons, (movement_masks call hmove _).1, (movement_masks call hmove _).2,
      and_self]
  · rw [lastMouse_snoc, mouseReportOf_other call _ hmouse, Option.none_or]
  · rw [lastGamepad_snoc, gamepadReportOf_other call _ hgamepad, Option.none_or]
  · rw [sent_snoc, last_append, lastKeyboard_other call _ _ hkeyboard, Option.none_or]

/-- Left pushed, then middle: the host has both. -/
theorem host_buttons_left_middle :
    ∃ r, last mouseOf (Delivery.plain (sessionPackets ⟨3, by decide⟩ .zero 0
        ([.pushMouseButton mevBtnLeft] ++ [.pushMouseButton mevBtnMiddle]))).payloads = some r ∧
      ∀ i, bit8 r.buttons i = true ↔
        MouseHeld ([.pushMouseButton mevBtnLeft] ++ [.pushMouseButton mevBtnMiddle]) i := by
  have hvalid : ∀ c ∈ [Call.pushMouseButton mevBtnLeft] ++ [.pushMouseButton mevBtnMiddle],
      MasksValid c := by
    intro c hc
    rcases List.mem_pair.mp hc with rfl | rfl
    · exact ⟨[mevBtnLeft], by decide, by decide⟩
    · exact ⟨[mevBtnMiddle], by decide, by decide⟩
  exact (host_buttons_exact ⟨3, by decide⟩ .zero 0 [.pushMouseButton mevBtnLeft]
    (.pushMouseButton mevBtnMiddle) hvalid (.plain _) (.plain _)).1 (by decide)

/-! ## After a session -/

/-- The packets in the FIFO once `EndSession` has returned. -/
def endedPackets (opened : Descriptor) (packet : BinPacket) (fd : Int32) (calls : List Call) :
    List BinPacket :=
  fifoPackets [] (Source.HidpBcaster.endSession (run calls (startOf opened packet fd))).lib.calls

/-- `EndBcast` closes the descriptor before `ReleaseAllButtons` writes to it. -/
theorem endedPackets_eq (opened : Descriptor) (packet : BinPacket) (fd : Int32)
    (calls : List Call) :
    endedPackets opened packet fd calls =
      (clientCallsOf calls (startOf opened packet fd)).flatMap ClientCall.packets ++
        [shutdownPacket] := by
  let c := runCalls (clientCallsOf calls (startOf opened packet fd)) (openSession opened packet fd)
  let release : List ClientCall := [.gpad 0 0 0 0 0 0 0, .mouse 0 0 0 0]
  have hlib : (Source.HidpBcaster.endSession (run calls (startOf opened packet fd))).lib =
      runCalls release (Source.HidpClientdlib.endSession c) := by
    have hrun := run_lib calls (startOf opened packet fd)
    exact congrArg (fun lib => runCalls release (Source.HidpClientdlib.endSession lib)) hrun
  have hfd : (Source.HidpClientdlib.endSession c).fd = opened.1 := by
    have hcalls := runCalls_fd (clientCallsOf calls (startOf opened packet fd))
      (openSession opened packet fd)
    rw [openSession_fd] at hcalls
    exact hcalls
  rw [endedPackets, hlib, runCalls_calls, hfd, endSession_calls, List.append_assoc, session_fifo,
    runCalls_fd, openSession_fd, List.cons_append, fifoPackets,
    if_pos (List.mem_singleton_self _), List.singleton_append, fifoPackets]
  have hlost := fifoPackets_lost _ _ (not_mem_close [opened.1] opened.1)
    (release.flatMap ClientCall.packets) []
  rw [List.append_nil] at hlost
  rw [hlost]
  rfl

theorem hostMouseButtons_eq_zero_iff (payloads : List Payload) :
    (∀ r, last mouseOf payloads = some r → r.buttons = 0) ↔ hostMouseButtons payloads = 0 := by
  unfold hostMouseButtons
  cases last mouseOf payloads with
  | none => simp
  | some r => simp

theorem hostGamepadButtons_eq_zero_iff (payloads : List Payload) :
    (∀ r, last gamepadOf payloads = some r → r.buttons = 0) ↔ hostGamepadButtons payloads = 0 := by
  unfold hostGamepadButtons
  cases last gamepadOf payloads with
  | none => simp
  | some r => simp

/-- When the session is over and the daemon has handled all that reached it, the
last reports have their buttons up exactly when every button pushed during the
session, of those its field has room for, was released during the session. -/
theorem released_at_end_iff (opened : Descriptor) (packet : BinPacket) (fd : Int32)
    (calls : List Call) (d : Delivery (endedPackets opened packet fd calls)) :
    ((∀ r, last mouseOf d.payloads = some r → r.buttons = 0) ∧
      (∀ r, last gamepadOf d.payloads = some r → r.buttons = 0)) ↔
    (∀ i < 8, ¬ MouseHeld calls i) ∧ (∀ i < 16, ¬ JoystickHeld calls i) := by
  revert d
  rw [endedPackets_eq]
  intro d
  have hsent : d.payloads = sent calls (startOf opened packet fd) :=
    (closed_session_payloads _ [] d).1
  rw [hostMouseButtons_eq_zero_iff, hostGamepadButtons_eq_zero_iff, hsent, hostMouseButtons_sent,
    hostGamepadButtons_sent, intToUInt8_eq_zero_iff, intToUInt16_eq_zero_iff]
  simp only [mouseButtons_held, joystickButtons_held]

/-- A session that ends with the left button pushed leaves it held. -/
theorem left_button_stuck :
    ¬ ∀ (opened : Descriptor) (packet : BinPacket) (fd : Int32) (calls : List Call)
      (d : Delivery (endedPackets opened packet fd calls)),
      (∀ r, last mouseOf d.payloads = some r → r.buttons = 0) ∧
        (∀ r, last gamepadOf d.payloads = some r → r.buttons = 0) := by
  intro h
  have hstuck := (h ⟨3, by decide⟩ .zero 0 [.pushMouseButton mevBtnLeft] (.plain _)).1
    ⟨mouseRepId, 1, 0, 0, 0⟩ (by decide)
  revert hstuck
  decide

end Android2Mouse.Guarantees.HeldButtons
