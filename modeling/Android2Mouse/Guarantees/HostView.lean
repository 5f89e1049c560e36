import Mathlib.Data.List.Induction
import Android2Mouse.Guarantees.Session
import Android2Mouse.Source.HidpBcaster

/-!
# The host's view of the three devices

What the host knows of a device is the last report it received from it. A call
of the Java front end adds at most one report of each device, so the view after
a session is the view before its last call, with that call's own report put
over it. This is proved once, for any `DeviceView` (`last_snoc`), of which the
mouse and the gamepad are two.
-/
namespace Android2Mouse.Guarantees.HostView
open Library Source.ComboConn Source.Hidp Source.HidpClientdlib Source.HidpBcaster
open KeyTap PacketReports Session

/-! ## Reports in payloads -/

def mouseOf : Payload → Option MouseReport
  | [0xA1, 0x02, buttons, x, y, wheel] =>
    some ⟨mouseRepId, buttons, x.toInt8, y.toInt8, wheel.toInt8⟩
  | _ => none

def gamepadOf : Payload → Option GamepadReport
  | [0xA1, 0x03, lo, hi, x, y, z, rx, ry, rz] =>
    some ⟨gpadRepId, le16 lo hi, x.toInt8, y.toInt8, z.toInt8, rx.toInt8, ry.toInt8, rz.toInt8⟩
  | _ => none

def keyboardOf : Payload → Option KeyboardReport
  | [0xA1, 0x01, modifier, reserved, k0, k1, k2, k3, k4, k5] =>
    some ⟨kbdRepId, modifier, reserved, #v[k0, k1, k2, k3, k4, k5]⟩
  | _ => none

/-- The last report of a kind. -/
def last {ρ : Type} (view : Payload → Option ρ) (payloads : List Payload) : Option ρ :=
  (payloads.filterMap view).getLast?

section

variable {ρ : Type} (view : Payload → Option ρ)

theorem last_append (ps qs : List Payload) :
    last view (ps ++ qs) = (last view qs).or (last view ps) := by
  rw [last, List.filterMap_append, List.getLast?_append]
  rfl

theorem last_singleton (p : Payload) : last view [p] = view p := by
  unfold last
  cases h : view p with
  | none => simp [h]
  | some r => simp [h]

theorem last_other (qs : List Payload) (h : ∀ q ∈ qs, view q = none) : last view qs = none := by
  have hnil : qs.filterMap view = [] := List.filterMap_eq_nil_iff.mpr h
  rw [last, hnil]
  rfl

end

theorem mouseOf_mouse (r : MouseReport) (h : r.reportId = mouseRepId) :
    mouseOf (inputPayload r.bytes) = some r := by
  obtain ⟨rid, buttons, x, y, wheel⟩ := r
  subst h
  rfl

theorem gamepadOf_gamepad (r : GamepadReport) (h : r.reportId = gpadRepId) :
    gamepadOf (inputPayload r.bytes) = some r := by
  obtain ⟨rid, buttons, x, y, z, rx, ry, rz⟩ := r
  subst h
  have hview : gamepadOf (inputPayload (GamepadReport.bytes ⟨gpadRepId, buttons, x, y, z, rx, ry,
      rz⟩)) = some ⟨gpadRepId, le16 buttons.toUInt8 (buttons >>> 8).toUInt8, x, y, z, rx, ry, rz⟩ :=
    rfl
  rw [hview, le16_bytes]

/-! ## Library calls -/

/-- The payload is one of a tap's. -/
def IsTap (p : Payload) : Prop := ∃ key modifier, p ∈ tapPayloads key modifier

theorem IsTap.not_mouse {p : Payload} (h : IsTap p) : mouseOf p = none := by
  obtain ⟨key, modifier, hmem⟩ := h
  rcases List.mem_pair.mp hmem with rfl | rfl
  · rfl
  · rfl

theorem IsTap.not_gamepad {p : Payload} (h : IsTap p) : gamepadOf p = none := by
  obtain ⟨key, modifier, hmem⟩ := h
  rcases List.mem_pair.mp hmem with rfl | rfl
  · rfl
  · rfl

theorem charPayloads_tap (c : UInt8) (p : Payload) (h : p ∈ charPayloads c) : IsTap p := by
  unfold charPayloads at h
  split at h
  · exact ⟨_, _, h⟩
  · exact absurd h List.not_mem_nil

/-- The calls that report keys. -/
def IsKeyCall : ClientCall → Prop
  | .mouse .. | .gpad .. => False
  | .asciiChar .. | .rawChar .. | .str _ => True

/-- What the host receives of such a call are taps. -/
theorem callPayloads_tap (call : ClientCall) (hkey : IsKeyCall call) (p : Payload)
    (h : p ∈ callPayloads call) : IsTap p := by
  cases call with
  | mouse x y buttons wheel => exact hkey.elim
  | gpad x y z rx ry rz buttons => exact hkey.elim
  | rawChar ch mod =>
    rw [callPayloads_raw] at h
    exact ⟨_, _, h⟩
  | asciiChar ch mod =>
    have hstring : brptChar &&& brptString = 0 := by decide
    have hchar : brptChar &&& brptChar ≠ 0 := by decide
    have hascii : charAscii &&& charRaw = 0 := by decide
    rw [callPayloads, ClientCall.packets, List.flatMap_singleton, delivered] at h
    rcases packetReports_ascii (letterPacket ch mod charAscii) rfl hstring hchar hascii
      .allSucceed with hnone | ⟨key, modifier, htap⟩
    · rw [hnone] at h
      exact absurd h List.not_mem_nil
    · rw [htap] at h
      exact ⟨key, modifier, h⟩
  | str s =>
    have hstring : brptString &&& brptString ≠ 0 := by decide
    rw [callPayloads, ClientCall.packets, List.flatMap_map] at h
    obtain ⟨frag, _, hfrag⟩ := List.mem_flatMap.mp h
    rw [delivered, packetReports_string _ rfl hstring] at hfrag
    obtain ⟨c, _, hc⟩ := List.mem_flatMap.mp hfrag
    exact charPayloads_tap c p hc

theorem last_keyCall {ρ : Type} (view : Payload → Option ρ) (hview : ∀ p, IsTap p → view p = none)
    (call : ClientCall) (hkey : IsKeyCall call) : last view (callPayloads call) = none :=
  last_other view _ fun p hp => hview p (callPayloads_tap call hkey p hp)

def mouseSent : ClientCall → Option MouseReport
  | .mouse x y buttons wheel =>
    some ⟨mouseRepId, intToUInt8 buttons, x.toInt8, y.toInt8, wheel.toInt8⟩
  | .gpad .. | .asciiChar .. | .rawChar .. | .str _ => none

def gamepadSent : ClientCall → Option GamepadReport
  | .gpad x y z rx ry rz buttons => some ⟨gpadRepId, intToUInt16 buttons, x.toInt8, y.toInt8,
      z.toInt8, rx.toInt8, ry.toInt8, rz.toInt8⟩
  | .mouse .. | .asciiChar .. | .rawChar .. | .str _ => none

theorem lastMouse_call (call : ClientCall) : last mouseOf (callPayloads call) = mouseSent call := by
  cases call with
  | mouse x y buttons wheel =>
    rw [callPayloads_mouse, last_singleton, mouseOf_mouse _ rfl]
    rfl
  | gpad x y z rx ry rz buttons =>
    rw [callPayloads_gpad, last_singleton]
    rfl
  | rawChar | asciiChar | str =>
    exact last_keyCall mouseOf (fun _ h => h.not_mouse) _ trivial

theorem lastGamepad_call (call : ClientCall) :
    last gamepadOf (callPayloads call) = gamepadSent call := by
  cases call with
  | mouse x y buttons wheel =>
    rw [callPayloads_mouse, last_singleton]
    rfl
  | gpad x y z rx ry rz buttons =>
    rw [callPayloads_gpad, last_singleton, gamepadOf_gamepad _ rfl]
    rfl
  | rawChar | asciiChar | str =>
    exact last_keyCall gamepadOf (fun _ h => h.not_gamepad) _ trivial

theorem lastKeyboard_call (call : ClientCall) (h : ¬ IsKeyCall call) :
    last keyboardOf (callPayloads call) = none := by
  cases call with
  | mouse x y buttons wheel =>
    rw [callPayloads_mouse, last_singleton]
    rfl
  | gpad x y z rx ry rz buttons =>
    rw [callPayloads_gpad, last_singleton]
    rfl
  | rawChar | asciiChar | str => exact absurd trivial h

/-! ## Devices -/

/-- A device of the host: its reports among the payloads, and the report that a
library call sends for it, which is what the host last receives of the call. -/
structure DeviceView (ρ : Type) where
  view : Payload → Option ρ
  sent : ClientCall → Option ρ
  last_call : ∀ call, last view (callPayloads call) = sent call

def mouseView : DeviceView MouseReport := ⟨mouseOf, mouseSent, lastMouse_call⟩

def gamepadView : DeviceView GamepadReport := ⟨gamepadOf, gamepadSent, lastGamepad_call⟩

/-- The host's last report of a device is the last one that a call sent. -/
theorem DeviceView.last_calls {ρ : Type} (d : DeviceView ρ) (calls : List ClientCall) :
    last d.view (calls.flatMap callPayloads) = (calls.filterMap d.sent).getLast? := by
  induction calls using List.reverseRecOn with
  | nil => rfl
  | append_singleton calls call ih =>
    rw [List.flatMap_append, List.flatMap_singleton, last_append, d.last_call, ih,
      List.filterMap_append, List.getLast?_append]
    cases hsent : d.sent call with
    | none => rw [List.filterMap_cons_none hsent]; rfl
    | some r => rw [List.filterMap_cons_some hsent]; rfl

/-! ## Sessions of the front end -/

/-- The class at the start of a session, both masks as the class initialiser
and `ReleaseAllButtons` leave them. -/
def startOf (opened : Descriptor) (packet : BinPacket) (fd : Int32) : Bcaster :=
  ⟨0, 0, openSession opened packet fd⟩

/-- The packets in the FIFO after some calls of a session. -/
abbrev sessionPackets (opened : Descriptor) (packet : BinPacket) (fd : Int32) (calls : List Call) :
    List BinPacket :=
  fifoPackets [] (run calls (startOf opened packet fd)).lib.calls

/-- What the host receives of a call that finds these masks. -/
def reportsOf (mouse joystick : Int32) (call : Call) : List Payload :=
  (call.clientCalls mouse joystick).flatMap callPayloads

/-- What the host receives of the calls of a session. -/
def sent (calls : List Call) (b : Bcaster) : List Payload :=
  (clientCallsOf calls b).flatMap callPayloads

theorem sent_snoc (calls : List Call) (call : Call) (b : Bcaster) :
    sent (calls ++ [call]) b = sent calls b ++
      reportsOf (run calls b).mouseButtons (run calls b).joystickButtons call := by
  rw [sent, clientCallsOf_snoc, List.flatMap_append]
  rfl

section

variable (opened : Descriptor) (packet : BinPacket) (fd : Int32) (calls : List Call)

theorem sessionPackets_eq : sessionPackets opened packet fd calls =
    (clientCallsOf calls (startOf opened packet fd)).flatMap ClientCall.packets := by
  rw [sessionPackets, run_lib]
  exact session_packets opened packet fd _

theorem payloads_sent (d : Delivery (sessionPackets opened packet fd calls)) :
    d.payloads = sent calls (startOf opened packet fd) := by
  revert d
  rw [sessionPackets_eq]
  intro d
  exact session_payloads _ d

end

/-- The motion in the mouse report a call sends, if it sends one. -/
def mouseMotion : Call → Option (Int32 × Int32 × Int32)
  | .pushMouseButton _ | .releaseMouseButton _ | .releaseAllButtons => some (0, 0, 0)
  | .reportMouse x y w => some (x, y, w)
  | .pushJoystickButton _ | .releaseJoystickButton _ | .reportJoystick ..
  | .reportString _ | .reportRawChar _ | .reportAsciiChar _ => none

/-- The stick position in the gamepad report a call sends, if it sends one. -/
def stickPosition : Call → Option (Int32 × Int32 × Int32 × Int32 × Int32 × Int32)
  | .pushJoystickButton _ | .releaseJoystickButton _ | .releaseAllButtons =>
    some (0, 0, 0, 0, 0, 0)
  | .reportJoystick x y z rx ry rz => some (x, y, z, rx, ry, rz)
  | .pushMouseButton _ | .releaseMouseButton _ | .reportMouse ..
  | .reportString _ | .reportRawChar _ | .reportAsciiChar _ => none

/-- The mouse report of a call that finds the mask. -/
def mouseReportOf (mask : Int32) (call : Call) : Option MouseReport :=
  (mouseMotion call).map fun (x, y, w) =>
    ⟨mouseRepId, intToUInt8 (call.mouseMask mask), x.toInt8, y.toInt8, w.toInt8⟩

/-- The gamepad report of a call that finds the mask. -/
def gamepadReportOf (mask : Int32) (call : Call) : Option GamepadReport :=
  (stickPosition call).map fun (x, y, z, rx, ry, rz) =>
    ⟨gpadRepId, intToUInt16 (call.joystickMask mask), x.toInt8, y.toInt8, z.toInt8, rx.toInt8,
      ry.toInt8, rz.toInt8⟩

namespace DeviceView

variable {ρ : Type} (d : DeviceView ρ)

/-- The device's report of a call that finds these masks. -/
def reportOf (mouse joystick : Int32) (call : Call) : Option ρ :=
  ((call.clientCalls mouse joystick).filterMap d.sent).getLast?

theorem last_snoc (calls : List Call) (call : Call) (b : Bcaster) :
    last d.view (HostView.sent (calls ++ [call]) b) =
      (d.reportOf (run calls b).mouseButtons (run calls b).joystickButtons call).or
        (last d.view (HostView.sent calls b)) := by
  rw [sent_snoc, last_append, reportsOf, d.last_calls]
  rfl

end DeviceView

theorem mouseView_reportOf (mouse joystick : Int32) (call : Call) :
    mouseView.reportOf mouse joystick call = mouseReportOf mouse call := by
  cases call <;> rfl

theorem gamepadView_reportOf (mouse joystick : Int32) (call : Call) :
    gamepadView.reportOf mouse joystick call = gamepadReportOf joystick call := by
  cases call <;> rfl

theorem lastMouse_snoc (calls : List Call) (call : Call) (b : Bcaster) :
    last mouseOf (sent (calls ++ [call]) b) =
      (mouseReportOf (run calls b).mouseButtons call).or (last mouseOf (sent calls b)) := by
  rw [← mouseView_reportOf]
  exact mouseView.last_snoc calls call b

theorem lastGamepad_snoc (calls : List Call) (call : Call) (b : Bcaster) :
    last gamepadOf (sent (calls ++ [call]) b) =
      (gamepadReportOf (run calls b).joystickButtons call).or (last gamepadOf (sent calls b)) := by
  rw [← gamepadView_reportOf (run calls b).mouseButtons]
  exact gamepadView.last_snoc calls call b

end Android2Mouse.Guarantees.HostView
