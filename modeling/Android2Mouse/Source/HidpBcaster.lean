import Android2Mouse.Source.HidpClientdlib

/-!
# The Java front end (`HidpBcaster.java`, `JNI_hidp.c`)

The class keeps two button masks and hands everything else to the native
library, so its state is the masks and the state of `hidp_clientdlib.c`. A Java
`String` is its list of UTF-16 code units, and `GetStringUTFChars` turns it into
modified UTF-8. `KillServer` asks for the daemon to be killed and does not touch
the FIFO; logging is left out.
-/
namespace Android2Mouse.Source.HidpBcaster
open HidpClientdlib

/-! ## Button masks -/

def mevBtnLeft : Int32 := 1
def mevBtnRight : Int32 := 2
def mevBtnMiddle : Int32 := 4

def jevBtnA : Int32 := 1
def jevBtnB : Int32 := 2
def jevBtnC : Int32 := 4
def jevBtnD : Int32 := 8
def jevBtn1 : Int32 := 16
def jevBtn2 : Int32 := 32
def jevBtn3 : Int32 := 64
def jevBtn4 : Int32 := 128
def jevBtnA1 : Int32 := 256
def jevBtnA2 : Int32 := 512
def jevBtnA3 : Int32 := 1024
def jevBtnA4 : Int32 := 2048
def jevBtnB1 : Int32 := 4096
def jevBtnB2 : Int32 := 4096 * 2
def jevBtnB3 : Int32 := 4096 * 2 * 2
def jevBtnB4 : Int32 := 4096 * 2 * 2 * 2

def mevButtons : List Int32 := [mevBtnLeft, mevBtnRight, mevBtnMiddle]

def jevButtons : List Int32 :=
  [jevBtnA, jevBtnB, jevBtnC, jevBtnD, jevBtn1, jevBtn2, jevBtn3, jevBtn4,
    jevBtnA1, jevBtnA2, jevBtnA3, jevBtnA4, jevBtnB1, jevBtnB2, jevBtnB3, jevBtnB4]

/-! ## Native methods -/

/-- The continuation byte that carries the low six bits. -/
def utfTail (c : UInt16) : UInt8 := ((0x80 : UInt16) ||| (c &&& 0x3F)).toUInt8

/-- One UTF-16 code unit in modified UTF-8, in which zero takes two bytes. -/
def utfChar (c : UInt16) : List UInt8 :=
  if c ≠ 0 ∧ c < 0x80 then [c.toUInt8]
  else if c < 0x800 then [((0xC0 : UInt16) ||| (c >>> 6)).toUInt8, utfTail c]
  else [((0xE0 : UInt16) ||| (c >>> 12)).toUInt8, utfTail (c >>> 6), utfTail c]

/-- `GetStringUTFChars` -/
def getStringUTFChars (s : List UInt16) : List UInt8 := s.flatMap utfChar

/-- A `jchar` passed as an `int`. -/
def jcharToInt (c : UInt16) : Int32 := c.toUInt32.toInt32

def nativeReportMouse (x y b w : Int32) : ClientLib → ClientLib := sendMouseReport x y b w

def nativeReportGpad (x y z rx ry rz b : Int32) : ClientLib → ClientLib :=
  sendGpadReport x y z rx ry rz b

def nativeReportRawChar (c : UInt16) (mod : Int32) : ClientLib → ClientLib :=
  sendCharRawReport (jcharToInt c) mod

def nativeReportAsciiChar (c : UInt16) (mod : Int32) : ClientLib → ClientLib :=
  sendCharAsciiReport (jcharToInt c) mod

def nativeReportString (s : List UInt16) : ClientLib → ClientLib :=
  sendStrReport (getStringUTFChars s)

def endBcast : ClientLib → ClientLib := HidpClientdlib.endSession

/-! ## The class -/

/-- The statics of the class, and the library behind its native methods. -/
structure Bcaster where
  mouseButtons : Int32
  joystickButtons : Int32
  lib : ClientLib
  deriving DecidableEq, Repr

def reportMouse (x y w : Int32) (b : Bcaster) : Bcaster :=
  { b with lib := nativeReportMouse x y b.mouseButtons w b.lib }

def reportJoystick (x y z rx ry rz : Int32) (b : Bcaster) : Bcaster :=
  { b with lib := nativeReportGpad x y z rx ry rz b.joystickButtons b.lib }

def reportString (s : List UInt16) (b : Bcaster) : Bcaster :=
  { b with lib := nativeReportString s b.lib }

def reportAsciiChar (c : UInt16) (b : Bcaster) : Bcaster :=
  { b with lib := nativeReportAsciiChar c 0 b.lib }

def reportRawChar (c : UInt16) (b : Bcaster) : Bcaster :=
  { b with lib := nativeReportRawChar c 0 b.lib }

def pushMouseButton (btn : Int32) (b : Bcaster) : Bcaster :=
  reportMouse 0 0 0 { b with mouseButtons := b.mouseButtons ||| btn }

def releaseMouseButton (btn : Int32) (b : Bcaster) : Bcaster :=
  reportMouse 0 0 0 { b with mouseButtons := b.mouseButtons &&& ~~~btn }

def pushJoystickButton (btn : Int32) (b : Bcaster) : Bcaster :=
  reportJoystick 0 0 0 0 0 0 { b with joystickButtons := b.joystickButtons ||| btn }

def releaseJoystickButton (btn : Int32) (b : Bcaster) : Bcaster :=
  reportJoystick 0 0 0 0 0 0 { b with joystickButtons := b.joystickButtons &&& ~~~btn }

def releaseAllButtons (b : Bcaster) : Bcaster :=
  let b := { b with joystickButtons := 0, mouseButtons := 0 }
  reportMouse 0 0 0 (reportJoystick 0 0 0 0 0 0 b)

/-- `EndSession`; what it returns is always 0, the result of `EndBcast`. -/
def endSession (b : Bcaster) : Bcaster :=
  releaseAllButtons { b with lib := endBcast b.lib }

/-! ## Calls during a session -/

inductive Call where
  | pushMouseButton (btn : Int32)
  | releaseMouseButton (btn : Int32)
  | pushJoystickButton (btn : Int32)
  | releaseJoystickButton (btn : Int32)
  | releaseAllButtons
  | reportMouse (x y w : Int32)
  | reportJoystick (x y z rx ry rz : Int32)
  | reportString (s : List UInt16)
  | reportRawChar (c : UInt16)
  | reportAsciiChar (c : UInt16)
  deriving DecidableEq, Repr

def Call.run : Call → Bcaster → Bcaster
  | .pushMouseButton btn => HidpBcaster.pushMouseButton btn
  | .releaseMouseButton btn => HidpBcaster.releaseMouseButton btn
  | .pushJoystickButton btn => HidpBcaster.pushJoystickButton btn
  | .releaseJoystickButton btn => HidpBcaster.releaseJoystickButton btn
  | .releaseAllButtons => HidpBcaster.releaseAllButtons
  | .reportMouse x y w => HidpBcaster.reportMouse x y w
  | .reportJoystick x y z rx ry rz => HidpBcaster.reportJoystick x y z rx ry rz
  | .reportString s => HidpBcaster.reportString s
  | .reportRawChar c => HidpBcaster.reportRawChar c
  | .reportAsciiChar c => HidpBcaster.reportAsciiChar c

def run (calls : List Call) (b : Bcaster) : Bcaster := calls.foldl (fun b call => call.run b) b

/-- The mouse mask a call leaves. -/
def Call.mouseMask (mask : Int32) : Call → Int32
  | .pushMouseButton btn => mask ||| btn
  | .releaseMouseButton btn => mask &&& ~~~btn
  | .releaseAllButtons => 0
  | .pushJoystickButton _ | .releaseJoystickButton _ | .reportMouse .. | .reportJoystick ..
  | .reportString _ | .reportRawChar _ | .reportAsciiChar _ => mask

/-- The joystick mask a call leaves. -/
def Call.joystickMask (mask : Int32) : Call → Int32
  | .pushJoystickButton btn => mask ||| btn
  | .releaseJoystickButton btn => mask &&& ~~~btn
  | .releaseAllButtons => 0
  | .pushMouseButton _ | .releaseMouseButton _ | .reportMouse .. | .reportJoystick ..
  | .reportString _ | .reportRawChar _ | .reportAsciiChar _ => mask

theorem Call.run_mouseButtons (call : Call) (b : Bcaster) :
    (call.run b).mouseButtons = call.mouseMask b.mouseButtons := by
  cases call <;> rfl

theorem Call.run_joystickButtons (call : Call) (b : Bcaster) :
    (call.run b).joystickButtons = call.joystickMask b.joystickButtons := by
  cases call <;> rfl

/-- The library calls made by a call that finds these masks. -/
def Call.clientCalls (mouse joystick : Int32) : Call → List ClientCall
  | .pushMouseButton btn => [.mouse 0 0 (mouse ||| btn) 0]
  | .releaseMouseButton btn => [.mouse 0 0 (mouse &&& ~~~btn) 0]
  | .pushJoystickButton btn => [.gpad 0 0 0 0 0 0 (joystick ||| btn)]
  | .releaseJoystickButton btn => [.gpad 0 0 0 0 0 0 (joystick &&& ~~~btn)]
  | .releaseAllButtons => [.gpad 0 0 0 0 0 0 0, .mouse 0 0 0 0]
  | .reportMouse x y w => [.mouse x y mouse w]
  | .reportJoystick x y z rx ry rz => [.gpad x y z rx ry rz joystick]
  | .reportString s => [.str (getStringUTFChars s)]
  | .reportRawChar c => [.rawChar (jcharToInt c) 0]
  | .reportAsciiChar c => [.asciiChar (jcharToInt c) 0]

theorem Call.run_lib (call : Call) (b : Bcaster) :
    (call.run b).lib = runCalls (call.clientCalls b.mouseButtons b.joystickButtons) b.lib := by
  cases call <;> rfl

/-- All library calls of a run. -/
def clientCallsOf : List Call → Bcaster → List ClientCall
  | [], _ => []
  | call :: calls, b =>
    call.clientCalls b.mouseButtons b.joystickButtons ++ clientCallsOf calls (call.run b)

theorem run_lib (calls : List Call) (b : Bcaster) :
    (run calls b).lib = runCalls (clientCallsOf calls b) b.lib := by
  induction calls generalizing b with
  | nil => rfl
  | cons call calls ih =>
    have hjoin : ∀ c, runCalls (clientCallsOf (call :: calls) b) c =
        runCalls (clientCallsOf calls (call.run b))
          (runCalls (call.clientCalls b.mouseButtons b.joystickButtons) c) :=
      fun c => List.foldl_append
    rw [hjoin, ← call.run_lib]
    exact ih (call.run b)

theorem run_snoc (calls : List Call) (call : Call) (b : Bcaster) :
    run (calls ++ [call]) b = call.run (run calls b) := by
  simp [run]

theorem clientCallsOf_snoc (calls : List Call) (call : Call) (b : Bcaster) :
    clientCallsOf (calls ++ [call]) b = clientCallsOf calls b ++
      call.clientCalls (run calls b).mouseButtons (run calls b).joystickButtons := by
  induction calls generalizing b with
  | nil => simp [clientCallsOf, run]
  | cons first calls ih =>
    rw [List.cons_append, clientCallsOf, ih, ← List.append_assoc]
    rfl

end Android2Mouse.Source.HidpBcaster
