import Android2Mouse.Source.Hidp
import Android2Mouse.Source.BinPacket
import Android2Mouse.Source.AsciiMap

/-!
# The daemon's packet loop (`combo_conn.c`, the FIFO part of `main`)

`pressKbdChar` to `sendString` mutate the caller's keyboard report; here they
return it. `handlePacket` is the body of the read loop of `process_multi_bin`,
`processMultiBin` one invocation of it, `mainLoop` the passes of `main` over
the FIFO descriptor. Log calls are left out.

A read is described by what it returned. The packet buffer and the three
reports are locals of `process_multi_bin`: the reports are zeroed on entry, the
buffer holds whatever the stack held (`stack`), and a read overwrites only the
bytes it returned.
-/
namespace Android2Mouse.Source.ComboConn
open Library Hidp AsciiMap

/-! ## Keyboard report -/

/-- The first slot holding `v`: the index at which the slot loops break. -/
def firstSlot (keycodes : Vector UInt8 6) (v : UInt8) : Option (Fin 6) :=
  (List.finRange 6).find? fun i => keycodes[i] = v

/-- The shared tail of `press_kbd_char` and `release_kbd_char`. -/
def sendKbd (kbd : KeyboardReport) : Attempt Payload (KeyboardReport × Int) := do
  if (← sendInputRep kbd.bytes) = -1 then return (kbd, -1)
  return (kbd, 0)

def pressKbdChar (kbd : KeyboardReport) (keycode modifier : UInt8) :
    Attempt Payload (KeyboardReport × Int) :=
  let kbd := { kbd with modifier := kbd.modifier ||| modifier }
  if kbd.keycodes[0] ≠ keycode ∧ kbd.keycodes[1] ≠ keycode ∧ kbd.keycodes[2] ≠ keycode ∧
      kbd.keycodes[3] ≠ keycode ∧ kbd.keycodes[4] ≠ keycode ∧ kbd.keycodes[5] ≠ keycode then
    match firstSlot kbd.keycodes 0 with
    | some i => sendKbd { kbd with keycodes := kbd.keycodes.set i keycode }
    | none => .done (kbd, 1)
  else sendKbd kbd

def releaseKbdChar (kbd : KeyboardReport) (keycode modifier : UInt8) :
    Attempt Payload (KeyboardReport × Int) :=
  let kbd := { kbd with modifier := kbd.modifier &&& ~~~modifier }
  if keycode ≠ 0 then
    match firstSlot kbd.keycodes keycode with
    | some i => sendKbd { kbd with keycodes := kbd.keycodes.set i 0 }
    | none => sendKbd kbd
  else sendKbd kbd

def sendCharRaw (kbd : KeyboardReport) (key modifier : UInt8) :
    Attempt Payload (KeyboardReport × Int) := do
  let (kbd, r) ← pressKbdChar kbd key modifier
  let (kbd, _) ← releaseKbdChar kbd key modifier
  return (kbd, r)

def sendCharDecode (kbd : KeyboardReport) (keycode modifier : UInt8) (map : List UInt8) :
    Attempt Payload (KeyboardReport × Int) :=
  if h : keycode.toNat < map.length then
    let key := map[keycode.toNat]
    if shifted key then sendCharRaw kbd (keyOf key) (modifier ||| 0x02)
    else sendCharRaw kbd key modifier
  else .done (kbd, 0)

def sendCharAscii (kbd : KeyboardReport) (keycode modifier : UInt8) :
    Attempt Payload (KeyboardReport × Int) :=
  sendCharDecode kbd keycode modifier kbdAsciimap

/-- `send_string` on the `len` bytes of `string`; the count is the loop index
at which it stops, an `int` that a string in memory does not overflow. -/
def sendString (kbd : KeyboardReport) : List UInt8 → Attempt Payload (KeyboardReport × ℕ)
  | [] => .done (kbd, 0)
  | c :: string => do
    let (kbd, r) ← sendCharAscii kbd c 0
    if r ≠ 0 then return (kbd, 0)
    let (kbd, i) ← sendString kbd string
    return (kbd, i + 1)

/-! ## One packet -/

inductive Method where
  | success | error | shutdown
  deriving DecidableEq, Repr

/-- `METHOD_SUCCESS`, `METHOD_ERROR`, `METHOD_SHUTDOWN` -/
def Method.code : Method → Int
  | .success => 0
  | .error => -1
  | .shutdown => 0x44

/-- The locals of `process_multi_bin` that survive an iteration. -/
structure Locals where
  kbd : KeyboardReport
  mouse : MouseReport
  gpad : GamepadReport
  packet : BinPacket
  deriving DecidableEq, Repr

/-- On entry: zeroed reports, and a packet buffer that nothing has written. -/
def Locals.entry (stack : BinPacket) : Locals := ⟨.zero, .zero, .zero, stack⟩

/-- `case KBD_REP_ID` with `BRPT_STRING`. As in the other cases, `none` goes on
with the loop. -/
def handleString (s : Locals) : Attempt Payload (Locals × Option Method) := do
  let packet := { s.packet with report := s.packet.report.set (maxString - 1) 0 }
  let _ ← sendString s.kbd (cstring packet.string.toList)
  return ({ s with kbd := .zero, packet }, none)

/-- `case KBD_REP_ID` with `BRPT_CHAR` -/
def handleLetter (s : Locals) : Attempt Payload (Locals × Option Method) := do
  let letter := s.packet.letter
  if s.packet.flags2 &&& charRaw ≠ 0 then
    let _ ← sendCharRaw s.kbd letter.c (intToUInt8 letter.mods)
    return ({ s with kbd := .zero }, none)
  else if s.packet.flags2 &&& charAscii ≠ 0 then
    let _ ← sendCharAscii s.kbd letter.c (intToUInt8 letter.mods)
    return ({ s with kbd := .zero }, none)
  else
    let _ ← sendCharAscii s.kbd letter.c (intToUInt8 letter.mods)
    return ({ s with kbd := .zero }, none)

/-- `case KBD_REP_ID` with neither flag -/
def handleKeys (s : Locals) : Attempt Payload (Locals × Option Method) := do
  let k := s.packet.keyboard
  let kbd := { s.kbd with keycodes := k.keycodes, modifier := k.modifier }
  if (← sendInputRep kbd.bytes) = -1 then return ({ s with kbd }, some .error)
  return ({ s with kbd := .zero }, none)

/-- `case KBD_REP_ID` -/
def handleKbd (s : Locals) : Attempt Payload (Locals × Option Method) :=
  if s.packet.flags &&& brptString ≠ 0 then handleString s
  else if s.packet.flags &&& brptChar ≠ 0 then handleLetter s
  else handleKeys s

/-- `case GPAD_REP_ID` -/
def handleGpad (s : Locals) : Attempt Payload (Locals × Option Method) := do
  let g := s.packet.gamepad
  let gpad := { s.gpad with
    x := g.x, y := g.y, z := g.z, rx := g.rx, ry := g.ry, rz := g.rz, buttons := g.buttons }
  if (← sendInputRep gpad.bytes) = -1 then return ({ s with gpad }, some .error)
  return ({ s with gpad := .zero }, none)

/-- `case MOUSE_REP_ID` -/
def handleMouse (s : Locals) : Attempt Payload (Locals × Option Method) := do
  let m := s.packet.mouse
  let mouse := { s.mouse with x := m.x, y := m.y, wheel := m.wheel, buttons := m.buttons }
  if (← sendInputRep mouse.bytes) = -1 then return ({ s with mouse }, some .error)
  return ({ s with mouse := .zero }, none)

/-- `case SYS_REP_ID` -/
def handleSys (s : Locals) : Attempt Payload (Locals × Option Method) :=
  if s.packet.flags &&& hcrShutdown ≠ 0 then .done (s, some .shutdown) else .done (s, none)

/-- The body of the loop after a read: the `switch` on the report id. -/
def handlePacket (s : Locals) : Attempt Payload (Locals × Option Method) :=
  if s.packet.reportId = kbdRepId then handleKbd s
  else if s.packet.reportId = gpadRepId then handleGpad s
  else if s.packet.reportId = mouseRepId then handleMouse s
  else if s.packet.reportId = sysRepId then handleSys s
  else .done (s, none)

/-! ## The read loop -/

/-- What one `read(fd, &packet, sizeof(packet))` returned. -/
inductive ReadResult where
  | data (bs : List UInt8) (pos : 0 < bs.length) (le : bs.length ≤ binPacketSize)
  | eof
  | error
  deriving DecidableEq, Repr

/-- A read that returns one whole packet. -/
def ReadResult.packet (p : BinPacket) : ReadResult :=
  .data p.bytes (by simp [binPacketSize]) (by simp)

/-- The `while` loop: the method code returned, and the reads it leaves. No
read left counts as the end of the file. -/
def processLoop (s : Locals) : List ReadResult → Attempt Payload (Method × List ReadResult)
  | [] => .done (.success, [])
  | .eof :: reads => .done (.success, reads)
  | .error :: reads => .done (.success, reads)
  | .data bs _ _ :: reads => do
    let (s, code) ← handlePacket { s with packet := s.packet.overlay bs }
    match code with
    | some code => return (code, reads)
    | none => processLoop s reads

def processMultiBin (stack : BinPacket) (reads : List ReadResult) :
    Attempt Payload (Method × List ReadResult) :=
  processLoop (.entry stack) reads

/-- Where `main` is after some passes over the FIFO descriptor. -/
inductive Daemon where
  | polling (reads : List ReadResult)
  | exited (reads : List ReadResult)
  deriving DecidableEq, Repr

/-- `passes` calls of `process_multi_bin` from the poll loop, the `n`-th last of
them finding `stack n` in its packet buffer. -/
def mainLoop (stack : ℕ → BinPacket) : ℕ → List ReadResult → Attempt Payload Daemon
  | 0, reads => .done (.polling reads)
  | passes + 1, reads => do
    let (code, reads) ← processMultiBin (stack passes) reads
    match code with
    | .shutdown => return .exited reads
    | .error => mainLoop stack passes reads
    | .success => mainLoop stack passes reads

end Android2Mouse.Source.ComboConn
