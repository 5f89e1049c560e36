import Android2Mouse.Library.Noted
import Android2Mouse.Source.ComboConn
import Android2Mouse.Source.DaemonLog

/-!
# The packet loop with its log calls (`combo_conn.c`, `hidp.c`)

The functions of `process_multi_bin` once more, with each `info`, `dbg` and `error` where
the source has it. A `send` that fails is answered with the `errno` that `error` logs. The
cache keeps the 16 bytes it has been started with: no packet of this loop is longer, so
that `check_cache` does nothing.
-/
namespace Android2Mouse.Source.LoggedConn
open Library Hidp ComboConn AsciiMap DaemonLog

/-- A part of the daemon with what it logs. -/
abbrev Prog := Noted Payload Int32 Message

def say (c : Call) (listed : c ∈ notes) : Prog Unit := Noted.noting (.note c listed)

/-- `common_cache.size` -/
def cacheSize : UInt32 := 16

/-- The error that is logged at each place where a keyboard report is sent. -/
def kbdFailure : KbdSite → Failure
  | .press => ⟨"press_kbd_char", "send_input_rep()"⟩
  | .release => ⟨"release_kbd_char", "send_input_rep()"⟩
  | .multiBin => ⟨"process_multi_bin", "send_input_rep()"⟩

theorem kbdFailure_listed (site : KbdSite) : kbdFailure site ∈ failures := by
  cases site <;> decide

theorem slot_lt (i : Fin 6) : i.val < 6 := i.isLt

theorem lastChar_lt : maxString - 1 < 16 := by decide

section

-- `int_sock`
variable (sk : Int32)

/-- `send_hidp_pkt`; none when the packet is sent. -/
def sendHidpPkt (hdr : UInt8) (data : List UInt8) : Prog (Option Int32) := do
  Noted.noting (.packet sk (Int32.ofNat data.length) cacheSize)
  let e ← Noted.send (hdr :: data) .done
  Noted.noting (.sent (if e.isNone then Int32.ofNat (data.length + 1) else -1))
  return e

def sendInputRep (data : List UInt8) : Prog (Option Int32) :=
  sendHidpPkt sk (hidpHdrBuild hidpMsgtData (reptInput &&& 0x3)) data

/-- A report, with the error that is logged when it is not sent. -/
def sendReport (data : List UInt8) (e : Failure) (listed : e ∈ failures) : Prog Bool := do
  match ← sendInputRep sk data with
  | some errno =>
    Noted.noting (.failed e listed errno)
    return false
  | none => return true

/-! ## Keyboard report -/

/-- The shared tail of `press_kbd_char` and `release_kbd_char`. -/
def sendKbd (site : KbdSite) (kbd : KeyboardReport) : Prog (KeyboardReport × Int) := do
  Noted.noting (.keyboard site kbd)
  Noted.noting (.keycodes site kbd)
  if ← sendReport sk kbd.bytes (kbdFailure site) (kbdFailure_listed site) then return (kbd, 0)
  return (kbd, -1)

def pressKbdChar (kbd : KeyboardReport) (keycode modifier : UInt8) : Prog (KeyboardReport × Int) :=
  let kbd := { kbd with modifier := kbd.modifier ||| modifier }
  if keycode ∉ kbd.keycodes.toList then
    match firstSlot kbd.keycodes 0 with
    | some i => sendKbd sk .press { kbd with keycodes := kbd.keycodes.set i keycode (slot_lt i) }
    | none => do
      say (info "press_kbd_char" "Pressed more then 6 buttons" []) (by decide)
      return (kbd, 1)
  else sendKbd sk .press kbd

def releaseKbdChar (kbd : KeyboardReport) (keycode modifier : UInt8) :
    Prog (KeyboardReport × Int) :=
  let kbd := { kbd with modifier := kbd.modifier &&& ~~~modifier }
  if keycode ≠ 0 then
    match firstSlot kbd.keycodes keycode with
    | some i => sendKbd sk .release { kbd with keycodes := kbd.keycodes.set i 0 (slot_lt i) }
    | none => sendKbd sk .release kbd
  else sendKbd sk .release kbd

def sendCharRaw (kbd : KeyboardReport) (key modifier : UInt8) : Prog (KeyboardReport × Int) := do
  let (kbd, r) ← pressKbdChar sk kbd key modifier
  let (kbd, _) ← releaseKbdChar sk kbd key modifier
  return (kbd, r)

/-- `_send_char_decode` with `kbd_asciimap` -/
def sendCharAscii (kbd : KeyboardReport) (keycode modifier : UInt8) :
    Prog (KeyboardReport × Int) :=
  if h : keycode.toNat < kbdAsciimap.length then do
    let key := kbdAsciimap[keycode.toNat]
    Noted.noting (.decoded keycode)
    if shifted key then sendCharRaw sk kbd (keyOf key) (modifier ||| 0x02)
    else sendCharRaw sk kbd key modifier
  else .done (kbd, 0)

def sendString (kbd : KeyboardReport) : List UInt8 → Prog (KeyboardReport × ℕ)
  | [] => .done (kbd, 0)
  | c :: string => do
    let (kbd, r) ← sendCharAscii sk kbd c 0
    if r ≠ 0 then return (kbd, 0)
    let (kbd, i) ← sendString kbd string
    return (kbd, i + 1)

/-! ## One packet -/

def handleString (s : Locals) : Prog (Locals × Option Method) := do
  let packet := { s.packet with report := s.packet.report.set (maxString - 1) 0 lastChar_lt }
  let _ ← sendString sk s.kbd (cstring packet.string.toList)
  return ({ s with kbd := .zero, packet }, none)

def handleLetter (s : Locals) : Prog (Locals × Option Method) := do
  let letter := s.packet.letter
  Noted.noting (.letter letter.c letter.mods s.packet.flags2)
  if s.packet.flags2 &&& charRaw ≠ 0 then
    let _ ← sendCharRaw sk s.kbd letter.c (intToUInt8 letter.mods)
    return ({ s with kbd := .zero }, none)
  else if s.packet.flags2 &&& charAscii ≠ 0 then
    let _ ← sendCharAscii sk s.kbd letter.c (intToUInt8 letter.mods)
    return ({ s with kbd := .zero }, none)
  else
    say (info "process_multi_bin" "WARNING!" []) (by decide)
    Noted.noting (.badFlag s.packet.flags)
    let _ ← sendCharAscii sk s.kbd letter.c (intToUInt8 letter.mods)
    return ({ s with kbd := .zero }, none)

def handleKeys (s : Locals) : Prog (Locals × Option Method) := do
  let k := s.packet.keyboard
  let kbd := { s.kbd with keycodes := k.keycodes, modifier := k.modifier }
  Noted.noting (.keyboard .multiBin kbd)
  Noted.noting (.keycodes .multiBin kbd)
  if ← sendReport sk kbd.bytes (kbdFailure .multiBin) (kbdFailure_listed .multiBin) then
    return ({ s with kbd := .zero }, none)
  return ({ s with kbd }, some .error)

def handleKbd (s : Locals) : Prog (Locals × Option Method) := do
  say (dbg "process_multi_bin" "--Keyboard--" []) (by decide)
  if s.packet.flags &&& brptString ≠ 0 then handleString sk s
  else if s.packet.flags &&& brptChar ≠ 0 then handleLetter sk s
  else handleKeys sk s

def handleGpad (s : Locals) : Prog (Locals × Option Method) := do
  let g := s.packet.gamepad
  let gpad := { s.gpad with
    x := g.x, y := g.y, z := g.z, rx := g.rx, ry := g.ry, rz := g.rz, buttons := g.buttons }
  Noted.noting (.gamepad gpad)
  if ← sendReport sk gpad.bytes ⟨"process_multi_bin", "send_mouse_rep()"⟩ (by decide) then
    return ({ s with gpad := .zero }, none)
  return ({ s with gpad }, some .error)

def handleMouse (s : Locals) : Prog (Locals × Option Method) := do
  let m := s.packet.mouse
  let mouse := { s.mouse with x := m.x, y := m.y, wheel := m.wheel, buttons := m.buttons }
  Noted.noting (.mouse mouse)
  if ← sendReport sk mouse.bytes ⟨"process_multi_bin", "send_input_rep()"⟩ (by decide) then
    return ({ s with mouse := .zero }, none)
  return ({ s with mouse }, some .error)

def handleSys (s : Locals) : Prog (Locals × Option Method) :=
  if s.packet.flags &&& hcrShutdown ≠ 0 then do
    say (dbg "process_multi_bin" "receved SHUTDOWN rq" []) (by decide)
    return (s, some .shutdown)
  else .done (s, none)

def handlePacket (s : Locals) : Prog (Locals × Option Method) := do
  Noted.noting (.reportId s.packet.reportId)
  if s.packet.reportId = kbdRepId then handleKbd sk s
  else if s.packet.reportId = gpadRepId then handleGpad sk s
  else if s.packet.reportId = mouseRepId then handleMouse sk s
  else if s.packet.reportId = sysRepId then handleSys s
  else .done (s, none)

/-! ## The read loop -/

def processLoop (s : Locals) : List ReadResult → Prog (Method × List ReadResult)
  | [] => .done (.success, [])
  | .eof :: reads => .done (.success, reads)
  | .error :: reads => .done (.success, reads)
  | .data bs _ _ :: reads => do
    let (s, code) ← handlePacket sk { s with packet := s.packet.overlay bs }
    match code with
    | some code => return (code, reads)
    | none => processLoop s reads

def processMultiBin (stack : BinPacket) (reads : List ReadResult) :
    Prog (Method × List ReadResult) := do
  say (dbg "process_multi_bin" "Hello" []) (by decide)
  processLoop sk (.entry stack) reads

end

end Android2Mouse.Source.LoggedConn
