import Android2Mouse.Library.Checked
import Android2Mouse.Source.ComboConn

/-!
# The packet loop, access by access (`combo_conn.c`)

The functions of `ComboConn` again, with the loops and the indices of the source:
every access to the six keycodes, to the key map and to the string goes by its
index and faults outside the array. The arguments of the log calls that read an
array are read here, too; what they print is left out.
-/
namespace Android2Mouse.Source.CheckedConn
open Library Library.Checked Hidp AsciiMap
open ComboConn (KeyboardReport BinPacket Locals Method ReadResult maxString cstring intToUInt8)

/-- An access outside one of the arrays, with its index. -/
inductive OutOfRange where
  | keycodes (i : ℕ)
  | map (i : ℕ)
  | string (i : ℕ)
  deriving DecidableEq, Repr

/-! ## Keyboard report -/

/-- The indices that are written out where the source has no loop. -/
def slots : List ℕ := [0, 1, 2, 3, 4, 5]

/-- The shared tail of `press_kbd_char` and `release_kbd_char`. -/
def sendKbd (kbd : KeyboardReport) : Checked OutOfRange Payload (KeyboardReport × Int) := do
  let _ ← readAll .keycodes kbd.keycodes slots
  ExceptT.lift (ComboConn.sendKbd kbd)

def pressKbdChar (kbd : KeyboardReport) (keycode modifier : UInt8) :
    Checked OutOfRange Payload (KeyboardReport × Int) := do
  let kbd := { kbd with modifier := kbd.modifier ||| modifier }
  if (← noneHolds .keycodes kbd.keycodes keycode slots) then
    let (keycodes, i) ← replaceLoop .keycodes kbd.keycodes 0 keycode 6 0
    if i = 6 then return ({ kbd with keycodes }, 1)
    else sendKbd { kbd with keycodes }
  else sendKbd kbd

def releaseKbdChar (kbd : KeyboardReport) (keycode modifier : UInt8) :
    Checked OutOfRange Payload (KeyboardReport × Int) := do
  let kbd := { kbd with modifier := kbd.modifier &&& ~~~modifier }
  if keycode ≠ 0 then
    let (keycodes, _) ← replaceLoop .keycodes kbd.keycodes keycode 0 6 0
    sendKbd { kbd with keycodes }
  else sendKbd kbd

def sendCharRaw (kbd : KeyboardReport) (key modifier : UInt8) :
    Checked OutOfRange Payload (KeyboardReport × Int) := do
  let (kbd, r) ← pressKbdChar kbd key modifier
  let (kbd, _) ← releaseKbdChar kbd key modifier
  return (kbd, r)

/-- `_send_char_decode`, whose caller says how long the map is. -/
def sendCharDecode (kbd : KeyboardReport) (keycode modifier : UInt8) (map : List UInt8)
    (mapLen : ℕ) : Checked OutOfRange Payload (KeyboardReport × Int) := do
  if keycode.toNat < mapLen then
    let key ← getList .map map keycode.toNat
    if shifted key then sendCharRaw kbd (keyOf key) (modifier ||| 0x02)
    else sendCharRaw kbd key modifier
  else return (kbd, 0)

def sendCharAscii (kbd : KeyboardReport) (keycode modifier : UInt8) :
    Checked OutOfRange Payload (KeyboardReport × Int) :=
  sendCharDecode kbd keycode modifier kbdAsciimap kbdAsciimap.length

/-- The loop of `send_string` at index `i`, with `left` iterations to go. -/
def sendString (string : Vector UInt8 16) :
    ℕ → ℕ → KeyboardReport → Checked OutOfRange Payload (KeyboardReport × ℕ)
  | 0, i, kbd => return (kbd, i)
  | left + 1, i, kbd => do
    let c ← get .string string i
    let (kbd, r) ← sendCharAscii kbd c 0
    if r ≠ 0 then return (kbd, i)
    else sendString string left (i + 1) kbd

/-- `strlen` from index `i` on; the array has `left` bytes more. -/
def strlen (s : Vector UInt8 16) : ℕ → ℕ → Checked OutOfRange Payload ℕ
  | 0, i => throw (.string i)
  | left + 1, i => do
    if (← get .string s i) = 0 then return i
    else strlen s left (i + 1)

/-! ## One packet -/

def handleString (s : Locals) : Checked OutOfRange Payload (Locals × Option Method) := do
  let report ← set .string s.packet.string (maxString - 1) 0
  let packet := { s.packet with report }
  let len ← strlen packet.string maxString 0
  let _ ← sendString packet.string len 0 s.kbd
  return ({ s with kbd := .zero, packet }, none)

def handleLetter (s : Locals) : Checked OutOfRange Payload (Locals × Option Method) := do
  let letter := s.packet.letter
  if s.packet.flags2 &&& ComboConn.charRaw ≠ 0 then
    let _ ← sendCharRaw s.kbd letter.c (intToUInt8 letter.mods)
    return ({ s with kbd := .zero }, none)
  else if s.packet.flags2 &&& ComboConn.charAscii ≠ 0 then
    let _ ← sendCharAscii s.kbd letter.c (intToUInt8 letter.mods)
    return ({ s with kbd := .zero }, none)
  else
    let _ ← sendCharAscii s.kbd letter.c (intToUInt8 letter.mods)
    return ({ s with kbd := .zero }, none)

def handleKeys (s : Locals) : Checked OutOfRange Payload (Locals × Option Method) := do
  let k := s.packet.keyboard
  let keycodes ← copyLoop .keycodes k.keycodes 6 0 s.kbd.keycodes
  let kbd := { s.kbd with keycodes, modifier := k.modifier }
  let _ ← readAll .keycodes kbd.keycodes slots
  if (← ExceptT.lift (sendInputRep kbd.bytes)) = -1 then return ({ s with kbd }, some .error)
  else return ({ s with kbd := .zero }, none)

def handleKbd (s : Locals) : Checked OutOfRange Payload (Locals × Option Method) :=
  if s.packet.flags &&& ComboConn.brptString ≠ 0 then handleString s
  else if s.packet.flags &&& ComboConn.brptChar ≠ 0 then handleLetter s
  else handleKeys s

/-- The other reports have no array. -/
def handlePacket (s : Locals) : Checked OutOfRange Payload (Locals × Option Method) :=
  if s.packet.reportId = ComboConn.kbdRepId then handleKbd s
  else if s.packet.reportId = ComboConn.gpadRepId then ExceptT.lift (ComboConn.handleGpad s)
  else if s.packet.reportId = ComboConn.mouseRepId then ExceptT.lift (ComboConn.handleMouse s)
  else if s.packet.reportId = ComboConn.sysRepId then ExceptT.lift (ComboConn.handleSys s)
  else return (s, none)

/-! ## The read loop -/

def processLoop (s : Locals) :
    List ReadResult → Checked OutOfRange Payload (Method × List ReadResult)
  | [] => return (.success, [])
  | .eof :: reads => return (.success, reads)
  | .error :: reads => return (.success, reads)
  | .data bs _ _ :: reads => do
    let (s, code) ← handlePacket { s with packet := s.packet.overlay bs }
    match code with
    | some code => return (code, reads)
    | none => processLoop s reads

def processMultiBin (stack : BinPacket) (reads : List ReadResult) :
    Checked OutOfRange Payload (Method × List ReadResult) :=
  processLoop (.entry stack) reads

end Android2Mouse.Source.CheckedConn
