import Android2Mouse.Source.Logging
import Android2Mouse.Source.AsciiMap

/-!
# What the daemon logs (`combo_conn.c`, `hidp.c`, `hidp_clientd.c`)

A `Message` is a call of `info`, `dbg` or `error` that the daemon can reach, with the data
it takes: calls without arguments are listed in `notes` and `failures`, the others have a
constructor each. Calls in code that is compiled out or never called are left out. What
`strerror` says of an error number is the C library's.
-/
namespace Android2Mouse.Source.DaemonLog
open Library Library.Strtol Library.Printf Logging ComboConn AsciiMap

/-! ## The macros -/

/-- The arguments of `print_string`. -/
structure Call where
  level : Int32
  fmt : List Char
  args : List Arg
  deriving DecidableEq, Repr

def Call.text (c : Call) : List UInt8 := format (pieces c.fmt) c.args

def info (func f : String) (args : List Arg) : Call :=
  ⟨lInfo, "%s:".toList ++ f.toList, .text (literal func.toList) :: args⟩

def dbg (func f : String) (args : List Arg) : Call :=
  ⟨lDbg, "%s:".toList ++ f.toList, .text (literal func.toList) :: args⟩

/-- `error`, which adds what is known of `errno`. -/
def error (strerror : Int32 → List UInt8) (errno : Int32) (func f : String) (args : List Arg) :
    Call :=
  ⟨lErr, "%s:%s(%.2d):".toList ++ f.toList,
    .text (literal func.toList) :: .text (strerror errno) :: .int errno :: args⟩

/-! ## Calls without arguments -/

def notes : List Call := [
  info "press_kbd_char" "Pressed more then 6 buttons" [],
  dbg "process_multi_bin" "Hello" [],
  dbg "process_multi_bin" "--Keyboard--" [],
  info "process_multi_bin" "WARNING!" [],
  dbg "process_multi_bin" "receved SHUTDOWN rq" [],
  info "l2cap_connect" "Connection enstablished.\n" [],
  info "print_sockopts" "%s" [.text (literal "INT:".toList)],
  info "print_sockopts" "%s" [.text (literal "CNT:".toList)],
  dbg "process_sk" "processing pkt with method" [],
  dbg "process_sk" "no method, dropping pkt, sending einval" [],
  dbg "process_mouse_nice" "Hello" [],
  dbg "process_mouse_nice" "receved SHUTDOWN rq" [],
  info "lookup_conn_type" "%s conn-method not implemented" [.text (literal "multi-char".toList)],
  info "lookup_conn_type" "Browse the code and check the defs." [],
  info "init_conn" "Starting with %s conn type." [.text (literal "mouse".toList)],
  info "init_conn" "Starting with %s conn type." [.text (literal "multi".toList)],
  dbg "main" "reading connection header" [],
  info "main" "Start" [],
  info "main" "Started polling.\n" [],
  info "main" "========================> POLLIN:%d" [.int 0],
  info "main" "========================> POLLIN:%d" [.int 1],
  info "main" "========================> POLLIN:%d" [.int 2],
  info "main" "---------------->shutdown" [],
  info "main" "POLL-OK\n" []]

/-- The function and the text of an error. -/
structure Failure where
  func : String
  f : String
  deriving DecidableEq, Repr

def failures : List Failure := [
  ⟨"press_kbd_char", "send_input_rep()"⟩,
  ⟨"release_kbd_char", "send_input_rep()"⟩,
  ⟨"process_multi_bin", "send_input_rep()"⟩,
  ⟨"process_multi_bin", "send_mouse_rep()"⟩,
  ⟨"l2cap_connect", "socket(PF_BLUETOOTH, SOCK_SEQPACKET, BTPROTO_L2CAP)"⟩,
  ⟨"l2cap_connect", "connect()"⟩,
  ⟨"process_sk", "recv"⟩,
  ⟨"process_sk", "send"⟩,
  ⟨"process_mouse_nice", "fdopen(\"r\")"⟩,
  ⟨"process_mouse_nice", "send_mouse_rep()"⟩,
  ⟨"main", "open()"⟩,
  ⟨"main", "Failed to init connection."⟩,
  ⟨"main", "Failed to start_cache(16)"⟩,
  ⟨"main", "atexit"⟩,
  ⟨"main", "Failed to open cnt socket"⟩,
  ⟨"main", "Failed to open int socket"⟩,
  ⟨"main", "poll"⟩]

/-! ## Calls with arguments -/

/-- Where the keyboard report is logged. -/
inductive KbdSite where
  | press | release | multiBin
  deriving DecidableEq, Repr

def KbdSite.func : KbdSite → String
  | .press => "press_kbd_char"
  | .release => "release_kbd_char"
  | .multiBin => "process_multi_bin"

inductive Message where
  | note (c : Call) (listed : c ∈ notes)
  | failed (e : Failure) (listed : e ∈ failures) (errno : Int32)
  | keyboard (site : KbdSite) (kbd : KeyboardReport)
  | keycodes (site : KbdSite) (kbd : KeyboardReport)
  | decoded (keycode : UInt8)
  | reportId (id : UInt8)
  | letter (c : UInt8) (mods : Int32) (flags2 : UInt8)
  | badFlag (flags : UInt8)
  | gamepad (gpad : GamepadReport)
  | mouse (report : MouseReport)
  | mallocFailed (size : UInt32) (errno : Int32)
  | reallocating (size : UInt32)
  | closing (intSock cntSock : Int32)
  | noSockopts (errno : Int32)
  | sockopts (imtu omtu : UInt16)
  | peeking (sk : Int32)
  | packet (sk size : Int32) (cache : UInt32)
  | sent (n : Int32)
  | receiving (sk : Int32)
  | dropping (hdr : UInt8)
  | gotPacket (hdr : UInt8)
  | errnoText (errno : Int32)
  | niceMouse (x y b : Int32)
  | noMethod (name : List UInt8)
  | address (addr : List UInt8)
  | badAddress (addr : List UInt8) (errno : Int32)
  | badType (type : List UInt8) (errno : Int32)
  | commandLine (fifo type addr : List UInt8)
  | mkfifo (errno : Int32)
  | sockets (cntSock intSock srcFd : Int32)
  | fdFailed (i : Fin 3) (errno : Int32)

def keycodesText : String := "processing keycodes (0x%x 0x%x 0x%x 0x%x 0x%x 0x%x)"

def Message.call (strerror : Int32 → List UInt8) : Message → Call
  | .note c _ => c
  | .failed e _ errno => error strerror errno e.func e.f []
  -- combo_conn.c
  | .keyboard .release kbd => dbg "release_kbd_char" "processing keyboard %d (%d, %d)"
      [.byte kbd.reportId, .byte kbd.reserved, .byte kbd.modifier]
  | .keyboard site kbd => dbg site.func "processing keyboard (%d, %d)"
      [.byte kbd.reserved, .byte kbd.modifier]
  | .keycodes site kbd => dbg site.func keycodesText (kbd.keycodes.toList.map .byte)
  | .decoded keycode => info "_send_char_decode" "%c/0x%x -----> 0x%x"
      [.byte keycode, .byte keycode, .byte (kbdAsciimap.getD keycode.toNat 0)]
  | .reportId id => dbg "process_multi_bin" "-----[%d]" [.byte id]
  | .letter c mods flags2 => dbg "process_multi_bin" "Char -> %c/0x%x %d (raw %d)"
      [.byte c, .byte c, .int mods, .byte (flags2 &&& charRaw)]
  | .badFlag flags => info "process_multi_bin" "Bad flag2 0x%x! Interpreting letter as ascii."
      [.byte flags]
  | .gamepad gpad => dbg "process_multi_bin" "processing gamepad (%d %d %d %d %d %d %x)"
      [.int gpad.x.toInt32, .int gpad.y.toInt32, .int gpad.z.toInt32, .int gpad.rx.toInt32,
        .int gpad.ry.toInt32, .int gpad.rz.toInt32, .word gpad.buttons.toUInt32]
  | .mouse report => dbg "process_multi_bin" "processing mouse (%d, %d, 0x%x, %d)"
      [.int report.x.toInt32, .int report.y.toInt32, .byte report.buttons,
        .int report.wheel.toInt32]
  -- hidp.c
  | .mallocFailed size errno => error strerror errno "start_cache" "Failed to malloc(%d)"
      [.word size]
  | .reallocating size => info "check_cache" "Reallocing cache to %d buytes" [.word size]
  | .closing intSock cntSock => dbg "close_sk" "int_sock=%d, cnt_sock=%d"
      [.int intSock, .int cntSock]
  | .noSockopts errno => error strerror errno "print_sockopts"
      "Can't get default L2CAP options: %s (%d)" [.text (strerror errno), .int errno]
  | .sockopts imtu omtu => info "print_sockopts" "\tIMTU(%d) OMTU(%d)"
      [.word imtu.toUInt32, .word omtu.toUInt32]
  | .peeking sk => info "peek_hidp_hdr" "Peeking hdr sk=%d" [.int sk]
  | .packet sk size cache => info "send_hidp_pkt" "Sk: %d Pkt: (%.2d) (cache=%d) "
      [.int sk, .int size, .word cache]
  | .sent n => dbg "send_hidp_pkt" "sent=%d" [.int n]
  | .receiving sk => info "drop_hidp_pkt" "Reciving pkt on %d, size=%d, falgs=%d"
      [.int sk, .int 1, .int 0]
  | .dropping hdr => info "pkt_drop" "Dropping: (%x)" [.byte hdr]
  -- hidp_clientd.c
  | .gotPacket hdr => info "process_sk" "Got pkt (%x)" [.byte (hdr >>> 4)]
  | .errnoText errno => error strerror errno "process_sk" "errno=%d" [.int errno]
  | .niceMouse x y b => dbg "process_mouse_nice" "processing mouse (%d, %d, %x)"
      [.int x, .int y, .int b]
  | .noMethod name => info "lookup_conn_type" "No such conn-method: '%s'" [.text name]
  | .address addr => dbg "init_conn" "addr:%s" [.text addr]
  | .badAddress addr errno => error strerror errno "init_conn" "Failed to get dest adress (%s)"
      [.text addr]
  | .badType type errno => error strerror errno "init_conn" "Failed to get connection type (%s)"
      [.text type]
  | .commandLine fifo type addr => info "main" "fifo: %s conn-type: %s baddr: %s"
      [.text fifo, .text type, .text addr]
  | .mkfifo errno => error strerror errno "main" "mkfifo %s %o"
      [.text (literal "/data/hidp_clientd.fifo".toList), .int 511]
  | .sockets cntSock intSock srcFd => info "main" "cnt_sock(%i),int_sock(%i),src_fd(%i)"
      [.int cntSock, .int intSock, .int srcFd]
  | .fdFailed i errno => error strerror errno "main" "Error processing fd %d"
      [.word (UInt32.ofNat i)]

/-- A message of the daemon on its way into the log. -/
def log (strerror : Int32 → List UInt8) (l : Log) (m : Message) : Except Fault Log :=
  printString l (m.call strerror).level (m.call strerror).fmt (m.call strerror).args

end Android2Mouse.Source.DaemonLog
