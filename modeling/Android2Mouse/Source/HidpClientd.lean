import Mathlib.Logic.Function.Basic
import Android2Mouse.Source.ComboConn

/-!
# The daemon's main loop (`hidp_clientd.c`, the socket side of `hidp.c`)

`processSk` is `process_sk` for a connection whose table is `hdr_lookup_dropall`.
A socket is the queue of packets that have arrived and are not yet received, and
whether the peer has closed it; a `recv` of one byte takes a whole packet. The FIFO
is the bytes written and not yet read, and whether it has no writer. Log calls are
left out.

A pass of the loop polls the three descriptors and processes those with `POLLIN`.
`process_multi_bin` reads the FIFO until a read returns nothing, and while the FIFO
is empty and has a writer it waits there, so a pass stops in the state `reading`
after each read and goes on at the next (`readFifo`).
-/
namespace Android2Mouse.Source.HidpClientd
open Library Hidp ComboConn

/-! ## Packets on the sockets -/

inductive Sock where
  | cnt | int
  deriving DecidableEq, Repr

/-- A packet from the host: its header byte and what follows. -/
structure HidpPkt where
  hdr : UInt8
  data : List UInt8
  deriving DecidableEq, Repr

/-- How the two `recv` calls of a `process_sk` go: whether each of them fails, and
what the variable `hdr` holds when the first one stores nothing in it. -/
structure Answers where
  peekFails : Bool
  recvFails : Bool
  garbage : UInt8
  deriving DecidableEq, Repr

inductive Recv where
  | packet (pkt : HidpPkt)
  | eof
  | error
  deriving DecidableEq, Repr

/-- `recv` on a socket that has something pending or has been closed. -/
def recv (fails : Bool) (pending : List HidpPkt) : Recv :=
  if fails then .error
  else match pending with
    | [] => .eof
    | pkt :: _ => .packet pkt

/-- What `peek_hidp_hdr` leaves in `hdr`; its result is not used. -/
def peekHidpHdr (answers : Answers) (pending : List HidpPkt) : UInt8 :=
  match recv answers.peekFails pending with
  | .packet pkt => pkt.hdr
  | .eof => answers.garbage
  | .error => answers.garbage

/-- `recv_hidp_pkt` of one byte, and the packets that it leaves. -/
def recvHidpPkt (answers : Answers) (pending : List HidpPkt) : Recv × List HidpPkt :=
  match recv answers.recvFails pending with
  | .packet pkt => (.packet pkt, pending.tail)
  | .eof => (.eof, pending)
  | .error => (.error, pending)

/-- `GET_HIDP_TYPE(hdr)` -/
def getHidpType (hdr : UInt8) : UInt8 := hdr >>> 4

/-- What the daemon sends, with the socket it sends it on. -/
abbrev Output := Sock × Payload

def sendEinval (sk : Sock) : Attempt Output Int :=
  (sendHidpPkt (hidpHdrBuild 0 0x4) []).mapOutput fun payload => (sk, payload)

/-- A handler of a packet, and the packets that it leaves. -/
abbrev HdrLookupFunc := Answers → List HidpPkt → Method × List HidpPkt

def pktDrop : HdrLookupFunc := fun answers pending =>
  let (rv, pending) := recvHidpPkt answers pending
  if rv = .error then (.error, pending) else (.success, pending)

def hdrLookupDropall : List (Option HdrLookupFunc) := [
  some pktDrop, /- 0 -/
  some pktDrop, /- 1 -/
  none, /- 2 -/
  none, /- 3 -/
  some pktDrop, /- 4 -/
  some pktDrop, /- 5 -/
  some pktDrop, /- 6 -/
  some pktDrop, /- 7 -/
  none,
  none,
  some pktDrop /- 10 -/]

/-- The handler that `process_sk` finds for a header. -/
def lookupHdr (hdr : UInt8) : Option HdrLookupFunc :=
  if getHidpType hdr ≤ 0xa then hdrLookupDropall.getD (getHidpType hdr).toNat none else none

def processSk (sk : Sock) (answers : Answers) (pending : List HidpPkt) :
    Attempt Output (Method × List HidpPkt) :=
  match lookupHdr (peekHidpHdr answers pending) with
  | some process => .done (process answers pending)
  | none =>
    let (len, pending) := recvHidpPkt answers pending
    if len = .error then .done (.error, pending)
    else do
      if (← sendEinval sk) = -1 then return (.error, pending)
      return (.success, pending)

/-! ## The loop -/

structure Socket where
  pending : List HidpPkt
  closed : Bool
  deriving DecidableEq, Repr

structure Fifo where
  pending : List UInt8
  hungUp : Bool
  deriving DecidableEq, Repr

/-- Where the process is: at `poll`, in `process_multi_bin` before a read, or gone. -/
inductive Control where
  | polling
  | reading (s : Locals)
  | exited
  deriving DecidableEq, Repr

/-- The `switch` of `main` on what a method returned. -/
def Control.returned : Method → Control
  | .shutdown => .exited
  | .error => .polling
  | .success => .polling

structure Machine where
  sockets : Sock → Socket
  fifo : Fifo
  control : Control

def Machine.setSocket (m : Machine) (sk : Sock) (socket : Socket) : Machine :=
  { m with sockets := Function.update m.sockets sk socket }

theorem Machine.setSocket_self (m : Machine) (sk : Sock) (socket : Socket) :
    (m.setSocket sk socket).sockets sk = socket := Function.update_self _ _ _

theorem Machine.setSocket_of_ne (m : Machine) {sk sk' : Sock} (h : sk' ≠ sk) (socket : Socket) :
    (m.setSocket sk socket).sockets sk' = m.sockets sk' := Function.update_of_ne h _ _

/-- The descriptors, in the order of `p_fds`. -/
inductive Fd where
  | sock (sk : Sock)
  | src
  deriving DecidableEq, Repr

def pFds : List Fd := [.sock .cnt, .sock .int, .src]

/-- `revents & POLLIN` -/
def Machine.pollin (m : Machine) : Fd → Bool
  | .sock sk => (m.sockets sk).pending ≠ [] ∨ (m.sockets sk).closed
  | .src => m.fifo.pending ≠ []

/-- `revents` is not zero: a FIFO without a writer reports `POLLHUP`. -/
def Machine.revents (m : Machine) : Fd → Bool
  | .sock sk => m.pollin (.sock sk)
  | .src => m.pollin .src ∨ m.fifo.hungUp

/-- The result of `poll`; at zero it would wait. -/
def Machine.poll (m : Machine) : ℕ := (pFds.filter fun fd => m.revents fd).length

/-- One read of `process_multi_bin`, and the iteration after it. -/
def readFifo (s : Locals) (m : Machine) : Attempt Output Machine :=
  if m.fifo.pending = [] then
    .done (if m.fifo.hungUp then { m with control := .returned .success } else m)
  else do
    let bs := m.fifo.pending.take binPacketSize
    let m := { m with fifo := { m.fifo with pending := m.fifo.pending.drop binPacketSize } }
    let (s, code) ← (handlePacket { s with packet := s.packet.overlay bs }).mapOutput
      fun payload => (Sock.int, payload)
    match code with
    | none => return { m with control := .reading s }
    | some code => return { m with control := .returned code }

/-- `process[i](p_fds[i].fd, conn_info)` and what `main` makes of the result;
`process_sk` does not ask for a shutdown. -/
def processFd (answers : Sock → Answers) (stack : BinPacket) (m : Machine) :
    Fd → Attempt Output Machine
  | .sock sk => do
    let (_, pending) ← processSk sk (answers sk) (m.sockets sk).pending
    return m.setSocket sk { m.sockets sk with pending }
  | .src => readFifo (.entry stack) { m with control := .reading (.entry stack) }

/-- The `for` loop of a pass, over the descriptors left. -/
def processFds (answers : Sock → Answers) (stack : BinPacket) (pollin : Fd → Bool) :
    ℕ → List Fd → Machine → Attempt Output Machine
  | _, [], m => .done m
  | rv, fd :: fds, m =>
    if rv = 0 then .done m
    else if pollin fd then do
      let m ← processFd answers stack m fd
      processFds answers stack pollin (rv - 1) fds m
    else processFds answers stack pollin rv fds m

/-- A pass of `for(;;)` whose `poll` has returned `m.poll`. -/
def pass (answers : Sock → Answers) (stack : BinPacket) (m : Machine) : Attempt Output Machine :=
  processFds answers stack m.pollin m.poll pFds m

end Android2Mouse.Source.HidpClientd
