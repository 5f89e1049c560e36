import Android2Mouse.Library.Heap
import Android2Mouse.Library.Retry
import Android2Mouse.Source.BinPacket

/-!
# Requests to the adapter (`hci.c`, `hci_lib.h`)

`hci_send_req` and what `get_dev_class` and `set_dev_class` use of it. The answers of the
system calls are given (`Device`); `errno` of those that fail is not told apart. The buffer
of the events and that of the response have arbitrary contents at first. A `memcpy` of a
negative size is the fault of an access out of range.
-/
namespace Android2Mouse.Source.Hci
open Library ComboConn

/-- `errno`; `os` is what a system call has set. -/
inductive Errno where
  | eio | etimedout | os
  deriving DecidableEq, Repr

def evtRemoteNameReqComplete : UInt8 := 0x07
def evtCmdComplete : UInt8 := 0x0E
def evtCmdStatus : UInt8 := 0x0F
def evtLeMetaEvent : UInt8 := 0x3E

def hciCommandPkt : UInt8 := 0x01
def hciEventPkt : UInt8 := 0x04

/-- `cmd_opcode_pack(ogf, ocf)` -/
def cmdOpcodePack (ogf ocf : UInt16) : UInt16 := (ocf &&& (0x03ff : UInt16)) ||| (ogf <<< (10 : UInt16))

/-! ## The filter -/

/-- `struct hci_filter`, with the two words of `event_mask`. -/
structure HciFilter where
  typeMask : UInt32
  eventMask : UInt32 × UInt32
  opcode : UInt16
  deriving DecidableEq, Repr

/-- `hci_set_bit` in the word that `nr >> 5` has chosen. -/
def setBit (nr word : UInt32) : UInt32 := word ||| (1 <<< (nr &&& 31))

def testBit (nr word : UInt32) : Bool := word &&& (1 <<< (nr &&& 31)) ≠ 0

def hciFilterClear : HciFilter := ⟨0, (0, 0), 0⟩

/-- `HCI_VENDOR_PKT` is `0xff`. -/
def ptypeBit (t : UInt8) : UInt32 := if t = 0xff then 0 else t.toUInt32 &&& 31

def hciFilterSetPtype (t : UInt8) (f : HciFilter) : HciFilter :=
  { f with typeMask := setBit (ptypeBit t) f.typeMask }

def hciFilterSetEvent (e : UInt8) (f : HciFilter) : HciFilter :=
  let nr := e.toUInt32 &&& 63
  if nr >>> 5 = 0 then { f with eventMask := (setBit nr f.eventMask.1, f.eventMask.2) }
  else { f with eventMask := (f.eventMask.1, setBit nr f.eventMask.2) }

def hciFilterTestEvent (e : UInt8) (f : HciFilter) : Bool :=
  let nr := e.toUInt32 &&& 63
  if nr >>> 5 = 0 then testBit nr f.eventMask.1 else testBit nr f.eventMask.2

def hciFilterSetOpcode (opcode : UInt16) (f : HciFilter) : HciFilter := { f with opcode }

/-! ## Requests -/

/-- `struct hci_request`; `rparam` is the memory that it points to. -/
structure HciRequest where
  ogf : UInt16
  ocf : UInt16
  event : UInt8
  cparam : List UInt8
  rparam : List UInt8
  rlen : ℕ
  deriving DecidableEq, Repr

def HciRequest.opcode (r : HciRequest) : UInt16 := cmdOpcodePack r.ogf r.ocf

/-- The filter that is set for a request. -/
def HciRequest.filter (r : HciRequest) : HciFilter :=
  let nf := hciFilterClear
  let nf := hciFilterSetPtype hciEventPkt nf
  let nf := hciFilterSetEvent evtCmdStatus nf
  let nf := hciFilterSetEvent evtCmdComplete nf
  let nf := hciFilterSetEvent evtLeMetaEvent nf
  let nf := hciFilterSetEvent r.event nf
  hciFilterSetOpcode r.opcode nf

/-- The packet that `hci_send_cmd` writes; it takes the length of the parameters as `uint8_t`. -/
def HciRequest.command (r : HciRequest) : List UInt8 :=
  let plen := UInt8.ofNat r.cparam.length
  [hciCommandPkt] ++ (le16Bytes r.opcode ++ [plen]) ++ r.cparam.take plen.toNat

/-- The answers that the calls of a request get, of `poll` whether there is something to read. -/
structure Device where
  getsockopt : Bool
  setsockopt : Bool
  writes : List (Answer Unit)
  polls : List (Answer Bool)
  reads : List (Answer (List UInt8))
  restore : Bool
  deriving DecidableEq, Repr

/-- The `poll` of a try; at 0 there is none. -/
def pollFor (to' : Int) (polls : List (Answer Bool)) :
    Option (Except Errno Unit × List (Answer Bool)) :=
  if to' = 0 then some (.ok (), polls)
  else (retry polls).map fun polled => (match polled.1 with
    | none => .error .os
    | some false => .error .etimedout
    | some true => .ok (), polled.2)

/-- What an event means for the request: it is passed over, the command has failed, an address is
looked for outside of `cparam`, or the response is the `len` bytes at an offset. -/
inductive Verdict where
  | next
  | failed
  | outside
  | done (offset : ℕ) (len : Int)
  deriving DecidableEq, Repr

/-- The `switch`, of an event of `size` bytes. -/
def HciRequest.verdict (r : HciRequest) (buf : ℕ → UInt8) (size : ℕ) : Verdict :=
  let evt := buf 1
  let ptr := 3
  let len : Int := size - 3
  if evt = evtCmdStatus then
    if le16 (buf (ptr + 2)) (buf (ptr + 3)) ≠ r.opcode then .next
    else if r.event ≠ evtCmdStatus then
      if buf ptr ≠ 0 then .failed else .next
    else .done ptr len
  else if evt = evtCmdComplete then
    if le16 (buf (ptr + 1)) (buf (ptr + 2)) ≠ r.opcode then .next else .done (ptr + 3) (len - 3)
  else if evt = evtRemoteNameReqComplete then
    if evt ≠ r.event then .next
    else if r.cparam.length < 6 then .outside
    else if (List.range 6).map (fun i => buf (ptr + 1 + i)) ≠ r.cparam.take 6 then .next
    else .done ptr len
  else if evt = evtLeMetaEvent then
    if buf ptr ≠ r.event then .next else .done (ptr + 1) (len - 1)
  else if evt ≠ r.event then .next
  else .done ptr len

/-- `r->rlen = MIN(len, r->rlen)` and the `memcpy`. -/
def HciRequest.respond (r : HciRequest) (buf : ℕ → UInt8) (offset : ℕ) (len : Int) :
    Except Fault HciRequest :=
  let rlen := if len < r.rlen then len else r.rlen
  if rlen < 0 then .error .range
  else
    let bytes := (List.range rlen.toNat).map fun i => buf (offset + i)
    .ok { r with rparam := splice r.rparam 0 bytes, rlen := rlen.toNat }

/-- `to -= 10`, not below 0. -/
def lessTime (to' : Int) : Int := if to' = 0 then 0 else if to' - 10 < 0 then 0 else to' - 10

/-- The loop, with what is read over what was in `buf`; `none` while it has not ended. -/
def waitEvent (r : HciRequest) : ℕ → Int → List (Answer Bool) → List (Answer (List UInt8)) →
    (ℕ → UInt8) → Except Fault (Option (Except Errno HciRequest))
  | 0, _, _, _, _ => .ok (some (.error .etimedout))
  | try' + 1, to', polls, reads, buf =>
    match pollFor to' polls with
    | none => .ok none
    | some (.error e, _) => .ok (some (.error e))
    | some (.ok (), polls) =>
      match retry reads with
      | none => .ok none
      | some (none, _) => .ok (some (.error .os))
      | some (some bytes, reads) =>
        let buf := fun i => bytes.getD i (buf i)
        match r.verdict buf bytes.length with
        | .next => waitEvent r try' (lessTime to') polls reads buf
        | .failed => .ok (some (.error .eio))
        | .outside => .error .range
        | .done offset len => do
          let r ← r.respond buf offset len
          return some (.ok r)

/-- What is left when a request is over: the filter of the socket, the bytes written, and
the request or the `errno` for -1. -/
structure Outcome where
  filter : HciFilter
  sent : List UInt8
  result : Except Errno HciRequest

/-- `hci_send_req`, on a socket with the filter `of` -/
def hciSendReq (dev : Device) (of : HciFilter) (buf : ℕ → UInt8) (r : HciRequest) (to' : Int) :
    Except Fault (Option Outcome) :=
  if !dev.getsockopt then .ok (some ⟨of, [], .error .os⟩)
  else if !dev.setsockopt then .ok (some ⟨of, [], .error .os⟩)
  else
    let restored := if dev.restore then of else r.filter
    match retry dev.writes with
    | none => .ok none
    | some (none, _) => .ok (some ⟨restored, [], .error .os⟩)
    | some (some (), _) => do
      let waited ← waitEvent r 10 to' dev.polls dev.reads buf
      return waited.map fun result => ⟨restored, r.command, result⟩

/-! ## The device class -/

/-- `hci_read_class_of_dev`; `rp` is what the memory of the response holds at first. -/
def readClassOfDev (rp : Vector UInt8 4) : HciRequest :=
  ⟨0x03, 0x0023, 0, [], rp.toList, 4⟩

/-- `hci_write_class_of_dev` -/
def writeClassOfDev (cls : UInt32) : HciRequest :=
  ⟨0x03, 0x0024, 0, [cls.toUInt8, (cls >>> 8).toUInt8, (cls >>> 16).toUInt8], [], 0⟩

/-- The answers for `hci_open_dev` and for the request on the socket that it returns, which
has been closed when `get_dev_class` or `set_dev_class` is over. -/
structure Adapter where
  socket : Bool
  bind : Bool
  dev : Device
  of : HciFilter
  buf : ℕ → UInt8

def Adapter.hciOpenDev (a : Adapter) : Bool := a.socket && a.bind

/-- `get_dev_class`, with the class for 0 and `none` for -1. -/
def getDevClass (a : Adapter) (rp : Vector UInt8 4) : Except Fault (Option (Option UInt32)) :=
  if !a.hciOpenDev then .ok (some none)
  else do
    let outcome ← hciSendReq a.dev a.of a.buf (readClassOfDev rp) 1000
    return outcome.map fun outcome => match outcome.result with
      | .error _ => none
      | .ok r =>
        -- `rp.status`
        if r.rparam.getD 0 0 ≠ 0 then none
        else some (((r.rparam.getD 3 0).toUInt32 <<< 16) ||| ((r.rparam.getD 2 0).toUInt32 <<< 8) |||
          (r.rparam.getD 1 0).toUInt32)

/-- `set_dev_class` -/
def setDevClass (a : Adapter) (cls : UInt32) : Except Fault (Option Int) :=
  if !a.hciOpenDev then .ok (some (-1))
  else do
    let outcome ← hciSendReq a.dev a.of a.buf (writeClassOfDev cls) 2000
    return outcome.map fun outcome => match outcome.result with
      | .error _ => -1
      | .ok _ => 0

end Android2Mouse.Source.Hci
