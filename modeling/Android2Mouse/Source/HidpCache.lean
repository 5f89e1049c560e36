import Android2Mouse.Library.Heap
import Android2Mouse.Source.Hidp

/-!
# The send caches (`hidp.c`)

A packet is put together in a buffer that the calls share, and that is replaced by a
larger one when a packet does not fit. Each function is given the heap and the cache
and returns both as it leaves them, or the fault of an access. `malloc`, `send` and
`recv` are the environment's: a call comes with what they do in it. Logging is left
out.

`oldSendHidpPkt` and `oldDropHidpPkt` are the functions of the predecessor
(`tmp/src/hidp_clientd.c`), which allocates a buffer for every packet.

Sizes are natural numbers; `size + 1` of an `int` size fits the `size_t` of the
target.
-/
namespace Android2Mouse.Source.HidpCache
open Library Hidp

/-- `struct send_cache` -/
structure SendCache where
  buf : Ptr
  p : Ptr
  size : ℕ
  deriving DecidableEq, Repr

/-- The zeroed static before `start_cache`. -/
def SendCache.unused : SendCache := ⟨.null, .null, 0⟩

/-- What a call hands to `send`. -/
structure Handed where
  sk : Int32
  bytes : Payload
  flags : Int32
  deriving DecidableEq, Repr

/-! ## The cache -/

def zeroCache (h : Heap UInt8) (c : SendCache) : Except Fault (Heap UInt8 × SendCache) := do
  let h ← h.store c.buf (List.replicate c.size 0)
  return (h, { c with p := c.buf })

def startCache (size : ℕ) (m : Malloc UInt8) (h : Heap UInt8) (c : SendCache) :
    Except Fault (Heap UInt8 × SendCache × Int32) := do
  let (buf, h) := h.malloc m size
  let c := { c with size, buf }
  if c.buf = .null then return (h, c, -1)
  let (h, c) ← zeroCache h c
  return (h, c, 0)

def checkCache (size : ℕ) (m : Malloc UInt8) (h : Heap UInt8) (c : SendCache) :
    Except Fault (Heap UInt8 × SendCache × Int32) := do
  if size > c.size then
    let h ← h.free c.buf
    startCache size m h c
  else return (h, c, 0)

def pushCache (v : List UInt8) (h : Heap UInt8) (c : SendCache) :
    Except Fault (Heap UInt8 × SendCache) := do
  let h ← h.store c.p v
  return (h, { c with p := c.p.add v.length })

def getCache (c : SendCache) : Ptr := c.buf

/-! ## Packets -/

/-- `send_hidp_pkt` with the `size` bytes of `data`, where `send` returns `sent`.
The result of `check_cache` is not looked at. -/
def sendHidpPkt (sk : Int32) (hdr : UInt8) (data : List UInt8) (flags : Int32)
    (m : Malloc UInt8) (sent : Int32) (h : Heap UInt8) (c : SendCache) :
    Except Fault (Heap UInt8 × SendCache × Option Handed × Int32) := do
  let (h, c, _) ← checkCache (data.length + 1) m h c
  let (h, c) ← zeroCache h c
  let (h, c) ← pushCache [hdr] h c
  let (h, c) ← pushCache data h c
  let bytes ← h.load (getCache c) (data.length + 1)
  return (h, c, some ⟨sk, bytes, flags⟩, sent)

/-- `recv_hidp_pkt` into a buffer, where `recv` takes `datagram` or fails: what
does not fit `size` is lost. -/
def recvHidpPkt (data : Ptr) (size : ℕ) (datagram : Option (List UInt8)) (h : Heap UInt8) :
    Except Fault (Heap UInt8 × Int32) :=
  match datagram with
  | none => .ok (h, -1)
  | some bytes => do
    let h ← h.store data (bytes.take size)
    return (h, .ofNat (bytes.take size).length)

/-- `drop_hidp_pkt`. The result of `check_cache` is not looked at. -/
def dropHidpPkt (size : ℕ) (m : Malloc UInt8) (datagram : Option (List UInt8)) (h : Heap UInt8)
    (c : SendCache) : Except Fault (Heap UInt8 × SendCache × Int32) := do
  let (h, c, _) ← checkCache (size + 1) m h c
  let (h, rv) ← recvHidpPkt (getCache c) size datagram h
  return (h, c, rv)

/-- `send_hidp_pkt` of the predecessor. A packet without data is its own header. -/
def oldSendHidpPkt (sk : Int32) (hdr : UInt8) (data : List UInt8) (flags : Int32)
    (m : Malloc UInt8) (sent : Int32) (h : Heap UInt8) :
    Except Fault (Heap UInt8 × Option Handed × Int32) := do
  if data.length = 0 then return (h, some ⟨sk, [hdr], flags⟩, sent)
  let (p, h) := h.malloc m (data.length + 1)
  if p = .null then return (h, none, -1)
  let h ← h.store p [hdr]
  let h ← h.store (p.add 1) data
  let bytes ← h.load p (data.length + 1)
  let h ← h.free p
  return (h, some ⟨sk, bytes, flags⟩, sent)

/-- `drop_hidp_pkt` of the predecessor. -/
def oldDropHidpPkt (size : ℕ) (m : Malloc UInt8) (datagram : Option (List UInt8))
    (h : Heap UInt8) : Except Fault (Heap UInt8 × Int32) := do
  let (buf, h) := h.malloc m size
  if buf = .null then return (h, -1)
  let (h, rv) ← recvHidpPkt buf size datagram h
  let h ← h.free buf
  return (h, rv)

/-! ## Calls on several caches -/

/-- The two caches of the daemon. -/
inductive CacheName where
  | common_cache | drop_cache
  deriving DecidableEq, Repr

/-- The heap and the caches, one for each name. -/
structure World (κ : Type) where
  heap : Heap UInt8
  cache : κ → SendCache

/-- A `start_cache` with what `malloc` does in it. -/
structure Start (κ : Type) where
  key : κ
  size : ℕ
  malloc : Malloc UInt8

/-- A call that sends or drops a packet, with what the environment does in it. -/
inductive Call (κ : Type) where
  | send (key : κ) (sk : Int32) (hdr : UInt8) (data : List UInt8) (flags : Int32)
      (malloc : Malloc UInt8) (sent : Int32)
  | drop (key : κ) (sk : Int32) (size : ℕ) (flags : Int32) (malloc : Malloc UInt8)
      (datagram : Option (List UInt8))

/-- `send_einval` -/
def sendEinval (sk flags : Int32) (malloc : Malloc UInt8) (sent : Int32) : Call CacheName :=
  .send .common_cache sk (hidpHdrBuild 0 0x4) [] flags malloc sent

/-- `send_hidp_report` on the interrupt socket -/
def sendHidpReport (intSock : Int32) (type : UInt8) (data : List UInt8) (flags : Int32)
    (malloc : Malloc UInt8) (sent : Int32) : Call CacheName :=
  .send .common_cache intSock (hidpHdrBuild hidpMsgtData (type &&& 0x3)) data flags malloc sent

section

variable {κ : Type}

/-- Before any call. -/
def World.initial : World κ := ⟨.empty, fun _ => .unused⟩

def Call.key : Call κ → κ
  | .send key _ _ _ _ _ _ => key
  | .drop key _ _ _ _ _ => key

def Call.malloc : Call κ → Malloc UInt8
  | .send _ _ _ _ _ malloc _ => malloc
  | .drop _ _ _ _ malloc _ => malloc

/-- The size that the call checks its cache for. -/
def Call.needs : Call κ → ℕ
  | .send _ _ _ data _ _ _ => data.length + 1
  | .drop _ _ size _ _ _ => size + 1

/-- What a call makes of its cache, what it hands to `send` and what it returns. -/
def Call.act (h : Heap UInt8) (c : SendCache) :
    Call κ → Except Fault (Heap UInt8 × SendCache × Option Handed × Int32)
  | .send _ sk hdr data flags malloc sent => sendHidpPkt sk hdr data flags malloc sent h c
  | .drop _ _ size _ malloc datagram => do
    let (h, c, r) ← dropHidpPkt size malloc datagram h c
    return (h, c, none, r)

/-- The same call of the predecessor, with its own `malloc`. -/
def Call.old (malloc : Malloc UInt8) (h : Heap UInt8) :
    Call κ → Except Fault (Heap UInt8 × Option Handed × Int32)
  | .send _ sk hdr data flags _ sent => oldSendHidpPkt sk hdr data flags malloc sent h
  | .drop _ _ size _ _ datagram => do
    let (h, r) ← oldDropHidpPkt size malloc datagram h
    return (h, none, r)

variable [DecidableEq κ]

/-- The statics started one after another. -/
def World.startAll (w : World κ) : List (Start κ) → Except Fault (World κ)
  | [] => .ok w
  | s :: starts => do
    let (h, c, _) ← startCache s.size s.malloc w.heap (w.cache s.key)
    World.startAll ⟨h, Function.update w.cache s.key c⟩ starts

def World.step (w : World κ) (call : Call κ) : Except Fault (World κ × Option Handed × Int32) := do
  let (h, c, handed, r) ← call.act w.heap (w.cache call.key)
  return (⟨h, Function.update w.cache call.key c⟩, handed, r)

/-- The state after some calls, if none of them faults. -/
def World.after (w : World κ) : List (Call κ) → Except Fault (World κ)
  | [] => .ok w
  | call :: calls => do
    let (w, _) ← w.step call
    w.after calls

end

end Android2Mouse.Source.HidpCache
