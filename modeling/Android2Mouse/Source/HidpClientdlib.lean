import Mathlib.Tactic.IntervalCases
import Android2Mouse.Library.Blocks
import Android2Mouse.Source.BinPacket

/-!
# The client library (`hidp_clientdlib.c`)

The library's statics are one packet, zeroed by `get_packet` and filled in
place by every report function, and one descriptor. What the library does to
the outside is the list of system calls it issues; `fifoPackets` is what a list
of them puts into the FIFO. A short write is only logged by `send_packet`, and
a write of one packet to a FIFO is atomic, so a write is its packet.

A `const char *` is the list of bytes from the pointer on, with the NUL left
implicit at its end. Lengths and indices are natural numbers: on the target
`size_t` and pointers have 32 bits, and so has the address space a string must
fit in.
-/
namespace Android2Mouse.Source.HidpClientdlib
open Library ComboConn

inductive Syscall where
  | open (result : Int32)
  | write (fd : Int32) (packet : BinPacket)
  | close (fd : Int32)
  deriving DecidableEq, Repr

/-- The packets that reach the FIFO: those written to a descriptor that an
`open` returned and no `close` has closed since. -/
def fifoPackets (fds : List Int32) : List Syscall → List BinPacket
  | [] => []
  | .open result :: calls =>
    fifoPackets (if result = -1 then fds else result :: fds) calls
  | .write fd packet :: calls =>
    if fd ∈ fds then packet :: fifoPackets fds calls else fifoPackets fds calls
  | .close fd :: calls => fifoPackets (fds.filter (· ≠ fd)) calls

/-- The statics of the library, and the system calls issued so far. -/
structure ClientLib where
  packet : BinPacket
  fd : Int32
  calls : List Syscall
  deriving DecidableEq, Repr

/-- The statics before the first call. -/
def ClientLib.initial : ClientLib := ⟨.zero, 0, []⟩

/-- `send_packet` of the static packet, which every caller passes. -/
def sendPacket (c : ClientLib) : ClientLib :=
  { c with calls := c.calls ++ [.write c.fd c.packet] }

def getPacket (rid : UInt8) (c : ClientLib) : ClientLib :=
  { c with packet := { BinPacket.zero with reportId := rid } }

/-- `start_session`, whose `open` returned `opened`. -/
def startSession (opened : Int32) (c : ClientLib) : ClientLib × Int :=
  let c := { c with fd := opened, calls := c.calls ++ [.open opened] }
  if opened = -1 then (c, -1) else (c, 0)

def endSession (c : ClientLib) : ClientLib :=
  let c := getPacket sysRepId c
  let c := sendPacket { c with packet := { c.packet with flags := hcrShutdown } }
  { c with calls := c.calls ++ [.close c.fd] }

def sendMouseReport (x y buttons wheel : Int32) (c : ClientLib) : ClientLib :=
  let c := getPacket mouseRepId c
  let p := c.packet
    |>.store 0 [intToUInt8 buttons]
    |>.store 1 [x.toInt8.toUInt8]
    |>.store 2 [y.toInt8.toUInt8]
    |>.store 3 [wheel.toInt8.toUInt8]
  sendPacket { c with packet := p }

def sendCharReport (ch mod : Int32) (flg : UInt8) (c : ClientLib) : ClientLib :=
  let c := getPacket kbdRepId c
  let p := { c.packet with flags := brptChar, flags2 := flg }
    |>.store 0 [intToUInt8 ch]
    |>.store 4 (le32Bytes mod)
  sendPacket { c with packet := p }

def sendCharAsciiReport (ch mod : Int32) : ClientLib → ClientLib :=
  sendCharReport ch mod charAscii

def sendCharRawReport (ch mod : Int32) : ClientLib → ClientLib :=
  sendCharReport ch mod charRaw

/-- The `n` bytes `strncpy` writes. -/
def strncpy (s : List UInt8) (n : ℕ) : List UInt8 :=
  let t := (cstring s).take n
  t ++ List.replicate (n - t.length) 0

def sendStringFrag (s : List UInt8) (size : ℕ) (c : ClientLib) : ClientLib :=
  let c := getPacket kbdRepId c
  let p := { c.packet with flags := brptString } |>.store 0 (strncpy s size)
  sendPacket { c with packet := p }

/-- The loop of `send_str_report` with `frags` iterations to go. -/
def sendStrFrags (s : List UInt8) : ℕ → ℕ → ClientLib → ClientLib × ℕ
  | 0, sInd, c => (c, sInd)
  | frags + 1, sInd, c =>
    sendStrFrags s frags (sInd + maxString) (sendStringFrag (s.drop sInd) maxString c)

def sendStrReport (s : List UInt8) (c : ClientLib) : ClientLib :=
  let size := (cstring s).length
  let (c, sInd) := sendStrFrags s (size / maxString) 0 c
  if size % maxString ≠ 0 then sendStringFrag (s.drop sInd) (size - sInd) c else c

def sendGpadReport (x y z rx ry rz buttons : Int32) (c : ClientLib) : ClientLib :=
  let c := getPacket gpadRepId c
  let p := c.packet
    |>.store 2 [x.toInt8.toUInt8]
    |>.store 3 [y.toInt8.toUInt8]
    |>.store 4 [z.toInt8.toUInt8]
    |>.store 5 [rx.toInt8.toUInt8]
    |>.store 7 [rz.toInt8.toUInt8]
    |>.store 6 [ry.toInt8.toUInt8]
    |>.store 0 (le16Bytes (intToUInt16 buttons))
  sendPacket { c with packet := p }

/-! ## What each function writes -/

def mousePacket (x y buttons wheel : Int32) : BinPacket :=
  ⟨mouseRepId, 0, 0, 0, #v[intToUInt8 buttons, x.toInt8.toUInt8, y.toInt8.toUInt8,
    wheel.toInt8.toUInt8, 0, 0, 0, 0, 0, 0, 0, 0, 0, 0, 0, 0]⟩

def gpadPacket (x y z rx ry rz buttons : Int32) : BinPacket :=
  let b := intToUInt16 buttons
  ⟨gpadRepId, 0, 0, 0, #v[b.toUInt8, (b >>> 8).toUInt8, x.toInt8.toUInt8, y.toInt8.toUInt8,
    z.toInt8.toUInt8, rx.toInt8.toUInt8, ry.toInt8.toUInt8, rz.toInt8.toUInt8,
    0, 0, 0, 0, 0, 0, 0, 0]⟩

def letterPacket (ch mod : Int32) (flg : UInt8) : BinPacket :=
  let m := mod.toUInt32
  ⟨kbdRepId, brptChar, flg, 0, #v[intToUInt8 ch, 0, 0, 0, m.toUInt8, (m >>> 8).toUInt8,
    (m >>> 16).toUInt8, (m >>> 24).toUInt8, 0, 0, 0, 0, 0, 0, 0, 0]⟩

def shutdownPacket : BinPacket := ⟨sysRepId, hcrShutdown, 0, 0, .replicate 16 0⟩

/-- The packet of a fragment: its bytes, then NULs. -/
def fragPacket (frag : List UInt8) : BinPacket :=
  ⟨kbdRepId, brptString, 0, 0, .ofFn fun i => frag.getD i 0⟩

theorem sendMouseReport_packet (x y buttons wheel : Int32) (c : ClientLib) :
    (sendMouseReport x y buttons wheel c).packet = mousePacket x y buttons wheel := by
  refine BinPacket.ext rfl rfl rfl rfl (Vector.ext fun i hi => ?_)
  simp only [sendMouseReport, sendPacket, getPacket, BinPacket.store_report, List.length_cons,
    List.length_nil, mousePacket]
  interval_cases i <;> rfl

theorem sendGpadReport_packet (x y z rx ry rz buttons : Int32) (c : ClientLib) :
    (sendGpadReport x y z rx ry rz buttons c).packet = gpadPacket x y z rx ry rz buttons := by
  refine BinPacket.ext rfl rfl rfl rfl (Vector.ext fun i hi => ?_)
  simp only [sendGpadReport, sendPacket, getPacket, BinPacket.store_report, le16Bytes,
    List.length_cons, List.length_nil, gpadPacket]
  interval_cases i <;> rfl

theorem sendCharReport_packet (ch mod : Int32) (flg : UInt8) (c : ClientLib) :
    (sendCharReport ch mod flg c).packet = letterPacket ch mod flg := by
  refine BinPacket.ext rfl rfl rfl rfl (Vector.ext fun i hi => ?_)
  simp only [sendCharReport, sendPacket, getPacket, BinPacket.store_report, le32Bytes,
    List.length_cons, List.length_nil, letterPacket]
  interval_cases i <;> rfl

/-- Every report function writes the packet it leaves in the static. -/
theorem sendMouseReport_calls (x y buttons wheel : Int32) (c : ClientLib) :
    (sendMouseReport x y buttons wheel c).calls =
      c.calls ++ [.write c.fd (mousePacket x y buttons wheel)] := by
  rw [← sendMouseReport_packet x y buttons wheel c]
  rfl

theorem sendGpadReport_calls (x y z rx ry rz buttons : Int32) (c : ClientLib) :
    (sendGpadReport x y z rx ry rz buttons c).calls =
      c.calls ++ [.write c.fd (gpadPacket x y z rx ry rz buttons)] := by
  rw [← sendGpadReport_packet x y z rx ry rz buttons c]
  rfl

theorem sendCharReport_calls (ch mod : Int32) (flg : UInt8) (c : ClientLib) :
    (sendCharReport ch mod flg c).calls =
      c.calls ++ [.write c.fd (letterPacket ch mod flg)] := by
  rw [← sendCharReport_packet ch mod flg c]
  rfl

theorem startSession_calls (opened : Int32) (c : ClientLib) :
    (startSession opened c).1.calls = c.calls ++ [.open opened] := by
  unfold startSession
  by_cases h : opened = -1
  · simp only [if_pos h]
  · simp only [if_neg h]

theorem startSession_fd (opened : Int32) (c : ClientLib) :
    (startSession opened c).1.fd = opened := by
  unfold startSession
  by_cases h : opened = -1
  · simp only [if_pos h]
  · simp only [if_neg h]

theorem endSession_calls (c : ClientLib) :
    (endSession c).calls = c.calls ++ [.write c.fd shutdownPacket, .close c.fd] := by
  simp only [endSession, sendPacket, getPacket, List.append_assoc]
  rfl

/-! ## Fragments -/

theorem cstring_drop (s : List UInt8) (i : ℕ) (h : i ≤ (cstring s).length) :
    cstring (s.drop i) = (cstring s).drop i := by
  induction s generalizing i with
  | nil => simp [cstring]
  | cons b s ih =>
    cases i with
    | zero => rfl
    | succ i =>
      by_cases hb : b = 0
      · subst hb
        simp [cstring] at h
      · have hcons : cstring (b :: s) = b :: cstring s := by simp [cstring, hb]
        rw [hcons] at h ⊢
        rw [List.drop_succ_cons, List.drop_succ_cons]
        exact ih i (by simpa using h)

theorem strncpy_length (s : List UInt8) (n : ℕ) : (strncpy s n).length = n := by
  simp only [strncpy, List.length_append, List.length_take, List.length_replicate]
  omega

/-- The padding `strncpy` adds is what the zeroed packet holds there anyway. -/
theorem strncpy_getD (s : List UInt8) (n i : ℕ) :
    (strncpy s n).getD i 0 = ((cstring s).take n).getD i 0 := by
  by_cases h : i < ((cstring s).take n).length
  · simp [strncpy, List.getElem?_append_left h]
  · have hnone : ((cstring s).take n)[i]? = none := List.getElem?_eq_none (by omega)
    rw [strncpy, List.getD_eq_getElem?_getD, List.getD_eq_getElem?_getD,
      List.getElem?_append_right (by omega), hnone, List.getElem?_replicate]
    split <;> rfl

theorem sendStringFrag_calls (s : List UInt8) (size : ℕ) (c : ClientLib) :
    (sendStringFrag s size c).calls =
      c.calls ++ [.write c.fd (fragPacket ((cstring s).take size))] := by
  have hp : (sendStringFrag s size c).packet = fragPacket ((cstring s).take size) := by
    simp only [sendStringFrag, sendPacket]
    rw [BinPacket.store_header]
    refine BinPacket.ext rfl rfl rfl rfl (Vector.ext fun i hi => ?_)
    simp only [BinPacket.store_report, strncpy_length, fragPacket, Vector.getElem_ofFn]
    by_cases hin : i < size
    · rw [if_pos (by omega), Nat.sub_zero, strncpy_getD]
    · rw [if_neg (by omega)]
      have hnone : ((cstring s).take size)[i]? = none :=
        List.getElem?_eq_none (by rw [List.length_take]; omega)
      rw [List.getD_eq_getElem?_getD, hnone]
      simp [getPacket, BinPacket.zero]
  rw [← hp]
  rfl

theorem sendStrFrags_run (s : List UInt8) (frags sInd : ℕ) (c : ClientLib)
    (h : sInd + maxString * frags ≤ (cstring s).length) :
    (sendStrFrags s frags sInd c).1.fd = c.fd ∧
      (sendStrFrags s frags sInd c).2 = sInd + maxString * frags ∧
      (sendStrFrags s frags sInd c).1.calls = c.calls ++ (List.range frags).map fun k =>
        .write c.fd (fragPacket (((cstring s).drop (sInd + maxString * k)).take maxString)) := by
  induction frags generalizing sInd c with
  | zero => simp [sendStrFrags]
  | succ frags ih =>
    rw [Nat.mul_succ] at h
    obtain ⟨hfd, hind, hcalls⟩ :=
      ih (sInd + maxString) (sendStringFrag (s.drop sInd) maxString c) (by omega)
    rw [sendStrFrags]
    refine ⟨hfd, by rw [hind, Nat.mul_succ]; omega, ?_⟩
    rw [hcalls, sendStringFrag_calls, cstring_drop s sInd (by omega),
      List.range_succ_eq_map, List.map_cons, List.map_map, List.append_assoc]
    have hindex : ∀ k, sInd + maxString * (k + 1) = sInd + maxString + maxString * k := by
      intro k
      rw [Nat.mul_succ]
      omega
    simp only [Function.comp_def, hindex, Nat.mul_zero, Nat.add_zero, List.singleton_append]
    rfl

/-- `send_str_report` writes the blocks of its string, a packet each. -/
theorem sendStrReport_calls (s : List UInt8) (c : ClientLib) :
    (sendStrReport s c).calls = c.calls ++
      (blocks maxString (cstring s)).map fun frag => .write c.fd (fragPacket frag) := by
  have hsize : 0 + maxString * ((cstring s).length / maxString) ≤ (cstring s).length := by
    rw [Nat.zero_add]
    exact Nat.mul_div_le _ _
  obtain ⟨hfd, hind, hcalls⟩ := sendStrFrags_run s ((cstring s).length / maxString) 0 c hsize
  simp only [Nat.zero_add] at hcalls hind hsize
  rw [sendStrReport, blocks, fullBlocks, List.map_append, List.map_map, ← List.append_assoc]
  simp only [Function.comp_def, ← hcalls]
  split
  next hrem =>
    have hlt := Nat.mod_lt (cstring s).length (show 0 < maxString by decide)
    have hdiv := Nat.mod_add_div (cstring s).length maxString
    rw [sendStringFrag_calls, hind, hfd, cstring_drop s _ hsize,
      List.take_of_length_le (by rw [List.length_drop]), List.map_singleton]
  next => simp

theorem sendStrReport_fd (s : List UInt8) (c : ClientLib) : (sendStrReport s c).fd = c.fd := by
  have hfrags : ∀ frags sInd c, (sendStrFrags s frags sInd c).1.fd = c.fd := by
    intro frags
    induction frags with
    | zero => intro sInd c; rfl
    | succ frags ih => intro sInd c; exact ih _ _
  simp only [sendStrReport]
  split
  · exact hfrags _ _ _
  · exact hfrags _ _ _

/-! ## Calls in a session -/

/-- A call of one of the report functions. -/
inductive ClientCall where
  | mouse (x y buttons wheel : Int32)
  | gpad (x y z rx ry rz buttons : Int32)
  | asciiChar (ch mod : Int32)
  | rawChar (ch mod : Int32)
  | str (s : List UInt8)
  deriving DecidableEq, Repr

def ClientCall.run : ClientCall → ClientLib → ClientLib
  | .mouse x y buttons wheel => sendMouseReport x y buttons wheel
  | .gpad x y z rx ry rz buttons => sendGpadReport x y z rx ry rz buttons
  | .asciiChar ch mod => sendCharAsciiReport ch mod
  | .rawChar ch mod => sendCharRawReport ch mod
  | .str s => sendStrReport s

/-- The packets a call writes, whatever was sent before it. -/
def ClientCall.packets : ClientCall → List BinPacket
  | .mouse x y buttons wheel => [mousePacket x y buttons wheel]
  | .gpad x y z rx ry rz buttons => [gpadPacket x y z rx ry rz buttons]
  | .asciiChar ch mod => [letterPacket ch mod charAscii]
  | .rawChar ch mod => [letterPacket ch mod charRaw]
  | .str s => (blocks maxString (cstring s)).map fragPacket

def runCalls (calls : List ClientCall) (c : ClientLib) : ClientLib :=
  calls.foldl (fun c call => call.run c) c

theorem ClientCall.run_fd (call : ClientCall) (c : ClientLib) : (call.run c).fd = c.fd := by
  cases call with
  | str s => exact sendStrReport_fd s c
  | mouse | gpad | asciiChar | rawChar => rfl

theorem ClientCall.run_calls (call : ClientCall) (c : ClientLib) :
    (call.run c).calls = c.calls ++ call.packets.map (.write c.fd) := by
  cases call with
  | mouse x y buttons wheel => exact sendMouseReport_calls x y buttons wheel c
  | gpad x y z rx ry rz buttons => exact sendGpadReport_calls x y z rx ry rz buttons c
  | asciiChar ch mod => exact sendCharReport_calls ch mod charAscii c
  | rawChar ch mod => exact sendCharReport_calls ch mod charRaw c
  | str s =>
    rw [ClientCall.run, sendStrReport_calls, ClientCall.packets, List.map_map]
    rfl

theorem runCalls_fd (calls : List ClientCall) (c : ClientLib) : (runCalls calls c).fd = c.fd := by
  induction calls generalizing c with
  | nil => rfl
  | cons call calls ih => exact (ih (call.run c)).trans (call.run_fd c)

theorem runCalls_calls (calls : List ClientCall) (c : ClientLib) :
    (runCalls calls c).calls =
      c.calls ++ (calls.flatMap ClientCall.packets).map (.write c.fd) := by
  induction calls generalizing c with
  | nil => exact (List.append_nil _).symm
  | cons call calls ih =>
    have hrest := ih (call.run c)
    rw [call.run_calls c, call.run_fd c] at hrest
    rw [List.flatMap_cons, List.map_append, ← List.append_assoc]
    exact hrest

/-! ## What reaches the FIFO -/

theorem fifoPackets_writes (fds : List Int32) (fd : Int32) (h : fd ∈ fds)
    (packets : List BinPacket) (calls : List Syscall) :
    fifoPackets fds (packets.map (.write fd) ++ calls) = packets ++ fifoPackets fds calls := by
  induction packets with
  | nil => rfl
  | cons p packets ih =>
    rw [List.map_cons, List.cons_append, fifoPackets, if_pos h, ih]
    rfl

/-- Writes to a closed descriptor deliver nothing. -/
theorem fifoPackets_lost (fds : List Int32) (fd : Int32) (h : fd ∉ fds)
    (packets : List BinPacket) (calls : List Syscall) :
    fifoPackets fds (packets.map (.write fd) ++ calls) = fifoPackets fds calls := by
  induction packets with
  | nil => rfl
  | cons p packets ih => rw [List.map_cons, List.cons_append, fifoPackets, if_neg h, ih]

theorem fifoPackets_open (fds : List Int32) (opened : Int32) (h : opened ≠ -1)
    (calls : List Syscall) :
    fifoPackets fds (.open opened :: calls) = fifoPackets (opened :: fds) calls := by
  rw [fifoPackets, if_neg h]

theorem not_mem_close (fds : List Int32) (fd : Int32) : fd ∉ fds.filter (· ≠ fd) := by
  simp

end Android2Mouse.Source.HidpClientdlib
