import Android2Mouse.Library.Attempt

/-!
# The interrupt channel (`hidp.c`, `hidp.h`)

`send_hidp_pkt` hands the socket one packet, the header byte followed by the
data, and returns what `send` returned: the length, or -1. The socket is a
SEQPACKET socket, so a packet is taken whole or not at all; which of the two
happens is the environment's answer to the attempt.
-/
namespace Android2Mouse.Source.Hidp
open Library

/-- One packet on the interrupt channel. -/
abbrev Payload := List UInt8

def hidpMsgtData : UInt8 := 10
def reptInput : UInt8 := 1

/-- `hidp_hdr_build(t, p)` -/
def hidpHdrBuild (t p : UInt8) : UInt8 := ((t <<< 4) &&& 0xf0) ||| (p &&& 0x0f)

def sendHidpPkt (hdr : UInt8) (data : List UInt8) : Attempt Payload Int := do
  let ok ← Attempt.attempt (hdr :: data)
  return if ok then (data.length + 1 : ℕ) else -1

def sendHidpReport (type : UInt8) (data : List UInt8) : Attempt Payload Int :=
  sendHidpPkt (hidpHdrBuild hidpMsgtData (type &&& 0x3)) data

/-- `send_input_rep(rep)`, for a report with object representation `data`. -/
def sendInputRep (data : List UInt8) : Attempt Payload Int := sendHidpReport reptInput data

/-- `send_mouse_rep` of `hidp_clientd.c`, the report of a stand-alone mouse. -/
def sendMouseRep (b x y w : UInt8) : Attempt Payload Int :=
  sendHidpReport reptInput [1, b, x, y, w]

/-- The packet of an input report. -/
def inputPayload (data : List UInt8) : Payload := 0xA1 :: data

/-- One attempt, and -1 exactly when it failed. -/
theorem sendInputRep_bind {α : Type} (data : List UInt8) (f : Int → Attempt Payload α) :
    sendInputRep data >>= f =
      .send (inputPayload data) fun ok => f (if ok then (data.length + 1 : ℕ) else -1) := rfl

theorem sent_eq_neg_one_iff (ok : Bool) (data : List UInt8) :
    (if ok then ((data.length + 1 : ℕ) : Int) else -1) = -1 ↔ ok = false := by
  cases ok
  · simp
  · simp only [if_true, Bool.true_eq_false, iff_false]
    omega

end Android2Mouse.Source.Hidp
