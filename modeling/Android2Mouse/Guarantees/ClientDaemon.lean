import Android2Mouse.Guarantees.Session

/-!
# Client library and daemon agree

For the calls whose packet is one report, what the host receives is written
down from the arguments alone, as bytes modulo `2 ^ 8` and `2 ^ 16`
(`PlainCall.payloads`). `client_daemon_agree` is about every session of such
calls.

A displacement is narrowed the same way, which is not what its declared range
asks for: `keepsDirection_iff` says for which `int`s the byte still points
where the argument did.
-/
namespace Android2Mouse.Guarantees.ClientDaemon
open Library Source.ComboConn Source.Hidp Source.HidpClientdlib
open KeyTap PacketReports Session

/-! ## Arguments as bytes -/

def lowByte (v : Int) : UInt8 := .ofNat (v % 2 ^ 8).toNat

def highByte (v : Int) : UInt8 := .ofNat (v % 2 ^ 16 / 2 ^ 8).toNat

theorem toInt_toUInt32 (v : Int32) : (v.toUInt32.toNat : Int) = v.toInt % 2 ^ 32 := by
  have hcond := BitVec.toInt_eq_toNat_cond v.toBitVec
  have hlt := v.toUInt32.toNat_lt
  have hint : v.toInt = v.toBitVec.toInt := rfl
  have hnat : v.toUInt32.toNat = v.toBitVec.toNat := rfl
  omega

theorem intToUInt8_eq (v : Int32) : intToUInt8 v = lowByte v.toInt := by
  have hv := toInt_toUInt32 v
  apply UInt8.toNat_inj.mp
  rw [intToUInt8, UInt32.toNat_toUInt8, lowByte, UInt8.toNat_ofNat']
  omega

theorem toInt8_toUInt8_eq (v : Int32) : v.toInt8.toUInt8 = lowByte v.toInt := by
  rw [← intToUInt8_eq]
  apply UInt8.toBitVec_inj.mp
  exact (Int32.toBitVec_toInt8 v).trans (BitVec.signExtend_eq_setWidth_of_le _ (by decide))

theorem le16Bytes_intToUInt16 (v : Int32) :
    le16Bytes (intToUInt16 v) = [lowByte v.toInt, highByte v.toInt] := by
  have hv := toInt_toUInt32 v
  have h8 : (8 : UInt16).toNat % 16 = 8 := by decide
  have hlow : (intToUInt16 v).toUInt8 = lowByte v.toInt := by
    apply UInt8.toNat_inj.mp
    rw [intToUInt16, UInt16.toNat_toUInt8, UInt32.toNat_toUInt16, lowByte, UInt8.toNat_ofNat']
    omega
  have hhigh : (intToUInt16 v >>> 8).toUInt8 = highByte v.toInt := by
    apply UInt8.toNat_inj.mp
    rw [intToUInt16, UInt16.toNat_toUInt8, UInt16.toNat_shiftRight, h8,
      Nat.shiftRight_eq_div_pow, UInt32.toNat_toUInt16, highByte, UInt8.toNat_ofNat']
    omega
  rw [le16Bytes, hlow, hhigh]

/-! ## Agreement over a session -/

/-- The calls that stand for one report or one tap. -/
inductive PlainCall where
  | mouse (x y buttons wheel : Int32)
  | gpad (x y z rx ry rz buttons : Int32)
  | rawChar (ch mod : Int32)
  deriving DecidableEq, Repr

def PlainCall.call : PlainCall → ClientCall
  | .mouse x y buttons wheel => .mouse x y buttons wheel
  | .gpad x y z rx ry rz buttons => .gpad x y z rx ry rz buttons
  | .rawChar ch mod => .rawChar ch mod

/-- What a call means on the interrupt channel. -/
def PlainCall.payloads : PlainCall → List Payload
  | .mouse x y b w =>
    [[0xA1, 0x02, lowByte b.toInt, lowByte x.toInt, lowByte y.toInt, lowByte w.toInt]]
  | .gpad x y z rx ry rz b =>
    [[0xA1, 0x03, lowByte b.toInt, highByte b.toInt, lowByte x.toInt, lowByte y.toInt,
      lowByte z.toInt, lowByte rx.toInt, lowByte ry.toInt, lowByte rz.toInt]]
  | .rawChar ch mod =>
    [[0xA1, 0x01, lowByte mod.toInt, 0, lowByte ch.toInt, 0, 0, 0, 0, 0],
      [0xA1, 0x01, 0, 0, 0, 0, 0, 0, 0, 0]]

theorem callPayloads_plain (call : PlainCall) : callPayloads call.call = call.payloads := by
  cases call with
  | mouse x y b w =>
    simp only [PlainCall.call, callPayloads_mouse, MouseReport.bytes, intToUInt8_eq,
      toInt8_toUInt8_eq]
    rfl
  | gpad x y z rx ry rz b =>
    simp only [PlainCall.call, callPayloads_gpad, GamepadReport.bytes, le16Bytes_intToUInt16,
      toInt8_toUInt8_eq]
    rfl
  | rawChar ch mod =>
    simp only [PlainCall.call, callPayloads_raw, intToUInt8_eq]
    rfl

/-- Every session of plain calls, whatever the statics of the library and the
daemon's buffer held before: the host receives the meaning of each call in
order and nothing else, and then the daemon exits. -/
theorem client_daemon_agree (opened : Descriptor) (packet : BinPacket) (fd : Int32)
    (calls : List PlainCall)
    (d : Delivery (fifoPackets []
      (endSession (runCalls (calls.map PlainCall.call) (openSession opened packet fd))).calls)) :
    d.payloads = calls.flatMap PlainCall.payloads ∧ ∃ left, d.daemon = .exited left := by
  revert d
  rw [endSession_packets]
  intro d
  have hplain : (calls.map PlainCall.call).flatMap callPayloads =
      calls.flatMap PlainCall.payloads := by
    rw [List.flatMap_map]
    exact congrArg (calls.flatMap ·) (funext callPayloads_plain)
  rw [← hplain]
  exact closed_session_payloads _ [] d

/-! ## Displacements -/

/-- The descriptor's logical range of an axis. -/
def InRange (d : Int) : Prop := -127 ≤ d ∧ d ≤ 127

def SameSign (d d' : Int) : Prop := (0 < d ↔ 0 < d') ∧ (d < 0 ↔ d' < 0)

/-- The reported `d'` does justice to the displacement `d`. -/
def KeepsDirection (d d' : Int) : Prop :=
  (InRange d → d' = d) ∧ (¬ InRange d → SameSign d d' ∧ InRange d')

/-- The displacement fits, or the byte it is cut down to happens to be a
positive, respectively a negative one of the range. -/
def NarrowsWell (d : Int) : Prop :=
  InRange d ∨ (127 < d ∧ 1 ≤ d % 256 ∧ d % 256 ≤ 127) ∨ (d < -127 ∧ 129 ≤ d % 256)

theorem keepsDirection_iff (d : Int32) :
    KeepsDirection d.toInt d.toInt8.toInt ↔ NarrowsWell d.toInt := by
  simp only [KeepsDirection, NarrowsWell, SameSign, InRange, toInt_toInt8]
  split
  · omega
  · omega

/-- On each of the nine fields, after any earlier calls, the reported byte does
justice to the displacement exactly when the displacement narrows well. -/
theorem motion_direction_iff (opened : Descriptor) (packet : BinPacket) (fd : Int32)
    (before : List ClientCall) :
    (∀ (x y buttons wheel : Int32)
      (d : Delivery (fifoPackets [] (runCalls (before ++ [.mouse x y buttons wheel])
        (openSession opened packet fd)).calls)),
      ∃ r : MouseReport, d.payloads = before.flatMap callPayloads ++ [inputPayload r.bytes] ∧
        (KeepsDirection x.toInt r.x.toInt ↔ NarrowsWell x.toInt) ∧
        (KeepsDirection y.toInt r.y.toInt ↔ NarrowsWell y.toInt) ∧
        (KeepsDirection wheel.toInt r.wheel.toInt ↔ NarrowsWell wheel.toInt)) ∧
    (∀ (x y z rx ry rz buttons : Int32)
      (d : Delivery (fifoPackets [] (runCalls (before ++ [.gpad x y z rx ry rz buttons])
        (openSession opened packet fd)).calls)),
      ∃ r : GamepadReport, d.payloads = before.flatMap callPayloads ++ [inputPayload r.bytes] ∧
        (KeepsDirection x.toInt r.x.toInt ↔ NarrowsWell x.toInt) ∧
        (KeepsDirection y.toInt r.y.toInt ↔ NarrowsWell y.toInt) ∧
        (KeepsDirection z.toInt r.z.toInt ↔ NarrowsWell z.toInt) ∧
        (KeepsDirection rx.toInt r.rx.toInt ↔ NarrowsWell rx.toInt) ∧
        (KeepsDirection ry.toInt r.ry.toInt ↔ NarrowsWell ry.toInt) ∧
        (KeepsDirection rz.toInt r.rz.toInt ↔ NarrowsWell rz.toInt)) := by
  constructor
  · intro x y buttons wheel
    rw [session_packets]
    intro d
    refine ⟨⟨mouseRepId, intToUInt8 buttons, x.toInt8, y.toInt8, wheel.toInt8⟩, ?_,
      keepsDirection_iff x, keepsDirection_iff y, keepsDirection_iff wheel⟩
    rw [session_payloads, List.flatMap_append, List.flatMap_singleton, callPayloads_mouse]
  · intro x y z rx ry rz buttons
    rw [session_packets]
    intro d
    refine ⟨⟨gpadRepId, intToUInt16 buttons, x.toInt8, y.toInt8, z.toInt8, rx.toInt8, ry.toInt8,
      rz.toInt8⟩, ?_, keepsDirection_iff x, keepsDirection_iff y, keepsDirection_iff z,
      keepsDirection_iff rx, keepsDirection_iff ry, keepsDirection_iff rz⟩
    rw [session_payloads, List.flatMap_append, List.flatMap_singleton, callPayloads_gpad]

/-- A swipe of 200 to the right is reported as 56 to the left. -/
theorem fast_swipe_reversed :
    ¬ ∀ (opened : Descriptor) (packet : BinPacket) (fd x y buttons wheel : Int32)
      (d : Delivery (fifoPackets [] (runCalls [.mouse x y buttons wheel]
        (openSession opened packet fd)).calls)),
      ∃ r : MouseReport, d.payloads = [inputPayload r.bytes] ∧
        KeepsDirection x.toInt r.x.toInt := by
  intro h
  obtain ⟨r, hr, hkeeps⟩ := h ⟨3, by decide⟩ .zero 0 200 0 0 0 (.plain _)
  have hsent : (Delivery.plain (fifoPackets [] (runCalls [.mouse 200 0 0 0]
      (openSession ⟨3, by decide⟩ .zero 0)).calls)).payloads =
      [[0xA1, 2, 0, 200, 0, 0]] := by
    decide
  rw [hsent] at hr
  have hx : (200 : UInt8) = r.x.toUInt8 := by
    injection hr with hr
    injection hr with _ hr
    injection hr with _ hr
    injection hr with _ hr
    injection hr with hx _
  have hback : r.x = -56 := by
    have h8 : r.x.toUInt8.toInt8 = r.x := rfl
    rw [← h8, ← hx]
    decide
  have hout : ¬ InRange (200 : Int32).toInt := by
    unfold InRange
    decide
  rw [hback] at hkeeps
  exact absurd ((hkeeps.2 hout).1.1.mp (by decide)) (by decide)

end Android2Mouse.Guarantees.ClientDaemon
