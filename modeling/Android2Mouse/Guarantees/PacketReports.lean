import Android2Mouse.Guarantees.KeyTap

/-!
# What one packet sends

`packetReports p o` is what the loop body of `process_multi_bin` attempts for
the packet `p` when it starts from zeroed reports and its sends meet `o`. It is
given in closed form for each kind of packet, and `handlePacket_cases` says all
that an iteration can do besides.
-/
namespace Android2Mouse.Guarantees.PacketReports
open Library Source.ComboConn Source.Hidp Source.AsciiMap KeyTap TapNeutral

/-- What one packet makes the daemon attempt, when its own sends meet `o`. -/
def packetReports (p : BinPacket) (o : Outcomes) : List Payload :=
  (handlePacket (.entry p)).attempts o

/-- The packet asks the daemon to stop. -/
def IsShutdown (p : BinPacket) : Prop :=
  p.reportId = sysRepId ∧ p.flags &&& hcrShutdown ≠ 0

instance : DecidablePred IsShutdown := fun p =>
  inferInstanceAs (Decidable (p.reportId = sysRepId ∧ p.flags &&& hcrShutdown ≠ 0))

/-- The mouse report of a packet. -/
def mouseReport (p : BinPacket) : MouseReport :=
  ⟨mouseRepId, p.mouse.buttons, p.mouse.x, p.mouse.y, p.mouse.wheel⟩

/-- The gamepad report of a packet. -/
def gamepadReport (p : BinPacket) : GamepadReport :=
  let g := p.gamepad
  ⟨gpadRepId, g.buttons, g.x, g.y, g.z, g.rx, g.ry, g.rz⟩

/-- A send that ends the iteration, with the invocation when it fails. -/
def sendOrError (data : List UInt8) (good bad : Locals) :
    Attempt Payload (Locals × Option Method) :=
  .send (inputPayload data) fun ok => .done (if ok then (good, none) else (bad, some .error))

theorem sendInputRep_sendOrError (data : List UInt8) (good bad : Locals) :
    (sendInputRep data >>= fun sent =>
      if sent = -1 then (.done (bad, some .error)) else .done (good, none)) =
      sendOrError data good bad := by
  rw [sendInputRep_bind, sendOrError]
  congr 1
  funext ok
  simp only [sent_eq_neg_one_iff]
  cases ok <;> rfl

theorem handleMouse_entry (p : BinPacket) :
    handleMouse (.entry p) = sendOrError (mouseReport p).bytes (.entry p)
      { Locals.entry p with mouse := mouseReport p } :=
  sendInputRep_sendOrError _ _ _

theorem handleGpad_entry (p : BinPacket) :
    handleGpad (.entry p) = sendOrError (gamepadReport p).bytes (.entry p)
      { Locals.entry p with gpad := gamepadReport p } :=
  sendInputRep_sendOrError _ _ _

/-- The program sends what it likes and then goes on with zeroed reports. -/
def Restores (prog : Attempt Payload (Locals × Option Method)) : Prop :=
  ∃ (β : Type) (q : Attempt Payload β) (p : BinPacket),
    prog = q >>= fun _ => .done (.entry p, none)

/-- The program makes one send and, when that fails, leaves the invocation. -/
def SendsOnce (p : BinPacket) (prog : Attempt Payload (Locals × Option Method)) : Prop :=
  ∃ (data : List UInt8) (bad : Locals), prog = sendOrError data (.entry p) bad

theorem handleString_restores (p : BinPacket) : Restores (handleString (.entry p)) :=
  ⟨_, _, _, rfl⟩

theorem handleLetter_restores (p : BinPacket) : Restores (handleLetter (.entry p)) := by
  unfold handleLetter
  split
  · exact ⟨_, _, p, rfl⟩
  · split
    · exact ⟨_, _, p, rfl⟩
    · exact ⟨_, _, p, rfl⟩

theorem handleKeys_sendsOnce (p : BinPacket) : SendsOnce p (handleKeys (.entry p)) :=
  ⟨_, _, sendInputRep_sendOrError _ _ _⟩

theorem handleKbd_cases (p : BinPacket) :
    Restores (handleKbd (.entry p)) ∨ SendsOnce p (handleKbd (.entry p)) := by
  unfold handleKbd
  split
  · exact Or.inl (handleString_restores p)
  · split
    · exact Or.inl (handleLetter_restores p)
    · exact Or.inr (handleKeys_sendsOnce p)

/-! ## The kinds of packets -/

theorem handlePacket_kbd (p : BinPacket) (h : p.reportId = kbdRepId) :
    handlePacket (.entry p) = handleKbd (.entry p) := by
  have hid : (Locals.entry p).packet.reportId = kbdRepId := h
  rw [handlePacket, if_pos hid]

theorem handlePacket_gpad (p : BinPacket) (h : p.reportId = gpadRepId) :
    handlePacket (.entry p) = handleGpad (.entry p) := by
  have hid : (Locals.entry p).packet.reportId = gpadRepId := h
  rw [handlePacket, hid, if_neg (by decide), if_pos rfl]

theorem handlePacket_mouse (p : BinPacket) (h : p.reportId = mouseRepId) :
    handlePacket (.entry p) = handleMouse (.entry p) := by
  have hid : (Locals.entry p).packet.reportId = mouseRepId := h
  rw [handlePacket, hid, if_neg (by decide), if_neg (by decide), if_pos rfl]

theorem handlePacket_sys (p : BinPacket) (h : p.reportId = sysRepId) :
    handlePacket (.entry p) = handleSys (.entry p) := by
  have hid : (Locals.entry p).packet.reportId = sysRepId := h
  rw [handlePacket, hid, if_neg (by decide), if_neg (by decide), if_neg (by decide), if_pos rfl]

theorem handlePacket_unknown (p : BinPacket) (hk : p.reportId ≠ kbdRepId)
    (hg : p.reportId ≠ gpadRepId) (hm : p.reportId ≠ mouseRepId) (hs : p.reportId ≠ sysRepId) :
    handlePacket (.entry p) = .done (.entry p, none) := by
  have hpacket : (Locals.entry p).packet = p := rfl
  rw [handlePacket, hpacket, if_neg hk, if_neg hg, if_neg hm, if_neg hs]

/-- Everything an iteration can do from zeroed reports. -/
theorem handlePacket_cases (p : BinPacket) :
    (¬ IsShutdown p ∧ Restores (handlePacket (.entry p))) ∨
    (¬ IsShutdown p ∧ SendsOnce p (handlePacket (.entry p))) ∨
    (IsShutdown p ∧ handlePacket (.entry p) = .done (.entry p, some .shutdown)) := by
  have notSys : p.reportId ≠ sysRepId → ¬ IsShutdown p := fun h hs => h hs.1
  by_cases hk : p.reportId = kbdRepId
  · have hns : ¬ IsShutdown p := notSys (by rw [hk]; decide)
    rw [handlePacket_kbd p hk]
    rcases handleKbd_cases p with h | h
    · exact Or.inl ⟨hns, h⟩
    · exact Or.inr (Or.inl ⟨hns, h⟩)
  by_cases hg : p.reportId = gpadRepId
  · have hns : ¬ IsShutdown p := notSys (by rw [hg]; decide)
    rw [handlePacket_gpad p hg]
    exact Or.inr (Or.inl ⟨hns, _, _, handleGpad_entry p⟩)
  by_cases hm : p.reportId = mouseRepId
  · have hns : ¬ IsShutdown p := notSys (by rw [hm]; decide)
    rw [handlePacket_mouse p hm]
    exact Or.inr (Or.inl ⟨hns, _, _, handleMouse_entry p⟩)
  by_cases hs : p.reportId = sysRepId
  · rw [handlePacket_sys p hs, handleSys]
    by_cases hf : p.flags &&& hcrShutdown ≠ 0
    · exact Or.inr (Or.inr ⟨⟨hs, hf⟩, if_pos hf⟩)
    · exact Or.inl ⟨fun h => hf h.2, Unit, .done (), p, if_neg hf⟩
  · rw [handlePacket_unknown p hk hg hm hs]
    exact Or.inl ⟨notSys hs, Unit, .done (), p, rfl⟩

/-- How an iteration ends: it goes on with zeroed reports, or leaves the
invocation after a failed send, or it met a shutdown packet and sent nothing. -/
theorem handlePacket_ends (p : BinPacket) (o : Outcomes) :
    (¬ IsShutdown p ∧ ((∃ p', (handlePacket (.entry p)).result o = (.entry p', none)) ∨
      ∃ s, (handlePacket (.entry p)).result o = (s, some .error))) ∨
    (IsShutdown p ∧ packetReports p o = [] ∧
      (handlePacket (.entry p)).result o = (.entry p, some .shutdown)) := by
  rcases handlePacket_cases p with ⟨hns, β, q, p', h⟩ | ⟨hns, data, bad, h⟩ | ⟨hs, h⟩
  · refine Or.inl ⟨hns, Or.inl ⟨p', ?_⟩⟩
    rw [h, Attempt.result_bind]
    rfl
  · refine Or.inl ⟨hns, ?_⟩
    rw [h]
    cases hok : o 0 with
    | true => exact Or.inl ⟨p, by simp [sendOrError, hok]⟩
    | false => exact Or.inr ⟨bad, by simp [sendOrError, hok]⟩
  · refine Or.inr ⟨hs, ?_, ?_⟩
    · rw [packetReports, h]
      rfl
    · rw [h]
      rfl

/-! ## Closed forms -/

theorem packetReports_mouse (p : BinPacket) (h : p.reportId = mouseRepId) (o : Outcomes) :
    packetReports p o = [inputPayload (mouseReport p).bytes] := by
  rw [packetReports, handlePacket_mouse p h, handleMouse_entry]
  rfl

theorem packetReports_gpad (p : BinPacket) (h : p.reportId = gpadRepId) (o : Outcomes) :
    packetReports p o = [inputPayload (gamepadReport p).bytes] := by
  rw [packetReports, handlePacket_gpad p h, handleGpad_entry]
  rfl

theorem handleLetter_raw (s : Locals) (h : s.packet.flags2 &&& charRaw ≠ 0) :
    handleLetter s = sendCharRaw s.kbd s.packet.letter.c (intToUInt8 s.packet.letter.mods) >>=
      fun _ => .done ({ s with kbd := .zero }, none) :=
  if_pos h

/-- A raw character is one tap, also when its press is not taken. -/
theorem packetReports_raw (p : BinPacket) (h : p.reportId = kbdRepId)
    (hstring : p.flags &&& brptString = 0) (hchar : p.flags &&& brptChar ≠ 0)
    (hraw : p.flags2 &&& charRaw ≠ 0) (o : Outcomes) :
    packetReports p o = tapPayloads p.letter.c (intToUInt8 p.letter.mods) := by
  have hpacket : (Locals.entry p).packet = p := rfl
  have htap : (Locals.entry p).kbd = .zero := rfl
  rw [packetReports, handlePacket_kbd p h, handleKbd, hpacket, if_neg (fun hs => hs hstring),
    if_pos hchar, handleLetter_raw _ hraw, Attempt.attempts_bind, htap, sendCharRaw_idle]
  rfl

theorem handleLetter_ascii (s : Locals) (h : ¬ s.packet.flags2 &&& charRaw ≠ 0) :
    handleLetter s = sendCharAscii s.kbd s.packet.letter.c (intToUInt8 s.packet.letter.mods) >>=
      fun _ => .done ({ s with kbd := .zero }, none) := by
  unfold handleLetter
  simp only [if_neg h, ite_self]
  rfl

/-- An ASCII character is one tap, or nothing past the end of the table. -/
theorem packetReports_ascii (p : BinPacket) (h : p.reportId = kbdRepId)
    (hstring : p.flags &&& brptString = 0) (hchar : p.flags &&& brptChar ≠ 0)
    (hascii : p.flags2 &&& charRaw = 0) (o : Outcomes) :
    packetReports p o = [] ∨ ∃ key modifier, packetReports p o = tapPayloads key modifier := by
  have hpacket : (Locals.entry p).packet = p := rfl
  have htap : (Locals.entry p).kbd = .zero := rfl
  rw [packetReports, handlePacket_kbd p h, handleKbd, hpacket, if_neg (fun hs => hs hstring),
    if_pos hchar, handleLetter_ascii _ (fun hr => hr hascii), Attempt.attempts_bind, htap]
  by_cases hmap : p.letter.c.toNat < kbdAsciimap.length
  · rw [hpacket, sendCharAscii_mapped _ _ _ hmap, sendCharRaw_idle]
    exact Or.inr ⟨_, _, rfl⟩
  · rw [hpacket, sendCharAscii_unmapped _ _ _ hmap]
    exact Or.inl rfl

/-- A string packet taken whole types the bytes before its first NUL, the last
byte of the field counting as one. -/
theorem packetReports_string (p : BinPacket) (h : p.reportId = kbdRepId)
    (hstring : p.flags &&& brptString ≠ 0) :
    packetReports p .allSucceed =
      (cstring (p.report.set 15 0).toList).flatMap charPayloads := by
  have hpacket : (Locals.entry p).packet = p := rfl
  rw [packetReports, handlePacket_kbd p h, handleKbd, hpacket, if_pos hstring]
  unfold handleString
  rw [Attempt.attempts_bind]
  exact (List.append_nil _).trans (sendString_idle _).1

end Android2Mouse.Guarantees.PacketReports
