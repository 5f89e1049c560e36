import Android2Mouse.Guarantees.PacketReports
import Android2Mouse.Source.CheckedConn

/-!
# No packet derails the daemon

With every access checked, the packet loop is the packet loop without checks: no
index is out of range, whatever the packets and the locals they meet
(`processMultiBin_runs`). So what one packet sends can be read off the plain
functions, and `packet_safe` bounds it for every packet.
-/
namespace Android2Mouse.Guarantees.PacketSafety
open Library Library.Checked Source.CheckedConn Source.Hidp Source.AsciiMap
open Source.ComboConn (KeyboardReport MouseReport GamepadReport BinPacket Locals Method ReadResult
  kbdRepId mouseRepId gpadRepId sysRepId brptString brptChar charRaw maxString cstring)
open KeySlots TapNeutral KeyTap PacketReports

/-! ## Keyboard report -/

theorem finRange_slots : slots = (List.finRange 6).map Fin.val := rfl

theorem sendKbd_runs (kbd : KeyboardReport) : Runs (sendKbd kbd) (Source.ComboConn.sendKbd kbd) := by
  unfold sendKbd
  rw [finRange_slots]
  exact Runs.step (readAll_runs OutOfRange.keycodes kbd.keycodes (List.finRange 6)) (Runs.lift _)

theorem noneHolds_slots (keycodes : Vector UInt8 6) (keycode : UInt8) :
    Runs (noneHolds .keycodes keycodes keycode slots : Checked OutOfRange Payload Bool)
      (.done (decide ¬ SlotTable.Has keycodes keycode)) := by
  have hall : ((List.finRange 6).all fun i => decide (keycodes[i] ≠ keycode)) =
      decide ¬ SlotTable.Has keycodes keycode := by
    rw [List.all_eq_not_any_not, decide_not]
    congr 1
    rw [Bool.eq_iff_iff, List.any_eq_true, decide_eq_true_iff]
    simp [SlotTable.Has]
  rw [finRange_slots, ← hall]
  exact noneHolds_runs OutOfRange.keycodes keycodes keycode (List.finRange 6)

/-- The loop over the slots stops at the first slot with the old value. -/
theorem replaceLoop_slots (keycodes : Vector UInt8 6) (old new : UInt8) :
    Runs (replaceLoop .keycodes keycodes old new 6 0 :
        Checked OutOfRange Payload (Vector UInt8 6 × ℕ))
      (.done (replaced keycodes new (Source.ComboConn.firstSlot keycodes old))) :=
  replaceLoop_runs OutOfRange.keycodes keycodes old new 6 0 rfl

theorem pressKbdChar_runs (kbd : KeyboardReport) (keycode modifier : UInt8) :
    Runs (pressKbdChar kbd keycode modifier)
      (Source.ComboConn.pressKbdChar kbd keycode modifier) := by
  rw [pressKbdChar_eq]
  unfold pressKbdChar pressed
  refine Runs.step (noneHolds_slots kbd.keycodes keycode) ?_
  by_cases hpresent : SlotTable.Has kbd.keycodes keycode
  · have hkept : ¬ Rejected kbd keycode := fun h => h.1 hpresent
    rw [decide_eq_false (not_not_intro hpresent), if_neg hkept,
      SlotTable.insert_present 0 hpresent]
    exact sendKbd_runs _
  · rw [decide_eq_true hpresent]
    refine Runs.step (replaceLoop_slots kbd.keycodes 0 keycode) ?_
    cases hfirst : Source.ComboConn.firstSlot kbd.keycodes 0 with
    | none =>
      rw [if_pos ((rejected_iff kbd keycode).mpr ⟨hpresent, hfirst⟩)]
      exact Runs.pure _
    | some i =>
      have hkept : ¬ Rejected kbd keycode := fun h => by
        have hnone := ((rejected_iff kbd keycode).mp h).2
        rw [hfirst] at hnone
        cases hnone
      have hfound : ¬ i.val = 6 := Nat.ne_of_lt i.isLt
      rw [if_neg hkept, SlotTable.insert_free 0 hpresent hfirst]
      exact (if_neg hfound).trans (sendKbd_runs _)

theorem releaseKbdChar_runs (kbd : KeyboardReport) (keycode modifier : UInt8) :
    Runs (releaseKbdChar kbd keycode modifier)
      (Source.ComboConn.releaseKbdChar kbd keycode modifier) := by
  unfold releaseKbdChar Source.ComboConn.releaseKbdChar
  refine Runs.ite (fun _ => ?_) fun _ => sendKbd_runs _
  refine Runs.step (replaceLoop_slots kbd.keycodes keycode 0) ?_
  cases Source.ComboConn.firstSlot kbd.keycodes keycode with
  | none => exact sendKbd_runs _
  | some i => exact sendKbd_runs _

theorem sendCharRaw_runs (kbd : KeyboardReport) (key modifier : UInt8) :
    Runs (sendCharRaw kbd key modifier) (Source.ComboConn.sendCharRaw kbd key modifier) :=
  Runs.bind (pressKbdChar_runs kbd key modifier) fun (kbd, _) =>
    Runs.bind (releaseKbdChar_runs kbd key modifier) fun _ => Runs.pure _

/-- The test against the length that the caller gives is the test of the access. -/
theorem sendCharDecode_runs (kbd : KeyboardReport) (keycode modifier : UInt8) (map : List UInt8) :
    Runs (sendCharDecode kbd keycode modifier map map.length)
      (Source.ComboConn.sendCharDecode kbd keycode modifier map) := by
  unfold sendCharDecode Source.ComboConn.sendCharDecode
  by_cases hmap : keycode.toNat < map.length
  · rw [if_pos hmap, dif_pos hmap]
    refine Runs.step (getList_runs OutOfRange.map map keycode.toNat hmap) ?_
    exact Runs.ite (fun _ => sendCharRaw_runs _ _ _) fun _ => sendCharRaw_runs _ _ _
  · rw [if_neg hmap, dif_neg hmap]
    exact Runs.pure _

theorem sendCharAscii_runs (kbd : KeyboardReport) (keycode modifier : UInt8) :
    Runs (sendCharAscii kbd keycode modifier)
      (Source.ComboConn.sendCharAscii kbd keycode modifier) :=
  sendCharDecode_runs kbd keycode modifier kbdAsciimap

/-! ## The string -/

/-- From index `i` the loop sends the bytes up to its bound. -/
theorem sendString_runs (string : Vector UInt8 16) (left i : ℕ) (kbd : KeyboardReport)
    (h : i + left ≤ 16) :
    Runs (sendString string left i kbd)
      (Source.ComboConn.sendString kbd ((string.toList.drop i).take left) >>= fun sent =>
        .done (sent.1, i + sent.2)) := by
  induction left generalizing i kbd with
  | zero => exact Runs.pure _
  | succ left ih =>
    have hi : i < 16 := by omega
    have hdrop : (string.toList.drop i).take (left + 1) =
        string.get ⟨i, hi⟩ :: (string.toList.drop (i + 1)).take left := by
      rw [List.drop_eq_getElem_cons (by rwa [Vector.length_toList]), List.take_succ_cons,
        Vector.getElem_toList]
      rfl
    rw [hdrop, Source.ComboConn.sendString, Attempt.bind_assoc]
    refine Runs.step (get_runs OutOfRange.string string i hi) ?_
    refine Runs.bind (sendCharAscii_runs kbd (string.get ⟨i, hi⟩) 0) fun typed => ?_
    obtain ⟨kbd, r⟩ := typed
    by_cases hr : r ≠ 0
    · simp only [if_pos hr]
      exact Runs.pure _
    · simp only [if_neg hr]
      have hrest := ih (i + 1) kbd (by omega)
      have hcount : ∀ k, i + 1 + k = i + (k + 1) := fun k => by omega
      simp only [hcount] at hrest
      rw [Attempt.bind_assoc]
      exact hrest

/-- With a NUL in the last byte, `strlen` stays in the array. -/
theorem strlen_runs (s : Vector UInt8 16) (hlast : s.get 15 = 0) (left i : ℕ)
    (h : i + left = 16) (pos : 0 < left) :
    Runs (strlen s left i) (.done (i + (cstring (s.toList.drop i)).length)) := by
  induction left generalizing i with
  | zero => exact absurd pos (Nat.lt_irrefl 0)
  | succ left ih =>
    have hi : i < 16 := by omega
    have hdrop : s.toList.drop i = s.get ⟨i, hi⟩ :: s.toList.drop (i + 1) := by
      rw [List.drop_eq_getElem_cons (by rwa [Vector.length_toList]), Vector.getElem_toList]
      rfl
    rw [hdrop, cstring]
    refine Runs.step (get_runs OutOfRange.string s i hi) ?_
    by_cases hnul : s.get ⟨i, hi⟩ = 0
    · rw [if_pos hnul, List.takeWhile_cons_of_neg (by simpa using hnul)]
      exact Runs.pure _
    · -- the last byte is a NUL, so this was not the last
      have hmore : 0 < left := by
        by_contra hnone
        obtain rfl : i = 15 := by omega
        exact hnul hlast
      have hcount : i + 1 + (cstring (s.toList.drop (i + 1))).length =
          i + ((cstring (s.toList.drop (i + 1))).length + 1) := by omega
      rw [if_neg hnul, List.takeWhile_cons_of_pos (by simpa using hnul), List.length_cons, ← cstring,
        ← hcount]
      exact ih (i + 1) (by omega) hmore

theorem take_cstring_length (s : List UInt8) : s.take (cstring s).length = cstring s :=
  (List.prefix_iff_eq_take.mp (List.takeWhile_prefix _)).symm

theorem handleString_runs (s : Locals) :
    Runs (handleString s) (Source.ComboConn.handleString s) := by
  let packet : BinPacket :=
    { s.packet with report := s.packet.report.set (maxString - 1) 0 (by decide) }
  let string := cstring packet.string.toList
  have hplain : Source.ComboConn.handleString s =
      (Source.ComboConn.sendString s.kbd ((packet.string.toList.drop 0).take string.length) >>=
        fun sent => .done (sent.1, 0 + sent.2)) >>= fun _ =>
          .done ({ s with kbd := .zero, packet }, none) := by
    rw [Attempt.bind_assoc, List.drop_zero, take_cstring_length]
    rfl
  have hlen : string.length ≤ 16 := by
    have hsub := (List.takeWhile_sublist (· ≠ (0 : UInt8)) (l := packet.string.toList)).length_le
    rwa [Vector.length_toList] at hsub
  rw [hplain]
  refine Runs.step (set_runs OutOfRange.string s.packet.string (maxString - 1) 0 (by decide)) ?_
  refine Runs.step (strlen_runs packet.string ?_ maxString 0 rfl (by decide)) ?_
  · exact Vector.getElem_set_self _
  · rw [List.drop_zero, Nat.zero_add]
    refine Runs.bind (sendString_runs packet.string string.length 0 s.kbd ?_) fun _ => Runs.pure _
    rwa [Nat.zero_add]

/-! ## One packet -/

theorem handleLetter_runs (s : Locals) :
    Runs (handleLetter s) (Source.ComboConn.handleLetter s) := by
  unfold handleLetter Source.ComboConn.handleLetter
  refine Runs.ite (fun _ => Runs.bind (sendCharRaw_runs _ _ _) fun _ => Runs.pure _) fun _ => ?_
  exact Runs.ite (fun _ => Runs.bind (sendCharAscii_runs _ _ _) fun _ => Runs.pure _) fun _ =>
    Runs.bind (sendCharAscii_runs _ _ _) fun _ => Runs.pure _

theorem handleKeys_runs (s : Locals) :
    Runs (handleKeys s) (Source.ComboConn.handleKeys s) := by
  unfold handleKeys Source.ComboConn.handleKeys
  refine Runs.step (copyLoop_runs OutOfRange.keycodes s.packet.keyboard.keycodes s.kbd.keycodes
    6 0 rfl fun j hj => absurd hj (Nat.not_lt_zero j)) ?_
  rw [finRange_slots]
  refine Runs.step (readAll_runs OutOfRange.keycodes _ (List.finRange 6)) ?_
  exact Runs.bind (Runs.lift _) fun _ => Runs.ite (fun _ => Runs.pure _) fun _ => Runs.pure _

theorem handleKbd_runs (s : Locals) : Runs (handleKbd s) (Source.ComboConn.handleKbd s) :=
  Runs.ite (fun _ => handleString_runs s) fun _ =>
    Runs.ite (fun _ => handleLetter_runs s) fun _ => handleKeys_runs s

theorem handlePacket_runs (s : Locals) :
    Runs (handlePacket s) (Source.ComboConn.handlePacket s) :=
  Runs.ite (fun _ => handleKbd_runs s) fun _ => Runs.ite (fun _ => Runs.lift _) fun _ =>
    Runs.ite (fun _ => Runs.lift _) fun _ => Runs.ite (fun _ => Runs.lift _) fun _ => Runs.pure _

theorem processLoop_runs (reads : List ReadResult) (s : Locals) :
    Runs (processLoop s reads) (Source.ComboConn.processLoop s reads) := by
  induction reads generalizing s with
  | nil => exact Runs.pure _
  | cons read reads ih =>
    cases read with
    | eof => exact Runs.pure _
    | error => exact Runs.pure _
    | data bs pos le =>
      refine Runs.bind (handlePacket_runs _) fun (s, code) => ?_
      cases code with
      | none => exact ih s
      | some code => exact Runs.pure _

/-- No sequence of reads makes an access leave its array. -/
theorem processMultiBin_runs (stack : BinPacket) (reads : List ReadResult) :
    Runs (processMultiBin stack reads) (Source.ComboConn.processMultiBin stack reads) :=
  processLoop_runs reads (.entry stack)

/-! ## What one packet sends -/

/-- A data packet with an input report of that id and length. -/
def IsReport (id : UInt8) (len : ℕ) (payload : Payload) : Prop :=
  ∃ report, payload = 0xA1 :: report ∧ report.head? = some id ∧ report.length = len

/-- At most `n` sends, all of them such reports, whatever they meet. -/
def Sends (n : ℕ) (id : UInt8) (len : ℕ) (payloads : Outcomes → List Payload) : Prop :=
  ∀ o, (payloads o).length ≤ n ∧ ∀ payload ∈ payloads o, IsReport id len payload

theorem isReport_keyboard (kbd : KeyboardReport) :
    IsReport kbd.reportId 9 (inputPayload kbd.bytes) := by
  refine ⟨kbd.bytes, rfl, rfl, ?_⟩
  rw [KeyboardReport.bytes, List.length_append, Vector.length_toList]
  rfl

/-- Two sends for each byte at most, on the report as it is. -/
theorem sendString_sends {kbd : KeyboardReport} (h : Idle kbd) (string : List UInt8) :
    Sends (2 * string.length) kbd.reportId 9
      (Source.ComboConn.sendString kbd string).attempts := by
  induction string with
  | nil => exact fun o => ⟨Nat.le_refl 0, fun payload hp => absurd hp List.not_mem_nil⟩
  | cons c string ih =>
    intro o
    rw [Source.ComboConn.sendString, List.length_cons]
    by_cases hmap : c.toNat < kbdAsciimap.length
    · rw [sendCharAscii_tap h c hmap, Attempt.send_bind, Attempt.attempts_send, Attempt.send_bind,
        Attempt.attempts_send, Attempt.done_bind]
      have hdown := isReport_keyboard (charDown kbd c)
      have hup := isReport_keyboard kbd
      cases o 0 with
      | false =>
        have hcount : 2 ≤ 2 * (string.length + 1) := by omega
        exact ⟨hcount, List.forall_mem_cons.mpr ⟨hdown, List.forall_mem_singleton.mpr hup⟩⟩
      | true =>
        obtain ⟨hlen, hall⟩ := ih ((o.after 1).after 1)
        simp only [if_true, ne_eq, not_true_eq_false, if_false, Attempt.attempts_bind,
          Attempt.pure_eq, Attempt.attempts_done, List.append_nil, List.length_cons]
        refine ⟨by omega, List.forall_mem_cons.mpr ⟨hdown, List.forall_mem_cons.mpr ⟨hup, hall⟩⟩⟩
    · obtain ⟨hlen, hall⟩ := ih o
      rw [sendCharAscii_unmapped kbd c 0 hmap, Attempt.done_bind]
      simp only [ne_eq, not_true_eq_false, if_false, Attempt.attempts_bind, Attempt.pure_eq,
        Attempt.attempts_done, List.append_nil]
      exact ⟨by omega, hall⟩

theorem tapPayloads_reports (key modifier : UInt8) :
    ∀ payload ∈ tapPayloads key modifier, IsReport kbdRepId 9 payload :=
  List.forall_mem_cons.mpr ⟨isReport_keyboard (keyDown key modifier),
    List.forall_mem_singleton.mpr (isReport_keyboard .zero)⟩

/-- A NUL bounds the string before it. -/
theorem cstring_length_le (s : List UInt8) (i : ℕ) (h : s[i]? = some 0) :
    (cstring s).length ≤ i := by
  induction s generalizing i with
  | nil => exact Nat.zero_le i
  | cons b s ih =>
    rw [cstring]
    by_cases hb : b = 0
    · rw [List.takeWhile_cons_of_neg (by simpa using hb)]
      exact Nat.zero_le i
    · rw [List.takeWhile_cons_of_pos (by simpa using hb), List.length_cons]
      cases i with
      | zero => exact absurd (Option.some.inj h) hb
      | succ i => exact Nat.succ_le_succ (ih i h)

theorem string_sends (p : BinPacket) (h : p.reportId = kbdRepId)
    (hstring : p.flags &&& brptString ≠ 0) : Sends 30 kbdRepId 9 (packetReports p) := by
  intro o
  have hpacket : (Locals.entry p).packet = p := rfl
  let string := cstring (p.report.set 15 0).toList
  have hattempts : packetReports p o = (Source.ComboConn.sendString .zero string).attempts o := by
    rw [packetReports, handlePacket_kbd p h, Source.ComboConn.handleKbd, hpacket, if_pos hstring]
    unfold Source.ComboConn.handleString
    rw [Attempt.attempts_bind]
    exact List.append_nil _
  have hlen : string.length ≤ 15 := cstring_length_le _ 15 (by simp)
  obtain ⟨hcount, hall⟩ := sendString_sends idle_zero string o
  rw [hattempts]
  exact ⟨by omega, hall⟩

theorem keys_sends (p : BinPacket) (h : p.reportId = kbdRepId)
    (hstring : p.flags &&& brptString = 0) (hchar : p.flags &&& brptChar = 0) (o : Outcomes) :
    ∃ kbd : KeyboardReport, kbd.reportId = kbdRepId ∧
      packetReports p o = [inputPayload kbd.bytes] := by
  have hpacket : (Locals.entry p).packet = p := rfl
  let kbd : KeyboardReport := ⟨kbdRepId, p.keyboard.modifier, 0, p.keyboard.keycodes⟩
  have hkeys : Source.ComboConn.handleKeys (.entry p) =
      sendOrError kbd.bytes (.entry p) { Locals.entry p with kbd } :=
    sendInputRep_sendOrError _ _ _
  rw [packetReports, handlePacket_kbd p h, Source.ComboConn.handleKbd, hpacket,
    if_neg (fun hs => hs hstring), if_neg (fun hc => hc hchar), hkeys]
  exact ⟨kbd, rfl, rfl⟩

theorem keyboard_sends (p : BinPacket) (h : p.reportId = kbdRepId) :
    Sends 30 kbdRepId 9 (packetReports p) := by
  have hone : 1 ≤ 30 := by decide
  have htap : 2 ≤ 30 := by decide
  by_cases hstring : p.flags &&& brptString = 0
  · intro o
    by_cases hchar : p.flags &&& brptChar = 0
    · obtain ⟨kbd, hid, hsent⟩ := keys_sends p h hstring hchar o
      rw [hsent, ← hid]
      exact ⟨hone, List.forall_mem_singleton.mpr (isReport_keyboard kbd)⟩
    · by_cases hraw : p.flags2 &&& charRaw = 0
      · rcases packetReports_ascii p h hstring hchar hraw o with hnone | ⟨key, modifier, hsent⟩
        · rw [hnone]
          exact ⟨Nat.zero_le 30, fun payload hp => absurd hp List.not_mem_nil⟩
        · rw [hsent]
          exact ⟨htap, tapPayloads_reports key modifier⟩
      · rw [packetReports_raw p h hstring hchar hraw o]
        exact ⟨htap, tapPayloads_reports _ _⟩
  · exact string_sends p h hstring

theorem sends_none (p : BinPacket) (hk : p.reportId ≠ kbdRepId) (hm : p.reportId ≠ mouseRepId)
    (hg : p.reportId ≠ gpadRepId) (o : Outcomes) : packetReports p o = [] := by
  rw [packetReports]
  by_cases hs : p.reportId = sysRepId
  · rw [handlePacket_sys p hs]
    unfold Source.ComboConn.handleSys
    split
    · rfl
    · rfl
  · rw [handlePacket_unknown p hk hg hm hs]
    rfl

/-- A packet sends reports of one id and one length, if any. -/
theorem packet_sends (p : BinPacket) :
    Sends 30 p.reportId (if p.reportId = mouseRepId then 5 else 9) (packetReports p) := by
  have hone : 1 ≤ 30 := by decide
  by_cases hk : p.reportId = kbdRepId
  · rw [hk]
    exact keyboard_sends p hk
  by_cases hm : p.reportId = mouseRepId
  · intro o
    rw [packetReports_mouse p hm o, if_pos hm, hm]
    exact ⟨hone, List.forall_mem_singleton.mpr ⟨_, rfl, rfl, rfl⟩⟩
  by_cases hg : p.reportId = gpadRepId
  · intro o
    rw [packetReports_gpad p hg o, if_neg hm, hg]
    exact ⟨hone, List.forall_mem_singleton.mpr ⟨_, rfl, rfl, rfl⟩⟩
  · intro o
    rw [sends_none p hk hm hg o]
    exact ⟨Nat.zero_le 30, fun payload hp => absurd hp List.not_mem_nil⟩

/-- Where the loop goes on, it goes on with zeroed reports. -/
theorem entry_again (p : BinPacket) (o : Outcomes) {s : Locals}
    (h : (Source.ComboConn.handlePacket (.entry p)).result o = (s, none)) :
    ∃ p', s = .entry p' := by
  rcases handlePacket_ends p o with ⟨_, ⟨p', hend⟩ | ⟨s', hend⟩⟩ | ⟨_, _, hend⟩
  · exact ⟨p', congrArg Prod.fst (h.symm.trans hend)⟩
  · cases congrArg Prod.snd (h.symm.trans hend)
  · cases congrArg Prod.snd (h.symm.trans hend)

/-- Whatever the packet, its handling ends without a fault and sends at most thirty
reports, each with the packet's own id and the length that goes with it. The reports are
zeroed before it, as they are on entry, and again after it if the loop goes on. -/
theorem packet_safe (p : BinPacket) (o : Outcomes) :
    let run := (handlePacket (.entry p)).run
    (∃ s code, run.result o = .ok (s, code) ∧ (code = none → ∃ p', s = .entry p')) ∧
    (run.attempts o).length ≤ 30 ∧
    (∀ payload ∈ run.attempts o, ∃ report, payload = 0xA1 :: report ∧
      report.head? = some p.reportId ∧
      report.length = if p.reportId = mouseRepId then 5 else 9) ∧
    (p.reportId ∉ [kbdRepId, mouseRepId, gpadRepId] → run.attempts o = []) := by
  have hrun := handlePacket_runs (.entry p)
  simp only [hrun.attempts o, hrun.result o]
  obtain ⟨hcount, hall⟩ := packet_sends p o
  refine ⟨⟨_, _, rfl, fun hcode => ?_⟩, hcount, hall, fun hid => ?_⟩
  · exact entry_again p o (Prod.ext rfl hcode)
  · simp only [List.mem_cons, List.not_mem_nil, or_false, not_or] at hid
    exact sends_none p hid.1 hid.2.1 hid.2.2 o

end Android2Mouse.Guarantees.PacketSafety
