import Android2Mouse.Guarantees.PacketReports
import Android2Mouse.Source.BinSender
import Android2Mouse.Source.HidpClientdlib

/-!
# Two front ends

A request goes to the daemon from the command line sender or from the client
library. Their packets differ in bytes that the daemon does not look at: the flags
of a mouse packet, the second flags of a character. What the daemon does with them
is the same (`front_ends_agree_iff`), a shutdown apart: the sender takes the report
id from the name's place in its table, where `sys` is the fourth and not the
fourteenth.
-/
namespace Android2Mouse.Guarantees.FrontEnds
open Library Library.Strtol Source.ComboConn Source.Hidp Source.HidpClientdlib Source.BinSender
open TapNeutral KeyTap PacketReports

/-- What both front ends can ask for. -/
inductive Request where
  | mouse (x y buttons wheel : Int32)
  | gpad (x y z rx ry rz buttons : Int32)
  | asciiChar (ch mod : Int32)
  | shutdown
  deriving DecidableEq, Repr

/-- The library's function for the request. -/
def Request.submit : Request → ClientLib → ClientLib
  | .mouse x y buttons wheel => sendMouseReport x y buttons wheel
  | .gpad x y z rx ry rz buttons => sendGpadReport x y z rx ry rz buttons
  | .asciiChar ch mod => sendCharAsciiReport ch mod
  | .shutdown => endSession

/-- The packets that system calls write. -/
def writtenPackets (calls : List Syscall) : List BinPacket :=
  calls.filterMap fun call => match call with
    | .write _ packet => some packet
    | _ => none

/-- The arguments ask the sender for the request, in whatever notation `strtol`
reads. The flags of a mouse or gamepad packet may be anything. -/
def Request.Expressed (argv : List (List UInt8)) : Request → Prop
  | .mouse x y buttons wheel =>
    7 ≤ argv.length ∧ argv.getD 1 [] = literal ['m', 'o', 'u', 's', 'e'] ∧
      number argv 3 = buttons ∧ number argv 4 = x ∧ number argv 5 = y ∧ number argv 6 = wheel
  | .gpad x y z rx ry rz buttons =>
    10 ≤ argv.length ∧ argv.getD 1 [] = literal ['g', 'p', 'a', 'd'] ∧
      number argv 3 = buttons ∧ number argv 4 = x ∧ number argv 5 = y ∧ number argv 6 = z ∧
      number argv 7 = rx ∧ number argv 8 = ry ∧ number argv 9 = rz
  | .asciiChar ch mod =>
    5 ≤ argv.length ∧ argv.getD 1 [] = literal ['k', 'b', 'd'] ∧
      intToUInt8 (number argv 2) &&& brptString = 0 ∧
      intToUInt8 (number argv 2) &&& brptChar ≠ 0 ∧ number argv 3 = ch ∧ number argv 4 = mod
  | .shutdown =>
    3 ≤ argv.length ∧ argv.getD 1 [] = literal ['s', 'y', 's'] ∧
      intToUInt8 (number argv 2) &&& hcrShutdown ≠ 0

instance (argv : List (List UInt8)) : (request : Request) → Decidable (request.Expressed argv)
  | .mouse _ _ _ _ => inferInstanceAs (Decidable (_ ∧ _))
  | .gpad _ _ _ _ _ _ _ => inferInstanceAs (Decidable (_ ∧ _))
  | .asciiChar _ _ => inferInstanceAs (Decidable (_ ∧ _))
  | .shutdown => inferInstanceAs (Decidable (_ ∧ _))

/-- A command line for the request, its numbers in decimal. -/
def Request.command : Request → List (List UInt8)
  | .mouse x y buttons wheel =>
    [[], literal ['m', 'o', 'u', 's', 'e'], literal ['0']] ++
      [buttons, x, y, wheel].map fun v => decimal v.toInt
  | .gpad x y z rx ry rz buttons =>
    [[], literal ['g', 'p', 'a', 'd'], literal ['0']] ++
      [buttons, x, y, z, rx, ry, rz].map fun v => decimal v.toInt
  | .asciiChar ch mod =>
    [[], literal ['k', 'b', 'd'], literal ['2']] ++ [ch, mod].map fun v => decimal v.toInt
  | .shutdown => [[], literal ['s', 'y', 's'], literal ['1']]

theorem number_decimal (argv : List (List UInt8)) (i : ℕ) (v : Int32)
    (h : argv.getD i [] = decimal v.toInt) : number argv i = v := by
  have hrange : InRange 32 v.toInt := ⟨Int32.le_toInt v, Int32.toInt_lt v⟩
  rw [number, h, strtol_decimal 32 v.toInt hrange, Int32.ofInt_toInt]

/-- Every request can be put to the sender. -/
theorem Request.command_expressed (request : Request) : request.Expressed request.command := by
  cases request with
  | mouse x y buttons wheel =>
    exact ⟨Nat.le_refl _, rfl, number_decimal _ _ _ rfl, number_decimal _ _ _ rfl,
      number_decimal _ _ _ rfl, number_decimal _ _ _ rfl⟩
  | gpad x y z rx ry rz buttons =>
    exact ⟨Nat.le_refl _, rfl, number_decimal _ _ _ rfl, number_decimal _ _ _ rfl,
      number_decimal _ _ _ rfl, number_decimal _ _ _ rfl, number_decimal _ _ _ rfl,
      number_decimal _ _ _ rfl, number_decimal _ _ _ rfl⟩
  | asciiChar ch mod =>
    have hflags : intToUInt8 (number [[], [], literal ['2']] 2) &&& brptString = 0 ∧
        intToUInt8 (number [[], [], literal ['2']] 2) &&& brptChar ≠ 0 := by decide
    exact ⟨Nat.le_refl _, rfl, hflags.1, hflags.2, number_decimal _ _ _ rfl,
      number_decimal _ _ _ rfl⟩
  | shutdown => decide

/-! ## The sender's packets -/

theorem lookup_mouse :
    intToUInt8 (lookupBpkt (literal ['m', 'o', 'u', 's', 'e'])) = mouseRepId := by decide

theorem lookup_gpad :
    intToUInt8 (lookupBpkt (literal ['g', 'p', 'a', 'd'])) = gpadRepId := by decide

theorem lookup_kbd : intToUInt8 (lookupBpkt (literal ['k', 'b', 'd'])) = kbdRepId := by decide

/-- The fourth name is not the report id of the system packets. -/
theorem lookup_sys : intToUInt8 (lookupBpkt (literal ['s', 'y', 's'])) = 4 := by decide

theorem header_reportId {argv : List (List UInt8)} {name : List UInt8} {id : UInt8}
    (hname : argv.getD 1 [] = name) (hid : intToUInt8 (lookupBpkt name) = id) :
    (header argv).reportId = id := by
  rw [header, hname]
  exact hid

/-- The mouse report of the sender's packet is that of the library's. -/
theorem main_mouse {argv : List (List UInt8)} {x y buttons wheel : Int32}
    (h : (Request.mouse x y buttons wheel).Expressed argv) :
    ∃ p, main argv = .ok p ∧ p.reportId = mouseRepId ∧
      mouseReport p = ⟨mouseRepId, intToUInt8 buttons, x.toInt8, y.toInt8, wheel.toInt8⟩ := by
  obtain ⟨hlen, hname, rfl, rfl, rfl, rfl⟩ := h
  have hid := header_reportId hname lookup_mouse
  refine ⟨(header argv).store 0 (numbers argv 3 4), ?_, ?_, ?_⟩
  · simp only [main, hid]
    rw [if_neg (by omega), if_neg (by decide), if_neg (by decide), if_pos trivial, if_neg (by omega)]
  · rw [BinPacket.store_reportId]
    exact hid
  · simp [mouseReport, BinPacket.mouse, BinPacket.store_report, numbers, toInt8_intToUInt8]

theorem main_gpad {argv : List (List UInt8)} {x y z rx ry rz buttons : Int32}
    (h : (Request.gpad x y z rx ry rz buttons).Expressed argv) :
    ∃ p, main argv = .ok p ∧ p.reportId = gpadRepId ∧
      gamepadReport p = ⟨gpadRepId, intToUInt16 buttons, x.toInt8, y.toInt8, z.toInt8, rx.toInt8,
        ry.toInt8, rz.toInt8⟩ := by
  obtain ⟨hlen, hname, rfl, rfl, rfl, rfl, rfl, rfl, rfl⟩ := h
  have hid := header_reportId hname lookup_gpad
  refine ⟨((header argv).store 0 (le16Bytes (intToUInt16 (number argv 3)))).store 2
    (numbers argv 4 6), ?_, ?_, ?_⟩
  · simp only [main, hid]
    rw [if_neg (by omega), if_neg (by decide), if_pos trivial, if_neg (by omega)]
  · rw [BinPacket.store_reportId, BinPacket.store_reportId]
    exact hid
  · simp [gamepadReport, BinPacket.gamepad, BinPacket.store_report, numbers, le16Bytes,
      toInt8_intToUInt8, le16_bytes]

/-- The sender does not say how a character is to be read, and the daemon takes it
for ASCII. -/
theorem main_asciiChar {argv : List (List UInt8)} {ch mod : Int32}
    (h : (Request.asciiChar ch mod).Expressed argv) :
    ∃ p, main argv = .ok p ∧ p.reportId = kbdRepId ∧ p.flags &&& brptString = 0 ∧
      p.flags &&& brptChar ≠ 0 ∧ p.flags2 = 0 ∧ p.letter.c = intToUInt8 ch ∧
      intToUInt8 p.letter.mods = intToUInt8 mod := by
  obtain ⟨hlen, hname, hstring, hchar, rfl, rfl⟩ := h
  have hid := header_reportId hname lookup_kbd
  have hflags : (header argv).flags = intToUInt8 (number argv 2) := rfl
  refine ⟨((header argv).store 0 [intToUInt8 (number argv 3)]).store 4
    (le32Bytes (number argv 4)), ?_, ?_, ?_, ?_, ?_, ?_, ?_⟩
  · simp only [main, hid, hflags]
    rw [if_neg (by omega), if_pos trivial, if_neg (fun hs => hs hstring), if_pos hchar,
      if_neg (by omega)]
  · rw [BinPacket.store_reportId, BinPacket.store_reportId]
    exact hid
  · rw [BinPacket.store_flags, BinPacket.store_flags]
    exact hstring
  · rw [BinPacket.store_flags, BinPacket.store_flags]
    exact hchar
  · rw [BinPacket.store_flags2, BinPacket.store_flags2]
    rfl
  · simp [BinPacket.letter, BinPacket.store_report]
  · simp [BinPacket.letter, BinPacket.store_report, intToUInt8_le32, le32Bytes]
    rfl

theorem main_shutdown {argv : List (List UInt8)} (h : Request.shutdown.Expressed argv) :
    main argv = .ok (header argv) ∧ (header argv).reportId = 4 := by
  obtain ⟨hlen, hname, _⟩ := h
  have hid := header_reportId hname lookup_sys
  refine ⟨?_, hid⟩
  simp only [main, hid]
  rw [if_neg (by omega), if_neg (by decide), if_neg (by decide), if_neg (by decide),
    if_neg (by decide), if_neg (by decide)]

/-! ## The daemon's answers -/

/-- An invocation of `process_multi_bin` that reads one packet. -/
theorem processMultiBin_packet (stack p : BinPacket) :
    processMultiBin stack [.packet p] =
      handlePacket (.entry p) >>= fun handled => .done (handled.2.getD .success, []) := by
  have hread : (Locals.entry stack).packet.overlay p.bytes = p := BinPacket.overlay_bytes _ _
  rw [processMultiBin, ReadResult.packet, processLoop, hread]
  congr 1
  funext handled
  obtain ⟨s, code⟩ := handled
  cases code with
  | none => rfl
  | some code => rfl

/-- One report sent, and an error when it is not taken. -/
def sendReport (data : List UInt8) : Attempt Payload (Method × List ReadResult) :=
  .send (inputPayload data) fun ok => .done (if ok then .success else .error, [])

theorem sendOrError_method (data : List UInt8) (good bad : Locals) :
    (sendOrError data good bad >>= fun handled =>
      (.done (handled.2.getD .success, []) : Attempt Payload (Method × List ReadResult))) =
      sendReport data := by
  rw [sendOrError, Attempt.send_bind, sendReport]
  congr 1
  funext ok
  cases ok with
  | true => rfl
  | false => rfl

theorem process_mouse (stack p : BinPacket) (h : p.reportId = mouseRepId) :
    processMultiBin stack [.packet p] = sendReport (mouseReport p).bytes := by
  rw [processMultiBin_packet, handlePacket_mouse p h, handleMouse_entry, sendOrError_method]

theorem process_gpad (stack p : BinPacket) (h : p.reportId = gpadRepId) :
    processMultiBin stack [.packet p] = sendReport (gamepadReport p).bytes := by
  rw [processMultiBin_packet, handlePacket_gpad p h, handleGpad_entry, sendOrError_method]

/-- The second flags do not matter as long as they do not say that it is raw. -/
theorem process_asciiChar (stack p : BinPacket) (h : p.reportId = kbdRepId)
    (hstring : p.flags &&& brptString = 0) (hchar : p.flags &&& brptChar ≠ 0)
    (hraw : p.flags2 &&& charRaw = 0) :
    processMultiBin stack [.packet p] =
      sendCharAscii .zero p.letter.c (intToUInt8 p.letter.mods) >>= fun _ =>
        .done (.success, []) := by
  have hpacket : (Locals.entry p).packet = p := rfl
  rw [processMultiBin_packet, handlePacket_kbd p h, handleKbd, hpacket, if_neg (fun hs => hs hstring),
    if_pos hchar, handleLetter_ascii _ (fun hr => hr hraw), Attempt.bind_assoc]
  rfl

/-! ## The library's packets -/

/-- What the library writes for a request, as the daemon reads it. -/
def libraryReads (request : Request) (packet : BinPacket) (fd : Int32) : List ReadResult :=
  (writtenPackets (request.submit ⟨packet, fd, []⟩).calls).map .packet

theorem libraryReads_mouse (x y buttons wheel : Int32) (packet : BinPacket) (fd : Int32) :
    libraryReads (.mouse x y buttons wheel) packet fd =
      [.packet (mousePacket x y buttons wheel)] := by
  rw [libraryReads, Request.submit, sendMouseReport_calls]
  rfl

theorem libraryReads_gpad (x y z rx ry rz buttons : Int32) (packet : BinPacket) (fd : Int32) :
    libraryReads (.gpad x y z rx ry rz buttons) packet fd =
      [.packet (gpadPacket x y z rx ry rz buttons)] := by
  rw [libraryReads, Request.submit, sendGpadReport_calls]
  rfl

theorem libraryReads_asciiChar (ch mod : Int32) (packet : BinPacket) (fd : Int32) :
    libraryReads (.asciiChar ch mod) packet fd = [.packet (letterPacket ch mod charAscii)] := by
  rw [libraryReads, Request.submit, sendCharAsciiReport, sendCharReport_calls]
  rfl

theorem libraryReads_shutdown (packet : BinPacket) (fd : Int32) :
    libraryReads .shutdown packet fd = [.packet shutdownPacket] := by
  rw [libraryReads, Request.submit, endSession_calls]
  rfl

theorem gamepadReport_gpadPacket (x y z rx ry rz buttons : Int32) :
    gamepadReport (gpadPacket x y z rx ry rz buttons) =
      ⟨gpadRepId, intToUInt16 buttons, x.toInt8, y.toInt8, z.toInt8, rx.toInt8, ry.toInt8,
        rz.toInt8⟩ := by
  rw [← le16_bytes (intToUInt16 buttons)]
  rfl

/-! ## Agreement -/

/-- The two front ends' packets are one program to the daemon. -/
theorem front_ends_agree {request : Request} {argv : List (List UInt8)}
    (h : request.Expressed argv) (hshutdown : request ≠ .shutdown) (packet : BinPacket) (fd : Int32)
    (stack stack' : BinPacket) :
    ∃ p, main argv = .ok p ∧
      processMultiBin stack [.packet p] =
        processMultiBin stack' (libraryReads request packet fd) := by
  cases request with
  | mouse x y buttons wheel =>
    obtain ⟨p, hmain, hid, hreport⟩ := main_mouse h
    refine ⟨p, hmain, ?_⟩
    rw [libraryReads_mouse, process_mouse stack p hid, process_mouse stack' _ rfl, hreport]
    rfl
  | gpad x y z rx ry rz buttons =>
    obtain ⟨p, hmain, hid, hreport⟩ := main_gpad h
    refine ⟨p, hmain, ?_⟩
    rw [libraryReads_gpad, process_gpad stack p hid, process_gpad stack' _ rfl, hreport,
      gamepadReport_gpadPacket]
  | asciiChar ch mod =>
    obtain ⟨p, hmain, hid, hstring, hchar, hflags2, hc, hmods⟩ := main_asciiChar h
    have hraw : p.flags2 &&& charRaw = 0 := by
      rw [hflags2]
      decide
    have hmods' : intToUInt8 (letterPacket ch mod charAscii).letter.mods = intToUInt8 mod :=
      intToUInt8_le32 _ _ _ _
    have hlibrary : brptChar &&& brptString = 0 ∧ brptChar &&& brptChar ≠ 0 ∧
        charAscii &&& charRaw = 0 := by decide
    refine ⟨p, hmain, ?_⟩
    rw [libraryReads_asciiChar, process_asciiChar stack p hid hstring hchar hraw,
      process_asciiChar stack' _ rfl hlibrary.1 hlibrary.2.1 hlibrary.2.2, hc, hmods, hmods']
    rfl
  | shutdown => exact absurd rfl hshutdown

/-- The sender's shutdown packet is of no kind the daemon knows, the library's
ends it. -/
theorem shutdown_differs {argv : List (List UInt8)} (h : Request.shutdown.Expressed argv)
    (packet : BinPacket) (fd : Int32) (stack stack' : BinPacket) {p : BinPacket}
    (hmain : main argv = .ok p) :
    processMultiBin stack [.packet p] = .done (.success, []) ∧
      processMultiBin stack' (libraryReads .shutdown packet fd) = .done (.shutdown, []) := by
  obtain ⟨hheader, hid⟩ := main_shutdown h
  obtain rfl : header argv = p := Except.ok.inj (hheader.symm.trans hmain)
  refine ⟨?_, ?_⟩
  · rw [processMultiBin_packet, handlePacket_unknown _ (by rw [hid]; decide) (by rw [hid]; decide)
      (by rw [hid]; decide) (by rw [hid]; decide)]
    rfl
  · rw [libraryReads_shutdown, processMultiBin_packet]
    rfl

/-- So the method codes tell the two shutdowns apart. -/
theorem shutdown_codes_differ {argv : List (List UInt8)} (h : Request.shutdown.Expressed argv)
    (packet : BinPacket) (fd : Int32) (stack stack' : BinPacket) (o : Outcomes) {p : BinPacket}
    (hmain : main argv = .ok p) :
    ((processMultiBin stack [.packet p]).result o).1.code ≠
      ((processMultiBin stack' ((writtenPackets
        (Request.shutdown.submit ⟨packet, fd, []⟩).calls).map .packet)).result o).1.code := by
  obtain ⟨hsender, hlibrary⟩ := shutdown_differs h packet fd stack stack' hmain
  rw [libraryReads] at hlibrary
  rw [hsender, hlibrary]
  have hcodes : Method.success.code ≠ Method.shutdown.code := by decide
  exact hcodes

/-- A request given to the sender and to the library makes the daemon send the same
reports and return the same method code, whatever the sends meet, exactly when it
is not a shutdown. -/
theorem front_ends_agree_iff (request : Request) (argv : List (List UInt8))
    (h : request.Expressed argv) (packet : BinPacket) (fd : Int32) (stack stack' : BinPacket)
    (o : Outcomes) :
    (∃ p, main argv = .ok p ∧
      let sender := processMultiBin stack [.packet p]
      let library := processMultiBin stack'
        ((writtenPackets (request.submit ⟨packet, fd, []⟩).calls).map .packet)
      sender.attempts o = library.attempts o ∧
        (sender.result o).1.code = (library.result o).1.code) ↔
    request ≠ .shutdown := by
  constructor
  · rintro ⟨p, hmain, _, hcode⟩ rfl
    exact shutdown_codes_differ h packet fd stack stack' o hmain hcode
  · intro hshutdown
    obtain ⟨p, hmain, hsame⟩ := front_ends_agree h hshutdown packet fd stack stack'
    rw [libraryReads] at hsame
    refine ⟨p, hmain, ?_⟩
    rw [hsame]
    exact ⟨rfl, rfl⟩

/-- `bin_sender mouse 0 1 5 -3 0` -/
theorem front_ends_agree_drag :
    ∃ p, main (Request.mouse 5 (-3) 1 0).command = .ok p ∧
      (processMultiBin .zero [.packet p]).attempts .allSucceed =
        (processMultiBin .zero ((writtenPackets
          ((Request.mouse 5 (-3) 1 0).submit ⟨.zero, 3, []⟩).calls).map .packet)).attempts
          .allSucceed := by
  obtain ⟨p, hmain, hsame, _⟩ := (front_ends_agree_iff (.mouse 5 (-3) 1 0) _
    (Request.command_expressed _) .zero 3 .zero .zero .allSucceed).mpr (by decide)
  exact ⟨p, hmain, hsame⟩

/-- `bin_sender sys 1` leaves the daemon running. -/
theorem sys_does_not_shut_down :
    ¬ ∀ (request : Request) (argv : List (List UInt8)), request.Expressed argv →
      ∀ (packet : BinPacket) (fd : Int32) (stack stack' : BinPacket) (o : Outcomes),
        ∃ p, main argv = .ok p ∧
          ((processMultiBin stack [.packet p]).result o).1.code =
            ((processMultiBin stack' ((writtenPackets
              (request.submit ⟨packet, fd, []⟩).calls).map .packet)).result o).1.code := by
  intro h
  obtain ⟨p, hmain, hcode⟩ :=
    h .shutdown _ (Request.command_expressed .shutdown) .zero 3 .zero .zero .allSucceed
  exact shutdown_codes_differ (Request.command_expressed .shutdown) .zero 3 .zero .zero
    .allSucceed hmain hcode

end Android2Mouse.Guarantees.FrontEnds
