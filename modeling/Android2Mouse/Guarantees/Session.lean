import Mathlib.Data.List.TakeWhile
import Android2Mouse.Guarantees.PacketIndependence
import Android2Mouse.Source.HidpClientdlib

/-!
# From client calls to the interrupt channel

A `Delivery` is a run of the daemon over given packets: they are read whole and
in order, with ends of file and read errors anywhere between them, and the
packet buffer starts with anything. `payloads_eq` says what the host receives
of it when every send succeeds.

The packets of the client library are of five kinds. The daemon's answer to
each is given here once; `session_payloads` composes them over the calls of a
session.
-/
namespace Android2Mouse.Guarantees.Session
open Library Source.ComboConn Source.Hidp Source.HidpClientdlib
open KeyTap PacketReports PacketIndependence

/-- A run of `main` that meets just the packets `packets`. -/
structure Delivery (packets : List BinPacket) where
  stack : ℕ → BinPacket
  arrivals : List Arrival
  arrivals_packets : packetsOf arrivals = packets
  extra : ℕ

/-- What the host receives of one packet. -/
def delivered (p : BinPacket) : List Payload := packetReports p .allSucceed

namespace Delivery

variable {packets : List BinPacket}

def run (d : Delivery packets) : Attempt Payload Daemon :=
  mainLoop d.stack (d.arrivals.length + d.extra) (d.arrivals.map Arrival.read)

/-- What the host receives when every send succeeds. -/
def payloads (d : Delivery packets) : List Payload := d.run.attempts .allSucceed

/-- Where the daemon is at the end. -/
def daemon (d : Delivery packets) : Daemon := d.run.result .allSucceed

/-- The packets one after another, and nothing between them. -/
def plain (packets : List BinPacket) : Delivery packets :=
  ⟨fun _ => .zero, packets.map .packet, packetsOf_map_packet packets, 0⟩

theorem payloads_eq (d : Delivery packets) :
    d.payloads = (beforeShutdown packets).flatMap delivered := by
  have h := (mainLoop_run d.stack d.arrivals d.extra .allSucceed).1
  rw [Attempt.inOrder_allSucceed, d.arrivals_packets] at h
  exact h

theorem daemon_eq (d : Delivery packets) : d.daemon = daemonAfter d.arrivals :=
  (mainLoop_run d.stack d.arrivals d.extra .allSucceed).2

/-- Until a shutdown packet everything is handled. -/
theorem payloads_live (d : Delivery packets) (h : ∀ p ∈ packets, ¬ IsShutdown p) :
    d.payloads = packets.flatMap delivered := by
  have hall : beforeShutdown packets = packets :=
    List.takeWhile_eq_self_iff.mpr (by simpa using h)
  rw [payloads_eq, hall]

/-- After it nothing is. -/
theorem payloads_closed {p : BinPacket} {rest : List BinPacket}
    (d : Delivery (packets ++ p :: rest)) (h : ∀ p ∈ packets, ¬ IsShutdown p)
    (hp : IsShutdown p) : d.payloads = packets.flatMap delivered := by
  have hbefore : beforeShutdown (packets ++ p :: rest) = packets := by
    rw [beforeShutdown, List.takeWhile_append_of_pos (by simpa using h),
      List.takeWhile_cons_of_neg (by simpa using hp), List.append_nil]
  rw [payloads_eq, hbefore]

/-- A shutdown packet among those delivered ends the daemon. -/
theorem daemon_exited (d : Delivery packets) (p : BinPacket) (hmem : p ∈ packets)
    (hp : IsShutdown p) : ∃ left, d.daemon = .exited left := by
  rw [← d.arrivals_packets] at hmem
  obtain ⟨rest, hrest⟩ := (exists_leftAtShutdown_iff d.arrivals).mpr ⟨p, hmem, hp⟩
  refine ⟨rest.map Arrival.read, ?_⟩
  rw [daemon_eq, daemonAfter, hrest]

end Delivery

/-! ## The packets of the library -/

theorem shutdownPacket_isShutdown : IsShutdown shutdownPacket := by decide

theorem clientPacket_not_shutdown (call : ClientCall) (p : BinPacket) (h : p ∈ call.packets) :
    ¬ IsShutdown p := by
  have hid : p.reportId = kbdRepId ∨ p.reportId = mouseRepId ∨ p.reportId = gpadRepId := by
    cases call with
    | mouse x y buttons wheel =>
      rw [List.mem_singleton.mp h]
      exact Or.inr (Or.inl rfl)
    | gpad x y z rx ry rz buttons =>
      rw [List.mem_singleton.mp h]
      exact Or.inr (Or.inr rfl)
    | asciiChar ch mod =>
      rw [List.mem_singleton.mp h]
      exact Or.inl rfl
    | rawChar ch mod =>
      rw [List.mem_singleton.mp h]
      exact Or.inl rfl
    | str s =>
      obtain ⟨frag, _, rfl⟩ := List.mem_map.mp h
      exact Or.inl rfl
  intro hshutdown
  rw [hshutdown.1] at hid
  revert hid
  decide

theorem delivered_mousePacket (x y buttons wheel : Int32) :
    delivered (mousePacket x y buttons wheel) =
      [inputPayload (MouseReport.bytes
        ⟨mouseRepId, intToUInt8 buttons, x.toInt8, y.toInt8, wheel.toInt8⟩)] :=
  packetReports_mouse _ rfl _

theorem delivered_gpadPacket (x y z rx ry rz buttons : Int32) :
    delivered (gpadPacket x y z rx ry rz buttons) =
      [inputPayload (GamepadReport.bytes ⟨gpadRepId, intToUInt16 buttons, x.toInt8, y.toInt8,
        z.toInt8, rx.toInt8, ry.toInt8, rz.toInt8⟩)] := by
  have hreport : gamepadReport (gpadPacket x y z rx ry rz buttons) =
      ⟨gpadRepId, intToUInt16 buttons, x.toInt8, y.toInt8, z.toInt8, rx.toInt8, ry.toInt8,
        rz.toInt8⟩ := by
    rw [← le16_bytes (intToUInt16 buttons)]
    rfl
  rw [delivered, packetReports_gpad _ rfl, hreport]

theorem delivered_rawPacket (ch mod : Int32) :
    delivered (letterPacket ch mod charRaw) = tapPayloads (intToUInt8 ch) (intToUInt8 mod) := by
  have hmods : intToUInt8 (letterPacket ch mod charRaw).letter.mods = intToUInt8 mod :=
    intToUInt8_le32 _ _ _ _
  have hstring : brptChar &&& brptString = 0 := by decide
  have hchar : brptChar &&& brptChar ≠ 0 := by decide
  have hraw : charRaw &&& charRaw ≠ 0 := by decide
  rw [delivered, packetReports_raw _ rfl hstring hchar hraw, hmods]
  rfl

/-! ## Sessions -/

/-- A descriptor as a successful `open` returns it. -/
abbrev Descriptor := {fd : Int32 // fd ≠ -1}

/-- The library once `start_session` has opened the FIFO, its statics being
whatever earlier sessions left in them. -/
def openSession (opened : Descriptor) (packet : BinPacket) (fd : Int32) : ClientLib :=
  (startSession opened.1 ⟨packet, fd, []⟩).1

theorem openSession_fd (opened : Descriptor) (packet : BinPacket) (fd : Int32) :
    (openSession opened packet fd).fd = opened.1 := by
  rw [openSession, startSession, if_neg opened.2]

theorem openSession_calls (opened : Descriptor) (packet : BinPacket) (fd : Int32) :
    (openSession opened packet fd).calls = [.open opened.1] := by
  rw [openSession, startSession, if_neg opened.2]
  rfl

section Live

variable (opened : Descriptor) (packet : BinPacket) (fd : Int32) (calls : List ClientCall)

/-- While the session lasts, what the calls write is what the FIFO gets. -/
theorem session_fifo (later : List Syscall) :
    fifoPackets [] ((runCalls calls (openSession opened packet fd)).calls ++ later) =
      calls.flatMap ClientCall.packets ++ fifoPackets [opened.1] later := by
  rw [runCalls_calls, openSession_calls, openSession_fd, List.append_assoc, List.singleton_append,
    fifoPackets_open _ _ opened.2, fifoPackets_writes _ _ (List.mem_singleton_self _)]

theorem session_packets :
    fifoPackets [] (runCalls calls (openSession opened packet fd)).calls =
      calls.flatMap ClientCall.packets := by
  have h := session_fifo opened packet fd calls []
  rwa [List.append_nil, fifoPackets, List.append_nil] at h

/-- `end_session` adds the shutdown packet; what is written later is lost. -/
theorem endSession_packets :
    fifoPackets [] (endSession (runCalls calls (openSession opened packet fd))).calls =
      calls.flatMap ClientCall.packets ++ [shutdownPacket] := by
  rw [endSession_calls, session_fifo, runCalls_fd, openSession_fd, fifoPackets,
    if_pos (List.mem_singleton_self _)]
  rfl

end Live

theorem session_not_shutdown (calls : List ClientCall) :
    ∀ p ∈ calls.flatMap ClientCall.packets, ¬ IsShutdown p := by
  intro p hp
  obtain ⟨call, _, hcall⟩ := List.mem_flatMap.mp hp
  exact clientPacket_not_shutdown call p hcall

/-- What the host receives of one call. -/
def callPayloads (call : ClientCall) : List Payload := call.packets.flatMap delivered

theorem flatMap_delivered (calls : List ClientCall) :
    (calls.flatMap ClientCall.packets).flatMap delivered = calls.flatMap callPayloads :=
  List.flatMap_assoc

theorem session_payloads (calls : List ClientCall)
    (d : Delivery (calls.flatMap ClientCall.packets)) :
    d.payloads = calls.flatMap callPayloads := by
  rw [d.payloads_live (session_not_shutdown calls), flatMap_delivered]

theorem closed_session_payloads (calls : List ClientCall) (later : List BinPacket)
    (d : Delivery (calls.flatMap ClientCall.packets ++ shutdownPacket :: later)) :
    d.payloads = calls.flatMap callPayloads ∧ ∃ left, d.daemon = .exited left := by
  refine ⟨?_, d.daemon_exited shutdownPacket (by simp) shutdownPacket_isShutdown⟩
  rw [d.payloads_closed (session_not_shutdown calls) shutdownPacket_isShutdown, flatMap_delivered]

theorem callPayloads_mouse (x y buttons wheel : Int32) :
    callPayloads (.mouse x y buttons wheel) =
      [inputPayload (MouseReport.bytes
        ⟨mouseRepId, intToUInt8 buttons, x.toInt8, y.toInt8, wheel.toInt8⟩)] := by
  rw [callPayloads, ClientCall.packets, List.flatMap_singleton, delivered_mousePacket]

theorem callPayloads_gpad (x y z rx ry rz buttons : Int32) :
    callPayloads (.gpad x y z rx ry rz buttons) =
      [inputPayload (GamepadReport.bytes ⟨gpadRepId, intToUInt16 buttons, x.toInt8, y.toInt8,
        z.toInt8, rx.toInt8, ry.toInt8, rz.toInt8⟩)] := by
  rw [callPayloads, ClientCall.packets, List.flatMap_singleton, delivered_gpadPacket]

theorem callPayloads_raw (ch mod : Int32) :
    callPayloads (.rawChar ch mod) = tapPayloads (intToUInt8 ch) (intToUInt8 mod) := by
  rw [callPayloads, ClientCall.packets, List.flatMap_singleton, delivered_rawPacket]

end Android2Mouse.Guarantees.Session
