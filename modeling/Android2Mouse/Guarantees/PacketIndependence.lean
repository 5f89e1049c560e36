import Android2Mouse.Guarantees.PacketReports

/-!
# The daemon forgets each packet

`process_multi_bin` carries three reports from one iteration to the next and
leaves an iteration through several returns. An iteration that goes on restores
the reports (`handlePacket_cases`), and a return is followed by a fresh
invocation, so a run is the packets' own `packetReports`, in order.

`serve` is the rest of a pass followed by the remaining passes. Its run lemma
(`serve_run`) is the induction over the reads; the theorem about whole runs of
`main` reads it off.
-/
namespace Android2Mouse.Guarantees.PacketIndependence
open Library Source.ComboConn Source.Hidp PacketReports
open Attempt (inOrder)

/-- The packets that come before the first shutdown packet. -/
def beforeShutdown (packets : List BinPacket) : List BinPacket :=
  packets.takeWhile fun p => ¬ IsShutdown p

/-- What the daemon meets at the FIFO when packets are read whole. -/
inductive Arrival where
  | packet (p : BinPacket)
  | eof
  | error
  deriving DecidableEq, Repr

def Arrival.read : Arrival → ReadResult
  | .packet p => .packet p
  | .eof => .eof
  | .error => .error

def Arrival.packet? : Arrival → Option BinPacket
  | .packet p => some p
  | .eof => none
  | .error => none

/-- The packets among the arrivals, in order. -/
def packetsOf (arrivals : List Arrival) : List BinPacket := arrivals.filterMap Arrival.packet?

/-! ## Passes of `main` -/

/-- The rest of a pass, then `passes` more. -/
def serve (stack : ℕ → BinPacket) (passes : ℕ) (s : Locals) (reads : List ReadResult) :
    Attempt Payload Daemon :=
  processLoop s reads >>= fun r =>
    match r.1 with
    | .shutdown => .done (.exited r.2)
    | .error => mainLoop stack passes r.2
    | .success => mainLoop stack passes r.2

theorem mainLoop_succ (stack : ℕ → BinPacket) (passes : ℕ) (reads : List ReadResult) :
    mainLoop stack (passes + 1) reads = serve stack passes (.entry (stack passes)) reads := rfl

/-- With nothing to read the passes do nothing. -/
theorem mainLoop_nil (stack : ℕ → BinPacket) (passes : ℕ) :
    mainLoop stack passes [] = .done (.polling []) := by
  induction passes with
  | zero => rfl
  | succ passes ih => exact ih

/-- One read with data: handle the packet now in the buffer, then go on, start
the next pass, or exit. -/
theorem serve_data (stack : ℕ → BinPacket) (passes : ℕ) (s : Locals) (bs : List UInt8)
    (pos : 0 < bs.length) (le : bs.length ≤ binPacketSize) (reads : List ReadResult) :
    serve stack passes s (.data bs pos le :: reads) =
      handlePacket { s with packet := s.packet.overlay bs } >>= fun r =>
        match r.2 with
        | none => serve stack passes r.1 reads
        | some .shutdown => .done (.exited reads)
        | some .error => mainLoop stack passes reads
        | some .success => mainLoop stack passes reads := by
  unfold serve
  rw [processLoop, Attempt.bind_assoc]
  congr 1
  funext r
  rcases r with ⟨s', code⟩
  cases code with
  | none => rfl
  | some code => cases code <;> rfl

theorem serve_packet (stack : ℕ → BinPacket) (passes : ℕ) (q p : BinPacket)
    (reads : List ReadResult) :
    serve stack passes (.entry q) (.packet p :: reads) =
      handlePacket (.entry p) >>= fun r =>
        match r.2 with
        | none => serve stack passes r.1 reads
        | some .shutdown => .done (.exited reads)
        | some .error => mainLoop stack passes reads
        | some .success => mainLoop stack passes reads := by
  have hbuf : ({ Locals.entry q with packet := (Locals.entry q).packet.overlay p.bytes } : Locals) =
      .entry p := by
    rw [BinPacket.overlay_bytes]
    rfl
  rw [ReadResult.packet, serve_data, hbuf]

/-- The arrivals left when the first shutdown packet has been taken. -/
def leftAtShutdown : List Arrival → Option (List Arrival)
  | [] => none
  | .packet p :: rest => if IsShutdown p then some rest else leftAtShutdown rest
  | .eof :: rest => leftAtShutdown rest
  | .error :: rest => leftAtShutdown rest

/-- Where `main` ends up once every arrival has been met. -/
def daemonAfter (arrivals : List Arrival) : Daemon :=
  match leftAtShutdown arrivals with
  | none => .polling []
  | some rest => .exited (rest.map Arrival.read)

theorem beforeShutdown_cons_shutdown (p : BinPacket) (packets : List BinPacket)
    (h : IsShutdown p) : beforeShutdown (p :: packets) = [] := by
  simp [beforeShutdown, h]

theorem beforeShutdown_cons (p : BinPacket) (packets : List BinPacket) (h : ¬ IsShutdown p) :
    beforeShutdown (p :: packets) = p :: beforeShutdown packets := by
  simp [beforeShutdown, h]

theorem packetsOf_cons_packet (p : BinPacket) (rest : List Arrival) :
    packetsOf (.packet p :: rest) = p :: packetsOf rest := rfl

theorem packetsOf_map_packet (packets : List BinPacket) :
    packetsOf (packets.map Arrival.packet) = packets := by
  induction packets with
  | nil => rfl
  | cons p packets ih => exact congrArg (p :: ·) ih

theorem leftAtShutdown_cons_shutdown (p : BinPacket) (rest : List Arrival) (h : IsShutdown p) :
    leftAtShutdown (.packet p :: rest) = some rest := if_pos h

theorem leftAtShutdown_cons (p : BinPacket) (rest : List Arrival) (h : ¬ IsShutdown p) :
    leftAtShutdown (.packet p :: rest) = leftAtShutdown rest := if_neg h

theorem daemonAfter_cons (p : BinPacket) (rest : List Arrival) (h : ¬ IsShutdown p) :
    daemonAfter (.packet p :: rest) = daemonAfter rest := by
  rw [daemonAfter, leftAtShutdown_cons p rest h]
  rfl

/-- The run lemma: with enough passes left, they attempt what the packets up to
the first shutdown packet attempt, whatever the packet buffer held and wherever
the passes begin and end. -/
theorem serve_run (stack : ℕ → BinPacket) (arrivals : List Arrival) (passes : ℕ)
    (hpasses : arrivals.length ≤ passes + 1) (q : BinPacket) (o : Outcomes) :
    (serve stack passes (.entry q) (arrivals.map Arrival.read)).attempts o =
        inOrder packetReports (beforeShutdown (packetsOf arrivals)) o ∧
      (serve stack passes (.entry q) (arrivals.map Arrival.read)).result o =
        daemonAfter arrivals := by
  induction arrivals generalizing passes q o with
  | nil =>
    have h : serve stack passes (.entry q) [] = .done (.polling []) := mainLoop_nil stack passes
    simp only [List.map_nil, h]
    exact ⟨rfl, rfl⟩
  | cons arrival rest ih =>
    simp only [List.length_cons] at hpasses
    have next : ∀ o, (mainLoop stack passes (rest.map Arrival.read)).attempts o =
          inOrder packetReports (beforeShutdown (packetsOf rest)) o ∧
        (mainLoop stack passes (rest.map Arrival.read)).result o = daemonAfter rest := by
      intro o
      cases passes with
      | zero =>
        have hnil : rest = [] := List.eq_nil_of_length_eq_zero (by omega)
        subst hnil
        exact ⟨rfl, rfl⟩
      | succ m =>
        rw [mainLoop_succ]
        exact ih m (by omega) (stack m) o
    cases arrival with
    | eof => exact next o
    | error => exact next o
    | packet p =>
      rw [List.map_cons, Arrival.read, serve_packet, Attempt.attempts_bind, Attempt.result_bind,
        packetsOf_cons_packet]
      rcases handlePacket_ends p o with ⟨hns, ⟨p', hend⟩ | ⟨s, hend⟩⟩ | ⟨hs, hnone, hend⟩
      · rw [hend, beforeShutdown_cons p _ hns, daemonAfter_cons p rest hns]
        have hrest := ih passes (by omega) p' (o.after (packetReports p o).length)
        exact ⟨congrArg (packetReports p o ++ ·) hrest.1, hrest.2⟩
      · rw [hend, beforeShutdown_cons p _ hns, daemonAfter_cons p rest hns]
        have hrest := next (o.after (packetReports p o).length)
        exact ⟨congrArg (packetReports p o ++ ·) hrest.1, hrest.2⟩
      · have hsilent : (handlePacket (.entry p)).attempts o = [] := hnone
        rw [hend, hsilent, beforeShutdown_cons_shutdown p _ hs, daemonAfter,
          leftAtShutdown_cons_shutdown p rest hs]
        exact ⟨rfl, rfl⟩

/-- A pass for every arrival is enough. -/
theorem mainLoop_run (stack : ℕ → BinPacket) (arrivals : List Arrival) (extra : ℕ)
    (o : Outcomes) :
    (mainLoop stack (arrivals.length + extra) (arrivals.map Arrival.read)).attempts o =
        inOrder packetReports (beforeShutdown (packetsOf arrivals)) o ∧
      (mainLoop stack (arrivals.length + extra) (arrivals.map Arrival.read)).result o =
        daemonAfter arrivals := by
  cases hn : arrivals.length + extra with
  | zero =>
    have hnil : arrivals = [] := List.eq_nil_of_length_eq_zero (by omega)
    subst hnil
    exact ⟨rfl, rfl⟩
  | succ m =>
    rw [mainLoop_succ]
    exact serve_run stack arrivals m (by omega) (stack m) o

/-! ## Where the daemon stops -/

/-- Arrivals without a shutdown packet are passed over. -/
theorem leftAtShutdown_append (before rest : List Arrival)
    (h : ∀ q ∈ packetsOf before, ¬ IsShutdown q) :
    leftAtShutdown (before ++ rest) = leftAtShutdown rest := by
  induction before with
  | nil => rfl
  | cons arrival before ih =>
    cases arrival with
    | eof => exact ih h
    | error => exact ih h
    | packet p =>
      rw [packetsOf_cons_packet, List.forall_mem_cons] at h
      rw [List.cons_append, leftAtShutdown_cons p _ h.1]
      exact ih h.2

theorem exists_of_leftAtShutdown (arrivals rest : List Arrival)
    (h : leftAtShutdown arrivals = some rest) :
    ∃ before p, arrivals = before ++ .packet p :: rest ∧ IsShutdown p ∧
      ∀ q ∈ packetsOf before, ¬ IsShutdown q := by
  induction arrivals with
  | nil => cases h
  | cons arrival tail ih =>
    cases arrival with
    | eof =>
      obtain ⟨before, p, rfl, hp, hbefore⟩ := ih h
      exact ⟨.eof :: before, p, rfl, hp, hbefore⟩
    | error =>
      obtain ⟨before, p, rfl, hp, hbefore⟩ := ih h
      exact ⟨.error :: before, p, rfl, hp, hbefore⟩
    | packet q =>
      by_cases hq : IsShutdown q
      · rw [leftAtShutdown_cons_shutdown q tail hq, Option.some.injEq] at h
        exact ⟨[], q, by rw [h]; rfl, hq, fun q' hq' => absurd hq' List.not_mem_nil⟩
      · rw [leftAtShutdown_cons q tail hq] at h
        obtain ⟨before, p, rfl, hp, hbefore⟩ := ih h
        exact ⟨.packet q :: before, p, rfl, hp, List.forall_mem_cons.mpr ⟨hq, hbefore⟩⟩

theorem leftAtShutdown_eq_some_iff (arrivals rest : List Arrival) :
    leftAtShutdown arrivals = some rest ↔
      ∃ before p, arrivals = before ++ .packet p :: rest ∧ IsShutdown p ∧
        ∀ q ∈ packetsOf before, ¬ IsShutdown q := by
  refine ⟨exists_of_leftAtShutdown arrivals rest, ?_⟩
  rintro ⟨before, p, rfl, hp, hbefore⟩
  rw [leftAtShutdown_append before _ hbefore, leftAtShutdown_cons_shutdown p rest hp]

theorem not_shutdown_of_leftAtShutdown (arrivals : List Arrival)
    (h : leftAtShutdown arrivals = none) : ∀ p ∈ packetsOf arrivals, ¬ IsShutdown p := by
  induction arrivals with
  | nil => exact fun p hp => absurd hp List.not_mem_nil
  | cons arrival arrivals ih =>
    cases arrival with
    | eof => exact ih h
    | error => exact ih h
    | packet q =>
      by_cases hq : IsShutdown q
      · rw [leftAtShutdown_cons_shutdown q arrivals hq] at h
        cases h
      · rw [leftAtShutdown_cons q arrivals hq] at h
        exact List.forall_mem_cons.mpr ⟨hq, ih h⟩

/-- The daemon stops exactly when a shutdown packet is among the arrivals. -/
theorem exists_leftAtShutdown_iff (arrivals : List Arrival) :
    (∃ rest, leftAtShutdown arrivals = some rest) ↔ ∃ p ∈ packetsOf arrivals, IsShutdown p := by
  constructor
  · rintro ⟨rest, hrest⟩
    obtain ⟨before, p, rfl, hp, _⟩ := exists_of_leftAtShutdown arrivals rest hrest
    refine ⟨p, ?_, hp⟩
    rw [packetsOf, List.filterMap_append]
    exact List.mem_append_right _ List.mem_cons_self
  · rintro ⟨p, hmem, hp⟩
    cases hleft : leftAtShutdown arrivals with
    | some rest => exact ⟨rest, rfl⟩
    | none => exact absurd hp (not_shutdown_of_leftAtShutdown arrivals hleft p hmem)

/-- Whole packets, over any division into invocations and any pattern of
outcomes: the daemon attempts, packet after packet up to the first shutdown
packet, what that packet alone attempts under its own outcomes, and it stops
exactly there. -/
theorem daemon_packets_independent (stack : ℕ → BinPacket) (arrivals : List Arrival) (extra : ℕ)
    (o : Outcomes) :
    (mainLoop stack (arrivals.length + extra) (arrivals.map Arrival.read)).attempts o =
        inOrder packetReports (beforeShutdown (packetsOf arrivals)) o ∧
      (∀ left, (mainLoop stack (arrivals.length + extra) (arrivals.map Arrival.read)).result o =
          .exited left ↔
        ∃ before p rest, arrivals = before ++ .packet p :: rest ∧ IsShutdown p ∧
          (∀ q ∈ packetsOf before, ¬ IsShutdown q) ∧ left = rest.map Arrival.read) ∧
      ∀ p (o o' : Outcomes), (∀ n < (packetReports p o).length, o n = o' n) →
        packetReports p o' = packetReports p o := by
  obtain ⟨hattempts, hresult⟩ := mainLoop_run stack arrivals extra o
  refine ⟨hattempts, fun left => ?_, fun p o o' h => Attempt.attempts_local _ o o' h⟩
  rw [hresult, daemonAfter]
  constructor
  · intro h
    cases hleft : leftAtShutdown arrivals with
    | none =>
      rw [hleft] at h
      cases h
    | some rest =>
      rw [hleft] at h
      obtain ⟨before, p, harr, hp, hbefore⟩ := (leftAtShutdown_eq_some_iff arrivals rest).mp hleft
      exact ⟨before, p, rest, harr, hp, hbefore, (Daemon.exited.inj h).symm⟩
  · rintro ⟨before, p, rest, harr, hp, hbefore, rfl⟩
    rw [(leftAtShutdown_eq_some_iff arrivals rest).mpr ⟨before, p, harr, hp, hbefore⟩]

end Android2Mouse.Guarantees.PacketIndependence
