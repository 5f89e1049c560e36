import Android2Mouse.Guarantees.HostView
import Android2Mouse.Guarantees.MainLoop
import Android2Mouse.Guarantees.PacketSafety

/-!
# Runs of the whole daemon

The host sends packets on the two sockets, any number of programs write packets into the
FIFO, and the daemon makes passes and reads, all of it in any order. A packet from the FIFO
is served once, in order, whatever happens on the sockets, or is still in the FIFO
(`packets_served_once`). Hence at any moment of a session what the host has received and
what the FIFO still holds make up the calls of the session (`session_conserved`). In the
other direction there is no such thing: while a writer keeps the FIFO open the daemon does
not look at the sockets (`host_unheard`).
-/
namespace Android2Mouse.Guarantees.DaemonRuns
open Library Source.Hidp Source.ComboConn Source.HidpClientd Source.HidpClientdlib
open PacketReports Handshakes MainLoop Session HostView

/-! ## What is sent -/

/-- What the daemon sends at an event. -/
def sends (m : Machine) : Event → List Output
  | .pass answers stack o =>
    if m.control = .polling ∧ 0 < m.poll then (pass answers stack m).attempts o else []
  | .read o =>
    match m.control with
    | .reading s => (readFifo s m).attempts o
    | .polling => []
    | .exited => []
  | .arrive _ _ => []
  | .close _ => []
  | .write _ => []
  | .hangUp => []
  | .openWriter => []

def outputs : Machine → List Event → List Output
  | _, [] => []
  | m, event :: events => sends m event ++ outputs (step m event) events

def IsHandshake (out : Output) : Prop := out.2 = [0x04]

instance : DecidablePred IsHandshake := fun out => inferInstanceAs (Decidable (out.2 = [0x04]))

/-- The reports among what is sent. -/
def reports (outs : List Output) : List Output := outs.filter fun out => ¬ IsHandshake out

theorem reports_append (outs outs' : List Output) :
    reports (outs ++ outs') = reports outs ++ reports outs' := List.filter_append ..

theorem reports_handshakes (outs : List Output) (h : ∀ out ∈ outs, IsHandshake out) :
    reports outs = [] :=
  List.filter_eq_nil_iff.mpr fun out hout => by simpa using h out hout

/-- What one packet sends, on the interrupt channel. -/
def packetOutputs (t : BinPacket × Outcomes) : List Output :=
  (packetReports t.1 t.2).map fun payload => (Sock.int, payload)

theorem packetOutputs_report (t : BinPacket × Outcomes) :
    ∀ out ∈ packetOutputs t, ¬ IsHandshake out := by
  intro out hout h
  obtain ⟨payload, hpayload, rfl⟩ := List.mem_map.mp hout
  obtain ⟨report, rfl, -⟩ := (PacketSafety.packet_sends t.1 t.2).2 payload hpayload
  exact absurd (List.cons.inj h).1 (by decide)

theorem reports_packetOutputs (t : BinPacket × Outcomes) :
    reports (packetOutputs t) = packetOutputs t :=
  List.filter_eq_self.mpr fun out hout => decide_eq_true (packetOutputs_report t out hout)

/-- What is written into the FIFO. -/
def written : Event → List UInt8
  | .write bs => bs
  | .arrive _ _ => []
  | .close _ => []
  | .hangUp => []
  | .openWriter => []
  | .pass _ _ _ => []
  | .read _ => []

/-- How the sends of an event go. -/
def outcomes : Event → List Outcomes
  | .pass _ _ o => [o]
  | .read o => [o]
  | .arrive _ _ => []
  | .close _ => []
  | .write _ => []
  | .hangUp => []
  | .openWriter => []

/-! ## One read -/

/-- Between `m` and `m'`, with `added` written into the FIFO, the packets `served` have been
taken from it, and the reports among `outs` are theirs. A shutdown packet is the last one. -/
structure Serves (m m' : Machine) (added : List UInt8) (outs : List Output) (os : List Outcomes)
    (served : List (BinPacket × Outcomes)) : Prop where
  pending : m.fifo.pending ++ added =
    (served.map Prod.fst).flatMap BinPacket.bytes ++ m'.fifo.pending
  reports : reports outs = served.flatMap packetOutputs
  outcomes : ∀ t ∈ served, ∃ o ∈ os, ∃ n, t.2 = o.after n
  exited : m'.control = .exited ↔ m.control = .exited ∨ ∃ t ∈ served, IsShutdown t.1
  gone : m.control = .exited → served = []
  last : ∀ t ∈ served.dropLast, ¬ IsShutdown t.1

theorem Serves.idle {m m' : Machine} {added : List UInt8} {outs : List Output} (os : List Outcomes)
    (houts : DaemonRuns.reports outs = []) (hpending : m'.fifo.pending = m.fifo.pending ++ added)
    (hcontrol : m'.control = .exited ↔ m.control = .exited) : Serves m m' added outs os [] :=
  ⟨hpending.symm, houts, fun t ht => absurd ht List.not_mem_nil, by simp [hcontrol], fun _ => rfl,
    fun t ht => absurd ht List.not_mem_nil⟩

theorem Serves.trans {m m' m'' : Machine} {added added' : List UInt8} {outs outs' : List Output}
    {os os' : List Outcomes} {served served' : List (BinPacket × Outcomes)}
    (h : Serves m m' added outs os served) (h' : Serves m' m'' added' outs' os' served') :
    Serves m m'' (added ++ added') (outs ++ outs') (os ++ os') (served ++ served') := by
  refine ⟨?_, ?_, ?_, ?_, ?_, ?_⟩
  · rw [← List.append_assoc, h.pending, List.append_assoc, h'.pending, List.map_append,
      List.flatMap_append, List.append_assoc]
  · rw [reports_append, h.reports, h'.reports, List.flatMap_append]
  · rw [List.forall_mem_append]
    refine ⟨fun t ht => ?_, fun t ht => ?_⟩
    · obtain ⟨o, ho, hn⟩ := h.outcomes t ht
      exact ⟨o, List.mem_append_left _ ho, hn⟩
    · obtain ⟨o, ho, hn⟩ := h'.outcomes t ht
      exact ⟨o, List.mem_append_right _ ho, hn⟩
  · rw [h'.exited, h.exited, or_assoc]
    simp only [List.mem_append, or_and_right, exists_or]
  · intro hexited
    rw [h.gone hexited, h'.gone (h.exited.mpr (Or.inl hexited))]
    rfl
  · intro t ht hshutdown
    by_cases hnone : served' = []
    · rw [hnone, List.append_nil] at ht
      exact h.last t ht hshutdown
    · rw [List.dropLast_append_of_ne_nil hnone, List.mem_append] at ht
      rcases ht with ht | ht
      · exact hnone (h'.gone (h.exited.mpr (Or.inr ⟨t, ht, hshutdown⟩)))
      · exact h'.last t ht hshutdown

/-- Between two packets the reports are zeroed. -/
def Ready (control : Control) : Prop := ∀ s, control = .reading s → ∃ p, s = .entry p

theorem take_packet (p : BinPacket) (bs : List UInt8) :
    (p.bytes ++ bs).take binPacketSize = p.bytes := List.take_left' p.bytes_length

theorem drop_packet (p : BinPacket) (bs : List UInt8) :
    (p.bytes ++ bs).drop binPacketSize = bs := List.drop_left' p.bytes_length

theorem packet_append_ne_nil (p : BinPacket) (bs : List UInt8) : p.bytes ++ bs ≠ [] :=
  List.append_ne_nil_of_left_ne_nil
    (List.ne_nil_of_length_pos (by rw [p.bytes_length]; decide)) _

/-- Where the daemon is once a packet has been handled. -/
def resumed (handled : Locals × Option Method) : Control :=
  match handled.2 with
  | none => .reading handled.1
  | some code => .returned code

/-- A read that finds something handles it over what the last packet has left. -/
theorem readFifo_found (q : BinPacket) (m : Machine) (h : m.fifo.pending ≠ []) :
    readFifo (.entry q) m =
      (handlePacket (.entry (q.overlay (m.fifo.pending.take binPacketSize)))).mapOutput
        (fun payload => (Sock.int, payload)) >>= fun handled =>
          .done { m with
            fifo := { m.fifo with pending := m.fifo.pending.drop binPacketSize }
            control := resumed handled } := by
  rw [readFifo, if_neg h]
  refine congrArg _ (funext fun handled => ?_)
  obtain ⟨s, code⟩ := handled
  cases code with
  | none => rfl
  | some code => rfl

theorem readFifo_packet (q p : BinPacket) (m : Machine) (bs : List UInt8)
    (hpending : m.fifo.pending = p.bytes ++ bs) :
    readFifo (.entry q) m =
      (handlePacket (.entry p)).mapOutput (fun payload => (Sock.int, payload)) >>= fun handled =>
        .done { m with fifo := { m.fifo with pending := bs }, control := resumed handled } := by
  have hne : m.fifo.pending ≠ [] := by
    rw [hpending]
    exact packet_append_ne_nil p bs
  rw [readFifo_found q m hne, hpending, take_packet, drop_packet, BinPacket.overlay_bytes]

/-- How a packet ends. -/
theorem resumed_packet (p : BinPacket) (o : Outcomes) :
    Ready (resumed ((handlePacket (.entry p)).result o)) ∧
      (resumed ((handlePacket (.entry p)).result o) = .exited ↔ IsShutdown p) := by
  rcases handlePacket_ends p o with ⟨hns, ⟨p', hend⟩ | ⟨s', hend⟩⟩ | ⟨hs, -, hend⟩
  · rw [hend]
    exact ⟨fun s h => ⟨p', (Control.reading.inj h).symm⟩, iff_of_false Control.noConfusion hns⟩
  · rw [hend]
    exact ⟨fun s h => Control.noConfusion h, iff_of_false Control.noConfusion hns⟩
  · rw [hend]
    exact ⟨fun s h => Control.noConfusion h, iff_of_true rfl hs⟩

/-- What a read serves of the packets that wait. -/
def servedBy (o : Outcomes) (waiting : List BinPacket) : List (BinPacket × Outcomes) :=
  (waiting.take 1).map fun p => (p, o)

theorem readFifo_serves (q : BinPacket) (m : Machine) (waiting : List BinPacket) (o : Outcomes)
    (hcontrol : m.control = .reading (.entry q))
    (hpending : m.fifo.pending = waiting.flatMap BinPacket.bytes) :
    Ready ((readFifo (.entry q) m).result o).control ∧
      Serves m ((readFifo (.entry q) m).result o) [] ((readFifo (.entry q) m).attempts o) [o]
        (servedBy o waiting) := by
  have hlive : ¬ m.control = .exited := by rw [hcontrol]; exact Control.noConfusion
  cases waiting with
  | nil =>
    rw [List.flatMap_nil] at hpending
    have hread : readFifo (.entry q) m =
        .done (if m.fifo.hungUp then { m with control := .polling } else m) := by
      rw [readFifo, if_pos hpending]
      rfl
    rw [hread, Attempt.result_done, Attempt.attempts_done]
    cases m.fifo.hungUp with
    | true =>
      exact ⟨fun s hs => Control.noConfusion hs, .idle [o] rfl (List.append_nil _).symm
        (iff_of_false Control.noConfusion hlive)⟩
    | false =>
      exact ⟨fun s hs => ⟨q, Control.reading.inj (hs.symm.trans hcontrol)⟩,
        .idle [o] rfl (List.append_nil _).symm Iff.rfl⟩
  | cons p rest =>
    obtain ⟨hready, hexited⟩ := resumed_packet p o
    rw [readFifo_packet q p m _ hpending, Attempt.result_bind, Attempt.attempts_bind,
      Attempt.result_mapOutput, Attempt.attempts_mapOutput, Attempt.result_done,
      Attempt.attempts_done, List.append_nil]
    refine ⟨hready, ?_, ?_, ?_, ?_, fun hexit => absurd hexit hlive,
      fun t ht => absurd ht List.not_mem_nil⟩
    · rw [List.append_nil, hpending, servedBy, List.take_succ_cons, List.take_zero,
        List.map_singleton, List.map_singleton, List.flatMap_singleton, List.flatMap_cons]
      rfl
    · exact (reports_packetOutputs (p, o)).trans (List.flatMap_singleton ..).symm
    · exact fun t ht => ⟨o, List.mem_singleton_self o, 0, by simp [List.mem_singleton.mp ht]⟩
    · have hone : (∃ t ∈ servedBy o (p :: rest), IsShutdown t.1) ↔ IsShutdown p := by
        simp [servedBy]
      rw [or_iff_right hlive, hone]
      exact hexited

/-! ## A pass -/

/-- Processing sockets serves nothing. -/
theorem visit_serves (answers : Sock → Answers) (stack : BinPacket) (fds : List Fd)
    (h : Fd.src ∉ fds) (m : Machine) (o : Outcomes) :
    ((visit answers stack fds m).result o).fifo = m.fifo ∧
      Serves m ((visit answers stack fds m).result o) [] ((visit answers stack fds m).attempts o)
        [] [] := by
  suffices hsent : ((visit answers stack fds m).result o).fifo = m.fifo ∧
      ∀ out ∈ (visit answers stack fds m).attempts o, IsHandshake out by
    refine ⟨hsent.1, .idle [] (reports_handshakes _ hsent.2) ?_ ?_⟩
    · rw [hsent.1, List.append_nil]
    · rw [visit_control answers stack fds h]
  induction fds generalizing m o with
  | nil => exact ⟨rfl, fun out hout => absurd hout List.not_mem_nil⟩
  | cons fd fds ih =>
    obtain ⟨hfd, hfds⟩ := not_or.mp (List.mem_cons.not.mp h)
    cases fd with
    | sock sk =>
      obtain ⟨hfifo, hrest⟩ := ih hfds ((processFd answers stack m (.sock sk)).result o)
        (o.after ((processFd answers stack m (.sock sk)).attempts o).length)
      rw [visit, Attempt.result_bind, Attempt.attempts_bind, List.forall_mem_append]
      refine ⟨?_, ?_, hrest⟩
      · rw [hfifo, processFd_sock]
        rfl
      · have hattempts : (processFd answers stack m (.sock sk)).attempts o =
            (processSk sk (answers sk) (m.sockets sk).pending).attempts o := by
          rw [processFd, Attempt.attempts_bind]
          exact List.append_nil _
        rw [hattempts, (processSk_run sk (answers sk) _ o).2]
        split
        · exact List.forall_mem_singleton.mpr rfl
        · exact fun out hout => absurd hout List.not_mem_nil
    | src => exact absurd rfl hfd

/-- The sockets with `POLLIN`. -/
def pollinSocks (m : Machine) : List Fd := [Fd.sock .cnt, .sock .int].filter m.pollin

theorem src_not_mem_pollinSocks (m : Machine) : Fd.src ∉ pollinSocks m := by
  intro hmem
  have hsrc : Fd.src ∈ [Fd.sock .cnt, .sock .int] := (List.mem_filter.mp hmem).1
  revert hsrc
  decide

theorem visit_append (answers : Sock → Answers) (stack : BinPacket) (fds fds' : List Fd)
    (m : Machine) :
    visit answers stack (fds ++ fds') m =
      visit answers stack fds m >>= visit answers stack fds' := by
  induction fds generalizing m with
  | nil => rfl
  | cons fd fds ih =>
    rw [List.cons_append, visit, visit, Attempt.bind_assoc]
    congr 1
    funext m'
    exact ih m'

/-- A pass is a visit of the sockets, and a read if there was something to read. -/
theorem pass_split (answers : Sock → Answers) (stack : BinPacket) (m : Machine) :
    pass answers stack m = visit answers stack (pollinSocks m) m >>= fun m' =>
      if m.fifo.pending = [] then .done m'
      else readFifo (.entry stack) { m' with control := .reading (.entry stack) } := by
  have hfds : pFds.filter m.pollin = pollinSocks m ++ [Fd.src].filter m.pollin :=
    List.filter_append [Fd.sock .cnt, .sock .int] [Fd.src]
  rw [pass_eq, hfds, visit_append]
  congr 1
  funext m'
  by_cases hempty : m.fifo.pending = []
  · rw [if_pos hempty, List.filter_cons_of_neg (by simp [Machine.pollin, hempty])]
    rfl
  · rw [if_neg hempty, List.filter_cons_of_pos (by simp [Machine.pollin, hempty])]
    exact Attempt.bind_done _

theorem Serves.from_poll {m m' : Machine} {s : Locals} {added : List UInt8} {outs : List Output}
    {o : Outcomes} {n : ℕ} {served : List (BinPacket × Outcomes)} (hcontrol : m.control = .polling)
    (h : Serves { m with control := .reading s } m' added outs [o.after n] served) :
    Serves m m' added outs [o] served := by
  refine ⟨h.pending, h.reports, fun t ht => ?_, ?_, fun hexit => ?_, h.last⟩
  · obtain ⟨o', ho', k, hk⟩ := h.outcomes t ht
    rw [List.mem_singleton.mp ho', Outcomes.after_after] at hk
    exact ⟨o, List.mem_singleton_self o, n + k, hk⟩
  · rw [h.exited, hcontrol]
    exact or_congr_left (iff_of_false Control.noConfusion Control.noConfusion)
  · rw [hcontrol] at hexit
    cases hexit

theorem waiting_eq_nil {waiting : List BinPacket} (h : waiting.flatMap BinPacket.bytes = []) :
    waiting = [] := by
  cases waiting with
  | nil => rfl
  | cons p rest => exact absurd h (packet_append_ne_nil p _)

theorem pass_serves (answers : Sock → Answers) (stack : BinPacket) (m : Machine)
    (waiting : List BinPacket) (o : Outcomes) (hcontrol : m.control = .polling)
    (hpending : m.fifo.pending = waiting.flatMap BinPacket.bytes) :
    ∃ served, Ready ((pass answers stack m).result o).control ∧
      Serves m ((pass answers stack m).result o) [] ((pass answers stack m).attempts o) [o]
        served := by
  obtain ⟨hfifo, hsocks⟩ := visit_serves answers stack _ (src_not_mem_pollinSocks m) m o
  have hstill := visit_control answers stack _ (src_not_mem_pollinSocks m) m o
  rw [pass_split, Attempt.result_bind, Attempt.attempts_bind]
  generalize Attempt.result (visit answers stack (pollinSocks m) m) o = m' at hfifo hsocks hstill ⊢
  generalize Attempt.attempts (visit answers stack (pollinSocks m) m) o = handshakes at hsocks ⊢
  by_cases hempty : m.fifo.pending = []
  · rw [if_pos hempty, Attempt.result_done, Attempt.attempts_done]
    refine ⟨[], fun s hs => ?_, hsocks.trans (.idle [o] rfl (List.append_nil _).symm Iff.rfl)⟩
    rw [hstill, hcontrol] at hs
    cases hs
  · rw [if_neg hempty]
    rw [hcontrol] at hstill
    obtain ⟨hready, hserves⟩ := readFifo_serves stack
      { m' with control := .reading (.entry stack) } waiting (o.after handshakes.length) rfl
      ((congrArg Fifo.pending hfifo).trans hpending)
    exact ⟨_, hready, hsocks.trans (hserves.from_poll hstill)⟩

/-! ## Runs -/

/-- Whole packets are written, by whichever program. -/
def Whole (event : Event) : Prop :=
  ∃ packets : List BinPacket, written event = packets.flatMap BinPacket.bytes

theorem step_serves (m : Machine) (waiting : List BinPacket) (event : Event)
    (hready : Ready m.control) (hpending : m.fifo.pending = waiting.flatMap BinPacket.bytes) :
    ∃ served, Ready (step m event).control ∧
      Serves m (step m event) (written event) (sends m event) (outcomes event) served := by
  have hidle : ∀ os, Serves m m [] [] os [] := fun os =>
    .idle os rfl (List.append_nil _).symm Iff.rfl
  cases event with
  | arrive sk pkt => exact ⟨[], hready, .idle [] rfl (List.append_nil _).symm Iff.rfl⟩
  | close sk => exact ⟨[], hready, .idle [] rfl (List.append_nil _).symm Iff.rfl⟩
  | write bs => exact ⟨[], hready, .idle [] rfl rfl Iff.rfl⟩
  | hangUp => exact ⟨[], hready, .idle [] rfl (List.append_nil _).symm Iff.rfl⟩
  | openWriter => exact ⟨[], hready, .idle [] rfl (List.append_nil _).symm Iff.rfl⟩
  | pass answers stack o =>
    rw [step, sends]
    by_cases hpass : m.control = .polling ∧ 0 < m.poll
    · rw [if_pos hpass, if_pos hpass]
      exact pass_serves answers stack m waiting o hpass.1 hpending
    · rw [if_neg hpass, if_neg hpass]
      exact ⟨[], hready, hidle [o]⟩
  | read o =>
    rw [step, sends]
    cases hcontrol : m.control with
    | reading s =>
      obtain ⟨q, rfl⟩ := hready s hcontrol
      obtain ⟨hready', hserves⟩ := readFifo_serves q m waiting o hcontrol hpending
      exact ⟨_, hready', hserves⟩
    | polling => exact ⟨[], hready, hidle [o]⟩
    | exited => exact ⟨[], hready, hidle [o]⟩

/-- What is left of whole packets when some have been taken. -/
theorem whole_rest (taken : List BinPacket) {bs : List UInt8} (waiting : List BinPacket)
    (h : waiting.flatMap BinPacket.bytes = taken.flatMap BinPacket.bytes ++ bs) :
    ∃ rest : List BinPacket, bs = rest.flatMap BinPacket.bytes := by
  induction taken generalizing waiting with
  | nil => exact ⟨waiting, h.symm⟩
  | cons p taken ih =>
    rw [List.flatMap_cons, List.append_assoc] at h
    cases waiting with
    | nil => exact absurd h.symm (packet_append_ne_nil p _)
    | cons q waiting =>
      have hlen : q.bytes.length = p.bytes.length := by rw [q.bytes_length, p.bytes_length]
      exact ih waiting (List.append_inj h hlen).2

theorem run_serves (events : List Event) (hwhole : ∀ event ∈ events, Whole event) (m : Machine)
    (waiting : List BinPacket) (hready : Ready m.control)
    (hpending : m.fifo.pending = waiting.flatMap BinPacket.bytes) :
    ∃ (served : List (BinPacket × Outcomes)) (rest : List BinPacket),
      (events.foldl step m).fifo.pending = rest.flatMap BinPacket.bytes ∧
      Serves m (events.foldl step m) (events.flatMap written) (outputs m events)
        (events.flatMap outcomes) served := by
  induction events generalizing m waiting with
  | nil => exact ⟨[], waiting, hpending, .idle [] rfl (List.append_nil _).symm Iff.rfl⟩
  | cons event events ih =>
    obtain ⟨hfirst, hevents⟩ := List.forall_mem_cons.mp hwhole
    obtain ⟨served, hready', hserves⟩ := step_serves m waiting event hready hpending
    obtain ⟨packets, hpackets⟩ := hfirst
    have hleft := hserves.pending
    rw [hpending, hpackets, ← List.flatMap_append] at hleft
    obtain ⟨rest, hrest⟩ := whole_rest _ _ hleft
    obtain ⟨served', rest', hpending', hserves'⟩ := ih hevents _ rest hready' hrest
    exact ⟨served ++ served', rest', hpending', hserves.trans hserves'⟩

/-- Over every run in which whole packets are written into the FIFO, whatever else happens and
however the sends go: the packets that have been served, each under outcomes of the run, and
those that wait are those that were written, in order; the reports sent are those of the
packets served; the daemon has exited exactly when a shutdown packet has been served, which is
then the last one. -/
theorem packets_served_once (m : Machine) (hcontrol : m.control = .polling)
    (hempty : m.fifo.pending = []) (events : List Event) (hwhole : ∀ event ∈ events, Whole event) :
    ∃ (served : List (BinPacket × Outcomes)) (rest : List BinPacket),
      events.flatMap written = (served.map Prod.fst ++ rest).flatMap BinPacket.bytes ∧
      (events.foldl step m).fifo.pending = rest.flatMap BinPacket.bytes ∧
      reports (outputs m events) = served.flatMap packetOutputs ∧
      (∀ t ∈ served, ∃ o ∈ events.flatMap outcomes, ∃ n, t.2 = o.after n) ∧
      ((events.foldl step m).control = .exited ↔ ∃ t ∈ served, IsShutdown t.1) ∧
      ∀ t ∈ served.dropLast, ¬ IsShutdown t.1 := by
  have hready : Ready m.control := fun s hs => by
    rw [hcontrol] at hs
    cases hs
  obtain ⟨served, rest, hrest, hserves⟩ := run_serves events hwhole m [] hready hempty
  have hwritten := hserves.pending
  have hexited := hserves.exited
  rw [hempty, List.nil_append, hrest, ← List.flatMap_append] at hwritten
  rw [hcontrol, or_iff_right Control.noConfusion] at hexited
  exact ⟨served, rest, hwritten, hrest, hserves.reports, hserves.outcomes, hexited, hserves.last⟩

/-- A packet from the host that has no handler, then a mouse packet and a shutdown packet. -/
theorem packets_served_two :
    let m : Machine := ⟨fun _ => ⟨[], false⟩, ⟨[], false⟩, .polling⟩
    let events : List Event := [.arrive .cnt ⟨0x20, []⟩, .write (mousePacket 1 2 0 0).bytes,
      .pass (fun _ => ⟨false, false, 0⟩) .zero .allSucceed, .write shutdownPacket.bytes,
      .read .allSucceed]
    ∃ (served : List (BinPacket × Outcomes)) (rest : List BinPacket),
      events.flatMap written = (served.map Prod.fst ++ rest).flatMap BinPacket.bytes ∧
      reports (outputs m events) = served.flatMap packetOutputs := by
  intro m events
  have hwhole : ∀ event ∈ events, Whole event := by
    simp only [events, List.forall_mem_cons]
    exact ⟨⟨[], rfl⟩, ⟨[mousePacket 1 2 0 0], (List.append_nil _).symm⟩, ⟨[], rfl⟩,
      ⟨[shutdownPacket], (List.append_nil _).symm⟩, ⟨[], rfl⟩,
      fun event h => absurd h List.not_mem_nil⟩
  obtain ⟨served, rest, hwritten, -, hreports, -⟩ := packets_served_once m rfl rfl events hwhole
  exact ⟨served, rest, hwritten, hreports⟩

/-! ## Sessions -/

theorem packets_inj {packets packets' : List BinPacket}
    (h : packets.flatMap BinPacket.bytes = packets'.flatMap BinPacket.bytes) : packets = packets' := by
  induction packets generalizing packets' with
  | nil => exact (waiting_eq_nil h.symm).symm
  | cons p packets ih =>
    cases packets' with
    | nil => exact absurd h (packet_append_ne_nil p _)
    | cons q packets' =>
      have hlen : p.bytes.length = q.bytes.length := by rw [p.bytes_length, q.bytes_length]
      obtain ⟨hbytes, hrest⟩ := List.append_inj h hlen
      have hpacket := congrArg BinPacket.ofBytes hbytes
      rw [BinPacket.ofBytes_bytes, BinPacket.ofBytes_bytes] at hpacket
      rw [hpacket, ih hrest]

/-- What packets send whose sends succeed. -/
theorem served_delivered (served : List (BinPacket × Outcomes))
    (h : ∀ t ∈ served, t.2 = .allSucceed) :
    (served.flatMap packetOutputs).map Prod.snd = (served.map Prod.fst).flatMap delivered := by
  induction served with
  | nil => rfl
  | cons t served ih =>
    obtain ⟨ht, hserved⟩ := List.forall_mem_cons.mp h
    have hfirst : (packetOutputs t).map Prod.snd = delivered t.1 := by
      rw [packetOutputs, List.map_map, ht]
      exact List.map_id _
    rw [List.flatMap_cons, List.map_append, hfirst, ih hserved, List.map_cons, List.flatMap_cons]

/-- At any moment of a session of the front end, whatever the host does and however the passes
and reads fall between the writes, if the sends succeed: the reports that the host has received,
then those of the packets still in the FIFO and those of the packets still to be written, are
what the calls of the session mean. -/
theorem session_conserved (m : Machine) (hcontrol : m.control = .polling)
    (hempty : m.fifo.pending = []) (events : List Event) (hwhole : ∀ event ∈ events, Whole event)
    (hsent : ∀ o ∈ events.flatMap outcomes, o = .allSucceed) (opened : Descriptor)
    (packet : BinPacket) (fd : Int32) (calls : List Source.HidpBcaster.Call)
    (packets later : List BinPacket)
    (hwritten : events.flatMap written = packets.flatMap BinPacket.bytes)
    (hcalls : sessionPackets opened packet fd calls = packets ++ later) :
    ∃ rest : List BinPacket, (events.foldl step m).fifo.pending = rest.flatMap BinPacket.bytes ∧
      (reports (outputs m events)).map Prod.snd ++ (rest ++ later).flatMap delivered =
        sent calls (startOf opened packet fd) ∧
      (events.foldl step m).control ≠ .exited := by
  have hready : Ready m.control := fun s hs => by
    rw [hcontrol] at hs
    cases hs
  obtain ⟨served, rest, hrest, hserves⟩ := run_serves events hwhole m [] hready hempty
  have hall : ∀ t ∈ served, t.2 = .allSucceed := by
    intro t ht
    obtain ⟨o, ho, n, hn⟩ := hserves.outcomes t ht
    rw [hn, hsent o ho, Outcomes.after_allSucceed]
  have hpackets : packets = served.map Prod.fst ++ rest := by
    apply packets_inj
    have hpending := hserves.pending
    rw [hempty, List.nil_append, hrest, ← List.flatMap_append] at hpending
    exact hwritten.symm.trans hpending
  rw [sessionPackets_eq] at hcalls
  refine ⟨rest, hrest, ?_, ?_⟩
  · rw [hserves.reports, served_delivered served hall, ← List.flatMap_append, ← List.append_assoc,
      ← hpackets, ← hcalls, flatMap_delivered]
    rfl
  · rw [Ne, hserves.exited, hcontrol, or_iff_right Control.noConfusion]
    rintro ⟨t, ht, hshutdown⟩
    refine session_not_shutdown (Source.HidpBcaster.clientCallsOf calls (startOf opened packet fd))
      t.1 ?_ hshutdown
    rw [hcalls, hpackets]
    exact List.mem_append_left _ (List.mem_append_left _ (List.mem_map_of_mem ht))

/-- A motion and then a click; the click is still in the FIFO. -/
theorem session_conserved_motion :
    let m : Machine := ⟨fun _ => ⟨[], false⟩, ⟨[], false⟩, .polling⟩
    let calls : List Source.HidpBcaster.Call := [.reportMouse 1 2 0, .pushMouseButton 1]
    let events : List Event := [.write (mousePacket 1 2 0 0).bytes,
      .pass (fun _ => ⟨false, false, 0⟩) .zero .allSucceed, .write (mousePacket 0 0 1 0).bytes]
    ∃ rest : List BinPacket, (events.foldl step m).fifo.pending = rest.flatMap BinPacket.bytes ∧
      (reports (outputs m events)).map Prod.snd ++ (rest ++ []).flatMap delivered =
        sent calls (startOf ⟨3, by decide⟩ .zero 0) ∧
      (events.foldl step m).control ≠ .exited := by
  intro m calls events
  have hwhole : ∀ event ∈ events, Whole event := by
    simp only [events, List.forall_mem_cons]
    exact ⟨⟨[mousePacket 1 2 0 0], (List.append_nil _).symm⟩, ⟨[], rfl⟩,
      ⟨[mousePacket 0 0 1 0], (List.append_nil _).symm⟩, fun event h => absurd h List.not_mem_nil⟩
  exact session_conserved m rfl rfl events hwhole (fun o ho => List.mem_singleton.mp ho)
    ⟨3, by decide⟩ .zero 0 calls [mousePacket 1 2 0 0, mousePacket 0 0 1 0] [] rfl (by decide)

/-! ## The host while the FIFO is open -/

/-- The packets that arrive on a socket. -/
def arrived (sk : Sock) : Event → List HidpPkt
  | .arrive sk' pkt => if sk' = sk then [pkt] else []
  | .close _ => []
  | .write _ => []
  | .hangUp => []
  | .openWriter => []
  | .pass _ _ _ => []
  | .read _ => []

/-- Inside `process_multi_bin`, or gone. -/
def Away (control : Control) : Prop := Ready control ∧ control ≠ .polling

/-- When its sends succeed a packet does not lead back to `poll`. -/
theorem resumed_away (p : BinPacket) :
    Away (resumed ((handlePacket (.entry p)).result .allSucceed)) := by
  refine ⟨(resumed_packet p .allSucceed).1, ?_⟩
  rcases handlePacket_cases p with ⟨-, β, q, p', h⟩ | ⟨-, data, bad, h⟩ | ⟨-, h⟩
  · rw [h, Attempt.result_bind]
    exact Control.noConfusion
  · rw [h]
    exact Control.noConfusion
  · rw [h]
    exact Control.noConfusion

theorem readFifo_away (q : BinPacket) (m : Machine) (hcontrol : m.control = .reading (.entry q))
    (hopen : m.fifo.hungUp = false) :
    let m' := (readFifo (.entry q) m).result .allSucceed
    Away m'.control ∧ m'.fifo.hungUp = false ∧ m'.sockets = m.sockets ∧
      ∀ out ∈ (readFifo (.entry q) m).attempts .allSucceed, ¬ IsHandshake out := by
  intro m'
  by_cases hempty : m.fifo.pending = []
  · have hread : readFifo (.entry q) m = .done m := by
      rw [readFifo, if_pos hempty, hopen]
      rfl
    have hm' : m' = m := congrArg (Attempt.result · .allSucceed) hread
    rw [hm', hread, hcontrol]
    exact ⟨⟨fun s hs => ⟨q, (Control.reading.inj hs).symm⟩, Control.noConfusion⟩, hopen, rfl,
      fun out hout => absurd hout List.not_mem_nil⟩
  · have hread := readFifo_found q m hempty
    have hm' := congrArg (Attempt.result · .allSucceed) hread
    rw [Attempt.result_bind, Attempt.result_mapOutput] at hm'
    rw [show m' = _ from hm', hread, Attempt.attempts_bind, Attempt.attempts_mapOutput,
      Attempt.result_done, Attempt.attempts_done, List.append_nil]
    exact ⟨resumed_away _, hopen, rfl, packetOutputs_report (_, .allSucceed)⟩

/-- What an event does while the daemon is away from `poll`. -/
theorem step_away (m : Machine) (event : Event) (haway : Away m.control)
    (hopen : m.fifo.hungUp = false) (hwriter : event ≠ .hangUp)
    (hsent : ∀ o ∈ outcomes event, o = .allSucceed) :
    Away (step m event).control ∧ (step m event).fifo.hungUp = false ∧
      (∀ sk, ((step m event).sockets sk).pending = (m.sockets sk).pending ++ arrived sk event) ∧
      ∀ out ∈ sends m event, ¬ IsHandshake out := by
  have hsilent : ∀ out ∈ ([] : List Output), ¬ IsHandshake out :=
    fun out hout => absurd hout List.not_mem_nil
  have hsame : ∀ sk, (m.sockets sk).pending = (m.sockets sk).pending ++ [] :=
    fun sk => (List.append_nil _).symm
  cases event with
  | arrive sk pkt =>
    refine ⟨haway, hopen, fun sk' => ?_, hsilent⟩
    rw [step, arrived]
    by_cases hsk : sk = sk'
    · subst hsk
      rw [Machine.setSocket_self, if_pos rfl]
    · rw [Machine.setSocket_of_ne m (Ne.symm hsk), if_neg hsk, List.append_nil]
  | close sk =>
    refine ⟨haway, hopen, fun sk' => ?_, hsilent⟩
    rw [step, arrived, List.append_nil]
    by_cases hsk : sk' = sk
    · subst hsk
      rw [Machine.setSocket_self]
    · rw [Machine.setSocket_of_ne m hsk]
  | write bs => exact ⟨haway, hopen, hsame, hsilent⟩
  | hangUp => exact absurd rfl hwriter
  | openWriter => exact ⟨haway, rfl, hsame, hsilent⟩
  | pass answers stack o =>
    have hpass : ¬ (m.control = .polling ∧ 0 < m.poll) := fun h => haway.2 h.1
    rw [step, sends, if_neg hpass, if_neg hpass]
    exact ⟨haway, hopen, hsame, hsilent⟩
  | read o =>
    obtain rfl := hsent o (List.mem_singleton_self o)
    rw [step, sends]
    cases hcontrol : m.control with
    | reading s =>
      obtain ⟨q, rfl⟩ := haway.1 s hcontrol
      obtain ⟨haway', hopen', hsockets, houts⟩ := readFifo_away q m hcontrol hopen
      refine ⟨haway', hopen', fun sk => ?_, houts⟩
      rw [arrived, List.append_nil]
      exact congrArg (fun sockets : Sock → Socket => (sockets sk).pending) hsockets
    | polling => exact absurd hcontrol haway.2
    | exited => exact ⟨haway, hopen, hsame, hsilent⟩

/-- From the first packet of a session on, for as long as a writer keeps the FIFO open and the
sends succeed, no packet of the host is received or answered: whatever happens, in whatever
order, everything that arrives on the sockets stays there, and the daemon does not come back
to `poll`. -/
theorem host_unheard (m : Machine) (q : BinPacket) (hcontrol : m.control = .reading (.entry q))
    (hopen : m.fifo.hungUp = false) (events : List Event) (hwriter : .hangUp ∉ events)
    (hsent : ∀ o ∈ events.flatMap outcomes, o = .allSucceed) :
    (∀ sk, ((events.foldl step m).sockets sk).pending =
        (m.sockets sk).pending ++ events.flatMap (arrived sk)) ∧
      (∀ out ∈ outputs m events, ¬ IsHandshake out) ∧
      (events.foldl step m).control ≠ .polling := by
  have haway : Away m.control := by
    rw [hcontrol]
    exact ⟨fun s hs => ⟨q, (Control.reading.inj hs).symm⟩, Control.noConfusion⟩
  clear hcontrol
  induction events generalizing m with
  | nil =>
    exact ⟨fun sk => (List.append_nil _).symm, fun out hout => absurd hout List.not_mem_nil,
      haway.2⟩
  | cons event events ih =>
    obtain ⟨hfirst, hevents⟩ := not_or.mp (List.mem_cons.not.mp hwriter)
    rw [List.flatMap_cons, List.forall_mem_append] at hsent
    obtain ⟨haway', hopen', harrived, houts⟩ :=
      step_away m event haway hopen (Ne.symm hfirst) hsent.1
    obtain ⟨hpending, hrest, hend⟩ := ih _ hopen' hevents hsent.2 haway'
    refine ⟨fun sk => ?_, List.forall_mem_append.mpr ⟨houts, hrest⟩, hend⟩
    rw [List.foldl_cons, hpending sk, harrived sk, List.flatMap_cons, List.append_assoc]

/-- A packet on the control channel that has no handler, and motions of the mouse. -/
theorem host_unheard_motion :
    let m : Machine := ⟨fun _ => ⟨[], false⟩, ⟨[], false⟩, .reading (.entry .zero)⟩
    let events : List Event := [.arrive .cnt ⟨0x20, []⟩, .write (mousePacket 1 2 0 0).bytes,
      .read .allSucceed, .read .allSucceed]
    ∀ sk, ((events.foldl step m).sockets sk).pending = events.flatMap (arrived sk) := by
  intro m events
  have hwriter : .hangUp ∉ events := by simp [events]
  have hsent : ∀ o ∈ events.flatMap outcomes, o = .allSucceed := fun o ho => by
    rcases List.mem_pair.mp ho with rfl | rfl
    · rfl
    · rfl
  exact (host_unheard m .zero rfl rfl events hwriter hsent).1

end Android2Mouse.Guarantees.DaemonRuns
