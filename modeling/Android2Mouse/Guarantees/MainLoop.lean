import Mathlib.Data.List.Nodup
import Mathlib.Tactic.ByContra
import Android2Mouse.Library.Lasting
import Android2Mouse.Guarantees.Handshakes

/-!
# Progress of the main loop

A pass with a positive poll result takes something from every descriptor with input:
a packet from a socket, up to one packet's size from the FIFO (`pass_waiting`). A
descriptor without input can make `poll` return too: a socket that the host has closed
reports `POLLIN` forever, and a FIFO without a writer reports `POLLHUP`, which the loop
does not look at. Then the pass changes nothing (`drained_spins`). So the passes make
progress exactly when each starts with some input, and such passes are bounded by the
input (`progress_iff`).
-/
namespace Android2Mouse.Guarantees.MainLoop
open Library Source.Hidp Source.ComboConn Source.HidpClientd Handshakes

/-! ## Runs of the machine -/

/-- What happens to the daemon from outside, and what it does itself: a pass of the
loop, with what it meets, and a further read of a pass that is in the FIFO. -/
inductive Event where
  | arrive (sk : Sock) (pkt : HidpPkt)
  | close (sk : Sock)
  | write (bs : List UInt8)
  | hangUp
  | openWriter
  | pass (answers : Sock → Answers) (stack : BinPacket) (o : Outcomes)
  | read (o : Outcomes)

/-- The daemon waits in `poll` while it returns zero, and in `read` while the FIFO is
empty and has a writer. -/
def step (m : Machine) : Event → Machine
  | .arrive sk pkt =>
    m.setSocket sk { m.sockets sk with pending := (m.sockets sk).pending ++ [pkt] }
  | .close sk => m.setSocket sk { m.sockets sk with closed := true }
  | .write bs => { m with fifo := { m.fifo with pending := m.fifo.pending ++ bs } }
  | .hangUp => { m with fifo := { m.fifo with hungUp := true } }
  | .openWriter => { m with fifo := { m.fifo with hungUp := false } }
  | .pass answers stack o =>
    if m.control = .polling ∧ 0 < m.poll then (pass answers stack m).result o else m
  | .read o =>
    match m.control with
    | .reading s => (readFifo s m).result o
    | .polling => m
    | .exited => m

/-- The event is a pass whose `poll` returns a positive number. -/
def PositivePass (m : Machine) : Event → Prop
  | .pass _ _ _ => m.control = .polling ∧ 0 < m.poll
  | _ => False

instance (m : Machine) : (event : Event) → Decidable (PositivePass m event)
  | .pass _ _ _ => inferInstanceAs (Decidable (m.control = .polling ∧ 0 < m.poll))
  | .arrive _ _ => inferInstanceAs (Decidable False)
  | .close _ => inferInstanceAs (Decidable False)
  | .write _ => inferInstanceAs (Decidable False)
  | .hangUp => inferInstanceAs (Decidable False)
  | .openWriter => inferInstanceAs (Decidable False)
  | .read _ => inferInstanceAs (Decidable False)

/-- The packets or bytes waiting on a descriptor. -/
def waiting (m : Machine) : Fd → ℕ
  | .sock sk => (m.sockets sk).pending.length
  | .src => m.fifo.pending.length

/-- Everything that is waiting. -/
def load (m : Machine) : ℕ := waiting m (.sock .cnt) + waiting m (.sock .int) + waiting m .src

/-- The pass takes a packet or a byte from some descriptor, or ends the process. -/
def Progress (m : Machine) (event : Event) : Prop :=
  load (step m event) < load m ∨ (step m event).control = .exited

/-- A packet is waiting on a socket whose `recv` works, or a byte in the FIFO. -/
def HasInput (m : Machine) : Event → Prop
  | .pass answers _ _ =>
    (∃ sk, (m.sockets sk).pending ≠ [] ∧ (answers sk).recvFails = false) ∨ m.fifo.pending ≠ []
  | _ => False

/-! ## One descriptor -/

/-- The most that processing a descriptor takes from it. -/
def quota (answers : Sock → Answers) : Fd → ℕ
  | .sock sk => if (answers sk).recvFails then 0 else 1
  | .src => binPacketSize

/-- What `process_sk` leaves of the machine. -/
theorem processFd_sock (answers : Sock → Answers) (stack : BinPacket) (m : Machine) (sk : Sock)
    (o : Outcomes) :
    (processFd answers stack m (.sock sk)).result o =
      m.setSocket sk { m.sockets sk with
        pending := (m.sockets sk).pending.drop
          (receivedBy (answers sk) (m.sockets sk).pending).length } := by
  rw [processFd, Attempt.result_bind, ← (processSk_run sk (answers sk) _ o).1]
  rfl

/-- A read takes up to one packet's size from the FIFO and touches no socket. -/
theorem readFifo_result (s : Locals) (m : Machine) (o : Outcomes) :
    ((readFifo s m).result o).sockets = m.sockets ∧
      ((readFifo s m).result o).fifo.pending = m.fifo.pending.drop binPacketSize := by
  unfold readFifo
  by_cases hempty : m.fifo.pending = []
  · rw [if_pos hempty, hempty, Attempt.result_done]
    cases m.fifo.hungUp with
    | true => exact ⟨rfl, hempty⟩
    | false => exact ⟨rfl, hempty⟩
  · rw [if_neg hempty, Attempt.result_bind]
    generalize Attempt.result _ o = handled
    obtain ⟨s', code⟩ := handled
    cases code with
    | none => exact ⟨rfl, rfl⟩
    | some code => exact ⟨rfl, rfl⟩

/-- The step lemma of a pass: a descriptor that is processed gives up its quota, the
others nothing. -/
theorem processFd_waiting (answers : Sock → Answers) (stack : BinPacket) (m : Machine) (fd fd' : Fd)
    (o : Outcomes) :
    waiting ((processFd answers stack m fd).result o) fd' =
      if fd = fd' then waiting m fd' - quota answers fd' else waiting m fd' := by
  cases fd with
  | sock sk =>
    rw [processFd_sock]
    cases fd' with
    | sock sk' =>
      by_cases hsk : sk = sk'
      · subst hsk
        rw [if_pos rfl, waiting, waiting, quota, Machine.setSocket_self, List.length_drop]
        unfold receivedBy
        cases (answers sk).recvFails with
        | true => rfl
        | false =>
          simp only [Bool.false_eq_true, if_false, List.length_take]
          omega
      · have hne : ¬ Fd.sock sk = Fd.sock sk' := fun h => hsk (Fd.sock.inj h)
        rw [if_neg hne, waiting, waiting, Machine.setSocket_of_ne m (Ne.symm hsk)]
    | src => rfl
  | src =>
    cases fd' with
    | sock sk' =>
      rw [processFd, waiting, (readFifo_result _ _ o).1]
      rfl
    | src =>
      rw [if_pos rfl, processFd, waiting, (readFifo_result _ _ o).2, List.length_drop]
      rfl

/-! ## A pass -/

/-- The descriptors processed one after another. -/
def visit (answers : Sock → Answers) (stack : BinPacket) : List Fd → Machine → Attempt Output Machine
  | [], m => .done m
  | fd :: fds, m => processFd answers stack m fd >>= visit answers stack fds

/-- The countdown never cuts off a descriptor that has `POLLIN`. -/
theorem processFds_eq (answers : Sock → Answers) (stack : BinPacket) (pollin : Fd → Bool) (rv : ℕ)
    (fds : List Fd) (m : Machine) (h : (fds.filter pollin).length ≤ rv) :
    processFds answers stack pollin rv fds m = visit answers stack (fds.filter pollin) m := by
  induction fds generalizing rv m with
  | nil => rfl
  | cons fd fds ih =>
    rw [processFds]
    by_cases hin : pollin fd = true
    · rw [List.filter_cons_of_pos hin, List.length_cons] at h
      rw [List.filter_cons_of_pos hin, if_neg (by omega), if_pos hin, visit]
      congr 1
      funext m
      exact ih (rv - 1) m (by omega)
    · rw [List.filter_cons_of_neg hin] at h ⊢
      by_cases hrv : rv = 0
      · have hnone : fds.filter pollin = [] := List.length_eq_zero_iff.mp (by omega)
        rw [if_pos hrv, hnone]
        rfl
      · rw [if_neg hrv, if_neg hin]
        exact ih rv m h

/-- `POLLIN` is one of the events that `poll` counts. -/
theorem pollin_revents (m : Machine) (fd : Fd) (h : m.pollin fd = true) : m.revents fd = true := by
  cases fd with
  | sock sk => exact h
  | src =>
    rw [Machine.revents, h]
    rfl

theorem pass_eq (answers : Sock → Answers) (stack : BinPacket) (m : Machine) :
    pass answers stack m = visit answers stack (pFds.filter m.pollin) m := by
  apply processFds_eq
  rw [Machine.poll, ← List.countP_eq_length_filter, ← List.countP_eq_length_filter]
  exact List.countP_mono_left fun fd _ h => pollin_revents m fd h

/-- The run lemma of a pass. -/
theorem visit_waiting (answers : Sock → Answers) (stack : BinPacket) (fds : List Fd)
    (hnodup : fds.Nodup) (m : Machine) (o : Outcomes) (fd : Fd) :
    waiting ((visit answers stack fds m).result o) fd =
      if fd ∈ fds then waiting m fd - quota answers fd else waiting m fd := by
  induction fds generalizing m o with
  | nil => rfl
  | cons fd' fds ih =>
    obtain ⟨hnew, hnodup⟩ := List.nodup_cons.mp hnodup
    rw [visit, Attempt.result_bind, ih hnodup, processFd_waiting]
    by_cases hfd : fd' = fd
    · subst hfd
      rw [if_neg hnew, if_pos rfl, if_pos List.mem_cons_self]
    · simp only [if_neg hfd, List.mem_cons, Ne.symm hfd, false_or]

/-- A pass takes its quota from every descriptor: one without `POLLIN` has nothing. -/
theorem pass_waiting (answers : Sock → Answers) (stack : BinPacket) (m : Machine) (o : Outcomes)
    (fd : Fd) :
    waiting ((pass answers stack m).result o) fd = waiting m fd - quota answers fd := by
  have hnodup : (pFds.filter m.pollin).Nodup := List.Nodup.filter _ (by decide)
  have hall : fd ∈ pFds := by
    cases fd with
    | sock sk => cases sk <;> decide
    | src => decide
  rw [pass_eq, visit_waiting answers stack _ hnodup]
  by_cases hin : m.pollin fd = true
  · rw [if_pos (List.mem_filter.mpr ⟨hall, hin⟩)]
  · have hempty : waiting m fd = 0 := by
      cases fd with
      | sock sk =>
        rw [waiting, List.length_eq_zero_iff]
        by_contra hpending
        exact hin (by simp [Machine.pollin, hpending])
      | src =>
        rw [waiting, List.length_eq_zero_iff]
        by_contra hpending
        exact hin (by simp [Machine.pollin, hpending])
    rw [if_neg fun hmem => hin (List.mem_filter.mp hmem).2, hempty, Nat.zero_sub]

/-- Only the FIFO can end the process. -/
theorem visit_control (answers : Sock → Answers) (stack : BinPacket) (fds : List Fd)
    (h : Fd.src ∉ fds) (m : Machine) (o : Outcomes) :
    ((visit answers stack fds m).result o).control = m.control := by
  induction fds generalizing m o with
  | nil => rfl
  | cons fd fds ih =>
    obtain ⟨hfd, hfds⟩ := not_or.mp (List.mem_cons.not.mp h)
    rw [visit, Attempt.result_bind, ih hfds]
    cases fd with
    | sock sk =>
      rw [processFd_sock]
      rfl
    | src => exact absurd rfl hfd

/-- A pass with an empty FIFO goes back to `poll`. -/
theorem pass_control (answers : Sock → Answers) (stack : BinPacket) (m : Machine) (o : Outcomes)
    (h : m.fifo.pending = []) : ((pass answers stack m).result o).control = m.control := by
  rw [pass_eq]
  apply visit_control
  intro hmem
  have hin := (List.mem_filter.mp hmem).2
  simp [Machine.pollin, h] at hin

/-! ## The FIFO -/

/-- A read of the machine is an iteration of `process_multi_bin`: it sends the same, and
goes on with the loop, or with what `main` does after it. -/
theorem readFifo_processLoop (s : Locals) (m : Machine) (h : m.fifo.pending ≠ [])
    (reads : List ReadResult) :
    let ends := fun s reads => (processLoop s reads).mapOutput (fun payload => (Sock.int, payload)) >>=
      fun returned => .done (Control.returned returned.1)
    ends s (.data (m.fifo.pending.take binPacketSize)
        (by rw [List.length_take, binPacketSize]; have := List.length_pos_iff.mpr h; omega)
        (by rw [List.length_take]; omega) :: reads) =
      readFifo s m >>= fun m' => match m'.control with
        | .reading s' => ends s' reads
        | .polling => .done .polling
        | .exited => .done .exited := by
  simp only [processLoop, readFifo, if_neg h, Attempt.mapOutput_bind, Attempt.bind_assoc]
  congr 1
  funext handled
  obtain ⟨s', code⟩ := handled
  cases code with
  | none => rfl
  | some code => cases code <;> rfl

/-! ## Progress -/

/-- The load falls exactly when some descriptor has something that is taken. -/
theorem pass_load_lt_iff (answers : Sock → Answers) (stack : BinPacket) (m : Machine) (o : Outcomes) :
    load ((pass answers stack m).result o) < load m ↔ HasInput m (.pass answers stack o) := by
  have htake : ∀ sk, waiting m (.sock sk) - quota answers (.sock sk) < waiting m (.sock sk) ↔
      (m.sockets sk).pending ≠ [] ∧ (answers sk).recvFails = false := by
    intro sk
    rw [waiting, quota, ← List.length_pos_iff]
    cases (answers sk).recvFails with
    | true => simp
    | false =>
      simp only [Bool.false_eq_true, if_false, and_true]
      omega
  have hread : waiting m .src - quota answers .src < waiting m .src ↔ m.fifo.pending ≠ [] := by
    rw [waiting, quota, binPacketSize, ← List.length_pos_iff]
    omega
  have hcnt := htake .cnt
  have hint := htake .int
  have hsocks : (∃ sk, (m.sockets sk).pending ≠ [] ∧ (answers sk).recvFails = false) ↔
      ((m.sockets .cnt).pending ≠ [] ∧ (answers .cnt).recvFails = false) ∨
        ((m.sockets .int).pending ≠ [] ∧ (answers .int).recvFails = false) := by
    constructor
    · rintro ⟨sk, hsk⟩
      cases sk with
      | cnt => exact Or.inl hsk
      | int => exact Or.inr hsk
    · rintro (h | h)
      · exact ⟨.cnt, h⟩
      · exact ⟨.int, h⟩
  rw [HasInput, hsocks, ← hcnt, ← hint, ← hread, load, load, pass_waiting, pass_waiting,
    pass_waiting]
  omega

/-- One pass with a positive poll result makes progress exactly when it has input. -/
theorem progress_pass_iff (m : Machine) (event : Event) (h : PositivePass m event) :
    Progress m event ↔ HasInput m event := by
  cases event with
  | pass answers stack o =>
    have hstep : step m (.pass answers stack o) = (pass answers stack m).result o := if_pos h
    rw [Progress, hstep, pass_load_lt_iff]
    refine or_iff_left_of_imp fun hexit => Or.inr ?_
    intro hempty
    rw [pass_control answers stack m o hempty, h.1] at hexit
    cases hexit
  | arrive | close | write | hangUp | openWriter | read => exact h.elim

theorem setSocket_eq_self (m : Machine) (sk : Sock) : m.setSocket sk (m.sockets sk) = m := by
  rw [Machine.setSocket, Function.update_eq_self]

/-- A `process_sk` at the end of the stream leaves everything as it is. -/
theorem visit_drained (answers : Sock → Answers) (stack : BinPacket) (fds : List Fd)
    (h : Fd.src ∉ fds) (m : Machine) (hdrained : ∀ sk, (m.sockets sk).pending = []) (o : Outcomes) :
    (visit answers stack fds m).result o = m := by
  induction fds generalizing o with
  | nil => rfl
  | cons fd fds ih =>
    obtain ⟨hfd, hfds⟩ := not_or.mp (List.mem_cons.not.mp h)
    cases fd with
    | sock sk =>
      have hsame : (processFd answers stack m (.sock sk)).result o = m := by
        have hsocket : { m.sockets sk with pending := ([] : List HidpPkt) } = m.sockets sk := by
          rw [← hdrained sk]
        rw [processFd_sock, hdrained sk, List.drop_nil, hsocket, setSocket_eq_self]
      rw [visit, Attempt.result_bind, hsame]
      exact ih hfds _
    | src => exact absurd rfl hfd

/-- Without input a pass changes nothing, and the next one is like it. -/
theorem drained_spins (m : Machine) (answers : Sock → Answers) (stack : BinPacket) (o : Outcomes)
    (h : ∀ fd, waiting m fd = 0) : step m (.pass answers stack o) = m := by
  have hsrc : Fd.src ∉ pFds.filter m.pollin := by
    intro hmem
    have hin := (List.mem_filter.mp hmem).2
    simp [Machine.pollin, List.length_eq_zero_iff.mp (h .src)] at hin
  rw [step]
  split
  · rw [pass_eq]
    exact visit_drained answers stack _ hsrc m (fun sk => List.length_eq_zero_iff.mp (h (.sock sk))) o
  · rfl

/-- So there is no bound on the passes that take nothing. -/
theorem drained_run (m : Machine) (answers : Sock → Answers) (stack : BinPacket) (o : Outcomes)
    (h : ∀ fd, waiting m fd = 0) (hpass : PositivePass m (.pass answers stack o)) (n : ℕ) :
    countSteps step PositivePass m (List.replicate n (.pass answers stack o)) = n := by
  induction n with
  | zero => rfl
  | succ n ih =>
    rw [List.replicate_succ, countSteps, if_pos hpass, drained_spins m answers stack o h, ih,
      Nat.add_comm]

/-! ## Runs -/

/-- The input that an event brings. -/
def brings : Event → ℕ
  | .arrive _ _ => 1
  | .write bs => bs.length
  | _ => 0

theorem waiting_setSocket (m : Machine) (sk : Sock) (socket : Socket) (fd : Fd) :
    waiting (m.setSocket sk socket) fd =
      if fd = .sock sk then socket.pending.length else waiting m fd := by
  cases fd with
  | sock sk' =>
    by_cases hsk : sk' = sk
    · rw [hsk, if_pos rfl, waiting, Machine.setSocket_self]
    · rw [if_neg fun h => hsk (Fd.sock.inj h), waiting, waiting, Machine.setSocket_of_ne m hsk]
  | src => rfl

/-- One socket's share of the load. -/
theorem load_setSocket (m : Machine) (sk : Sock) (socket : Socket) :
    load (m.setSocket sk socket) + (m.sockets sk).pending.length =
      load m + socket.pending.length := by
  rw [load, load, waiting_setSocket, waiting_setSocket, waiting_setSocket]
  cases sk with
  | cnt =>
    simp only [waiting, if_true, reduceCtorEq, if_false, Fd.sock.injEq]
    omega
  | int =>
    simp only [waiting, if_true, reduceCtorEq, if_false, Fd.sock.injEq]
    omega

/-- No event raises the load by more than it brings. -/
theorem step_load_le (m : Machine) (event : Event) : load (step m event) ≤ load m + brings event := by
  cases event with
  | arrive sk pkt =>
    have hload := load_setSocket m sk { m.sockets sk with pending := (m.sockets sk).pending ++ [pkt] }
    rw [List.length_append, List.length_singleton] at hload
    rw [step, brings]
    omega
  | close sk =>
    have hload := load_setSocket m sk { m.sockets sk with closed := true }
    exact Nat.le_of_eq (Nat.add_right_cancel hload)
  | write bs =>
    simp only [step, load, waiting, List.length_append, brings]
    omega
  | hangUp => exact Nat.le_refl _
  | openWriter => exact Nat.le_refl _
  | pass answers stack o =>
    rw [step]
    split
    · rw [load, load, pass_waiting, pass_waiting, pass_waiting]
      omega
    · exact Nat.le_add_right _ _
  | read o =>
    rw [step]
    split
    · simp only [load, waiting, readFifo_result, List.length_drop]
      omega
    · exact Nat.le_add_right _ _
    · exact Nat.le_add_right _ _

/-- A pass with input takes some of it. -/
theorem step_load_lt (m : Machine) (event : Event) (hpass : PositivePass m event)
    (hinput : HasInput m event) : load (step m event) < load m := by
  cases event with
  | pass answers stack o =>
    have hstep : step m (.pass answers stack o) = (pass answers stack m).result o := if_pos hpass
    rw [hstep]
    exact (pass_load_lt_iff answers stack m o).mpr hinput
  | arrive | close | write | hangUp | openWriter | read => exact hpass.elim

/-- Over every run: all passes with a positive poll result take something or end the
process exactly when each of them starts with some input; and then there are no more
of them than packets and bytes in all. -/
theorem progress_iff (m : Machine) (events : List Event) :
    ((∀ before event since, events = before ++ event :: since →
        PositivePass (before.foldl step m) event → Progress (before.foldl step m) event) ↔
      ∀ before event since, events = before ++ event :: since →
        PositivePass (before.foldl step m) event → HasInput (before.foldl step m) event) ∧
    ((∀ before event since, events = before ++ event :: since →
        PositivePass (before.foldl step m) event → HasInput (before.foldl step m) event) →
      countSteps step PositivePass m events ≤ load m + (events.map brings).sum) := by
  refine ⟨?_, fun h => ?_⟩
  · refine forall_congr' fun before => forall_congr' fun event => forall_congr' fun since =>
      forall_congr' fun _ => forall_congr' fun hpass => ?_
    exact progress_pass_iff _ event hpass
  · apply countSteps_le step PositivePass load brings m events step_load_le
    intro before event since heq hpass
    exact step_load_lt _ event hpass (h before event since heq hpass)

/-- One packet on the control socket, received in one pass. -/
theorem progress_one :
    let m : Machine := ⟨fun _ => ⟨[], false⟩, ⟨[], false⟩, .polling⟩
    countSteps step PositivePass m
      [.arrive .cnt ⟨0x10, []⟩, .pass (fun _ => ⟨false, false, 0⟩) .zero .allSucceed] ≤ 1 := by
  refine (progress_iff ⟨fun _ => ⟨[], false⟩, ⟨[], false⟩, .polling⟩ _).2 ?_
  rw [forall_split_cons, forall_split_cons]
  refine ⟨fun hpass => hpass.elim, fun _ => ?_, forall_split_nil _⟩
  exact Or.inl ⟨.cnt, by simp [step, Machine.setSocket_self], rfl⟩

/-- The last writer of the FIFO has gone: every pass has a positive poll result, and
none of them changes anything. -/
theorem hung_up_fifo_spins :
    ¬ ∀ (m : Machine) (event : Event), PositivePass m event → Progress m event := by
  intro h
  have hspin := h ⟨fun _ => ⟨[], false⟩, ⟨[], true⟩, .polling⟩
    (.pass (fun _ => ⟨false, false, 0⟩) .zero .allSucceed) ⟨rfl, by decide⟩
  rw [Progress, drained_spins _ _ _ _ (by intro fd; cases fd <;> rfl)] at hspin
  rcases hspin with hless | hexit
  · exact Nat.lt_irrefl _ hless
  · cases hexit

end Android2Mouse.Guarantees.MainLoop
