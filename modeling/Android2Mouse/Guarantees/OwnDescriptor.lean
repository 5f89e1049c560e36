import Android2Mouse.Library.Lasting
import Android2Mouse.Source.HidpClientdlib

/-!
# The library's descriptor

The calls of a client in any order: sessions started, with success or not, reports,
sessions ended. `OwnFifo` is what the library should do with descriptors. The code
keeps one `static int fd`, which is 0 before any session, -1 after a start that
failed and the closed descriptor after an end, and no function looks at it; so what
it does is right exactly when all the calls that use it are made in a session
(`own_fifo_iff`).
-/
namespace Android2Mouse.Guarantees.OwnDescriptor
open Library Source.ComboConn Source.HidpClientdlib

/-! ## Calls -/

/-- A call of the library; `opened` is what `open` returns to `start_session`. -/
inductive SessionCall where
  | start (opened : Int32)
  | report (call : ClientCall)
  | finish
  deriving DecidableEq, Repr

def SessionCall.run (c : ClientLib) : SessionCall → ClientLib
  | .start opened => (startSession opened c).1
  | .report call => call.run c
  | .finish => endSession c

def runSession (calls : List SessionCall) : ClientLib := calls.foldl SessionCall.run .initial

/-! ## Descriptors that are open -/

/-- The descriptors opened and not closed, the latest first. -/
def opensAfter : List Int32 → List Syscall → List Int32
  | opens, [] => opens
  | opens, .open result :: calls => opensAfter (if result = -1 then opens else result :: opens) calls
  | opens, .write _ _ :: calls => opensAfter opens calls
  | opens, .close fd :: calls => opensAfter (opens.filter (· ≠ fd)) calls

/-- Every write is to the latest descriptor opened and not closed; without one,
nothing is written and nothing closed. -/
def OwnFifo : List Int32 → List Syscall → Prop
  | _, [] => True
  | opens, .open result :: calls => OwnFifo (if result = -1 then opens else result :: opens) calls
  | opens, .write fd _ :: calls => opens.head? = some fd ∧ OwnFifo opens calls
  | opens, .close fd :: calls => opens ≠ [] ∧ OwnFifo (opens.filter (· ≠ fd)) calls

theorem opensAfter_append (opens : List Int32) (calls calls' : List Syscall) :
    opensAfter opens (calls ++ calls') = opensAfter (opensAfter opens calls) calls' := by
  induction calls generalizing opens with
  | nil => rfl
  | cons call calls ih =>
    cases call with
    | «open» result => exact ih _
    | write fd packet => exact ih _
    | close fd => exact ih _

theorem ownFifo_append (opens : List Int32) (calls calls' : List Syscall) :
    OwnFifo opens (calls ++ calls') ↔
      OwnFifo opens calls ∧ OwnFifo (opensAfter opens calls) calls' := by
  induction calls generalizing opens with
  | nil => exact ⟨fun h => ⟨trivial, h⟩, fun h => h.2⟩
  | cons call calls ih =>
    cases call with
    | «open» result => exact ih _
    | write fd packet =>
      rw [List.cons_append, OwnFifo, OwnFifo, ih, and_assoc]
      exact Iff.rfl
    | close fd =>
      rw [List.cons_append, OwnFifo, OwnFifo, ih, and_assoc]
      exact Iff.rfl

/-- Writes leave the descriptors as they are, and are right when they go to the latest. -/
theorem opensAfter_writes (opens : List Int32) (fd : Int32) (packets : List BinPacket) :
    opensAfter opens (packets.map (.write fd)) = opens := by
  induction packets with
  | nil => rfl
  | cons packet packets ih => exact ih

theorem ownFifo_writes (opens : List Int32) (fd : Int32) (packets : List BinPacket) :
    OwnFifo opens (packets.map (.write fd)) ↔ packets ≠ [] → opens.head? = some fd := by
  induction packets with
  | nil => exact iff_of_true trivial fun h => absurd rfl h
  | cons packet packets ih =>
    rw [List.map_cons, OwnFifo, ih]
    exact ⟨fun h _ => h.1, fun h => ⟨h (List.cons_ne_nil _ _), fun _ => h (List.cons_ne_nil _ _)⟩⟩

/-! ## What a call does with the descriptor -/

/-- The system calls of a call that finds `fd` in the static. -/
def SessionCall.syscalls (fd : Int32) : SessionCall → List Syscall
  | .start opened => [.open opened]
  | .report call => call.packets.map (.write fd)
  | .finish => [.write fd shutdownPacket, .close fd]

/-- What it leaves in the static. -/
def SessionCall.fdAfter (fd : Int32) : SessionCall → Int32
  | .start opened => opened
  | .report _ => fd
  | .finish => fd

theorem SessionCall.run_calls (call : SessionCall) (c : ClientLib) :
    (call.run c).calls = c.calls ++ call.syscalls c.fd := by
  cases call with
  | start opened => exact startSession_calls opened c
  | report call => exact call.run_calls c
  | finish => exact endSession_calls c

theorem SessionCall.run_fd (call : SessionCall) (c : ClientLib) :
    (call.run c).fd = call.fdAfter c.fd := by
  cases call with
  | start opened => exact startSession_fd opened c
  | report call => exact call.run_fd c
  | finish => rfl

/-! ## Sessions -/

/-- The call starts a session. -/
def SessionCall.Starts : SessionCall → Prop
  | .start opened => opened ≠ -1
  | _ => False

/-- The call leaves no session behind: an end, or a start that fails. -/
def SessionCall.Ends : SessionCall → Prop
  | .start opened => opened = -1
  | .report _ => False
  | .finish => True

/-- The call is about the descriptor: a report with a packet, or an end. -/
def SessionCall.UsesFd : SessionCall → Prop
  | .start _ => False
  | .report call => call.packets ≠ []
  | .finish => True

/-- The latest of the starts and ends was a start that succeeded. -/
def InSession (calls : List SessionCall) : Prop :=
  Lasting SessionCall.Starts SessionCall.Ends calls

/-- The latest open descriptor after some calls. -/
def ownFd (calls : List SessionCall) : Option Int32 := (opensAfter [] (runSession calls).calls).head?

theorem runSession_snoc (calls : List SessionCall) (call : SessionCall) :
    runSession (calls ++ [call]) = call.run (runSession calls) :=
  List.foldl_concat _ _ _ _

/-- The static is the library's own descriptor exactly in a session. -/
def Tracks (calls : List SessionCall) : Prop :=
  ownFd calls = some (runSession calls).fd ↔ InSession calls

/-- -1 is never taken for a descriptor. -/
theorem neg_one_not_open (opens : List Int32) (h : -1 ∉ opens) (calls : List Syscall) :
    -1 ∉ opensAfter opens calls := by
  induction calls generalizing opens with
  | nil => exact h
  | cons call calls ih =>
    cases call with
    | «open» result =>
      apply ih
      by_cases hresult : result = -1
      · rw [if_pos hresult]
        exact h
      · rw [if_neg hresult]
        exact fun hmem => (List.mem_cons.mp hmem).elim (fun heq => hresult heq.symm) h
    | write fd packet => exact ih opens h
    | close fd =>
      apply ih
      exact fun hmem => h (List.mem_of_mem_filter hmem)

theorem tracks_nil : Tracks [] := by
  refine iff_of_false ?_ (not_lasting_nil _ _)
  decide

/-- The step lemma: every call, in a session or not, keeps the static in step. -/
theorem tracks_snoc (calls : List SessionCall) (h : Tracks calls) (call : SessionCall) :
    Tracks (calls ++ [call]) := by
  rw [Tracks, ownFd, InSession, lasting_snoc, runSession_snoc, call.run_calls, call.run_fd,
    opensAfter_append]
  have hfree := neg_one_not_open [] List.not_mem_nil (runSession calls).calls
  generalize hopens : opensAfter [] (runSession calls).calls = opens at hfree
  have hbefore : opens.head? = some (runSession calls).fd ↔ InSession calls := by
    rw [← hopens]
    exact h
  generalize (runSession calls).fd = fd at hbefore
  cases call with
  | start opened =>
    rw [SessionCall.syscalls, opensAfter, opensAfter, SessionCall.fdAfter, SessionCall.Starts,
      SessionCall.Ends]
    by_cases hopened : opened = -1
    · rw [if_pos hopened]
      refine iff_of_false (fun hhead => hfree ?_) ?_
      · rw [← hopened]
        exact List.mem_of_mem_head? hhead
      · simp [hopened]
    · rw [if_neg hopened]
      exact iff_of_true rfl (Or.inl hopened)
  | report report =>
    rw [SessionCall.syscalls, opensAfter_writes, SessionCall.fdAfter, hbefore]
    simp [SessionCall.Starts, SessionCall.Ends, InSession]
  | finish =>
    rw [SessionCall.syscalls, opensAfter, opensAfter, opensAfter, SessionCall.fdAfter]
    refine iff_of_false (fun hhead => ?_) (by simp [SessionCall.Starts, SessionCall.Ends])
    have hmem := List.mem_of_mem_head? hhead
    simp at hmem

/-- The system calls of one call are right exactly when the descriptor it uses is
the library's own. -/
theorem ownFifo_syscalls (opens : List Int32) (fd : Int32) (call : SessionCall) :
    OwnFifo opens (call.syscalls fd) ↔ (call.UsesFd → opens.head? = some fd) := by
  cases call with
  | start opened => exact iff_of_true trivial False.elim
  | report report => exact ownFifo_writes opens fd report.packets
  | finish =>
    constructor
    · exact fun h _ => h.1
    · intro h
      have hhead := h trivial
      refine ⟨hhead, ?_, trivial⟩
      rintro rfl
      cases hhead

/-- Over every sequence of calls: all writes go to the descriptor of the session
that is open, and none is written or closed without one, exactly when every end and
every report with a packet is made while the latest start or end was a start that
succeeded. -/
theorem own_fifo_iff (calls : List SessionCall) :
    OwnFifo [] (runSession calls).calls ↔
      ∀ before call since, calls = before ++ call :: since → call.UsesFd → InSession before := by
  have htracks : ∀ calls, Tracks calls := by
    intro calls
    induction calls using List.reverseRecOn with
    | nil => exact tracks_nil
    | append_singleton calls call ih => exact tracks_snoc calls ih call
  refine all_good_iff (fun calls => OwnFifo [] (runSession calls).calls)
    (fun before call => call.UsesFd → InSession before) trivial (fun before call => ?_) calls
  rw [runSession_snoc, call.run_calls, ownFifo_append, ownFifo_syscalls]
  exact and_congr_right fun _ => forall_congr' fun _ => htracks before

/-- An end without a start, as the activity makes it when the daemon is not running:
the shutdown packet goes to descriptor 0, which is then closed. -/
theorem end_without_start : ¬ ∀ calls : List SessionCall, OwnFifo [] (runSession calls).calls := by
  intro h
  have hown : ([] : List Int32).head? = some 0 := (h [.finish]).1
  cases hown

end Android2Mouse.Guarantees.OwnDescriptor
