import Android2Mouse.Guarantees.AddressText
import Android2Mouse.Source.DaemonMain

/-!
# Start and end of the daemon

`kernel` is the system's side of the sockets: which are open, the newest first, and what they
are connected to. It refuses a call on any socket but the newest. Over all outcomes of the
calls the daemon makes none that is refused, holds its two channels to the address of the
command line while it is in its loop, and none when it has exited, by whichever way
(`daemon_channels`). So the interrupt channel is closed before the control channel and each of
them once. `main_polls_iff` says when the loop is reached.
-/
namespace Android2Mouse.Guarantees.StartUp
open Library Library.Strtol Library.Attempt
open Source.Sdp Source.Bluetooth Source.DaemonMain AddressText

/-! ## The sockets -/

structure Channel where
  sk : Int32
  peer : Option SockaddrL2
  deriving DecidableEq

/-- What a call does to the sockets that are open. -/
def kernel : Effect SysCall (List Channel)
  | .socket sk, ok, chans => some (if ok then ⟨sk, none⟩ :: chans else chans)
  | .connect sk addr, ok, chan :: chans =>
    if chan.sk = sk ∧ chan.peer = none then some (⟨sk, if ok then some addr else none⟩ :: chans)
    else none
  | .connect _ _, _, [] => none
  | .close sk, _, chan :: chans => if chan.sk = sk then some chans else none
  | .close _, _, [] => none
  | .fopen _, _, chans => some chans
  | .fclose, _, chans => some chans
  | .malloc _, _, chans => some chans
  | .mkfifo _, _, chans => some chans
  | .open _, _, chans => some chans
  | .atexit, _, chans => some chans

theorem kernel_connect (sk : Int32) (addr : SockaddrL2) (ok : Bool) (chans : List Channel) :
    kernel (.connect sk addr) ok (⟨sk, none⟩ :: chans) =
      some (⟨sk, if ok then some addr else none⟩ :: chans) := if_pos ⟨rfl, rfl⟩

theorem kernel_close (sk : Int32) (ok : Bool) (peer : Option SockaddrL2) (chans : List Channel) :
    kernel (.close sk) ok (⟨sk, peer⟩ :: chans) = some chans := if_pos rfl

/-- The channels of the daemon where it is. -/
def channels (cnt int : Descriptor) : Process → List Channel
  | .exited _ => []
  | .polling daddr _ => [⟨int, some ⟨0x13, daddr⟩⟩, ⟨cnt, some ⟨0x11, daddr⟩⟩]

section

variable {α : Type} {Q : α → List Channel → Prop}

/-- `l2cap_connect` leaves one socket more, which is connected, or none. -/
theorem l2capConnect_ensures (sk : Descriptor) (daddr : BdAddr) (psm : UInt16)
    {f : Int32 → Attempt SysCall α} {chans : List Channel}
    (hgood : (f sk).Ensures kernel Q (⟨sk, some ⟨psm, daddr⟩⟩ :: chans))
    (hbad : (f (-1)).Ensures kernel Q chans) :
    (l2capConnect sk daddr psm >>= f).Ensures kernel Q chans := by
  intro ok
  cases ok with
  | false => exact ⟨chans, rfl, hbad⟩
  | true =>
    refine ⟨⟨sk, none⟩ :: chans, rfl, fun ok => ?_⟩
    cases ok with
    | true => exact ⟨_, kernel_connect .., hgood⟩
    | false => exact ⟨_, kernel_connect .., fun ok => ⟨chans, kernel_close .., hbad⟩⟩

/-- The log has nothing to do with the sockets. -/
theorem startLog_ensures (path : List UInt8) {f : Bool → Attempt SysCall α} {chans : List Channel}
    (h : ∀ ok, (f ok).Ensures kernel Q chans) : (startLog path >>= f).Ensures kernel Q chans := by
  refine Ensures.bind (Ensures.mono (Q := fun _ chans' => chans' = chans) ?_ ?_)
  · rintro ok _ rfl
    exact h ok
  · rw [startLog]
    split
    · exact fun ok => ⟨chans, rfl, rfl⟩
    · intro ok
      refine ⟨chans, rfl, ?_⟩
      cases ok with
      | true => exact fun ok => ⟨chans, rfl, rfl⟩
      | false => exact rfl

end

theorem endLog_ensures (path : List UInt8) (chans : List Channel) :
    (endLog path).Ensures kernel (fun _ chans' => chans' = chans) chans := by
  rw [endLog]
  split
  · exact rfl
  · exact fun ok => ⟨chans, rfl, rfl⟩

section

variable (cnt int : Descriptor)

/-- Exiting closes what is open, if `close_sk` does. -/
theorem exitWith_ensures (logFile : List UInt8) {sks : Socks} (code : Exit) {chans : List Channel}
    (h : (closeSk sks).Ensures kernel (fun _ chans' => chans' = []) chans) :
    (exitWith logFile sks code).Ensures kernel (fun p chans' => chans' = channels cnt int p)
      chans := by
  refine Ensures.bind (Ensures.bind (Ensures.mono ?_ h))
  rintro _ _ rfl
  exact endLog_ensures logFile []

theorem closeIf_ensures (sk : Descriptor) (peer : Option SockaddrL2) (chans : List Channel) :
    (closeIf sk).Ensures kernel (fun _ chans' => chans' = chans) (⟨sk, peer⟩ :: chans) := by
  rw [closeIf, if_pos sk.2]
  exact fun ok => ⟨chans, kernel_close .., rfl⟩

theorem closeSk_both (peer peer' : Option SockaddrL2) :
    (closeSk ⟨int, cnt⟩).Ensures kernel (fun _ chans => chans = []) [⟨int, peer⟩, ⟨cnt, peer'⟩] := by
  refine Ensures.bind (Ensures.mono ?_ (closeIf_ensures int peer [⟨cnt, peer'⟩]))
  rintro _ _ rfl
  exact closeIf_ensures cnt peer' []

theorem serve_ensures (logFile : List UInt8) (daddr : BdAddr) (info : ConnInfo)
    (loop : Option Exit) :
    (serve logFile cnt int daddr info loop).Ensures kernel
      (fun p chans => chans = channels cnt int p) [] := by
  refine l2capConnect_ensures cnt daddr 0x11 ?_ ?_
  · rw [if_neg cnt.2]
    refine l2capConnect_ensures int daddr 0x13 ?_ ?_
    · rw [if_neg int.2]
      cases loop with
      | none => exact rfl
      | some code => exact exitWith_ensures cnt int logFile code (closeSk_both cnt int _ _)
    · rw [if_pos rfl]
      exact exitWith_ensures cnt int logFile .failure (closeIf_ensures cnt _ [])
  · rw [if_pos rfl]
    exact exitWith_ensures cnt int logFile .failure rfl

theorem exited_ensures (code : Exit) :
    (Attempt.done (Process.exited code) : Attempt SysCall Process).Ensures kernel
      (fun p chans => chans = channels cnt int p) [] := rfl

/-- A call that has nothing to do with sockets, before there are any, with an `exit` behind it. -/
theorem guard_ensures {r : SysCall} (hr : ∀ ok, kernel r ok [] = some []) {fails : Bool → Bool}
    {p : Attempt SysCall Process}
    (h : p.Ensures kernel (fun p chans => chans = channels cnt int p) []) :
    (attempt r >>= fun ok => if fails ok = true then .done (.exited .failure) else p).Ensures kernel
      (fun p chans => chans = channels cnt int p) [] := by
  refine fun ok => ⟨[], hr ok, ?_⟩
  change Ensures kernel _ (if fails ok = true then _ else _) []
  split
  · exact exited_ensures cnt int .failure
  · exact h

theorem connect_ensures (logFile fifoFile type addr : List UInt8) (eexist : Bool)
    (loop : Option Exit) :
    (connect logFile fifoFile type addr eexist cnt int loop).Ensures kernel
      (fun p chans => chans = channels cnt int p) [] := by
  refine guard_ensures cnt int (fun _ => rfl) (guard_ensures cnt int (fun _ => rfl) ?_)
  cases initConn type addr with
  | none => exact exited_ensures cnt int .failure
  | some conn =>
    refine guard_ensures cnt int (fun _ => rfl) (guard_ensures cnt int (fun _ => rfl)
      (guard_ensures cnt int (fun _ => rfl) ?_))
    exact serve_ensures cnt int logFile conn.1 conn.2 loop

/-- Whatever the command line, however the system calls go, and however the loop ends: no call
is refused, and what is open in the end are the channels of the daemon. -/
theorem daemon_channels (cmd : CmdLine) (eexist : Bool) (loop : Option Exit) (o : Outcomes) :
    replay kernel [] ((main cmd eexist cnt int loop).trace o) =
      some (channels cnt int ((main cmd eexist cnt int loop).result o)) := by
  suffices h : (main cmd eexist cnt int loop).Ensures kernel
      (fun p chans => chans = channels cnt int p) [] by
    obtain ⟨chans, hreplay, rfl⟩ := replay_of_ensures h o
    exact hreplay
  rw [main]
  cases forEachOpt (literal "hidp_clientd.log".toList) fifoPath cmd.opts with
  | none => exact exited_ensures cnt int .failure
  | some files =>
    refine startLog_ensures _ fun started => ?_
    split
    · exact exited_ensures cnt int .failure
    · cases cmd.argv with
      | nil => exact exited_ensures cnt int .failure
      | cons type argv =>
        cases argv with
        | nil => exact exited_ensures cnt int .failure
        | cons addr argv => exact connect_ensures cnt int files.1 files.2 type addr eexist loop

end

/-! ## Reaching the loop -/

/-- The call has succeeded, or it was a `mkfifo` that has found the file. -/
def Passed (eexist : Bool) (t : SysCall × Bool) : Prop :=
  t.2 = true ∨ eexist = true ∧ ∃ path, t.1 = .mkfifo path

section

variable (eexist : Bool) (ba : BdAddr) (info : ConnInfo)

/-- The program reaches the loop exactly when all its calls have passed, if it can at all. -/
def Polls (possible : Prop) (p : Attempt SysCall Process) : Prop :=
  ∀ o, p.result o = .polling ba info ↔ possible ∧ ∀ t ∈ p.trace o, Passed eexist t

variable {eexist ba info}

theorem never_polls {p : Attempt SysCall Process} {possible : Prop} (himpossible : ¬ possible)
    (h : ∀ o, p.result o ≠ .polling ba info) : Polls eexist ba info possible p :=
  fun o => iff_of_false (h o) fun h' => himpossible h'.1

theorem exited_polls {possible : Prop} (himpossible : ¬ possible) (code : Exit) :
    Polls eexist ba info possible (.done (.exited code)) :=
  never_polls himpossible fun _ => Process.noConfusion

theorem send_polls {r : SysCall} {k : Bool → Attempt SysCall Process} {possible : Prop}
    (h : ∀ ok, Polls eexist ba info (possible ∧ Passed eexist (r, ok)) (k ok)) :
    Polls eexist ba info possible (.send r k) := by
  intro o
  rw [result_send, h (o 0) (o.after 1), and_assoc, trace, List.forall_mem_cons]

/-- A call with an `exit` behind it. -/
theorem guard_polls {r : SysCall} {fails : Bool → Bool}
    (hfails : ∀ ok, fails ok = false ↔ Passed eexist (r, ok)) {possible : Prop}
    {p : Attempt SysCall Process} (h : Polls eexist ba info possible p) :
    Polls eexist ba info possible
      (attempt r >>= fun ok => if fails ok = true then .done (.exited .failure) else p) := by
  refine send_polls fun ok => ?_
  change Polls eexist ba info _ (if fails ok = true then _ else _)
  cases hok : fails ok with
  | true =>
    refine exited_polls (fun hpassed => ?_) .failure
    rw [(hfails ok).mpr hpassed.2] at hok
    cases hok
  | false =>
    rw [and_iff_left ((hfails ok).mp hok)]
    exact h

/-- Only a `mkfifo` may fail. -/
theorem passed_iff {r : SysCall} (hr : ∀ path, r ≠ .mkfifo path) (ok : Bool) :
    Passed eexist (r, ok) ↔ ok = true :=
  or_iff_left fun h => (h.2.elim fun path hpath => hr path hpath)

theorem not_passed_iff {r : SysCall} (hr : ∀ path, r ≠ .mkfifo path) (ok : Bool) :
    (!ok) = false ↔ Passed eexist (r, ok) := by
  rw [passed_iff hr, Bool.not_eq_false']

theorem exitWith_result (logFile : List UInt8) (sks : Socks) (code : Exit) (o : Outcomes) :
    (exitWith logFile sks code).result o ≠ .polling ba info := by
  rw [exitWith, result_bind]
  exact Process.noConfusion

theorem l2capConnect_polls (sk : Descriptor) (daddr : BdAddr) (psm : UInt16)
    {f : Int32 → Attempt SysCall Process} {possible : Prop}
    (hgood : Polls eexist ba info possible (f sk))
    (hbad : ∀ o, (f (-1)).result o ≠ .polling ba info) :
    Polls eexist ba info possible (l2capConnect sk daddr psm >>= f) := by
  refine send_polls fun ok => ?_
  rw [passed_iff fun path => SysCall.noConfusion]
  cases ok with
  | false => exact never_polls (fun h => Bool.noConfusion h.2) hbad
  | true =>
    refine send_polls fun ok => ?_
    rw [passed_iff fun path => SysCall.noConfusion]
    cases ok with
    | false => exact never_polls (fun h => Bool.noConfusion h.2) fun o => hbad (o.after 1)
    | true =>
      simp only [and_true]
      exact hgood

theorem serve_polls (logFile : List UInt8) (cnt int : Descriptor) (daddr : BdAddr)
    (info' : ConnInfo) :
    Polls eexist ba info (daddr = ba ∧ info' = info)
      (serve logFile cnt int daddr info' none) := by
  refine l2capConnect_polls cnt daddr 0x11 ?_ ?_
  · rw [if_neg cnt.2]
    refine l2capConnect_polls int daddr 0x13 ?_ ?_
    · rw [if_neg int.2]
      intro o
      simp [trace]
    · rw [if_pos rfl]
      exact exitWith_result logFile _ .failure
  · rw [if_pos rfl]
    exact exitWith_result logFile _ .failure

theorem connect_polls (logFile fifoFile type addr : List UInt8) (cnt int : Descriptor) :
    Polls eexist ba info (initConn type addr = some (ba, info))
      (connect logFile fifoFile type addr eexist cnt int none) := by
  refine guard_polls (fun ok => ?_) (guard_polls (not_passed_iff fun path => SysCall.noConfusion) ?_)
  · cases ok <;> cases eexist <;> simp [Passed]
  cases initConn type addr with
  | none => exact exited_polls (fun h => by cases h) .failure
  | some conn =>
    refine guard_polls (not_passed_iff fun path => SysCall.noConfusion)
      (guard_polls (not_passed_iff fun path => SysCall.noConfusion)
        (guard_polls (not_passed_iff fun path => SysCall.noConfusion) ?_))
    rw [Option.some.injEq, Prod.ext_iff]
    exact serve_polls logFile cnt int conn.1 conn.2

theorem startLog_polls (path : List UInt8) {possible : Prop} {p : Attempt SysCall Process}
    (h : Polls eexist ba info possible p) :
    Polls eexist ba info possible
      (startLog path >>= fun ok => if (!ok) = true then .done (.exited .failure) else p) := by
  have hmalloc : Polls eexist ba info possible
      (attempt (.malloc 64) >>= fun ok => if (!ok) = true then .done (.exited .failure) else p) :=
    guard_polls (not_passed_iff fun path => SysCall.noConfusion) h
  rw [startLog]
  split
  · exact hmalloc
  · refine send_polls fun ok => ?_
    rw [passed_iff fun path => SysCall.noConfusion]
    cases ok with
    | false => exact exited_polls (fun h => Bool.noConfusion h.2) .failure
    | true =>
      simp only [and_true]
      exact hmalloc

end

/-! ## The command line -/

theorem forEachOpt_iff (logFile fifoFile : List UInt8) (opts : List Opt) :
    (∃ files, forEachOpt logFile fifoFile opts = some files) ↔ .help ∉ opts := by
  induction opts generalizing logFile fifoFile with
  | nil => exact iff_of_true ⟨_, rfl⟩ List.not_mem_nil
  | cons opt opts ih =>
    rw [List.mem_cons, not_or]
    cases opt with
    | help => exact iff_of_false (fun h => h.elim fun files hfiles => by cases hfiles) fun h => h.1 rfl
    | logfile optarg => exact (ih optarg fifoFile).trans (and_iff_right Opt.noConfusion).symm
    | fifo optarg => exact (ih logFile optarg).trans (and_iff_right Opt.noConfusion).symm
    | raw => exact (ih logFile fifoFile).trans (and_iff_right Opt.noConfusion).symm
    | unknown => exact (ih logFile fifoFile).trans (and_iff_right Opt.noConfusion).symm

/-- The connection types that can be asked for. -/
def IsConnType (type : List UInt8) (info : ConnInfo) : Prop :=
  type = literal "mouse".toList ∧ info = .mouse ∨ type = literal "multi".toList ∧ info = .multiBin

theorem lookupConnType_iff (type : List UInt8) (info : ConnInfo) :
    lookupConnType type = some info ↔ IsConnType type info := by
  by_cases hmouse : type = literal "mouse".toList
  · have hfound : lookupConnType type = some .mouse := by
      rw [hmouse]
      decide
    have hother : type ≠ literal "multi".toList := by
      rw [hmouse]
      decide
    rw [hfound, IsConnType, and_iff_right hmouse, or_iff_left fun h => hother h.1, Option.some.injEq]
    exact eq_comm
  by_cases hmulti : type = literal "multi".toList
  · have hfound : lookupConnType type = some .multiBin := by
      rw [hmulti]
      decide
    rw [hfound, IsConnType, and_iff_right hmulti, or_iff_right fun h => hmouse h.1,
      Option.some.injEq]
    exact eq_comm
  · have hfound : lookupConnType type = none := by
      by_cases hchar : type = literal "multi-char".toList
      · rw [hchar]
        decide
      · have hnone : connLookup.find? (fun conn => type = conn.1) = none := by
          rw [List.find?_eq_none, connLookup, List.forall_mem_cons, List.forall_mem_cons,
            List.forall_mem_singleton]
          exact ⟨fun h => hmouse (of_decide_eq_true h), fun h => hchar (of_decide_eq_true h),
            fun h => hmulti (of_decide_eq_true h)⟩
        rw [lookupConnType, hnone]
    rw [hfound]
    exact iff_of_false (fun h => by cases h) fun h => h.elim (fun h => hmouse h.1) fun h => hmulti h.1

theorem initConn_iff (type addr : List UInt8) (ba : BdAddr) (info : ConnInfo) :
    initConn type addr = some (ba, info) ↔ IsConnType type info ∧ addr.map toupper = ba2str ba := by
  have hresult : (str2ba addr).1 = -1 ∨ (str2ba addr).1 = 0 := by
    rw [str2ba]
    split
    · exact Or.inl rfl
    · exact Or.inr rfl
  rw [← lookupConnType_iff, ← str2ba_iff, initConn]
  generalize str2ba addr = result at hresult ⊢
  obtain ⟨err, daddr⟩ := result
  rcases hresult with hbad | hgood
  · dsimp only at hbad ⊢
    rw [hbad, if_pos rfl]
    exact iff_of_false (fun h => by cases h) fun h => by cases h.2
  · dsimp only at hgood ⊢
    rw [hgood, if_neg (by decide)]
    cases lookupConnType type with
    | none => exact iff_of_false (fun h => by cases h) fun h => by cases h.1
    | some info' => simp [and_comm]

/-- The command line asks for a connection and not for help. -/
def Asks (cmd : CmdLine) (ba : BdAddr) (info : ConnInfo) : Prop :=
  .help ∉ cmd.opts ∧ ∃ type addr rest, cmd.argv = type :: addr :: rest ∧
    IsConnType type info ∧ addr.map toupper = ba2str ba

theorem main_polls (cmd : CmdLine) (eexist : Bool) (cnt int : Descriptor) (ba : BdAddr)
    (info : ConnInfo) :
    Polls eexist ba info (Asks cmd ba info) (main cmd eexist cnt int none) := by
  rw [main, Asks]
  have hopts := forEachOpt_iff (literal "hidp_clientd.log".toList) fifoPath cmd.opts
  cases hfiles : forEachOpt (literal "hidp_clientd.log".toList) fifoPath cmd.opts with
  | none =>
    rw [hfiles] at hopts
    exact exited_polls (fun h => (hopts.mpr h.1).elim fun files h => by cases h) .failure
  | some files =>
    rw [and_iff_right (hopts.mp ⟨files, hfiles⟩)]
    refine startLog_polls files.1 ?_
    cases cmd.argv with
    | nil => exact exited_polls (fun h => by obtain ⟨_, _, _, h, _⟩ := h; cases h) .failure
    | cons type argv =>
      cases argv with
      | nil => exact exited_polls (fun h => by obtain ⟨_, _, _, h, _⟩ := h; cases h) .failure
      | cons addr argv =>
        have hpossible : (∃ type' addr' rest, type :: addr :: argv = type' :: addr' :: rest ∧
            IsConnType type' info ∧ addr'.map toupper = ba2str ba) ↔
              initConn type addr = some (ba, info) := by
          rw [initConn_iff]
          constructor
          · rintro ⟨_, _, _, heq, h⟩
            cases heq
            exact h
          · exact fun h => ⟨type, addr, argv, rfl, h⟩
        rw [hpossible]
        exact connect_polls files.1 files.2 type addr cnt int

/-- The daemon reaches its loop exactly when no help is asked for, the arguments begin with the
name of a connection type and the text of an address, whose case does not matter, and every
system call that it makes succeeds, except that the FIFO may exist. -/
theorem main_polls_iff (cmd : CmdLine) (eexist : Bool) (cnt int : Descriptor) (o : Outcomes)
    (ba : BdAddr) (info : ConnInfo) :
    (main cmd eexist cnt int none).result o = .polling ba info ↔
      Asks cmd ba info ∧ ∀ t ∈ (main cmd eexist cnt int none).trace o, Passed eexist t :=
  main_polls cmd eexist cnt int ba info o

end Android2Mouse.Guarantees.StartUp
