import Android2Mouse.Source.ApplyProfile

/-!
# Failed runs of `bmouse`

`mouse`, `multi` and `phone` change the registered records first and write the device
class second. Nothing undoes the first change when the second step fails: a failed run
never touches the class, and leaves the records either as they were or changed by just
the record of the command (`failed_run`). A failed step ends the process in `error`, with a
status that depends on where the linker put the message; so failed runs are told by their
`Exit`, and those that exit with `EXIT_FAILURE` are among them.
-/
namespace Android2Mouse.Guarantees.FailedRun
open Library Library.Strtol Source.SelfRepr Source.ApplyProfile

/-- The commands that change the adapter, without the test command `cod-mouse`. -/
inductive Command where
  | mouse
  | multi
  | phone (handle : List UInt8)
  deriving DecidableEq, Repr

/-- The arguments are those of the command, and perhaps more. -/
def Command.Given (argv : List (List UInt8)) : Command → Prop
  | .mouse => argv[1]? = some (literal ['m', 'o', 'u', 's', 'e'])
  | .multi => argv[1]? = some (literal ['m', 'u', 'l', 't', 'i'])
  | .phone handle =>
    argv[1]? = some (literal ['p', 'h', 'o', 'n', 'e']) ∧ argv[2]? = some handle

/-- The record that `mouse` or `multi` registers. -/
def newRecord (rep : SdpRecordBuilder) (replies : Replies) : ServiceRecord :=
  { rep.buildRecord with handle := replies.handle }

/-- The call that changes the records. -/
def Command.recordCall (replies : Replies) : Command → LibCall
  | .mouse => .sdpRecordRegister (newRecord .hidMouse replies)
  | .multi => .sdpRecordRegister (newRecord .hidMulti replies)
  | .phone handle => .sdpDeviceRecordUnregisterBinary (Int32.ofInt (strtol 32 handle)).toUInt32

/-- The records with the one of the command added, or removed. -/
def Command.recordStep (replies : Replies) (records : Finset ServiceRecord) :
    Command → Finset ServiceRecord
  | .mouse => insert (newRecord .hidMouse replies) records
  | .multi => insert (newRecord .hidMulti replies) records
  | .phone handle =>
    records.filter fun record => record.handle ≠ (Int32.ofInt (strtol 32 handle)).toUInt32

/-! ## Two steps -/

/-- Two calls, the second made when the first succeeds, and what they come to. -/
def bothCalls {α : Type} (first second : LibCall) (good bad : α) : Attempt LibCall α :=
  .send first fun ok =>
    if ok then .send second fun ok => .done (if ok then good else bad) else .done bad

/-- How the functions of `self_repr.c` make their two calls. -/
theorem guarded_calls {α : Type} (first second : LibCall) (good bad : α) :
    (do
      if !(← Attempt.attempt first) then return bad
      if !(← Attempt.attempt second) then return bad
      return good) = bothCalls first second good bad := by
  unfold bothCalls
  simp only [Attempt.attempt, Attempt.send_bind, Attempt.done_bind]
  congr 1
  funext ok
  cases ok with
  | false => rfl
  | true =>
    simp only [Bool.not_true, Bool.false_eq_true, if_false, if_true]
    congr 1
    funext ok
    cases ok <;> rfl

theorem addSdpRecord_eq (rep : SdpRecordBuilder) (replies : Replies) :
    addSdpRecord rep replies =
      bothCalls .sdpConnect (.sdpRecordRegister (newRecord rep replies)) (some replies.handle)
        none := guarded_calls _ _ _ _

theorem removeSdpRecord_eq (handle : Int32) :
    removeSdpRecord handle =
      bothCalls .sdpConnect (.sdpDeviceRecordUnregisterBinary handle.toUInt32) 0 (-1) :=
  guarded_calls _ _ _ _

theorem setDevClass_eq (class' : UInt32) :
    setDevClass class' = bothCalls .hciOpenDev (.hciWriteClassOfDev class') 0 (-1) :=
  guarded_calls _ _ _ _

/-- The records first, and when that succeeds the device class. -/
def twoSteps (record : LibCall) (class' : UInt32) (good : Exit) (message : Message) :
    Attempt LibCall Exit :=
  bothCalls .sdpConnect record true false >>= fun changed =>
    if changed then bothCalls .hciOpenDev (.hciWriteClassOfDev class') good (.error .setDevClass)
    else .done (.error message)

theorem bothCalls_bind_eq {α β : Type} (first second : LibCall) (good bad : α)
    (f : α → Attempt LibCall β) :
    bothCalls first second good bad >>= f =
      .send first fun ok =>
        if ok then .send second fun ok => if ok then f good else f bad else f bad := by
  unfold bothCalls
  rw [Attempt.send_bind]
  congr 1
  funext ok
  cases ok with
  | false => rfl
  | true =>
    rw [if_pos rfl, if_pos rfl, Attempt.send_bind]
    congr 1
    funext ok
    cases ok <;> rfl

theorem bothCalls_bind {α β : Type} (first second : LibCall) (good bad : α)
    (f : α → Attempt LibCall β) :
    bothCalls first second good bad >>= f =
      bothCalls first second true false >>= fun ok => if ok then f good else f bad := by
  rw [bothCalls_bind_eq, bothCalls_bind_eq]
  rfl

/-- A caller that only maps the two answers. -/
theorem bothCalls_map {α β : Type} (first second : LibCall) {good bad : α} {x y : β}
    {f : α → Attempt LibCall β} (hgood : f good = .done x) (hbad : f bad = .done y) :
    bothCalls first second good bad >>= f = bothCalls first second x y := by
  rw [bothCalls_bind_eq, hgood, hbad]
  simp only [bothCalls, apply_ite Attempt.done]

theorem setDevClass_exit (class' : UInt32) (good : Exit) :
    (setDevClass class' >>= fun r => if r ≠ 0 then .done (.error .setDevClass) else .done good) =
      bothCalls .hciOpenDev (.hciWriteClassOfDev class') good (.error .setDevClass) := by
  rw [setDevClass_eq]
  exact bothCalls_map _ _ rfl rfl

theorem applyRepr_eq (rep : SdpRecordBuilder) (replies : Replies) :
    applyRepr rep replies =
      twoSteps (.sdpRecordRegister (newRecord rep replies)) dcMouse
        (.success (some replies.handle)) .applyRepr := by
  rw [applyRepr, addSdpRecord_eq, bothCalls_bind, twoSteps]
  simp only [Attempt.pure_eq, setDevClass_exit]

theorem applyPhone_eq (arg : List UInt8) :
    applyPhone arg =
      twoSteps (.sdpDeviceRecordUnregisterBinary (Int32.ofInt (strtol 32 arg)).toUInt32) dcPhone
        (.success none) .removeRecord := by
  rw [applyPhone, removeSdpRecord_eq, bothCalls_bind, twoSteps]
  simp only [Attempt.pure_eq, setDevClass_exit]
  rfl

/-! ## What a run leaves -/

/-- The class that the command sets. -/
def Command.devClass : Command → UInt32
  | .mouse => dcMouse
  | .multi => dcMouse
  | .phone _ => dcPhone

/-- How the command exits when all goes well. -/
def Command.good (replies : Replies) : Command → Exit
  | .mouse => .success (some replies.handle)
  | .multi => .success (some replies.handle)
  | .phone _ => .success none

/-- The message of the command when its first step fails. -/
def Command.message : Command → Message
  | .mouse => .applyRepr
  | .multi => .applyRepr
  | .phone _ => .removeRecord

theorem main_eq {command : Command} {argv : List (List UInt8)} (h : command.Given argv)
    (replies : Replies) :
    main argv replies =
      twoSteps (command.recordCall replies) command.devClass (command.good replies)
        command.message := by
  cases command with
  | mouse =>
    have hargv : argv[1]? = some (literal ['m', 'o', 'u', 's', 'e']) := h
    rw [main, hargv]
    exact applyRepr_eq .hidMouse replies
  | multi =>
    have hargv : argv[1]? = some (literal ['m', 'u', 'l', 't', 'i']) := h
    rw [main, hargv]
    exact applyRepr_eq .hidMulti replies
  | phone handle =>
    obtain ⟨hargv, hhandle⟩ := h
    rw [main, hargv, hhandle]
    exact applyPhone_eq handle

/-- The call changes the records and nothing else. -/
theorem recordCall_effect (command : Command) (replies : Replies) (adapter : Adapter) :
    (command.recordCall replies).effect adapter =
      { adapter with records := command.recordStep replies adapter.records } := by
  cases command with
  | mouse => rfl
  | multi => rfl
  | phone handle => rfl

theorem bothCalls_cases {α : Type} (first second : LibCall) (good bad : α) (o : Outcomes) :
    let run := bothCalls first second good bad
    (run.result o = good ∧ run.taken o = [first, second]) ∨
      (run.result o = bad ∧ (run.taken o = [] ∨ run.taken o = [first])) := by
  unfold bothCalls
  simp only [Attempt.result_send, Attempt.taken_send]
  cases o 0 with
  | false => exact Or.inr ⟨rfl, Or.inl rfl⟩
  | true =>
    simp only [if_true, Attempt.result_send, Attempt.taken_send]
    cases o.after 1 0 with
    | false => exact Or.inr ⟨rfl, Or.inr rfl⟩
    | true => exact Or.inl ⟨rfl, rfl⟩

/-- The run has not got to `exit(EXIT_SUCCESS)`. -/
def Failed (exit : Exit) : Prop := ∀ printed, exit ≠ .success printed

theorem failed_of_status {address : Message → UInt32} {exit : Exit}
    (h : exit.status address = exitFailure) : Failed exit := by
  rintro printed rfl
  exact absurd h (show exitSuccess ≠ exitFailure by decide)

theorem failed_error (message : Message) : Failed (.error message) := fun _ => Exit.noConfusion

/-- All that the two steps can come to. -/
theorem twoSteps_cases (record : LibCall) (class' : UInt32) (good : Exit) (message : Message)
    (o : Outcomes) :
    let run := twoSteps record class' good message
    run.result o = good ∨
    (run.result o = .error message ∧ (run.taken o = [] ∨ run.taken o = [.sdpConnect])) ∨
    (run.result o = .error .setDevClass ∧
      (run.taken o = [.sdpConnect, record] ∨ run.taken o = [.sdpConnect, record, .hciOpenDev])) := by
  simp only [twoSteps, Attempt.result_bind, Attempt.taken_bind]
  have hrecords := bothCalls_cases .sdpConnect record true false o
  generalize bothCalls .sdpConnect record true false = records at hrecords
  rcases hrecords with ⟨hresult, htaken⟩ | ⟨hresult, htaken⟩
  · rw [hresult, htaken, if_pos rfl]
    rcases bothCalls_cases .hciOpenDev (.hciWriteClassOfDev class') good (Exit.error .setDevClass)
      (o.after (records.attempts o).length) with ⟨hgood, _⟩ | ⟨hbad, hcalls | hcalls⟩
    · exact Or.inl hgood
    · exact Or.inr (Or.inr ⟨hbad, Or.inl (by rw [hcalls]; rfl)⟩)
    · exact Or.inr (Or.inr ⟨hbad, Or.inr (by rw [hcalls]; rfl)⟩)
  · rw [hresult, if_neg Bool.false_ne_true, Attempt.taken_done, List.append_nil]
    exact Or.inr (Or.inl ⟨rfl, htaken⟩)

/-- A run of `mouse`, `multi` or `phone` that fails leaves the device class alone. It
leaves the records alone too, unless its call that registers or removes the record
succeeded: then they differ by that record. Wherever the messages are, a run that exits with
`EXIT_FAILURE` has failed. -/
theorem failed_run (address : Message → UInt32) (command : Command) (argv : List (List UInt8))
    (h : command.Given argv) (replies : Replies) (o : Outcomes) :
    let exit := (main argv replies).result o
    (exit.status address = exitFailure → Failed exit) ∧
      (Failed exit → ∀ adapter,
        (adapterAfter (main argv replies) o adapter).devClass = adapter.devClass ∧
        (adapterAfter (main argv replies) o adapter).records =
          if command.recordCall replies ∈ (main argv replies).taken o
          then command.recordStep replies adapter.records else adapter.records) := by
  refine ⟨failed_of_status, fun hfail adapter => ?_⟩
  have hgood : ¬ Failed (command.good replies) := by
    cases command with
    | mouse => exact fun h => h _ rfl
    | multi => exact fun h => h _ rfl
    | phone handle => exact fun h => h _ rfl
  have hconnect : command.recordCall replies ≠ .sdpConnect := by
    cases command <;> exact LibCall.noConfusion
  rw [main_eq h] at hfail ⊢
  unfold adapterAfter
  rcases twoSteps_cases (command.recordCall replies) command.devClass (command.good replies)
    command.message o with hdone | ⟨_, htaken | htaken⟩ | ⟨_, htaken | htaken⟩
  · exact absurd (hdone ▸ hfail) hgood
  · rw [htaken, if_neg List.not_mem_nil]
    exact ⟨rfl, rfl⟩
  · rw [htaken, if_neg (by simpa using hconnect)]
    exact ⟨rfl, rfl⟩
  · have hfold : [.sdpConnect, command.recordCall replies].foldl LibCall.effect adapter =
        (command.recordCall replies).effect adapter := rfl
    rw [htaken, if_pos (by simp), hfold, recordCall_effect]
    exact ⟨rfl, rfl⟩
  · have hfold : [.sdpConnect, command.recordCall replies, .hciOpenDev].foldl LibCall.effect adapter =
        (command.recordCall replies).effect adapter := rfl
    rw [htaken, if_pos (by simp), hfold, recordCall_effect]
    exact ⟨rfl, rfl⟩

/-- `bmouse multi` on a machine without a record server, with a message at an address that
ends in 1. -/
theorem failed_run_no_server :
    Failed ((main [[], literal ['m', 'u', 'l', 't', 'i']] ⟨0, 0x10000⟩).result fun _ => false) ∧
      (adapterAfter (main [[], literal ['m', 'u', 'l', 't', 'i']] ⟨0, 0x10000⟩) (fun _ => false)
        ⟨∅, dcPhone⟩).devClass = dcPhone := by
  obtain ⟨hstatus, hrun⟩ := failed_run (fun _ => 0x402101) .multi
    [[], literal ['m', 'u', 'l', 't', 'i']] rfl ⟨0, 0x10000⟩ fun _ => false
  exact ⟨hstatus rfl, (hrun (hstatus rfl) ⟨∅, dcPhone⟩).1⟩

/-- `bmouse multi` whose device cannot be opened once the record is there. That it then exits
with `EXIT_FAILURE` takes a message at an address that ends in 1; wherever it is, the run
fails and the record stays. -/
theorem record_left_behind :
    (¬ ∀ (address : Message → UInt32) (command : Command) (argv : List (List UInt8)),
      command.Given argv → ∀ (replies : Replies) (o : Outcomes),
        ((main argv replies).result o).status address = exitFailure →
          ∀ adapter, adapterAfter (main argv replies) o adapter = adapter) ∧
    ¬ ∀ (command : Command) (argv : List (List UInt8)), command.Given argv →
      ∀ (replies : Replies) (o : Outcomes), Failed ((main argv replies).result o) →
        ∀ adapter, adapterAfter (main argv replies) o adapter = adapter := by
  let argv : List (List UInt8) := [[], literal ['m', 'u', 'l', 't', 'i']]
  have hgiven : Command.multi.Given argv := rfl
  have hchanged : adapterAfter (main argv ⟨0, 0x10000⟩) (fun n => n < 2) ⟨∅, dcPhone⟩ ≠
      ⟨∅, dcPhone⟩ := by
    intro hsame
    have hrecords := congrArg (fun adapter : Adapter => adapter.records.card) hsame
    revert hrecords
    decide
  constructor
  · intro h
    exact hchanged (h (fun _ => 0x402101) .multi argv hgiven ⟨0, 0x10000⟩ (fun n => n < 2) rfl _)
  · intro h
    exact hchanged (h .multi argv hgiven ⟨0, 0x10000⟩ (fun n => n < 2)
      (failed_error .setDevClass) _)

end Android2Mouse.Guarantees.FailedRun
