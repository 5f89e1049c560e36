import Android2Mouse.Guarantees.FailedRun
import Android2Mouse.Source.BecomeAMouse

/-!
# The record handle as text

`bmouse` prints the handle as an unsigned number and reads it back with `strtol`, whose
`long` has 32 bits on the target. The app passes the text on unchanged (`stored_text`,
`phone_words`). So every handle comes back saturated at the largest `long`, and
`handle_kept_iff` says for which handles that is the handle itself.
-/
namespace Android2Mouse.Guarantees.RecordHandle
open Library Library.Strtol Source.SelfRepr Source.ApplyProfile Source.BecomeAMouse FailedRun

/-! ## The text on its way -/

/-- What `0x%x` prints. -/
def hexText (handle : UInt32) : List UInt8 := 48 :: 120 :: numeral 16 handle.toNat

theorem digitByte_plain (d : ℕ) (h : d < 16) :
    digitByte d ≠ 10 ∧ digitByte d ≠ 13 ∧ isDelimiter (digitByte d) = false := by
  interval_cases d <;> decide

theorem numeral_plain (n : ℕ) :
    ∀ b ∈ numeral 16 n, b ≠ 10 ∧ b ≠ 13 ∧ isDelimiter b = false := by
  intro b hb
  unfold numeral at hb
  split at hb
  · obtain rfl := List.mem_singleton.mp hb
    decide
  · obtain ⟨d, hd, rfl⟩ := List.mem_map.mp hb
    exact digitByte_plain d (Nat.digits_lt_base (by decide) (List.mem_reverse.mp hd))

theorem hexText_plain (handle : UInt32) :
    ∀ b ∈ hexText handle, b ≠ 10 ∧ b ≠ 13 ∧ isDelimiter b = false :=
  List.forall_mem_cons.mpr ⟨by decide, List.forall_mem_cons.mpr ⟨by decide, numeral_plain _⟩⟩

theorem readLine_line (line rest : List UInt8) (h : ∀ b ∈ line, b ≠ 10 ∧ b ≠ 13) :
    readLine (line ++ 10 :: rest) = (line, rest) := by
  induction line with
  | nil => rw [List.nil_append, readLine]
  | cons b line ih =>
    obtain ⟨⟨hlf, hcr⟩, hline⟩ := List.forall_mem_cons.mp h
    rw [List.cons_append, readLine, ih hline]
    · exact hlf
    · exact fun _ heq _ => hcr heq
    · exact hcr

theorem readLines_line (bound : ℕ) (line : List UInt8) (h : ∀ b ∈ line, b ≠ 10 ∧ b ≠ 13) :
    readLines (bound + 1) (line ++ [10]) = line := by
  have hread := readLine_line line [] h
  have hend : readLines bound [] = [] := by
    cases bound with
    | zero => rfl
    | succ bound => rfl
  have hstep : readLines (bound + 1) (line ++ [10]) = line ++ readLines bound [] := by
    cases line with
    | nil => rfl
    | cons b line =>
      rw [List.cons_append] at hread ⊢
      rw [readLines, hread]
      exact fun heq => List.cons_ne_nil _ _ heq
  rw [hstep, hend, List.append_nil]

/-- The app stores the printed text without its end of line. -/
theorem stored_text (handle : UInt32) :
    let text := stdout (.success (some handle))
    readLines text.length text = hexText handle := by
  have htext : stdout (.success (some handle)) = hexText handle ++ [10] := rfl
  have hlen : (hexText handle ++ [10]).length = (hexText handle).length + 1 := List.length_append
  simp only [htext, hlen]
  exact readLines_line _ _ fun b hb => ⟨(hexText_plain handle b hb).1, (hexText_plain handle b hb).2.1⟩

theorem tokens_word (word rest : List UInt8) (hne : word ≠ [])
    (h : ∀ b ∈ word, isDelimiter b = false) : tokens (word ++ 32 :: rest) = word :: tokens rest := by
  have hspace : isDelimiter 32 = true := by decide
  rw [tokens, List.splitOnP_append_cons_of_forall_mem h 32 hspace,
    List.filter_cons_of_pos (by simpa using hne)]
  rfl

theorem tokens_last (word : List UInt8) (hne : word ≠ [])
    (h : ∀ b ∈ word, isDelimiter b = false) : tokens word = [word] := by
  rw [tokens, List.splitOnP_eq_singleton h, List.filter_cons_of_pos (by simpa using hne)]
  rfl

/-- The first word, where it is one of the words that the app writes itself. -/
theorem tokens_known (word rest : List UInt8)
    (h : word ≠ [] ∧ word.all (fun b => !isDelimiter b) = true) :
    tokens (word ++ 32 :: rest) = word :: tokens rest := by
  refine tokens_word word rest h.1 fun b hb => ?_
  have hplain := List.all_eq_true.mp h.2 b hb
  rwa [Bool.not_eq_true'] at hplain

/-- `bmouse` gets the words after `su -c` as its arguments. -/
theorem command_words (rest : List UInt8) :
    (tokens (literal ['s', 'u'] ++ 32 ::
      (literal ['-', 'c'] ++ 32 :: (bmouse ++ 32 :: rest)))).drop 2 = bmouse :: tokens rest := by
  rw [tokens_known _ _ (by decide), tokens_known _ _ (by decide), tokens_known _ _ (by decide)]
  rfl

/-! ## Both commands -/

/-- The commands that print a handle. -/
inductive Registers where
  | mouse | multi
  deriving DecidableEq, Repr

def Registers.word : Registers → List UInt8
  | .mouse => literal ['m', 'o', 'u', 's', 'e']
  | .multi => literal ['m', 'u', 'l', 't', 'i']

def Registers.command : Registers → Command
  | .mouse => .mouse
  | .multi => .multi

/-- The command line of the app for one of them, without an old handle. -/
def Registers.argv (who : Registers) : List (List UInt8) := [bmouse, who.word]

theorem registers_words (who : Registers) :
    (tokens (literal ['s', 'u'] ++ 32 :: (literal ['-', 'c'] ++ 32 ::
      (bmouse ++ 32 :: (who.word ++ 32 :: []))))).drop 2 = who.argv := by
  rw [command_words, Registers.argv]
  cases who with
  | mouse =>
    rw [tokens_known _ _ (by decide)]
    rfl
  | multi =>
    rw [tokens_known _ _ (by decide)]
    rfl

theorem registers_exit (who : Registers) (replies : Replies) (o : Outcomes)
    (hrun : stdout ((main who.argv replies).result o) ≠ []) :
    (main who.argv replies).result o = .success (some replies.handle) := by
  have hgiven : who.command.Given who.argv := by cases who <;> rfl
  have hgood : who.command.good replies = .success (some replies.handle) := by cases who <;> rfl
  rw [main_eq hgiven, hgood] at hrun ⊢
  rcases twoSteps_cases (who.command.recordCall replies) who.command.devClass
    (.success (some replies.handle)) who.command.message o with h | ⟨h, _⟩ | ⟨h, _⟩
  · exact h
  · rw [h] at hrun
    exact absurd rfl hrun
  · rw [h] at hrun
    exact absurd rfl hrun

/-- What the app keeps of a run that prints a handle. -/
theorem becameA_stored (who : Registers) (replies : Replies) (o : Outcomes)
    (hrun : stdout ((main who.argv replies).result o) ≠ []) :
    (becameA who.word [] replies).result o = hexText replies.handle := by
  rw [becameA, registers_words, Attempt.result_bind, registers_exit who replies o hrun]
  exact stored_text replies.handle

theorem phone_words (handle : UInt32) :
    (tokens (literal ['s', 'u'] ++ 32 :: (literal ['-', 'c'] ++ 32 ::
      (bmouse ++ 32 :: (literal ['p', 'h', 'o', 'n', 'e'] ++ 32 :: hexText handle))))).drop 2 =
      [bmouse, literal ['p', 'h', 'o', 'n', 'e'], hexText handle] := by
  rw [command_words, tokens_known _ _ (by decide),
    tokens_last (hexText handle) (List.cons_ne_nil _ _) fun b hb => (hexText_plain handle b hb).2.2]

/-- The handle that a call removes. -/
def removed : LibCall → Option UInt32
  | .sdpDeviceRecordUnregisterBinary handle => some handle
  | _ => none

/-- Once connected, the first step is made, and the second removes nothing. -/
theorem twoSteps_removed (record : LibCall) (class' : UInt32) (good : Exit) (message : Message)
    (o : Outcomes) (hconnect : o 0 = true) :
    ((twoSteps record class' good message).attempts o).filterMap removed =
      [record].filterMap removed := by
  have hsecond : ∀ o : Outcomes, ((bothCalls .hciOpenDev (.hciWriteClassOfDev class') good
      (Exit.error .setDevClass)).attempts o).filterMap removed = [] := by
    intro o
    simp only [bothCalls, Attempt.attempts_send]
    cases o 0 with
    | false => rfl
    | true => rfl
  rw [twoSteps, bothCalls_bind_eq, Attempt.attempts_send, hconnect, if_pos rfl,
    Attempt.attempts_send]
  cases o.after 1 0 with
  | false => rfl
  | true =>
    rw [if_pos rfl, if_pos rfl, List.filterMap_cons_none rfl, ← List.singleton_append,
      List.filterMap_append, hsecond, List.append_nil]

/-- Switching off removes the stored handle as `strtol` reads it. -/
theorem toggle_removes (handle : UInt32) (mode : Bool) (replies : Replies) (o : Outcomes)
    (hconnect : o 0 = true) :
    ((onToggleClicked false ⟨some (hexText handle), mode⟩ replies).attempts o).filterMap removed =
      [(Int32.ofInt (saturate 32 handle.toNat)).toUInt32] := by
  have hgiven : (Command.phone (hexText handle)).Given
      [bmouse, literal ['p', 'h', 'o', 'n', 'e'], hexText handle] := ⟨rfl, rfl⟩
  have htoggle : onToggleClicked false ⟨some (hexText handle), mode⟩ replies =
      becameA (literal ['p', 'h', 'o', 'n', 'e']) (hexText handle) replies >>= fun _ =>
        .done ⟨some (hexText handle), mode⟩ := rfl
  rw [htoggle, Attempt.attempts_bind, becameA, phone_words, Attempt.attempts_bind, main_eq hgiven]
  simp only [Attempt.pure_eq, Attempt.attempts_done, List.append_nil]
  rw [twoSteps_removed _ _ _ _ _ hconnect, Command.recordCall, hexText, strtol_hex]
  rfl

/-! ## Which handles -/

theorem saturated_toNat (handle : UInt32) :
    (Int32.ofInt (saturate 32 handle.toNat)).toUInt32.toNat = min (2 ^ 31 - 1) handle.toNat := by
  have hlt := handle.toNat_lt
  have hbits : (Int32.ofInt (saturate 32 handle.toNat)).toUInt32.toNat =
      (BitVec.ofInt 32 (saturate 32 handle.toNat)).toNat := rfl
  rw [hbits, BitVec.toNat_ofInt, saturate]
  omega

theorem saturated_eq_iff (handle : UInt32) :
    (Int32.ofInt (saturate 32 handle.toNat)).toUInt32 = handle ↔ handle.toNat < 2 ^ 31 := by
  rw [← UInt32.toNat_inj, saturated_toNat]
  omega

/-- A printed handle, kept by the app and handed to `phone`, is the handle that is
removed if and only if it fits the positive range of `long`. -/
theorem handle_kept_iff (who : Registers) (replies replies' : Replies) (mode : Bool)
    (o o' : Outcomes) (hprinted : stdout ((main who.argv replies).result o) ≠ [])
    (hconnect : o' 0 = true) :
    let stored := (becameA who.word [] replies).result o
    ((onToggleClicked false ⟨some stored, mode⟩ replies').attempts o').filterMap removed =
      [replies.handle] ↔ replies.handle.toNat < 2 ^ 31 := by
  simp only [becameA_stored who replies o hprinted, toggle_removes replies.handle mode replies' o'
    hconnect, List.singleton_inj]
  exact saturated_eq_iff replies.handle

/-- The first handle that a server assigns. -/
theorem handle_kept_first :
    let replies : Replies := ⟨0, 0x10000⟩
    let stored := (becameA Registers.multi.word [] replies).result .allSucceed
    ((onToggleClicked false ⟨some stored, true⟩ replies).attempts .allSucceed).filterMap removed =
      [0x10000] ↔ (0x10000 : UInt32).toNat < 2 ^ 31 :=
  handle_kept_iff .multi ⟨0, 0x10000⟩ ⟨0, 0x10000⟩ true .allSucceed .allSucceed (by decide +kernel)
    rfl

/-- The record with the handle 0x80000000 stays, and 0x7fffffff is removed instead. -/
theorem handle_saturated :
    ¬ ∀ (who : Registers) (replies replies' : Replies) (mode : Bool) (o o' : Outcomes),
      stdout ((main who.argv replies).result o) ≠ [] → o' 0 = true →
      let stored := (becameA who.word [] replies).result o
      ((onToggleClicked false ⟨some stored, mode⟩ replies').attempts o').filterMap removed =
        [replies.handle] := by
  intro h
  let replies : Replies := ⟨0, 0x80000000⟩
  have hprinted : stdout ((main Registers.multi.argv replies).result .allSucceed) ≠ [] := by
    decide +kernel
  have hkept := h .multi replies replies true .allSucceed .allSucceed hprinted rfl
  simp only [becameA_stored .multi replies .allSucceed hprinted,
    toggle_removes replies.handle true replies .allSucceed rfl, List.singleton_inj] at hkept
  exact absurd ((saturated_eq_iff replies.handle).mp hkept) (by decide)

end Android2Mouse.Guarantees.RecordHandle
