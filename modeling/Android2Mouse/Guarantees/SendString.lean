import Android2Mouse.Guarantees.Typing

/-!
# `send_string`

On a report with no modifier and no key, whatever its other two fields hold, each
byte of the table is a tap of two sends, and the report is idle again. With every
send taken the text arrives whole and the keyboard is left idle (`text_typed`).

`send_char_raw` hands back the result of the press and drops that of the release.
So the count says that every key went down, not that the last one came up:
`complete_leaves_idle_iff` is when it did.
-/
namespace Android2Mouse.Guarantees.SendString
open Library EdgeKeyboard Source.ComboConn Source.Hidp Source.AsciiMap
open KeySlots TapNeutral KeyTap Typing

/-! ## Everything taken -/

/-- The keys and the shift state in a report, whichever report it is. -/
def keysSnapshot : Payload → Option (Snapshot UInt8 Bool)
  | [0xA1, _, modifier, _, k0, k1, k2, k3, k4, k5] =>
    some ⟨modifier &&& shiftBit != 0, [k0, k1, k2, k3, k4, k5].filter (· ≠ 0)⟩
  | _ => none

/-- The text of a host that types the newly pressed keys of every report. -/
def reportText (payloads : List Payload) : List UInt8 :=
  typed charOf [] (payloads.filterMap keysSnapshot)

/-- No modifier and no key in a report as it is sent. -/
def NothingDown (payload : Payload) : Prop :=
  ∃ reportId reserved, payload = [0xA1, reportId, 0, reserved, 0, 0, 0, 0, 0, 0]

theorem nothingDown_idle {kbd : KeyboardReport} (h : Idle kbd) :
    NothingDown (inputPayload kbd.bytes) := by
  refine ⟨kbd.reportId, kbd.reserved, ?_⟩
  rw [KeyboardReport.bytes, h.1, h.2]
  rfl

/-- The host reads the same keys as on a zeroed report. -/
theorem charReports_snapshots {kbd : KeyboardReport} (h : Idle kbd) (c : UInt8) :
    (charReports kbd c).filterMap keysSnapshot = charSnapshots c := by
  unfold charReports charSnapshots charPayloads
  split
  · obtain ⟨reportId, reserved, hup⟩ := nothingDown_idle h
    rw [hup, tapSnapshots]
    have hdown : keysSnapshot (inputPayload (charDown kbd c).bytes) =
        some ⟨shiftModifier c &&& shiftBit != 0, [keyOf (entry c), 0, 0, 0, 0, 0].filter (· ≠ 0)⟩ :=
      rfl
    have hidle : keysSnapshot [0xA1, reportId, 0, reserved, 0, 0, 0, 0, 0, 0] = some ⟨false, []⟩ := rfl
    rw [List.filterMap_cons_some hdown, List.filterMap_cons_some hidle, List.filterMap_nil]
    simp [List.filter_cons]
  · rfl

theorem last_charReports {kbd : KeyboardReport} (string : List UInt8) :
    ∀ payload ∈ (string.flatMap (charReports kbd)).getLast?, payload = inputPayload kbd.bytes := by
  intro payload hlast
  rw [Option.mem_def, List.getLast?_flatMap] at hlast
  obtain ⟨c, _, hc⟩ := List.exists_of_findSome?_eq_some hlast
  unfold charReports at hc
  split at hc
  · exact (Option.some.inj hc).symm
  · cases hc

/-- With every send taken, the whole string is typed, its bytes without a key
left out, and the last report has nothing down. -/
theorem text_typed (kbd : KeyboardReport) (h : Idle kbd) (string : List UInt8) :
    let sent := (sendString kbd string).attempts .allSucceed
    ((sendString kbd string).result .allSucceed).2 = string.length ∧
      reportText sent = string.filter (fun b => Typeable b) ∧
      ∀ payload ∈ sent.getLast?, NothingDown payload := by
  obtain ⟨hattempts, hresult⟩ := sendString_taken h string
  simp only [hattempts, hresult, true_and]
  refine ⟨?_, fun payload hlast => ?_⟩
  · have hsplit : (string.flatMap (charReports kbd)).filterMap keysSnapshot =
        string.flatMap charSnapshots := by
      rw [List.filterMap_flatMap]
      exact List.flatMap_congr fun c _ => charReports_snapshots h c
    rw [reportText, hsplit, typed_chars]
  · rw [last_charReports string payload hlast]
    exact nothingDown_idle h

/-- A letter typed twice, on the report of a daemon that has just zeroed it. -/
theorem text_typed_aa :
    reportText ((sendString .zero [97, 97]).attempts .allSucceed) = [97, 97] :=
  (text_typed .zero idle_zero [97, 97]).2.1

/-! ## Any outcomes -/

/-- The bytes that the table reaches: each of them is two sends. -/
def tapped (string : List UInt8) : List UInt8 :=
  string.filter fun c => c.toNat < kbdAsciimap.length

theorem tapped_mapped {c : UInt8} (h : c.toNat < kbdAsciimap.length) (string : List UInt8) :
    tapped (c :: string) = c :: tapped string := List.filter_cons_of_pos (by simpa using h)

theorem tapped_unmapped {c : UInt8} (h : ¬ c.toNat < kbdAsciimap.length) (string : List UInt8) :
    tapped (c :: string) = tapped string := List.filter_cons_of_neg (by simpa using h)

theorem sendString_unmapped (kbd : KeyboardReport) {c : UInt8}
    (hmap : ¬ c.toNat < kbdAsciimap.length) (string : List UInt8) (o : Outcomes) :
    ((sendString kbd (c :: string)).result o).2 = ((sendString kbd string).result o).2 + 1 ∧
      (sendString kbd (c :: string)).taken o = (sendString kbd string).taken o := by
  rw [sendString, sendCharAscii_unmapped kbd c 0 hmap, Attempt.done_bind]
  simp only [ne_eq, not_true_eq_false, if_false]
  rw [Attempt.result_bind, Attempt.taken_bind]
  exact ⟨rfl, List.append_nil _⟩

/-- A key-down that is not taken ends the string. -/
theorem sendString_refused {kbd : KeyboardReport} (h : Idle kbd) {c : UInt8}
    (hmap : c.toNat < kbdAsciimap.length) (string : List UInt8) {o : Outcomes} (ho : o 0 = false) :
    ((sendString kbd (c :: string)).result o).2 = 0 := by
  rw [sendString, sendCharAscii_tap h c hmap, Attempt.send_bind, Attempt.result_send, ho]
  rfl

/-- After a key-down that is taken the string goes on, the key-up taken or not. -/
theorem sendString_mapped {kbd : KeyboardReport} (h : Idle kbd) {c : UInt8}
    (hmap : c.toNat < kbdAsciimap.length) (string : List UInt8) {o : Outcomes} (ho : o 0 = true) :
    ((sendString kbd (c :: string)).result o).2 =
        ((sendString kbd string).result (o.after 2)).2 + 1 ∧
      (sendString kbd (c :: string)).taken o =
        inputPayload (charDown kbd c).bytes ::
          ((if o 1 then [inputPayload kbd.bytes] else []) ++
            (sendString kbd string).taken (o.after 2)) := by
  rw [sendString, sendCharAscii_tap h c hmap, Attempt.send_bind, Attempt.result_send,
    Attempt.taken_send, ho, Attempt.send_bind, Attempt.result_send, Attempt.taken_send,
    Attempt.done_bind]
  simp only [if_true, ne_eq, not_true_eq_false, if_false]
  rw [Attempt.result_bind, Attempt.taken_bind]
  simp only [Outcomes.after_after, Outcomes.after_apply, Attempt.pure_eq, Attempt.result_done,
    Attempt.taken_done, List.append_nil, List.singleton_append, true_and]
  rfl

/-- The string is complete exactly when every key-down is taken. -/
theorem complete_iff {kbd : KeyboardReport} (h : Idle kbd) (string : List UInt8) (o : Outcomes) :
    ((sendString kbd string).result o).2 = string.length ↔
      ∀ j < (tapped string).length, o (2 * j) = true := by
  induction string generalizing o with
  | nil => exact iff_of_true rfl fun j hj => absurd hj (Nat.not_lt_zero j)
  | cons c string ih =>
    by_cases hmap : c.toNat < kbdAsciimap.length
    · rw [tapped_mapped hmap, List.length_cons, List.length_cons, Nat.forall_lt_succ_left]
      cases ho : o 0 with
      | false =>
        rw [sendString_refused h hmap string ho]
        refine iff_of_false (Nat.succ_ne_zero _).symm fun hall => ?_
        exact absurd hall.1 Bool.false_ne_true
      | true =>
        have hindex : ∀ j, 2 * (j + 1) = 2 + 2 * j := by
          intro j
          omega
        rw [(sendString_mapped h hmap string ho).1, Nat.add_right_cancel_iff, ih]
        simp only [Outcomes.after_apply, hindex, true_and]
    · rw [tapped_unmapped hmap, (sendString_unmapped kbd hmap string o).1, List.length_cons,
        Nat.add_right_cancel_iff, ih]

/-- When every key-down is taken, the last report taken is about the last byte
tapped: its key-up, or its key-down if that was not taken. -/
theorem last_taken {kbd : KeyboardReport} (h : Idle kbd) (string : List UInt8) (o : Outcomes)
    (hdown : ∀ j < (tapped string).length, o (2 * j) = true) :
    ((sendString kbd string).taken o).getLast? =
      (tapped string).getLast?.map fun c =>
        inputPayload (if o (2 * (tapped string).length - 1) then kbd else charDown kbd c).bytes := by
  induction string generalizing o with
  | nil => rfl
  | cons c string ih =>
    by_cases hmap : c.toNat < kbdAsciimap.length
    · rw [tapped_mapped hmap, List.length_cons, Nat.forall_lt_succ_left] at hdown
      obtain ⟨ho, hdown⟩ := hdown
      have hrest := ih (o.after 2) fun j hj => by
        rw [Outcomes.after_apply, ← hdown j hj]
        congr 1
        omega
      rw [(sendString_mapped h hmap string ho).2, tapped_mapped hmap, List.length_cons]
      rw [List.getLast?_cons, List.getLast?_append, hrest, List.getLast?_cons]
      cases hlast : (tapped string).getLast? with
      | none =>
        have hnil := List.getLast?_eq_none_iff.mp hlast
        rw [hnil]
        cases o 1 with
        | true => simp
        | false => simp
      | some d =>
        have hpos : 0 < (tapped string).length :=
          List.length_pos_of_mem (List.mem_of_mem_getLast? hlast)
        have hindex : 2 + (2 * (tapped string).length - 1) = 2 * ((tapped string).length + 1) - 1 := by
          omega
        rw [Outcomes.after_apply, hindex]
        rfl
    · rw [tapped_unmapped hmap] at hdown ⊢
      rw [(sendString_unmapped kbd hmap string o).2, ih o hdown]

theorem nothingDown_charDown_iff (kbd : KeyboardReport) (c : UInt8) :
    NothingDown (inputPayload (charDown kbd c).bytes) ↔ ¬ Typeable c := by
  constructor
  · rintro ⟨reportId, reserved, hdown⟩ htype
    apply keyOf_ne_zero c htype
    have hkey := congrArg (fun payload : Payload => payload.getD 4 0) hdown
    exact hkey
  · intro htype
    refine ⟨kbd.reportId, kbd.reserved, ?_⟩
    rw [charDown, shiftModifier, entry_zero_of_not_typeable c htype]
    rfl

/-- When a complete string leaves nothing down: unless some key-down is not taken,
or the last byte tapped has no key, its key-up is taken. -/
theorem complete_leaves_idle_iff (kbd : KeyboardReport) (h : Idle kbd) (string : List UInt8)
    (o : Outcomes) :
    (((sendString kbd string).result o).2 = string.length →
      ∀ payload ∈ ((sendString kbd string).taken o).getLast?, NothingDown payload) ↔
    ((∀ j < (tapped string).length, o (2 * j) = true) →
      ∀ c ∈ (tapped string).getLast?, Typeable c → o (2 * (tapped string).length - 1) = true) := by
  rw [complete_iff h]
  refine forall_congr' fun hdown => ?_
  rw [last_taken h string o hdown]
  cases (tapped string).getLast? with
  | none => simp
  | some c =>
    simp only [Option.map_some, Option.mem_def, Option.some.injEq, forall_eq']
    cases o (2 * (tapped string).length - 1) with
    | true => simp [nothingDown_idle h]
    | false => simp [nothingDown_charDown_iff]

/-- One letter with both its sends taken: the last report is the empty one. -/
theorem complete_leaves_idle_a :
    ((sendString .zero [97]).taken .allSucceed).getLast? =
        some (inputPayload KeyboardReport.zero.bytes) ∧
      NothingDown (inputPayload KeyboardReport.zero.bytes) := by
  have hlast : ((sendString .zero [97]).taken .allSucceed).getLast? =
      some (inputPayload KeyboardReport.zero.bytes) := by decide +kernel
  exact ⟨hlast, (complete_leaves_idle_iff .zero idle_zero [97] .allSucceed).mpr
    (fun _ _ _ _ => rfl) (by decide +kernel) _ hlast⟩

/-- One letter whose key-up is lost: the count is complete and the key is down. -/
theorem key_up_lost :
    ¬ ∀ (kbd : KeyboardReport), Idle kbd → ∀ (string : List UInt8) (o : Outcomes),
      ((sendString kbd string).result o).2 = string.length →
        ∀ payload ∈ ((sendString kbd string).taken o).getLast?, NothingDown payload := by
  intro h
  have hdown := h .zero idle_zero [97] (fun n => n = 0) (by decide +kernel)
    (inputPayload (charDown .zero 97).bytes) (by decide +kernel)
  exact (nothingDown_charDown_iff .zero 97).mp hdown (by decide)

end Android2Mouse.Guarantees.SendString
