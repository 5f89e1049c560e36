import Android2Mouse.Guarantees.HeldButtons

/-!
# Joystick buttons and the stick

A button call reports the buttons with all six axes at zero. The mouse idiom is
the same, but there the axes are displacements, and a gamepad report gives the
position of the stick. So a button call leaves the stick where it is exactly
when it already was in the middle: `StickDeflected` says of the calls that the
last gamepad report was a movement away from there.
-/
namespace Android2Mouse.Guarantees.StickFrame
open Library Source.ComboConn Source.Hidp Source.HidpClientdlib Source.HidpBcaster
open Session HostView HeldButtons

/-- A movement with an axis that is not a multiple of 256. -/
def Deflects : Call → Prop
  | .reportJoystick x y z rx ry rz =>
    ¬ (x.toInt % 256 = 0 ∧ y.toInt % 256 = 0 ∧ z.toInt % 256 = 0 ∧
      rx.toInt % 256 = 0 ∧ ry.toInt % 256 = 0 ∧ rz.toInt % 256 = 0)
  | _ => False

/-- Such a movement is the last call that reported for the gamepad. -/
def StickDeflected (calls : List Call) : Prop :=
  Lasting Deflects (fun call => .gamepad ∈ devices call) calls

/-- All six axes at zero. -/
def Centred (r : GamepadReport) : Prop :=
  r.x = 0 ∧ r.y = 0 ∧ r.z = 0 ∧ r.rx = 0 ∧ r.ry = 0 ∧ r.rz = 0

/-- `PushJoystickButton` or `ReleaseJoystickButton` -/
def joystickButton (push : Bool) (btn : Int32) : Call :=
  if push then .pushJoystickButton btn else .releaseJoystickButton btn

theorem toInt8_eq_zero_iff (v : Int32) : v.toInt8 = 0 ↔ v.toInt % 256 = 0 := by
  have hzero : (0 : Int8).toInt = 0 := rfl
  rw [← Int8.toInt_inj, toInt_toInt8, hzero]
  split
  · exact Iff.rfl
  · omega

theorem centred_report_iff (call : Call) (mask : Int32) (r : GamepadReport)
    (h : gamepadReportOf mask call = some r) : Centred r ↔ ¬ Deflects call := by
  cases call with
  | reportJoystick x y z rx ry rz =>
    obtain rfl := Option.some.inj h
    simp only [Centred, toInt8_eq_zero_iff, Deflects, not_not]
  | pushJoystickButton btn | releaseJoystickButton btn | releaseAllButtons =>
    obtain rfl := Option.some.inj h
    exact iff_of_true ⟨rfl, rfl, rfl, rfl, rfl, rfl⟩ id
  | _ => cases h

theorem not_deflects (call : Call) (h : .gamepad ∉ devices call) : ¬ Deflects call := by
  cases call with
  | reportJoystick => exact absurd (by simp [devices]) h
  | _ => exact id

/-- The run lemma: what the last gamepad report says of the stick. -/
theorem centred_iff (calls : List Call) (b : Bcaster) (r : GamepadReport)
    (h : last gamepadOf (sent calls b) = some r) : Centred r ↔ ¬ StickDeflected calls := by
  induction calls using List.reverseRecOn with
  | nil => cases h
  | append_singleton calls call ih =>
    rw [lastGamepad_snoc] at h
    rw [StickDeflected, lasting_snoc]
    by_cases hdevice : .gamepad ∈ devices call
    · obtain ⟨r', hr'⟩ := gamepadReportOf_gamepad call (run calls b).joystickButtons hdevice
      rw [hr', Option.some_or, Option.some.injEq] at h
      subst h
      rw [centred_report_iff call _ r' hr', not_or]
      exact (and_iff_left fun hlast => hlast.2 hdevice).symm
    · rw [gamepadReportOf_other call _ hdevice, Option.none_or] at h
      rw [ih h, not_or, and_iff_right (not_deflects call hdevice), not_and_not_right]
      exact ⟨fun hn hlast => absurd hlast hn, fun hn hlast => hdevice (hn hlast)⟩

/-- The report of a button call. -/
def buttonReport (mask : Int32) : GamepadReport :=
  ⟨gpadRepId, intToUInt16 mask, 0, 0, 0, 0, 0, 0⟩

theorem reportsOf_joystickButton (mouse joystick btn : Int32) (push : Bool) :
    ∃ mask, reportsOf mouse joystick (joystickButton push btn) =
      [inputPayload (buttonReport mask).bytes] := by
  cases push with
  | true => exact ⟨_, (List.flatMap_singleton _ _).trans (callPayloads_gpad _ _ _ _ _ _ _)⟩
  | false => exact ⟨_, (List.flatMap_singleton _ _).trans (callPayloads_gpad _ _ _ _ _ _ _)⟩

theorem bytes_inj (r r' : GamepadReport) (hid : r.reportId = gpadRepId)
    (h : inputPayload r'.bytes = inputPayload r.bytes) : r' = r := by
  have hid' : r'.reportId = gpadRepId := by
    have hbytes : r'.bytes = r.bytes := List.tail_eq_of_cons_eq h
    exact (List.head_eq_of_cons_eq hbytes).trans hid
  have hview := congrArg gamepadOf h
  rw [gamepadOf_gamepad r' hid', gamepadOf_gamepad r hid] at hview
  exact Option.some.inj hview

theorem last_gamepad_id (payloads : List Payload) (r : GamepadReport)
    (h : last gamepadOf payloads = some r) : r.reportId = gpadRepId := by
  obtain ⟨p, _, hp⟩ := List.mem_filterMap.mp (List.mem_of_getLast? h)
  unfold gamepadOf at hp
  split at hp
  · obtain rfl := Option.some.inj hp
    rfl
  · cases hp

/-- In every session state with a gamepad report, a button call delivers one
report that differs from it in the buttons only, if and only if the stick had
not last been moved out of the middle. -/
theorem stick_kept_iff (opened : Descriptor) (packet : BinPacket) (fd : Int32)
    (before : List Call) (push : Bool) (btn : Int32)
    (d₀ : Delivery (sessionPackets opened packet fd before))
    (d : Delivery (sessionPackets opened packet fd (before ++ [joystickButton push btn])))
    (r : GamepadReport) (hr : last gamepadOf d₀.payloads = some r) :
    (∃ r' : GamepadReport, d.payloads = d₀.payloads ++ [inputPayload r'.bytes] ∧
      r' = { r with buttons := r'.buttons }) ↔ ¬ StickDeflected before := by
  rw [payloads_sent] at hr
  rw [payloads_sent, payloads_sent, sent_snoc, ← centred_iff before _ r hr]
  obtain ⟨mask, hmask⟩ := reportsOf_joystickButton
    (run before (startOf opened packet fd)).mouseButtons
    (run before (startOf opened packet fd)).joystickButtons btn push
  rw [hmask]
  constructor
  · rintro ⟨r', hpayloads, hkeep⟩
    have hsame : inputPayload r'.bytes = inputPayload (buttonReport mask).bytes :=
      (List.singleton_inj.mp (List.append_cancel_left hpayloads)).symm
    have hr' := bytes_inj (buttonReport mask) r' rfl hsame
    rw [hr'] at hkeep
    rw [buttonReport, GamepadReport.mk.injEq] at hkeep
    obtain ⟨_, _, hx, hy, hz, hrx, hry, hrz⟩ := hkeep
    exact ⟨hx.symm, hy.symm, hz.symm, hrx.symm, hry.symm, hrz.symm⟩
  · rintro ⟨hx, hy, hz, hrx, hry, hrz⟩
    refine ⟨buttonReport mask, rfl, ?_⟩
    rw [buttonReport, GamepadReport.mk.injEq]
    exact ⟨(last_gamepad_id _ r hr).symm, rfl, hx.symm, hy.symm, hz.symm, hrx.symm,
      hry.symm, hrz.symm⟩

/-- A button pushed with the stick at rest. -/
theorem stick_kept_at_rest :
    ∃ r' : GamepadReport,
      (Delivery.plain (sessionPackets ⟨3, by decide⟩ .zero 0
        ([.reportJoystick 0 0 0 0 0 0] ++ [joystickButton true jevBtnA]))).payloads =
        (Delivery.plain (sessionPackets ⟨3, by decide⟩ .zero 0
          [.reportJoystick 0 0 0 0 0 0])).payloads ++ [inputPayload r'.bytes] ∧
      r' = { GamepadReport.zero with buttons := r'.buttons } := by
  refine (stick_kept_iff ⟨3, by decide⟩ .zero 0 [.reportJoystick 0 0 0 0 0 0] true jevBtnA (.plain _)
    (.plain _) .zero (by decide)).mpr ?_
  rw [StickDeflected, ← List.nil_append [Call.reportJoystick 0 0 0 0 0 0], lasting_snoc, not_or]
  exact ⟨not_not.mpr (by decide), fun h => not_lasting_nil _ _ h.1⟩

/-- A button pushed with the stick at ten to the right: the report says zero. -/
theorem stick_jumps_back :
    ¬ ∀ (opened : Descriptor) (packet : BinPacket) (fd : Int32) (before : List Call) (push : Bool)
      (btn : Int32) (d₀ : Delivery (sessionPackets opened packet fd before))
      (d : Delivery (sessionPackets opened packet fd (before ++ [joystickButton push btn])))
      (r : GamepadReport), last gamepadOf d₀.payloads = some r →
      ∃ r' : GamepadReport, d.payloads = d₀.payloads ++ [inputPayload r'.bytes] ∧
        r' = { r with buttons := r'.buttons } := by
  intro h
  obtain ⟨r', hpayloads, hkeep⟩ := h ⟨3, by decide⟩ .zero 0 [.reportJoystick 10 0 0 0 0 0] true
    jevBtnA (.plain _) (.plain _) ⟨gpadRepId, 0, 10, 0, 0, 0, 0, 0⟩ (by decide)
  have hsent : inputPayload r'.bytes = inputPayload (buttonReport jevBtnA).bytes := by
    have hlast := congrArg List.getLast? hpayloads
    rw [List.getLast?_concat] at hlast
    exact (Option.some.inj hlast).symm.trans (by decide)
  rw [bytes_inj _ r' rfl hsent] at hkeep
  revert hkeep
  decide

end Android2Mouse.Guarantees.StickFrame
