import Android2Mouse.Source.MouseGestureListener
import Android2Mouse.Guarantees.HeldButtons

/-!
# Grasp mode and the left button

`bstate` is meant to say whether the left button is held. Two callbacks press
and release the button without touching `bstate`: a confirmed single tap, and
the early return of `onDoubleTap`. Both are harmless while the button is up and
lose it while it is down, so `Agree` survives a callback exactly when the
callback is not one of these in grasp mode (`agree_step`).
-/
namespace Android2Mouse.Guarantees.GraspMode
open Library Source.ComboConn Source.Hidp Source.HidpClientdlib Source.HidpBcaster
open Source.MouseGestureListener Session HostView HeldButtons

/-- The left button is down in a mask. -/
def LeftDown (mask : Int32) : Prop := bit mask 0 = true

/-- Grasp mode is on exactly when the left button is held. -/
def Agree (s : Listener) : Prop := s.bstate = .pushed ↔ LeftDown s.caster.mouseButtons

/-- The callback does not click the left button in grasp mode. -/
def Harmless (s : Listener) (gesture : Gesture) : Prop :=
  s.bstate = .pushed →
    gesture ≠ .singleTapConfirmed ∧ ¬ (gesture = .doubleTap ∧ s.moved = .notMoved)

theorem leftDown_push (m : Int32) : LeftDown (m ||| mevBtnLeft) := by
  rw [LeftDown, bit_or]
  exact Bool.or_true _

theorem leftDown_release (m : Int32) : ¬ LeftDown (m &&& ~~~mevBtnLeft) := by
  rw [LeftDown, bit_and_not]
  simp [show bit mevBtnLeft 0 = true from by decide]

theorem leftDown_right (m : Int32) :
    LeftDown ((m ||| mevBtnRight) &&& ~~~mevBtnRight) ↔ LeftDown m := by
  have hright : bit mevBtnRight 0 = false := by decide
  rw [LeftDown, LeftDown, bit_and_not, bit_or, hright, Bool.or_false, Bool.not_false, Bool.and_true]

/-- A click ends with the left button up, wherever it started. -/
theorem agree_click (s : Listener) (h : ¬ LeftDown s.caster.mouseButtons) :
    Agree s ↔ s.bstate ≠ .pushed := by
  rw [Agree]
  exact ⟨fun hagree hpushed => h (hagree.mp hpushed), fun hne => iff_of_false hne h⟩

theorem agree_step (s : Listener) (gesture : Gesture) (h : Agree s) :
    Agree (gesture.run s) ↔ Harmless s gesture := by
  cases gesture with
  | longPress =>
    have hsame : Agree (Gesture.longPress.run s) ↔ Agree s :=
      iff_congr Iff.rfl (leftDown_right s.caster.mouseButtons)
    exact iff_of_true (hsame.mpr h) fun _ => ⟨by simp, by simp⟩
  | scroll dx dy => exact iff_of_true h fun _ => ⟨by simp, by simp⟩
  | singleTapConfirmed =>
    rw [agree_click (Gesture.singleTapConfirmed.run s) (leftDown_release _)]
    exact ⟨fun hne hpushed => absurd hpushed hne, fun hharmless hpushed => (hharmless hpushed).1 rfl⟩
  | doubleTap =>
    obtain ⟨bstate, motion, caster⟩ := s
    cases bstate with
    | notPushed =>
      have hpush : Agree (Gesture.doubleTap.run ⟨.notPushed, motion, caster⟩) :=
        iff_of_true rfl (leftDown_push _)
      exact iff_of_true hpush fun hpushed => by cases hpushed
    | pushed =>
      cases motion with
      | notMoved =>
        -- the early return: released, pushed and released, with `bstate` kept
        have hlost : ¬ Agree (Gesture.doubleTap.run ⟨.pushed, .notMoved, caster⟩) :=
          fun hagree => leftDown_release _ (hagree.mp rfl)
        exact iff_of_false hlost fun hharmless => (hharmless rfl).2 ⟨rfl, rfl⟩
      | moved =>
        have hrelease : Agree (Gesture.doubleTap.run ⟨.pushed, .moved, caster⟩) :=
          iff_of_false (by intro hpushed; cases hpushed) (leftDown_release _)
        exact iff_of_true hrelease fun _ => ⟨by simp, by simp⟩

/-! ## The calls behind the callbacks -/

/-- The calls of `HidpBcaster` that a callback makes. -/
def callsOf (s : Listener) : Gesture → List Call
  | .longPress => [.pushMouseButton mevBtnRight, .releaseMouseButton mevBtnRight]
  | .scroll distanceX distanceY => [.reportMouse distanceX distanceY 0]
  | .singleTapConfirmed => [.pushMouseButton mevBtnLeft, .releaseMouseButton mevBtnLeft]
  | .doubleTap =>
    match s.bstate, s.moved with
    | .notPushed, _ => [.pushMouseButton mevBtnLeft]
    | .pushed, .notMoved => [.releaseMouseButton mevBtnLeft, .pushMouseButton mevBtnLeft,
        .releaseMouseButton mevBtnLeft]
    | .pushed, .moved => [.releaseMouseButton mevBtnLeft]

theorem gesture_caster (s : Listener) (gesture : Gesture) :
    (gesture.run s).caster = run (callsOf s gesture) s.caster := by
  cases gesture with
  | doubleTap =>
    obtain ⟨bstate, motion, caster⟩ := s
    cases bstate with
    | notPushed => rfl
    | pushed => cases motion <;> rfl
  | longPress | scroll | singleTapConfirmed => rfl

theorem run_append (calls calls' : List Call) (b : Bcaster) :
    run (calls ++ calls') b = run calls' (run calls b) := List.foldl_append

/-- A run of callbacks is a run of calls. -/
theorem gestures_caster (gestures : List Gesture) (s : Listener) :
    ∃ calls, (runGestures gestures s).caster = run calls s.caster := by
  induction gestures generalizing s with
  | nil => exact ⟨[], rfl⟩
  | cons gesture gestures ih =>
    obtain ⟨calls, hcalls⟩ := ih (gesture.run s)
    refine ⟨callsOf s gesture ++ calls, ?_⟩
    rw [run_append, ← gesture_caster]
    exact hcalls

/-- The packets in the FIFO at a state of the listener. -/
def fifoOf (s : Listener) : List BinPacket := fifoPackets [] s.caster.lib.calls

/-- The left button is down in the host's last mouse report. -/
def HostLeftDown (payloads : List Payload) : Prop := bit8 (hostMouseButtons payloads) 0 = true

/-- The host's left button is that of the mask. -/
theorem hostLeftDown_iff (opened : Descriptor) (packet : BinPacket) (fd : Int32)
    (earlier : List Call) (gestures : List Gesture)
    (d : Delivery (fifoOf (runGestures gestures
      (.initial (run earlier (startOf opened packet fd)))))) :
    HostLeftDown d.payloads ↔ LeftDown (runGestures gestures
      (.initial (run earlier (startOf opened packet fd)))).caster.mouseButtons := by
  obtain ⟨calls, hcalls⟩ := gestures_caster gestures
    (.initial (run earlier (startOf opened packet fd)))
  have hrun : (runGestures gestures (.initial (run earlier (startOf opened packet fd)))).caster =
      run (earlier ++ calls) (startOf opened packet fd) := by
    rw [hcalls, run_append]
    rfl
  revert d
  unfold fifoOf
  rw [hrun]
  intro d
  rw [HostLeftDown, payloads_sent opened packet fd (earlier ++ calls) d, hostMouseButtons_sent,
    bit8_intToUInt8]
  exact Iff.rfl

/-- From the start of a session on, with any calls made before that leave no
mouse button held: grasp mode and the left button agree after every callback,
in the mask and at the host, exactly when no callback of the run clicks the left
button in grasp mode. -/
theorem grasp_mode_iff (opened : Descriptor) (packet : BinPacket) (fd : Int32)
    (earlier : List Call) (hnone : (run earlier (startOf opened packet fd)).mouseButtons = 0)
    (gestures : List Gesture) :
    (∀ before gesture since, gestures = before ++ gesture :: since →
      let s := runGestures (before ++ [gesture]) (.initial (run earlier (startOf opened packet fd)))
      (s.bstate = .pushed ↔ LeftDown s.caster.mouseButtons) ∧
        ∀ d : Delivery (fifoOf s), (s.bstate = .pushed ↔ HostLeftDown d.payloads)) ↔
    ∀ before gesture since, gestures = before ++ gesture :: since →
      Harmless (runGestures before (.initial (run earlier (startOf opened packet fd)))) gesture := by
  have hinit : Agree (.initial (run earlier (startOf opened packet fd))) := by
    rw [Agree, LeftDown, Listener.initial, hnone, bit_zero]
    simp
  have hrun := holds_throughout_iff (fun s gesture => Gesture.run gesture s) Agree Harmless
    agree_step _ hinit gestures
  refine Iff.trans ?_ hrun
  constructor
  · intro h before gesture since heq
    exact (h before gesture since heq).1
  · intro h before gesture since heq
    have hagree := h before gesture since heq
    refine ⟨hagree, fun d => ?_⟩
    rw [hostLeftDown_iff opened packet fd earlier (before ++ [gesture]) d]
    exact hagree

/-- The first double tap is harmless, also when the left button was pushed and released before. -/
theorem grasp_mode_double_tap :
    let earlier : List Call := [.pushMouseButton 1, .reportMouse 5 (-3) 0, .releaseMouseButton 1]
    (runGestures ([] ++ [.doubleTap])
      (.initial (run earlier (startOf ⟨3, by decide⟩ .zero 0)))).bstate = .pushed ↔
    LeftDown (runGestures ([] ++ [.doubleTap])
      (.initial (run earlier (startOf ⟨3, by decide⟩ .zero 0)))).caster.mouseButtons := by
  intro earlier
  have hnone : (run earlier (startOf ⟨3, by decide⟩ .zero 0)).mouseButtons = 0 := by decide
  refine ((grasp_mode_iff ⟨3, by decide⟩ .zero 0 earlier hnone [.doubleTap]).mpr ?_
    [] .doubleTap [] rfl).1
  intro before gesture since heq
  cases before with
  | nil => exact fun hpushed => by cases hpushed
  | cons first before => simp at heq

/-- A double tap and a single tap: grasp mode is on, the left button is up. -/
theorem tap_in_grasp_mode :
    ¬ ∀ (opened : Descriptor) (packet : BinPacket) (fd : Int32) (gestures : List Gesture)
      (before : List Gesture) (gesture : Gesture) (since : List Gesture),
      gestures = before ++ gesture :: since →
        let s := runGestures (before ++ [gesture]) (.initial (startOf opened packet fd))
        (s.bstate = .pushed ↔ LeftDown s.caster.mouseButtons) := by
  intro h
  have hagree := h ⟨3, by decide⟩ .zero 0 [.doubleTap, .singleTapConfirmed] [.doubleTap]
    .singleTapConfirmed [] rfl
  exact absurd (hagree.mp (by decide)) (leftDown_release _)

end Android2Mouse.Guarantees.GraspMode
