import Android2Mouse.Source.Mouse
import Android2Mouse.Guarantees.GraspMode

/-!
# The wheel under two fingers

The rows that `onTouchEvent` compares are that of the new finger when it comes down and
those of finger 0 at every move. So the wheel starts with the distance of the two fingers
where finger 0 is not the new one, and every move cuts off its own remainder. A gesture in
which neither happens is followed; any other has the index or a drop with which the wheel
goes wrong (`wheel_follows`).
-/
namespace Android2Mouse.Guarantees.Wheel
open Library Source.Mouse Source.HidpBcaster Source.MouseGestureListener

/-- Where both fingers are. -/
abbrev Fingers := Fin 2 → ℚ × ℚ

/-- A finger comes down beside another, and both move any number of times. -/
structure TwoFingers where
  newFinger : Fin 2
  start : Fingers
  moves : List Fingers

def pointers (p : Fingers) : List (ℚ × ℚ) := [p 0, p 1]

/-- The index of an event is that of the new finger when one comes down, and 0 at a move. -/
def TwoFingers.events (g : TwoFingers) : List MotionEvent :=
  ⟨.pointerDown, g.newFinger, pointers g.start⟩ :: g.moves.map fun p => ⟨.move, 0, pointers p⟩

/-- The wheel argument of a call. -/
def callWheel : Call → Int32
  | .reportMouse _ _ w => w
  | _ => 0

/-- What the detector answers an event with turns no wheel. -/
theorem callback_no_wheel (s : Listener) (gesture : Gesture) :
    ∀ call ∈ GraspMode.callsOf s gesture, callWheel call = 0 := by
  cases gesture with
  | doubleTap =>
    obtain ⟨bstate, motion, caster⟩ := s
    cases bstate with
    | notPushed => simp [GraspMode.callsOf, callWheel]
    | pushed => cases motion <;> simp [GraspMode.callsOf, callWheel]
  | longPress | scroll | singleTapConfirmed => simp [GraspMode.callsOf, callWheel]

/-- The wheel value that is reported; the detector reports none (`callback_no_wheel`). -/
def wheel : Handled → ℤ
  | .reportMouse _ _ w => w
  | .gestureDetector => 0

/-- The sum of the wheel values of a gesture, whatever `oldPos` was before. -/
def wheelSum (oldPos : ℤ) (g : TwoFingers) : ℤ :=
  ((onTouchEvents oldPos g.events).map wheel).sum

/-- The pixel row of a finger. -/
def row (p : Fingers) (finger : Fin 2) : ℤ := truncate (p finger).2

/-- How far up a finger has moved since the gesture began. -/
def displacement (g : TwoFingers) (finger : Fin 2) : ℚ :=
  (g.start finger).2 - (g.moves.getLastD g.start finger).2

/-! ## The rows that are compared -/

/-- The drops from each row to the next. -/
def drops : ℤ → List ℤ → List ℤ
  | _, [] => []
  | r, r' :: rows => (r - r') :: drops r' rows

theorem sum_drops (r : ℤ) (rows : List ℤ) : (drops r rows).sum = r - rows.getLastD r := by
  induction rows generalizing r with
  | nil => exact (Int.sub_self r).symm
  | cons r' rows ih =>
    rw [drops, List.sum_cons, ih, List.getLastD_cons]
    omega

/-- The row that is stored when the new finger comes down. -/
def firstRow (g : TwoFingers) : ℤ := row g.start g.newFinger

/-- The rows that the moves are measured by. -/
def movedRows (g : TwoFingers) : List ℤ := g.moves.map fun p => row p 0

/-- The drops that the wheel turns by. -/
def turns (g : TwoFingers) : List ℤ := drops (firstRow g) (movedRows g)

theorem onTouchEvent_down (oldPos : ℤ) (finger : Fin 2) (p : Fingers) :
    onTouchEvent ⟨.pointerDown, finger, pointers p⟩ oldPos = (row p finger, .gestureDetector) := by
  match finger with
  | 0 => rfl
  | 1 => rfl

theorem onTouchEvent_move (oldPos : ℤ) (p : Fingers) :
    onTouchEvent ⟨.move, 0, pointers p⟩ oldPos =
      (row p 0, .reportMouse 0 0 ((oldPos - row p 0).tdiv 5)) := by
  have hfactor : ((oldPos - row p 0 : ℤ) : ℚ) * wheelSensivity =
      (oldPos - row p 0 : ℤ) / (5 : ℕ) := by
    rw [wheelSensivity, mul_one_div, Nat.cast_ofNat]
  have hmove : onTouchEvent ⟨.move, 0, pointers p⟩ oldPos =
      (row p 0, .reportMouse 0 0 (truncate ((oldPos - row p 0 : ℤ) * wheelSensivity))) := rfl
  rw [hmove, hfactor, truncate_div _ (by decide)]
  rfl

theorem moves_wheel (oldPos : ℤ) (moves : List Fingers) :
    (onTouchEvents oldPos (moves.map fun p => ⟨.move, 0, pointers p⟩)).map wheel =
      (drops oldPos (moves.map fun p => row p 0)).map (·.tdiv 5) := by
  induction moves generalizing oldPos with
  | nil => rfl
  | cons p moves ih =>
    rw [List.map_cons, onTouchEvents, onTouchEvent_move, List.map_cons, ih, List.map_cons, drops,
      List.map_cons]
    rfl

theorem wheelSum_eq (oldPos : ℤ) (g : TwoFingers) :
    wheelSum oldPos g = ((turns g).map (·.tdiv 5)).sum := by
  rw [turns, wheelSum, TwoFingers.events, onTouchEvents, onTouchEvent_down, List.map_cons, moves_wheel,
    List.sum_cons]
  exact Int.zero_add _

/-! ## When the wheel follows a finger -/

/-- The wheel turns by a fifth of the way of the finger, to the nearest step. -/
def Follows (oldPos : ℤ) (g : TwoFingers) (finger : Fin 2) : Prop :=
  wheelSum oldPos g = roundHalfUp (displacement g finger / 5) ∧
    |(wheelSum oldPos g : ℚ) - displacement g finger / 5| < 1

/-- The new finger is finger 0, and each row of it that is read is a multiple of five rows away
from the one read before. -/
def InFifths (g : TwoFingers) : Prop :=
  g.moves ≠ [] → g.newFinger = 0 ∧ ∀ d ∈ turns g, 5 ∣ d

theorem last_row (g : TwoFingers) (h : g.newFinger = 0) :
    (movedRows g).getLastD (firstRow g) = truncate (g.moves.getLastD g.start 0).2 := by
  rw [movedRows, firstRow, h]
  cases g.moves with
  | nil => rfl
  | cons p moves => rw [List.map_cons, List.getLastD_cons, List.getLastD_cons, List.getLastD_map]; rfl

theorem follows_of_near {oldPos : ℤ} {g : TwoFingers} {finger : Fin 2}
    (h : |(5 * wheelSum oldPos g : ℤ) - displacement g finger| < 2) : Follows oldPos g finger := by
  have hcast : (((5 * wheelSum oldPos g : ℤ) : ℚ)) = 5 * (wheelSum oldPos g : ℚ) := by push_cast; rfl
  rw [hcast] at h
  obtain ⟨hlow, hhigh⟩ := abs_lt.mp h
  have hnear : |(wheelSum oldPos g : ℚ) - displacement g finger / 5| < 1 / 2 :=
    abs_lt.mpr ⟨by linarith, by linarith⟩
  exact ⟨(roundHalfUp_of_near hnear).symm, hnear.trans (by norm_num)⟩

theorem follows_inFifths (oldPos : ℤ) (g : TwoFingers) (h : InFifths g) : Follows oldPos g 0 := by
  apply follows_of_near
  by_cases hmoves : g.moves = []
  · have hnone : movedRows g = [] := by rw [movedRows, hmoves, List.map_nil]
    rw [wheelSum_eq, turns, hnone, displacement, hmoves]
    simp [drops]
  · obtain ⟨hfinger, hfifths⟩ := h hmoves
    have hfirst : firstRow g = truncate (g.start 0).2 := by rw [firstRow, hfinger, row]
    have hstart := abs_lt.mp (abs_truncate_sub_lt (g.start 0).2)
    have hlast := abs_lt.mp (abs_truncate_sub_lt (g.moves.getLastD g.start 0).2)
    rw [wheelSum_eq, sum_tdiv_of_dvd hfifths, turns, sum_drops, last_row g hfinger, hfirst,
      displacement, Int.cast_sub]
    exact abs_lt.mpr ⟨by linarith, by linarith⟩

/-! ## Gestures that go wrong -/

/-- A gesture by the rows that it reads, the new finger beginning at the first. -/
theorem turns_of_rows {g : TwoFingers} {r : ℤ} {rows : List ℤ} (hfirst : firstRow g = r)
    (hmoved : movedRows g = rows) : turns g = drops r rows := by rw [turns, hfirst, hmoved]

/-- Both fingers drop by the same five times. -/
def fiveTimes (d : ℤ) : TwoFingers :=
  ⟨0, fun _ => (0, 0), [-d, -2 * d, -3 * d, -4 * d, -5 * d].map fun r : ℤ => fun _ => (0, r)⟩

theorem turns_fiveTimes (d : ℤ) : turns (fiveTimes d) = [d, d, d, d, d] := by
  have hfirst : firstRow (fiveTimes d) = 0 := truncate_intCast 0
  have hmoved : movedRows (fiveTimes d) = [-d, -2 * d, -3 * d, -4 * d, -5 * d] := by
    rw [movedRows, fiveTimes, List.map_map]
    exact List.map_id'' truncate_intCast _
  rw [turns_of_rows hfirst hmoved]
  simp only [drops]
  congr 1
  · omega
  · refine congrArg₂ _ (by omega) (congrArg₂ _ (by omega) (congrArg₂ _ (by omega) ?_))
    exact congrArg₂ _ (by omega) rfl

/-- What is cut off is a step at least, in the end. -/
theorem fiveTimes_wrong (oldPos : ℤ) {d : ℤ} (h : ¬ 5 ∣ d) (finger : Fin 2) :
    1 ≤ |(wheelSum oldPos (fiveTimes d) : ℚ) - displacement (fiveTimes d) finger / 5| := by
  have hsum : wheelSum oldPos (fiveTimes d) = 5 * d.tdiv 5 := by
    rw [wheelSum_eq, turns_fiveTimes]
    simp only [List.map_cons, List.map_nil, List.sum_cons, List.sum_nil]
    omega
  have hway : displacement (fiveTimes d) finger = ((5 * d : ℤ) : ℚ) := by
    have hlast : displacement (fiveTimes d) finger = 0 - ((-5 * d : ℤ) : ℚ) := rfl
    rw [hlast]
    push_cast
    ring
  have hdiff : (wheelSum oldPos (fiveTimes d) : ℚ) - displacement (fiveTimes d) finger / 5 =
      ((5 * d.tdiv 5 - d : ℤ) : ℚ) := by
    rw [hsum, hway]
    push_cast
    ring
  have hne : 5 * d.tdiv 5 - d ≠ 0 := fun hzero => h ⟨d.tdiv 5, by omega⟩
  rw [hdiff, ← Int.cast_abs]
  exact_mod_cast Int.one_le_abs hne

/-- The same rows of the new finger 1 and of finger 0, both fingers going farther. -/
def farther (r : ℤ) (rows : List ℤ) (way : ℤ) : TwoFingers :=
  ⟨1, fun finger => if finger = 0 then (0, (rows.getLastD 0 + way : ℤ)) else (0, r),
    rows.map fun row : ℤ => fun finger => if finger = 0 then (0, row) else (0, (r - way : ℤ))⟩

theorem turns_farther (r : ℤ) (rows : List ℤ) (way : ℤ) :
    turns (farther r rows way) = drops r rows := by
  refine turns_of_rows (truncate_intCast r) ?_
  rw [movedRows, farther, List.map_map]
  exact List.map_id'' truncate_intCast _

theorem displacement_farther (r : ℤ) {rows : List ℤ} (h : rows ≠ []) (way : ℤ) (finger : Fin 2) :
    displacement (farther r rows way) finger = way := by
  obtain ⟨row, rows, rfl⟩ := List.exists_cons_of_ne_nil h
  have hlast : ((farther r (row :: rows) way).moves.getLastD (farther r (row :: rows) way).start) =
      fun finger => if finger = 0 then (0, ((rows.getLastD row : ℤ) : ℚ)) else (0, (r - way : ℤ)) := by
    rw [farther, List.map_cons, List.getLastD_cons, List.getLastD_map]
  rw [displacement, hlast]
  match finger with
  | 0 =>
    change ((((row :: rows).getLastD 0 + way : ℤ) : ℚ)) - ((rows.getLastD row : ℤ) : ℚ) = way
    rw [List.getLastD_cons]
    push_cast
    ring
  | 1 =>
    change (r : ℚ) - ((r - way : ℤ) : ℚ) = way
    push_cast
    ring

theorem farther_wrong (oldPos r : ℤ) {rows : List ℤ} (h : rows ≠ []) (finger : Fin 2) :
    let g := farther r rows (5 * ((drops r rows).map (·.tdiv 5)).sum + 5)
    1 ≤ |(wheelSum oldPos g : ℚ) - displacement g finger / 5| := by
  intro g
  rw [displacement_farther r h, wheelSum_eq, turns_farther]
  generalize ((drops r rows).map (·.tdiv 5)).sum = n
  have hdiff : (n : ℚ) - ((5 * n + 5 : ℤ) : ℚ) / 5 = -1 := by
    push_cast
    ring
  rw [hdiff, abs_neg, abs_one]

/-- A gesture of which the moves are in fifths, and the new finger is finger 0, turns the
wheel by a fifth of the way of this finger, to the nearest step. For any other gesture the wheel
goes wrong with the same index and no other drops, for either finger. -/
theorem wheel_follows (oldPos : ℤ) (g : TwoFingers) :
    (InFifths g → Follows oldPos g 0) ∧
    (¬ InFifths g → ∃ g' : TwoFingers, g'.newFinger = g.newFinger ∧ turns g' ⊆ turns g ∧
      ∀ finger, 1 ≤ |(wheelSum oldPos g' : ℚ) - displacement g' finger / 5|) := by
  refine ⟨follows_inFifths oldPos g, fun h => ?_⟩
  rw [InFifths, Classical.not_imp, Classical.not_and_iff_not_or_not] at h
  obtain ⟨hmoves, h⟩ := h
  by_cases hfinger : g.newFinger = 0
  · obtain ⟨d, hmem, hd⟩ : ∃ d ∈ turns g, ¬ 5 ∣ d := by
      simpa using h.resolve_left (not_not.mpr hfinger)
    refine ⟨fiveTimes d, hfinger.symm, ?_, fiveTimes_wrong oldPos hd⟩
    rw [turns_fiveTimes]
    exact List.cons_subset.mpr ⟨hmem, by simpa using hmem⟩
  · have hone : g.newFinger = 1 := by omega
    have hrows : movedRows g ≠ [] := by simpa [movedRows] using hmoves
    refine ⟨_, hone.symm, ?_, farther_wrong oldPos (firstRow g) hrows⟩
    rw [turns_farther]
    exact List.Subset.refl _

/-- Two fingers at rest, in the rows 0 and 100. -/
def atRest : TwoFingers :=
  let p : Fingers := fun finger => if finger = 0 then (0, 0) else (0, 100)
  ⟨1, p, [p]⟩

theorem atRest_displacement (finger : Fin 2) : displacement atRest finger = 0 := sub_self _

/-- Fingers at rest report 20 steps, so no function of the way of one finger will do. -/
theorem rest_scrolls :
    ¬ ∃ φ : ℚ → ℤ, ∀ (oldPos : ℤ) (g : TwoFingers), ∃ finger : Fin 2,
      wheelSum oldPos g = φ (displacement g finger) ∧
        |(wheelSum oldPos g : ℚ) - displacement g finger / 5| < 1 := by
  rintro ⟨φ, hφ⟩
  obtain ⟨finger, _, hclose⟩ := hφ 0 atRest
  have hsum : wheelSum 0 atRest = 20 := by decide +kernel
  rw [hsum, atRest_displacement] at hclose
  norm_num at hclose

end Android2Mouse.Guarantees.Wheel
