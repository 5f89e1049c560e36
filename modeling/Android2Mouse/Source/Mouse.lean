import Android2Mouse.Library.Rounding

/-!
# The touch pad (`Mouse.java`)

`onTouchEvent` keeps the row of the last touch and reports the wheel itself where two
fingers move; every other event goes to the gesture detector. A coordinate is a rational
number, `(int)` cuts its fraction off, and the factor 0.2 is 1/5. The rows of a screen
are far from the limits of `int`, which is ℤ here. Logging is left out.
-/
namespace Android2Mouse.Source.Mouse
open Library

/-- `ACTION_POINTER_DOWN`, `ACTION_MOVE` and all other actions. -/
inductive Action where
  | pointerDown | move | other
  deriving DecidableEq, Repr

/-- The pointers are given by their coordinates. -/
structure MotionEvent where
  actionMasked : Action
  actionIndex : ℕ
  pointers : List (ℚ × ℚ)
  deriving DecidableEq, Repr

def MotionEvent.getY (event : MotionEvent) (index : ℕ) : ℚ := (event.pointers.getD index (0, 0)).2

/-- The call of `ReportMouse`, or that the event went to the detector. -/
inductive Handled where
  | reportMouse (x y w : ℤ)
  | gestureDetector
  deriving DecidableEq, Repr

def wheelSensivity : ℚ := 1 / 5

def onTouchEvent (event : MotionEvent) (oldPos : ℤ) : ℤ × Handled :=
  let oldPos :=
    if event.actionMasked = .pointerDown then truncate (event.getY event.actionIndex) else oldPos
  if event.actionMasked = .move ∧ 1 < event.pointers.length then
    let yPos := truncate (event.getY event.actionIndex)
    (yPos, .reportMouse 0 0 (truncate ((oldPos - yPos : ℤ) * wheelSensivity)))
  else (oldPos, .gestureDetector)

/-- What becomes of some events, from a value of `oldPos`. -/
def onTouchEvents (oldPos : ℤ) : List MotionEvent → List Handled
  | [] => []
  | event :: events =>
    (onTouchEvent event oldPos).2 :: onTouchEvents (onTouchEvent event oldPos).1 events

end Android2Mouse.Source.Mouse
