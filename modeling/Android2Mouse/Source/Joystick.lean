import Android2Mouse.Library.Rounding

/-!
# The tilt joystick (`Joystick.java`)

`onSensorChanged` keeps the last reading and reports a number for each axis. A `float`
is a rational number and an `int` an integer: the readings of the sensor are far from
the limits of both. The views, the buttons and the choice of the sensors are left out.
-/
namespace Android2Mouse.Source.Joystick
open Library

def noise : ℚ := 2

/-- The fields of the activity, with the static `sensivity`. -/
structure Activity where
  sensivity : ℚ
  mInitialized : Bool
  mLastX : ℚ
  mLastY : ℚ
  mLastZ : ℚ
  deriving DecidableEq, Repr

def Activity.initial : Activity := ⟨1, false, 0, 0, 0⟩

/-- `event.values` -/
structure SensorEvent where
  x : ℚ
  y : ℚ
  z : ℚ
  deriving DecidableEq, Repr

/-- The arguments of `ReportJoystick`. -/
structure Report where
  x : ℤ
  y : ℤ
  z : ℤ
  rx : ℤ
  ry : ℤ
  rz : ℤ
  deriving DecidableEq, Repr

def adjSensivity (s : Activity) (val : ℚ) : ℤ := truncate (val * s.sensivity) * 10

/-- A change of less than `NOISE` counts as none. -/
def damped (delta : ℚ) : ℚ := if delta < noise then 0 else delta

/-- The first event only sets the last reading. -/
def onSensorChanged (event : SensorEvent) (s : Activity) : Activity × Option Report :=
  if s.mInitialized = false then
    ({ s with mLastX := event.x, mLastY := event.y, mLastZ := event.z, mInitialized := true }, none)
  else
    let deltaX := damped (roundHalfUp |s.mLastX - event.x|)
    let deltaY := damped (roundHalfUp |s.mLastY - event.y|)
    let deltaZ := damped 0
    let report : Report := ⟨adjSensivity s (s.mLastX + deltaX), adjSensivity s (s.mLastY + deltaY),
      adjSensivity s (s.mLastZ + deltaZ) * 0, 0, 0, 0⟩
    ({ s with
      mLastX := roundHalfUp event.x
      mLastY := roundHalfUp event.y
      mLastZ := roundHalfUp event.z }, some report)

end Android2Mouse.Source.Joystick
