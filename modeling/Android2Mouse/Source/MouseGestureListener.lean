import Android2Mouse.Source.HidpBcaster

/-!
# The gesture listener (`MouseGestureListener.java`)

The statics of the listener and of `HidpBcaster`. A scroll is given by the two
`int`s that `adjSensivity` makes of its distances; how a `float` is scaled and
cut does not matter to anything here, so they are arbitrary. The texts shown on
the screen and the log are left out, and so are the results, which are all
`false`.
-/
namespace Android2Mouse.Source.MouseGestureListener
open HidpBcaster

/-- `NOT_PUSHED`, `PUSHED` -/
inductive BState where
  | notPushed | pushed
  deriving DecidableEq, Repr

/-- `NOT_MOVED`, `MOVED` -/
inductive Moved where
  | notMoved | moved
  deriving DecidableEq, Repr

structure Listener where
  bstate : BState
  moved : Moved
  caster : Bcaster
  deriving DecidableEq, Repr

/-- The statics as the class initialisers leave them. -/
def Listener.initial (caster : Bcaster) : Listener := ⟨.notPushed, .moved, caster⟩

def onLongPress (s : Listener) : Listener :=
  let caster := pushMouseButton mevBtnRight s.caster
  { s with caster := releaseMouseButton mevBtnRight caster }

def onScroll (distanceX distanceY : Int32) (s : Listener) : Listener :=
  { s with caster := reportMouse distanceX distanceY 0 s.caster, moved := .moved }

def onDoubleTap (s : Listener) : Listener :=
  let s := if s.bstate = .notPushed then { s with moved := .notMoved } else s
  if s.bstate = .pushed ∧ s.moved = .notMoved then
    let caster := releaseMouseButton mevBtnLeft s.caster
    let caster := pushMouseButton mevBtnLeft caster
    { s with caster := releaseMouseButton mevBtnLeft caster }
  else
    let caster :=
      if s.bstate = .notPushed then pushMouseButton mevBtnLeft s.caster
      else releaseMouseButton mevBtnLeft s.caster
    { s with caster, bstate := if s.bstate = .pushed then .notPushed else .pushed }

def onSingleTapConfirmed (s : Listener) : Listener :=
  let caster := pushMouseButton mevBtnLeft s.caster
  { s with caster := releaseMouseButton mevBtnLeft caster }

/-- The callbacks. -/
inductive Gesture where
  | longPress
  | scroll (distanceX distanceY : Int32)
  | doubleTap
  | singleTapConfirmed
  deriving DecidableEq, Repr

def Gesture.run : Gesture → Listener → Listener
  | .longPress => onLongPress
  | .scroll distanceX distanceY => onScroll distanceX distanceY
  | .doubleTap => onDoubleTap
  | .singleTapConfirmed => onSingleTapConfirmed

def runGestures (gestures : List Gesture) (s : Listener) : Listener :=
  gestures.foldl (fun s gesture => gesture.run s) s

end Android2Mouse.Source.MouseGestureListener
