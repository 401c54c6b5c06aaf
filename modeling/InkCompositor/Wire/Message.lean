import InkCompositor.Geometry.Rect

/-!
# Messages between the compositor and its clients

Input events and window messages as they travel on a window's pipes. Fractions
and pressures are 64-bit floating point numbers and are kept as their bits.
-/

set_option autoImplicit false

namespace InkCompositor.Wire

/-- The bits of a 64-bit floating point number. -/
abbrev FloatBits := UInt64

inductive TouchPhase where
  | press
  | update
  | release
  | cancel
  deriving DecidableEq, Repr, Inhabited

inductive PointState where
  | press
  | move
  | release
  | stationary
  deriving DecidableEq, Repr, Inhabited

inductive TouchTool where
  | finger
  | token
  deriving DecidableEq, Repr, Inhabited

inductive KeyPhase where
  | release
  | press
  | held
  deriving DecidableEq, Repr, Inhabited

inductive PenPhase where
  | penPress
  | penUpdate
  | penRelease
  | penEnterProximity
  | penLeaveProximity
  deriving DecidableEq, Repr, Inhabited

inductive PenTool where
  | pen
  | eraser
  deriving DecidableEq, Repr, Inhabited

/-- The value whose place in `all` is `code`. Choices travel as their place. -/
def ofPlace? {α : Type} (all : List α) (code : UInt16) : Option α := all[code.toNat]?

def TouchPhase.all : List TouchPhase := [press, update, release, cancel]
def PointState.all : List PointState := [press, move, release, stationary]
def TouchTool.all : List TouchTool := [finger, token]
def KeyPhase.all : List KeyPhase := [release, press, held]
def PenPhase.all : List PenPhase :=
  [penPress, penUpdate, penRelease, penEnterProximity, penLeaveProximity]
def PenTool.all : List PenTool := [pen, eraser]

def TouchPhase.code : TouchPhase → UInt16
  | press => 0
  | update => 1
  | release => 2
  | cancel => 3

def PointState.code : PointState → UInt16
  | press => 0
  | move => 1
  | release => 2
  | stationary => 3

def TouchTool.code : TouchTool → UInt16
  | finger => 0
  | token => 1

def KeyPhase.code : KeyPhase → UInt16
  | release => 0
  | press => 1
  | held => 2

def PenPhase.code : PenPhase → UInt16
  | penPress => 0
  | penUpdate => 1
  | penRelease => 2
  | penEnterProximity => 3
  | penLeaveProximity => 4

def PenTool.code : PenTool → UInt16
  | pen => 0
  | eraser => 1

structure TouchPoint where
  /-- The slot of the contact. -/
  id : Int32
  state : PointState
  x : FloatBits
  y : FloatBits
  width : FloatBits
  height : FloatBits
  tool : TouchTool
  pressure : FloatBits
  rotation : FloatBits
  deriving DecidableEq, Repr, Inhabited

structure TouchEvent where
  phase : TouchPhase
  points : List TouchPoint
  deriving DecidableEq, Repr, Inhabited

structure PenEvent where
  phase : PenPhase
  tool : PenTool
  x : Int32
  y : Int32
  pressure : FloatBits
  tiltX : Int32
  tiltY : Int32
  deriving DecidableEq, Repr, Inhabited

structure KeyEvent where
  phase : KeyPhase
  code : UInt32
  unicode : UInt32
  scanCode : UInt32
  deriving DecidableEq, Repr, Inhabited

inductive Message where
  | invalid
  /-- Repaint a part of the window. Waveform 0 leaves the choice open. -/
  | repaint (area : Rect) (waveform : UInt64) (marker : UInt32)
  | waitForPaint (marker : UInt32)
  | geometry (rect : Rect) (z : Int32)
  /-- Describes the image of a window: its size, its stride and its format. -/
  | imageInfo (size stride : UInt64) (format : Int32)
  | raise
  | lower
  | close
  | frameBuffer
  | ping
  | key (event : KeyEvent)
  | touch (event : TouchEvent)
  | tablet (event : PenEvent)
  deriving DecidableEq, Repr, Inhabited

def Message.code : Message → UInt16
  | invalid => 0
  | repaint .. => 1
  | waitForPaint _ => 2
  | geometry .. => 3
  | imageInfo .. => 4
  | raise => 5
  | lower => 6
  | close => 7
  | frameBuffer => 8
  | ping => 9
  | key _ => 10
  | touch _ => 11
  | tablet _ => 12

def TouchEvent.cancelling (slots : List Int32) : TouchEvent :=
  ⟨.cancel, slots.map fun id => ⟨id, .release, 0, 0, 0, 0, .finger, 0, 0⟩⟩

end InkCompositor.Wire
