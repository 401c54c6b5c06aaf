/-!
# Settings

What a configuration says, and what holds where it is silent.
-/

set_option autoImplicit false

namespace InkCompositor

structure LogSettings where
  level : String := "info"
  /-- The log file, if lines are to be kept in one. -/
  file : Option String := none
  format : String := "text"
  deriving DecidableEq, Repr, Inhabited

structure DisplaySettings where
  /-- The device file of the panel. -/
  device : String := "/dev/fb0"
  width : Nat := 1404
  height : Nat := 1872
  /-- Bytes of a line, if lines are padded. -/
  stride : Option Nat := none
  pixelFormat : String := "rgb16"
  /-- Hint that goes with every update. -/
  temperature : Int32 := 24
  deriving DecidableEq, Repr, Inhabited

/-- Spans of time in milliseconds. -/
structure Timings where
  /-- Age at which a wait is called back in any case. -/
  waitTimeout : Nat := 7000
  /-- How long the record of a repaint is kept. -/
  recordLifetime : Nat := 30000
  tickInterval : Nat := 50
  shutdownTimeout : Nat := 6000
  pingInterval : Nat := 10000
  /-- How long a client may take to answer a ping. -/
  pingDeadline : Nat := 5000
  deriving DecidableEq, Repr, Inhabited

structure Settings where
  log : LogSettings := {}
  display : DisplaySettings := {}
  timings : Timings := {}
  deriving DecidableEq, Repr, Inhabited

end InkCompositor
