import InkCompositor.Display.Waveform

/-!
# The panel

The panel shows what is in its raster once it is told to refresh an area. It
may refuse an update, and waiting for one may fail; which ones is a parameter.
-/

set_option autoImplicit false

namespace InkCompositor

structure Update where
  rect : Rect
  waveform : Waveform
  mode : UpdateMode
  marker : UInt32
  temperature : Int32
  deriving DecidableEq, Repr

structure Panel where
  raster : Raster
  refusesUpdate : Update → Bool
  refusesWait : UInt32 → Bool

def Panel.obedient (raster : Raster) : Panel := ⟨raster, fun _ => false, fun _ => false⟩

/-- A panel behind a file that is no panel: it refuses everything. -/
def Panel.inert (raster : Raster) : Panel := ⟨raster, fun _ => true, fun _ => true⟩

def Panel.screen (p : Panel) : Rect := p.raster.rect

end InkCompositor
