import InkCompositor.Raster.Basic

/-!
# Waveforms

An electronic paper panel refreshes with one of several waveforms. The cheaper
ones render fewer shades, so the waveform of an area is chosen from the colors
in it.
-/

set_option autoImplicit false

namespace InkCompositor

inductive Waveform where
  /-- A flashing clear to white. -/
  | clear
  /-- Fast black and white. -/
  | mono
  | highQualityGrayscale
  | grayscale
  | highlight
  deriving DecidableEq, Repr

namespace Waveform

def all : List Waveform := [clear, mono, highQualityGrayscale, grayscale, highlight]

def code : Waveform → UInt32
  | clear => 0
  | mono => 1
  | highQualityGrayscale => 2
  | grayscale => 3
  | highlight => 8

/-- What a client asks for by a number. -/
inductive Choice where
  /-- The compositor is to choose. -/
  | automatic
  | fixed (w : Waveform)
  /-- No waveform a client can ask for; the compositor chooses. -/
  | unknown
  deriving DecidableEq, Repr

def ofWire (n : UInt64) : Choice :=
  match n.toNat with
  | 0 => .automatic
  | 1 => .fixed mono
  | 2 => .fixed highQualityGrayscale
  | 3 => .fixed grayscale
  | 8 => .fixed highlight
  | _ => .unknown

def Choice.waveform? : Choice → Option Waveform
  | fixed w => some w
  | automatic | unknown => none

def toWire : Option Waveform → UInt64
  | none => 0
  | some w => w.code.toUInt64

end Waveform

inductive UpdateMode where
  | partialArea
  | full
  deriving DecidableEq, Repr

def UpdateMode.code : UpdateMode → UInt32
  | partialArea => 0
  | full => 1

/-- How demanding a color is, as it reads back from a format. -/
inductive Shade where
  | blackOrWhite
  | gray
  | other
  deriving DecidableEq, Repr

def Shade.of (f : PixelFormat) (c : Color) : Shade :=
  if c = f.quantize .white ∨ c = f.quantize .black ∨ c = f.quantize .transparent then .blackOrWhite
  else if c = f.quantize .gray then .gray
  else .other

def Waveform.covering (f : PixelFormat) (sofar : Waveform) : List Color → Waveform
  | [] => sofar
  | c :: rest =>
    match Shade.of f c with
    | .blackOrWhite => covering f sofar rest
    | .gray => covering f .grayscale rest
    | .other => .highQualityGrayscale

def Waveform.visit (f : PixelFormat) (sofar : Waveform) (c : Color) : Waveform × Bool :=
  match Shade.of f c with
  | .blackOrWhite => (sofar, true)
  | .gray => (.grayscale, true)
  | .other => (.highQualityGrayscale, false)

/-- The cheapest waveform that renders `area`: mono for black and white,
grayscale if the toolkits' gray occurs too, high quality for any other color. -/
def Raster.waveformFor (r : Raster) (area : Rect) : Waveform :=
  Waveform.covering r.format .mono (r.colorsIn area)

end InkCompositor
