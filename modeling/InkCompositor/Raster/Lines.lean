import InkCompositor.Raster.Basic

/-!
# Images line by line

How the operations on an image move through its memory: one pixel or one line
at a time, a line being a slice of the memory. An operation ends with `none`
when a size or an address is no 64-bit number, when a coordinate is no 32-bit
number, and when a slice does not lie in the memory or has another length than
the bytes that are stored to it. A visit of a pixel is told its color; it leaves
a state behind and says whether the next pixel is to be visited.
-/

set_option autoImplicit false

namespace InkCompositor

/-- The consecutive pieces of `n` elements; a shorter rest is left out. -/
def chunks {α : Type} (n : Nat) (l : List α) : List (List α) :=
  (List.range (l.length / n)).map fun k => (l.drop (k * n)).take n

def span (a b : Int) : List Int := (List.range (b - a).toNat).map fun (k : Nat) => a + k

def PixelFormat.recode? (source target : PixelFormat) (line : List UInt8) :
    Option (List UInt8) := do
  let colors ← (chunks source.bytesPerPixel line).mapM source.decode?
  some (colors.flatMap target.encode)

namespace Raster

def word? (n : Nat) : Option Nat := if n < sizeLimit then some n else none

/-- A coordinate as an unsigned 64-bit number; a negative one wraps around. -/
def word (i : Int) : Nat := (i % sizeLimit).toNat

def start? (r : Raster) (x y : Int) : Option Nat := do
  let line ← word? (word y * r.stride)
  let column ← word? (word x * r.format.bytesPerPixel)
  word? (line + column)

def ends? (r : Raster) (x y width : Int) : Option (Nat × Nat) := do
  let start ← r.start? x y
  let length ← word? (word width * r.format.bytesPerPixel)
  let stop ← word? (start + length)
  some (start, stop)

def load? (r : Raster) (start stop : Nat) : Option (List UInt8) :=
  if start ≤ stop ∧ stop ≤ r.bytes.size then some (r.bytes.extract start stop).toList else none

theorem size_overwritten (r : Raster) (start : Nat) (l : List UInt8) :
    (writeAt r.bytes start l).size = r.bytes.size := size_writeAt ..

def overwrite? (r : Raster) (start stop : Nat) (l : List UInt8) : Option Raster :=
  if start ≤ stop ∧ stop ≤ r.bytes.size ∧ l.length = stop - start then
    some (r.withBytes (writeAt r.bytes start l) (r.size_overwritten start l))
  else none

def loadPixel? (r : Raster) (x y : Int32) : Option (Option Color) :=
  if r.rect.containsPoint ⟨x, y⟩ then do
    let start ← r.start? x.toInt y.toInt
    let tail ← r.load? start r.bytes.size
    let color ← r.format.decode? tail
    some (some color)
  else some none

def storePixel? (r : Raster) (x y : Int32) (c : Color) : Option Raster :=
  if r.rect.containsPoint ⟨x, y⟩ then do
    let start ← r.start? x.toInt y.toInt
    let tail ← r.load? start r.bytes.size
    let stored := r.format.encode c
    if stored.length ≤ tail.length then r.overwrite? start (start + stored.length) stored else none
  else some r

def replaceLines? (r : Raster) (area : Rect) (line : Int → Option (List UInt8)) : Option Raster :=
  if area.isEmpty then some r
  else (span area.top area.bottom).foldlM (fun s y => do
    let stored ← line y
    let (start, stop) ← s.ends? area.left y area.width.toInt
    s.overwrite? start stop stored) r

def fillLines? (r : Raster) (area : Rect) (c : Color) : Option Raster :=
  let clipped := area.intersected r.rect
  r.replaceLines? clipped fun _ =>
    some (List.replicate (word clipped.width.toInt) (r.format.encode c)).flatten

def placedLine? (src : Raster) (corner : Point) (area : Rect) (y : Int) : Option (List UInt8) := do
  let p ← Point.ofInts? (area.left - corner.x.toInt) (y - corner.y.toInt)
  let (start, stop) ← src.ends? p.x.toInt p.y.toInt area.width.toInt
  src.load? start stop

/-- Draws `src` line by line: a line is copied between equal formats and
converted between different ones. -/
def drawLines? (r src : Raster) (corner : Point) (clip : Rect) : Option Raster :=
  if src.id = r.id then some r
  else
    let area := (clip.intersected r.rect).intersected (src.rect.translated corner.x corner.y)
    r.replaceLines? area fun y => do
      let line ← src.placedLine? corner area y
      if src.format = r.format then some line else src.format.recode? r.format line

section

variable {σ : Type} (visit : σ → Color → σ × Bool)

def scanLine? (f : PixelFormat) (s : σ) : List (List UInt8) → Option (σ × Bool)
  | [] => some (s, true)
  | pixel :: rest => do
    let color ← f.decode? pixel
    let (s, goesOn) := visit s color
    if goesOn then scanLine? f s rest else some (s, false)

def scanLines? (r : Raster) (area : Rect) (s : σ) : List Int → Option σ
  | [] => some s
  | y :: rest => do
    let (start, stop) ← r.ends? area.left y area.width.toInt
    let line ← r.load? start stop
    let (s, goesOn) ← scanLine? visit r.format s (chunks r.format.bytesPerPixel line)
    if goesOn then scanLines? r area s rest else some s

/-- Visits the pixels of `area` line by line until a visit breaks. -/
def scan? (r : Raster) (area : Rect) (s : σ) : Option σ :=
  let clipped := area.intersected r.rect
  if clipped.isEmpty then some s
  else r.scanLines? visit clipped s (span clipped.top clipped.bottom)

end

end Raster

end InkCompositor
