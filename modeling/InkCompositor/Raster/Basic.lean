import InkCompositor.Geometry.Rect
import InkCompositor.Pixel.Format

/-!
# Rasters

A raster is an image in memory: `height` lines of `stride` bytes, the first
bytes of a line holding its pixels. The memory may be longer than the image.
Every operation clips to the image, and the size of the memory never changes.
-/

set_option autoImplicit false

namespace InkCompositor

inductive RasterError where
  | badGeometry (width height : Nat)
  | unsupported (format : PixelFormat)
  | tooSmall (length required : Nat)
  /-- The shared memory file cannot be made that long. -/
  | truncate
  /-- There is no room for the memory. -/
  | map
  /-- The size of the image is no 64-bit number. -/
  | overflow
  deriving DecidableEq, Repr

/-- The wording of an error; failures of the system have none of their own. -/
def RasterError.message? : RasterError → Option String
  | badGeometry w h => some s!"Invalid buffer geometry {w}x{h}"
  | unsupported f => some s!"Unsupported pixel format: {f.name}"
  | tooSmall len req =>
    some s!"Mapping of {len} bytes is too small for {req} bytes of pixels"
  | truncate | map | overflow => none

inductive Backing where
  /-- Private memory. -/
  | anonymous
  /-- A shared memory file that can no longer grow or shrink. -/
  | sealedFile
  deriving DecidableEq, Repr

abbrev RasterId := Nat

/-- One past the largest image extent. -/
def Raster.extentLimit : Nat := 2147483648

/-- One past the largest size of an object in memory. -/
def Raster.sizeLimit : Nat := 18446744073709551616

structure Raster where
  id : RasterId
  backing : Backing
  width : Nat
  height : Nat
  stride : Nat
  format : PixelFormat
  bytes : Array UInt8
  format_valid : format ≠ .invalid
  width_pos : 0 < width
  width_lt : width < Raster.extentLimit
  height_pos : 0 < height
  height_lt : height < Raster.extentLimit
  line_le : width * format.bytesPerPixel ≤ stride
  fits : stride * height ≤ bytes.size
  size_lt : stride * height < Raster.sizeLimit

namespace Raster

/-- An image of `width` by `height` pixels in `bytes`, a line every `stride`
bytes. -/
def ofMemory (id : RasterId) (backing : Backing) (bytes : Array UInt8)
    (width height stride : Nat) (format : PixelFormat) : Except RasterError Raster :=
  if hf : format = .invalid then .error (.unsupported format)
  else if hd : width = 0 ∨ height = 0 ∨ extentLimit ≤ width ∨ extentLimit ≤ height then
    .error (.badGeometry width height)
  else
    let line := width * format.bytesPerPixel
    if ho : sizeLimit ≤ max stride line * height then .error .overflow
    else if h : stride < line ∨ bytes.size < max stride line * height then
      .error (.tooSmall bytes.size (max stride line * height))
    else .ok {
      id, backing, width, height, stride, format, bytes
      format_valid := hf
      width_pos := by omega
      width_lt := by omega
      height_pos := by omega
      height_lt := by omega
      line_le := Nat.le_of_not_lt fun hl => h (.inl hl)
      fits := by
        have hs : max stride line = stride := Nat.max_eq_left (by omega)
        rw [hs] at h
        omega
      size_lt := by
        have hs : max stride line = stride := Nat.max_eq_left (by omega)
        rwa [hs, Nat.not_le] at ho }

def withBytes (r : Raster) (bytes : Array UInt8) (h : bytes.size = r.bytes.size) : Raster :=
  { r with bytes, fits := h ▸ r.fits }

def size (r : Raster) : Nat := r.stride * r.height

def shareable (r : Raster) : Bool := r.backing == .sealedFile

def rect (r : Raster) : Rect := ⟨0, 0, .ofNat r.width, .ofNat r.height⟩

def offset (r : Raster) (x y : Nat) : Nat := y * r.stride + x * r.format.bytesPerPixel

def colorAt (r : Raster) (x y : Nat) : Color :=
  r.format.decode fun k => r.bytes.getD (r.offset x y + k) 0

def pixelBytes (r : Raster) (x y : Nat) : List UInt8 :=
  (List.range r.format.bytesPerPixel).map fun k => r.bytes.getD (r.offset x y + k) 0

def writeAt (bytes : Array UInt8) (offset : Nat) : List UInt8 → Array UInt8
  | [] => bytes
  | b :: rest => writeAt (bytes.setIfInBounds offset b) (offset + 1) rest

@[simp] theorem size_writeAt (bytes : Array UInt8) (offset : Nat) (l : List UInt8) :
    (writeAt bytes offset l).size = bytes.size := by
  induction l generalizing bytes offset with
  | nil => rfl
  | cons b rest ih => rw [writeAt, ih, Array.size_setIfInBounds]

def pixelsIn (r : Raster) (area : Rect) : List (Nat × Nat) :=
  let clipped := area.intersected r.rect
  (List.range' clipped.y.toInt.toNat clipped.height.toInt.toNat).flatMap fun y =>
    (List.range' clipped.x.toInt.toNat clipped.width.toInt.toNat).map fun x => (x, y)

def store (r : Raster) (pixel : Nat → Nat → List UInt8) (places : List (Nat × Nat)) : Array UInt8 :=
  places.foldl (fun bytes p => writeAt bytes (r.offset p.1 p.2) (pixel p.1 p.2)) r.bytes

@[simp] theorem size_store (r : Raster) (pixel : Nat → Nat → List UInt8) (l : List (Nat × Nat)) :
    (r.store pixel l).size = r.bytes.size := by
  unfold store
  generalize r.bytes = bytes
  induction l generalizing bytes with
  | nil => rfl
  | cons p rest ih => rw [List.foldl_cons, ih, size_writeAt]

def paint (r : Raster) (area : Rect) (pixel : Nat → Nat → List UInt8) : Raster :=
  r.withBytes (r.store pixel (r.pixelsIn area)) (size_store r pixel _)

def pixel? (r : Raster) (x y : Int32) : Option Color :=
  if r.rect.containsPoint ⟨x, y⟩ then some (r.colorAt x.toInt.toNat y.toInt.toNat) else none

def setPixel (r : Raster) (x y : Int32) (c : Color) : Raster :=
  if r.rect.containsPoint ⟨x, y⟩ then
    r.withBytes (writeAt r.bytes (r.offset x.toInt.toNat y.toInt.toNat) (r.format.encode c))
      (size_writeAt ..)
  else r

def fillRect (r : Raster) (area : Rect) (c : Color) : Raster :=
  let stored := r.format.encode c
  r.paint area fun _ _ => stored

def fill (r : Raster) (c : Color) : Raster := r.fillRect r.rect c

/-- Draws `src` with its top left corner at `corner`; only pixels inside
`clip` change. Pixels are replaced, not blended. Between equal formats the
stored bytes are copied. An image is not drawn into itself. -/
def draw (r src : Raster) (corner : Point) (clip : Rect) : Raster :=
  let area := (clip.intersected r.rect).intersected (src.rect.translated corner.x corner.y)
  let column (x : Nat) := (x - corner.x.toInt).toNat
  let line (y : Nat) := (y - corner.y.toInt).toNat
  if src.id = r.id then r
  else if src.format = r.format then
    r.paint area fun x y => src.pixelBytes (column x) (line y)
  else r.paint area fun x y => r.format.encode (src.colorAt (column x) (line y))

def colorsIn (r : Raster) (area : Rect) : List Color :=
  (r.pixelsIn area).map fun p => r.colorAt p.1 p.2

def rows (r : Raster) : List (List Color) :=
  (List.range r.height).map fun y => (List.range r.width).map fun x => r.colorAt x y

def imageBytes (r : Raster) : List UInt8 := (r.bytes.extract 0 r.size).toList

/-- Overwrites bytes of the image from `offset` on; `none` if they do not fit. -/
def poke? (r : Raster) (offset : Nat) (l : List UInt8) : Option Raster :=
  if offset + l.length ≤ r.size then
    some (r.withBytes (writeAt r.bytes offset l) (size_writeAt ..))
  else none

end Raster

end InkCompositor
