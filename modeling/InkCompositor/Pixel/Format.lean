import InkCompositor.Pixel.Color
import InkCompositor.Text.LowerCase

/-!
# Pixel formats

A format says how many bytes a pixel takes and how a color is stored in them.
Formats of two or four packed bytes are stored with the low byte first.
Storing loses what a format cannot hold; `quantize` is the color that is read
back.
-/

set_option autoImplicit false

namespace InkCompositor

inductive PixelFormat where
  | invalid
  | rgb32
  | argb32
  | argb32Premultiplied
  | rgb16
  | rgbx8888
  | rgba8888
  | grayscale8
  deriving DecidableEq, Repr, Inhabited

namespace PixelFormat

def all : List PixelFormat :=
  [invalid, rgb32, argb32, argb32Premultiplied, rgb16, rgbx8888, rgba8888, grayscale8]

def code : PixelFormat → Int32
  | invalid => 0
  | rgb32 => 4
  | argb32 => 5
  | argb32Premultiplied => 6
  | rgb16 => 7
  | rgbx8888 => 17
  | rgba8888 => 18
  | grayscale8 => 24

def ofCode? (n : Int32) : Option PixelFormat := all.find? (·.code == n)

def name : PixelFormat → String
  | invalid => "invalid"
  | rgb32 => "rgb32"
  | argb32 => "argb32"
  | argb32Premultiplied => "argb32_premultiplied"
  | rgb16 => "rgb16"
  | rgbx8888 => "rgbx8888"
  | rgba8888 => "rgba8888"
  | grayscale8 => "grayscale8"

/-- The format with this name in any case. The invalid format has no name to
ask for it by. -/
def ofName? (s : String) : Option PixelFormat :=
  (all.filter (· != invalid)).find? (·.name == Text.lowerCase s)

def bytesPerPixel : PixelFormat → Nat
  | invalid => 0
  | grayscale8 => 1
  | rgb16 => 2
  | _ => 4

def hasAlpha : PixelFormat → Bool
  | argb32 | argb32Premultiplied | rgba8888 => true
  | _ => false

/-- Bytes of a line of `width` pixels, rounded up to a multiple of four. -/
def strideFor (f : PixelFormat) (width : Nat) : Nat := (width * f.bytesPerPixel + 3) / 4 * 4

def background (f : PixelFormat) : Color := if f.hasAlpha then .transparent else .white

/-- A channel times alpha, in parts of 255, rounded to the nearest. -/
def premultiply (alpha c : UInt8) : UInt8 := .ofNat ((c.toNat * alpha.toNat + 127) / 255)

def unpremultiply (alpha c : UInt8) : UInt8 :=
  .ofNat (min ((c.toNat * 255 + alpha.toNat / 2) / alpha.toNat) 255)

def encode (f : PixelFormat) (c : Color) : List UInt8 :=
  match f with
  | invalid => []
  | grayscale8 => [c.luminance]
  | rgb16 =>
    let w := c.r.toNat / 8 * 2048 + c.g.toNat / 4 * 32 + c.b.toNat / 8
    [.ofNat w, .ofNat (w / 256)]
  | rgb32 => [c.b, c.g, c.r, 255]
  | argb32 => [c.b, c.g, c.r, c.a]
  | argb32Premultiplied =>
    [premultiply c.a c.b, premultiply c.a c.g, premultiply c.a c.r, c.a]
  | rgbx8888 => [c.r, c.g, c.b, 255]
  | rgba8888 => [c.r, c.g, c.b, c.a]

/-- A field of `bits` bits widened to eight by repeating its high bits. -/
def widen (bits v : Nat) : UInt8 := .ofNat (v <<< (8 - bits) + v >>> (2 * bits - 8))

def decode (f : PixelFormat) (byte : Nat → UInt8) : Color :=
  match f with
  | invalid => .transparent
  | grayscale8 => .rgb (byte 0) (byte 0) (byte 0)
  | rgb16 =>
    let w := (byte 1).toNat * 256 + (byte 0).toNat
    .rgb (widen 5 (w / 2048)) (widen 6 (w / 32 % 64)) (widen 5 (w % 32))
  | rgb32 => .rgb (byte 2) (byte 1) (byte 0)
  | argb32 => ⟨byte 3, byte 2, byte 1, byte 0⟩
  | argb32Premultiplied =>
    let a := byte 3
    if a = 0 then .transparent
    else ⟨a, unpremultiply a (byte 2), unpremultiply a (byte 1), unpremultiply a (byte 0)⟩
  | rgbx8888 => .rgb (byte 0) (byte 1) (byte 2)
  | rgba8888 => ⟨byte 3, byte 0, byte 1, byte 2⟩

def decode? (f : PixelFormat) (bytes : List UInt8) : Option Color :=
  if f.bytesPerPixel ≤ bytes.length then some (f.decode (bytes.getD · 0)) else none

/-- The color as it reads back after being stored. -/
def quantize (f : PixelFormat) (c : Color) : Color := f.decode ((f.encode c).getD · 0)

theorem encode_length (f : PixelFormat) (c : Color) : (f.encode c).length = f.bytesPerPixel := by
  cases f <;> rfl

end PixelFormat

end InkCompositor
