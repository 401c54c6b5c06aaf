/-!
# Colors

A color has an alpha, a red, a green and a blue channel of eight bits each.
The channels are not multiplied by alpha.
-/

set_option autoImplicit false

namespace InkCompositor

structure Color where
  a : UInt8
  r : UInt8
  g : UInt8
  b : UInt8
  deriving DecidableEq, Repr, Inhabited

namespace Color

def rgb (r g b : UInt8) : Color := ⟨255, r, g, b⟩

def white : Color := rgb 255 255 255
def black : Color := rgb 0 0 0
def transparent : Color := ⟨0, 0, 0, 0⟩
def gray : Color := rgb 160 160 164

def ofWord (w : UInt32) : Color :=
  ⟨(w >>> 24).toUInt8, (w >>> 16).toUInt8, (w >>> 8).toUInt8, w.toUInt8⟩

def toWord (c : Color) : UInt32 :=
  c.a.toUInt32 <<< 24 ||| c.r.toUInt32 <<< 16 ||| c.g.toUInt32 <<< 8 ||| c.b.toUInt32

def isOpaque (c : Color) : Bool := c.a == 255

/-- Brightness: red, green and blue weigh 11, 16 and 5 parts of 32. -/
def luminance (c : Color) : UInt8 :=
  .ofNat ((c.r.toNat * 11 + c.g.toNat * 16 + c.b.toNat * 5) / 32)

def hexDigits (width n : Nat) : String :=
  let digits := Nat.toDigits 16 n
  String.ofList (List.replicate (width - digits.length) '0' ++ digits)

/-- A hash mark and eight hexadecimal digits. -/
def text (c : Color) : String := "#" ++ hexDigits 8 c.toWord.toNat

end Color

end InkCompositor
