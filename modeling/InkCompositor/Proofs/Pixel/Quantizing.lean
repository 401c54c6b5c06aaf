import Mathlib
import InkCompositor.Pixel.Format

/-!
# Colors that survive being stored

A color that was read from stored bytes is stored without loss in the same
format. Copying bytes and converting colors therefore come to the same.
-/

set_option autoImplicit false

namespace InkCompositor.PixelFormat

theorem decode_congr (f : PixelFormat) (b c : Nat → UInt8)
    (h : ∀ k < f.bytesPerPixel, b k = c k) : f.decode b = f.decode c := by
  cases f <;> simp only [bytesPerPixel] at h <;> simp (disch := decide) only [decode, h]

theorem toNat_premultiply (a c : UInt8) :
    (premultiply a c).toNat = (c.toNat*a.toNat+127)/255 := by
  have h1 := c.toNat_lt
  have h2 := a.toNat_lt
  have h3 : c.toNat*a.toNat ≤ 255*255 := Nat.mul_le_mul (by omega) (by omega)
  rw [premultiply, UInt8.toNat_ofNat', Nat.mod_eq_of_lt (by omega)]

theorem toNat_unpremultiply (a c : UInt8) :
    (unpremultiply a c).toNat = min ((c.toNat*255+a.toNat/2)/a.toNat) 255 := by
  rw [unpremultiply, UInt8.toNat_ofNat', Nat.mod_eq_of_lt (by omega)]

theorem premultiply_quotient {a c : Nat} (h : c < a) (ha : a ≤ 255) :
    ((c*255+a/2)/a*a+127)/255 = c := by
  have h1 : (c*255+a/2)/a*a ≤ c*255+a/2 := Nat.div_mul_le_self _ _
  have h2 : c*255+a/2 < ((c*255+a/2)/a+1)*a := Nat.lt_mul_of_div_lt (Nat.lt_succ_self _) (by omega)
  rw [Nat.add_mul, Nat.one_mul] at h2
  generalize (c*255+a/2)/a*a = n at *
  omega

theorem quotient_le {a c : Nat} (h : c < a) (ha : a ≤ 255) : (c*255+a/2)/a ≤ 255 := by
  have h1 : c*255+a/2 < 256*a := by omega
  exact Nat.lt_succ_iff.1 (Nat.div_lt_of_lt_mul (by rwa [Nat.mul_comm a]))

theorem le_quotient {a c : Nat} (h : a ≤ c) (ha : 0 < a) : 255 ≤ (c*255+a/2)/a := by
  rw [Nat.le_div_iff_mul_le ha]
  omega

theorem unpremultiply_premultiply {a : UInt8} (c : UInt8) (ha : a ≠ 0) :
    unpremultiply a (premultiply a (unpremultiply a c)) = unpremultiply a c := by
  have h0 : 0 < a.toNat := Nat.pos_of_ne_zero fun h => ha (UInt8.toNat_inj.1 h)
  have h1 := a.toNat_lt
  apply UInt8.toNat_inj.1
  rw [toNat_unpremultiply, toNat_premultiply, toNat_unpremultiply]
  by_cases hc : c.toNat < a.toNat
  · rw [Nat.min_eq_left (quotient_le hc (by omega)), premultiply_quotient hc (by omega),
      Nat.min_eq_left (quotient_le hc (by omega))]
  · have hq : 255 ≤ (c.toNat*255+a.toNat/2)/a.toNat := le_quotient (by omega) h0
    have ha : (255*a.toNat+127)/255 = a.toNat := by omega
    rw [Nat.min_eq_right hq, ha, Nat.min_eq_right (le_quotient le_rfl h0)]

theorem widen_five_div {v : Nat} (h : v < 32) : (widen 5 v).toNat/8 = v := by
  rw [widen, UInt8.toNat_ofNat', Nat.mod_eq_of_lt (by omega)]
  omega

theorem widen_six_div {v : Nat} (h : v < 64) : (widen 6 v).toNat/4 = v := by
  rw [widen, UInt8.toNat_ofNat', Nat.mod_eq_of_lt (by omega)]
  omega

def packed (w : Nat) : Color := .rgb (widen 5 (w/2048)) (widen 6 (w/32%64)) (widen 5 (w%32))

theorem encode_packed {w : Nat} (h : w < 65536) :
    rgb16.encode (packed w) = [.ofNat w,.ofNat (w/256)] := by
  have hr := widen_five_div (show w/2048 < 32 by omega)
  have hg := widen_six_div (show w/32%64 < 64 by omega)
  have hb := widen_five_div (show w%32 < 32 by omega)
  have hw : w/2048*2048+w/32%64*32+w%32 = w := by omega
  simp only [encode, packed, Color.rgb, hr, hg, hb, hw]

theorem decode_packed (byte : Nat → UInt8) :
    rgb16.decode byte = packed ((byte 1).toNat*256+(byte 0).toNat) := rfl

theorem quantize_packed {w : Nat} (h : w < 65536) : rgb16.quantize (packed w) = packed w := by
  have hw : (UInt8.ofNat (w/256)).toNat*256+(UInt8.ofNat w).toNat = w := by
    rw [UInt8.toNat_ofNat', UInt8.toNat_ofNat']
    omega
  rw [quantize, encode_packed h, decode_packed]
  exact congrArg packed hw

/-- What was read from stored bytes is not changed by being stored again. -/
theorem quantize_decode (f : PixelFormat) (byte : Nat → UInt8) :
    f.quantize (f.decode byte) = f.decode byte := by
  cases f with
  | grayscale8 =>
    have h : (Color.rgb (byte 0) (byte 0) (byte 0)).luminance = byte 0 := by
      have h1 := (byte 0).toNat_lt
      apply UInt8.toNat_inj.1
      rw [Color.luminance, UInt8.toNat_ofNat']
      simp only [Color.rgb]
      omega
    simp [quantize, decode, encode, h]
  | rgb16 =>
    have h0 := (byte 0).toNat_lt
    have h1 := (byte 1).toNat_lt
    exact quantize_packed (by omega)
  | argb32Premultiplied =>
    by_cases ha : byte 3 = 0
    · simp only [quantize, decode, encode, if_pos ha]
      decide
    · simp [quantize, decode, encode, ha, unpremultiply_premultiply]
  | _ => rfl

theorem quantize_background (f : PixelFormat) (hf : f ≠ .invalid) :
    f.quantize f.background = f.background := by
  cases f <;> first | exact absurd rfl hf | decide

end InkCompositor.PixelFormat
