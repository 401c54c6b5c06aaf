import Mathlib
import InkCompositor.Proofs.Raster.Grid

/-!
# Drawing one image into another

Drawing replaces exactly the pixels of the target that lie inside the clip and
under the drawn image. Copying the stored bytes comes to the same as converting
each pixel, since a color read from an image is stored in its format without
loss.
-/

set_option autoImplicit false

namespace InkCompositor.Raster

/-- Drawing that converts every pixel, also between equal formats. -/
def convert (r src : Raster) (corner : Point) (clip : Rect) : Raster :=
  r.paint ((clip.intersected r.rect).intersected (src.rect.translated corner.x corner.y))
    fun x y => r.format.encode
      (src.colorAt (x-corner.x.toInt).toNat (y-corner.y.toInt).toNat)

section

variable (r src : Raster) (corner : Point) (clip : Rect)

theorem confined_draw (hid : src.id ≠ r.id) :
    Confined (fun x y => Drawn r src corner clip x y) (r.draw src corner clip) r := by
  have hP : ∀ x y : Nat, ((clip.intersected r.rect).intersected
      (src.rect.translated corner.x corner.y)).Covers x y ∧ r.rect.Covers x y →
        Drawn r src corner clip x y := fun x y h => (covers_drawn r src corner clip x y).1 h.1
  rw [draw, if_neg hid]
  split
  · rename_i hf
    exact (r.confined_paint _ fun _ _ => by rw [length_pixelBytes, hf]).mono hP
  · exact (r.confined_paint _ fun _ _ => PixelFormat.encode_length ..).mono hP

theorem convert_alike : (r.convert src corner clip).Alike r := paint_alike ..

theorem colorAt_convert {x y : Nat} (hx : x < r.width) (hy : y < r.height) :
    (r.convert src corner clip).colorAt x y =
      if Drawn r src corner clip x y then
        r.format.quantize (src.colorAt (x-corner.x.toInt).toNat (y-corner.y.toInt).toNat)
      else r.colorAt x y := by
  rw [convert, r.colorAt_paint _ _ (fun _ _ => PixelFormat.encode_length ..) hx hy]
  simp only [covers_drawn]
  rfl

theorem colorAt_draw_eq_convert (hid : src.id ≠ r.id) {x y : Nat} (hx : x < r.width)
    (hy : y < r.height) :
    (r.draw src corner clip).colorAt x y = (r.convert src corner clip).colorAt x y := by
  have hin : r.rect.Covers x y := (r.covers_rect x y).2 (by omega)
  have hd : clip.Covers x y ∧ (src.rect.movedTo corner).Covers x y ↔
      Drawn r src corner clip x y := by
    rw [← covers_drawn, Rect.covers_intersected, Rect.covers_intersected, translated_rect]
    tauto
  rw [r.colorAt_draw src corner clip hid hx hy, r.colorAt_convert src corner clip hx hy]
  simp only [hd]

end

theorem toInt_sub_of_lt {a b : Int32} {n : Nat} (h : a.toInt-b.toInt = n) (hn : n < extentLimit) :
    (a-b).toInt = n := by
  rw [extentLimit] at hn
  rw [Int32.toInt_sub, h]
  exact Int.bmod_eq_of_le (by omega) (by omega)

theorem Alike.pixel?_of_place {r s : Raster} (h : s.Alike r) {x y : Int32} {u v : Nat}
    (hx : x.toInt = u) (hy : y.toInt = v) (hu : u < r.width) (hv : v < r.height) :
    s.pixel? x y = some (s.colorAt u v) := by
  have hc : s.rect.containsPoint ⟨x,y⟩ = true := by
    rw [h.rect]
    exact decide_eq_true ((r.covers_rect x.toInt y.toInt).2 (by omega))
  rw [pixel?, if_pos hc, hx, hy, Int.toNat_natCast, Int.toNat_natCast]

/-- Drawing an image into another one never computes an address or a coordinate that is out of
range. Afterwards a pixel of the target inside the clip and under the drawn image has the color of
that image as the target holds it, whether bytes are copied or colors converted; every other pixel,
and every byte that belongs to none of the drawn ones, is what it was. -/
theorem draw_exact (r src : Raster) (corner : Point) (clip : Rect) (hid : src.id ≠ r.id) :
    r.drawLines? src corner clip = some (r.draw src corner clip) ∧
      (∀ x y : Int32, (r.draw src corner clip).pixel? x y =
        if Drawn r src corner clip x.toInt y.toInt then
          (src.pixel? (x-corner.x) (y-corner.y)).map r.format.quantize
        else r.pixel? x y) ∧
      (∀ x y : Int32, (r.draw src corner clip).pixel? x y =
        (r.convert src corner clip).pixel? x y) ∧
      (r.draw src corner clip).Alike r ∧
      ∀ i, (∀ x y : Nat, Drawn r src corner clip x y → ¬ r.Holds i x y) →
        (r.draw src corner clip).bytes[i]? = r.bytes[i]? := by
  have hc := r.confined_draw src corner clip hid
  have ha := hc.alike
  have hcv := r.convert_alike src corner clip
  refine ⟨r.drawLines?_eq src corner clip,fun x y => ?_,fun x y => ?_,ha,hc.bytes⟩
  · by_cases h : r.rect.containsPoint ⟨x,y⟩ = true
    · obtain ⟨u,v,hx,hy,hu,hv⟩ := place_of_containsPoint h
      rw [ha.pixel?_of_place hx hy hu hv, (Alike.refl r).pixel?_of_place hx hy hu hv,
        r.colorAt_draw_eq_convert src corner clip hid hu hv,
        r.colorAt_convert src corner clip hu hv, hx, hy]
      by_cases hd : Drawn r src corner clip u v
      · have hin := (src.covers_rect _ _).1 hd.2.2
        obtain ⟨a,hxa⟩ := Int.eq_ofNat_of_zero_le hin.1.1
        obtain ⟨b,hyb⟩ := Int.eq_ofNat_of_zero_le hin.2.1
        have hw := src.width_lt
        have hh := src.height_lt
        rw [if_pos hd, if_pos hd, hxa, hyb, Int.toNat_natCast, Int.toNat_natCast,
          (Alike.refl src).pixel?_of_place (toInt_sub_of_lt (n := a) (by rw [hx, hxa]) (by omega))
            (toInt_sub_of_lt (n := b) (by rw [hy, hyb]) (by omega)) (by omega) (by omega)]
        rfl
      · rw [if_neg hd, if_neg hd]
    · have hd : ¬ Drawn r src corner clip x.toInt y.toInt := fun hd => h (decide_eq_true hd.2.1)
      rw [if_neg hd, pixel?, pixel?, ha.rect, if_neg h, if_neg h]
  · by_cases h : r.rect.containsPoint ⟨x,y⟩ = true
    · obtain ⟨u,v,hx,hy,hu,hv⟩ := place_of_containsPoint h
      rw [ha.pixel?_of_place hx hy hu hv, hcv.pixel?_of_place hx hy hu hv,
        r.colorAt_draw_eq_convert src corner clip hid hu hv]
    · rw [pixel?, pixel?, ha.rect, hcv.rect, if_neg h, if_neg h]

def inkStrip : Raster where
  id := 1
  backing := .anonymous
  width := 5
  height := 1
  stride := 22
  format := .argb32Premultiplied
  bytes := #[0,0,0,0, 200,10,255,100, 7,9,11,13, 255,255,255,1, 30,20,10,40, 77,88]
  format_valid := by decide
  width_pos := by decide
  width_lt := by decide
  height_pos := by decide
  height_lt := by decide
  line_le := by decide
  fits := by decide
  size_lt := by decide

def inkPage : Raster where
  id := 2
  backing := .sealedFile
  width := 6
  height := 2
  stride := 26
  format := .argb32Premultiplied
  bytes := Array.replicate 53 255
  format_valid := by decide
  width_pos := by decide
  width_lt := by decide
  height_pos := by decide
  height_lt := by decide
  line_le := by decide
  fits := by decide
  size_lt := by decide

/-- The strip one pixel to the left of the page on its second line, clipped to two columns. -/
theorem draw_exact_strip :
    inkStrip.id ≠ inkPage.id ∧
      inkPage.drawLines? inkStrip ⟨-1,1⟩ ⟨0,0,2,9⟩ =
        some (inkPage.draw inkStrip ⟨-1,1⟩ ⟨0,0,2,9⟩) ∧
      (inkPage.draw inkStrip ⟨-1,1⟩ ⟨0,0,2,9⟩).pixel? 0 1 = some ⟨100,255,26,255⟩ ∧
      (inkPage.draw inkStrip ⟨-1,1⟩ ⟨0,0,2,9⟩).pixel? 2 1 = some .white := by
  have h := draw_exact inkPage inkStrip ⟨-1,1⟩ ⟨0,0,2,9⟩ (by decide)
  exact ⟨by decide,h.1,(h.2.1 0 1).trans (by decide +kernel),(h.2.1 2 1).trans (by decide +kernel)⟩

end InkCompositor.Raster
