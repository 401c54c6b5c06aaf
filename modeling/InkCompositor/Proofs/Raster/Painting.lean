import Mathlib
import InkCompositor.Proofs.Geometry.Edges
import InkCompositor.Proofs.Pixel.Quantizing
import InkCompositor.Raster.Basic

/-!
# Pixels that painting changes

Pixels of an image never share a byte. Painting an area therefore replaces the
pixels that it has in common with the image, and leaves every other pixel and
the shape of the image alone.
-/

set_option autoImplicit false

namespace InkCompositor.Raster

/-- Equal but for the contents of the memory. -/
structure Alike (r s : Raster) : Prop where
  id : r.id = s.id
  backing : r.backing = s.backing
  width : r.width = s.width
  height : r.height = s.height
  stride : r.stride = s.stride
  format : r.format = s.format
  size : r.bytes.size = s.bytes.size

namespace Alike

variable {r s t : Raster}

theorem refl (r : Raster) : r.Alike r := ⟨rfl,rfl,rfl,rfl,rfl,rfl,rfl⟩

theorem trans (h : r.Alike s) (h' : s.Alike t) : r.Alike t :=
  ⟨h.id.trans h'.id,h.backing.trans h'.backing,h.width.trans h'.width,h.height.trans h'.height,
    h.stride.trans h'.stride,h.format.trans h'.format,h.size.trans h'.size⟩

theorem rect (h : r.Alike s) : r.rect = s.rect := by
  rw [Raster.rect, Raster.rect, h.width, h.height]

end Alike

theorem withBytes_alike (r : Raster) (bytes : Array UInt8) (h : bytes.size = r.bytes.size) :
    (r.withBytes bytes h).Alike r := ⟨rfl,rfl,rfl,rfl,rfl,rfl,h⟩

theorem paint_alike (r : Raster) (area : Rect) (pixel : Nat → Nat → List UInt8) :
    (r.paint area pixel).Alike r := withBytes_alike ..

theorem fillRect_alike (r : Raster) (area : Rect) (c : Color) : (r.fillRect area c).Alike r :=
  paint_alike ..

theorem draw_alike (r src : Raster) (corner : Point) (clip : Rect) :
    (r.draw src corner clip).Alike r := by
  simp only [draw]
  split
  · exact .refl r
  split
  · exact paint_alike ..
  · exact paint_alike ..

theorem toInt_ofNat_width (r : Raster) : (Int32.ofNat r.width).toInt = r.width :=
  Int32.toInt_ofNat_of_lt r.width_lt

theorem toInt_ofNat_height (r : Raster) : (Int32.ofNat r.height).toInt = r.height :=
  Int32.toInt_ofNat_of_lt r.height_lt

theorem exact_rect (r : Raster) : r.rect.Exact := by
  have hw := r.width_pos
  have hh := r.height_pos
  have hw' := r.width_lt
  have hh' := r.height_lt
  have h1 := r.toInt_ofNat_width
  have h2 := r.toInt_ofNat_height
  simp only [extentLimit] at hw' hh'
  constructor <;> simp only [rect, Rect.left, Rect.top, Int32.toInt_zero] <;> omega

theorem covers_rect (r : Raster) (x y : Int) :
    r.rect.Covers x y ↔ (0 ≤ x ∧ x < r.width) ∧ 0 ≤ y ∧ y < r.height := by
  rw [Rect.Covers, r.exact_rect.right, r.exact_rect.bottom]
  simp only [rect, Rect.left, Rect.top, Int32.toInt_zero, toInt_ofNat_width, toInt_ofNat_height]
  omega

theorem mem_pixelsIn (r : Raster) (area : Rect) (x y : Nat) :
    (x,y) ∈ r.pixelsIn area ↔ area.Covers x y ∧ r.rect.Covers x y := by
  rw [← Rect.covers_intersected]
  by_cases h : area.intersects r.rect = true
  · have he := Rect.exact_intersected h
    have hl : 0 ≤ (area.intersected r.rect).left := by
      rw [Rect.intersected_eq h, (Rect.edged_intersected h).left]
      exact le_max_right _ _
    have ht : 0 ≤ (area.intersected r.rect).top := by
      rw [Rect.intersected_eq h, (Rect.edged_intersected h).top]
      exact le_max_right _ _
    have hw := he.width_pos
    have hh := he.height_pos
    rw [Rect.Covers, he.right, he.bottom]
    simp only [pixelsIn, Rect.left, Rect.top, List.mem_flatMap, List.mem_map, List.mem_range'_1,
      Prod.mk.injEq] at hl ht ⊢
    constructor
    · rintro ⟨y',hy,x',hx,rfl,rfl⟩
      omega
    · intro hp
      exact ⟨y,by omega,x,by omega,rfl,rfl⟩
  · rw [Rect.intersected, if_neg h]
    simp [pixelsIn, Rect.intersected, h, Rect.none, Rect.not_covers_of_isEmpty, Rect.isEmpty_iff]

theorem getD_writeAt (bytes : Array UInt8) (offset i : Nat) (l : List UInt8)
    (hi : i < bytes.size) : (writeAt bytes offset l).getD i 0 =
      if offset ≤ i ∧ i < offset+l.length then l.getD (i-offset) 0 else bytes.getD i 0 := by
  induction l generalizing bytes offset with
  | nil => simp [writeAt]
  | cons b l ih =>
    rw [writeAt, ih _ _ (by simpa using hi)]
    by_cases h : i = offset
    · subst h
      simp [hi]
    · have hb : (bytes.setIfInBounds offset b).getD i 0 = bytes.getD i 0 := by
        simp [Ne.symm h]
      rw [List.length_cons, hb]
      by_cases hin : offset ≤ i ∧ i < offset+(l.length+1)
      · rw [if_pos (by omega), if_pos hin, show i-offset = i-(offset+1)+1 by omega,
          List.getD_cons_succ]
      · rw [if_neg (by omega), if_neg hin]

section Places

variable (r : Raster) {x y x' y' k : Nat}

theorem line_end_le (hx : x < r.width) (hk : k < r.format.bytesPerPixel) :
    x*r.format.bytesPerPixel+k < r.stride := by
  have h1 := r.line_le
  have h2 : (x+1)*r.format.bytesPerPixel ≤ r.width*r.format.bytesPerPixel :=
    Nat.mul_le_mul_right _ hx
  rw [Nat.add_mul, Nat.one_mul] at h2
  omega

theorem offset_lt_size (hx : x < r.width) (hy : y < r.height) (hk : k < r.format.bytesPerPixel) :
    r.offset x y+k < r.bytes.size := by
  have h1 := r.line_end_le hx hk
  have h2 := r.fits
  have h3 : (y+1)*r.stride ≤ r.height*r.stride := Nat.mul_le_mul_right _ hy
  rw [Nat.add_mul, Nat.one_mul, Nat.mul_comm r.height] at h3
  rw [offset]
  omega

theorem eq_of_offset_le (hx : x < r.width) (hx' : x' < r.width)
    (hk : k < r.format.bytesPerPixel) (h1 : r.offset x' y' ≤ r.offset x y+k)
    (h2 : r.offset x y+k < r.offset x' y'+r.format.bytesPerPixel) : x = x' ∧ y = y' := by
  have hl := r.line_end_le hx hk
  have hl' := r.line_end_le hx' hk
  have hy : y = y' := by
    rcases Nat.lt_trichotomy y y' with h | h | h
    · have h3 : (y+1)*r.stride ≤ y'*r.stride := Nat.mul_le_mul_right _ h
      rw [Nat.add_mul, Nat.one_mul] at h3
      simp only [offset] at h1 h2
      omega
    · exact h
    · have h3 : (y'+1)*r.stride ≤ y*r.stride := Nat.mul_le_mul_right _ h
      have h4 := r.line_end_le hx' (k := r.format.bytesPerPixel-1) (by omega)
      rw [Nat.add_mul, Nat.one_mul] at h3
      simp only [offset] at h1 h2
      omega
  subst hy
  refine ⟨?_,rfl⟩
  simp only [offset] at h1 h2
  rcases Nat.lt_trichotomy x x' with h | h | h
  · have h3 : (x+1)*r.format.bytesPerPixel ≤ x'*r.format.bytesPerPixel := Nat.mul_le_mul_right _ h
    rw [Nat.add_mul, Nat.one_mul] at h3
    omega
  · exact h
  · have h3 : (x'+1)*r.format.bytesPerPixel ≤ x*r.format.bytesPerPixel := Nat.mul_le_mul_right _ h
    rw [Nat.add_mul, Nat.one_mul] at h3
    omega

end Places

theorem getD_store (r : Raster) (pixel : Nat → Nat → List UInt8)
    (hp : ∀ x y, (pixel x y).length = r.format.bytesPerPixel) (places : List (Nat × Nat))
    (hl : ∀ p ∈ places, p.1 < r.width) (bytes : Array UInt8) (hs : bytes.size = r.bytes.size)
    {x y k : Nat} (hx : x < r.width) (hy : y < r.height) (hk : k < r.format.bytesPerPixel) :
    (places.foldl (fun bytes p => writeAt bytes (r.offset p.1 p.2) (pixel p.1 p.2)) bytes).getD
        (r.offset x y+k) 0 =
      if (x,y) ∈ places then (pixel x y).getD k 0 else bytes.getD (r.offset x y+k) 0 := by
  induction places generalizing bytes with
  | nil => simp
  | cons p places ih =>
    obtain ⟨px,py⟩ := p
    have hsize := r.offset_lt_size hx hy hk
    rw [List.foldl_cons, ih (fun q hq => hl q (by simp [hq])) _ (by simpa using hs),
      getD_writeAt _ _ _ _ (by omega), hp]
    by_cases hm : (x,y) ∈ places
    · rw [if_pos hm, if_pos (by simp [hm])]
    · rw [if_neg hm]
      by_cases he : (x,y) = (px,py)
      · obtain ⟨rfl,rfl⟩ := Prod.mk.inj he
        rw [if_pos ⟨Nat.le_add_right _ _,Nat.add_lt_add_left hk _⟩, if_pos (by simp),
          Nat.add_sub_cancel_left]
      · have hn : (x,y) ∉ (px,py) :: places := by simpa [hm] using he
        rw [if_neg hn, if_neg]
        rintro ⟨h1,h2⟩
        obtain ⟨h3,h4⟩ := r.eq_of_offset_le hx (hl (px,py) (by simp)) hk h1 h2
        exact he (Prod.ext h3 h4)

/-- Painting replaces the pixels of the area and no other. -/
theorem colorAt_paint (r : Raster) (area : Rect) (pixel : Nat → Nat → List UInt8)
    (hp : ∀ x y, (pixel x y).length = r.format.bytesPerPixel) {x y : Nat} (hx : x < r.width)
    (hy : y < r.height) : (r.paint area pixel).colorAt x y =
      if area.Covers x y then r.format.decode ((pixel x y).getD · 0) else r.colorAt x y := by
  have hl : ∀ p ∈ r.pixelsIn area, p.1 < r.width := by
    rintro ⟨px,py⟩ hm
    have h := ((mem_pixelsIn r area px py).1 hm).2
    rw [covers_rect] at h
    omega
  have hin : r.rect.Covers x y := by
    rw [covers_rect]
    omega
  have hb := fun k hk => getD_store r pixel hp (r.pixelsIn area) hl r.bytes rfl hx hy (k := k) hk
  simp only [mem_pixelsIn, hin, and_true] at hb
  by_cases hc : area.Covers x y
  · simp only [if_pos hc] at hb ⊢
    exact r.format.decode_congr _ _ hb
  · simp only [if_neg hc] at hb ⊢
    exact r.format.decode_congr _ _ hb

theorem colorAt_fillRect (r : Raster) (area : Rect) (c : Color) {x y : Nat} (hx : x < r.width)
    (hy : y < r.height) : (r.fillRect area c).colorAt x y =
      if area.Covers x y then r.format.quantize c else r.colorAt x y :=
  colorAt_paint r area _ (fun _ _ => r.format.encode_length c) hx hy

theorem translated_rect (r : Raster) (p : Point) :
    r.rect.translated p.x p.y = r.rect.movedTo p := by
  simp [rect, Rect.translated, Rect.movedTo]

theorem length_pixelBytes (r : Raster) (x y : Nat) :
    (r.pixelBytes x y).length = r.format.bytesPerPixel := by simp [pixelBytes]

theorem decode_pixelBytes (r : Raster) (x y : Nat) :
    r.format.decode ((r.pixelBytes x y).getD · 0) = r.colorAt x y :=
  r.format.decode_congr _ _ fun k hk => by simp [pixelBytes, hk]

/-- Drawing gives the pixels inside the clip and the drawn image the colors of
that image, as far as the format of the target can hold them. -/
theorem colorAt_draw (r src : Raster) (corner : Point) (clip : Rect) (hid : src.id ≠ r.id)
    {x y : Nat} (hx : x < r.width) (hy : y < r.height) : (r.draw src corner clip).colorAt x y =
      if clip.Covers x y ∧ (src.rect.movedTo corner).Covers x y then
        r.format.quantize (src.colorAt (x-corner.x.toInt).toNat (y-corner.y.toInt).toNat)
      else r.colorAt x y := by
  have hin : r.rect.Covers x y := by
    rw [covers_rect]
    omega
  have ha : ((clip.intersected r.rect).intersected (src.rect.translated corner.x corner.y)).Covers
      x y ↔ clip.Covers x y ∧ (src.rect.movedTo corner).Covers x y := by
    rw [Rect.covers_intersected, Rect.covers_intersected, translated_rect]
    tauto
  rw [draw, if_neg hid]
  by_cases hf : src.format = r.format
  · rw [if_pos hf, colorAt_paint r _ _ (fun _ _ => by rw [length_pixelBytes, hf]) hx hy, ← hf,
      decode_pixelBytes]
    simp only [ha]
    rw [show src.format.quantize (src.colorAt (x-corner.x.toInt).toNat (y-corner.y.toInt).toNat) = _
      from PixelFormat.quantize_decode ..]
    rfl
  · rw [if_neg hf, colorAt_paint r _ _ (fun _ _ => PixelFormat.encode_length ..) hx hy]
    simp only [ha]
    rfl

end InkCompositor.Raster
