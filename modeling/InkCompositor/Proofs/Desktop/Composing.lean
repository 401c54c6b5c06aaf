import Mathlib
import InkCompositor.Desktop.Painting
import InkCompositor.Proofs.Geometry.RegionSets
import InkCompositor.Proofs.Raster.Painting

/-!
# Composing windows

What a pixel is after windows have been painted over each other: the color of
the topmost window there, as far as the raster can hold it. Edges of windows
are clamped only beyond the pixels that a raster can have.
-/

set_option autoImplicit false

namespace InkCompositor

namespace Rect

/-- Pixel membership without clamping: the edges are where the fields say. -/
def Holds (r : Rect) (x y : Int) : Prop :=
  (r.x.toInt ≤ x ∧ x < r.x.toInt+r.width.toInt) ∧ r.y.toInt ≤ y ∧ y < r.y.toInt+r.height.toInt

instance (r : Rect) (x y : Int) : Decidable (r.Holds x y) :=
  inferInstanceAs (Decidable (_ ∧ _))

theorem covers_iff_holds (r : Rect) {x y : Int} (hx : 0 ≤ x) (hx' : x < 2147483647) (hy : 0 ≤ y)
    (hy' : y < 2147483647) : r.Covers x y ↔ r.Holds x y := by
  rw [Covers, Holds, right_eq, bottom_eq, left, top]
  omega

theorem Exact.covers_iff_holds {r : Rect} (h : r.Exact) (x y : Int) :
    r.Covers x y ↔ r.Holds x y := by
  rw [Covers, Holds, h.right, h.bottom, left, top]
  omega

theorem covers_translated (r : Rect) (dx dy : Int32) {x y : Int} (hx : 0 ≤ x)
    (hx' : x < 2147483647) (hy : 0 ≤ y) (hy' : y < 2147483647) :
    (r.translated dx dy).Covers x y ↔ r.Holds (x-dx.toInt) (y-dy.toInt) := by
  have hw := r.width_le
  have hh := r.height_le
  have hl : (r.translated dx dy).left = clampEdge (r.x.toInt+dx.toInt) := toInt_ofIntClamp_eq _
  have ht : (r.translated dx dy).top = clampEdge (r.y.toInt+dy.toInt) := toInt_ofIntClamp_eq _
  rw [Covers, Holds, right_eq, bottom_eq, hl, ht]
  simp only [translated, clampEdge]
  omega

theorem holds_atOrigin (r : Rect) (x y : Int) :
    r.atOrigin.Holds (x-r.x.toInt) (y-r.y.toInt) ↔ r.Holds x y := by
  simp only [Holds, atOrigin, Int32.toInt_zero]
  omega

end Rect

namespace Raster

theorem covers_rect_lt (r : Raster) {x y : Int} (h : r.rect.Covers x y) :
    (0 ≤ x ∧ x < 2147483647) ∧ 0 ≤ y ∧ y < 2147483647 := by
  have hw := r.width_lt
  have hh := r.height_lt
  rw [covers_rect] at h
  simp only [extentLimit] at hw hh
  omega

theorem covers_iff_holds (r : Raster) (s : Rect) {x y : Int} (h : r.rect.Covers x y) :
    s.Covers x y ↔ s.Holds x y := by
  obtain ⟨hx,hy⟩ := r.covers_rect_lt h
  exact s.covers_iff_holds hx.1 hx.2 hy.1 hy.2

end Raster

namespace Window

/-- The color that the window's image has at a place of the screen. -/
def colorAt (w : Window) (x y : Int) : Color :=
  match w.image with
  | some r => r.colorAt (x-w.geometry.x.toInt).toNat (y-w.geometry.y.toInt).toNat
  | none => .transparent

/-- The image is as large as the window. The panel's raster has the number zero
and is the image of no window. -/
def Fitted (w : Window) : Prop := ∀ r, w.image = some r → r.rect = w.localRect ∧ r.id ≠ 0

end Window

/-- The last of the windows whose bounds contain a pixel. -/
def topmost (windows : List Window) (x y : Int) : Option Window :=
  (windows.filter fun w => decide (w.geometry.Holds x y)).getLast?

theorem topmost_nil (x y : Int) : topmost [] x y = none := rfl

theorem topmost_cons (w : Window) (l : List Window) (x y : Int) : topmost (w :: l) x y =
    (topmost l x y).or (if w.geometry.Holds x y then some w else none) := by
  by_cases h : w.geometry.Holds x y
  · rw [topmost, List.filter_cons_of_pos (by simpa using h), List.getLast?_cons, if_pos h, topmost]
    cases (l.filter fun v => decide (v.geometry.Holds x y)).getLast? <;> rfl
  · rw [topmost, List.filter_cons_of_neg (by simpa using h), if_neg h, Option.or_none, topmost]

theorem topmost_eq_some_iff (l : List Window) (x y : Int) (w : Window) :
    topmost l x y = some w ↔ ∃ below above, l = below ++ w :: above ∧ w.geometry.Holds x y ∧
      ∀ v ∈ above, ¬ v.geometry.Holds x y := by
  rw [topmost, List.getLast?_eq_some_iff]
  constructor
  · rintro ⟨m,hm⟩
    obtain ⟨b,a,rfl,hb,ha⟩ := List.filter_eq_append_iff.1 hm
    obtain ⟨c,e,rfl,hc,hw,he⟩ := List.filter_eq_cons_iff.1 ha
    refine ⟨b ++ c,e,by simp,by simpa using hw,fun v hv hp => ?_⟩
    exact List.filter_eq_nil_iff.1 he v hv (by simpa using hp)
  · rintro ⟨b,a,rfl,hw,ha⟩
    refine ⟨b.filter fun w => decide (w.geometry.Holds x y),?_⟩
    have hn : a.filter (fun w => decide (w.geometry.Holds x y)) = [] :=
      List.filter_eq_nil_iff.2 (by simpa using ha)
    rw [List.filter_append, List.filter_cons_of_pos (by simpa using hw), hn]

theorem mem_of_topmost {l : List Window} {x y : Int} {w : Window} (h : topmost l x y = some w) :
    w ∈ l ∧ w.geometry.Holds x y := by
  obtain ⟨b,a,rfl,hw,-⟩ := (topmost_eq_some_iff l x y w).1 h
  exact ⟨by simp,hw⟩

def Raster.shown (fb : Raster) (windows : List Window) (clear : Bool) (x y : Nat) : Color :=
  match topmost windows x y with
  | some w => fb.format.quantize (w.colorAt x y)
  | none => if clear then fb.format.background else fb.colorAt x y

namespace Raster

theorem paintWindow_alike (fb : Raster) (area : Rect) (w : Window) :
    (fb.paintWindow area w).Alike fb := by
  cases h : w.image with
  | none => simpa [paintWindow, h] using Alike.refl fb
  | some r => simpa [paintWindow, h] using draw_alike fb r w.geometry.origin area

theorem foldl_paintWindow_alike (fb : Raster) (area : Rect) (windows : List Window) :
    (windows.foldl (·.paintWindow area) fb).Alike fb := by
  induction windows generalizing fb with
  | nil => exact .refl fb
  | cons w windows ih => exact (ih _).trans (paintWindow_alike fb area w)

theorem compose_alike (fb : Raster) (windows : List Window) (clear : Bool) (area : Rect) :
    (fb.compose windows clear area).Alike fb := by
  apply (foldl_paintWindow_alike _ area windows).trans
  cases clear
  · exact .refl fb
  · exact fillRect_alike ..

section

variable (fb : Raster) {x y : Nat} (hx : x < fb.width) (hy : y < fb.height) (h0 : fb.id = 0)
include hx hy h0

theorem colorAt_paintWindow (area : Rect) (w : Window) (hw : w.Fitted)
    (hi : w.image.isSome = true) : (fb.paintWindow area w).colorAt x y =
      if area.Covers x y ∧ w.geometry.Holds x y then fb.format.quantize (w.colorAt x y)
      else fb.colorAt x y := by
  obtain ⟨r,hr⟩ := Option.isSome_iff_exists.1 hi
  obtain ⟨hrect,hid⟩ := hw r hr
  have hin : fb.rect.Covers x y := by
    rw [covers_rect]
    omega
  have hg : (r.rect.movedTo w.geometry.origin).Covers x y ↔ w.geometry.Holds x y := by
    rw [hrect, ← fb.covers_iff_holds w.geometry hin]
    rfl
  rw [paintWindow, hr, colorAt_draw fb r w.geometry.origin area (by rw [h0]; exact hid) hx hy]
  simp only [hg, Window.colorAt, hr]
  rfl

theorem colorAt_foldl_paintWindow (area : Rect) (windows : List Window)
    (hw : ∀ w ∈ windows, w.Fitted ∧ w.image.isSome = true) :
    (windows.foldl (·.paintWindow area) fb).colorAt x y =
      if area.Covers x y then fb.shown windows false x y else fb.colorAt x y := by
  induction windows generalizing fb with
  | nil => simp [shown, topmost_nil]
  | cons w windows ih =>
    have ha := paintWindow_alike fb area w
    have hc := colorAt_paintWindow fb hx hy h0 area w (hw w (by simp)).1 (hw w (by simp)).2
    rw [List.foldl_cons, ih _ (by rwa [ha.width]) (by rwa [ha.height]) (ha.id.trans h0)
      (fun v hv => hw v (by simp [hv])), hc]
    simp only [shown, topmost_cons, ha.format, hc]
    cases topmost windows x y with
    | some v => by_cases h : area.Covers x y <;> simp [h]
    | none => by_cases h : area.Covers x y <;> by_cases h' : w.geometry.Holds x y <;> simp [h, h']

theorem colorAt_compose (windows : List Window) (clear : Bool) (area : Rect)
    (hw : ∀ w ∈ windows, w.Fitted ∧ w.image.isSome = true) :
    (fb.compose windows clear area).colorAt x y =
      if area.Covers x y then fb.shown windows clear x y else fb.colorAt x y := by
  cases clear with
  | false => exact colorAt_foldl_paintWindow fb hx hy h0 area windows hw
  | true =>
    have ha := fillRect_alike fb area fb.format.background
    have hc := colorAt_fillRect fb area fb.format.background hx hy
    rw [PixelFormat.quantize_background _ fb.format_valid] at hc
    simp only [compose, if_true]
    rw [colorAt_foldl_paintWindow _ (by rwa [ha.width]) (by rwa [ha.height]) (ha.id.trans h0) area
      windows hw, hc]
    simp only [shown, ha.format, hc]
    cases topmost windows x y <;> by_cases h : area.Covers x y <;> simp [h]

theorem colorAt_foldl_compose (windows : List Window) (clear : Bool) (area : List Rect)
    (hw : ∀ w ∈ windows, w.Fitted ∧ w.image.isSome = true) :
    (area.foldl (fun fb r => fb.compose windows clear r) fb).colorAt x y =
      if ∃ r ∈ area, r.Covers x y then fb.shown windows clear x y else fb.colorAt x y := by
  induction area generalizing fb with
  | nil => simp
  | cons r area ih =>
    have ha := compose_alike fb windows clear r
    have hc := colorAt_compose fb hx hy h0 windows clear r hw
    rw [List.foldl_cons, ih _ (by rwa [ha.width]) (by rwa [ha.height]) (ha.id.trans h0), hc]
    simp only [shown, ha.format, hc]
    cases topmost windows x y <;> cases clear <;> by_cases h : r.Covers x y <;>
      by_cases h' : ∃ s ∈ area, s.Covers x y <;> simp [h, h']

end

theorem foldl_compose_alike (fb : Raster) (windows : List Window) (clear : Bool)
    (area : List Rect) : (area.foldl (fun fb r => fb.compose windows clear r) fb).Alike fb := by
  induction area generalizing fb with
  | nil => exact .refl fb
  | cons r area ih => exact (ih _).trans (compose_alike fb windows clear r)

end Raster

end InkCompositor
