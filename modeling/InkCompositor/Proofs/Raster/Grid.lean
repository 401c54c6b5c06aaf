import Mathlib
import InkCompositor.Proofs.Raster.Lines

/-!
# An image as a grid of pixels

Every byte of the memory belongs to at most one pixel. An operation changes the
bytes of the pixels it covers and no other, so after any sequence of operations
a pixel has the color of the last one over it.
-/

set_option autoImplicit false

namespace InkCompositor

namespace Raster

/-- Byte `i` of the memory belongs to the pixel in column `x` of line `y`. -/
def Holds (r : Raster) (i x y : Nat) : Prop :=
  r.offset x y ≤ i ∧ i < r.offset x y+r.format.bytesPerPixel

structure Confined (P : Nat → Nat → Prop) (s r : Raster) : Prop where
  alike : s.Alike r
  bytes : ∀ i, (∀ x y, P x y → ¬ r.Holds i x y) → s.bytes[i]? = r.bytes[i]?

namespace Confined

variable {P Q : Nat → Nat → Prop} {r s t : Raster}

theorem refl (P : Nat → Nat → Prop) (r : Raster) : Confined P r r := ⟨.refl r,fun _ _ => rfl⟩

theorem trans (h : Confined P t s) (h' : Confined P s r) : Confined P t r := by
  refine ⟨h.alike.trans h'.alike,fun i hi =>
    (h.bytes i fun x y hP hs => hi x y hP ?_).trans (h'.bytes i hi)⟩
  rwa [Holds, h'.alike.offset, h'.alike.format] at hs

theorem mono (h : Confined P s r) (hPQ : ∀ x y, P x y → Q x y) : Confined Q s r :=
  ⟨h.alike,fun i hi => h.bytes i fun x y hP => hi x y (hPQ x y hP)⟩

end Confined

theorem getElem?_writeAt (bytes : Array UInt8) {start i : Nat} (l : List UInt8)
    (h : ¬ (start ≤ i ∧ i < start+l.length)) : (writeAt bytes start l)[i]? = bytes[i]? := by
  induction l generalizing bytes start with
  | nil => rfl
  | cons b l ih =>
    rw [List.length_cons] at h
    rw [writeAt, ih _ (by omega), Array.getElem?_setIfInBounds_ne (by omega)]

theorem getElem?_foldl_writeAt (r : Raster) {pixel : Nat → Nat → List UInt8}
    (hp : ∀ x y, (pixel x y).length = r.format.bytesPerPixel) (places : List (Nat × Nat)) {i : Nat}
    (h : ∀ p ∈ places, ¬ r.Holds i p.1 p.2) (bytes : Array UInt8) :
    (places.foldl (fun bytes p => writeAt bytes (r.offset p.1 p.2) (pixel p.1 p.2)) bytes)[i]? =
      bytes[i]? := by
  induction places generalizing bytes with
  | nil => rfl
  | cons p places ih =>
    rw [List.foldl_cons, ih (fun q hq => h q (by simp [hq])), getElem?_writeAt]
    rw [hp]
    exact h p (by simp)

theorem confined_paint (r : Raster) (area : Rect) {pixel : Nat → Nat → List UInt8}
    (hp : ∀ x y, (pixel x y).length = r.format.bytesPerPixel) :
    Confined (fun x y => area.Covers x y ∧ r.rect.Covers x y) (r.paint area pixel) r :=
  ⟨r.paint_alike area pixel,fun _ hi => r.getElem?_foldl_writeAt hp _
    (fun p hm => hi p.1 p.2 ((r.mem_pixelsIn area p.1 p.2).1 hm)) _⟩

theorem getD_paint (r : Raster) (area : Rect) {pixel : Nat → Nat → List UInt8}
    (hp : ∀ x y, (pixel x y).length = r.format.bytesPerPixel) {x y k : Nat} (hx : x < r.width)
    (hy : y < r.height) (hk : k < r.format.bytesPerPixel) :
    (r.paint area pixel).bytes.getD (r.offset x y+k) 0 =
      if area.Covers x y then (pixel x y).getD k 0 else r.bytes.getD (r.offset x y+k) 0 := by
  have hin : r.rect.Covers x y := (r.covers_rect x y).2 (by omega)
  refine (r.getD_store pixel hp (r.pixelsIn area) (fun p hm => ?_) r.bytes rfl hx hy hk).trans ?_
  · have := (r.covers_rect _ _).1 ((r.mem_pixelsIn area p.1 p.2).1 hm).2
    omega
  · simp only [mem_pixelsIn, hin, and_true]

theorem setPixel_alike (r : Raster) (x y : Int32) (c : Color) : (r.setPixel x y c).Alike r := by
  rw [setPixel]
  split
  · exact withBytes_alike ..
  · exact .refl r

theorem covers_unit {r : Raster} (x y : Int32) {u v : Int} (h : r.rect.Covers u v) :
    (⟨x,y,1,1⟩ : Rect).Covers u v ↔ u = x.toInt ∧ v = y.toInt := by
  have hin := (r.covers_rect u v).1 h
  have hw := r.width_lt
  have hh := r.height_lt
  rw [extentLimit] at hw hh
  rw [Rect.Covers, Rect.right_eq, Rect.bottom_eq]
  simp only [Rect.left, Rect.top, Int32.toInt_one]
  omega

theorem pixelsIn_unit (r : Raster) {x y : Int32} {u v : Nat} (hx : x.toInt = u) (hy : y.toInt = v)
    (hu : u < r.width) (hv : v < r.height) : r.pixelsIn ⟨x,y,1,1⟩ = [(u,v)] := by
  have hc : r.rect.Covers u v := (r.covers_rect u v).2 (by omega)
  have hw := r.width_lt
  have hh := r.height_lt
  rw [extentLimit] at hw hh
  have he : (⟨x,y,1,1⟩ : Rect).Exact := by
    constructor <;> simp only [Rect.left, Rect.top, Int32.toInt_one] <;> omega
  have hin : ∀ a b, (⟨x,y,1,1⟩ : Rect).Covers a b → r.rect.Covers a b := fun a b hab => by
    rw [Rect.Covers, he.right, he.bottom] at hab
    simp only [Rect.left, Rect.top, Int32.toInt_one] at hab
    rw [show a = u by omega, show b = v by omega]
    exact hc
  simp [pixelsIn, he.intersected hin, hx, hy]

/-- Setting a pixel is painting the rectangle of that pixel alone. -/
theorem setPixel_eq_paint (r : Raster) (x y : Int32) (c : Color) :
    r.setPixel x y c = r.paint ⟨x,y,1,1⟩ fun _ _ => r.format.encode c := by
  by_cases h : r.rect.containsPoint ⟨x,y⟩ = true
  · obtain ⟨u,v,hx,hy,hu,hv⟩ := place_of_containsPoint h
    refine Alike.eq ((r.setPixel_alike x y c).trans (r.paint_alike _ _).symm) ?_
    simp only [setPixel, if_pos h, paint, withBytes, store, r.pixelsIn_unit hx hy hu hv, hx, hy]
    rfl
  · refine Alike.eq ((r.setPixel_alike x y c).trans (r.paint_alike _ _).symm) ?_
    have hn : r.pixelsIn ⟨x,y,1,1⟩ = [] := List.eq_nil_iff_forall_not_mem.2 fun p hm => by
      obtain ⟨h1,h2⟩ := (r.mem_pixelsIn _ p.1 p.2).1 hm
      obtain ⟨hx,hy⟩ := (covers_unit x y h2).1 h1
      exact h (decide_eq_true (hx ▸ hy ▸ h2))
    simp only [setPixel, if_neg h, paint, withBytes, store, hn]
    rfl

end Raster

/-- An operation that gives pixels of an image one color. -/
inductive Stroke where
  | pixel (x y : Int32) (color : Color)
  | rect (area : Rect) (color : Color)
  | all (color : Color)
  deriving DecidableEq, Repr

namespace Stroke

def color : Stroke → Color
  | pixel _ _ c | rect _ c | all c => c

def Covers : Stroke → Int → Int → Prop
  | pixel x y _, u, v => u = x.toInt ∧ v = y.toInt
  | rect area _, u, v => area.Covers u v
  | all _, _, _ => True

instance (s : Stroke) (x y : Int) : Decidable (s.Covers x y) := by
  cases s <;> rw [Covers] <;> infer_instance

/-- The color of the last stroke over a pixel. -/
def lastColor (strokes : List Stroke) (x y : Int) : Option Color :=
  (strokes.reverse.find? fun s => decide (s.Covers x y)).map color

theorem lastColor_cons (s : Stroke) (strokes : List Stroke) (x y : Int) :
    lastColor (s :: strokes) x y =
      (lastColor strokes x y).or (if s.Covers x y then some s.color else none) := by
  rw [lastColor, List.reverse_cons, List.find?_append, Option.map_or, lastColor]
  by_cases h : s.Covers x y <;> simp [h]

theorem lastColor_of_color {strokes : List Stroke} {c : Color} (h : ∀ s ∈ strokes, s.color = c)
    (x y : Int) : lastColor strokes x y =
      if strokes.any fun s => decide (s.Covers x y) then some c else none := by
  induction strokes with
  | nil => rfl
  | cons s strokes ih =>
    rw [lastColor_cons, ih fun t ht => h t (by simp [ht]), h s (by simp), List.any_cons]
    by_cases hs : s.Covers x y <;> cases strokes.any fun s => decide (s.Covers x y) <;> simp [hs]

end Stroke

namespace Raster

def stroke (r : Raster) : Stroke → Raster
  | .pixel x y c => r.setPixel x y c
  | .rect area c => r.fillRect area c
  | .all c => r.fill c

def stroke? (r : Raster) : Stroke → Option Raster
  | .pixel x y c => r.storePixel? x y c
  | .rect area c => r.fillLines? area c
  | .all c => r.fillLines? r.rect c

def run (r : Raster) (strokes : List Stroke) : Raster := strokes.foldl stroke r

def run? (r : Raster) (strokes : List Stroke) : Option Raster := strokes.foldlM stroke? r

theorem stroke?_eq (r : Raster) (s : Stroke) : r.stroke? s = some (r.stroke s) := by
  cases s with
  | pixel x y c => exact r.storePixel?_eq x y c
  | rect area c => exact r.fillLines?_eq area c
  | all c => exact r.fillLines?_eq r.rect c

theorem run?_eq (r : Raster) (strokes : List Stroke) : r.run? strokes = some (r.run strokes) := by
  induction strokes generalizing r with
  | nil => rfl
  | cons s strokes ih =>
    rw [run?, List.foldlM_cons, stroke?_eq]
    exact ih _

theorem exists_paint (r : Raster) (s : Stroke) : ∃ area : Rect,
    r.stroke s = r.paint area (fun _ _ => r.format.encode s.color) ∧
      ∀ x y, r.rect.Covers x y → (area.Covers x y ↔ s.Covers x y) := by
  cases s with
  | pixel u v c => exact ⟨_,r.setPixel_eq_paint u v c,fun x y h => covers_unit u v h⟩
  | rect area c => exact ⟨area,rfl,fun x y _ => .rfl⟩
  | all c => exact ⟨r.rect,rfl,fun x y h => ⟨fun _ => trivial,fun _ => h⟩⟩

theorem confined_stroke (r : Raster) (s : Stroke) :
    Confined (fun x y => s.Covers x y ∧ r.rect.Covers x y) (r.stroke s) r := by
  obtain ⟨area,hs,hc⟩ := r.exists_paint s
  rw [hs]
  exact (r.confined_paint area fun _ _ => r.format.encode_length _).mono
    fun x y h => ⟨(hc x y h.2).1 h.1,h.2⟩

theorem getD_stroke (r : Raster) (s : Stroke) {x y k : Nat} (hx : x < r.width) (hy : y < r.height)
    (hk : k < r.format.bytesPerPixel) : (r.stroke s).bytes.getD (r.offset x y+k) 0 =
      if s.Covers x y then (r.format.encode s.color).getD k 0
      else r.bytes.getD (r.offset x y+k) 0 := by
  obtain ⟨area,hs,hc⟩ := r.exists_paint s
  rw [hs, r.getD_paint area (fun _ _ => r.format.encode_length _) hx hy hk]
  simp only [hc x y ((r.covers_rect x y).2 (by omega))]

theorem confined_run (r : Raster) (strokes : List Stroke) :
    Confined (fun x y => (∃ s ∈ strokes, s.Covers x y) ∧ r.rect.Covers x y) (r.run strokes) r := by
  induction strokes generalizing r with
  | nil => exact .refl _ r
  | cons s strokes ih =>
    have hs := r.confined_stroke s
    refine ((ih (r.stroke s)).mono fun x y h => ?_).trans (hs.mono fun x y h => ?_)
    · obtain ⟨⟨t,ht,hc⟩,hr⟩ := h
      exact ⟨⟨t,by simp [ht],hc⟩,hs.alike.rect ▸ hr⟩
    · exact ⟨⟨s,by simp,h.1⟩,h.2⟩

theorem getD_run (r : Raster) (strokes : List Stroke) {x y k : Nat} (hx : x < r.width)
    (hy : y < r.height) (hk : k < r.format.bytesPerPixel) :
    (r.run strokes).bytes.getD (r.offset x y+k) 0 =
      ((Stroke.lastColor strokes x y).map fun c => (r.format.encode c).getD k 0).getD
        (r.bytes.getD (r.offset x y+k) 0) := by
  induction strokes generalizing r with
  | nil => rfl
  | cons s strokes ih =>
    have ha := (r.confined_stroke s).alike
    have h := ih (r.stroke s) (ha.width ▸ hx) (ha.height ▸ hy) (ha.format ▸ hk)
    rw [ha.offset, ha.format, r.getD_stroke s hx hy hk] at h
    refine h.trans ?_
    rw [Stroke.lastColor_cons]
    cases Stroke.lastColor strokes x y with
    | some c => rfl
    | none => by_cases hc : s.Covers x y <;> simp [hc]

theorem run_congr (r : Raster) {strokes strokes' : List Stroke}
    (h : ∀ x y : Nat, r.rect.Covers x y →
      Stroke.lastColor strokes x y = Stroke.lastColor strokes' x y) :
    r.run strokes = r.run strokes' := by
  have hc := r.confined_run strokes
  have hc' := r.confined_run strokes'
  refine (hc.alike.trans hc'.alike.symm).eq (Array.ext_getElem? fun i => ?_)
  by_cases hi : ∃ x y : Nat, r.rect.Covers x y ∧ r.Holds i x y
  · obtain ⟨x,y,hxy,h1,h2⟩ := hi
    have hin := (r.covers_rect x y).1 hxy
    have hx : x < r.width := by omega
    have hy : y < r.height := by omega
    obtain ⟨k,rfl⟩ := Nat.exists_eq_add_of_le h1
    have hk : k < r.format.bytesPerPixel := by omega
    have hs := r.offset_lt_size hx hy hk
    have hb := r.getD_run strokes hx hy hk
    rw [h x y hxy, ← r.getD_run strokes' hx hy hk] at hb
    simpa [Array.getD, hc.alike.size, hc'.alike.size, hs] using hb
  · have hn := fun x y hxy hh => hi ⟨x,y,hxy,hh⟩
    rw [hc.bytes i fun x y hP => hn x y hP.2, hc'.bytes i fun x y hP => hn x y hP.2]

theorem fillRect_eq_foldl (r : Raster) (area : Rect) (c : Color) (places : List (Int32 × Int32))
    (h : ∀ x y : Int32, (x,y) ∈ places ↔ (area.intersected r.rect).Covers x.toInt y.toInt) :
    r.fillRect area c = places.foldl (fun s p => s.setPixel p.1 p.2 c) r := by
  have hrun : places.foldl (fun s p => s.setPixel p.1 p.2 c) r =
      r.run (places.map fun p => .pixel p.1 p.2 c) := by
    rw [run, List.foldl_map]
    rfl
  rw [hrun]
  change r.run [.rect area c] = _
  refine r.run_congr fun x y hxy => ?_
  have hcolor : ∀ s ∈ places.map fun p => Stroke.pixel p.1 p.2 c, s.color = c := fun s hs => by
    obtain ⟨p,-,rfl⟩ := List.mem_map.1 hs
    rfl
  have hin := (r.covers_rect x y).1 hxy
  have hw := r.width_lt
  have hh := r.height_lt
  rw [extentLimit] at hw hh
  have hx : (Int32.ofNat x).toInt = x := Int32.toInt_ofNat_of_lt (by omega)
  have hy : (Int32.ofNat y).toInt = y := Int32.toInt_ofNat_of_lt (by omega)
  have hp := h (.ofNat x) (.ofNat y)
  rw [hx, hy, Rect.covers_intersected] at hp
  rw [Stroke.lastColor_of_color (c := c) (by simp [Stroke.color]), Stroke.lastColor_of_color hcolor]
  congr 1
  simp only [List.any_eq_true, decide_eq_true_eq, List.mem_singleton, exists_eq_left, List.mem_map,
    eq_iff_iff]
  constructor
  · intro hc
    exact ⟨_,⟨_,hp.2 ⟨hc,hxy⟩,rfl⟩,hx.symm,hy.symm⟩
  · rintro ⟨_,⟨p,hm,rfl⟩,h1,h2⟩
    have hc := ((Rect.covers_intersected ..).1 ((h p.1 p.2).1 hm)).1
    rwa [← h1, ← h2] at hc

theorem colorAt_run (r : Raster) (strokes : List Stroke) {x y : Nat} (hx : x < r.width)
    (hy : y < r.height) : (r.run strokes).colorAt x y =
      ((Stroke.lastColor strokes x y).map r.format.quantize).getD (r.colorAt x y) := by
  have ha := (r.confined_run strokes).alike
  have hb := fun k hk => r.getD_run strokes hx hy (k := k) hk
  rw [colorAt, ha.format, ha.offset]
  refine (r.format.decode_congr _ _ hb).trans ?_
  cases Stroke.lastColor strokes x y <;> rfl

/-- Every image is the one that its own memory makes. -/
theorem ofMemory_self (r : Raster) : ofMemory r.id r.backing r.bytes r.width r.height r.stride
    r.format = .ok r := by
  have hm : max r.stride (r.width*r.format.bytesPerPixel) = r.stride := Nat.max_eq_left r.line_le
  have hd : ¬ (r.width = 0 ∨ r.height = 0 ∨ extentLimit ≤ r.width ∨ extentLimit ≤ r.height) := by
    have h1 := r.width_pos
    have h2 := r.width_lt
    have h3 := r.height_pos
    have h4 := r.height_lt
    omega
  have ho : ¬ sizeLimit ≤ max r.stride (r.width*r.format.bytesPerPixel)*r.height := by
    rw [hm]
    exact Nat.not_le.2 r.size_lt
  have hs : ¬ (r.stride < r.width*r.format.bytesPerPixel ∨
      r.bytes.size < max r.stride (r.width*r.format.bytesPerPixel)*r.height) := by
    rw [hm]
    have h1 := r.line_le
    have h2 := r.fits
    omega
  simp only [ofMemory, dif_neg r.format_valid, dif_neg hd, dif_neg ho, dif_neg hs]

/-- An image is a grid of pixels: no address and no slice is ever out of range, a pixel is there
exactly inside the image and has the color of the last stroke over it as the format holds it, or
else the color it had, filling a rectangle is setting its pixels, and no other byte changes. -/
theorem grid_of_strokes (r : Raster) (strokes : List Stroke) :
    r.run? strokes = some (r.run strokes) ∧
      (∀ x y : Int32, (r.run strokes).loadPixel? x y = some ((r.run strokes).pixel? x y)) ∧
      (∀ x y : Int32, (r.run strokes).pixel? x y =
        if (0 ≤ x.toInt ∧ x.toInt < r.width) ∧ 0 ≤ y.toInt ∧ y.toInt < r.height then
          some (((Stroke.lastColor strokes x.toInt y.toInt).map r.format.quantize).getD
            (r.format.decode fun k => r.bytes.getD (r.offset x.toInt.toNat y.toInt.toNat+k) 0))
        else none) ∧
      (∀ (area : Rect) (c : Color) (places : List (Int32 × Int32)),
        (∀ x y : Int32, (x,y) ∈ places ↔ (area.intersected r.rect).Covers x.toInt y.toInt) →
          (r.run strokes).fillRect area c =
            places.foldl (fun s p => s.setPixel p.1 p.2 c) (r.run strokes)) ∧
      (r.run strokes).Alike r ∧
      ∀ i, (∀ x y : Nat, (∃ s ∈ strokes, s.Covers x y) → r.rect.Covers x y → ¬ r.Holds i x y) →
        (r.run strokes).bytes[i]? = r.bytes[i]? := by
  have hc := r.confined_run strokes
  refine ⟨r.run?_eq strokes,(r.run strokes).loadPixel?_eq,fun x y => ?_,fun area c places h => ?_,
    hc.alike,fun i hi => hc.bytes i fun x y hP => hi x y hP.1 hP.2⟩
  · rw [pixel?, hc.alike.rect]
    by_cases hin : (0 ≤ x.toInt ∧ x.toInt < r.width) ∧ 0 ≤ y.toInt ∧ y.toInt < r.height
    · have hp : r.rect.containsPoint ⟨x,y⟩ = true :=
        decide_eq_true ((r.covers_rect x.toInt y.toInt).2 hin)
      obtain ⟨u,v,hx,hy,hu,hv⟩ := place_of_containsPoint hp
      rw [if_pos hp, if_pos hin, hx, hy, Int.toNat_natCast, Int.toNat_natCast,
        r.colorAt_run strokes hu hv]
      rfl
    · have hp : ¬ r.rect.containsPoint ⟨x,y⟩ = true := fun h =>
        hin ((r.covers_rect x.toInt y.toInt).1 (of_decide_eq_true h))
      rw [if_neg hp, if_neg hin]
  · exact (r.run strokes).fillRect_eq_foldl area c places (by rwa [hc.alike.rect])

end Raster

end InkCompositor
