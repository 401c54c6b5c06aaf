import Mathlib
import InkCompositor.Proofs.Raster.Painting
import InkCompositor.Raster.Lines

/-!
# Painting line by line

Going through the memory of an image line by line, with every address computed
and every slice checked, never fails and does what painting pixel by pixel does.
-/

set_option autoImplicit false

namespace InkCompositor

theorem chunks_append {α : Type} {n : Nat} (hn : 0 < n) {l : List α} (hl : l.length = n)
    (rest : List α) : chunks n (l++rest) = l :: chunks n rest := by
  have hd : (l++rest).length/n = rest.length/n+1 := by
    rw [List.length_append, hl, Nat.add_div_left _ hn]
  have ht : ∀ k, ((l++rest).drop ((k+1)*n)).take n = (rest.drop (k*n)).take n := fun k => by
    rw [Nat.add_mul, Nat.one_mul, Nat.add_comm, List.drop_append,
      List.drop_of_length_le (hl.trans_le (Nat.le_add_right _ _)), List.nil_append, hl,
      Nat.add_sub_cancel_left]
  rw [chunks, hd, List.range_succ_eq_map, List.map_cons, List.map_map, Nat.zero_mul, List.drop_zero,
    List.take_append_of_le_length hl.ge, List.take_of_length_le hl.le, chunks]
  congr 1
  exact List.map_congr_left fun k _ => ht k

theorem chunks_flatten {α : Type} {n : Nat} (hn : 0 < n) (ls : List (List α))
    (hl : ∀ l ∈ ls, l.length = n) : chunks n ls.flatten = ls := by
  induction ls with
  | nil => simp [chunks]
  | cons l ls ih =>
    rw [List.flatten_cons, chunks_append hn (hl l (by simp)), ih fun m hm => hl m (by simp [hm])]

theorem PixelFormat.bytesPerPixel_pos (f : PixelFormat) (h : f ≠ .invalid) :
    0 < f.bytesPerPixel := by
  cases f with
  | invalid => exact absurd rfl h
  | _ => decide

theorem mapM_eq_some {α β : Type} {f : α → Option β} {g : α → β} (l : List α)
    (h : ∀ a ∈ l, f a = some (g a)) : l.mapM f = some (l.map g) := by
  induction l with
  | nil => rfl
  | cons a l ih => simp [h a (by simp), ih fun b hb => h b (by simp [hb])]

theorem span_natCast (a n : Nat) : span a (a+n) = (List.range' a n).map Nat.cast := by
  rw [span, List.range'_eq_map_range, List.map_map, add_sub_cancel_left, Int.toNat_natCast]
  rfl

namespace Rect

theorem ofIntClamp_toInt (i : Int32) : Int32.ofIntClamp i.toInt = i := by
  have h1 := i.le_toInt
  have h2 := i.toInt_lt
  exact Int32.toInt_inj.1 (toInt_ofIntClamp (by omega) (by omega))

theorem Exact.ofEdges {r : Rect} (h : r.Exact) : ofEdges r.left r.top r.right r.bottom = r := by
  rw [Rect.ofEdges, h.right, h.bottom, add_sub_cancel_left, add_sub_cancel_left, left, top]
  simp only [ofIntClamp_toInt]

theorem Exact.intersected {r s : Rect} (h : r.Exact) (hs : ∀ x y, r.Covers x y → s.Covers x y) :
    r.intersected s = r := by
  have hl := h.left_lt
  have ht := h.top_lt
  have h1 := hs r.left r.top ⟨le_rfl,hl,le_rfl,ht⟩
  have h2 := hs (r.right-1) (r.bottom-1) ⟨by omega,by omega,by omega,by omega⟩
  have hi : r.intersects s = true :=
    (intersects_iff r s).2 ⟨r.left,r.top,⟨le_rfl,hl,le_rfl,ht⟩,h1⟩
  obtain ⟨h3,-,h4,-⟩ := h1
  obtain ⟨-,h5,-,h6⟩ := h2
  rw [intersected_eq hi, max_eq_left h3, max_eq_left h4, min_eq_left (by omega),
    min_eq_left (by omega), h.ofEdges]

theorem isEmpty_or_exact (r s : Rect) :
    (r.intersected s).isEmpty = true ∨ (r.intersected s).Exact := by
  by_cases h : r.intersects s = true
  · exact .inr (exact_intersected h)
  · rw [intersected, if_neg h]
    exact .inl rfl

end Rect

namespace Raster

theorem Alike.symm {r s : Raster} (h : r.Alike s) : s.Alike r :=
  ⟨h.id.symm,h.backing.symm,h.width.symm,h.height.symm,h.stride.symm,h.format.symm,h.size.symm⟩

theorem Alike.eq {r s : Raster} (h : r.Alike s) (hb : r.bytes = s.bytes) : r = s := by
  obtain ⟨h1,h2,h3,h4,h5,h6,-⟩ := h
  cases r
  cases s
  simp only at h1 h2 h3 h4 h5 h6 hb
  subst h1 h2 h3 h4 h5 h6 hb
  rfl

theorem Alike.offset {r s : Raster} (h : r.Alike s) (x y : Nat) : r.offset x y = s.offset x y := by
  rw [Raster.offset, Raster.offset, h.stride, h.format]

theorem word?_eq {n : Nat} (h : n < sizeLimit) : word? n = some n := if_pos h

theorem word_natCast {n : Nat} (h : n < sizeLimit) : word n = n := by
  rw [word, ← Int.natCast_mod, Int.toNat_natCast, Nat.mod_eq_of_lt h]

section Slices

variable (r : Raster) {x y n : Nat}

theorem lt_sizeLimit (h : n ≤ r.width ∨ n ≤ r.height) : n < sizeLimit := by
  have hw := r.width_lt
  have hh := r.height_lt
  simp only [extentLimit, sizeLimit] at *
  omega

theorem line_stop_le (hx : x+n ≤ r.width) (hy : y < r.height) :
    r.offset x y+n*r.format.bytesPerPixel ≤ r.size := by
  have h1 := r.line_le
  have h2 : (x+n)*r.format.bytesPerPixel ≤ r.width*r.format.bytesPerPixel :=
    Nat.mul_le_mul_right _ hx
  have h3 : (y+1)*r.stride ≤ r.height*r.stride := Nat.mul_le_mul_right _ hy
  rw [Nat.add_mul] at h2
  rw [Nat.add_mul, Nat.one_mul, Nat.mul_comm r.height] at h3
  rw [offset, size]
  omega

theorem start?_eq (hx : x ≤ r.width) (hy : y < r.height) : r.start? x y = some (r.offset x y) := by
  have h := r.line_stop_le (n := 0) hx hy
  have hs := r.size_lt
  rw [Nat.zero_mul, Nat.add_zero] at h
  simp only [size, offset] at h
  rw [start?, word_natCast (r.lt_sizeLimit (.inr hy.le)), word_natCast (r.lt_sizeLimit (.inl hx)),
    word?_eq (by omega), word?_eq (by omega)]
  exact word?_eq (by omega)

theorem ends?_eq (hx : x+n ≤ r.width) (hy : y < r.height) : r.ends? x y n =
    some (r.offset x y,r.offset x y+n*r.format.bytesPerPixel) := by
  have h := r.line_stop_le hx hy
  have hs := r.size_lt
  rw [size] at h
  rw [ends?, r.start?_eq (by omega) hy, word_natCast (r.lt_sizeLimit (.inl (by omega))),
    word?_eq (by omega)]
  simp only [Option.bind_eq_bind, Option.bind_some]
  rw [word?_eq (by omega)]
  rfl

theorem load?_eq {start stop : Nat} (h : start ≤ stop) (hs : stop ≤ r.bytes.size) :
    r.load? start stop = some (r.bytes.extract start stop).toList := if_pos ⟨h,hs⟩

theorem overwrite?_eq {start stop : Nat} {l : List UInt8} (h : start+l.length = stop)
    (hs : stop ≤ r.bytes.size) : r.overwrite? start stop l =
      some (r.withBytes (writeAt r.bytes start l) (r.size_overwritten start l)) :=
  if_pos ⟨by omega,hs,by omega⟩

end Slices

theorem writeAt_append (bytes : Array UInt8) (start : Nat) (l m : List UInt8) :
    writeAt bytes start (l++m) = writeAt (writeAt bytes start l) (start+l.length) m := by
  induction l generalizing bytes start with
  | nil => rfl
  | cons b l ih =>
    rw [List.cons_append, writeAt, writeAt, ih, List.length_cons, Nat.add_assoc, Nat.add_comm 1]

theorem offset_succ (r : Raster) (x y : Nat) :
    r.offset (x+1) y = r.offset x y+r.format.bytesPerPixel := by
  rw [offset, offset, Nat.add_mul, Nat.one_mul, Nat.add_assoc]

def lineBytes (pixel : Nat → Nat → List UInt8) (x y n : Nat) : List UInt8 :=
  (List.range' x n).flatMap fun x => pixel x y

section LineBytes

variable {pixel : Nat → Nat → List UInt8} {b : Nat}

theorem lineBytes_succ (pixel : Nat → Nat → List UInt8) (x y n : Nat) :
    lineBytes pixel x y (n+1) = pixel x y++lineBytes pixel (x+1) y n := by
  rw [lineBytes, List.range'_succ, List.flatMap_cons, lineBytes]

theorem length_lineBytes (hp : ∀ x y, (pixel x y).length = b) (x y n : Nat) :
    (lineBytes pixel x y n).length = n*b := by
  induction n generalizing x with
  | zero => simp [lineBytes]
  | succ n ih =>
    rw [lineBytes_succ, List.length_append, hp, ih, Nat.add_mul, Nat.one_mul, Nat.add_comm]

theorem foldl_writeAt_line (r : Raster) (hp : ∀ x y, (pixel x y).length = r.format.bytesPerPixel)
    (bytes : Array UInt8) (x y n : Nat) :
    ((List.range' x n).map fun x => (x,y)).foldl
        (fun bytes p => writeAt bytes (r.offset p.1 p.2) (pixel p.1 p.2)) bytes =
      writeAt bytes (r.offset x y) (lineBytes pixel x y n) := by
  induction n generalizing x bytes with
  | zero => rfl
  | succ n ih =>
    rw [List.range'_succ, List.map_cons, List.foldl_cons, ih, lineBytes_succ, writeAt_append, hp,
      offset_succ]

end LineBytes

theorem extract_pixel (r : Raster) {x y : Nat} (hx : x < r.width) (hy : y < r.height) :
    (r.bytes.extract (r.offset x y) (r.offset x y+r.format.bytesPerPixel)).toList =
      r.pixelBytes x y := by
  have h := (r.line_stop_le (n := 1) hx hy).trans r.fits
  rw [Nat.one_mul] at h
  apply List.ext_getElem
  · rw [length_pixelBytes, Array.length_toList, Array.size_extract, Nat.min_eq_left h,
      Nat.add_sub_cancel_left]
  · intro k h1 h2
    rw [length_pixelBytes] at h2
    simp [pixelBytes, Array.getD, show r.offset x y+k < r.bytes.size by omega]

theorem extract_line (r : Raster) {x y n : Nat} (hx : x+n ≤ r.width) (hy : y < r.height) :
    (r.bytes.extract (r.offset x y) (r.offset x y+n*r.format.bytesPerPixel)).toList =
      lineBytes r.pixelBytes x y n := by
  induction n generalizing x with
  | zero => simp [lineBytes]
  | succ n ih =>
    have hs : r.offset x y+(n+1)*r.format.bytesPerPixel =
        r.offset (x+1) y+n*r.format.bytesPerPixel := by
      rw [offset_succ, Nat.add_mul, Nat.one_mul, Nat.add_assoc, Nat.add_comm (n*_)]
    rw [lineBytes_succ, ← ih (x := x+1) (by omega), ← r.extract_pixel (by omega) hy, hs,
      offset_succ, ← Array.toList_append, Array.extract_append_extract,
      Nat.min_eq_left (Nat.le_add_right _ _), Nat.max_eq_right (Nat.le_add_right _ _)]

theorem foldlM_lines (r : Raster) {pixel : Nat → Nat → List UInt8}
    (hp : ∀ x y, (pixel x y).length = r.format.bytesPerPixel) {x n : Nat} (hx : x+n ≤ r.width)
    {line : Int → Option (List UInt8)} (lines : List Nat) (hy : ∀ y ∈ lines, y < r.height)
    (hl : ∀ y ∈ lines, line y = some (lineBytes pixel x y n)) {s : Raster} (hs : s.Alike r) :
    ∃ t : Raster, t.Alike r ∧
      (lines.map Nat.cast).foldlM (fun s y => do
        let stored ← line y
        let (start,stop) ← s.ends? x y n
        s.overwrite? start stop stored) s = some t ∧
      t.bytes = (lines.flatMap fun y => (List.range' x n).map fun x => (x,y)).foldl
        (fun bytes p => writeAt bytes (r.offset p.1 p.2) (pixel p.1 p.2)) s.bytes := by
  induction lines generalizing s with
  | nil => exact ⟨s,hs,rfl,rfl⟩
  | cons y lines ih =>
    have hy' : y < s.height := hs.height ▸ hy y (by simp)
    have hx' : x+n ≤ s.width := hs.width ▸ hx
    have hfit := (s.line_stop_le hx' hy').trans s.fits
    have hlen := length_lineBytes hp x y n
    rw [← hs.format] at hlen
    obtain ⟨t,ht,hrun,hbytes⟩ := ih (fun z hz => hy z (by simp [hz]))
      (fun z hz => hl z (by simp [hz]))
      ((s.withBytes_alike (writeAt s.bytes (s.offset x y) (lineBytes pixel x y n))
        (s.size_overwritten ..)).trans hs)
    refine ⟨t,ht,?_,?_⟩
    · rw [List.map_cons, List.foldlM_cons, hl y (by simp), s.ends?_eq hx' hy']
      simp only [Option.bind_eq_bind, Option.bind_some]
      rw [s.overwrite?_eq (by rw [hlen]) hfit]
      exact hrun
    · rw [hbytes, List.flatMap_cons, List.foldl_append, r.foldl_writeAt_line hp, hs.offset]
      rfl

theorem paint_eq_self (r : Raster) {area : Rect} (ha : area.isEmpty = true)
    (pixel : Nat → Nat → List UInt8) : r.paint area pixel = r := by
  refine (r.paint_alike area pixel).eq ?_
  have hn : r.pixelsIn area = [] := List.eq_nil_iff_forall_not_mem.2 fun p hm =>
    Rect.not_covers_of_isEmpty ha _ _ ((r.mem_pixelsIn area p.1 p.2).1 hm).1
  simp [paint, withBytes, store, hn]

theorem paint_intersected (r : Raster) (area : Rect) (pixel : Nat → Nat → List UInt8) :
    r.paint (area.intersected r.rect) pixel = r.paint area pixel := by
  have hc : (area.intersected r.rect).intersected r.rect = area.intersected r.rect := by
    rcases Rect.isEmpty_or_exact area r.rect with h | h
    · have hn : area.intersects r.rect = false := by simpa [Rect.isEmpty_intersected] using h
      have h' : Rect.none.intersects r.rect = false := rfl
      simp [Rect.intersected, hn, h']
    · exact h.intersected fun x y hx => ((Rect.covers_intersected ..).1 hx).2
  simp only [paint, pixelsIn, hc]

/-- Where an area inside the image lies: from column `x` and line `y` on, `n` by `m` pixels. -/
theorem placed (r : Raster) {area : Rect} (ha : area.Exact)
    (hin : ∀ x y, area.Covers x y → r.rect.Covers x y) : ∃ x y n m : Nat, area.left = x ∧
      area.top = y ∧ area.width.toInt = n ∧ area.height.toInt = m ∧ x+n ≤ r.width ∧
      y+m ≤ r.height ∧ span area.top area.bottom = (List.range' y m).map Nat.cast := by
  have hleft := ha.left_lt
  have htop := ha.top_lt
  have h1 := (r.covers_rect _ _).1 (hin area.left area.top ⟨le_rfl,hleft,le_rfl,htop⟩)
  have h2 := (r.covers_rect _ _).1 (hin (area.right-1) (area.bottom-1)
    ⟨by omega,by omega,by omega,by omega⟩)
  have hr := ha.right
  have hb := ha.bottom
  have hw := ha.width_pos
  have hh := ha.height_pos
  obtain ⟨x,hx⟩ := Int.eq_ofNat_of_zero_le (show 0 ≤ area.left by omega)
  obtain ⟨y,hy⟩ := Int.eq_ofNat_of_zero_le (show 0 ≤ area.top by omega)
  obtain ⟨n,hn⟩ := Int.eq_ofNat_of_zero_le hw.le
  obtain ⟨m,hm⟩ := Int.eq_ofNat_of_zero_le hh.le
  exact ⟨x,y,n,m,hx,hy,hn,hm,by omega,by omega,by rw [hb, hy, hm, span_natCast]⟩

theorem replaceLines?_eq (r : Raster) {area : Rect} (ha : area.isEmpty = true ∨ area.Exact)
    (hin : ∀ x y, area.Covers x y → r.rect.Covers x y) {pixel : Nat → Nat → List UInt8}
    (hp : ∀ x y, (pixel x y).length = r.format.bytesPerPixel) {line : Int → Option (List UInt8)}
    (hl : area.Exact → ∀ y : Nat, area.top ≤ y → y < area.bottom →
      line y = some (lineBytes pixel area.left.toNat y area.width.toInt.toNat)) :
    r.replaceLines? area line = some (r.paint area pixel) := by
  rcases ha with ha | ha
  · rw [replaceLines?, if_pos ha, r.paint_eq_self ha]
  obtain ⟨x,y,n,m,hx,hy,hn,hm,hxn,hym,hspan⟩ := r.placed ha hin
  have hr := ha.right
  have hb := ha.bottom
  have hmem : ∀ z ∈ List.range' y m, y ≤ z ∧ z < y+m := fun z hz => List.mem_range'_1.1 hz
  obtain ⟨t,ht,hrun,hbytes⟩ := r.foldlM_lines hp (x := x) (n := n) hxn
    (List.range' y m) (fun z hz => by have := hmem z hz; omega) (fun z hz => by
      have := hl ha z (by have := hmem z hz; omega) (by have := hmem z hz; omega)
      rwa [hx, hn, Int.toNat_natCast, Int.toNat_natCast] at this) (.refl r)
  rw [replaceLines?, if_neg (by rw [ha.isEmpty]; nofun), hspan, hx, hn, hrun]
  refine congrArg some ((ht.trans (r.paint_alike area pixel).symm).eq (hbytes.trans ?_))
  change _ = r.store pixel (r.pixelsIn area)
  rw [store, pixelsIn, ha.intersected hin]
  simp only [Rect.left, Rect.top] at hx hy
  simp only [hx, hy, hn, hm, Int.toNat_natCast]

theorem fillLines?_eq (r : Raster) (area : Rect) (c : Color) :
    r.fillLines? area c = some (r.fillRect area c) := by
  have hp : ∀ x y : Nat, ((fun _ _ => r.format.encode c : Nat → Nat → List UInt8) x y).length =
      r.format.bytesPerPixel := fun _ _ => r.format.encode_length c
  rw [fillLines?, r.replaceLines?_eq (Rect.isEmpty_or_exact ..)
    (fun x y h => ((Rect.covers_intersected ..).1 h).2) hp, paint_intersected, fillRect]
  intro he y h1 h2
  obtain ⟨n,hn⟩ := Int.eq_ofNat_of_zero_le he.width_pos.le
  have hlt : n < sizeLimit := by
    have hw := (area.intersected r.rect).width_le
    rw [sizeLimit]
    omega
  rw [hn, word_natCast hlt, Int.toNat_natCast, lineBytes, List.flatMap_def,
    List.map_const', List.length_range']

theorem place_of_containsPoint {r : Raster} {x y : Int32}
    (h : r.rect.containsPoint ⟨x,y⟩ = true) :
    ∃ u v : Nat, x.toInt = u ∧ y.toInt = v ∧ u < r.width ∧ v < r.height := by
  have hc := (r.covers_rect x.toInt y.toInt).1 (of_decide_eq_true h)
  exact ⟨x.toInt.toNat,y.toInt.toNat,by omega,by omega,by omega,by omega⟩

theorem load?_tail (r : Raster) {u v : Nat} (hu : u < r.width) (hv : v < r.height) :
    ∃ tail : List UInt8, r.load? (r.offset u v) r.bytes.size = some tail ∧
      r.format.bytesPerPixel ≤ tail.length ∧
        ∀ k < r.format.bytesPerPixel, tail.getD k 0 = r.bytes.getD (r.offset u v+k) 0 := by
  have hfit := (r.line_stop_le (n := 1) hu hv).trans r.fits
  rw [Nat.one_mul] at hfit
  refine ⟨_,r.load?_eq (by omega) le_rfl,?_,fun k hk => ?_⟩
  · rw [Array.length_toList, Array.size_extract]
    omega
  · simp [List.getD, Array.getD, show r.offset u v+k < r.bytes.size by omega,
      show k < r.bytes.size-r.offset u v by omega]

theorem storePixel?_eq (r : Raster) (x y : Int32) (c : Color) :
    r.storePixel? x y c = some (r.setPixel x y c) := by
  by_cases h : r.rect.containsPoint ⟨x,y⟩ = true
  · obtain ⟨u,v,hx,hy,hu,hv⟩ := place_of_containsPoint h
    obtain ⟨tail,ht,hlen,-⟩ := r.load?_tail hu hv
    have hfit := (r.line_stop_le (n := 1) hu hv).trans r.fits
    rw [Nat.one_mul] at hfit
    simp only [storePixel?, if_pos h, setPixel, hx, hy, r.start?_eq hu.le hv, Option.bind_eq_bind,
      Option.bind_some, ht, r.format.encode_length, hlen, if_true, Int.toNat_natCast]
    exact r.overwrite?_eq (by rw [r.format.encode_length]) hfit
  · rw [storePixel?, if_neg h, setPixel, if_neg h]

theorem loadPixel?_eq (r : Raster) (x y : Int32) : r.loadPixel? x y = some (r.pixel? x y) := by
  by_cases h : r.rect.containsPoint ⟨x,y⟩ = true
  · obtain ⟨u,v,hx,hy,hu,hv⟩ := place_of_containsPoint h
    obtain ⟨tail,ht,hlen,hbytes⟩ := r.load?_tail hu hv
    rw [loadPixel?, if_pos h, pixel?, if_pos h, hx, hy, r.start?_eq hu.le hv]
    simp only [Option.bind_eq_bind, Option.bind_some, ht, PixelFormat.decode?, if_pos hlen,
      Int.toNat_natCast, colorAt, r.format.decode_congr _ _ hbytes]
  · rw [loadPixel?, if_neg h, pixel?, if_neg h]

theorem decode?_pixelBytes (r : Raster) (x y : Nat) :
    r.format.decode? (r.pixelBytes x y) = some (r.colorAt x y) := by
  rw [PixelFormat.decode?, if_pos (r.length_pixelBytes x y).ge, r.decode_pixelBytes]

theorem chunks_lineBytes (r : Raster) (x y n : Nat) :
    chunks r.format.bytesPerPixel (lineBytes r.pixelBytes x y n) =
      (List.range' x n).map fun x => r.pixelBytes x y := by
  rw [lineBytes, List.flatMap_def, chunks_flatten (r.format.bytesPerPixel_pos r.format_valid)]
  intro l hl
  obtain ⟨x,-,rfl⟩ := List.mem_map.1 hl
  exact r.length_pixelBytes x y

theorem recode?_lineBytes (r : Raster) (target : PixelFormat) (x y n : Nat) :
    r.format.recode? target (lineBytes r.pixelBytes x y n) =
      some (lineBytes (fun x y => target.encode (r.colorAt x y)) x y n) := by
  have hm : ((List.range' x n).map fun x => r.pixelBytes x y).mapM r.format.decode? =
      some ((List.range' x n).map fun x => r.colorAt x y) := by
    rw [List.mapM_map]
    exact mapM_eq_some _ fun x _ => r.decode?_pixelBytes x y
  rw [PixelFormat.recode?, r.chunks_lineBytes, hm]
  simp only [Option.bind_eq_bind, Option.bind_some, List.flatMap_map, lineBytes]

theorem covers_movedTo (src : Raster) (corner : Point) {x y : Int} (hx : x < 2147483647)
    (hy : y < 2147483647) : (src.rect.movedTo corner).Covers x y ↔
      src.rect.Covers (x-corner.x.toInt) (y-corner.y.toInt) := by
  have hw := src.width_lt
  have hh := src.height_lt
  have h1 := corner.x.le_toInt
  have h2 := corner.y.le_toInt
  rw [covers_rect, Rect.Covers, Rect.right_eq, Rect.bottom_eq]
  simp only [Rect.movedTo, Rect.left, Rect.top, rect, toInt_ofNat_width, toInt_ofNat_height]
  omega

def Drawn (r src : Raster) (corner : Point) (clip : Rect) (x y : Int) : Prop :=
  clip.Covers x y ∧ r.rect.Covers x y ∧
    src.rect.Covers (x-corner.x.toInt) (y-corner.y.toInt)

instance (r src : Raster) (corner : Point) (clip : Rect) (x y : Int) :
    Decidable (Drawn r src corner clip x y) := inferInstanceAs (Decidable (_ ∧ _ ∧ _))

theorem covers_drawn (r src : Raster) (corner : Point) (clip : Rect) (x y : Int) :
    ((clip.intersected r.rect).intersected (src.rect.translated corner.x corner.y)).Covers x y ↔
      Drawn r src corner clip x y := by
  rw [Rect.covers_intersected, Rect.covers_intersected, translated_rect, and_assoc, Drawn]
  refine and_congr_right fun _ => and_congr_right fun hr => ?_
  have hin := (r.covers_rect x y).1 hr
  have hw := r.width_lt
  have hh := r.height_lt
  rw [extentLimit] at hw hh
  exact src.covers_movedTo corner (by omega) (by omega)

theorem ofInts?_natCast {u v : Nat} (hu : u < extentLimit) (hv : v < extentLimit) :
    Point.ofInts? u v = some ⟨.ofNat u,.ofNat v⟩ := by
  have h1 := Int32.toInt_minValue
  have h2 := Int32.toInt_maxValue
  rw [extentLimit] at hu hv
  rw [Point.ofInts?, if_pos (by omega)]
  rfl

theorem lineBytes_congr {p q : Nat → Nat → List UInt8} {x u y v n : Nat}
    (h : ∀ k < n, p (x+k) y = q (u+k) v) : lineBytes p x y n = lineBytes q u v n := by
  rw [lineBytes, lineBytes, List.range'_eq_map_range, List.range'_eq_map_range, List.flatMap_map,
    List.flatMap_map]
  exact List.flatMap_congr fun k hk => h k (List.mem_range.1 hk)

section Drawing

variable {src : Raster} {corner : Point} {area : Rect}

theorem placedLine?_eq (he : area.Exact) (h0 : 0 ≤ area.left)
    (hin : ∀ x y, area.Covers x y → src.rect.Covers (x-corner.x.toInt) (y-corner.y.toInt)) {y : Nat}
    (htop : area.top ≤ y) (hbottom : y < area.bottom) :
    ∃ u v n : Nat, area.width.toInt.toNat = n ∧
      src.placedLine? corner area y = some (lineBytes src.pixelBytes u v n) ∧
      ∀ p : Nat → Nat → List UInt8, lineBytes p u v n =
        lineBytes (fun x y => p (x-corner.x.toInt).toNat (y-corner.y.toInt).toNat)
          area.left.toNat y n := by
  have hleft := he.left_lt
  have hr := he.right
  have h1 := (src.covers_rect _ _).1 (hin area.left y ⟨le_rfl,hleft,htop,hbottom⟩)
  have h2 := (src.covers_rect _ _).1 (hin (area.right-1) y ⟨by omega,by omega,htop,hbottom⟩)
  obtain ⟨u,hu⟩ := Int.eq_ofNat_of_zero_le h1.1.1
  obtain ⟨v,hv⟩ := Int.eq_ofNat_of_zero_le h1.2.1
  obtain ⟨n,hn⟩ := Int.eq_ofNat_of_zero_le he.width_pos.le
  have hx : u+n ≤ src.width := by omega
  have hy : v < src.height := by omega
  have hw := src.width_lt
  have hh := src.height_lt
  have hfit := (src.line_stop_le hx hy).trans src.fits
  refine ⟨u,v,n,by omega,?_,fun p => lineBytes_congr fun k hk => ?_⟩
  · rw [placedLine?, hu, hv, hn, ofInts?_natCast (by omega) (by omega)]
    simp only [Option.bind_eq_bind, Option.bind_some]
    rw [Int32.toInt_ofNat_of_lt (show u < extentLimit by omega),
      Int32.toInt_ofNat_of_lt (show v < extentLimit by omega), src.ends?_eq hx hy]
    simp only [Option.bind_some]
    rw [src.load?_eq (Nat.le_add_right _ _) hfit, src.extract_line hx hy]
  · rw [show ((area.left.toNat+k : Nat) : Int)-corner.x.toInt = (u+k : Nat) by omega, hv,
      Int.toNat_natCast, Int.toNat_natCast]

end Drawing

/-- Drawing line by line never fails. -/
theorem drawLines?_eq (r src : Raster) (corner : Point) (clip : Rect) :
    r.drawLines? src corner clip = some (r.draw src corner clip) := by
  by_cases hid : src.id = r.id
  · rw [drawLines?, if_pos hid, draw, if_pos hid]
  rw [drawLines?, if_neg hid, draw, if_neg hid]
  have harea := fun x y => (covers_drawn r src corner clip x y).1
  have he := Rect.isEmpty_or_exact (clip.intersected r.rect)
    (src.rect.translated corner.x corner.y)
  generalize (clip.intersected r.rect).intersected (src.rect.translated corner.x corner.y) = area
    at harea he
  have h0 : area.Exact → 0 ≤ area.left := fun he =>
    ((r.covers_rect _ _).1 (harea _ _ ⟨le_rfl,he.left_lt,le_rfl,he.top_lt⟩).2.1).1.1
  have hin := fun x y h => (harea x y h).2.2
  by_cases hf : src.format = r.format
  · rw [if_pos hf]
    refine r.replaceLines?_eq he (fun x y h => (harea x y h).2.1)
      (fun _ _ => by rw [length_pixelBytes, hf]) fun he y htop hbottom => ?_
    obtain ⟨u,v,n,hn,hline,hp⟩ := placedLine?_eq he (h0 he) hin htop hbottom
    simp only [hline, hf, if_true, Option.bind_eq_bind, Option.bind_some, hp, hn]
  · rw [if_neg hf]
    refine r.replaceLines?_eq he (fun x y h => (harea x y h).2.1)
      (fun _ _ => PixelFormat.encode_length ..) fun he y htop hbottom => ?_
    obtain ⟨u,v,n,hn,hline,hp⟩ := placedLine?_eq he (h0 he) hin htop hbottom
    simp only [hline, hf, if_false, Option.bind_eq_bind, Option.bind_some, src.recode?_lineBytes]
    rw [hp, hn]

end Raster

end InkCompositor
