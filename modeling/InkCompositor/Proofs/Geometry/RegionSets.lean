import Mathlib
import InkCompositor.Proofs.Geometry.Pieces

/-!
# Regions as sets of pixels

While what is added stays inside a rectangle whose edges are in range, a region
is exactly the set of pixels that the set operations give: the rectangles it is
stored as never overlap, and area, bounds and intersection can be read off them.
-/

set_option autoImplicit false

namespace InkCompositor

open Rect

namespace Rect

theorem pixels_eq (r : Rect) :
    r.pixels = ↑(Finset.Ico r.left r.right ×ˢ Finset.Ico r.top r.bottom) := by
  ext ⟨x,y⟩
  simp [Covers, and_assoc]

theorem pixels_finite (r : Rect) : r.pixels.Finite := by
  rw [pixels_eq]
  exact Finset.finite_toSet _

theorem Exact.ncard_pixels {r : Rect} (h : r.Exact) : (r.pixels.ncard : Int) = r.area := by
  have hw := h.width_pos
  have hh := h.height_pos
  have h1 : (r.width.toInt.toNat : Int) = r.width.toInt := Int.toNat_of_nonneg (by omega)
  have h2 : (r.height.toInt.toNat : Int) = r.height.toInt := Int.toNat_of_nonneg (by omega)
  rw [pixels_eq, Set.ncard_coe_finset, Finset.card_product, Int.card_Ico, Int.card_Ico, h.right,
    h.bottom, add_sub_cancel_left, add_sub_cancel_left, Nat.cast_mul, h1, h2]
  simp [area, h.isEmpty]

theorem Exact.pixels_subset_iff {r : Rect} (h : r.Exact) (c : Rect) : r.pixels ⊆ c.pixels ↔
    c.left ≤ r.left ∧ c.top ≤ r.top ∧ r.right ≤ c.right ∧ r.bottom ≤ c.bottom := by
  have h1 := h.left_lt
  have h2 := h.top_lt
  constructor
  · intro hs
    have hl := hs (show (r.left,r.top) ∈ r.pixels from ⟨le_rfl,h1,le_rfl,h2⟩)
    have hr := hs (show (r.right-1,r.bottom-1) ∈ r.pixels from
      ⟨show r.left ≤ r.right-1 by omega,show r.right-1 < r.right by omega,
        show r.top ≤ r.bottom-1 by omega,show r.bottom-1 < r.bottom by omega⟩)
    simp only [mem_pixels, Covers] at hl hr
    omega
  · rintro hc ⟨x,y⟩ hp
    simp only [mem_pixels, Covers] at hp ⊢
    omega

theorem Fits.pixels_subset {b r : Rect} (hb : b.Bounded) (h : Fits b r) : r.pixels ⊆ b.pixels := by
  have h1 := h.exact.width_pos
  have h2 := h.exact.height_pos
  have h3 := b.left_range
  have h4 := b.top_range
  have h5 := hb.right_le
  have h6 := hb.bottom_le
  have hi := h.inside
  unfold Inside at hi
  rw [h.exact.pixels_subset_iff, h.exact.right, h.exact.bottom, right_eq b, bottom_eq b]
  omega

theorem pixels_of_isEmpty {r : Rect} (h : r.isEmpty = true) : r.pixels = ∅ := by
  ext ⟨x,y⟩
  simpa using not_covers_of_isEmpty h x y

end Rect

variable {b : Rect}

theorem cover_finite (l : List Rect) : (cover l).Finite := by
  induction l with
  | nil => simp
  | cons r l ih => simpa using ⟨r.pixels_finite,ih⟩

theorem tidy_area (l : List Rect) (h : Tidy b l) :
    l.foldr (fun r n => r.area+n) 0 = ((cover l).ncard : Int) := by
  induction l with
  | nil => simp
  | cons r l ih =>
    obtain ⟨hr,hd,hl⟩ := (tidy_cons r l).1 h
    rw [List.foldr_cons, cover_cons,
      Set.ncard_union_eq hd r.pixels_finite (cover_finite l), ih hl, Nat.cast_add,
      hr.exact.ncard_pixels]

theorem cover_subset (hb : b.Bounded) (l : List Rect) (h : Tidy b l) : cover l ⊆ b.pixels := by
  rintro p ⟨r,hr,hp⟩
  exact (h.fits r hr).pixels_subset hb hp

theorem cut_tidy (s : Rect) (l : List Rect) (h : Tidy b l) : Tidy b (l.flatMap (·.without s)) := by
  induction l with
  | nil => exact tidy_nil
  | cons r l ih =>
    obtain ⟨hr,hd,hl⟩ := (tidy_cons r l).1 h
    rw [List.flatMap_cons, tidy_append, cover_without,
      cover_flatMap l _ s.pixels (fun q _ => cover_without q s)]
    exact ⟨⟨fun p hp => hr.of_mem_without hp,pairwise_without r s⟩,ih hl,
      hd.mono Set.sdiff_subset Set.sdiff_subset⟩

theorem clip_tidy (c : Rect) (l : List Rect) (h : Tidy b l) :
    Tidy b ((l.map (·.intersected c)).filter (!·.isEmpty)) ∧
      cover ((l.map (·.intersected c)).filter (!·.isEmpty)) = cover l ∩ c.pixels := by
  induction l with
  | nil => simp [tidy_nil]
  | cons r l ih =>
    obtain ⟨hr,hd,hl⟩ := (tidy_cons r l).1 h
    obtain ⟨h1,h2⟩ := ih hl
    rw [List.map_cons]
    by_cases hi : r.intersects c = true
    · have he := edged_intersected hi
      have hin : (r.intersected c).Inside r := by
        rw [intersected_eq hi]
        exact inside_of_edged hr.exact he (by omega) (by omega) (by omega) (by omega)
      rw [List.filter_cons_of_pos (by rw [isEmpty_intersected, hi]; rfl), tidy_cons, cover_cons, h2,
        pixels_intersected, cover_cons]
      refine ⟨⟨⟨exact_intersected hi,hin.trans hr.inside⟩,?_,h1⟩,?_⟩
      · exact hd.mono Set.inter_subset_left Set.inter_subset_left
      · rw [Set.union_inter_distrib_right]
    · rw [List.filter_cons_of_neg (by rw [isEmpty_intersected]; simpa using hi)]
      have hr' : r.pixels ∩ c.pixels = ∅ := by
        rw [← pixels_intersected, pixels_of_isEmpty]
        rw [isEmpty_intersected]
        simpa using hi
      exact ⟨h1,by rw [h2, cover_cons, Set.union_inter_distrib_right, hr', Set.empty_union]⟩

namespace Region

def pixels (g : Region) : Set (Int × Int) := cover g.rects

@[simp] theorem pixels_empty : empty.pixels = ∅ := cover_nil

theorem foldl_without_tidy (rects pieces : List Rect) (h : Tidy b pieces) :
    Tidy b (rects.foldl (fun pieces s => pieces.flatMap (·.without s)) pieces) := by
  induction rects generalizing pieces with
  | nil => exact h
  | cons s rects ih => exact ih _ (cut_tidy s pieces h)

theorem cover_foldl_without (rects pieces : List Rect) :
    cover (rects.foldl (fun pieces s => pieces.flatMap (·.without s)) pieces) =
      cover pieces \ cover rects := by
  induction rects generalizing pieces with
  | nil => simp
  | cons s rects ih =>
    rw [List.foldl_cons, ih, cover_flatMap pieces _ s.pixels (fun q _ => cover_without q s),
      cover_cons, Set.sdiff_sdiff]

theorem cover_uncovered (rects : List Rect) (r : Rect) :
    cover (uncovered rects r) = r.pixels \ cover rects := by
  rw [uncovered, cover_foldl_without, cover_cons, cover_nil, Set.union_empty]

theorem uncovered_tidy (rects : List Rect) {r : Rect} (h : Fits b r) :
    Tidy b (uncovered rects r) := by
  apply foldl_without_tidy
  rw [tidy_cons]
  exact ⟨h,by simp,tidy_nil⟩

theorem cover_eq_empty_iff (l : List Rect) (h : Tidy b l) : cover l = ∅ ↔ l = [] := by
  constructor
  · intro hc
    cases l with
    | nil => rfl
    | cons r l =>
      have hr := (h.fits r (by simp)).exact
      have hm : (r.left,r.top) ∈ cover (r :: l) :=
        ⟨r,by simp,le_rfl,hr.left_lt,le_rfl,hr.top_lt⟩
      simp [hc] at hm
  · rintro rfl
    exact cover_nil

theorem add_tidy {g : Region} {r : Rect} (hb : b.Bounded) (h : Tidy b g.rects)
    (hr : r.isEmpty = true ∨ r.Inside b) :
    Tidy b (g.add r).rects ∧ (g.add r).pixels = g.pixels ∪ r.pixels := by
  by_cases he : r.isEmpty = true
  · simp [add, he, h, pixels_of_isEmpty he]
  · have hf := fits_of_inside hb (Bool.eq_false_iff.2 he) (hr.resolve_left he)
    have hc := cover_uncovered g.rects r
    by_cases hn : (uncovered g.rects r).isEmpty = true
    · rw [List.isEmpty_iff] at hn
      rw [hn, cover_nil, eq_comm, Set.sdiff_eq_empty] at hc
      rw [add, if_neg he, hn, if_pos List.isEmpty_nil]
      exact ⟨h,(Set.union_eq_left.2 hc).symm⟩
    · rw [add, if_neg he, if_neg hn]
      have ht : Tidy b (g.rects ++ uncovered g.rects r) := by
        rw [tidy_append, hc]
        exact ⟨h,uncovered_tidy g.rects hf,Set.disjoint_sdiff_right⟩
      obtain ⟨h1,h2⟩ := joinAdjacent_tidy _ ht
      exact ⟨h1,by rw [pixels, h2, cover_append, hc, Set.union_sdiff_self]; rfl⟩

theorem subtract_tidy {g : Region} (h : Tidy b g.rects) (r : Rect) :
    Tidy b (g.subtract r).rects ∧ (g.subtract r).pixels = g.pixels \ r.pixels := by
  by_cases he : r.isEmpty = true
  · simp [subtract, he, h, pixels_of_isEmpty he]
  by_cases hn : g.rects.isEmpty = true
  · rw [List.isEmpty_iff] at hn
    simp [subtract, hn, pixels, tidy_nil]
  · obtain ⟨h1,h2⟩ := joinAdjacent_tidy _ (cut_tidy r g.rects h)
    rw [subtract, if_neg (by simp [he, hn])]
    refine ⟨h1,h2.trans ?_⟩
    exact cover_flatMap g.rects _ r.pixels (fun q _ => cover_without q r)

theorem addRegion_tidy (g : Region) (l : List Rect) (hb : b.Bounded) (h : Tidy b g.rects)
    (hl : ∀ r ∈ l, r.isEmpty = true ∨ r.Inside b) :
    Tidy b (l.foldl add g).rects ∧ (l.foldl add g).pixels = g.pixels ∪ cover l := by
  induction l generalizing g with
  | nil => simpa using h
  | cons r l ih =>
    obtain ⟨h1,h2⟩ := add_tidy hb h (hl r (by simp))
    obtain ⟨h3,h4⟩ := ih (g.add r) h1 (fun s hs => hl s (by simp [hs]))
    exact ⟨h3,by rw [List.foldl_cons, h4, h2, cover_cons, Set.union_assoc]⟩

theorem subtractRegion_tidy (g : Region) (l : List Rect) (h : Tidy b g.rects) :
    Tidy b (l.foldl subtract g).rects ∧ (l.foldl subtract g).pixels = g.pixels \ cover l := by
  induction l generalizing g with
  | nil => simpa using h
  | cons r l ih =>
    obtain ⟨h1,h2⟩ := subtract_tidy h r
    obtain ⟨h3,h4⟩ := ih (g.subtract r) h1
    exact ⟨h3,by rw [List.foldl_cons, h4, h2, cover_cons, Set.sdiff_sdiff]⟩

theorem area_le (hb : b.Bounded) (g : Region) (h : Tidy b g.rects) :
    g.area ≤ 9223372036854775807 := by
  have hw := hb.width_nonneg
  have hh := hb.height_nonneg
  have hx := b.width_le
  have hy := b.height_le
  have hc : g.pixels.ncard ≤ b.pixels.ncard :=
    Set.ncard_le_ncard (cover_subset hb g.rects h) b.pixels_finite
  have hn : b.pixels.ncard ≤ 2147483647*2147483647 := by
    rw [pixels_eq, Set.ncard_coe_finset, Finset.card_product, Int.card_Ico, Int.card_Ico]
    have h1 := b.left_range
    have h2 := b.top_range
    have h3 := hb.right_le
    have h4 := hb.bottom_le
    apply Nat.mul_le_mul
    · rw [right_eq]
      omega
    · rw [bottom_eq]
      omega
  rw [area, tidy_area g.rects h]
  rw [pixels] at hc
  omega

theorem bounds_cons (r : Rect) (l : List Rect) : bounds ⟨r :: l⟩ = l.foldl united r := by
  rw [bounds, List.foldl_cons, united, if_pos (by rfl)]

theorem fits_foldl_united (l : List Rect) (r : Rect) (hr : Fits b r) (hl : ∀ s ∈ l, Fits b s) :
    Fits b (l.foldl united r) := by
  induction l generalizing r with
  | nil => exact hr
  | cons s l ih => exact ih _ (hr.united (hl s (by simp))) (fun q hq => hl q (by simp [hq]))

theorem inside_foldl_united (l : List Rect) (r : Rect) (hr : Fits b r) (hl : ∀ s ∈ l, Fits b s) :
    r.Inside (l.foldl united r) ∧ ∀ s ∈ l, s.Inside (l.foldl united r) := by
  induction l generalizing r with
  | nil => simpa using Inside.refl r
  | cons s l ih =>
    have hs := hl s (by simp)
    obtain ⟨h1,h2⟩ := ih _ (hr.united hs) (fun q hq => hl q (by simp [hq]))
    obtain ⟨h3,h4⟩ := inside_united hr hs
    exact ⟨h3.trans h1,List.forall_mem_cons.2 ⟨h4.trans h1,h2⟩⟩

theorem foldl_united_subset (l : List Rect) (r c : Rect) (hr : Fits b r) (hl : ∀ s ∈ l, Fits b s)
    (hrc : r.pixels ⊆ c.pixels) (hlc : ∀ s ∈ l, s.pixels ⊆ c.pixels) :
    (l.foldl united r).pixels ⊆ c.pixels := by
  induction l generalizing r with
  | nil => exact hrc
  | cons s l ih =>
    have hs := hl s (by simp)
    refine ih _ (hr.united hs) (fun q hq => hl q (by simp [hq])) ?_
      (fun q hq => hlc q (by simp [hq]))
    have h1 := (hr.exact.pixels_subset_iff c).1 hrc
    have h2 := (hs.exact.pixels_subset_iff c).1 (hlc s (by simp))
    rintro ⟨x,y⟩ hp
    rw [mem_pixels, covers_united hr hs] at hp
    rw [mem_pixels, Covers]
    omega

theorem intersects_iff (g : Region) (r : Rect) :
    g.intersects r = true ↔ (g.pixels ∩ r.pixels).Nonempty := by
  simp only [intersects, List.any_eq_true, Rect.intersects_iff]
  constructor
  · rintro ⟨s,hs,x,y,h1,h2⟩
    exact ⟨(x,y),⟨s,hs,h1⟩,h2⟩
  · rintro ⟨⟨x,y⟩,⟨s,hs,h1⟩,h2⟩
    exact ⟨s,hs,x,y,h1,h2⟩

theorem add_of_subset (g : Region) (r : Rect) (hb : b.Bounded)
    (hr : r.isEmpty = true ∨ r.Inside b) (hs : r.pixels ⊆ g.pixels) : g.add r = g := by
  by_cases he : r.isEmpty = true
  · rw [add, if_pos he]
  · have hf := fits_of_inside hb (Bool.eq_false_iff.2 he) (hr.resolve_left he)
    have hc : cover (uncovered g.rects r) = ∅ := by
      rw [cover_uncovered, Set.sdiff_eq_empty]
      exact hs
    rw [cover_eq_empty_iff _ (uncovered_tidy g.rects hf)] at hc
    rw [add, if_neg he, hc, if_pos List.isEmpty_nil]

/-- What can be done to a region. -/
inductive Edit where
  | add (r : Rect)
  | subtract (r : Rect)
  | intersect (r : Rect)
  | addRegion (h : Region)
  | subtractRegion (h : Region)

namespace Edit

def apply (g : Region) : Edit → Region
  | add r => g.add r
  | subtract r => g.subtract r
  | intersect r => g.intersect r
  | addRegion h => g.addRegion h
  | subtractRegion h => g.subtractRegion h

def onPixels (s : Set (Int × Int)) : Edit → Set (Int × Int)
  | add r => s ∪ r.pixels
  | subtract r => s \ r.pixels
  | intersect r => s ∩ r.pixels
  | addRegion h => s ∪ h.pixels
  | subtractRegion h => s \ h.pixels

/-- What is added is empty or lies inside `b`. -/
def AddsInside (b : Rect) : Edit → Prop
  | add r => r.isEmpty = true ∨ r.Inside b
  | addRegion h => ∀ r ∈ h.rects, r.isEmpty = true ∨ r.Inside b
  | subtract _ | intersect _ | subtractRegion _ => True

instance (b : Rect) : DecidablePred (AddsInside b)
  | add _ => inferInstanceAs (Decidable (_ ∨ _))
  | addRegion _ => inferInstanceAs (Decidable (∀ _ ∈ _, _))
  | subtract _ | intersect _ | subtractRegion _ => isTrue trivial

theorem apply_tidy (hb : b.Bounded) (g : Region) (e : Edit) (he : e.AddsInside b)
    (h : Tidy b g.rects) :
    Tidy b (e.apply g).rects ∧ (e.apply g).pixels = e.onPixels g.pixels := by
  cases e with
  | add r => exact add_tidy hb h he
  | subtract r => exact subtract_tidy h r
  | intersect r => exact clip_tidy r g.rects h
  | addRegion r => exact addRegion_tidy g r.rects hb h he
  | subtractRegion r => exact subtractRegion_tidy g r.rects h

theorem run_tidy (hb : b.Bounded) (edits : List Edit) (he : ∀ e ∈ edits, e.AddsInside b)
    (g : Region) (h : Tidy b g.rects) : Tidy b (edits.foldl apply g).rects ∧
      (edits.foldl apply g).pixels = edits.foldl onPixels g.pixels := by
  induction edits generalizing g with
  | nil => exact ⟨h,rfl⟩
  | cons e edits ih =>
    obtain ⟨h1,h2⟩ := apply_tidy hb g e (he e (by simp)) h
    obtain ⟨h3,h4⟩ := ih (fun e' h' => he e' (by simp [h'])) _ h1
    exact ⟨h3,by rw [List.foldl_cons, h4, h2, List.foldl_cons]⟩

end Edit

/-- The region is the set `s` of pixels, in all that can be asked of it. -/
structure Depicts (b : Rect) (g : Region) (s : Set (Int × Int)) : Prop where
  covers : ∀ x y, (∃ r ∈ g.rects, r.Covers x y) ↔ (x,y) ∈ s
  nonempty : ∀ r ∈ g.rects, r.isEmpty = false
  inside : ∀ r ∈ g.rects, r.Inside b
  apart : g.rects.Pairwise Apart
  area : g.area = s.ncard
  area_fits : g.area? = some g.area
  bounds_nil : g.rects = [] → g.bounds = Rect.none
  bounds_fits : g.rects ≠ [] → g.bounds.isEmpty = false ∧ g.bounds.Inside b
  bounds_encloses : ∀ r ∈ g.rects, r.Inside g.bounds
  bounds_least : ∀ c : Rect, (∀ r ∈ g.rects, r.pixels ⊆ c.pixels) → g.bounds.pixels ⊆ c.pixels
  intersects : ∀ r, g.intersects r = true ↔ ∃ x y, (x,y) ∈ s ∧ r.Covers x y
  add_covered : ∀ r, r.isEmpty = true ∨ r.Inside b → r.pixels ⊆ s → g.add r = g

theorem depicts_of_tidy (hb : b.Bounded) (g : Region) (h : Tidy b g.rects) :
    Depicts b g g.pixels where
  covers _ _ := Iff.rfl
  nonempty r hr := (h.fits r hr).exact.isEmpty
  inside r hr := (h.fits r hr).inside
  apart := h.apart
  area := tidy_area g.rects h
  area_fits := if_pos (area_le hb g h)
  bounds_nil hn := by rw [bounds, hn, List.foldl_nil]
  bounds_fits hn := by
    obtain ⟨_ | ⟨r,l⟩⟩ := g
    · exact absurd rfl hn
    · have hf := fits_foldl_united l r (h.fits r (by simp)) (fun s hs => h.fits s (by simp [hs]))
      rw [bounds_cons]
      exact ⟨hf.exact.isEmpty,hf.inside⟩
  bounds_encloses := by
    obtain ⟨_ | ⟨r,l⟩⟩ := g
    · simp
    · rw [bounds_cons, List.forall_mem_cons]
      exact inside_foldl_united l r (h.fits r (by simp)) (fun s hs => h.fits s (by simp [hs]))
  bounds_least c hc := by
    obtain ⟨_ | ⟨r,l⟩⟩ := g
    · rw [bounds, List.foldl_nil, pixels_of_isEmpty rfl]
      exact Set.empty_subset _
    · rw [bounds_cons]
      exact foldl_united_subset l r c (h.fits r (by simp)) (fun s hs => h.fits s (by simp [hs]))
        (hc r (by simp)) (fun s hs => hc s (by simp [hs]))
  intersects r := by
    rw [intersects_iff]
    exact ⟨fun ⟨⟨x,y⟩,h1,h2⟩ => ⟨x,y,h1,h2⟩,fun ⟨x,y,h1,h2⟩ => ⟨(x,y),h1,h2⟩⟩
  add_covered r hr hs := add_of_subset g r hb hr hs

/-- After any run of edits the region is the set of pixels that the same run of
set operations gives. -/
theorem edits_depict_pixels (b : Rect) (hb : b.Bounded) (edits : List Edit)
    (he : ∀ e ∈ edits, e.AddsInside b) :
    Depicts b (edits.foldl Edit.apply empty) (edits.foldl Edit.onPixels ∅) := by
  obtain ⟨h1,h2⟩ := Edit.run_tidy hb edits he empty tidy_nil
  rw [pixels_empty] at h2
  exact h2 ▸ depicts_of_tidy hb _ h1

/-- A notched square that a far larger rectangle is clipped to. -/
theorem edits_depict_pixels_notched : let b : Rect := ⟨-8,-8,2147483647,2147483647⟩
    let edits : List Edit := [.add ⟨0,0,9,9⟩, .add ⟨4,4,9,9⟩, .subtract ⟨2147483647,0,7,7⟩,
      .intersect ⟨-2147483648,2,2147483647,100⟩, .add ⟨3,3,3,-3⟩]
    b.Bounded ∧ (∀ e ∈ edits, e.AddsInside b) ∧
      Depicts b (edits.foldl Edit.apply empty) (edits.foldl Edit.onPixels ∅) := by
  intro b edits
  have hb : b.Bounded := ⟨by decide,by decide,by decide,by decide⟩
  have he : ∀ e ∈ edits, e.AddsInside b := by decide
  exact ⟨hb,he,edits_depict_pixels b hb edits he⟩

end Region

end InkCompositor
