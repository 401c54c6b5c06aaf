import Mathlib
import InkCompositor.Proofs.Geometry.RegionSets

/-!
# Joins of any span

The rectangle around two that share an edge is as wide and as high as they are
together, but no wider and no higher than the greatest extent there is. What it
does not reach are pixels whose row or column holds a covered pixel that far
away; everything else stays covered, and nothing else gets covered.
-/

set_option autoImplicit false

namespace InkCompositor

open Rect

/-- The row or the column of `p` holds a pixel of `s` that lies the greatest
extent of a rectangle or more to the left or above. -/
def FarIn (s : Set (Int × Int)) (p : Int × Int) : Prop :=
  (∃ x, (x,p.2) ∈ s ∧ x + 2147483647 ≤ p.1) ∨ ∃ y, (p.1,y) ∈ s ∧ y + 2147483647 ≤ p.2

theorem FarIn.mono {s t : Set (Int × Int)} (h : s ⊆ t) {p : Int × Int} (hp : FarIn s p) :
    FarIn t p := by
  rcases hp with ⟨x,hx,hle⟩ | ⟨y,hy,hle⟩
  · exact Or.inl ⟨x,h hx,hle⟩
  · exact Or.inr ⟨y,h hy,hle⟩

/-- `t` is `s` up to pixels at the far end of a row or column of `s`. -/
structure Reaches (s t : Set (Int × Int)) : Prop where
  subset : t ⊆ s
  far_of_lost : ∀ p ∈ s, p ∉ t → FarIn s p

namespace Reaches

variable {s t u : Set (Int × Int)}

theorem refl (s : Set (Int × Int)) : Reaches s s := ⟨subset_rfl,fun _ h hn => absurd h hn⟩

theorem of_eq (h : t = s) : Reaches s t := h ▸ refl t

theorem trans (h : Reaches s t) (h' : Reaches t u) : Reaches s u := by
  refine ⟨h'.subset.trans h.subset,fun p hp hn => ?_⟩
  by_cases ht : p ∈ t
  · exact (h'.far_of_lost p ht hn).mono h.subset
  · exact h.far_of_lost p hp ht

theorem union_right (h : Reaches s t) (u : Set (Int × Int)) : Reaches (s ∪ u) (t ∪ u) := by
  refine ⟨Set.union_subset_union_left u h.subset,fun p hp hn => ?_⟩
  rw [Set.mem_union, not_or] at hn
  exact (h.far_of_lost p (hp.resolve_right hn.2) hn.1).mono Set.subset_union_left

theorem union_left (h : Reaches s t) (u : Set (Int × Int)) : Reaches (u ∪ s) (u ∪ t) := by
  rw [Set.union_comm u, Set.union_comm u]
  exact h.union_right u

theorem eq_of_near (h : Reaches s t) (hs : ∀ p ∈ s, ¬ FarIn s p) : t = s := by
  refine h.subset.antisymm fun p hp => ?_
  by_contra hn
  exact hs p hp (h.far_of_lost p hp hn)

end Reaches

namespace Rect

theorem covers_ofEdges {l t r b : Int} (hl : -2147483648 ≤ l) (hlr : l ≤ r) (hr : r ≤ 2147483647)
    (ht : -2147483648 ≤ t) (htb : t ≤ b) (hb : b ≤ 2147483647) (x y : Int) :
    (ofEdges l t r b).Covers x y ↔
      l ≤ x ∧ x < min r (l + 2147483647) ∧ t ≤ y ∧ y < min b (t + 2147483647) := by
  have hl' : (ofEdges l t r b).left = l := toInt_ofIntClamp hl (by omega)
  have ht' : (ofEdges l t r b).top = t := toInt_ofIntClamp ht (by omega)
  have hw : (ofEdges l t r b).width.toInt = clampEdge (r - l) := toInt_ofIntClamp_eq (r - l)
  have hh : (ofEdges l t r b).height.toInt = clampEdge (b - t) := toInt_ofIntClamp_eq (b - t)
  rw [Covers, right_eq, bottom_eq, hl', ht', hw, hh, clampEdge, clampEdge]
  omega

theorem left_lt_right {r : Rect} (h : r.isEmpty = false) :
    r.left < r.right ∨ r.left = 2147483647 ∧ r.right = 2147483647 := by
  have hx := r.left_range
  have hw := ((not_isEmpty_iff r).1 h).1
  rw [right_eq]
  omega

theorem top_lt_bottom {r : Rect} (h : r.isEmpty = false) :
    r.top < r.bottom ∨ r.top = 2147483647 ∧ r.bottom = 2147483647 := by
  have hy := r.top_range
  have hh := ((not_isEmpty_iff r).1 h).2
  rw [bottom_eq]
  omega

theorem right_le_left_add {r : Rect} (h : r.isEmpty = false) : r.right ≤ r.left + 2147483647 := by
  have hx := r.left_range
  have hw := ((not_isEmpty_iff r).1 h).1
  have hw' := r.width_le
  rw [right_eq]
  omega

theorem bottom_le_top_add {r : Rect} (h : r.isEmpty = false) :
    r.bottom ≤ r.top + 2147483647 := by
  have hy := r.top_range
  have hh := ((not_isEmpty_iff r).1 h).2
  have hh' := r.height_le
  rw [bottom_eq]
  omega

theorem right_le (r : Rect) : r.right ≤ 2147483647 := by
  rw [right_eq]
  omega

theorem bottom_le (r : Rect) : r.bottom ≤ 2147483647 := by
  rw [bottom_eq]
  omega

theorem covers_united_of_nonempty {r s : Rect} (hr : r.isEmpty = false) (hs : s.isEmpty = false)
    (x y : Int) : (r.united s).Covers x y ↔
      min r.left s.left ≤ x ∧ x < min (max r.right s.right) (min r.left s.left + 2147483647) ∧
      min r.top s.top ≤ y ∧ y < min (max r.bottom s.bottom) (min r.top s.top + 2147483647) := by
  have h1 := r.left_range
  have h2 := s.left_range
  have h3 := r.top_range
  have h4 := s.top_range
  have h5 := left_lt_right hr
  have h6 := top_lt_bottom hr
  have h7 := r.right_le
  have h8 := s.right_le
  have h9 := r.bottom_le
  have h10 := s.bottom_le
  rw [united, if_neg (by simp [hr]), if_neg (by simp [hs])]
  exact covers_ofEdges (by omega) (by omega) (by omega) (by omega) (by omega) (by omega) x y

/-- A join covers no pixel that neither rectangle covered, and loses only what
lies the greatest extent away from where the two begin. -/
theorem reaches_united {r s : Rect} (h : r.sharesEdge s = true) :
    Reaches (r.pixels ∪ s.pixels) (r.united s).pixels := by
  by_cases hr : r.isEmpty = true
  · rw [united, if_pos hr, pixels_of_isEmpty hr, Set.empty_union]
    exact Reaches.refl s.pixels
  by_cases hs : s.isEmpty = true
  · rw [united, if_neg hr, if_pos hs, pixels_of_isEmpty hs, Set.union_empty]
    exact Reaches.refl r.pixels
  rw [Bool.not_eq_true] at hr hs
  have hc := covers_united_of_nonempty hr hs
  have h1 := left_lt_right hr
  have h2 := left_lt_right hs
  have h3 := top_lt_bottom hr
  have h4 := top_lt_bottom hs
  rcases (sharesEdge_iff r s).1 h with ⟨hx,hw,ht⟩ | ⟨hy,hh,hl⟩
  · have hx' : r.left = s.left := congrArg Int32.toInt hx
    have hw' : r.right = s.right := by rw [right_eq, right_eq, hx', hw]
    have h5 := right_le_left_add hr
    simp only [← hx', ← hw', min_self, max_self] at hc
    constructor
    · rintro ⟨x,y⟩ hp
      rw [mem_pixels, hc] at hp
      simp only [Set.mem_union, mem_pixels, Covers]
      omega
    · rintro ⟨x,y⟩ hp hn
      rw [mem_pixels, hc] at hn
      simp only [Set.mem_union, mem_pixels, Covers] at hp
      refine Or.inr ⟨min r.top s.top,?_,by omega⟩
      simp only [Set.mem_union, mem_pixels, Covers]
      omega
  · have hy' : r.top = s.top := congrArg Int32.toInt hy
    have hh' : r.bottom = s.bottom := by rw [bottom_eq, bottom_eq, hy', hh]
    have h5 := bottom_le_top_add hr
    simp only [← hy', ← hh', min_self, max_self] at hc
    constructor
    · rintro ⟨x,y⟩ hp
      rw [mem_pixels, hc] at hp
      simp only [Set.mem_union, mem_pixels, Covers]
      omega
    · rintro ⟨x,y⟩ hp hn
      rw [mem_pixels, hc] at hn
      simp only [Set.mem_union, mem_pixels, Covers] at hp
      refine Or.inl ⟨min r.left s.left,?_,by omega⟩
      simp only [Set.mem_union, mem_pixels, Covers]
      omega

end Rect

namespace Region

theorem reaches_absorb (r : Rect) (l : List Rect) :
    Reaches (cover (r :: l)) (cover ((absorb r l).1 :: (absorb r l).2)) := by
  induction l generalizing r with
  | nil => exact Reaches.refl _
  | cons s l ih =>
    by_cases he : r.sharesEdge s = true
    · have hj : Reaches (cover (r :: s :: l)) (cover (r.united s :: l)) := by
        rw [cover_cons, cover_cons, cover_cons, ← Set.union_assoc]
        exact (reaches_united he).union_right (cover l)
      simp only [absorb, he, if_true]
      exact hj.trans (ih (r.united s))
    · have hj := (ih r).union_left s.pixels
      rw [cover_cons, cover_cons, Set.union_left_comm, Set.union_left_comm s.pixels] at hj
      simp only [absorb, he, if_false, Bool.false_eq_true, cover_cons]
      exact hj

theorem reaches_joinFrom (done todo : List Rect) :
    Reaches (cover (done ++ todo)) (cover (joinFrom done todo)) := by
  induction done, todo using joinFrom.induct with
  | case1 done =>
    rw [joinFrom, List.append_nil]
    exact Reaches.refl _
  | case2 done r rest hlt ih =>
    have hj := (reaches_absorb r rest).union_left (cover done)
    rw [← cover_append, ← cover_append] at hj
    rw [joinFrom, dif_pos hlt]
    exact hj.trans ih
  | case3 done r rest hlt ih =>
    rw [joinFrom, dif_neg hlt]
    simpa using ih

theorem reaches_add (g : Region) (r : Rect) : Reaches (g.pixels ∪ r.pixels) (g.add r).pixels := by
  have hc : g.pixels ∪ cover (uncovered g.rects r) = g.pixels ∪ r.pixels := by
    rw [cover_uncovered, pixels, Set.union_sdiff_self]
  by_cases he : r.isEmpty = true
  · rw [add, if_pos he, pixels_of_isEmpty he, Set.union_empty]
    exact Reaches.refl g.pixels
  by_cases hn : (uncovered g.rects r).isEmpty = true
  · rw [List.isEmpty_iff.1 hn, cover_nil, Set.union_empty] at hc
    rw [add, if_neg he, if_pos hn, ← hc]
    exact Reaches.refl g.pixels
  · have hj := reaches_joinFrom [] (g.rects ++ uncovered g.rects r)
    rw [List.nil_append, cover_append] at hj
    rw [add, if_neg he, if_neg hn, ← hc]
    exact hj

theorem reaches_foldl_add (rs : List Rect) :
    Reaches (cover rs) (rs.foldl add empty).pixels := by
  induction rs using List.reverseRecOn with
  | nil => exact Reaches.of_eq (pixels_empty.trans cover_nil.symm)
  | append_singleton rs r ih =>
    rw [List.foldl_concat, cover_append]
    simpa using (ih.union_right r.pixels).trans (reaches_add _ r)

/-- An added rectangle covers its own pixels and uncovers none, except for pixels
whose row or column holds a covered pixel the greatest extent away; where there is
no such pair the region gains just the rectangle. Over a whole run the same holds
of all that was ever added. -/
theorem added_up_to_far (rs : List Rect) (r : Rect) :
    let g := rs.foldl add empty
    (g.add r).pixels ⊆ g.pixels ∪ r.pixels ∧
      (∀ p ∈ g.pixels ∪ r.pixels, p ∉ (g.add r).pixels → FarIn (g.pixels ∪ r.pixels) p) ∧
      ((∀ p ∈ g.pixels ∪ r.pixels, ¬ FarIn (g.pixels ∪ r.pixels) p) →
        (g.add r).pixels = g.pixels ∪ r.pixels) ∧
      Reaches (cover (rs ++ [r])) (g.add r).pixels := by
  intro g
  have h := reaches_add g r
  have hr := reaches_foldl_add (rs ++ [r])
  rw [List.foldl_concat] at hr
  exact ⟨h.subset,h.far_of_lost,h.eq_of_near,hr⟩

/-- Two rectangles that share an edge, together wider than a rectangle can be: of
the right one nothing is left, whichever of them comes second. -/
theorem added_apart_uncovered :
    ¬ (∀ (rs : List Rect) (r : Rect),
      (rs.foldl add empty).pixels ⊆ ((rs.foldl add empty).add r).pixels) ∧
    ¬ (∀ (rs : List Rect) (r : Rect), r.pixels ⊆ ((rs.foldl add empty).add r).pixels) := by
  let right : Rect := ⟨-1,0,100,10⟩
  let left : Rect := ⟨-2147483648,0,2147483647,10⟩
  have hr : (empty.add right).add left = ⟨[left]⟩ := by cbv
  have hl : (empty.add left).add right = ⟨[left]⟩ := by cbv
  have h0 : (0,0) ∈ right.pixels := (mem_pixels right 0 0).2 (by decide)
  have hn : (0,0) ∉ pixels ⟨[left]⟩ := by
    rw [pixels, cover_cons, cover_nil, Set.union_empty, mem_pixels]
    decide
  constructor
  · intro h
    have h1 : empty.add right = ⟨[right]⟩ := by cbv
    have h2 := h [right] left
    rw [List.foldl_cons, List.foldl_nil, hr, h1, pixels, cover_cons] at h2
    exact hn (h2 (Or.inl h0))
  · intro h
    have h2 := h [left] right
    rw [List.foldl_cons, List.foldl_nil, hl] at h2
    exact hn (h2 h0)

end Region

end InkCompositor
