import Mathlib
import InkCompositor.Geometry.Region
import InkCompositor.Proofs.Geometry.Edges

/-!
# Cutting and joining rectangles

Cutting a rectangle out of another leaves pieces that lie apart and cover what
is left; joining rectangles that share an edge covers what they covered. Lists
of rectangles that lie apart stay so under both.
-/

set_option autoImplicit false

namespace InkCompositor

open Rect

def cover (rects : List Rect) : Set (Int × Int) := {p | ∃ r ∈ rects, r.Covers p.1 p.2}

theorem mem_cover (rects : List Rect) (x y : Int) :
    (x,y) ∈ cover rects ↔ ∃ r ∈ rects, r.Covers x y := Iff.rfl

@[simp] theorem cover_nil : cover [] = ∅ := by
  ext p
  simp [cover]

@[simp] theorem cover_cons (r : Rect) (rects : List Rect) :
    cover (r :: rects) = r.pixels ∪ cover rects := by
  ext p
  simp [cover, Rect.pixels]

@[simp] theorem cover_append (l m : List Rect) : cover (l ++ m) = cover l ∪ cover m := by
  induction l with
  | nil => simp
  | cons r l ih => simp [ih, Set.union_assoc]

theorem cover_flatMap (l : List Rect) (f : Rect → List Rect) (s : Set (Int × Int))
    (hf : ∀ r ∈ l, cover (f r) = r.pixels \ s) : cover (l.flatMap f) = cover l \ s := by
  induction l with
  | nil => simp
  | cons r l ih =>
    rw [List.flatMap_cons, cover_append, cover_cons, hf r (by simp),
      ih (fun q hq => hf q (by simp [hq])), Set.union_sdiff_distrib]

namespace Rect

def Apart (r s : Rect) : Prop := Disjoint r.pixels s.pixels

theorem apart_iff (r s : Rect) : r.Apart s ↔ ∀ x y, r.Covers x y → ¬ s.Covers x y := by
  rw [Apart, Set.disjoint_left]
  exact ⟨fun h x y hr => h (a := (x,y)) hr,fun h p hr => h p.1 p.2 hr⟩

/-- The fields of `r` lie within those of `b`, as exact integers. -/
def Inside (r b : Rect) : Prop :=
  b.left ≤ r.left ∧ b.top ≤ r.top ∧
    r.left + r.width.toInt ≤ b.left + b.width.toInt ∧
    r.top + r.height.toInt ≤ b.top + b.height.toInt

instance (r b : Rect) : Decidable (r.Inside b) := inferInstanceAs (Decidable (_ ∧ _ ∧ _ ∧ _))

theorem Inside.trans {r s b : Rect} (h : r.Inside s) (h' : s.Inside b) : r.Inside b := by
  unfold Inside at *
  omega

theorem Inside.refl (r : Rect) : r.Inside r := by
  unfold Inside
  omega

theorem contains_iff {r s : Rect} (hs : s.isEmpty = false) : r.contains s = true ↔
    r.left ≤ s.left ∧ r.top ≤ s.top ∧ s.right ≤ r.right ∧ s.bottom ≤ r.bottom := by
  simp [contains, hs]

theorem without_of_not_intersects {r s : Rect} (h : r.intersects s = false) :
    r.without s = [r] := by
  simp [without, h]

theorem without_of_contains {r s : Rect} (h : r.intersects s = true) (hc : s.contains r = true) :
    r.without s = [] := by
  simp [without, h, hc]

/-- The pieces that are left of `r` without `s`, with the conditions for them. -/
theorem mem_without {r s : Rect} (h : r.intersects s = true) (hc : s.contains r = false)
    (p : Rect) : p ∈ r.without s ↔
      (r.top < s.top ∧ p = ofEdges r.left r.top r.right s.top) ∨
      (s.bottom < r.bottom ∧ p = ofEdges r.left s.bottom r.right r.bottom) ∨
      (r.left < s.left ∧
        p = ofEdges r.left (max r.top s.top) s.left (min r.bottom s.bottom)) ∨
      (s.right < r.right ∧
        p = ofEdges s.right (max r.top s.top) r.right (min r.bottom s.bottom)) := by
  have hb : max r.top s.top < min r.bottom s.bottom := (edged_intersected h).top_lt
  simp only [without, h, hc, if_pos hb]
  simp only [Bool.not_true, Bool.false_eq_true, if_false, List.mem_append]
  simp only [List.mem_ite_nil_right, List.mem_singleton]
  tauto

theorem edged_of_intersects {r s : Rect} (hi : r.intersects s = true) {l t x b : Int}
    (h1 : r.left ≤ l) (h2 : l < x) (h3 : x ≤ r.right)
    (h4 : r.top ≤ t) (h5 : t < b) (h6 : b ≤ r.bottom) : Edged l t x b := by
  have hr := r.left_range
  have hr' := r.top_range
  have hw := r.width_le
  have hh := r.height_le
  rw [intersects_eq_true] at hi
  rw [right_eq] at h3
  rw [bottom_eq] at h6
  constructor <;> omega

section Pieces

variable {r s : Rect} (hi : r.intersects s = true)

include hi

theorem edged_above (h : r.top < s.top) : Edged r.left r.top r.right s.top := by
  have hc := edged_intersected hi
  have h1 := hc.left_lt
  have h2 := hc.top_lt
  exact edged_of_intersects hi (by omega) (by omega) (by omega) (by omega) h (by omega)

theorem edged_below (h : s.bottom < r.bottom) : Edged r.left s.bottom r.right r.bottom := by
  have hc := edged_intersected hi
  have h1 := hc.left_lt
  have h2 := hc.top_lt
  exact edged_of_intersects hi (by omega) (by omega) (by omega) (by omega) h (by omega)

theorem edged_beside_left (h : r.left < s.left) :
    Edged r.left (max r.top s.top) s.left (min r.bottom s.bottom) := by
  have hc := edged_intersected hi
  have h1 := hc.left_lt
  have h2 := hc.top_lt
  exact edged_of_intersects hi (by omega) h (by omega) (by omega) h2 (by omega)

theorem edged_beside_right (h : s.right < r.right) :
    Edged s.right (max r.top s.top) r.right (min r.bottom s.bottom) := by
  have hc := edged_intersected hi
  have h1 := hc.left_lt
  have h2 := hc.top_lt
  exact edged_of_intersects hi (by omega) h (by omega) (by omega) h2 (by omega)

end Pieces

theorem cover_without (r s : Rect) : cover (r.without s) = r.pixels \ s.pixels := by
  ext ⟨x,y⟩
  rw [mem_cover, Set.mem_sdiff, mem_pixels, mem_pixels]
  by_cases hi : r.intersects s = true
  · have hne := (intersects_eq_true r s).1 hi
    by_cases hc : s.contains r = true
    · rw [without_of_contains hi hc]
      rw [contains_iff ((not_isEmpty_iff r).2 hne.1)] at hc
      simp only [List.not_mem_nil, false_and, exists_false, false_iff]
      simp only [Covers]
      omega
    · have he := edged_intersected hi
      have h1 := he.left_lt
      have h2 := he.top_lt
      simp only [mem_without hi (Bool.eq_false_iff.2 hc), or_and_right, exists_or, and_assoc,
        exists_and_left, exists_eq_left]
      constructor
      · rintro (⟨h,hp⟩ | ⟨h,hp⟩ | ⟨h,hp⟩ | ⟨h,hp⟩)
        · rw [(edged_above hi h).covers] at hp
          simp only [Covers]
          omega
        · rw [(edged_below hi h).covers] at hp
          simp only [Covers]
          omega
        · rw [(edged_beside_left hi h).covers] at hp
          simp only [Covers]
          omega
        · rw [(edged_beside_right hi h).covers] at hp
          simp only [Covers]
          omega
      · rintro ⟨hr,hs⟩
        simp only [Covers] at hr hs
        by_cases ht : y < s.top
        · exact Or.inl ⟨by omega,by rw [(edged_above hi (by omega)).covers]; omega⟩
        by_cases hb : s.bottom ≤ y
        · exact Or.inr (Or.inl ⟨by omega,by rw [(edged_below hi (by omega)).covers]; omega⟩)
        by_cases hl : x < s.left
        · exact Or.inr (Or.inr (Or.inl
            ⟨by omega,by rw [(edged_beside_left hi (by omega)).covers]; omega⟩))
        · exact Or.inr (Or.inr (Or.inr
            ⟨by omega,by rw [(edged_beside_right hi (by omega)).covers]; omega⟩))
  · rw [without_of_not_intersects (Bool.eq_false_iff.2 hi)]
    rw [intersects_iff] at hi
    simp only [List.mem_singleton, exists_eq_left]
    exact ⟨fun h => ⟨h,fun h' => hi ⟨x,y,h,h'⟩⟩,fun h => h.1⟩

theorem inside_of_edged {r : Rect} {l t x b : Int} (hr : r.Exact) (h : Edged l t x b)
    (h1 : r.left ≤ l) (h2 : r.top ≤ t) (h3 : x ≤ r.right) (h4 : b ≤ r.bottom) :
    (ofEdges l t x b).Inside r := by
  rw [hr.right] at h3
  rw [hr.bottom] at h4
  rw [Inside, h.left, h.top, h.width, h.height]
  omega

theorem exact_of_mem_without {r s p : Rect} (hr : r.Exact) (hp : p ∈ r.without s) :
    p.Exact ∧ p.Inside r := by
  by_cases hi : r.intersects s = true
  · by_cases hc : s.contains r = true
    · simp [without_of_contains hi hc] at hp
    · have he := edged_intersected hi
      have h1 := he.left_lt
      have h2 := he.top_lt
      rcases (mem_without hi (Bool.eq_false_iff.2 hc) p).1 hp with
        ⟨h,rfl⟩ | ⟨h,rfl⟩ | ⟨h,rfl⟩ | ⟨h,rfl⟩
      · have e := edged_above hi h
        exact ⟨e.exact,inside_of_edged hr e (by omega) (by omega) (by omega) (by omega)⟩
      · have e := edged_below hi h
        exact ⟨e.exact,inside_of_edged hr e (by omega) (by omega) (by omega) (by omega)⟩
      · have e := edged_beside_left hi h
        exact ⟨e.exact,inside_of_edged hr e (by omega) (by omega) (by omega) (by omega)⟩
      · have e := edged_beside_right hi h
        exact ⟨e.exact,inside_of_edged hr e (by omega) (by omega) (by omega) (by omega)⟩
  · rw [without_of_not_intersects (Bool.eq_false_iff.2 hi), List.mem_singleton] at hp
    subst hp
    exact ⟨hr,Inside.refl p⟩

theorem apart_of_edged {l t x b l' t' x' b' : Int} (h : Edged l t x b) (h' : Edged l' t' x' b')
    (hs : x ≤ l' ∨ x' ≤ l ∨ b ≤ t' ∨ b' ≤ t) : (ofEdges l t x b).Apart (ofEdges l' t' x' b') := by
  rw [apart_iff]
  intro u v hu
  rw [h.covers] at hu
  rw [h'.covers]
  omega

theorem pairwise_ite (c : Prop) [Decidable c] (p : Rect) :
    (if c then [p] else []).Pairwise Apart := by
  split <;> simp

theorem pairwise_without (r s : Rect) : (r.without s).Pairwise Apart := by
  by_cases hi : r.intersects s = true
  · by_cases hc : s.contains r = true
    · simp [without_of_contains hi hc]
    · have he := edged_intersected hi
      have h1 := he.left_lt
      have h2 := he.top_lt
      rw [Bool.not_eq_true] at hc
      simp only [without, hi, hc, if_pos h2]
      simp only [Bool.not_true, Bool.false_eq_true, if_false, List.pairwise_append,
        pairwise_ite, List.mem_append, List.mem_ite_nil_right, List.mem_singleton, true_and]
      refine ⟨?_,?_,?_⟩
      · rintro p ⟨ht,rfl⟩ q ⟨hb,rfl⟩
        exact apart_of_edged (edged_above hi ht) (edged_below hi hb) (by omega)
      · rintro p ⟨hl,rfl⟩ q ⟨hr,rfl⟩
        exact apart_of_edged (edged_beside_left hi hl) (edged_beside_right hi hr) (by omega)
      · rintro p (⟨ht,rfl⟩ | ⟨hb,rfl⟩) q (⟨hl,rfl⟩ | ⟨hr,rfl⟩)
        · exact apart_of_edged (edged_above hi ht) (edged_beside_left hi hl) (by omega)
        · exact apart_of_edged (edged_above hi ht) (edged_beside_right hi hr) (by omega)
        · exact apart_of_edged (edged_below hi hb) (edged_beside_left hi hl) (by omega)
        · exact apart_of_edged (edged_below hi hb) (edged_beside_right hi hr) (by omega)
  · simp [without_of_not_intersects (Bool.eq_false_iff.2 hi)]

/-- The far edges of the rectangle are in range as its fields give them. -/
structure Bounded (b : Rect) : Prop where
  width_nonneg : 0 ≤ b.width.toInt
  height_nonneg : 0 ≤ b.height.toInt
  right_le : b.left + b.width.toInt ≤ 2147483647
  bottom_le : b.top + b.height.toInt ≤ 2147483647

structure Fits (b r : Rect) : Prop where
  exact : r.Exact
  inside : r.Inside b

theorem fits_of_inside {b r : Rect} (hb : b.Bounded) (he : r.isEmpty = false) (hi : r.Inside b) :
    Fits b r := by
  obtain ⟨hw,hh⟩ := (not_isEmpty_iff r).1 he
  exact ⟨⟨hw,hh,hi.2.2.1.trans hb.right_le,hi.2.2.2.trans hb.bottom_le⟩,hi⟩

theorem Fits.of_mem_without {b r s p : Rect} (h : Fits b r) (hp : p ∈ r.without s) : Fits b p := by
  obtain ⟨he,hi⟩ := exact_of_mem_without h.exact hp
  exact ⟨he,hi.trans h.inside⟩

section United

variable {b r s : Rect}

theorem edged_united (hr : Fits b r) (hs : Fits b s) :
    Edged (min r.left s.left) (min r.top s.top) (max r.right s.right) (max r.bottom s.bottom) := by
  have h1 := hr.exact.left_lt
  have h2 := hr.exact.top_lt
  have h3 := r.left_range
  have h4 := r.top_range
  have h5 := s.left_range
  have h6 := s.top_range
  have h7 := b.width_le
  have h8 := b.height_le
  have h9 := hr.exact.right_le
  have h10 := hr.exact.bottom_le
  have h11 := hs.exact.right_le
  have h12 := hs.exact.bottom_le
  have hi := hr.inside
  have hj := hs.inside
  rw [hr.exact.right, hr.exact.bottom] at *
  rw [hs.exact.right, hs.exact.bottom] at *
  unfold Inside at hi hj
  constructor <;> omega

theorem united_eq (hr : r.Exact) (hs : s.Exact) :
    r.united s = ofEdges (min r.left s.left) (min r.top s.top)
      (max r.right s.right) (max r.bottom s.bottom) := by
  simp [united, hr.isEmpty, hs.isEmpty]

theorem Fits.united (hr : Fits b r) (hs : Fits b s) : Fits b (r.united s) := by
  have e := edged_united hr hs
  have hi := hr.inside
  have hj := hs.inside
  rw [united_eq hr.exact hs.exact]
  refine ⟨e.exact,?_⟩
  rw [Inside, e.left, e.top, e.width, e.height, hr.exact.right, hr.exact.bottom, hs.exact.right,
    hs.exact.bottom]
  unfold Inside at hi hj
  omega

theorem inside_united (hr : Fits b r) (hs : Fits b s) :
    r.Inside (r.united s) ∧ s.Inside (r.united s) := by
  have e := edged_united hr hs
  rw [united_eq hr.exact hs.exact, Inside, Inside, e.left, e.top, e.width, e.height,
    hr.exact.right, hr.exact.bottom, hs.exact.right, hs.exact.bottom]
  omega

theorem covers_united (hr : Fits b r) (hs : Fits b s) (x y : Int) : (r.united s).Covers x y ↔
    min r.left s.left ≤ x ∧ x < max r.right s.right ∧
      min r.top s.top ≤ y ∧ y < max r.bottom s.bottom := by
  rw [united_eq hr.exact hs.exact, (edged_united hr hs).covers]

theorem sharesEdge_iff (r s : Rect) : r.sharesEdge s = true ↔
    (r.x = s.x ∧ r.width = s.width ∧ (r.bottom = s.top ∨ s.bottom = r.top)) ∨
    (r.y = s.y ∧ r.height = s.height ∧ (r.right = s.left ∨ s.right = r.left)) := by
  simp [sharesEdge]

/-- Rectangles that share a full edge cover together what encloses both. -/
theorem pixels_united (hr : Fits b r) (hs : Fits b s) (h : r.sharesEdge s = true) :
    (r.united s).pixels = r.pixels ∪ s.pixels := by
  have h1 := hr.exact.left_lt
  have h2 := hr.exact.top_lt
  have h3 := hs.exact.left_lt
  have h4 := hs.exact.top_lt
  ext ⟨x,y⟩
  rw [mem_pixels, covers_united hr hs, Set.mem_union, mem_pixels, mem_pixels, Covers, Covers]
  rcases (sharesEdge_iff r s).1 h with ⟨hx,hw,ht⟩ | ⟨hy,hh,hl⟩
  · have hx' : r.left = s.left := congrArg Int32.toInt hx
    have hw' : r.right = s.right := by rw [right_eq, right_eq, hx', hw]
    omega
  · have hy' : r.top = s.top := congrArg Int32.toInt hy
    have hh' : r.bottom = s.bottom := by rw [bottom_eq, bottom_eq, hy', hh]
    omega

end United

end Rect

/-- The rectangles lie apart inside `b`. -/
structure Tidy (b : Rect) (rects : List Rect) : Prop where
  fits : ∀ r ∈ rects, Fits b r
  apart : rects.Pairwise Apart

variable {b : Rect}

theorem tidy_nil : Tidy b [] := ⟨by simp,List.Pairwise.nil⟩

theorem apart_cover_iff (r : Rect) (l : List Rect) :
    (∀ s ∈ l, r.Apart s) ↔ Disjoint r.pixels (cover l) := by
  induction l with
  | nil => simp
  | cons s l ih => simp [Apart, ← ih]

theorem tidy_cons (r : Rect) (l : List Rect) :
    Tidy b (r :: l) ↔ Fits b r ∧ Disjoint r.pixels (cover l) ∧ Tidy b l := by
  rw [← apart_cover_iff]
  constructor
  · intro h
    obtain ⟨h1,h2⟩ := List.pairwise_cons.1 h.apart
    exact ⟨h.fits r (by simp),h1,⟨fun s hs => h.fits s (by simp [hs]),h2⟩⟩
  · rintro ⟨h1,h2,h3⟩
    refine ⟨fun s hs => ?_,List.pairwise_cons.2 ⟨h2,h3.apart⟩⟩
    rcases List.mem_cons.1 hs with rfl | hs
    · exact h1
    · exact h3.fits s hs

theorem tidy_append (l m : List Rect) :
    Tidy b (l ++ m) ↔ Tidy b l ∧ Tidy b m ∧ Disjoint (cover l) (cover m) := by
  induction l with
  | nil => simp [tidy_nil]
  | cons r l ih =>
    rw [List.cons_append, tidy_cons, tidy_cons, ih, cover_append, cover_cons,
      Set.disjoint_union_right, Set.disjoint_union_left]
    tauto

namespace Region

theorem absorb_tidy (r : Rect) (l : List Rect) (h : Tidy b (r :: l)) :
    Tidy b ((absorb r l).1 :: (absorb r l).2) ∧
      cover ((absorb r l).1 :: (absorb r l).2) = cover (r :: l) := by
  induction l generalizing r with
  | nil => exact ⟨h,rfl⟩
  | cons s l ih =>
    obtain ⟨hr,hd,hl⟩ := (tidy_cons _ _).1 h
    obtain ⟨hs,hd',hl'⟩ := (tidy_cons _ _).1 hl
    rw [cover_cons, Set.disjoint_union_right] at hd
    by_cases he : r.sharesEdge s = true
    · have hp := pixels_united hr hs he
      have ht : Tidy b (r.united s :: l) := by
        rw [tidy_cons, hp, Set.disjoint_union_left]
        exact ⟨hr.united hs,⟨hd.2,hd'⟩,hl'⟩
      obtain ⟨h1,h2⟩ := ih _ ht
      simp only [absorb, he, if_true]
      refine ⟨h1,h2.trans ?_⟩
      simp [hp, Set.union_assoc]
    · obtain ⟨h1,h2⟩ := ih r ((tidy_cons _ _).2 ⟨hr,hd.2,hl'⟩)
      obtain ⟨h3,h4,h5⟩ := (tidy_cons _ _).1 h1
      simp only [absorb, he, if_false, Bool.false_eq_true]
      -- what is joined covers as much as before, so `s` lies apart from it still
      have hs' : Disjoint s.pixels (cover ((absorb r l).1 :: (absorb r l).2)) := by
        rw [h2, cover_cons, Set.disjoint_union_right]
        exact ⟨hd.1.symm,hd'⟩
      rw [cover_cons, Set.disjoint_union_right] at hs'
      constructor
      · rw [tidy_cons, tidy_cons, cover_cons, Set.disjoint_union_right]
        exact ⟨h3,⟨hs'.1.symm,h4⟩,hs,hs'.2,h5⟩
      · simp only [cover_cons] at h2 ⊢
        rw [Set.union_left_comm, h2, Set.union_left_comm]

theorem joinFrom_tidy (done todo : List Rect) (h : Tidy b (done ++ todo)) :
    Tidy b (joinFrom done todo) ∧ cover (joinFrom done todo) = cover (done ++ todo) := by
  induction done, todo using joinFrom.induct with
  | case1 done => simpa [joinFrom] using h
  | case2 done r rest hlt ih =>
    obtain ⟨h1,h2,h3⟩ := (tidy_append _ _).1 h
    obtain ⟨h4,h5⟩ := absorb_tidy r rest h2
    rw [joinFrom, dif_pos hlt]
    have ht : Tidy b (done ++ (absorb r rest).1 :: (absorb r rest).2) :=
      (tidy_append _ _).2 ⟨h1,h4,by rw [h5]; exact h3⟩
    obtain ⟨h6,h7⟩ := ih ht
    exact ⟨h6,by rw [h7, List.nil_append, cover_append, cover_append, h5]⟩
  | case3 done r rest hlt ih =>
    rw [joinFrom, dif_neg hlt]
    simpa using ih (by simpa using h)

theorem joinAdjacent_tidy (l : List Rect) (h : Tidy b l) :
    Tidy b (joinAdjacent l) ∧ cover (joinAdjacent l) = cover l := joinFrom_tidy [] l h

end Region

end InkCompositor
