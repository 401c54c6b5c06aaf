import Mathlib
import InkCompositor.Geometry.Rect

/-!
# Rectangles as sets of pixels

An edge of a rectangle may be clamped, so its fields and its pixels can
disagree. What the operations do to pixels holds for all rectangles; what they
do to fields holds where no edge is clamped.
-/

set_option autoImplicit false

namespace InkCompositor.Rect

def pixels (r : Rect) : Set (Int × Int) := {p | r.Covers p.1 p.2}

@[simp] theorem mem_pixels (r : Rect) (x y : Int) : (x,y) ∈ r.pixels ↔ r.Covers x y := Iff.rfl

theorem left_range (r : Rect) : -2147483648 ≤ r.left ∧ r.left ≤ 2147483647 := by
  have h1 := r.x.le_toInt
  have h2 := r.x.toInt_lt
  unfold left
  omega

theorem top_range (r : Rect) : -2147483648 ≤ r.top ∧ r.top ≤ 2147483647 := by
  have h1 := r.y.le_toInt
  have h2 := r.y.toInt_lt
  unfold top
  omega

theorem right_eq (r : Rect) :
    r.right = max (-2147483648) (min (r.left + r.width.toInt) 2147483647) := rfl

theorem bottom_eq (r : Rect) :
    r.bottom = max (-2147483648) (min (r.top + r.height.toInt) 2147483647) := rfl

theorem isEmpty_iff (r : Rect) : r.isEmpty = true ↔ r.width.toInt ≤ 0 ∨ r.height.toInt ≤ 0 :=
  decide_eq_true_iff

theorem not_isEmpty_iff (r : Rect) :
    r.isEmpty = false ↔ 0 < r.width.toInt ∧ 0 < r.height.toInt := by
  rw [Bool.eq_false_iff, Ne, isEmpty_iff]
  omega

theorem width_le (r : Rect) : r.width.toInt ≤ 2147483647 := by
  have h := r.width.toInt_lt
  omega

theorem height_le (r : Rect) : r.height.toInt ≤ 2147483647 := by
  have h := r.height.toInt_lt
  omega

theorem not_covers_of_isEmpty {r : Rect} (h : r.isEmpty = true) (x y : Int) : ¬ r.Covers x y := by
  have hx := r.left_range
  have hy := r.top_range
  rw [isEmpty_iff] at h
  rw [Covers, right_eq, bottom_eq]
  omega

theorem intersects_eq_true (r s : Rect) : r.intersects s = true ↔
    (0 < r.width.toInt ∧ 0 < r.height.toInt) ∧ (0 < s.width.toInt ∧ 0 < s.height.toInt) ∧
      r.left < s.right ∧ s.left < r.right ∧ r.top < s.bottom ∧ s.top < r.bottom := by
  simp only [intersects, Bool.and_eq_true, Bool.not_eq_true', decide_eq_true_eq, not_isEmpty_iff]
  tauto

/-- Two rectangles intersect exactly if they share a pixel, also where edges are clamped. -/
theorem intersects_iff (r s : Rect) :
    r.intersects s = true ↔ ∃ x y, r.Covers x y ∧ s.Covers x y := by
  have hr := r.left_range
  have hs := s.left_range
  have hr' := r.top_range
  have hs' := s.top_range
  rw [intersects_eq_true]
  simp only [Covers]
  rw [right_eq, right_eq, bottom_eq, bottom_eq]
  constructor
  · intro h
    exact ⟨max r.left s.left,max r.top s.top,by omega,by omega⟩
  · rintro ⟨x,y,h1,h2⟩
    omega

/-- The fields agree with the edges: nothing is clamped, and there is a pixel. -/
structure Exact (r : Rect) : Prop where
  width_pos : 0 < r.width.toInt
  height_pos : 0 < r.height.toInt
  right_le : r.left + r.width.toInt ≤ 2147483647
  bottom_le : r.top + r.height.toInt ≤ 2147483647

namespace Exact

variable {r : Rect}

theorem isEmpty (h : r.Exact) : r.isEmpty = false := (not_isEmpty_iff r).2 ⟨h.1,h.2⟩

theorem right (h : r.Exact) : r.right = r.left + r.width.toInt := by
  have hx := r.left_range
  have h1 := h.width_pos
  have h2 := h.right_le
  rw [right_eq]
  omega

theorem bottom (h : r.Exact) : r.bottom = r.top + r.height.toInt := by
  have hy := r.top_range
  have h1 := h.height_pos
  have h2 := h.bottom_le
  rw [bottom_eq]
  omega

theorem left_lt (h : r.Exact) : r.left < r.right := by
  have h1 := h.width_pos
  rw [h.right]
  omega

theorem top_lt (h : r.Exact) : r.top < r.bottom := by
  have h1 := h.height_pos
  rw [h.bottom]
  omega

end Exact

theorem toInt_ofIntClamp {i : Int} (h1 : -2147483648 ≤ i) (h2 : i ≤ 2147483647) :
    (Int32.ofIntClamp i).toInt = i :=
  Int32.toInt_ofIntClamp (by rw [Int32.toInt_minValue]; omega) (by rw [Int32.toInt_maxValue]; omega)

theorem toInt_ofIntClamp_eq (i : Int) : (Int32.ofIntClamp i).toInt = clampEdge i := by
  have h1 := Int32.toInt_minValue
  have h2 := Int32.toInt_maxValue
  rw [Int32.ofIntClamp, clampEdge]
  split
  · split
    · rw [Int32.toInt_ofIntLE]
      omega
    · omega
  · omega

/-- Four edges in range that do not lie too far apart. -/
structure Edged (l t r b : Int) : Prop where
  left_ge : -2147483648 ≤ l
  left_lt : l < r
  right_le : r ≤ 2147483647
  top_ge : -2147483648 ≤ t
  top_lt : t < b
  bottom_le : b ≤ 2147483647
  width_le : r - l ≤ 2147483647
  height_le : b - t ≤ 2147483647

namespace Edged

variable {l t r b : Int}

theorem left (h : Edged l t r b) : (ofEdges l t r b).left = l := by
  have h1 := h.left_lt
  have h2 := h.right_le
  exact toInt_ofIntClamp h.left_ge (by omega)

theorem top (h : Edged l t r b) : (ofEdges l t r b).top = t := by
  have h1 := h.top_lt
  have h2 := h.bottom_le
  exact toInt_ofIntClamp h.top_ge (by omega)

theorem width (h : Edged l t r b) : (ofEdges l t r b).width.toInt = r - l := by
  have h1 := h.left_lt
  exact toInt_ofIntClamp (by omega) h.width_le

theorem height (h : Edged l t r b) : (ofEdges l t r b).height.toInt = b - t := by
  have h1 := h.top_lt
  exact toInt_ofIntClamp (by omega) h.height_le

theorem exact (h : Edged l t r b) : (ofEdges l t r b).Exact where
  width_pos := by rw [h.width]; have := h.left_lt; omega
  height_pos := by rw [h.height]; have := h.top_lt; omega
  right_le := by rw [h.left, h.width]; have := h.right_le; omega
  bottom_le := by rw [h.top, h.height]; have := h.bottom_le; omega

theorem right (h : Edged l t r b) : (ofEdges l t r b).right = r := by
  rw [h.exact.right, h.left, h.width]
  omega

theorem bottom (h : Edged l t r b) : (ofEdges l t r b).bottom = b := by
  rw [h.exact.bottom, h.top, h.height]
  omega

theorem covers (h : Edged l t r b) (x y : Int) :
    (ofEdges l t r b).Covers x y ↔ l ≤ x ∧ x < r ∧ t ≤ y ∧ y < b := by
  rw [Covers, h.left, h.right, h.top, h.bottom]

end Edged

theorem edged_intersected {r s : Rect} (h : r.intersects s = true) :
    Edged (max r.left s.left) (max r.top s.top) (min r.right s.right) (min r.bottom s.bottom) := by
  have hr := r.left_range
  have hs := s.left_range
  have hr' := r.top_range
  have hs' := s.top_range
  have hw := r.width_le
  have hh := r.height_le
  rw [intersects_eq_true] at h
  rw [right_eq, right_eq, bottom_eq, bottom_eq] at *
  constructor <;> omega

theorem intersected_eq {r s : Rect} (h : r.intersects s = true) :
    r.intersected s = ofEdges (max r.left s.left) (max r.top s.top)
      (min r.right s.right) (min r.bottom s.bottom) := by
  rw [intersected, if_pos h]

theorem exact_intersected {r s : Rect} (h : r.intersects s = true) : (r.intersected s).Exact := by
  rw [intersected_eq h]
  exact (edged_intersected h).exact

theorem not_covers_none (x y : Int) : ¬ none.Covers x y := not_covers_of_isEmpty rfl x y

theorem covers_intersected (r s : Rect) (x y : Int) :
    (r.intersected s).Covers x y ↔ r.Covers x y ∧ s.Covers x y := by
  by_cases h : r.intersects s = true
  · rw [intersected_eq h, (edged_intersected h).covers, Covers, Covers]
    omega
  · rw [intersected, if_neg h]
    refine ⟨fun hc => absurd hc (not_covers_none x y),fun hc => absurd ?_ h⟩
    exact (intersects_iff r s).2 ⟨x,y,hc⟩

theorem pixels_intersected (r s : Rect) : (r.intersected s).pixels = r.pixels ∩ s.pixels := by
  ext ⟨x,y⟩
  exact covers_intersected r s x y

theorem isEmpty_intersected (r s : Rect) : (r.intersected s).isEmpty = !r.intersects s := by
  by_cases h : r.intersects s = true
  · rw [(exact_intersected h).isEmpty, h]
    rfl
  · rw [intersected, if_neg h, Bool.eq_false_iff.2 h]
    rfl

end InkCompositor.Rect
