import Mathlib
import InkCompositor.Proofs.Geometry.Edges

/-!
# Rectangles and their points

The edges of a rectangle may be clamped and its extents may be negative, so a
rectangle that is not empty may still be without a point. Whether two rectangles
intersect and what they have in common is a matter of their points alone.
-/

set_option autoImplicit false

namespace InkCompositor.Rect

theorem containsPoint_iff (r : Rect) (p : Point) :
    r.containsPoint p = true ↔ r.Covers p.x.toInt p.y.toInt := decide_eq_true_iff

theorem exists_point {r : Rect} {x y : Int} (h : r.Covers x y) :
    ∃ p : Point, p.x.toInt = x ∧ p.y.toInt = y := by
  have hx := r.left_range
  have hy := r.top_range
  rw [Covers, right_eq, bottom_eq] at h
  exact ⟨⟨.ofIntClamp x,.ofIntClamp y⟩,toInt_ofIntClamp (by omega) (by omega),
    toInt_ofIntClamp (by omega) (by omega)⟩

theorem intersects_iff_exists_point (a b : Rect) : a.intersects b = true ↔
    ∃ p, a.containsPoint p = true ∧ b.containsPoint p = true := by
  rw [intersects_iff]
  constructor
  · rintro ⟨x,y,ha,hb⟩
    obtain ⟨p,rfl,rfl⟩ := exists_point ha
    exact ⟨p,(containsPoint_iff a p).2 ha,(containsPoint_iff b p).2 hb⟩
  · rintro ⟨p,ha,hb⟩
    exact ⟨p.x.toInt,p.y.toInt,(containsPoint_iff a p).1 ha,(containsPoint_iff b p).1 hb⟩

theorem intersects_comm (a b : Rect) : a.intersects b = b.intersects a := by
  rw [Bool.eq_iff_iff, intersects_iff_exists_point, intersects_iff_exists_point]
  exact exists_congr fun p => and_comm

theorem containsPoint_intersected (a b : Rect) (p : Point) :
    (a.intersected b).containsPoint p = (a.containsPoint p && b.containsPoint p) := by
  rw [Bool.eq_iff_iff, Bool.and_eq_true]
  simp only [containsPoint_iff]
  exact covers_intersected a b p.x.toInt p.y.toInt

structure Spans (c : Rect) (l t r b : Int) : Prop where
  left : c.left = l
  top : c.top = t
  right : c.right = r
  bottom : c.bottom = b
  width : c.width.toInt = r - l
  height : c.height.toInt = b - t
  width_pos : 0 < c.width.toInt
  height_pos : 0 < c.height.toInt

theorem Edged.spans {l t r b : Int} (h : Edged l t r b) : Spans (ofEdges l t r b) l t r b where
  left := h.left
  top := h.top
  right := h.right
  bottom := h.bottom
  width := h.width
  height := h.height
  width_pos := h.exact.width_pos
  height_pos := h.exact.height_pos

/-- For rectangles with any fields: they intersect if and only if they share a point, whichever of
them is asked, and the points of their common part are the points that they share. If there are
any, the common part lies between the inner edges of both, with no extent cut off. -/
theorem common_points (a b : Rect) :
    (a.intersects b = true ↔ ∃ p, a.containsPoint p = true ∧ b.containsPoint p = true) ∧
    a.intersects b = b.intersects a ∧
    (∀ p, (a.intersected b).containsPoint p = true ↔
      a.containsPoint p = true ∧ b.containsPoint p = true) ∧
    (a.intersects b = true → (a.intersected b).Spans (max a.left b.left) (max a.top b.top)
      (min a.right b.right) (min a.bottom b.bottom)) := by
  refine ⟨intersects_iff_exists_point a b,intersects_comm a b,?_,?_⟩
  · intro p
    rw [containsPoint_intersected, Bool.and_eq_true]
  · intro h
    rw [intersected_eq h]
    exact (edged_intersected h).spans

/-- Two rectangles whose right edges are clamped have in common what lies before the end of the
range. One that begins there shares nothing with them, though its extents are positive. -/
theorem common_points_clamped :
    let a : Rect := ⟨1,0,2147483647,9⟩
    let b : Rect := ⟨2147483640,-3,100,5⟩
    let c : Rect := ⟨2147483647,-3,100,5⟩
    a.intersects b = true ∧ (a.intersected b).Spans 2147483640 0 2147483647 2 ∧
      c.isEmpty = false ∧ ∀ p, c.containsPoint p = true → b.containsPoint p = false := by
  intro a b c
  have hab : a.intersects b = true := by decide
  have hcb : ¬ c.intersects b = true := by decide
  have hleft : max a.left b.left = 2147483640 := by decide
  have htop : max a.top b.top = 0 := by decide
  have hright : min a.right b.right = 2147483647 := by decide
  have hbottom : min a.bottom b.bottom = 2 := by decide
  have hspans := (common_points a b).2.2.2 hab
  rw [hleft, htop, hright, hbottom] at hspans
  refine ⟨hab,hspans,by decide,?_⟩
  intro p hc
  by_contra hb
  exact hcb ((common_points c b).1.2 ⟨p,hc,by simpa using hb⟩)

end InkCompositor.Rect
