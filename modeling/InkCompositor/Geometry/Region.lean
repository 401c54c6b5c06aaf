import InkCompositor.Geometry.Rect

/-!
# Regions

A region is a list of rectangles that do not overlap. Adding a rectangle
inserts only what is not covered yet, subtracting one cuts it out, and both
end by joining rectangles that share a full edge.
-/

set_option autoImplicit false

namespace InkCompositor

/-- What is left of `r` without `s`: the full-width bands above and below `s`,
then the parts left and right of it. -/
def Rect.without (r s : Rect) : List Rect :=
  if !r.intersects s then [r]
  else if s.contains r then []
  else
    let top := max r.top s.top
    let bottom := min r.bottom s.bottom
    (if r.top < s.top then [ofEdges r.left r.top r.right s.top] else []) ++
    (if s.bottom < r.bottom then [ofEdges r.left s.bottom r.right r.bottom] else []) ++
    (if top < bottom then
      (if r.left < s.left then [ofEdges r.left top s.left bottom] else []) ++
      (if s.right < r.right then [ofEdges s.right top r.right bottom] else [])
    else [])

/-- Whether the rectangles share a full edge: one above the other with equal
columns, or side by side with equal rows. -/
def Rect.sharesEdge (a b : Rect) : Bool :=
  decide (a.x = b.x ∧ a.width = b.width ∧ (a.bottom = b.top ∨ b.bottom = a.top)) ||
  decide (a.y = b.y ∧ a.height = b.height ∧ (a.right = b.left ∨ b.right = a.left))

structure Region where
  rects : List Rect
  deriving DecidableEq, Repr, Inhabited

namespace Region

/-- Joins `a` with every rectangle of the list that shares an edge with what
`a` has grown to by then. -/
def absorb (a : Rect) : List Rect → Rect × List Rect
  | [] => (a, [])
  | b :: rest =>
    if a.sharesEdge b then absorb (a.united b) rest
    else ((absorb a rest).1, b :: (absorb a rest).2)

/-- Joins the rectangles of `todo` one after the other; `done` are those that
join with none behind them. After a join everything is looked at again. -/
def joinFrom (done todo : List Rect) : List Rect :=
  match todo with
  | [] => done
  | a :: rest =>
    if _h : (absorb a rest).2.length < rest.length then
      joinFrom [] (done ++ (absorb a rest).1 :: (absorb a rest).2)
    else joinFrom (done ++ [a]) rest
termination_by (done.length + todo.length, todo.length)
decreasing_by
  · refine Prod.Lex.left _ _ ?_
    simp only [List.length_append, List.length_cons, List.length_nil]
    omega
  · simp only [List.length_append, List.length_cons, List.length_nil]
    rw [show done.length + (0 + 1) + rest.length = done.length + (rest.length + 1) by omega]
    exact Prod.Lex.right _ (by omega)

def joinAdjacent (rects : List Rect) : List Rect := joinFrom [] rects

def empty : Region := ⟨[]⟩

def isEmpty (g : Region) : Bool := g.rects.isEmpty

def area (g : Region) : Int := g.rects.foldr (fun r n => r.area + n) 0

def area? (g : Region) : Option Int :=
  if g.area ≤ 9223372036854775807 then some g.area else .none

def bounds (g : Region) : Rect := g.rects.foldl Rect.united Rect.none

def intersects (g : Region) (r : Rect) : Bool := g.rects.any (·.intersects r)

def uncovered (rects : List Rect) (r : Rect) : List Rect :=
  rects.foldl (fun pieces s => pieces.flatMap (·.without s)) [r]

def add (g : Region) (r : Rect) : Region :=
  if r.isEmpty then g
  else if (uncovered g.rects r).isEmpty then g
  else ⟨joinAdjacent (g.rects ++ uncovered g.rects r)⟩

def ofRect (r : Rect) : Region := empty.add r

def addRegion (g h : Region) : Region := h.rects.foldl add g

def subtract (g : Region) (r : Rect) : Region :=
  if r.isEmpty || g.rects.isEmpty then g
  else ⟨joinAdjacent (g.rects.flatMap (·.without r))⟩

def subtractRegion (g h : Region) : Region := h.rects.foldl subtract g

def intersect (g : Region) (clip : Rect) : Region :=
  ⟨(g.rects.map (·.intersected clip)).filter (!·.isEmpty)⟩

def translated (g : Region) (dx dy : Int32) : Region := ⟨g.rects.map (·.translated dx dy)⟩

end Region

end InkCompositor
