/-!
# Points and rectangles of the screen

Coordinates are 32-bit signed pixels. A rectangle covers the half-open ranges
from its left to its right edge and from its top to its bottom edge; an edge
that would leave the 32-bit range stays at its end. Edges are read as exact
integers, so every statement about them is linear arithmetic.
-/

set_option autoImplicit false

namespace InkCompositor

structure Point where
  x : Int32
  y : Int32
  deriving DecidableEq, Repr, Inhabited

namespace Point

def zero : Point := ⟨0, 0⟩

def ofInts? (x y : Int) : Option Point :=
  if Int32.minValue.toInt ≤ x ∧ x ≤ Int32.maxValue.toInt ∧
      Int32.minValue.toInt ≤ y ∧ y ≤ Int32.maxValue.toInt
  then some ⟨.ofInt x, .ofInt y⟩ else none

def add? (p q : Point) : Option Point :=
  ofInts? (p.x.toInt + q.x.toInt) (p.y.toInt + q.y.toInt)

def sub? (p q : Point) : Option Point :=
  ofInts? (p.x.toInt - q.x.toInt) (p.y.toInt - q.y.toInt)

end Point

structure Size where
  width : Int32
  height : Int32
  deriving DecidableEq, Repr, Inhabited

def Size.isEmpty (s : Size) : Bool := decide (s.width.toInt ≤ 0 ∨ s.height.toInt ≤ 0)

structure Rect where
  x : Int32
  y : Int32
  width : Int32
  height : Int32
  deriving DecidableEq, Repr, Inhabited

namespace Rect

/-- The nearest coordinate to an exact integer. -/
def clampEdge (i : Int) : Int := max (-2147483648) (min i 2147483647)

def ofParts (origin : Point) (size : Size) : Rect := ⟨origin.x, origin.y, size.width, size.height⟩

def none : Rect := ⟨0, 0, 0, 0⟩

def origin (r : Rect) : Point := ⟨r.x, r.y⟩
def size (r : Rect) : Size := ⟨r.width, r.height⟩

def left (r : Rect) : Int := r.x.toInt
def top (r : Rect) : Int := r.y.toInt
def right (r : Rect) : Int := clampEdge (r.x.toInt + r.width.toInt)
def bottom (r : Rect) : Int := clampEdge (r.y.toInt + r.height.toInt)

/-- The rectangle between four edges; an extent out of range stays at its end. -/
def ofEdges (left top right bottom : Int) : Rect :=
  ⟨.ofIntClamp left, .ofIntClamp top, .ofIntClamp (right - left), .ofIntClamp (bottom - top)⟩

def isEmpty (r : Rect) : Bool := r.size.isEmpty

def area (r : Rect) : Int := if r.isEmpty then 0 else r.width.toInt * r.height.toInt

/-- Pixel membership with exact coordinates. -/
def Covers (r : Rect) (x y : Int) : Prop := r.left ≤ x ∧ x < r.right ∧ r.top ≤ y ∧ y < r.bottom

instance (r : Rect) (x y : Int) : Decidable (r.Covers x y) :=
  inferInstanceAs (Decidable (_ ∧ _ ∧ _ ∧ _))

def containsPoint (r : Rect) (p : Point) : Bool := decide (r.Covers p.x.toInt p.y.toInt)

/-- Whether `s` lies inside `r`. An empty rectangle lies inside any other. -/
def contains (r s : Rect) : Bool :=
  s.isEmpty || decide (r.left ≤ s.left ∧ r.top ≤ s.top ∧ s.right ≤ r.right ∧ s.bottom ≤ r.bottom)

def intersects (r s : Rect) : Bool :=
  !r.isEmpty && !s.isEmpty &&
    decide (r.left < s.right ∧ s.left < r.right ∧ r.top < s.bottom ∧ s.top < r.bottom)

def intersected (r s : Rect) : Rect :=
  if r.intersects s then
    ofEdges (max r.left s.left) (max r.top s.top) (min r.right s.right) (min r.bottom s.bottom)
  else none

/-- The smallest rectangle around both. An empty one is ignored. -/
def united (r s : Rect) : Rect :=
  if r.isEmpty then s
  else if s.isEmpty then r
  else ofEdges (min r.left s.left) (min r.top s.top) (max r.right s.right) (max r.bottom s.bottom)

def translated (r : Rect) (dx dy : Int32) : Rect :=
  { r with x := .ofIntClamp (r.x.toInt + dx.toInt), y := .ofIntClamp (r.y.toInt + dy.toInt) }

def movedTo (r : Rect) (p : Point) : Rect := { r with x := p.x, y := p.y }

def atOrigin (r : Rect) : Rect := { r with x := 0, y := 0 }

end Rect

end InkCompositor
