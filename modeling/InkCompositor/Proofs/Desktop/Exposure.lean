import Mathlib
import InkCompositor.Proofs.Desktop.Composing
import InkCompositor.Proofs.Desktop.Look

/-!
# What a repaint is about

Which pixels a repaint exposes and what they are to be. Both can be read off
the look of the desktop: for every pixel it is enough to know the topmost
window there.
-/

set_option autoImplicit false

namespace InkCompositor

open Wire

namespace Desktop

/-- The pixels that a repaint is to paint: those of its region, in exact
coordinates, that no window above the one to be painted covers. -/
def Exposed (d : Desktop) (q : Repaint) (x y : Int) : Prop :=
  d.screen.Holds x y ∧
    match q.window with
    | none => q.region.Holds x y
    | some id => ∃ below w above, d.visibleStack = below ++ w :: above ∧ w.id = id ∧
        w.geometry.Holds x y ∧ q.region.Holds (x-w.geometry.x.toInt) (y-w.geometry.y.toInt) ∧
        ∀ v ∈ above, ¬ v.geometry.Holds x y

/-- What a pixel of the panel is to be: the color of the topmost visible window
whose bounds contain it, as far as the panel can hold it, or the background. -/
def composite (d : Desktop) (x y : Nat) : Color :=
  match topmost d.visibleStack x y with
  | some w => d.panel.raster.format.quantize (w.colorAt x y)
  | none => d.panel.raster.format.background

def updates (d : Desktop) : List Update :=
  d.trace.toList.filterMap fun
    | .updated u _ => some u
    | _ => none

end Desktop

namespace Look

variable (l : Look)

def screen : Rect := l.raster.rect

def sorted : List WindowId := (l.stack.map (·.2)).getD []

def presents (w : Window) : Bool :=
  w.isVisibleOn l.screen && (w.isSystem || !l.groups.holds .gone w.owner)

def painted : List Window := (l.sorted.filterMap l.face).filter l.presents

/-- The window to be seen at a pixel. -/
def top (x y : Int) : Option Window := topmost l.painted x y

def Exposed (q : Repaint) (x y : Int) : Prop :=
  l.screen.Holds x y ∧
    match q.window with
    | none => q.region.Holds x y
    | some id => ∃ w, l.top x y = some w ∧ w.id = id ∧
        q.region.Holds (x-w.geometry.x.toInt) (y-w.geometry.y.toInt)

def composite (x y : Nat) : Color :=
  match l.top x y with
  | some w => l.raster.format.quantize (w.colorAt x y)
  | none => l.raster.format.background

end Look

theorem topmost_map_face (l : List Window) (x y : Int) :
    topmost (l.map Window.face) x y = (topmost l x y).map Window.face := by
  rw [topmost, List.filter_map, List.getLast?_map]
  rfl

namespace Desktop

variable (d : Desktop)

theorem sortedWindows_eq : d.sortedWindows = d.look.sorted.filterMap d.window? := by
  cases h : d.registry <;> simp [sortedWindows, Look.sorted, look, h]

theorem painted_look : d.look.painted = d.visibleStack.map Window.face := by
  have h : d.look.sorted.filterMap d.look.face =
      (d.look.sorted.filterMap d.window?).map Window.face := by
    rw [List.map_filterMap]
    rfl
  rw [Look.painted, visibleStack, sortedWindows_eq, h, List.filter_map]
  rfl

theorem top_look (x y : Int) : d.look.top x y = (topmost d.visibleStack x y).map Window.face := by
  rw [Look.top, painted_look, topmost_map_face]

theorem composite_look (x y : Nat) : d.composite x y = d.look.composite x y := by
  rw [composite, Look.composite, top_look]
  cases topmost d.visibleStack x y <;> rfl

theorem exposed_look (q : Repaint) (x y : Int) : d.Exposed q x y ↔ d.look.Exposed q x y := by
  rw [Exposed, Look.Exposed]
  apply and_congr Iff.rfl
  cases q.window with
  | none => exact Iff.rfl
  | some id =>
    simp only [top_look, Option.map_eq_some_iff, topmost_eq_some_iff]
    constructor
    · rintro ⟨b,w,a,hs,hid,hw,hr,ha⟩
      exact ⟨w.face,⟨w,⟨b,a,hs,hw,ha⟩,rfl⟩,hid,hr⟩
    · rintro ⟨_,⟨w,⟨b,a,hs,hw,ha⟩,rfl⟩,hid,hr⟩
      exact ⟨b,w,a,hs,hid,hw,hr,ha⟩

/-- A pixel that a window's repaint exposes belongs to that window. -/
theorem topmost_of_exposed {q : Repaint} {id : WindowId} {x y : Int} (hq : q.window = some id)
    (h : d.Exposed q x y) : ∃ w, topmost d.visibleStack x y = some w ∧ w.id = id := by
  rw [Exposed, hq] at h
  obtain ⟨-,b,w,a,hs,hid,hw,-,ha⟩ := h
  exact ⟨w,(topmost_eq_some_iff _ x y w).2 ⟨b,a,hs,hw,ha⟩,hid⟩

theorem window?_of_mem_visibleStack {w : Window} (h : w ∈ d.visibleStack) :
    d.window? w.id = some w ∧ w.image.isSome = true := by
  rw [visibleStack, List.mem_filter, sortedWindows_eq, List.mem_filterMap] at h
  obtain ⟨⟨j,-,hj⟩,hv⟩ := h
  rw [id_of_window? d hj]
  simp only [Bool.and_eq_true, Window.isVisibleOn] at hv
  exact ⟨hj,hv.1.1.2⟩

theorem nodup_visibleStack (h : d.look.sorted.Nodup) : d.visibleStack.Nodup := by
  rw [visibleStack, sortedWindows_eq]
  refine (h.filterMap fun i j w hi hj => ?_).filter _
  rw [← id_of_window? d hi, ← id_of_window? d hj]

end Desktop

end InkCompositor
