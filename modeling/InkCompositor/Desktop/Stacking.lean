import InkCompositor.Desktop.State

/-!
# The stack of windows

From the bottom up: the system windows in the order of their creation, then
the lowered windows, then the raised ones, each layer by height. Sorting gives
raised windows the heights 0, 1, 2, … from the bottom up and lowered windows
-1, -2, … from the top down. To raise or lower a window it is parked beyond
all heights and the stack is sorted again.
-/

set_option autoImplicit false

namespace InkCompositor.Desktop

def setHeight (d : Desktop) (id : WindowId) (z : Int32) : Desktop :=
  match d.window? id with
  | none => d
  | some w =>
    if w.z = z then d
    else (d.modify id fun w => { w with z }).notify id (.zChanged z)

/-- The layers of the given windows: system, lowered and raised, each from the
bottom up. Among equal heights the order given decides. -/
def layers (windows : List Window) : List Window × List Window × List Window :=
  let (system, others) := windows.partition (·.isSystem)
  let byHeight := others.mergeSort fun v w => decide (v.z.toInt ≤ w.z.toInt)
  let (raised, lowered) := byHeight.partition (·.state.isRaised)
  (system, lowered, raised)

def raisedHeights (raised : List WindowId) : List (WindowId × Int32) :=
  raised.zipIdx.map fun (id, i) => (id, .ofInt i)

def loweredHeights (lowered : List WindowId) : List (WindowId × Int32) :=
  lowered.reverse.zipIdx.map fun (id, i) => (id, .ofInt (-(i : Int) - 1))

def sortWindows (d : Desktop) : Desktop :=
  match d.registry with
  | none => d
  | some r =>
    let (system, lowered, raised) := layers (r.inOrder.filterMap d.window?)
    let ids := fun (ws : List Window) => ws.map (·.id)
    let heights := raisedHeights (ids raised) ++ loweredHeights (ids lowered)
    let d := heights.foldl (fun d p => d.setHeight p.1 p.2) d
    { d with registry := some { r with sorted := ids system ++ ids lowered ++ ids raised } }

def restack (d : Desktop) (id : WindowId) (z : Int32) : Desktop := (d.setHeight id z).sortWindows

def sortedWindows (d : Desktop) : List Window :=
  match d.registry with
  | none => []
  | some r => r.sorted.filterMap d.window?

/-- Takes a closed window out of the stack. The window is kept until nothing
refers to it any more. -/
def forget (d : Desktop) (id : WindowId) : Desktop :=
  match d.registry with
  | none => d
  | some r =>
    if r.has id then
      let d := { d with registry := some { r with toWindowMap := r.remove id } }
      let d := d.sortWindows
      { d with deferred := d.deferred ++ [id] }
    else d

end InkCompositor.Desktop
