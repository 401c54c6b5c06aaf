/-!
# States of a window

A window is raised or lowered, and shown or hidden, until it is closed.
-/

set_option autoImplicit false

namespace InkCompositor

inductive WindowState where
  | raised
  | raisedHidden
  | lowered
  | loweredHidden
  | closed
  deriving DecidableEq, Repr, Inhabited

namespace WindowState

def all : List WindowState := [raised, raisedHidden, lowered, loweredHidden, closed]

def raise : WindowState → WindowState
  | lowered => raised
  | loweredHidden => raisedHidden
  | s => s

def lower : WindowState → WindowState
  | raised => lowered
  | raisedHidden => loweredHidden
  | s => s

theorem raise_ne_closed {s : WindowState} (h : s ≠ closed) : s.raise ≠ closed := by
  cases s <;> simp_all [raise]

theorem lower_ne_closed {s : WindowState} (h : s ≠ closed) : s.lower ≠ closed := by
  cases s <;> simp_all [lower]

def reveal : WindowState → WindowState
  | raisedHidden => raised
  | loweredHidden => lowered
  | s => s

def hide : WindowState → WindowState
  | raised => raisedHidden
  | lowered => loweredHidden
  | s => s

def withVisible (s : WindowState) (visible : Bool) : WindowState :=
  if visible then s.reveal else s.hide

def close (_ : WindowState) : WindowState := closed

def isShown : WindowState → Bool
  | raised | lowered => true
  | _ => false

def isRaised : WindowState → Bool
  | raised | raisedHidden => true
  | _ => false

end WindowState

end InkCompositor
