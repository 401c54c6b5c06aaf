import InkCompositor.Wire.Message

/-!
# Touch positions

The digitizer reports contacts in screen pixels. Clients receive positions as
fractions of the screen.
-/

set_option autoImplicit false

namespace InkCompositor

open Wire

def fraction (x : FloatBits) (start extent : Int32) : FloatBits :=
  ((Float.ofBits x - Float.ofInt start.toInt) / Float.ofInt (max extent.toInt 1)).toBits

def Wire.TouchEvent.normalized (event : TouchEvent) (screen : Rect) : TouchEvent :=
  { event with points := event.points.map fun p =>
      { p with x := fraction p.x screen.x screen.width, y := fraction p.y screen.y screen.height } }

/-- The slots in contact after an event, in ascending order. A cancel ends all
sequences; a released point ends its own. -/
def Wire.TouchEvent.slotsAfter (slots : List Int32) (event : TouchEvent) : List Int32 :=
  match event.phase with
  | .cancel => []
  | _ => event.points.foldl (fun slots p =>
      if p.state = .release then slots.filter (· != p.id) else insertSlot p.id slots) slots
where
  insertSlot (id : Int32) : List Int32 → List Int32
    | [] => [id]
    | s :: rest =>
      if id.toInt < s.toInt then id :: s :: rest
      else if id = s then s :: rest
      else s :: insertSlot id rest

end InkCompositor
