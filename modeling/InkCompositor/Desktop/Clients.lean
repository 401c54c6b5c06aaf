import InkCompositor.Desktop.Windows

/-!
# The clients' side

What clients do at their ends of the pipes and in the images they share. A
client keeps its end even when its window is gone.
-/

set_option autoImplicit false

namespace InkCompositor.Desktop

open Wire

/-- The client's end of a pipe of a window, gone or not. -/
def clientEnd? (d : Desktop) (id : WindowId) (kind : ChannelKind) : Option Channel :=
  ((d.windows ++ d.ended).find? (·.id == id)).map (·.pipe kind)

def setClientEnd (d : Desktop) (id : WindowId) (kind : ChannelKind) (c : Channel) : Desktop :=
  let put := List.map fun (w : Window) => if w.id = id then w.setPipe c kind else w
  { d with windows := put d.windows, ended := put d.ended }

def clientWrite (d : Desktop) (id : WindowId) (kind : ChannelKind) (bytes : List UInt8) :
    Desktop × Bool :=
  match d.clientEnd? id kind with
  | none => (d, false)
  | some c =>
    let (c, ok) := c.clientWrite bytes
    (d.setClientEnd id kind c, ok)

def clientRead (d : Desktop) (id : WindowId) (kind : ChannelKind) :
    Desktop × Option (Channel × List Message × Option WireError) :=
  match d.clientEnd? id kind with
  | none => (d, none)
  | some c =>
    let (c, messages, error?) := c.clientRead
    (d.setClientEnd id kind c, some (c, messages, error?))

def drawInto (d : Desktop) (id : WindowId) (f : Raster → Raster) : Desktop :=
  d.modify id fun w => { w with image := w.image.map f }

end InkCompositor.Desktop
