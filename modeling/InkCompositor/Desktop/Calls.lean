import InkCompositor.Desktop.Painting

/-!
# Calls on a window

What the owner of a window, or the service, may ask of it. A call by any other
group is denied: it is noted and yields nothing.
-/

set_option autoImplicit false

namespace InkCompositor.Desktop

open Wire

/-- Requests a repaint on behalf of a window or of the stack. A closed window
is not painted any more; its repaint counts as done. -/
def requestRepaint (d : Desktop) (window : Option WindowId) (region : Rect)
    (waveform : Option Waveform) (marker : Marker) : Desktop :=
  match window.bind d.window? with
  | some w =>
    if w.state = .closed then
      (d.log .debug "Rejecting repaint of closed window").record (some w.id) marker 0
    else d.enqueue ⟨window, region, waveform, marker, none⟩
  | none => d.enqueue ⟨window, region, waveform, marker, none⟩

def damage (d : Desktop) (window : Option WindowId) (region : Rect) : Desktop :=
  if d.registry.isSome then d.requestRepaint window region none 0 else d

def damageWindow (d : Desktop) (w : Window) : Desktop := d.damage (some w.id) w.localRect

/-- Runs a call if the caller may make it, and yields `denied` otherwise. -/
def guarded {α : Type} (d : Desktop) (id : WindowId) (caller : Group) (denied : α)
    (call : Desktop → Window → Desktop × α) : Desktop × α :=
  let d := d.logCall id caller
  match d.window? id with
  | some w => if d.permits id caller then call d w else (d, denied)
  | none => (d, denied)

def guardedDo (d : Desktop) (id : WindowId) (caller : Group)
    (call : Desktop → Window → Desktop) : Desktop :=
  (d.guarded id caller () fun d w => (call d w, ())).1

def frameBuffer (d : Desktop) (id : WindowId) (caller : Group) : Desktop × Bool :=
  d.guarded id caller false fun d w => (d, w.image.any (·.shareable))

def sizeInBytes (d : Desktop) (id : WindowId) (caller : Group) : Desktop × Nat :=
  d.guarded id caller 0 fun d w => (d, w.imageInfo.1)

def bytesPerLine (d : Desktop) (id : WindowId) (caller : Group) : Desktop × Nat :=
  d.guarded id caller 0 fun d w => (d, w.imageInfo.2.1)

def imageFormat (d : Desktop) (id : WindowId) (caller : Group) : Desktop × PixelFormat :=
  d.guarded id caller .invalid fun d w => (d, w.imageInfo.2.2)

def geometry (d : Desktop) (id : WindowId) (caller : Group) : Desktop × Rect :=
  d.guarded id caller Rect.none fun d w => (d, w.geometry)

def visibility (d : Desktop) (id : WindowId) (caller : Group) : Desktop × Bool :=
  d.guarded id caller false fun d w => (d, w.isVisibleOn d.screen)

def pipe (d : Desktop) (id : WindowId) (kind : ChannelKind) (caller : Group) : Desktop × Bool :=
  d.guarded id caller false fun d w => (d, (w.pipe kind).isOpen)

structure Inspection where
  geometry : Rect
  size : Nat
  stride : Nat
  format : PixelFormat
  visible : Bool
  shared : Bool
  /-- Which pipes are handed out. -/
  pipes : List Bool

def inspect (d : Desktop) (id : WindowId) (caller : Group) : Desktop × Inspection :=
  let (d, geometry) := d.geometry id caller
  let (d, size) := d.sizeInBytes id caller
  let (d, stride) := d.bytesPerLine id caller
  let (d, format) := d.imageFormat id caller
  let (d, visible) := d.visibility id caller
  let (d, shared) := d.frameBuffer id caller
  let (d, pipes) := ChannelKind.all.foldl (fun (d, pipes) kind =>
    let (d, given) := d.pipe id kind caller
    (d, pipes ++ [given])) (d, [])
  (d, ⟨geometry, size, stride, format, visible, shared, pipes⟩)

def allocateImage (d : Desktop) (w : Window) (geometry : Rect) : Desktop :=
  if geometry.isEmpty then d.log .warn "Invalid geometry for frame buffer"
  else
    match d.pool.allocate geometry.width.toInt.toNat geometry.height.toInt.toNat w.format with
    | (pool, .ok image) =>
      (({ d with pool }.modify w.id fun w => { w with image := some image }).log .debug
        "Allocated pixel buffer").emit (.attempted w.id true)
    | (pool, .error e) =>
      ({ d with pool, panicked := d.panicked || e == RasterError.overflow }.log .warn
        "Unable to create frame buffer").emit (.attempted w.id false)

/-- Replaces geometry and image of a window. Yields whether anything changed:
nothing does for a closed window, or when image and geometry fit already. -/
def replaceImage (d : Desktop) (id : WindowId) (geometry : Rect) : Desktop × Bool :=
  match d.window? id with
  | none => (d, false)
  | some w =>
    if w.state = .closed then (d, false)
    else if w.image.isSome ∧ w.geometry = geometry then (d.log .warn "No need to resize", false)
    else
      let d := match w.image with
        | some r => { d with pool := d.pool.release r.id }.log .debug "Released pixel buffer"
        | none => d
      let d := d.modify id fun w => { w with geometry, image := none }
      let d := (d.allocateImage w geometry).log .debug "Frame buffer created"
      let d := if w.geometry = geometry then d else d.announceGeometry id w.geometry geometry
      (d.announceImage id, true)

def damageMove (d : Desktop) (id : WindowId) (wasVisible : Bool) (old : Rect) : Desktop :=
  let d := if wasVisible then d.damage none old else d
  match d.window? id with
  | some w => if w.isVisibleOn d.screen then d.damageWindow w else d
  | none => d

def setGeometry (d : Desktop) (id : WindowId) (caller : Group) (geometry : Rect) : Desktop :=
  d.guardedDo id caller fun d w =>
    match d.replaceImage id geometry with
    | (d', true) => d'.damageMove id (w.isVisibleOn d.screen) w.geometry
    | (d', false) => d'

def resize (d : Desktop) (id : WindowId) (caller : Group) (width height : Int32) :
    Desktop × Bool :=
  d.guarded id caller false fun d w =>
    (d.setGeometry id caller ⟨w.geometry.x, w.geometry.y, width, height⟩).frameBuffer id caller

def moveTo (d : Desktop) (id : WindowId) (caller : Group) (x y : Int32) : Desktop :=
  d.guardedDo id caller fun d w =>
    let new := w.geometry.movedTo ⟨x, y⟩
    if w.state = .closed ∨ w.geometry = new then d
    else
      ((d.modify id fun w => { w with geometry := new }).announceGeometry id w.geometry
        new).damageMove id (w.isVisibleOn d.screen) w.geometry

/-- Queues a repaint of a part of a window, or of all of it. If the window is
not visible its marker is recorded at once. -/
def repaint (d : Desktop) (id : WindowId) (caller : Group) (region : Option Rect)
    (waveform : Option Waveform) (marker : Marker) : Desktop :=
  d.guardedDo id caller fun d w =>
    let d := if marker = 0 then d else d.modify id fun w => { w with lastMarker := marker }
    if d.registry.isSome && w.isVisibleOn d.screen then
      d.requestRepaint (some id) (region.getD w.localRect) waveform marker
    else (d.log .trace "Repaint of hidden window").record (some id) marker 0

def waitForMarker (d : Desktop) (id : WindowId) (caller : Group) (marker : Marker)
    (c : Callback) : Desktop :=
  let d := d.logCall id caller
  if d.permits id caller then d.addWait (some id) marker c else d.runCallback c

/-- Stands still until the callback has come, or too much time has passed.
Without anyone in the background nothing changes meanwhile. -/
def standStill (d : Desktop) (resolved : Bool) (complaint : String) : Desktop :=
  if resolved then d
  else
    let before := d.trace.size
    let d := d.settle
    if (d.trace.extract before d.trace.size).contains (.calledBack .proceed) then d
    else d.log .warn complaint

def waitForLastUpdate (d : Desktop) (id : WindowId) (caller : Group) : Desktop :=
  d.guardedDo id caller fun d w =>
    let resolved := d.ledger.resolvesAtOnce (some id) w.lastMarker
    (d.addWait (some id) w.lastMarker .proceed).standStill resolved
      "Gave up waiting for last update"

def cancelTouches (d : Desktop) (id : WindowId) (slots : List Int32) : Desktop :=
  if slots.isEmpty then d
  else (d.log .debug "Cancelling touch sequence").send id .touch (.touch (.cancelling slots))

/-- Brings a window into another layer and parks it at a height to be sorted
from. Touch sequences in progress are cancelled. -/
def changeLayer (d : Desktop) (w : Window) (state : WindowState) (z : Int32) : Desktop :=
  let d := d.modify w.id fun w => { w with state, touching := [] }
  let d := d.cancelTouches w.id w.touching
  if d.registry.isSome then d.restack w.id z else d.setHeight w.id z

def notifyState (d : Desktop) (id : WindowId) (before after : WindowState) : Desktop :=
  if before = after then d else d.notify id (.stateChanged after)

def bring (d : Desktop) (w : Window) (state : WindowState) (z : Int32) (m : Message) : Desktop :=
  ((d.changeLayer w state z).send w.id .event m).notifyState w.id w.state state

def raise (d : Desktop) (id : WindowId) (caller : Group) : Desktop :=
  d.guardedDo id caller fun d w =>
    if w.state = .closed then d
    else
      let d := d.bring w w.state.raise Int32.maxValue .raise
      if d.isVisible id then d.damageWindow w else d

def lower (d : Desktop) (id : WindowId) (caller : Group) : Desktop :=
  d.guardedDo id caller fun d w =>
    if w.state = .closed then d
    else
      let wasVisible := w.isVisibleOn d.screen
      let d := d.bring w w.state.lower Int32.minValue .lower
      if wasVisible then d.damage none w.geometry else d

def setVisible (d : Desktop) (id : WindowId) (caller : Group) (visible : Bool) : Desktop :=
  d.guardedDo id caller fun d w =>
    let state := w.state.withVisible visible
    if state = w.state then d
    else
      let wasVisible := w.isVisibleOn d.screen
      let d := (d.modify id fun w => { w with state }).notify id (.stateChanged state)
      if d.isVisible id then d.damageWindow w
      else if wasVisible then d.damage none w.geometry
      else d

def closePipe (d : Desktop) (id : WindowId) (kind : ChannelKind) : Desktop :=
  match d.window? id with
  | none => d
  | some w =>
    let (c, delivery) := (w.pipe kind).close
    (d.modify id (·.setPipe c kind)).logDelivery delivery

def close (d : Desktop) (id : WindowId) (caller : Group) : Desktop :=
  d.guardedDo id caller fun d w =>
    if w.state = .closed then d
    else
      let wasVisible := w.isVisibleOn d.screen
      let d := d.modify id fun w =>
        { w with state := w.state.close, touching := [], enabled := false }
      let d := ChannelKind.all.foldl (·.closePipe id ·) d
      let d := (d.log .debug "Closed window").notify id (.stateChanged .closed)
      let d := (d.forget id).notify id .closed
      if wasVisible then d.damage none w.geometry else d

def forwardTouch (d : Desktop) (id : WindowId) (event : TouchEvent) : Desktop :=
  (d.modify id fun w => { w with touching := event.slotsAfter w.touching }).send id .touch
    (.touch event)

end InkCompositor.Desktop
