import InkCompositor.Desktop.Completion
import InkCompositor.Desktop.Stacking
import InkCompositor.Geometry.Region

/-!
# Painting

Repaints are taken from the queue in order. Each is painted from the windows
as they are by then, one update per painted rectangle goes to the panel, and a
record goes into the ledger. Once the queue is empty, closed windows that no
wait refers to are released.
-/

set_option autoImplicit false

namespace InkCompositor

namespace Desktop

def isReferenced (d : Desktop) (id : WindowId) : Bool :=
  d.held.contains id || d.deferred.contains id ||
    d.registry.any (fun r => r.has id || r.sorted.contains id) ||
    d.queue.any (·.window == some id)

def release (d : Desktop) (id : WindowId) : Desktop :=
  if d.isReferenced id then d
  else
    match d.window? id with
    | none => d
    | some w =>
      let d := { d with
        windows := d.windows.filter (·.id != id)
        ended := d.ended ++ [w.ending] }
      let d := match w.image with
        | some r => { d with pool := d.pool.release r.id }.log .debug "Released pixel buffer"
        | none => d
      d.log .debug "Destroyed window"

def releaseAll (d : Desktop) (ids : List WindowId) : Desktop := ids.foldl release d

/-- Whether the processes behind a window still run. System windows need
none. -/
def hasProcess (d : Desktop) (w : Window) : Bool := w.isSystem || !d.groups.holds .gone w.owner

def visibleStack (d : Desktop) : List Window :=
  d.sortedWindows.filter fun w => w.isVisibleOn d.screen && d.hasProcess w

def logStack (d : Desktop) : Desktop :=
  let orphans := d.sortedWindows.filter fun w => w.isVisibleOn d.screen && !d.hasProcess w
  d.logTimes orphans.length .warn "Window without running process"

def targetOf (d : Desktop) (q : Repaint) : Rect :=
  match q.window with
  | none => q.region.intersected d.screen
  | some id =>
    let bounds := ((d.window? id).map (·.geometry)).getD Rect.none
    ((q.region.translated bounds.x bounds.y).intersected bounds).intersected d.screen

inductive Plan where
  | offScreen
  | notVisible
  | occluded
  /-- Paint the windows in each of the rectangles, over the background if
  `clear`. -/
  | paint (windows : List Window) (clear : Bool) (area : List Rect)

def uncoveredBy (above : List Window) (target : Rect) : Region :=
  above.foldl (fun region w =>
    let covered := w.geometry.intersected target
    if covered.isEmpty then region else region.subtract covered) (.ofRect target)

def plan (d : Desktop) (q : Repaint) : Plan :=
  let target := d.targetOf q
  if target.isEmpty then .offScreen
  else
    match q.window with
    | none => .paint d.visibleStack true (Region.ofRect target).rects
    | some id =>
      match d.visibleStack.dropWhile (·.id != id) with
      | [] => .notVisible
      | w :: above =>
        let region := uncoveredBy above target
        if region.isEmpty then .occluded else .paint [w] false region.rects

end Desktop

def Raster.paintWindow (fb : Raster) (area : Rect) (w : Window) : Raster :=
  match w.image with
  | some image => fb.draw image w.geometry.origin area
  | none => fb

def Raster.compose (fb : Raster) (windows : List Window) (clear : Bool) (area : Rect) : Raster :=
  windows.foldl (·.paintWindow area) (if clear then fb.fillRect area fb.format.background else fb)

namespace Desktop

def takeHardwareMarker (d : Desktop) : Desktop × UInt32 :=
  let marker := if d.nextHardwareMarker = 0 then 1 else d.nextHardwareMarker
  ({ d with nextHardwareMarker := marker + 1 }, marker)

def sendUpdate (d : Desktop) (rect : Rect) (waveform : Waveform) : Desktop × Option UInt32 :=
  let mode := if rect = d.screen then .full else .partialArea
  let (d, marker) := d.takeHardwareMarker
  let update : Update := ⟨rect, waveform, mode, marker, d.temperature⟩
  let d := d.log .debug "Sending screen update"
  if d.panel.refusesUpdate update then
    ((d.emit (.updated update false)).log .warn "Screen update failed", none)
  else (d.emit (.updated update true), some marker)

/-- Sends one update per rectangle. Yields the marker of the last one that the
panel took, 0 if it took none. -/
def sendUpdates (d : Desktop) (waveform : Option Waveform) (area : List Rect) :
    Desktop × UInt32 :=
  area.foldl (fun (d, last) rect =>
    match d.sendUpdate rect (waveform.getD (d.panel.raster.waveformFor rect)) with
    | (d, some marker) => (d, marker)
    | (d, none) => (d, last)) (d, 0)

/-- Paints a repaint and sends its updates. Yields the marker of the last
update that the panel took, 0 if it took none. -/
def redraw (d : Desktop) (q : Repaint) : Desktop × UInt32 :=
  match d.plan q with
  | .offScreen => (d.log .warn "Repaint region does not intersect the screen", 0)
  | .notVisible => (d.logStack.log .debug "Skipping repaint of window that is not visible", 0)
  | .occluded => (d.logStack.log .debug "Repaint fully occluded", 0)
  | .paint windows clear area =>
    let d := d.logStack
    let fb := area.foldl (fun fb rect => fb.compose windows clear rect) d.panel.raster
    let d := { d with panel := { d.panel with raster := fb } }
    let (d, marker) := d.sendUpdates q.waveform area
    (d.log .trace "Repaint done", marker)

def finish (d : Desktop) (q : Repaint) (hardwareMarker : UInt32) : Desktop :=
  let d := d.record q.window q.marker hardwareMarker
  let d := match q.callback with
    | some c => d.runCallback c
    | none => d
  match q.window with
  | some id => d.release id
  | none => d

def process (d : Desktop) (q : Repaint) : Desktop :=
  let (d, marker) := d.redraw q
  d.finish q marker

/-- Queues a repaint. Once painting has stopped it counts as done at once. -/
def enqueue (d : Desktop) (q : Repaint) : Desktop :=
  let d := d.log .trace "Queueing repaint"
  if d.halted then d.finish q 0 else { d with queue := d.queue ++ [q] }

def reap (d : Desktop) : Desktop :=
  let (keep, free) := d.deferred.partition d.ledger.refersTo
  free.foldl (fun d id =>
    { d with deferred := d.deferred.erase id }.log .debug "Releasing closed window" |>.release id)
    { d with deferred := keep ++ free }

def serveMany (f : Desktop → Repaint → Desktop) : Nat → Desktop → Desktop
  | 0, d => d
  | n + 1, d =>
    match d.queue with
    | [] => d
    | q :: rest => serveMany f n (f { d with queue := rest } q)

/-- Paints everything queued. Painting queues nothing, so the repaints there
are by now are all. Yields their number. -/
def runPending (d : Desktop) : Desktop × Nat :=
  ((serveMany process d.queue.length d).reap, d.queue.length)

def settle (d : Desktop) : Desktop := if d.attended then d.runPending.1.tick else d

def clearScreen (d : Desktop) : Desktop :=
  let d := { d with panel := { d.panel with raster := d.panel.raster.fill .white } }
  let (d, first) := d.sendUpdate d.screen .clear
  let (d, second) := d.sendUpdate d.screen .highQualityGrayscale
  match second.or first with
  | some marker => d.awaitPanel marker "Waiting for screen clear failed"
  | none => d

def halt (d : Desktop) : Desktop :=
  let count := d.queue.length
  let d := serveMany (·.finish · 0) count { d with halted := true }
  let d := if count = 0 then d else d.log .info "Resolved queued repaints on shutdown"
  let closed := d.deferred
  ({ d with deferred := [] }.releaseAll closed).stopWaiting

end Desktop

end InkCompositor
