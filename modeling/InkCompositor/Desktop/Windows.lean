import InkCompositor.Desktop.Messages

/-!
# The windows together

Opening windows, looking them up, the calls that concern all windows of a
group, and the forwarding of input to the windows that are visible.
-/

set_option autoImplicit false

namespace InkCompositor

open Wire

inductive HostInput where
  | touch (event : TouchEvent)
  | tablet (event : PenEvent)
  | key (event : KeyEvent)
  deriving DecidableEq, Repr

namespace Desktop

def newWindow (d : Desktop) (r : Registry) (owner : Group) (isSystem : Bool)
    (format : PixelFormat) : Window where
  id := d.nextWindow
  owner
  isSystem
  geometry := Rect.none
  z := 0
  format
  state := .loweredHidden
  image := none
  touching := []
  enabled := r.enabled
  lastMarker := 0
  touchPipe := .fresh (d.system.sockets d.nextWindow .touch)
  tabletPipe := .fresh (d.system.sockets d.nextWindow .tablet)
  keyPipe := .fresh (d.system.sockets d.nextWindow .key)
  eventPipe := .fresh (d.system.sockets d.nextWindow .event)
  liveness := ⟨d.now + d.timings.pingInterval, none, false⟩

/-- Opens a window, hidden and lowered. It covers the screen unless a geometry
is given. -/
def openWindow (d : Desktop) (r : Registry) (owner : Group) (isSystem : Bool)
    (geometry : Option Rect) (format : PixelFormat) : Desktop × WindowId :=
  let w := d.newWindow r owner isSystem format
  let d := { d with
    windows := d.windows ++ [w]
    nextWindow := w.id + 1
    held := d.held ++ [w.id] }.reckon w.liveness.nextPing
  let (d, _) := (d.log .debug "Created window").replaceImage w.id (geometry.getD d.screen)
  let d := { d with registry := some { r with toWindowMap := r.insert w.id } }
  (d.sortWindows.log .info "Window created", w.id)

/-- Opens a window of a client, unless its group may not open windows. -/
def createWindow (d : Desktop) (caller : Group) (geometry : Option Rect) (format : PixelFormat) :
    Desktop × Option WindowId :=
  match d.registry with
  | none => (d, none)
  | some r =>
    if d.groups.holds .denied caller then (d.log .debug "DENY", none)
    else
      let (d, id) := d.openWindow r caller false geometry format
      (d, some id)

def createSystemWindow (d : Desktop) (geometry : Option Rect) (format : PixelFormat) :
    Desktop × Option WindowId :=
  match d.registry with
  | none => (d, none)
  | some r =>
    let (d, id) := d.openWindow r d.service true geometry format
    (d.setVisible id d.service true, some id)

def giveUp (d : Desktop) (id : WindowId) : Desktop :=
  { d with held := d.held.filter (· != id) }.release id

def openWindows (d : Desktop) : List Window :=
  match d.registry with
  | none => []
  | some r => r.inOrder.filterMap d.window?

def listWindows (d : Desktop) (caller : Group) (visibleOnly : Bool) : List WindowId :=
  (d.openWindows.filter fun w =>
    (caller == d.service || caller == w.owner) &&
      (!visibleOnly || w.isVisibleOn d.screen)).map (·.id)

def openWindow? (d : Desktop) (id : WindowId) : Option Window :=
  match d.registry with
  | none => none
  | some r => if r.has id then d.window? id else none

def getWindow (d : Desktop) (caller : Group) (id : WindowId) : Desktop × Option WindowId :=
  match d.openWindow? id with
  | none => (d, none)
  | some w =>
    if caller == d.service || caller == w.owner then (d, some id)
    else (d.log .debug "DENY", none)

def windowPath (id : WindowId) : String := "/window/" ++ Color.hexDigits 32 id

def windowByPath (d : Desktop) (caller : Group) (path : String) : Desktop × Option WindowId :=
  match d.registry with
  | none => (d, none)
  | some r =>
    match r.ids.find? (windowPath · == path) with
    | none => (d, none)
    | some id => d.getWindow caller id

def windowsOf (d : Desktop) (group : Group) : List WindowId :=
  (d.openWindows.filter (·.owner == group)).map (·.id)

def closeWindows (d : Desktop) (group : Group) : Desktop :=
  (d.windowsOf group).foldl (fun d id => d.close id d.service) d

def lowerWindows (d : Desktop) (group : Group) : Desktop :=
  (d.windowsOf group).foldl (fun d id => d.lower id d.service) d

def raiseWindows (d : Desktop) (group : Group) : Desktop :=
  (d.windowsOf group).foldl (fun d id => d.raise id d.service) d

def showWindows (d : Desktop) (group : Group) (visible : Bool) : Desktop :=
  (d.windowsOf group).foldl (fun d id => d.setVisible id d.service visible) d

def handleLifecycle (d : Desktop) (event : Lifecycle) (group : Group) : Desktop :=
  let d := d.log .debug "Supervisor event"
  match event with
  | .paused => d.showWindows group false
  | .resumed => d.showWindows group true
  | .exited => d.closeWindows group
  | .foreground => d.raiseWindows group
  | .background => d.lowerWindows group

def serviceClients (d : Desktop) (now : Time) : Desktop :=
  (d.openWindows.map (·.id)).foldl (·.serviceWindow · now) d

def setEnabled (d : Desktop) (enabled : Bool) : Desktop :=
  match d.registry with
  | none => d
  | some r =>
    let d := d.log .debug "Window registry enabled state changed"
    let d := { d with registry := some { r with enabled } }
    (d.openWindows.map (·.id)).foldl (fun d id =>
      d.modify id fun w => if w.state = .closed then w else { w with enabled }) d

def inputTargets (d : Desktop) : List WindowId :=
  (d.sortedWindows.filter fun w =>
    w.isVisibleOn d.screen && !d.groups.holds .paused w.owner).map (·.id)

/-- Forwards input to every visible window whose group is not paused. -/
def dispatch (d : Desktop) (input : HostInput) : Desktop :=
  let targets := d.inputTargets
  match input with
  | .touch event =>
    let event := event.normalized d.screen
    targets.foldl (·.forwardTouch · event) d
  | .tablet event => targets.foldl (·.send · .tablet (.tablet event)) d
  | .key event => targets.foldl (·.send · .key (.key event)) d

/-- Requests a repaint and stands still until it is on the glass. Without a
marker of the caller's an internal one is taken. -/
def repaintAndWait (d : Desktop) (window : Option WindowId) (region : Rect)
    (waveform : Option Waveform) (marker : Marker) : Desktop :=
  match d.registry with
  | none => d
  | some r =>
    if (window.bind d.window?).any (·.state == .closed) then
      d.requestRepaint window region waveform marker
    else
      let (d, marker) := if marker = 0
        then ({ d with registry := some { r with nextInternal := r.nextInternal + 1 } },
          r.nextInternal)
        else (d, marker)
      let resolved := d.ledger.resolvesAtOnce window marker
      let d := d.addWait window marker .proceed
      let d := d.enqueue ⟨window, region, waveform, marker, none⟩
      d.standStill resolved "Synchronous repaint was not resolved in time"

/-- The stack is given up. Its windows go on without one, those that nobody
else holds on to end with it. -/
def dropRegistry (d : Desktop) : Desktop :=
  match d.registry with
  | none => d
  | some r => { d with registry := none }.releaseAll r.sorted

/-- Ends all activity: clients are no longer serviced, repaints and waits
count as done, and nothing goes on in the background any more. -/
def shutDown (d : Desktop) : Desktop := { (d.setEnabled false).halt with attended := false }

def start (d : Desktop) : Desktop := { d with attended := true }.clearScreen.settle

end Desktop

end InkCompositor
