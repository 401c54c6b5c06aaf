import InkCompositor.Client.Channel
import InkCompositor.Client.Touch
import InkCompositor.Config.Settings
import InkCompositor.Desktop.Group
import InkCompositor.Desktop.WindowState
import InkCompositor.Display.Panel
import InkCompositor.Logging.Level
import InkCompositor.Marker.Ledger
import InkCompositor.Raster.Pool

/-!
# The state of the desktop

Everything the compositor knows: the windows with their images and pipes, the
stack they form, the queue of repaints, the ledger of waits, the panel and the
clock. What can be seen from outside is kept as a trace of effects in the
order in which they came about.
-/

set_option autoImplicit false

namespace InkCompositor

open Wire

structure Liveness where
  nextPing : Time
  awaitingSince : Option Time
  unresponsive : Bool
  deriving DecidableEq, Repr

structure Window where
  id : WindowId
  owner : Group
  /-- The background windows of the service lie below all others. -/
  isSystem : Bool
  geometry : Rect
  z : Int32
  format : PixelFormat
  state : WindowState
  image : Option Raster
  /-- Touch slots in contact, in ascending order. -/
  touching : List Int32
  enabled : Bool
  /-- The last marker asked for. -/
  lastMarker : Marker
  touchPipe : Channel
  tabletPipe : Channel
  keyPipe : Channel
  eventPipe : Channel
  liveness : Liveness

namespace Window

def pipe (w : Window) : ChannelKind → Channel
  | .touch => w.touchPipe
  | .tablet => w.tabletPipe
  | .key => w.keyPipe
  | .event => w.eventPipe

def setPipe (w : Window) (c : Channel) : ChannelKind → Window
  | .touch => { w with touchPipe := c }
  | .tablet => { w with tabletPipe := c }
  | .key => { w with keyPipe := c }
  | .event => { w with eventPipe := c }

/-- The window with its image gone and its pipes given up. -/
def ending (w : Window) : Window :=
  { w with
    image := none
    touchPipe := w.touchPipe.shutDown
    tabletPipe := w.tabletPipe.shutDown
    keyPipe := w.keyPipe.shutDown
    eventPipe := w.eventPipe.shutDown }

def localRect (w : Window) : Rect := w.geometry.atOrigin

def isVisibleOn (w : Window) (screen : Rect) : Bool :=
  w.state.isShown && w.image.isSome && w.geometry.intersects screen

def imageInfo (w : Window) : Nat × Nat × PixelFormat :=
  match w.image with
  | some r => (r.size, r.stride, r.format)
  | none => (0, 0, .invalid)

end Window

inductive Notification where
  | geometryChanged (old new : Rect)
  | imageChanged
  | stateChanged (state : WindowState)
  | zChanged (z : Int32)
  | closed
  deriving DecidableEq, Repr

inductive Callback where
  /-- Someone outside is called back. -/
  | outside (tag : String)
  /-- The client of a window is told on its event pipe. -/
  | answer (window : WindowId) (marker : UInt32)
  /-- A caller that stands still goes on. -/
  | proceed
  deriving DecidableEq, Repr

/-- What can be seen from outside. -/
inductive Effect where
  | logged (level : Level) (text : String)
  | notified (window : WindowId) (what : Notification)
  | calledBack (callback : Callback)
  | updated (update : Update) (taken : Bool)
  /-- A processed repaint has its record. -/
  | recorded (window : Option WindowId) (marker : Marker) (hardwareMarker : UInt32)
  | awaited (hardwareMarker : UInt32)
  /-- An image was to be allocated for a window; `given` if there was one. -/
  | attempted (window : WindowId) (given : Bool)
  deriving DecidableEq, Repr

structure Repaint where
  /-- The window to repaint; all windows under the region if there is none. -/
  window : Option WindowId
  /-- In coordinates of the window, or of the screen. -/
  region : Rect
  /-- The waveform; chosen from the painted colors if there is none. -/
  waveform : Option Waveform
  marker : Marker
  callback : Option Callback
  deriving DecidableEq, Repr

def Repaint.everything (region : Rect) : Repaint := ⟨none, region, none, 0, none⟩

structure WindowMap where
  /-- Those that can be looked up. -/
  ids : List WindowId
  /-- In the order of creation. -/
  order : List WindowId
  nodup : ids.Nodup
  same : ∀ id, id ∈ ids ↔ id ∈ order
  deriving Repr

namespace WindowMap

def empty : WindowMap := ⟨[], [], .nil, fun _ => .rfl⟩

def has (m : WindowMap) (id : WindowId) : Bool := m.ids.contains id

def inOrder (m : WindowMap) : List WindowId := m.order.filter m.has

def insert (m : WindowMap) (id : WindowId) : WindowMap where
  ids := id :: m.ids.filter (· != id)
  order := m.order ++ [id]
  nodup := List.nodup_cons.2 ⟨by simp, m.nodup.filter _⟩
  same j := by
    by_cases h : j = id
    · simp [h]
    · simp [h, m.same]

def remove (m : WindowMap) (id : WindowId) : WindowMap where
  ids := m.ids.filter (· != id)
  order := m.order.filter (· != id)
  nodup := m.nodup.filter _
  same j := by simp [m.same]

end WindowMap

structure Registry extends WindowMap where
  /-- From the bottom to the top, as of the last sorting. -/
  sorted : List WindowId
  enabled : Bool
  /-- The next marker for a repaint whose caller stands still. Those markers
  lie above all that clients can send. -/
  nextInternal : Marker
  deriving Repr

def Registry.fresh : Registry := ⟨.empty, [], true, 4294967296⟩

/-- What the system under the compositor decides. -/
structure System where
  /-- How the sockets of each window's pipes take what is written. -/
  sockets : WindowId → ChannelKind → Socket := fun _ _ => .usual
  /-- Whether it refuses memory to an attempt to allocate an image. -/
  refuses : RasterId → Nat → Bool := fun _ => Raster.unaddressable
  /-- No time from here on can be expressed. -/
  horizon : Time := 9223372036854775808000

structure Desktop where
  system : System
  /-- The group that may act on every window. -/
  service : Group
  timings : Timings
  temperature : Int32
  groups : Groups
  now : Time
  panel : Panel
  pool : RasterPool
  /-- All windows that still exist, closed ones included. -/
  windows : List Window
  /-- The windows that no longer exist, kept for what their clients have not
  read yet. -/
  ended : List Window
  nextWindow : WindowId
  /-- Windows that someone outside holds on to. -/
  held : List WindowId
  registry : Option Registry
  queue : List Repaint
  /-- Whether repaints are refused. -/
  halted : Bool
  nextHardwareMarker : UInt32
  /-- Closed windows that are kept for what may still refer to them. -/
  deferred : List WindowId
  ledger : Ledger Callback
  /-- Whether painting and ticking go on by themselves. -/
  attended : Bool
  trace : Array Effect
  /-- Whether the program has ended in a panic. Nothing else counts then. -/
  panicked : Bool

namespace Desktop

def fresh (panel : Panel) (backing : Backing) (timings : Timings) (temperature : Int32)
    (service : Group) (system : System := {}) : Desktop where
  system
  service
  timings
  temperature
  groups := .unremarkable
  now := 0
  panel
  pool := .ofBacking backing system.refuses
  windows := []
  ended := []
  nextWindow := 0
  held := []
  registry := some .fresh
  queue := []
  halted := false
  nextHardwareMarker := 1
  deferred := []
  ledger := .fresh timings.waitTimeout timings.recordLifetime
  attended := false
  trace := #[]
  panicked := false

/-- What comes of a call that leads to this state: nothing if it ends in a panic. -/
def running? (d : Desktop) : Option Desktop := if d.panicked then none else some d

/-- A time is computed. If it cannot be expressed that ends the program. -/
def reckon (d : Desktop) (t : Time) : Desktop :=
  { d with panicked := d.panicked || decide (d.system.horizon ≤ t) }

def screen (d : Desktop) : Rect := d.panel.screen

def window? (d : Desktop) (id : WindowId) : Option Window := d.windows.find? (·.id == id)

def modify (d : Desktop) (id : WindowId) (f : Window → Window) : Desktop :=
  { d with windows := d.windows.map fun w => if w.id = id then f w else w }

def isVisible (d : Desktop) (id : WindowId) : Bool :=
  (d.window? id).any (·.isVisibleOn d.screen)

def emit (d : Desktop) (e : Effect) : Desktop := { d with trace := d.trace.push e }

def log (d : Desktop) (level : Level) (text : String) : Desktop := d.emit (.logged level text)

def notify (d : Desktop) (id : WindowId) (n : Notification) : Desktop := d.emit (.notified id n)

def deliveryLog : Delivery → Option (Level × String)
  | .dropped => some (.warn, "Event channel full, dropping message")
  | .cut => some (.warn, "Partial write on event channel, closing it")
  | .failed => some (.debug, "Event channel write failed")
  | .sent | .closed => none

def logDelivery (d : Desktop) (delivery : Delivery) : Desktop :=
  match deliveryLog delivery with
  | some (level, text) => d.log level text
  | none => d

def send (d : Desktop) (id : WindowId) (kind : ChannelKind) (m : Message) : Desktop :=
  match d.window? id with
  | none => d
  | some w =>
    let (c, delivery) := (w.pipe kind).send m
    (d.modify id (·.setPipe c kind)).logDelivery delivery

def announceGeometry (d : Desktop) (id : WindowId) (old new : Rect) : Desktop :=
  match d.window? id with
  | none => d
  | some w => (d.send id .event (.geometry new w.z)).notify id (.geometryChanged old new)

def announceImage (d : Desktop) (id : WindowId) : Desktop :=
  match d.window? id with
  | none => d
  | some w =>
    let (size, stride, format) := w.imageInfo
    ((d.send id .event (.imageInfo (.ofNat size) (.ofNat stride) format.code)).send id .event
      .frameBuffer).notify id .imageChanged

/-- Whether a group may act on a window: its owner and the service may. -/
def permits (d : Desktop) (id : WindowId) (caller : Group) : Bool :=
  caller == d.service || (d.window? id).any (·.owner == caller)

def logCall (d : Desktop) (id : WindowId) (caller : Group) : Desktop :=
  if d.permits id caller then d.log .trace "ALLOW" else d.log .debug "DENY"

end Desktop

end InkCompositor
