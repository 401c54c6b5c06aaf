import Mathlib
import InkCompositor.Proofs.Desktop.Operations

/-!
# Everything that can happen

The states of a desktop are those that come about from a fresh one by calls of
any group, by clients at their ends of the pipes and in the images they share,
by the supervisor, by painting and ticking in the background, and by what the
system and the panel refuse. All of them are sound.
-/

set_option autoImplicit false

namespace InkCompositor

open Wire

def Raster.overwrite (r : Raster) (bytes : Array UInt8) : Raster :=
  if h : bytes.size = r.bytes.size then r.withBytes bytes h else r

theorem Raster.overwrite_alike (r : Raster) (bytes : Array UInt8) :
    (r.overwrite bytes).Alike r := by
  unfold overwrite
  split
  · exact withBytes_alike ..
  · exact .refl r

inductive Action where
  | create (caller : Group) (geometry : Option Rect) (format : PixelFormat)
  | createSystem (geometry : Option Rect) (format : PixelFormat)
  | setGeometry (id : WindowId) (caller : Group) (geometry : Rect)
  | resize (id : WindowId) (caller : Group) (width height : Int32)
  | moveTo (id : WindowId) (caller : Group) (x y : Int32)
  | raise (id : WindowId) (caller : Group)
  | lower (id : WindowId) (caller : Group)
  | setVisible (id : WindowId) (caller : Group) (visible : Bool)
  | close (id : WindowId) (caller : Group)
  | repaint (id : WindowId) (caller : Group) (area : Option Rect) (waveform : Option Waveform)
      (marker : Marker)
  | wait (id : WindowId) (caller : Group) (marker : Marker) (callback : Callback)
  | waitForLast (id : WindowId) (caller : Group)
  | inspect (id : WindowId) (caller : Group)
  | takePipe (id : WindowId) (kind : ChannelKind) (caller : Group)
  | find (caller : Group) (id : WindowId)
  | giveUp (id : WindowId)
  | message (id : WindowId) (m : Message)
  | service
  | input (event : HostInput)
  | supervise (event : Lifecycle) (group : Group)
  | enable (enabled : Bool)
  | sort
  | dirty (window : Option WindowId) (area : Rect) (waveform : Option Waveform) (marker : Marker)
  | dirtyAndWait (window : Option WindowId) (area : Rect) (waveform : Option Waveform)
      (marker : Marker)
  | enqueue (q : Repaint)
  | addWait (window : Option WindowId) (marker : Marker) (callback : Callback)
  | runPending
  /-- One repaint is taken from the queue and painted. -/
  | paintNext
  | tick
  | advance (time : Nat)
  | clearScreen
  | halt
  | shutDown
  | start
  | dropRegistry
  /-- A client does something at its end of a pipe. -/
  | atPipe (id : WindowId) (kind : ChannelKind) (f : Channel → Channel)
  /-- A client overwrites the memory of its window's image. -/
  | scribble (id : WindowId) (bytes : Raster → Array UInt8)
  /-- A client overwrites the memory of its window's image and at once asks for
  a repaint of the rectangle it has written to. -/
  | present (id : WindowId) (bytes : Raster → Array UInt8) (caller : Group) (area : Rect)
      (waveform : Option Waveform) (marker : Marker)
  /-- Someone overwrites the memory of the panel. -/
  | deface (bytes : Array UInt8)
  /-- Something else holds of the groups from now on. -/
  | regroup (groups : Groups)
  /-- The panel refuses other updates and waits from now on. -/
  | refuse (updates : Update → Bool) (waits : UInt32 → Bool)
  /-- The system refuses memory to other attempts to allocate an image from now on. -/
  | exhaust (refuses : RasterId → Nat → Bool)

namespace Desktop

/-- Takes the first repaint from the queue. Once there is none, closed windows
are released. -/
def paintNext (d : Desktop) : Desktop :=
  match d.queue with
  | [] => d.reap
  | q :: rest => { d with queue := rest }.process q

def atPipe (d : Desktop) (id : WindowId) (kind : ChannelKind) (f : Channel → Channel) : Desktop :=
  match d.clientEnd? id kind with
  | none => d
  | some c => d.setClientEnd id kind (f c)

def scribble (d : Desktop) (id : WindowId) (bytes : Raster → Array UInt8) : Desktop :=
  d.drawInto id fun r => r.overwrite (bytes r)

def perform (d : Desktop) : Action → Desktop
  | .create caller geometry format => (d.createWindow caller geometry format).1
  | .createSystem geometry format => (d.createSystemWindow geometry format).1
  | .setGeometry id caller geometry => d.setGeometry id caller geometry
  | .resize id caller width height => (d.resize id caller width height).1
  | .moveTo id caller x y => d.moveTo id caller x y
  | .raise id caller => d.raise id caller
  | .lower id caller => d.lower id caller
  | .setVisible id caller visible => d.setVisible id caller visible
  | .close id caller => d.close id caller
  | .repaint id caller area waveform marker => d.repaint id caller area waveform marker
  | .wait id caller marker callback => d.waitForMarker id caller marker callback
  | .waitForLast id caller => d.waitForLastUpdate id caller
  | .inspect id caller => (d.inspect id caller).1
  | .takePipe id kind caller => (d.pipe id kind caller).1
  | .find caller id => (d.getWindow caller id).1
  | .giveUp id => d.giveUp id
  | .message id m => d.handleMessage id m
  | .service => d.serviceClients d.now
  | .input event => d.dispatch event
  | .supervise event group => d.handleLifecycle event group
  | .enable enabled => d.setEnabled enabled
  | .sort => d.sortWindows
  | .dirty window area waveform marker => d.requestRepaint window area waveform marker
  | .dirtyAndWait window area waveform marker => d.repaintAndWait window area waveform marker
  | .enqueue q => d.enqueue q
  | .addWait window marker callback => d.addWait window marker callback
  | .runPending => d.runPending.1
  | .paintNext => d.paintNext
  | .tick => d.tick
  | .advance time => { d with now := d.now+time }
  | .clearScreen => d.clearScreen
  | .halt => d.halt
  | .shutDown => d.shutDown
  | .start => d.start
  | .dropRegistry => d.dropRegistry
  | .atPipe id kind f => d.atPipe id kind f
  | .scribble id bytes => d.scribble id bytes
  | .present id bytes caller area waveform marker =>
    (d.scribble id bytes).repaint id caller (some area) waveform marker
  | .deface bytes => { d with panel := { d.panel with raster := d.panel.raster.overwrite bytes } }
  | .regroup groups => { d with groups }
  | .refuse updates waits => { d with panel := ⟨d.panel.raster,updates,waits⟩ }
  | .exhaust refuses => { d with pool := { d.pool with refuses } }

/-- The states that come about. The raster of the panel has the number zero;
pools count from one. -/
inductive Reachable : Desktop → Prop where
  | fresh (panel : Panel) (backing : Backing) (timings : Timings) (temperature : Int32)
      (service : Group) (system : System) : panel.raster.id = 0 →
      Reachable (fresh panel backing timings temperature service system)
  | act {d : Desktop} (a : Action) : Reachable d → Reachable (d.perform a)

variable {d : Desktop}

@[simp] theorem look_atPipe (id : WindowId) (kind : ChannelKind) (f : Channel → Channel) :
    (d.atPipe id kind f).look = d.look := by
  unfold atPipe
  split <;> simp

theorem sound_paintNext (h : d.look.Sound) : d.paintNext.look.Sound := by
  unfold paintNext
  split
  · exact sound_reap h
  · exact sound_process (sound_setQueue h _ _) _

theorem sound_scribble (h : d.look.Sound) (id : WindowId) (bytes : Raster → Array UInt8) :
    (d.scribble id bytes).look.Sound := sound_drawInto h id _ fun r => r.overwrite_alike _

theorem sound_fresh (panel : Panel) (backing : Backing) (timings : Timings) (temperature : Int32)
    (service : Group) (system : System) (h : panel.raster.id = 0) :
    (fresh panel backing timings temperature service system).look.Sound where
  panel := h
  fresh := Nat.one_pos
  known _ _ hw := by cases hw
  fitted _ _ hw := by cases hw
  tall _ := rfl
  ascending order sorted hs := by
    cases hs
    exact .nil
  stands order sorted hs id hid := by
    cases hs
    cases hid
  stacked order sorted hs := by
    cases hs
    exact ⟨[],[],⟨.nil,by simp,by simp⟩,rfl,by simp [raisedHeights, loweredHeights]⟩
  unclosed order sorted hs id hid := by
    cases hs
    cases hid

theorem sound_perform (h : d.look.Sound) (a : Action) : (d.perform a).look.Sound := by
  cases a with
  | create => exact sound_createWindow h ..
  | createSystem => exact sound_createSystemWindow h ..
  | setGeometry => exact sound_setGeometry h ..
  | resize => exact sound_resize h ..
  | moveTo => exact sound_moveTo h ..
  | raise => exact sound_raise h ..
  | lower => exact sound_lower h ..
  | setVisible => exact sound_setVisible h ..
  | close => exact sound_close h ..
  | repaint => exact sound_repaint h ..
  | waitForLast => exact sound_waitForLastUpdate h ..
  | giveUp => exact sound_giveUp h _
  | message => exact sound_handleMessage h ..
  | service => exact sound_serviceClients h _
  | supervise => exact sound_handleLifecycle h ..
  | sort => exact sound_sortWindows h.toReady h.unclosed
  | dirty => exact sound_requestRepaint h ..
  | dirtyAndWait => exact sound_repaintAndWait h ..
  | enqueue => exact sound_enqueue h _
  | runPending => exact sound_runPending h
  | paintNext => exact sound_paintNext h
  | clearScreen => exact sound_clearScreen h
  | halt => exact sound_halt h
  | shutDown => exact sound_shutDown h
  | start => exact sound_start h
  | dropRegistry => exact sound_dropRegistry h
  | scribble => exact sound_scribble h ..
  | present => exact sound_repaint (sound_scribble h ..) ..
  | deface => exact sound_setRaster h (Raster.overwrite_alike ..)
  | regroup => exact h.congr rfl le_rfl rfl rfl rfl rfl
  | advance | refuse | exhaust => exact h
  | _ => simpa [perform] using h

theorem Reachable.sound (h : Reachable d) : d.look.Sound := by
  induction h with
  | fresh panel backing timings temperature service system h0 => exact sound_fresh _ _ _ _ _ _ h0
  | act a _ ih => exact sound_perform ih a

/-- In every state that comes about, a repaint makes exactly the exposed pixels
what they are to be and sends exactly these to the panel. -/
theorem redraw_exact (h : Reachable d) (q : Repaint) :
    Redrawn d q (d.redraw q).1 (d.redraw q).2 := redrawn_redraw h.sound q

def smallPanel : Panel := .obedient {
  id := 0
  backing := .anonymous
  width := 4
  height := 3
  stride := 16
  format := .rgb32
  bytes := Array.replicate 48 0
  format_valid := by decide
  width_pos := by decide
  width_lt := by decide
  height_pos := by decide
  height_lt := by decide
  line_le := by decide
  fits := by simp
  size_lt := by decide }

/-- A small window, repainted far beyond its bounds. -/
theorem redraw_exact_small :
    let opened := (fresh smallPanel .anonymous {} 24 1).perform
      (.create 100 (some ⟨1,1,2,2⟩) .rgb16)
    let d := opened.perform (.setVisible 0 100 true)
    let q : Repaint := ⟨some 0,⟨-2147483648,0,2147483647,2147483647⟩,none,7,none⟩
    Reachable d ∧ Redrawn d q (d.redraw q).1 (d.redraw q).2 := by
  intro opened d q
  have h : Reachable d := .act _ (.act _ (.fresh smallPanel .anonymous {} 24 1 {} rfl))
  exact ⟨h,redraw_exact h q⟩

end Desktop

end InkCompositor
