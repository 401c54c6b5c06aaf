import Mathlib
import InkCompositor.Desktop.Clients

/-!
# The look of a desktop

The part of the state that painting depends on: the raster of the panel, the
faces and heights of the windows, the stack they form and the queue of
repaints. Messages, notifications, waits and everything else that goes on
beside it leaves the look alone.
-/

set_option autoImplicit false

namespace InkCompositor

open Wire

namespace Window

/-- What a window shows of itself. Its height is looked at apart from it. -/
def face (w : Window) : Window :=
  { w with
    z := 0
    touching := []
    enabled := false
    lastMarker := 0
    touchPipe := .fresh
    tabletPipe := .fresh
    keyPipe := .fresh
    eventPipe := .fresh
    liveness := ⟨0,none,false⟩ }

@[simp] theorem face_setPipe (w : Window) (c : Channel) (kind : ChannelKind) :
    (w.setPipe c kind).face = w.face := by cases kind <;> rfl

@[simp] theorem z_setPipe (w : Window) (c : Channel) (kind : ChannelKind) :
    (w.setPipe c kind).z = w.z := by cases kind <;> rfl

theorem not_closed_of_visible {w : Window} {s : Rect} (h : w.isVisibleOn s = true) :
    w.state ≠ .closed := by
  intro hc
  simp [Window.isVisibleOn, hc, WindowState.isShown] at h

end Window

namespace WindowMap

variable (m : WindowMap) (id : WindowId)

@[simp] theorem has_iff : m.has id = true ↔ id ∈ m.order := by
  rw [has, List.contains_iff_mem, m.same]

@[simp] theorem inOrder_eq : m.inOrder = m.order :=
  List.filter_eq_self.2 fun id hid => (m.has_iff id).2 hid

@[simp] theorem order_insert : (m.insert id).order = m.order ++ [id] := rfl

@[simp] theorem order_remove : (m.remove id).order = m.order.filter (· != id) := rfl

end WindowMap

structure Look where
  raster : Raster
  groups : Groups
  halted : Bool
  /-- The open windows in the order of creation, and from the bottom to the top. -/
  stack : Option (List WindowId × List WindowId)
  queue : List Repaint
  nextImage : RasterId
  nextWindow : WindowId
  face : WindowId → Option Window
  height : WindowId → Option Int32

namespace Desktop

def look (d : Desktop) : Look where
  raster := d.panel.raster
  groups := d.groups
  halted := d.halted
  stack := d.registry.map fun r => (r.order,r.sorted)
  queue := d.queue
  nextImage := d.pool.next
  nextWindow := d.nextWindow
  face id := (d.window? id).map Window.face
  height id := (d.window? id).map (·.z)

variable (d : Desktop)

theorem mem_of_window? {d : Desktop} {id : WindowId} {w : Window} (h : d.window? id = some w) :
    w ∈ d.windows := List.mem_of_find?_eq_some h

theorem id_of_window? {id : WindowId} {w : Window} (h : d.window? id = some w) : w.id = id := by
  simpa using List.find?_some h

theorem window?_modify (id : WindowId) (f : Window → Window) (hf : ∀ w, (f w).id = w.id)
    (j : WindowId) : (d.modify id f).window? j =
      (d.window? j).map fun w => if w.id = id then f w else w := by
  rw [window?, modify, List.find?_map]
  congr 2
  funext w
  by_cases h : w.id = id <;> simp [h, hf]

theorem look_modify_eq (id : WindowId) (f : Window → Window) (hf : ∀ w, (f w).id = w.id) :
    (d.modify id f).look = { d.look with
      face := fun j => (d.window? j).map fun w => (if w.id = id then f w else w).face
      height := fun j => (d.window? j).map fun w => (if w.id = id then f w else w).z } := by
  simp only [look, window?_modify d id f hf, Option.map_map]
  rfl

theorem look_modify (id : WindowId) (f : Window → Window)
    (hf : ∀ w, (f w).face = w.face ∧ (f w).z = w.z) : (d.modify id f).look = d.look := by
  have h1 : ∀ w : Window, (if w.id = id then f w else w).face = w.face := fun w => by
    by_cases h : w.id = id <;> simp [h, (hf w).1]
  have h2 : ∀ w : Window, (if w.id = id then f w else w).z = w.z := fun w => by
    by_cases h : w.id = id <;> simp [h, (hf w).2]
  rw [look_modify_eq d id f fun w => show (f w).face.id = w.face.id by rw [(hf w).1]]
  simp only [h1, h2]
  rfl

theorem look_if_modify (c : Prop) [Decidable c] (id : WindowId) (f : Window → Window)
    (hf : ∀ w, (f w).face = w.face ∧ (f w).z = w.z) :
    (if c then d else d.modify id f).look = d.look := by
  split
  · rfl
  · exact look_modify d id f hf

variable {d} in
theorem look_setRegistry {r s : Registry} (hr : d.registry = some r) (ho : s.order = r.order)
    (hs : s.sorted = r.sorted) : { d with registry := some s }.look = d.look := by
  simp only [look, hr, Option.map_some, ho, hs]
  rfl

variable {d} in
theorem openWindows_eq {r : Registry} (hr : d.registry = some r) :
    d.openWindows = r.order.filterMap d.window? := by
  simp only [openWindows, hr, r.inOrder_eq]

@[simp] theorem look_emit (e : Effect) : (d.emit e).look = d.look := rfl

@[simp] theorem look_log (level : Level) (text : String) : (d.log level text).look = d.look := rfl

@[simp] theorem look_notify (id : WindowId) (n : Notification) : (d.notify id n).look = d.look :=
  rfl

@[simp] theorem look_logDelivery (x : Delivery) : (d.logDelivery x).look = d.look := by
  cases x <;> rfl

@[simp] theorem look_setPipe (id : WindowId) (kind : ChannelKind) (c : Channel) :
    (d.modify id (·.setPipe c kind)).look = d.look := look_modify d id _ (by simp)

@[simp] theorem look_send (id : WindowId) (kind : ChannelKind) (m : Message) :
    (d.send id kind m).look = d.look := by
  unfold send
  split <;> simp

@[simp] theorem look_announceGeometry (id : WindowId) (old new : Rect) :
    (d.announceGeometry id old new).look = d.look := by
  unfold announceGeometry
  split <;> simp

@[simp] theorem look_announceImage (id : WindowId) : (d.announceImage id).look = d.look := by
  unfold announceImage
  split <;> simp

@[simp] theorem look_logCall (id : WindowId) (caller : Group) :
    (d.logCall id caller).look = d.look := by
  unfold logCall
  split <;> simp

@[simp] theorem look_cancelTouches (id : WindowId) (slots : List Int32) :
    (d.cancelTouches id slots).look = d.look := by
  unfold cancelTouches
  split <;> simp

@[simp] theorem look_notifyState (id : WindowId) (s t : WindowState) :
    (d.notifyState id s t).look = d.look := by
  unfold notifyState
  split <;> simp

@[simp] theorem look_bring (w : Window) (state : WindowState) (z : Int32) (m : Wire.Message) :
    (d.bring w state z m).look = (d.changeLayer w state z).look := by simp [bring]

@[simp] theorem look_closePipe (id : WindowId) (kind : ChannelKind) :
    (d.closePipe id kind).look = d.look := by
  unfold closePipe
  split <;> simp

theorem look_foldl {α : Type} (f : Desktop → α → Desktop) (hf : ∀ d a, (f d a).look = d.look)
    (l : List α) : (l.foldl f d).look = d.look := by
  induction l generalizing d with
  | nil => rfl
  | cons a l ih => rw [List.foldl_cons, ih, hf]

@[simp] theorem look_logTimes (n : Nat) (level : Level) (text : String) :
    (d.logTimes n level text).look = d.look := by
  rw [logTimes]
  induction n with
  | zero => rfl
  | succ n ih => rw [Nat.repeat, look_log, ih]

@[simp] theorem look_logStack : d.logStack.look = d.look := look_logTimes ..

@[simp] theorem look_runCallback (c : Callback) : (d.runCallback c).look = d.look := by
  cases c <;> simp [runCallback]

@[simp] theorem look_addWait (window : Option WindowId) (marker : Marker) (c : Callback) :
    (d.addWait window marker c).look = d.look := by
  unfold addWait
  split
  · rfl
  · rw [look_runCallback, look_log]
    rfl

@[simp] theorem look_record (window : Option WindowId) (marker : Marker) (hw : UInt32) :
    (d.record window marker hw).look = d.look := rfl

@[simp] theorem look_awaitPanel (marker : UInt32) (complaint : String) :
    (d.awaitPanel marker complaint).look = d.look := by
  simp only [awaitPanel]
  split <;> simp

@[simp] theorem look_tick : d.tick.look = d.look := by
  rw [tick, look_foldl _ _ look_runCallback, look_foldl _ _ (by simp), look_logTimes]
  rfl

@[simp] theorem look_stopWaiting : d.stopWaiting.look = d.look := by
  have h := look_foldl { d with ledger := d.ledger.shutDown.1 } _ look_runCallback
    d.ledger.shutDown.2
  simp only [stopWaiting]
  split
  · exact h
  · rw [look_log]
    exact h

variable {d} in
theorem logCall_same (id : WindowId) (caller : Group) :
    (d.logCall id caller).window? id = d.window? id ∧
      (d.logCall id caller).permits id caller = d.permits id caller := by
  unfold logCall
  split <;> exact ⟨rfl,rfl⟩

variable {d} in
theorem guardedDo_permitted {id : WindowId} {caller : Group} {w : Window}
    (hw : d.window? id = some w) (hp : d.permits id caller = true)
    (call : Desktop → Window → Desktop) :
    d.guardedDo id caller call = call (d.logCall id caller) w := by
  obtain ⟨hfind,hperm⟩ := logCall_same (d := d) id caller
  simp only [guardedDo, guarded, hfind, hw, hperm, hp, if_true]

variable {d} in
theorem guarded_cases {α : Type} {P : Desktop → Prop} {id : WindowId} {caller : Group} {denied : α}
    {call : Desktop → Window → Desktop × α} (hd : P (d.logCall id caller))
    (hc : ∀ w, (d.logCall id caller).window? id = some w → P (call (d.logCall id caller) w).1) :
    P (d.guarded id caller denied call).1 := by
  simp only [guarded]
  split
  · rename_i w hw
    split
    · exact hc w hw
    · exact hd
  · exact hd

variable {d} in
theorem guardedDo_cases {P : Desktop → Prop} {id : WindowId} {caller : Group}
    {call : Desktop → Window → Desktop} (hd : P (d.logCall id caller))
    (hc : ∀ w, (d.logCall id caller).window? id = some w → P (call (d.logCall id caller) w)) :
    P (d.guardedDo id caller call) := guarded_cases hd hc

variable {d} in
theorem guardedDo_open {P : Desktop → Prop} {id : WindowId} {caller : Group}
    {call : Desktop → Window → Desktop} (hd : P (d.logCall id caller))
    (hc : ∀ w, (d.logCall id caller).window? id = some w → w.state ≠ .closed →
      P (call (d.logCall id caller) w)) :
    P (d.guardedDo id caller fun d w => if w.state = .closed then d else call d w) :=
  guardedDo_cases hd fun w hw => by
    split
    · exact hd
    · exact hc w hw ‹_›

theorem look_ask {α : Type} (id : WindowId) (caller : Group) (denied : α)
    (answer : Desktop → Window → α) :
    (d.guarded id caller denied fun d w => (d,answer d w)).1.look = d.look :=
  guarded_cases (P := fun e => e.look = d.look) (look_logCall ..) fun _ _ => look_logCall ..

@[simp] theorem look_frameBuffer (id : WindowId) (caller : Group) :
    (d.frameBuffer id caller).1.look = d.look := look_ask ..

@[simp] theorem look_sizeInBytes (id : WindowId) (caller : Group) :
    (d.sizeInBytes id caller).1.look = d.look := look_ask ..

@[simp] theorem look_bytesPerLine (id : WindowId) (caller : Group) :
    (d.bytesPerLine id caller).1.look = d.look := look_ask ..

@[simp] theorem look_imageFormat (id : WindowId) (caller : Group) :
    (d.imageFormat id caller).1.look = d.look := look_ask ..

@[simp] theorem look_geometry (id : WindowId) (caller : Group) :
    (d.geometry id caller).1.look = d.look := look_ask ..

@[simp] theorem look_visibility (id : WindowId) (caller : Group) :
    (d.visibility id caller).1.look = d.look := look_ask ..

@[simp] theorem look_pipe (id : WindowId) (kind : ChannelKind) (caller : Group) :
    (d.pipe id kind caller).1.look = d.look := look_ask ..

@[simp] theorem look_inspect (id : WindowId) (caller : Group) :
    (d.inspect id caller).1.look = d.look := by
  simp [inspect, ChannelKind.all]

@[simp] theorem look_getWindow (caller : Group) (id : WindowId) :
    (d.getWindow caller id).1.look = d.look := by
  unfold getWindow
  split
  · rfl
  · split <;> rfl

@[simp] theorem look_waitForMarker (id : WindowId) (caller : Group) (marker : Marker)
    (c : Callback) : (d.waitForMarker id caller marker c).look = d.look := by
  simp only [waitForMarker]
  split <;> simp

@[simp] theorem look_pong (id : WindowId) : (d.pong id).look = d.look := by
  have h := look_modify d id (fun w =>
    { w with liveness := { w.liveness with awaitingSince := none, unresponsive := false } })
    fun w => ⟨rfl,rfl⟩
  unfold pong
  split
  · rfl
  · split <;> simpa using h

@[simp] theorem look_checkLiveness (id : WindowId) (now : Time) :
    (d.checkLiveness id now).look = d.look := by
  have h := fun f : Liveness → Liveness =>
    look_modify d id (fun w => { w with liveness := f w.liveness }) fun w => ⟨rfl,rfl⟩
  unfold checkLiveness
  split
  · rfl
  split
  · split
    · rfl
    split
    · rw [look_log]
      exact h fun l => { l with unresponsive := true }
    · rfl
  · split
    · rw [look_send]
      exact h fun l => { l with awaitingSince := some now, nextPing := now+d.timings.pingInterval }
    · rfl

@[simp] theorem look_receive (id : WindowId) : (d.receive id).1.look = d.look := by
  unfold receive
  split <;> simp

@[simp] theorem look_forwardTouch (id : WindowId) (e : TouchEvent) :
    (d.forwardTouch id e).look = d.look := by
  rw [forwardTouch, look_send]
  exact look_modify d id _ fun w => ⟨rfl,rfl⟩

@[simp] theorem look_dispatch (input : HostInput) : (d.dispatch input).look = d.look := by
  cases input with
  | touch e => exact look_foldl d _ (fun d id => look_forwardTouch d id _) _
  | tablet e => exact look_foldl d _ (fun d id => look_send d id _ _) _
  | key e => exact look_foldl d _ (fun d id => look_send d id _ _) _

@[simp] theorem look_setEnabled (enabled : Bool) : (d.setEnabled enabled).look = d.look := by
  unfold setEnabled
  split
  · rfl
  · rename_i r hr
    refine (look_foldl _ _ (fun d id => look_modify d id _ fun w => ?_) _).trans ?_
    · by_cases h : w.state = .closed
      · simp [h]
      · rw [if_neg h]
        exact ⟨rfl,rfl⟩
    · exact look_setRegistry (d := d.log .debug _) hr rfl rfl

@[simp] theorem look_setClientEnd (id : WindowId) (kind : ChannelKind) (c : Channel) :
    (d.setClientEnd id kind c).look = d.look := look_setPipe d id kind c

@[simp] theorem look_takeHardwareMarker : d.takeHardwareMarker.1.look = d.look := rfl

@[simp] theorem look_sendUpdate (r : Rect) (waveform : Waveform) :
    (d.sendUpdate r waveform).1.look = d.look := by
  simp [sendUpdate, apply_ite Prod.fst, apply_ite look]

def sendNext (waveform : Option Waveform) (p : Desktop × UInt32) (r : Rect) : Desktop × UInt32 :=
  ((p.1.sendUpdate r (waveform.getD (p.1.panel.raster.waveformFor r))).1,
    (p.1.sendUpdate r (waveform.getD (p.1.panel.raster.waveformFor r))).2.getD p.2)

theorem sendUpdates_eq (waveform : Option Waveform) (area : List Rect) :
    d.sendUpdates waveform area = area.foldl (sendNext waveform) (d,0) := by
  apply congrArg (fun f => area.foldl f (d,0))
  funext p r
  rcases h : p.1.sendUpdate r (waveform.getD (p.1.panel.raster.waveformFor r)) with ⟨e,_ | m⟩ <;>
    simp [sendNext, h]

@[simp] theorem look_sendUpdates (waveform : Option Waveform) (area : List Rect) :
    (d.sendUpdates waveform area).1.look = d.look := by
  rw [sendUpdates_eq]
  generalize (0 : UInt32) = last
  induction area generalizing d last with
  | nil => rfl
  | cons r area ih => exact (ih _ _).trans (look_sendUpdate ..)

end Desktop

end InkCompositor
