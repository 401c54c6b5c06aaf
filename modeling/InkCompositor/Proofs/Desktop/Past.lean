import Mathlib
import InkCompositor.Proofs.Desktop.Actions

/-!
# The past does not matter

What went before is kept, but nothing that is done depends on it: with other
effects before, the same new ones come about.
-/

set_option autoImplicit false

namespace InkCompositor.Desktop

open Wire

/-- The desktop, had other effects gone before. -/
def since (d : Desktop) (past : Array Effect) : Desktop := { d with trace := past ++ d.trace }

variable (d : Desktop) (past : Array Effect)

@[simp] theorem system_since : (d.since past).system = d.system := rfl

@[simp] theorem service_since : (d.since past).service = d.service := rfl

@[simp] theorem timings_since : (d.since past).timings = d.timings := rfl

@[simp] theorem temperature_since : (d.since past).temperature = d.temperature := rfl

@[simp] theorem groups_since : (d.since past).groups = d.groups := rfl

@[simp] theorem now_since : (d.since past).now = d.now := rfl

@[simp] theorem panel_since : (d.since past).panel = d.panel := rfl

@[simp] theorem pool_since : (d.since past).pool = d.pool := rfl

@[simp] theorem windows_since : (d.since past).windows = d.windows := rfl

@[simp] theorem ended_since : (d.since past).ended = d.ended := rfl

@[simp] theorem nextWindow_since : (d.since past).nextWindow = d.nextWindow := rfl

@[simp] theorem held_since : (d.since past).held = d.held := rfl

@[simp] theorem registry_since : (d.since past).registry = d.registry := rfl

@[simp] theorem queue_since : (d.since past).queue = d.queue := rfl

@[simp] theorem halted_since : (d.since past).halted = d.halted := rfl

@[simp] theorem nextHardwareMarker_since :
    (d.since past).nextHardwareMarker = d.nextHardwareMarker := rfl

@[simp] theorem deferred_since : (d.since past).deferred = d.deferred := rfl

@[simp] theorem ledger_since : (d.since past).ledger = d.ledger := rfl

@[simp] theorem attended_since : (d.since past).attended = d.attended := rfl

@[simp] theorem panicked_since : (d.since past).panicked = d.panicked := rfl

@[simp] theorem trace_since : (d.since past).trace = past ++ d.trace := rfl

@[simp] theorem screen_since : (d.since past).screen = d.screen := rfl

@[simp] theorem window?_since (id : WindowId) : (d.since past).window? id = d.window? id := rfl

@[simp] theorem isVisible_since (id : WindowId) :
    (d.since past).isVisible id = d.isVisible id := rfl

@[simp] theorem permits_since (id : WindowId) (caller : Group) :
    (d.since past).permits id caller = d.permits id caller := rfl

@[simp] theorem emit_since (e : Effect) : (d.since past).emit e = (d.emit e).since past := by
  simp [emit, since]

@[simp] theorem mk_since (system : System) (service : Group) (timings : Timings)
    (temperature : Int32) (groups : Groups) (now : Time) (panel : Panel) (pool : RasterPool)
    (windows ended : List Window) (nextWindow : WindowId) (held : List WindowId)
    (registry : Option Registry) (queue : List Repaint) (halted : Bool)
    (nextHardwareMarker : UInt32) (deferred : List WindowId) (ledger : Ledger Callback)
    (attended : Bool) (trace : Array Effect) (panicked : Bool) :
    Desktop.mk system service timings temperature groups now panel pool windows ended nextWindow
      held registry queue halted nextHardwareMarker deferred ledger attended (past ++ trace)
      panicked =
    (Desktop.mk system service timings temperature groups now panel pool windows ended nextWindow
      held registry queue halted nextHardwareMarker deferred ledger attended trace
      panicked).since past := rfl

@[simp] theorem ite_since (c : Prop) [Decidable c] (e : Desktop) :
    (if c then d.since past else e.since past) = (if c then d else e).since past := by
  split <;> rfl

@[simp] theorem log_since (level : Level) (text : String) :
    (d.since past).log level text = (d.log level text).since past := emit_since ..

@[simp] theorem notify_since (id : WindowId) (n : Notification) :
    (d.since past).notify id n = (d.notify id n).since past := emit_since ..

@[simp] theorem modify_since (id : WindowId) (f : Window → Window) :
    (d.since past).modify id f = (d.modify id f).since past := rfl

@[simp] theorem reckon_since (t : Time) :
    (d.since past).reckon t = (d.reckon t).since past := rfl

@[simp] theorem logDelivery_since (x : Delivery) :
    (d.since past).logDelivery x = (d.logDelivery x).since past := by
  unfold logDelivery
  split <;> simp

@[simp] theorem logCall_since (id : WindowId) (caller : Group) :
    (d.since past).logCall id caller = (d.logCall id caller).since past := by
  simp [logCall]

@[simp] theorem notifyState_since (id : WindowId) (before after : WindowState) :
    (d.since past).notifyState id before after = (d.notifyState id before after).since past := by
  simp [notifyState]

@[simp] theorem send_since (id : WindowId) (kind : ChannelKind) (m : Message) :
    (d.since past).send id kind m = (d.send id kind m).since past := by
  simp only [send, window?_since]
  split <;> simp

@[simp] theorem closePipe_since (id : WindowId) (kind : ChannelKind) :
    (d.since past).closePipe id kind = (d.closePipe id kind).since past := by
  simp only [closePipe, window?_since]
  split <;> simp

@[simp] theorem announceGeometry_since (id : WindowId) (old new : Rect) :
    (d.since past).announceGeometry id old new = (d.announceGeometry id old new).since past := by
  simp only [announceGeometry, window?_since]
  split <;> simp

@[simp] theorem announceImage_since (id : WindowId) :
    (d.since past).announceImage id = (d.announceImage id).since past := by
  simp only [announceImage, window?_since]
  split <;> simp

@[simp] theorem cancelTouches_since (id : WindowId) (slots : List Int32) :
    (d.since past).cancelTouches id slots = (d.cancelTouches id slots).since past := by
  simp [cancelTouches]

variable {past} in
theorem foldl_since {α : Type} {f : Desktop → α → Desktop}
    (hf : ∀ d a, f (d.since past) a = (f d a).since past) (l : List α) (d : Desktop) :
    l.foldl f (d.since past) = (l.foldl f d).since past := by
  induction l generalizing d with
  | nil => rfl
  | cons a l ih => rw [List.foldl_cons, hf, ih, List.foldl_cons]

@[simp] theorem logTimes_since (n : Nat) (level : Level) (text : String) :
    (d.since past).logTimes n level text = (d.logTimes n level text).since past := by
  rw [logTimes, logTimes]
  induction n with
  | zero => rfl
  | succ n ih => exact (congrArg (·.log level text) ih).trans (log_since ..)

@[simp] theorem runCallback_since (c : Callback) :
    (d.since past).runCallback c = (d.runCallback c).since past := by
  cases c <;> simp [runCallback]

@[simp] theorem addWait_since (window : Option WindowId) (marker : Marker) (c : Callback) :
    (d.since past).addWait window marker c = (d.addWait window marker c).since past := by
  simp only [addWait, ledger_since, now_since]
  split <;> simp

@[simp] theorem record_since (window : Option WindowId) (marker : Marker) (hw : UInt32) :
    (d.since past).record window marker hw = (d.record window marker hw).since past := by
  simp [record]

@[simp] theorem awaitPanel_since (marker : UInt32) (complaint : String) :
    (d.since past).awaitPanel marker complaint = (d.awaitPanel marker complaint).since past := by
  simp [awaitPanel]

@[simp] theorem tick_since : (d.since past).tick = d.tick.since past := by
  simp [tick, foldl_since]

@[simp] theorem stopWaiting_since : (d.since past).stopWaiting = d.stopWaiting.since past := by
  simp [stopWaiting, foldl_since]

@[simp] theorem openWindows_since : (d.since past).openWindows = d.openWindows := rfl

@[simp] theorem setHeight_since (id : WindowId) (z : Int32) :
    (d.since past).setHeight id z = (d.setHeight id z).since past := by
  simp only [setHeight, window?_since]
  split <;> simp

@[simp] theorem sortWindows_since : (d.since past).sortWindows = d.sortWindows.since past := by
  have hwindow : (d.since past).window? = d.window? := rfl
  simp only [sortWindows, registry_since, hwindow]
  split <;> simp [foldl_since]

@[simp] theorem restack_since (id : WindowId) (z : Int32) :
    (d.since past).restack id z = (d.restack id z).since past := by simp [restack]

@[simp] theorem forget_since (id : WindowId) :
    (d.since past).forget id = (d.forget id).since past := by
  simp only [forget, registry_since]
  split <;> simp

@[simp] theorem plan_since (q : Repaint) : (d.since past).plan q = d.plan q := rfl

@[simp] theorem logStack_since : (d.since past).logStack = d.logStack.since past :=
  logTimes_since ..

@[simp] theorem release_since (id : WindowId) :
    (d.since past).release id = (d.release id).since past := by
  have href : (d.since past).isReferenced id = d.isReferenced id := rfl
  simp only [release, href, window?_since]
  split
  · rfl
  split
  · rfl
  split <;> simp

@[simp] theorem releaseAll_since (ids : List WindowId) :
    (d.since past).releaseAll ids = (d.releaseAll ids).since past :=
  foldl_since (fun _ _ => release_since ..) ids d

@[simp] theorem takeHardwareMarker_since : (d.since past).takeHardwareMarker =
    (d.takeHardwareMarker.1.since past,d.takeHardwareMarker.2) := rfl

@[simp] theorem sendUpdate_since (rect : Rect) (waveform : Waveform) :
    (d.since past).sendUpdate rect waveform =
      ((d.sendUpdate rect waveform).1.since past,(d.sendUpdate rect waveform).2) := by
  rw [sendUpdate, sendUpdate, screen_since]
  simp only [takeHardwareMarker_since, temperature_since, log_since, panel_since]
  generalize (if rect = d.screen then UpdateMode.full else UpdateMode.partialArea) = mode
  split <;> simp

@[simp] theorem sendUpdates_since (waveform : Option Waveform) (area : List Rect) :
    (d.since past).sendUpdates waveform area =
      ((d.sendUpdates waveform area).1.since past,(d.sendUpdates waveform area).2) := by
  rw [sendUpdates_eq, sendUpdates_eq]
  generalize (0 : UInt32) = last
  induction area generalizing d last with
  | nil => rfl
  | cons rect area ih =>
    rw [List.foldl_cons, List.foldl_cons]
    simp [sendNext, ih]

@[simp] theorem redraw_since (q : Repaint) :
    (d.since past).redraw q = ((d.redraw q).1.since past,(d.redraw q).2) := by
  simp only [redraw, plan_since]
  split <;> simp

@[simp] theorem finish_since (q : Repaint) (hw : UInt32) :
    (d.since past).finish q hw = (d.finish q hw).since past := by
  simp only [finish, record_since]
  split <;> split <;> simp

@[simp] theorem process_since (q : Repaint) :
    (d.since past).process q = (d.process q).since past := by simp [process]

@[simp] theorem enqueue_since (q : Repaint) :
    (d.since past).enqueue q = (d.enqueue q).since past := by simp [enqueue]

@[simp] theorem reap_since : (d.since past).reap = d.reap.since past := by
  simp [reap, foldl_since]

theorem serveMany_since {f : Desktop → Repaint → Desktop}
    (hf : ∀ d q, f (d.since past) q = (f d q).since past) (n : Nat) :
    serveMany f n (d.since past) = (serveMany f n d).since past := by
  induction n generalizing d with
  | zero => rfl
  | succ n ih =>
    simp only [serveMany, queue_since]
    split <;> simp [hf, ih]

@[simp] theorem runPending_since :
    (d.since past).runPending = (d.runPending.1.since past,d.runPending.2) := by
  simp [runPending, serveMany_since]

@[simp] theorem settle_since : (d.since past).settle = d.settle.since past := by
  simp [settle]

@[simp] theorem clearScreen_since : (d.since past).clearScreen = d.clearScreen.since past := by
  simp only [clearScreen, panel_since]
  simp
  split <;> simp

@[simp] theorem halt_since : (d.since past).halt = d.halt.since past := by
  simp [halt, serveMany_since]

@[simp] theorem requestRepaint_since (window : Option WindowId) (region : Rect)
    (waveform : Option Waveform) (marker : Marker) :
    (d.since past).requestRepaint window region waveform marker =
      (d.requestRepaint window region waveform marker).since past := by
  have hwindow : (d.since past).window? = d.window? := rfl
  rw [requestRepaint, requestRepaint, hwindow]
  cases window.bind d.window? <;> simp

@[simp] theorem damage_since (window : Option WindowId) (region : Rect) :
    (d.since past).damage window region = (d.damage window region).since past := by
  simp [damage]

@[simp] theorem damageWindow_since (w : Window) :
    (d.since past).damageWindow w = (d.damageWindow w).since past := damage_since ..

variable {past} in
theorem guarded_since {α : Type} {call : Desktop → Window → Desktop × α}
    (hc : ∀ d w, call (d.since past) w = ((call d w).1.since past,(call d w).2)) (d : Desktop)
    (id : WindowId) (caller : Group) (denied : α) : (d.since past).guarded id caller denied call =
      ((d.guarded id caller denied call).1.since past,(d.guarded id caller denied call).2) := by
  simp only [guarded, logCall_since, window?_since, permits_since]
  split
  · split
    · exact hc ..
    · rfl
  · rfl

variable {past} in
theorem guardedDo_since {call : Desktop → Window → Desktop}
    (hc : ∀ d w, call (d.since past) w = (call d w).since past) (d : Desktop) (id : WindowId)
    (caller : Group) : (d.since past).guardedDo id caller call =
      (d.guardedDo id caller call).since past :=
  congrArg Prod.fst (guarded_since (fun d w => by rw [hc]) d id caller ())

theorem ask_since {α : Type} {answer : Desktop → Window → α}
    (ha : ∀ d w, answer (d.since past) w = answer d w) (id : WindowId) (caller : Group)
    (denied : α) : (d.since past).guarded id caller denied (fun d w => (d,answer d w)) =
      ((d.guarded id caller denied fun d w => (d,answer d w)).1.since past,
        (d.guarded id caller denied fun d w => (d,answer d w)).2) :=
  guarded_since (fun d w => by rw [ha]) d id caller denied

@[simp] theorem frameBuffer_since (id : WindowId) (caller : Group) :
    (d.since past).frameBuffer id caller =
      ((d.frameBuffer id caller).1.since past,(d.frameBuffer id caller).2) :=
  ask_since d past (fun _ _ => rfl) ..

@[simp] theorem sizeInBytes_since (id : WindowId) (caller : Group) :
    (d.since past).sizeInBytes id caller =
      ((d.sizeInBytes id caller).1.since past,(d.sizeInBytes id caller).2) :=
  ask_since d past (fun _ _ => rfl) ..

@[simp] theorem bytesPerLine_since (id : WindowId) (caller : Group) :
    (d.since past).bytesPerLine id caller =
      ((d.bytesPerLine id caller).1.since past,(d.bytesPerLine id caller).2) :=
  ask_since d past (fun _ _ => rfl) ..

@[simp] theorem imageFormat_since (id : WindowId) (caller : Group) :
    (d.since past).imageFormat id caller =
      ((d.imageFormat id caller).1.since past,(d.imageFormat id caller).2) :=
  ask_since d past (fun _ _ => rfl) ..

@[simp] theorem geometry_since (id : WindowId) (caller : Group) :
    (d.since past).geometry id caller =
      ((d.geometry id caller).1.since past,(d.geometry id caller).2) :=
  ask_since d past (fun _ _ => rfl) ..

@[simp] theorem visibility_since (id : WindowId) (caller : Group) :
    (d.since past).visibility id caller =
      ((d.visibility id caller).1.since past,(d.visibility id caller).2) :=
  ask_since d past (fun _ _ => rfl) ..

@[simp] theorem pipe_since (id : WindowId) (kind : ChannelKind) (caller : Group) :
    (d.since past).pipe id kind caller =
      ((d.pipe id kind caller).1.since past,(d.pipe id kind caller).2) :=
  ask_since d past (fun _ _ => rfl) ..

@[simp] theorem inspect_since (id : WindowId) (caller : Group) :
    (d.since past).inspect id caller =
      ((d.inspect id caller).1.since past,(d.inspect id caller).2) := by
  simp [inspect, ChannelKind.all]

@[simp] theorem allocateImage_since (w : Window) (geometry : Rect) :
    (d.since past).allocateImage w geometry = (d.allocateImage w geometry).since past := by
  simp only [allocateImage, pool_since]
  split
  · simp
  split <;> simp

@[simp] theorem replaceImage_since (id : WindowId) (geometry : Rect) :
    (d.since past).replaceImage id geometry =
      ((d.replaceImage id geometry).1.since past,(d.replaceImage id geometry).2) := by
  simp only [replaceImage, window?_since]
  split
  · rfl
  split
  · rfl
  split
  · simp
  rename_i w _ _ _
  cases w.image <;> simp

@[simp] theorem damageMove_since (id : WindowId) (wasVisible : Bool) (old : Rect) :
    (d.since past).damageMove id wasVisible old =
      (d.damageMove id wasVisible old).since past := by
  simp only [damageMove, damage_since, ite_since, window?_since]
  split <;> simp

@[simp] theorem setGeometry_since (id : WindowId) (caller : Group) (geometry : Rect) :
    (d.since past).setGeometry id caller geometry =
      (d.setGeometry id caller geometry).since past := by
  refine guardedDo_since (fun d w => ?_) d id caller
  rw [replaceImage_since]
  rcases d.replaceImage id geometry with ⟨e,_ | _⟩ <;> simp

@[simp] theorem resize_since (id : WindowId) (caller : Group) (width height : Int32) :
    (d.since past).resize id caller width height =
      ((d.resize id caller width height).1.since past,(d.resize id caller width height).2) :=
  guarded_since (fun d w => by simp) d id caller false

@[simp] theorem moveTo_since (id : WindowId) (caller : Group) (x y : Int32) :
    (d.since past).moveTo id caller x y = (d.moveTo id caller x y).since past :=
  guardedDo_since (fun d w => by simp) d id caller

@[simp] theorem repaint_since (id : WindowId) (caller : Group) (region : Option Rect)
    (waveform : Option Waveform) (marker : Marker) :
    (d.since past).repaint id caller region waveform marker =
      (d.repaint id caller region waveform marker).since past :=
  guardedDo_since (fun d w => by simp) d id caller

@[simp] theorem waitForMarker_since (id : WindowId) (caller : Group) (marker : Marker)
    (c : Callback) : (d.since past).waitForMarker id caller marker c =
      (d.waitForMarker id caller marker c).since past := by
  simp [waitForMarker]

@[simp] theorem standStill_since (resolved : Bool) (complaint : String) :
    (d.since past).standStill resolved complaint =
      (d.standStill resolved complaint).since past := by
  have hnew : (d.settle.since past).trace.extract (d.since past).trace.size
      (d.settle.since past).trace.size =
        d.settle.trace.extract d.trace.size d.settle.trace.size := by
    simp [Array.extract_append]
  simp only [standStill, settle_since, hnew, log_since, ite_since]

@[simp] theorem waitForLastUpdate_since (id : WindowId) (caller : Group) :
    (d.since past).waitForLastUpdate id caller = (d.waitForLastUpdate id caller).since past :=
  guardedDo_since (fun d w => by simp) d id caller

@[simp] theorem changeLayer_since (w : Window) (state : WindowState) (z : Int32) :
    (d.since past).changeLayer w state z = (d.changeLayer w state z).since past := by
  simp [changeLayer]

@[simp] theorem bring_since (w : Window) (state : WindowState) (z : Int32) (m : Message) :
    (d.since past).bring w state z m = (d.bring w state z m).since past := by
  simp [bring]

@[simp] theorem raise_since (id : WindowId) (caller : Group) :
    (d.since past).raise id caller = (d.raise id caller).since past :=
  guardedDo_since (fun d w => by simp) d id caller

@[simp] theorem lower_since (id : WindowId) (caller : Group) :
    (d.since past).lower id caller = (d.lower id caller).since past :=
  guardedDo_since (fun d w => by simp) d id caller

@[simp] theorem setVisible_since (id : WindowId) (caller : Group) (visible : Bool) :
    (d.since past).setVisible id caller visible = (d.setVisible id caller visible).since past :=
  guardedDo_since (fun d w => by simp) d id caller

@[simp] theorem close_since (id : WindowId) (caller : Group) :
    (d.since past).close id caller = (d.close id caller).since past :=
  guardedDo_since (fun d w => by simp [foldl_since]) d id caller

@[simp] theorem forwardTouch_since (id : WindowId) (event : TouchEvent) :
    (d.since past).forwardTouch id event = (d.forwardTouch id event).since past := by
  simp [forwardTouch]

@[simp] theorem pong_since (id : WindowId) : (d.since past).pong id = (d.pong id).since past := by
  simp only [pong, window?_since]
  split <;> simp

@[simp] theorem handleMessage_since (id : WindowId) (m : Message) :
    (d.since past).handleMessage id m = (d.handleMessage id m).since past := by
  simp only [handleMessage, window?_since]
  split
  · rfl
  cases m <;> simp

@[simp] theorem checkLiveness_since (id : WindowId) (now : Time) :
    (d.since past).checkLiveness id now = (d.checkLiveness id now).since past := by
  simp only [checkLiveness, window?_since]
  split
  · rfl
  split
  · rename_i since _
    by_cases hlate : since+d.timings.pingDeadline ≤ now
    · simp [hlate]
    · simp [hlate]
  · simp

@[simp] theorem receive_since (id : WindowId) :
    (d.since past).receive id = ((d.receive id).1.since past,(d.receive id).2) := by
  simp only [receive, window?_since]
  split <;> simp

@[simp] theorem serviceWindow_since (id : WindowId) (now : Time) :
    (d.since past).serviceWindow id now = (d.serviceWindow id now).since past := by
  simp only [serviceWindow, window?_since, receive_since]
  split
  · rfl
  rcases d.receive id with ⟨e,_ | _⟩ <;> simp [foldl_since]

@[simp] theorem serviceClients_since (now : Time) :
    (d.since past).serviceClients now = (d.serviceClients now).since past :=
  foldl_since (fun _ _ => serviceWindow_since ..) _ d

@[simp] theorem inputTargets_since : (d.since past).inputTargets = d.inputTargets := rfl

@[simp] theorem dispatch_since (input : HostInput) :
    (d.since past).dispatch input = (d.dispatch input).since past := by
  cases input <;> simp [dispatch, foldl_since]

@[simp] theorem windowsOf_since (group : Group) :
    (d.since past).windowsOf group = d.windowsOf group := rfl

@[simp] theorem handleLifecycle_since (event : Lifecycle) (group : Group) :
    (d.since past).handleLifecycle event group = (d.handleLifecycle event group).since past := by
  cases event <;> simp [handleLifecycle, closeWindows, lowerWindows, raiseWindows, showWindows,
    foldl_since]

@[simp] theorem newWindow_since (r : Registry) (owner : Group) (isSystem : Bool)
    (format : PixelFormat) :
    (d.since past).newWindow r owner isSystem format = d.newWindow r owner isSystem format := rfl

@[simp] theorem openWindow_since (r : Registry) (owner : Group) (isSystem : Bool)
    (geometry : Option Rect) (format : PixelFormat) :
    (d.since past).openWindow r owner isSystem geometry format =
      ((d.openWindow r owner isSystem geometry format).1.since past,
        (d.openWindow r owner isSystem geometry format).2) := by
  simp [openWindow]

@[simp] theorem createWindow_since (caller : Group) (geometry : Option Rect)
    (format : PixelFormat) : (d.since past).createWindow caller geometry format =
      ((d.createWindow caller geometry format).1.since past,
        (d.createWindow caller geometry format).2) := by
  simp only [createWindow, registry_since, groups_since]
  split
  · rfl
  by_cases hdenied : d.groups.holds .denied caller = true <;> simp [hdenied]

@[simp] theorem createSystemWindow_since (geometry : Option Rect) (format : PixelFormat) :
    (d.since past).createSystemWindow geometry format =
      ((d.createSystemWindow geometry format).1.since past,
        (d.createSystemWindow geometry format).2) := by
  simp only [createSystemWindow, registry_since, service_since]
  split <;> simp

@[simp] theorem giveUp_since (id : WindowId) :
    (d.since past).giveUp id = (d.giveUp id).since past := by
  simp [giveUp]

@[simp] theorem listWindows_since (caller : Group) (visibleOnly : Bool) :
    (d.since past).listWindows caller visibleOnly = d.listWindows caller visibleOnly := rfl

@[simp] theorem openWindow?_since (id : WindowId) :
    (d.since past).openWindow? id = d.openWindow? id := rfl

@[simp] theorem getWindow_since (caller : Group) (id : WindowId) :
    (d.since past).getWindow caller id =
      ((d.getWindow caller id).1.since past,(d.getWindow caller id).2) := by
  rw [getWindow, getWindow, openWindow?_since, service_since]
  split
  · rfl
  split
  · rfl
  · rw [log_since]

@[simp] theorem windowByPath_since (caller : Group) (path : String) :
    (d.since past).windowByPath caller path =
      ((d.windowByPath caller path).1.since past,(d.windowByPath caller path).2) := by
  simp only [windowByPath, registry_since]
  split
  · rfl
  split <;> simp

@[simp] theorem setEnabled_since (enabled : Bool) :
    (d.since past).setEnabled enabled = (d.setEnabled enabled).since past := by
  simp only [setEnabled, registry_since]
  split
  · rfl
  have hfold : ∀ (f : Window → Window) (ids : List WindowId) (e : Desktop),
      ids.foldl (fun d id => d.modify id f) (e.since past) =
        (ids.foldl (fun d id => d.modify id f) e).since past :=
    fun f ids e => foldl_since (fun _ _ => rfl) ids e
  simp [hfold]

@[simp] theorem repaintAndWait_since (window : Option WindowId) (region : Rect)
    (waveform : Option Waveform) (marker : Marker) :
    (d.since past).repaintAndWait window region waveform marker =
      (d.repaintAndWait window region waveform marker).since past := by
  have hwindow : (d.since past).window? = d.window? := rfl
  simp only [repaintAndWait, registry_since, hwindow]
  split
  · rfl
  split
  · simp
  by_cases hm : marker = 0 <;> simp [hm]

@[simp] theorem dropRegistry_since : (d.since past).dropRegistry = d.dropRegistry.since past := by
  simp only [dropRegistry, registry_since]
  split <;> simp

@[simp] theorem shutDown_since : (d.since past).shutDown = d.shutDown.since past := by
  simp [shutDown]

@[simp] theorem start_since : (d.since past).start = d.start.since past := by
  simp [start]

@[simp] theorem atPipe_since (id : WindowId) (kind : ChannelKind) (f : Channel → Channel) :
    (d.since past).atPipe id kind f = (d.atPipe id kind f).since past := by
  have hend : (d.since past).clientEnd? id kind = d.clientEnd? id kind := rfl
  simp only [atPipe, hend]
  split <;> simp [setClientEnd]

@[simp] theorem paintNext_since : (d.since past).paintNext = d.paintNext.since past := by
  simp only [paintNext, queue_since]
  split <;> simp

/-- An action does to a desktop what it does, whatever went before. -/
@[simp] theorem perform_since (a : Action) :
    (d.since past).perform a = (d.perform a).since past := by
  cases a <;> simp [perform, scribble, drawInto]

end InkCompositor.Desktop
