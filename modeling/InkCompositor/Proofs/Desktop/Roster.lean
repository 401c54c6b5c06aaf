import Mathlib
import InkCompositor.Proofs.Desktop.Books
import InkCompositor.Proofs.Desktop.Isolation
import InkCompositor.Proofs.Desktop.Touches

/-!
# The roster of windows

Which windows are in the stack and which closed ones are kept. Both change in a
few places only: where a window is opened or closed, where the stack is given
up, and where closed windows are released.
-/

set_option autoImplicit false

namespace InkCompositor

open Wire

structure Roster where
  /-- The windows in the stack, if there still is one, in the order of their creation. -/
  listed : Option (List WindowId)
  /-- The closed windows that are kept, in the order in which they were closed. -/
  kept : List WindowId

namespace Desktop

def roster (d : Desktop) : Roster := ⟨d.registry.map (·.order),d.deferred⟩

variable (d : Desktop)

@[simp] theorem roster_emit (e : Effect) : (d.emit e).roster = d.roster := rfl

@[simp] theorem roster_log (level : Level) (text : String) : (d.log level text).roster = d.roster :=
  rfl

@[simp] theorem roster_notify (id : WindowId) (n : Notification) :
    (d.notify id n).roster = d.roster := rfl

@[simp] theorem roster_modify (id : WindowId) (f : Window → Window) :
    (d.modify id f).roster = d.roster := rfl

theorem roster_foldl {α : Type} (f : Desktop → α → Desktop)
    (hf : ∀ d a, (f d a).roster = d.roster) (l : List α) : (l.foldl f d).roster = d.roster := by
  induction l generalizing d with
  | nil => rfl
  | cons a l ih => rw [List.foldl_cons, ih, hf]

theorem roster_usePipe (id : WindowId) (kind : ChannelKind) (use : Channel → Channel × Delivery) :
    (d.usePipe id kind use).roster = d.roster := by
  obtain ⟨windows,trace,he⟩ := usePipe_frame d id kind use
  rw [he]
  rfl

@[simp] theorem roster_send (id : WindowId) (kind : ChannelKind) (m : Message) :
    (d.send id kind m).roster = d.roster := d.roster_usePipe id kind (·.send m)

@[simp] theorem roster_closePipe (id : WindowId) (kind : ChannelKind) :
    (d.closePipe id kind).roster = d.roster := d.roster_usePipe id kind Channel.close

@[simp] theorem roster_logCall (id : WindowId) (caller : Group) :
    (d.logCall id caller).roster = d.roster := by
  unfold logCall
  split <;> rfl

@[simp] theorem roster_logTimes (n : Nat) (level : Level) (text : String) :
    (d.logTimes n level text).roster = d.roster := by
  rw [logTimes]
  induction n with
  | zero => rfl
  | succ n ih => rw [Nat.repeat, roster_log, ih]

@[simp] theorem roster_announceGeometry (id : WindowId) (old new : Rect) :
    (d.announceGeometry id old new).roster = d.roster := by
  unfold announceGeometry
  split <;> simp

@[simp] theorem roster_announceImage (id : WindowId) : (d.announceImage id).roster = d.roster := by
  unfold announceImage
  split <;> simp

@[simp] theorem roster_cancelTouches (id : WindowId) (slots : List Int32) :
    (d.cancelTouches id slots).roster = d.roster := by
  unfold cancelTouches
  split <;> simp

@[simp] theorem roster_notifyState (id : WindowId) (before after : WindowState) :
    (d.notifyState id before after).roster = d.roster := by
  unfold notifyState
  split <;> rfl

@[simp] theorem roster_forwardTouch (id : WindowId) (event : TouchEvent) :
    (d.forwardTouch id event).roster = d.roster := by simp [forwardTouch]

@[simp] theorem roster_setHeight (id : WindowId) (z : Int32) :
    (d.setHeight id z).roster = d.roster := by
  unfold setHeight
  split
  · rfl
  · split <;> rfl

@[simp] theorem roster_sortWindows : d.sortWindows.roster = d.roster := by
  unfold sortWindows
  split
  · rfl
  · rename_i r hr
    dsimp only
    generalize raisedHeights _ ++ loweredHeights _ = heights
    have hf := congrArg Roster.kept (d.roster_foldl (fun d p => d.setHeight p.1 p.2)
      (fun d p => d.roster_setHeight p.1 p.2) heights)
    simp only [roster, hr] at hf ⊢
    rw [hf]
    rfl

@[simp] theorem roster_release (id : WindowId) : (d.release id).roster = d.roster := by
  unfold release
  split
  · rfl
  split
  · rfl
  · dsimp only
    split <;> rfl

@[simp] theorem roster_releaseAll (ids : List WindowId) : (d.releaseAll ids).roster = d.roster :=
  d.roster_foldl release roster_release ids

@[simp] theorem roster_awaitPanel (m : UInt32) (complaint : String) :
    (d.awaitPanel m complaint).roster = d.roster := by
  unfold awaitPanel
  dsimp only
  split <;> rfl

@[simp] theorem roster_runCallback (c : Callback) : (d.runCallback c).roster = d.roster := by
  cases c <;> simp [runCallback]

@[simp] theorem roster_addWait (window : Option WindowId) (marker : Marker) (c : Callback) :
    (d.addWait window marker c).roster = d.roster := by
  unfold addWait
  split
  · rfl
  · rw [roster_runCallback]
    rfl

@[simp] theorem roster_tick : d.tick.roster = d.roster := by
  rw [tick, roster_foldl _ _ roster_runCallback, roster_foldl _ _ fun d p => by simp,
    roster_logTimes]
  rfl

@[simp] theorem roster_sendUpdate (rect : Rect) (waveform : Waveform) :
    (d.sendUpdate rect waveform).1.roster = d.roster := by
  have ht : d.takeHardwareMarker.1.roster = d.roster := rfl
  rw [sendUpdate_eq]
  split <;> simp only [roster_log, roster_emit, ht]

@[simp] theorem roster_sendUpdates (waveform : Option Waveform) (area : List Rect) :
    (d.sendUpdates waveform area).1.roster = d.roster := by
  rw [sendUpdates_eq]
  generalize (0 : UInt32) = last
  induction area generalizing d last with
  | nil => rfl
  | cons rect area ih => exact (ih ..).trans (d.roster_sendUpdate ..)

@[simp] theorem roster_redraw (q : Repaint) : (d.redraw q).1.roster = d.roster := by
  unfold redraw logStack
  split
  · rfl
  · simp
  · simp
  · dsimp only
    rw [roster_log, roster_sendUpdates]
    exact roster_logTimes ..

@[simp] theorem roster_finish (q : Repaint) (mark : UInt32) :
    (d.finish q mark).roster = d.roster := by
  have hr : (d.record q.window q.marker mark).roster = d.roster := rfl
  unfold finish
  dsimp only
  split <;> split <;> simp [hr]

@[simp] theorem roster_process (q : Repaint) : (d.process q).roster = d.roster :=
  (roster_finish ..).trans (d.roster_redraw q)

theorem roster_serveMany {f : Desktop → Repaint → Desktop}
    (hf : ∀ d q, (f d q).roster = d.roster) (n : Nat) : (serveMany f n d).roster = d.roster := by
  induction n generalizing d with
  | zero => rfl
  | succ n ih =>
    rw [serveMany]
    split
    · rfl
    · exact (ih _).trans (hf ..)

@[simp] theorem roster_enqueue (q : Repaint) : (d.enqueue q).roster = d.roster := by
  unfold enqueue
  dsimp only
  split
  · simp
  · rfl

@[simp] theorem roster_requestRepaint (window : Option WindowId) (region : Rect)
    (waveform : Option Waveform) (marker : Marker) :
    (d.requestRepaint window region waveform marker).roster = d.roster := by
  unfold requestRepaint
  split
  · split
    · rfl
    · simp
  · simp

@[simp] theorem roster_damage (window : Option WindowId) (region : Rect) :
    (d.damage window region).roster = d.roster := by
  unfold damage
  split <;> simp

@[simp] theorem roster_damageWindow (w : Window) : (d.damageWindow w).roster = d.roster :=
  roster_damage ..

@[simp] theorem roster_clearScreen : d.clearScreen.roster = d.roster := by
  simp only [clearScreen]
  split <;> simp <;> rfl

section

variable {d} {id : WindowId} {caller : Group} {α : Type}

theorem roster_guarded {denied : α} {call : Desktop → Window → Desktop × α}
    (h : ∀ d w, (call d w).1.roster = d.roster) :
    (d.guarded id caller denied call).1.roster = d.roster :=
  guarded_cases (P := fun e => e.roster = d.roster) (d.roster_logCall id caller) fun w _ =>
    (h _ w).trans (d.roster_logCall id caller)

theorem roster_guardedDo {call : Desktop → Window → Desktop}
    (h : ∀ d w, (call d w).roster = d.roster) : (d.guardedDo id caller call).roster = d.roster :=
  roster_guarded h

end

@[simp] theorem roster_allocateImage (w : Window) (geometry : Rect) :
    (d.allocateImage w geometry).roster = d.roster := by
  unfold allocateImage
  split
  · rfl
  · split <;> rfl

@[simp] theorem roster_replaceImage (id : WindowId) (geometry : Rect) :
    (d.replaceImage id geometry).1.roster = d.roster := by
  unfold replaceImage
  split
  · rfl
  split
  · rfl
  split
  · rfl
  dsimp only
  rw [roster_announceImage]
  split <;> split <;> simp <;> rfl

@[simp] theorem roster_damageMove (id : WindowId) (wasVisible : Bool) (old : Rect) :
    (d.damageMove id wasVisible old).roster = d.roster := by
  have h : (if wasVisible then d.damage none old else d).roster = d.roster := by
    split <;> simp
  unfold damageMove
  generalize (if wasVisible then d.damage none old else d) = e at h ⊢
  dsimp only
  split
  · split
    · rw [roster_damageWindow, h]
    · exact h
  · exact h

@[simp] theorem roster_setGeometry (id : WindowId) (caller : Group) (geometry : Rect) :
    (d.setGeometry id caller geometry).roster = d.roster := roster_guardedDo fun d w => by
  have h := d.roster_replaceImage id geometry
  split
  · rename_i he
    rw [roster_damageMove, ← h, he]
  · rename_i he
    rw [← h, he]

theorem roster_ask {α : Type} (id : WindowId) (caller : Group) (denied : α)
    (answer : Desktop → Window → α) :
    (d.guarded id caller denied fun d w => (d,answer d w)).1.roster = d.roster :=
  roster_guarded fun _ _ => rfl

@[simp] theorem roster_resize (id : WindowId) (caller : Group) (width height : Int32) :
    (d.resize id caller width height).1.roster = d.roster :=
  roster_guarded fun d _ => (roster_ask ..).trans (d.roster_setGeometry ..)

@[simp] theorem roster_moveTo (id : WindowId) (caller : Group) (x y : Int32) :
    (d.moveTo id caller x y).roster = d.roster := roster_guardedDo fun d w => by
  dsimp only
  split <;> simp

@[simp] theorem roster_repaint (id : WindowId) (caller : Group) (region : Option Rect)
    (waveform : Option Waveform) (marker : Marker) :
    (d.repaint id caller region waveform marker).roster = d.roster := roster_guardedDo fun d w => by
  have h : (if marker = 0 then d else d.modify id fun w => { w with lastMarker := marker }).roster =
      d.roster := by split <;> rfl
  generalize (if marker = 0 then d else d.modify id fun w => { w with lastMarker := marker }) = e
    at h ⊢
  dsimp only
  split
  · rw [roster_requestRepaint, h]
  · exact h

@[simp] theorem roster_waitForMarker (id : WindowId) (caller : Group) (marker : Marker)
    (c : Callback) : (d.waitForMarker id caller marker c).roster = d.roster := by
  unfold waitForMarker
  dsimp only
  split <;> simp

@[simp] theorem roster_changeLayer (w : Window) (state : WindowState) (z : Int32) :
    (d.changeLayer w state z).roster = d.roster := by simp [changeLayer_eq]

@[simp] theorem roster_bring (w : Window) (state : WindowState) (z : Int32) (m : Message) :
    (d.bring w state z m).roster = d.roster := by simp [bring]

@[simp] theorem roster_raise (id : WindowId) (caller : Group) :
    (d.raise id caller).roster = d.roster := roster_guardedDo fun d w => by
  split
  · rfl
  · dsimp only
    split <;> simp

@[simp] theorem roster_lower (id : WindowId) (caller : Group) :
    (d.lower id caller).roster = d.roster := roster_guardedDo fun d w => by
  split
  · rfl
  · dsimp only
    split <;> simp

@[simp] theorem roster_setVisible (id : WindowId) (caller : Group) (visible : Bool) :
    (d.setVisible id caller visible).roster = d.roster := roster_guardedDo fun d w => by
  dsimp only
  split
  · rfl
  split
  · simp
  split <;> simp

@[simp] theorem roster_receive (id : WindowId) : (d.receive id).1.roster = d.roster := by
  unfold receive
  split <;> rfl

@[simp] theorem roster_checkLiveness (id : WindowId) (now : Time) :
    (d.checkLiveness id now).roster = d.roster := by
  unfold checkLiveness
  split
  · rfl
  split
  · split
    · rfl
    split <;> rfl
  · split
    · rw [roster_send]
      rfl
    · rfl

theorem roster_handleMessage (id : WindowId) {m : Message} (hm : m ≠ .close) :
    (d.handleMessage id m).roster = d.roster := by
  unfold handleMessage
  split
  · rfl
  cases m with
  | close => exact absurd rfl hm
  | repaint =>
    dsimp only
    rw [roster_repaint]
    split <;> rfl
  | geometry =>
    dsimp only
    split <;> simp
  | ping =>
    show (d.pong id).roster = _
    unfold pong
    split
    · rfl
    · dsimp only
      split <;> rfl
  | _ => simp

@[simp] theorem roster_getWindow (caller : Group) (id : WindowId) :
    (d.getWindow caller id).1.roster = d.roster := by
  unfold getWindow
  split
  · rfl
  · split <;> rfl

@[simp] theorem roster_inspect (id : WindowId) (caller : Group) :
    (d.inspect id caller).1.roster = d.roster := by
  simp only [inspect, ChannelKind.all, List.foldl_cons, List.foldl_nil]
  iterate 10 refine (roster_ask ..).trans ?_
  rfl

@[simp] theorem roster_giveUp (id : WindowId) : (d.giveUp id).roster = d.roster :=
  roster_release ..

@[simp] theorem roster_setEnabled (enabled : Bool) : (d.setEnabled enabled).roster = d.roster := by
  unfold setEnabled
  split
  · rfl
  · rename_i r hr
    refine (roster_foldl _ _ (fun e id => e.roster_modify id _) _).trans ?_
    simp [roster, hr, log, emit]

@[simp] theorem roster_dispatch (input : HostInput) : (d.dispatch input).roster = d.roster := by
  cases input with
  | touch event => exact d.roster_foldl _ (fun d id => d.roster_forwardTouch id _) _
  | tablet event => exact d.roster_foldl _ (fun d id => d.roster_send id _ _) _
  | key event => exact d.roster_foldl _ (fun d id => d.roster_send id _ _) _

@[simp] theorem roster_atPipe (id : WindowId) (kind : ChannelKind) (f : Channel → Channel) :
    (d.atPipe id kind f).roster = d.roster := by
  unfold atPipe
  split <;> rfl

theorem roster_openWindow (r : Registry) (owner : Group) (isSystem : Bool)
    (geometry : Option Rect) (format : PixelFormat) :
    (d.openWindow r owner isSystem geometry format).1.roster =
      ⟨some (r.order ++ [d.nextWindow]),d.deferred⟩ := by
  have hf : (d.furnished (d.newWindow r owner isSystem format) geometry).roster = d.roster :=
    (roster_replaceImage ..).trans rfl
  rw [openWindow_eq, roster_log, roster_sortWindows]
  exact congrArg (Roster.mk _) (congrArg Roster.kept hf)

theorem roster_createWindow (caller : Group) (geometry : Option Rect) (format : PixelFormat) :
    ∃ more, (d.createWindow caller geometry format).1.roster =
      ⟨d.roster.listed.map (· ++ more),d.deferred⟩ := by
  unfold createWindow
  split
  · rename_i hr
    exact ⟨[],by simp [roster, hr]⟩
  rename_i r hr
  split
  · exact ⟨[],by simp [roster, hr, log, emit]⟩
  · refine ⟨[d.nextWindow],(d.roster_openWindow r caller false geometry format).trans ?_⟩
    simp [roster, hr]

theorem roster_createSystemWindow (geometry : Option Rect) (format : PixelFormat) :
    ∃ more, (d.createSystemWindow geometry format).1.roster =
      ⟨d.roster.listed.map (· ++ more),d.deferred⟩ := by
  unfold createSystemWindow
  split
  · rename_i hr
    exact ⟨[],by simp [roster, hr]⟩
  · rename_i r hr
    refine ⟨[d.nextWindow],(roster_setVisible ..).trans
      ((d.roster_openWindow r d.service true geometry format).trans ?_)⟩
    simp [roster, hr]

theorem roster_dropRegistry : d.dropRegistry.roster = ⟨none,d.deferred⟩ := by
  unfold dropRegistry
  split
  · rename_i hr
    simp [roster, hr]
  · rw [roster_releaseAll]
    rfl

theorem roster_forget {r : Registry} (hr : d.registry = some r) {id : WindowId}
    (hid : id ∈ r.order) :
    (d.forget id).roster = ⟨some (r.order.filter (· != id)),d.deferred ++ [id]⟩ := by
  simp only [forget, hr, if_pos ((r.has_iff id).2 hid)]
  generalize hf : { d with registry := some { r with toWindowMap := r.remove id } } = f
  have hs := f.roster_sortWindows
  rw [← hf] at hs ⊢
  have hl := congrArg Roster.listed hs
  have hk := congrArg Roster.kept hs
  simp only [roster] at hl hk ⊢
  rw [hl, hk]
  rfl

theorem forget_unlisted {id : WindowId} (h : ¬ d.lists id) : d.forget id = d := by
  unfold forget
  split
  · rfl
  · rename_i r hr
    exact if_neg fun hid => h ⟨r,hr,(r.has_iff id).1 hid⟩

@[simp] theorem roster_closing (id : WindowId) : (d.closing id).roster = d.roster := by
  rw [closing, roster_notify, roster_log, roster_foldl _ _ fun d kind => d.roster_closePipe id kind,
    roster_modify]

/-- When closed windows are released, those that a wait refers to are kept on. -/
theorem roster_reap :
    d.reap.roster = ⟨d.roster.listed,d.deferred.filter d.ledger.refersTo⟩ := by
  have hfold : ∀ (free keep : List WindowId) (d : Desktop), d.deferred = keep ++ free →
      (∀ id ∈ free, id ∉ keep) → (free.foldl (fun d id =>
        ({ d with deferred := d.deferred.erase id }.log .debug
          "Releasing closed window").release id) d).roster = ⟨d.roster.listed,keep⟩ := by
    intro free keep
    induction free with
    | nil => exact fun d hd _ => congrArg (Roster.mk _) (hd.trans (List.append_nil _))
    | cons id free ih =>
      intro d hd hn
      have hr := roster_release
        ({ d with deferred := d.deferred.erase id }.log .debug "Releasing closed window") id
      have herase : d.deferred.erase id = keep ++ free := by
        rw [hd, List.erase_append_right _ (hn id (by simp)), List.erase_cons_head]
      rw [List.foldl_cons, ih _ ((congrArg Roster.kept hr).trans herase)
        fun j hj => hn j (by simp [hj]), hr]
      rfl
  have hn : ∀ id ∈ d.deferred.filter (not ∘ d.ledger.refersTo),
      id ∉ d.deferred.filter d.ledger.refersTo := by
    intro id hid hk
    exact absurd (List.mem_filter.1 hk).2 (by simpa using (List.mem_filter.1 hid).2)
  simp only [reap, List.partition_eq_filter_filter]
  exact hfold _ _ _ rfl hn

end Desktop

end InkCompositor
