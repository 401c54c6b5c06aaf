import Mathlib
import InkCompositor.Proofs.Desktop.Changes
import InkCompositor.Proofs.Desktop.Redrawing

/-!
# Every operation keeps a desktop sound

Calls on a window, messages, what the supervisor reports, painting, opening and
closing: whatever happens to a sound desktop leaves it sound.
-/

set_option autoImplicit false

namespace InkCompositor

namespace Desktop

variable {d : Desktop}

theorem sound_release (h : d.look.Sound) (id : WindowId) : (d.release id).look.Sound := by
  rcases release_cases d id with he | ⟨he,href⟩
  · exact he ▸ h
  · exact he ▸ h.without id fun order sorted hs => ((not_referenced href).1 order sorted hs).1

/-- What keeps a desktop sound can be done any number of times. -/
theorem sound_foldl {α : Type} (f : Desktop → α → Desktop)
    (hf : ∀ d a, d.look.Sound → (f d a).look.Sound) (l : List α) (h : d.look.Sound) :
    (l.foldl f d).look.Sound := by
  induction l generalizing d with
  | nil => exact h
  | cons a l ih => exact ih (hf d a h)

theorem sound_releaseAll (h : d.look.Sound) (ids : List WindowId) :
    (d.releaseAll ids).look.Sound := sound_foldl _ (fun _ id h => sound_release h id) ids h

theorem sound_setQueue (h : d.look.Sound) (queue : List Repaint) (halted : Bool) :
    { d with queue, halted }.look.Sound := h.congr rfl le_rfl rfl rfl rfl rfl

theorem sound_finish (h : d.look.Sound) (q : Repaint) (hw : UInt32) :
    (d.finish q hw).look.Sound := by
  obtain ⟨e,he,hf | ⟨id,-,hf⟩⟩ := finish_cases d q hw
  · rw [hf, he]
    exact h
  · rw [hf]
    exact sound_release (he ▸ h) id

theorem sound_enqueue (h : d.look.Sound) (q : Repaint) : (d.enqueue q).look.Sound := by
  simp only [enqueue]
  split
  · exact sound_finish (d := d.log .trace _) h q 0
  · exact sound_setQueue h _ _

theorem sound_requestRepaint (h : d.look.Sound) (window : Option WindowId) (region : Rect)
    (waveform : Option Waveform) (marker : Marker) :
    (d.requestRepaint window region waveform marker).look.Sound := by
  unfold requestRepaint
  split
  · split
    · rwa [look_record]
    · exact sound_enqueue h _
  · exact sound_enqueue h _

theorem sound_damage (h : d.look.Sound) (window : Option WindowId) (region : Rect) :
    (d.damage window region).look.Sound := by
  unfold damage
  split
  · exact sound_requestRepaint h ..
  · exact h

theorem sound_damageMove (h : d.look.Sound) (id : WindowId) (wasVisible : Bool) (old : Rect) :
    (d.damageMove id wasVisible old).look.Sound := by
  have hd : (if wasVisible then d.damage none old else d).look.Sound := by
    split
    · exact sound_damage h ..
    · exact h
  simp only [damageMove]
  generalize (if wasVisible then d.damage none old else d) = e at hd
  split
  · split
    · exact sound_damage hd ..
    · exact hd
  · exact hd

theorem sound_redraw (h : d.look.Sound) (q : Repaint) : (d.redraw q).1.look.Sound := by
  obtain ⟨fb,hl,ha,-,-⟩ := redraw_look h q
  rw [hl]
  exact h.congr ha.id le_rfl rfl rfl rfl rfl

theorem sound_process (h : d.look.Sound) (q : Repaint) : (d.process q).look.Sound :=
  sound_finish (sound_redraw h q) q _

theorem sound_serveMany {f : Desktop → Repaint → Desktop}
    (hf : ∀ {d : Desktop}, d.look.Sound → ∀ q, (f d q).look.Sound) (n : Nat)
    (h : d.look.Sound) : (serveMany f n d).look.Sound := by
  induction n generalizing d with
  | zero => exact h
  | succ n ih =>
    rw [serveMany]
    split
    · exact h
    · exact ih (hf (sound_setQueue h _ _) _)

theorem sound_reap (h : d.look.Sound) : d.reap.look.Sound :=
  sound_foldl _ (fun d id (h : d.look.Sound) =>
    sound_release (d := { d with deferred := d.deferred.erase id }.log .debug _) h id) _ h

theorem sound_runPending (h : d.look.Sound) : d.runPending.1.look.Sound :=
  sound_reap (sound_serveMany sound_process _ h)

theorem sound_settle (h : d.look.Sound) : d.settle.look.Sound := by
  unfold settle
  split
  · rw [look_tick]
    exact sound_runPending h
  · exact h

theorem sound_standStill (h : d.look.Sound) (resolved : Bool) (complaint : String) :
    (d.standStill resolved complaint).look.Sound := by
  simp only [standStill]
  split
  · exact h
  · split
    · exact sound_settle h
    · exact sound_settle h

theorem sound_replaceImage (h : d.look.Sound) (id : WindowId) (geometry : Rect) :
    (d.replaceImage id geometry).1.look.Sound := by
  rcases replaceImage_spec d id geometry with ⟨-,hl⟩ | ⟨-,n,image,hn,hi,hl⟩
  · rw [hl]
    exact h
  · rw [hl]
    have hc := h.change id (fun v => { v with geometry, image }) (fun w _ => ⟨rfl,fun r hr =>
      ⟨(hi r hr).1,(h.fresh.trans_le (hi r hr).2).ne'⟩⟩) (.inl fun w _ => ⟨rfl,rfl,fun hc => hc⟩)
    exact hc.congr rfl hn rfl rfl rfl rfl

theorem sound_setGeometry (h : d.look.Sound) (id : WindowId) (caller : Group) (geometry : Rect) :
    (d.setGeometry id caller geometry).look.Sound := by
  have hl : (d.logCall id caller).look.Sound := by rwa [look_logCall]
  apply guardedDo_cases (P := fun e => e.look.Sound) hl
  intro w _
  have hr := sound_replaceImage hl id geometry
  split
  · rename_i e he
    rw [he] at hr
    exact sound_damageMove hr ..
  · rename_i e he
    rw [he] at hr
    exact hr

theorem sound_resize (h : d.look.Sound) (id : WindowId) (caller : Group) (width height : Int32) :
    (d.resize id caller width height).1.look.Sound := by
  have hl : (d.logCall id caller).look.Sound := by rwa [look_logCall]
  apply guarded_cases (P := fun e => e.look.Sound) hl
  intro w _
  rw [look_frameBuffer]
  exact sound_setGeometry hl ..

theorem sound_moveTo (h : d.look.Sound) (id : WindowId) (caller : Group) (x y : Int32) :
    (d.moveTo id caller x y).look.Sound := by
  have hl : (d.logCall id caller).look.Sound := by rwa [look_logCall]
  apply guardedDo_cases (P := fun e => e.look.Sound) hl
  intro w hw
  dsimp only
  split
  · exact hl
  · refine sound_damageMove ?_ ..
    rw [look_announceGeometry, look_change]
    · refine hl.change id _ (fun v hv => ⟨rfl,fun r hr => ?_⟩)
        (.inl fun v _ => ⟨rfl,rfl,fun hc => hc⟩)
      have hvw : v = w.face := by simpa [look, hw] using hv.symm
      subst hvw
      exact hl.fitted id w.face hv r hr
    · exact fun _ => ⟨rfl,rfl,rfl⟩

theorem sound_repaint (h : d.look.Sound) (id : WindowId) (caller : Group) (region : Option Rect)
    (waveform : Option Waveform) (marker : Marker) :
    (d.repaint id caller region waveform marker).look.Sound := by
  have hl : (d.logCall id caller).look.Sound := by rwa [look_logCall]
  apply guardedDo_cases (P := fun e => e.look.Sound) hl
  intro w _
  have hm := look_if_modify (d.logCall id caller) (marker = 0) id
    (fun w => { w with lastMarker := marker }) fun _ => ⟨rfl,rfl⟩
  rw [← hm] at hl
  dsimp only
  generalize (if marker = 0 then d.logCall id caller else (d.logCall id caller).modify id
    fun w => { w with lastMarker := marker }) = e at hl
  split
  · exact sound_requestRepaint hl ..
  · rwa [look_record]

theorem sound_waitForLastUpdate (h : d.look.Sound) (id : WindowId) (caller : Group) :
    (d.waitForLastUpdate id caller).look.Sound := by
  apply guardedDo_cases (P := fun e => e.look.Sound) (by rwa [look_logCall])
  intro w _
  exact sound_standStill (by rwa [look_addWait, look_logCall]) ..

theorem ready_setHeight (h : d.look.Ready) (id : WindowId) (z : Int32) :
    (d.setHeight id z).look.Ready := by
  rw [look_setHeight]
  refine h.congr rfl le_rfl rfl rfl rfl fun j => ?_
  by_cases hj : j = id <;> simp [Look.setHeight, hj]

theorem ready_setRegistry (h : d.look.Ready) (r : Registry) (hn : r.order.Pairwise (· < ·))
    (hk : ∀ id ∈ r.order, (d.look.face id).isSome = true) :
    { d with registry := some r }.look.Ready where
  panel := h.panel
  fresh := h.fresh
  known := h.known
  fitted := h.fitted
  tall := h.tall
  ascending order sorted hs := by
    rw [stack_look rfl, Option.some.injEq, Prod.mk.injEq] at hs
    exact hs.1 ▸ hn
  stands order sorted hs := by
    rw [stack_look rfl, Option.some.injEq, Prod.mk.injEq] at hs
    exact hs.1 ▸ hk

theorem unclosed_setRegistry {r : Registry} (h : ∀ id ∈ r.order, ∀ w, d.look.face id = some w →
    w.state ≠ .closed) : { d with registry := some r }.look.Unclosed := by
  intro order sorted hs
  rw [stack_look rfl, Option.some.injEq, Prod.mk.injEq] at hs
  exact hs.1 ▸ h

theorem sound_of_no_stack (h : d.look.Ready) (hr : d.registry = none) : d.look.Sound :=
  ⟨h,fun order sorted hs => by simp [look, hr] at hs,fun order sorted hs => by
    simp [look, hr] at hs⟩

theorem sound_changeLayer (h : d.look.Sound) (w : Window) {state : WindowState}
    (hs : state ≠ .closed) (z : Int32) : (d.changeLayer w state z).look.Sound := by
  rw [changeLayer_eq]
  apply sound_sortWindows
  · apply ready_setHeight
    rw [look_layer]
    exact ready_layer h.toReady w.id state
  · rw [look_setHeight, look_layer]
    exact h.unclosed.change w.id _ (.inl fun _ _ hc => absurd hc hs)

theorem sound_damage_if (h : d.look.Sound) (c : Prop) [Decidable c] (window : Option WindowId)
    (region : Rect) : (if c then d.damage window region else d).look.Sound := by
  split
  · exact sound_damage h ..
  · exact h

theorem sound_bring (h : d.look.Sound) (w : Window) {state : WindowState}
    (hs : state ≠ .closed) (z : Int32) (m : Wire.Message) : (d.bring w state z m).look.Sound := by
  rw [look_bring]
  exact sound_changeLayer h w hs z

theorem sound_raise (h : d.look.Sound) (id : WindowId) (caller : Group) :
    (d.raise id caller).look.Sound := by
  have hl : (d.logCall id caller).look.Sound := by rwa [look_logCall]
  refine guardedDo_open (P := fun e => e.look.Sound) hl fun w _ ho => ?_
  exact sound_damage_if (sound_bring hl w (WindowState.raise_ne_closed ho) ..) ..

theorem sound_lower (h : d.look.Sound) (id : WindowId) (caller : Group) :
    (d.lower id caller).look.Sound := by
  have hl : (d.logCall id caller).look.Sound := by rwa [look_logCall]
  refine guardedDo_open (P := fun e => e.look.Sound) hl fun w _ ho => ?_
  exact sound_damage_if (sound_bring hl w (WindowState.lower_ne_closed ho) ..) ..

theorem sound_setVisible (h : d.look.Sound) (id : WindowId) (caller : Group) (visible : Bool) :
    (d.setVisible id caller visible).look.Sound := by
  have hl : (d.logCall id caller).look.Sound := by rwa [look_logCall]
  apply guardedDo_cases (P := fun e => e.look.Sound) hl
  intro w hw
  have hs : (((d.logCall id caller).modify id fun v => { v with
      state := w.state.withVisible visible }).notify id
        (.stateChanged (w.state.withVisible visible))).look.Sound := by
    rw [look_notify, look_change]
    · refine hl.change id _ (fun v hv => ⟨rfl,fun r hr => hl.fitted id v hv r hr⟩)
        (.inl fun v hv => ⟨rfl,?_⟩)
      have hvw : v = w.face := by simpa [look, hw] using hv.symm
      rw [hvw]
      cases visible <;> cases hstate : w.state <;>
        simp [Window.face, hstate, WindowState.withVisible, WindowState.reveal, WindowState.hide,
          WindowState.isRaised]
    · exact fun _ => ⟨rfl,rfl,rfl⟩
  dsimp only
  split
  · exact hl
  split
  · exact sound_damage hs ..
  split
  · exact sound_damage hs ..
  · exact hs

theorem sound_forget {id : WindowId} (h : d.look.Ready)
    (hu : ∀ order sorted, d.look.stack = some (order,sorted) → ∀ j ∈ order, j ≠ id →
      ∀ w, d.look.face j = some w → w.state ≠ .closed)
    (hs : (∀ order sorted, d.look.stack = some (order,sorted) → id ∉ order) → d.look.Sound) :
    (d.forget id).look.Sound := by
  unfold forget
  split
  · rename_i hr
    exact sound_of_no_stack h hr
  · rename_i r hr
    split
    · refine sound_sortWindows (d := { d with registry := some { r with
        toWindowMap := r.remove id } }) (ready_setRegistry h _ ?_ fun j hj => ?_)
        (unclosed_setRegistry fun j hj => ?_)
      · exact (h.ascending _ _ (stack_look hr)).filter _
      · exact h.stands _ _ (stack_look hr) j (List.mem_of_mem_filter hj)
      · obtain ⟨hj,hne⟩ := List.mem_filter.1 hj
        exact hu _ _ (stack_look hr) j hj (bne_iff_ne.1 hne)
    · rename_i hc
      apply hs
      intro order sorted ho
      rw [stack_look hr, Option.some.injEq, Prod.mk.injEq] at ho
      rw [← ho.1]
      simpa using hc

theorem sound_close (h : d.look.Sound) (id : WindowId) (caller : Group) :
    (d.close id caller).look.Sound := by
  have hl : (d.logCall id caller).look.Sound := by rwa [look_logCall]
  refine guardedDo_open (P := fun e => e.look.Sound) hl fun w _ _ => ?_
  refine sound_damage_if ?_ ..
  rw [look_notify]
  apply sound_forget (by rw [look_closing]; exact ready_closing hl.toReady id)
  · intro order sorted hs j hj hne v hv
    rw [look_closing] at hs hv
    exact hl.unclosed order sorted hs j hj v (by simpa [Look.change, hne] using hv)
  · intro hn
    rw [look_closing] at hn ⊢
    exact hl.change id _ (fun v hv => ⟨rfl,fun r hr => hl.fitted id v hv r hr⟩) (.inr hn)

theorem sound_handleMessage (h : d.look.Sound) (id : WindowId) (m : Wire.Message) :
    (d.handleMessage id m).look.Sound := by
  unfold handleMessage
  split
  · exact h
  cases m with
  | repaint area waveform marker =>
    dsimp only
    refine sound_repaint ?_ ..
    split
    · exact h
    · exact h
  | waitForPaint marker => rwa [look_waitForMarker]
  | geometry rect z =>
    dsimp only
    split
    · exact sound_moveTo h ..
    · exact sound_setGeometry h ..
  | raise => exact sound_raise h ..
  | lower => exact sound_lower h ..
  | close => exact sound_close h ..
  | frameBuffer => rwa [look_announceImage]
  | ping => rwa [look_pong]
  | _ => exact h

theorem sound_serviceWindow (h : d.look.Sound) (id : WindowId) (now : Time) :
    (d.serviceWindow id now).look.Sound := by
  unfold serviceWindow
  split
  · exact h
  split
  · exact h
  have hr := look_receive d id
  rw [look_checkLiveness]
  split
  · rename_i e messages he
    rw [he] at hr
    exact sound_foldl _ (fun d m h => sound_handleMessage h id m) messages (hr ▸ h)
  · rename_i e error he
    rw [he] at hr
    exact hr ▸ h

theorem sound_serviceClients (h : d.look.Sound) (now : Time) : (d.serviceClients now).look.Sound :=
  sound_foldl _ (fun _ id h => sound_serviceWindow h id now) _ h

theorem sound_closeWindows (h : d.look.Sound) (group : Group) : (d.closeWindows group).look.Sound :=
  sound_foldl _ (fun d id h => sound_close h id d.service) _ h

theorem sound_lowerWindows (h : d.look.Sound) (group : Group) : (d.lowerWindows group).look.Sound :=
  sound_foldl _ (fun d id h => sound_lower h id d.service) _ h

theorem sound_raiseWindows (h : d.look.Sound) (group : Group) : (d.raiseWindows group).look.Sound :=
  sound_foldl _ (fun d id h => sound_raise h id d.service) _ h

theorem sound_showWindows (h : d.look.Sound) (group : Group) (visible : Bool) :
    (d.showWindows group visible).look.Sound :=
  sound_foldl _ (fun d id h => sound_setVisible h id d.service visible) _ h

theorem sound_handleLifecycle (h : d.look.Sound) (event : Lifecycle) (group : Group) :
    (d.handleLifecycle event group).look.Sound := by
  have hl : (d.log .debug "Supervisor event").look.Sound := h
  cases event with
  | paused | resumed => exact sound_showWindows hl group _
  | exited => exact sound_closeWindows hl group
  | foreground => exact sound_raiseWindows hl group
  | background => exact sound_lowerWindows hl group

theorem ascending_concat {ids : List WindowId} (h : ids.Pairwise (· < ·)) {id : WindowId}
    (hid : ∀ j ∈ ids, j < id) : (ids ++ [id]).Pairwise (· < ·) := by
  apply List.pairwise_append.2
  refine ⟨h,List.pairwise_singleton _ _,?_⟩
  intro j hj i hi
  rw [List.mem_singleton.1 hi]
  exact hid j hj

theorem sound_insert (h : d.look.Sound) {r : Registry} (hr : d.look.stack = some (r.order,r.sorted))
    {id : WindowId} (hid : ∀ j ∈ r.order, j < id) {w : Window} (hw : d.look.face id = some w)
    (hs : w.state ≠ .closed) :
    { d with registry := some { r with toWindowMap := r.insert id } }.sortWindows.look.Sound := by
  refine sound_sortWindows (ready_setRegistry h.toReady _ ?_ fun j hj => ?_)
    (unclosed_setRegistry fun j hj v hv => ?_)
  · exact ascending_concat (h.ascending _ _ hr) hid
  · rcases List.mem_append.1 hj with hj | hj
    · exact h.stands _ _ hr j hj
    · rw [List.mem_singleton.1 hj, hw]
      rfl
  · rcases List.mem_append.1 hj with hj | hj
    · exact h.unclosed _ _ hr j hj v hv
    · rw [List.mem_singleton.1 hj, hw] at hv
      exact Option.some.inj hv ▸ hs

theorem sound_added (h : d.look.Sound) {w : Window} (hw : w.id = d.nextWindow)
    (hi : w.image = none) : (d.added w).look = d.look.withNew w ∧ (d.added w).look.Sound := by
  have hl := look_added w (by rw [hw]; exact window?_nextWindow h.toReady)
  refine ⟨hl,hl ▸ h.withNew hw fun r hr => ?_⟩
  rw [hi] at hr
  cases hr

theorem sound_openWindow (h : d.look.Sound) {r : Registry} (hr : d.registry = some r)
    (owner : Group) (isSystem : Bool) (geometry : Option Rect) (format : PixelFormat) :
    (d.openWindow r owner isSystem geometry format).1.look.Sound := by
  obtain ⟨hl,hs⟩ := sound_added h (w := d.newWindow r owner isSystem format) rfl rfl
  have hf : (d.furnished (d.newWindow r owner isSystem format) geometry).look.Sound :=
    sound_replaceImage (d := (d.added _).log .debug _) hs _ _
  have hstate : ((d.furnished (d.newWindow r owner isSystem format) geometry).look.face
      d.nextWindow).map (·.state) = some .loweredHidden := by
    rw [furnished, state_replaceImage, look_log, hl]
    simp [Look.withNew, newWindow, Window.face]
  obtain ⟨w,hw,hhidden⟩ := Option.map_eq_some_iff.1 hstate
  have hopen : w.state ≠ .closed := by
    rw [hhidden]
    decide
  rw [openWindow_eq, look_log]
  refine sound_insert hf ?_ ?_ hw hopen
  · rw [furnished, stack_replaceImage, look_log, hl]
    exact stack_look hr
  · exact h.lt_nextWindow _ _ (stack_look hr)

theorem sound_createWindow (h : d.look.Sound) (caller : Group) (geometry : Option Rect)
    (format : PixelFormat) : (d.createWindow caller geometry format).1.look.Sound := by
  unfold createWindow
  split
  · exact h
  · rename_i r hr
    split
    · exact h
    · exact sound_openWindow h hr ..

theorem sound_createSystemWindow (h : d.look.Sound) (geometry : Option Rect)
    (format : PixelFormat) : (d.createSystemWindow geometry format).1.look.Sound := by
  unfold createSystemWindow
  split
  · exact h
  · rename_i r hr
    exact sound_setVisible (sound_openWindow h hr ..) ..

theorem sound_giveUp (h : d.look.Sound) (id : WindowId) : (d.giveUp id).look.Sound :=
  sound_release (d := { d with held := d.held.filter (· != id) }) h id

theorem sound_dropRegistry (h : d.look.Sound) : d.dropRegistry.look.Sound := by
  unfold dropRegistry
  split
  · exact h
  · rename_i r hr
    refine sound_releaseAll (sound_of_no_stack ?_ rfl) _
    exact ⟨h.panel,h.fresh,h.known,h.fitted,h.tall,fun _ _ hs => by simp [look] at hs,
      fun _ _ hs => by simp [look] at hs⟩

theorem sound_repaintAndWait (h : d.look.Sound) (window : Option WindowId) (region : Rect)
    (waveform : Option Waveform) (marker : Marker) :
    (d.repaintAndWait window region waveform marker).look.Sound := by
  unfold repaintAndWait
  split
  · exact h
  rename_i r hr
  split
  · exact sound_requestRepaint h ..
  have hs := look_setRegistry (s := { r with nextInternal := r.nextInternal+1 }) hr rfl rfl
  dsimp only
  split
  · exact sound_standStill (sound_enqueue (by rw [look_addWait, hs]; exact h) _) ..
  · exact sound_standStill (sound_enqueue (by rwa [look_addWait]) _) ..

theorem sound_halt (h : d.look.Sound) : d.halt.look.Sound := by
  have ha := sound_serveMany (fun h q => sound_finish h q 0) d.queue.length
    (sound_setQueue h d.queue true)
  simp only [halt, look_stopWaiting]
  refine sound_releaseAll (d := { (if d.queue.length = 0 then
    serveMany (·.finish · 0) d.queue.length { d with halted := true } else
    (serveMany (·.finish · 0) d.queue.length { d with halted := true }).log .info
      "Resolved queued repaints on shutdown") with deferred := [] }) ?_ _
  split
  · exact ha
  · exact ha

theorem sound_shutDown (h : d.look.Sound) : d.shutDown.look.Sound :=
  sound_halt (by rwa [look_setEnabled])

theorem sound_setRaster (h : d.look.Sound) {fb : Raster} (hf : fb.Alike d.panel.raster) :
    { d with panel := { d.panel with raster := fb } }.look.Sound :=
  h.congr hf.id le_rfl rfl rfl rfl rfl

theorem sound_clearScreen (h : d.look.Sound) : d.clearScreen.look.Sound := by
  have hs := sound_setRaster h (Raster.fillRect_alike d.panel.raster d.panel.raster.rect .white)
  simp only [clearScreen]
  split
  · rw [look_awaitPanel, look_sendUpdate, look_sendUpdate]
    exact hs
  · rw [look_sendUpdate, look_sendUpdate]
    exact hs

theorem sound_start (h : d.look.Sound) : d.start.look.Sound :=
  sound_settle (sound_clearScreen (d := { d with attended := true }) h)

theorem sound_drawInto (h : d.look.Sound) (id : WindowId) (f : Raster → Raster)
    (hf : ∀ r, (f r).Alike r) : (d.drawInto id f).look.Sound := by
  rw [drawInto, look_change]
  · refine h.change id _ (fun w hw => ⟨rfl,fun r hr => ?_⟩)
      (.inl fun w _ => ⟨rfl,rfl,fun hc => hc⟩)
    obtain ⟨s,hs,rfl⟩ := Option.map_eq_some_iff.1 hr
    obtain ⟨h1,h2⟩ := h.fitted id w hw s hs
    exact ⟨(hf s).rect.trans h1,by rwa [(hf s).id]⟩
  · exact fun _ => ⟨rfl,rfl,rfl⟩

end Desktop

end InkCompositor
