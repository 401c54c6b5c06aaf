import Mathlib
import InkCompositor.Proofs.Desktop.Exchanges
import InkCompositor.Proofs.Desktop.Ordering

/-!
# How touches reach clients

An event of touches goes to every target of input. When a window changes its
layer, the touches in progress there are cancelled; nothing else that a raise
or a lower does concerns them.
-/

set_option autoImplicit false

namespace InkCompositor

open Wire

/-- The touches in progress and the pipe they are told on. -/
def Window.contact (w : Window) : List Int32 × Channel := (w.touching,w.touchPipe)

theorem Window.face_touched (w : Window) (event : TouchEvent) :
    (w.touched event).face = w.face := face_post ..

theorem Window.contact_relayered (w : Window) (state : WindowState) :
    (w.relayered state).contact = ([],if w.touching.isEmpty then w.touchPipe
      else (w.touchPipe.send (.touch (.cancelling w.touching))).1) := by
  rw [relayered]
  split <;> rfl

theorem Wire.TouchEvent.slotsAfter_normalized (event : TouchEvent) (screen : Rect)
    (slots : List Int32) : (event.normalized screen).slotsAfter slots = event.slotsAfter slots := by
  rw [slotsAfter, slotsAfter, normalized]
  simp only [List.foldl_map]

namespace Desktop

variable {d e : Desktop} {id : WindowId} {g : Window → Window} {w : Window}

def contact? (d : Desktop) (id : WindowId) : Option (List Int32 × Channel) :=
  (d.window? id).map Window.contact

theorem contact?_of_windows (h : e.windows = d.windows) (j : WindowId) :
    e.contact? j = d.contact? j := by rw [contact?, window?, h]; rfl

theorem contact?_of_map (hsame : ∀ w, (g w).id = w.id) (hg : ∀ w, (g w).contact = w.contact)
    (h : e.windows = d.windows.map g) (j : WindowId) : e.contact? j = d.contact? j := by
  have hid : (fun w : Window => w.id == j) ∘ g = (·.id == j) := by
    funext w
    simp [hsame]
  rw [contact?, contact?, window?, h, List.find?_map, hid, Option.map_map]
  exact congrArg (Option.map · _) (funext hg)

theorem Acts.window? (hg : Acts d e id g) (j : WindowId) :
    e.window? j = (d.window? j).map fun w => if w.id = id then g w else w := by
  have h := window?_modify d id g hg.same j
  rw [Desktop.window?, hg.windows]
  exact h

theorem forwardTouches_windows (hd : d.Distinct) (event : TouchEvent) {ids : List WindowId}
    (hids : ids.Nodup) : (ids.foldl (·.forwardTouch · event) d).windows =
      d.windows.map fun w => if w.id ∈ ids then w.touched event else w := by
  induction ids generalizing d with
  | nil => simp
  | cons id ids ih =>
    obtain ⟨hid,hids⟩ := List.nodup_cons.1 hids
    have hacts := acts_forwardTouch hd id event
    rw [List.foldl_cons, ih (hacts.distinct hd) hids, hacts.windows, List.map_map]
    refine List.map_congr_left fun w _ => ?_
    by_cases hw : w.id = id
    · have hsame : (w.touched event).id = id := (hacts.same w).trans hw
      simp [hw, hsame, hid]
    · simp [hw]

theorem inputTargets_of_look (h : e.look = d.look) : e.inputTargets = d.inputTargets := by
  have hfaces : ∀ f : Desktop, f.inputTargets = ((f.look.sorted.filterMap f.look.face).filter
      fun w => w.isVisibleOn f.look.raster.rect && !f.look.groups.holds .paused w.owner).map
        (·.id) := by
    intro f
    have hface : f.look.sorted.filterMap f.look.face =
        (f.look.sorted.filterMap f.window?).map Window.face := by
      rw [List.map_filterMap]
      rfl
    rw [inputTargets, sortedWindows_eq, hface, List.filter_map, List.map_map]
    rfl
  rw [hfaces, hfaces, h]

theorem nodup_inputTargets (h : d.look.Sound) : d.inputTargets.Nodup := by
  have hsub : d.inputTargets.Sublist d.stackIds := (List.filter_sublist ..).map _
  exact hsub.nodup (stackIds_eq h ▸ h.nodup_sorted)

theorem dispatchTouch_windows (hd : d.Distinct) (h : d.look.Sound) (event : TouchEvent) :
    (d.dispatch (.touch event)).windows = d.windows.map fun w =>
      if w.id ∈ d.inputTargets then w.touched (event.normalized d.screen) else w :=
  forwardTouches_windows hd _ (nodup_inputTargets h)

theorem window?_dispatchTouch (hd : d.Distinct) (h : d.look.Sound) (event : TouchEvent)
    (hw : d.window? id = some w) (hid : id ∈ d.inputTargets) :
    (d.dispatch (.touch event)).window? id = some (w.touched (event.normalized d.screen)) := by
  obtain rfl := id_of_window? d hw
  have hsame : (fun v : Window => v.id == w.id) ∘ (fun v : Window =>
      if v.id ∈ d.inputTargets then v.touched (event.normalized d.screen) else v) =
        (·.id == w.id) := by
    funext v
    rw [Function.comp_apply]
    split <;> rfl
  have hfind : d.windows.find? (·.id == w.id) = some w := hw
  rw [window?, dispatchTouch_windows hd h, List.find?_map, hsame, hfind, Option.map_some,
    if_pos hid]

theorem contact?_setHeight (d : Desktop) (id : WindowId) (z : Int32) (j : WindowId) :
    (d.setHeight id z).contact? j = d.contact? j := by
  obtain ⟨level,trace,he,-⟩ := setHeight_relevel d id z
  rw [he]
  exact contact?_of_map (g := fun w => { w with z := level w }) (fun _ => rfl) (fun _ => rfl) rfl j

theorem contact?_sortWindows (d : Desktop) (j : WindowId) :
    d.sortWindows.contact? j = d.contact? j := by
  cases hr : d.registry with
  | none => rw [sortWindows, hr]
  | some r =>
    obtain ⟨level,trace,sorted,he,-⟩ := sortWindows_relevel hr
    rw [he]
    exact contact?_of_map (g := fun w => { w with z := level w }) (fun _ => rfl) (fun _ => rfl) rfl
      j

/-- A change of layers cancels the touches in progress in the window, and no others. -/
theorem contact?_changeLayer (hd : d.Distinct) (hw : d.window? id = some w) (state : WindowState)
    (z : Int32) (j : WindowId) : (d.changeLayer w state z).contact? j =
      if j = id then some (w.relayered state).contact else d.contact? j := by
  obtain rfl := id_of_window? d hw
  have hacts := acts_relayer hd (mem_of_window? hw) state
  rw [changeLayer_eq, contact?_sortWindows, contact?_setHeight, ← relayer, contact?, hacts.window?]
  split
  · rename_i hj
    rw [hj, hw]
    simp
  · rename_i hj
    cases hv : d.window? j with
    | none => simp [contact?, hv]
    | some v =>
      have hid : v.id ≠ w.id := fun he => hj ((id_of_window? d hv).symm.trans he)
      simp [contact?, hv, hid]

theorem contact?_news (d : Desktop) (id : WindowId) (m : Message) (j : WindowId) :
    (d.send id .event m).contact? j = d.contact? j := by
  rw [send_eq_usePipe, usePipe]
  split
  · rfl
  · rename_i w _
    obtain ⟨trace,he⟩ := logDelivery_frame
      (d.modify id (·.setPipe ((w.pipe .event).send m).1 .event)) ((w.pipe .event).send m).2
    rw [he]
    refine contact?_of_map (d := d) (g := fun v =>
      if v.id = id then v.setPipe ((w.pipe .event).send m).1 .event else v) ?_ ?_ rfl j
    · intro v
      split <;> rfl
    · intro v
      split <;> rfl

theorem release_referenced (h : d.isReferenced id = true) : d.release id = d := if_pos h

theorem finish_ends (d : Desktop) (q : Repaint) (hw : UInt32) (hq : q.callback = none) :
    ∃ ledger trace panicked, d.finish q hw = { d with ledger, trace, panicked } ∨
      ∃ id ∈ q.window, d.finish q hw =
        ({ d with ledger, trace, panicked } : Desktop).release id := by
  rw [finish, hq]
  cases hwin : q.window with
  | none => exact ⟨_,_,_,.inl rfl⟩
  | some id => exact ⟨_,_,_,.inr ⟨id,rfl,rfl⟩⟩

theorem damage_ends (d : Desktop) (window : Option WindowId) (region : Rect) :
    ∃ queue ledger trace panicked,
      d.damage window region = { d with queue, ledger, trace, panicked } ∨
      ∃ id ∈ window, d.damage window region =
        ({ d with queue, ledger, trace, panicked } : Desktop).release id := by
  have henqueue : ∃ queue ledger trace panicked,
      d.enqueue ⟨window,region,none,0,none⟩ = { d with queue, ledger, trace, panicked } ∨
      ∃ id ∈ window, d.enqueue ⟨window,region,none,0,none⟩ =
        ({ d with queue, ledger, trace, panicked } : Desktop).release id := by
    unfold enqueue
    dsimp only
    split
    · obtain ⟨ledger,trace,panicked,he⟩ := finish_ends (d.log .trace "Queueing repaint")
        ⟨window,region,none,0,none⟩ 0 rfl
      exact ⟨_,_,_,_,he⟩
    · exact ⟨_,_,_,_,.inl rfl⟩
  unfold damage
  split
  · unfold requestRepaint
    split
    · split
      · exact ⟨_,_,_,_,.inl rfl⟩
      · exact henqueue
    · exact henqueue
  · exact ⟨_,_,_,_,.inl rfl⟩

theorem damage_frame (d : Desktop) {window : Option WindowId}
    (hin : ∀ id ∈ window, ∀ r, d.registry = some r → id ∈ r.order) (region : Rect) :
    ∃ queue ledger trace panicked,
      d.damage window region = { d with queue, ledger, trace, panicked } := by
  rcases Option.eq_none_or_eq_some d.registry with hr | ⟨r,hr⟩
  · have hnone : d.damage window region = d := by
      rw [damage, hr]
      rfl
    exact ⟨d.queue,d.ledger,d.trace,d.panicked,hnone⟩
  · obtain ⟨queue,ledger,trace,panicked,he | ⟨id,hid,he⟩⟩ := d.damage_ends window region
    · exact ⟨_,_,_,_,he⟩
    · refine ⟨_,_,_,_,he.trans (release_referenced ?_)⟩
      have hmem := (r.has_iff id).2 (hin id hid r hr)
      simp [isReferenced, hr, hmem]

theorem contact?_damage (d : Desktop) {window : Option WindowId}
    (hin : ∀ id ∈ window, ∀ r, d.registry = some r → id ∈ r.order) (region : Rect)
    (j : WindowId) : (d.damage window region).contact? j = d.contact? j := by
  obtain ⟨queue,ledger,trace,panicked,he⟩ := d.damage_frame hin region
  rw [he]
  rfl

theorem order_changeLayer {r : Registry} (w : Window) (state : WindowState) (z : Int32)
    (hr : (d.changeLayer w state z).registry = some r) :
    ∃ r', d.registry = some r' ∧ r.order = r'.order := by
  have hcancel : ∀ e : Desktop, (e.cancelTouches w.id w.touching).registry = e.registry := by
    intro e
    unfold cancelTouches
    split
    · rfl
    · obtain ⟨windows,trace,he⟩ := usePipe_frame (e.log .debug "Cancelling touch sequence") w.id
        .touch (·.send (.touch (.cancelling w.touching)))
      rw [send_eq_usePipe, he]
      rfl
  rw [changeLayer_eq] at hr
  generalize hf : ((d.modify w.id fun v => { v with state, touching := [] }).cancelTouches w.id
    w.touching).setHeight w.id z = f at hr
  have hreg : f.registry = d.registry := by
    rw [← hf, registry_setHeight, hcancel]
    rfl
  cases hfr : f.registry with
  | none => rw [sortWindows, hfr, hfr] at hr; cases hr
  | some r' =>
    obtain ⟨level,trace,sorted,he,-⟩ := sortWindows_relevel hfr
    rw [he] at hr
    cases hr
    exact ⟨r',hreg ▸ hfr,rfl⟩

theorem registry_logCall (d : Desktop) (id : WindowId) (caller : Group) :
    (d.logCall id caller).registry = d.registry := by
  rw [logCall]
  split <;> rfl

theorem order_bring {r : Registry} {state : WindowState} {z : Int32} {m : Message}
    (hr : (d.bring w state z m).registry = some r) :
    ∃ r', d.registry = some r' ∧ r.order = r'.order := by
  refine order_changeLayer w state z (hr ▸ Eq.symm ?_)
  obtain ⟨windows,trace,he⟩ := usePipe_frame (d.changeLayer w state z) w.id .event (·.send m)
  rw [bring, notifyState, send_eq_usePipe, he]
  split <;> rfl

theorem contact?_bring (hd : d.Distinct) (hw : d.window? id = some w) (state : WindowState)
    (z : Int32) (m : Message) (j : WindowId) : (d.bring w state z m).contact? j =
      if j = id then some (w.relayered state).contact else d.contact? j := by
  have hnotify : ∀ e : Desktop, (e.notifyState w.id w.state state).windows = e.windows := by
    intro e
    rw [notifyState]
    split <;> rfl
  rw [bring, contact?_of_windows (hnotify _), contact?_news, contact?_changeLayer hd hw]

section

variable {caller : Group} (hd : d.Distinct) (h : d.Honours id caller w)
include hd h

theorem contact?_called (state : WindowState) (z : Int32) (m : Message) (j : WindowId) :
    ((d.logCall id caller).bring w state z m).contact? j =
      if j = id then some (w.relayered state).contact else d.contact? j := by
  obtain ⟨hfind,-⟩ := logCall_same (d := d) id caller
  have hlog : (d.logCall id caller).windows = d.windows ∧ (d.logCall id caller).Distinct := by
    rw [logCall]
    split <;> exact ⟨rfl,hd.nodup,hd.lt⟩
  rw [contact?_bring hlog.2 (hfind.trans h.1), contact?_of_windows hlog.1]

theorem contact?_raise (hin : ∀ r, d.registry = some r → id ∈ r.order) (j : WindowId) :
    (d.raise id caller).contact? j =
      if j = id then some (w.relayered w.state.raise).contact else d.contact? j := by
  have he : d.raise id caller = _ := guardedDo_honoured h _
  rw [he, ← contact?_called hd h w.state.raise Int32.maxValue .raise j]
  dsimp only
  split
  · refine contact?_damage _ (fun i hi r hr => ?_) _ j
    obtain ⟨r',hr',horder⟩ := order_bring hr
    rw [horder, ← Option.some.inj hi, id_of_window? d h.1]
    exact hin r' (d.registry_logCall id caller ▸ hr')
  · rfl

end

end Desktop

end InkCompositor
