import Mathlib
import InkCompositor.Proofs.Desktop.Closing
import InkCompositor.Proofs.Desktop.Touches

/-!
# Pausing and resuming a group

A pause hides the open windows of a group, and resuming shows them, whatever
they were before: a window that was shown is again what it was, one that was
hidden comes out shown in its layer.
-/

set_option autoImplicit false

namespace InkCompositor

namespace WindowState

theorem withVisible_withVisible (s : WindowState) (visible : Bool) :
    (s.withVisible visible).withVisible visible = s.withVisible visible := by
  cases s <;> cases visible <;> rfl

theorem reveal_hide (s : WindowState) : s.hide.reveal = s.reveal := by cases s <;> rfl

theorem reveal_eq_self {s : WindowState} (h : s ≠ .raisedHidden) (h' : s ≠ .loweredHidden) :
    s.reveal = s := by
  cases s with
  | raisedHidden => exact absurd rfl h
  | loweredHidden => exact absurd rfl h'
  | _ => rfl

end WindowState

namespace Window

def withVisible (w : Window) (ids : List WindowId) (visible : Bool) : Window :=
  if w.id ∈ ids then { w with state := w.state.withVisible visible } else w

variable (w : Window) (ids : List WindowId) (visible : Bool)

@[simp] theorem id_withVisible : (w.withVisible ids visible).id = w.id := by
  rw [withVisible]
  split <;> rfl

@[simp] theorem owner_withVisible : (w.withVisible ids visible).owner = w.owner := by
  rw [withVisible]
  split <;> rfl

theorem withVisible_withVisible (ids' : List WindowId) :
    (w.withVisible ids visible).withVisible ids' visible = w.withVisible (ids++ids') visible := by
  by_cases h : w.id ∈ ids <;> by_cases h' : w.id ∈ ids' <;>
    simp [withVisible, h, h', WindowState.withVisible_withVisible]

end Window

namespace Desktop

variable {d : Desktop}

/-- Windows of `ids` are shown or hidden; what else changes are repaints, waits and notes. -/
def Shows (d e : Desktop) (ids : List WindowId) (visible : Bool) : Prop :=
  ∃ queue ledger trace panicked, e = { d with
    windows := d.windows.map (·.withVisible ids visible)
    queue, ledger, trace, panicked }

namespace Shows

variable {e f : Desktop} {ids ids' : List WindowId} {visible : Bool}

theorem refl (d : Desktop) (visible : Bool) : Shows d d [] visible :=
  ⟨d.queue,d.ledger,d.trace,d.panicked,by simp [Window.withVisible]⟩

theorem append (h : Shows d e ids visible) (h' : Shows e f ids' visible) :
    Shows d f (ids++ids') visible := by
  obtain ⟨queue,ledger,trace,panicked,rfl⟩ := h
  obtain ⟨queue,ledger,trace,panicked,rfl⟩ := h'
  refine ⟨queue,ledger,trace,panicked,?_⟩
  simp only [List.map_map, Function.comp_def, Window.withVisible_withVisible]

theorem distinct (h : Shows d e ids visible) (hd : d.Distinct) : e.Distinct := by
  obtain ⟨queue,ledger,trace,panicked,rfl⟩ := h
  exact hd.of_map (fun w => w.id_withVisible ids visible) rfl rfl rfl

theorem window? (h : Shows d e ids visible) (j : WindowId) :
    e.window? j = (d.window? j).map (·.withVisible ids visible) := by
  obtain ⟨queue,ledger,trace,panicked,rfl⟩ := h
  simp only [Desktop.window?, List.find?_map, Function.comp_def, Window.id_withVisible]

theorem lists (h : Shows d e ids visible) (j : WindowId) : e.lists j ↔ d.lists j := by
  obtain ⟨queue,ledger,trace,panicked,rfl⟩ := h
  rfl

theorem sameIds (h : Shows d e ids visible) : e.windows.map (·.id) = d.windows.map (·.id) := by
  obtain ⟨queue,ledger,trace,panicked,rfl⟩ := h
  simp only [List.map_map, Function.comp_def, Window.id_withVisible]

theorem openWindows (h : Shows d e ids visible) :
    e.openWindows = d.openWindows.map (·.withVisible ids visible) := by
  have hr : e.registry = d.registry := by
    obtain ⟨queue,ledger,trace,panicked,rfl⟩ := h
    rfl
  rw [Desktop.openWindows, Desktop.openWindows, hr]
  split
  · rfl
  · rw [List.map_filterMap]
    exact List.filterMap_congr fun j _ => h.window? j

theorem windowsOf (h : Shows d e ids visible) (group : Group) :
    e.windowsOf group = d.windowsOf group := by
  simp only [Desktop.windowsOf, h.openWindows, List.filter_map, List.map_map, Function.comp_def,
    Window.id_withVisible, Window.owner_withVisible]

theorem frame (h : Shows d e ids visible) (queue : List Repaint) (ledger : Ledger Callback)
    (trace : Array Effect) (panicked : Bool) :
    Shows d { e with queue, ledger, trace, panicked } ids visible := by
  obtain ⟨_,_,_,_,rfl⟩ := h
  exact ⟨queue,ledger,trace,panicked,rfl⟩

theorem damage (h : Shows d e ids visible) {window : Option WindowId}
    (hin : ∀ id ∈ window, d.lists id) (region : Rect) :
    Shows d (e.damage window region) ids visible := by
  have hmem : ∀ id ∈ window, ∀ r, e.registry = some r → id ∈ r.order := by
    intro id hid r hr
    obtain ⟨r',hr',hmem⟩ := (h.lists id).2 (hin id hid)
    rwa [← Option.some.inj (hr'.symm.trans hr)]
  obtain ⟨queue,ledger,trace,panicked,he⟩ := e.damage_frame hmem region
  rw [he]
  exact h.frame queue ledger trace panicked

end Shows

section

variable {id : WindowId} {w : Window} (hd : d.Distinct) (hw : d.window? id = some w)
include hd hw

theorem shows_modify (visible : Bool) : Shows d (d.modify id fun v => { v with
    state := w.state.withVisible visible }) [id] visible := by
  have hwindows := map_window_congr hd hw
    (f := fun v => { v with state := w.state.withVisible visible })
    (g := fun v => { v with state := v.state.withVisible visible }) rfl
  refine ⟨d.queue,d.ledger,d.trace,d.panicked,?_⟩
  simp only [Window.withVisible, List.mem_singleton]
  exact congrArg (fun windows => { d with windows }) hwindows

theorem shows_same {visible : Bool} (h : w.state.withVisible visible = w.state) :
    Shows d d [id] visible := by
  have hwindows := map_window_self hd hw
    (f := fun v => { v with state := v.state.withVisible visible })
    (congrArg (fun state => { w with state }) h)
  refine ⟨d.queue,d.ledger,d.trace,d.panicked,?_⟩
  simp only [Window.withVisible, List.mem_singleton]
  exact congrArg (fun windows => { d with windows }) hwindows.symm

theorem shows_setVisible (hl : d.lists id) (visible : Bool) :
    Shows d (d.setVisible id d.service visible) [id] visible := by
  obtain ⟨trace,hlog⟩ := logCall_frame d id d.service
  rw [setVisible, guardedDo_permitted hw (by simp [permits]), hlog]
  dsimp only
  split
  · rename_i hsame
    exact (shows_same hd hw hsame).frame d.queue d.ledger trace d.panicked
  · generalize hf : Desktop.notify _ id (.stateChanged _) = f
    have hshows : Shows d f [id] visible :=
      hf ▸ (shows_modify hd hw visible).frame d.queue d.ledger _ d.panicked
    split
    · exact hshows.damage (by simpa [id_of_window? d hw] using hl) _
    split
    · exact hshows.damage (by simp) _
    · exact hshows

end

theorem lists_of_mem_windowsOf {group : Group} {id : WindowId} (h : id ∈ d.windowsOf group) :
    d.lists id := by
  obtain ⟨w,hw,rfl⟩ := List.mem_map.1 h
  exact lists_of_openWindows (List.mem_of_mem_filter hw)

theorem shows_showWindows (hd : d.Distinct) (group : Group) (visible : Bool) :
    Shows d (d.showWindows group visible) (d.windowsOf group) visible := by
  have hall : ∀ ids : List WindowId, (∀ id ∈ ids, ∃ w, d.window? id = some w ∧ d.lists id) →
      Shows d (ids.foldl (fun d id => d.setVisible id d.service visible) d) ids visible := by
    intro ids hids
    induction ids using List.reverseRecOn with
    | nil => exact .refl d visible
    | append_singleton ids id ih =>
      have h := ih fun j hj => hids j (List.mem_append_left _ hj)
      obtain ⟨w,hw,hl⟩ := hids id (by simp)
      rw [List.foldl_append]
      have hw' := h.window? id
      rw [hw] at hw'
      exact h.append (shows_setVisible (h.distinct hd) hw' ((h.lists id).2 hl) visible)
  refine hall _ fun id hid => ?_
  obtain ⟨w,hw,-⟩ := mem_windowsOf hid
  exact ⟨w,hw,lists_of_mem_windowsOf hid⟩

theorem shows_paused (hd : d.Distinct) (group : Group) :
    Shows d (d.handleLifecycle .paused group) (d.windowsOf group) false := by
  obtain ⟨queue,ledger,trace,he⟩ := shows_showWindows (d := d.log .debug "Supervisor event")
    ⟨hd.nodup,hd.lt⟩ group false
  exact ⟨queue,ledger,trace,he⟩

theorem shows_resumed (hd : d.Distinct) (group : Group) :
    Shows d (d.handleLifecycle .resumed group) (d.windowsOf group) true := by
  obtain ⟨queue,ledger,trace,he⟩ := shows_showWindows (d := d.log .debug "Supervisor event")
    ⟨hd.nodup,hd.lt⟩ group true
  exact ⟨queue,ledger,trace,he⟩

/-- A pause and a resumption of a group leave every window as it was, except for an open window of
the group that was hidden before: that one comes out shown, in the layer it was in. -/
theorem resumed_after_paused (h : Occurs d) (group : Group) :
    let e := (d.handleLifecycle .paused group).handleLifecycle .resumed group
    e.windows.map (·.id) = d.windows.map (·.id) ∧ ∀ w ∈ d.windows, e.window? w.id = some
      (if w.id ∈ d.windowsOf group ∧ (w.state = .raisedHidden ∨ w.state = .loweredHidden)
        then { w with state := w.state.reveal } else w) := by
  intro e
  have hd := h.distinct
  have hp := shows_paused hd group
  have hr := shows_resumed (hp.distinct hd) group
  rw [hp.windowsOf] at hr
  refine ⟨hr.sameIds.trans hp.sameIds,fun w hw => ?_⟩
  rw [hr.window? w.id, hp.window? w.id, hd.window? hw, Option.map_some, Option.map_some]
  refine congrArg some ?_
  by_cases hid : w.id ∈ d.windowsOf group
  · rw [Window.withVisible, w.id_withVisible, if_pos hid, Window.withVisible, if_pos hid]
    change { w with state := w.state.hide.reveal } = _
    rw [WindowState.reveal_hide]
    by_cases hs : w.state = .raisedHidden ∨ w.state = .loweredHidden
    · rw [if_pos ⟨hid,hs⟩]
    · rw [if_neg fun h => hs h.2,
        WindowState.reveal_eq_self (fun h => hs (.inl h)) fun h => hs (.inr h)]
  · simp [Window.withVisible, hid]

/-- A window that its client has never shown. -/
def neverShown : Desktop :=
  (fresh smallPanel .anonymous {} 24 1).perform (.create 100 (some ⟨1,1,2,2⟩) .rgb32)

theorem reachable_neverShown : Reachable neverShown := .act _ (.fresh _ _ _ _ _ _ rfl)

/-- It is visible once its group was paused and resumed. -/
theorem resumed_reveals_hidden : Reachable neverShown ∧
    (neverShown.window? 0).map (·.state) = some .loweredHidden ∧
    (((neverShown.handleLifecycle .paused 100).handleLifecycle .resumed 100).window? 0).map
      (·.state) = some .lowered :=
  ⟨reachable_neverShown,by decide +kernel,by decide +kernel⟩

theorem resumed_after_paused_small :
    let e := (neverShown.handleLifecycle .paused 100).handleLifecycle .resumed 100
    Occurs neverShown ∧ neverShown.windowsOf 100 = [0] ∧
      e.windows.map (·.id) = neverShown.windows.map (·.id) ∧
      ∀ w ∈ neverShown.windows, e.window? w.id = some
        (if w.id ∈ neverShown.windowsOf 100 ∧ (w.state = .raisedHidden ∨ w.state = .loweredHidden)
          then { w with state := w.state.reveal } else w) := by
  have h : Occurs neverShown := .reachable reachable_neverShown
  exact ⟨h,by decide +kernel,resumed_after_paused h 100⟩

end Desktop

end InkCompositor
