import Mathlib
import InkCompositor.Proofs.Desktop.Repairs

/-!
# Every operation mends what it changes

Showing, hiding, moving, resizing, raising, lowering and closing a window leave
no pixel stale without a request to repaint it. Opening a window changes
nothing to be seen, nor does ending one that nothing refers to.
-/

set_option autoImplicit false

namespace InkCompositor

namespace WindowState

theorem isRaised_raise {s : WindowState} (h : s ≠ .closed) : s.raise.isRaised = true := by
  cases s <;> first | rfl | exact absurd rfl h

theorem isRaised_lower (s : WindowState) : s.lower.isRaised = false := by cases s <;> rfl

theorem isShown_raise (s : WindowState) : s.raise.isShown = s.isShown := by cases s <;> rfl

theorem isShown_lower (s : WindowState) : s.lower.isShown = s.isShown := by cases s <;> rfl

end WindowState

namespace Desktop

open Look

variable {d : Desktop}

theorem mends_setVisible (id : WindowId) (caller : Group) (visible : Bool) :
    d.look.Mends (d.setVisible id caller visible).look := by
  apply mends_guardedDo
  intro e w _ hw
  dsimp only
  split
  · exact .refl _
  generalize w.state.withVisible visible = state
  generalize hm : (e.modify id fun v => { v with state }).notify id (.stateChanged state) = m
  have hl : m.look = e.look.change id fun v => { v with state } := by
    rw [← hm, look_notify, look_change]
    exact fun _ => ⟨rfl,rfl,rfl⟩
  have hvis : m.isVisible id = ({ w.face with state } : Window).isVisibleOn e.screen := by
    rw [isVisible_look, hl]
    simp only [Look.change, if_true, face_of_window? hw]
    rfl
  split
  · rename_i hv
    exact mends_damageWindow hw hl (.refl id _) ⟨rfl,rfl,rfl⟩ (hvis ▸ hv)
      (rises_of_sorted_eq id rfl)
  · rename_i hv
    refine mends_damageLeft hw hl (.refl id _) fun _ hp => absurd ?_ hv
    rw [hvis]
    exact isVisibleOn_screen_of_presents hp

theorem mends_moveTo (id : WindowId) (caller : Group) (x y : Int32) :
    d.look.Mends (d.moveTo id caller x y).look := by
  apply mends_guardedDo
  intro e w _ hw
  dsimp only
  split
  · exact .refl _
  · have hl : ((e.modify id fun v =>
        { v with geometry := w.geometry.movedTo ⟨x,y⟩ }).announceGeometry id w.geometry
          (w.geometry.movedTo ⟨x,y⟩)).look =
        e.look.change id fun v => { v with geometry := w.geometry.movedTo ⟨x,y⟩ } := by
      rw [look_announceGeometry, look_change]
      exact fun _ => ⟨rfl,rfl,rfl⟩
    exact mends_damageMove hw hl (.refl id _)

theorem mends_setGeometry (id : WindowId) (caller : Group) (geometry : Rect) :
    d.look.Mends (d.setGeometry id caller geometry).look := by
  apply mends_guardedDo
  intro e w _ hw
  rcases hr : e.replaceImage id geometry with ⟨m,changed⟩
  have hspec := replaceImage_spec e id geometry
  rw [hr] at hspec
  rcases hspec with ⟨rfl,hl⟩ | ⟨rfl,n,image,-,-,hl⟩
  · dsimp only
    rw [hl]
    exact .refl _
  · exact mends_damageMove hw hl (.refl id _)

theorem mends_resize (id : WindowId) (caller : Group) (width height : Int32) :
    d.look.Mends (d.resize id caller width height).1.look := by
  apply mends_guarded
  intro e w _ _
  rw [look_frameBuffer]
  exact mends_setGeometry _ _ _

theorem mends_requestRepaint (window : Option WindowId) (region : Rect) (waveform : Option Waveform)
    (marker : Marker) : d.look.Mends (d.requestRepaint window region waveform marker).look := by
  intro hs _
  obtain ⟨queue,hl,hq,-⟩ := requestRepaint_spec hs.running window region waveform marker
  rw [hl]
  exact ⟨repaired_requeue hq,hs.roomy,rfl⟩

theorem mends_repaint (id : WindowId) (caller : Group) (region : Option Rect)
    (waveform : Option Waveform) (marker : Marker) :
    d.look.Mends (d.repaint id caller region waveform marker).look := by
  apply mends_guardedDo
  intro e w _ _
  have hl := look_if_modify e (marker = 0) id (fun w => { w with lastMarker := marker })
    fun _ => ⟨rfl,rfl⟩
  dsimp only
  generalize (if marker = 0 then e else e.modify id fun w => { w with lastMarker := marker }) = f
    at hl
  rw [← hl]
  split
  · exact mends_requestRepaint _ _ _ _
  · rw [look_record]
    exact .refl _

theorem changeLayer_spec (h : d.look.Sound) (hroom : d.look.Roomy) {id : WindowId} {w : Window}
    (hw : d.window? id = some w) (state : WindowState) (z : Int32)
    (hz : state.isRaised = true ∧ z.toInt = 2147483647 ∨
      state.isRaised = false ∧ z.toInt = -2147483648) : ∃ stack height,
    (d.changeLayer w state z).look =
      { d.look.change id fun v => { v with state, touching := [] } with stack, height } ∧
    Restacked id d.look stack ∧
      { d.look with stack }.sorted = d.look.moved id state.isRaised := by
  rw [changeLayer_eq, id_of_window? d hw]
  have hf := face_of_window? hw
  have hc := look_layer (d := d) w state
  have hready := ready_layer h.toReady id state
  rw [id_of_window? d hw] at hc
  generalize (d.modify id fun v => { v with state, touching := [] }).cancelTouches id
    w.touching = f at hc
  have hg := ready_setHeight (d := f) (hc ▸ hready) id z
  have hl := look_setHeight f id z
  generalize f.setHeight id z = g at hg hl
  rw [hc] at hl
  obtain ⟨v,hv⟩ := Option.isSome_iff_exists.1 (((h.tall id).trans (by rw [hf]; rfl)) :
    (d.look.height id).isSome = true)
  obtain ⟨stack,height,hs,hst,hup⟩ := restack_spec (d := g) h hroom hg
    (by rw [hl]; rfl) id (fun j hj => by simp [hl, Look.setHeight, Look.change, hj])
    (fun j hj => by simp [hl, Look.z, Look.setHeight, Look.change, hj])
    (by simp [hl, Look.isSystem, Look.setHeight, Look.change, hf])
    (by simpa [hl, Look.isRaised, Look.z, Look.setHeight, Look.change, hf, hv] using hz)
  refine ⟨stack,height,by rw [hs, hl]; rfl,hst,hup.trans ?_⟩
  simp [hl, Look.isRaised, Look.setHeight, Look.change, hf]

theorem mends_raise (id : WindowId) (caller : Group) : d.look.Mends (d.raise id caller).look := by
  apply mends_guardedDo
  intro e w _ hw
  by_cases hclosed : w.state = .closed
  · simp only [if_pos hclosed]
    exact .refl _
  simp only [if_neg hclosed]
  intro hs
  have hraised := WindowState.isRaised_raise hclosed
  have hshown := WindowState.isShown_raise w.state
  obtain ⟨stack,height,hc,hst,hup⟩ :=
    changeLayer_spec hs.sound hs.roomy hw _ Int32.maxValue (.inl ⟨hraised,by decide⟩)
  generalize w.state.raise = state at *
  generalize hm : e.bring w state Int32.maxValue .raise = m
  have hl : m.look = { e.look.change id fun v => { v with state, touching := [] } with
      stack, height } := by rw [← hm, look_bring, hc]
  rw [hraised] at hup
  have hsame : ({ w.face with state, touching := [] } : Window).isVisibleOn e.screen =
      w.isVisibleOn e.screen := by
    simp only [Window.isVisibleOn, hshown]
    rfl
  have hvis : m.isVisible id = w.isVisibleOn e.screen := by
    rw [isVisible_look, hl, ← hsame]
    simp only [Look.change, if_true, face_of_window? hw]
    rfl
  by_cases hv : m.isVisible id = true
  · rw [if_pos hv]
    exact mends_damageWindow hw hl hst ⟨rfl,rfl,rfl⟩ (by rw [hsame, ← hvis, hv])
      (rises_of_moved hup) hs
  · have hleft := mends_damageLeft hw hl hst fun _ hp => absurd
      (hvis.trans (hsame.symm.trans (isVisibleOn_screen_of_presents hp))) hv
    rw [hvis] at hv
    rw [if_neg hv] at hleft
    rw [hvis, if_neg hv]
    exact hleft hs

theorem mends_lower (id : WindowId) (caller : Group) : d.look.Mends (d.lower id caller).look := by
  apply mends_guardedDo
  intro e w _ hw
  by_cases hclosed : w.state = .closed
  · simp only [if_pos hclosed]
    exact .refl _
  simp only [if_neg hclosed]
  intro hs
  have hlowered := WindowState.isRaised_lower w.state
  have hshown := WindowState.isShown_lower w.state
  obtain ⟨stack,height,hc,hst,-⟩ := changeLayer_spec hs.sound hs.roomy hw _ Int32.minValue
    (.inr ⟨hlowered,by decide⟩)
  generalize w.state.lower = state at *
  have hl : (e.bring w state Int32.minValue .lower).look = { e.look.change id fun v =>
      { v with state, touching := [] } with stack, height } := by rw [look_bring, hc]
  refine mends_damageLeft hw hl hst (fun _ hp => ⟨?_,rfl⟩) hs
  have hv := isVisibleOn_screen_of_presents hp
  simp only [Window.isVisibleOn, hshown] at hv
  exact hv

theorem mends_close (id : WindowId) (caller : Group) : d.look.Mends (d.close id caller).look := by
  apply mends_guardedDo
  intro e w _ hw
  by_cases hclosed : w.state = .closed
  · simp only [if_pos hclosed]
    exact .refl _
  simp only [if_neg hclosed]
  intro hs
  have hc := look_closing (d := e) id
  have hready := ready_closing hs.sound.toReady id
  rw [← hc] at hready
  obtain ⟨stack,height,hl,hst,hgone⟩ := forget_spec hs.sound hs.roomy hready (by rw [hc]; rfl)
    id (fun j hj => by simp [hc, Look.change, hj]) fun j _ => by rw [hc]; rfl
  rw [hc] at hl
  exact mends_damageLeft hw ((look_notify ..).trans hl) hst (fun hid => absurd hid hgone) hs

theorem repaired_without {l : Look} {id : WindowId} (h : id ∉ l.sorted) :
    l.Repaired (l.without id) := by
  refine .of_sight rfl rfl (fun _ h => h) fun x y => ?_
  have ht : (l.without id).top x y = l.top x y := by
    rw [top_eq, top_eq]
    refine congrArg List.getLast? (List.filterMap_congr fun j hj => ?_)
    have hne : j ≠ id := fun he => h (he ▸ hj)
    simp only [visibleAt, Look.without, if_neg hne]
    rfl
  rw [sight, sight, ht]

theorem mends_release (id : WindowId) : d.look.Mends (d.release id).look := by
  intro hs _
  rcases release_cases d id with hl | ⟨hl,href⟩
  · rw [hl]
    exact ⟨.refl _,hs.roomy,rfl⟩
  · rw [hl]
    refine ⟨repaired_without fun hid => ?_,hs.roomy,rfl⟩
    cases hst : d.look.stack with
    | none => simp [Look.sorted, hst] at hid
    | some s => exact ((not_referenced href).1 s.1 s.2 hst).2 (sorted_of_stack hst ▸ hid)

/-- A window that is added and has got its geometry is hidden, lowered and
outside the stack, and nothing else has changed. -/
structure Furnished (d : Desktop) (isSystem : Bool) (f : Desktop) : Prop where
  raster : f.look.raster = d.look.raster
  groups : f.look.groups = d.look.groups
  halted : f.look.halted = d.look.halted
  stack : f.look.stack = d.look.stack
  queue : f.look.queue = d.look.queue
  face : ∀ j, j ≠ d.nextWindow → f.look.face j = d.look.face j
  height : ∀ j, j ≠ d.nextWindow → f.look.height j = d.look.height j
  hidden : ∃ v, f.look.face d.nextWindow = some v ∧ v.state = .loweredHidden ∧
    v.isSystem = isSystem
  level : f.look.height d.nextWindow = some 0

theorem furnished_spec (h : d.look.Sound) {w : Window} (hw : w.id = d.nextWindow)
    (hi : w.image = none) (hz : w.z = 0) (hs : w.state = .loweredHidden) (geometry : Option Rect) :
    Furnished d w.isSystem (d.furnished w geometry) ∧ (d.furnished w geometry).look.Sound := by
  obtain ⟨hl,hsound⟩ := sound_added h hw hi
  refine ⟨?_,sound_replaceImage (d := (d.added w).log .debug _) hsound _ _⟩
  have hspec := replaceImage_spec ((d.added w).log .debug "Created window") w.id
    (geometry.getD d.screen)
  rw [look_log, hl] at hspec
  change _ ∧ (d.furnished w geometry).look = _ ∨
    _ ∧ ∃ n image, _ ∧ _ ∧ (d.furnished w geometry).look = _ at hspec
  generalize d.furnished w geometry = f at hspec
  have hface : ∀ j, j ≠ d.nextWindow → (d.look.withNew w).face j = d.look.face j :=
    fun j hj => by simp [Look.withNew, hw, hj]
  have hheight : ∀ j, j ≠ d.nextWindow → (d.look.withNew w).height j = d.look.height j :=
    fun j hj => by simp [Look.withNew, hw, hj]
  rcases hspec with ⟨-,hf⟩ | ⟨-,n,image,-,-,hf⟩
  · refine ⟨by rw [hf]; rfl,by rw [hf]; rfl,by rw [hf]; rfl,by rw [hf]; rfl,by rw [hf]; rfl,
      fun j hj => by rw [hf, hface j hj],fun j hj => by rw [hf, hheight j hj],?_,?_⟩
    · exact ⟨w.face,by simp [hf, Look.withNew, hw],hs,rfl⟩
    · simp [hf, Look.withNew, hw, hz]
  · refine ⟨by rw [hf]; rfl,by rw [hf]; rfl,by rw [hf]; rfl,by rw [hf]; rfl,by rw [hf]; rfl,
      fun j hj => ?_,fun j hj => by rw [hf]; exact hheight j hj,?_,?_⟩
    · rw [hf, ← hface j hj]
      simp [Look.change, hw, hj]
    · exact ⟨{ w.face with geometry := geometry.getD d.screen, image },
        by simp [hf, Look.change, Look.withNew, hw],hs,rfl⟩
    · simp [hf, Look.change, Look.withNew, hw, hz]

/-- A new window joins the stack once it is furnished. -/
theorem openWindow_spec (hs : d.look.Sound) (hroom : d.look.Roomy) {r : Registry}
    (hr : d.registry = some r) (owner : Group) (isSystem : Bool) (geometry : Option Rect)
    (format : PixelFormat) : ∃ f height, Furnished d isSystem f ∧
      (d.openWindow r owner isSystem geometry format).1.look = { f.look with
        stack := some (r.order ++ [d.nextWindow],d.look.inserted d.nextWindow isSystem),
        height } := by
  obtain ⟨hf,hsound⟩ := furnished_spec hs (w := d.newWindow r owner isSystem format) rfl rfl
    rfl rfl geometry
  rw [openWindow_eq, look_log]
  generalize d.furnished (d.newWindow r owner isSystem format) geometry = f at *
  obtain ⟨v,hv,hhidden,hsys⟩ := hf.hidden
  obtain ⟨height,hl⟩ := insert_spec hs hroom hsound.toReady hf.stack _ hf.face (stack_look hr)
    (fun j hj => by rw [Look.z, Look.z, hf.height j hj]) (hs.lt_nextWindow _ _ (stack_look hr))
    (by rw [hv]; rfl) (by rw [Look.isRaised, hv, Option.any_some, hhidden]; rfl)
    (by rw [Look.z, hf.level]; rfl)
  have hsystem : f.look.isSystem d.nextWindow = isSystem := by
    rw [Look.isSystem, hv, Option.any_some, hsys]
    rfl
  rw [hsystem] at hl
  exact ⟨f,height,hf,hl⟩

theorem repaired_openWindow (hs : d.look.Steady) {r : Registry} (hr : d.registry = some r)
    (owner : Group) (isSystem : Bool) (geometry : Option Rect) (format : PixelFormat) :
    d.look.Repaired (d.openWindow r owner isSystem geometry format).1.look := by
  have hm := sound_openWindow hs.sound hr owner isSystem geometry format
  obtain ⟨f,height,hf,hl⟩ := openWindow_spec hs.sound hs.roomy hr owner isSystem geometry format
  rw [hl] at hm ⊢
  obtain ⟨v,hv,hhidden,-⟩ := hf.hidden
  have hold : d.nextWindow ∉ d.look.sorted := hs.sound.nextWindow_notMem
  refine Amends.repaired (?_ : Amends d.nextWindow _ _) hs.sound hm.toReady
  refine ⟨⟨hf.raster,hf.groups,hf.halted,?_,?_,hf.face,?_⟩,fun w hid => absurd hid hold,?_⟩
  · rw [hf.queue]
    exact fun _ h => h
  · rw [stack_look hr]
    rfl
  · rw [sorted_of_stack rfl, hs.sound.filter_inserted hold, filter_ne_self hold]
  · intro u _ hu hp
    rw [hv, Option.some.injEq] at hu
    have hvis := isVisibleOn_of_presents hp
    rw [← hu] at hvis
    simp [Window.isVisibleOn, hhidden, WindowState.isShown] at hvis

end Desktop

end InkCompositor
