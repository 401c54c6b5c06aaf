import Mathlib
import InkCompositor.Proofs.Desktop.Soundness
import InkCompositor.Proofs.Raster.Allocation

/-!
# What the operations do to the look

Every operation changes the look in a few ways only: the face of one window,
the queue, the order of the stack, the windows there are, or the contents of
the panel. Each of these keeps a look sound.
-/

set_option autoImplicit false

namespace InkCompositor

namespace Look

variable (l : Look)

def change (id : WindowId) (g : Window → Window) : Look :=
  { l with face := fun j => if j = id then (l.face j).map g else l.face j }

def without (id : WindowId) : Look :=
  { l with
    face := fun j => if j = id then none else l.face j
    height := fun j => if j = id then none else l.height j }

def withNew (w : Window) : Look :=
  { l with
    nextWindow := w.id+1
    face := fun j => if j = w.id then some w.face else l.face j
    height := fun j => if j = w.id then some w.z else l.height j }

variable {l}

theorem Ready.change (h : l.Ready) (id : WindowId) (g : Window → Window)
    (hg : ∀ w, l.face id = some w → (g w).id = w.id ∧ (g w).Fitted) : (l.change id g).Ready where
  panel := h.panel
  fresh := h.fresh
  known j w hj := by
    by_cases hji : j = id
    · subst hji
      simp only [Look.change, if_true, Option.map_eq_some_iff] at hj
      obtain ⟨v,hv,rfl⟩ := hj
      rw [(hg v hv).1]
      exact h.known j v hv
    · exact h.known j w (by simpa [Look.change, hji] using hj)
  fitted j w hj := by
    by_cases hji : j = id
    · subst hji
      simp only [Look.change, if_true, Option.map_eq_some_iff] at hj
      obtain ⟨v,hv,rfl⟩ := hj
      exact (hg v hv).2
    · exact h.fitted j w (by simpa [Look.change, hji] using hj)
  tall j := by
    by_cases hji : j = id <;> simp [Look.change, hji, h.tall]
  ascending := h.ascending
  stands order sorted hs j hj := by
    have hk := h.stands order sorted hs j hj
    by_cases hji : j = id
    · subst hji
      simpa [Look.change] using hk
    · simpa [Look.change, hji] using hk

theorem Unclosed.change (h : l.Unclosed) (id : WindowId) (g : Window → Window)
    (hg : (∀ w, l.face id = some w → (g w).state = .closed → w.state = .closed) ∨
      ∀ order sorted, l.stack = some (order,sorted) → id ∉ order) : (l.change id g).Unclosed := by
  intro order sorted ho j hj w hw
  by_cases hji : j = id
  · subst hji
    simp only [Look.change, if_true, Option.map_eq_some_iff] at hw
    obtain ⟨v,hv,rfl⟩ := hw
    rcases hg with hg | hg
    · exact fun hc => h order sorted ho j hj v hv (hg v hv hc)
    · exact absurd hj (hg order sorted ho)
  · exact h order sorted ho j hj w (by simpa [Look.change, hji] using hw)

/-- A window may change in its own layer without being closed, and however it likes outside the
stack. -/
theorem Sound.change (h : l.Sound) (id : WindowId) (g : Window → Window)
    (hg : ∀ w, l.face id = some w → (g w).id = w.id ∧ (g w).Fitted)
    (hs : (∀ w, l.face id = some w → (g w).isSystem = w.isSystem ∧
        (g w).state.isRaised = w.state.isRaised ∧ ((g w).state = .closed → w.state = .closed)) ∨
      ∀ order sorted, l.stack = some (order,sorted) → id ∉ order) : (l.change id g).Sound where
  toReady := h.toReady.change id g hg
  stacked order sorted ho := by
    apply (h.stacked order sorted ho).congr
    intro j hj
    by_cases hji : j = id
    · subst hji
      rcases hs with hs | hs
      · cases hf : l.face j with
        | none => simp [isSystem, isRaised, Look.change, hf]
        | some w => simp [isSystem, isRaised, Look.change, hf, hs w hf]
      · exact absurd hj (hs order sorted ho)
    · simp [isSystem, isRaised, Look.change, hji]
  unclosed := h.unclosed.change id g (hs.imp_left fun hs w hw => (hs w hw).2.2)

theorem Sound.without (h : l.Sound) (id : WindowId)
    (hs : ∀ order sorted, l.stack = some (order,sorted) → id ∉ order) : (l.without id).Sound := by
  have hne : ∀ order sorted, l.stack = some (order,sorted) → ∀ j ∈ order, j ≠ id :=
    fun order sorted ho j hj he => hs order sorted ho (he ▸ hj)
  refine ⟨⟨h.panel,h.fresh,fun j w hj => ?_,fun j w hj => ?_,fun j => ?_,h.ascending,
    fun order sorted ho j hj => ?_⟩,fun order sorted ho => ?_,fun order sorted ho j hj w hw => ?_⟩
  · by_cases hji : j = id
    · simp [Look.without, hji] at hj
    · exact h.known j w (by simpa [Look.without, hji] using hj)
  · by_cases hji : j = id
    · simp [Look.without, hji] at hj
    · exact h.fitted j w (by simpa [Look.without, hji] using hj)
  · by_cases hji : j = id <;> simp [Look.without, hji, h.tall]
  · simpa [Look.without, hne order sorted ho j hj] using h.stands order sorted ho j hj
  · apply (h.stacked order sorted ho).congr
    intro j hj
    simp [isSystem, isRaised, Look.without, hne order sorted ho j hj]
  · apply h.unclosed order sorted ho j hj w
    simpa [Look.without, hne order sorted ho j hj] using hw

theorem Ready.lt_nextWindow (h : l.Ready) (order sorted : List WindowId)
    (ho : l.stack = some (order,sorted)) : ∀ id ∈ order, id < l.nextWindow := by
  intro id hid
  obtain ⟨w,hw⟩ := Option.isSome_iff_exists.1 (h.stands order sorted ho _ hid)
  exact (h.known _ w hw).2

theorem Sound.nextWindow_notMem (h : l.Sound) : l.nextWindow ∉ l.sorted := by
  intro hm
  cases hs : l.stack with
  | none => simp [sorted, hs] at hm
  | some s =>
    rw [sorted, hs] at hm
    have ho := (h.sorted_perm hs).mem_iff.1 hm
    exact lt_irrefl _ (h.lt_nextWindow _ _ hs _ ho)

theorem Sound.withNew (h : l.Sound) {w : Window} (hw : w.id = l.nextWindow) (hf : w.Fitted) :
    (l.withNew w).Sound := by
  have hne : ∀ order sorted, l.stack = some (order,sorted) → ∀ j ∈ order, j ≠ w.id :=
    fun order sorted ho j hj => hw ▸ (h.lt_nextWindow order sorted ho j hj).ne
  refine ⟨⟨h.panel,h.fresh,fun j v hj => ?_,fun j v hj => ?_,fun j => ?_,h.ascending,
    fun order sorted ho j hj => ?_⟩,fun order sorted ho => ?_,fun order sorted ho j hj v hv => ?_⟩
  · by_cases hji : j = w.id
    · simp only [Look.withNew, if_pos hji, Option.some.injEq] at hj ⊢
      rw [← hj, hji]
      exact ⟨rfl,Nat.lt_succ_self _⟩
    · obtain ⟨h1,h2⟩ := h.known j v (by simpa [Look.withNew, hji] using hj)
      exact ⟨h1,h2.trans (hw ▸ Nat.lt_succ_self _)⟩
  · by_cases hji : j = w.id
    · simp only [Look.withNew, if_pos hji, Option.some.injEq] at hj
      rw [← hj]
      exact hf
    · exact h.fitted j v (by simpa [Look.withNew, hji] using hj)
  · by_cases hji : j = w.id <;> simp [Look.withNew, hji, h.tall]
  · simpa [Look.withNew, hne order sorted ho j hj] using h.stands order sorted ho j hj
  · apply (h.stacked order sorted ho).congr
    intro j hj
    simp [isSystem, isRaised, Look.withNew, hne order sorted ho j hj]
  · apply h.unclosed order sorted ho j hj v
    simpa [Look.withNew, hne order sorted ho j hj] using hv

end Look

namespace Desktop

variable {d : Desktop}

theorem look_change (id : WindowId) (f : Window → Window)
    (hf : ∀ w, (f w).id = w.id ∧ (f w).face = f w.face ∧ (f w).z = w.z) :
    (d.modify id f).look = d.look.change id f := by
  rw [look_modify_eq d id f fun w => (hf w).1]
  refine congrArg₂ (fun face height => { d.look with face, height }) ?_ ?_
  · funext j
    by_cases h : j = id
    · subst h
      cases hj : d.window? j with
      | none => simp [look, hj]
      | some w => simp [look, hj, id_of_window? d hj, (hf w).2.1]
    · cases hj : d.window? j with
      | none => simp [look, h, hj]
      | some w => simp [look, h, hj, id_of_window? d hj]
  · funext j
    apply congrArg (fun g => (d.window? j).map g)
    funext w
    by_cases h : w.id = id <;> simp [h, (hf w).2.2]

theorem look_layer (w : Window) (state : WindowState) :
    ((d.modify w.id fun v => { v with state, touching := [] }).cancelTouches w.id
      w.touching).look = d.look.change w.id fun v => { v with state, touching := [] } := by
  rw [look_cancelTouches, look_change]
  exact fun _ => ⟨rfl,rfl,rfl⟩

theorem ready_layer {l : Look} (h : l.Ready) (id : WindowId) (state : WindowState) :
    (l.change id fun v => { v with state, touching := [] }).Ready :=
  h.change id _ fun v hv => ⟨rfl,fun r hr => h.fitted id v hv r hr⟩

theorem changeLayer_eq (w : Window) (state : WindowState) (z : Int32) :
    d.changeLayer w state z =
      (((d.modify w.id fun v => { v with state, touching := [] }).cancelTouches w.id
        w.touching).setHeight w.id z).sortWindows := by
  simp only [changeLayer]
  split
  · rfl
  · rename_i hreg
    rw [sortWindows, registry_setHeight]
    split
    · rfl
    · rename_i r hr
      simp [hr] at hreg

theorem look_closing (id : WindowId) :
    (((ChannelKind.all.foldl (fun d kind => d.closePipe id kind) (d.modify id fun w =>
      { w with state := w.state.close, touching := [], enabled := false })).log .debug
        "Closed window").notify id (.stateChanged .closed)).look =
      d.look.change id fun w =>
        { w with state := w.state.close, touching := [], enabled := false } := by
  rw [look_notify, look_log, look_foldl _ _ fun d kind => look_closePipe d id kind, look_change]
  exact fun _ => ⟨rfl,rfl,rfl⟩

theorem ready_closing {l : Look} (h : l.Ready) (id : WindowId) :
    (l.change id fun w =>
      { w with state := w.state.close, touching := [], enabled := false }).Ready :=
  h.change id _ fun v hv => ⟨rfl,fun r hr => h.fitted id v hv r hr⟩

theorem stack_look {r : Registry} (h : d.registry = some r) :
    d.look.stack = some (r.order,r.sorted) := by simp [look, h]

theorem not_referenced {id : WindowId} (h : d.isReferenced id = false) :
    (∀ order sorted, d.look.stack = some (order,sorted) → id ∉ order ∧ id ∉ sorted) ∧
      ∀ q ∈ d.queue, q.window ≠ some id := by
  simp only [isReferenced, Bool.or_eq_false_iff, List.any_eq_false] at h
  refine ⟨fun order sorted hs => ?_,fun q hq => by simpa using h.2 q hq⟩
  cases hr : d.registry with
  | none => simp [look, hr] at hs
  | some r =>
    rw [stack_look hr, Option.some.injEq, Prod.mk.injEq] at hs
    obtain ⟨rfl,rfl⟩ := hs
    simpa [hr, ← Bool.not_eq_true] using h.1.2

theorem look_filter_ne (id : WindowId) :
    { d with windows := d.windows.filter (·.id != id) }.look = d.look.without id := by
  have hw : ∀ j, { d with windows := d.windows.filter (·.id != id) }.window? j =
      if j = id then none else d.window? j := by
    intro j
    rw [window?, List.find?_filter]
    by_cases h : j = id
    · rw [if_pos h, List.find?_eq_none]
      simp [h]
    · rw [if_neg h, window?]
      congr 1
      funext w
      by_cases hj : w.id = j
      · simp [hj, h]
      · simp [hj]
  refine congrArg₂ (fun face height => { d.look with face, height }) ?_ ?_
  · funext j
    rw [hw]
    by_cases h : j = id <;> simp [h, look]
  · funext j
    rw [hw]
    by_cases h : j = id <;> simp [h, look]

theorem release_cases (d : Desktop) (id : WindowId) : (d.release id).look = d.look ∨
    (d.release id).look = d.look.without id ∧ d.isReferenced id = false := by
  unfold release
  split
  · exact .inl rfl
  · rename_i href
    split
    · exact .inl rfl
    · refine .inr ⟨?_,Bool.eq_false_iff.2 href⟩
      rw [← look_filter_ne]
      simp only [look_log]
      split <;> rfl

theorem finish_cases (d : Desktop) (q : Repaint) (hw : UInt32) : ∃ e : Desktop, e.look = d.look ∧
    (d.finish q hw = e ∨ ∃ id, q.window = some id ∧ d.finish q hw = e.release id) := by
  obtain ⟨window,region,waveform,marker,callback⟩ := q
  cases callback with
  | none =>
    refine ⟨d.record window marker hw,rfl,?_⟩
    cases window with
    | none => exact .inl rfl
    | some id => exact .inr ⟨id,rfl,rfl⟩
  | some c =>
    refine ⟨(d.record window marker hw).runCallback c,look_runCallback _ c,?_⟩
    cases window with
    | none => exact .inl rfl
    | some id => exact .inr ⟨id,rfl,rfl⟩

theorem allocateImage_spec (d : Desktop) (w : Window) (geometry : Rect) :
    ∃ n, d.look.nextImage ≤ n ∧
      ((d.allocateImage w geometry).look = { d.look with nextImage := n } ∨
        ∃ r : Raster, r.rect = geometry.atOrigin ∧ d.look.nextImage ≤ r.id ∧
          (d.allocateImage w geometry).look =
            { d.look.change w.id fun v => { v with image := some r } with nextImage := n }) := by
  unfold allocateImage
  split
  · exact ⟨_,le_rfl,.inl rfl⟩
  · rename_i hg
    obtain ⟨hn,hok⟩ := d.pool.allocate_spec geometry.width.toInt.toNat geometry.height.toInt.toNat
      w.format
    split
    · rename_i pool r hr
      rw [hr] at hn hok
      obtain ⟨hid,hw,hh,-⟩ := hok r rfl
      refine ⟨pool.next,by rw [hn]; exact Nat.le_succ _,.inr ⟨r,?_,by rw [hid]; exact le_rfl,?_⟩⟩
      · exact Raster.rect_eq_atOrigin (Bool.eq_false_iff.2 hg) hw hh
      · rw [look_emit, look_log, look_change]
        · rfl
        · exact fun _ => ⟨rfl,rfl,rfl⟩
    · rename_i pool e hr
      rw [hr] at hn
      exact ⟨pool.next,by rw [hn]; exact Nat.le_succ _,.inl rfl⟩

theorem furnish_spec {f : Desktop} (hf : f.look = d.look) {id : WindowId} {w : Window}
    (hid : w.id = id) (geometry : Rect) : ∃ n image, d.look.nextImage ≤ n ∧
      (∀ r : Raster, image = some r → r.rect = geometry.atOrigin ∧ d.look.nextImage ≤ r.id) ∧
      ((f.modify id fun v => { v with geometry, image := none }).allocateImage w geometry).look =
        { d.look.change id fun v => { v with geometry, image } with nextImage := n } := by
  have hlook : (f.modify id fun v => { v with geometry, image := none }).look =
      d.look.change id fun v => { v with geometry, image := none } := by
    rw [look_change, hf]
    exact fun _ => ⟨rfl,rfl,rfl⟩
  generalize (f.modify id fun v => { v with geometry, image := none }) = e at hlook
  obtain ⟨n,hn,ha | ⟨r,hr,hrid,ha⟩⟩ := allocateImage_spec e w geometry
  · rw [hlook] at hn ha
    exact ⟨n,none,hn,by simp,ha⟩
  · rw [hlook] at hn hrid ha
    refine ⟨n,some r,hn,fun s hs => ?_,ha.trans ?_⟩
    · rw [← Option.some.inj hs]
      exact ⟨hr,hrid⟩
    · rw [hid]
      refine congrArg (fun face => { d.look with face, nextImage := n }) ?_
      funext j
      by_cases hj : j = id <;> simp [Look.change, hj, Function.comp_def]

/-- Replacing an image does nothing, or it gives an open window the geometry
and perhaps an image that fits it. -/
theorem replaceImage_spec (d : Desktop) (id : WindowId) (geometry : Rect) :
    ((d.replaceImage id geometry).2 = false ∧ (d.replaceImage id geometry).1.look = d.look) ∨
    ((d.replaceImage id geometry).2 = true ∧ ∃ n image, d.look.nextImage ≤ n ∧
      (∀ r : Raster, image = some r → r.rect = geometry.atOrigin ∧ d.look.nextImage ≤ r.id) ∧
      (d.replaceImage id geometry).1.look =
        { d.look.change id fun v => { v with geometry, image } with nextImage := n }) := by
  have hdone : ∀ (w : Window) (f : Desktop), ((if w.geometry = geometry then f.log .debug
      "Frame buffer created" else (f.log .debug "Frame buffer created").announceGeometry id
        w.geometry geometry).announceImage id).look = f.look := by
    intro w f
    rw [look_announceImage]
    split
    · rfl
    · rw [look_announceGeometry, look_log]
  unfold replaceImage
  split
  · exact .inl ⟨rfl,rfl⟩
  rename_i w hw
  have hid : w.id = id := id_of_window? d hw
  split
  · exact .inl ⟨rfl,rfl⟩
  split
  · exact .inl ⟨rfl,rfl⟩
  refine .inr ⟨rfl,?_⟩
  simp only [hdone]
  cases w.image with
  | none => exact furnish_spec rfl hid geometry
  | some r =>
    exact furnish_spec (f := { d with pool := d.pool.release r.id }.log .debug _) rfl hid geometry

theorem state_replaceImage (d : Desktop) (id : WindowId) (geometry : Rect) (j : WindowId) :
    ((d.replaceImage id geometry).1.look.face j).map (·.state) =
      (d.look.face j).map (·.state) := by
  rcases replaceImage_spec d id geometry with ⟨-,hl⟩ | ⟨-,n,image,-,-,hl⟩
  · rw [hl]
  · rw [hl]
    by_cases h : j = id <;> simp [Look.change, h, Function.comp_def]

theorem stack_replaceImage (d : Desktop) (id : WindowId) (geometry : Rect) :
    (d.replaceImage id geometry).1.look.stack = d.look.stack := by
  rcases replaceImage_spec d id geometry with ⟨-,hl⟩ | ⟨-,n,image,-,-,hl⟩
  · rw [hl]
  · rw [hl]
    rfl

def added (d : Desktop) (w : Window) : Desktop :=
  { d with windows := d.windows ++ [w], nextWindow := w.id+1, held := d.held ++ [w.id] }.reckon
    w.liveness.nextPing

@[simp] theorem windows_added (w : Window) : (d.added w).windows = d.windows ++ [w] := rfl

@[simp] theorem ended_added (w : Window) : (d.added w).ended = d.ended := rfl

/-- The desktop with a window that has its geometry, before it is sorted in. -/
def furnished (d : Desktop) (w : Window) (geometry : Option Rect) : Desktop :=
  (((d.added w).log .debug "Created window").replaceImage w.id (geometry.getD d.screen)).1

theorem openWindow_eq (d : Desktop) (r : Registry) (owner : Group) (isSystem : Bool)
    (geometry : Option Rect) (format : PixelFormat) :
    d.openWindow r owner isSystem geometry format =
      ({ d.furnished (d.newWindow r owner isSystem format) geometry with
          registry := some { r with toWindowMap := r.insert d.nextWindow } }.sortWindows.log .info
        "Window created",d.nextWindow) := rfl

theorem window?_added (w : Window) (hw : d.window? w.id = none) (j : WindowId) :
    (d.added w).window? j = if j = w.id then some w else d.window? j := by
  have hf : (d.added w).window? j = (d.windows ++ [w]).find? (·.id == j) := rfl
  rw [hf, List.find?_append]
  by_cases h : j = w.id
  · subst h
    rw [if_pos rfl, show d.windows.find? (·.id == w.id) = none from hw]
    simp
  · rw [if_neg h, List.find?_cons_of_neg (by simpa using Ne.symm h)]
    simp [window?]

theorem look_added (w : Window) (hw : d.window? w.id = none) :
    (d.added w).look = d.look.withNew w := by
  have hf := window?_added w hw
  refine congrArg₂ (fun face height => { d.look with nextWindow := w.id+1, face, height }) ?_ ?_
  · funext j
    rw [hf]
    by_cases h : j = w.id <;> simp [h, look]
  · funext j
    rw [hf]
    by_cases h : j = w.id <;> simp [h, look]

theorem window?_nextWindow (h : d.look.Ready) : d.window? d.nextWindow = none := by
  cases hw : d.window? d.nextWindow with
  | none => rfl
  | some w => exact absurd (h.known d.nextWindow w.face (by simp [look, hw])).2 (lt_irrefl _)

end Desktop

end InkCompositor
