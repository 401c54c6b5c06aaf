import Mathlib
import InkCompositor.Proofs.Desktop.Restacking
import InkCompositor.Proofs.Desktop.Undertakings

/-!
# What an edit does to the windows

Every window has a number of its own. An edit adds a window, ends one, gives
one another image, or leaves all images with their windows. A closed window
stays as it is but for its height, which nothing but a sorting changes.
-/

set_option autoImplicit false

namespace InkCompositor

open Wire

/-- What may become of a window in an edit that leaves it its image. The edit concerns the window
if `free`, and a sorting may change its height if `layered`. -/
structure Window.Follows (free layered : Prop) (w v : Window) : Prop where
  altered : w.Altered v
  outside : ¬ free → v = { w with z := v.z }
  z : v.z = w.z ∨ layered ∨ free ∧ w.state ≠ .closed
  face : w.state = .closed → v.face = w.face
  enabled : w.state = .closed → v.enabled = w.enabled
  pipes : w.state = .closed → ∀ kind, (w.pipe kind).isOpen = false →
    (v.pipe kind).isOpen = false ∧ (v.pipe kind).outgoing = (w.pipe kind).outgoing

namespace Channel

variable {c : Channel}

theorem sendWith_of_closed (h : c.isOpen = false) (m : Message) (a : Acceptance) :
    c.sendWith m a = (c,.closed) := by
  rw [sendWith, h]
  rfl

theorem send_of_closed (h : c.isOpen = false) (m : Message) : c.send m = (c,.closed) :=
  sendWith_of_closed h m _

theorem close_of_closed (h : c.isOpen = false) : c.close = (c.shutDown,.closed) := by
  rw [close, closeWith, sendWith_of_closed h]

end Channel

namespace Window

variable {free layered : Prop} {w v : Window}

theorem Follows.refl (w : Window) : w.Follows free layered w :=
  ⟨⟨rfl,rfl,rfl,rfl⟩,fun _ => rfl,.inl rfl,fun _ => rfl,fun _ => rfl,fun _ _ h => ⟨h,rfl⟩⟩

theorem altered_of_face (h : v.face = w.face) : w.Altered v :=
  ⟨congrArg (·.image) h,congrArg (·.format) h,congrArg (·.geometry.width) h,
    congrArg (·.geometry.height) h⟩

theorem Tended.follows (h : w.Tended v) (hf : free) : w.Follows free layered v :=
  ⟨altered_of_face h.face,fun hn => absurd hf hn,.inl h.z,fun _ => h.face,h.enabled,
    fun _ kind hk => ⟨(h.pipes kind).1.trans hk,(h.pipes kind).2.1⟩⟩

theorem Altered.follows (h : w.Altered v) (ho : w.state ≠ .closed) (hf : free) :
    w.Follows free layered v :=
  ⟨h,fun hn => absurd hf hn,.inr (.inr ⟨hf,ho⟩),fun hc => absurd hc ho,fun hc => absurd hc ho,
    fun hc => absurd hc ho⟩

theorem pipe_setPipe (w : Window) (c : Channel) (kind k : ChannelKind) :
    (w.setPipe c kind).pipe k = if k = kind then c else w.pipe k := by
  cases kind <;> cases k <;> rfl

theorem follows_setPipe (hf : free) {kind : ChannelKind} {c : Channel}
    (hc : (w.pipe kind).isOpen = false → c.isOpen = false ∧ c.outgoing = (w.pipe kind).outgoing) :
    w.Follows free layered (w.setPipe c kind) := by
  refine ⟨altered_of_face (by simp),fun hn => absurd hf hn,.inl (by simp),fun _ => by simp,
    fun _ => by cases kind <;> rfl,fun _ k hk => ?_⟩
  rw [pipe_setPipe]
  by_cases hkk : k = kind
  · rw [if_pos hkk]
    exact hkk ▸ hc (hkk ▸ hk)
  · rw [if_neg hkk]
    exact ⟨hk,rfl⟩

end Window

namespace Desktop

/-- The attempts to allocate an image, in the order in which they came about. -/
def attempts (d : Desktop) : List (WindowId × Bool) := d.trace.toList.filterMap Effect.attempt?

def layered (d : Desktop) (id : WindowId) : Prop :=
  d.lists id ∧ ∃ w, d.window? id = some w ∧ w.isSystem = false

/-- All windows, ended ones included, have numbers of their own, given out in turn. -/
structure Distinct (d : Desktop) : Prop where
  nodup : ((d.windows ++ d.ended).map (·.id)).Nodup
  lt : ∀ w ∈ d.windows ++ d.ended, w.id < d.nextWindow

/-- Every window goes on with its number and its image. -/
structure Moved (s : Scope) (d e : Desktop) (g : Window → Window) : Prop where
  windows : e.windows = d.windows.map g
  ended : e.ended = d.ended
  nextWindow : e.nextWindow = d.nextWindow
  live : e.pool.live = d.pool.live
  nextImage : e.pool.next = d.pool.next
  attempts : e.attempts = d.attempts
  id : ∀ w, (g w).id = w.id
  follows : ∀ w ∈ d.windows, w.Follows (s.windows w.id) (d.layered w.id) (g w)

variable {s : Scope} {d e : Desktop}

theorem Distinct.nodup_windows (h : d.Distinct) : (d.windows.map (·.id)).Nodup := by
  have hn := h.nodup
  rw [List.map_append] at hn
  exact hn.of_append_left

theorem Distinct.window? (h : d.Distinct) {w : Window} (hw : w ∈ d.windows) :
    d.window? w.id = some w := by
  cases hf : d.window? w.id with
  | none => simpa using List.find?_eq_none.1 hf w hw
  | some v =>
    have hv : v ∈ d.windows := List.mem_of_find?_eq_some hf
    rw [List.inj_on_of_nodup_map h.nodup_windows hv hw (id_of_window? d hf)]

theorem Distinct.eq_of_id (h : d.Distinct) {id : WindowId} {v w : Window}
    (hw : d.window? id = some w) (hv : v ∈ d.windows) (hid : v.id = id) : v = w :=
  Option.some.inj ((h.window? hv).symm.trans (hid ▸ hw))

section

variable {id : WindowId} {w : Window} {f g : Window → Window}

theorem map_window_congr (hd : d.Distinct) (hw : d.window? id = some w) (hfg : f w = g w) :
    (d.windows.map fun v => if v.id = id then f v else v) =
      d.windows.map fun v => if v.id = id then g v else v := by
  refine List.map_congr_left fun v hv => ?_
  split
  · rename_i hid
    rw [hd.eq_of_id hw hv hid, hfg]
  · rfl

theorem map_window_self (hd : d.Distinct) (hw : d.window? id = some w) (hf : f w = w) :
    (d.windows.map fun v => if v.id = id then f v else v) = d.windows := by
  rw [map_window_congr hd hw (g := fun v => v) hf]
  simp

theorem map_window_none (hn : d.window? id = none) (f : Window → Window) :
    (d.windows.map fun v => if v.id = id then f v else v) = d.windows := by
  have hne : ∀ w ∈ d.windows, w.id ≠ id := fun w hw => by
    simpa using List.find?_eq_none.1 hn w hw
  rw [List.map_congr_left fun w hw => if_neg (hne w hw), List.map_id']

end

theorem Distinct.of_perm (h : d.Distinct) (hi : ((e.windows ++ e.ended).map (·.id)).Perm
    ((d.windows ++ d.ended).map (·.id))) (hn : d.nextWindow ≤ e.nextWindow) : e.Distinct := by
  refine ⟨hi.nodup_iff.2 h.nodup,fun w hw => ?_⟩
  obtain ⟨v,hv,he⟩ := List.mem_map.1 (hi.mem_iff.1 (List.mem_map_of_mem (f := (·.id)) hw))
  exact he ▸ (h.lt v hv).trans_le hn

theorem Distinct.of_map (h : d.Distinct) {f : Window → Window} (hf : ∀ w, (f w).id = w.id)
    (hw : e.windows = d.windows.map f) (he : e.ended = d.ended)
    (hn : e.nextWindow = d.nextWindow) : e.Distinct := by
  refine h.of_perm (.of_eq ?_) hn.ge
  rw [hw, he]
  simp [Function.comp_def, hf]

theorem Moved.distinct {g : Window → Window} (hm : Moved s d e g) (h : d.Distinct) :
    e.Distinct := h.of_map hm.id hm.windows hm.ended hm.nextWindow

theorem map_map_window {id : WindowId} {f g : Window → Window} (hf : ∀ w, (f w).id = w.id)
    (ws : List Window) :
    (ws.map fun w => if w.id = id then f w else w).map (fun w => if w.id = id then g w else w) =
      ws.map fun w => if w.id = id then g (f w) else w := by
  rw [List.map_map]
  refine List.map_congr_left fun w _ => ?_
  by_cases hw : w.id = id <;> simp [hw, hf]

theorem attempts_emit (d : Desktop) (x : Effect) :
    (d.emit x).attempts = d.attempts ++ x.attempt?.toList := by
  rw [attempts, emit, Array.toList_push, List.filterMap_append, attempts]
  cases hx : x.attempt? <;> simp [hx]

theorem attempts_emit_none (d : Desktop) {x : Effect} (hx : x.attempt? = none) :
    (d.emit x).attempts = d.attempts := by rw [attempts_emit, hx]; simp

@[simp] theorem attempts_log (d : Desktop) (level : Level) (text : String) :
    (d.log level text).attempts = d.attempts := attempts_emit_none d rfl

@[simp] theorem attempts_notify (d : Desktop) (id : WindowId) (n : Notification) :
    (d.notify id n).attempts = d.attempts := attempts_emit_none d rfl

@[simp] theorem attempts_logDelivery (d : Desktop) (x : Delivery) :
    (d.logDelivery x).attempts = d.attempts := by cases x <;> simp [logDelivery, deliveryLog]

theorem moved_refl (hw : e.windows = d.windows) (he : e.ended = d.ended)
    (hn : e.nextWindow = d.nextWindow) (hl : e.pool.live = d.pool.live)
    (hi : e.pool.next = d.pool.next) (ha : e.attempts = d.attempts) : Moved s d e fun w => w :=
  ⟨by rw [hw, List.map_id'],he,hn,hl,hi,ha,fun _ => rfl,fun w _ => .refl w⟩

theorem moved_modify (hd : d.Distinct) {id : WindowId} {f : Window → Window}
    (hf : ∀ w, (f w).id = w.id)
    (h : ∀ w, d.window? id = some w → w.Follows (s.windows id) (d.layered id) (f w)) :
    Moved s d (d.modify id f) fun w => if w.id = id then f w else w := by
  refine ⟨rfl,rfl,rfl,rfl,rfl,rfl,fun w => ?_,fun w hw => ?_⟩
  · split
    · exact hf w
    · rfl
  · split
    · rename_i hid
      subst hid
      exact h w (hd.window? hw)
    · exact .refl w

theorem Moved.of_eq {e' : Desktop} {g : Window → Window} (h : Moved s d e g)
    (hw : e'.windows = e.windows) (he : e'.ended = e.ended) (hn : e'.nextWindow = e.nextWindow)
    (hp : e'.pool = e.pool) (ha : e'.attempts = e.attempts) : Moved s d e' g :=
  ⟨hw.trans h.windows,he.trans h.ended,hn.trans h.nextWindow,by rw [hp, h.live],
    by rw [hp, h.nextImage],ha.trans h.attempts,h.id,h.follows⟩

theorem Moved.logDelivery {g : Window → Window} (h : Moved s d e g) (x : Delivery) :
    Moved s d (e.logDelivery x) g := by
  cases x <;> exact h.of_eq rfl rfl rfl rfl (attempts_logDelivery ..)

def usePipe (d : Desktop) (id : WindowId) (kind : ChannelKind)
    (use : Channel → Channel × Delivery) : Desktop :=
  match d.window? id with
  | none => d
  | some w => (d.modify id (·.setPipe (use (w.pipe kind)).1 kind)).logDelivery (use (w.pipe kind)).2

theorem send_eq_usePipe (d : Desktop) (id : WindowId) (kind : ChannelKind) (m : Message) :
    d.send id kind m = d.usePipe id kind (·.send m) := rfl

theorem closePipe_eq_usePipe (d : Desktop) (id : WindowId) (kind : ChannelKind) :
    d.closePipe id kind = d.usePipe id kind Channel.close := rfl

theorem logDelivery_frame (d : Desktop) (x : Delivery) :
    ∃ trace, d.logDelivery x = { d with trace } := by
  cases x <;> exact ⟨_,rfl⟩

theorem usePipe_frame (d : Desktop) (id : WindowId) (kind : ChannelKind)
    (use : Channel → Channel × Delivery) :
    ∃ windows trace, d.usePipe id kind use = { d with windows, trace } := by
  unfold usePipe
  split
  · exact ⟨d.windows,d.trace,rfl⟩
  · rename_i w _
    obtain ⟨trace,he⟩ := logDelivery_frame (d.modify id (·.setPipe (use (w.pipe kind)).1 kind))
      (use (w.pipe kind)).2
    exact ⟨_,trace,he⟩

theorem usePipe_eq (hd : d.Distinct) (id : WindowId) (kind : ChannelKind)
    (use : Channel → Channel × Delivery) : ∃ trace, d.usePipe id kind use = { d with
      windows := d.windows.map fun w =>
        if w.id = id then w.setPipe (use (w.pipe kind)).1 kind else w
      trace } := by
  unfold usePipe
  split
  · rename_i hnone
    exact ⟨d.trace,by rw [map_window_none hnone]⟩
  · rename_i w hw
    obtain ⟨trace,he⟩ := logDelivery_frame (d.modify id (·.setPipe (use (w.pipe kind)).1 kind))
      (use (w.pipe kind)).2
    refine ⟨trace,he.trans ?_⟩
    rw [modify, map_window_congr hd hw (f := (·.setPipe (use (w.pipe kind)).1 kind))
      (g := fun v => v.setPipe (use (v.pipe kind)).1 kind) rfl]

theorem moved_usePipe (hd : d.Distinct) {id : WindowId} (hs : s.windows id) (kind : ChannelKind)
    (use : Channel → Channel × Delivery) (huse : ∀ c : Channel, c.isOpen = false →
      (use c).1.isOpen = false ∧ (use c).1.outgoing = c.outgoing) :
    ∃ g, Moved s d (d.usePipe id kind use) g := by
  unfold usePipe
  split
  · exact ⟨_,moved_refl rfl rfl rfl rfl rfl rfl⟩
  rename_i w hw
  refine ⟨_,(moved_modify hd (fun v => ?_) fun v hv => ?_).logDelivery _⟩
  · cases kind <;> rfl
  obtain rfl := Option.some.inj (hv.symm.trans hw)
  exact Window.follows_setPipe hs (huse _)

def relevel (d : Desktop) (level : Window → Int32) (trace : Array Effect) : Desktop :=
  { d with windows := d.windows.map fun w => { w with z := level w }, trace }

theorem relevel_self (d : Desktop) : d.relevel (·.z) d.trace = d := by simp [relevel]

theorem setHeight_relevel (d : Desktop) (id : WindowId) (z : Int32) :
    ∃ level trace, d.setHeight id z = d.relevel level trace ∧
      (d.relevel level trace).attempts = d.attempts ∧ ∀ w : Window, w.id ≠ id → level w = w.z := by
  have hself := (d.relevel_self).symm
  unfold setHeight
  split
  · exact ⟨(·.z),d.trace,hself,congrArg _ hself.symm,fun _ _ => rfl⟩
  split
  · exact ⟨(·.z),d.trace,hself,congrArg _ hself.symm,fun _ _ => rfl⟩
  · refine ⟨fun w => if w.id = id then z else w.z,d.trace.push (.notified id (.zChanged z)),?_,
      attempts_notify d id (.zChanged z),fun w hw => if_neg hw⟩
    have hf : (fun w : Window => if w.id = id then { w with z } else w) =
        fun w => { w with z := if w.id = id then z else w.z } := by
      funext w
      split <;> rfl
    rw [notify, emit, modify, relevel, hf]

theorem foldl_setHeight_relevel (d : Desktop) (heights : List (WindowId × Int32)) :
    ∃ level trace, heights.foldl (fun d p => d.setHeight p.1 p.2) d = d.relevel level trace ∧
      (d.relevel level trace).attempts = d.attempts ∧
      ∀ w : Window, w.id ∉ heights.map (·.1) → level w = w.z := by
  induction heights generalizing d with
  | nil => exact ⟨(·.z),d.trace,d.relevel_self.symm,congrArg _ d.relevel_self,fun _ _ => rfl⟩
  | cons p heights ih =>
    obtain ⟨level,trace,he,ha,hl⟩ := setHeight_relevel d p.1 p.2
    obtain ⟨level',trace',he',ha',hl'⟩ := ih (d.setHeight p.1 p.2)
    rw [he] at he' ha'
    have hrr : (d.relevel level trace).relevel level' trace' =
        d.relevel (fun w => level' { w with z := level w }) trace' := by
      simp [relevel, Function.comp_def]
    refine ⟨fun w => level' { w with z := level w },trace',?_,?_,fun w hw => ?_⟩
    · rw [List.foldl_cons, he, he', hrr]
    · exact (hrr ▸ ha').trans ha
    · rw [List.map_cons, List.mem_cons, not_or] at hw
      exact (hl' { w with z := level w } hw.2).trans (hl w hw.1)

theorem mem_layers {ws : List Window} {w : Window} :
    (w ∈ (layers ws).1 → w ∈ ws) ∧
      (w ∈ (layers ws).2.1 ∨ w ∈ (layers ws).2.2 → w ∈ ws ∧ w.isSystem = false) := by
  obtain ⟨hsys,hperm,-⟩ := layers_spec ws
  refine ⟨fun h => List.mem_of_mem_filter (hsys ▸ h),fun h => ?_⟩
  have hm := List.mem_filter.1 (hperm.subset (List.mem_append.2 h))
  exact ⟨hm.1,by simpa using hm.2⟩

theorem sortWindows_relevel {r : Registry} (hr : d.registry = some r) :
    ∃ level trace sorted,
      d.sortWindows = { d.relevel level trace with registry := some { r with sorted } } ∧
      (d.relevel level trace).attempts = d.attempts ∧
      (∀ w : Window, ¬ d.layered w.id → level w = w.z) ∧ sorted ⊆ r.order := by
  have hin : ∀ w ∈ r.inOrder.filterMap d.window?, w.id ∈ r.order ∧ d.window? w.id = some w := by
    intro w hw
    obtain ⟨j,hj,hjw⟩ := List.mem_filterMap.1 hw
    rw [r.inOrder_eq] at hj
    rw [id_of_window? d hjw]
    exact ⟨hj,hjw⟩
  have hsys : ∀ w ∈ (layers (r.inOrder.filterMap d.window?)).1, w.id ∈ r.order :=
    fun w hw => (hin w (mem_layers.1 hw)).1
  have hlay : ∀ w, w ∈ (layers (r.inOrder.filterMap d.window?)).2.1 ∨
      w ∈ (layers (r.inOrder.filterMap d.window?)).2.2 → w.id ∈ r.order ∧ d.layered w.id := by
    intro w hw
    obtain ⟨hm,hns⟩ := mem_layers.2 hw
    exact ⟨(hin w hm).1,⟨r,hr,(hin w hm).1⟩,w,(hin w hm).2,hns⟩
  generalize hl : layers (r.inOrder.filterMap d.window?) = l at hsys hlay
  obtain ⟨system,low,high⟩ := l
  obtain ⟨level,trace,he,ha,hlevel⟩ := foldl_setHeight_relevel d
    (raisedHeights (high.map (·.id)) ++ loweredHeights (low.map (·.id)))
  refine ⟨level,trace,system.map (·.id) ++ low.map (·.id) ++ high.map (·.id),?_,ha,
    fun w hw => hlevel w fun hm => hw ?_,fun id hid => ?_⟩
  · simp only [sortWindows, hr, hl, he]
  · rw [List.map_append, Look.map_fst_raisedHeights, Look.map_fst_loweredHeights,
      List.mem_append, List.mem_reverse] at hm
    rcases hm with hm | hm
    · obtain ⟨v,hv,hid⟩ := List.mem_map.1 hm
      exact hid ▸ (hlay v (.inr hv)).2
    · obtain ⟨v,hv,hid⟩ := List.mem_map.1 hm
      exact hid ▸ (hlay v (.inl hv)).2
  · simp only [List.mem_append, List.mem_map] at hid
    rcases hid with (⟨v,hv,rfl⟩ | ⟨v,hv,rfl⟩) | ⟨v,hv,rfl⟩
    · exact hsys v hv
    · exact (hlay v (.inl hv)).1
    · exact (hlay v (.inr hv)).1

theorem moved_sortWindows (d : Desktop) : ∃ g, Moved s d d.sortWindows g := by
  cases hr : d.registry with
  | none =>
    have he : d.sortWindows = d := by rw [sortWindows, hr]
    rw [he]
    exact ⟨_,moved_refl rfl rfl rfl rfl rfl rfl⟩
  | some r =>
    obtain ⟨level,trace,sorted,he,ha,hl,-⟩ := sortWindows_relevel hr
    rw [he]
    refine ⟨fun w => { w with z := level w },rfl,rfl,rfl,rfl,rfl,ha,fun _ => rfl,fun w _ =>
      ⟨⟨rfl,rfl,rfl,rfl⟩,fun _ => rfl,?_,fun _ => rfl,fun _ => rfl,
        fun _ kind hk => by cases kind <;> exact ⟨hk,rfl⟩⟩⟩
    by_cases hw : d.layered w.id
    · exact .inr (.inl hw)
    · exact .inl (hl w hw)

def freed (d : Desktop) (w : Window) : List RasterId :=
  match w.image with
  | some r => d.pool.live.filter (· != r.id)
  | none => d.pool.live

/-- What a window that is refitted ends up with. -/
structure Refitted (d e : Desktop) (w : Window) (geometry : Rect) (image : Option Raster) :
    Prop where
  windows : e.windows = d.windows.map fun v => if v.id = w.id then { v with geometry, image } else v
  ended : e.ended = d.ended
  nextWindow : e.nextWindow = d.nextWindow
  registry : e.registry = d.registry
  queue : e.queue = d.queue
  live : e.pool.live = d.freed w ++ image.toList.map (·.id)
  nextImage : d.pool.next ≤ e.pool.next
  attempts : e.attempts =
    d.attempts ++ if geometry.isEmpty then [] else [(w.id,image.isSome)]
  fits : ∀ r, image = some r → geometry.isEmpty = false ∧ r.width = geometry.width.toInt.toNat ∧
    r.height = geometry.height.toInt.toNat ∧ r.format = w.format ∧ r.id = d.pool.next ∧
    r.id < e.pool.next

theorem refitted_allocateImage {w : Window} {geometry : Rect}
    (hw : e.windows = d.windows.map fun v => if v.id = w.id then { v with geometry, image := none }
      else v) (he : e.ended = d.ended) (hn : e.nextWindow = d.nextWindow)
    (hr : e.registry = d.registry) (hq : e.queue = d.queue) (hl : e.pool.live = d.freed w)
    (hi : e.pool.next = d.pool.next) (ha : e.attempts = d.attempts) :
    ∃ image, Refitted d (e.allocateImage w geometry) w geometry image := by
  unfold allocateImage
  split
  · rename_i hempty
    have hlog := attempts_log e .warn "Invalid geometry for frame buffer"
    exact ⟨none,hw,he,hn,hr,hq,hl.trans (by simp),hi.ge,by simp [hlog, ha, hempty],by simp⟩
  rename_i hempty
  rw [Bool.not_eq_true] at hempty
  obtain ⟨hnext,hok⟩ := e.pool.allocate_spec geometry.width.toInt.toNat
    geometry.height.toInt.toNat w.format
  have hlive := e.pool.live_allocate geometry.width.toInt.toNat geometry.height.toInt.toNat w.format
  rw [hl] at hlive
  rw [hi] at hnext hok
  split
  · rename_i pool r hres
    rw [hres] at hnext hok hlive
    obtain ⟨hid,hwidth,hheight,hformat⟩ := hok r rfl
    refine ⟨some r,?_,he,hn,hr,hq,hlive,?_,?_,fun s hs => ?_⟩
    · change (e.windows.map fun v => if v.id = w.id then { v with image := some r } else v) = _
      rw [hw, map_map_window]
      exact fun _ => rfl
    · exact (Nat.le_succ _).trans_eq hnext.symm
    · rw [attempts_emit, attempts_log]
      simp only [hempty, Bool.false_eq_true, if_false]
      exact congrArg (· ++ [(w.id,true)]) ha
    · obtain rfl := Option.some.inj hs
      exact ⟨hempty,hwidth,hheight,hformat,hid,by
        rw [hid]
        exact (Nat.lt_succ_self _).trans_eq hnext.symm⟩
  · rename_i pool x hres
    rw [hres] at hnext hlive
    refine ⟨none,hw,he,hn,hr,hq,hlive,(Nat.le_succ _).trans_eq hnext.symm,?_,by simp⟩
    rw [attempts_emit, attempts_log]
    simp only [hempty, Bool.false_eq_true, if_false]
    exact congrArg (· ++ [(w.id,false)]) ha

theorem refitted_refit (d : Desktop) (w : Window) (geometry : Rect) :
    ∃ image, Refitted d (d.refit w geometry) w geometry image := by
  unfold refit
  cases hw : w.image with
  | none => exact refitted_allocateImage rfl rfl rfl rfl rfl (by simp [freed, hw, modify]) rfl rfl
  | some r =>
    exact refitted_allocateImage rfl rfl rfl rfl rfl
      (by simp [freed, hw, modify, log, emit, RasterPool.release]) rfl (attempts_log ..)

/-- A window has ended, and its image is out of use. -/
structure Ended (d e : Desktop) (w : Window) : Prop where
  windows : e.windows = d.windows.filter (·.id != w.id)
  ended : e.ended = d.ended ++ [w.ending]
  nextWindow : e.nextWindow = d.nextWindow
  registry : e.registry = d.registry
  queue : e.queue = d.queue
  live : e.pool.live = d.freed w
  nextImage : e.pool.next = d.pool.next
  attempts : e.attempts = d.attempts

theorem release_ends (d : Desktop) (id : WindowId) : d.release id = d ∨
    ∃ w, d.window? id = some w ∧ Ended d (d.release id) w := by
  unfold release
  split
  · exact .inl rfl
  split
  · exact .inl rfl
  rename_i w hw
  obtain rfl := id_of_window? d hw
  refine .inr ⟨w,hw,?_⟩
  cases himg : w.image with
  | none =>
    exact ⟨rfl,rfl,rfl,rfl,rfl,by simp [freed, himg, log, emit],rfl,attempts_log ..⟩
  | some r =>
    refine ⟨rfl,rfl,rfl,rfl,rfl,by simp [freed, himg, log, emit, RasterPool.release],rfl,?_⟩
    dsimp only
    rw [attempts_log, attempts_log]
    rfl

/-- An edit moves windows, gives one another image, adds one without an image, or ends one. -/
theorem Edit.cases (hd : d.Distinct) (h : Edit s d e) : (∃ g, Moved s d e g) ∨
    (∃ w geometry image, s.windows w.id ∧ d.window? w.id = some w ∧ w.state ≠ .closed ∧
      Refitted d e w geometry image) ∨
    (∃ w, s.windows w.id ∧ w.id = d.nextWindow ∧ w.image = none ∧ w.geometry = Rect.none ∧
      e = d.added w) ∨
    ∃ w, s.windows w.id ∧ d.window? w.id = some w ∧ Ended d e w := by
  cases h with
  | note x hx => exact .inl ⟨_,moved_refl rfl rfl rfl rfl rfl (attempts_emit_none d hx)⟩
  | beside hb =>
    exact .inl ⟨_,moved_refl hb.windows hb.ended hb.nextWindow hb.live hb.nextImage
      (by rw [attempts, attempts, hb.trace])⟩
  | send id kind m hs =>
    exact .inl (moved_usePipe hd hs kind (·.send m) fun c hc => by
      rw [Channel.send_of_closed hc]
      exact ⟨hc,rfl⟩)
  | closePipe id kind hs =>
    exact .inl (moved_usePipe hd hs kind Channel.close fun c hc => by
      rw [Channel.close_of_closed hc]
      exact ⟨rfl,rfl⟩)
  | tend id f hs hf ht => exact .inl ⟨_,moved_modify hd hf fun w hw => (ht w hw).follows hs⟩
  | alter id f hs hf ha =>
    exact .inl ⟨_,moved_modify hd hf fun w hw => (ha w hw).2.follows (ha w hw).1 hs⟩
  | refit geometry hs hw ho =>
    obtain ⟨image,hr⟩ := refitted_refit d _ geometry
    exact .inr (.inl ⟨_,geometry,image,hs,hw,ho,hr⟩)
  | add w hs hid hi hg => exact .inr (.inr (.inl ⟨w,hs,hid,hi,hg,rfl⟩))
  | relist | queue | serve => exact .inl ⟨_,moved_refl rfl rfl rfl rfl rfl rfl⟩
  | sort => exact .inl (moved_sortWindows d)
  | release id hs =>
    rcases release_ends d id with he | ⟨w,hw,he⟩
    · rw [he]
      exact .inl ⟨_,moved_refl rfl rfl rfl rfl rfl rfl⟩
    · obtain rfl := id_of_window? d hw
      exact .inr (.inr (.inr ⟨w,hs,hw,he⟩))

theorem timings_allocateImage (d : Desktop) (w : Window) (geometry : Rect) :
    (d.allocateImage w geometry).timings = d.timings := by
  unfold allocateImage
  split
  · rfl
  · split <;> rfl

theorem Edit.timings (h : Edit s d e) : e.timings = d.timings := by
  cases h with
  | note | tend | alter | add | relist | queue | serve => rfl
  | beside hb => exact hb.timings
  | send id kind m =>
    obtain ⟨windows,trace,he⟩ := usePipe_frame d id kind (·.send m)
    rw [send_eq_usePipe, he]
  | closePipe id kind =>
    obtain ⟨windows,trace,he⟩ := usePipe_frame d id kind Channel.close
    rw [closePipe_eq_usePipe, he]
  | refit geometry =>
    refine (timings_allocateImage ..).trans ?_
    split <;> rfl
  | sort =>
    cases hr : d.registry with
    | none => rw [sortWindows, hr]
    | some r =>
      obtain ⟨level,trace,sorted,he,-⟩ := sortWindows_relevel hr
      rw [he]
      rfl
  | release id =>
    unfold Desktop.release
    split
    · rfl
    split
    · rfl
    · dsimp only
      split <;> rfl

theorem Edit.lists_cases (h : Edit s d e) : e.registry = d.registry ∧ e.queue = d.queue ∨
    s.stack ∧ e.queue = d.queue ∧ (Relisting s d e.registry ∨
      ∃ r sorted, d.registry = some r ∧ e.registry = some { r with sorted } ∧ sorted ⊆ r.order) ∨
    e.registry = d.registry ∧ ((∃ q, d.queue = q :: e.queue) ∨
      ∃ q, e = { d with queue := d.queue ++ [q] } ∧
        ∀ id w, q.window = some id → d.window? id = some w → w.state ≠ .closed) := by
  cases h with
  | note | tend | alter | add => exact .inl ⟨rfl,rfl⟩
  | beside hb => exact .inl ⟨hb.registry,hb.queue⟩
  | send id kind m =>
    obtain ⟨windows,trace,he⟩ := usePipe_frame d id kind (·.send m)
    exact .inl (by rw [send_eq_usePipe, he]; exact ⟨rfl,rfl⟩)
  | closePipe id kind =>
    obtain ⟨windows,trace,he⟩ := usePipe_frame d id kind Channel.close
    exact .inl (by rw [closePipe_eq_usePipe, he]; exact ⟨rfl,rfl⟩)
  | refit geometry =>
    obtain ⟨image,hr⟩ := refitted_refit d _ geometry
    exact .inl ⟨hr.registry,hr.queue⟩
  | relist registry hst hr => exact .inr (.inl ⟨hst,rfl,.inl hr⟩)
  | sort hst =>
    cases hr : d.registry with
    | none => exact .inl (by rw [sortWindows, hr]; exact ⟨hr,rfl⟩)
    | some r =>
      obtain ⟨level,trace,sorted,he,-,-,hs⟩ := sortWindows_relevel hr
      exact .inr (.inl ⟨hst,by rw [he]; rfl,.inr ⟨r,sorted,rfl,by rw [he],hs⟩⟩)
  | release id =>
    rcases release_ends d id with he | ⟨w,-,he⟩
    · exact .inl (by rw [he]; exact ⟨rfl,rfl⟩)
    · exact .inl ⟨he.registry,he.queue⟩
  | queue q ho => exact .inr (.inr ⟨rfl,.inr ⟨q,rfl,ho⟩⟩)
  | serve hq => exact .inr (.inr ⟨rfl,.inl ⟨_,hq⟩⟩)

theorem Edit.registry_cases (h : Edit s d e) : e.registry = d.registry ∨ s.stack ∧
    (Relisting s d e.registry ∨ ∃ r sorted, d.registry = some r ∧
      e.registry = some { r with sorted } ∧ sorted ⊆ r.order) := by
  rcases h.lists_cases with ⟨hr,-⟩ | ⟨hst,-,hr⟩ | ⟨hr,-⟩
  · exact .inl hr
  · exact .inr ⟨hst,hr⟩
  · exact .inl hr

theorem Edit.queue_cases (h : Edit s d e) : e.queue = d.queue ∨ (∃ q, d.queue = q :: e.queue) ∨
    ∃ q, e = { d with queue := d.queue ++ [q] } ∧
      ∀ id w, q.window = some id → d.window? id = some w → w.state ≠ .closed := by
  rcases h.lists_cases with ⟨-,hq⟩ | ⟨-,hq,-⟩ | ⟨-,hq⟩
  · exact .inl hq
  · exact .inl hq
  · exact .inr hq

theorem Refitted.distinct {w : Window} {geometry : Rect} {image : Option Raster}
    (h : Refitted d e w geometry image) (hd : d.Distinct) : e.Distinct :=
  hd.of_map (fun v => by split <;> rfl) h.windows h.ended h.nextWindow

theorem Distinct.added (hd : d.Distinct) {w : Window} (hw : w.id = d.nextWindow) :
    (d.added w).Distinct := by
  have hp : (d.windows ++ [w] ++ d.ended).Perm (w :: (d.windows ++ d.ended)) := by
    rw [List.append_assoc]
    exact List.perm_middle
  constructor
  · refine (hp.map _).nodup_iff.2 (List.nodup_cons.2 ⟨fun hm => ?_,hd.nodup⟩)
    obtain ⟨v,hv,he⟩ := List.mem_map.1 hm
    exact (hd.lt v hv).ne (he.trans hw)
  · intro v hv
    rcases List.mem_cons.1 (hp.mem_iff.1 hv) with rfl | hv
    · exact Nat.lt_succ_self _
    · exact (hd.lt v hv).trans (hw ▸ Nat.lt_succ_self _)

theorem Ended.distinct {w : Window} (h : Ended d e w) (hd : d.Distinct)
    (hw : d.window? w.id = some w) : e.Distinct := by
  have hp := Look.filter_ne_append_perm hd.nodup_windows
    (List.mem_map_of_mem (f := (·.id)) (mem_of_window? hw))
  refine hd.of_perm ?_ h.nextWindow.ge
  rw [h.windows, h.ended, List.map_append, List.map_append, List.map_append]
  refine List.Perm.trans ?_ (hp.append_right _)
  rw [List.append_assoc, List.filter_map]
  exact List.perm_append_comm.append_left _

theorem Edit.distinct (h : Edit s d e) (hd : d.Distinct) : e.Distinct := by
  rcases h.cases hd with ⟨g,hm⟩ | ⟨w,geometry,image,-,-,-,hr⟩ | ⟨w,-,hid,-,-,rfl⟩ | ⟨w,-,hw,he⟩
  · exact hm.distinct hd
  · exact hr.distinct hd
  · exact hd.added hid
  · exact he.distinct hd hw

theorem Distinct.atPipe_eq (hd : d.Distinct) (id : WindowId) (kind : ChannelKind)
    (f : Channel → Channel) : d.atPipe id kind f = { d with
      windows := d.windows.map fun w => if w.id = id then w.setPipe (f (w.pipe kind)) kind else w
      ended := d.ended.map fun w =>
        if w.id = id then w.setPipe (f (w.pipe kind)) kind else w } := by
  unfold Desktop.atPipe clientEnd?
  cases hf : (d.windows ++ d.ended).find? (·.id == id) with
  | none =>
    have hne : ∀ w ∈ d.windows ++ d.ended, w.id ≠ id := fun w hw => by
      simpa using List.find?_eq_none.1 hf w hw
    have hput : ∀ ws ⊆ d.windows ++ d.ended, (ws.map fun w =>
        if w.id = id then w.setPipe (f (w.pipe kind)) kind else w) = ws := fun ws hws =>
      (List.map_congr_left fun w hw => if_neg (hne w (hws hw))).trans (List.map_id' ws)
    rw [hput _ (List.subset_append_left ..), hput _ (List.subset_append_right ..)]
    rfl
  | some v =>
    have hv : v ∈ d.windows ++ d.ended := List.mem_of_find?_eq_some hf
    have hid : v.id = id := by simpa using List.find?_some hf
    have hput : ∀ ws ⊆ d.windows ++ d.ended, (ws.map fun w =>
        if w.id = id then w.setPipe (f (v.pipe kind)) kind else w) =
          ws.map fun w => if w.id = id then w.setPipe (f (w.pipe kind)) kind else w := by
      refine fun ws hws => List.map_congr_left fun w hw => ?_
      split
      · rename_i hw'
        rw [List.inj_on_of_nodup_map hd.nodup (hws hw) hv (hw'.trans hid.symm)]
      · rfl
    exact congrArg₂ (fun windows ended => { d with windows, ended })
      (hput _ (List.subset_append_left ..)) (hput _ (List.subset_append_right ..))

theorem Distinct.atPipe (h : d.Distinct) (id : WindowId) (kind : ChannelKind)
    (f : Channel → Channel) : (d.atPipe id kind f).Distinct := by
  unfold Desktop.atPipe
  split
  · exact h
  rename_i c _
  have hid : ∀ w : Window, (if w.id = id then w.setPipe (f c) kind else w).id = w.id := by
    intro w
    split
    · cases kind <;> rfl
    · rfl
  refine h.of_perm (.of_eq ?_) le_rfl
  simp [setClientEnd, Function.comp_def, hid]

theorem Distinct.scribble (h : d.Distinct) (id : WindowId) (bytes : Raster → Array UInt8) :
    (d.scribble id bytes).Distinct := h.of_map (fun w => by split <;> rfl) rfl rfl rfl

theorem distinct_perform (hs : d.look.Sound) (a : Action) (h : d.Distinct) :
    (d.perform a).Distinct :=
  perform_keeps Edit.distinct (fun _ h => ⟨h.nodup,h.lt⟩) (fun id kind f h => h.atPipe id kind f)
    (fun id bytes h => h.scribble id bytes) hs a h

theorem Reachable.distinct (h : Reachable d) : d.Distinct := by
  induction h with
  | fresh => exact ⟨List.nodup_nil,fun w hw => by cases hw⟩
  | act a h ih => exact distinct_perform h.sound a ih

end Desktop

end InkCompositor
