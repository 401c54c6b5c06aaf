import Mathlib
import InkCompositor.Proofs.Desktop.Actions

/-!
# Damage

A pixel of the panel is stale only where a queued repaint exposes it. What is
seen at a pixel is the topmost window there, so an operation on one window has
to damage the pixels where that window was topmost or has become so, and no
others.
-/

set_option autoImplicit false

namespace InkCompositor

namespace Look

variable {l m k : Look}

def sight (l : Look) (x y : Int) : Option (WindowId × Point × Color) :=
  (l.top x y).map fun w => (w.id,w.geometry.origin,w.colorAt x y)

/-- Every pixel is what it is to be, or a queued repaint exposes it. -/
def Consistent (l : Look) : Prop :=
  ∀ x y : Nat, x < l.raster.width → y < l.raster.height →
    l.raster.colorAt x y = l.composite x y ∨ ∃ q ∈ l.queue, l.Exposed q x y

theorem screen_holds {x y : Nat} (hx : x < l.raster.width) (hy : y < l.raster.height) :
    l.screen.Holds x y := by
  rw [screen, ← l.raster.exact_rect.covers_iff_holds, Raster.covers_rect]
  omega

theorem exposed_iff_sight (q : Repaint) (x y : Int) : l.Exposed q x y ↔
    l.screen.Holds x y ∧ match q.window with
      | none => q.region.Holds x y
      | some id => ∃ p c, l.sight x y = some (id,p,c) ∧
          q.region.Holds (x-p.x.toInt) (y-p.y.toInt) := by
  rw [Exposed]
  apply and_congr Iff.rfl
  cases q.window with
  | none => exact Iff.rfl
  | some id =>
    simp only [sight, Option.map_eq_some_iff, Prod.mk.injEq]
    constructor
    · rintro ⟨w,hw,rfl,hr⟩
      exact ⟨w.geometry.origin,w.colorAt x y,⟨w,hw,rfl,rfl,rfl⟩,hr⟩
    · rintro ⟨p,c,⟨w,hw,rfl,rfl,rfl⟩,hr⟩
      exact ⟨w,hw,rfl,hr⟩

theorem exposed_congr (hr : m.raster.rect = l.raster.rect) {x y : Int}
    (hs : m.sight x y = l.sight x y) (q : Repaint) : m.Exposed q x y ↔ l.Exposed q x y := by
  rw [exposed_iff_sight, exposed_iff_sight, hs, screen, screen, hr]

theorem composite_congr (hf : m.raster.format = l.raster.format) {x y : Nat}
    (hs : m.sight x y = l.sight x y) : m.composite x y = l.composite x y := by
  simp only [sight] at hs
  rw [composite, composite, hf]
  cases hm : m.top x y with
  | none =>
    cases hl : l.top x y with
    | none => rfl
    | some w => simp [hm, hl] at hs
  | some v =>
    cases hl : l.top x y with
    | none => simp [hm, hl] at hs
    | some w =>
      simp only [hm, hl, Option.map_some, Option.some.injEq, Prod.mk.injEq] at hs
      simp only [hs.2.2]

/-- Nothing is painted and no request is lost, and wherever something else is
seen than before a queued repaint exposes it. -/
structure Repaired (l m : Look) : Prop where
  raster : m.raster = l.raster
  halted : m.halted = l.halted
  queue : ∀ q ∈ l.queue, q ∈ m.queue
  seen : ∀ x y, l.screen.Holds x y →
    m.sight x y = l.sight x y ∨ ∃ q ∈ m.queue, m.Exposed q x y

namespace Repaired

theorem of_sight (hr : m.raster = l.raster) (hh : m.halted = l.halted)
    (hq : ∀ q ∈ l.queue, q ∈ m.queue) (hs : ∀ x y, m.sight x y = l.sight x y) : l.Repaired m :=
  ⟨hr,hh,hq,fun x y _ => .inl (hs x y)⟩

theorem refl (l : Look) : l.Repaired l := .of_sight rfl rfl (fun _ h => h) fun _ _ => rfl

theorem trans (h : l.Repaired m) (h' : m.Repaired k) : l.Repaired k where
  raster := h'.raster.trans h.raster
  halted := h'.halted.trans h.halted
  queue q hq := h'.queue q (h.queue q hq)
  seen x y hxy := by
    have hxy' : m.screen.Holds x y := by rwa [screen, h.raster]
    rcases h'.seen x y hxy' with hs' | he
    · rcases h.seen x y hxy with hs | ⟨q,hq,he⟩
      · exact .inl (hs'.trans hs)
      · exact .inr ⟨q,h'.queue q hq,(exposed_congr (by rw [h'.raster]) hs' q).2 he⟩
    · exact .inr he

theorem consistent (h : l.Repaired m) (hl : l.Consistent) : m.Consistent := by
  intro x y hx hy
  rw [h.raster] at hx hy
  rcases h.seen x y (screen_holds hx hy) with hs | he
  · rcases hl x y hx hy with hc | ⟨q,hq,he⟩
    · exact .inl (by rw [h.raster, hc, composite_congr (by rw [h.raster]) hs])
    · exact .inr ⟨q,h.queue q hq,(exposed_congr (by rw [h.raster]) hs q).2 he⟩
  · exact .inr he

end Repaired

def visibleAt (l : Look) (x y : Int) (id : WindowId) : Option Window :=
  (l.face id).filter fun w => l.presents w && decide (w.geometry.Holds x y)

theorem top_eq (l : Look) (x y : Int) :
    l.top x y = (l.sorted.filterMap (l.visibleAt x y)).getLast? := by
  rw [top, topmost, painted, List.filter_filter, List.filter_filterMap]
  apply congrArg (fun f => (l.sorted.filterMap f).getLast?)
  funext id
  rw [visibleAt]
  congr 1
  funext w
  rw [Bool.and_comm]

theorem visibleAt_eq_some_iff (x y : Int) (id : WindowId) (w : Window) :
    l.visibleAt x y id = some w ↔
      l.face id = some w ∧ l.presents w = true ∧ w.geometry.Holds x y := by
  simp [visibleAt, Option.filter_eq_some_iff]

theorem getLast?_filterMap_filter_ne (ids : List WindowId) (f : WindowId → Option Window)
    (hf : ∀ j w, f j = some w → w.id = j) (id : WindowId)
    (h : ∀ w, (ids.filterMap f).getLast? = some w → w.id ≠ id) :
    ((ids.filter (· != id)).filterMap f).getLast? = (ids.filterMap f).getLast? := by
  -- from the end, as only the last window to be found matters
  induction ids using List.reverseRecOn with
  | nil => rfl
  | append_singleton ids j ih =>
    rw [List.filter_append, List.filterMap_append, List.filterMap_append] at *
    cases hj : f j with
    | none =>
      have h1 : ([j].filter (· != id)).filterMap f = [] := by
        by_cases hji : j = id
        · simp [hji]
        · simp [hji, hj]
      rw [h1]
      simp only [List.filterMap_cons, hj, List.filterMap_nil, List.append_nil] at h ⊢
      exact ih h
    | some w =>
      simp only [List.filterMap_cons, hj, List.filterMap_nil, List.getLast?_append,
        List.getLast?_singleton, Option.some_or] at h ⊢
      have hji : j ≠ id := hf j w hj ▸ h w rfl
      simp [hji, hj]

structure Elsewhere (id : WindowId) (l m : Look) : Prop where
  raster : m.raster = l.raster
  groups : m.groups = l.groups
  halted : m.halted = l.halted
  queue : ∀ q ∈ l.queue, q ∈ m.queue
  stack : m.stack.isSome = l.stack.isSome
  face : ∀ j, j ≠ id → m.face j = l.face j
  sorted : m.sorted.filter (· != id) = l.sorted.filter (· != id)

def Rises (id : WindowId) (l m : Look) : Prop :=
  ∀ below above, l.sorted = below ++ id :: above →
    ∃ below' above', m.sorted = below' ++ id :: above' ∧ ∀ j ∈ above', j ∈ above

def Queued (l : Look) (window : Option WindowId) (region : Rect) : Prop :=
  ∃ q ∈ l.queue, q.window = window ∧ q.region = region

theorem rises_of_sorted_eq (id : WindowId) (h : m.sorted = l.sorted) : Rises id l m :=
  fun b a hs => ⟨b,a,h.trans hs,fun _ hj => hj⟩

theorem id_of_visibleAt (h : l.Ready) {x y : Int} {j : WindowId} {w : Window}
    (hw : l.visibleAt x y j = some w) : w.id = j :=
  (h.known j w ((visibleAt_eq_some_iff x y j w).1 hw).1).1

theorem top_spec (h : l.Ready) {x y : Int} {w : Window} (hw : l.top x y = some w) :
    w.id ∈ l.sorted ∧ l.visibleAt x y w.id = some w := by
  rw [top_eq] at hw
  obtain ⟨j,hj,hjw⟩ := List.mem_filterMap.1 (List.mem_of_getLast? hw)
  rw [id_of_visibleAt h hjw]
  exact ⟨hj,hjw⟩

namespace Elsewhere

variable {id : WindowId}

theorem visibleAt_eq (h : Elsewhere id l m) (x y : Int) {j : WindowId} (hj : j ≠ id) :
    m.visibleAt x y j = l.visibleAt x y j := by
  have hp : ∀ w, m.presents w = l.presents w := fun w => by
    rw [presents, presents, screen, screen, h.raster, h.groups]
  simp only [visibleAt, h.face j hj, hp]

theorem top_eq_top (h : Elsewhere id l m) (hl : l.Ready) (hm : m.Ready) {x y : Int}
    (hlt : ∀ w, l.top x y = some w → w.id ≠ id) (hmt : ∀ w, m.top x y = some w → w.id ≠ id) :
    m.top x y = l.top x y := by
  rw [top_eq] at hlt hmt ⊢
  rw [top_eq]
  rw [← getLast?_filterMap_filter_ne _ _ (fun _ _ => id_of_visibleAt hm) id hmt,
    ← getLast?_filterMap_filter_ne _ _ (fun _ _ => id_of_visibleAt hl) id hlt, h.sorted]
  refine congrArg List.getLast? (List.filterMap_congr fun j hj => ?_)
  exact h.visibleAt_eq x y (by simpa using (List.mem_filter.1 hj).2)

theorem top_of_top (h : Elsewhere id l m) (hl : l.Sound) {x y : Int} {w v : Window}
    (hw : l.top x y = some w) (hid : w.id = id) (hup : Rises id l m)
    (hv : m.visibleAt x y id = some v) : m.top x y = some v := by
  obtain ⟨hmem,-⟩ := top_spec hl.toReady hw
  obtain ⟨b,a,hs⟩ := List.append_of_mem (hid ▸ hmem)
  obtain ⟨b',a',hs',ha⟩ := hup b a hs
  have hn := hl.nodup_sorted
  rw [hs, List.nodup_append] at hn
  have hna : id ∉ a := (List.nodup_cons.1 hn.2.1).1
  -- a window found above this one would have been topmost instead
  have hnone : ∀ j ∈ a, l.visibleAt x y j = none := by
    rw [← List.filterMap_eq_nil_iff]
    rcases List.eq_nil_or_concat (a.filterMap (l.visibleAt x y)) with hnil | ⟨c,u,hu⟩
    · exact hnil
    · rw [top_eq, hs, List.append_cons, List.filterMap_append, hu, List.concat_eq_append,
        ← List.append_assoc, List.getLast?_concat, Option.some.injEq] at hw
      obtain ⟨j,hj,hju⟩ := List.mem_filterMap.1 (hu ▸ by simp : u ∈ a.filterMap (l.visibleAt x y))
      rw [← id_of_visibleAt hl.toReady hju, hw, hid] at hj
      exact absurd hj hna
  have hnil : a'.filterMap (m.visibleAt x y) = [] := by
    rw [List.filterMap_eq_nil_iff]
    intro j hj
    rw [h.visibleAt_eq x y fun he => hna (he ▸ ha j hj)]
    exact hnone j (ha j hj)
  rw [top_eq, hs', List.filterMap_append, List.filterMap_cons, hv, hnil]
  simp

end Elsewhere

/-- Only one window has changed, and both where it was and where it is gets
repainted. Where it was, it is enough that it comes to lie no lower there. -/
structure Amends (id : WindowId) (l m : Look) : Prop extends Elsewhere id l m where
  old : ∀ w, id ∈ l.sorted → l.face id = some w → l.presents w = true →
    m.Queued none w.geometry ∨
      Rises id l m ∧ ∃ v, m.face id = some v ∧ m.presents v = true ∧ v.geometry = w.geometry
  new : ∀ v, id ∈ m.sorted → m.face id = some v → m.presents v = true →
    m.Queued (some id) v.localRect ∨ m.Queued none v.geometry

namespace Amends

variable {id : WindowId}

theorem exposes_new (h : Amends id l m) (hm : m.Ready) {x y : Int} (hxy : m.screen.Holds x y)
    {v : Window} (hv : m.top x y = some v) (hid : v.id = id) : ∃ q ∈ m.queue, m.Exposed q x y := by
  subst hid
  obtain ⟨hmem,hvis⟩ := top_spec hm hv
  obtain ⟨hf,hp,hg⟩ := (visibleAt_eq_some_iff x y _ v).1 hvis
  rcases h.new v hmem hf hp with ⟨q,hq,hqw,hqr⟩ | ⟨q,hq,hqw,hqr⟩
  · refine ⟨q,hq,hxy,?_⟩
    rw [hqw, hqr]
    exact ⟨v,hv,rfl,(Rect.holds_atOrigin v.geometry x y).2 hg⟩
  · refine ⟨q,hq,hxy,?_⟩
    rw [hqw, hqr]
    exact hg

theorem exposes_old (h : Amends id l m) (hl : l.Sound) (hm : m.Ready) {x y : Int}
    (hxy : m.screen.Holds x y) {w : Window} (hw : l.top x y = some w) (hid : w.id = id) :
    ∃ q ∈ m.queue, m.Exposed q x y := by
  subst hid
  obtain ⟨hmem,hvis⟩ := top_spec hl.toReady hw
  obtain ⟨hf,hp,hg⟩ := (visibleAt_eq_some_iff x y _ w).1 hvis
  rcases h.old w hmem hf hp with ⟨q,hq,hqw,hqr⟩ | ⟨hup,v,hvf,hvp,hvg⟩
  · refine ⟨q,hq,hxy,?_⟩
    rw [hqw, hqr]
    exact hg
  · have hv := h.top_of_top hl hw rfl hup
      ((visibleAt_eq_some_iff x y _ v).2 ⟨hvf,hvp,hvg ▸ hg⟩)
    exact h.exposes_new hm hxy hv (hm.known _ v hvf).1

/-- Damage to where the window was and to where it is makes up for its change. -/
theorem repaired (h : Amends id l m) (hl : l.Sound) (hm : m.Ready) : l.Repaired m where
  raster := h.raster
  halted := h.halted
  queue := h.queue
  seen x y hxy := by
    have hxy' : m.screen.Holds x y := by rwa [screen, h.raster]
    -- either this window is seen there before or after, or it makes no difference
    by_cases hlt : ∃ w, l.top x y = some w ∧ w.id = id
    · obtain ⟨w,hw,hid⟩ := hlt
      exact .inr (h.exposes_old hl hm hxy' hw hid)
    · by_cases hmt : ∃ v, m.top x y = some v ∧ v.id = id
      · obtain ⟨v,hv,hid⟩ := hmt
        exact .inr (h.exposes_new hm hxy' hv hid)
      · left
        rw [sight, sight, h.top_eq_top hl.toReady hm (fun w hw hid => hlt ⟨w,hw,hid⟩)
          fun v hv hid => hmt ⟨v,hv,hid⟩]

end Amends

end Look

end InkCompositor
