import Mathlib
import InkCompositor.Proofs.Desktop.Restacking

/-!
# Repairs

What is requested joins the queue. An operation that changes one window makes
up for it by requests: of the area that the window left, of the window where it
is now, or of both.
-/

set_option autoImplicit false

namespace InkCompositor

namespace Look

variable {l m : Look} {id : WindowId}

/-- A sound look whose requests are served, with fewer windows than heights. -/
structure Steady (l : Look) : Prop where
  sound : l.Sound
  running : l.halted = false
  roomy : l.Roomy

/-- What changes is repaired, if the outcome is sound. -/
def Mends (l m : Look) : Prop :=
  l.Steady → m.Sound → l.Repaired m ∧ m.Roomy ∧ m.groups = l.groups

theorem Mends.refl (l : Look) : l.Mends l := fun h _ => ⟨.refl l,h.roomy,rfl⟩

theorem elsewhere_change (id : WindowId) (l : Look) (g : Window → Window) :
    Elsewhere id l (l.change id g) :=
  ⟨rfl,rfl,rfl,fun _ h => h,rfl,fun j hj => by simp [Look.change, hj],rfl⟩

theorem repaired_requeue {queue : List Repaint} (hq : ∀ q ∈ l.queue, q ∈ queue) :
    l.Repaired { l with queue } := .of_sight rfl rfl hq fun _ _ => rfl

theorem isSome_stack_of_mem_sorted (h : id ∈ l.sorted) : l.stack.isSome = true := by
  cases hs : l.stack with
  | none => simp [sorted, hs] at h
  | some s => rfl

theorem isVisibleOn_of_presents {w : Window} (h : l.presents w = true) :
    w.isVisibleOn l.screen = true := by
  simp only [presents, Bool.and_eq_true] at h
  exact h.1

theorem presents_of_visible {v w : Window} (h : l.presents w = true) (ho : v.owner = w.owner)
    (hs : v.isSystem = w.isSystem) (hv : v.isVisibleOn l.screen = true) : l.presents v = true := by
  simp only [presents, Bool.and_eq_true, ho, hs] at h ⊢
  exact ⟨hv,h.2⟩

end Look

namespace Desktop

open Look

variable {d : Desktop}

theorem face_of_window? {id : WindowId} {w : Window} (h : d.window? id = some w) :
    d.look.face id = some w.face := by simp [look, h]

theorem isVisible_look (id : WindowId) :
    d.isVisible id = (d.look.face id).any (·.isVisibleOn d.look.screen) := by
  rw [isVisible]
  cases h : d.window? id with
  | none => simp [look, h]
  | some w =>
    simp only [look, h, Option.any_some, Option.map_some]
    rfl

theorem isVisibleOn_screen_of_presents {w : Window} (h : d.look.presents w = true) :
    w.isVisibleOn d.screen = true := by
  rw [← isVisibleOn_of_presents h]
  rfl

theorem isVisibleOn_of_presents_face {w : Window} (h : d.look.presents w.face = true) :
    w.isVisibleOn d.screen = true := by
  have hf : w.face.isVisibleOn d.look.screen = w.isVisibleOn d.look.screen := rfl
  rw [← isVisibleOn_of_presents h, hf]
  rfl

theorem mends_guarded {α : Type} {id : WindowId} {caller : Group} {denied : α}
    {call : Desktop → Window → Desktop × α}
    (hc : ∀ (e : Desktop) w, e.look = d.look → e.window? id = some w →
      e.look.Mends (call e w).1.look) :
    d.look.Mends (d.guarded id caller denied call).1.look := by
  refine guarded_cases (P := fun e => d.look.Mends e.look) ?_ fun w hw => ?_
  · rw [look_logCall]
    exact .refl _
  · rw [← look_logCall d id caller]
    exact hc _ w (look_logCall ..) hw

theorem mends_guardedDo {id : WindowId} {caller : Group} {call : Desktop → Window → Desktop}
    (hc : ∀ (e : Desktop) w, e.look = d.look → e.window? id = some w →
      e.look.Mends (call e w).look) :
    d.look.Mends (d.guardedDo id caller call).look := mends_guarded hc

theorem look_enqueue (hrun : d.look.halted = false) (q : Repaint) :
    (d.enqueue q).look = { d.look with queue := d.look.queue ++ [q] } := by
  have hd : ¬ (d.log .trace "Queueing repaint").halted = true := Bool.eq_false_iff.1 hrun
  simp only [enqueue]
  rw [if_neg hd]
  rfl

theorem requestRepaint_spec (hrun : d.look.halted = false) (window : Option WindowId)
    (region : Rect) (waveform : Option Waveform) (marker : Marker) :
    ∃ queue, (d.requestRepaint window region waveform marker).look = { d.look with queue } ∧
      (∀ q ∈ d.look.queue, q ∈ queue) ∧
      ((∀ id w, window = some id → d.look.face id = some w → w.state ≠ .closed) →
        { d.look with queue }.Queued window region) := by
  have hall : ∃ queue, (d.enqueue ⟨window,region,waveform,marker,none⟩).look =
      { d.look with queue } ∧ (∀ q ∈ d.look.queue, q ∈ queue) ∧
      ((∀ id w, window = some id → d.look.face id = some w → w.state ≠ .closed) →
        { d.look with queue }.Queued window region) := by
    refine ⟨_,look_enqueue hrun _,fun q hq => List.mem_append_left _ hq,fun _ => ?_⟩
    exact ⟨⟨window,region,waveform,marker,none⟩,by simp,rfl,rfl⟩
  unfold requestRepaint
  split
  · rename_i w hw
    split
    · rename_i hclosed
      refine ⟨d.look.queue,rfl,fun _ hq => hq,fun hopen => ?_⟩
      obtain ⟨id,hid,hidw⟩ := Option.bind_eq_some_iff.1 hw
      exact absurd hclosed (hopen id w.face hid (face_of_window? hidw))
    · exact hall
  · exact hall

theorem damage_spec (hrun : d.look.halted = false) (window : Option WindowId) (region : Rect) :
    ∃ queue, (d.damage window region).look = { d.look with queue } ∧
      (∀ q ∈ d.look.queue, q ∈ queue) ∧
      (d.look.stack.isSome = true →
        (∀ id w, window = some id → d.look.face id = some w → w.state ≠ .closed) →
        { d.look with queue }.Queued window region) := by
  unfold damage
  split
  · obtain ⟨queue,hl,hq,hn⟩ := requestRepaint_spec hrun window region none 0
    exact ⟨queue,hl,hq,fun _ => hn⟩
  · rename_i hr
    refine ⟨d.look.queue,rfl,fun _ hq => hq,fun hs => absurd ?_ hr⟩
    simpa [look] using hs

theorem damage_if_spec (hrun : d.look.halted = false) (c : Bool) (region : Rect) :
    ∃ queue, (if c = true then d.damage none region else d).look = { d.look with queue } ∧
      (∀ q ∈ d.look.queue, q ∈ queue) ∧
      (c = true → d.look.stack.isSome = true → { d.look with queue }.Queued none region) := by
  obtain ⟨queue,hl,hq,hn⟩ := damage_spec hrun none region
  cases c with
  | true => exact ⟨queue,hl,hq,fun _ hs => hn hs fun _ _ hid => by cases hid⟩
  | false => exact ⟨d.look.queue,rfl,fun _ hq => hq,fun hc => absurd hc Bool.false_ne_true⟩

theorem damageWindow_spec (hrun : d.look.halted = false) {id : WindowId} {v w : Window}
    (hv : d.look.face id = some v) (hvis : v.isVisibleOn d.look.screen = true) (hid : w.id = id) :
    ∃ queue, (d.damageWindow w).look = { d.look with queue } ∧ (∀ q ∈ d.look.queue, q ∈ queue) ∧
      (d.look.stack.isSome = true → { d.look with queue }.Queued (some id) w.localRect) := by
  obtain ⟨queue,hl,hq,hn⟩ := damage_spec hrun (some w.id) w.localRect
  refine ⟨queue,hl,hq,fun hs => hid ▸ hn hs fun j u hj hu => ?_⟩
  rw [← Option.some.inj hj, hid, hv] at hu
  rw [← Option.some.inj hu]
  exact Window.not_closed_of_visible hvis

theorem damageMove_spec (hrun : d.look.halted = false) (id : WindowId) (wasVisible : Bool)
    (old : Rect) : ∃ queue, (d.damageMove id wasVisible old).look = { d.look with queue } ∧
      (∀ q ∈ d.look.queue, q ∈ queue) ∧
      (wasVisible = true → d.look.stack.isSome = true → { d.look with queue }.Queued none old) ∧
      ∀ v, d.look.face id = some v → v.isVisibleOn d.look.screen = true →
        d.look.stack.isSome = true → { d.look with queue }.Queued (some id) v.localRect := by
  obtain ⟨queue,hl,hq,hn⟩ := damage_if_spec hrun wasVisible old
  simp only [damageMove]
  generalize (if wasVisible = true then d.damage none old else d) = e at hl
  have hf : e.look.face id = d.look.face id := by rw [hl]
  have hscreen : e.look.screen = d.look.screen := by rw [hl]; rfl
  cases hw : e.window? id with
  | none =>
    refine ⟨queue,hl,hq,hn,fun v hv => ?_⟩
    rw [← hf] at hv
    simp [look, hw] at hv
  | some w =>
    have hwf := face_of_window? hw
    by_cases hvis : w.isVisibleOn e.screen = true
    · obtain ⟨queue',hl',hq',hn'⟩ := damageWindow_spec (d := e) (by rw [hl]; exact hrun) hwf hvis
        (id_of_window? e hw)
      rw [hl] at hl' hq' hn'
      refine ⟨queue',by simpa only [hvis, if_true] using hl',fun q hqd => hq' q (hq q hqd),
        fun hc hs => ?_,fun v hv _ hs => ?_⟩
      · obtain ⟨q,hqq,h⟩ := hn hc hs
        exact ⟨q,hq' q hqq,h⟩
      · rw [← hf, hwf] at hv
        rw [← Option.some.inj hv]
        exact hn' hs
    · refine ⟨queue,by simpa only [if_neg hvis] using hl,hq,hn,fun v hv hv' => ?_⟩
      rw [← hf, hwf] at hv
      rw [← Option.some.inj hv, ← hscreen] at hv'
      exact absurd hv' hvis

/-- A window that has changed and has damaged where it was and where it is, if
it was and is to be seen. -/
theorem amends_change {l : Look} {id : WindowId} {w : Window} {g : Window → Window}
    {queue : List Repaint} {nextImage : RasterId} {stack : Option (List WindowId × List WindowId)}
    {height : WindowId → Option Int32} (hf : l.face id = some w) (hq : ∀ q ∈ l.queue, q ∈ queue)
    (hst : Restacked id l stack)
    (hold : l.presents w = true → l.stack.isSome = true →
      { l with queue }.Queued none w.geometry ∨
        Rises id l { l with stack } ∧ l.presents (g w) = true ∧ (g w).geometry = w.geometry)
    (hnew : id ∈ { l with stack }.sorted → l.presents (g w) = true → l.stack.isSome = true →
      { l with queue }.Queued (some id) (g w).localRect ∨
        { l with queue }.Queued none (g w).geometry) :
    Amends id l { l.change id g with queue, nextImage, stack, height } where
  raster := rfl
  groups := rfl
  halted := rfl
  queue := hq
  stack := hst.isSome
  face := (elsewhere_change id l g).face
  sorted := hst.sorted
  old v hid hv hp := by
    obtain rfl := Option.some.inj (hf.symm.trans hv)
    apply (hold hp (isSome_stack_of_mem_sorted hid)).imp (fun h => h)
    rintro ⟨hup,h⟩
    exact ⟨hup,g w,by simp [Look.change, hf],h⟩
  new v hid hv hp := by
    obtain rfl : g w = v := by simpa [Look.change, hf] using hv
    have hsome := isSome_stack_of_mem_sorted (l := { l with stack }) hid
    exact hnew hid hp (hst.isSome ▸ hsome)

section

variable {e m : Desktop} {id : WindowId} {w : Window} {g : Window → Window} {nextImage : RasterId}
  {stack : Option (List WindowId × List WindowId)} {height : WindowId → Option Int32}
  (hw : e.window? id = some w)
  (hm : m.look = { e.look.change id g with nextImage, stack, height })
  (hst : Restacked id e.look stack)
include hw hm hst

theorem mends_of_queued {n : Desktop} (hspec : m.look.halted = false → ∃ queue,
      n.look = { m.look with queue } ∧ (∀ q ∈ m.look.queue, q ∈ queue) ∧
      (e.look.presents w.face = true → m.look.stack.isSome = true →
        { m.look with queue }.Queued none w.geometry ∨
          Rises id e.look { e.look with stack } ∧ e.look.presents (g w.face) = true ∧
            (g w.face).geometry = w.geometry) ∧
      (id ∈ { e.look with stack }.sorted → e.look.presents (g w.face) = true →
        m.look.stack.isSome = true →
          { m.look with queue }.Queued (some id) (g w.face).localRect ∨
            { m.look with queue }.Queued none (g w.face).geometry)) :
    e.look.Mends n.look := by
  intro hs hsound
  have hf := face_of_window? hw
  have hsome : m.look.stack.isSome = e.look.stack.isSome := by rw [hm]; exact hst.isSome
  obtain ⟨queue,hl,hq,hold,hnew⟩ := hspec (by rw [hm]; exact hs.running)
  rw [hl] at hsound ⊢
  rw [hm] at hq hold hnew hsound hsome ⊢
  exact ⟨(amends_change (l := e.look) hf hq hst (fun hp hs' => hold hp (hsome.trans hs'))
    fun hid hp hs' => hnew hid hp (hsome.trans hs')).repaired hs.sound hsound.toReady,
    hst.roomy hs.roomy,rfl⟩

theorem mends_damageMove :
    e.look.Mends (m.damageMove id (w.isVisibleOn e.screen) w.geometry).look := by
  refine mends_of_queued hw hm hst fun hrun => ?_
  have hf : m.look.face id = some (g w.face) := by simp [hm, Look.change, face_of_window? hw]
  obtain ⟨queue,hl,hq,hold,hnew⟩ := damageMove_spec hrun id (w.isVisibleOn e.screen) w.geometry
  refine ⟨queue,hl,hq,fun hp hs => .inl ?_,fun _ hp hs => .inl ?_⟩
  · exact hold (isVisibleOn_of_presents_face hp) hs
  · rw [hm] at hnew hf hs ⊢
    exact hnew _ hf (isVisibleOn_of_presents hp) hs

theorem mends_damageLeft (hnew : id ∈ { e.look with stack }.sorted →
    e.look.presents (g w.face) = true → w.isVisibleOn e.screen = true ∧
      (g w.face).geometry = w.geometry) :
    e.look.Mends (if w.isVisibleOn e.screen = true then m.damage none w.geometry else m).look := by
  refine mends_of_queued hw hm hst fun hrun => ?_
  obtain ⟨queue,hl,hq,hold⟩ := damage_if_spec hrun (w.isVisibleOn e.screen) w.geometry
  refine ⟨queue,hl,hq,fun hp hs => .inl ?_,fun hid hp hs => .inr ?_⟩
  · exact hold (isVisibleOn_of_presents_face hp) hs
  · obtain ⟨hv,hg⟩ := hnew hid hp
    rw [hg]
    exact hold hv hs

theorem mends_damageWindow (hg : (g w.face).geometry = w.geometry ∧ (g w.face).owner = w.owner ∧
      (g w.face).isSystem = w.isSystem)
    (hvis : (g w.face).isVisibleOn e.screen = true) (hup : Rises id e.look { e.look with stack }) :
    e.look.Mends (m.damageWindow w).look := by
  refine mends_of_queued hw hm hst fun hrun => ?_
  have hf : m.look.face id = some (g w.face) := by simp [hm, Look.change, face_of_window? hw]
  obtain ⟨queue,hl,hq,hnew⟩ := damageWindow_spec hrun hf (by rw [hm]; exact hvis)
    (id_of_window? e hw)
  refine ⟨queue,hl,hq,fun hp _ => .inr ⟨hup,?_⟩,fun _ _ hs => .inl ?_⟩
  · exact ⟨presents_of_visible hp hg.2.1 hg.2.2 hvis,hg.1⟩
  · rw [Window.localRect, hg.1]
    exact hnew hs

end

end Desktop

end InkCompositor
