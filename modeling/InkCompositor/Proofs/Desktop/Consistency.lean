import Mathlib
import InkCompositor.Proofs.Desktop.Upkeep

/-!
# What the panel shows

From a repaint of the whole screen on, whatever windows and clients do and
whenever what is queued gets painted: each time nothing is queued any more, the
panel shows every pixel as the windows have it by then.
-/

set_option autoImplicit false

namespace InkCompositor

open Wire

namespace Desktop

open Look

/-- Every pixel of the panel is what it is to be. -/
def Faithful (d : Desktop) : Prop := ∀ x y : Nat, x < d.panel.raster.width →
  y < d.panel.raster.height → d.panel.raster.colorAt x y = d.composite x y

/-- There are fewer windows than heights, which are 32-bit numbers, and the
processes behind the windows run. -/
structure Ordinary (d : Desktop) : Prop where
  roomy : d.openWindows.length < 2147483648
  running : ∀ w ∈ d.openWindows, d.hasProcess w = true

/-- What may happen without pixels going stale. Who writes to an image may
repaint its window, and does so where it has written. Nobody writes to the
panel, painting does not stop and the stack is not given up. -/
def Admits (d : Desktop) : Action → Prop
  | .present id bytes caller area _ _ => d.permits id caller = true ∧
    ∀ w r, d.window? id = some w → w.image = some r → ∀ x y : Nat, x < r.width → y < r.height →
      ¬ area.Holds x y → (r.overwrite (bytes r)).colorAt x y = r.colorAt x y
  | .scribble .. | .deface _ | .clearScreen | .halt | .shutDown | .start | .dropRegistry => False
  | _ => True

/-- The whole screen has just been repainted, and nothing is queued. -/
def Refreshed (d : Desktop) : Prop := ∃ e q, Reachable e ∧ e.halted = false ∧ e.Ordinary ∧
  q ∈ e.queue ∧ q.window = none ∧ (∀ x y, e.screen.Holds x y → q.region.Holds x y) ∧
    d = e.runPending.1

inductive Continues (d : Desktop) : Desktop → Prop where
  | here : d.Ordinary → Continues d d
  | act {e : Desktop} (a : Action) : Continues d e → e.Admits a → (e.perform a).Ordinary →
    Continues d (e.perform a)

variable {d : Desktop}

theorem length_openWindows (h : d.look.Ready) {r : Registry} (hr : d.registry = some r) :
    d.openWindows.length = r.order.length := by
  rw [openWindows_eq hr]
  apply List.filterMap_length_eq_length.2
  intro id hid
  simpa [look] using h.stands _ _ (stack_look hr) id hid

theorem Ordinary.roomy_look (h : d.Ordinary) (hs : d.look.Ready) : d.look.Roomy := by
  intro order ho
  cases hr : d.registry with
  | none => simp [look, hr] at ho
  | some r =>
    rw [stack_look hr, Option.map_some, Option.some.injEq] at ho
    rw [← ho, ← length_openWindows hs hr]
    exact h.roomy

theorem repaired_createWindow (hs : d.look.Steady) (caller : Group) (geometry : Option Rect)
    (format : PixelFormat) : d.look.Repaired (d.createWindow caller geometry format).1.look := by
  unfold createWindow
  split
  · exact .refl _
  · rename_i r hr
    split
    · exact .refl _
    · exact repaired_openWindow hs hr ..

theorem stack_setVisible (hrun : d.look.halted = false) (id : WindowId) (caller : Group)
    (visible : Bool) : (d.setVisible id caller visible).look.stack = d.look.stack := by
  refine guardedDo_cases (P := fun e => e.look.stack = d.look.stack)
    (congrArg Look.stack (look_logCall d id caller)) fun w _ => ?_
  have hl := look_logCall d id caller
  generalize d.logCall id caller = e at hl
  dsimp only
  split
  · rw [hl]
  generalize w.state.withVisible visible = state
  have hm : ((e.modify id fun v => { v with state }).notify id (.stateChanged state)).look =
      d.look.change id fun v => { v with state } := by
    rw [look_notify, look_change, hl]
    exact fun _ => ⟨rfl,rfl,rfl⟩
  generalize (e.modify id fun v => { v with state }).notify id (.stateChanged state) = m at hm
  have hdamage : ∀ window region, (m.damage window region).look.stack = d.look.stack := by
    intro window region
    obtain ⟨queue,hq,-⟩ := damage_spec (d := m) (by rw [hm]; exact hrun) window region
    rw [hq, hm]
    rfl
  split
  · exact hdamage ..
  split
  · exact hdamage ..
  · rw [hm]
    rfl

theorem repaired_createSystemWindow (hs : d.look.Steady) (geometry : Option Rect)
    (format : PixelFormat) (hroom : (d.createSystemWindow geometry format).1.look.Roomy) :
    d.look.Repaired (d.createSystemWindow geometry format).1.look := by
  unfold createSystemWindow at hroom ⊢
  split
  · exact .refl _
  · rename_i r hr
    simp only [hr] at hroom
    have ho := repaired_openWindow hs hr d.service true geometry format
    have hsound := sound_openWindow hs.sound hr d.service true geometry format
    generalize d.openWindow r d.service true geometry format = p at *
    obtain ⟨e,id⟩ := p
    dsimp only at *
    have hrun := ho.halted.trans hs.running
    have hroom' : e.look.Roomy := by rwa [Roomy, stack_setVisible hrun] at hroom
    exact ho.trans (mends_setVisible _ _ _ ⟨hsound,hrun,hroom'⟩ (sound_setVisible hsound ..)).1

theorem mends_sortWindows : d.look.Mends d.sortWindows.look := by
  intro hs _
  cases hst : d.look.stack with
  | none =>
    have hr : d.registry = none := by simpa [look] using hst
    have he : d.sortWindows = d := by simp [sortWindows, hr]
    rw [he]
    exact ⟨.refl _,hs.roomy,rfl⟩
  | some s =>
    obtain ⟨order,sorted⟩ := s
    obtain ⟨low,high,hl,hsorted,hinc⟩ := hs.sound.increasing hs.roomy hst
    obtain ⟨height,he⟩ := look_sortWindows hs.sound.toReady hst hl hinc.lowered hinc.raised
    rw [he, ← hsorted, ← hst]
    exact ⟨.of_sight rfl rfl (fun _ h => h) fun _ _ => rfl,hs.roomy,rfl⟩

theorem mem_openWindows (h : d.look.Sound) {id : WindowId} (hid : id ∈ d.look.sorted) {w : Window}
    (hw : d.window? id = some w) : w ∈ d.openWindows := by
  cases hr : d.registry with
  | none => simp [Look.sorted, look, hr] at hid
  | some r =>
    have hst := stack_look hr
    rw [sorted_of_stack hst, (h.sorted_perm hst).mem_iff] at hid
    rw [openWindows_eq hr]
    exact List.mem_filterMap.2 ⟨id,hid,hw⟩

theorem repaired_regroup (hs : d.look.Sound) (h : d.Ordinary) {groups : Groups}
    (h' : { d with groups }.Ordinary) : d.look.Repaired { d with groups }.look := by
  refine .of_sight rfl rfl (fun _ h => h) fun x y => ?_
  have ht : { d with groups }.look.top x y = d.look.top x y := by
    rw [top_eq, top_eq]
    refine congrArg List.getLast? (List.filterMap_congr fun id hid => ?_)
    have hf : { d with groups }.look.face id = d.look.face id := rfl
    rw [visibleAt, visibleAt, hf]
    cases hw : d.window? id with
    | none => simp [look, hw]
    | some w =>
      have hmem := mem_openWindows hs hid hw
      have hp : { d with groups }.look.presents w.face = d.look.presents w.face := by
        have h₁ : (w.face.isSystem || !d.look.groups.holds .gone w.face.owner) = true :=
          h.running w hmem
        have h₂ : (w.face.isSystem || !{ d with groups }.look.groups.holds .gone w.face.owner) =
            true := h'.running w hmem
        rw [presents, presents, h₁, h₂]
        rfl
      rw [face_of_window? hw, Option.filter_some, Option.filter_some, hp]
  rw [sight, sight, ht]

theorem keeps_perform (a : Action) (hd : d.Ordinary) (ha : d.Admits a)
    (he : (d.perform a).Ordinary) : d.look.Keeps (d.perform a).look := by
  have hkeeps : (d.look.Steady → d.look.Repaired (d.perform a).look) →
      d.look.Keeps (d.perform a).look := fun h hs =>
    (h hs).keeps (sound_perform hs.sound a) (he.roomy_look (sound_perform hs.sound a).toReady) hs
  have hmends : d.look.Mends (d.perform a).look → d.look.Keeps (d.perform a).look :=
    fun h => h.keeps fun hs => sound_perform hs a
  cases a with
  | create => exact hkeeps fun hs => repaired_createWindow hs ..
  | createSystem geometry format =>
    exact hkeeps fun hs => repaired_createSystemWindow hs geometry format
      (he.roomy_look (sound_createSystemWindow hs.sound geometry format).toReady)
  | setGeometry => exact hmends (mends_setGeometry _ _ _)
  | resize => exact hmends (mends_resize _ _ _ _)
  | moveTo => exact hmends (mends_moveTo _ _ _ _)
  | raise => exact hmends (mends_raise _ _)
  | lower => exact hmends (mends_lower _ _)
  | setVisible => exact hmends (mends_setVisible _ _ _)
  | close => exact hmends (mends_close _ _)
  | repaint => exact hmends (mends_repaint _ _ _ _ _)
  | waitForLast => exact keeps_waitForLastUpdate _ _
  | giveUp id => exact keeps_release (d := { d with held := d.held.filter (· != id) }) id
  | message => exact keeps_handleMessage _ _
  | service => exact keeps_serviceClients _
  | supervise => exact keeps_handleLifecycle _ _
  | sort => exact hmends mends_sortWindows
  | dirty => exact keeps_requestRepaint _ _ _ _
  | dirtyAndWait => exact keeps_repaintAndWait _ _ _ _
  | enqueue => exact keeps_enqueue _
  | runPending => exact keeps_runPending
  | paintNext => exact keeps_paintNext
  | present => exact hmends (mends_present _ _ _ _ _ _ ha.1 ha.2)
  | regroup => exact hkeeps fun hs => repaired_regroup hs.sound hd he
  | scribble | deface | clearScreen | halt | shutDown | start | dropRegistry => exact ha.elim
  | advance | refuse | exhaust => exact .refl _
  | _ => exact keeps_of_look_eq (by simp [perform])

theorem Refreshed.consistent (h : Refreshed d) : d.look.Steady ∧ d.look.Consistent := by
  obtain ⟨e,q,he,hrun,hord,hq,hw,hr,rfl⟩ := h
  have hs : e.look.Steady := ⟨he.sound,hrun,hord.roomy_look he.sound.toReady⟩
  refine (keeps_runPending hs).imp_right fun hk => hk fun x y hx hy =>
    .inr ⟨q,hq,screen_holds hx hy,?_⟩
  rw [hw]
  exact hr x y (screen_holds (l := e.look) hx hy)

theorem Continues.consistent {e : Desktop} (h : Continues d e) (hd : Refreshed d) :
    e.Ordinary ∧ e.look.Steady ∧ e.look.Consistent := by
  induction h with
  | here ho => exact ⟨ho,hd.consistent⟩
  | act a _ ha ho ih =>
    obtain ⟨hord,hs,hc⟩ := ih
    obtain ⟨hs',hc'⟩ := keeps_perform a hord ha ho hs
    exact ⟨ho,hs',hc' hc⟩

/-- Whenever nothing is queued the panel shows what it is to show, and nothing
is queued once everything has been painted. -/
theorem faithful_of_idle {e : Desktop} (hd : Refreshed d) (h : Continues d e) :
    (e.queue = [] → e.Faithful) ∧ e.runPending.1.queue = [] ∧ e.runPending.1.Faithful := by
  obtain ⟨-,hs,hc⟩ := h.consistent hd
  obtain ⟨raster,face,height,hl⟩ := look_runPending hs.sound
  have hq : e.runPending.1.queue = [] := congrArg Look.queue hl
  have hk := (keeps_runPending hs).2 hc
  exact ⟨fun hidle _ _ hx hy => composite_of_idle hc hidle hx hy,hq,
    fun _ _ hx hy => composite_of_idle hk hq hx hy⟩

theorem Ordinary.of_roomy (hg : d.groups = .unremarkable) (hr : d.look.Roomy) : d.Ordinary where
  roomy := by
    cases hreg : d.registry with
    | none => simp [openWindows, hreg]
    | some r =>
      rw [openWindows_eq hreg]
      exact (List.length_filterMap_le _ _).trans_lt (hr r.order (by rw [stack_look hreg]; rfl))
  running w _ := by simp [hasProcess, hg, Groups.unremarkable]

theorem continues_move (hd : Refreshed d) (hg : d.groups = .unremarkable) (id : WindowId)
    (caller : Group) (x y : Int32) :
    Continues d ((d.perform (.moveTo id caller x y)).perform (.raise id caller)) := by
  have hs := hd.consistent.1
  have hs₁ := sound_perform hs.sound (.moveTo id caller x y)
  obtain ⟨hr₁,hroom₁,hg₁⟩ := mends_moveTo id caller x y hs hs₁
  have hs₂ := sound_perform hs₁ (.raise id caller)
  obtain ⟨-,hroom₂,hg₂⟩ := mends_raise id caller ⟨hs₁,hr₁.halted.trans hs.running,hroom₁⟩ hs₂
  refine .act _ (.act _ (.here ?_) trivial ?_) trivial ?_
  · exact .of_roomy hg hs.roomy
  · exact .of_roomy (hg₁.trans hg) hroom₁
  · exact .of_roomy (hg₂.trans (hg₁.trans hg)) hroom₂

/-- A window is shown, the screen is repainted, and the window moves and is raised. -/
theorem faithful_of_idle_small :
    let shown := ((fresh smallPanel .anonymous {} 24 1).perform
      (.create 100 (some ⟨1,1,2,2⟩) .rgb16)).perform (.setVisible 0 100 true)
    let e := (shown.perform (.enqueue (.everything ⟨0,0,4,3⟩))).perform (.regroup .unremarkable)
    let d := e.runPending.1
    let moved := (d.perform (.moveTo 0 100 2 0)).perform (.raise 0 100)
    Refreshed d ∧ Continues d moved ∧ (moved.queue = [] → moved.Faithful) ∧
      moved.runPending.1.queue = [] ∧ moved.runPending.1.Faithful := by
  intro shown e d moved
  have he : Reachable e :=
    .act _ (.act _ (.act _ (.act _ (.fresh smallPanel .anonymous {} 24 1 {} rfl))))
  have hgroups : e.groups = .unremarkable := rfl
  have hord : e.Ordinary :=
    ⟨by decide +kernel,fun w _ => by simp [hasProcess, hgroups, Groups.unremarkable]⟩
  have hscreen : e.screen = ⟨0,0,4,3⟩ := by decide +kernel
  have hd : Refreshed d := ⟨e,.everything ⟨0,0,4,3⟩,he,by decide +kernel,hord,by decide +kernel,
    rfl,fun x y hxy => hscreen ▸ hxy,rfl⟩
  obtain ⟨raster,face,height,hl⟩ := look_runPending he.sound
  have hrun : Continues d moved := continues_move hd (congrArg Look.groups hl) 0 100 2 0
  exact ⟨hd,hrun,faithful_of_idle hd hrun⟩

end Desktop

end InkCompositor
