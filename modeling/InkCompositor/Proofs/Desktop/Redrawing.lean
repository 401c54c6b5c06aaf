import Mathlib
import InkCompositor.Proofs.Desktop.Soundness

/-!
# Painting one repaint

The rectangles that a repaint is painted in are exactly the pixels that it
exposes, however far beyond the screen its region and the windows reach.
-/

set_option autoImplicit false

namespace InkCompositor

open Rect hiding none

namespace Rect

theorem Exact.bounded {b : Rect} (h : b.Exact) : b.Bounded where
  width_nonneg := le_of_lt h.width_pos
  height_nonneg := le_of_lt h.height_pos
  right_le := h.right_le
  bottom_le := h.bottom_le

theorem intersected_inside {b : Rect} (h : b.Exact) (r : Rect) :
    (r.intersected b).isEmpty = true ∨ (r.intersected b).Inside b := by
  by_cases hi : r.intersects b = true
  · rw [intersected_eq hi]
    exact .inr (inside_of_edged h (edged_intersected hi) (by omega) (by omega) (by omega)
      (by omega))
  · left
    rw [isEmpty_intersected]
    simpa using hi

end Rect

theorem ofRect_tidy {b : Rect} (h : b.Exact) (r : Rect) :
    Tidy b (Region.ofRect (r.intersected b)).rects ∧
      cover (Region.ofRect (r.intersected b)).rects = (r.intersected b).pixels := by
  have ha := Region.add_tidy (g := Region.empty) h.bounded tidy_nil (intersected_inside h r)
  rw [Region.pixels_empty, Set.empty_union] at ha
  exact ha

namespace Desktop

variable {d : Desktop}

theorem uncoveredBy_tidy {b : Rect} (target : Rect) (above : List Window) (g : Region)
    (h : Tidy b g.rects) (hg : g.pixels ⊆ target.pixels) :
    let left := above.foldl (fun region w =>
      let covered := w.geometry.intersected target
      if covered.isEmpty then region else region.subtract covered) g
    Tidy b left.rects ∧ ∀ x y, (x,y) ∈ left.pixels ↔
      (x,y) ∈ g.pixels ∧ ∀ w ∈ above, ¬ w.geometry.Covers x y := by
  intro left
  induction above generalizing g with
  | nil => exact ⟨h,fun x y => by simp [left]⟩
  | cons w above ih =>
    have hs : Tidy b (if (w.geometry.intersected target).isEmpty then g
          else g.subtract (w.geometry.intersected target)).rects ∧
        (if (w.geometry.intersected target).isEmpty then g
          else g.subtract (w.geometry.intersected target)).pixels =
            g.pixels \ (w.geometry.intersected target).pixels := by
      by_cases he : (w.geometry.intersected target).isEmpty = true
      · rw [if_pos he, pixels_of_isEmpty he, Set.sdiff_empty]
        exact ⟨h,rfl⟩
      · rw [if_neg he]
        exact Region.subtract_tidy h _
    obtain ⟨h1,h2⟩ := ih _ hs.1 (by rw [hs.2]; exact Set.sdiff_subset.trans hg)
    refine ⟨h1,fun x y => (h2 x y).trans ?_⟩
    have ht : (x,y) ∈ g.pixels → target.Covers x y := fun hp => hg hp
    rw [hs.2, Set.mem_sdiff, mem_pixels, covers_intersected, List.forall_mem_cons]
    tauto

section Target

variable (d) (q : Repaint) {x y : Int}

theorem screen_exact : d.screen.Exact := d.panel.raster.exact_rect

theorem screen_holds_iff : d.screen.Holds x y ↔ d.screen.Covers x y :=
  (d.screen_exact.covers_iff_holds x y).symm

theorem targetOf_global (hq : q.window = none) : (d.targetOf q).Covers x y ↔ d.Exposed q x y := by
  rw [targetOf, Exposed, hq, covers_intersected, screen_holds_iff, and_comm]
  exact and_congr_right fun hs => d.panel.raster.covers_iff_holds q.region hs

theorem targetOf_window {id : WindowId} {w : Window} (hq : q.window = some id)
    (hw : d.window? id = some w) : (d.targetOf q).Covers x y ↔ d.screen.Covers x y ∧
      w.geometry.Holds x y ∧ q.region.Holds (x-w.geometry.x.toInt) (y-w.geometry.y.toInt) := by
  simp only [targetOf, hq, hw, Option.map_some, Option.getD_some]
  rw [covers_intersected, covers_intersected, and_comm]
  apply and_congr_right
  intro hs
  obtain ⟨hx,hy⟩ := d.panel.raster.covers_rect_lt hs
  rw [covers_translated _ _ _ hx.1 hx.2 hy.1 hy.2, d.panel.raster.covers_iff_holds w.geometry hs,
    and_comm]

end Target

/-- Windows that can be painted into an area make the pixels of the area what
they are to be. -/
structure Plan.Right (d : Desktop) (q : Repaint) (windows : List Window) (clear : Bool)
    (area : List Rect) : Prop where
  ne_nil : area ≠ []
  tidy : Tidy d.screen area
  covers : ∀ x y, (∃ r ∈ area, r.Covers x y) ↔ d.Exposed q x y
  drawable : ∀ w ∈ windows, w.Fitted ∧ w.image.isSome = true
  shown : ∀ x y : Nat, d.Exposed q x y →
    d.panel.raster.shown windows clear x y = d.composite x y

theorem drawable_of_mem_visibleStack (h : d.look.Sound) {w : Window} (hw : w ∈ d.visibleStack) :
    w.Fitted ∧ w.image.isSome = true := by
  obtain ⟨h1,h2⟩ := window?_of_mem_visibleStack d hw
  exact ⟨h.fitted w.id w.face (by simp [look, h1]),h2⟩

theorem dropWhile_ne_cons {l above : List Window} {id : WindowId} {w : Window}
    (h : l.dropWhile (·.id != id) = w :: above) : w.id = id ∧ ∃ below, l = below ++ w :: above := by
  constructor
  · have hw := List.head?_dropWhile_not (·.id != id) l
    rw [h] at hw
    simpa using hw
  · exact ⟨l.takeWhile (·.id != id),by rw [← h, List.takeWhile_append_dropWhile]⟩

theorem exposed_window_iff (h : d.look.Sound) {q : Repaint} {id : WindowId} {w : Window}
    {below above : List Window} (hq : q.window = some id)
    (hs : d.visibleStack = below ++ w :: above) (hid : w.id = id) (x y : Int) :
    d.Exposed q x y ↔ (d.targetOf q).Covers x y ∧ ∀ v ∈ above, ¬ v.geometry.Covers x y := by
  have hm : w ∈ d.visibleStack := by simp [hs]
  obtain ⟨hw,-⟩ := window?_of_mem_visibleStack d hm
  rw [hid] at hw
  have habove : d.screen.Covers x y →
      ((∀ v ∈ above, ¬ v.geometry.Covers x y) ↔ ∀ v ∈ above, ¬ v.geometry.Holds x y) := fun hc =>
    forall₂_congr fun v _ => not_congr (d.panel.raster.covers_iff_holds v.geometry hc)
  rw [targetOf_window d q hq hw, Exposed, hq, screen_holds_iff]
  constructor
  · rintro ⟨hc,b,v,a,hs',hid',hg,hr,ha⟩
    have hn := nodup_visibleStack d h.nodup_sorted
    have hv : v = w := by
      have hv := (window?_of_mem_visibleStack d (w := v) (by simp [hs'])).1
      rw [hid', hw] at hv
      exact (Option.some.inj hv).symm
    subst hv
    rw [hs] at hs' hn
    rw [hs', List.nodup_append] at hn
    obtain ⟨-,-,rfl⟩ := (List.append_cons_inj_of_notMem
      (fun hb => hn.2.2 v hb v (by simp) rfl) (List.nodup_cons.1 hn.2.1).1).1 hs'.symm
    exact ⟨⟨hc,hg,hr⟩,(habove hc).2 ha⟩
  · rintro ⟨⟨hc,hg,hr⟩,ha⟩
    exact ⟨hc,below,w,above,hs,hid,hg,hr,(habove hc).1 ha⟩

theorem composite_of_exposed {q : Repaint} {id : WindowId} {w : Window} {x y : Nat}
    (hq : q.window = some id) (hw : w ∈ d.visibleStack) (hid : w.id = id) (he : d.Exposed q x y) :
    w.geometry.Holds x y ∧
      d.composite x y = d.panel.raster.format.quantize (w.colorAt x y) := by
  obtain ⟨v,hv,hvid⟩ := topmost_of_exposed d hq he
  have hvw : v = w := by
    have h1 := (window?_of_mem_visibleStack d (mem_of_topmost hv).1).1
    rw [hvid, ← hid, (window?_of_mem_visibleStack d hw).1] at h1
    exact (Option.some.inj h1).symm
  subst hvw
  exact ⟨(mem_of_topmost hv).2,by rw [composite, hv]⟩

/-- What is planned is what the repaint exposes. Only a repaint that exposes
nothing is given up. -/
theorem plan_spec (h : d.look.Sound) (q : Repaint) :
    match d.plan q with
    | .paint windows clear area => Plan.Right d q windows clear area
    | _ => ∀ x y, ¬ d.Exposed q x y := by
  have hbase := ofRect_tidy d.screen_exact
  cases hq : q.window with
  | none =>
    have hcov := fun x y => targetOf_global d q (x := x) (y := y) hq
    by_cases ht : (d.targetOf q).isEmpty = true
    · simp only [plan, if_pos ht]
      exact fun x y he => not_covers_of_isEmpty ht x y ((hcov x y).2 he)
    · have htarget : d.targetOf q = q.region.intersected d.screen := by rw [targetOf, hq]
      obtain ⟨htidy,hpix⟩ := hbase q.region
      simp only [plan, if_neg ht, hq]
      rw [htarget] at hcov ht ⊢
      refine ⟨fun hnil => ?_,htidy,fun x y => ?_,fun w hw => drawable_of_mem_visibleStack h hw,
        fun x y _ => rfl⟩
      · have hi : q.region.intersects d.screen = true := by
          rw [isEmpty_intersected] at ht
          simpa using ht
        obtain ⟨x,y,h1,h2⟩ := (intersects_iff _ _).1 hi
        have hm : (x,y) ∈ (q.region.intersected d.screen).pixels :=
          (covers_intersected _ _ x y).2 ⟨h1,h2⟩
        rw [← hpix, hnil, cover_nil] at hm
        exact hm
      · rw [← mem_cover, hpix, mem_pixels, hcov]
  | some id =>
    cases hs : d.visibleStack.dropWhile (·.id != id) with
    | nil =>
      have hnone : ∀ x y, ¬ d.Exposed q x y := by
        intro x y he
        obtain ⟨w,hw,hid⟩ := topmost_of_exposed d hq he
        have hall := List.dropWhile_eq_nil_iff.1 hs w (mem_of_topmost hw).1
        simp [hid] at hall
      by_cases ht : (d.targetOf q).isEmpty = true
      · simpa only [plan, if_pos ht] using hnone
      · simpa only [plan, if_neg ht, hq, hs] using hnone
    | cons w above =>
      obtain ⟨hid,below,hstack⟩ := dropWhile_ne_cons hs
      have hex := exposed_window_iff h hq hstack hid
      by_cases ht : (d.targetOf q).isEmpty = true
      · simp only [plan, if_pos ht]
        exact fun x y he => not_covers_of_isEmpty ht x y ((hex x y).1 he).1
      · have hw : w ∈ d.visibleStack := by simp [hstack]
        have htidy : Tidy d.screen (Region.ofRect (d.targetOf q)).rects ∧
            (Region.ofRect (d.targetOf q)).pixels = (d.targetOf q).pixels := by
          simp only [targetOf, hq]
          exact hbase _
        obtain ⟨hr,hcov⟩ := uncoveredBy_tidy (d.targetOf q) above _ htidy.1
          (by rw [htidy.2])
        rw [htidy.2] at hcov
        have hcov' : ∀ x y, (x,y) ∈ (uncoveredBy above (d.targetOf q)).pixels ↔ d.Exposed q x y :=
          fun x y => (hcov x y).trans (hex x y).symm
        by_cases he : (uncoveredBy above (d.targetOf q)).isEmpty = true
        · simp only [plan, if_neg ht, hq, hs, if_pos he]
          intro x y hx
          have hm := (hcov' x y).2 hx
          rw [Region.pixels, List.isEmpty_iff.1 he, cover_nil] at hm
          exact hm
        · simp only [plan, if_neg ht, hq, hs, if_neg he]
          refine ⟨fun hnil => he (List.isEmpty_iff.2 hnil),hr,hcov',fun v hv => ?_,fun x y hx => ?_⟩
          · rw [List.mem_singleton.1 hv]
            exact drawable_of_mem_visibleStack h hw
          · obtain ⟨hg,hc⟩ := composite_of_exposed hq hw hid hx
            rw [hc, Raster.shown, topmost_cons, topmost_nil, if_pos hg]
            rfl

@[simp] theorem updates_log (level : Level) (text : String) :
    (d.log level text).updates = d.updates := by simp [updates, log, emit]

@[simp] theorem updates_logTimes (n : Nat) (level : Level) (text : String) :
    (d.logTimes n level text).updates = d.updates := by
  rw [logTimes]
  induction n with
  | zero => rfl
  | succ n ih => rw [Nat.repeat, updates_log, ih]

@[simp] theorem updates_logStack : d.logStack.updates = d.updates := updates_logTimes ..

theorem updates_emit (u : Update) (taken : Bool) :
    (d.emit (.updated u taken)).updates = d.updates ++ [u] := by simp [updates, emit]

theorem sendUpdate_spec (d : Desktop) (r : Rect) (waveform : Waveform) :
    ∃ u, (d.sendUpdate r waveform).1.updates = d.updates ++ [u] ∧ u.rect = r ∧
      u.waveform = waveform ∧ (u.mode = .full ↔ r = d.screen) := by
  have hm : (if r = d.screen then UpdateMode.full else .partialArea) = .full ↔ r = d.screen := by
    by_cases h : r = d.screen <;> simp [h]
  generalize hmode : (if r = d.screen then UpdateMode.full else .partialArea) = mode at hm
  refine ⟨⟨r,waveform,mode,d.takeHardwareMarker.2,d.temperature⟩,?_,rfl,rfl,hm⟩
  have ht : (d.takeHardwareMarker.1.log .debug "Sending screen update").updates = d.updates := by
    rw [updates_log]
    rfl
  simp only [sendUpdate, hmode]
  split
  · rw [updates_log, updates_emit, ht]
    rfl
  · rw [updates_emit, ht]
    rfl

/-- One update goes out for each rectangle, with the waveform asked for or the one for the pixels
there. -/
theorem sendUpdates_spec (d : Desktop) (waveform : Option Waveform) (area : List Rect) :
    ∃ sent, (d.sendUpdates waveform area).1.updates = d.updates ++ sent ∧
      sent.map (·.rect) = area ∧ ∀ u ∈ sent, (u.mode = .full ↔ u.rect = d.screen) ∧
        u.waveform = waveform.getD (d.panel.raster.waveformFor u.rect) := by
  rw [sendUpdates_eq]
  generalize (0 : UInt32) = last
  induction area generalizing d last with
  | nil => exact ⟨[],by simp,rfl,by simp⟩
  | cons r area ih =>
    obtain ⟨u,hu,hr,hw,hm⟩ := sendUpdate_spec d r (waveform.getD (d.panel.raster.waveformFor r))
    have hl := look_sendUpdate d r (waveform.getD (d.panel.raster.waveformFor r))
    have hscreen : (sendNext waveform (d,last) r).1.screen = d.screen :=
      congrArg (fun l : Look => l.screen) hl
    have hraster : (sendNext waveform (d,last) r).1.panel.raster = d.panel.raster :=
      congrArg Look.raster hl
    obtain ⟨sent,h1,h2,h3⟩ := ih (sendNext waveform (d,last) r).1 (sendNext waveform (d,last) r).2
    refine ⟨u :: sent,?_,by rw [List.map_cons, hr, h2],?_⟩
    · rw [List.foldl_cons, h1, show (sendNext waveform (d,last) r).1.updates = _ from hu,
        List.append_assoc]
      rfl
    · rw [← hr] at hm hw
      refine List.forall_mem_cons.2 ⟨⟨hm,hw⟩,fun v hv => ?_⟩
      rw [← hscreen, ← hraster]
      exact h3 v hv

/-- What redrawing makes of a desktop: the exposed pixels become what they are
to be, all others stay, and what was painted is sent. -/
structure Redrawn (d : Desktop) (q : Repaint) (e : Desktop) (marker : UInt32) : Prop where
  idle : (∃ id, q.window = some id ∧ ∀ w ∈ d.visibleStack, w.id ≠ id) ∨
    (∀ x y, ¬ d.Exposed q x y) →
      e.panel.raster = d.panel.raster ∧ e.updates = d.updates ∧ marker = 0
  shape : e.panel.raster.Alike d.panel.raster
  ofWindow : ∀ w ∈ d.visibleStack, q.window = some w.id → ∀ x y : Nat, d.Exposed q x y →
    e.panel.raster.colorAt x y = d.panel.raster.format.quantize (w.colorAt x y)
  ofStack : q.window = none → ∀ x y : Nat, d.Exposed q x y →
    e.panel.raster.colorAt x y = d.composite x y
  elsewhere : ∀ x y : Nat, x < d.panel.raster.width → y < d.panel.raster.height →
    ¬ d.Exposed q x y → e.panel.raster.colorAt x y = d.panel.raster.colorAt x y
  sends : ∃ sent, e.updates = d.updates ++ sent ∧
    (∀ u ∈ sent, u.rect.isEmpty = false ∧ u.rect.Inside d.screen ∧
      (u.mode = .full ↔ u.rect = d.screen)) ∧
    sent.Pairwise (fun u v => u.rect.Apart v.rect) ∧
    ∀ x y, (∃ u ∈ sent, u.rect.Covers x y) ↔ d.Exposed q x y

theorem lt_of_exposed {q : Repaint} {x y : Nat} (h : d.Exposed q x y) :
    x < d.panel.raster.width ∧ y < d.panel.raster.height := by
  have hs : d.panel.raster.rect.Covers x y := (screen_holds_iff d).1 h.1
  rw [Raster.covers_rect] at hs
  omega

theorem Plan.Right.exists_exposed {q : Repaint} {windows : List Window} {clear : Bool}
    {area : List Rect} (h : Plan.Right d q windows clear area) : ∃ x y, d.Exposed q x y := by
  obtain ⟨r,hr⟩ := List.exists_mem_of_ne_nil area h.ne_nil
  have he := (h.tidy.fits r hr).exact
  exact ⟨r.left,r.top,(h.covers _ _).1 ⟨r,hr,le_rfl,he.left_lt,le_rfl,he.top_lt⟩⟩

theorem redraw_look (h : d.look.Sound) (q : Repaint) : ∃ fb : Raster,
    (d.redraw q).1.look = { d.look with raster := fb } ∧ fb.Alike d.panel.raster ∧
    (∀ x y : Nat, d.Exposed q x y → fb.colorAt x y = d.composite x y) ∧
    ∀ x y : Nat, x < d.panel.raster.width → y < d.panel.raster.height →
      ¬ d.Exposed q x y → fb.colorAt x y = d.panel.raster.colorAt x y := by
  have hp := plan_spec h q
  have hidle : (∀ x y, ¬ d.Exposed q x y) → (d.redraw q).1.look = d.look → ∃ fb : Raster,
      (d.redraw q).1.look = { d.look with raster := fb } ∧ fb.Alike d.panel.raster ∧
      (∀ x y : Nat, d.Exposed q x y → fb.colorAt x y = d.composite x y) ∧
      ∀ x y : Nat, x < d.panel.raster.width → y < d.panel.raster.height →
        ¬ d.Exposed q x y → fb.colorAt x y = d.panel.raster.colorAt x y := fun hn hl =>
    ⟨d.panel.raster,hl,.refl _,fun x y he => absurd he (hn x y),fun _ _ _ _ _ => rfl⟩
  cases hplan : d.plan q with
  | offScreen =>
    rw [hplan] at hp
    exact hidle hp (by simp only [redraw, hplan, look_log])
  | notVisible =>
    rw [hplan] at hp
    exact hidle hp (by simp only [redraw, hplan, look_log, look_logStack])
  | occluded =>
    rw [hplan] at hp
    exact hidle hp (by simp only [redraw, hplan, look_log, look_logStack])
  | paint windows clear area =>
    rw [hplan] at hp
    have hraster : d.logStack.panel.raster = d.panel.raster :=
      congrArg Look.raster (look_logStack d)
    refine ⟨area.foldl (fun fb rect => fb.compose windows clear rect) d.panel.raster,?_,
      Raster.foldl_compose_alike _ _ _ _,fun x y he => ?_,fun x y hx hy he => ?_⟩
    · simp only [redraw, hplan, look_log, look_sendUpdates, hraster]
      exact congrArg (fun l : Look => { l with
        raster := area.foldl (fun fb rect => fb.compose windows clear rect) d.panel.raster })
        (look_logStack d)
    · obtain ⟨hx,hy⟩ := lt_of_exposed he
      rw [Raster.colorAt_foldl_compose _ hx hy h.panel windows clear area hp.drawable,
        if_pos ((hp.covers x y).2 he), hp.shown x y he]
    · rw [Raster.colorAt_foldl_compose _ hx hy h.panel windows clear area hp.drawable,
        if_neg fun hc => he ((hp.covers x y).1 hc)]

theorem redraw_idle (h : d.look.Sound) (q : Repaint) (hn : ∀ x y, ¬ d.Exposed q x y) :
    (d.redraw q).1.panel.raster = d.panel.raster ∧ (d.redraw q).1.updates = d.updates ∧
      (d.redraw q).2 = 0 := by
  have hp := plan_spec h q
  have hraster := congrArg Look.raster (look_logStack d)
  cases hplan : d.plan q with
  | paint windows clear area =>
    rw [hplan] at hp
    obtain ⟨x,y,he⟩ := hp.exists_exposed
    exact absurd he (hn x y)
  | offScreen =>
    simp only [redraw, hplan, updates_log]
    exact ⟨rfl,trivial,trivial⟩
  | notVisible =>
    simp only [redraw, hplan, updates_log, updates_logStack]
    exact ⟨hraster,trivial,trivial⟩
  | occluded =>
    simp only [redraw, hplan, updates_log, updates_logStack]
    exact ⟨hraster,trivial,trivial⟩

theorem redraw_sends (h : d.look.Sound) (q : Repaint) :
    ∃ sent, (d.redraw q).1.updates = d.updates ++ sent ∧ Tidy d.screen (sent.map (·.rect)) ∧
      (∀ x y, (∃ u ∈ sent, u.rect.Covers x y) ↔ d.Exposed q x y) ∧
      ∀ u ∈ sent, (u.mode = .full ↔ u.rect = d.screen) ∧
        u.waveform = q.waveform.getD ((d.redraw q).1.panel.raster.waveformFor u.rect) := by
  by_cases hn : ∀ x y, ¬ d.Exposed q x y
  · obtain ⟨-,hu,-⟩ := redraw_idle h q hn
    exact ⟨[],by rw [hu, List.append_nil],tidy_nil,fun x y => by simp [hn x y],by simp⟩
  · have hp := plan_spec h q
    cases hplan : d.plan q with
    | offScreen | notVisible | occluded =>
      rw [hplan] at hp
      exact absurd hp hn
    | paint windows clear area =>
      rw [hplan] at hp
      have hl := Raster.foldl_compose_alike d.logStack.panel.raster windows clear area
      let fb := area.foldl (fun fb r => fb.compose windows clear r) d.logStack.panel.raster
      obtain ⟨sent,hu,hrect,hm⟩ := sendUpdates_spec
        { d.logStack with panel := { d.logStack.panel with raster := fb } } q.waveform area
      have hscreen : d.logStack.screen = d.screen :=
        congrArg (fun l : Look => l.screen) (look_logStack d)
      refine ⟨sent,?_,by rw [hrect]; exact hp.tidy,fun x y => ?_,fun u hu => ?_⟩
      · simp only [redraw, hplan, updates_log]
        exact hu.trans (congrArg (· ++ sent) updates_logStack)
      · rw [← hp.covers, ← hrect]
        simp
      · obtain ⟨hmode,hwaveform⟩ := hm u hu
        have hlook : (d.redraw q).1.look =
            { d.logStack with panel := { d.logStack.panel with raster := fb } }.look := by
          simp only [redraw, hplan, look_log, look_sendUpdates]
          rfl
        rw [hmode, ← hscreen, show (d.redraw q).1.panel.raster = fb from congrArg Look.raster hlook]
        exact ⟨iff_of_eq (congrArg (u.rect = ·) hl.rect),hwaveform⟩

theorem redrawn_redraw (h : d.look.Sound) (q : Repaint) :
    Redrawn d q (d.redraw q).1 (d.redraw q).2 := by
  obtain ⟨fb,hl,ha,hin,hout⟩ := redraw_look h q
  obtain ⟨sent,hu,htidy,hcov,hm⟩ := redraw_sends h q
  have hfb : (d.redraw q).1.panel.raster = fb := congrArg Look.raster hl
  refine ⟨fun hn => redraw_idle h q ?_,hfb ▸ ha,fun w hw hq x y he => ?_,fun _ x y he => ?_,
    fun x y hx hy he => ?_,sent,hu,fun u hu => ?_,?_,hcov⟩
  · rcases hn with ⟨id,hq,hn⟩ | hn
    · intro x y he
      obtain ⟨w,hw,hid⟩ := topmost_of_exposed d hq he
      exact hn w (mem_of_topmost hw).1 hid
    · exact hn
  · rw [hfb, hin x y he, (composite_of_exposed hq hw rfl he).2]
  · rw [hfb, hin x y he]
  · rw [hfb, hout x y hx hy he]
  · have hf := htidy.fits u.rect (List.mem_map_of_mem hu)
    exact ⟨hf.exact.isEmpty,hf.inside,(hm u hu).1⟩
  · exact List.pairwise_map.1 htidy.apart

end Desktop

end InkCompositor
