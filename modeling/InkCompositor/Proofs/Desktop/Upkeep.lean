import Mathlib
import InkCompositor.Proofs.Desktop.Presenting

/-!
# Keeping the panel up to date

What mends what it changes keeps the panel consistent with the windows, and so
does painting: each repaint makes the pixels that it exposes what they are to
be, after which it may leave the queue. Once the queue is empty no pixel is
stale.
-/

set_option autoImplicit false

namespace InkCompositor

namespace Look

variable {k l m : Look}

/-- What is steady stays so, and what is consistent then stays so too. -/
def Keeps (l m : Look) : Prop := l.Steady → m.Steady ∧ (l.Consistent → m.Consistent)

namespace Keeps

theorem refl (l : Look) : l.Keeps l := fun h => ⟨h,fun hc => hc⟩

theorem trans (h : k.Keeps l) (h' : l.Keeps m) : k.Keeps m := fun hk =>
  ⟨(h' (h hk).1).1,fun hc => (h' (h hk).1).2 ((h hk).2 hc)⟩

end Keeps

theorem Repaired.keeps (h : l.Repaired m) (hs : m.Sound) (hroom : m.Roomy) : l.Keeps m :=
  fun hl => ⟨⟨hs,h.halted.trans hl.running,hroom⟩,h.consistent⟩

theorem Mends.keeps (h : l.Mends m) (hs : l.Sound → m.Sound) : l.Keeps m := fun hl =>
  (h hl (hs hl.sound)).1.keeps (hs hl.sound) (h hl (hs hl.sound)).2.1 hl

theorem sight_repaint {fb : Raster} (h : fb.rect = l.raster.rect) (queue : List Repaint)
    (x y : Int) : { l with raster := fb, queue }.sight x y = l.sight x y := by
  have hp : { l with raster := fb, queue }.presents = l.presents := by
    funext w
    simp only [presents, screen, h]
  have ht : { l with raster := fb, queue }.top x y = l.top x y := by
    rw [top, top, painted, painted, hp]
    rfl
  rw [sight, sight, ht]

/-- What the first request exposes is up to date once it has been painted, and
the rest is as it was. -/
theorem Consistent.repainted (hc : l.Consistent) {q : Repaint} {rest : List Repaint}
    (hq : l.queue = q :: rest) {fb : Raster} (ha : fb.Alike l.raster)
    (hin : ∀ x y : Nat, l.Exposed q x y → fb.colorAt x y = l.composite x y)
    (hout : ∀ x y : Nat, x < l.raster.width → y < l.raster.height → ¬ l.Exposed q x y →
      fb.colorAt x y = l.raster.colorAt x y) :
    { l with raster := fb, queue := rest }.Consistent := by
  intro x y hx hy
  have hs := sight_repaint ha.rect rest x y
  have hcomp := composite_congr (m := { l with raster := fb, queue := rest }) ha.format hs
  have hexp := exposed_congr (m := { l with raster := fb, queue := rest }) ha.rect hs
  change fb.colorAt x y = _ ∨ ∃ p ∈ rest, _
  rw [hcomp]
  by_cases he : l.Exposed q x y
  · exact .inl (hin x y he)
  -- a pixel that `q` does not expose waits for another request, if for any
  · have hx' : x < l.raster.width := ha.width ▸ hx
    have hy' : y < l.raster.height := ha.height ▸ hy
    rcases hc x y hx' hy' with h | ⟨p,hp,hpe⟩
    · exact .inl ((hout x y hx' hy' he).trans h)
    · rcases List.mem_cons.1 (hq ▸ hp) with rfl | hp
      · exact absurd hpe he
      · exact .inr ⟨p,hp,(hexp p).2 hpe⟩

end Look

namespace Desktop

open Look

variable {d : Desktop}

theorem keeps_of_look_eq {e : Desktop} (h : e.look = d.look) : d.look.Keeps e.look :=
  h ▸ .refl _

theorem keeps_foldl {α : Type} (f : Desktop → α → Desktop)
    (hf : ∀ (d : Desktop) a, d.look.Keeps (f d a).look) (l : List α) :
    d.look.Keeps (l.foldl f d).look := by
  induction l generalizing d with
  | nil => exact .refl _
  | cons a l ih => exact (hf d a).trans ih

theorem keeps_handleMessage (id : WindowId) (m : Wire.Message) :
    d.look.Keeps (d.handleMessage id m).look := by
  unfold handleMessage
  split
  · exact .refl _
  cases m with
  | repaint area waveform marker =>
    dsimp only
    split
    · exact (mends_repaint (d := d.log .debug _) _ _ _ _ _).keeps fun h => sound_repaint h ..
    · exact (mends_repaint _ _ _ _ _).keeps fun h => sound_repaint h ..
  | waitForPaint marker => exact keeps_of_look_eq (look_waitForMarker ..)
  | geometry rect z =>
    dsimp only
    split
    · exact (mends_moveTo _ _ _ _).keeps fun h => sound_moveTo h ..
    · exact (mends_setGeometry _ _ _).keeps fun h => sound_setGeometry h ..
  | raise => exact (mends_raise _ _).keeps fun h => sound_raise h ..
  | lower => exact (mends_lower _ _).keeps fun h => sound_lower h ..
  | close => exact (mends_close _ _).keeps fun h => sound_close h ..
  | frameBuffer => exact keeps_of_look_eq (look_announceImage ..)
  | ping => exact keeps_of_look_eq (look_pong ..)
  | _ => exact .refl _

theorem keeps_serviceWindow (id : WindowId) (now : Time) :
    d.look.Keeps (d.serviceWindow id now).look := by
  unfold serviceWindow
  split
  · exact .refl _
  split
  · exact .refl _
  have hr := look_receive d id
  rw [look_checkLiveness]
  split
  · rename_i e messages he
    rw [he] at hr
    exact (keeps_of_look_eq hr).trans (keeps_foldl _ (fun d m => keeps_handleMessage id m) messages)
  · rename_i e error he
    rw [he] at hr
    exact keeps_of_look_eq hr

theorem keeps_serviceClients (now : Time) : d.look.Keeps (d.serviceClients now).look :=
  keeps_foldl _ (fun _ id => keeps_serviceWindow id now) _

theorem keeps_handleLifecycle (event : Lifecycle) (group : Group) :
    d.look.Keeps (d.handleLifecycle event group).look := by
  have hshow : ∀ visible, d.look.Keeps ((d.log .debug "Supervisor event").showWindows group
      visible).look := fun visible =>
    keeps_foldl (d := d.log .debug _) _ (fun d id =>
      (mends_setVisible id d.service visible).keeps fun h => sound_setVisible h ..) _
  cases event with
  | paused => exact hshow false
  | resumed => exact hshow true
  | exited =>
    exact keeps_foldl (d := d.log .debug _) _ (fun d id =>
      (mends_close id d.service).keeps fun h => sound_close h ..) _
  | foreground =>
    exact keeps_foldl (d := d.log .debug _) _ (fun d id =>
      (mends_raise id d.service).keeps fun h => sound_raise h ..) _
  | background =>
    exact keeps_foldl (d := d.log .debug _) _ (fun d id =>
      (mends_lower id d.service).keeps fun h => sound_lower h ..) _

theorem keeps_release (id : WindowId) : d.look.Keeps (d.release id).look :=
  (mends_release id).keeps fun h => sound_release h id

theorem keeps_finish (q : Repaint) (hw : UInt32) : d.look.Keeps (d.finish q hw).look := by
  obtain ⟨e,he,hf | ⟨id,-,hf⟩⟩ := finish_cases d q hw
  · rw [hf]
    exact keeps_of_look_eq he
  · rw [hf, ← he]
    exact keeps_release id

theorem keeps_redraw {q : Repaint} {rest : List Repaint} (hq : d.queue = q :: rest) :
    d.look.Keeps ({ d with queue := rest }.redraw q).1.look := by
  intro hs
  obtain ⟨fb,hl,ha,hin,hout⟩ := redraw_look (sound_setQueue hs.sound rest d.halted) q
  rw [hl]
  have hsound : { d.look with raster := fb, queue := rest }.Sound :=
    hs.sound.congr ha.id le_rfl rfl rfl rfl rfl
  refine ⟨⟨hsound,hs.running,hs.roomy⟩,fun hc => hc.repainted hq ha (fun x y he => ?_)
    fun x y hx hy he => hout x y hx hy fun h => he ((exposed_look _ q x y).1 h)⟩
  exact (hin x y ((exposed_look _ q x y).2 he)).trans (composite_look _ x y)

theorem keeps_process {q : Repaint} {rest : List Repaint} (hq : d.queue = q :: rest) :
    d.look.Keeps ({ d with queue := rest }.process q).look :=
  (keeps_redraw hq).trans (keeps_finish q _)

theorem keeps_serveMany (n : Nat) : d.look.Keeps (serveMany process n d).look := by
  induction n generalizing d with
  | zero => exact .refl _
  | succ n ih =>
    rw [serveMany]
    split
    · exact .refl _
    · rename_i q rest hq
      exact (keeps_process hq).trans ih

theorem keeps_reap : d.look.Keeps d.reap.look := by
  have h := fun e : Desktop => fun ids => keeps_foldl (d := e) _ (fun e id =>
    keeps_release (d := { e with deferred := e.deferred.erase id }.log .debug
      "Releasing closed window") id) ids
  exact h { d with deferred := (d.deferred.partition d.ledger.refersTo).1 ++
    (d.deferred.partition d.ledger.refersTo).2 } _

theorem keeps_runPending : d.look.Keeps d.runPending.1.look :=
  (keeps_serveMany _).trans keeps_reap

theorem keeps_paintNext : d.look.Keeps d.paintNext.look := by
  unfold paintNext
  split
  · exact keeps_reap
  · rename_i q rest hq
    exact keeps_process hq

theorem keeps_settle : d.look.Keeps d.settle.look := by
  unfold settle
  split
  · rw [look_tick]
    exact keeps_runPending
  · exact .refl _

theorem keeps_standStill (resolved : Bool) (complaint : String) :
    d.look.Keeps (d.standStill resolved complaint).look := by
  simp only [standStill]
  split
  · exact .refl _
  · split
    · exact keeps_settle
    · exact keeps_settle

theorem look_release (id : WindowId) : ∃ face height,
    (d.release id).look = { d.look with face, height } := by
  rcases release_cases d id with hl | ⟨hl,-⟩
  · exact ⟨d.look.face,d.look.height,hl⟩
  · exact ⟨_,_,hl⟩

theorem look_process (h : d.look.Sound) (q : Repaint) : ∃ raster face height,
    (d.process q).look = { d.look with raster, face, height } := by
  obtain ⟨fb,hl,-⟩ := redraw_look h q
  obtain ⟨e,he,hf | ⟨id,-,hf⟩⟩ := finish_cases (d.redraw q).1 q (d.redraw q).2
  · exact ⟨fb,d.look.face,d.look.height,(congrArg look hf).trans (he.trans hl)⟩
  · obtain ⟨face,height,hr⟩ := look_release (d := e) id
    rw [he, hl] at hr
    exact ⟨fb,face,height,(congrArg look hf).trans hr⟩

theorem look_serveMany (n : Nat) (h : d.look.Sound) : ∃ raster face height,
    (serveMany process n d).look =
      { d.look with raster, face, height, queue := d.look.queue.drop n } := by
  induction n generalizing d with
  | zero => exact ⟨d.look.raster,d.look.face,d.look.height,rfl⟩
  | succ n ih =>
    rw [serveMany]
    split
    · rename_i hq
      have hq' : d.look.queue = [] := hq
      refine ⟨d.look.raster,d.look.face,d.look.height,?_⟩
      rw [hq', List.drop_nil, ← hq']
    · rename_i q rest hq
      have hq' : d.look.queue = q :: rest := hq
      have hs := sound_setQueue h rest d.halted
      obtain ⟨raster,face,height,hl⟩ := look_process hs q
      obtain ⟨raster',face',height',hl'⟩ := ih (sound_process hs q)
      refine ⟨raster',face',height',?_⟩
      rw [hl', hl, hq', List.drop_succ_cons]
      rfl

theorem look_reap : ∃ face height, d.reap.look = { d.look with face, height } := by
  have hf : ∀ (ids : List WindowId) (e : Desktop), ∃ face height, (ids.foldl (fun d id =>
      ({ d with deferred := d.deferred.erase id }.log .debug "Releasing closed window").release
        id) e).look = { e.look with face, height } := by
    intro ids
    induction ids with
    | nil => exact fun e => ⟨e.look.face,e.look.height,rfl⟩
    | cons id ids ih =>
      intro e
      obtain ⟨face,height,hl⟩ := look_release
        (d := { e with deferred := e.deferred.erase id }.log .debug "Releasing closed window") id
      obtain ⟨face',height',hl'⟩ := ih _
      exact ⟨face',height',hl'.trans (by rw [hl]; rfl)⟩
  exact hf _ { d with deferred := (d.deferred.partition d.ledger.refersTo).1 ++
    (d.deferred.partition d.ledger.refersTo).2 }

theorem look_runPending (h : d.look.Sound) : ∃ raster face height,
    d.runPending.1.look = { d.look with raster, face, height, queue := [] } := by
  obtain ⟨raster,face,height,hl⟩ := look_serveMany d.queue.length h
  obtain ⟨face',height',hl'⟩ := look_reap (d := serveMany process d.queue.length d)
  refine ⟨raster,face',height',hl'.trans ?_⟩
  rw [hl, show d.look.queue.drop d.queue.length = [] from List.drop_length]

/-- Once nothing is queued, every pixel of a consistent panel is what it is to be. -/
theorem composite_of_idle (h : d.look.Consistent) (hq : d.queue = []) {x y : Nat}
    (hx : x < d.panel.raster.width) (hy : y < d.panel.raster.height) :
    d.panel.raster.colorAt x y = d.composite x y := by
  rw [composite_look]
  rcases h x y hx hy with hc | ⟨q,hqm,-⟩
  · exact hc
  · rw [show d.look.queue = [] from hq] at hqm
    cases hqm

theorem keeps_requestRepaint (window : Option WindowId) (region : Rect) (waveform : Option Waveform)
    (marker : Marker) : d.look.Keeps (d.requestRepaint window region waveform marker).look :=
  (mends_requestRepaint _ _ _ _).keeps fun h => sound_requestRepaint h ..

theorem keeps_enqueue (q : Repaint) : d.look.Keeps (d.enqueue q).look := by
  intro hs
  rw [look_enqueue hs.running]
  exact (repaired_requeue fun _ hq => List.mem_append_left _ hq).keeps
    (hs.sound.congr rfl le_rfl rfl rfl rfl rfl) hs.roomy hs

theorem keeps_waitForLastUpdate (id : WindowId) (caller : Group) :
    d.look.Keeps (d.waitForLastUpdate id caller).look := by
  refine guardedDo_cases (P := fun e => d.look.Keeps e.look) (keeps_of_look_eq (look_logCall ..))
    fun w _ => ?_
  exact (keeps_of_look_eq (by rw [look_addWait, look_logCall])).trans (keeps_standStill _ _)

theorem keeps_repaintAndWait (window : Option WindowId) (region : Rect) (waveform : Option Waveform)
    (marker : Marker) : d.look.Keeps (d.repaintAndWait window region waveform marker).look := by
  unfold repaintAndWait
  split
  · exact .refl _
  rename_i r hr
  split
  · exact keeps_requestRepaint _ _ _ _
  have hs := look_setRegistry (s := { r with nextInternal := r.nextInternal+1 }) hr rfl rfl
  dsimp only
  split
  · refine (keeps_of_look_eq ?_).trans ((keeps_enqueue _).trans (keeps_standStill _ _))
    rw [look_addWait, hs]
  · exact (keeps_of_look_eq (look_addWait ..)).trans
      ((keeps_enqueue _).trans (keeps_standStill _ _))

end Desktop

end InkCompositor
