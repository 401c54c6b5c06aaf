import Mathlib
import InkCompositor.Proofs.Desktop.Mending

/-!
# Writing to a window's image

What a client writes into the image it shares is seen where its window is on
top. A repaint of the rectangle it has written to makes up for that.
-/

set_option autoImplicit false

namespace InkCompositor

def Window.overwrite (w : Window) (bytes : Raster → Array UInt8) : Window :=
  { w with image := w.image.map fun r => r.overwrite (bytes r) }

theorem Window.Fitted.place {w : Window} {r : Raster} (h : w.Fitted) (hr : w.image = some r)
    {x y : Int} (hxy : w.geometry.Holds x y) : ∃ i j : Nat, i < r.width ∧ j < r.height ∧
      (i : Int) = x-w.geometry.x.toInt ∧ (j : Int) = y-w.geometry.y.toInt := by
  have hl := (Rect.holds_atOrigin w.geometry x y).2 hxy
  have hrect : w.geometry.atOrigin = r.rect := (h r hr).1.symm
  rw [hrect, ← r.exact_rect.covers_iff_holds, Raster.covers_rect] at hl
  exact ⟨(x-w.geometry.x.toInt).toNat,(y-w.geometry.y.toInt).toNat,
    by omega,by omega,by omega,by omega⟩

theorem Window.colorAt_overwrite {w : Window} (hw : w.Fitted) (bytes : Raster → Array UInt8)
    {x y : Int} (hxy : w.geometry.Holds x y)
    (h : ∀ r, w.image = some r → ∀ i j : Nat, i < r.width → j < r.height →
      (i : Int) = x-w.geometry.x.toInt → (j : Int) = y-w.geometry.y.toInt →
        (r.overwrite (bytes r)).colorAt i j = r.colorAt i j) :
    (w.overwrite bytes).colorAt x y = w.colorAt x y := by
  cases hr : w.image with
  | none => simp only [colorAt, overwrite, hr, Option.map_none]
  | some r =>
    obtain ⟨i,j,hi,hj,hix,hjy⟩ := hw.place hr hxy
    have hc := h r hr i j hi hj hix hjy
    simp only [colorAt, overwrite, hr, Option.map_some, ← hix, ← hjy, Int.toNat_natCast]
    exact hc

namespace Look

variable {l : Look} (id : WindowId) {g : Window → Window}

theorem top_change (h : l.Ready)
    (hg : ∀ w, l.face id = some w → (g w).geometry = w.geometry ∧ l.presents (g w) = l.presents w)
    (x y : Int) :
    (l.change id g).top x y = (l.top x y).map fun w => if w.id = id then g w else w := by
  have hv : ∀ j, (l.change id g).visibleAt x y j =
      (l.visibleAt x y j).map fun w => if w.id = id then g w else w := by
    intro j
    have hp : ∀ w, (l.change id g).presents w = l.presents w := fun _ => rfl
    cases hj : l.face j with
    | none =>
      have hf : (l.change id g).face j = none := by
        by_cases hji : j = id <;> simp [Look.change, hj]
      simp only [visibleAt, hf, hj, Option.filter_none, Option.map_none]
    | some w =>
      have hid := (h.known j w hj).1
      by_cases hji : j = id
      · subst hji
        obtain ⟨hgeo,hpres⟩ := hg w hj
        have hf : (l.change j g).face j = some (g w) := by simp [Look.change, hj]
        simp only [visibleAt, hf, hj, Option.filter_some, hp, hpres, hgeo]
        split <;> simp [hid]
      · have hf : (l.change id g).face j = some w := by simp [Look.change, hji, hj]
        simp only [visibleAt, hf, hj, Option.filter_some, hp]
        split <;> simp [hid, hji]
  have hl : (l.change id g).sorted = l.sorted := rfl
  rw [top_eq, top_eq, hl, funext hv, ← List.map_filterMap, List.getLast?_map]

end Look

namespace Desktop

open Look

variable {d : Desktop}

theorem repaint_spec (hrun : d.look.halted = false) {id : WindowId} {caller : Group}
    (hp : d.permits id caller = true) (area : Rect) (waveform : Option Waveform)
    (marker : Marker) :
    ∃ queue, (d.repaint id caller (some area) waveform marker).look = { d.look with queue } ∧
      (∀ q ∈ d.look.queue, q ∈ queue) ∧
      ∀ v, d.look.face id = some v → v.isVisibleOn d.look.screen = true →
        d.look.stack.isSome = true → { d.look with queue }.Queued (some id) area := by
  obtain ⟨hw,hperm⟩ := logCall_same (d := d) id caller
  have hlog := look_logCall d id caller
  rw [hp] at hperm
  simp only [repaint, guardedDo, guarded, hw]
  generalize d.logCall id caller = e at *
  cases hfind : d.window? id with
  | none =>
    refine ⟨d.look.queue,hlog,fun _ h => h,fun v hv => ?_⟩
    simp [look, hfind] at hv
  | some w =>
    simp only [hperm, if_true, Option.getD_some]
    have hl := look_if_modify e (marker = 0) id (fun w => { w with lastMarker := marker })
      fun _ => ⟨rfl,rfl⟩
    generalize (if marker = 0 then e else e.modify id fun w => { w with lastMarker := marker }) = f
      at hl
    rw [hlog] at hl
    have hface := face_of_window? hfind
    split
    · obtain ⟨queue,hr,hq,hn⟩ := requestRepaint_spec (d := f) (by rw [hl]; exact hrun) (some id)
        area waveform marker
      rw [hl] at hr hq hn
      refine ⟨queue,hr,hq,fun v hv hvis _ => hn fun j u hj hu => ?_⟩
      rw [← Option.some.inj hj, hv] at hu
      exact Window.not_closed_of_visible (Option.some.inj hu ▸ hvis)
    · rename_i hc
      refine ⟨d.look.queue,by rw [look_record, look_log, hl],fun _ h => h,fun v hv hvis hs => ?_⟩
      have hreg : f.registry.isSome = true := by
        rw [← hl] at hs
        simpa [look] using hs
      have hscreen : f.screen = d.look.screen := congrArg (fun l : Look => l.screen) hl
      rw [hface] at hv
      rw [← Option.some.inj hv, ← hscreen] at hvis
      refine absurd ?_ hc
      rw [hreg, Bool.true_and]
      exact hvis

theorem look_scribble (id : WindowId) (bytes : Raster → Array UInt8) :
    (d.scribble id bytes).look = d.look.change id (·.overwrite bytes) :=
  look_change id _ fun _ => ⟨rfl,rfl,rfl⟩

theorem permits_scribble (id : WindowId) (bytes : Raster → Array UInt8) (caller : Group) :
    (d.scribble id bytes).permits id caller = d.permits id caller := by
  have hw : (d.scribble id bytes).window? id =
      (d.window? id).map fun w => if w.id = id then w.overwrite bytes else w :=
    window?_modify d id (·.overwrite bytes) (fun _ => rfl) id
  have hservice : (d.scribble id bytes).service = d.service := rfl
  rw [permits, permits, hw, hservice]
  cases d.window? id with
  | none => rfl
  | some w =>
    simp only [Option.map_some, Option.any_some]
    split <;> rfl

/-- Writing to a window's image is made up for by a repaint of what was written to. -/
theorem mends_present (id : WindowId) (bytes : Raster → Array UInt8) (caller : Group) (area : Rect)
    (waveform : Option Waveform) (marker : Marker) (hp : d.permits id caller = true)
    (hin : ∀ w r, d.window? id = some w → w.image = some r → ∀ i j : Nat, i < r.width →
      j < r.height → ¬ area.Holds i j → (r.overwrite (bytes r)).colorAt i j = r.colorAt i j) :
    d.look.Mends ((d.scribble id bytes).repaint id caller (some area) waveform marker).look := by
  intro hs _
  have hl := look_scribble (d := d) id bytes
  obtain ⟨queue,hq,hkeep,hn⟩ := repaint_spec (d := d.scribble id bytes)
    (by rw [hl]; exact hs.running) ((permits_scribble id bytes caller).trans hp)
    area waveform marker
  rw [hl] at hq hkeep hn
  rw [hq]
  have hpresents : ∀ w, d.look.presents (w.overwrite bytes) = d.look.presents w := fun w => by
    simp [presents, Window.isVisibleOn, Window.overwrite]
  have ht := top_change id hs.sound.toReady (g := (·.overwrite bytes))
    fun w _ => ⟨rfl,hpresents w⟩
  refine ⟨⟨rfl,rfl,hkeep,fun x y hxy => ?_⟩,hs.roomy,rfl⟩
  have htop : { d.look.change id (·.overwrite bytes) with queue }.top x y = _ := ht x y
  rw [sight, sight, htop]
  cases hold : d.look.top x y with
  | none => exact .inl rfl
  | some w =>
    by_cases hid : w.id = id
    · subst hid
      obtain ⟨hmem,hvis⟩ := top_spec hs.sound.toReady hold
      obtain ⟨hf,hpres,hgeo⟩ := (visibleAt_eq_some_iff x y _ w).1 hvis
      by_cases harea : area.Holds (x-w.geometry.x.toInt) (y-w.geometry.y.toInt)
      · obtain ⟨q,hqq,hqw,hqr⟩ := hn (w.overwrite bytes) (by simp [Look.change, hf])
          (isVisibleOn_of_presents ((hpresents w).trans hpres)) (isSome_stack_of_mem_sorted hmem)
        refine .inr ⟨q,hqq,hxy,?_⟩
        rw [hqw, hqr]
        refine ⟨w.overwrite bytes,?_,rfl,harea⟩
        rw [htop, hold]
        simp
      · left
        simp only [Option.map_some, if_true]
        obtain ⟨v,hv,rfl⟩ : ∃ v, d.window? w.id = some v ∧ v.face = w := by simpa [look] using hf
        have hcolor := Window.colorAt_overwrite (hs.sound.fitted _ _ hf) bytes hgeo
          fun r hr i j hi hj hix hjy => hin v r hv hr i j hi hj (by rw [hix, hjy]; exact harea)
        rw [hcolor]
        rfl
    · simp [hid]

end Desktop

end InkCompositor
