import Mathlib
import InkCompositor.Proofs.Desktop.Presenting
import InkCompositor.Proofs.Display.Scanning

/-!
# Waveforms of plain contents

What is drawn in black, white, nothing and the toolkits' gray is stored in the
format of its window and after that in the format of the panel. Gray may come out
of this as another color than if it had been stored once. Just where such a pixel
is shown, an update takes the waveform of high quality.
-/

set_option autoImplicit false

namespace InkCompositor

def Color.palette : List Color := [white, black, transparent, gray]

namespace PixelFormat

def KeepsGray (f w : PixelFormat) : Prop := f.quantize (w.quantize .gray) = f.quantize .gray

instance (f w : PixelFormat) : Decidable (f.KeepsGray w) :=
  inferInstanceAs (Decidable (_ = _))

variable {f w : PixelFormat} (hf : f ≠ .invalid) (hw : w ≠ .invalid)
include hf

theorem shade_background : Shade.of f f.background ≠ .other := by
  cases f <;> first | exact absurd rfl hf | decide

include hw

theorem keepsGray_iff : f.KeepsGray w ↔
    (w ≠ .rgb16 ∧ w ≠ .grayscale8) ∨ w = f ∨ w = .grayscale8 ∧ f = .rgb16 := by
  cases f <;> cases w <;> first | exact absurd rfl hf | exact absurd rfl hw | decide +kernel

theorem shade_stored {c : Color} (hc : c ∈ Color.palette) :
    Shade.of f (f.quantize (w.quantize c)) = .other ↔
      ¬ f.KeepsGray w ∧ w.quantize c = w.quantize .gray := by
  revert c
  cases f <;> cases w <;> first | exact absurd rfl hf | exact absurd rfl hw | decide +kernel

end PixelFormat

namespace Raster

/-- The last color that every pixel was given is one of the palette. -/
def Plain (r : Raster) : Prop := ∃ (blank : Raster) (strokes : List Stroke),
  r = blank.run strokes ∧ ∀ x y : Nat, x < r.width → y < r.height →
    ∃ c ∈ Color.palette, Stroke.lastColor strokes x y = some c

theorem Plain.colorAt {r : Raster} (h : r.Plain) {x y : Nat} (hx : x < r.width)
    (hy : y < r.height) : ∃ c ∈ Color.palette, r.colorAt x y = r.format.quantize c := by
  obtain ⟨blank,strokes,rfl,hp⟩ := h
  obtain ⟨c,hc,hlast⟩ := hp x y hx hy
  have ha := (blank.confined_run strokes).alike
  refine ⟨c,hc,?_⟩
  rw [blank.colorAt_run strokes (ha.width ▸ hx) (ha.height ▸ hy), hlast, ha.format]
  rfl

theorem overwrite_run (r : Raster) (strokes : List Stroke) :
    r.overwrite (r.run strokes).bytes = r.run strokes := by
  have ha := (r.confined_run strokes).alike
  rw [overwrite, dif_pos ha.size]
  exact ((r.withBytes_alike _ _).trans ha.symm).eq rfl

end Raster

theorem Waveform.of_demand_pos {w : Waveform} (h : 1 ≤ w.demand) :
    w = .mono ∨ w = .grayscale ∨ w = .highQualityGrayscale := by
  cases w <;> revert h <;> decide

namespace Desktop

variable {d : Desktop}

def ShowsPlain (d : Desktop) : Prop :=
  ∀ w ∈ d.visibleStack, ∀ r, w.image = some r → r.Plain

/-- The pixel is to show gray of a window whose format and that of the panel do not keep it. -/
def AltersGray (d : Desktop) (x y : Nat) : Prop := ∃ w r, topmost d.visibleStack x y = some w ∧
  w.image = some r ∧ ¬ d.panel.raster.format.KeepsGray r.format ∧
    w.colorAt x y = r.format.quantize .gray

theorem shade_composite (h : d.look.Sound) (hp : d.ShowsPlain) (x y : Nat) :
    Shade.of d.panel.raster.format (d.composite x y) = .other ↔ d.AltersGray x y := by
  have hf := d.panel.raster.format_valid
  rw [composite, AltersGray]
  cases ht : topmost d.visibleStack x y with
  | none => simp [PixelFormat.shade_background hf]
  | some w =>
    obtain ⟨hw,hxy⟩ := mem_of_topmost ht
    obtain ⟨hfit,hi⟩ := drawable_of_mem_visibleStack h hw
    obtain ⟨r,hr⟩ := Option.isSome_iff_exists.1 hi
    obtain ⟨i,j,hi,hj,hix,hjy⟩ := hfit.place hr hxy
    obtain ⟨c,hc,hcolor⟩ := (hp w hw r hr).colorAt hi hj
    have hcolor' : w.colorAt x y = r.format.quantize c := by
      simp only [Window.colorAt, hr, ← hix, ← hjy, Int.toNat_natCast, hcolor]
    simp only [hcolor', PixelFormat.shade_stored hf r.format_valid hc]
    constructor
    · exact fun hg => ⟨w,r,rfl,hr,hg.1,hcolor' ▸ hg.2⟩
    · rintro ⟨v,s,hv,hs,hg⟩
      obtain rfl := Option.some.inj hv
      obtain rfl := Option.some.inj (hr.symm.trans hs)
      exact ⟨hg.1,hcolor' ▸ hg.2⟩

theorem redraw_waveforms (h : d.look.Sound) (hp : d.ShowsPlain) {q : Repaint}
    (hq : q.waveform = none) : ∃ sent, (d.redraw q).1.updates = d.updates ++ sent ∧
      (∀ x y, (∃ u ∈ sent, u.rect.Covers x y) ↔ d.Exposed q x y) ∧
      ∀ u ∈ sent, (u.waveform = .mono ∨ u.waveform = .grayscale ∨
          u.waveform = .highQualityGrayscale) ∧
        (u.waveform = .highQualityGrayscale ↔
          ∃ x y : Nat, u.rect.Covers x y ∧ d.AltersGray x y) := by
  obtain ⟨sent,hu,-,hcov,hsent⟩ := redraw_sends h q
  obtain ⟨fb,hl,ha,hin,-⟩ := redraw_look h q
  have hfb : (d.redraw q).1.panel.raster = fb := congrArg Look.raster hl
  refine ⟨sent,hu,hcov,fun u hu => ?_⟩
  have hw : u.waveform = fb.waveformFor u.rect := by
    rw [(hsent u hu).2, hq, hfb]
    rfl
  rw [hw]
  refine ⟨Waveform.of_demand_pos Raster.demand_pos,?_⟩
  rw [Waveform.eq_highQualityGrayscale_iff, Raster.three_le_demand_iff]
  constructor
  · rintro ⟨c,⟨x,y,⟨hc,-⟩,rfl⟩,ho⟩
    rw [hin x y ((hcov x y).1 ⟨u,hu,hc⟩), ha.format, shade_composite h hp] at ho
    exact ⟨x,y,hc,ho⟩
  · rintro ⟨x,y,hc,hg⟩
    have he := (hcov x y).1 ⟨u,hu,hc⟩
    obtain ⟨hx,hy⟩ := lt_of_exposed he
    refine ⟨_,⟨x,y,⟨hc,(fb.covers_rect x y).2 ?_⟩,rfl⟩,?_⟩
    · have := ha.width
      have := ha.height
      omega
    · rw [hin x y he, ha.format, shade_composite h hp]
      exact hg

/-- If all windows have plain contents, a repaint that leaves the waveform open is sent in mono or
grayscale, except just where it shows gray that the formats do not keep. All formats keep gray but
two: that of 16 bits on any other panel, and shades of gray on a panel of 32 bits. -/
theorem redraw_plain (h : Reachable d) (q : Repaint) (hq : q.waveform = none)
    (hp : d.ShowsPlain) : ∃ sent, (d.redraw q).1.updates = d.updates ++ sent ∧
      (∀ u ∈ sent, u.waveform = .mono ∨ u.waveform = .grayscale ∨
        u.waveform = .highQualityGrayscale ∧ ∃ x y : Nat, u.rect.Covers x y ∧ d.AltersGray x y) ∧
      (∀ u ∈ sent, (∃ x y : Nat, u.rect.Covers x y ∧ d.AltersGray x y) →
        u.waveform = .highQualityGrayscale) ∧
      ((∀ w ∈ d.visibleStack, ∀ r, w.image = some r →
          (r.format ≠ .rgb16 ∧ r.format ≠ .grayscale8) ∨ r.format = d.panel.raster.format ∨
            r.format = .grayscale8 ∧ d.panel.raster.format = .rgb16) →
        ∀ u ∈ sent, u.waveform = .mono ∨ u.waveform = .grayscale) := by
  obtain ⟨sent,hu,-,hsent⟩ := redraw_waveforms h.sound hp hq
  have hexact : ∀ u ∈ sent, u.waveform = .mono ∨ u.waveform = .grayscale ∨
      u.waveform = .highQualityGrayscale ∧
        ∃ x y : Nat, u.rect.Covers x y ∧ d.AltersGray x y := fun u hu => by
    obtain ⟨hone,hiff⟩ := hsent u hu
    exact hone.imp_right (Or.imp_right fun hh => ⟨hh,hiff.1 hh⟩)
  refine ⟨sent,hu,hexact,fun u hu => (hsent u hu).2.2,fun hkeep u hu => ?_⟩
  refine (hexact u hu).imp_right fun hh => hh.resolve_right ?_
  rintro ⟨-,x,y,-,w,r,ht,hr,hn,-⟩
  refine hn ((PixelFormat.keepsGray_iff d.panel.raster.format_valid r.format_valid).2 ?_)
  exact hkeep w (mem_of_topmost ht).1 r hr

theorem plain_of_scribble {id : WindowId} {strokes : List Stroke}
    (hc : ∀ x y : Int, ∃ c ∈ Color.palette, Stroke.lastColor strokes x y = some c) {w : Window}
    (hw : w ∈ (d.scribble id fun r => (r.run strokes).bytes).visibleStack) (hid : w.id = id)
    {r : Raster} (hr : w.image = some r) : r.Plain := by
  subst hid
  have hfound : (d.scribble w.id fun r => (r.run strokes).bytes).window? w.id =
      (d.window? w.id).map fun v => if v.id = w.id then v.overwrite fun r => (r.run strokes).bytes
        else v :=
    window?_modify d w.id (·.overwrite fun r => (r.run strokes).bytes) (fun _ => rfl) w.id
  rw [(window?_of_mem_visibleStack _ hw).1, eq_comm, Option.map_eq_some_iff] at hfound
  obtain ⟨v,hv,hover⟩ := hfound
  rw [if_pos (id_of_window? d hv)] at hover
  rw [← hover, Window.overwrite, Option.map_eq_some_iff] at hr
  obtain ⟨blank,-,rfl⟩ := hr
  exact ⟨blank,strokes,blank.overwrite_run strokes,fun x y _ _ => hc x y⟩

def graySquare (f : PixelFormat) : Desktop :=
  (((fresh smallPanel .anonymous {} 24 1).perform (.create 100 (some ⟨1,1,2,2⟩) f)).perform
    (.setVisible 0 100 true)).perform (.scribble 0 fun r => (r.run [.all .gray]).bytes)

theorem reachable_graySquare (f : PixelFormat) : Reachable (graySquare f) :=
  .act _ (.act _ (.act _ (.fresh smallPanel .anonymous {} 24 1 {} rfl)))

theorem plain_graySquare {f : PixelFormat} (h : (graySquare f).visibleStack.map (·.id) = [0]) :
    (graySquare f).ShowsPlain := by
  intro w hw r hr
  have hid : w.id ∈ (graySquare f).visibleStack.map (·.id) := List.mem_map_of_mem hw
  rw [h, List.mem_singleton] at hid
  exact plain_of_scribble (fun x y => ⟨.gray,by decide,rfl⟩) hw hid hr

/-- A gray window of the same format as the panel. -/
theorem redraw_plain_same : let d := graySquare .rgb32
    let q : Repaint := ⟨some 0,⟨0,0,2,2⟩,none,7,none⟩
    Reachable d ∧ q.waveform = none ∧ d.ShowsPlain ∧
      ∃ sent, (d.redraw q).1.updates = d.updates ++ sent ∧
        ∀ u ∈ sent, u.waveform = .mono ∨ u.waveform = .grayscale := by
  intro d q
  have hr : Reachable d := reachable_graySquare .rgb32
  have hp : d.ShowsPlain := plain_graySquare (by decide +kernel)
  have hf : (d.visibleStack.map fun w => w.image.map (·.format)) = [some d.panel.raster.format] :=
    by decide +kernel
  obtain ⟨sent,hu,-,-,hkept⟩ := redraw_plain hr q rfl hp
  refine ⟨hr,rfl,hp,sent,hu,hkept fun w hw r hi => .inr (.inl ?_)⟩
  have hm : w.image.map (·.format) ∈ d.visibleStack.map fun w => w.image.map (·.format) :=
    List.mem_map_of_mem hw
  rw [hf, List.mem_singleton, hi] at hm
  exact Option.some.inj hm

/-- Gray can cost a refresh of high quality: on a panel of 32 bits that of a window of 16. -/
theorem gray_costs : ¬ ∀ (d : Desktop) (q : Repaint), Reachable d → q.waveform = none →
    d.ShowsPlain → ∀ sent, (d.redraw q).1.updates = d.updates ++ sent →
      ∀ u ∈ sent, u.waveform = .mono ∨ u.waveform = .grayscale := by
  intro h
  have hnone : (graySquare .rgb16).updates = [] := by cbv
  have hsent : ((graySquare .rgb16).redraw ⟨none,⟨0,0,4,3⟩,none,7,none⟩).1.updates.map
      (·.waveform) = [.highQualityGrayscale] := by cbv
  obtain ⟨u,hu,hw⟩ := List.map_eq_singleton_iff.1 hsent
  have hone := h (graySquare .rgb16) _ (reachable_graySquare _) rfl
    (plain_graySquare (by decide +kernel)) [u] (by rw [hnone, hu, List.nil_append]) u (by simp)
  rw [hw] at hone
  exact absurd hone (by decide)

end Desktop

end InkCompositor
