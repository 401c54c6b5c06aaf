import Mathlib
import InkCompositor.Display.Waveform
import InkCompositor.Proofs.Raster.Drawing

/-!
# Scanning for a waveform

Scanning an area visits the pixels that it has in common with the image line by
line, each line from the left, up to the first visit that breaks. The waveform
that is found that way does not depend on the order: the most demanding color
of the area decides.
-/

set_option autoImplicit false

namespace InkCompositor

section

variable {σ α : Type} (visit : σ → α → σ × Bool)

def found (s : σ) (seen : List α) : σ := seen.foldl (fun s a => (visit s a).1) s

def visitAll (s : σ) : List α → σ × Bool
  | [] => (s,true)
  | a :: rest => if (visit s a).2 then visitAll (visit s a).1 rest else ((visit s a).1,false)

/-- The visits from the first on: every one but the last goes on, and the last one breaks if there
is more to visit. -/
structure Visited (s : σ) (all seen : List α) : Prop where
  first : seen <+: all
  onward : ∀ before a after, seen = before++a :: after → after ≠ [] →
    (visit (found visit s before) a).2 = true
  broken : seen ≠ all → ∃ before a, seen = before++[a] ∧ (visit (found visit s before) a).2 = false

variable {visit}

theorem visitAll_append (s : σ) (l m : List α) : visitAll visit s (l++m) =
    if (visitAll visit s l).2 then visitAll visit (visitAll visit s l).1 m
    else visitAll visit s l := by
  induction l generalizing s with
  | nil => rfl
  | cons a l ih =>
    rw [List.cons_append, visitAll, visitAll]
    split
    · exact ih _
    · rfl

theorem visitAll_map {β : Type} (g : β → α) (s : σ) (l : List β) :
    visitAll visit s (l.map g) = visitAll (fun s b => visit s (g b)) s l := by
  induction l generalizing s with
  | nil => rfl
  | cons b l ih => rw [List.map_cons, visitAll, visitAll, ih]

theorem visited_visitAll (s : σ) (all : List α) : ∃ seen, Visited visit s all seen ∧
    (visitAll visit s all).1 = found visit s seen := by
  induction all generalizing s with
  | nil => exact ⟨[],⟨List.prefix_rfl,by simp,fun h => absurd rfl h⟩,rfl⟩
  | cons a all ih =>
    rw [visitAll]
    cases hgo : (visit s a).2 with
    | true =>
      obtain ⟨seen,h,hfound⟩ := ih (visit s a).1
      refine ⟨a :: seen,⟨List.prefix_cons_inj a |>.2 h.first,fun before b after he hne => ?_,
        fun hne => ?_⟩,hfound⟩
      · cases before with
        | nil =>
          obtain ⟨rfl,-⟩ := List.cons.inj he
          exact hgo
        | cons c before =>
          obtain ⟨rfl,he'⟩ := List.cons.inj he
          exact h.onward before b after he' hne
      · obtain ⟨before,b,he,hb⟩ := h.broken fun he => hne (congrArg _ he)
        exact ⟨a :: before,b,congrArg _ he,hb⟩
    | false =>
      refine ⟨[a],⟨⟨all,rfl⟩,fun before b after he hne => ?_,fun _ => ⟨[],a,rfl,hgo⟩⟩,rfl⟩
      cases before with
      | nil => exact absurd (List.cons.inj he).2.symm hne
      | cons c before => simp at he

end

namespace Raster

variable {σ : Type} {visit : σ → Color → σ × Bool} (r : Raster)

def visitAt (visit : σ → Color → σ × Bool) (s : σ) (p : Nat × Nat) : σ × Bool :=
  visit s (r.colorAt p.1 p.2)

theorem scanLine?_eq (s : σ) (x y n : Nat) :
    scanLine? visit r.format s ((List.range' x n).map fun x => r.pixelBytes x y) =
      some (visitAll (r.visitAt visit) s ((List.range' x n).map fun x => (x,y))) := by
  induction n generalizing x s with
  | zero => rfl
  | succ n ih =>
    rw [List.range'_succ, List.map_cons, List.map_cons, visitAll]
    simp only [scanLine?, r.decode?_pixelBytes, Option.bind_eq_bind, Option.bind_some]
    by_cases hgo : (r.visitAt visit s (x,y)).2 = true
    · rw [if_pos hgo, ← ih]
      exact if_pos hgo
    · rw [if_neg hgo]
      exact if_neg hgo

theorem scanLines?_eq {area : Rect} {x n : Nat} (hx : area.left = x) (hn : area.width.toInt = n)
    (hin : x+n ≤ r.width) (s : σ) (lines : List Nat) (hy : ∀ y ∈ lines, y < r.height) :
    r.scanLines? visit area s (lines.map Nat.cast) = some (visitAll (r.visitAt visit) s
      (lines.flatMap fun y => (List.range' x n).map fun x => (x,y))).1 := by
  induction lines generalizing s with
  | nil => rfl
  | cons y lines ih =>
    have hfit := r.line_stop_le hin (hy y (by simp))
    simp only [List.map_cons, scanLines?, hx, hn, r.ends?_eq hin (hy y (by simp)),
      r.load?_eq (Nat.le_add_right _ _) (hfit.trans r.fits), r.extract_line hin (hy y (by simp)),
      r.chunks_lineBytes, r.scanLine?_eq, Option.bind_eq_bind, Option.bind_some,
      List.flatMap_cons, visitAll_append]
    split
    · exact ih _ fun z hz => hy z (by simp [hz])
    · rfl

theorem scan?_eq (area : Rect) (s : σ) :
    r.scan? visit area s = some (visitAll (r.visitAt visit) s (r.pixelsIn area)).1 := by
  rcases Rect.isEmpty_or_exact area r.rect with he | he
  · have hn : r.pixelsIn area = [] := List.eq_nil_iff_forall_not_mem.2 fun p hp =>
      Rect.not_covers_of_isEmpty he _ _
        ((Rect.covers_intersected ..).2 ((r.mem_pixelsIn area p.1 p.2).1 hp))
    rw [scan?, if_pos he, hn]
    rfl
  · obtain ⟨x,y,n,m,hx,hy,hn,hm,hxn,hym,hspan⟩ := r.placed he fun x y h =>
      ((Rect.covers_intersected ..).1 h).2
    rw [scan?, if_neg (by rw [he.isEmpty]; nofun), hspan, r.scanLines?_eq hx hn hxn s _
      fun z hz => (List.mem_range'_1.1 hz).2.trans_le hym]
    simp only [Rect.left, Rect.top] at hx hy
    simp only [pixelsIn, hx, hy, hn, hm, Int.toNat_natCast]

theorem pixelsIn_ascending (area : Rect) : (r.pixelsIn area).Pairwise fun p q =>
    p.2 < q.2 ∨ p.2 = q.2 ∧ p.1 < q.1 := by
  refine List.pairwise_flatMap.2 ⟨fun y _ => ?_,?_⟩
  · exact List.pairwise_map.2 ((List.pairwise_lt_range' 1 Nat.one_pos).imp fun h => .inr ⟨rfl,h⟩)
  · refine (List.pairwise_lt_range' 1 Nat.one_pos).imp fun {y z} hyz p hp q hq => .inl ?_
    obtain ⟨_,-,rfl⟩ := List.mem_map.1 hp
    obtain ⟨_,-,rfl⟩ := List.mem_map.1 hq
    exact hyz

/-- How an area is scanned: which pixels there are to visit, in which order, and how far. -/
structure Scanned (area : Rect) : Prop where
  pixels : ∀ x y : Nat, (x,y) ∈ r.pixelsIn area ↔ area.Covers x y ∧ r.rect.Covers x y
  ascending : (r.pixelsIn area).Pairwise fun p q => p.2 < q.2 ∨ p.2 = q.2 ∧ p.1 < q.1
  visits : ∀ {σ : Type} (visit : σ → Color → σ × Bool) (s : σ),
    ∃ seen, Visited (r.visitAt visit) s (r.pixelsIn area) seen ∧
      r.scan? visit area s = some (found (r.visitAt visit) s seen)

theorem scanned (area : Rect) : r.Scanned area where
  pixels := r.mem_pixelsIn area
  ascending := r.pixelsIn_ascending area
  visits visit s := by
    obtain ⟨seen,h,hfound⟩ : ∃ seen, Visited (r.visitAt visit) s (r.pixelsIn area) seen ∧
        (visitAll (r.visitAt visit) s (r.pixelsIn area)).1 = found (r.visitAt visit) s seen :=
      visited_visitAll s (r.pixelsIn area)
    exact ⟨seen,h,hfound ▸ r.scan?_eq area s⟩

end Raster

namespace Shade

variable {f : PixelFormat} {c : Color}

theorem of_eq_other_iff : of f c = .other ↔ c ≠ f.quantize .white ∧ c ≠ f.quantize .black ∧
    c ≠ f.quantize .transparent ∧ c ≠ f.quantize .gray := by
  rw [of]
  split
  · simp only [false_iff, reduceCtorEq]
    tauto
  · split <;> simp only [false_iff, true_iff, reduceCtorEq] <;> tauto

theorem of_eq_gray_iff : of f c = .gray ↔ c = f.quantize .gray ∧
    c ≠ f.quantize .white ∧ c ≠ f.quantize .black ∧ c ≠ f.quantize .transparent := by
  rw [of]
  split
  · simp only [false_iff, reduceCtorEq]
    tauto
  · split <;> simp only [false_iff, true_iff, reduceCtorEq] <;> tauto

/-- How many shades a color takes to be told apart. -/
def demand : Shade → Nat
  | blackOrWhite => 1
  | gray => 2
  | other => 3

theorem demand_le (s : Shade) : s.demand ≤ 3 := by cases s <;> decide

theorem two_le_demand_iff {s : Shade} : 2 ≤ s.demand ↔ s = .gray ∨ s = .other := by
  cases s <;> decide

theorem three_le_demand_iff {s : Shade} : 3 ≤ s.demand ↔ s = .other := by cases s <;> decide

end Shade

namespace Waveform

/-- How many shades a waveform tells apart, of those that are chosen by color. -/
def demand : Waveform → Nat
  | clear | highlight => 0
  | mono => 1
  | grayscale => 2
  | highQualityGrayscale => 3

variable {w : Waveform}

theorem eq_highQualityGrayscale_iff : w = .highQualityGrayscale ↔ 3 ≤ w.demand := by
  cases w <;> decide

theorem eq_grayscale_iff : w = .grayscale ↔ ¬ 3 ≤ w.demand ∧ 2 ≤ w.demand := by
  cases w <;> decide

theorem eq_mono_iff : w = .mono ↔ 1 ≤ w.demand ∧ ¬ 2 ≤ w.demand := by cases w <;> decide

theorem demand_inj {v : Waveform} (hv : 1 ≤ v.demand) (h : v.demand = w.demand) : v = w := by
  cases v <;> cases w <;> revert hv h <;> decide

theorem le_demand_covering (f : PixelFormat) (hs : w = .mono ∨ w = .grayscale) (colors : List Color)
    {n : Nat} : n ≤ (covering f w colors).demand ↔
      n ≤ w.demand ∨ ∃ c ∈ colors, n ≤ (Shade.of f c).demand := by
  induction colors generalizing w with
  | nil => simp [covering]
  | cons c colors ih =>
    have hw : 1 ≤ w.demand ∧ w.demand ≤ 2 := by rcases hs with rfl | rfl <;> decide
    rw [covering, List.exists_mem_cons_iff]
    cases hc : Shade.of f c with
    | blackOrWhite =>
      refine (ih hs).trans ?_
      rw [Shade.demand]
      grind
    | gray =>
      refine (ih (.inr rfl)).trans ?_
      rw [Shade.demand, demand]
      grind
    | other =>
      have hrest : (∃ b ∈ colors, n ≤ (Shade.of f b).demand) → n ≤ 3 := by
        rintro ⟨b,-,hb⟩
        exact hb.trans (Shade.demand_le _)
      show n ≤ 3 ↔ n ≤ w.demand ∨ n ≤ 3 ∨ ∃ b ∈ colors, n ≤ (Shade.of f b).demand
      grind

theorem visitAll_visit (f : PixelFormat) (sofar : Waveform) (colors : List Color) :
    (visitAll (visit f) sofar colors).1 = covering f sofar colors := by
  induction colors generalizing sofar with
  | nil => rfl
  | cons c colors ih =>
    rw [visitAll, covering, visit]
    cases hc : Shade.of f c with
    | blackOrWhite => exact ih sofar
    | gray => exact ih .grayscale
    | other => rfl

end Waveform

namespace Raster

def Shows (r : Raster) (area : Rect) (c : Color) : Prop :=
  ∃ x y : Nat, (area.Covers x y ∧ r.rect.Covers x y) ∧ r.colorAt x y = c

section

variable {r : Raster} {area : Rect}

theorem mem_colorsIn {c : Color} : c ∈ r.colorsIn area ↔ r.Shows area c := by
  rw [colorsIn, List.mem_map]
  constructor
  · rintro ⟨p,hp,rfl⟩
    exact ⟨p.1,p.2,(r.mem_pixelsIn area p.1 p.2).1 hp,rfl⟩
  · rintro ⟨x,y,hxy,rfl⟩
    exact ⟨(x,y),(r.mem_pixelsIn area x y).2 hxy,rfl⟩

theorem le_demand_iff {n : Nat} : n ≤ (r.waveformFor area).demand ↔
    n ≤ 1 ∨ ∃ c, r.Shows area c ∧ n ≤ (Shade.of r.format c).demand := by
  rw [waveformFor, Waveform.le_demand_covering _ (.inl rfl)]
  simp only [mem_colorsIn, Waveform.demand]

theorem demand_pos : 1 ≤ (r.waveformFor area).demand := le_demand_iff.2 (.inl le_rfl)

theorem three_le_demand_iff : 3 ≤ (r.waveformFor area).demand ↔
    ∃ c, r.Shows area c ∧ Shade.of r.format c = .other := by
  simp only [le_demand_iff, Shade.three_le_demand_iff, Nat.reduceLeDiff, false_or]

theorem two_le_demand_iff : 2 ≤ (r.waveformFor area).demand ↔
    ∃ c, r.Shows area c ∧ (Shade.of r.format c = .gray ∨ Shade.of r.format c = .other) := by
  simp only [le_demand_iff, Shade.two_le_demand_iff, Nat.reduceLeDiff, false_or]

theorem Shows.mono {c : Color} {larger : Rect}
    (h : ∀ x y : Nat, r.rect.Covers x y → area.Covers x y → larger.Covers x y)
    (hc : r.Shows area c) : r.Shows larger c := by
  obtain ⟨x,y,⟨ha,hr⟩,rfl⟩ := hc
  exact ⟨x,y,⟨h x y hr ha,hr⟩,rfl⟩

theorem shows_split {left right : Rect} (h : ∀ x y : Nat, r.rect.Covers x y →
    (area.Covers x y ↔ left.Covers x y ∨ right.Covers x y)) (c : Color) :
    r.Shows area c ↔ r.Shows left c ∨ r.Shows right c := by
  constructor
  · rintro ⟨x,y,⟨ha,hr⟩,rfl⟩
    exact ((h x y hr).1 ha).imp (fun hl => ⟨x,y,⟨hl,hr⟩,rfl⟩) fun hr' => ⟨x,y,⟨hr',hr⟩,rfl⟩
  · rintro (hc | hc)
    · exact hc.mono fun x y hr hl => (h x y hr).2 (.inl hl)
    · exact hc.mono fun x y hr hl => (h x y hr).2 (.inr hl)

end

variable (r : Raster) (area : Rect)

/-- Which waveform an area gets: one that is found by a scan and depends on nothing but which
colors occur. -/
structure Chosen : Prop where
  scan : r.scan? (Waveform.visit r.format) area .mono = some (r.waveformFor area)
  highQuality : r.waveformFor area = .highQualityGrayscale ↔
    ∃ c, r.Shows area c ∧ c ≠ r.format.quantize .white ∧ c ≠ r.format.quantize .black ∧
      c ≠ r.format.quantize .transparent ∧ c ≠ r.format.quantize .gray
  grayscale : r.waveformFor area = .grayscale ↔ r.waveformFor area ≠ .highQualityGrayscale ∧
    ∃ c, r.Shows area c ∧ c = r.format.quantize .gray ∧ c ≠ r.format.quantize .white ∧
      c ≠ r.format.quantize .black ∧ c ≠ r.format.quantize .transparent
  mono : r.waveformFor area = .mono ↔
    r.waveformFor area ≠ .highQualityGrayscale ∧ r.waveformFor area ≠ .grayscale
  colors : ∀ (s : Raster) (other : Rect), s.format = r.format →
    (∀ c, s.Shows other c ↔ r.Shows area c) → s.waveformFor other = r.waveformFor area
  split : ∀ left right : Rect,
    (∀ x y : Nat, r.rect.Covers x y → (area.Covers x y ↔ left.Covers x y ∨ right.Covers x y)) →
      (r.waveformFor area).demand =
        max (r.waveformFor left).demand (r.waveformFor right).demand
  enlarged : ∀ larger : Rect,
    (∀ x y : Nat, r.rect.Covers x y → area.Covers x y → larger.Covers x y) →
      (r.waveformFor area).demand ≤ (r.waveformFor larger).demand

theorem chosen : r.Chosen area where
  scan := by
    rw [scan?_eq, waveformFor, ← Waveform.visitAll_visit, colorsIn, visitAll_map]
    rfl
  highQuality := by
    simp only [Waveform.eq_highQualityGrayscale_iff, three_le_demand_iff, Shade.of_eq_other_iff]
  grayscale := by
    rw [Ne, Waveform.eq_highQualityGrayscale_iff, Waveform.eq_grayscale_iff]
    refine and_congr_right fun ho => two_le_demand_iff.trans (exists_congr fun c =>
      and_congr_right fun hc => ?_)
    rw [or_iff_left fun h => ho (three_le_demand_iff.2 ⟨c,hc,h⟩), Shade.of_eq_gray_iff]
  mono := by
    have hpos : 1 ≤ (r.waveformFor area).demand := demand_pos
    rw [Ne, Ne, Waveform.eq_highQualityGrayscale_iff, Waveform.eq_grayscale_iff,
      Waveform.eq_mono_iff]
    omega
  colors s other hf hc := Waveform.demand_inj demand_pos <| eq_of_forall_le_iff fun n => by
    simp only [le_demand_iff, hf, hc]
  split left right h := by
    refine eq_of_forall_le_iff fun n => ?_
    simp only [le_max_iff, le_demand_iff, shows_split h, or_and_right, exists_or]
    exact or_or_distrib_left
  enlarged larger h := le_demand_iff.2 <| (le_demand_iff.1 le_rfl).imp_right fun ⟨c,hc,hn⟩ =>
    ⟨c,hc.mono h,hn⟩

/-- An area is scanned line by line up to the first visit that breaks, and its waveform is chosen by
the most demanding color that occurs in it. -/
theorem waveform_chosen : r.Scanned area ∧ r.Chosen area := ⟨r.scanned area,r.chosen area⟩

def dottedPage : Raster := (inkPage.setPixel 1 0 .gray).setPixel 2 1 (.rgb 10 20 30)

/-- White and gray side by side, and the other dot around them. -/
theorem waveform_chosen_dotted :
    dottedPage.scan? (Waveform.visit .argb32Premultiplied) ⟨0,-1,2,2⟩ .mono = some .grayscale ∧
      Waveform.demand .grayscale = max (dottedPage.waveformFor ⟨0,0,1,1⟩).demand
        (dottedPage.waveformFor ⟨1,0,1,1⟩).demand ∧
      Waveform.demand .grayscale ≤ (dottedPage.waveformFor ⟨0,-1,3,3⟩).demand := by
  have hw : dottedPage.waveformFor ⟨0,-1,2,2⟩ = .grayscale := by decide +kernel
  have hin : ∀ x : Nat, x < 6 → ∀ y : Nat, y < 2 → ((⟨0,-1,2,2⟩ : Rect).Covers x y ↔
      (⟨0,0,1,1⟩ : Rect).Covers x y ∨ (⟨1,0,1,1⟩ : Rect).Covers x y) ∧
        ((⟨0,-1,2,2⟩ : Rect).Covers x y → (⟨0,-1,3,3⟩ : Rect).Covers x y) := by decide +kernel
  have hcovers : ∀ x y : Nat, dottedPage.rect.Covers x y → x < 6 ∧ y < 2 := fun x y hr => by
    obtain ⟨⟨-,hx⟩,-,hy⟩ := (dottedPage.covers_rect x y).1 hr
    exact ⟨by exact_mod_cast hx,by exact_mod_cast hy⟩
  obtain ⟨-,h⟩ := waveform_chosen dottedPage ⟨0,-1,2,2⟩
  have hsplit := h.split ⟨0,0,1,1⟩ ⟨1,0,1,1⟩ fun x y hr =>
    (hin x (hcovers x y hr).1 y (hcovers x y hr).2).1
  have hlarger := h.enlarged ⟨0,-1,3,3⟩ fun x y hr =>
    (hin x (hcovers x y hr).1 y (hcovers x y hr).2).2
  rw [hw] at hsplit hlarger
  exact ⟨hw ▸ h.scan,hsplit,hlarger⟩

end Raster

end InkCompositor
