import Mathlib
import InkCompositor.Proofs.Desktop.Books
import InkCompositor.Proofs.Desktop.Steps

/-!
# Beats

To paint everything queued, and to stand still until it is on the glass, takes
more than one thing to be done. Here such steps are taken apart into beats, of
which each closes one window or paints one repaint at most, or releases what is
to be released, and stands still for nothing.
-/

set_option autoImplicit false

namespace InkCompositor

namespace Step

/-- Whether a step is no more than a beat. -/
def isBrief : Step → Bool
  | act (.message _ .close) | act .service | act (.supervise ..) | act .runPending |
    act (.waitForLast ..) | act (.dirtyAndWait ..) | act .start | act .halt | act .shutDown => false
  | _ => true

def isEnd : Step → Bool
  | act .halt | act .shutDown => true
  | _ => false

theorem isBrief_of_isPart {s : Step} (h : s.isPart = true) : s.isBrief = true := by
  cases s with
  | act a =>
    cases a with
    | message id m =>
      cases m with
      | close => cases h
      | _ => rfl
    | close | raise | lower | setVisible => rfl
    | _ => cases h
  | _ => rfl

end Step

inductive Beat where
  | step (s : Step)
  /-- Painting and ticking go on by themselves from now on. -/
  | attend
  /-- An internal marker is taken. -/
  | count

namespace Beat

def isBrief : Beat → Bool
  | step s => s.isBrief
  | attend | count => true

def paint : Beat := .step (.act .paintNext)

end Beat

namespace Desktop

def beat (d : Desktop) : Beat → Desktop
  | .step s => d.take s
  | .attend => { d with attended := true }
  | .count => { d with
      registry := d.registry.map fun r => { r with nextInternal := r.nextInternal+1 } }

def run (d : Desktop) (beats : List Beat) : Desktop := beats.foldl beat d

theorem run_concat (d : Desktop) (beats : List Beat) (b : Beat) :
    d.run (beats ++ [b]) = (d.run beats).beat b := by
  rw [run, List.foldl_append]
  rfl

/-- To paint everything queued is to paint one repaint after the other, and then to release what
is to be released. -/
theorem runPending_eq_run (d : Desktop) :
    d.runPending.1 = d.run (List.replicate (d.queue.length+1) .paint) := by
  generalize hn : d.queue.length = n
  induction n generalizing d with
  | zero =>
    have hq := List.length_eq_zero_iff.1 hn
    have hp : d.beat .paint = d.reap := by
      simp only [beat, Beat.paint, take, perform, paintNext, hq]
    exact (congrArg (fun n => (serveMany process n d).reap) hn).trans hp.symm
  | succ n ih =>
    cases hq : d.queue with
    | nil => simp [hq] at hn
    | cons q rest =>
      rw [hq, List.length_cons, Nat.add_right_cancel_iff] at hn
      have hp : d.beat .paint = { d with queue := rest }.process q := by
        simp only [beat, Beat.paint, take, perform, paintNext, hq]
      have hrest : (d.beat .paint).queue.length = n := by rw [hp, queue_process, hn]
      have hr : d.runPending.1 = (d.beat .paint).runPending.1 := by
        simp only [runPending, hq, List.length_cons, serveMany, ← hp, hn, hrest]
      rw [hr, ih _ hrest]
      rfl

/-- One state comes from another by beats. -/
def Runs (d e : Desktop) : Prop :=
  ∃ beats : List Beat, (∀ b ∈ beats, b.isBrief = true) ∧ e = d.run beats

variable {d e f : Desktop}

theorem Runs.refl (d : Desktop) : Runs d d := ⟨[],by simp,rfl⟩

theorem Runs.trans (h : Runs d e) (h' : Runs e f) : Runs d f := by
  obtain ⟨beats,hb,rfl⟩ := h
  obtain ⟨beats',hb',rfl⟩ := h'
  refine ⟨beats ++ beats',fun b hm => ?_,List.foldl_append.symm⟩
  rcases List.mem_append.1 hm with hm | hm
  · exact hb b hm
  · exact hb' b hm

theorem Runs.beat (h : Runs d e) {b : Beat} (hb : b.isBrief = true) : Runs d (e.beat b) :=
  h.trans ⟨[b],by simpa using hb,rfl⟩

theorem Runs.take (h : Runs d e) {s : Step} (hs : s.isBrief = true) : Runs d (e.take s) :=
  h.beat (b := .step s) hs

theorem Runs.log (h : Runs d e) (level : Level) (text : String) : Runs d (e.log level text) :=
  h.take (s := .note level text) rfl

theorem Runs.logCall (h : Runs d e) (id : WindowId) (caller : Group) :
    Runs d (e.logCall id caller) := by
  unfold Desktop.logCall
  split
  · exact h.log ..
  · exact h.log ..

theorem Parted.runs (h : Parted d e) : Runs d e := by
  obtain ⟨steps,hs,rfl⟩ := h
  refine ⟨steps.map .step,fun b hm => ?_,?_⟩
  · obtain ⟨s,hmem,rfl⟩ := List.mem_map.1 hm
    exact Step.isBrief_of_isPart (hs s hmem)
  · rw [run, List.foldl_map]
    rfl

theorem Runs.runPending (h : Runs d e) : Runs d e.runPending.1 :=
  h.trans ⟨_,fun b hm => by rw [List.eq_of_mem_replicate hm]; rfl,e.runPending_eq_run⟩

theorem Runs.settle (h : Runs d e) : Runs d e.settle := by
  unfold Desktop.settle
  split
  · exact h.runPending.take (s := .act .tick) rfl
  · exact h

theorem Runs.standStill (h : Runs d e) (resolved : Bool) (complaint : String) :
    Runs d (e.standStill resolved complaint) := by
  simp only [Desktop.standStill]
  split
  · exact h
  split
  · exact h.settle
  · exact h.settle.log ..

theorem runs_waitForLastUpdate (d : Desktop) (id : WindowId) (caller : Group) :
    Runs d (d.waitForLastUpdate id caller) :=
  guardedDo_cases (P := Runs d) ((Runs.refl d).logCall id caller) fun w _ =>
    Runs.standStill (((Runs.refl d).logCall id caller).take
      (s := .act (.addWait (some id) w.lastMarker .proceed)) rfl) ..

theorem runs_repaintAndWait (d : Desktop) (window : Option WindowId) (region : Rect)
    (waveform : Option Waveform) (marker : Marker) :
    Runs d (d.repaintAndWait window region waveform marker) := by
  have hwait : ∀ {e : Desktop} (marker : Marker), Runs d e →
      Runs d (((e.addWait window marker .proceed).enqueue
        ⟨window,region,waveform,marker,none⟩).standStill (e.ledger.resolvesAtOnce window marker)
          "Synchronous repaint was not resolved in time") := fun marker he =>
    Runs.standStill ((he.take (s := .act (.addWait window marker .proceed)) rfl).take
      (s := .act (.enqueue ⟨window,region,waveform,marker,none⟩)) rfl) ..
  unfold repaintAndWait
  split
  · exact .refl d
  rename_i r hr
  split
  · exact (Runs.refl d).take (s := .act (.dirty window region waveform marker)) rfl
  dsimp only
  split
  · have hc : Runs d (d.beat .count) := (Runs.refl d).beat rfl
    simp only [Desktop.beat, hr, Option.map_some] at hc
    exact hwait _ hc
  · exact hwait _ (.refl d)

theorem runs (d : Desktop) {s : Step} (h : s.isEnd = false) : Runs d (d.take s) := by
  cases hb : s.isBrief with
  | true => exact (Runs.refl d).take hb
  | false =>
    cases hs : s.single with
    | false => exact (parted d hs).runs
    | true =>
      cases s with
      | act a =>
        cases a with
        | runPending => exact (Runs.refl d).runPending
        | waitForLast => exact runs_waitForLastUpdate ..
        | dirtyAndWait => exact runs_repaintAndWait ..
        | start =>
          exact (((Runs.refl d).beat (b := .attend) rfl).take (s := .act .clearScreen) rfl).settle
        | halt | shutDown => cases h
        | message id m =>
          cases m with
          | close => cases hs
          | _ => cases hb
        | service | supervise => cases hs
        | _ => cases hb
      | _ => cases hb

end Desktop

end InkCompositor
