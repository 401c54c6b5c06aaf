import Mathlib
import InkCompositor.Proofs.Desktop.Timing

/-!
# Internal markers are new

Markers of clients have 32 bits. A repaint whose caller stands still gets a
marker above all of those, and above all internal ones that were given out
before. As long as all other callers keep to the markers that clients have, no
record and no queued repaint is under one that is yet to be given out.
-/

set_option autoImplicit false

namespace InkCompositor

/-- Repaints are asked for under the markers that clients can send. -/
def Action.Modest (a : Action) : Prop := ∀ marker, a.marks marker → marker.toNat < 4294967296

/-- Nothing is recorded or queued under `next` or a marker above, and `next` is given out next. -/
structure Agenda.Numbered (next : Marker) (a : Agenda) : Prop where
  internal : ∀ marker, a.internal = some marker → marker = next
  recorded : ∀ r ∈ a.ledger.records, r.marker.toNat < next.toNat
  queued : ∀ q ∈ a.queue, q.marker.toNat < next.toNat

def Dealing.unnumbered (next : Marker) : Dealing → Prop
  | mark marker => marker.toNat < next.toNat
  | count => False
  | _ => True

namespace Desktop

variable {s : Scope} {d e : Desktop} {next marker : Marker}

theorem lt_of_marks (hpos : 0 < next.toNat) (h : Dealing.Marks (Dealing.unnumbered next) marker) :
    marker.toNat < next.toNat := by
  rcases h with rfl | h
  · exact hpos
  · exact h

theorem Arranged.numbered {a : Agenda} (ha : Arranged (Dealing.unnumbered next) d a)
    (hpos : 0 < next.toNat) (h : d.agenda.Numbered next) : a.Numbered next := by
  obtain ⟨hi,hr,hq⟩ := h
  cases ha with
  | same | reckon | pass => exact ⟨hi,hr,hq⟩
  | book ledger hl =>
    refine ⟨hi,fun r hm => ?_,hq⟩
    rcases hl.records r hm with ⟨r',hr',he⟩ | hm
    · exact he ▸ hr r' hr'
    · exact lt_of_marks hpos hm
  | queue q hm =>
    refine ⟨hi,hr,fun q' hq' => ?_⟩
    rcases List.mem_append.1 hq' with hq' | hq'
    · exact hq q' hq'
    · exact List.mem_singleton.1 hq' ▸ lt_of_marks hpos hm
  | @serve q rest he =>
    have hsub : rest ⊆ d.queue := he ▸ List.subset_cons_self q rest
    exact ⟨hi,hr,fun q hm => hq q (hsub hm)⟩
  | count internal hc =>
    obtain rfl := hc.resolve_left id
    exact ⟨nofun,hr,hq⟩

theorem Deed.numbered (hpos : 0 < next.toNat) (h : Deed s (Dealing.unnumbered next) d e)
    (hn : d.agenda.Numbered next) : e.agenda.Numbered next := h.arranged.numbered hpos hn

theorem numbered_perform (hs : d.look.Sound) {a : Action} (ha : a.Modest) (hc : ¬ a.counts)
    (hle : 4294967296 ≤ next.toNat) (h : d.agenda.Numbered next) :
    (d.perform a).agenda.Numbered next := by
  have hpos : 0 < next.toNat := Nat.lt_of_lt_of_le (by decide) hle
  have hdeals : a.Deals d (Dealing.unnumbered next) := by
    refine ⟨fun _ _ => trivial,fun _ _ => trivial,fun _ => trivial,fun marker hm => ?_,
      fun q hq => .inr (h.queued q hq),fun h => absurd h hc,fun _ _ => trivial⟩
    exact .inr ((ha marker hm).trans_le hle)
  refine perform_keeps_deeds (P := fun d => d.agenda.Numbered next) a (Deed.numbered hpos)
    (fun {d} q hm h => ?_) (fun {d} id kind f _ h => ?_) (fun id bytes h => h) hdeals hs h
  · exact (Arranged.queue q hm).numbered hpos h
  · have hsame : (d.atPipe id kind f).agenda = d.agenda := by
      unfold atPipe
      split <;> rfl
    rwa [hsame]

theorem toNat_next (hlt : next.toNat+1 < 18446744073709551616) :
    (next+1).toNat = next.toNat+1 := by
  rw [UInt64.toNat_add]
  exact Nat.mod_eq_of_lt hlt

theorem numbered_stand (h : d.agenda.Numbered next) (hm : marker.toNat < next.toNat)
    {window : Option WindowId} (ho : (window.bind d.window?).any (·.state == .closed) ≠ true)
    (region : Rect) (waveform : Option Waveform) (resolved : Bool) (complaint : String) :
    (((d.addWait window marker .proceed).enqueue
      ⟨window,region,waveform,marker,none⟩).standStill resolved complaint).agenda.Numbered next :=
  (deeds_stand (p := Dealing.unnumbered next) .refl (fun q hq => .inr (h.queued q hq)) (.inr hm) ho
    region waveform resolved complaint).keeps (P := fun d => d.agenda.Numbered next)
      (Deed.numbered (Nat.zero_lt_of_lt hm)) h

theorem numbered_repaintAndWait (h : d.agenda.Numbered next)
    (hpos : 0 < next.toNat) (hlt : next.toNat+1 < 18446744073709551616)
    (window : Option WindowId) (region : Rect) (waveform : Option Waveform) :
    (d.repaintAndWait window region waveform 0).agenda.Numbered next ∨
      (d.repaintAndWait window region waveform 0).agenda.Numbered (next+1) := by
  have hnext := toNat_next hlt
  unfold repaintAndWait
  split
  · exact .inl h
  rename_i r hr
  split
  · exact .inl ((deeds_requestRepaint (s := .everything) .refl (fun _ _ => trivial) _ _
      (.inl rfl)).keeps (P := fun d => d.agenda.Numbered next) (Deed.numbered hpos) h)
  rename_i ho
  have hi : r.nextInternal = next := h.internal _ (by simp [agenda, hr])
  have hcounted : ({ d with registry := some { r with nextInternal := r.nextInternal+1 } } :
      Desktop).agenda.Numbered (next+1) := by
    refine ⟨fun marker hm => ?_,fun r hr => ?_,fun q hq => ?_⟩
    · rw [← Option.some.inj hm, hi]
    · exact hnext ▸ Nat.lt_succ_of_lt (h.recorded r hr)
    · exact hnext ▸ Nat.lt_succ_of_lt (h.queued q hq)
  have hmark : r.nextInternal.toNat < (next+1).toNat := by
    rw [hi, hnext]
    exact Nat.lt_succ_self _
  refine .inr ?_
  rw [if_pos rfl]
  exact numbered_stand hcounted hmark ho ..

/-- The states that come about in so many actions of callers that keep to the markers of clients. -/
inductive Modest : Nat → Desktop → Prop where
  | fresh (panel : Panel) (backing : Backing) (timings : Timings) (temperature : Int32)
      (service : Group) (system : System) : panel.raster.id = 0 →
      Modest 0 (fresh panel backing timings temperature service system)
  | act {n : Nat} {d : Desktop} (a : Action) : a.Modest → Modest n d → Modest (n+1) (d.perform a)

namespace Modest

variable {n : Nat}

theorem reachable (h : Modest n d) : Reachable d := by
  induction h with
  | fresh _ _ _ _ _ _ hp => exact .fresh _ _ _ _ _ _ hp
  | act a _ _ ih => exact .act a ih

theorem numbered (h : Modest n d) (hn : n < 18446744069414584320) :
    ∃ next : Marker, 4294967296 ≤ next.toNat ∧ next.toNat ≤ 4294967296+n ∧
      d.agenda.Numbered next := by
  induction h with
  | fresh => exact ⟨4294967296,le_rfl,le_rfl,fun _ h => (Option.some.inj h).symm,nofun,nofun⟩
  | @act n d a ha hm ih =>
    obtain ⟨next,hle,hge,hnum⟩ := ih (Nat.lt_of_succ_lt hn)
    by_cases hc : a.counts
    · have hlt : next.toNat+1 < 18446744073709551616 := by omega
      have hnext := toNat_next hlt
      cases a with
      | dirtyAndWait window area waveform marker =>
        obtain rfl : marker = 0 := hc
        rcases numbered_repaintAndWait hnum (Nat.lt_of_lt_of_le (by decide) hle) hlt window area
          waveform with h | h
        · exact ⟨next,hle,hge.trans (Nat.le_succ _),h⟩
        · exact ⟨next+1,by omega,by omega,h⟩
      | _ => exact absurd hc id
    · exact ⟨next,hle,hge.trans (Nat.le_succ _),
        numbered_perform hm.reachable.sound ha hc hle hnum⟩

end Modest

end Desktop

end InkCompositor
