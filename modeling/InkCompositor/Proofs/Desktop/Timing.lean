import Mathlib
import InkCompositor.Proofs.Desktop.Exchanges

/-!
# Deadlines that can be expressed

Whoever waits gets a deadline, and a deadline that cannot be expressed ends the
program. No deadline is further off than the longest span from the latest time
that anyone knows of.
-/

set_option autoImplicit false

namespace InkCompositor

inductive Desktop.Arranged (p : Dealing → Prop) (d : Desktop) : Agenda → Prop where
  | same : Arranged p d d.agenda
  | book (ledger : Ledger Callback) : d.ledger.Kept p ledger →
      Arranged p d { d.agenda with ledger }
  | reckon (t : Time) : d.Due t ∨ (∃ now, p (.asked now) ∧ t = now+d.timings.pingInterval) →
      Arranged p d (d.reckon t).agenda
  | pass (time : Time) : p .pass → Arranged p d { d.agenda with now := d.now+time }
  | queue (q : Repaint) : Dealing.Marks p q.marker →
      Arranged p d { d.agenda with queue := d.queue ++ [q] }
  | serve {q : Repaint} {rest : List Repaint} : d.queue = q :: rest →
      Arranged p d { d.agenda with queue := rest }
  | count (internal : Option Marker) : p .count ∨ internal = none →
      Arranged p d { d.agenda with internal }

namespace Agenda

/-- The spans that deadlines are computed with. -/
def spans (a : Agenda) : List Time :=
  [a.ledger.waitTimeout,a.ledger.recordLifetime,a.timings.pingInterval,a.timings.pingDeadline]

/-- The program runs, and it can add each of these spans to every time until `last`. -/
structure InTime (last : Time) (a : Agenda) : Prop where
  running : a.panicked = false
  now : a.now ≤ last
  spans : ∀ span ∈ a.spans, last+span < a.system.horizon

theorem InTime.lt_of_le {a : Agenda} {last t span : Time} (h : a.InTime last) (ht : t ≤ last)
    (hs : span ∈ a.spans) : t+span < a.system.horizon :=
  (Nat.add_le_add_right ht span).trans_lt (h.spans span hs)

end Agenda

namespace Window

variable {p : Dealing → Prop} {w v : Window} {t : Time}

theorem liveness_setPipe (w : Window) (c : Channel) (kind : ChannelKind) :
    (w.setPipe c kind).liveness = w.liveness := by cases kind <;> rfl

theorem liveness_tell (w : Window) (ms : List Wire.Message) :
    (w.tell ms).liveness = w.liveness := by
  induction ms generalizing w with
  | nil => rfl
  | cons m ms ih => exact (ih _).trans (liveness_setPipe ..)

theorem liveness_relayered (w : Window) (state : WindowState) :
    (w.relayered state).liveness = w.liveness := by
  rw [relayered]
  split
  · rfl
  · exact liveness_setPipe ..

theorem Exchange.awaiting (h : w.Exchange p v) (ht : v.liveness.awaitingSince = some t) :
    w.liveness.awaitingSince = some t ∨ p (.asked t) := by
  have hsame (hl : v.liveness = w.liveness) : w.liveness.awaitingSince = some t ∨ p (.asked t) :=
    .inl (hl ▸ ht)
  cases h with
  | rest hr => exact hsame hr.liveness
  | pulse f _ hf => exact hf w.liveness t ht
  | post => exact hsame (liveness_setPipe ..)
  | announce => exact hsame (liveness_tell ..)
  | forward => exact hsame (liveness_setPipe ..)
  | hangUp => exact hsame (liveness_setPipe ..)
  | relocate => exact hsame (liveness_tell ..)
  | refurnish => exact hsame (liveness_tell ..)
  | relayer => exact hsame (liveness_relayered ..)

theorem Opened.not_awaiting (h : v.Opened) : v.liveness.awaitingSince = none := by
  obtain ⟨w,geometry,image,hb,rfl⟩ := h
  rw [refurnished, liveness_tell]
  exact hb.liveness

end Window

namespace Desktop

variable {s : Scope} {p : Dealing → Prop} {d e : Desktop} {last t : Time}

theorem Deed.arranged (h : Deed s p d e) : Arranged p d e.agenda := by
  cases h with
  | note | tend | pulse | shift => exact .same
  | aside ha => exact ha.agenda ▸ .same
  | book ledger hl => exact .book ledger hl
  | reckon t ht => exact .reckon t ht
  | pass time hp => exact .pass time hp
  | post => exact agenda_send d .. ▸ .same
  | announce => exact agenda_announceImage d _ ▸ .same
  | forward => exact agenda_forwardTouch d .. ▸ .same
  | hangUp => exact agenda_closePipe d .. ▸ .same
  | relocate => exact agenda_relocate d .. ▸ .same
  | refurnish => exact agenda_refurnish d .. ▸ .same
  | relayer => exact agenda_relayer d .. ▸ .same
  | install r owner isSystem format geometry =>
    rw [agenda_installed]
    exact .reckon _ (.inl .ping)
  | relist registry _ _ hi =>
    cases registry with
    | none => exact .count none (.inr rfl)
    | some r' =>
      rcases hi r' rfl with hc | ⟨r,hr,hn⟩
      · exact .count _ (.inl hc)
      · exact agenda_setRegistry (e := d) rfl hr hn ▸ .same
  | sort => exact agenda_sortWindows d ▸ .same
  | release => exact agenda_release d _ ▸ .same
  | queue q hm => exact .queue q hm
  | serve hq => exact .serve hq

theorem Deed.now_le (h : Deed s p d e) : d.now ≤ e.now := by
  have hle : ∀ a, Arranged p d a → d.now ≤ a.now := by
    intro a ha
    cases ha with
    | pass time => exact Nat.le_add_right _ _
    | _ => exact le_rfl
  exact hle _ h.arranged

def Awaits (last : Time) (d : Desktop) : Prop :=
  ∀ w ∈ d.windows, ∀ t, w.liveness.awaitingSince = some t → t ≤ last

theorem Awaits.of_map (h : d.Awaits last) {g : Window → Window}
    (hg : ∀ w, (g w).liveness = w.liveness) (hw : e.windows = d.windows.map g) :
    e.Awaits last := by
  intro v hv t ht
  rw [hw] at hv
  obtain ⟨w,hm,rfl⟩ := List.mem_map.1 hv
  exact h w hm t (hg w ▸ ht)

theorem Awaits.deed (ha : d.Awaits last) (h : Deed s p d e) (hd : d.Distinct)
    (hp : ∀ t, p (.asked t) → t ≤ last) : e.Awaits last := by
  intro v hv t ht
  rcases (h.exchanged hd).here v hv with ⟨w,hw,hx⟩ | ⟨hopen,-⟩
  · exact (hx.awaiting ht).elim (ha w hw t) (hp t)
  · rw [hopen.not_awaiting] at ht
    cases ht

/-- The program runs, and every deadline can be expressed that is computed until `last`. -/
structure InTime (last : Time) (d : Desktop) : Prop where
  agenda : d.agenda.InTime last
  awaits : d.Awaits last

theorem InTime.due (h : d.InTime last) (ht : d.Due t) : t < d.system.horizon := by
  cases ht with
  | wait => exact h.agenda.lt_of_le h.agenda.now (by simp [Agenda.spans, Desktop.agenda])
  | keep => exact h.agenda.lt_of_le h.agenda.now (by simp [Agenda.spans, Desktop.agenda])
  | ping => exact h.agenda.lt_of_le h.agenda.now (by simp [Agenda.spans, Desktop.agenda])
  | answer hw hs =>
    exact h.agenda.lt_of_le (h.awaits _ hw _ hs) (by simp [Agenda.spans, Desktop.agenda])

theorem InTime.arranged (h : d.InTime last) {a : Agenda} (ha : Arranged p d a)
    (hp : ∀ t, p (.asked t) → t ≤ last) (hpass : ¬ p .pass) : a.InTime last := by
  obtain ⟨hrun,hnow,hspans⟩ := h.agenda
  cases ha with
  | same | queue | serve | count => exact ⟨hrun,hnow,hspans⟩
  | book ledger hl =>
    refine ⟨hrun,hnow,fun span hs => hspans span ?_⟩
    simpa [Agenda.spans, Desktop.agenda, hl.waitTimeout, hl.recordLifetime] using hs
  | reckon t ht =>
    have hlt : t < d.system.horizon := by
      rcases ht with ht | ⟨now,hn,rfl⟩
      · exact h.due ht
      · exact h.agenda.lt_of_le (hp now hn) (by simp [Agenda.spans, Desktop.agenda])
    have hr : d.panicked = false := hrun
    exact ⟨by simp [Desktop.agenda, reckon, hr, hlt],hnow,hspans⟩
  | pass time hpa => exact absurd hpa hpass

theorem InTime.deed (hi : d.InTime last) (h : Deed s p d e) (hd : d.Distinct)
    (hp : ∀ t, p (.asked t) → t ≤ last) (hpass : ¬ p .pass) : e.InTime last :=
  ⟨hi.arranged h.arranged hp hpass,hi.awaits.deed h hd hp⟩

def serving (id : WindowId) (now : Time) : Dealing → Prop
  | .ping j => j = id
  | .asked t => t = now
  | .mark _ => True
  | _ => False

theorem InTime.serviceWindow (h : d.InTime last) (hd : d.Distinct) (id : WindowId) {now : Time}
    (hn : now ≤ last) : (d.serviceWindow id now).InTime last := by
  have hdeeds : Deeds .everything (serving id now) d (d.serviceWindow id now) :=
    deeds_serviceWindow (p := serving id now) .refl trivial trivial rfl rfl fun _ => .inr trivial
  refine (hdeeds.keeps (P := fun d => d.Distinct ∧ d.InTime last) (fun he hi => ?_) ⟨hd,h⟩).2
  exact ⟨he.edits.keeps Edit.distinct hi.1,hi.2.deed he hi.1 (fun _ ht => ht.trans_le hn) nofun⟩

def askedUntil (last : Time) : Dealing → Prop
  | .asked t => t ≤ last
  | _ => True

theorem awaits_perform (hs : d.look.Sound) (hd : d.Distinct) (a : Action)
    (h : d.Awaits d.now) : (d.perform a).Awaits (d.perform a).now := by
  let P : Desktop → Prop := fun e => e.Distinct ∧ d.now ≤ e.now ∧ e.Awaits e.now
  have hdeals : a.Deals d (askedUntil d.now) := by
    refine ⟨fun _ _ => trivial,fun _ _ => trivial,fun _ => le_rfl,fun _ _ => .inr trivial,
      fun _ _ => .inr trivial,fun _ => ⟨trivial,fun _ _ => .inr trivial⟩,fun _ _ => trivial⟩
  refine (perform_keeps_deeds (P := P) a (fun {e f} he hp => ?_) (fun q _ hp => ?_)
    (fun {e} id kind f _ hp => ?_) (fun {e} id bytes hp => ?_) hdeals hs ⟨hd,le_rfl,h⟩).2.2
  · have hle := he.now_le
    refine ⟨he.edits.keeps Edit.distinct hp.1,hp.2.1.trans hle,?_⟩
    have hawaits : e.Awaits f.now := fun w hw t ht => (hp.2.2 w hw t ht).trans hle
    exact hawaits.deed he hp.1 fun t ht => ht.trans (hp.2.1.trans hle)
  · exact ⟨⟨hp.1.nodup,hp.1.lt⟩,hp.2⟩
  · refine ⟨hp.1.atPipe id kind f,?_⟩
    rw [hp.1.atPipe_eq]
    refine ⟨hp.2.1,hp.2.2.of_map (fun w => ?_) rfl⟩
    split
    · exact Window.liveness_setPipe ..
    · rfl
  · refine ⟨hp.1.scribble id bytes,hp.2.1,hp.2.2.of_map (g := fun w => if w.id = id then
      { w with image := w.image.map fun r => r.overwrite (bytes r) } else w) (fun w => ?_) rfl⟩
    split <;> rfl

theorem Reachable.awaits (h : Reachable d) : d.Awaits d.now := by
  induction h with
  | fresh => exact fun w hw => by cases hw
  | act a h ih => exact awaits_perform h.sound h.distinct a ih

theorem running?_eq_some_iff : d.running? = some e ↔ d.panicked = false ∧ d = e := by
  cases h : d.panicked <;> simp [running?, h]

/-- As long as the deadlines can be expressed, servicing a window does not end in a panic. -/
theorem serviceWindow?_of_inTime (h : Reachable d) (hrun : d.panicked = false) (id : WindowId)
    {now : Time} (hspans : ∀ span ∈ d.agenda.spans, max d.now now+span < d.system.horizon) :
    d.serviceWindow? id now = some (d.serviceWindow id now) := by
  have hin : d.InTime (max d.now now) :=
    ⟨⟨hrun,le_max_left ..,hspans⟩,fun w hw t ht => (h.awaits w hw t ht).trans (le_max_left ..)⟩
  have hserviced := hin.serviceWindow h.distinct id (le_max_right ..)
  exact running?_eq_some_iff.2 ⟨hserviced.agenda.running,rfl⟩

end Desktop

end InkCompositor
