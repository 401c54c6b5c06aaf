import Mathlib
import InkCompositor.Proofs.Client.Pings
import InkCompositor.Proofs.Desktop.Calm

/-!
# Pings at a window, step by step

Only a check and an answer that is handled concern the pings to a window. Each
of them adds to the history of the window, and what is kept of its pings after
a step is what the history says then.
-/

set_option autoImplicit false

namespace InkCompositor

open Wire

namespace Window

/-- A window after a check. -/
def checkedAt (w : Window) (timings : Timings) (now : Time) : Window :=
  let v := { w with liveness := w.liveness.check timings now }
  if w.liveness.asks now then v.post .event .ping else v

def answered (w : Window) : Window := { w with liveness := w.liveness.answer }

theorem checkedAt_of_asks {w : Window} {now : Time} (h : w.liveness.asks now = true)
    (timings : Timings) : w.checkedAt timings now =
      { w with liveness := w.liveness.check timings now }.post .event .ping := if_pos h

theorem checkedAt_of_not_asks {w : Window} {now : Time} (h : w.liveness.asks now = false)
    (timings : Timings) : w.checkedAt timings now =
      { w with liveness := w.liveness.check timings now } := by
  rw [checkedAt, h]
  rfl

/-- What is kept of a window and the pings to it are those of a history. Once its pipe has been
given up, there may be more pings in the history. -/
structure Pinged (w : Window) (timings : Timings) (opened : Time) (history : List Pulse) :
    Prop where
  reflects : w.liveness.Reflects timings opened history
  pings_le : w.eventPipe.pings ≤ history.countP Pulse.asked
  pings_eq : w.eventPipe.isOpen = true → w.eventPipe.pings = history.countP Pulse.asked

variable {w v : Window} {timings : Timings} {opened : Time} {history : List Pulse}

theorem Pinged.still (h : w.Pinged timings opened history) (hs : w.Still v) :
    v.Pinged timings opened history :=
  ⟨hs.liveness ▸ h.reflects,hs.pings ▸ h.pings_le,
    fun ho => hs.pings.trans (h.pings_eq (hs.isOpen ho))⟩

theorem Pinged.answer (h : w.Pinged timings opened history) :
    w.answered.Pinged timings opened (history ++ [.answered]) := by
  have hcount : (history ++ [Pulse.answered]).countP Pulse.asked = history.countP Pulse.asked := by
    rw [List.countP_append]
    rfl
  exact ⟨h.reflects.answer,hcount.symm ▸ h.pings_le,fun ho => (h.pings_eq ho).trans hcount.symm⟩

theorem Pinged.check (h : w.Pinged timings opened history) (now : Time) :
    (w.checkedAt timings now).Pinged timings opened
      (history ++ [.checked now (w.liveness.asks now)]) := by
  have hl := h.reflects.check now
  cases ha : w.liveness.asks now with
  | false =>
    have hcount : (history ++ [Pulse.checked now false]).countP Pulse.asked =
        history.countP Pulse.asked := by
      rw [List.countP_append]
      rfl
    rw [checkedAt_of_not_asks ha]
    exact ⟨ha ▸ hl,hcount.symm ▸ h.pings_le,fun ho => (h.pings_eq ho).trans hcount.symm⟩
  | true =>
    have hcount : (history ++ [Pulse.checked now true]).countP Pulse.asked =
        history.countP Pulse.asked+1 := by
      rw [List.countP_append]
      rfl
    have hpings := w.eventPipe.pings_send_ping
    rw [checkedAt_of_asks ha]
    refine ⟨ha ▸ hl,?_,fun ho => ?_⟩
    · change (w.eventPipe.send .ping).1.pings ≤ _
      have hle := h.pings_le
      rw [hpings, hcount]
      split <;> omega
    · change (w.eventPipe.send .ping).1.pings = _
      have hopen : w.eventPipe.isOpen = true := Channel.isOpen_of_sendWith ho
      rw [hpings, if_pos hopen, h.pings_eq hopen, hcount]

end Window

namespace Desktop

variable {d e : Desktop} {id : WindowId}

theorem send_modify (hd : d.Distinct) (id : WindowId) {f : Window → Window}
    (hf : ∀ w, (f w).id = w.id) (kind : ChannelKind) (m : Message) :
    ∃ trace, (d.modify id f).send id kind m = { d with
      windows := d.windows.map fun w => if w.id = id then (f w).post kind m else w
      trace } := by
  obtain ⟨trace,he⟩ := usePipe_eq ((acts_modify hf).distinct hd) id kind (·.send m)
  exact ⟨trace,he.trans (congrArg (fun windows => { d with windows, trace })
    (map_map_window hf d.windows))⟩

/-- Whether a check computes a deadline that cannot be expressed. -/
def overruns (d : Desktop) (id : WindowId) (now : Time) : Bool :=
  ((d.window? id).bind (·.liveness.reckoned? d.timings now)).any
    fun t => decide (d.system.horizon ≤ t)

theorem overruns_eq {w : Window} (hw : d.window? id = some w) {t? : Option Time} {now : Time}
    (ht : w.liveness.reckoned? d.timings now = t?) :
    d.overruns id now = t?.any fun t => decide (d.system.horizon ≤ t) := by
  rw [overruns, hw, Option.bind_some, ht]

section

variable {w : Window} {now : Time} (hd : d.Distinct) (hw : d.window? id = some w)
include hd hw

theorem checkLiveness_of_awaiting {since : Time} (hl : w.liveness.awaitingSince = some since) :
    ∃ trace, d.checkLiveness id now = { d with
      windows := d.windows.map fun w => if w.id = id then w.checkedAt d.timings now else w
      trace
      panicked := d.panicked || d.overruns id now } := by
  have ha : w.liveness.asks now = false := by simp [Liveness.asks, hl]
  have ho : w.liveness.overdue d.timings now = decide (since+d.timings.pingDeadline ≤ now) := by
    simp [Liveness.overdue, hl]
  have hsame : w.liveness.unresponsive = true ∨ ¬ since+d.timings.pingDeadline ≤ now →
      (d.windows.map fun w => if w.id = id then w.checkedAt d.timings now else w) =
        d.windows := by
    intro hnone
    refine map_window_self hd hw ?_
    rw [Window.checkedAt_of_not_asks ha, Liveness.check_eq_self ha (by simpa [ho] using hnone)]
  rw [checkLiveness, hw]
  dsimp only
  rw [hl]
  dsimp only
  split
  · rename_i hgone
    rw [hsame (.inl hgone), overruns_eq hw (by simp [Liveness.reckoned?, hl, hgone] : _ = none),
      Option.any_none, Bool.or_false]
    exact ⟨d.trace,rfl⟩
  rename_i hresponsive
  rw [overruns_eq hw (by simp [Liveness.reckoned?, hl, hresponsive] :
    _ = some (since+d.timings.pingDeadline))]
  split
  · rename_i hlate
    rw [map_window_congr hd hw (g := fun w =>
      { w with liveness := { w.liveness with unresponsive := true } })]
    · exact ⟨_,rfl⟩
    · rw [Window.checkedAt_of_not_asks ha,
        Liveness.check_of_overdue ha (by simpa [ho] using hlate)]
  · rename_i hlate
    rw [hsame (.inr hlate)]
    exact ⟨_,rfl⟩

theorem checkLiveness_of_not_awaiting (hl : w.liveness.awaitingSince = none) :
    ∃ trace, d.checkLiveness id now = { d with
      windows := d.windows.map fun w => if w.id = id then w.checkedAt d.timings now else w
      trace
      panicked := d.panicked || d.overruns id now } := by
  rw [checkLiveness, hw]
  dsimp only
  rw [hl]
  dsimp only
  split
  · rename_i hdue
    have ha : w.liveness.asks now = true := Liveness.asks_eq_true_iff.2 ⟨hl,hdue⟩
    obtain ⟨trace,he⟩ := send_modify (d := d.reckon (now+d.timings.pingInterval))
      ⟨hd.nodup,hd.lt⟩ id (f := fun w => { w with liveness :=
        { w.liveness with awaitingSince := some now, nextPing := now+d.timings.pingInterval } })
      (fun _ => rfl) .event .ping
    rw [he, overruns_eq hw (by simp [Liveness.reckoned?, hl, hdue] :
      _ = some (now+d.timings.pingInterval)), map_window_congr hd hw
        (g := fun w => ({ w with liveness := { w.liveness with
      awaitingSince := some now, nextPing := now+d.timings.pingInterval } } : Window).post .event
        .ping)]
    · exact ⟨trace,rfl⟩
    · rw [Window.checkedAt_of_asks ha, Liveness.check_of_asks ha]
  · rename_i hdue
    have ha : w.liveness.asks now = false := by simp [Liveness.asks, hdue]
    rw [map_window_self hd hw, overruns_eq hw (by simp [Liveness.reckoned?, hl, hdue] : _ = none),
      Option.any_none, Bool.or_false]
    · exact ⟨_,rfl⟩
    · rw [Window.checkedAt_of_not_asks ha,
        Liveness.check_eq_self ha (.inr (by simp [Liveness.overdue, hl]))]

end

theorem checkLiveness_eq (hd : d.Distinct) (id : WindowId) (now : Time) :
    ∃ trace, d.checkLiveness id now = { d with
      windows := d.windows.map fun w => if w.id = id then w.checkedAt d.timings now else w
      trace
      panicked := d.panicked || d.overruns id now } := by
  cases hw : d.window? id with
  | none =>
    refine ⟨d.trace,?_⟩
    rw [checkLiveness, hw, map_window_none hw, overruns, hw, Option.bind_none, Option.any_none,
      Bool.or_false]
  | some w =>
    cases hl : w.liveness.awaitingSince with
    | none => exact checkLiveness_of_not_awaiting hd hw hl
    | some since => exact checkLiveness_of_awaiting hd hw hl

theorem pong_eq (d : Desktop) (id : WindowId) : ∃ trace, d.pong id = { d with
    windows := d.windows.map fun w => if w.id = id then w.answered else w
    trace } := by
  unfold pong
  split
  · rename_i hn
    exact ⟨d.trace,by rw [map_window_none hn]⟩
  · dsimp only
    split
    · exact ⟨_,rfl⟩
    · exact ⟨_,rfl⟩

def pulse? (d : Desktop) (id : WindowId) : Step → Option Pulse
  | .act (.message j .ping) => if j = id then some .answered else none
  | .check j now =>
    if j = id then some (.checked now ((d.window? id).any (·.liveness.asks now))) else none
  | _ => none

def pulses (d : Desktop) (id : WindowId) : List Step → List Pulse
  | [] => []
  | s :: steps => (d.pulse? id s).toList ++ (d.take s).pulses id steps

theorem pulse?_eq_none (d : Desktop) {s : Step} (h : ¬ s.pings id) : d.pulse? id s = none := by
  unfold pulse?
  split
  · exact if_neg fun hj => h ⟨rfl,hj⟩
  · exact if_neg h
  · rfl

/-- A desktop on which a window has been opened, and what has become of it since. -/
structure Watched (id : WindowId) (timings : Timings) (opened : Time) (history : List Pulse)
    (d : Desktop) : Prop where
  known : id < d.nextWindow
  lasting : d.timings = timings
  paced : Paced timings opened history
  pinged : ∀ w ∈ d.windows, w.id = id → w.Pinged timings opened history

variable {timings : Timings} {opened : Time} {history : List Pulse}

theorem Watched.calm (h : d.Watched id timings opened history) (hc : Calm id d e)
    (ht : e.timings = d.timings) : e.Watched id timings opened history := by
  refine ⟨h.known.trans_le hc.nextWindow,ht.trans h.lasting,h.paced,fun v hv hid => ?_⟩
  obtain ⟨w,hw,hs⟩ := hc.here h.known v hv hid
  exact (h.pinged w hw (hs.id.symm.trans hid)).still hs

theorem Watched.answer (h : d.Watched id timings opened history) :
    (d.handleMessage id .ping).Watched id timings opened (history ++ [.answered]) := by
  have hp : Paced timings opened (history ++ [.answered]) :=
    h.paced.concat (y := .answered) fun now hn => by cases hn
  unfold handleMessage
  split
  · rename_i hn
    refine ⟨h.known,h.lasting,hp,fun w hw hid => ?_⟩
    exact absurd hid (by simpa using List.find?_eq_none.1 hn w hw)
  · obtain ⟨trace,he⟩ := pong_eq d id
    dsimp only
    rw [he]
    refine ⟨h.known,h.lasting,hp,fun v hv hid => ?_⟩
    obtain ⟨w,hw,rfl⟩ := List.mem_map.1 hv
    split
    · exact (h.pinged w hw ‹_›).answer
    · rename_i hne
      rw [if_neg hne] at hid
      exact absurd hid hne

theorem Watched.check (h : d.Watched id timings opened history) (hd : d.Distinct) (now : Time) :
    (d.checkLiveness id now).Watched id timings opened
      (history ++ [.checked now ((d.window? id).any (·.liveness.asks now))]) := by
  obtain ⟨trace,he⟩ := checkLiveness_eq hd id now
  rw [he]
  refine ⟨h.known,h.lasting,?_,fun v hv hid => ?_⟩
  · cases hw : d.window? id with
    | none => exact h.paced.concat (y := .checked now false) fun t ht => by cases ht
    | some w =>
      have hl := (h.pinged w (mem_of_window? hw) (id_of_window? d hw)).reflects
      exact h.paced.check hl now
  · obtain ⟨w,hw,rfl⟩ := List.mem_map.1 hv
    split
    · rename_i hwid
      subst hwid
      rw [hd.window? hw, h.lasting]
      exact (h.pinged w hw rfl).check now
    · rename_i hne
      rw [if_neg hne] at hid
      exact absurd hid hne

theorem Watched.take (h : d.Watched id timings opened history) (ho : Occurs d) {s : Step}
    (hs : s.Honest) (hn : s ≠ .act .service) :
    (d.take s).Watched id timings opened (history ++ (d.pulse? id s).toList) := by
  by_cases hp : s.pings id
  · cases s with
    | act a =>
      cases a with
      | service => exact absurd rfl hn
      | message j m =>
        obtain ⟨rfl,rfl⟩ := hp
        rw [pulse?, if_pos rfl]
        exact h.answer
      | _ => exact hp.elim
    | check j now =>
      obtain rfl : j = id := hp
      rw [pulse?, if_pos rfl]
      exact h.check ho.distinct now
    | _ => exact hp.elim
  · rw [pulse?_eq_none d hp, Option.toList_none, List.append_nil]
    exact h.calm (calm_take ho hs hp) (timings_take ho s)

theorem Watched.run (h : d.Watched id timings opened history) (ho : Occurs d) {steps : List Step}
    (hs : ∀ s ∈ steps, s.Honest ∧ s ≠ .act .service) :
    (steps.foldl Desktop.take d).Watched id timings opened (history ++ d.pulses id steps) := by
  induction steps generalizing d history with
  | nil => simpa [pulses] using h
  | cons s steps ih =>
    obtain ⟨hh,hn⟩ := hs s List.mem_cons_self
    rw [List.foldl_cons, pulses, ← List.append_assoc]
    exact ih (h.take ho hh hn) (ho.step s) fun t ht => hs t (List.mem_cons_of_mem s ht)

end Desktop

end InkCompositor
