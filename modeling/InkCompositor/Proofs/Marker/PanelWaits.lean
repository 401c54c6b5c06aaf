import Mathlib
import InkCompositor.Desktop.Completion
import InkCompositor.Proofs.Marker.Runs

/-!
# Waiting for the panel

For each record the panel is waited for at most once, in a tick that finds a
wait for it in time. Whoever waits for an update that the panel may still be
busy with is called back behind that.
-/

set_option autoImplicit false

namespace InkCompositor.Ledger

variable {κ : Type}

def Act.awaited? : Act κ → Option UInt32
  | .awaited hardwareMarker => some hardwareMarker
  | .calledBack _ => none

theorem awaited_acts (t : Tick κ) :
    t.acts.filterMap Act.awaited? = t.hardware.map (·.1) := by
  rw [Tick.acts, List.filterMap_append]
  have hr : (t.ready.map Act.calledBack).filterMap Act.awaited? = [] := by
    induction t.ready with
    | nil => rfl
    | cons c rest ih => exact ih
  rw [hr, List.append_nil]
  induction t.hardware with
  | nil => rfl
  | cons p rest ih =>
    rw [List.flatMap_cons, List.filterMap_append, ih]
    rfl

def Call.repaint? : Call κ → Option (Option WindowId × Marker)
  | .record window marker _ _ => some (window,marker)
  | _ => none

/-- The waits on whose behalf the panel is waited for in a call. -/
def Session.leaders (s : Session κ) : Call κ → List (Wait κ)
  | .tick => Ledger.leaders s.now s.ledger.records s.ledger.pending
  | _ => []

theorem latest?_next (s : Session κ) (call : Call κ) {window : Option WindowId} {marker : Marker}
    {r : Record}
    (hs : s.ledger.records.Pairwise fun a b => a.cleanupDeadline ≤ b.cleanupDeadline)
    (h : latest? (s.next call).ledger.records window marker = some r) :
    (∃ waited, call = .record window marker r.hardwareMarker waited ∧ r.waited = waited ∧
      r.resolveDeadline = s.now+s.ledger.waitTimeout) ∨
    (call.repaint? ≠ some (window,marker) ∧
      ∃ r₀, latest? s.ledger.records window marker = some r₀ ∧
        (((∃ l ∈ s.leaders call, l.key = (window,marker)) ∧ r = r₀.awaited) ∨
          ((∀ l ∈ s.leaders call, l.key ≠ (window,marker)) ∧ r = r₀))) := by
  cases call with
  | record window' marker' hardwareMarker waited =>
    simp only [Session.next, record] at h
    rw [latest?_concat] at h
    split at h
    · rename_i hr
      obtain ⟨rfl,rfl⟩ := Record.isFor_iff.1 hr
      cases h
      exact .inl ⟨waited,rfl,rfl,rfl⟩
    · rename_i hr
      refine .inr ⟨?_,r,h,.inr ⟨by simp [Session.leaders],rfl⟩⟩
      intro he
      obtain ⟨rfl,rfl⟩ := Prod.mk.inj (Option.some.inj he)
      exact hr (Record.isFor_iff.2 ⟨rfl,rfl⟩)
  | tick =>
    refine .inr ⟨by simp [Call.repaint?],?_⟩
    have hp : (sift s.now s.ledger.records s.ledger.pending).records.Pairwise
        fun a b => a.cleanupDeadline ≤ b.cleanupDeadline := by
      have hm := map_records_sift s.now s.ledger.records s.ledger.pending
        Record.cleanupDeadline fun _ => rfl
      rw [← List.pairwise_map (R := (· ≤ ·)), hm, List.pairwise_map]
      exact hs
    have hl : latest? (sift s.now s.ledger.records s.ledger.pending).records window marker =
        some r := by
      rw [Session.next, tick, latest?_filter hp] at h
      exact (Option.filter_eq_some_iff.1 h).1
    rcases latest?_sift s.now s.ledger.records s.ledger.pending window marker with
      ⟨hlead,he⟩ | ⟨hlead,he⟩
    · rw [he] at hl
      obtain ⟨r₀,hr₀,rfl⟩ := Option.map_eq_some_iff.1 hl
      exact ⟨r₀,hr₀,.inl ⟨hlead,rfl⟩⟩
    · exact ⟨r,he ▸ hl,.inr ⟨hlead,rfl⟩⟩
  | addWait window' marker' c =>
    refine .inr ⟨by simp [Call.repaint?],r,?_,.inr ⟨by simp [Session.leaders],rfl⟩⟩
    simp only [Session.next, addWait] at h
    split at h <;> exact h
  | advance | shutDown =>
    exact .inr ⟨by simp [Call.repaint?],r,h,.inr ⟨by simp [Session.leaders],rfl⟩⟩

namespace Run

variable (R : Run κ)

def lastRecord? (window : Option WindowId) (marker : Marker) : Nat → Option Nat
  | 0 => none
  | j + 1 =>
    if (R.call j).repaint? = some (window,marker) then some j
    else lastRecord? window marker j

/-- The mark of the update that call number `i` records. -/
def hardwareMarker (i : Nat) : UInt32 :=
  match R.call i with
  | .record _ _ hardwareMarker _ => hardwareMarker
  | _ => 0

def leaders (j : Nat) : List (Wait κ) := (R.before j).leaders (R.call j)

/-- The calls for whose records the panel is waited for in call number `j`. -/
def answered (j : Nat) : List Nat :=
  (R.leaders j).filterMap fun w => R.lastRecord? w.window w.marker j

/-- The record `r` is held for the repaint and was brought by call number `i`. It is marked if it
came so, or else once the panel was waited for on its account. -/
structure BroughtBy (j : Nat) (window : Option WindowId) (marker : Marker) (r : Record)
    (i : Nat) : Prop where
  last : R.lastRecord? window marker j = some i
  call : ∃ waited, R.call i = .record window marker r.hardwareMarker waited ∧
    (r.waited = true ↔ waited = true ∨ ∃ k < j, i ∈ R.answered k)
  resolveDeadline : r.resolveDeadline = R.clock i+R.waitTimeout

variable {R} {i j : Nat} {window : Option WindowId} {marker : Marker}

theorem lastRecord?_spec (h : R.lastRecord? window marker j = some i) :
    i < j ∧ (R.call i).repaint? = some (window,marker) := by
  induction j with
  | zero => cases h
  | succ j ih =>
    rw [lastRecord?] at h
    split at h
    · rename_i hc
      cases h
      exact ⟨Nat.lt_succ_self _,hc⟩
    · exact ⟨Nat.lt_succ_of_lt (ih h).1,(ih h).2⟩

theorem exists_leader_of_mem_answered (h : i ∈ R.answered j) :
    ∃ l ∈ R.leaders j, R.lastRecord? l.window l.marker j = some i :=
  List.mem_filterMap.1 h

theorem lt_of_mem_answered (h : i ∈ R.answered j) : i < j := by
  obtain ⟨l,-,hl⟩ := exists_leader_of_mem_answered h
  exact (lastRecord?_spec hl).1

theorem exists_broughtBy {r : Record} (h : latest? (R.records j) window marker = some r) :
    ∃ i, R.BroughtBy j window marker r i := by
  induction j generalizing r with
  | zero => cases h
  | succ j ih =>
    rcases latest?_next _ _ (R.records_pairwise j) h with
      ⟨waited,hc,hw,hd⟩ | ⟨hc,r₀,hr₀,hr⟩
    -- a record that has just come has not been waited for
    · rw [waitTimeout_before] at hd
      refine ⟨j,if_pos (by rw [hc]; rfl),⟨waited,hc,?_⟩,hd⟩
      rw [hw]
      refine ⟨.inl,?_⟩
      rintro (hw | ⟨k,hk,hj⟩)
      · exact hw
      · exact absurd (lt_of_mem_answered hj) (by omega)
    · obtain ⟨i,hlast,⟨waited,hi,hm⟩,hd⟩ := ih hr₀
      have hlast' : R.lastRecord? window marker (j+1) = some i := (if_neg hc).trans hlast
      rcases hr with ⟨⟨l,hl,hk⟩,rfl⟩ | ⟨hl,rfl⟩
      · obtain ⟨rfl,rfl⟩ := Prod.mk.inj hk
        refine ⟨i,hlast',⟨waited,hi,fun _ => .inr ?_,fun _ => rfl⟩,hd⟩
        exact ⟨j,Nat.lt_succ_self j,List.mem_filterMap.2 ⟨l,hl,hlast⟩⟩
      · refine ⟨i,hlast',⟨waited,hi,hm.trans (or_congr_right ?_)⟩,hd⟩
        constructor
        · rintro ⟨k,hk,hik⟩
          exact ⟨k,Nat.lt_succ_of_lt hk,hik⟩
        · rintro ⟨k,hk,hik⟩
          rcases Nat.lt_succ_iff_lt_or_eq.1 hk with hk | rfl
          · exact ⟨k,hk,hik⟩
          -- nobody waits for the panel on account of this record
          · obtain ⟨l,hl',hli⟩ := exists_leader_of_mem_answered hik
            have hkey := (lastRecord?_spec hli).2
            rw [(lastRecord?_spec hlast).2, Option.some.injEq] at hkey
            exact absurd hkey.symm (hl l hl')

theorem leader_spec {l : Wait κ} (hl : l ∈ R.leaders j) :
    R.call j = .tick ∧ l ∈ R.pending j ∧ R.clock j < l.deadline ∧
      ∃ r i, latest? (R.records j) l.window l.marker = some r ∧
        R.BroughtBy j l.window l.marker r i ∧ r.hardwareMarker ≠ 0 ∧ r.waited = false ∧
        R.clock j < r.resolveDeadline := by
  rw [leaders] at hl
  cases hc : R.call j with
  | tick =>
    rw [hc] at hl
    obtain ⟨m,hm⟩ := behind_of_mem_leaders hl
    obtain ⟨-,hd,r,hr,hs,-⟩ := verdict_eq_behind_iff.1 hm
    obtain ⟨i,hi⟩ := exists_broughtBy hr
    exact ⟨rfl,(leaders_sublist _ _ _).subset hl,hd,r,i,hr,hi,Record.not_isSettled_iff.1 hs⟩
  | _ =>
    rw [hc] at hl
    cases hl

theorem BroughtBy.hardwareMarker_eq {r : Record} (h : R.BroughtBy j window marker r i) :
    R.hardwareMarker i = r.hardwareMarker := by
  obtain ⟨waited,hi,-⟩ := h.call
  rw [hardwareMarker, hi]

theorem awaited_eq (R : Run κ) (j : Nat) :
    (R.acts j).filterMap Act.awaited? = (R.answered j).map R.hardwareMarker := by
  have hmap : (R.answered j).map R.hardwareMarker =
      (R.leaders j).map (panelMark (R.records j)) := by
    rw [answered, List.map_filterMap, ← List.filterMap_eq_map]
    apply List.filterMap_congr
    intro l hl
    obtain ⟨-,-,-,r,i,hr,hi,-⟩ := leader_spec hl
    rw [hi.last, Option.map_some, hi.hardwareMarker_eq, ← panelMark_of_latest? hr]
    rfl
  rw [hmap, acts, leaders]
  cases R.call j with
  | tick =>
    rw [Session.acts, awaited_acts, tick, hardware_sift, List.map_map]
    rfl
  | addWait window marker c =>
    simp only [Session.acts, Session.leaders, List.map_nil]
    cases ((R.before j).ledger.addWait (R.before j).now window marker c).2 <;> rfl
  | record | advance => rfl
  | shutDown => simp [Session.acts, Session.leaders, Act.awaited?, List.filterMap_map, shutDown]

theorem answered_nodup (R : Run κ) (j : Nat) : (R.answered j).Nodup := by
  rw [answered, List.Nodup, List.pairwise_filterMap]
  have hp : (R.leaders j).Pairwise fun v w => v.key ≠ w.key := by
    rw [leaders]
    cases R.call j with
    | tick => exact leaders_pairwise _ _ _
    | _ => exact .nil
  refine hp.imp ?_
  rintro v w hk i hv _ hw rfl
  apply hk
  have he := (lastRecord?_spec hv).2.symm.trans (lastRecord?_spec hw).2
  exact Option.some.inj he

theorem answered_spec (h : i ∈ R.answered j) : R.call j = .tick ∧
    ∃ w ∈ R.pending j, R.clock j < w.deadline ∧
      ∃ r, latest? (R.records j) w.window w.marker = some r ∧
        R.BroughtBy j w.window w.marker r i ∧ r.hardwareMarker ≠ 0 ∧ r.waited = false ∧
        R.clock j < r.resolveDeadline := by
  obtain ⟨l,hl,hli⟩ := exists_leader_of_mem_answered h
  obtain ⟨hj,hp,hd,r,i',hr,hi,hs⟩ := leader_spec hl
  obtain rfl : i' = i := Option.some.inj (hi.last.symm.trans hli)
  exact ⟨hj,l,hp,hd,r,hr,hi,hs⟩

theorem answered_disjoint (R : Run κ) {k : Nat} (hk : k < j) :
    (R.answered k).Disjoint (R.answered j) := by
  intro i hik hij
  obtain ⟨-,w,-,-,r,-,hi,-,hw,-⟩ := answered_spec hij
  obtain ⟨waited,-,hm⟩ := hi.call
  exact Bool.false_ne_true (hw.symm.trans (hm.2 (.inr ⟨k,hk,hik⟩)))

end Run

theorem Tick.acts_of_mem_hardware {t : Tick κ} {m : UInt32} {c : κ} (h : (m,c) ∈ t.hardware) :
    ∃ front back, t.acts = front ++ .calledBack c :: back ∧ .awaited m ∈ front := by
  obtain ⟨before,after,ht⟩ := List.append_of_mem h
  refine ⟨before.flatMap (fun p => [.awaited p.1,.calledBack p.2]) ++ [.awaited m],
    after.flatMap (fun p => [.awaited p.1,.calledBack p.2]) ++ t.ready.map .calledBack,?_,?_⟩
  · simp [Tick.acts, ht]
  · exact List.mem_append_right _ List.mem_cons_self

theorem Tick.acts_of_mem_ready {t : Tick κ} {m : UInt32} {c c' : κ}
    (h : (m,c') ∈ t.hardware) (hc : c ∈ t.ready) :
    ∃ front back, t.acts = front ++ .calledBack c :: back ∧ .awaited m ∈ front := by
  obtain ⟨before,after,ht⟩ := List.append_of_mem hc
  refine ⟨t.hardware.flatMap (fun p => [.awaited p.1,.calledBack p.2]) ++ before.map .calledBack,
    after.map .calledBack,?_,?_⟩
  · simp [Tick.acts, ht]
  · exact List.mem_append_left _ (List.mem_flatMap.2 ⟨(m,c'),h,List.mem_cons_self⟩)

theorem acts_tick {s : Session κ} {w : Wait κ} {m : UInt32} (hw : w ∈ s.ledger.pending)
    (hv : verdict s.ledger.records s.now w = .behind m) :
    ∃ front back, s.acts .tick = front ++ .calledBack w.callback :: back ∧
      .awaited m ∈ front := by
  obtain ⟨l,hl,hk⟩ := exists_leader hw hv
  obtain ⟨-,-,r,hr,-,rfl⟩ := verdict_eq_behind_iff.1 hv
  have hmark : ∀ v : Wait κ, v.key = w.key → panelMark s.ledger.records v = r.hardwareMarker := by
    intro v hv
    obtain ⟨hwindow,hmarker⟩ := Prod.mk.inj hv
    exact panelMark_of_latest? (by rw [hwindow, hmarker, hr])
  have hmem : ∀ v ∈ Ledger.leaders s.now s.ledger.records s.ledger.pending, v.key = w.key →
      (r.hardwareMarker,v.callback) ∈ (s.ledger.tick s.now).2.hardware := by
    intro v hv hkey
    rw [tick, hardware_sift]
    exact List.mem_map.2 ⟨v,hv,by rw [hmark v hkey]⟩
  -- the first wait for the record is called back right behind the panel, the ones behind it after
  -- all the waiting
  rcases mem_leaders_or_ready hw (by rw [hv]; simp) with hlead | hready
  · exact Tick.acts_of_mem_hardware (hmem w hlead rfl)
  · exact Tick.acts_of_mem_ready (hmem l hl hk) hready

theorem eq_of_append_cons {α : Type} [DecidableEq α] {a : α} {l front back front' back' : List α}
    (h : l = front ++ a :: back) (h' : l = front' ++ a :: back') (hc : l.count a ≤ 1) :
    front = front' := by
  rw [h, List.count_append, List.count_cons_self] at hc
  have hf : a ∉ front := List.count_eq_zero.1 (by omega)
  have hb : a ∉ back := List.count_eq_zero.1 (by omega)
  exact ((List.append_cons_inj_of_notMem hf hb).1 (h.symm.trans h')).1

namespace Run

variable [DecidableEq κ] {R : Run κ} {j : Nat}

theorem Once.count_acts_le {c : κ} (once : R.Once c) {n : Nat}
    (hn : (R.call n).callback? = some c) : (R.acts j).count (.calledBack c) ≤ 1 := by
  have hd := count_done (R := R) (c := c) (j+1)
  rw [once.count_handedIn hn, done_succ, List.count_append] at hd
  split at hd <;> omega

theorem awaited_mem_front {w : Wait κ} {r : Record} (hj : R.call j = .tick)
    (hw : w ∈ R.pending j) (once : R.Once w.callback) (hd : R.clock j < w.deadline)
    (hr : latest? (R.records j) w.window w.marker = some r)
    (hs : r.isSettled (R.clock j) = false) :
    .calledBack w.callback ∈ R.acts j ∧
      ∀ front back, R.acts j = front ++ .calledBack w.callback :: back →
        .awaited r.hardwareMarker ∈ front := by
  obtain ⟨n,-,hn,-,hz⟩ := R.call_of_mem_pending hw
  have hv : verdict (R.records j) (R.clock j) w = .behind r.hardwareMarker :=
    verdict_eq_behind_iff.2 ⟨hz,hd,r,hr,hs,rfl⟩
  obtain ⟨front,back,ha,hm⟩ := acts_tick hw hv
  rw [← hj] at ha
  change R.acts j = _ at ha
  refine ⟨ha ▸ List.mem_append_right _ List.mem_cons_self,?_⟩
  intro front' back' ha'
  have hc := once.count_acts_le (j := j) (n := n) (by rw [hn]; rfl)
  rwa [← eq_of_append_cons ha ha' hc]

end Run

def Act.ofEffect? : Effect → Option (Act Callback)
  | .awaited hardwareMarker => some (.awaited hardwareMarker)
  | .calledBack c => some (.calledBack c)
  | _ => none

end InkCompositor.Ledger

namespace InkCompositor.Desktop

open Ledger

def seen (d : Desktop) : List (Act Callback) := d.trace.toList.filterMap Act.ofEffect?

theorem seen_emit (d : Desktop) (e : Effect) :
    (d.emit e).seen = d.seen ++ (Act.ofEffect? e).toList := by
  rw [seen, emit, Array.toList_push, List.filterMap_append]
  cases h : Act.ofEffect? e <;> simp [seen, h]

theorem seen_log (d : Desktop) (level : Level) (text : String) : (d.log level text).seen = d.seen :=
  (seen_emit d _).trans (List.append_nil _)

theorem seen_logTimes (d : Desktop) (n : Nat) (level : Level) (text : String) :
    (d.logTimes n level text).seen = d.seen := by
  induction n with
  | zero => rfl
  | succ n ih => exact (seen_log _ _ _).trans ih

theorem seen_logDelivery (d : Desktop) (delivery : Delivery) :
    (d.logDelivery delivery).seen = d.seen := by
  rw [logDelivery]
  split
  · exact seen_log _ _ _
  · rfl

theorem seen_send (d : Desktop) (id : WindowId) (kind : ChannelKind) (m : Wire.Message) :
    (d.send id kind m).seen = d.seen := by
  rw [send]
  split
  · rfl
  · exact seen_logDelivery _ _

theorem seen_runCallback (d : Desktop) (c : Callback) :
    (d.runCallback c).seen = d.seen ++ [.calledBack c] := by
  cases c with
  | answer id marker => exact (seen_send _ _ _ _).trans (seen_emit _ _)
  | _ => exact seen_emit _ _

theorem seen_awaitPanel (d : Desktop) (m : UInt32) (complaint : String) :
    (d.awaitPanel m complaint).seen = d.seen ++ [.awaited m] := by
  rw [awaitPanel]
  split
  · exact (seen_log _ _ _).trans (seen_emit _ _)
  · exact seen_emit _ _

theorem seen_foldl {α : Type} {f : Desktop → α → Desktop} {g : α → List (Act Callback)}
    (h : ∀ d a, (f d a).seen = d.seen ++ g a) (l : List α) (d : Desktop) :
    (l.foldl f d).seen = d.seen ++ l.flatMap g := by
  induction l generalizing d with
  | nil => exact (List.append_nil _).symm
  | cons a l ih => rw [List.foldl_cons, ih, h, List.flatMap_cons, List.append_assoc]

theorem seen_tick (d : Desktop) : d.tick.seen = d.seen ++ (d.ledger.tick d.now).2.acts := by
  rw [tick, seen_foldl seen_runCallback, seen_foldl (g := fun p => [.awaited p.1,.calledBack p.2]),
    seen_logTimes, Tick.acts, List.map_eq_flatMap, List.append_assoc]
  · rfl
  · rintro d ⟨m,c⟩
    rw [seen_runCallback, seen_awaitPanel, List.append_assoc]
    rfl

end InkCompositor.Desktop

namespace InkCompositor.Ledger.Run

variable {κ : Type} [DecidableEq κ]

/-- In each call the panel is waited for on account of the records `answered`, which are different
ones within a call and from call to call. That happens in ticks, where a wait that is not too old
finds a record of its repaint that brings a mark and has neither been waited for nor outlived its
time, and then whoever finds that record is called back behind the waiting. A desktop does what is
to be done in the same order. -/
theorem panel_awaited_once (R : Run κ) :
    (∀ j, (R.acts j).filterMap Act.awaited? = (R.answered j).map R.hardwareMarker) ∧
    (∀ j, (R.answered j).Nodup) ∧
    (∀ j k, j ≠ k → (R.answered j).Disjoint (R.answered k)) ∧
    (∀ j, ∀ i ∈ R.answered j, R.call j = .tick ∧
      ∃ w ∈ R.pending j, R.clock j < w.deadline ∧
        ∃ r, latest? (R.records j) w.window w.marker = some r ∧
          R.BroughtBy j w.window w.marker r i ∧ r.hardwareMarker ≠ 0 ∧ r.waited = false ∧
          R.clock j < r.resolveDeadline) ∧
    (∀ j window marker r, latest? (R.records j) window marker = some r →
      ∃ i, R.BroughtBy j window marker r i) ∧
    (∀ j, R.call j = .tick → ∀ w ∈ R.pending j, R.Once w.callback → R.clock j < w.deadline →
      ∀ r, latest? (R.records j) w.window w.marker = some r → r.hardwareMarker ≠ 0 →
        r.waited = false → R.clock j < r.resolveDeadline →
        .calledBack w.callback ∈ R.acts j ∧
        ∀ front back, R.acts j = front ++ .calledBack w.callback :: back →
          .awaited r.hardwareMarker ∈ front) ∧
    ∀ d : Desktop, d.tick.seen = d.seen ++ (d.ledger.tick d.now).2.acts := by
  refine ⟨awaited_eq R,answered_nodup R,?_,fun j i hi => answered_spec hi,
    fun j window marker r hr => exists_broughtBy hr,?_,Desktop.seen_tick⟩
  · intro j k hjk
    rcases Nat.lt_or_gt_of_ne hjk with hlt | hlt
    · exact answered_disjoint R hlt
    · exact (answered_disjoint R hlt).symm
  · intro j hj w hw once hd r hr hz hwaited hshown
    exact awaited_mem_front hj hw once hd hr (Record.not_isSettled_iff.2 ⟨hz,hwaited,hshown⟩)

/-- Two wait for the same repaint; the second, too, is called back behind the waiting. -/
theorem panel_awaited_once_for_two :
    let R : Run Nat := ⟨7, 30, 0,
      [.addWait none 5 0, .addWait none 5 1, .record none 5 42 false, .tick, .tick]⟩
    R.answered 3 = [2] ∧ R.answered 4 = [] ∧
      (R.acts 3).filterMap Act.awaited? = [42] ∧ .calledBack 1 ∈ R.acts 3 ∧
      ∀ front back, R.acts 3 = front ++ .calledBack 1 :: back → .awaited 42 ∈ front := by
  intro R
  obtain ⟨hawaited,-,-,-,-,horder,-⟩ := panel_awaited_once R
  have h3 : R.answered 3 = [2] := by decide
  have once : R.Once 1 := R.once_of_nodup (by decide) 1
  have hw : ⟨5,none,1,7⟩ ∈ R.pending 3 := List.mem_cons_of_mem _ List.mem_cons_self
  have hfront := horder 3 rfl _ hw once (by decide) ⟨42,5,none,false,7,30⟩ (by decide) (by decide)
    rfl (by decide)
  refine ⟨h3,by decide,?_,hfront⟩
  rw [hawaited 3, h3]
  rfl

end InkCompositor.Ledger.Run
