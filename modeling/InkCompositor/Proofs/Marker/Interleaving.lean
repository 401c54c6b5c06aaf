import Mathlib
import InkCompositor.Proofs.Marker.Runs

/-!
# Waits and records in any order

While the clock stands still no wait grows too old and no record is dropped.
Which waits a tick then leaves depends on the waits and the records that have
come in, not on their order nor on the ticks in between.
-/

set_option autoImplicit false

namespace InkCompositor.Ledger

variable {κ : Type}

namespace Call

def isTick : Call κ → Bool
  | .tick => true
  | _ => false

def Still : Call κ → Prop
  | .advance _ | .shutDown => False
  | .addWait .. | .record .. | .tick => True

def wait? (deadline : Time) : Call κ → Option (Wait κ)
  | .addWait window marker c => some ⟨marker,window,c,deadline⟩
  | _ => none

def recorded? : Call κ → Option (Option WindowId × Marker)
  | .record window marker _ _ => some (window,marker)
  | _ => none

end Call

def Act.callback? : Act κ → Option κ
  | .calledBack c => some c
  | .awaited _ => none

/-- Ticks aside, `order` has the calls of `collection`. -/
structure Interleaving (collection order : List (Call κ)) : Prop where
  still : ∀ call ∈ order, call.Still
  perm : (order.filter (!·.isTick)).Perm collection

/-- No call records the repaint of `w`. -/
def Unanswered (calls : List (Call κ)) (w : Wait κ) : Prop :=
  w.marker ≠ 0 ∧ w.key ∉ calls.filterMap Call.recorded?

instance (calls : List (Call κ)) (w : Wait κ) : Decidable (Unanswered calls w) :=
  inferInstanceAs (Decidable (_ ∧ _))

theorem filterMap_ticks {β : Type} (f : Call κ → Option β) (hf : f .tick = none)
    (order : List (Call κ)) : (order.filter (!·.isTick)).filterMap f = order.filterMap f := by
  rw [List.filterMap_filter]
  congr 1
  funext call
  cases call <;> simp [Call.isTick, hf]

theorem Interleaving.filterMap {β : Type} {collection order : List (Call κ)}
    (h : Interleaving collection order) (f : Call κ → Option β) (hf : f .tick = none) :
    (order.filterMap f).Perm (collection.filterMap f) := by
  rw [← filterMap_ticks f hf order]
  exact h.perm.filterMap f

theorem Interleaving.unanswered_iff {collection order : List (Call κ)}
    (h : Interleaving collection order) (w : Wait κ) :
    Unanswered order w ↔ Unanswered collection w := by
  rw [Unanswered, Unanswered, (h.filterMap Call.recorded? rfl).mem_iff]

theorem pending_next_filter {s : Session κ} {call : Call κ} {p : Wait κ → Bool}
    (hcall : call.Still) (hs : s.ledger.stopping = false)
    (hd : ∀ w ∈ s.ledger.pending, s.now < w.deadline)
    (hp : ∀ w, p w → w.marker ≠ 0 ∧ latest? s.ledger.records w.window w.marker = none) :
    (s.next call).ledger.pending.filter p = s.ledger.pending.filter p ++
      (call.wait? (s.now+s.ledger.waitTimeout)).toList.filter p := by
  cases call with
  | addWait window marker c =>
    simp only [Session.next, addWait, Call.wait?, Option.toList_some]
    split
    · rename_i hr
      rw [List.filter_singleton]
      have hn : ¬ p ⟨marker,window,c,s.now+s.ledger.waitTimeout⟩ := by
        intro hw
        obtain ⟨hm,hl⟩ := hp _ hw
        simp [resolvesAtOnce, hs, hm, hl] at hr
      simp [hn]
    · rw [List.filter_append]
  | record => simp [Session.next, record, Call.wait?]
  | tick =>
    simp only [Session.next, tick, kept_sift, Call.wait?, Option.toList_none, List.filter_nil,
      List.append_nil, List.filter_filter]
    apply List.filter_congr
    intro w hw
    by_cases h : p w
    · have hk := verdict_eq_keep_iff.2 ⟨(hp w h).1,hd w hw,(hp w h).2⟩
      simp [h, hk]
    · simp [h]
  | advance => exact hcall.elim
  | shutDown => exact hcall.elim

namespace Run

variable {R : Run κ} {n j : Nat}

def past (R : Run κ) (j : Nat) : List (Call κ) := (List.range j).map R.call

theorem past_succ (R : Run κ) (j : Nat) : R.past (j+1) = R.past j ++ [R.call j] := by
  rw [past, List.range_succ, List.map_append]
  rfl

theorem past_length {front back : List (Call κ)} (h : R.calls = front ++ back) :
    R.past front.length = front := by
  apply List.ext_getElem
  · rw [past, List.length_map, List.length_range]
  · intro i _ hi
    have hc : R.call i = front[i] := by
      rw [call, h, List.getD_eq_getElem _ _ (by simp; omega), List.getElem_append_left hi]
    simpa [past] using hc

theorem mem_past {call : Call κ} : call ∈ R.past j ↔ ∃ i < j, R.call i = call := by
  simp [past]

theorem handedIn_eq (R : Run κ) (j : Nat) :
    R.handedIn j = (R.past j).filterMap Call.callback? := by
  rw [past, List.filterMap_map]
  rfl

theorem stopping_still (h : ∀ call ∈ R.past j, call.Still) :
    (R.before j).ledger.stopping = false := by
  rw [← Bool.not_eq_true, stopping_before]
  rintro ⟨i,hi,hc⟩
  exact h .shutDown (mem_past.2 ⟨i,hi,hc⟩)

theorem clock_still (h : ∀ call ∈ R.past n, call.Still) (hj : j ≤ n) : R.clock j = R.start := by
  induction j with
  | zero => rfl
  | succ j ih =>
    have hc := h (R.call j) (mem_past.2 ⟨j,hj,rfl⟩)
    refine Eq.trans ?_ (ih (by omega))
    rw [clock, before]
    cases hcall : R.call j with
    | advance span => rw [hcall] at hc; exact hc.elim
    | _ => rfl

theorem lt_deadline_still (h : ∀ call ∈ R.past n, call.Still) (hw : 0 < R.waitTimeout)
    (hj : j ≤ n) {w : Wait κ} (hmem : w ∈ R.pending j) : R.clock j < w.deadline := by
  obtain ⟨i,hi,-,hd,-⟩ := R.call_of_mem_pending hmem
  rw [hd, clock_still h hj, clock_still h (by omega)]
  exact Nat.lt_add_of_pos_right hw

theorem known_still (h : ∀ call ∈ R.past n, call.Still) (hl : 0 < R.recordLifetime)
    (hj : j ≤ n) (window : Option WindowId) (marker : Marker) : R.Known j window marker ↔
      (window,marker) ∈ (R.past j).filterMap Call.recorded? := by
  rw [known_iff, List.mem_filterMap]
  constructor
  · rintro ⟨i,hi,⟨hardwareMarker,waited,hc⟩,-⟩
    exact ⟨_,mem_past.2 ⟨i,hi,hc⟩,rfl⟩
  · rintro ⟨call,hmem,hc⟩
    obtain ⟨i,hi,rfl⟩ := mem_past.1 hmem
    refine ⟨i,hi,?_,?_⟩
    · cases hcall : R.call i with
      | record window' marker' hardwareMarker waited =>
        rw [hcall] at hc
        obtain ⟨rfl,rfl⟩ := Prod.mk.inj (Option.some.inj hc)
        exact ⟨hardwareMarker,waited,rfl⟩
      | _ => rw [hcall] at hc; cases hc
    · intro m _ hm _
      rw [clock_still h (by omega), clock_still h (by omega)]
      exact Nat.lt_add_of_pos_right hl

theorem latest?_still (h : ∀ call ∈ R.past n, call.Still) (hl : 0 < R.recordLifetime)
    (hj : j ≤ n) (w : Wait κ) : latest? (R.before j).ledger.records w.window w.marker = none ↔
      w.key ∉ (R.past j).filterMap Call.recorded? := by
  rw [latest?_eq_none_iff, Wait.key, ← known_still h hl hj]
  rfl

theorem pending_filter_still (h : ∀ call ∈ R.past n, call.Still) (hw : 0 < R.waitTimeout)
    (hl : 0 < R.recordLifetime) (hj : j ≤ n) :
    (R.pending j).filter (fun w => Unanswered (R.past n) w) =
      ((R.past j).filterMap (Call.wait? (R.start+R.waitTimeout))).filter
        (fun w => Unanswered (R.past n) w) := by
  induction j with
  | zero => rfl
  | succ j ih =>
    have hsub : ∀ call ∈ R.past j, call ∈ R.past n := by
      intro call hc
      obtain ⟨i,hi,hc⟩ := mem_past.1 hc
      exact mem_past.2 ⟨i,by omega,hc⟩
    have hstep := pending_next_filter (p := fun w => Unanswered (R.past n) w)
      (h _ (mem_past.2 ⟨j,hj,rfl⟩)) (stopping_still fun call hc => h call (hsub call hc))
      (fun w hmem => lt_deadline_still h hw (by omega) hmem) (by
        intro w hu
        obtain ⟨hm,hk⟩ := of_decide_eq_true hu
        refine ⟨hm,(latest?_still h hl (by omega) w).2 ?_⟩
        intro hmem
        obtain ⟨call,hc,hr⟩ := List.mem_filterMap.1 hmem
        exact hk (List.mem_filterMap.2 ⟨call,hsub call hc,hr⟩))
    have hc : (R.before j).now = R.start := clock_still h (by omega)
    rw [waitTimeout_before, hc] at hstep
    rw [pending, before, hstep, past_succ, List.filterMap_append, List.filter_append,
      show (R.before j).ledger.pending = R.pending j from rfl, ih (by omega)]
    cases hcall : (R.call j).wait? (R.start+R.waitTimeout) <;> simp [hcall]

theorem pending_tick_still (h : ∀ call ∈ R.past n, call.Still) (hw : 0 < R.waitTimeout)
    (hl : 0 < R.recordLifetime) (htick : R.call n = .tick) :
    R.pending (n+1) = ((R.past n).filterMap (Call.wait? (R.start+R.waitTimeout))).filter
      (fun w => Unanswered (R.past n) w) := by
  rw [← pending_filter_still h hw hl le_rfl, pending, before, htick]
  simp only [Session.next, tick, kept_sift]
  apply List.filter_congr
  intro w hmem
  rw [decide_eq_decide, verdict_eq_keep_iff, latest?_still h hl le_rfl w, Unanswered]
  exact ⟨fun hk => ⟨hk.1,hk.2.2⟩,fun hk => ⟨hk.1,lt_deadline_still h hw le_rfl hmem,hk.2⟩⟩

theorem count_callbacks [DecidableEq κ] (acts : List (Act κ)) (c : κ) :
    (acts.filterMap Act.callback?).count c = acts.count (.calledBack c) := by
  rw [List.count_filterMap, List.count]
  apply List.countP_congr
  intro act _
  cases act <;> simp [Act.callback?]

theorem callbacks_waits (calls : List (Call κ)) (deadline : Time) :
    (calls.filterMap (Call.wait? deadline)).map (·.callback) =
      calls.filterMap Call.callback? := by
  rw [List.map_filterMap]
  congr 1
  funext call
  cases call <;> rfl

theorem callbacks_tick_still (h : ∀ call ∈ R.past n, call.Still) (hw : 0 < R.waitTimeout)
    (hl : 0 < R.recordLifetime) (htick : R.call n = .tick) :
    ((R.done (n+1)).filterMap Act.callback?).Perm
      ((((R.past n).filterMap (Call.wait? (R.start+R.waitTimeout))).filter
        fun w => ¬ Unanswered (R.past n) w).map (·.callback)) := by
  classical
  rw [List.perm_iff_count]
  intro c
  have hcount := R.count_done (c := c) (n+1)
  rw [handedIn_succ, htick, handedIn_eq, ← callbacks_waits _ (R.start+R.waitTimeout), held,
    pending_tick_still h hw hl htick] at hcount
  have hsplit := ((List.filter_append_perm (fun w => decide (Unanswered (R.past n) w))
    ((R.past n).filterMap (Call.wait? (R.start+R.waitTimeout)))).map (·.callback)).count_eq c
  rw [List.map_append, List.count_append] at hsplit
  simp only [Call.callback?, Option.toList_none, List.append_nil] at hcount
  simp only [decide_not]
  rw [count_callbacks]
  omega

end Run

section Order

variable {waitTimeout recordLifetime start : Time} {collection order : List (Call κ)}

/-- The calls of `order` at one reading of the clock, and a tick. -/
def Run.ticked (waitTimeout recordLifetime start : Time) (order : List (Call κ)) : Run κ :=
  ⟨waitTimeout,recordLifetime,start,order ++ [.tick]⟩

/-- The waits left after the last tick of `R`. -/
def Run.left (R : Run κ) : List (Wait κ) := R.pending R.calls.length

def Run.called (R : Run κ) : List κ := (R.done R.calls.length).filterMap Act.callback?

theorem Run.past_ticked : (Run.ticked waitTimeout recordLifetime start order).past order.length =
    order :=
  Run.past_length rfl

theorem Run.call_ticked : (Run.ticked waitTimeout recordLifetime start order).call order.length =
    .tick := by
  simp [call, ticked]

theorem Interleaving.left_perm (hw : 0 < waitTimeout) (hl : 0 < recordLifetime)
    (h : Interleaving collection order) :
    (Run.ticked waitTimeout recordLifetime start order).left.Perm
      ((collection.filterMap (Call.wait? (start+waitTimeout))).filter
        fun w => Unanswered collection w) := by
  have hleft := Run.pending_tick_still (R := Run.ticked waitTimeout recordLifetime start order)
    (by rw [Run.past_ticked]; exact h.still) hw hl Run.call_ticked
  rw [Run.past_ticked] at hleft
  rw [Run.left, Run.ticked, List.length_append]
  refine (List.Perm.of_eq hleft).trans ?_
  simp only [h.unanswered_iff]
  exact (h.filterMap (Call.wait? (start+waitTimeout)) rfl).filter _

theorem Interleaving.called_perm (hw : 0 < waitTimeout) (hl : 0 < recordLifetime)
    (h : Interleaving collection order) :
    (Run.ticked waitTimeout recordLifetime start order).called.Perm
      (((collection.filterMap (Call.wait? (start+waitTimeout))).filter
        fun w => ¬ Unanswered collection w).map (·.callback)) := by
  have hcalled := Run.callbacks_tick_still
    (R := Run.ticked waitTimeout recordLifetime start order)
    (by rw [Run.past_ticked]; exact h.still) hw hl Run.call_ticked
  rw [Run.past_ticked] at hcalled
  rw [Run.called, Run.ticked, List.length_append]
  refine hcalled.trans ?_
  simp only [h.unanswered_iff]
  exact ((h.filterMap (Call.wait? (start+waitTimeout)) rfl).filter _).map _

/-- At one reading of the clock, waits and records may come in any order with ticks in between.
After a last tick the waits left are those with a marker that no record has, the others have been
called back, each once, and every other order ends the same. -/
theorem interleaving_alike (hw : 0 < waitTimeout) (hl : 0 < recordLifetime)
    (h : Interleaving collection order) :
    let R := Run.ticked waitTimeout recordLifetime start order
    let entered := collection.filterMap (Call.wait? (start+waitTimeout))
    R.left.Perm (entered.filter fun w => Unanswered collection w) ∧
    R.called.Perm ((entered.filter fun w => ¬ Unanswered collection w).map (·.callback)) ∧
    ∀ order', Interleaving collection order' →
      (Run.ticked waitTimeout recordLifetime start order').left.Perm R.left ∧
      (Run.ticked waitTimeout recordLifetime start order').called.Perm R.called := by
  intro R entered
  have hleft : R.left.Perm _ := h.left_perm hw hl
  have hcalled : R.called.Perm _ := h.called_perm hw hl
  refine ⟨hleft,hcalled,?_⟩
  intro order' h'
  constructor
  · exact (h'.left_perm hw hl).trans hleft.symm
  · exact (h'.called_perm hw hl).trans hcalled.symm

/-- A record before its wait, or behind it with a tick in between. -/
theorem interleaving_alike_two_orders :
    let early : List (Call Nat) := [.record none 5 1 false, .addWait none 5 0, .addWait none 6 1]
    let late : List (Call Nat) :=
      [.addWait none 5 0, .addWait none 6 1, .tick, .record none 5 1 false]
    Interleaving early early ∧ Interleaving early late ∧
      (Run.ticked 10 10 3 early).called.Perm [0] ∧
      (Run.ticked 10 10 3 late).called.Perm (Run.ticked 10 10 3 early).called := by
  intro early late
  have hearly : Interleaving early early := ⟨by simp [early, Call.Still],List.Perm.refl _⟩
  have hlate : Interleaving early late := ⟨by simp [late, Call.Still],by decide⟩
  obtain ⟨-,hcalled,horder⟩ := @interleaving_alike Nat 10 10 3 early early (by decide)
    (by decide) hearly
  exact ⟨hearly,hlate,hcalled,(horder late hlate).2⟩

end Order

end InkCompositor.Ledger
