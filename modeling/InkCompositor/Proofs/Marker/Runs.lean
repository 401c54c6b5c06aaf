import Mathlib
import InkCompositor.Proofs.Marker.Sifting

/-!
# Runs of the ledger

A run is a list of calls, with time passing in between. Every callback handed
in is held or has been called back, and a record is held until a tick finds it
too old.
-/

set_option autoImplicit false

namespace InkCompositor.Ledger

variable {κ : Type}

/-- What is asked of the ledger, and the passing of time. -/
inductive Call (κ : Type) where
  | addWait (window : Option WindowId) (marker : Marker) (callback : κ)
  | record (window : Option WindowId) (marker : Marker) (hardwareMarker : UInt32) (waited : Bool)
  | tick
  | advance (span : Time)
  | shutDown
  deriving DecidableEq, Repr

def Call.callback? : Call κ → Option κ
  | .addWait _ _ c => some c
  | _ => none

/-- What is done in return. -/
inductive Act (κ : Type) where
  | awaited (hardwareMarker : UInt32)
  | calledBack (callback : κ)
  deriving DecidableEq, Repr

def Tick.acts (t : Tick κ) : List (Act κ) :=
  t.hardware.flatMap (fun p => [.awaited p.1, .calledBack p.2]) ++ t.ready.map .calledBack

structure Session (κ : Type) where
  ledger : Ledger κ
  now : Time

namespace Session

def next (s : Session κ) : Call κ → Session κ
  | .addWait window marker c => { s with ledger := (s.ledger.addWait s.now window marker c).1 }
  | .record window marker hardwareMarker waited =>
    { s with ledger := s.ledger.record s.now window marker hardwareMarker waited }
  | .tick => { s with ledger := (s.ledger.tick s.now).1 }
  | .advance span => { s with now := s.now + span }
  | .shutDown => { s with ledger := s.ledger.shutDown.1 }

def acts (s : Session κ) : Call κ → List (Act κ)
  | .addWait window marker c => (s.ledger.addWait s.now window marker c).2.toList.map .calledBack
  | .tick => (s.ledger.tick s.now).2.acts
  | .shutDown => s.ledger.shutDown.2.map .calledBack
  | .record .. | .advance _ => []

end Session

structure Run (κ : Type) where
  waitTimeout : Time
  recordLifetime : Time
  start : Time
  calls : List (Call κ)

namespace Run

def call (R : Run κ) (j : Nat) : Call κ := R.calls.getD j (.advance 0)

/-- How things stand before call number `j`. -/
def before (R : Run κ) : Nat → Session κ
  | 0 => ⟨fresh R.waitTimeout R.recordLifetime,R.start⟩
  | j + 1 => (R.before j).next (R.call j)

def clock (R : Run κ) (j : Nat) : Time := (R.before j).now
def pending (R : Run κ) (j : Nat) : List (Wait κ) := (R.before j).ledger.pending
def records (R : Run κ) (j : Nat) : List Record := (R.before j).ledger.records

def held (R : Run κ) (j : Nat) : List κ := (R.pending j).map (·.callback)

def acts (R : Run κ) (j : Nat) : List (Act κ) := (R.before j).acts (R.call j)

def done (R : Run κ) (j : Nat) : List (Act κ) := (List.range j).flatMap R.acts

def handedIn (R : Run κ) (j : Nat) : List κ :=
  (List.range j).filterMap fun i => (R.call i).callback?

def Once (R : Run κ) (c : κ) : Prop :=
  ∀ i j, (R.call i).callback? = some c → (R.call j).callback? = some c → i = j

/-- A record of the repaint `marker` of `window` is held. -/
def Known (R : Run κ) (j : Nat) (window : Option WindowId) (marker : Marker) : Prop :=
  ∃ r ∈ R.records j, r.window = window ∧ r.marker = marker

instance (R : Run κ) (j : Nat) (window : Option WindowId) (marker : Marker) :
    Decidable (R.Known j window marker) :=
  inferInstanceAs (Decidable (∃ r ∈ R.records j, r.window = window ∧ r.marker = marker))

end Run

def stamp (r : Record) : (Option WindowId × Marker) × Time :=
  ((r.window,r.marker),r.cleanupDeadline)

section Step

variable (s : Session κ) (call : Call κ)

theorem waitTimeout_next : (s.next call).ledger.waitTimeout = s.ledger.waitTimeout := by
  cases call with
  | addWait window marker c =>
    simp only [Session.next, addWait]
    split <;> rfl
  | _ => rfl

theorem recordLifetime_next : (s.next call).ledger.recordLifetime = s.ledger.recordLifetime := by
  cases call with
  | addWait window marker c =>
    simp only [Session.next, addWait]
    split <;> rfl
  | _ => rfl

theorem now_le_next : s.now ≤ (s.next call).now := by
  cases call with
  | advance span => exact Nat.le_add_right _ _
  | _ => exact Nat.le_refl _

theorem stopping_next : (s.next call).ledger.stopping = true ↔
    s.ledger.stopping = true ∨ call = .shutDown := by
  cases call with
  | addWait window marker c =>
    simp only [Session.next, addWait]
    split <;> simp
  | shutDown => simp [Session.next, shutDown]
  | _ => simp [Session.next, record, tick]

theorem mem_pending_next {w : Wait κ} (h : w ∈ (s.next call).ledger.pending) :
    w ∈ s.ledger.pending ∨ call = .addWait w.window w.marker w.callback ∧
      w.deadline = s.now+s.ledger.waitTimeout ∧ w.marker ≠ 0 ∧ s.ledger.stopping = false := by
  cases call with
  | addWait window marker c =>
    simp only [Session.next, addWait] at h
    split at h
    · exact .inl h
    · rename_i hr
      simp only [resolvesAtOnce, Bool.or_eq_true, beq_iff_eq, not_or, Bool.not_eq_true] at hr
      rcases List.mem_append.1 h with h | h
      · exact .inl h
      · obtain rfl := List.mem_singleton.1 h
        exact .inr ⟨rfl,rfl,hr.1.2,hr.1.1⟩
  | record => exact .inl h
  | advance => exact .inl h
  | tick =>
    simp only [Session.next, tick, kept_sift] at h
    exact .inl (List.mem_of_mem_filter h)
  | shutDown => cases h

theorem calledBack_mem_tick {c : κ} : .calledBack c ∈ s.acts .tick ↔
    ∃ w ∈ s.ledger.pending, verdict s.ledger.records s.now w ≠ .keep ∧ w.callback = c := by
  have hp := (called_sift s.now s.ledger.records s.ledger.pending).mem_iff (a := c)
  simp only [List.mem_append, List.mem_map, List.mem_filter, decide_eq_true_eq] at hp
  simpa [Session.acts, tick, Tick.acts, and_assoc] using hp

theorem stamps_next : (s.next call).ledger.records.map stamp =
    match call with
    | .record window marker _ _ =>
      s.ledger.records.map stamp ++ [((window,marker),s.now+s.ledger.recordLifetime)]
    | .tick => (s.ledger.records.map stamp).filter fun p => decide (s.now < p.2)
    | _ => s.ledger.records.map stamp := by
  cases call with
  | addWait window marker c =>
    simp only [Session.next, addWait]
    split <;> rfl
  | record => simp [Session.next, record, stamp]
  | advance => rfl
  | shutDown => rfl
  | tick =>
    simp only [Session.next, tick]
    rw [← map_records_sift s.now s.ledger.records s.ledger.pending stamp (fun _ => rfl),
      List.filter_map]
    rfl

theorem mem_stamps_next {p : (Option WindowId × Marker) × Time} :
    p ∈ (s.next call).ledger.records.map stamp ↔
      (p ∈ s.ledger.records.map stamp ∧ (call = .tick → s.now < p.2)) ∨
      ∃ hardwareMarker waited, call = .record p.1.1 p.1.2 hardwareMarker waited ∧
        p.2 = s.now+s.ledger.recordLifetime := by
  obtain ⟨⟨window,marker⟩,time⟩ := p
  rw [stamps_next]
  cases call with
  | record =>
    simp only [List.mem_append, List.mem_singleton, Prod.mk.injEq]
    constructor
    · rintro (hp | ⟨⟨rfl,rfl⟩,ht⟩)
      · exact .inl ⟨hp,fun h => by cases h⟩
      · exact .inr ⟨_,_,rfl,ht⟩
    · rintro (⟨hp,-⟩ | ⟨_,_,hc,ht⟩)
      · exact .inl hp
      · cases hc
        exact .inr ⟨⟨rfl,rfl⟩,ht⟩
  | tick => simp only [List.mem_filter, decide_eq_true_eq]; simp
  | addWait | advance | shutDown => simp

variable [DecidableEq κ]

theorem count_calledBack (l : List κ) (c : κ) :
    (l.map Act.calledBack).count (.calledBack c) = l.count c :=
  List.count_map_of_injective _ _ (fun _ _ h => Act.calledBack.inj h) c

theorem count_acts (t : Tick κ) (c : κ) :
    t.acts.count (.calledBack c) = (t.hardware.map (·.2) ++ t.ready).count c := by
  rw [Tick.acts, List.count_append, List.count_append, count_calledBack]
  congr 1
  induction t.hardware with
  | nil => rfl
  | cons p rest ih => simp [List.count_cons, ih]

theorem count_tick (c : κ) : (s.acts .tick).count (.calledBack c) +
      ((s.next .tick).ledger.pending.map (·.callback)).count c =
    (s.ledger.pending.map (·.callback)).count c := by
  have hcalled := (called_sift s.now s.ledger.records s.ledger.pending).count_eq c
  have hall := ((List.filter_append_perm
    (fun w => decide (verdict s.ledger.records s.now w = .keep)) s.ledger.pending).map
      (·.callback)).count_eq c
  simp only [Session.acts, Session.next, tick, count_acts, kept_sift]
  rw [hcalled, ← hall, List.map_append, List.count_append, Nat.add_comm]
  simp only [ne_eq, decide_not]

theorem count_next (c : κ) : (s.acts call).count (.calledBack c) +
      ((s.next call).ledger.pending.map (·.callback)).count c =
    (s.ledger.pending.map (·.callback)).count c + call.callback?.toList.count c := by
  cases call with
  | addWait window marker c' =>
    simp only [Session.acts, Session.next, addWait, Call.callback?]
    split <;> simp [List.count_cons, Nat.add_comm]
  | record => simp [Session.acts, Session.next, record, Call.callback?]
  | advance => simp [Session.acts, Session.next, Call.callback?]
  | shutDown => exact congrArg (· + 0) (count_calledBack _ c)
  | tick => exact count_tick s c

end Step

namespace Run

variable (R : Run κ)

theorem clock_mono : Monotone R.clock :=
  monotone_nat_of_le_succ fun j => now_le_next (R.before j) (R.call j)

theorem waitTimeout_before (j : Nat) : (R.before j).ledger.waitTimeout = R.waitTimeout := by
  induction j with
  | zero => rfl
  | succ j ih => exact (waitTimeout_next _ _).trans ih

theorem recordLifetime_before (j : Nat) :
    (R.before j).ledger.recordLifetime = R.recordLifetime := by
  induction j with
  | zero => rfl
  | succ j ih => exact (recordLifetime_next _ _).trans ih

theorem stopping_before (j : Nat) :
    (R.before j).ledger.stopping = true ↔ ∃ i < j, R.call i = .shutDown := by
  induction j with
  | zero => simp [before, fresh]
  | succ j ih =>
    rw [before, stopping_next, ih, Nat.exists_lt_succ_right]

theorem call_of_mem_pending {j : Nat} {w : Wait κ} (h : w ∈ R.pending j) :
    ∃ n < j, R.call n = .addWait w.window w.marker w.callback ∧
      w.deadline = R.clock n+R.waitTimeout ∧ w.marker ≠ 0 := by
  induction j with
  | zero => cases h
  | succ j ih =>
    rcases mem_pending_next _ _ h with h | ⟨hc,hd,hm,-⟩
    · obtain ⟨n,hn,hw⟩ := ih h
      exact ⟨n,Nat.lt_succ_of_lt hn,hw⟩
    · rw [waitTimeout_before] at hd
      exact ⟨j,Nat.lt_succ_self j,hc,hd,hm⟩

theorem pending_eq_nil {j i : Nat} (hi : i < j) (h : R.call i = .shutDown) :
    R.pending j = [] := by
  induction j with
  | zero => cases hi
  | succ j ih =>
    apply List.eq_nil_iff_forall_not_mem.2
    intro w hw
    rcases Nat.lt_succ_iff_lt_or_eq.1 hi with hi | rfl
    · rcases mem_pending_next _ _ hw with hw | ⟨-,-,-,hs⟩
      · exact absurd hw (by rw [show (R.before j).ledger.pending = [] from ih hi]; simp)
      · rw [(R.stopping_before j).2 ⟨i,hi,h⟩] at hs
        cases hs
    · rw [pending, before, h] at hw
      cases hw

/-- A record is held until the first tick that finds it too old. -/
theorem mem_stamps_iff (j : Nat) (window : Option WindowId) (marker : Marker) (time : Time) :
    ((window,marker),time) ∈ (R.records j).map stamp ↔
      ∃ i < j, (∃ hardwareMarker waited, R.call i = .record window marker hardwareMarker waited) ∧
        time = R.clock i+R.recordLifetime ∧
        ∀ m, i < m → m < j → R.call m = .tick → R.clock m < time := by
  induction j with
  | zero => simp [records, before, fresh]
  | succ j ih =>
    have hs := mem_stamps_next (R.before j) (R.call j) (p := ((window,marker),time))
    rw [recordLifetime_before] at hs
    refine hs.trans ?_
    constructor
    · rintro (⟨hp,ht⟩ | ⟨hardwareMarker,waited,hc,ht⟩)
      · obtain ⟨i,hi,hc,hd,hm⟩ := ih.1 hp
        refine ⟨i,Nat.lt_succ_of_lt hi,hc,hd,?_⟩
        intro m him hmj
        rcases Nat.lt_succ_iff_lt_or_eq.1 hmj with hmj | rfl
        · exact hm m him hmj
        · exact ht
      · refine ⟨j,Nat.lt_succ_self j,⟨hardwareMarker,waited,hc⟩,ht,?_⟩
        intro m hjm hmj
        omega
    · rintro ⟨i,hi,hc,hd,hm⟩
      rcases Nat.lt_succ_iff_lt_or_eq.1 hi with hij | rfl
      · exact .inl ⟨ih.2 ⟨i,hij,hc,hd,fun m h h' => hm m h (Nat.lt_succ_of_lt h')⟩,
          hm j hij (Nat.lt_succ_self j)⟩
      · obtain ⟨hardwareMarker,waited,hc⟩ := hc
        exact .inr ⟨hardwareMarker,waited,hc,hd⟩

theorem known_iff (j : Nat) (window : Option WindowId) (marker : Marker) :
    R.Known j window marker ↔
      ∃ i < j, (∃ hardwareMarker waited, R.call i = .record window marker hardwareMarker waited) ∧
        ∀ m, i < m → m < j → R.call m = .tick → R.clock m < R.clock i+R.recordLifetime := by
  constructor
  · rintro ⟨r,hr,rfl,rfl⟩
    obtain ⟨i,hi,hc,hd,hm⟩ := (R.mem_stamps_iff j r.window r.marker r.cleanupDeadline).1
      (List.mem_map_of_mem hr)
    exact ⟨i,hi,hc,hd ▸ hm⟩
  · rintro ⟨i,hi,hc,hm⟩
    have hs := (R.mem_stamps_iff j window marker _).2 ⟨i,hi,hc,rfl,hm⟩
    obtain ⟨r,hr,he⟩ := List.mem_map.1 hs
    obtain ⟨hk,-⟩ := Prod.mk.inj he
    obtain ⟨rfl,rfl⟩ := Prod.mk.inj hk
    exact ⟨r,hr,rfl,rfl⟩

theorem records_pairwise (j : Nat) :
    (R.records j).Pairwise fun a b => a.cleanupDeadline ≤ b.cleanupDeadline := by
  have hs : ((R.records j).map stamp).Pairwise fun a b => a.2 ≤ b.2 := by
    induction j with
    | zero => exact .nil
    | succ j ih =>
      have hn := stamps_next (R.before j) (R.call j)
      rw [records, before, hn]
      split
      · apply List.pairwise_append.2
        refine ⟨ih,List.pairwise_singleton _ _,?_⟩
        intro p hp q hq
        obtain ⟨i,hi,-,hd,-⟩ := (R.mem_stamps_iff j p.1.1 p.1.2 p.2).1 hp
        rw [List.mem_singleton.1 hq, hd, recordLifetime_before]
        exact Nat.add_le_add_right (R.clock_mono hi.le) _
      · exact ih.filter _
      · exact ih
  rw [List.pairwise_map] at hs
  exact hs

theorem once_of_nodup (h : (R.calls.filterMap Call.callback?).Nodup) (c : κ) : R.Once c := by
  rw [List.Nodup, List.pairwise_filterMap, List.pairwise_iff_getElem] at h
  have hcall : ∀ i, (R.call i).callback? = some c → ∃ hi : i < R.calls.length,
      (R.calls[i]).callback? = some c := by
    intro i hi
    by_cases hl : i < R.calls.length
    · exact ⟨hl,by rwa [call, List.getD_eq_getElem _ _ hl] at hi⟩
    · rw [call, List.getD_eq_default _ _ (not_lt.1 hl)] at hi
      cases hi
  intro i j hi hj
  obtain ⟨hil,hi⟩ := hcall i hi
  obtain ⟨hjl,hj⟩ := hcall j hj
  rcases lt_trichotomy i j with hij | hij | hij
  · exact absurd rfl (h i j hil hjl hij c hi c hj)
  · exact hij
  · exact absurd rfl (h j i hjl hil hij c hj c hi)

theorem done_succ (j : Nat) : R.done (j+1) = R.done j ++ R.acts j := by
  simp [done, List.range_succ]

theorem handedIn_succ (j : Nat) :
    R.handedIn (j+1) = R.handedIn j ++ (R.call j).callback?.toList := by
  cases h : (R.call j).callback? <;> simp [handedIn, List.range_succ, h]

section Count

variable [DecidableEq κ] {R} {c : κ}

theorem count_held_succ (j : Nat) : (R.acts j).count (.calledBack c) + (R.held (j+1)).count c =
    (R.held j).count c + (R.call j).callback?.toList.count c :=
  count_next (R.before j) (R.call j) c

theorem count_done (j : Nat) :
    (R.done j).count (.calledBack c) + (R.held j).count c = (R.handedIn j).count c := by
  induction j with
  | zero => rfl
  | succ j ih =>
    have hn := count_held_succ (R := R) (c := c) j
    rw [done_succ, handedIn_succ, List.count_append, List.count_append, ← ih]
    omega

theorem Once.count_later (once : R.Once c) {n j : Nat} (hn : (R.call n).callback? = some c)
    (hj : j ≠ n) : (R.call j).callback?.toList.count c = 0 := by
  rw [List.count_eq_zero, Option.mem_toList]
  intro hc
  exact hj (once j n hc hn)

theorem Once.count_handedIn (once : R.Once c) {n : Nat} (hn : (R.call n).callback? = some c)
    (j : Nat) : (R.handedIn j).count c = if n < j then 1 else 0 := by
  induction j with
  | zero => rfl
  | succ j ih =>
    rw [handedIn_succ, List.count_append, ih]
    by_cases hj : j = n
    · subst hj
      simp [hn]
    · rw [once.count_later hn hj]
      split <;> split <;> omega

end Count

end Run

end InkCompositor.Ledger
