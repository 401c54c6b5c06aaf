import Mathlib
import InkCompositor.Proofs.Marker.Runs

/-!
# When waits are over

A wait is called back as it is entered, or at the first tick that finds a
record of its repaint or the wait too old, or at the shutdown: once, and at no
other moment.
-/

set_option autoImplicit false

namespace InkCompositor.Ledger.Run

variable {κ : Type} (R : Run κ)

/-- A wait for the repaint `marker` of `window` need not be entered in call number `n`. -/
def AtOnce (n : Nat) (window : Option WindowId) (marker : Marker) : Prop :=
  marker = 0 ∨ (∃ i < n, R.call i = .shutDown) ∨ R.Known n window marker

/-- In call number `j` a wait is over that was entered in call number `n`. -/
def Due (n : Nat) (window : Option WindowId) (marker : Marker) (j : Nat) : Prop :=
  (R.call j = .tick ∧ (R.Known j window marker ∨ R.clock n+R.waitTimeout ≤ R.clock j)) ∨
    R.call j = .shutDown

variable {R} {n j : Nat} {window : Option WindowId} {marker : Marker} {c : κ}

theorem resolvesAtOnce_iff : (R.before n).ledger.resolvesAtOnce window marker = true ↔
    R.AtOnce n window marker := by
  rw [resolvesAtOnce, Bool.or_eq_true, Bool.or_eq_true, stopping_before, isSome_latest?_iff,
    beq_iff_eq, AtOnce, ← or_assoc, or_comm (a := marker = 0)]
  rfl

theorem calledBack_iff_atOnce (hn : R.call n = .addWait window marker c) :
    .calledBack c ∈ R.acts n ↔ R.AtOnce n window marker := by
  rw [acts, hn, ← resolvesAtOnce_iff]
  simp only [Session.acts, addWait]
  split <;> simp_all

theorem Once.eq_of_mem_pending (once : R.Once c) (hn : R.call n = .addWait window marker c)
    {w : Wait κ} (hw : w ∈ R.pending j) (hc : w.callback = c) :
    w.window = window ∧ w.marker = marker ∧ w.deadline = R.clock n+R.waitTimeout ∧
      marker ≠ 0 := by
  obtain ⟨m,-,hm,hd,hz⟩ := R.call_of_mem_pending hw
  have hmn : m = n := once m n (by rw [hm, ← hc]; rfl) (by rw [hn]; rfl)
  subst hmn
  rw [hn, Call.addWait.injEq] at hm
  obtain ⟨rfl,rfl,-⟩ := hm
  exact ⟨rfl,rfl,hd,hz⟩

theorem calledBack_iff_due (hn : R.call n = .addWait window marker c) (once : R.Once c)
    (hj : n < j) : .calledBack c ∈ R.acts j ↔
      c ∈ R.held j ∧ R.Due n window marker j := by
  rw [acts, Due, held]
  cases hcall : R.call j with
  | addWait window' marker' c' =>
    have hne : c ≠ c' := by
      rintro rfl
      exact hj.ne (once n j (by rw [hn]; rfl) (by rw [hcall]; rfl))
    simp only [Session.acts, addWait]
    split <;> simp [hne]
  | record | advance => simp [Session.acts]
  | shutDown => simp [Session.acts, shutDown, pending]
  | tick =>
    rw [calledBack_mem_tick]
    constructor
    · rintro ⟨w,hw,hv,hc⟩
      obtain ⟨rfl,rfl,hd,hz⟩ := once.eq_of_mem_pending hn hw hc
      refine ⟨List.mem_map.2 ⟨w,hw,hc⟩,.inl ⟨rfl,?_⟩⟩
      by_contra hdue
      rw [not_or, not_le] at hdue
      exact hv (verdict_eq_keep_iff.2 ⟨hz,by rw [hd]; exact hdue.2,latest?_eq_none_iff.2 hdue.1⟩)
    · rintro ⟨hc,hdue⟩
      obtain ⟨w,hw,hc⟩ := List.mem_map.1 hc
      obtain ⟨rfl,rfl,hd,-⟩ := once.eq_of_mem_pending hn hw hc
      refine ⟨w,hw,?_,hc⟩
      intro hv
      obtain ⟨-,hlt,hnone⟩ := verdict_eq_keep_iff.1 hv
      rcases hdue with ⟨-,hk | ht⟩ | hs
      · exact latest?_eq_none_iff.1 hnone hk
      · rw [hd] at hlt
        exact absurd hlt (not_lt.2 ht)
      · cases hs

variable [DecidableEq κ]

theorem count_once (hn : R.call n = .addWait window marker c) (once : R.Once c) (j : Nat) :
    (R.done j).count (.calledBack c) + (R.held j).count c = if n < j then 1 else 0 := by
  rw [count_done, once.count_handedIn (by rw [hn]; rfl)]

theorem mem_held_first (hn : R.call n = .addWait window marker c) (once : R.Once c) :
    c ∈ R.held (n+1) ↔ .calledBack c ∉ R.acts n := by
  have hs := count_held_succ (R := R) (c := c) n
  have hc := count_once hn once n
  rw [if_neg (Nat.lt_irrefl n)] at hc
  rw [hn, Call.callback?, Option.toList_some, List.count_singleton_self] at hs
  rw [← List.count_pos_iff, ← List.count_eq_zero]
  omega

theorem mem_held_succ (hn : R.call n = .addWait window marker c) (once : R.Once c) (hj : n < j) :
    c ∈ R.held (j+1) ↔ c ∈ R.held j ∧ .calledBack c ∉ R.acts j := by
  have hs := count_held_succ (R := R) (c := c) j
  have hc := count_once hn once j
  rw [if_pos hj] at hc
  rw [once.count_later (by rw [hn]; rfl) hj.ne'] at hs
  rw [← List.count_pos_iff, ← List.count_pos_iff, ← List.count_eq_zero]
  omega

theorem mem_held_iff (hn : R.call n = .addWait window marker c) (once : R.Once c) (hj : n < j) :
    c ∈ R.held j ↔
      ¬ R.AtOnce n window marker ∧ ∀ i, n < i → i < j → ¬ R.Due n window marker i := by
  induction j, hj using Nat.le_induction with
  | base =>
    rw [mem_held_first hn once, calledBack_iff_atOnce hn]
    exact ⟨fun h => ⟨h,fun i hi hi' => by omega⟩,And.left⟩
  | succ j hj ih =>
    rw [mem_held_succ hn once hj, calledBack_iff_due hn once hj]
    constructor
    · rintro ⟨hh,hd⟩
      refine ⟨(ih.1 hh).1,?_⟩
      intro i hi hij
      rcases Nat.lt_succ_iff_lt_or_eq.1 hij with hij | rfl
      · exact (ih.1 hh).2 i hi hij
      · exact fun hdue => hd ⟨hh,hdue⟩
    · rintro ⟨ha,hd⟩
      have hh := ih.2 ⟨ha,fun i hi hij => hd i hi (Nat.lt_succ_of_lt hij)⟩
      exact ⟨hh,fun hdue => hd j hj (Nat.lt_succ_self j) hdue.2⟩

/-- A callback handed in by call number `n` is held or has run, once. It runs in that call if the
wait need not be entered, or else in the first call after it in which the wait is due, and in no
other. Only a record of the same repaint counts, from the call that brings it to the first tick
that finds it too old, and from a shutdown on nothing is held. -/
theorem wait_resolves_once (hn : R.call n = .addWait window marker c) (once : R.Once c) :
    (∀ j, (R.done j).count (.calledBack c) + (R.held j).count c = if n < j then 1 else 0) ∧
    (.calledBack c ∈ R.acts n ↔ R.AtOnce n window marker) ∧
    (∀ j, n < j → (.calledBack c ∈ R.acts j ↔ ¬ R.AtOnce n window marker ∧
      R.Due n window marker j ∧ ∀ i, n < i → i < j → ¬ R.Due n window marker i)) ∧
    (∀ j, R.Known j window marker ↔ ∃ i < j,
      (∃ hardwareMarker waited, R.call i = .record window marker hardwareMarker waited) ∧
        ∀ m, i < m → m < j → R.call m = .tick → R.clock m < R.clock i+R.recordLifetime) ∧
    ∀ i j, i < j → R.call i = .shutDown → R.pending j = [] := by
  refine ⟨count_once hn once,calledBack_iff_atOnce hn,?_,fun j => R.known_iff j window marker,
    fun i j hi h => R.pending_eq_nil hi h⟩
  intro j hj
  rw [calledBack_iff_due hn once hj]
  have hh := mem_held_iff hn once hj
  constructor
  · rintro ⟨hc,hd⟩
    exact ⟨(hh.1 hc).1,hd,(hh.1 hc).2⟩
  · rintro ⟨ha,hd,hb⟩
    exact ⟨hh.2 ⟨ha,hb⟩,hd⟩

theorem wait_resolves_once_late :
    let R : Run Nat := ⟨7, 30, 0,
      [.addWait none 6 0, .record (some 1) 6 4 false, .tick, .advance 7, .tick]⟩
    R.call 0 = .addWait none 6 0 ∧ R.Once 0 ∧ .calledBack 0 ∉ R.acts 2 ∧
      .calledBack 0 ∈ R.acts 4 ∧ (R.done 5).count (.calledBack 0) + (R.held 5).count 0 = 1 := by
  intro R
  have hn : R.call 0 = .addWait none 6 0 := rfl
  have once : R.Once 0 := R.once_of_nodup (by decide) 0
  obtain ⟨hcount,-,hdue,-,-⟩ := wait_resolves_once hn once
  have hat : ¬ R.AtOnce 0 none 6 := by
    rintro (h | ⟨i,hi,-⟩ | h)
    · exact absurd h (by decide)
    · exact absurd hi (Nat.not_lt_zero i)
    · exact absurd h (by decide)
  have hearly : ∀ i, 0 < i → i < 4 → ¬ R.Due 0 none 6 i := by
    intro i hi hi4
    interval_cases i <;> unfold Due <;> decide
  refine ⟨hn,once,?_,?_,hcount 5⟩
  · rw [hdue 2 (by decide)]
    exact fun h => hearly 2 (by decide) (by decide) h.2.1
  · exact (hdue 4 (by decide)).2 ⟨hat,.inl ⟨rfl,.inr (by decide)⟩,hearly⟩

end InkCompositor.Ledger.Run
