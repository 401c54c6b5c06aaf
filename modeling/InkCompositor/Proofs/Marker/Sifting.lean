import Mathlib
import InkCompositor.Marker.Ledger

/-!
# What a tick does with the waits

A tick keeps the waits of whose repaints nothing is known and calls all others
back. It waits for the panel on behalf of the first wait for each record that
is not settled; for the waits behind it the record is settled then.
-/

set_option autoImplicit false

namespace InkCompositor

def Wait.key {κ : Type} (w : Wait κ) : Option WindowId × Marker := (w.window,w.marker)

namespace Record

def awaited (r : Record) : Record := { r with waited := true }

theorem isFor_iff {r : Record} {window : Option WindowId} {marker : Marker} :
    r.isFor window marker = true ↔ r.window = window ∧ r.marker = marker := by
  simp [isFor]

theorem isSettled_awaited (r : Record) (now : Time) : r.awaited.isSettled now = true := by
  simp [isSettled, awaited]

theorem not_isSettled_iff {r : Record} {now : Time} : r.isSettled now = false ↔
    r.hardwareMarker ≠ 0 ∧ r.waited = false ∧ now < r.resolveDeadline := by
  simp [isSettled, and_assoc]

end Record

namespace Ledger

variable {κ : Type} {now : Time} {records : List Record} {window : Option WindowId}
  {marker : Marker}

theorem latest?_cons (r : Record) (rest : List Record) : latest? (r :: rest) window marker =
    (latest? rest window marker).or (if r.isFor window marker then some r else none) := by
  rw [latest?, List.reverse_cons, List.find?_append]
  by_cases h : r.isFor window marker <;> simp [latest?, h]

theorem latest?_concat (r : Record) : latest? (records ++ [r]) window marker =
    if r.isFor window marker then some r else latest? records window marker := by
  rw [latest?, List.reverse_append, List.reverse_singleton, List.singleton_append,
    List.find?_cons]
  by_cases h : r.isFor window marker <;> simp [latest?, h]

theorem latest?_eq_none_iff : latest? records window marker = none ↔
    ¬ ∃ r ∈ records, r.window = window ∧ r.marker = marker := by
  simp [latest?, Record.isFor]

theorem isSome_latest?_iff : (latest? records window marker).isSome ↔
    ∃ r ∈ records, r.window = window ∧ r.marker = marker := by
  rw [Option.isSome_iff_ne_none, Ne, latest?_eq_none_iff, not_not]

theorem any_isFor : records.any (·.isFor window marker) =
    (latest? records window marker).isSome := by
  rw [Bool.eq_iff_iff, isSome_latest?_iff, List.any_eq_true]
  simp only [Record.isFor_iff]

theorem latest?_markLatest : latest? (markLatest window marker records) window marker =
    (latest? records window marker).map Record.awaited := by
  induction records with
  | nil => rfl
  | cons r rest ih =>
    rw [markLatest, any_isFor]
    cases hl : latest? rest window marker with
    | none =>
      by_cases hr : r.isFor window marker
      · have hr' : r.awaited.isFor window marker := hr
        simp only [hr, Option.isSome_none, Bool.not_false, Bool.and_self, if_true]
        rw [latest?_cons, latest?_cons, hl, if_pos hr]
        exact if_pos hr'
      · simp only [hr, Bool.false_and, Bool.false_eq_true, if_false]
        rw [latest?_cons, latest?_cons, ih, hl, if_neg hr]
        rfl
    | some r' =>
      simp only [Option.isSome_some, Bool.not_true, Bool.and_false, Bool.false_eq_true, if_false]
      rw [latest?_cons, latest?_cons, ih, hl]
      rfl

theorem latest?_markLatest_of_ne {window' : Option WindowId} {marker' : Marker}
    (h : (window',marker') ≠ (window,marker)) :
    latest? (markLatest window marker records) window' marker' =
      latest? records window' marker' := by
  induction records with
  | nil => rfl
  | cons r rest ih =>
    rw [markLatest]
    split
    · rename_i hr
      have hr' : ¬ r.isFor window' marker' := by
        intro hr'
        rw [Bool.and_eq_true, Record.isFor_iff] at hr
        obtain ⟨rfl,rfl⟩ := Record.isFor_iff.1 hr'
        exact h (Prod.ext hr.1.1 hr.1.2)
      rw [latest?_cons, latest?_cons, if_neg hr']
      exact congrArg _ (if_neg hr')
    · rw [latest?_cons, latest?_cons, ih]

theorem map_markLatest {β : Type} (f : Record → β) (hf : ∀ r, f r.awaited = f r) :
    (markLatest window marker records).map f = records.map f := by
  induction records with
  | nil => rfl
  | cons r rest ih =>
    rw [markLatest]
    split
    · exact congrArg (· :: rest.map f) (hf r)
    · exact congrArg (f r :: ·) ih

theorem latest?_filter (h : records.Pairwise fun a b => a.cleanupDeadline ≤ b.cleanupDeadline) :
    latest? (records.filter fun r => decide (now < r.cleanupDeadline)) window marker =
      (latest? records window marker).filter fun r => decide (now < r.cleanupDeadline) := by
  induction records using List.reverseRecOn with
  | nil => rfl
  | append_singleton l r ih =>
    rw [List.pairwise_append] at h
    rw [List.filter_append, latest?_concat]
    by_cases hn : now < r.cleanupDeadline
    · rw [List.filter_singleton, decide_eq_true hn, Bool.cond_true, latest?_concat, ih h.1]
      by_cases hr : r.isFor window marker <;> simp [hr, hn, Option.filter]
    -- the last one is too old, and so are all before it
    · have hl : l.filter (fun r => decide (now < r.cleanupDeadline)) = [] := by
        rw [List.filter_eq_nil_iff]
        intro a ha
        have hle := h.2.2 a ha r (by simp)
        simpa using hle.trans (not_lt.1 hn)
      rw [List.filter_singleton, decide_eq_false hn, Bool.cond_false, List.append_nil]
      by_cases hr : r.isFor window marker
      · rw [hl, if_pos hr]
        simp [latest?, hn, Option.filter]
      · rw [if_neg hr, ih h.1]

section Verdict

variable {w : Wait κ} {hardwareMarker : UInt32}

theorem verdict_eq_keep_iff : verdict records now w = .keep ↔
    w.marker ≠ 0 ∧ now < w.deadline ∧ latest? records w.window w.marker = none := by
  rw [verdict]
  by_cases hm : w.marker = 0
  · simp [hm]
  · by_cases hd : w.deadline ≤ now
    · simp [hm, hd]
    · cases latest? records w.window w.marker with
      | none => simp [hm, hd, not_le.1 hd]
      | some r => by_cases hs : r.isSettled now <;> simp [hm, hd, hs]

theorem verdict_eq_behind_iff : verdict records now w = .behind hardwareMarker ↔
    w.marker ≠ 0 ∧ now < w.deadline ∧ ∃ r, latest? records w.window w.marker = some r ∧
      r.isSettled now = false ∧ r.hardwareMarker = hardwareMarker := by
  rw [verdict]
  by_cases hm : w.marker = 0
  · simp [hm]
  · by_cases hd : w.deadline ≤ now
    · simp [hm, hd]
    · cases latest? records w.window w.marker with
      | none => simp [hm, hd]
      | some r => by_cases hs : r.isSettled now <;> simp [hm, hd, hs, not_le.1 hd]

theorem verdict_markLatest_of_ne (h : w.key ≠ (window,marker)) :
    verdict (markLatest window marker records) now w = verdict records now w := by
  rw [verdict, verdict, latest?_markLatest_of_ne h]

theorem verdict_markLatest_eq_keep_iff :
    verdict (markLatest window marker records) now w = .keep ↔ verdict records now w = .keep := by
  by_cases h : w.key = (window,marker)
  · obtain ⟨rfl,rfl⟩ := Prod.mk.inj h
    rw [verdict_eq_keep_iff, verdict_eq_keep_iff, latest?_markLatest, Option.map_eq_none_iff]
  · rw [verdict_markLatest_of_ne h]

theorem verdict_markLatest_eq_behind_iff :
    verdict (markLatest window marker records) now w = .behind hardwareMarker ↔
      w.key ≠ (window,marker) ∧ verdict records now w = .behind hardwareMarker := by
  by_cases h : w.key = (window,marker)
  · obtain ⟨rfl,rfl⟩ := Prod.mk.inj h
    rw [verdict_eq_behind_iff, latest?_markLatest]
    constructor
    · rintro ⟨-,-,r,hr,hs,-⟩
      obtain ⟨r,-,rfl⟩ := Option.map_eq_some_iff.1 hr
      rw [Record.isSettled_awaited] at hs
      cases hs
    · rintro ⟨hne,-⟩
      exact absurd rfl hne
  · rw [verdict_markLatest_of_ne h]
    exact ⟨fun hv => ⟨h,hv⟩,And.right⟩

end Verdict

/-- The waits on whose behalf the panel is waited for. -/
def leaders (now : Time) (records : List Record) : List (Wait κ) → List (Wait κ)
  | [] => []
  | w :: rest =>
    match verdict records now w with
    | .behind _ => w :: leaders now (markLatest w.window w.marker records) rest
    | _ => leaders now records rest

def panelMark (records : List Record) (w : Wait κ) : UInt32 :=
  ((latest? records w.window w.marker).map (·.hardwareMarker)).getD 0

theorem panelMark_of_latest? {w : Wait κ} {r : Record}
    (h : latest? records w.window w.marker = some r) : panelMark records w = r.hardwareMarker := by
  rw [panelMark, h]
  rfl

theorem panelMark_markLatest (w : Wait κ) :
    panelMark (markLatest window marker records) w = panelMark records w := by
  by_cases h : w.key = (window,marker)
  · obtain ⟨rfl,rfl⟩ := Prod.mk.inj h
    rw [panelMark, panelMark, latest?_markLatest, Option.map_map]
    rfl
  · rw [panelMark, panelMark, latest?_markLatest_of_ne h]

variable (now records)

theorem kept_sift (pending : List (Wait κ)) : (sift now records pending).kept =
    pending.filter fun w => decide (verdict records now w = .keep) := by
  induction pending generalizing records with
  | nil => rfl
  | cons w rest ih =>
    cases hv : verdict records now w <;> simp [sift, hv, ih, verdict_markLatest_eq_keep_iff]

theorem called_sift (pending : List (Wait κ)) :
    ((sift now records pending).hardware.map (·.2) ++ (sift now records pending).ready).Perm
      ((pending.filter fun w => decide (verdict records now w ≠ .keep)).map (·.callback)) := by
  induction pending generalizing records with
  | nil => exact .nil
  | cons w rest ih =>
    cases hv : verdict records now w with
    | keep => simpa [sift, hv] using ih records
    | ready | timedOut =>
      simp only [sift, hv]
      refine List.perm_middle.trans ?_
      simpa [hv] using ih records
    | behind =>
      simpa [sift, hv, verdict_markLatest_eq_keep_iff] using
        ih (markLatest w.window w.marker records)

theorem hardware_sift (pending : List (Wait κ)) : (sift now records pending).hardware =
    (leaders now records pending).map fun w => (panelMark records w,w.callback) := by
  induction pending generalizing records with
  | nil => rfl
  | cons w rest ih =>
    cases hv : verdict records now w with
    | keep | ready | timedOut => simpa [sift, leaders, hv] using ih records
    | behind =>
      obtain ⟨-,-,r,hr,-,hm⟩ := verdict_eq_behind_iff.1 hv
      simp [sift, leaders, hv, ih, panelMark_markLatest, panelMark_of_latest? hr, hm]

theorem leaders_sublist (pending : List (Wait κ)) :
    (leaders now records pending).Sublist pending := by
  induction pending generalizing records with
  | nil => exact .slnil
  | cons w rest ih =>
    rw [leaders]
    split
    · exact (ih _).cons_cons w
    · exact (ih _).cons w

variable {now records} {pending : List (Wait κ)}

theorem behind_of_mem_leaders {l : Wait κ} (h : l ∈ leaders now records pending) :
    ∃ hardwareMarker, verdict records now l = .behind hardwareMarker := by
  induction pending generalizing records with
  | nil => cases h
  | cons w rest ih =>
    rw [leaders] at h
    split at h
    · rename_i m hv
      rcases List.mem_cons.1 h with rfl | h
      · exact ⟨m,hv⟩
      · obtain ⟨m',hm'⟩ := ih h
        exact ⟨m',(verdict_markLatest_eq_behind_iff.1 hm').2⟩
    · exact ih h

theorem key_ne_of_mem_leaders {l : Wait κ}
    (h : l ∈ leaders now (markLatest window marker records) pending) :
    l.key ≠ (window,marker) := by
  obtain ⟨m,hm⟩ := behind_of_mem_leaders h
  exact (verdict_markLatest_eq_behind_iff.1 hm).1

variable (now records pending) in
theorem leaders_pairwise :
    (leaders now records pending).Pairwise fun v w => v.key ≠ w.key := by
  induction pending generalizing records with
  | nil => exact .nil
  | cons w rest ih =>
    rw [leaders]
    split
    · exact List.pairwise_cons.2 ⟨fun l hl => (key_ne_of_mem_leaders hl).symm,ih _⟩
    · exact ih _

theorem exists_leader {w : Wait κ} {hardwareMarker : UInt32} (hw : w ∈ pending)
    (hv : verdict records now w = .behind hardwareMarker) :
    ∃ l ∈ leaders now records pending, l.key = w.key := by
  induction pending generalizing records with
  | nil => cases hw
  | cons v rest ih =>
    rw [leaders]
    rcases List.mem_cons.1 hw with rfl | hw
    · rw [hv]
      exact ⟨w,List.mem_cons_self,rfl⟩
    · split
      · by_cases hk : w.key = v.key
        · exact ⟨v,List.mem_cons_self,hk.symm⟩
        · obtain ⟨l,hl,he⟩ := ih hw (verdict_markLatest_eq_behind_iff.2 ⟨hk,hv⟩)
          exact ⟨l,List.mem_cons_of_mem _ hl,he⟩
      · exact ih hw hv

variable (now records pending) in
/-- Exactly the records that the panel was waited for are marked. -/
theorem latest?_sift (window : Option WindowId) (marker : Marker) :
    ((∃ l ∈ leaders now records pending, l.key = (window,marker)) ∧
      latest? (sift now records pending).records window marker =
        (latest? records window marker).map Record.awaited) ∨
    ((∀ l ∈ leaders now records pending, l.key ≠ (window,marker)) ∧
      latest? (sift now records pending).records window marker =
        latest? records window marker) := by
  induction pending generalizing records with
  | nil => exact .inr ⟨by simp [leaders],rfl⟩
  | cons w rest ih =>
    cases hv : verdict records now w with
    | keep | ready | timedOut => simpa only [sift, leaders, hv] using ih records
    | behind =>
      simp only [sift, leaders, hv, List.exists_mem_cons_iff, List.forall_mem_cons]
      by_cases hk : w.key = (window,marker)
      · obtain ⟨rfl,rfl⟩ := Prod.mk.inj hk
        rcases ih (markLatest w.window w.marker records) with ⟨⟨l,hl,he⟩,-⟩ | ⟨-,hr⟩
        -- the record is marked already, so nobody behind waits for the panel on its account
        · exact absurd he (key_ne_of_mem_leaders hl)
        · exact .inl ⟨.inl rfl,hr.trans latest?_markLatest⟩
      · have hs : latest? (markLatest w.window w.marker records) window marker =
            latest? records window marker := latest?_markLatest_of_ne fun he => hk he.symm
        rcases ih (markLatest w.window w.marker records) with ⟨hl,hr⟩ | ⟨hl,hr⟩
        · exact .inl ⟨.inr hl,by rw [hr, hs]⟩
        · exact .inr ⟨⟨hk,hl⟩,by rw [hr, hs]⟩

variable (now records pending) in
theorem map_records_sift {β : Type} (f : Record → β) (hf : ∀ r, f r.awaited = f r) :
    (sift now records pending).records.map f = records.map f := by
  induction pending generalizing records with
  | nil => rfl
  | cons w rest ih =>
    cases hv : verdict records now w with
    | keep | ready | timedOut => simpa only [sift, hv] using ih records
    | behind => simp only [sift, hv, ih, map_markLatest f hf]

theorem mem_leaders_or_ready {w : Wait κ} (hw : w ∈ pending)
    (hv : verdict records now w ≠ .keep) :
    w ∈ leaders now records pending ∨ w.callback ∈ (sift now records pending).ready := by
  induction pending generalizing records with
  | nil => cases hw
  | cons v rest ih =>
    rcases List.mem_cons.1 hw with rfl | hw
    · cases hc : verdict records now w with
      | keep => exact absurd hc hv
      | ready | timedOut => exact .inr (by simp [sift, hc])
      | behind => exact .inl (by simp [leaders, hc])
    · cases hc : verdict records now v with
      | keep => simpa only [sift, leaders, hc] using ih hw hv
      | ready | timedOut =>
        simp only [sift, leaders, hc]
        exact (ih hw hv).imp_right (List.mem_cons_of_mem _)
      | behind =>
        simp only [sift, leaders, hc]
        exact (ih hw (mt verdict_markLatest_eq_keep_iff.1 hv)).imp_left (List.mem_cons_of_mem _)

end Ledger

end InkCompositor
