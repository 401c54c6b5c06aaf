import Mathlib
import InkCompositor.Desktop.State

/-!
# Pings and answers

A client is checked now and then, a check may ask it for an answer, and it may
answer. From the history of that it follows what is kept of a client: which
ping awaits an answer, when the next one is due and whether the client is
unresponsive.
-/

set_option autoImplicit false

namespace InkCompositor

inductive Pulse where
  /-- The client's ping was handled. -/
  | answered
  /-- The client was checked, and maybe sent a ping. -/
  | checked (now : Time) (asked : Bool)
  deriving DecidableEq

def Pulse.time? : Pulse → Option Time
  | answered => none
  | checked now _ => some now

def Pulse.asked : Pulse → Bool
  | answered => false
  | checked _ asked => asked

namespace Liveness

def asks (l : Liveness) (now : Time) : Bool := l.awaitingSince.isNone && decide (l.nextPing ≤ now)

def overdue (timings : Timings) (l : Liveness) (now : Time) : Bool :=
  l.awaitingSince.any fun since => decide (since + timings.pingDeadline ≤ now)

def check (timings : Timings) (l : Liveness) (now : Time) : Liveness :=
  if l.asks now then { l with awaitingSince := some now, nextPing := now+timings.pingInterval }
  else { l with unresponsive := l.unresponsive || l.overdue timings now }

/-- The deadline that a check computes, if it computes one. -/
def reckoned? (timings : Timings) (l : Liveness) (now : Time) : Option Time :=
  match l.awaitingSince with
  | some since => if l.unresponsive then none else some (since + timings.pingDeadline)
  | none => if l.nextPing ≤ now then some (now + timings.pingInterval) else none

def answer (l : Liveness) : Liveness := { l with awaitingSince := none, unresponsive := false }

variable {timings : Timings} {l : Liveness} {now : Time}

theorem asks_eq_true_iff : l.asks now = true ↔ l.awaitingSince = none ∧ l.nextPing ≤ now := by
  simp [asks]

theorem check_of_asks (h : l.asks now = true) : l.check timings now =
    { l with awaitingSince := some now, nextPing := now+timings.pingInterval } := if_pos h

theorem check_of_overdue (h : l.asks now = false) (ho : l.overdue timings now = true) :
    l.check timings now = { l with unresponsive := true } := by
  rw [check, h, ho, Bool.or_true]
  rfl

theorem check_eq_self (h : l.asks now = false)
    (ho : l.unresponsive = true ∨ l.overdue timings now = false) : l.check timings now = l := by
  have hu : (l.unresponsive || l.overdue timings now) = l.unresponsive := by
    rcases ho with ho | ho
    · rw [ho, Bool.true_or]
    · rw [ho, Bool.or_false]
  rw [check, h, hu]
  rfl

end Liveness

/-- A ping was sent at this time, and what came after it is no answer. -/
def Pending (history : List Pulse) (s : Time) (later : List Pulse) : Prop :=
  .checked s true :: later <:+ history ∧ .answered ∉ later

def Unanswered (history : List Pulse) (s : Time) : Prop := ∃ later, Pending history s later

/-- A ping is unanswered, and a check that came after it found the deadline over. -/
def Overdue (timings : Timings) (history : List Pulse) : Prop :=
  ∃ s later, Pending history s later ∧
    ∃ t asked, .checked t asked ∈ later ∧ s+timings.pingDeadline ≤ t

/-- No ping comes early, and none before the last one was answered. -/
structure Paced (timings : Timings) (opened : Time) (history : List Pulse) : Prop where
  first : ∀ s, .checked s true ∈ history → opened+timings.pingInterval ≤ s
  apart : ∀ s between t, .checked s true :: between ++ [.checked t true] <:+: history →
    .answered ∈ between ∧ s+timings.pingInterval ≤ t

/-- What is kept of a client is what its history says. -/
structure Liveness.Reflects (l : Liveness) (timings : Timings) (opened : Time)
    (history : List Pulse) : Prop where
  awaiting : ∀ s, l.awaitingSince = some s ↔ Unanswered history s
  unresponsive : l.unresponsive = true ↔ Overdue timings history
  due : opened+timings.pingInterval ≤ l.nextPing
  spaced : ∀ s, .checked s true ∈ history → s+timings.pingInterval ≤ l.nextPing

variable {timings : Timings} {opened now s : Time} {asked : Bool} {history later : List Pulse}
  {x y : Pulse} {l : Liveness}

theorem suffix_concat : x :: later <:+ history ++ [y] ↔
    later = [] ∧ x = y ∨ ∃ before, later = before ++ [y] ∧ x :: before <:+ history := by
  rw [List.suffix_concat_iff]
  constructor
  · rintro (h | ⟨before,h,hs⟩)
    · cases h
    cases before with
    | nil => exact .inl ⟨(List.cons.inj h).2,(List.cons.inj h).1⟩
    | cons z before =>
      obtain ⟨rfl,rfl⟩ := List.cons.inj h
      exact .inr ⟨before,rfl,hs⟩
  · rintro (⟨rfl,rfl⟩ | ⟨before,rfl,hs⟩)
    · exact .inr ⟨[],rfl,List.nil_suffix⟩
    · exact .inr ⟨x :: before,rfl,hs⟩

theorem not_pending_concat_answered : ¬ Pending (history ++ [.answered]) s later := by
  rintro ⟨hs,hn⟩
  rcases suffix_concat.1 hs with ⟨-,hx⟩ | ⟨before,rfl,-⟩
  · cases hx
  · exact hn (by simp)

theorem pending_concat_checked : Pending (history ++ [.checked now asked]) s later ↔
    later = [] ∧ asked = true ∧ s = now ∨
      ∃ before, later = before ++ [.checked now asked] ∧ Pending history s before := by
  rw [Pending, suffix_concat]
  constructor
  · rintro ⟨⟨rfl,hx⟩ | ⟨before,rfl,hb⟩,hn⟩
    · obtain ⟨rfl,rfl⟩ := Pulse.checked.inj hx
      exact .inl ⟨rfl,rfl,rfl⟩
    · exact .inr ⟨before,rfl,hb,fun hm => hn (List.mem_append_left _ hm)⟩
  · rintro (⟨rfl,rfl,rfl⟩ | ⟨before,rfl,hb,hn⟩)
    · exact ⟨.inl ⟨rfl,rfl⟩,by simp⟩
    · exact ⟨.inr ⟨before,rfl,hb⟩,by simpa using hn⟩

theorem unanswered_concat_checked : Unanswered (history ++ [.checked now asked]) s ↔
    asked = true ∧ s = now ∨ Unanswered history s := by
  simp only [Unanswered, pending_concat_checked]
  constructor
  · rintro ⟨later,⟨-,h⟩ | ⟨before,-,hb⟩⟩
    · exact .inl h
    · exact .inr ⟨before,hb⟩
  · rintro (h | ⟨before,hb⟩)
    · exact ⟨[],.inl ⟨rfl,h⟩⟩
    · exact ⟨_,.inr ⟨before,rfl,hb⟩⟩

theorem overdue_concat_checked : Overdue timings (history ++ [.checked now asked]) ↔
    Overdue timings history ∨ ∃ s, Unanswered history s ∧ s+timings.pingDeadline ≤ now := by
  simp only [Overdue, pending_concat_checked]
  constructor
  · rintro ⟨s,later,⟨rfl,-⟩ | ⟨before,rfl,hb⟩,t,a,ht,hle⟩
    · cases ht
    rcases List.mem_append.1 ht with ht | ht
    · exact .inl ⟨s,before,hb,t,a,ht,hle⟩
    · obtain ⟨rfl,rfl⟩ := Pulse.checked.inj (List.mem_singleton.1 ht)
      exact .inr ⟨s,⟨before,hb⟩,hle⟩
  · rintro (⟨s,before,hb,t,a,ht,hle⟩ | ⟨s,⟨before,hb⟩,hle⟩)
    · exact ⟨s,_,.inr ⟨before,rfl,hb⟩,t,a,List.mem_append_left _ ht,hle⟩
    · exact ⟨s,_,.inr ⟨before,rfl,hb⟩,now,asked,by simp,hle⟩

theorem Overdue.unanswered (h : Overdue timings history) : ∃ s, Unanswered history s := by
  obtain ⟨s,later,hp,-⟩ := h
  exact ⟨s,later,hp⟩

theorem overdue_iff (hd : 0 < timings.pingDeadline)
    (hm : (history.filterMap Pulse.time?).Pairwise (· ≤ ·)) : Overdue timings history ↔
      ∃ s, Unanswered history s ∧ ∃ t asked, .checked t asked ∈ history ∧
        s+timings.pingDeadline ≤ t := by
  constructor
  · rintro ⟨s,later,hp,t,asked,ht,hle⟩
    exact ⟨s,⟨later,hp⟩,t,asked,hp.1.subset (List.mem_cons_of_mem _ ht),hle⟩
  · rintro ⟨s,⟨later,⟨past,rfl⟩,hn⟩,t,asked,ht,hle⟩
    have hlt : s < t := (Nat.lt_add_of_pos_right hd).trans_le hle
    refine ⟨s,later,⟨⟨past,rfl⟩,hn⟩,t,asked,?_,hle⟩
    rcases List.mem_append.1 ht with ht | ht
    · rw [List.filterMap_append, List.pairwise_append] at hm
      exact absurd hlt (hm.2.2 t (List.mem_filterMap.2 ⟨_,ht,rfl⟩) s
        (List.mem_filterMap.2 ⟨_,List.mem_cons_self,rfl⟩)).not_gt
    rcases List.mem_cons.1 ht with ht | ht
    · exact absurd (Pulse.checked.inj ht).1 hlt.ne'
    · exact ht

namespace Liveness.Reflects

theorem fresh (timings : Timings) (opened : Time) :
    Reflects ⟨opened+timings.pingInterval,none,false⟩ timings opened [] := by
  have hnone : ∀ s, ¬ Unanswered [] s := fun s ⟨_,hs,_⟩ => by simp at hs
  refine ⟨fun s => iff_of_false (by simp) (hnone s),iff_of_false (by simp) fun h => ?_,le_rfl,
    by simp⟩
  obtain ⟨s,hs⟩ := h.unanswered
  exact hnone s hs

theorem answer (h : l.Reflects timings opened history) :
    l.answer.Reflects timings opened (history ++ [.answered]) where
  awaiting s := iff_of_false (by simp [Liveness.answer]) fun ⟨_,hp⟩ =>
    not_pending_concat_answered hp
  unresponsive := iff_of_false (by simp [Liveness.answer]) fun ⟨_,_,hp,_⟩ =>
    not_pending_concat_answered hp
  due := h.due
  spaced s hs := h.spaced s (by simpa using hs)

theorem not_unanswered (h : l.Reflects timings opened history) (hl : l.awaitingSince = none)
    (s : Time) : ¬ Unanswered history s := by
  rw [← h.awaiting, hl]
  simp

theorem overdue_eq_true_iff (h : l.Reflects timings opened history) (now : Time) :
    l.overdue timings now = true ↔ ∃ s, Unanswered history s ∧ s+timings.pingDeadline ≤ now := by
  simp [Liveness.overdue, Option.any_eq_true, ← h.awaiting]

theorem check (h : l.Reflects timings opened history) (now : Time) :
    (l.check timings now).Reflects timings opened (history ++ [.checked now (l.asks now)]) := by
  cases ha : l.asks now with
  | true =>
    have hl := Liveness.asks_eq_true_iff.1 ha
    -- as no ping is unanswered, the check finds none overdue
    have hnone := h.not_unanswered hl.1
    rw [Liveness.check_of_asks ha]
    refine ⟨fun s => ?_,?_,?_,fun s hs => ?_⟩
    · simp [unanswered_concat_checked, hnone, eq_comm]
    · rw [overdue_concat_checked, h.unresponsive]
      simp [hnone]
    · exact h.due.trans (hl.2.trans (Nat.le_add_right ..))
    · rcases List.mem_append.1 hs with hs | hs
      · exact (h.spaced s hs).trans (hl.2.trans (Nat.le_add_right ..))
      · obtain ⟨rfl,-⟩ := Pulse.checked.inj (List.mem_singleton.1 hs)
        exact le_rfl
  | false =>
    rw [Liveness.check, ha, if_neg (by simp)]
    refine ⟨fun s => ?_,?_,h.due,fun s hs => h.spaced s (by simpa using hs)⟩
    · simp [unanswered_concat_checked, h.awaiting]
    · rw [overdue_concat_checked, ← h.unresponsive, ← h.overdue_eq_true_iff, Bool.or_eq_true]

end Liveness.Reflects

theorem Paced.concat (h : Paced timings opened history)
    (hy : ∀ now, y = .checked now true → opened+timings.pingInterval ≤ now ∧
      ∀ s between, .checked s true :: between <:+ history →
        .answered ∈ between ∧ s+timings.pingInterval ≤ now) :
    Paced timings opened (history ++ [y]) where
  first s hs := by
    rcases List.mem_append.1 hs with hs | hs
    · exact h.first s hs
    · exact (hy s (List.mem_singleton.1 hs).symm).1
  apart s between t hi := by
    rcases List.infix_concat_iff.1 hi with hi | hi
    · rw [List.cons_append, suffix_concat] at hi
      rcases hi with ⟨hnil,-⟩ | ⟨before,he,hs⟩
      · simp at hnil
      · obtain ⟨hbetween,hy'⟩ := List.append_inj' he rfl
        exact (hy t (List.singleton_inj.1 hy').symm).2 s between (hbetween ▸ hs)
    · exact h.apart s between t hi

theorem Paced.check (h : Paced timings opened history) (hl : l.Reflects timings opened history)
    (now : Time) : Paced timings opened (history ++ [.checked now (l.asks now)]) := by
  refine h.concat fun t ht => ?_
  obtain ⟨rfl,ha⟩ := Pulse.checked.inj ht
  have hnow := Liveness.asks_eq_true_iff.1 ha
  refine ⟨hl.due.trans hnow.2,fun s between hs => ⟨?_,?_⟩⟩
  · by_contra hn
    exact hl.not_unanswered hnow.1 s ⟨between,hs,hn⟩
  · exact (hl.spaced s (hs.subset List.mem_cons_self)).trans hnow.2

end InkCompositor
