import Mathlib
import InkCompositor.Proofs.Desktop.Actions
import InkCompositor.Proofs.Desktop.Books

/-!
# The course of repaints

Repaints are asked for, painted, waited for and given up in any order, and all
kinds of things happen in between. What has been served from the queue and what
is still in it are together what was asked for, in this order.
-/

set_option autoImplicit false

namespace InkCompositor

/-- The books are as before, but for which updates the panel refuses. -/
def Desktop.Undisturbed (d e : Desktop) : Prop :=
  e.books = { d.books with refuses := e.books.refuses }

inductive Turn where
  | repaint (id : WindowId) (caller : Group) (area : Option Rect) (waveform : Option Waveform)
      (marker : Marker)
  | dirty (window : Option WindowId) (area : Rect) (waveform : Option Waveform) (marker : Marker)
  | enqueue (q : Repaint)
  | addWait (window : Option WindowId) (marker : Marker) (callback : Callback)
  | runPending
  | paintNext
  | tick
  | halt
  /-- Windows, groups, the panel or the clock change. -/
  | meanwhile (f : Desktop → Desktop) (undisturbed : ∀ d : Desktop, d.Undisturbed (f d))

namespace Turn

def perform (d : Desktop) : Turn → Desktop
  | repaint id caller area waveform marker => d.repaint id caller area waveform marker
  | dirty window area waveform marker => d.requestRepaint window area waveform marker
  | enqueue q => d.enqueue q
  | addWait window marker callback => d.addWait window marker callback
  | runPending => d.runPending.1
  | paintNext => d.paintNext
  | tick => d.tick
  | halt => d.halt
  | meanwhile f _ => f d

def asks? (d : Desktop) : Turn → Option Repaint
  | repaint id caller area waveform marker =>
    if d.permits id caller then
      (d.window? id).map fun w => ⟨some id,area.getD w.localRect,waveform,marker,none⟩
    else none
  | dirty window area waveform marker => some ⟨window,area,waveform,marker,none⟩
  | enqueue q => some q
  | _ => none

/-- A window that cannot be seen, or is closed, gets its record at once. -/
def bypasses (d : Desktop) : Turn → Bool
  | repaint id .. => !(d.registry.isSome && d.isVisible id)
  | dirty window .. => (window.bind d.window?).any (·.state == .closed)
  | _ => false

/-- The callbacks of waits that are over. -/
def relieves (d : Desktop) : Turn → List Callback
  | addWait window marker callback => (d.ledger.addWait d.now window marker callback).2.toList
  | tick => (d.ledger.tick d.now).2.hardware.map Prod.snd ++ (d.ledger.tick d.now).2.ready
  | halt => d.ledger.pending.map (·.callback)
  | _ => []

end Turn

namespace Desktop

open Books

variable {d : Desktop}

def noted (d : Desktop) (id : WindowId) (caller : Group) (marker : Marker) : Desktop :=
  if marker = 0 then d.logCall id caller
  else (d.logCall id caller).modify id fun w => { w with lastMarker := marker }

theorem noted_same (id : WindowId) (caller : Group) (marker : Marker) :
    (d.noted id caller marker).books = d.books ∧
    (d.noted id caller marker).registry = d.registry ∧
    (d.noted id caller marker).screen = d.screen := by
  have hlog : (d.logCall id caller).registry = d.registry ∧
      (d.logCall id caller).screen = d.screen := by
    unfold logCall
    split <;> exact ⟨rfl,rfl⟩
  unfold noted
  split
  · exact ⟨books_logCall ..,hlog⟩
  · exact ⟨books_logCall d id caller,hlog⟩

theorem state_noted {id : WindowId} {caller : Group} {marker : Marker} {v w : Window}
    (hw : d.window? id = some w) (hv : (d.noted id caller marker).window? id = some v) :
    v.state = w.state := by
  obtain ⟨hfind,-⟩ := logCall_same (d := d) id caller
  unfold noted at hv
  split at hv
  · rw [hfind, hw] at hv
    exact congrArg Window.state (Option.some.inj hv).symm
  · rw [window?_modify _ id (fun w => { w with lastMarker := marker }) (fun _ => rfl), hfind,
      hw] at hv
    simp only [Option.map_some, Option.some.injEq] at hv
    rw [← hv]
    split <;> rfl

theorem repaint_eq {id : WindowId} {caller : Group} {w : Window} (hp : d.permits id caller = true)
    (hw : d.window? id = some w) (area : Option Rect) (waveform : Option Waveform)
    (marker : Marker) : ∃ e f : Desktop, e.books = d.books ∧ f.books = d.books ∧
      d.repaint id caller area waveform marker =
        if d.registry.isSome && w.isVisibleOn d.screen then
          e.enqueue ⟨some id,area.getD w.localRect,waveform,marker,none⟩
        else f.record (some id) marker 0 := by
  obtain ⟨hbooks,hregistry,hscreen⟩ := noted_same (d := d) id caller marker
  have hr : d.repaint id caller area waveform marker =
      if (d.noted id caller marker).registry.isSome &&
          w.isVisibleOn (d.noted id caller marker).screen then
        (d.noted id caller marker).requestRepaint (some id) (area.getD w.localRect) waveform marker
      else ((d.noted id caller marker).log .trace "Repaint of hidden window").record (some id)
        marker 0 := guardedDo_permitted hw hp _
  refine ⟨d.noted id caller marker,
    (d.noted id caller marker).log .trace "Repaint of hidden window",hbooks,
    (books_log ..).trans hbooks,?_⟩
  rw [hr, hregistry, hscreen]
  split
  · rename_i hv
    apply requestRepaint_open
    intro v hv'
    rw [state_noted hw hv']
    exact Window.not_closed_of_visible (Bool.and_eq_true_iff.1 hv).2
  · rfl

theorem repaint_denied {id : WindowId} {caller : Group} (area : Option Rect)
    (waveform : Option Waveform) (marker : Marker)
    (h : (Turn.repaint id caller area waveform marker).asks? d = none) :
    (d.repaint id caller area waveform marker).books = d.books := by
  obtain ⟨hfind,hperm⟩ := logCall_same (d := d) id caller
  have hl := books_logCall d id caller
  simp only [repaint, guardedDo, guarded, hfind, hperm]
  cases hw : d.window? id with
  | none => exact hl
  | some w =>
    cases hp : d.permits id caller with
    | false => exact hl
    | true => simp [Turn.asks?, hp, hw] at h

end Desktop

/-- What a turn does: it serves the repaints of `services`. -/
structure Turn.Accounts (d : Desktop) (t : Turn) (services : List Service) : Prop where
  queued : t.bypasses d = false →
    services.map (·.request) ++ (t.perform d).queue = d.queue ++ (t.asks? d).toList
  bypassed : t.bypasses d = true →
    (t.perform d).queue = d.queue ∧ services = (t.asks? d).toList.map (⟨·,[]⟩)
  unsent : (∀ s ∈ services, s.sent = []) ∨ t = runPending ∨ t = paintNext
  halted : (t.perform d).halted = true ↔ d.halted = true ∨ t = halt
  spent : (t.perform d).halted = true → (t.perform d).queue = []
  deeds : (t.perform d).books.deeds = d.books.deeds ++ services.flatMap Service.deeds ++
    (t.relieves d).map .calledBack
  records : t ≠ tick → (t.perform d).ledger.records.map Record.entry =
    d.ledger.records.map Record.entry ++ services.map Service.entry
  waits : t ≠ tick → t ≠ halt → d.ledger.pending <+: (t.perform d).ledger.pending
  taken : ∀ s ∈ services, ∀ p ∈ s.sent, p.2 = !d.panel.refusesUpdate p.1
  numbered : Numbered d.nextHardwareMarker (services.flatMap Service.marks)
    (t.perform d).nextHardwareMarker

namespace Turn

open Desktop Books

variable {d : Desktop} {t : Turn} {services : List Service}

theorem Accounts.of_serves (hq : d.halted = true → (t.perform d).queue = [])
    (hs : d.books.Serves services (t.perform d).books)
    (hqueued : t.bypasses d = false →
      services.map (·.request) ++ (t.perform d).queue = d.queue ++ (t.asks? d).toList)
    (hbypassed : t.bypasses d = true →
      (t.perform d).queue = d.queue ∧ services = (t.asks? d).toList.map (⟨·,[]⟩))
    (hunsent : (∀ s ∈ services, s.sent = []) ∨ t = runPending ∨ t = paintNext)
    (hrel : t.relieves d = []) (hhalt : t ≠ halt) : t.Accounts d services where
  queued := hqueued
  bypassed := hbypassed
  unsent := hunsent
  halted := by
    rw [show (t.perform d).halted = d.halted from hs.halted]
    exact ⟨.inl,fun h => h.resolve_right hhalt⟩
  spent h := hq (hs.halted.symm.trans h)
  deeds := by
    rw [hs.deeds, hrel, List.map_nil, List.append_nil]
  records _ := hs.records
  waits _ _ := by
    have hp : (t.perform d).ledger = { d.ledger with records := (t.perform d).ledger.records } :=
      hs.ledger
    rw [hp]
  taken := hs.taken
  numbered := hs.numbered

theorem accounts_enqueue (hq : d.halted = true → d.queue = []) {f : Desktop}
    (hf : f.books = d.books) {q : Repaint} (ht : t.perform d = f.enqueue q)
    (hask : t.asks? d = some q) (hpass : t.bypasses d = false) (hrel : t.relieves d = [])
    (hhalt : t ≠ halt) : ∃ services, t.Accounts d services := by
  have hqueue : f.queue = d.queue := congrArg Books.queue hf
  have hhalted : f.halted = d.halted := congrArg Books.halted hf
  obtain ⟨hrun,hend⟩ := serves_enqueue (d := f) q
  rw [hf, ← ht] at hrun hend
  rw [hhalted, hqueue] at hrun hend
  cases hh : d.halted with
  | false =>
    have hb := hrun hh
    refine ⟨[],.of_serves (fun h => absurd h (by simp [hh])) ?_ ?_ ?_ (.inl (by simp)) hrel hhalt⟩
    · rw [hb]
      exact .requeued ..
    · intro _
      rw [hask]
      exact congrArg Books.queue hb
    · simp [hpass]
  | true =>
    obtain ⟨hsame,hs⟩ := hend hh
    have hnil := hq hh
    rw [hnil] at hsame
    refine ⟨[⟨q,[]⟩],.of_serves (fun _ => hsame) hs ?_ ?_ (.inl (by simp)) hrel hhalt⟩
    · intro _
      rw [hsame, hnil, hask]
      rfl
    · simp [hpass]

theorem accounts_bypass (hq : d.halted = true → d.queue = []) {q : Repaint}
    (hqueue : (t.perform d).queue = d.queue)
    (hs : d.books.Serves [⟨q,[]⟩] (t.perform d).books) (hask : t.asks? d = some q)
    (hpass : t.bypasses d = true) (hrel : t.relieves d = []) (hhalt : t ≠ halt) :
    t.Accounts d [⟨q,[]⟩] := by
  refine .of_serves (fun h => hqueue.trans (hq h)) hs ?_ ?_ (.inl (by simp)) hrel hhalt
  · simp [hpass]
  · intro _
    rw [hask]
    exact ⟨hqueue,rfl⟩

theorem accounts_repaint (hq : d.halted = true → d.queue = []) (id : WindowId) (caller : Group)
    (area : Option Rect) (waveform : Option Waveform) (marker : Marker) :
    ∃ services, (repaint id caller area waveform marker).Accounts d services := by
  cases hask : (repaint id caller area waveform marker).asks? d with
  | none =>
    have hb := repaint_denied area waveform marker hask
    have hqueue : ((repaint id caller area waveform marker).perform d).queue = d.queue :=
      congrArg Books.queue hb
    refine ⟨[],.of_serves (fun h => hqueue.trans (hq h)) ?_ ?_ ?_ (.inl (by simp)) rfl nofun⟩
    · rw [show ((repaint id caller area waveform marker).perform d).books = d.books from hb]
      exact .refl _
    · intro _
      rw [hask, hqueue]
      simp
    · intro _
      rw [hask]
      exact ⟨hqueue,rfl⟩
  | some q =>
    obtain ⟨w,hp,hw,rfl⟩ : ∃ w, d.permits id caller = true ∧ d.window? id = some w ∧
        ⟨some id,area.getD w.localRect,waveform,marker,none⟩ = q := by
      rw [asks?] at hask
      split at hask
      · rename_i hp
        obtain ⟨w,hw,he⟩ := Option.map_eq_some_iff.1 hask
        exact ⟨w,hp,hw,he⟩
      · cases hask
    obtain ⟨e,f,he,hf,hr⟩ := repaint_eq hp hw area waveform marker
    have hvisible : d.isVisible id = w.isVisibleOn d.screen := by
      rw [isVisible, hw, Option.any_some]
    by_cases hv : d.registry.isSome && w.isVisibleOn d.screen
    · rw [if_pos hv] at hr
      exact accounts_enqueue hq he hr hask (by simp [bypasses, hvisible, hv]) rfl nofun
    · rw [if_neg hv] at hr
      refine ⟨_,accounts_bypass hq ?_ ?_ hask (by simp [bypasses, hvisible, hv]) rfl nofun⟩
      · rw [perform, hr]
        exact congrArg Books.queue hf
      · rw [perform, hr, books_record, hf]
        exact d.books.serves_uncalled ..

theorem accounts_dirty (hq : d.halted = true → d.queue = []) (window : Option WindowId)
    (area : Rect) (waveform : Option Waveform) (marker : Marker) :
    ∃ services, (dirty window area waveform marker).Accounts d services := by
  by_cases hc : ∃ w, window.bind d.window? = some w ∧ w.state = .closed
  · obtain ⟨w,hw,hc⟩ := hc
    obtain ⟨hqueue,hs⟩ := requestRepaint_closed hw hc area waveform marker
    exact ⟨_,accounts_bypass hq hqueue hs rfl (by simp [bypasses, hw, hc]) rfl nofun⟩
  · have hopen : ∀ w, window.bind d.window? = some w → w.state ≠ .closed :=
      fun w hw hcl => hc ⟨w,hw,hcl⟩
    have he := requestRepaint_open hopen area waveform marker
    refine accounts_enqueue hq rfl he rfl ?_ rfl nofun
    cases hw : window.bind d.window? with
    | none => simp [bypasses, hw]
    | some w => simp [bypasses, hw, hopen w hw]

theorem accounts_runPending (d : Desktop) : ∃ services, runPending.Accounts d services := by
  obtain ⟨hempty,services,hs,hreq⟩ := serves_runPending d
  refine ⟨services,.of_serves (fun _ => hempty) hs ?_ nofun (.inr (.inl rfl)) rfl nofun⟩
  intro _
  rw [hreq, show (runPending.perform d).queue = [] from hempty]
  rfl

theorem accounts_paintNext (hq : d.halted = true → d.queue = []) :
    ∃ services, paintNext.Accounts d services := by
  cases hqueue : d.queue with
  | nil =>
    have hb : (paintNext.perform d).books = d.books := by
      simp only [perform, Desktop.paintNext, hqueue, books_reap]
    have hnil : (paintNext.perform d).queue = [] := (congrArg Books.queue hb).trans hqueue
    refine ⟨[],.of_serves (fun _ => hnil) ?_ ?_ nofun (.inr (.inr rfl)) rfl nofun⟩
    · rw [hb]
      exact .refl _
    · intro _
      rw [hnil, hqueue]
      rfl
  | cons q rest =>
    obtain ⟨sent,hs⟩ := serves_process (d := { d with queue := rest }) q
    have he : paintNext.perform d = { d with queue := rest }.process q := by
      simp only [perform, Desktop.paintNext, hqueue]
    have hrest : (paintNext.perform d).queue = rest := by
      rw [he]
      exact queue_process q
    refine ⟨[⟨q,sent⟩],.of_serves ?_ ?_ ?_ nofun (.inr (.inr rfl)) rfl nofun⟩
    · intro h
      rw [hq h] at hqueue
      cases hqueue
    · rw [he]
      exact (Serves.requeued d.books rest).trans hs
    · intro _
      rw [hrest, hqueue]
      simp [asks?]

theorem accounts_halt (d : Desktop) : ∃ services, halt.Accounts d services := by
  obtain ⟨hempty,b,services,hs,hreq,hsent,hb⟩ := books_halt d
  refine ⟨services,?_,nofun,.inl hsent,?_,fun _ => hempty,?_,fun _ => ?_,
    fun _ hh => absurd rfl hh,hs.taken,?_⟩
  · intro _
    rw [hreq, show (halt.perform d).queue = [] from hempty]
    rfl
  · have hh : d.halt.halted = true := (congrArg Books.halted hb).trans hs.halted
    exact ⟨fun _ => .inr rfl,fun _ => hh⟩
  · have hd := (congrArg Books.deeds hb).trans (congrArg (· ++ _) hs.deeds)
    exact hd
  · have hr := congrArg (fun b => b.ledger.records.map Record.entry) hb
    exact hr.trans hs.records
  · have hn := hs.numbered
    rwa [show b.nextMark = (halt.perform d).nextHardwareMarker from
      (congrArg Books.nextMark hb).symm] at hn

theorem accounts_nil (hq : d.halted = true → d.queue = []) {ledger : Ledger Callback}
    (hb : (t.perform d).books = { d.books with ledger }.callBack (t.relieves d))
    (hr : t ≠ tick → ledger.records = d.ledger.records)
    (hw : t ≠ tick → d.ledger.pending <+: ledger.pending) (hask : t.asks? d = none)
    (hpass : t.bypasses d = false) (hhalt : t ≠ halt) : t.Accounts d [] := by
  have hqueue : (t.perform d).queue = d.queue := congrArg Books.queue hb
  have hhalted : (t.perform d).halted = d.halted := congrArg Books.halted hb
  have hledger : (t.perform d).ledger = ledger := congrArg Books.ledger hb
  refine ⟨?_,?_,.inl (by simp),?_,?_,?_,?_,?_,by simp,congrArg Books.nextMark hb⟩
  · intro _
    rw [hask, hqueue]
    simp
  · simp [hpass]
  · rw [hhalted]
    exact ⟨.inl,fun h => h.resolve_right hhalt⟩
  · intro h
    rw [hqueue]
    exact hq (hhalted ▸ h)
  · simpa [callBack] using congrArg Books.deeds hb
  · intro ht
    rw [hledger, hr ht]
    simp
  · intro ht _
    rw [hledger]
    exact hw ht

theorem accounts_meanwhile (hq : d.halted = true → d.queue = []) (f : Desktop → Desktop)
    (h : ∀ d : Desktop, d.Undisturbed (f d)) : (meanwhile f h).Accounts d [] := by
  have hb := h d
  have hqueue : (f d).queue = d.queue := congrArg Books.queue hb
  have hhalted : (f d).halted = d.halted := congrArg Books.halted hb
  have hledger : (f d).ledger = d.ledger := congrArg Books.ledger hb
  refine ⟨?_,nofun,.inl (by simp),?_,?_,?_,?_,?_,by simp,congrArg Books.nextMark hb⟩
  · intro _
    exact hqueue.trans (List.append_nil _).symm
  · rw [perform, hhalted]
    exact ⟨.inl,fun hh => hh.resolve_right nofun⟩
  · intro hh
    exact hqueue.trans (hq (hhalted.symm.trans hh))
  · simpa [perform, relieves] using congrArg Books.deeds hb
  · intro _
    rw [perform, hledger]
    simp
  · intro _ _
    rw [perform, hledger]

theorem exists_accounts (hq : d.halted = true → d.queue = []) (t : Turn) :
    ∃ services, t.Accounts d services := by
  cases t with
  | repaint => exact accounts_repaint hq ..
  | dirty => exact accounts_dirty hq ..
  | enqueue q => exact accounts_enqueue hq rfl rfl rfl rfl rfl nofun
  | addWait window marker c =>
    refine ⟨[],accounts_nil hq (d.books_addWait window marker c) ?_ ?_ rfl rfl nofun⟩
    · intro _
      rw [Ledger.addWait]
      split <;> rfl
    · intro _
      rw [Ledger.addWait]
      split
      · exact List.prefix_refl _
      · exact List.prefix_append ..
  | runPending => exact accounts_runPending d
  | paintNext => exact accounts_paintNext hq
  | tick =>
    exact ⟨[],accounts_nil hq d.books_tick (fun h => absurd rfl h) (fun h => absurd rfl h) rfl rfl
      nofun⟩
  | halt => exact accounts_halt d
  | meanwhile f h => exact ⟨[],accounts_meanwhile hq f h⟩

end Turn

structure Course where
  start : Desktop
  turns : List Turn

namespace Course

def turn (C : Course) (j : Nat) : Turn := C.turns.getD j (.meanwhile id fun _ => rfl)

/-- How things stand before turn number `j`. -/
def before (C : Course) : Nat → Desktop
  | 0 => C.start
  | j + 1 => (C.turn j).perform (C.before j)

variable (C : Course)

def asked (j : Nat) : Option Repaint := (C.turn j).asks? (C.before j)

def bypassed (j : Nat) : Bool := (C.turn j).bypasses (C.before j)

def relieved (j : Nat) : List Callback := (C.turn j).relieves (C.before j)

def queuing (j : Nat) : List Nat := (List.range j).filter fun i => !C.bypassed i

variable {C}

theorem queuing_succ (j : Nat) :
    C.queuing (j+1) = C.queuing j ++ if C.bypassed j then [] else [j] := by
  rw [queuing, List.range_succ, List.filter_append, List.filter_singleton]
  cases C.bypassed j <;> rfl

theorem exists_served (hq : C.start.halted = true → C.start.queue = []) :
    ∃ served : Nat → List Service, ∀ j, (C.turn j).Accounts (C.before j) (served j) := by
  have hspent : ∀ j, (C.before j).halted = true → (C.before j).queue = [] := by
    intro j
    induction j with
    | zero => exact hq
    | succ j ih =>
      obtain ⟨services,h⟩ := Turn.exists_accounts ih (C.turn j)
      exact h.spent
  choose served h using fun j => Turn.exists_accounts (hspent j) (C.turn j)
  exact ⟨served,h⟩

section Served

variable {served : Nat → List Service} (h : ∀ j, (C.turn j).Accounts (C.before j) (served j))
include h

theorem served_append_queue (j : Nat) :
    ((C.queuing j).flatMap served).map (·.request) ++ (C.before j).queue =
      C.start.queue ++ (C.queuing j).filterMap C.asked := by
  induction j with
  | zero => exact (List.append_nil _).symm
  | succ j ih =>
    rw [queuing_succ, before]
    cases hb : C.bypassed j with
    | true =>
      rw [(h j).bypassed hb |>.1]
      simpa using ih
    | false =>
      have hs := (h j).queued hb
      simp only [Bool.false_eq_true, if_false, List.flatMap_append, List.filterMap_append,
        List.map_append, List.append_assoc, List.flatMap_singleton]
      rw [hs, ← List.append_assoc, ih]
      cases ha : (C.turn j).asks? (C.before j) <;> simp [asked, ha]

theorem served_perm (j : Nat) :
    (((List.range j).flatMap served).map (·.request) ++ (C.before j).queue).Perm
      (C.start.queue ++ (List.range j).filterMap C.asked) := by
  induction j with
  | zero => exact .of_eq (List.append_nil _).symm
  | succ j ih =>
    have hstep : ((served j).map (·.request) ++ (C.before (j+1)).queue).Perm
        ((C.before j).queue ++ (C.asked j).toList) := by
      cases hb : C.bypassed j with
      | true =>
        obtain ⟨hqueue,hs⟩ := (h j).bypassed hb
        rw [before, hqueue, hs, List.map_map]
        simpa [Function.comp_def, asked] using List.perm_append_comm
      | false => exact .of_eq ((h j).queued hb)
    simp only [List.range_succ, List.flatMap_append, List.filterMap_append, List.map_append,
      List.append_assoc, List.flatMap_singleton]
    refine (hstep.append_left _).trans ?_
    rw [← List.append_assoc]
    refine (ih.append_right _).trans (.of_eq ?_)
    cases ha : C.asked j <;> simp [ha]

theorem numbered (j : Nat) : Numbered C.start.nextHardwareMarker
    (((List.range j).flatMap served).flatMap Service.marks) (C.before j).nextHardwareMarker := by
  induction j with
  | zero => rfl
  | succ j ih =>
    rw [List.range_succ, List.flatMap_append, List.flatMap_append, List.flatMap_singleton]
    exact ih.append (h j).numbered

theorem halted_before (j : Nat) : (C.before j).halted = true ↔
    C.start.halted = true ∨ ∃ i < j, C.turn i = .halt := by
  induction j with
  | zero => simp [before]
  | succ j ih =>
    rw [before, (h j).halted, ih, or_assoc, Nat.exists_lt_succ_right]

theorem spent_before {i j : Nat} (hij : i < j) (ht : C.turn i = .halt) :
    (C.before j).queue = [] ∧ ∀ s ∈ served j, s.sent = [] := by
  have hqueue : ∀ j, i < j → (C.before j).queue = [] := by
    intro j hij
    have hh := (halted_before h j).2 (.inr ⟨i,hij,ht⟩)
    cases j with
    | zero => cases hij
    | succ j => exact (h j).spent hh
  refine ⟨hqueue j hij,?_⟩
  rcases (h j).unsent with hu | hu
  · exact hu
  · have hb : C.bypassed j = false := by
      rw [bypassed]
      rcases hu with hu | hu <;> rw [hu] <;> rfl
    have hnone : C.asked j = none := by
      rw [asked]
      rcases hu with hu | hu <;> rw [hu] <;> rfl
    have hs := (h j).queued hb
    rw [hqueue j hij, show (C.turn j).asks? (C.before j) = none from hnone] at hs
    have hnil : served j = [] := by simpa using (List.append_eq_nil_iff.1 hs).1
    simp [hnil]

end Served

/-- In a course of repaints that starts with an empty queue every turn serves some repaints: for
each its updates, then its record with the mark of the last update taken, then its callback, and
nothing else of the kind happens but the callbacks of waits that are over. A repaint that bypasses
the queue is served in its own turn. What has been served from the queue followed by what is in it
is what was asked for, in order, so that once the queue is empty each repaint has been served
once. Fewer than 2^32-1 updates have different marks, none of them zero. After the end the queue
stays empty and no update is sent. -/
theorem repaints_served_once (C : Course) (hq : C.start.queue = []) :
    ∃ served : Nat → List Service,
      (∀ j, (C.before (j+1)).books.deeds = (C.before j).books.deeds ++
        (served j).flatMap Service.deeds ++ (C.relieved j).map .calledBack) ∧
      (∀ j, C.turn j ≠ .tick → (C.before (j+1)).ledger.records.map Record.entry =
        (C.before j).ledger.records.map Record.entry ++ (served j).map Service.entry) ∧
      (∀ j, ∀ s ∈ served j, ∀ p ∈ s.sent, p.2 = !(C.before j).panel.refusesUpdate p.1) ∧
      (∀ j, C.bypassed j = true → served j = (C.asked j).toList.map (⟨·,[]⟩)) ∧
      (∀ j, ((C.queuing j).flatMap served).map (·.request) ++ (C.before j).queue =
        (C.queuing j).filterMap C.asked) ∧
      (∀ j, (C.before j).queue = [] → (((List.range j).flatMap served).map (·.request)).Perm
        ((List.range j).filterMap C.asked)) ∧
      (∀ j, let marks := ((List.range j).flatMap served).flatMap Service.marks
        marks.length < 4294967295 → (∀ m ∈ marks, m ≠ 0) ∧ marks.Nodup) ∧
      ∀ i j, i < j → C.turn i = .halt → (C.before j).queue = [] ∧ ∀ s ∈ served j, s.sent = [] := by
  obtain ⟨served,h⟩ := exists_served fun _ => hq
  refine ⟨served,fun j => (h j).deeds,fun j => (h j).records,fun j => (h j).taken,
    fun j hb => ((h j).bypassed hb).2,?_,?_,?_,fun i j hij ht => spent_before h hij ht⟩
  · intro j
    rw [served_append_queue h j, hq, List.nil_append]
  · intro j hj
    have hp := served_perm h j
    rwa [hj, hq, List.append_nil, List.nil_append] at hp
  · intro j marks hlt
    have hn := numbered h j
    exact ⟨hn.ne_zero,hn.nodup hlt⟩

/-- Two repaints, one of them after the end. -/
theorem repaints_served_once_ended :
    let q : Repaint := ⟨none,⟨0,0,4,3⟩,none,5,some (.outside "shown")⟩
    let late : Repaint := ⟨none,⟨0,0,1,1⟩,some .mono,6,none⟩
    let C : Course := ⟨.fresh Desktop.smallPanel .anonymous {} 24 1,
      [.enqueue q,.runPending,.halt,.enqueue late,.tick]⟩
    C.start.queue = [] ∧ ∃ served : Nat → List Service,
      ((List.range 5).flatMap served).map (·.request) = [q,late] ∧ (C.before 5).queue = [] ∧
        (∀ s ∈ served 3, s.sent = []) := by
  intro q late C
  obtain ⟨served,-,-,-,-,horder,-,-,hend⟩ := repaints_served_once C rfl
  obtain ⟨hempty,-⟩ := hend 2 5 (by decide) rfl
  have hq := horder 5
  rw [hempty, List.append_nil] at hq
  exact ⟨rfl,served,hq,hempty,(hend 2 3 (by decide) rfl).2⟩

end Course

end InkCompositor
