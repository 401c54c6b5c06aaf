import InkCompositor.Proofs.Desktop.Course
import InkCompositor.Proofs.Desktop.Markers
import InkCompositor.Proofs.Marker.Sifting

/-!
# Standing still for a repaint

A caller that stands still enters a wait and queues its repaint under the same
window and marker. Where nothing else is recorded, queued or asked for under
them, it is the record of this very repaint that lets the caller go on, unless
time runs out or everything ends. A record that is there already lets it go on
before anything has been painted.
-/

set_option autoImplicit false

namespace InkCompositor

def Record.key (r : Record) : Option WindowId × Marker := (r.window,r.marker)

def Repaint.key (q : Repaint) : Option WindowId × Marker := (q.window,q.marker)

theorem Ledger.mem_of_latest? {records : List Record} {window : Option WindowId} {marker : Marker}
    {r : Record} (h : latest? records window marker = some r) :
    r ∈ records ∧ r.key = (window,marker) := by
  have hfind : records.reverse.find? (·.isFor window marker) = some r := h
  have hfor := List.find?_some hfind
  obtain ⟨hw,hm⟩ := Record.isFor_iff.1 hfor
  exact ⟨List.mem_reverse.1 (List.mem_of_find?_eq_some hfind),Prod.ext hw hm⟩

theorem Ledger.mem_records_tick {κ : Type} {l : Ledger κ} {now : Time} {r : Record}
    (h : r ∈ (l.tick now).1.records) : ∃ r' ∈ l.records, r'.entry = r.entry := by
  have hmem : r.entry ∈ (sift now l.records l.pending).records.map Record.entry :=
    List.mem_map_of_mem (List.mem_of_mem_filter h)
  rw [map_records_sift now l.records l.pending Record.entry fun _ => rfl] at hmem
  exact List.mem_map.1 hmem

theorem Ledger.mem_pending_tick {κ : Type} {l : Ledger κ} {now : Time} {w : Wait κ}
    (hw : w ∈ l.pending) (hm : w.marker ≠ 0) : w ∈ (l.tick now).1.pending ∨
      w.deadline ≤ now ∨ ∃ r, latest? l.records w.window w.marker = some r := by
  by_cases hd : w.deadline ≤ now
  · exact .inr (.inl hd)
  · cases hr : latest? l.records w.window w.marker with
    | some r => exact .inr (.inr ⟨r,rfl⟩)
    | none =>
      have hv := verdict_eq_keep_iff.2 ⟨hm,not_le.1 hd,hr⟩
      apply Or.inl
      rw [tick, kept_sift]
      exact List.mem_filter.2 ⟨hw,decide_eq_true hv⟩

theorem Desktop.ledger_tick (d : Desktop) : d.tick.ledger = (d.ledger.tick d.now).1 :=
  congrArg Books.ledger d.books_tick

namespace Course

variable {C : Course} {served : Nat → List Service}
  (h : ∀ j, (C.turn j).Accounts (C.before j) (served j))
include h

theorem origin_of_record (j : Nat) {r : Record} (hr : r ∈ (C.before j).ledger.records) :
    (∃ r' ∈ C.start.ledger.records, r'.entry = r.entry) ∨
      ∃ i < j, ∃ s ∈ served i, s.entry = r.entry := by
  induction j generalizing r with
  | zero => exact .inl ⟨r,hr,rfl⟩
  | succ j ih =>
    have hold : (∃ r' ∈ (C.before j).ledger.records, r'.entry = r.entry) ∨
        ∃ s ∈ served j, s.entry = r.entry := by
      by_cases ht : C.turn j = .tick
      · rw [before, ht, Turn.perform, Desktop.ledger_tick] at hr
        exact .inl (Ledger.mem_records_tick hr)
      · have hmem : r.entry ∈ (C.before (j+1)).ledger.records.map Record.entry :=
          List.mem_map_of_mem hr
        rw [before, (h j).records ht, List.mem_append, List.mem_map, List.mem_map] at hmem
        exact hmem
    rcases hold with ⟨r',hr',he⟩ | ⟨s,hs,he⟩
    · rcases ih hr' with ⟨r₀,hr₀,he₀⟩ | ⟨i,hi,s,hs,hes⟩
      · exact .inl ⟨r₀,hr₀,he₀.trans he⟩
      · exact .inr ⟨i,Nat.lt_succ_of_lt hi,s,hs,hes.trans he⟩
    · exact .inr ⟨j,Nat.lt_succ_self j,s,hs,he⟩

theorem origin_of_request {j : Nat} {q : Repaint}
    (hq : q ∈ ((List.range j).flatMap served).map (·.request) ++ (C.before j).queue) :
    q ∈ C.start.queue ∨ ∃ k < j, C.asked k = some q := by
  rcases List.mem_append.1 ((served_perm h j).mem_iff.1 hq) with hq | ha
  · exact .inl hq
  · obtain ⟨k,hk,ha⟩ := List.mem_filterMap.1 ha
    exact .inr ⟨k,List.mem_range.1 hk,ha⟩

theorem origin_of_served {i : Nat} {s : Service} (hs : s ∈ served i) :
    s.request ∈ C.start.queue ∨ ∃ k < i+1, C.asked k = some s.request := by
  have hmem : s ∈ (List.range (i+1)).flatMap served :=
    List.mem_flatMap.2 ⟨i,List.mem_range.2 (Nat.lt_succ_self i),hs⟩
  exact origin_of_request h (List.mem_append_left _ (List.mem_map_of_mem hmem))

theorem waits_on {w : Wait Callback} (hm : w.marker ≠ 0) {j : Nat}
    (hw : w ∈ (C.before j).ledger.pending) : w ∈ (C.before (j+1)).ledger.pending ∨
      C.turn j = .halt ∨ C.turn j = .tick ∧ (w.deadline ≤ (C.before j).now ∨
        ∃ r, Ledger.latest? (C.before j).ledger.records w.window w.marker = some r) := by
  by_cases hh : C.turn j = .halt
  · exact .inr (.inl hh)
  · by_cases ht : C.turn j = .tick
    · have hl : (C.before (j+1)).ledger = ((C.before j).ledger.tick (C.before j).now).1 := by
        rw [before, ht]
        exact Desktop.ledger_tick _
      rw [hl]
      exact (Ledger.mem_pending_tick hw hm).imp_right fun hr => .inr ⟨ht,hr⟩
    · exact .inl (((h j).waits ht hh).subset hw)

theorem waits_until {w : Wait Callback} (hm : w.marker ≠ 0) (hw : w ∈ C.start.ledger.pending)
    (j : Nat) : w ∈ (C.before j).ledger.pending ∨ (∃ i < j, C.turn i = .halt) ∨
      ∃ i < j, C.turn i = .tick ∧ (w.deadline ≤ (C.before i).now ∨
        ∃ r, Ledger.latest? (C.before i).ledger.records w.window w.marker = some r) := by
  induction j with
  | zero => exact .inl hw
  | succ j ih =>
    have hlt {i : Nat} (hi : i < j) : i < j+1 := Nat.lt_succ_of_lt hi
    rcases ih with hw | ⟨i,hi,hh⟩ | ⟨i,hi,ht⟩
    · rcases waits_on h hm hw with hw | hh | ht
      · exact .inl hw
      · exact .inr (.inl ⟨j,Nat.lt_succ_self j,hh⟩)
      · exact .inr (.inr ⟨j,Nat.lt_succ_self j,ht⟩)
    · exact .inr (.inl ⟨i,hlt hi,hh⟩)
    · exact .inr (.inr ⟨i,hlt hi,ht⟩)

end Course

/-- Nothing is recorded or queued under a window and a marker. -/
structure Desktop.Unused (d : Desktop) (key : Option WindowId × Marker) : Prop where
  recorded : ∀ r ∈ d.ledger.records, r.key ≠ key
  queued : ∀ q ∈ d.queue, q.key ≠ key

theorem Record.key_of_entry {r : Record} {s : Service} (h : s.entry = r.entry) :
    s.request.key = r.key := congrArg (fun e => (e.1,e.2.1)) h

theorem Record.key_of_entry_eq {r r' : Record} (h : r.entry = r'.entry) : r.key = r'.key :=
  congrArg (fun e => (e.1,e.2.1)) h

/-- Before turn `i` the latest record for a repaint is its own. -/
def Course.Answered (C : Course) (served : Nat → List Service) (own : Repaint) (i : Nat) : Prop :=
  ∃ r, Ledger.latest? (C.before i).ledger.records own.window own.marker = some r ∧
    ∃ k < i, ∃ s ∈ served k, s.request = own ∧ s.entry = r.entry

theorem Course.answered_of_latest? {C : Course} {served : Nat → List Service}
    (h : ∀ j, (C.turn j).Accounts (C.before j) (served j)) {own : Repaint}
    (hstart : ∀ r ∈ C.start.ledger.records, r.key ≠ own.key)
    (hqueue : ∀ q ∈ C.start.queue, q.key = own.key → q = own) {i : Nat}
    (hasked : ∀ k < i, ∀ q, C.asked k = some q → q.key ≠ own.key) {r : Record}
    (hr : Ledger.latest? (C.before i).ledger.records own.window own.marker = some r) :
    C.Answered served own i := by
  obtain ⟨hmem,hkey⟩ := Ledger.mem_of_latest? hr
  rcases origin_of_record h i hmem with ⟨r',hr',he⟩ | ⟨k,hk,s,hs,he⟩
  · exact absurd ((Record.key_of_entry_eq he).trans hkey) (hstart r' hr')
  · have hreq : s.request.key = own.key := (Record.key_of_entry he).trans hkey
    refine ⟨r,hr,k,hk,s,hs,?_,he⟩
    rcases origin_of_served h hs with hq | ⟨k',hk',ha⟩
    · exact hqueue s.request hq hreq
    · exact absurd hreq (hasked k' (Nat.lt_of_lt_of_le hk' hk) _ ha)

namespace Desktop

def standingMarker (r : Registry) (marker : Marker) : Marker :=
  if marker = 0 then r.nextInternal else marker

/-- A caller has entered its wait and asked for its repaint. -/
def standing (d : Desktop) (r : Registry) (marker : Marker) (own : Repaint) : Desktop :=
  ((if marker = 0 then { d with registry := some { r with nextInternal := r.nextInternal+1 } }
    else d).addWait own.window own.marker .proceed).enqueue own

def standingWait (d : Desktop) (own : Repaint) : Wait Callback :=
  ⟨own.marker,own.window,.proceed,d.now+d.ledger.waitTimeout⟩

variable {d : Desktop} {r : Registry} {window : Option WindowId}

theorem repaintAndWait_eq (hr : d.registry = some r)
    (hopen : (window.bind d.window?).any (·.state == .closed) = false) (region : Rect)
    (waveform : Option Waveform) (marker : Marker) :
    d.repaintAndWait window region waveform marker =
      (d.standing r marker ⟨window,region,waveform,standingMarker r marker,none⟩).standStill
        (d.ledger.resolvesAtOnce window (standingMarker r marker))
        "Synchronous repaint was not resolved in time" := by
  unfold repaintAndWait
  rw [hr]
  by_cases hm : marker = 0
  · simp [hopen, standing, standingMarker, hm]
  · simp [hopen, standing, standingMarker, hm]

theorem books_standing (r : Registry) (marker : Marker) (own : Repaint) (hrun : d.halted = false) :
    (d.standing r marker own).books = { d.books.callBack
      (d.ledger.addWait d.now own.window own.marker .proceed).2.toList with
      ledger := (d.ledger.addWait d.now own.window own.marker .proceed).1
      queue := d.queue ++ [own] } := by
  generalize he : (if marker = 0 then
    { d with registry := some { r with nextInternal := r.nextInternal+1 } } else d) = e
  have hbooks : e.books = d.books ∧ e.now = d.now := by
    rw [← he]
    split <;> exact ⟨rfl,rfl⟩
  have hwait := books_addWait (d := e) own.window own.marker .proceed
  rw [show e.ledger = d.ledger from congrArg Books.ledger hbooks.1, hbooks.1, hbooks.2] at hwait
  have hs := (serves_enqueue own).1 ((congrArg Books.halted hwait).trans hrun)
  rw [hwait, show (e.addWait own.window own.marker .proceed).queue = d.queue from
    congrArg Books.queue hwait] at hs
  rw [standing, he, hs]
  rfl

theorem standing_unused (r : Registry) (marker : Marker) {own : Repaint} (hrun : d.halted = false)
    (hstop : d.ledger.stopping = false) (hm : own.marker ≠ 0) (hu : d.Unused own.key) :
    d.ledger.resolvesAtOnce own.window own.marker = false ∧
    (d.standing r marker own).books = { d.books with
      ledger := { d.ledger with pending := d.ledger.pending ++ [d.standingWait own] }
      queue := d.queue ++ [own] } := by
  have hnone : Ledger.latest? d.ledger.records own.window own.marker = none := by
    rw [Ledger.latest?_eq_none_iff]
    rintro ⟨r,hr,hw,hm⟩
    exact hu.recorded r hr (Prod.ext hw hm)
  have hat : d.ledger.resolvesAtOnce own.window own.marker = false := by
    simp [Ledger.resolvesAtOnce, hstop, hm, hnone]
  refine ⟨hat,?_⟩
  rw [books_standing r marker own hrun, Ledger.addWait, if_neg (Bool.eq_false_iff.1 hat)]
  simp [standingWait]

theorem Modest.unused {n : Nat} (h : Modest n d) (hn : n < 18446744069414584320)
    (hr : d.registry = some r) (window : Option WindowId) :
    4294967296 ≤ r.nextInternal.toNat ∧ d.Unused (window,r.nextInternal) := by
  obtain ⟨next,hle,-,hnum⟩ := h.numbered hn
  obtain rfl : r.nextInternal = next := hnum.internal _ (by simp [agenda, hr])
  have hne : ∀ marker : Marker, marker.toNat < r.nextInternal.toNat →
      marker ≠ r.nextInternal := fun marker hlt he => (he ▸ hlt).false
  exact ⟨hle,fun q hq hk => hne _ (hnum.recorded q hq) (congrArg Prod.snd hk),
    fun q hq hk => hne _ (hnum.queued q hq) (congrArg Prod.snd hk)⟩

/-- The window and the marker are unused. A caller without a marker gets one for which that is so,
if all callers before keep to the markers of clients. -/
def Untouched (d : Desktop) (window : Option WindowId) (marker : Marker) : Prop :=
  marker ≠ 0 ∧ d.Unused (window,marker) ∨
    marker = 0 ∧ ∃ n < 18446744069414584320, Modest n d

theorem Untouched.unused {marker : Marker} (h : d.Untouched window marker)
    (hr : d.registry = some r) : standingMarker r marker ≠ 0 ∧
      d.Unused (window,standingMarker r marker) ∧
      (marker = 0 → 4294967296 ≤ (standingMarker r marker).toNat) := by
  rcases h with ⟨hm,hu⟩ | ⟨rfl,n,hn,hmodest⟩
  · rw [standingMarker, if_neg hm]
    exact ⟨hm,hu,fun h => absurd h hm⟩
  · obtain ⟨hle,hu⟩ := hmodest.unused hn hr window
    rw [standingMarker, if_pos rfl]
    refine ⟨fun hz => ?_,hu,fun _ => hle⟩
    rw [hz] at hle
    exact absurd hle (by decide)

/-- A caller that stands still under a window and marker that nothing is recorded or queued under,
and that nobody else asks for meanwhile, goes on waiting until a tick finds the record of its own
repaint or finds it too old, or until the end. For a caller without a marker it is enough that all
others keep to the markers that clients can send. -/
theorem stands_for_own_repaint (hr : d.registry = some r) (hrun : d.halted = false)
    (hstop : d.ledger.stopping = false)
    (hopen : (window.bind d.window?).any (·.state == .closed) = false) (region : Rect)
    (waveform : Option Waveform) (marker : Marker) (hu : d.Untouched window marker)
    (own : Repaint) (hown : own = ⟨window,region,waveform,standingMarker r marker,none⟩) :
    d.repaintAndWait window region waveform marker =
      (d.standing r marker own).standStill false "Synchronous repaint was not resolved in time" ∧
    ∀ turns, let C : Course := ⟨d.standing r marker own,turns⟩
      ∃ served : Nat → List Service, (∀ j, (C.turn j).Accounts (C.before j) (served j)) ∧
        ∀ j, (∀ i < j, ∀ q, C.asked i = some q →
            q.key ≠ own.key ∨ marker = 0 ∧ q.marker.toNat < 4294967296) →
          d.standingWait own ∈ (C.before j).ledger.pending ∨ (∃ i < j, C.turn i = .halt) ∨
            ∃ i < j, C.turn i = .tick ∧ ((d.standingWait own).deadline ≤ (C.before i).now ∨
              C.Answered served own i) := by
  obtain ⟨hm,hunused,hhigh⟩ := hu.unused hr
  have hm : own.marker ≠ 0 := hown ▸ hm
  have hunused : d.Unused own.key := hown ▸ hunused
  obtain ⟨hat,hbooks⟩ := standing_unused r marker hrun hstop hm hunused
  constructor
  · rw [hown] at hat ⊢
    rw [repaintAndWait_eq hr hopen, hat]
  · intro turns C
    have hstart : C.start.halted = false := (congrArg Books.halted hbooks).trans hrun
    have hqueue : C.start.queue = d.queue ++ [own] := congrArg Books.queue hbooks
    have hledger : C.start.ledger = { d.ledger with
        pending := d.ledger.pending ++ [d.standingWait own] } := congrArg Books.ledger hbooks
    obtain ⟨served,h⟩ := C.exists_served fun hh => absurd hh (Bool.eq_false_iff.1 hstart)
    refine ⟨served,h,?_⟩
    intro j hasked
    have hother : ∀ i < j, ∀ q, C.asked i = some q → q.key ≠ own.key := by
      intro i hi q hq
      refine (hasked i hi q hq).elim id fun ⟨hz,hlow⟩ hk => ?_
      have hmarker : q.marker = standingMarker r marker := by
        rw [show q.marker = own.marker from congrArg Prod.snd hk, hown]
      rw [hmarker] at hlow
      exact absurd (hhigh hz) (not_le.2 hlow)
    have hw : d.standingWait own ∈ C.start.ledger.pending := by
      rw [hledger]
      exact List.mem_append_right _ (List.mem_singleton.2 rfl)
    rcases Course.waits_until h hm hw j with hw | hh | ⟨i,hi,ht,hd | ⟨found,hf⟩⟩
    · exact .inl hw
    · exact .inr (.inl hh)
    · exact .inr (.inr ⟨i,hi,ht,.inl hd⟩)
    -- the record that the tick finds is of a repaint served, and only one has the key
    · refine .inr (.inr ⟨i,hi,ht,.inr ?_⟩)
      apply Course.answered_of_latest? h _ _ (fun k hk => hother k (hk.trans hi)) hf
      · rw [hledger]
        exact hunused.recorded
      · intro q hq hk
        rw [hqueue, List.mem_append, List.mem_singleton] at hq
        exact hq.resolve_left fun hq => hunused.queued q hq hk

/-- A second caller stands still under an internal marker, while the repaint of the first one is
still queued and others ask for repaints of the same area. -/
theorem stands_for_own_repaint_unmarked :
    let d := ((fresh smallPanel .anonymous {} 24 1).perform
      (.dirtyAndWait none ⟨0,0,4,3⟩ none 0)).perform (.dirty none ⟨0,0,4,3⟩ none 7)
    let own : Repaint := ⟨none,⟨0,0,4,3⟩,none,4294967297,none⟩
    ∃ r, d.registry = some r ∧ r.nextInternal = 4294967297 ∧
      d.queue.map (·.marker) = [4294967296,7] ∧ d.Untouched none 0 ∧
      d.repaintAndWait none ⟨0,0,4,3⟩ none 0 =
        (d.standing r 0 own).standStill false "Synchronous repaint was not resolved in time" ∧
      let C : Course := ⟨d.standing r 0 own,[.dirty none ⟨0,0,4,3⟩ none 7,.runPending,
        .meanwhile (fun d => { d with now := d.now+50 }) fun _ => rfl,.tick]⟩
      ∃ served : Nat → List Service, ∀ j, d.standingWait own ∈ (C.before j).ledger.pending ∨
        ∃ i < j, C.turn i = .tick ∧ ((d.standingWait own).deadline ≤ (C.before i).now ∨
          C.Answered served own i) := by
  intro d own
  have hmodest : Modest 2 d := by
    refine .act _ ?_ (.act _ ?_ (.fresh smallPanel .anonymous {} 24 1 {} rfl))
    · rintro _ rfl
      decide
    · rintro _ rfl
      decide
  have hu : d.Untouched none 0 := .inr ⟨rfl,2,by decide,hmodest⟩
  have hnext : d.registry.map (·.nextInternal) = some 4294967297 := by decide +kernel
  obtain ⟨r,hr,hi⟩ := Option.map_eq_some_iff.1 hnext
  have hown : own = ⟨none,⟨0,0,4,3⟩,none,standingMarker r 0,none⟩ := by
    rw [standingMarker, if_pos rfl, hi]
  obtain ⟨hstand,hwait⟩ := stands_for_own_repaint hr (by decide +kernel) (by decide +kernel) rfl
    ⟨0,0,4,3⟩ none 0 hu own hown
  refine ⟨r,hr,hi,by decide +kernel,hu,hstand,?_⟩
  intro C
  obtain ⟨served,-,h⟩ := hwait C.turns
  have hturn : ∀ i, C.turn i ≠ .halt ∧ ∀ q, C.asked i = some q → q.marker = 7 := by
    intro i
    match i with
    | 0 => exact ⟨nofun,fun q hq => Option.some.inj hq ▸ rfl⟩
    | 1 | 2 | 3 => exact ⟨nofun,nofun⟩
    | i + 4 => exact ⟨nofun,nofun⟩
  refine ⟨served,fun j => ?_⟩
  have hasked : ∀ i < j, ∀ q, C.asked i = some q →
      q.key ≠ own.key ∨ (0 : Marker) = 0 ∧ q.marker.toNat < 4294967296 := by
    intro i _ q hq
    rw [(hturn i).2 q hq]
    exact .inr ⟨rfl,by decide⟩
  exact (h j hasked).imp_right fun hj => hj.resolve_left fun ⟨i,_,hh⟩ => (hturn i).1 hh

/-- A record that is there already lets the caller go on at once; its own repaint stays queued. -/
theorem repaintAndWait_recorded (hr : d.registry = some r)
    (hopen : (window.bind d.window?).any (·.state == .closed) = false) (hrun : d.halted = false)
    (region : Rect) (waveform : Option Waveform) (marker : Marker) (own : Repaint)
    (hown : own = ⟨window,region,waveform,standingMarker r marker,none⟩)
    (hrec : ∃ r ∈ d.ledger.records, r.key = own.key) :
    (d.repaintAndWait window region waveform marker).books =
      { d.books.callBack [.proceed] with queue := d.queue ++ [own] } := by
  have hat : d.ledger.resolvesAtOnce own.window own.marker = true := by
    have hsome : (Ledger.latest? d.ledger.records own.window own.marker).isSome := by
      rw [Ledger.isSome_latest?_iff]
      obtain ⟨r,hr,hk⟩ := hrec
      exact ⟨r,hr,Prod.mk.inj hk⟩
    simp [Ledger.resolvesAtOnce, hsome]
  have hbooks := books_standing r marker own hrun
  rw [Ledger.addWait, if_pos hat] at hbooks
  rw [hown] at hat
  rw [repaintAndWait_eq hr hopen, hat, standStill, if_pos rfl, ← hown, hbooks]
  rfl

/-- The caller goes on because of an earlier repaint, with its own one still to be painted, though
nothing has ended and no time has passed. -/
theorem proceeds_before_painted :
    let d := ((fresh smallPanel .anonymous {} 24 1).enqueue
      ⟨none,⟨9,9,4,3⟩,none,5,none⟩).runPending.1
    let e := d.repaintAndWait none ⟨1,1,2,2⟩ none 5
    d.ledger.records.map Record.entry = [(none,5,0)] ∧
      .calledBack .proceed ∉ d.books.deeds ∧ .calledBack .proceed ∈ e.books.deeds ∧
      e.ledger.pending.length = 0 ∧ e.queue = [⟨none,⟨1,1,2,2⟩,none,5,none⟩] ∧
      e.halted = false ∧ e.now < d.now+d.ledger.waitTimeout := by
  decide +kernel

end Desktop

end InkCompositor
