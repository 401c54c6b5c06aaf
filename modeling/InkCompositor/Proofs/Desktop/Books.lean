import Mathlib
import InkCompositor.Proofs.Desktop.Changes

/-!
# The books on repaints

The queue, the ledger, the marks given to the panel, and the updates, records
and callbacks in the order in which they came about. To serve a repaint enters
its updates, then its record with the mark of the last update taken, then its
callback. What is done besides leaves the books alone.
-/

set_option autoImplicit false

namespace InkCompositor

def Effect.isDeed : Effect → Bool
  | .updated .. | .recorded .. | .calledBack _ => true
  | .logged .. | .notified .. | .awaited _ | .attempted .. => false

def Record.entry (r : Record) : Option WindowId × Marker × UInt32 :=
  (r.window,r.marker,r.hardwareMarker)

structure Books where
  queue : List Repaint
  halted : Bool
  ledger : Ledger Callback
  deeds : List Effect
  nextMark : UInt32
  refuses : Update → Bool

/-- A repaint that has been served, with its updates and whether the panel took them. -/
structure Service where
  request : Repaint
  sent : List (Update × Bool)

def lastTaken (last : UInt32) (sent : List (Update × Bool)) : UInt32 :=
  ((sent.filter (·.2)).getLast?.map (·.1.marker)).getD last

namespace Service

variable (s : Service)

def mark : UInt32 := lastTaken 0 s.sent

def entry : Option WindowId × Marker × UInt32 := (s.request.window,s.request.marker,s.mark)

def marks : List UInt32 := s.sent.map (·.1.marker)

def deeds : List Effect :=
  s.sent.map (fun p => .updated p.1 p.2) ++
    .recorded s.request.window s.request.marker s.mark ::
      s.request.callback.toList.map .calledBack

end Service

theorem lastTaken_cons (last : UInt32) (p : Update × Bool) (rest : List (Update × Bool)) :
    lastTaken last (p :: rest) = lastTaken (if p.2 then p.1.marker else last) rest := by
  cases hp : p.2 with
  | false => simp [lastTaken, hp]
  | true =>
    rw [lastTaken, List.filter_cons_of_pos (by simpa using hp), List.getLast?_cons, lastTaken]
    cases (rest.filter (·.2)).getLast? <;> simp

/-- The marks `ms` are given out from the counter `n` on, which is `n'` then; zero is left out. -/
def Numbered : UInt32 → List UInt32 → UInt32 → Prop
  | n, [], n' => n' = n
  | n, m :: ms, n' => m = (if n = 0 then 1 else n) ∧ Numbered (m+1) ms n'

/-- Where a counter is in the cycle of all marks. -/
def place (n : UInt32) : Nat := if n = 0 then 0 else n.toNat-1

namespace Numbered

variable {n n' n'' : UInt32} {ms ms' : List UInt32}

theorem append (h : Numbered n ms n') (h' : Numbered n' ms' n'') : Numbered n (ms ++ ms') n'' := by
  induction ms generalizing n with
  | nil =>
    obtain rfl : n' = n := h
    exact h'
  | cons m ms ih => exact ⟨h.1,ih h.2⟩

theorem place_next (n : UInt32) :
    place ((if n = 0 then 1 else n)+1) = (place n+1) % 4294967295 := by
  have hlt := n.toNat_lt
  by_cases h : n = 0
  · subst h
    decide
  · have hn : n.toNat ≠ 0 := fun hz => h (UInt32.toNat_inj.1 hz)
    rw [if_neg h, place, place, if_neg h]
    by_cases hmax : n.toNat = 4294967295
    · have he : n+1 = 0 := by
        apply UInt32.toNat_inj.1
        rw [UInt32.toNat_add, hmax]
        rfl
      rw [if_pos he, hmax]
    · have hs : (n+1).toNat = n.toNat+1 := by
        rw [UInt32.toNat_add, UInt32.toNat_one]
        exact Nat.mod_eq_of_lt (by omega)
      have hne : n+1 ≠ 0 := by
        intro he
        rw [he] at hs
        exact absurd hs (by simp)
      rw [if_neg hne, hs, Nat.mod_eq_of_lt (by omega)]
      omega

theorem toNat_getElem (h : Numbered n ms n') (i : Nat) (hi : i < ms.length) :
    ms[i].toNat = (place n+i) % 4294967295+1 := by
  induction ms generalizing n i with
  | nil => cases hi
  | cons m ms ih =>
    obtain ⟨hm,hrest⟩ := h
    cases i with
    | zero =>
      have hlt := n.toNat_lt
      rw [List.getElem_cons_zero, hm, place]
      by_cases hz : n = 0
      · simp [hz]
      · have hn : n.toNat ≠ 0 := fun h0 => hz (UInt32.toNat_inj.1 h0)
        rw [if_neg hz, if_neg hz, Nat.add_zero, Nat.mod_eq_of_lt (by omega)]
        omega
    | succ i =>
      rw [List.getElem_cons_succ, ih hrest, hm, place_next, Nat.mod_add_mod]
      congr 2
      omega

theorem ne_zero (h : Numbered n ms n') : ∀ m ∈ ms, m ≠ 0 := by
  intro m hm hz
  obtain ⟨i,hi,rfl⟩ := List.getElem_of_mem hm
  have ht := h.toNat_getElem i hi
  rw [hz] at ht
  exact absurd ht (by simp)

theorem nodup (h : Numbered n ms n') (hlt : ms.length < 4294967295) : ms.Nodup := by
  rw [List.Nodup, List.pairwise_iff_getElem]
  intro i j hi hj hij he
  have hn := congrArg UInt32.toNat he
  rw [h.toNat_getElem i hi, h.toNat_getElem j hj] at hn
  omega

end Numbered

namespace Books

variable {b b' b'' : Books} {services services' : List Service}

/-- The services bring the books from `b` to `b'`; the queue is another matter. -/
structure Serves (b : Books) (services : List Service) (b' : Books) : Prop where
  halted : b'.halted = b.halted
  refuses : b'.refuses = b.refuses
  ledger : b'.ledger = { b.ledger with records := b'.ledger.records }
  records : b'.ledger.records.map Record.entry =
    b.ledger.records.map Record.entry ++ services.map Service.entry
  deeds : b'.deeds = b.deeds ++ services.flatMap Service.deeds
  taken : ∀ s ∈ services, ∀ p ∈ s.sent, p.2 = !b.refuses p.1
  numbered : Numbered b.nextMark (services.flatMap Service.marks) b'.nextMark

theorem Serves.requeued (b : Books) (queue : List Repaint) : b.Serves [] { b with queue } where
  halted := rfl
  refuses := rfl
  ledger := rfl
  records := (List.append_nil _).symm
  deeds := (List.append_nil _).symm
  taken := by simp
  numbered := rfl

theorem Serves.refl (b : Books) : b.Serves [] b := .requeued b b.queue

theorem Serves.trans (h : b.Serves services b') (h' : b'.Serves services' b'') :
    b.Serves (services ++ services') b'' where
  halted := h'.halted.trans h.halted
  refuses := h'.refuses.trans h.refuses
  ledger := by rw [h'.ledger, h.ledger]
  records := by rw [h'.records, h.records, List.map_append, List.append_assoc]
  deeds := by rw [h'.deeds, h.deeds, List.flatMap_append, List.append_assoc]
  taken := by
    intro s hs
    rcases List.mem_append.1 hs with hs | hs
    · exact h.taken s hs
    · rw [← h.refuses]
      exact h'.taken s hs
  numbered := by
    rw [List.flatMap_append]
    exact h.numbered.append h'.numbered

def send (b : Books) (sent : List (Update × Bool)) (nextMark : UInt32) : Books :=
  { b with deeds := b.deeds ++ sent.map (fun p => .updated p.1 p.2), nextMark }

def record (b : Books) (now : Time) (window : Option WindowId) (marker : Marker)
    (hardwareMarker : UInt32) : Books :=
  { b with
    ledger := b.ledger.record now window marker hardwareMarker
    deeds := b.deeds ++ [.recorded window marker hardwareMarker] }

def callBack (b : Books) (callbacks : List Callback) : Books :=
  { b with deeds := b.deeds ++ callbacks.map .calledBack }

theorem serves_one (q : Repaint) (now : Time) {sent : List (Update × Bool)} {nextMark : UInt32}
    (ht : ∀ p ∈ sent, p.2 = !b.refuses p.1)
    (hn : Numbered b.nextMark (sent.map (·.1.marker)) nextMark) :
    b.Serves [⟨q,sent⟩] (((b.send sent nextMark).record now q.window q.marker
      (lastTaken 0 sent)).callBack q.callback.toList) where
  halted := rfl
  refuses := rfl
  ledger := rfl
  records := by
    simp [callBack, record, send, Ledger.record, Record.entry, Service.entry, Service.mark]
  deeds := by
    simp [callBack, record, send, Service.deeds, Service.mark]
  taken := by simpa using ht
  numbered := by simpa [callBack, record, send, Service.marks] using hn

@[simp] theorem send_nil (b : Books) : b.send [] b.nextMark = b := by simp [send]

@[simp] theorem callBack_nil (b : Books) : b.callBack [] = b := by simp [callBack]

theorem serves_unsent (b : Books) (q : Repaint) (now : Time) : b.Serves [⟨q,[]⟩]
    ((b.record now q.window q.marker 0).callBack q.callback.toList) := by
  have ht : ∀ p ∈ ([] : List (Update × Bool)), p.2 = !b.refuses p.1 := by simp
  have hs := serves_one (b := b) q now ht rfl
  rwa [send_nil] at hs

theorem serves_uncalled (b : Books) (window : Option WindowId) (region : Rect)
    (waveform : Option Waveform) (marker : Marker) (now : Time) :
    b.Serves [⟨⟨window,region,waveform,marker,none⟩,[]⟩] (b.record now window marker 0) := by
  have hs := b.serves_unsent ⟨window,region,waveform,marker,none⟩ now
  rwa [Option.toList_none, callBack_nil] at hs

end Books

namespace Desktop

open Books

def books (d : Desktop) : Books where
  queue := d.queue
  halted := d.halted
  ledger := d.ledger
  deeds := d.trace.toList.filter Effect.isDeed
  nextMark := d.nextHardwareMarker
  refuses := d.panel.refusesUpdate

variable (d : Desktop)

theorem books_emit (e : Effect) : (d.emit e).books =
    { d.books with deeds := d.books.deeds ++ [e].filter Effect.isDeed } := by
  simp [books, emit]

@[simp] theorem books_log (level : Level) (text : String) : (d.log level text).books = d.books := by
  simp [log, books_emit, Effect.isDeed]

@[simp] theorem books_reckon (t : Time) : (d.reckon t).books = d.books := rfl

@[simp] theorem books_modify (id : WindowId) (f : Window → Window) :
    (d.modify id f).books = d.books := rfl

@[simp] theorem books_logDelivery (x : Delivery) : (d.logDelivery x).books = d.books := by
  cases x <;> simp [logDelivery, deliveryLog]

@[simp] theorem books_send (id : WindowId) (kind : ChannelKind) (m : Wire.Message) :
    (d.send id kind m).books = d.books := by
  unfold Desktop.send
  split <;> simp

@[simp] theorem books_logCall (id : WindowId) (caller : Group) :
    (d.logCall id caller).books = d.books := by
  unfold logCall
  split <;> simp

theorem books_foldl {α : Type} (f : Desktop → α → Desktop) (hf : ∀ d a, (f d a).books = d.books)
    (l : List α) : (l.foldl f d).books = d.books := by
  induction l generalizing d with
  | nil => rfl
  | cons a l ih => rw [List.foldl_cons, ih, hf]

@[simp] theorem books_logTimes (n : Nat) (level : Level) (text : String) :
    (d.logTimes n level text).books = d.books := by
  rw [logTimes]
  induction n with
  | zero => rfl
  | succ n ih => rw [Nat.repeat, books_log, ih]

@[simp] theorem books_logStack : d.logStack.books = d.books := books_logTimes ..

@[simp] theorem books_release (id : WindowId) : (d.release id).books = d.books := by
  unfold release
  split
  · rfl
  · split
    · rfl
    · rw [books_log]
      split
      · exact books_log ..
      · rfl

@[simp] theorem books_releaseAll (ids : List WindowId) : (d.releaseAll ids).books = d.books :=
  books_foldl d release books_release ids

@[simp] theorem books_reap : d.reap.books = d.books := by
  have h : ∀ (d : Desktop) (id : WindowId), (({ d with deferred := d.deferred.erase id }.log .debug
      "Releasing closed window").release id).books = d.books := by
    intro d id
    rw [books_release, books_log]
    rfl
  exact books_foldl _ _ h _

@[simp] theorem books_awaitPanel (m : UInt32) (complaint : String) :
    (d.awaitPanel m complaint).books = d.books := by
  have h : (d.emit (.awaited m)).books = d.books := by simp [books_emit, Effect.isDeed]
  rw [awaitPanel]
  split
  · rw [books_log, h]
  · exact h

@[simp] theorem books_runCallback (c : Callback) :
    (d.runCallback c).books = d.books.callBack [c] := by
  have h : (d.emit (.calledBack c)).books = d.books.callBack [c] := books_emit ..
  cases c <;> simp [runCallback, h]

theorem books_foldl_runCallback {α : Type} (f : Desktop → α → Desktop) (callback : α → Callback)
    (hf : ∀ d a, (f d a).books = d.books.callBack [callback a]) (l : List α) :
    (l.foldl f d).books = d.books.callBack (l.map callback) := by
  induction l generalizing d with
  | nil => simp [callBack]
  | cons a l ih => rw [List.foldl_cons, ih, hf]; simp [callBack]

@[simp] theorem books_record (window : Option WindowId) (marker : Marker) (hw : UInt32) :
    (d.record window marker hw).books = d.books.record d.now window marker hw :=
  books_emit ..

theorem books_finish (q : Repaint) (hw : UInt32) : (d.finish q hw).books =
    (d.books.record d.now q.window q.marker hw).callBack q.callback.toList := by
  obtain ⟨window,region,waveform,marker,callback⟩ := q
  cases callback <;> cases window <;> simp [finish, callBack]

def nextUpdate (r : Rect) (waveform : Waveform) : Update :=
  ⟨r,waveform,if r = d.screen then .full else .partialArea,d.takeHardwareMarker.2,d.temperature⟩

theorem sendUpdate_eq (r : Rect) (waveform : Waveform) : d.sendUpdate r waveform =
    if d.panel.refusesUpdate (d.nextUpdate r waveform) then
      (((d.takeHardwareMarker.1.log .debug "Sending screen update").emit
        (.updated (d.nextUpdate r waveform) false)).log .warn "Screen update failed",none)
    else
      ((d.takeHardwareMarker.1.log .debug "Sending screen update").emit
        (.updated (d.nextUpdate r waveform) true),some (d.nextUpdate r waveform).marker) := rfl

theorem books_addWait (window : Option WindowId) (marker : Marker) (c : Callback) :
    (d.addWait window marker c).books =
      { d.books with ledger := (d.ledger.addWait d.now window marker c).1 }.callBack
        (d.ledger.addWait d.now window marker c).2.toList := by
  have hl : ∀ ledger : Ledger Callback,
      { d with ledger }.books = { d.books with ledger } := fun _ => rfl
  rw [addWait]
  split
  · rename_i ledger h
    rw [h, books_reckon, hl, Option.toList_none, callBack_nil]
  · rename_i ledger c h
    rw [h, books_runCallback, books_log, hl]
    rfl

theorem books_tick : d.tick.books = { d.books with ledger := (d.ledger.tick d.now).1 }.callBack
    ((d.ledger.tick d.now).2.hardware.map Prod.snd ++ (d.ledger.tick d.now).2.ready) := by
  rw [tick, books_foldl_runCallback _ runCallback id books_runCallback,
    books_foldl_runCallback _ (fun d (p : UInt32 × Callback) => (d.awaitPanel p.1
      "Waiting for update completion failed").runCallback p.2) Prod.snd
      fun d p => by rw [books_runCallback, books_awaitPanel], books_logTimes]
  simp [callBack, books]

@[simp] theorem queue_addWait (window : Option WindowId) (marker : Marker) (c : Callback) :
    (d.addWait window marker c).queue = d.queue :=
  congrArg Books.queue (d.books_addWait window marker c)

theorem books_sendUpdate (r : Rect) (waveform : Waveform) : ∃ p : Update × Bool,
    (d.sendUpdate r waveform).1.books = d.books.send [p] (p.1.marker+1) ∧
    (∀ last, (d.sendUpdate r waveform).2.getD last = if p.2 then p.1.marker else last) ∧
    p.2 = (!d.books.refuses p.1) ∧
    p.1.marker = if d.books.nextMark = 0 then 1 else d.books.nextMark := by
  have hb : (d.takeHardwareMarker.1.log .debug "Sending screen update").books =
      { d.books with nextMark := (d.nextUpdate r waveform).marker+1 } := books_log ..
  refine ⟨(d.nextUpdate r waveform,!d.panel.refusesUpdate (d.nextUpdate r waveform)),?_,?_,rfl,rfl⟩
  · rw [sendUpdate_eq]
    cases d.panel.refusesUpdate (d.nextUpdate r waveform) with
    | true => simp [books_emit, hb, Effect.isDeed, Books.send]
    | false => simp [books_emit, hb, Effect.isDeed, Books.send]
  · intro last
    rw [sendUpdate_eq]
    cases d.panel.refusesUpdate (d.nextUpdate r waveform) <;> rfl

/-- What was sent, with the counter as it is then. -/
structure Sends (b : Books) (sent : List (Update × Bool)) (nextMark : UInt32) : Prop where
  taken : ∀ p ∈ sent, p.2 = !b.refuses p.1
  numbered : Numbered b.nextMark (sent.map (·.1.marker)) nextMark

theorem books_foldl_sendNext (waveform : Option Waveform) (area : List Rect) (last : UInt32) :
    ∃ sent nextMark, Sends d.books sent nextMark ∧
      (area.foldl (sendNext waveform) (d,last)).1.books = d.books.send sent nextMark ∧
      (area.foldl (sendNext waveform) (d,last)).2 = lastTaken last sent := by
  induction area generalizing d last with
  | nil => exact ⟨[],d.books.nextMark,⟨by simp,rfl⟩,by simp [Books.send],rfl⟩
  | cons r area ih =>
    obtain ⟨p,hbooks,hlast,htaken,hmark⟩ :=
      d.books_sendUpdate r (waveform.getD (d.panel.raster.waveformFor r))
    obtain ⟨sent,nextMark,hs,hb,hl⟩ := ih (sendNext waveform (d,last) r).1
      (sendNext waveform (d,last) r).2
    have hfirst : (sendNext waveform (d,last) r).1.books = d.books.send [p] (p.1.marker+1) := hbooks
    rw [hfirst] at hs hb
    refine ⟨p :: sent,nextMark,⟨?_,hmark,hs.numbered⟩,?_,?_⟩
    · intro p' hp'
      rcases List.mem_cons.1 hp' with rfl | hp'
      · exact htaken
      · exact hs.taken p' hp'
    · rw [List.foldl_cons]
      refine hb.trans ?_
      simp [Books.send]
    · rw [List.foldl_cons]
      refine hl.trans ?_
      rw [lastTaken_cons]
      exact congrArg (fun m => lastTaken m sent) (hlast last)

theorem books_redraw (q : Repaint) : ∃ sent nextMark, Sends d.books sent nextMark ∧
    (d.redraw q).1.books = d.books.send sent nextMark ∧ (d.redraw q).2 = lastTaken 0 sent := by
  have hnone : ∀ e : Desktop, e.books = d.books → ∃ sent nextMark, Sends d.books sent nextMark ∧
      e.books = d.books.send sent nextMark ∧ 0 = lastTaken 0 sent := by
    intro e he
    exact ⟨[],d.books.nextMark,⟨by simp,rfl⟩,by simp [he, Books.send],rfl⟩
  unfold redraw
  split
  · exact hnone _ (books_log ..)
  · exact hnone _ (by rw [books_log, books_logStack])
  · exact hnone _ (by rw [books_log, books_logStack])
  · rename_i windows clear area hplan
    simp only [sendUpdates_eq, books_log]
    generalize hfb : area.foldl (fun fb rect => fb.compose windows clear rect)
      d.logStack.panel.raster = fb
    have hb : { d.logStack with panel := { d.logStack.panel with raster := fb } }.books =
        d.books := books_logStack d
    rw [← hb]
    exact books_foldl_sendNext _ q.waveform area 0

variable {d}

theorem serves_finish (q : Repaint) : d.books.Serves [⟨q,[]⟩] (d.finish q 0).books := by
  rw [books_finish]
  exact serves_unsent ..

theorem serves_process (q : Repaint) : ∃ sent, d.books.Serves [⟨q,sent⟩] (d.process q).books := by
  obtain ⟨sent,nextMark,hs,hb,hl⟩ := d.books_redraw q
  refine ⟨sent,?_⟩
  have hp : (d.process q).books = ((d.redraw q).1.finish q (d.redraw q).2).books := rfl
  rw [hp, books_finish, hb, hl]
  exact serves_one q _ hs.taken hs.numbered

theorem queue_finish (q : Repaint) (hw : UInt32) : (d.finish q hw).queue = d.queue :=
  congrArg Books.queue (d.books_finish q hw)

theorem queue_process (q : Repaint) : (d.process q).queue = d.queue := by
  obtain ⟨sent,nextMark,-,hb,-⟩ := d.books_redraw q
  exact (queue_finish q _).trans (congrArg Books.queue hb)

/-- The whole queue is served in its order. -/
theorem serves_serveMany {f : Desktop → Repaint → Desktop} {P : List (Update × Bool) → Prop}
    (hf : ∀ d q, (f d q).queue = d.queue ∧
      ∃ sent, P sent ∧ d.books.Serves [⟨q,sent⟩] (f d q).books)
    (n : Nat) (d : Desktop) (hn : d.queue.length = n) :
    (serveMany f n d).queue = [] ∧ ∃ services, d.books.Serves services (serveMany f n d).books ∧
      services.map (·.request) = d.queue ∧ ∀ s ∈ services, P s.sent := by
  induction n generalizing d with
  | zero =>
    have hq := List.length_eq_zero_iff.1 hn
    exact ⟨hq,[],.refl _,by simp [hq],by simp⟩
  | succ n ih =>
    cases hq : d.queue with
    | nil => simp [hq] at hn
    | cons q rest =>
      rw [hq, List.length_cons, Nat.add_right_cancel_iff] at hn
      obtain ⟨hqueue,sent,hP,hfirst⟩ := hf { d with queue := rest } q
      obtain ⟨hempty,services,hs,hreq,hall⟩ := ih (f { d with queue := rest } q)
        (by rw [hqueue]; exact hn)
      have he : serveMany f (n+1) d = serveMany f n (f { d with queue := rest } q) := by
        rw [serveMany, hq]
      rw [he]
      refine ⟨hempty,⟨q,sent⟩ :: services,?_,?_,?_⟩
      · exact ((Serves.requeued d.books rest).trans hfirst).trans hs
      · rw [List.map_cons, hreq, hqueue]
      · intro s hmem
        rcases List.mem_cons.1 hmem with rfl | hmem
        · exact hP
        · exact hall s hmem

theorem serves_runPending (d : Desktop) : d.runPending.1.queue = [] ∧
    ∃ services, d.books.Serves services d.runPending.1.books ∧
      services.map (·.request) = d.queue := by
  obtain ⟨hempty,services,hs,hreq,-⟩ := serves_serveMany (P := fun _ => True) (f := process)
    (fun d q => ⟨queue_process q,(serves_process q).imp fun _ h => ⟨trivial,h⟩⟩) _ d rfl
  have hb : d.runPending.1.books = (serveMany process d.queue.length d).books := books_reap _
  rw [hb]
  exact ⟨(congrArg Books.queue hb).trans hempty,services,hs,hreq⟩

theorem serves_enqueue (q : Repaint) :
    (d.halted = false → (d.enqueue q).books = { d.books with queue := d.queue ++ [q] }) ∧
    (d.halted = true → (d.enqueue q).queue = d.queue ∧
      d.books.Serves [⟨q,[]⟩] (d.enqueue q).books) := by
  have hlog : (d.log .trace "Queueing repaint").books = d.books := books_log ..
  constructor
  · intro h
    have he : d.enqueue q = { d.log .trace "Queueing repaint" with queue := d.queue ++ [q] } :=
      if_neg (Bool.eq_false_iff.1 h)
    rw [he, ← hlog]
    rfl
  · intro h
    have he : d.enqueue q = (d.log .trace "Queueing repaint").finish q 0 := if_pos h
    rw [he, queue_finish, ← hlog]
    exact ⟨rfl,serves_finish q⟩

theorem books_stopWaiting (d : Desktop) : d.stopWaiting.books =
    { d.books.callBack (d.ledger.pending.map (·.callback)) with
      ledger := { d.ledger with pending := [], stopping := true } } := by
  have hc := books_foldl_runCallback { d with ledger := d.ledger.shutDown.1 } runCallback id
    books_runCallback d.ledger.shutDown.2
  rw [List.map_id] at hc
  have hs : d.stopWaiting.books =
      (d.ledger.shutDown.2.foldl runCallback { d with ledger := d.ledger.shutDown.1 }).books := by
    simp only [stopWaiting]
    split
    · rfl
    · exact books_log ..
  rw [hs, hc]
  rfl

theorem books_halt (d : Desktop) : d.halt.queue = [] ∧ ∃ b services,
    { d.books with halted := true }.Serves services b ∧ services.map (·.request) = d.queue ∧
    (∀ s ∈ services, s.sent = []) ∧
    d.halt.books = { b.callBack (d.ledger.pending.map (·.callback)) with
      ledger := { b.ledger with pending := [], stopping := true } } := by
  obtain ⟨hempty,services,hs,hreq,hsent⟩ := serves_serveMany (P := fun sent => sent = [])
    (f := (·.finish · 0)) (fun d q => ⟨queue_finish q 0,[],rfl,serves_finish q⟩) _
    { d with halted := true } rfl
  obtain ⟨e,he,hb⟩ : ∃ e : Desktop, d.halt = e.stopWaiting ∧ e.books =
      (serveMany (·.finish · 0) d.queue.length { d with halted := true }).books := by
    refine ⟨_,rfl,(books_releaseAll _ _).trans ?_⟩
    by_cases hq : d.queue.length = 0
    · simp only [hq, if_true]
      rfl
    · simp only [hq, if_false]
      exact books_log (serveMany (·.finish · 0) d.queue.length { d with halted := true }) .info
        "Resolved queued repaints on shutdown"
  have hp : e.ledger.pending = d.ledger.pending := by
    have hl := congrArg Ledger.pending hs.ledger
    rwa [← hb] at hl
  have hstop := books_stopWaiting e
  rw [hp] at hstop
  rw [← hb] at hs
  refine ⟨?_,e.books,services,hs,hreq,hsent,by rw [he, hstop]; rfl⟩
  rw [he]
  exact (congrArg Books.queue hstop).trans ((congrArg Books.queue hb).trans hempty)

theorem requestRepaint_closed {window : Option WindowId} {w : Window}
    (hw : window.bind d.window? = some w) (hc : w.state = .closed) (region : Rect)
    (waveform : Option Waveform) (marker : Marker) :
    (d.requestRepaint window region waveform marker).queue = d.queue ∧
      d.books.Serves [⟨⟨window,region,waveform,marker,none⟩,[]⟩]
        (d.requestRepaint window region waveform marker).books := by
  obtain ⟨id,rfl,hid⟩ := Option.bind_eq_some_iff.1 hw
  have he : d.requestRepaint (some id) region waveform marker =
      (d.log .debug "Rejecting repaint of closed window").record (some id) marker 0 := by
    simp [requestRepaint, hid, hc, id_of_window? d hid]
  rw [he, books_record, books_log]
  exact ⟨rfl,d.books.serves_uncalled ..⟩

theorem requestRepaint_open {window : Option WindowId}
    (hw : ∀ w, window.bind d.window? = some w → w.state ≠ .closed) (region : Rect)
    (waveform : Option Waveform) (marker : Marker) :
    d.requestRepaint window region waveform marker =
      d.enqueue ⟨window,region,waveform,marker,none⟩ := by
  unfold requestRepaint
  split
  · rename_i w h
    rw [if_neg (hw w h)]
  · rfl

end Desktop

end InkCompositor
