import Mathlib
import InkCompositor.Proofs.Desktop.Agenda
import InkCompositor.Proofs.Marker.Sifting

/-!
# The deeds that operations consist of

Some edits come together or not at all: a window that gets another place or
another image tells its client, touches that are forwarded are remembered, and
touches that are forgotten are cancelled. Every operation consists of deeds,
and a deed of edits. What holds of a window and of what its client has been
told holds before and after a deed, though not always between its edits.
-/

set_option autoImplicit false

namespace InkCompositor

open Wire

def Wire.Message.plain : Message → Bool
  | .geometry .. | .imageInfo .. | .touch _ => false
  | _ => true

/-- A window in another state or at another height, without its touches once it is closed. -/
structure Window.Shifted (w v : Window) : Prop where
  image : v.image = w.image
  format : v.format = w.format
  geometry : v.geometry = w.geometry
  pipes : ∀ kind, v.pipe kind = w.pipe kind
  liveness : v.liveness = w.liveness
  touching : v.touching = w.touching ∨ v.touching = [] ∧ v.state = .closed

theorem Window.Shifted.altered {w v : Window} (h : w.Shifted v) : w.Altered v :=
  ⟨h.image,h.format,by rw [h.geometry],by rw [h.geometry]⟩

/-- What is not done in every deed. -/
inductive Dealing where
  | touch (event : TouchEvent)
  /-- The pings of a window are seen to. -/
  | ping (id : WindowId)
  /-- A client is asked for an answer at this time. -/
  | asked (time : Time)
  /-- A repaint is queued or recorded under a marker. -/
  | mark (marker : Marker)
  /-- An internal marker is given out. -/
  | count
  /-- Time passes. -/
  | pass

def Dealing.touching (p : TouchEvent → Prop) : Dealing → Prop
  | touch event => p event
  | _ => True

def Dealing.Marks (p : Dealing → Prop) (marker : Marker) : Prop := marker = 0 ∨ p (.mark marker)

def Liveness.Asks (p : Dealing → Prop) (f : Liveness → Liveness) : Prop :=
  ∀ l t, (f l).awaitingSince = some t → l.awaitingSince = some t ∨ p (.asked t)

/-- The ledger keeps its spans, and its records what they are under. -/
structure Ledger.Kept (p : Dealing → Prop) (l l' : Ledger Callback) : Prop where
  waitTimeout : l'.waitTimeout = l.waitTimeout
  recordLifetime : l'.recordLifetime = l.recordLifetime
  records : ∀ r ∈ l'.records, (∃ r' ∈ l.records, r'.marker = r.marker) ∨ Dealing.Marks p r.marker

namespace Ledger

variable {p : Dealing → Prop} (l : Ledger Callback) (now : Time)

theorem kept_of_records {l l' : Ledger Callback} (hw : l'.waitTimeout = l.waitTimeout)
    (hr : l'.recordLifetime = l.recordLifetime) (hs : l'.records = l.records) : l.Kept p l' :=
  ⟨hw,hr,fun r hm => .inl ⟨r,hs ▸ hm,rfl⟩⟩

theorem kept_addWait (window : Option WindowId) (marker : Marker) (c : Callback) :
    l.Kept p (l.addWait now window marker c).1 := by
  unfold addWait
  split <;> exact kept_of_records rfl rfl rfl

theorem kept_record (window : Option WindowId) {marker : Marker} (hm : Dealing.Marks p marker)
    (hw : UInt32) : l.Kept p (l.record now window marker hw) := by
  refine ⟨rfl,rfl,fun r hr => ?_⟩
  rcases List.mem_append.1 hr with hr | hr
  · exact .inl ⟨r,hr,rfl⟩
  · rw [List.mem_singleton.1 hr]
    exact .inr hm

theorem kept_tick : l.Kept p (l.tick now).1 := by
  refine ⟨rfl,rfl,fun r hr => .inl ?_⟩
  have hmem : r.marker ∈ (sift now l.records l.pending).records.map (·.marker) :=
    List.mem_map_of_mem (List.mem_of_mem_filter hr)
  rw [map_records_sift now l.records l.pending (·.marker) fun _ => rfl] at hmem
  exact List.mem_map.1 hmem

theorem kept_shutDown : l.Kept p l.shutDown.1 := kept_of_records rfl rfl rfl

end Ledger

namespace Desktop

def relocate (d : Desktop) (w : Window) (geometry : Rect) : Desktop :=
  (d.modify w.id fun w => { w with geometry }).announceGeometry w.id w.geometry geometry

def refurnish (d : Desktop) (w : Window) (geometry : Rect) : Desktop :=
  let d := (d.refit w geometry).log .debug "Frame buffer created"
  (if w.geometry = geometry then d
    else d.announceGeometry w.id w.geometry geometry).announceImage w.id

def relayer (d : Desktop) (w : Window) (state : WindowState) : Desktop :=
  (d.modify w.id fun w => { w with state, touching := [] }).cancelTouches w.id w.touching

def installed (d : Desktop) (w : Window) (geometry : Rect) : Desktop :=
  ((d.added w).log .debug "Created window").refurnish w geometry

/-- Nothing changes that is due. -/
structure Aside (d e : Desktop) : Prop extends Beside d e where
  agenda : e.agenda = d.agenda

/-- The deadlines that are computed of what there is. -/
inductive Due (d : Desktop) : Time → Prop where
  | wait : Due d (d.now+d.ledger.waitTimeout)
  | keep : Due d (d.now+d.ledger.recordLifetime)
  | ping : Due d (d.now+d.timings.pingInterval)
  | answer {w : Window} {since : Time} : w ∈ d.windows → w.liveness.awaitingSince = some since →
      Due d (since+d.timings.pingDeadline)

/-- Of the dealings only those with `p` are done. -/
inductive Deed (s : Scope) (p : Dealing → Prop) : Desktop → Desktop → Prop where
  | note {d : Desktop} (e : Effect) : e.attempt? = none → Deed s p d (d.emit e)
  | aside {d e : Desktop} : Aside d e → Deed s p d e
  | book {d : Desktop} (ledger : Ledger Callback) : d.ledger.Kept p ledger →
      Deed s p d { d with ledger }
  | reckon {d : Desktop} (t : Time) :
      d.Due t ∨ (∃ now, p (.asked now) ∧ t = now+d.timings.pingInterval) → Deed s p d (d.reckon t)
  | pass {d : Desktop} (time : Time) : p .pass → Deed s p d { d with now := d.now+time }
  | post {d : Desktop} (id : WindowId) (kind : ChannelKind) (m : Message) : s.windows id →
      m.plain = true → (m = .ping → p (.ping id)) → Deed s p d (d.send id kind m)
  | announce {d : Desktop} (id : WindowId) : s.windows id → Deed s p d (d.announceImage id)
  | forward {d : Desktop} (id : WindowId) (event : TouchEvent) : s.windows id →
      p (.touch event) → Deed s p d (d.forwardTouch id event)
  | tend {d : Desktop} (id : WindowId) (f : Window → Window) : s.windows id →
      (∀ w, (f w).id = w.id) →
      (∀ w, d.window? id = some w → w.Tended (f w) ∧ (f w).touching = w.touching ∧
        (f w).liveness = w.liveness) →
      Deed s p d (d.modify id f)
  | pulse {d : Desktop} (id : WindowId) (f : Liveness → Liveness) : s.windows id →
      p (.ping id) → Liveness.Asks p f →
      Deed s p d (d.modify id fun w => { w with liveness := f w.liveness })
  | shift {d : Desktop} (id : WindowId) (f : Window → Window) : s.windows id →
      (∀ w, (f w).id = w.id) →
      (∀ w, d.window? id = some w → w.state ≠ .closed ∧ w.Shifted (f w)) →
      Deed s p d (d.modify id f)
  | hangUp {d : Desktop} (id : WindowId) (kind : ChannelKind) : s.windows id →
      (∀ w, d.window? id = some w → w.state = .closed) → Deed s p d (d.closePipe id kind)
  | relocate {d : Desktop} {w : Window} (geometry : Rect) : s.windows w.id →
      d.window? w.id = some w → w.state ≠ .closed → geometry.width = w.geometry.width →
      geometry.height = w.geometry.height → Deed s p d (d.relocate w geometry)
  | refurnish {d : Desktop} {w : Window} (geometry : Rect) : s.windows w.id →
      d.window? w.id = some w → w.state ≠ .closed → Deed s p d (d.refurnish w geometry)
  | relayer {d : Desktop} {w : Window} (state : WindowState) : s.windows w.id →
      d.window? w.id = some w → w.state ≠ .closed → state ≠ .closed →
      Deed s p d (d.relayer w state)
  | install {d : Desktop} (r : Registry) (owner : Group) (isSystem : Bool) (format : PixelFormat)
      (geometry : Rect) : s.windows d.nextWindow → d.window? d.nextWindow = none →
      Deed s p d (d.installed (d.newWindow r owner isSystem format) geometry)
  | relist {d : Desktop} (registry : Option Registry) : s.stack → Relisting s d registry →
      (∀ r', registry = some r' →
        p .count ∨ ∃ r, d.registry = some r ∧ r'.nextInternal = r.nextInternal) →
      Deed s p d { d with registry }
  | sort {d : Desktop} : s.stack → Deed s p d d.sortWindows
  | release {d : Desktop} (id : WindowId) : s.windows id → Deed s p d (d.release id)
  /-- No repaint of a closed window is queued. -/
  | queue {d : Desktop} (q : Repaint) : Dealing.Marks p q.marker →
      (∀ id w, q.window = some id → d.window? id = some w → w.state ≠ .closed) →
      Deed s p d { d with queue := d.queue ++ [q] }
  | serve {d : Desktop} {q : Repaint} {rest : List Repaint} : d.queue = q :: rest →
      Deed s p d { d with queue := rest }

def Deeds (s : Scope) (p : Dealing → Prop) : Desktop → Desktop → Prop :=
  Relation.ReflTransGen (Deed s p)

variable {s : Scope} {p : Dealing → Prop} {d₀ d e : Desktop}

theorem edits_refurnish (h : Edits s d₀ d) {w : Window} (geometry : Rect) (hs : s.windows w.id)
    (hw : d.window? w.id = some w) (ho : w.state ≠ .closed) :
    Edits s d₀ (d.refurnish w geometry) := by
  have hr : Edits s d₀ ((d.refit w geometry).log .debug "Frame buffer created") :=
    edits_log (h.tail (.refit geometry hs hw ho)) ..
  refine edits_announceImage ?_ hs
  split
  · exact hr
  · exact edits_announceGeometry hr hs ..

theorem Deed.edits (h : Deed s p d e) : Edits s d e := by
  cases h with
  | note x hx => exact .single (.note x hx)
  | aside hb => exact .single (.beside hb.toBeside)
  | book | reckon | pass => exact .single (.beside ⟨rfl,rfl,rfl,rfl,rfl,rfl,rfl,rfl,rfl⟩)
  | post id kind m hs => exact .single (.send id kind m hs)
  | announce id hs => exact edits_announceImage .refl hs
  | forward id event hs =>
    refine edits_send (d := d.modify id _) ?_ hs ..
    exact .single (.tend id _ hs (fun _ => rfl) fun w _ =>
      ⟨rfl,rfl,fun _ => rfl,fun kind => by cases kind <;> exact ⟨rfl,rfl,rfl⟩⟩)
  | tend id f hs hf ht => exact .single (.tend id f hs hf fun w hw => (ht w hw).1)
  | pulse id f hs =>
    exact .single (.tend id _ hs (fun _ => rfl) fun w _ =>
      ⟨rfl,rfl,fun _ => rfl,fun kind => by cases kind <;> exact ⟨rfl,rfl,rfl⟩⟩)
  | shift id f hs hf ha =>
    exact .single (.alter id f hs hf fun w hw => ⟨(ha w hw).1,(ha w hw).2.altered⟩)
  | hangUp id kind hs => exact .single (.closePipe id kind hs)
  | relocate geometry hs hw ho hwidth hheight =>
    refine edits_announceGeometry (d := d.modify _ _) ?_ hs ..
    refine .single (.alter _ _ hs (fun _ => rfl) fun v hv => ?_)
    obtain rfl := Option.some.inj (hv.symm.trans hw)
    exact ⟨ho,rfl,rfl,hwidth,hheight⟩
  | refurnish geometry hs hw ho => exact edits_refurnish .refl geometry hs hw ho
  | relayer state hs hw ho =>
    refine edits_cancelTouches (d := d.modify _ _) ?_ hs _
    refine .single (.alter _ _ hs (fun _ => rfl) fun v hv => ?_)
    obtain rfl := Option.some.inj (hv.symm.trans hw)
    exact ⟨ho,rfl,rfl,rfl,rfl⟩
  | install r owner isSystem format geometry hs hn =>
    have ha : Edits s d (d.added (d.newWindow r owner isSystem format)) :=
      .single (.add _ hs rfl rfl rfl)
    refine edits_refurnish (edits_log ha ..) geometry hs ?_ nofun
    exact (window?_added (d.newWindow r owner isSystem format) hn _).trans (if_pos rfl)
  | relist registry hst hr => exact .single (.relist registry hst hr)
  | sort hst => exact .single (.sort hst)
  | release id hs => exact .single (.release id hs)
  | queue q _ ho => exact .single (.queue q ho)
  | serve hq => exact .single (.serve hq)

theorem Deeds.edits (h : Deeds s (fun _ => True) d e) : Edits s d e := by
  induction h with
  | refl => exact .refl
  | tail _ hd ih => exact ih.trans hd.edits

/-- What every deed keeps is kept. -/
theorem Deeds.keeps {P : Desktop → Prop} (hP : ∀ {d e}, Deed s p d e → P d → P e)
    (h : Deeds s p d₀ d) (h₀ : P d₀) : P d := by
  induction h with
  | refl => exact h₀
  | tail _ he ih => exact hP he ih

theorem replaceImage_cases (d : Desktop) (id : WindowId) (geometry : Rect) :
    (d.replaceImage id geometry).1 = d ∨
    (∃ level text, (d.replaceImage id geometry).1 = d.log level text) ∨
    ∃ w, d.window? id = some w ∧ w.state ≠ .closed ∧
      (d.replaceImage id geometry).1 = d.refurnish w geometry := by
  unfold replaceImage
  split
  · exact .inl rfl
  rename_i w hw
  obtain rfl := id_of_window? d hw
  split
  · exact .inl rfl
  rename_i ho
  split
  · exact .inr (.inl ⟨_,_,rfl⟩)
  · exact .inr (.inr ⟨w,hw,ho,rfl⟩)

theorem replaceImage_bare {w : Window} (hw : d.window? w.id = some w) (ho : w.state ≠ .closed)
    (hi : w.image = none) (geometry : Rect) :
    (d.replaceImage w.id geometry).1 = d.refurnish w geometry := by
  simp [replaceImage, hw, ho, hi, refurnish, refit]

@[simp] theorem agenda_refurnish (d : Desktop) (w : Window) (geometry : Rect) :
    (d.refurnish w geometry).agenda = d.agenda := by
  simp only [refurnish]
  split <;> simp

@[simp] theorem agenda_relocate (d : Desktop) (w : Window) (geometry : Rect) :
    (d.relocate w geometry).agenda = d.agenda := agenda_announceGeometry ..

@[simp] theorem agenda_relayer (d : Desktop) (w : Window) (state : WindowState) :
    (d.relayer w state).agenda = d.agenda := agenda_cancelTouches ..

@[simp] theorem agenda_replaceImage (d : Desktop) (id : WindowId) (geometry : Rect) :
    (d.replaceImage id geometry).1.agenda = d.agenda := by
  rcases replaceImage_cases d id geometry with he | ⟨level,text,he⟩ | ⟨w,-,-,he⟩
  · rw [he]
  · rw [he, agenda_log]
  · rw [he, agenda_refurnish]

theorem agenda_furnished (d : Desktop) (w : Window) (geometry : Option Rect) :
    (d.furnished w geometry).agenda = (d.reckon w.liveness.nextPing).agenda :=
  agenda_replaceImage ..

theorem agenda_installed (d : Desktop) (w : Window) (geometry : Rect) :
    (d.installed w geometry).agenda = (d.reckon w.liveness.nextPing).agenda := agenda_refurnish ..

theorem furnished_eq_installed {w : Window} (hn : d.window? w.id = none) (ho : w.state ≠ .closed)
    (hi : w.image = none) (geometry : Option Rect) :
    d.furnished w geometry = d.installed w (geometry.getD d.screen) := by
  have hw : ((d.added w).log .debug "Created window").window? w.id = some w :=
    (window?_added w hn w.id).trans (if_pos rfl)
  exact replaceImage_bare hw ho hi _

section

variable (h : Deeds s p d₀ d)
include h

theorem deeds_emit (e : Effect) (he : e.attempt? = none) : Deeds s p d₀ (d.emit e) :=
  h.tail (.note e he)

theorem deeds_log (level : Level) (text : String) : Deeds s p d₀ (d.log level text) :=
  deeds_emit h _ rfl

theorem deeds_notify (id : WindowId) (n : Notification) : Deeds s p d₀ (d.notify id n) :=
  deeds_emit h _ rfl

theorem deeds_aside {e : Desktop} (he : Aside d e) : Deeds s p d₀ e := h.tail (.aside he)

theorem deeds_logCall (id : WindowId) (caller : Group) : Deeds s p d₀ (d.logCall id caller) := by
  unfold logCall
  split
  · exact deeds_log h ..
  · exact deeds_log h ..

theorem deeds_notifyState (id : WindowId) (before after : WindowState) :
    Deeds s p d₀ (d.notifyState id before after) := by
  unfold notifyState
  split
  · exact h
  · exact deeds_notify h ..

theorem deeds_logTimes (n : Nat) (level : Level) (text : String) :
    Deeds s p d₀ (d.logTimes n level text) := by
  rw [logTimes]
  induction n with
  | zero => exact h
  | succ n ih => exact deeds_log ih ..

theorem deeds_post {id : WindowId} (hs : s.windows id) (kind : ChannelKind) {m : Message}
    (hm : m.plain = true) (hping : m = .ping → p (.ping id)) : Deeds s p d₀ (d.send id kind m) :=
  h.tail (.post id kind m hs hm hping)

theorem deeds_foldl {α : Type} (f : Desktop → α → Desktop) (l : List α)
    (hf : ∀ d, ∀ a ∈ l, Deeds s p d₀ d → Deeds s p d₀ (f d a)) : Deeds s p d₀ (l.foldl f d) := by
  induction l generalizing d with
  | nil => exact h
  | cons a l ih =>
    exact ih (hf d a List.mem_cons_self h) fun d b hb => hf d b (List.mem_cons_of_mem a hb)

theorem deeds_runCallback (c : Callback) (hc : ∀ id marker, c = .answer id marker → s.windows id) :
    Deeds s p d₀ (d.runCallback c) := by
  cases c with
  | outside | proceed => exact deeds_emit h _ rfl
  | answer id marker => exact deeds_post (deeds_emit h _ rfl) (hc id marker rfl) _ rfl nofun

theorem deeds_book {ledger : Ledger Callback} (hl : d.ledger.Kept p ledger) :
    Deeds s p d₀ { d with ledger } := h.tail (.book ledger hl)

theorem deeds_reckon {t : Time} (ht : d.Due t) : Deeds s p d₀ (d.reckon t) :=
  h.tail (.reckon t (.inl ht))

theorem deeds_addWait (window : Option WindowId) (marker : Marker) (c : Callback)
    (hc : ∀ id m, c = .answer id m → s.windows id) : Deeds s p d₀ (d.addWait window marker c) := by
  have hl := deeds_book h (d.ledger.kept_addWait d.now window marker c)
  rw [Ledger.addWait] at hl
  rw [addWait, Ledger.addWait]
  by_cases ha : d.ledger.resolvesAtOnce window marker = true
  · rw [if_pos ha] at hl ⊢
    exact deeds_runCallback (deeds_log hl ..) c hc
  · rw [if_neg ha] at hl ⊢
    exact deeds_reckon hl .wait

theorem deeds_record (window : Option WindowId) {marker : Marker} (hm : Dealing.Marks p marker)
    (hw : UInt32) : Deeds s p d₀ (d.record window marker hw) := by
  have hl := deeds_book h (d.ledger.kept_record d.now window hm hw)
  exact deeds_emit (deeds_reckon (deeds_reckon hl .wait) .keep) _ rfl

theorem deeds_awaitPanel (marker : UInt32) (complaint : String) :
    Deeds s p d₀ (d.awaitPanel marker complaint) := by
  have he : Deeds s p d₀ (d.emit (.awaited marker)) := deeds_emit h _ rfl
  simp only [awaitPanel]
  split
  · exact deeds_log he ..
  · exact he

theorem deeds_release {id : WindowId} (hs : s.windows id) : Deeds s p d₀ (d.release id) :=
  h.tail (.release id hs)

theorem deeds_finish {q : Repaint} (hm : Dealing.Marks p q.marker)
    (hw : ∀ id, q.window = some id → s.windows id)
    (hc : ∀ id marker, q.callback = some (.answer id marker) → s.windows id) (mark : UInt32) :
    Deeds s p d₀ (d.finish q mark) := by
  obtain ⟨window,region,waveform,marker,callback⟩ := q
  have hr := deeds_record h window hm mark
  have hend : ∀ {e : Desktop}, Deeds s p d₀ e → ∀ id, window = some id →
      Deeds s p d₀ (e.release id) := fun he id hid => deeds_release he (hw id hid)
  cases callback with
  | none =>
    cases window with
    | none => exact hr
    | some id => exact hend hr id rfl
  | some c =>
    have hd := deeds_runCallback hr c fun id marker hid => hc id marker (congrArg some hid)
    cases window with
    | none => exact hd
    | some id => exact hend hd id rfl

theorem deeds_enqueue {q : Repaint} (hm : Dealing.Marks p q.marker)
    (hw : ∀ id, q.window = some id → s.windows id) (hc : q.callback = none)
    (ho : ∀ id w, q.window = some id → d.window? id = some w → w.state ≠ .closed) :
    Deeds s p d₀ (d.enqueue q) := by
  have hl := deeds_log h .trace "Queueing repaint"
  simp only [enqueue]
  split
  · exact deeds_finish hl hm hw (fun id marker hid => by simp [hc] at hid) 0
  · exact hl.tail (.queue q hm ho)

theorem deeds_requestRepaint {window : Option WindowId}
    (hw : ∀ id, window = some id → s.windows id) (region : Rect) (waveform : Option Waveform)
    {marker : Marker} (hm : Dealing.Marks p marker) :
    Deeds s p d₀ (d.requestRepaint window region waveform marker) := by
  unfold requestRepaint
  split
  · rename_i w hbind
    split
    · exact deeds_record (deeds_log h ..) _ hm _
    · rename_i hopen
      refine deeds_enqueue h hm hw rfl fun id v hid hv => ?_
      obtain rfl : window = some id := hid
      obtain rfl : v = w := Option.some.inj (hv.symm.trans hbind)
      exact hopen
  · rename_i hbind
    refine deeds_enqueue h hm hw rfl fun id v hid hv => ?_
    obtain rfl : window = some id := hid
    exact absurd (hv.symm.trans hbind) (by simp)

theorem deeds_damage {window : Option WindowId} (hw : ∀ id, window = some id → s.windows id)
    (region : Rect) : Deeds s p d₀ (d.damage window region) := by
  unfold damage
  split
  · exact deeds_requestRepaint h hw _ _ (.inl rfl)
  · exact h

theorem deeds_damageWindow {w : Window} (hw : s.windows w.id) : Deeds s p d₀ (d.damageWindow w) :=
  deeds_damage h (fun _ hid => Option.some.inj hid ▸ hw) _

theorem deeds_damageAll (region : Rect) : Deeds s p d₀ (d.damage none region) :=
  deeds_damage h (fun _ hid => by cases hid) region

theorem deeds_damage_if {window : Option WindowId} (hw : ∀ id, window = some id → s.windows id)
    (b : Bool) (region : Rect) : Deeds s p d₀ (if b then d.damage window region else d) := by
  split
  · exact deeds_damage h hw region
  · exact h

theorem deeds_damageMove {id : WindowId} (hs : s.windows id) (wasVisible : Bool) (old : Rect) :
    Deeds s p d₀ (d.damageMove id wasVisible old) := by
  have hd : Deeds s p d₀ (if wasVisible then d.damage none old else d) :=
    deeds_damage_if h (fun _ hid => by cases hid) ..
  simp only [damageMove]
  generalize (if wasVisible then d.damage none old else d) = e at hd
  split
  · rename_i w hw
    exact deeds_damage_if hd (fun _ hid => Option.some.inj hid ▸ id_of_window? e hw ▸ hs) ..
  · exact hd

theorem deeds_replaceImage {id : WindowId} (hs : s.windows id) (geometry : Rect) :
    Deeds s p d₀ (d.replaceImage id geometry).1 := by
  rcases replaceImage_cases d id geometry with he | ⟨level,text,he⟩ | ⟨w,hw,ho,he⟩
  · rw [he]
    exact h
  · rw [he]
    exact deeds_log h ..
  · obtain rfl := id_of_window? d hw
    rw [he]
    exact h.tail (.refurnish geometry hs hw ho)

theorem deeds_setGeometry {id : WindowId} (hs : s.windows id) (caller : Group) (geometry : Rect) :
    Deeds s p d₀ (d.setGeometry id caller geometry) := by
  have hl := deeds_logCall h id caller
  refine guardedDo_cases (P := Deeds s p d₀) hl fun w _ => ?_
  have hr := deeds_replaceImage hl hs geometry
  split
  · rename_i e he
    rw [he] at hr
    exact deeds_damageMove hr hs ..
  · rename_i e he
    rw [he] at hr
    exact hr

theorem deeds_ask {α : Type} (id : WindowId) (caller : Group) (denied : α)
    (answer : Desktop → Window → α) :
    Deeds s p d₀ (d.guarded id caller denied fun d w => (d,answer d w)).1 :=
  guarded_cases (P := Deeds s p d₀) (deeds_logCall h id caller) fun _ _ => deeds_logCall h id caller

theorem deeds_resize {id : WindowId} (hs : s.windows id) (caller : Group) (width height : Int32) :
    Deeds s p d₀ (d.resize id caller width height).1 := by
  have hl := deeds_logCall h id caller
  exact guarded_cases (P := Deeds s p d₀) hl fun w _ => deeds_ask (deeds_setGeometry hl hs ..) ..

theorem deeds_moveTo {id : WindowId} (hs : s.windows id) (caller : Group) (x y : Int32) :
    Deeds s p d₀ (d.moveTo id caller x y) := by
  have hl := deeds_logCall h id caller
  refine guardedDo_cases (P := Deeds s p d₀) hl fun w hw => ?_
  obtain rfl := id_of_window? _ hw
  dsimp only
  split
  · exact hl
  rename_i hmoves
  have hr := hl.tail (.relocate (w.geometry.movedTo ⟨x,y⟩) hs hw (fun hc => hmoves (.inl hc)) rfl
    rfl)
  exact deeds_damageMove hr hs ..

theorem deeds_repaint {id : WindowId} (hs : s.windows id) (caller : Group) (region : Option Rect)
    (waveform : Option Waveform) {marker : Marker} (hmark : Dealing.Marks p marker) :
    Deeds s p d₀ (d.repaint id caller region waveform marker) := by
  have hl := deeds_logCall h id caller
  refine guardedDo_cases (P := Deeds s p d₀) hl fun w _ => ?_
  have hm : Deeds s p d₀ (if marker = 0 then d.logCall id caller
      else (d.logCall id caller).modify id fun w => { w with lastMarker := marker }) := by
    split
    · exact hl
    · exact hl.tail (.tend id _ hs (fun _ => rfl) fun w _ =>
        ⟨⟨rfl,rfl,fun _ => rfl,fun kind => by cases kind <;> exact ⟨rfl,rfl,rfl⟩⟩,rfl,rfl⟩)
  dsimp only
  generalize (if marker = 0 then d.logCall id caller else (d.logCall id caller).modify id
    fun w => { w with lastMarker := marker }) = e at hm
  split
  · exact deeds_requestRepaint hm (fun _ hid => Option.some.inj hid ▸ hs) _ _ hmark
  · exact deeds_record (deeds_log hm ..) _ hmark _

theorem deeds_waitForMarker (id : WindowId) (caller : Group) (marker : Marker) (c : Callback)
    (hc : ∀ id m, c = .answer id m → s.windows id) :
    Deeds s p d₀ (d.waitForMarker id caller marker c) := by
  have hl := deeds_logCall h id caller
  simp only [waitForMarker]
  split
  · exact deeds_addWait hl _ _ c hc
  · exact deeds_runCallback hl c hc

theorem deeds_setHeight {id : WindowId} (hs : s.windows id)
    (ho : ∀ w, d.window? id = some w → w.state ≠ .closed) (z : Int32) :
    Deeds s p d₀ (d.setHeight id z) := by
  unfold setHeight
  split
  · exact h
  split
  · exact h
  · refine deeds_notify ?_ ..
    refine h.tail (.shift id _ hs (fun _ => rfl) fun w hw => ?_)
    exact ⟨ho w hw,rfl,rfl,rfl,fun kind => by cases kind <;> rfl,rfl,.inl rfl⟩

theorem deeds_changeLayer {w : Window} (hw : d.window? w.id = some w) (ho : w.state ≠ .closed)
    (hs : s.windows w.id) (hst : s.stack) {state : WindowState} (hc : state ≠ .closed)
    (z : Int32) : Deeds s p d₀ (d.changeLayer w state z) := by
  have hl := look_layer (d := d) w state
  have ha : Deeds s p d₀ (d.relayer w state) := h.tail (.relayer state hs hw ho hc)
  rw [changeLayer_eq]
  rw [relayer] at ha
  generalize (d.modify w.id fun v => { v with state, touching := [] }).cancelTouches w.id
    w.touching = e at hl ha
  refine (deeds_setHeight ha hs (fun v hv => ?_) z).tail (.sort hst)
  have hf : e.look.face w.id = some v.face := by simp [look, hv]
  rw [hl] at hf
  have hstate : v.state = state := by
    simpa [Look.change, look, hw, Window.face] using (congrArg (Option.map (·.state)) hf).symm
  exact hstate ▸ hc

theorem deeds_bring {w : Window} (hw : d.window? w.id = some w) (ho : w.state ≠ .closed)
    (hs : s.windows w.id) (hst : s.stack) {state : WindowState} (hc : state ≠ .closed) (z : Int32)
    {m : Message} (hm : m.plain = true) (hping : m ≠ .ping) :
    Deeds s p d₀ (d.bring w state z m) :=
  deeds_notifyState (deeds_post (deeds_changeLayer h hw ho hs hst hc z) hs .event hm
    fun he => absurd he hping) ..

theorem deeds_raise {id : WindowId} (hs : s.windows id) (hst : s.stack) (caller : Group) :
    Deeds s p d₀ (d.raise id caller) := by
  have hl := deeds_logCall h id caller
  refine guardedDo_open (P := Deeds s p d₀) hl fun w hw ho => ?_
  obtain rfl := id_of_window? _ hw
  have hb := deeds_bring hl hw ho hs hst (WindowState.raise_ne_closed ho) Int32.maxValue
    (m := .raise) rfl nofun
  exact deeds_damage_if hb (fun _ hid => Option.some.inj hid ▸ hs) ..

theorem deeds_lower {id : WindowId} (hs : s.windows id) (hst : s.stack) (caller : Group) :
    Deeds s p d₀ (d.lower id caller) := by
  have hl := deeds_logCall h id caller
  refine guardedDo_open (P := Deeds s p d₀) hl fun w hw ho => ?_
  obtain rfl := id_of_window? _ hw
  have hb := deeds_bring hl hw ho hs hst (WindowState.lower_ne_closed ho) Int32.minValue
    (m := .lower) rfl nofun
  exact deeds_damage_if hb (fun _ hid => by cases hid) ..

theorem deeds_setVisible {id : WindowId} (hs : s.windows id) (caller : Group) (visible : Bool) :
    Deeds s p d₀ (d.setVisible id caller visible) := by
  have hl := deeds_logCall h id caller
  refine guardedDo_cases (P := Deeds s p d₀) hl fun w hw => ?_
  dsimp only
  split
  · exact hl
  rename_i hchanges
  have hn : Deeds s p d₀ (((d.logCall id caller).modify id fun v => { v with
      state := w.state.withVisible visible }).notify id
        (.stateChanged (w.state.withVisible visible))) := by
    refine deeds_notify ?_ ..
    refine hl.tail (.shift id _ hs (fun _ => rfl) fun v hv => ?_)
    obtain rfl := Option.some.inj (hv.symm.trans hw)
    refine ⟨fun hc => hchanges ?_,rfl,rfl,rfl,fun kind => by cases kind <;> rfl,rfl,.inl rfl⟩
    rw [hc]
    cases visible <;> rfl
  split
  · exact deeds_damageWindow hn (id_of_window? _ hw ▸ hs)
  split
  · exact deeds_damageAll hn _
  · exact hn

theorem deeds_relist {r t : Registry} (hst : s.stack) (hr : d.registry = some r)
    (hs : t.sorted ⊆ r.sorted) (ho : t.order ⊆ r.order)
    (hk : ∀ id ∈ r.order, ¬ s.windows id → id ∈ t.order)
    (hi : p .count ∨ t.nextInternal = r.nextInternal) :
    Deeds s p d₀ { d with registry := some t } := by
  refine h.tail (.relist _ hst ⟨fun r'' he id hid => ?_,fun id hid hn => ?_,fun r'' he => ?_⟩
    fun r'' he => hi.imp_right fun hi => ⟨r,hr,Option.some.inj he ▸ hi⟩)
  · obtain rfl := Option.some.inj he
    exact .inl ⟨r,hr,ho hid⟩
  · obtain ⟨r'',he,hid⟩ := hid
    obtain rfl := Option.some.inj (hr.symm.trans he)
    exact ⟨t,rfl,hk id hid hn⟩
  · exact ⟨r,hr,Option.some.inj he ▸ hs⟩

theorem deeds_forget {id : WindowId} (hs : s.windows id) (hst : s.stack) :
    Deeds s p d₀ (d.forget id) := by
  unfold forget
  split
  · exact h
  rename_i r hr
  split
  · have hf := deeds_relist (t := { r with toWindowMap := r.remove id }) h hst hr
      (List.Subset.refl _) (List.filter_subset_self _) fun j hj hn =>
        List.mem_filter.2 ⟨hj,bne_iff_ne.2 fun he => hn (he ▸ hs)⟩
    exact deeds_aside ((hf (.inr rfl)).tail (.sort hst)) ⟨⟨rfl,rfl,rfl,rfl,rfl,rfl,rfl,rfl,rfl⟩,rfl⟩
  · exact h

theorem deeds_hangUp {id : WindowId} (hs : s.windows id)
    (hc : ∀ v, d.look.face id = some v → v.state = .closed) (kinds : List ChannelKind) :
    Deeds s p d₀ (kinds.foldl (·.closePipe id ·) d) := by
  induction kinds generalizing d with
  | nil => exact h
  | cons kind kinds ih =>
    refine ih (h.tail (.hangUp id kind hs fun w hw => ?_)) ((look_closePipe d id kind).symm ▸ hc)
    exact hc w.face (by simp [look, hw])

theorem deeds_close {id : WindowId} (hs : s.windows id) (hst : s.stack) (caller : Group) :
    Deeds s p d₀ (d.close id caller) := by
  have hl := deeds_logCall h id caller
  refine guardedDo_open (P := Deeds s p d₀) hl fun w hw ho => ?_
  have hc : Deeds s p d₀ ((d.logCall id caller).modify id fun w =>
      { w with state := w.state.close, touching := [], enabled := false }) := by
    refine hl.tail (.shift id _ hs (fun _ => rfl) fun v hv => ?_)
    obtain rfl := Option.some.inj (hv.symm.trans hw)
    exact ⟨ho,rfl,rfl,rfl,fun kind => by cases kind <;> rfl,rfl,.inr ⟨rfl,rfl⟩⟩
  have hstate : ∀ v, ((d.logCall id caller).modify id fun w => { w with
      state := w.state.close, touching := [], enabled := false }).look.face id = some v →
        v.state = .closed := by
    intro v hv
    rw [look_change] at hv
    · simp only [Look.change, if_pos, Option.map_eq_some_iff] at hv
      obtain ⟨u,-,rfl⟩ := hv
      rfl
    · exact fun _ => ⟨rfl,rfl,rfl⟩
  have hp := deeds_hangUp hc hs hstate ChannelKind.all
  have hf := deeds_notify (deeds_forget (deeds_notify (deeds_log hp .debug "Closed window") id
    (.stateChanged .closed)) hs hst) id .closed
  exact deeds_damage_if hf (fun _ hid => by cases hid) ..

theorem deeds_forwardTouch {id : WindowId} (hs : s.windows id) {event : TouchEvent}
    (hp : p (.touch event)) :
    Deeds s p d₀ (d.forwardTouch id event) := h.tail (.forward id event hs hp)

theorem deeds_setLiveness {id : WindowId} (hs : s.windows id) (hp : p (.ping id))
    {f : Liveness → Liveness} (hf : Liveness.Asks p f) :
    Deeds s p d₀ (d.modify id fun w => { w with liveness := f w.liveness }) :=
  h.tail (.pulse id f hs hp hf)

theorem deeds_pong {id : WindowId} (hs : s.windows id) (hp : p (.ping id)) :
    Deeds s p d₀ (d.pong id) := by
  unfold pong
  split
  · exact h
  have hl := deeds_setLiveness h hs hp (f := fun l =>
    { l with awaitingSince := none, unresponsive := false }) nofun
  dsimp only
  split
  · exact deeds_log hl ..
  · exact hl

theorem deeds_checkLiveness {id : WindowId} (hs : s.windows id) (hp : p (.ping id)) {now : Time}
    (hnow : p (.asked now)) : Deeds s p d₀ (d.checkLiveness id now) := by
  unfold checkLiveness
  split
  · exact h
  rename_i w hw
  split
  · rename_i since hsince
    have ht := deeds_reckon h (.answer (mem_of_window? hw) hsince)
    split
    · exact h
    split
    · exact deeds_log (deeds_setLiveness ht hs hp (f := fun l =>
        { l with unresponsive := true }) fun _ _ => .inl) ..
    · exact ht
  · split
    · have ht : Deeds s p d₀ (d.reckon (now+d.timings.pingInterval)) :=
        h.tail (.reckon _ (.inr ⟨now,hnow,rfl⟩))
      refine deeds_post (deeds_setLiveness ht hs hp (f := fun l =>
        { l with awaitingSince := some now, nextPing := now+d.timings.pingInterval }) ?_) hs _ rfl
          fun _ => hp
      intro l t he
      exact .inr (Option.some.inj he ▸ hnow)
    · exact h

theorem deeds_receive {id : WindowId} (hs : s.windows id) : Deeds s p d₀ (d.receive id).1 := by
  unfold receive
  split
  · exact h
  rename_i w hw
  refine h.tail (.tend id _ hs (fun v => ?_) fun v hv => ?_)
  · rfl
  · obtain rfl := Option.some.inj (hv.symm.trans hw)
    have hr : v.eventPipe.receive.1.isOpen = v.eventPipe.isOpen ∧
        v.eventPipe.receive.1.outgoing = v.eventPipe.outgoing ∧
        v.eventPipe.receive.1.posted = v.eventPipe.posted := by
      unfold Channel.receive
      split
      · exact ⟨rfl,rfl,rfl⟩
      · exact ⟨rfl,rfl,rfl⟩
    refine ⟨⟨rfl,rfl,fun _ => rfl,fun kind => ?_⟩,rfl,rfl⟩
    cases kind with
    | event => exact hr
    | _ => exact ⟨rfl,rfl,rfl⟩

theorem deeds_handleMessage {id : WindowId} (hs : s.windows id) (m : Message)
    (hst : m.restacks = true → s.stack) (hp : m = .ping → p (.ping id))
    (hm : ∀ area waveform marker, m = .repaint area waveform marker →
      Dealing.Marks p marker.toUInt64) :
    Deeds s p d₀ (d.handleMessage id m) := by
  unfold handleMessage
  split
  · exact h
  cases m with
  | repaint area waveform marker =>
    dsimp only
    refine deeds_repaint ?_ hs _ _ _ (hm _ _ _ rfl)
    split
    · exact deeds_log h ..
    · exact h
  | waitForPaint marker =>
    exact deeds_waitForMarker h _ _ _ _ fun j m hj => (Callback.answer.inj hj).1 ▸ hs
  | geometry rect z =>
    dsimp only
    split
    · exact deeds_moveTo h hs ..
    · exact deeds_setGeometry h hs ..
  | raise => exact deeds_raise h hs (hst rfl) _
  | lower => exact deeds_lower h hs (hst rfl) _
  | close => exact deeds_close h hs (hst rfl) _
  | frameBuffer => exact h.tail (.announce id hs)
  | ping => exact deeds_pong h hs (hp rfl)
  | _ => exact deeds_log h ..

theorem deeds_serviceWindow {id : WindowId} (hs : s.windows id) (hst : s.stack)
    (hp : p (.ping id)) {now : Time} (hnow : p (.asked now))
    (hm : ∀ marker : UInt32, Dealing.Marks p marker.toUInt64) :
    Deeds s p d₀ (d.serviceWindow id now) := by
  unfold serviceWindow
  split
  · exact h
  split
  · exact h
  have hr := deeds_receive h hs
  refine deeds_checkLiveness ?_ hs hp hnow
  split
  · rename_i e messages he
    rw [he] at hr
    exact deeds_foldl hr _ messages fun d m _ hd =>
      deeds_handleMessage hd hs m (fun _ => hst) (fun _ => hp) fun _ _ marker _ => hm marker
  · rename_i e error he
    rw [he] at hr
    exact deeds_log hr ..

theorem deeds_handleLifecycle (event : Lifecycle) (group : Group)
    (hs : ∀ id ∈ d.windowsOf group, s.windows id) (hst : s.stack) :
    Deeds s p d₀ (d.handleLifecycle event group) := by
  have hl := deeds_log h .debug "Supervisor event"
  cases event with
  | paused => exact deeds_foldl hl _ _ fun d id hid hd => deeds_setVisible hd (hs id hid) ..
  | resumed => exact deeds_foldl hl _ _ fun d id hid hd => deeds_setVisible hd (hs id hid) ..
  | exited => exact deeds_foldl hl _ _ fun d id hid hd => deeds_close hd (hs id hid) hst _
  | foreground => exact deeds_foldl hl _ _ fun d id hid hd => deeds_raise hd (hs id hid) hst _
  | background => exact deeds_foldl hl _ _ fun d id hid hd => deeds_lower hd (hs id hid) hst _

end

end Desktop

end InkCompositor
