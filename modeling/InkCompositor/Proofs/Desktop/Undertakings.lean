import Mathlib
import InkCompositor.Proofs.Desktop.Books
import InkCompositor.Proofs.Desktop.Deeds

/-!
# Every action consists of deeds

Painting, waiting, opening windows and whatever else may concern every window
are made of deeds like the calls on a single one. Only what clients do in their
pipes and images is not, nor is a repaint that is queued past all calls.
-/

set_option autoImplicit false

namespace InkCompositor

open Wire

/-- Clients at work in their pipes and images, and what is queued past all calls, are no edits. -/
def Action.isEdit : Action → Bool
  | .enqueue _ | .atPipe .. | .scribble .. | .present .. => false
  | _ => true

def Action.pings (id : WindowId) : Action → Prop
  | .service => True
  | .message j m => m = .ping ∧ j = id
  | _ => False

def Action.marks (marker : Marker) : Action → Prop
  | .repaint _ _ _ _ m | .dirty _ _ _ m | .dirtyAndWait _ _ _ m | .present _ _ _ _ _ m =>
    marker = m
  | .enqueue q => marker = q.marker
  | .message _ (.repaint _ _ m) => marker = m.toUInt64
  | .service => ∃ m : UInt32, marker = m.toUInt64
  | _ => False

def Action.counts : Action → Prop
  | .dirtyAndWait _ _ _ marker => marker = 0
  | _ => False

/-- Everything that an action deals with may be dealt with. -/
structure Action.Deals (d : Desktop) (p : Dealing → Prop) (a : Action) : Prop where
  touch : ∀ event, a = .input (.touch event) → p (.touch (event.normalized d.screen))
  ping : ∀ id, a.pings id → p (.ping id)
  asked : a = .service → p (.asked d.now)
  mark : ∀ marker, a.marks marker → Dealing.Marks p marker
  queued : ∀ q ∈ d.queue, Dealing.Marks p q.marker
  count : a.counts → p .count ∧ ∀ r, d.registry = some r → Dealing.Marks p r.nextInternal
  pass : ∀ time, a = .advance time → p .pass

structure Dealing.Lax (p : Dealing → Prop) : Prop where
  asked : ∀ time, p (.asked time)
  mark : ∀ marker, p (.mark marker)
  count : p .count
  pass : p .pass

theorem Dealing.Lax.deals {d : Desktop} {p : Dealing → Prop} (h : Lax p) {a : Action}
    (ht : ∀ event, a = .input (.touch event) → p (.touch (event.normalized d.screen)))
    (hp : ∀ id, a.pings id → p (.ping id)) : a.Deals d p where
  touch := ht
  ping := hp
  asked _ := h.asked _
  mark _ _ := .inr (h.mark _)
  queued _ _ := .inr (h.mark _)
  count _ := ⟨h.count,fun _ _ => .inr (h.mark _)⟩
  pass _ _ := h.pass

theorem Dealing.lax_true : Lax fun _ => True := ⟨fun _ => trivial,fun _ => trivial,trivial,trivial⟩

theorem Dealing.lax_touching (p : TouchEvent → Prop) : Lax (touching p) :=
  ⟨fun _ => trivial,fun _ => trivial,trivial,trivial⟩

namespace Desktop

variable {p : Dealing → Prop} {d₀ d : Desktop}

section

variable (h : Deeds .everything p d₀ d)
include h

theorem deeds_serviceClients (hp : ∀ id, p (.ping id)) {now : Time} (hnow : p (.asked now))
    (hm : ∀ marker : UInt32, Dealing.Marks p marker.toUInt64) :
    Deeds .everything p d₀ (d.serviceClients now) :=
  deeds_foldl h _ _ fun _ id _ hd => deeds_serviceWindow hd trivial trivial (hp id) hnow hm

theorem deeds_dispatch (input : HostInput)
    (hp : ∀ event, input = .touch event → p (.touch (event.normalized d.screen))) :
    Deeds .everything p d₀ (d.dispatch input) := by
  cases input with
  | touch event =>
    exact deeds_foldl h _ _ fun _ _ _ hd => deeds_forwardTouch hd trivial (hp event rfl)
  | tablet event =>
    exact deeds_foldl h _ _ fun _ _ _ hd => deeds_post (m := .tablet _) hd trivial _ rfl nofun
  | key event =>
    exact deeds_foldl h _ _ fun _ _ _ hd => deeds_post (m := .key _) hd trivial _ rfl nofun

theorem deeds_setEnabled (enabled : Bool) : Deeds .everything p d₀ (d.setEnabled enabled) := by
  unfold setEnabled
  split
  · exact h
  rename_i r hr
  refine deeds_foldl (deeds_relist (t := { r with enabled }) (deeds_log h ..) trivial hr
    (List.Subset.refl _) (List.Subset.refl _) (fun _ hid _ => hid) (.inr rfl)) _ _
      fun e id _ he => ?_
  refine he.tail (.tend id _ trivial (fun w => ?_) fun w _ => ?_)
  · split <;> rfl
  · split
    · exact ⟨⟨rfl,rfl,fun _ => rfl,fun _ => ⟨rfl,rfl,rfl⟩⟩,rfl,rfl⟩
    · rename_i ho
      exact ⟨⟨rfl,rfl,fun hc => absurd hc ho,fun kind => by
        cases kind <;> exact ⟨rfl,rfl,rfl⟩⟩,rfl,rfl⟩

theorem deeds_tick : Deeds .everything p d₀ d.tick := by
  have hl := deeds_logTimes (deeds_book h (d.ledger.kept_tick d.now))
    (d.ledger.tick d.now).2.timedOut .debug "Wait timed out"
  have hh := deeds_foldl hl (fun d (p : UInt32 × Callback) =>
    (d.awaitPanel p.1 "Waiting for update completion failed").runCallback p.2)
    (d.ledger.tick d.now).2.hardware fun e p _ he =>
      deeds_runCallback (deeds_awaitPanel he ..) _ fun _ _ _ => trivial
  exact deeds_foldl hh _ _ fun e c _ he => deeds_runCallback he c fun _ _ _ => trivial

theorem deeds_stopWaiting : Deeds .everything p d₀ d.stopWaiting := by
  have hf := deeds_foldl (deeds_book h d.ledger.kept_shutDown) _ d.ledger.shutDown.2
    fun e c _ he => deeds_runCallback he c fun _ _ _ => trivial
  simp only [stopWaiting]
  split
  · exact hf
  · exact deeds_log hf ..

theorem deeds_releaseAll (ids : List WindowId) : Deeds .everything p d₀ (d.releaseAll ids) :=
  deeds_foldl h _ _ fun _ _ _ hd => deeds_release hd trivial

theorem deeds_setDeferred (deferred : List WindowId) :
    Deeds .everything p d₀ { d with deferred } :=
  deeds_aside h ⟨⟨rfl,rfl,rfl,rfl,rfl,rfl,rfl,rfl,rfl⟩,rfl⟩

theorem deeds_setPanel (panel : Panel) : Deeds .everything p d₀ { d with panel } :=
  deeds_aside h ⟨⟨rfl,rfl,rfl,rfl,rfl,rfl,rfl,rfl,rfl⟩,rfl⟩

theorem deeds_sendUpdate (rect : Rect) (waveform : Waveform) :
    Deeds .everything p d₀ (d.sendUpdate rect waveform).1 := by
  have ht : Deeds .everything p d₀ d.takeHardwareMarker.1 :=
    deeds_aside h ⟨⟨rfl,rfl,rfl,rfl,rfl,rfl,rfl,rfl,rfl⟩,rfl⟩
  have hl := deeds_log ht .debug "Sending screen update"
  simp only [sendUpdate]
  generalize (if rect = d.screen then UpdateMode.full else UpdateMode.partialArea) = mode
  split
  · refine deeds_log ?_ ..
    exact deeds_emit hl _ rfl
  · exact deeds_emit hl _ rfl

theorem deeds_sendUpdates (waveform : Option Waveform) (area : List Rect) :
    Deeds .everything p d₀ (d.sendUpdates waveform area).1 := by
  rw [sendUpdates_eq]
  generalize (0 : UInt32) = last
  induction area generalizing d last with
  | nil => exact h
  | cons rect area ih => exact ih (deeds_sendUpdate h ..) _

theorem deeds_redraw (q : Repaint) : Deeds .everything p d₀ (d.redraw q).1 := by
  have hl : Deeds .everything p d₀ d.logStack := deeds_logTimes h ..
  unfold redraw
  split
  · exact deeds_log h ..
  · exact deeds_log hl ..
  · exact deeds_log hl ..
  · exact deeds_log (deeds_sendUpdates (deeds_setPanel hl _) ..) ..

theorem deeds_finishAny {q : Repaint} (hm : Dealing.Marks p q.marker) (mark : UInt32) :
    Deeds .everything p d₀ (d.finish q mark) :=
  deeds_finish h hm (fun _ _ => trivial) (fun _ _ _ => trivial) mark

theorem deeds_process {q : Repaint} (hm : Dealing.Marks p q.marker) :
    Deeds .everything p d₀ (d.process q) := deeds_finishAny (deeds_redraw h q) hm _

theorem deeds_serveMany {f : Desktop → Repaint → Desktop}
    (hf : ∀ {d : Desktop} {q : Repaint}, Deeds .everything p d₀ d → Dealing.Marks p q.marker →
      Deeds .everything p d₀ (f d q))
    (hqueue : ∀ (d : Desktop) (q : Repaint), (f d q).queue = d.queue)
    (hm : ∀ q ∈ d.queue, Dealing.Marks p q.marker) (n : Nat) :
    Deeds .everything p d₀ (serveMany f n d) := by
  induction n generalizing d with
  | zero => exact h
  | succ n ih =>
    cases hq : d.queue with
    | nil =>
      simp only [serveMany, hq]
      exact h
    | cons q rest =>
      simp only [serveMany, hq]
      rw [hq] at hm
      refine ih (hf (h.tail (.serve hq)) (hm q List.mem_cons_self)) fun r hr => ?_
      rw [hqueue] at hr
      exact hm r (List.mem_cons_of_mem q hr)

theorem deeds_reap : Deeds .everything p d₀ d.reap :=
  deeds_foldl (deeds_setDeferred h _) _ _ fun _ _ _ hd =>
    deeds_release (deeds_log (deeds_setDeferred hd _) ..) trivial

theorem deeds_runPending (hm : ∀ q ∈ d.queue, Dealing.Marks p q.marker) :
    Deeds .everything p d₀ d.runPending.1 :=
  deeds_reap (deeds_serveMany h (fun hd hq => deeds_process hd hq) (fun d q => d.queue_process q)
    hm _)

theorem deeds_paintNext (hm : ∀ q ∈ d.queue, Dealing.Marks p q.marker) :
    Deeds .everything p d₀ d.paintNext := by
  unfold paintNext
  split
  · exact deeds_reap h
  · rename_i q rest hq
    exact deeds_process (h.tail (.serve hq)) (hm q (hq ▸ List.mem_cons_self))

theorem deeds_settle (hm : ∀ q ∈ d.queue, Dealing.Marks p q.marker) :
    Deeds .everything p d₀ d.settle := by
  unfold settle
  split
  · exact deeds_tick (deeds_runPending h hm)
  · exact h

theorem deeds_standStill (hm : ∀ q ∈ d.queue, Dealing.Marks p q.marker) (resolved : Bool)
    (complaint : String) : Deeds .everything p d₀ (d.standStill resolved complaint) := by
  simp only [standStill]
  split
  · exact h
  split
  · exact deeds_settle h hm
  · exact deeds_log (deeds_settle h hm) ..

theorem deeds_waitForLastUpdate (hm : ∀ q ∈ d.queue, Dealing.Marks p q.marker) (id : WindowId)
    (caller : Group) : Deeds .everything p d₀ (d.waitForLastUpdate id caller) := by
  have hl := deeds_logCall h id caller
  have hq : (d.logCall id caller).queue = d.queue :=
    congrArg Books.queue (d.books_logCall id caller)
  exact guardedDo_cases (P := Deeds .everything p d₀) hl fun w _ =>
    deeds_standStill (deeds_addWait hl _ _ _ fun _ _ _ => trivial) (by
      rw [queue_addWait, hq]
      exact hm) ..

omit h in
theorem mem_queue_enqueue {q r : Repaint} (hr : r ∈ (d.enqueue q).queue) : r ∈ d.queue ∨ r = q := by
  simp only [enqueue] at hr
  split at hr
  · rw [queue_finish] at hr
    exact .inl hr
  · exact (List.mem_append.1 hr).imp_right List.mem_singleton.1

theorem deeds_stand {window : Option WindowId} {marker : Marker}
    (hm : ∀ q ∈ d.queue, Dealing.Marks p q.marker) (hmarker : Dealing.Marks p marker)
    (ho : (window.bind d.window?).any (·.state == .closed) ≠ true) (region : Rect)
    (waveform : Option Waveform) (resolved : Bool) (complaint : String) :
    Deeds .everything p d₀ (((d.addWait window marker .proceed).enqueue
      ⟨window,region,waveform,marker,none⟩).standStill resolved complaint) := by
  have ha := deeds_addWait h window marker .proceed fun _ _ _ => trivial
  have hl := look_addWait d window marker .proceed
  refine deeds_standStill (deeds_enqueue ha hmarker (fun _ _ => trivial) rfl fun id v hid hv => ?_)
    (fun q hq => ?_) ..
  · obtain rfl : window = some id := hid
    have hf : d.look.face id = some v.face := by rw [← hl]; simp [look, hv]
    obtain ⟨u,hu,huv⟩ := Option.map_eq_some_iff.1 hf
    intro hc
    have hst : u.state = v.state := congrArg (·.state) huv
    exact ho (by simp [hu, hst, hc])
  · rcases mem_queue_enqueue hq with hq | rfl
    · exact hm q (queue_addWait d .. ▸ hq)
    · exact hmarker

theorem deeds_repaintAndWait (hm : ∀ q ∈ d.queue, Dealing.Marks p q.marker)
    (window : Option WindowId) (region : Rect) (waveform : Option Waveform) {marker : Marker}
    (hmarker : Dealing.Marks p marker)
    (hcount : marker = 0 → p .count ∧ ∀ r, d.registry = some r → Dealing.Marks p r.nextInternal) :
    Deeds .everything p d₀ (d.repaintAndWait window region waveform marker) := by
  unfold repaintAndWait
  split
  · exact h
  rename_i r hr
  split
  · exact deeds_requestRepaint h (fun _ _ => trivial) _ _ hmarker
  rename_i ho
  dsimp only
  split
  · rename_i hzero
    obtain ⟨hc,hi⟩ := hcount hzero
    exact deeds_stand (deeds_relist (t := { r with nextInternal := r.nextInternal+1 }) h trivial hr
      (List.Subset.refl _) (List.Subset.refl _) (fun _ hid _ => hid) (.inl hc)) hm (hi r hr) ho ..
  · exact deeds_stand h hm hmarker ho ..

theorem deeds_halt (hm : ∀ q ∈ d.queue, Dealing.Marks p q.marker) :
    Deeds .everything p d₀ d.halt := by
  have ha := deeds_serveMany (d := { d with halted := true }) (f := (·.finish · 0))
    (deeds_aside h ⟨⟨rfl,rfl,rfl,rfl,rfl,rfl,rfl,rfl,rfl⟩,rfl⟩)
    (fun hd hq => deeds_finishAny hd hq 0) (fun d q => d.queue_finish q 0) hm d.queue.length
  simp only [halt]
  refine deeds_stopWaiting (deeds_releaseAll (deeds_setDeferred ?_ []) _)
  split
  · exact ha
  · exact deeds_log ha ..

theorem deeds_shutDown (hm : ∀ q ∈ d.queue, Dealing.Marks p q.marker) :
    Deeds .everything p d₀ d.shutDown := by
  have hq : (d.setEnabled false).queue = d.queue := congrArg Look.queue (look_setEnabled d false)
  exact deeds_aside (deeds_halt (deeds_setEnabled h false) (by rwa [hq]))
    ⟨⟨rfl,rfl,rfl,rfl,rfl,rfl,rfl,rfl,rfl⟩,rfl⟩

theorem deeds_clearScreen : Deeds .everything p d₀ d.clearScreen := by
  have hp := deeds_setPanel h { d.panel with raster := d.panel.raster.fill .white }
  simp only [clearScreen]
  generalize { d with panel := { d.panel with raster := d.panel.raster.fill .white } } = e at hp
  have hc := deeds_sendUpdate hp e.screen .clear
  generalize (e.sendUpdate e.screen .clear) = p at hc
  have hg := deeds_sendUpdate hc p.1.screen .highQualityGrayscale
  split
  · exact deeds_awaitPanel hg ..
  · exact hg

theorem deeds_start (hm : ∀ q ∈ d.queue, Dealing.Marks p q.marker) :
    Deeds .everything p d₀ d.start := by
  have hq : ({ d with attended := true }.clearScreen).queue = d.queue :=
    congrArg Agenda.queue (agenda_clearScreen { d with attended := true })
  refine deeds_settle (deeds_clearScreen (d := { d with attended := true })
    (deeds_aside h ⟨⟨rfl,rfl,rfl,rfl,rfl,rfl,rfl,rfl,rfl⟩,rfl⟩)) ?_
  rwa [hq]

theorem deeds_giveUp (id : WindowId) : Deeds .everything p d₀ (d.giveUp id) :=
  deeds_release (deeds_aside (e := { d with held := d.held.filter (· != id) }) h
    ⟨⟨rfl,rfl,rfl,rfl,rfl,rfl,rfl,rfl,rfl⟩,rfl⟩) trivial

theorem deeds_dropRegistry : Deeds .everything p d₀ d.dropRegistry := by
  unfold dropRegistry
  split
  · exact h
  · exact deeds_releaseAll (h.tail (.relist none trivial ⟨fun _ he => (nomatch he),
      fun _ _ hn => absurd trivial hn,fun _ he => (nomatch he)⟩ nofun)) _

omit h in
theorem deeds_openInstalled (hn : d.window? d.nextWindow = none) {r : Registry}
    (hr : d.registry = some r) {owner : Group} {isSystem : Bool} (geometry : Option Rect)
    {format : PixelFormat} (hinstall : Deeds .everything p d₀
      (d.installed (d.newWindow r owner isSystem format) (geometry.getD d.screen))) :
    Deeds .everything p d₀ (d.openWindow r owner isSystem geometry format).1 := by
  have hf : Deeds .everything p d₀ (d.furnished (d.newWindow r owner isSystem format) geometry) :=
    (furnished_eq_installed (w := d.newWindow r owner isSystem format) hn nofun rfl geometry).symm ▸
      hinstall
  have hl : ((d.added (d.newWindow r owner isSystem format)).log .debug "Created window").look =
      d.look.withNew (d.newWindow r owner isSystem format) :=
    look_added (d.newWindow r owner isSystem format) hn
  have hstack := stack_replaceImage ((d.added (d.newWindow r owner isSystem format)).log .debug
    "Created window") d.nextWindow (geometry.getD d.screen)
  have hstate := state_replaceImage ((d.added (d.newWindow r owner isSystem format)).log .debug
    "Created window") d.nextWindow (geometry.getD d.screen) d.nextWindow
  change (d.furnished _ geometry).look.stack = _ at hstack
  change ((d.furnished _ geometry).look.face _).map _ = _ at hstate
  have hagenda := congrArg Agenda.internal
    (agenda_furnished d (d.newWindow r owner isSystem format) geometry)
  rw [openWindow_eq]
  generalize d.furnished (d.newWindow r owner isSystem format) geometry = f at *
  rw [hl] at hstack hstate
  obtain ⟨r',hr',he⟩ := Option.map_eq_some_iff.1 (hstack.trans (stack_look hr))
  obtain ⟨ho,hs⟩ := Prod.mk.inj he
  have hinternal : r'.nextInternal = r.nextInternal := by
    simpa [agenda, reckon, hr', hr] using hagenda
  have hhidden : (f.window? d.nextWindow).map (·.state) = some .loweredHidden := by
    simpa [look, Look.withNew, newWindow, Window.face, Function.comp_def] using hstate
  obtain ⟨w,hw,hopen⟩ := Option.map_eq_some_iff.1 hhidden
  have hj : Relisting .everything f (some { r with toWindowMap := r.insert d.nextWindow }) := by
    refine ⟨fun r'' he id hid => ?_,fun _ _ hn => absurd trivial hn,fun r'' he => ?_⟩
    · obtain rfl := Option.some.inj he
      rcases List.mem_append.1 hid with hid | hid
      · exact .inl ⟨r',hr',ho ▸ hid⟩
      · rw [List.mem_singleton.1 hid]
        exact .inr ⟨trivial,w,hw,by rw [hopen]; decide⟩
    · obtain rfl := Option.some.inj he
      exact ⟨r',hr',hs ▸ List.Subset.refl _⟩
  exact deeds_log (.tail (.tail hf (.relist _ trivial hj fun r'' he =>
    .inr ⟨r',hr',Option.some.inj he ▸ hinternal.symm⟩)) (.sort trivial)) ..

theorem deeds_openWindow (hn : d.window? d.nextWindow = none) {r : Registry}
    (hr : d.registry = some r) (owner : Group) (isSystem : Bool) (geometry : Option Rect)
    (format : PixelFormat) :
    Deeds .everything p d₀ (d.openWindow r owner isSystem geometry format).1 :=
  deeds_openInstalled hn hr geometry (h.tail (.install r owner isSystem format _ trivial hn))

theorem deeds_createWindow (hs : d.look.Sound) (caller : Group) (geometry : Option Rect)
    (format : PixelFormat) : Deeds .everything p d₀ (d.createWindow caller geometry format).1 := by
  unfold createWindow
  split
  · exact h
  rename_i r hr
  split
  · exact deeds_log h ..
  · exact deeds_openWindow h (window?_nextWindow hs.toReady) hr ..

theorem deeds_createSystemWindow (hs : d.look.Sound) (geometry : Option Rect)
    (format : PixelFormat) : Deeds .everything p d₀ (d.createSystemWindow geometry format).1 := by
  unfold createSystemWindow
  split
  · exact h
  rename_i r hr
  exact deeds_setVisible (deeds_openWindow h (window?_nextWindow hs.toReady) hr ..) trivial ..

theorem deeds_inspect (id : WindowId) (caller : Group) :
    Deeds .everything p d₀ (d.inspect id caller).1 := by
  simp only [inspect, ChannelKind.all, List.foldl_cons, List.foldl_nil]
  iterate 10 refine deeds_ask ?_ ..
  exact h

theorem deeds_getWindow (caller : Group) (id : WindowId) :
    Deeds .everything p d₀ (d.getWindow caller id).1 := by
  unfold getWindow
  split
  · exact h
  · split
    · exact h
    · exact deeds_log h ..

end

theorem perform_deeds (hs : d.look.Sound) (a : Action) (ha : a.isEdit = true)
    (hp : a.Deals d p) : Deeds .everything p d (d.perform a) := by
  have h : Deeds .everything p d d := .refl
  have hq := hp.queued
  cases a with
  | create => exact deeds_createWindow h hs ..
  | createSystem => exact deeds_createSystemWindow h hs ..
  | setGeometry => exact deeds_setGeometry h trivial ..
  | resize => exact deeds_resize h trivial ..
  | moveTo => exact deeds_moveTo h trivial ..
  | raise => exact deeds_raise h trivial trivial _
  | lower => exact deeds_lower h trivial trivial _
  | setVisible => exact deeds_setVisible h trivial ..
  | close => exact deeds_close h trivial trivial _
  | repaint => exact deeds_repaint h trivial _ _ _ (hp.mark _ rfl)
  | wait => exact deeds_waitForMarker h _ _ _ _ fun _ _ _ => trivial
  | waitForLast => exact deeds_waitForLastUpdate h hq ..
  | inspect => exact deeds_inspect h ..
  | takePipe => exact deeds_ask h ..
  | find => exact deeds_getWindow h ..
  | giveUp => exact deeds_giveUp h _
  | message =>
    refine deeds_handleMessage h trivial _ (fun _ => trivial) (fun hm => hp.ping _ ⟨hm,rfl⟩) ?_
    rintro area waveform marker rfl
    exact hp.mark _ rfl
  | service =>
    exact deeds_serviceClients h (fun id => hp.ping id trivial) (hp.asked rfl) fun marker =>
      hp.mark _ ⟨marker,rfl⟩
  | input event => exact deeds_dispatch h event fun e he => hp.touch e (congrArg _ he)
  | supervise => exact deeds_handleLifecycle h _ _ (fun _ _ => trivial) trivial
  | enable => exact deeds_setEnabled h _
  | sort => exact h.tail (.sort trivial)
  | dirty => exact deeds_requestRepaint h (fun _ _ => trivial) _ _ (hp.mark _ rfl)
  | dirtyAndWait => exact deeds_repaintAndWait h hq _ _ _ (hp.mark _ rfl) hp.count
  | addWait => exact deeds_addWait h _ _ _ fun _ _ _ => trivial
  | runPending => exact deeds_runPending h hq
  | paintNext => exact deeds_paintNext h hq
  | tick => exact deeds_tick h
  | advance time => exact h.tail (.pass time (hp.pass time rfl))
  | clearScreen => exact deeds_clearScreen h
  | halt => exact deeds_halt h hq
  | shutDown => exact deeds_shutDown h hq
  | start => exact deeds_start h hq
  | dropRegistry => exact deeds_dropRegistry h
  | deface | regroup | refuse | exhaust =>
    exact deeds_aside h ⟨⟨rfl,rfl,rfl,rfl,rfl,rfl,rfl,rfl,rfl⟩,rfl⟩
  | enqueue | atPipe | scribble | present => cases ha

theorem perform_edits (hs : d.look.Sound) (a : Action) (ha : a.isEdit = true) :
    Edits .everything d (d.perform a) :=
  (perform_deeds hs a ha (Dealing.lax_true.deals (fun _ _ => trivial) fun _ _ => trivial)).edits

/-- What every deed keeps, and clients and what is queued past all calls keep too, an action
keeps. -/
theorem perform_keeps_deeds {P : Desktop → Prop} (a : Action)
    (hdeed : ∀ {d e : Desktop}, Deed .everything p d e → P d → P e)
    (hqueue : ∀ {d : Desktop} (q : Repaint), Dealing.Marks p q.marker → P d →
      P { d with queue := d.queue ++ [q] })
    (hpipe : ∀ {d : Desktop} (id : WindowId) (kind : ChannelKind) (f : Channel → Channel),
      a = .atPipe id kind f → P d → P (d.atPipe id kind f))
    (hscribble : ∀ {d : Desktop} (id : WindowId) (bytes : Raster → Array UInt8),
      P d → P (d.scribble id bytes))
    (hp : a.Deals d p) (hs : d.look.Sound) (h : P d) : P (d.perform a) := by
  by_cases ha : a.isEdit = true
  · exact (perform_deeds hs a ha hp).keeps hdeed h
  cases a with
  | enqueue q =>
    have hl := hdeed (.note (.logged .trace "Queueing repaint") rfl) h
    have hm := hp.mark _ rfl
    show P (if d.halted then _ else _)
    split
    · exact (deeds_finishAny .refl hm 0).keeps hdeed hl
    · exact hqueue q hm hl
  | atPipe id kind f => exact hpipe id kind f rfl h
  | scribble id bytes => exact hscribble id bytes h
  | present id bytes caller area waveform marker =>
    exact (deeds_repaint .refl trivial _ _ _ (hp.mark _ rfl)).keeps hdeed (hscribble id bytes h)
  | _ => exact absurd rfl ha

/-- What every edit keeps, and clients and what is queued past all calls keep too, every action
keeps. -/
theorem perform_keeps {P : Desktop → Prop}
    (hedit : ∀ {d e : Desktop}, Edit .everything d e → P d → P e)
    (hqueue : ∀ {d : Desktop} (queue : List Repaint), P d → P { d with queue })
    (hpipe : ∀ {d : Desktop} (id : WindowId) (kind : ChannelKind) (f : Channel → Channel),
      P d → P (d.atPipe id kind f))
    (hscribble : ∀ {d : Desktop} (id : WindowId) (bytes : Raster → Array UInt8),
      P d → P (d.scribble id bytes))
    (hs : d.look.Sound) (a : Action) (h : P d) : P (d.perform a) :=
  perform_keeps_deeds (p := fun _ => True) a (fun he => he.edits.keeps hedit) (fun _ _ => hqueue _)
    (fun id kind f _ => hpipe id kind f) hscribble
    (Dealing.lax_true.deals (fun _ _ => trivial) fun _ _ => trivial) hs h

end Desktop

end InkCompositor
