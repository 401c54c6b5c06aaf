import Mathlib
import InkCompositor.Proofs.Client.Sequences
import InkCompositor.Proofs.Desktop.Legibility

/-!
# Touches in progress and what clients are told of them

The touches in progress in a window are the slots that are open in the stream
on its touch pipe. A raise and a lower end all of them in one message.
-/

set_option autoImplicit false

namespace InkCompositor

open Wire

theorem Wire.Message.cancels_of_plain {m : Message} (h : m.plain = true) : m.cancels = false := by
  cases m with
  | touch event => cases h
  | _ => rfl

namespace Channel

variable {c : Channel}

theorem messages_send (h : c.isOpen = true) (m : Message) :
    (c.send m).1.messages = c.messages ++ [m] := (messages_sendWith c m _).trans (if_pos h)

theorem uncut_of_sent (h : ∀ x ∈ c.posted.toList, x.2 = .sent) : c.Uncut := fun x hx hc =>
  Delivery.noConfusion ((h x hx).symm.trans hc)

theorem written_of_sent (h : ∀ x ∈ c.posted.toList, x.2 = .sent) :
    written c.posted.toList = c.messages.flatMap Message.encode := by
  have hall : c.posted.toList.filter (fun x => x.2 = .sent) = c.posted.toList :=
    List.filter_eq_self.2 fun x hx => decide_eq_true (h x hx)
  rw [written, hall, messages, List.flatMap_map]

end Channel

namespace Window

variable {w v : Window}

/-- Unless the window is closed or its touch pipe was cut, the touches in progress are the slots
that are open in the stream there, in ascending order. -/
def Tracked (w : Window) : Prop := w.state ≠ .closed → w.touchPipe.Uncut →
  w.touchPipe.isOpen = true ∧ Ascending w.touching ∧
    ∀ slot, slot ∈ w.touching ↔ OpenSlot w.touchPipe.messages slot

theorem Tracked.of_eq (h : w.Tracked) (hstate : w.state = .closed → v.state = .closed)
    (htouching : v.touching = w.touching) (hopen : v.touchPipe.isOpen = w.touchPipe.isOpen)
    (hposted : v.touchPipe.posted = w.touchPipe.posted) : v.Tracked := by
  intro ho hu
  rw [Channel.Uncut, hposted] at hu
  rw [hopen, htouching, Channel.messages, hposted]
  exact h (fun hc => ho (hstate hc)) hu

theorem Tracked.send (h : w.Tracked) (hstate : w.state = .closed → v.state = .closed) {m : Message}
    (hpipe : v.touchPipe = (w.touchPipe.send m).1)
    (hasc : Ascending w.touching → Ascending v.touching)
    (hslots : (∀ slot, slot ∈ w.touching ↔ OpenSlot w.touchPipe.messages slot) →
      ∀ slot, slot ∈ v.touching ↔ OpenSlot (w.touchPipe.messages ++ [m]) slot) : v.Tracked := by
  intro ho hu
  rw [hpipe] at hu
  obtain ⟨hu₀,hsent⟩ := Channel.Uncut.of_sendWith hu
  obtain ⟨hopen₀,hasc₀,hslots₀⟩ := h (fun hc => ho (hstate hc)) hu₀
  obtain ⟨hopen,hms⟩ := hsent hopen₀
  rw [hpipe]
  exact ⟨hopen,hasc hasc₀,fun slot => (hslots hslots₀ slot).trans (by rw [Channel.send, hms])⟩

@[simp] theorem touchPipe_tell (w : Window) (ms : List Message) :
    (w.tell ms).touchPipe = w.touchPipe := by
  induction ms generalizing w with
  | nil => rfl
  | cons m ms ih =>
    rw [tell_cons, ih]
    rfl

theorem Tracked.tell (h : w.Tracked) (hstate : v.state = w.state)
    (htouching : v.touching = w.touching) (hpipe : v.touchPipe = w.touchPipe) (ms : List Message) :
    (v.tell ms).Tracked :=
  h.of_eq (fun hc => (state_tell ..).trans (hstate.trans hc)) ((touching_tell ..).trans htouching)
    (by rw [touchPipe_tell, hpipe]) (by rw [touchPipe_tell, hpipe])

theorem Tracked.relayered (h : w.Tracked) (ho : w.state ≠ .closed) (state : WindowState) :
    (w.relayered state).Tracked := by
  rw [Window.relayered]
  split
  · rename_i hempty
    exact h.of_eq (fun hc => absurd hc ho) (List.isEmpty_iff.1 hempty).symm rfl rfl
  · exact h.send (v := { w with state, touching := [] }.post .touch _)
      (m := .touch (.cancelling w.touching)) (fun hc => absurd hc ho) rfl
      (fun _ => show Ascending [] from .nil)
      fun _ _ => iff_of_false List.not_mem_nil (not_openSlot_concat rfl)

theorem Tracked.exchange {p : Dealing → Prop} (h : w.Tracked) (hx : w.Exchange p v) :
    v.Tracked := by
  cases hx with
  | rest hr =>
    rcases hr.touching with ht | ⟨-,hc⟩
    · exact h.of_eq hr.closed ht (hr.pipes .touch).1 (hr.pipes .touch).2.2
    -- only a close forgets touches without a word
    · exact fun ho => absurd hc ho
  | pulse => exact h.of_eq (fun hc => hc) rfl rfl rfl
  | post kind m hm =>
    cases kind with
    | touch =>
      exact h.send (fun hc => hc) rfl (fun ha => ha) fun hslots slot => (hslots slot).trans
        (openSlot_concat_bare (Message.cancels_of_plain hm) (Message.points_of_plain hm)).symm
    | tablet | key | event => exact h.of_eq (fun hc => hc) rfl rfl rfl
  | announce => exact h.tell rfl rfl rfl _
  | forward event =>
    exact h.send (v := w.touched event) (fun hc => hc) rfl TouchEvent.ascending_slotsAfter
      fun hslots slot => TouchEvent.mem_slotsAfter_iff_open hslots event slot
  | hangUp kind hc =>
    refine fun ho => absurd ?_ ho
    cases kind <;> exact hc
  | relocate geometry => exact h.tell (v := { w with geometry }) rfl rfl rfl _
  | refurnish geometry image => exact h.tell (v := { w with geometry, image }) rfl rfl rfl _
  | relayer state ho => exact h.relayered ho state

theorem Blank.tracked (h : w.Blank) : w.Tracked := by
  intro _ _
  obtain ⟨socket,hpipe⟩ := h.pipes .touch
  change w.touchPipe = _ at hpipe
  rw [hpipe, h.touching]
  exact ⟨rfl,.nil,fun _ => iff_of_false List.not_mem_nil not_openSlot_nil⟩

theorem messages_relayered (h : w.touchPipe.isOpen = true) (state : WindowState) :
    (w.relayered state).touchPipe.messages = w.touchPipe.messages ++
      if w.touching = [] then [] else [.touch (.cancelling w.touching)] := by
  have hpipe := congrArg Prod.snd (w.contact_relayered state)
  change (w.relayered state).touchPipe = _ at hpipe
  rw [hpipe]
  cases htouching : w.touching with
  | nil => simp
  | cons slot slots => simp [Channel.messages_send h]

end Window

namespace Desktop

variable {d : Desktop} {w : Window}

theorem tracked_kept (q : TouchEvent → Prop) : Kept q Window.Tracked fun _ => True where
  opened v hv := by
    obtain ⟨w,geometry,image,hb,rfl⟩ := hv
    exact hb.tracked.exchange (p := Dealing.touching q) (.refurnish geometry image)
  exchange _ _ hx h := h.exchange hx
  ending _ _ := trivial
  resting _ _ _ _ := trivial

/-- A window, or what is left of it, with no touches in progress and these messages on its touch
pipe. -/
def Flushed (d : Desktop) (id : WindowId) (ms : List Message) : Prop :=
  ∃ v ∈ d.windows ++ d.ended, v.id = id ∧ v.touching = [] ∧ v.touchPipe.messages = ms

theorem mem_release {v : Window} (hv : d.window? v.id = some v) (j : WindowId) :
    v ∈ (d.release j).windows ∨ v.ending ∈ (d.release j).ended := by
  rcases release_ends d j with he | ⟨u,hu,he⟩
  · rw [he]
    exact .inl (mem_of_window? hv)
  rw [he.windows, he.ended]
  by_cases hid : v.id = u.id
  · have huv : u = v := by
      rw [hid, id_of_window? d hu] at hv
      exact Option.some.inj (hu.symm.trans hv)
    exact .inr (by simp [huv])
  · exact .inl (List.mem_filter.2 ⟨mem_of_window? hv,by simpa using hid⟩)

theorem flushed_of_contact {id : WindowId} {c : Channel} (h : d.contact? id = some ([],c)) :
    d.Flushed id c.messages := by
  obtain ⟨v,hv,hc⟩ := Option.map_eq_some_iff.1 h
  obtain ⟨htouching,rfl⟩ := Prod.mk.inj hc
  exact ⟨v,List.mem_append_left _ (mem_of_window? hv),id_of_window? d hv,htouching,rfl⟩

theorem flushed_damage {id : WindowId} {c : Channel} (h : d.contact? id = some ([],c))
    (window : Option WindowId) (region : Rect) :
    (d.damage window region).Flushed id c.messages := by
  obtain ⟨queue,ledger,trace,panicked,he | ⟨j,-,he⟩⟩ := d.damage_ends window region
  · rw [he]
    exact flushed_of_contact h
  -- painting has ended, and the repaint was the last to refer to its window
  · obtain ⟨v,hv,hc⟩ := Option.map_eq_some_iff.1 h
    obtain rfl := id_of_window? d hv
    obtain ⟨htouching,rfl⟩ := Prod.mk.inj hc
    rw [he]
    rcases mem_release (d := { d with queue, ledger, trace, panicked }) hv j with hm | hm
    · exact ⟨v,List.mem_append_left _ hm,rfl,htouching,rfl⟩
    · exact ⟨v.ending,List.mem_append_right _ hm,rfl,htouching,rfl⟩

section

variable {id : WindowId} {caller : Group} (hd : d.Distinct) (h : d.Honours id caller w)
  (hopen : w.touchPipe.isOpen = true)
include hd h hopen

theorem flushed_called (state : WindowState) (z : Int32) (m : Message) (visible : Bool)
    (window : Option WindowId) (region : Rect) :
    (if visible then ((d.logCall id caller).bring w state z m).damage window region
      else (d.logCall id caller).bring w state z m).Flushed id (w.touchPipe.messages ++
        if w.touching = [] then [] else [.touch (.cancelling w.touching)]) := by
  have htouching : (w.relayered state).touching = [] :=
    congrArg Prod.fst (w.contact_relayered state)
  have hc : ((d.logCall id caller).bring w state z m).contact? id =
      some ([],(w.relayered state).touchPipe) := by
    rw [contact?_called hd h, if_pos rfl, Window.contact, htouching]
  rw [← Window.messages_relayered hopen state]
  split
  · exact flushed_damage hc window region
  · exact flushed_of_contact hc

theorem flushed_raise : (d.raise id caller).Flushed id (w.touchPipe.messages ++
    if w.touching = [] then [] else [.touch (.cancelling w.touching)]) := by
  have he : d.raise id caller = _ := guardedDo_honoured h _
  rw [he]
  exact flushed_called hd h hopen w.state.raise Int32.maxValue .raise _ (some w.id) w.localRect

theorem flushed_lower : (d.lower id caller).Flushed id (w.touchPipe.messages ++
    if w.touching = [] then [] else [.touch (.cancelling w.touching)]) := by
  have he : d.lower id caller = _ := guardedDo_honoured h _
  rw [he]
  exact flushed_called hd h hopen w.state.lower Int32.minValue .lower _ none w.geometry

end

theorem sortedWindows_perm (h : d.look.Sound) : d.sortedWindows.Perm d.openWindows := by
  cases hr : d.registry with
  | none => simp [sortedWindows, openWindows, hr]
  | some r =>
    simp only [sortedWindows, openWindows_eq hr, hr]
    exact (h.sorted_perm (stack_look hr)).filterMap _

/-- An open window that is shown, has an image, is at least partly on the screen, and whose group is
not paused. -/
structure Receives (d : Desktop) (w : Window) : Prop where
  listed : w ∈ d.openWindows
  shown : w.state.isShown = true
  backed : w.image.isSome = true
  placed : w.geometry.intersects d.screen = true
  active : d.groups.holds .paused w.owner = false

theorem mem_inputTargets_iff (h : d.look.Sound) (hd : d.Distinct) (hw : w ∈ d.windows) :
    w.id ∈ d.inputTargets ↔ d.Receives w := by
  have hwid := hd.window? hw
  simp only [inputTargets, List.mem_map, List.mem_filter, (sortedWindows_perm h).mem_iff,
    Window.isVisibleOn, Bool.and_eq_true, Bool.not_eq_true']
  constructor
  · rintro ⟨v,⟨hv,⟨⟨hshown,himage⟩,hplaced⟩,hactive⟩,hid⟩
    obtain rfl : v = w := by
      have hvid := (window_of_mem_openWindows h hv).1
      rw [hid] at hvid
      exact Option.some.inj (hvid.symm.trans hwid)
    exact ⟨hv,hshown,himage,hplaced,hactive⟩
  · intro hr
    exact ⟨w,⟨hr.listed,⟨⟨hr.shown,hr.backed⟩,hr.placed⟩,hr.active⟩,rfl⟩

theorem window?_dispatched (h : Occurs d) (event : TouchEvent) (hw : w ∈ d.windows) :
    (d.Receives w → (d.dispatch (.touch event)).window? w.id =
      some (w.touched (event.normalized d.screen))) ∧
    (¬ d.Receives w → (d.dispatch (.touch event)).window? w.id = some w) := by
  have htarget := mem_inputTargets_iff h.sound h.distinct hw
  refine ⟨fun hr => window?_dispatchTouch h.distinct h.sound event (h.distinct.window? hw)
    (htarget.2 hr),fun hr => ?_⟩
  have hmem : w ∈ (d.dispatch (.touch event)).windows := by
    rw [dispatchTouch_windows h.distinct h.sound]
    exact List.mem_map.2 ⟨w,hw,if_neg fun ht => hr (htarget.1 ht)⟩
  exact (h.step (.act (.input (.touch event)))).distinct.window? hmem

/-- Whatever callers, clients and the host do, as long as every message on the touch pipe of a
window that is not closed was taken whole, the touches in progress in it are the slots that are
open in the stream there. A raise or a lower that is permitted ends them in one message that
cancels all of them in ascending order, each once, and sends nothing there if there are none;
then no slot is open. An event of touches goes to every open window that is shown, has an image, is
on the screen and not paused, as one message, and leaves all other windows as they are. -/
theorem touches_flushed (panel : Panel) (backing : Backing) (timings : Timings)
    (temperature : Int32) (service : Group) (system : System) (hpanel : panel.raster.id = 0)
    (steps : List Step) (hs : ∀ s ∈ steps, s.Honest) {d : Desktop}
    (hd : steps.foldl take (fresh panel backing timings temperature service system) = d)
    {w : Window} (hw : w ∈ d.windows) (ho : w.state ≠ .closed)
    (hsent : ∀ x ∈ w.touchPipe.posted.toList, x.2 = .sent) :
    (w.touchPipe.outgoing.toList = w.touchPipe.messages.flatMap Message.encode ∧
      Ascending w.touching ∧ ∀ slot, slot ∈ w.touching ↔ OpenSlot w.touchPipe.messages slot) ∧
    (∀ caller, d.permits w.id caller = true →
      ∀ e, e = d.raise w.id caller ∨ e = d.lower w.id caller → ∃ v ∈ e.windows ++ e.ended,
        v.id = w.id ∧ v.touching = [] ∧ v.touchPipe.messages = w.touchPipe.messages ++
          (if w.touching = [] then [] else [.touch (.cancelling w.touching)]) ∧
        ∀ slot, ¬ OpenSlot v.touchPipe.messages slot) ∧
    ∀ event,
      (d.Receives w → ∃ v, (d.dispatch (.touch event)).window? w.id = some v ∧
        v.touchPipe.messages = w.touchPipe.messages ++ [.touch (event.normalized d.screen)]) ∧
      ∀ v ∈ d.windows, ¬ d.Receives v → (d.dispatch (.touch event)).window? v.id = some v := by
  have htracked := upheld_run_fresh (tracked_kept fun _ => True) hpanel backing timings temperature
    service system hs fun _ _ _ => trivial
  have hcarries := upheld_run_fresh (carries_kept fun _ => True) hpanel backing timings temperature
    service system hs fun _ _ _ => trivial
  have hocc : Occurs d := hd ▸ .run (.reachable (.fresh _ _ _ _ _ _ hpanel)) steps
  rw [hd] at htracked hcarries
  have hu := Channel.uncut_of_sent hsent
  obtain ⟨hopen,hasc,hslots⟩ := htracked.here w hw ho hu
  refine ⟨⟨?_,hasc,hslots⟩,fun caller hp e he => ?_,fun event => ⟨fun hr => ?_,fun v hv => ?_⟩⟩
  · rw [← Channel.written_of_sent hsent]
    exact (hcarries.here w hw .touch).carried.bytes_eq hu
  · have hhonours : d.Honours w.id caller w := ⟨hocc.distinct.window? hw,hp,ho⟩
    have hflushed : e.Flushed w.id (w.touchPipe.messages ++
        if w.touching = [] then [] else [.touch (.cancelling w.touching)]) := by
      rcases he with rfl | rfl
      · exact flushed_raise hocc.distinct hhonours hopen
      · exact flushed_lower hocc.distinct hhonours hopen
    obtain ⟨v,hv,hid,htouching,hms⟩ := hflushed
    refine ⟨v,hv,hid,htouching,hms,fun slot => ?_⟩
    rw [hms]
    split
    · rename_i hnone
      rw [List.append_nil, ← hslots, hnone]
      exact List.not_mem_nil
    · exact not_openSlot_concat rfl
  · exact ⟨_,(window?_dispatched hocc event hw).1 hr,Channel.messages_send hopen _⟩
  · exact (window?_dispatched hocc event hv).2

/-- A shown window is touched with two fingers before it is raised. -/
theorem touches_flushed_small :
    let d := (showing ++ [Step.act (.input (.touch (fingers [5,3])))]).foldl take
      (fresh smallPanel .anonymous {} 24 1)
    ∃ w, d.window? 0 = some w ∧ w.touching = [3,5] ∧
      (∀ slot, OpenSlot w.touchPipe.messages slot ↔ slot = 3 ∨ slot = 5) ∧
      ∃ v ∈ (d.raise 0 100).windows ++ (d.raise 0 100).ended, v.id = 0 ∧ v.touching = [] ∧
        v.touchPipe.messages = w.touchPipe.messages ++ [.touch (.cancelling [3,5])] := by
  intro d
  have hlook : (d.window? 0).map (fun w => (w.state,w.touching,w.touchPipe.posted.toList.map (·.2)))
      = some (.lowered,[3,5],[.sent]) := by decide +kernel
  have hpermits : d.permits 0 100 = true := by decide +kernel
  obtain ⟨w,hw,he⟩ := Option.map_eq_some_iff.1 hlook
  obtain ⟨hstate,htouching,hposted⟩ : w.state = .lowered ∧ w.touching = [3,5] ∧
      w.touchPipe.posted.toList.map (·.2) = [.sent] := by simpa using he
  have hid := id_of_window? d hw
  have hsent : ∀ x ∈ w.touchPipe.posted.toList, x.2 = .sent := fun x hx =>
    List.mem_singleton.1 (hposted ▸ List.mem_map_of_mem hx)
  obtain ⟨⟨-,-,hslots⟩,hraise,-⟩ := touches_flushed smallPanel .anonymous {} 24 1 {} rfl
    (showing ++ [.act (.input (.touch (fingers [5,3])))]) (by simp [showing, Step.Honest])
    (d := d) rfl (mem_of_window? hw) (by rw [hstate]; decide) hsent
  obtain ⟨v,hv,hvid,hvtouching,hms,-⟩ := hraise 100 (hid.symm ▸ hpermits) _ (.inl rfl)
  refine ⟨w,hw,htouching,fun slot => ?_,v,hid ▸ hv,hvid.trans hid,hvtouching,?_⟩
  · rw [← hslots, htouching]
    simp
  · rw [hms, htouching]
    rfl

end Desktop

end InkCompositor
