import Mathlib
import InkCompositor.Proofs.Client.Slots
import InkCompositor.Proofs.Desktop.Touches
import InkCompositor.Proofs.Wire.Codec

/-!
# What clients can read

Whatever is posted on a pipe can be read back by the client, but for one kind
of message: touches are collected over many events, and when a window changes
its layer all of them are cancelled in one message, however many they are.
-/

set_option autoImplicit false

namespace InkCompositor

open Wire

namespace Wire.Message

/-- The message is read where its bytes stand in front, whatever comes behind. -/
def Legible (m : Message) : Prop :=
  ∀ rest : List UInt8, decode (m.encode ++ rest) = .ok (m,m.encode.length)

def Illegible (m : Message) : Prop :=
  ∀ (rest : List UInt8) (n : Nat), decode (m.encode ++ rest) ≠ .ok (m,n)

theorem legible_of_le {m : Message} (h : m.points.length ≤ 64) : m.Legible := fun _ =>
  (decode_eq_ok_iff _ m _).2 ⟨h,rfl,List.take_left⟩

theorem illegible_of_lt {m : Message} (h : 64 < m.points.length) : m.Illegible := fun _ n he =>
  absurd ((decode_eq_ok_iff _ m n).1 he).1 (Nat.not_le.2 h)

def Fit (S : Int32 → Prop) (m : Message) : Prop :=
  m.points.length ≤ 64 ∨ ∃ slots, m = .touch (.cancelling slots) ∧ Ascending slots ∧
    ∀ slot ∈ slots, S slot

theorem points_of_plain {m : Message} (h : m.plain = true) : m.points = [] := by
  cases m with
  | touch event => cases h
  | _ => rfl

theorem fit_of_points {S : Int32 → Prop} {m : Message} (h : m.points = []) : m.Fit S :=
  .inl (by simp [h])

end Wire.Message

structure Wire.TouchEvent.Moderate (S : Int32 → Prop) (event : TouchEvent) : Prop where
  few : event.points.length ≤ 64
  slots : ∀ point ∈ event.points, S point.id

namespace Channel

variable {S : Int32 → Prop} {c : Channel}

def Fit (S : Int32 → Prop) (c : Channel) : Prop := ∀ x ∈ c.posted.toList, x.1.Fit S

theorem Fit.sendWith (h : c.Fit S) {m : Message} (hm : m.Fit S) (a : Acceptance) :
    (c.sendWith m a).1.Fit S := by
  intro x hx
  rcases mem_posted_sendWith hx with hx | rfl
  · exact h x hx
  · exact hm

end Channel

namespace Window

variable {S : Int32 → Prop} {w v : Window}

/-- The touches in progress are in slots with `S`, and all messages are fit. -/
structure Tidy (S : Int32 → Prop) (w : Window) : Prop where
  ascending : Ascending w.touching
  slots : ∀ slot ∈ w.touching, S slot
  fit : w.EachPipe (Channel.Fit S)

@[simp] theorem touching_post (w : Window) (kind : ChannelKind) (m : Message) :
    (w.post kind m).touching = w.touching := by cases kind <;> rfl

@[simp] theorem touching_tell (w : Window) (ms : List Message) :
    (w.tell ms).touching = w.touching := by
  induction ms generalizing w with
  | nil => rfl
  | cons m ms ih => rw [tell_cons, ih, touching_post]

theorem points_of_mem_imageNews {m : Message} (h : m ∈ w.imageNews) : m.points = [] := by
  rcases List.mem_cons.1 h with rfl | h
  · rfl
  · rw [List.mem_singleton.1 h]
    rfl

theorem Tidy.exchange (h : w.Tidy S)
    (hx : w.Exchange (Dealing.touching (TouchEvent.Moderate S)) v) : v.Tidy S := by
  have hnone : Ascending [] ∧ ∀ slot ∈ ([] : List Int32), S slot := ⟨.nil,nofun⟩
  have hsend : ∀ m : Message, m.Fit S → ∀ c : Channel, c.Fit S → (c.send m).1.Fit S :=
    fun m hm c hc => hc.sendWith hm _
  have hbare : ∀ m : Message, m.points = [] → ∀ c : Channel, c.Fit S → (c.send m).1.Fit S :=
    fun m hm => hsend m (Message.fit_of_points hm)
  cases hx with
  | rest hr =>
    have hfit : v.EachPipe (Channel.Fit S) := fun kind => by
      rw [Channel.Fit, (hr.pipes kind).2.2]
      exact h.fit kind
    rcases hr.touching with ht | ⟨ht,-⟩
    · exact ⟨ht ▸ h.ascending,ht ▸ h.slots,hfit⟩
    · exact ⟨ht ▸ hnone.1,ht ▸ hnone.2,hfit⟩
  | pulse => exact ⟨h.ascending,h.slots,h.fit.of_eq rfl⟩
  | post kind m hm =>
    have hfit := h.fit.post kind (hbare m (Message.points_of_plain hm))
    exact ⟨by simpa using h.ascending,by simpa using h.slots,hfit⟩
  | announce =>
    have hfit := h.fit.tell w.imageNews fun m hm => hbare m (points_of_mem_imageNews hm)
    exact ⟨by simpa using h.ascending,by simpa using h.slots,hfit⟩
  | forward event hp =>
    have hfit := h.fit.of_eq (v := { w with touching := event.slotsAfter w.touching }) rfl
    refine ⟨?_,?_,hfit.post .touch (hsend _ (.inl hp.few))⟩
    · rw [touched, touching_post]
      exact TouchEvent.ascending_slotsAfter h.ascending
    · rw [touched, touching_post]
      exact TouchEvent.slot_of_slotsAfter hp.slots h.slots
  | hangUp kind =>
    have hclose : (w.pipe kind).close.1.Fit S :=
      (h.fit kind).sendWith (Message.fit_of_points (m := .close) rfl) _
    refine ⟨?_,?_,h.fit.setPipe hclose kind⟩
    · cases kind <;> exact h.ascending
    · cases kind <;> exact h.slots
  | relocate geometry =>
    have hfit := (h.fit.of_eq (v := { w with geometry }) rfl).tell
      [.geometry geometry w.z] fun m hm => hbare m (by rw [List.mem_singleton.1 hm]; rfl)
    refine ⟨?_,?_,hfit⟩
    · rw [relocated, touching_tell]
      exact h.ascending
    · rw [relocated, touching_tell]
      exact h.slots
  | refurnish geometry image =>
    refine ⟨?_,?_,(h.fit.of_eq (v := { w with geometry, image }) rfl).tell _ fun m hm =>
      hbare m ?_⟩
    · rw [refurnished, touching_tell]
      exact h.ascending
    · rw [refurnished, touching_tell]
      exact h.slots
    · rcases List.mem_append.1 hm with hm | hm
      · split at hm
        · cases hm
        · rw [List.mem_singleton.1 hm]
          rfl
      · exact points_of_mem_imageNews hm
  | relayer state =>
    have hfit := h.fit.of_eq (v := { w with state, touching := [] }) rfl
    rw [relayered]
    split
    · exact ⟨hnone.1,hnone.2,hfit⟩
    · exact ⟨hnone.1,hnone.2,hfit.post .touch
        (hsend _ (.inr ⟨w.touching,rfl,h.ascending,h.slots⟩))⟩

theorem Blank.tidy (h : w.Blank) : w.Tidy S where
  ascending := h.touching ▸ .nil
  slots := h.touching ▸ nofun
  fit := h.eachPipe fun _ => nofun

end Window

namespace Desktop

theorem tidy_kept (S : Int32 → Prop) : Kept (TouchEvent.Moderate S) (Window.Tidy S)
    (Window.EachPipe (Channel.Fit S)) where
  opened v hv := by
    obtain ⟨w,geometry,image,hb,rfl⟩ := hv
    exact hb.tidy.exchange (.refurnish geometry image)
  exchange w v hx h := h.exchange hx
  ending w h := fun kind => w.pipe_ending kind ▸ h.fit kind
  resting w v hr h := fun kind => by
    rw [Channel.Fit, (hr.pipes kind).2.2]
    exact h kind

theorem moderate_normalized {S : Int32 → Prop} {event : TouchEvent} (h : event.Moderate S)
    (screen : Rect) : (event.normalized screen).Moderate S := by
  refine ⟨by simpa [TouchEvent.normalized] using h.few,fun point hp => ?_⟩
  obtain ⟨q,hq,rfl⟩ := List.mem_map.1 hp
  exact h.slots q hq

/-- A touch event of the host in these steps has a point in the slot. -/
def TouchedIn (steps : List Step) (slot : Int32) : Prop :=
  ∃ event, .act (.input (.touch event)) ∈ steps ∧ ∃ point ∈ event.points, point.id = slot

/-- If no touch event of the host has more than 64 points, every message for a client is read back
from its bytes, whatever comes behind, unless it cancels more than 64 touches. Those are never read
back; they are of as many slots, which were touched in different events. The bytes in a pipe are
those of the messages that were taken whole, and perhaps of a part of the last one. -/
theorem posted_legible (panel : Panel) (backing : Backing) (timings : Timings)
    (temperature : Int32) (service : Group) (system : System) (hpanel : panel.raster.id = 0)
    (steps : List Step) (hs : ∀ s ∈ steps, s.Honest)
    (hfew : ∀ event, .act (.input (.touch event)) ∈ steps → event.points.length ≤ 64)
    {w : Window} (hw : w ∈ (steps.foldl take (fresh panel backing timings temperature service
      system)).windows ++ (steps.foldl take (fresh panel backing timings temperature service
        system)).ended) (kind : ChannelKind) :
    Channel.Carried (w.pipe kind).posted.toList (w.pipe kind).outgoing.toList ∧
      ∀ x ∈ (w.pipe kind).posted.toList, x.1.Legible ∨ x.1.Illegible ∧ ∃ slots,
        x.1 = .touch (.cancelling slots) ∧ 64 < slots.length ∧ slots.Nodup ∧
          ∀ slot ∈ slots, TouchedIn steps slot := by
  have hcarries := upheld_run_fresh (carries_kept fun _ => True) hpanel backing timings temperature
    service system hs fun _ _ _ => trivial
  have htidy := upheld_run_fresh (tidy_kept (TouchedIn steps)) hpanel backing timings temperature
    service system hs fun event he =>
      moderate_normalized ⟨hfew event he,fun point hp => ⟨event,he,point,hp,rfl⟩⟩
  refine ⟨(hcarries.ever (fun _ h => h) hw kind).carried,fun x hx => ?_⟩
  rcases htidy.ever (fun _ h => h.fit) hw kind x hx with hle | ⟨slots,he,hasc,hslots⟩
  · exact .inl (Message.legible_of_le hle)
  have hlength : x.1.points.length = slots.length := by
    simp [he, Message.points, TouchEvent.cancelling]
  rcases Nat.lt_or_ge 64 slots.length with hlt | hge
  · exact .inr ⟨Message.illegible_of_lt (hlength ▸ hlt),slots,he,hlt,hasc.nodup,hslots⟩
  · exact .inl (Message.legible_of_le (hlength ▸ hge))

def fingers (slots : List Int32) : TouchEvent :=
  ⟨.press,slots.map fun id => { (default : TouchPoint) with id, state := .press }⟩

def showing : List Step :=
  [.act (.create 100 (some ⟨0,0,2,2⟩) .rgb16),.act (.setVisible 0 100 true)]

/-- A shown window is touched with one finger and raised. -/
theorem posted_legible_small :
    let d := (showing ++ [Step.act (.input (.touch (fingers [3]))),.act (.raise 0 100)]).foldl take
      (fresh smallPanel .anonymous {} 24 1)
    ∃ w, d.window? 0 = some w ∧ w.touchPipe.posted.toList.map (·.2) = [.sent,.sent] ∧
      ∀ x ∈ w.touchPipe.posted.toList, x.1.Legible := by
  intro d
  have hlook : (d.window? 0).map (fun w => w.touchPipe.posted.toList.map (·.2)) =
      some [.sent,.sent] := by decide +kernel
  obtain ⟨w,hw,hsent⟩ := Option.map_eq_some_iff.1 hlook
  have hposted := posted_legible smallPanel .anonymous {} 24 1 {} rfl
    (showing ++ [.act (.input (.touch (fingers [3]))),.act (.raise 0 100)])
    (by simp [showing, Step.Honest]) (by simp [showing, fingers])
    (List.mem_append_left _ (mem_of_window? hw)) .touch
  refine ⟨w,hw,hsent,fun x hx => ?_⟩
  rcases hposted.2 x hx with hl | ⟨-,slots,-,hlt,hnodup,hslots⟩
  · exact hl
  · have hthree : ∀ slot ∈ slots, slot = 3 := fun slot hs => by
      simpa [TouchedIn, showing, fingers, eq_comm] using hslots slot hs
    have hsub : slots ⊆ [3] := fun slot hs => List.mem_singleton.2 (hthree slot hs)
    have hone := (hnodup.subperm hsub).length_le
    rw [List.length_singleton] at hone
    omega

structure Touchable (d : Desktop) (id : WindowId) (w : Window) (n : Nat) : Prop where
  occurs : Occurs d
  window : d.window? id = some w
  target : id ∈ d.inputTargets
  listed : ∀ r, d.registry = some r → id ∈ r.order
  room : w.touchPipe.Room n

section

variable {d : Desktop} {id : WindowId} {w : Window} {n : Nat}

theorem Touchable.touch (h : d.Touchable id w n) (event : TouchEvent) {k : Nat}
    (hn : 56*event.points.length+8+k ≤ n) : (d.take (.act (.input (.touch event)))).Touchable id
      (w.touched (event.normalized d.screen)) k := by
  have hlook : (d.take (.act (.input (.touch event)))).look = d.look := look_dispatch d _
  refine ⟨h.occurs.step _,
    window?_dispatchTouch h.occurs.distinct h.occurs.sound event h.window h.target,
    inputTargets_of_look hlook ▸ h.target,fun r hr => ?_,?_⟩
  · have hstack := congrArg (fun l => l.stack.map (·.1)) hlook
    simp only [look, hr, Option.map_some, Option.map_map] at hstack
    obtain ⟨r',hr',horder⟩ := Option.map_eq_some_iff.1 hstack.symm
    exact horder ▸ h.listed r' hr'
  · refine (h.room.send ?_).1
    rw [length_encode_touch, TouchEvent.normalized, List.length_map]
    exact hn

theorem Touchable.raise (h : d.Touchable id w n) (ho : w.state ≠ .closed) (hne : w.touching ≠ [])
    (hn : 56*w.touching.length+8 ≤ n) :
    ∃ v ∈ (d.take (.act (.raise id w.owner))).windows,
      (.touch (.cancelling w.touching),.sent) ∈ v.touchPipe.posted.toList := by
  have hpermits : d.permits id w.owner = true := by simp [permits, h.window]
  have hcontact := contact?_raise h.occurs.distinct ⟨h.window,hpermits,ho⟩ h.listed id
  rw [if_pos rfl, Window.contact_relayered, if_neg (by simpa using hne)] at hcontact
  obtain ⟨v,hv,hvc⟩ := Option.map_eq_some_iff.1 hcontact
  have hpipe : v.touchPipe = (w.touchPipe.send (.touch (.cancelling w.touching))).1 :=
    congrArg Prod.snd hvc
  have hsent := (h.room.send (m := .touch (.cancelling w.touching)) (k := 0) (by
    rw [length_encode_touch, TouchEvent.cancelling, List.length_map]
    exact hn)).2
  refine ⟨v,mem_of_window? hv,?_⟩
  rw [hpipe, hsent]
  simp

end

theorem touchable_showing : ∃ w, (showing.foldl take
    (fresh smallPanel .anonymous {} 24 1)).Touchable 0 w 8000 ∧ w.owner = 100 ∧
      w.state = .lowered ∧ w.touching = [] := by
  generalize hd : showing.foldl take (fresh smallPanel .anonymous {} 24 1) = d
  have hlook : (d.window? 0).map (fun w => (w.owner,w.state,w.touching)) =
      some (100,.lowered,[]) := by
    rw [← hd]
    decide +kernel
  have hpipe : (d.window? 0).map (fun w => (w.touchPipe.isOpen,w.touchPipe.clientReads,
      w.touchPipe.outgoing.size)) = some (true,true,0) := by
    rw [← hd]
    decide +kernel
  have hsocket : (d.window? 0).map (·.touchPipe.socket) = some Socket.usual := by
    rw [← hd]
    cbv
  have htargets : d.inputTargets = [0] := by
    rw [← hd]
    decide +kernel
  have horder : d.registry.map (·.order) = some [0] := by
    rw [← hd]
    decide +kernel
  have hocc : Occurs d := hd ▸ .run (.reachable (.fresh _ _ _ _ _ _ rfl)) _
  obtain ⟨w,hw,hl⟩ := Option.map_eq_some_iff.1 hlook
  rw [hw] at hpipe hsocket
  obtain ⟨howner,hstate,htouching⟩ : w.owner = 100 ∧ w.state = .lowered ∧ w.touching = [] := by
    simpa using hl
  obtain ⟨hopen,hreads,hsize⟩ : w.touchPipe.isOpen = true ∧ w.touchPipe.clientReads = true ∧
      w.touchPipe.outgoing.size = 0 := by simpa using hpipe
  refine ⟨w,⟨hocc,hw,by simp [htargets],fun r hr => ?_,hopen,hreads,
    Option.some.inj hsocket,?_⟩,howner,hstate,htouching⟩
  · rw [hr] at horder
    simp [Option.some.inj horder]
  · rw [hsize]
    decide

def manyFingers : List Step :=
  showing ++ [.act (.input (.touch (fingers ((List.range 64).map .ofNat)))),
    .act (.input (.touch (fingers [64]))),.act (.raise 0 100)]

/-- No event has more than 64 points, but the message that cancels the touches has 65. -/
theorem cancel_overfull : (∀ s ∈ manyFingers, s.Honest) ∧
    (∀ event, .act (.input (.touch event)) ∈ manyFingers → event.points.length ≤ 64) ∧
    ∃ w ∈ (manyFingers.foldl take (fresh smallPanel .anonymous {} 24 1)).windows,
      ∃ m, (m,.sent) ∈ w.touchPipe.posted.toList ∧
        Message.decode m.encode = .error (.tooLarge "touch point count" 65 64) := by
  refine ⟨by simp [manyFingers, showing, Step.Honest],by simp [manyFingers, showing, fingers],?_⟩
  obtain ⟨w,h,howner,hstate,htouching⟩ := touchable_showing
  rw [manyFingers, List.foldl_append, List.foldl_cons, List.foldl_cons, List.foldl_cons,
    List.foldl_nil]
  generalize showing.foldl take (fresh smallPanel .anonymous {} 24 1) = d at h
  have hmany := h.touch (fingers ((List.range 64).map .ofNat)) (k := 4400) (by decide)
  have hlast := hmany.touch (fingers [64]) (k := 4000) (by decide)
  have hslots : (fingers [64]).slotsAfter ((fingers ((List.range 64).map .ofNat)).slotsAfter []) =
      (List.range 65).map .ofNat := by decide +kernel
  generalize hv : (w.touched _).touched _ = v at hlast
  have htouched : v.touching = (List.range 65).map .ofNat := by
    rw [← hv]
    simp only [Window.touched, Window.touching_post, TouchEvent.slotsAfter_normalized]
    rw [htouching, hslots]
  have hface : v.face = w.face := by rw [← hv, Window.face_touched, Window.face_touched]
  have hopen : v.state ≠ .closed := by
    rw [show v.state = w.state from congrArg (·.state) hface, hstate]
    decide
  have howned : v.owner = 100 := (congrArg (·.owner) hface).trans howner
  obtain ⟨u,hu,hsent⟩ := hlast.raise hopen (by rw [htouched]; decide) (by rw [htouched]; decide)
  rw [howned] at hu
  refine ⟨u,hu,_,hsent,?_⟩
  have hdecode := Message.decode_overfull (.cancelling v.touching) (by rw [htouched]; decide) []
  rw [List.append_nil] at hdecode
  rw [hdecode, htouched]
  rfl

end Desktop

end InkCompositor
