import Mathlib
import InkCompositor.Proofs.Desktop.Exchanges

/-!
# What leaves the pings to a window alone

A window is sent pings by checks and by nothing else, and its client's answers
are noted where they are handled. Whatever else is done, at the window or
elsewhere, what is kept of its pings stays as it is.
-/

set_option autoImplicit false

namespace InkCompositor

open Wire

namespace Channel

def pings (c : Channel) : Nat := c.messages.count .ping

theorem pings_sendWith (c : Channel) {m : Message} (hm : m ≠ .ping) (a : Acceptance) :
    (c.sendWith m a).1.pings = c.pings := by
  rw [pings, messages_sendWith]
  split
  · rw [List.count_append, List.count_singleton, if_neg (by simpa using hm)]
    rfl
  · rfl

theorem pings_send_ping (c : Channel) :
    (c.send .ping).1.pings = c.pings+(if c.isOpen then 1 else 0) := by
  rw [pings, send, messages_sendWith]
  split
  · simp [pings]
  · rfl

end Channel

/-- Everything but seeing to the pings of one window. -/
def Dealing.sparing (id : WindowId) : Dealing → Prop
  | ping j => j ≠ id
  | _ => True

theorem Dealing.lax_sparing (id : WindowId) : Lax (sparing id) :=
  ⟨fun _ => trivial,fun _ => trivial,trivial,trivial⟩

namespace Window

variable {p : Dealing → Prop} {w v u : Window}

/-- A window with the same pings, whose event pipe has not been opened. -/
structure Still (w v : Window) : Prop where
  id : v.id = w.id
  liveness : v.liveness = w.liveness
  pings : v.eventPipe.pings = w.eventPipe.pings
  isOpen : v.eventPipe.isOpen = true → w.eventPipe.isOpen = true

theorem Still.refl (w : Window) : w.Still w := ⟨rfl,rfl,rfl,fun h => h⟩

theorem Still.trans (h : w.Still v) (h' : v.Still u) : w.Still u :=
  ⟨h'.id.trans h.id,h'.liveness.trans h.liveness,h'.pings.trans h.pings,
    fun ho => h.isOpen (h'.isOpen ho)⟩

theorem Still.of_eq (hid : v.id = w.id) (hl : v.liveness = w.liveness)
    (hp : v.eventPipe = w.eventPipe) : w.Still v := ⟨hid,hl,by rw [hp],by rw [hp]; exact fun h => h⟩

theorem still_setPipe (w : Window) {kind : ChannelKind} {c : Channel}
    (hp : c.pings = (w.pipe kind).pings) (ho : c.isOpen = true → (w.pipe kind).isOpen = true) :
    w.Still (w.setPipe c kind) := by
  cases kind with
  | event => exact ⟨rfl,rfl,hp,ho⟩
  | _ => exact .of_eq rfl rfl rfl

theorem still_post (w : Window) (kind : ChannelKind) {m : Message} (hm : m ≠ .ping) :
    w.Still (w.post kind m) :=
  w.still_setPipe (Channel.pings_sendWith _ hm _) Channel.isOpen_of_sendWith

theorem still_tell (w : Window) {ms : List Message} (hms : .ping ∉ ms) : w.Still (w.tell ms) := by
  induction ms generalizing w with
  | nil => exact .refl w
  | cons m ms ih =>
    obtain ⟨hm,hms⟩ := not_or.1 fun h => hms (List.mem_cons.2 h)
    exact (w.still_post .event (Ne.symm hm)).trans (ih _ hms)

theorem Resting.still (h : w.Resting v) : w.Still v where
  id := h.id
  liveness := h.liveness
  pings := by
    obtain ⟨-,-,hp⟩ := h.pipes .event
    change v.eventPipe.posted = w.eventPipe.posted at hp
    rw [Channel.pings, Channel.messages, hp]
    rfl
  isOpen ho := (h.pipes .event).1.symm.trans ho

theorem Exchange.id (h : w.Exchange p v) : v.id = w.id := by
  cases h with
  | rest hr => exact hr.id
  | pulse => rfl
  | post kind m => exact w.id_post kind m
  | announce => exact w.id_tell _
  | forward event => exact Window.id_post ..
  | hangUp kind => cases kind <;> rfl
  | relocate geometry => exact Window.id_tell ..
  | refurnish geometry image => exact Window.id_tell ..
  | relayer state =>
    rw [relayered]
    split
    · rfl
    · exact Window.id_post ..

theorem Exchange.still (h : w.Exchange p v) (hp : ¬ p (.ping w.id)) : w.Still v := by
  cases h with
  | rest hr => exact hr.still
  | pulse f h => exact absurd h hp
  | post kind m _ hm => exact w.still_post kind fun he => hp (hm he)
  | announce => exact w.still_tell (by simp [imageNews])
  | forward event =>
    have hv : w.Still { w with touching := event.slotsAfter w.touching } := .of_eq rfl rfl rfl
    exact hv.trans (still_post _ .touch (by simp))
  | hangUp kind =>
    exact w.still_setPipe (Channel.pings_sendWith (w.pipe kind) (by simp) _) fun ho => by cases ho
  | relocate geometry =>
    have hv : w.Still { w with geometry } := .of_eq rfl rfl rfl
    exact hv.trans (still_tell _ (by simp))
  | refurnish geometry image =>
    have hv : w.Still { w with geometry, image } := .of_eq rfl rfl rfl
    refine hv.trans (still_tell _ ?_)
    split <;> simp [imageNews]
  | relayer state =>
    have hv : w.Still { w with state, touching := [] } := .of_eq rfl rfl rfl
    rw [relayered]
    split
    · exact hv
    · exact hv.trans (still_post _ .touch (by simp))

end Window

namespace Desktop

/-- As far as the pings to a window go, nothing happens. -/
structure Calm (id : WindowId) (d e : Desktop) : Prop where
  nextWindow : d.nextWindow ≤ e.nextWindow
  here : id < d.nextWindow → ∀ v ∈ e.windows, v.id = id → ∃ w ∈ d.windows, w.Still v

variable {s : Scope} {p : Dealing → Prop} {d e f : Desktop} {id : WindowId}

theorem Calm.of_eq (hw : e.windows = d.windows) (hn : e.nextWindow = d.nextWindow) :
    Calm id d e := ⟨hn.ge,fun _ v hv _ => ⟨v,hw ▸ hv,.refl v⟩⟩

theorem Calm.trans (h : Calm id d e) (h' : Calm id e f) : Calm id d f := by
  refine ⟨h.nextWindow.trans h'.nextWindow,fun hid v hv hvid => ?_⟩
  obtain ⟨u,hu,huv⟩ := h'.here (hid.trans_le h.nextWindow) v hv hvid
  obtain ⟨w,hw,hwu⟩ := h.here hid u hu (huv.id.symm.trans hvid)
  exact ⟨w,hw,hwu.trans huv⟩

theorem Exchanged.calm (h : Exchanged p d e) (hp : ¬ p (.ping id)) : Calm id d e := by
  refine ⟨h.nextWindow,fun hid v hv hvid => ?_⟩
  rcases h.here v hv with ⟨w,hw,hx⟩ | ⟨-,hnew⟩
  · have hwid : w.id = id := hx.id.symm.trans hvid
    exact ⟨w,hw,hx.still (hwid ▸ hp)⟩
  · exact absurd (hvid.symm.trans hnew) hid.ne

theorem Deed.calm (h : Deed s p e f) (hp : ¬ p (.ping id)) (he : e.Distinct ∧ Calm id d e) :
    f.Distinct ∧ Calm id d f :=
  ⟨h.edits.keeps Edit.distinct he.1,he.2.trans ((h.exchanged he.1).calm hp)⟩

theorem Deeds.calm (h : Deeds s p d e) (hd : d.Distinct) (hp : ¬ p (.ping id)) : Calm id d e :=
  (h.keeps (fun hdeed he => hdeed.calm hp he) ⟨hd,.of_eq rfl rfl⟩).2

theorem Deeds.timings (h : Deeds s p d e) : e.timings = d.timings :=
  h.keeps (P := fun e => e.timings = d.timings)
    (fun hdeed he => hdeed.edits.keeps (fun hedit he => hedit.timings.trans he) he) rfl

end Desktop

def Step.pings (id : WindowId) : Step → Prop
  | .act a => a.pings id
  | .check j _ => j = id
  | _ => False

namespace Desktop

variable {d : Desktop} {id : WindowId}

theorem calm_take (h : Occurs d) {s : Step} (hs : s.Honest) (hp : ¬ s.pings id) :
    Calm id d (d.take s) := by
  have hspare : ¬ Dealing.sparing id (.ping id) := fun hne => hne rfl
  cases s with
  | act a =>
    refine (perform_keeps_deeds (p := Dealing.sparing id) (P := fun e => e.Distinct ∧ Calm id d e) a
      (fun hdeed he => hdeed.calm hspare he) (fun _ _ he => ?_) (fun j kind f ha he => ?_)
      (fun j bytes he => ?_) ((Dealing.lax_sparing id).deals (fun _ _ => trivial) fun j hj => ?_)
      h.sound ⟨h.distinct,.of_eq rfl rfl⟩).2
    · exact ⟨⟨he.1.nodup,he.1.lt⟩,he.2.trans (.of_eq rfl rfl)⟩
    · subst ha
      obtain ⟨m,rfl⟩ := hs
      exact ⟨he.1.atPipe j kind _,he.2.trans ((exchanged_move he.1 j kind m).calm hspare)⟩
    · exact ⟨he.1.scribble j bytes,he.2.trans ((exchanged_scribble _ j bytes).calm hspare)⟩
    · rintro rfl
      exact hp hj
  | receive j => exact (deeds_receive (s := .everything) .refl trivial).calm h.distinct hspare
  | check j now =>
    exact (deeds_checkLiveness (s := .everything) .refl trivial hp trivial).calm h.distinct hspare
  | note level text => exact .of_eq rfl rfl

theorem timings_take (h : Occurs d) (s : Step) : (d.take s).timings = d.timings := by
  have hedit : ∀ {e f : Desktop}, Edit .everything e f → e.timings = d.timings →
      f.timings = d.timings := fun hf he => hf.timings.trans he
  cases s with
  | act a =>
    refine perform_keeps hedit (fun _ he => he) (fun j kind f he => ?_) (fun _ _ he => he) h.sound a
      rfl
    rw [atPipe]
    split
    · exact he
    · exact he
  | receive | check | note => exact (take_edits h.sound _ fun a ha => by cases ha).keeps hedit rfl

end Desktop

end InkCompositor
