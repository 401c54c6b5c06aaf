import Mathlib
import InkCompositor.Proofs.Client.Posting
import InkCompositor.Proofs.Desktop.Steps

/-!
# What a window and its client exchange

A deed does one thing to one window: a message is posted, news of the window
go to its client together with what they tell, or nothing is said. What every
such exchange keeps holds of all windows in every run.
-/

set_option autoImplicit false

namespace InkCompositor

open Wire

namespace Window

def post (w : Window) (kind : ChannelKind) (m : Message) : Window :=
  w.setPipe ((w.pipe kind).send m).1 kind

def tell (w : Window) (ms : List Message) : Window := ms.foldl (fun w m => w.post .event m) w

def imageNews (w : Window) : List Message :=
  [.imageInfo (.ofNat w.imageInfo.1) (.ofNat w.imageInfo.2.1) w.imageInfo.2.2.code,.frameBuffer]

def touched (w : Window) (event : TouchEvent) : Window :=
  { w with touching := event.slotsAfter w.touching }.post .touch (.touch event)

def relayered (w : Window) (state : WindowState) : Window :=
  let v := { w with state, touching := [] }
  if w.touching.isEmpty then v else v.post .touch (.touch (.cancelling w.touching))

def relocated (w : Window) (geometry : Rect) : Window :=
  { w with geometry }.tell [.geometry geometry w.z]

def refurnished (w : Window) (geometry : Rect) (image : Option Raster) : Window :=
  let v := { w with geometry, image }
  v.tell ((if w.geometry = geometry then [] else [.geometry geometry w.z]) ++ v.imageNews)

structure Resting (w v : Window) : Prop where
  id : v.id = w.id
  geometry : v.geometry = w.geometry
  imageInfo : v.imageInfo = w.imageInfo
  touching : v.touching = w.touching ∨ v.touching = [] ∧ v.state = .closed
  closed : w.state = .closed → v.state = .closed
  liveness : v.liveness = w.liveness
  pipes : ∀ kind, (v.pipe kind).isOpen = (w.pipe kind).isOpen ∧
    (v.pipe kind).outgoing = (w.pipe kind).outgoing ∧ (v.pipe kind).posted = (w.pipe kind).posted

/-- What a deed does to a window. Of the dealings only those with `p` are done. -/
inductive Exchange (p : Dealing → Prop) (w : Window) : Window → Prop where
  | rest {v : Window} : w.Resting v → Exchange p w v
  | pulse (f : Liveness → Liveness) : p (.ping w.id) → Liveness.Asks p f →
      Exchange p w { w with liveness := f w.liveness }
  | post (kind : ChannelKind) (m : Message) : m.plain = true → (m = .ping → p (.ping w.id)) →
      Exchange p w (w.post kind m)
  | announce : Exchange p w (w.tell w.imageNews)
  | forward (event : TouchEvent) : p (.touch event) → Exchange p w (w.touched event)
  | hangUp (kind : ChannelKind) : w.state = .closed →
      Exchange p w (w.setPipe (w.pipe kind).close.1 kind)
  | relocate (geometry : Rect) : Exchange p w (w.relocated geometry)
  | refurnish (geometry : Rect) (image : Option Raster) :
      Exchange p w (w.refurnished geometry image)
  | relayer (state : WindowState) : w.state ≠ .closed → Exchange p w (w.relayered state)

structure Blank (w : Window) : Prop where
  geometry : w.geometry = Rect.none
  touching : w.touching = []
  pipes : ∀ kind, ∃ socket, w.pipe kind = .fresh socket
  liveness : w.liveness.awaitingSince = none

def Opened (v : Window) : Prop := ∃ w geometry image, Blank w ∧ v = w.refurnished geometry image

theorem Resting.refl (w : Window) : w.Resting w :=
  ⟨rfl,rfl,rfl,.inl rfl,fun h => h,rfl,fun _ => ⟨rfl,rfl,rfl⟩⟩

theorem imageInfo_congr {w v : Window} (h : v.image = w.image) : v.imageInfo = w.imageInfo := by
  rw [imageInfo, h, imageInfo]

theorem Tended.resting {w v : Window} (h : w.Tended v) (ht : v.touching = w.touching)
    (hl : v.liveness = w.liveness) : w.Resting v :=
  ⟨congrArg (·.id) h.face,congrArg (·.geometry) h.face,
    imageInfo_congr (congrArg (·.image) h.face),.inl ht,
    fun hc => (congrArg (·.state) h.face).trans hc,hl,h.pipes⟩

theorem Shifted.resting {w v : Window} (h : w.Shifted v) (hid : v.id = w.id)
    (ho : w.state ≠ .closed) : w.Resting v :=
  ⟨hid,h.geometry,imageInfo_congr h.image,h.touching,fun hc => absurd hc ho,h.liveness,
    fun kind => by
      rw [h.pipes kind]
      exact ⟨rfl,rfl,rfl⟩⟩

theorem resting_move (w : Window) (kind : ChannelKind) (m : ClientMove) :
    w.Resting (w.setPipe (m.apply (w.pipe kind)) kind) := by
  refine ⟨?_,?_,?_,.inl ?_,fun hc => ?_,?_,fun k => ?_⟩
  · cases kind <;> rfl
  · cases kind <;> rfl
  · cases kind <;> rfl
  · cases kind <;> rfl
  · cases kind <;> exact hc
  · cases kind <;> rfl
  · rw [pipe_setPipe]
    split
    · rename_i hk
      exact hk ▸ m.apply_frame (w.pipe kind)
    · exact ⟨rfl,rfl,rfl⟩

theorem pipe_ending (w : Window) (kind : ChannelKind) :
    w.ending.pipe kind = (w.pipe kind).shutDown := by cases kind <;> rfl

@[simp] theorem id_post (w : Window) (kind : ChannelKind) (m : Message) :
    (w.post kind m).id = w.id := by cases kind <;> rfl

@[simp] theorem face_post (w : Window) (kind : ChannelKind) (m : Message) :
    (w.post kind m).face = w.face := face_setPipe ..

theorem tell_cons (w : Window) (m : Message) (ms : List Message) :
    w.tell (m :: ms) = (w.post .event m).tell ms := rfl

@[simp] theorem face_tell (w : Window) (ms : List Message) : (w.tell ms).face = w.face := by
  induction ms generalizing w with
  | nil => rfl
  | cons m ms ih => rw [tell_cons, ih, face_post]

@[simp] theorem id_tell (w : Window) (ms : List Message) : (w.tell ms).id = w.id :=
  congrArg (·.id) (w.face_tell ms)

@[simp] theorem geometry_tell (w : Window) (ms : List Message) :
    (w.tell ms).geometry = w.geometry := congrArg (·.geometry) (w.face_tell ms)

@[simp] theorem state_tell (w : Window) (ms : List Message) : (w.tell ms).state = w.state :=
  congrArg (·.state) (w.face_tell ms)

@[simp] theorem imageInfo_tell (w : Window) (ms : List Message) :
    (w.tell ms).imageInfo = w.imageInfo := imageInfo_congr (congrArg (·.image) (w.face_tell ms))

end Window

namespace Desktop

structure Acts (d e : Desktop) (id : WindowId) (f : Window → Window) : Prop where
  windows : e.windows = d.windows.map fun w => if w.id = id then f w else w
  ended : e.ended = d.ended
  nextWindow : e.nextWindow = d.nextWindow
  same : ∀ w, (f w).id = w.id

/-- Every window comes from one that there was, or has just been opened. -/
structure Exchanged (p : Dealing → Prop) (d e : Desktop) : Prop where
  here : ∀ v ∈ e.windows, (∃ w ∈ d.windows, w.Exchange p v) ∨ v.Opened ∧ v.id = d.nextWindow
  gone : ∀ v ∈ e.ended, (∃ w ∈ d.ended, w.Resting v) ∨ ∃ w ∈ d.windows, v = w.ending
  nextWindow : d.nextWindow ≤ e.nextWindow

variable {s : Scope} {p : Dealing → Prop} {d e f : Desktop} {id : WindowId}
  {g h : Window → Window}

theorem Acts.emit (hg : Acts d e id g) (x : Effect) : Acts d (e.emit x) id g :=
  ⟨hg.windows,hg.ended,hg.nextWindow,hg.same⟩

theorem Acts.congr (hg : Acts d e id g) (hsame : ∀ w, (h w).id = w.id)
    (heq : ∀ w ∈ d.windows, w.id = id → g w = h w) : Acts d e id h := by
  refine ⟨hg.windows.trans (List.map_congr_left fun w hw => ?_),hg.ended,hg.nextWindow,hsame⟩
  split
  · exact heq w hw ‹_›
  · rfl

theorem Acts.trans (hg : Acts d e id g) (hh : Acts e f id h) : Acts d f id fun w => h (g w) :=
  ⟨by rw [hh.windows, hg.windows, map_map_window hg.same],hh.ended.trans hg.ended,
    hh.nextWindow.trans hg.nextWindow,fun w => (hh.same _).trans (hg.same w)⟩

theorem Acts.distinct (hg : Acts d e id g) (hd : d.Distinct) : e.Distinct := by
  refine hd.of_map (fun w => ?_) hg.windows hg.ended hg.nextWindow
  split
  · exact hg.same w
  · rfl

theorem Acts.exchanged (hg : Acts d e id g)
    (hx : ∀ w ∈ d.windows, w.id = id → w.Exchange p (g w)) : Exchanged p d e := by
  refine ⟨fun v hv => .inl ?_,fun v hv => .inl ⟨v,hg.ended ▸ hv,.refl v⟩,hg.nextWindow.ge⟩
  rw [hg.windows] at hv
  obtain ⟨w,hw,rfl⟩ := List.mem_map.1 hv
  refine ⟨w,hw,?_⟩
  split
  · exact hx w hw ‹_›
  · exact .rest (.refl w)

theorem acts_refl (d : Desktop) (id : WindowId) : Acts d d id fun w => w :=
  ⟨by simp,rfl,rfl,fun _ => rfl⟩

theorem acts_none (hnone : d.window? id = none) (hsame : ∀ w, (g w).id = w.id) :
    Acts d d id g :=
  (acts_refl d id).congr hsame fun w hw hid => by
    simpa [hid] using List.find?_eq_none.1 hnone w hw

theorem acts_modify (hsame : ∀ w, (g w).id = w.id) : Acts d (d.modify id g) id g :=
  ⟨rfl,rfl,rfl,hsame⟩

theorem acts_usePipe (hd : d.Distinct) (id : WindowId) (kind : ChannelKind)
    (use : Channel → Channel × Delivery) :
    Acts d (d.usePipe id kind use) id fun w => w.setPipe (use (w.pipe kind)).1 kind := by
  obtain ⟨trace,he⟩ := usePipe_eq hd id kind use
  rw [he]
  exact ⟨rfl,rfl,rfl,fun w => by cases kind <;> rfl⟩

theorem acts_send (hd : d.Distinct) (id : WindowId) (kind : ChannelKind) (m : Message) :
    Acts d (d.send id kind m) id (·.post kind m) := acts_usePipe hd id kind (·.send m)

theorem acts_announceGeometry (hd : d.Distinct) (id : WindowId) (old new : Rect) :
    Acts d (d.announceGeometry id old new) id fun w => w.tell [.geometry new w.z] := by
  have hsame : ∀ w : Window, (w.tell [.geometry new w.z]).id = w.id := fun w => w.id_tell _
  unfold announceGeometry
  split
  · exact acts_none ‹_› hsame
  · rename_i w hw
    refine Acts.congr ((acts_send hd id .event (.geometry new w.z)).emit _) hsame ?_
    rintro v hv rfl
    rw [hd.eq_of_id hw hv rfl]
    rfl

theorem acts_announceImage (hd : d.Distinct) (id : WindowId) :
    Acts d (d.announceImage id) id fun w => w.tell w.imageNews := by
  have hsame : ∀ w : Window, (w.tell w.imageNews).id = w.id := fun w => w.id_tell _
  unfold announceImage
  split
  · exact acts_none ‹_› hsame
  · rename_i w hw
    have hi := acts_send hd id .event (.imageInfo (.ofNat w.imageInfo.1) (.ofNat w.imageInfo.2.1)
      w.imageInfo.2.2.code)
    have hb := acts_send (hi.distinct hd) id .event .frameBuffer
    refine ((hi.trans hb).emit (.notified id .imageChanged)).congr hsame ?_
    rintro v hv rfl
    rw [hd.eq_of_id hw hv rfl]
    rfl

theorem acts_forwardTouch (hd : d.Distinct) (id : WindowId) (event : TouchEvent) :
    Acts d (d.forwardTouch id event) id (·.touched event) := by
  have hm : Acts d (d.modify id fun w => { w with touching := event.slotsAfter w.touching }) id
      fun w => { w with touching := event.slotsAfter w.touching } := acts_modify fun _ => rfl
  exact hm.trans (acts_send (hm.distinct hd) id .touch (.touch event))

theorem acts_relayer (hd : d.Distinct) {w : Window} (hw : w ∈ d.windows) (state : WindowState) :
    Acts d (d.relayer w state) w.id (·.relayered state) := by
  have hsame : ∀ v : Window, (v.relayered state).id = v.id := fun v => by
    rw [Window.relayered]
    split
    · rfl
    · exact Window.id_post ..
  have hm : Acts d (d.modify w.id fun w => { w with state, touching := [] }) w.id
      fun w => { w with state, touching := [] } := acts_modify fun _ => rfl
  have hwv : ∀ v ∈ d.windows, v.id = w.id → v = w := fun v hv hid =>
    List.inj_on_of_nodup_map hd.nodup_windows hv hw hid
  unfold relayer cancelTouches
  split
  · rename_i hempty
    refine hm.congr hsame fun v hv hid => ?_
    rw [Window.relayered, hwv v hv hid, if_pos hempty]
  · rename_i hempty
    have hl := hm.emit (.logged .debug "Cancelling touch sequence")
    refine (hl.trans (acts_send (hl.distinct hd) w.id .touch _)).congr hsame fun v hv hid => ?_
    rw [Window.relayered, hwv v hv hid, if_neg hempty]

theorem acts_relocate (hd : d.Distinct) (w : Window) (geometry : Rect) :
    Acts d (d.relocate w geometry) w.id (·.relocated geometry) := by
  have hm : Acts d (d.modify w.id fun w => { w with geometry }) w.id
      fun w => { w with geometry } := acts_modify fun _ => rfl
  exact hm.trans (acts_announceGeometry (hm.distinct hd) w.id w.geometry geometry)

theorem acts_refurnish (hd : d.Distinct) {w : Window} (hw : w ∈ d.windows) (geometry : Rect) :
    ∃ image, Acts d (d.refurnish w geometry) w.id (·.refurnished geometry image) := by
  obtain ⟨image,hr⟩ := refitted_refit d w geometry
  have hwv : ∀ v ∈ d.windows, v.id = w.id → v = w := fun v hv hid =>
    List.inj_on_of_nodup_map hd.nodup_windows hv hw hid
  have hf : Acts d ((d.refit w geometry).log .debug "Frame buffer created") w.id
      fun v => { v with geometry, image } := ⟨hr.windows,hr.ended,hr.nextWindow,fun _ => rfl⟩
  have hsame : ∀ v : Window, (v.refurnished geometry image).id = v.id := fun v => Window.id_tell _ _
  refine ⟨image,?_⟩
  unfold refurnish
  dsimp only
  generalize (d.refit w geometry).log .debug "Frame buffer created" = f at hf
  split
  · rename_i hg
    refine (hf.trans (acts_announceImage (hf.distinct hd) w.id)).congr hsame fun v hv hid => ?_
    rw [hwv v hv hid, Window.refurnished, if_pos hg]
    rfl
  · rename_i hg
    have ha := hf.trans (acts_announceGeometry (hf.distinct hd) w.id w.geometry geometry)
    refine (ha.trans (acts_announceImage (ha.distinct hd) w.id)).congr hsame fun v hv hid => ?_
    rw [hwv v hv hid, Window.refurnished, if_neg hg]
    rfl

theorem exchanged_refl (hw : e.windows = d.windows) (he : e.ended = d.ended)
    (hn : e.nextWindow = d.nextWindow) : Exchanged p d e :=
  ⟨fun v hv => .inl ⟨v,hw ▸ hv,.rest (.refl v)⟩,fun v hv => .inl ⟨v,he ▸ hv,.refl v⟩,hn.ge⟩

theorem exchanged_sortWindows (d : Desktop) : Exchanged p d d.sortWindows := by
  cases hr : d.registry with
  | none =>
    rw [sortWindows, hr]
    exact exchanged_refl rfl rfl rfl
  | some r =>
    obtain ⟨level,trace,sorted,he,-⟩ := sortWindows_relevel hr
    rw [he]
    refine ⟨fun v hv => .inl ?_,fun v hv => .inl ⟨v,hv,.refl v⟩,le_rfl⟩
    obtain ⟨w,hw,rfl⟩ := List.mem_map.1 hv
    exact ⟨w,hw,.rest ⟨rfl,rfl,rfl,.inl rfl,fun hc => hc,rfl,fun kind => by
      cases kind <;> exact ⟨rfl,rfl,rfl⟩⟩⟩

theorem exchanged_release (d : Desktop) (id : WindowId) : Exchanged p d (d.release id) := by
  rcases release_ends d id with he | ⟨w,hw,he⟩
  · rw [he]
    exact exchanged_refl rfl rfl rfl
  refine ⟨fun v hv => .inl ⟨v,?_,.rest (.refl v)⟩,fun v hv => ?_,he.nextWindow.ge⟩
  · rw [he.windows] at hv
    exact List.mem_of_mem_filter hv
  · rw [he.ended] at hv
    rcases List.mem_append.1 hv with hv | hv
    · exact .inl ⟨v,hv,.refl v⟩
    · exact .inr ⟨w,mem_of_window? hw,List.mem_singleton.1 hv⟩

theorem acts_installed (hd : d.Distinct) {w : Window} (hw : w.id = d.nextWindow)
    (geometry : Rect) : ∃ image, Acts (d.added w) (d.installed w geometry) w.id
      (·.refurnished geometry image) := by
  have ha : ((d.added w).log .debug "Created window").Distinct :=
    ⟨(hd.added hw).nodup,(hd.added hw).lt⟩
  have hmem : w ∈ ((d.added w).log .debug "Created window").windows :=
    List.mem_append_right _ (List.mem_singleton.2 rfl)
  obtain ⟨image,hacts⟩ := acts_refurnish ha hmem geometry
  exact ⟨image,hacts.windows,hacts.ended,hacts.nextWindow,hacts.same⟩

theorem exchanged_installed (hd : d.Distinct) {w : Window} (hw : w.id = d.nextWindow)
    (hb : w.Blank) (geometry : Rect) : Exchanged p d (d.installed w geometry) := by
  obtain ⟨image,hacts⟩ := acts_installed hd hw geometry
  refine ⟨fun v hv => ?_,fun v hv => .inl ⟨v,hacts.ended ▸ hv,.refl v⟩,?_⟩
  rw [hacts.windows] at hv
  obtain ⟨u,hu,rfl⟩ := List.mem_map.1 hv
  rcases List.mem_append.1 hu with hu | hu
  · have hne : u.id ≠ w.id := hw ▸ (hd.lt u (List.mem_append_left _ hu)).ne
    exact .inl ⟨u,hu,by rw [if_neg hne]; exact .rest (.refl u)⟩
  · obtain rfl := List.mem_singleton.1 hu
    rw [if_pos rfl]
    exact .inr ⟨⟨u,geometry,image,hb,rfl⟩,(hacts.same u).trans hw⟩
  · rw [hacts.nextWindow]
    exact (Nat.le_succ _).trans_eq (congrArg (·+1) hw.symm)

theorem Deed.exchanged (hd : d.Distinct) (h : Deed s p d e) : Exchanged p d e := by
  cases h with
  | note | book | reckon | pass | relist | queue | serve => exact exchanged_refl rfl rfl rfl
  | aside hb => exact exchanged_refl hb.windows hb.ended hb.nextWindow
  | post id kind m _ hm hp =>
    exact (acts_send hd id kind m).exchanged fun w _ hid => .post kind m hm (hid ▸ hp)
  | pulse id f _ hp hf =>
    refine Acts.exchanged (g := fun w => { w with liveness := f w.liveness })
      (acts_modify fun _ => rfl) ?_
    rintro w - rfl
    exact .pulse f hp hf
  | announce id => exact (acts_announceImage hd id).exchanged fun w _ _ => .announce
  | forward id event _ hp =>
    exact (acts_forwardTouch hd id event).exchanged fun w _ _ => .forward event hp
  | tend id f _ hf ht =>
    refine (acts_modify hf).exchanged ?_
    rintro w hw rfl
    obtain ⟨htend,htouch,hlive⟩ := ht w (hd.window? hw)
    exact .rest (htend.resting htouch hlive)
  | shift id f _ hf hs =>
    refine (acts_modify hf).exchanged ?_
    rintro w hw rfl
    obtain ⟨ho,hshift⟩ := hs w (hd.window? hw)
    exact .rest (hshift.resting (hf w) ho)
  | hangUp id kind _ hc =>
    refine (acts_usePipe hd id kind Channel.close).exchanged ?_
    rintro w hw rfl
    exact .hangUp kind (hc w (hd.window? hw))
  | @relocate w geometry =>
    exact (acts_relocate hd w geometry).exchanged fun v _ _ => .relocate geometry
  | refurnish geometry _ hw =>
    obtain ⟨image,hacts⟩ := acts_refurnish hd (mem_of_window? hw) geometry
    exact hacts.exchanged fun v _ _ => .refurnish geometry image
  | relayer state _ hw ho =>
    refine (acts_relayer hd (mem_of_window? hw) state).exchanged fun v hv hid => ?_
    obtain rfl := hd.eq_of_id hw hv hid
    exact .relayer state ho
  | install r owner isSystem format geometry =>
    exact exchanged_installed hd (w := d.newWindow r owner isSystem format) rfl
      ⟨rfl,rfl,fun kind => by cases kind <;> exact ⟨_,rfl⟩,rfl⟩ geometry
  | sort => exact exchanged_sortWindows d
  | release id => exact exchanged_release d id

theorem exchanged_move (hd : d.Distinct) (id : WindowId) (kind : ChannelKind) (m : ClientMove) :
    Exchanged p d (d.atPipe id kind m.apply) := by
  have hrest : ∀ w : Window, w.Resting
      (if w.id = id then w.setPipe (m.apply (w.pipe kind)) kind else w) := by
    intro w
    split
    · exact w.resting_move kind m
    · exact .refl w
  rw [hd.atPipe_eq]
  refine ⟨fun v hv => .inl ?_,fun v hv => .inl ?_,le_rfl⟩
  · obtain ⟨w,hw,rfl⟩ := List.mem_map.1 hv
    exact ⟨w,hw,.rest (hrest w)⟩
  · obtain ⟨w,hw,rfl⟩ := List.mem_map.1 hv
    exact ⟨w,hw,hrest w⟩

theorem exchanged_scribble (d : Desktop) (id : WindowId) (bytes : Raster → Array UInt8) :
    Exchanged p d (d.scribble id bytes) := by
  have hacts : Acts d (d.scribble id bytes) id fun w =>
      { w with image := w.image.map fun r => r.overwrite (bytes r) } := acts_modify fun _ => rfl
  refine hacts.exchanged fun w _ _ => .rest ⟨rfl,rfl,?_,.inl rfl,fun hc => hc,rfl,fun kind => by
    cases kind <;> exact ⟨rfl,rfl,rfl⟩⟩
  cases hi : w.image with
  | none => simp [Window.imageInfo, hi]
  | some r =>
    have ha := r.overwrite_alike (bytes r)
    simp [Window.imageInfo, hi, Raster.size, ha.stride, ha.height, ha.format]

/-- What every exchange keeps of a window that is there, and what is left of it at its end. -/
structure Kept (q : TouchEvent → Prop) (P Q : Window → Prop) : Prop where
  opened : ∀ w, w.Opened → P w
  exchange : ∀ w v, w.Exchange (Dealing.touching q) v → P w → P v
  ending : ∀ w, P w → Q w.ending
  resting : ∀ w v, w.Resting v → Q w → Q v

variable {q : TouchEvent → Prop} {P Q : Window → Prop}

/-- Every window is as it should be, and every window that is gone. -/
structure Upheld (P Q : Window → Prop) (d : Desktop) : Prop where
  distinct : d.Distinct
  here : ∀ w ∈ d.windows, P w
  gone : ∀ w ∈ d.ended, Q w

theorem Exchanged.upheld (h : Exchanged (Dealing.touching q) d e) (hk : Kept q P Q)
    (he : e.Distinct) (ho : d.Upheld P Q) : e.Upheld P Q := by
  refine ⟨he,fun v hv => ?_,fun v hv => ?_⟩
  · rcases h.here v hv with ⟨w,hw,hx⟩ | ⟨hopen,-⟩
    · exact hk.exchange w v hx (ho.here w hw)
    · exact hk.opened v hopen
  · rcases h.gone v hv with ⟨w,hw,hr⟩ | ⟨w,hw,rfl⟩
    · exact hk.resting w v hr (ho.gone w hw)
    · exact hk.ending w (ho.here w hw)

theorem Deed.upheld (hk : Kept q P Q) (h : Deed s (Dealing.touching q) d e) (ho : d.Upheld P Q) :
    e.Upheld P Q :=
  (h.exchanged ho.distinct).upheld hk (h.edits.keeps Edit.distinct ho.distinct) ho

theorem upheld_take (hk : Kept q P Q) (hs : d.look.Sound) (s : Step) (hh : s.Honest)
    (hp : ∀ event, s = .act (.input (.touch event)) → q (event.normalized d.screen))
    (ho : d.Upheld P Q) : (d.take s).Upheld P Q := by
  cases s with
  | act a =>
    refine perform_keeps_deeds a (fun hd => hd.upheld hk) (fun _ _ ho => ?_)
      (fun id kind f ha ho => ?_) (fun id bytes ho => ?_)
      ((Dealing.lax_touching q).deals (fun event ha => hp event (congrArg _ ha)) fun _ _ => trivial)
      hs ho
    · exact ⟨⟨ho.distinct.nodup,ho.distinct.lt⟩,ho.here,ho.gone⟩
    · subst ha
      obtain ⟨m,rfl⟩ := hh
      exact (exchanged_move ho.distinct id kind m).upheld hk (ho.distinct.atPipe id kind _) ho
    · exact (exchanged_scribble _ id bytes).upheld hk (ho.distinct.scribble id bytes) ho
  | receive id =>
    exact (deeds_receive (s := .everything) .refl trivial).keeps (Deed.upheld hk) ho
  | check id now =>
    exact (deeds_checkLiveness (s := .everything) .refl trivial trivial trivial).keeps
      (Deed.upheld hk) ho
  | note level text =>
    exact (deeds_log (s := .everything) .refl level text).keeps (Deed.upheld hk) ho

/-- In a run of what clients and callers can do, every window is as it should be. -/
theorem upheld_run (hk : Kept q P Q) (ho : d.Upheld P Q) (h : Occurs d) (steps : List Step)
    (hs : ∀ s ∈ steps, s.Honest)
    (hp : ∀ event, .act (.input (.touch event)) ∈ steps → ∀ screen, q (event.normalized screen)) :
    (steps.foldl take d).Upheld P Q := by
  induction steps generalizing d with
  | nil => exact ho
  | cons s steps ih =>
    refine ih (upheld_take hk h.sound s (hs s List.mem_cons_self)
      (fun event he => hp event (he ▸ List.mem_cons_self) _) ho) (h.step s)
      (fun t ht => hs t (List.mem_cons_of_mem s ht))
      fun event he => hp event (List.mem_cons_of_mem s he)

theorem upheld_fresh (panel : Panel) (backing : Backing) (timings : Timings) (temperature : Int32)
    (service : Group) (system : System) :
    (fresh panel backing timings temperature service system).Upheld P Q := by
  refine ⟨⟨List.nodup_nil,fun w hw => ?_⟩,fun w hw => ?_,fun w hw => ?_⟩
  · cases hw
  · cases hw
  · cases hw

theorem upheld_run_fresh (hk : Kept q P Q) {panel : Panel} (hpanel : panel.raster.id = 0)
    (backing : Backing) (timings : Timings) (temperature : Int32) (service : Group)
    (system : System) {steps : List Step} (hs : ∀ s ∈ steps, s.Honest)
    (hp : ∀ event, .act (.input (.touch event)) ∈ steps → ∀ screen, q (event.normalized screen)) :
    (steps.foldl take (fresh panel backing timings temperature service system)).Upheld P Q :=
  upheld_run hk (upheld_fresh ..) (.reachable (.fresh _ _ _ _ _ _ hpanel)) steps hs hp

theorem Upheld.ever (h : d.Upheld P Q) (hpq : ∀ w, P w → Q w) {w : Window}
    (hw : w ∈ d.windows ++ d.ended) : Q w := by
  rcases List.mem_append.1 hw with hw | hw
  · exact hpq w (h.here w hw)
  · exact h.gone w hw

end Desktop

namespace Window

variable {R : Channel → Prop} {p : Dealing → Prop} {w v : Window}

def EachPipe (R : Channel → Prop) (w : Window) : Prop := ∀ kind, R (w.pipe kind)

theorem EachPipe.setPipe (h : w.EachPipe R) {c : Channel} (hc : R c) (kind : ChannelKind) :
    (w.setPipe c kind).EachPipe R := by
  intro k
  rw [pipe_setPipe]
  split
  · exact hc
  · exact h k

theorem EachPipe.of_eq (h : w.EachPipe R) (hp : v.pipe = w.pipe) : v.EachPipe R := by
  rw [EachPipe, hp]
  exact h

theorem EachPipe.post (h : w.EachPipe R) (kind : ChannelKind) {m : Message}
    (hm : ∀ c, R c → R (c.send m).1) : (w.post kind m).EachPipe R :=
  h.setPipe (hm _ (h kind)) kind

theorem EachPipe.tell (h : w.EachPipe R) (ms : List Message)
    (hms : ∀ m ∈ ms, ∀ c, R c → R (c.send m).1) : (w.tell ms).EachPipe R := by
  induction ms generalizing w with
  | nil => exact h
  | cons m ms ih =>
    exact ih (h.post .event (hms m List.mem_cons_self))
      fun n hn => hms n (List.mem_cons_of_mem m hn)

/-- The bytes of every pipe are those of the messages posted there. -/
theorem carries_exchange (h : w.EachPipe Channel.Carries) (hx : w.Exchange p v) :
    v.EachPipe Channel.Carries := by
  have hsend : ∀ (m : Message) (c : Channel), c.Carries → (c.send m).1.Carries := fun m c hc =>
    hc.sendWith m _
  cases hx with
  | rest hr =>
    exact fun kind => (h kind).congr (hr.pipes kind).1 (hr.pipes kind).2.1 (hr.pipes kind).2.2
  | pulse f => exact h.of_eq rfl
  | post kind m => exact h.post kind (hsend m)
  | announce => exact h.tell _ fun m _ => hsend m
  | forward event =>
    exact (h.of_eq (v := { w with touching := event.slotsAfter w.touching }) rfl).post .touch
      (hsend _)
  | hangUp kind => exact h.setPipe ((h kind).sendWith .close _).shutDown kind
  | relocate geometry =>
    exact (h.of_eq (v := { w with geometry }) rfl).tell _ fun m _ => hsend m
  | refurnish geometry image =>
    exact (h.of_eq (v := { w with geometry, image }) rfl).tell _ fun m _ => hsend m
  | relayer state =>
    have hv := h.of_eq (v := { w with state, touching := [] }) rfl
    rw [relayered]
    split
    · exact hv
    · exact hv.post .touch (hsend _)

theorem Blank.eachPipe (h : w.Blank) (hfresh : ∀ socket, R (.fresh socket)) : w.EachPipe R := by
  intro kind
  obtain ⟨socket,hs⟩ := h.pipes kind
  exact hs ▸ hfresh socket

end Window

namespace Desktop

theorem carries_kept (q : TouchEvent → Prop) :
    Kept q (Window.EachPipe Channel.Carries) (Window.EachPipe Channel.Carries) where
  opened v hv := by
    obtain ⟨w,geometry,image,hb,rfl⟩ := hv
    exact Window.carries_exchange (p := Dealing.touching q) (hb.eachPipe Channel.carries_fresh)
      (.refurnish geometry image)
  exchange w v hx h := Window.carries_exchange h hx
  ending w h := fun kind => w.pipe_ending kind ▸ (h kind).shutDown
  resting w v hr h := fun kind =>
    (h kind).congr (hr.pipes kind).1 (hr.pipes kind).2.1 (hr.pipes kind).2.2

end Desktop

end InkCompositor
