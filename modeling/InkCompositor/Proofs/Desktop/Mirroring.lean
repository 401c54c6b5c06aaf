import Mathlib
import InkCompositor.Proofs.Desktop.Exchanges

/-!
# The event pipe as a mirror of the window

A client that only follows its event pipe knows where its window is and how to
map its image: the last messages about them always tell how it is now.
-/

set_option autoImplicit false

namespace InkCompositor

open Wire

def Wire.Message.rect? : Message → Option Rect
  | .geometry rect _ => some rect
  | _ => none

def Wire.Message.info? : Message → Option (UInt64 × UInt64 × Int32)
  | .imageInfo size stride format => some (size,stride,format)
  | _ => none

theorem rect?_of_plain {m : Message} (h : m.plain = true) : m.rect? = none := by
  cases m with
  | geometry rect z => cases h
  | _ => rfl

theorem info?_of_plain {m : Message} (h : m.plain = true) : m.info? = none := by
  cases m with
  | imageInfo size stride format => cases h
  | _ => rfl

def lastRect (ms : List Message) : Rect := (ms.filterMap Message.rect?).getLast?.getD Rect.none

def lastInfo? (ms : List Message) : Option (UInt64 × UInt64 × Int32) :=
  (ms.filterMap Message.info?).getLast?

/-- Right behind every description of an image the image is handed over. -/
def Paired (ms : List Message) : Prop := ∀ i size stride format,
  ms[i]? = some (.imageInfo size stride format) → ms[i+1]? = some .frameBuffer

theorem lastRect_concat (ms : List Message) (m : Message) :
    lastRect (ms ++ [m]) = m.rect?.getD (lastRect ms) := by
  cases h : m.rect? <;> simp [lastRect, h]

theorem lastInfo?_concat {m : Message} (hm : m.info? = none) (ms : List Message) :
    lastInfo? (ms ++ [m]) = lastInfo? ms := by
  simp [lastInfo?, hm]

theorem Paired.append {ms ns : List Message} (h : Paired ms) (h' : Paired ns) :
    Paired (ms ++ ns) := by
  intro i size stride format hi
  rcases Nat.lt_or_ge i ms.length with hlt | hge
  · rw [List.getElem?_append_left hlt] at hi
    have hnext := h i size stride format hi
    rwa [List.getElem?_append_left (List.getElem?_eq_some_iff.1 hnext).1]
  · rw [List.getElem?_append_right hge] at hi
    rw [List.getElem?_append_right (by omega), Nat.sub_add_comm hge]
    exact h' _ size stride format hi

theorem paired_singleton {m : Message} (h : m.info? = none) : Paired [m] := by
  rintro (_ | i) size stride format hi
  · rw [Option.some.inj hi] at h
    cases h
  · cases hi

namespace Window

variable {w : Window}

theorem paired_imageNews (w : Window) : Paired w.imageNews := by
  rintro (_ | _ | i) size stride format hi
  · rfl
  · cases hi
  · cases hi

theorem lastRect_imageNews (w : Window) (ms : List Message) :
    lastRect (ms ++ w.imageNews) = lastRect ms := by
  have hnone : w.imageNews.filterMap Message.rect? = [] := rfl
  rw [lastRect, List.filterMap_append, hnone, List.append_nil, lastRect]

theorem lastInfo?_imageNews (w : Window) (ms : List Message) : lastInfo? (ms ++ w.imageNews) =
    some (.ofNat w.imageInfo.1,.ofNat w.imageInfo.2.1,w.imageInfo.2.2.code) := by
  have hone : w.imageNews.filterMap Message.info? =
    [(.ofNat w.imageInfo.1,.ofNat w.imageInfo.2.1,w.imageInfo.2.2.code)] := rfl
  rw [lastInfo?, List.filterMap_append, hone, List.getLast?_concat]

/-- The client was told how the window is. -/
structure Mirrored (w : Window) : Prop where
  geometry : lastRect w.eventPipe.messages = w.geometry
  info : ∃ size stride, lastInfo? w.eventPipe.messages = some (size,stride,w.imageInfo.2.2.code) ∧
    size.toNat = w.imageInfo.1 ∧ stride.toNat = w.imageInfo.2.1
  paired : Paired w.eventPipe.messages

theorem imageInfo_lt (w : Window) : w.imageInfo.1 < 2^64 ∧ w.imageInfo.2.1 < 2^64 := by
  cases hi : w.image with
  | none => simp [imageInfo, hi]
  | some r =>
    have hsize : r.stride*r.height < 2^64 := r.size_lt
    have hstride : r.stride ≤ r.stride*r.height := Nat.le_mul_of_pos_right _ r.height_pos
    simpa only [imageInfo, hi] using ⟨hsize,hstride.trans_lt hsize⟩

theorem uncut_of_tell {ms : List Message} (h : (w.tell ms).eventPipe.Uncut) :
    w.eventPipe.Uncut ∧ (w.eventPipe.isOpen = true → (w.tell ms).eventPipe.isOpen = true ∧
      (w.tell ms).eventPipe.messages = w.eventPipe.messages ++ ms) := by
  induction ms generalizing w with
  | nil => exact ⟨h,fun ho => ⟨ho,(List.append_nil _).symm⟩⟩
  | cons m ms ih =>
    obtain ⟨hpost,htold⟩ := ih (w := w.post .event m) h
    obtain ⟨huncut,hposted⟩ := Channel.Uncut.of_sendWith (c := w.eventPipe) hpost
    refine ⟨huncut,fun ho => ?_⟩
    obtain ⟨hopen,hms⟩ := hposted ho
    obtain ⟨hopen',hms'⟩ := htold hopen
    refine ⟨hopen',hms'.trans ?_⟩
    rw [show (w.post .event m).eventPipe.messages = _ from hms, List.append_assoc]
    rfl

theorem mirrored_tell (ms : List Message) (hu : (w.tell (ms ++ w.imageNews)).eventPipe.Uncut)
    (ho : w.eventPipe.isOpen = true) (hrect : lastRect (w.eventPipe.messages ++ ms) = w.geometry)
    (hpaired : Paired (w.eventPipe.messages ++ ms)) :
    (w.tell (ms ++ w.imageNews)).eventPipe.isOpen = true ∧
      (w.tell (ms ++ w.imageNews)).Mirrored := by
  obtain ⟨hopen,hms⟩ := (uncut_of_tell hu).2 ho
  obtain ⟨hsize,hstride⟩ := w.imageInfo_lt
  refine ⟨hopen,⟨?_,⟨.ofNat w.imageInfo.1,.ofNat w.imageInfo.2.1,?_,?_,?_⟩,?_⟩⟩
  · rw [hms, ← List.append_assoc, lastRect_imageNews]
    exact hrect.trans (w.geometry_tell _).symm
  · rw [hms, ← List.append_assoc, lastInfo?_imageNews, imageInfo_tell]
  · rw [imageInfo_tell]
    exact UInt64.toNat_ofNat_of_lt hsize
  · rw [imageInfo_tell]
    exact UInt64.toNat_ofNat_of_lt hstride
  · rw [hms, ← List.append_assoc]
    exact hpaired.append w.paired_imageNews

/-- Unless the window is closed or its event pipe was cut, the client was told how it is. -/
def Current (w : Window) : Prop :=
  w.state ≠ .closed → w.eventPipe.Uncut → w.eventPipe.isOpen = true ∧ w.Mirrored

theorem Current.of_eq {v : Window} (h : w.Current) (hstate : w.state = .closed → v.state = .closed)
    (hopen : v.eventPipe.isOpen = w.eventPipe.isOpen)
    (hposted : v.eventPipe.posted = w.eventPipe.posted) (hgeometry : v.geometry = w.geometry)
    (hinfo : v.imageInfo = w.imageInfo) : v.Current := by
  intro ho hu
  rw [Channel.Uncut, hposted] at hu
  obtain ⟨hopen₀,hg,hi,hpaired⟩ := h (fun hc => ho (hstate hc)) hu
  have hms : v.eventPipe.messages = w.eventPipe.messages := by
    rw [Channel.messages, hposted, Channel.messages]
  exact ⟨hopen.trans hopen₀,⟨by rw [hms, hgeometry, hg],by rw [hms, hinfo]; exact hi,
    by rw [hms]; exact hpaired⟩⟩

theorem Current.tell_one {v : Window} (h : w.Current) (hstate : v.state = w.state)
    (hpipe : v.eventPipe = w.eventPipe) (hinfo : v.imageInfo = w.imageInfo) {m : Message}
    (hm : m.info? = none) (hgeometry : v.geometry = m.rect?.getD w.geometry) :
    (v.tell [m]).Current := by
  intro ho hu
  rw [state_tell, hstate] at ho
  obtain ⟨hu₀,htold⟩ := uncut_of_tell hu
  rw [hpipe] at hu₀ htold
  obtain ⟨hopen₀,hg,⟨size,stride,hi,hsize,hstride⟩,hpaired⟩ := h ho hu₀
  obtain ⟨hopen,hms⟩ := htold hopen₀
  refine ⟨hopen,⟨?_,⟨size,stride,?_⟩,?_⟩⟩
  · rw [hms, lastRect_concat, hg, geometry_tell, hgeometry]
  · rw [hms, lastInfo?_concat hm, imageInfo_tell, hinfo]
    exact ⟨hi,hsize,hstride⟩
  · rw [hms]
    exact hpaired.append (paired_singleton hm)

theorem mirrored_refurnished {geometry : Rect} {image : Option Raster}
    (hu : (w.refurnished geometry image).eventPipe.Uncut) (ho : w.eventPipe.isOpen = true)
    (hrect : lastRect w.eventPipe.messages = w.geometry) (hpaired : Paired w.eventPipe.messages) :
    (w.refurnished geometry image).eventPipe.isOpen = true ∧
      (w.refurnished geometry image).Mirrored := by
  refine mirrored_tell (w := { w with geometry, image }) _ hu ho ?_ ?_
  · split
    · rename_i hg
      rw [List.append_nil]
      exact hrect.trans hg
    · exact lastRect_concat ..
  · split
    · rw [List.append_nil]
      exact hpaired
    · exact hpaired.append (paired_singleton rfl)

theorem Current.exchange {p : Dealing → Prop} {v : Window} (h : w.Current)
    (hx : w.Exchange p v) : v.Current := by
  cases hx with
  | rest hr =>
    exact h.of_eq hr.closed (hr.pipes .event).1 (hr.pipes .event).2.2 hr.geometry hr.imageInfo
  | pulse => exact h.of_eq (fun hc => hc) rfl rfl rfl rfl
  | post kind m hm =>
    cases kind with
    | event => exact h.tell_one rfl rfl rfl (info?_of_plain hm) (by rw [rect?_of_plain hm]; rfl)
    | touch | tablet | key => exact h.of_eq (fun hc => hc) rfl rfl rfl rfl
  | announce =>
    intro ho hu
    have hstate : w.state ≠ .closed := fun hc => ho ((state_tell _ _).trans hc)
    obtain ⟨hopen,hg,-,hpaired⟩ := h hstate (uncut_of_tell hu).1
    exact mirrored_tell [] hu hopen (by rwa [List.append_nil]) (by rwa [List.append_nil])
  | forward event => exact h.of_eq (fun hc => hc) rfl rfl rfl rfl
  | hangUp kind hc =>
    refine fun ho => absurd ?_ ho
    cases kind <;> exact hc
  | relocate geometry =>
    exact h.tell_one (v := { w with geometry }) (m := .geometry geometry w.z) rfl rfl rfl rfl rfl
  | refurnish geometry image =>
    intro ho hu
    have hstate : w.state ≠ .closed := fun hc => ho ((state_tell _ _).trans hc)
    obtain ⟨hopen,hg,-,hpaired⟩ := h hstate (uncut_of_tell hu).1
    exact mirrored_refurnished hu hopen hg hpaired
  | relayer state ho =>
    rw [relayered]
    split
    · exact h.of_eq (fun hc => absurd hc ho) rfl rfl rfl rfl
    · exact h.of_eq (fun hc => absurd hc ho) rfl rfl rfl rfl

theorem Opened.current (h : w.Opened) : w.Current := by
  obtain ⟨v,geometry,image,hb,rfl⟩ := h
  obtain ⟨socket,hpipe⟩ := hb.pipes .event
  change v.eventPipe = _ at hpipe
  refine fun _ hu => mirrored_refurnished hu ?_ ?_ ?_
  · rw [hpipe]
    rfl
  · rw [hpipe, hb.geometry]
    rfl
  · rw [hpipe]
    rintro i size stride format hi
    cases hi

end Window

namespace Desktop

theorem current_kept (q : TouchEvent → Prop) : Kept q Window.Current fun _ => True where
  opened _ h := h.current
  exchange _ _ hx h := h.exchange hx
  ending _ _ := trivial
  resting _ _ _ _ := trivial

/-- Whatever callers, clients and the host do, the client of a window that is not closed was told
last how the window is, as long as no message was taken in part on the event pipe: the last
geometry is that of the window, the last description is that of its image, and behind every
description the image is handed over. Messages that find no room or no reader were told as well;
if there are none, the bytes in the pipe are those of all messages. -/
theorem event_pipe_mirrors (panel : Panel) (backing : Backing) (timings : Timings)
    (temperature : Int32) (service : Group) (system : System) (hpanel : panel.raster.id = 0)
    (steps : List Step) (hs : ∀ s ∈ steps, s.Honest) {w : Window}
    (hw : w ∈ (steps.foldl take (fresh panel backing timings temperature service system)).windows)
    (ho : w.state ≠ .closed) (hu : w.eventPipe.Uncut) :
    w.Mirrored ∧ w.eventPipe.isOpen = true ∧
      w.eventPipe.outgoing.toList = Channel.written w.eventPipe.posted.toList := by
  have hcurrent := (upheld_run_fresh (current_kept fun _ => True) hpanel backing timings temperature
    service system hs fun _ _ _ => trivial).here w hw
  have hcarries := (upheld_run_fresh (carries_kept fun _ => True) hpanel backing timings temperature
    service system hs fun _ _ _ => trivial).here w hw
  obtain ⟨hopen,hm⟩ := hcurrent ho hu
  exact ⟨hm,hopen,(hcarries .event).carried.bytes_eq hu⟩

/-- A window is opened, resized and moved. -/
theorem event_pipe_mirrors_small :
    let d := [Step.act (.create 100 (some ⟨1,1,2,2⟩) .rgb16),.act (.resize 0 100 3 3),
      .act (.moveTo 0 100 0 0)].foldl take (fresh smallPanel .anonymous {} 24 1)
    ∃ w, d.window? 0 = some w ∧ w.state = .loweredHidden ∧
      w.eventPipe.posted.toList.map (·.2) = List.replicate 7 .sent ∧ w.geometry = ⟨0,0,3,3⟩ ∧
      w.Mirrored := by
  intro d
  have hlook : (d.window? 0).map (fun w =>
      (w.state,w.eventPipe.posted.toList.map (·.2),w.geometry)) =
        some (.loweredHidden,List.replicate 7 .sent,⟨0,0,3,3⟩) := by decide +kernel
  obtain ⟨w,hw,he⟩ := Option.map_eq_some_iff.1 hlook
  obtain ⟨hstate,hsent,hgeometry⟩ : w.state = .loweredHidden ∧
      w.eventPipe.posted.toList.map (·.2) = List.replicate 7 .sent ∧ w.geometry = ⟨0,0,3,3⟩ := by
    simpa using he
  have hu : w.eventPipe.Uncut := fun x hx hc => by
    have hm : Delivery.cut ∈ List.replicate 7 Delivery.sent :=
      hsent ▸ List.mem_map.2 ⟨x,hx,hc⟩
    exact absurd hm (by decide)
  have ho : w.state ≠ .closed := by
    rw [hstate]
    decide
  exact ⟨w,hw,hstate,hsent,hgeometry,(event_pipe_mirrors smallPanel .anonymous {} 24 1 {} rfl
    [.act (.create 100 (some ⟨1,1,2,2⟩) .rgb16),.act (.resize 0 100 3 3),.act (.moveTo 0 100 0 0)]
    (by simp [Step.Honest]) (mem_of_window? hw) ho hu).1⟩

end Desktop

end InkCompositor
