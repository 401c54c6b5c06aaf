import Mathlib
import InkCompositor.Proofs.Desktop.Steps

/-!
# Closed windows

A window that has been closed stays as it is. It is in no list and no stack, no
repaint is queued for it, none of its pipes is handed out, and its client hears
nothing more.
-/

set_option autoImplicit false

namespace InkCompositor

open Wire

def Acceptance.count : Acceptance → Nat
  | took count => count
  | full | broken => 0

namespace Channel

theorem outgoing_sendWith (c : Channel) (m : Message) (a : Acceptance) :
    (c.sendWith m a).1.outgoing =
      c.outgoing ++ if c.isOpen then m.encode.take a.count else [] := by
  cases hopen : c.isOpen with
  | false => simp [sendWith, hopen]
  | true =>
    cases a with
    | took count =>
      by_cases hall : m.encode.length ≤ count <;>
        simp [sendWith, hopen, hall, Acceptance.count, shutDown]
    | full | broken => simp [sendWith, hopen, Acceptance.count]

/-- What the socket takes of a last message, if the pipe is open. -/
def farewell (c : Channel) : List UInt8 :=
  if c.isOpen then Message.close.encode.take (c.acceptance Message.close.encode.length).count
  else []

theorem close_frame (c : Channel) :
    c.close.1.isOpen = false ∧ c.close.1.outgoing = c.outgoing ++ c.farewell := by
  refine ⟨rfl,?_⟩
  change (c.sendWith .close (c.acceptance Message.close.encode.length)).1.outgoing = _
  rw [outgoing_sendWith, farewell]

end Channel

namespace Window

def hungUp (w : Window) (kinds : List ChannelKind) : Window :=
  kinds.foldl (fun w kind => w.setPipe (w.pipe kind).close.1 kind) w

/-- What remains of a window at the end of a call that closes it. -/
def closed (w : Window) : Window :=
  hungUp { w with state := .closed, touching := [], enabled := false } ChannelKind.all

theorem pipe_closed (w : Window) (kind : ChannelKind) :
    w.closed.pipe kind = (w.pipe kind).close.1 := by cases kind <;> rfl

def Silent (v w : Window) : Prop :=
  ∀ kind, (w.pipe kind).isOpen = false ∧ (w.pipe kind).outgoing = (v.pipe kind).outgoing

structure Rests (v w : Window) : Prop where
  face : w.face = v.face
  z : w.z = v.z
  enabled : w.enabled = v.enabled
  silent : v.Silent w

variable {v w : Window}

theorem Silent.move (h : v.Silent w) (kind : ChannelKind) (m : ClientMove) :
    v.Silent (w.setPipe (m.apply (w.pipe kind)) kind) := by
  intro k
  rw [pipe_setPipe]
  split
  · rename_i hk
    subst hk
    obtain ⟨hopen,hout,-⟩ := m.apply_frame (w.pipe k)
    exact ⟨hopen.trans (h k).1,hout.trans (h k).2⟩
  · exact h k

theorem Rests.move (h : v.Rests w) (kind : ChannelKind) (m : ClientMove) :
    v.Rests (w.setPipe (m.apply (w.pipe kind)) kind) :=
  ⟨(face_setPipe ..).trans h.face,(z_setPipe ..).trans h.z,
    (by cases kind <;> rfl : _ = w.enabled).trans h.enabled,h.silent.move kind m⟩

theorem rests_closed (w : Window) : w.closed.Rests w.closed := by
  refine ⟨rfl,rfl,rfl,fun kind => ⟨?_,rfl⟩⟩
  rw [pipe_closed]
  exact (Channel.close_frame _).1

end Window

namespace Desktop

/-- A closed window, or what is left of it, is as it was. -/
structure Lasting (d : Desktop) (v : Window) : Prop where
  known : ∃ w ∈ d.windows ++ d.ended, w.id = v.id
  here : ∀ w ∈ d.windows, w.id = v.id → v.Rests w
  gone : ∀ w ∈ d.ended, w.id = v.id → v.Silent w

def alive (d : Desktop) (id : WindowId) : Prop := ∃ w ∈ d.windows, w.id = id

/-- What holds of a closed window, given what was asked for past all calls. -/
structure Retired (d : Desktop) (v : Window) (asked : List Repaint) : Prop extends
    d.Lasting v where
  unlisted : ¬ d.lists v.id
  unsorted : ∀ r, d.registry = some r → v.id ∉ r.sorted
  queue : d.alive v.id →
    (d.queue.filter (·.window == some v.id)).Sublist (asked.filter (·.window == some v.id))

variable {s : Scope} {d e : Desktop} {v : Window} {asked : List Repaint}

theorem Lasting.closed (h : d.Lasting v) (hv : v.state = .closed) {w : Window}
    (hw : w ∈ d.windows) (hid : w.id = v.id) : w.state = .closed :=
  (congrArg (·.state) (h.here w hw hid).face).trans hv

section

variable (hk : d.Lasting v)
include hk

theorem Lasting.moved {g : Window → Window} (hm : Moved s d e g) (hv : v.state = .closed)
    (hl : ¬ d.lists v.id) : e.Lasting v ∧ (e.alive v.id → d.alive v.id) := by
  have hback : ∀ u ∈ e.windows, u.id = v.id → ∃ w ∈ d.windows, w.id = v.id ∧ g w = u := by
    intro u hu hid
    rw [hm.windows] at hu
    obtain ⟨w,hw,rfl⟩ := List.mem_map.1 hu
    exact ⟨w,hw,(hm.id w).symm.trans hid,rfl⟩
  refine ⟨⟨?_,fun u hu hid => ?_,hm.ended ▸ hk.gone⟩,fun ⟨u,hu,hid⟩ => ?_⟩
  · obtain ⟨w,hw,hid⟩ := hk.known
    rw [hm.windows, hm.ended]
    rcases List.mem_append.1 hw with hw | hw
    · exact ⟨g w,List.mem_append_left _ (List.mem_map_of_mem hw),(hm.id w).trans hid⟩
    · exact ⟨w,List.mem_append_right _ hw,hid⟩
  · obtain ⟨w,hw,hwid,rfl⟩ := hback u hu hid
    have hrests := hk.here w hw hwid
    have hc := hk.closed hv hw hwid
    have hf := hm.follows w hw
    -- a closed window is in no layer, so no sorting changes its height
    have hz : (g w).z = w.z :=
      hf.z.resolve_right fun h => h.elim (fun h => hl (hwid ▸ h.1)) fun h => h.2 hc
    refine ⟨(hf.face hc).trans hrests.face,hz.trans hrests.z,
      (hf.enabled hc).trans hrests.enabled,fun kind => ?_⟩
    obtain ⟨hopen,hout⟩ := hf.pipes hc kind (hrests.silent kind).1
    exact ⟨hopen,hout.trans (hrests.silent kind).2⟩
  · obtain ⟨w,hw,hid,-⟩ := hback u hu hid
    exact ⟨w,hw,hid⟩

theorem Lasting.refitted {w : Window} {geometry : Rect} {image : Option Raster}
    (hr : Refitted d e w geometry image) (hw : d.window? w.id = some w) (ho : w.state ≠ .closed)
    (hv : v.state = .closed) : e.Lasting v ∧ (e.alive v.id → d.alive v.id) := by
  have hne : ∀ u : Window, u.id = v.id → u.id ≠ w.id := fun u hu he =>
    ho (hk.closed hv (mem_of_window? hw) (he.symm.trans hu))
  have hback : ∀ u ∈ e.windows, u.id = v.id → u ∈ d.windows := by
    intro u hu hid
    rw [hr.windows] at hu
    obtain ⟨u',hu',rfl⟩ := List.mem_map.1 hu
    by_cases hw' : u'.id = w.id
    · rw [if_pos hw'] at hid
      exact absurd hw' (hne u' hid)
    · rwa [if_neg hw']
  refine ⟨⟨?_,fun u hu hid => hk.here u (hback u hu hid) hid,hr.ended ▸ hk.gone⟩,
    fun ⟨u,hu,hid⟩ => ⟨u,hback u hu hid,hid⟩⟩
  obtain ⟨u,hu,hid⟩ := hk.known
  rw [hr.windows, hr.ended]
  rcases List.mem_append.1 hu with hu | hu
  · exact ⟨u,List.mem_append_left _ (List.mem_map.2 ⟨u,hu,if_neg (hne u hid)⟩),hid⟩
  · exact ⟨u,List.mem_append_right _ hu,hid⟩

theorem Lasting.added (hd : d.Distinct) {w : Window} (hw : w.id = d.nextWindow) :
    (d.added w).Lasting v ∧ ((d.added w).alive v.id → d.alive v.id) := by
  obtain ⟨u,hu,hid⟩ := hk.known
  have hne : w.id ≠ v.id := fun he => (hd.lt u hu).ne (hid.trans (he.symm.trans hw))
  have hback : ∀ u ∈ (d.added w).windows, u.id = v.id → u ∈ d.windows := by
    intro u hu hid
    rcases List.mem_append.1 hu with hu | hu
    · exact hu
    · rw [List.mem_singleton.1 hu] at hid
      exact absurd hid hne
  refine ⟨⟨⟨u,?_,hid⟩,fun u hu hid => hk.here u (hback u hu hid) hid,hk.gone⟩,
    fun ⟨u,hu,hid⟩ => ⟨u,hback u hu hid,hid⟩⟩
  rcases List.mem_append.1 hu with hu | hu
  · exact List.mem_append_left _ (List.mem_append_left _ hu)
  · exact List.mem_append_right _ hu

theorem Lasting.ended {w : Window} (he : Ended d e w) (hw : d.window? w.id = some w) :
    e.Lasting v ∧ (e.alive v.id → d.alive v.id) := by
  have hback : ∀ u ∈ e.windows, u ∈ d.windows := by
    intro u hu
    rw [he.windows] at hu
    exact List.mem_of_mem_filter hu
  refine ⟨⟨?_,fun u hu => hk.here u (hback u hu),fun u hu hid kind => ?_⟩,
    fun ⟨u,hu,hid⟩ => ⟨u,hback u hu,hid⟩⟩
  · obtain ⟨u,hu,hid⟩ := hk.known
    rw [he.windows, he.ended]
    by_cases hw' : u.id = w.id
    · exact ⟨w.ending,by simp,hw'.symm.trans hid⟩
    · rcases List.mem_append.1 hu with hu | hu
      · exact ⟨u,List.mem_append_left _ (List.mem_filter.2 ⟨hu,by simpa using hw'⟩),hid⟩
      · exact ⟨u,by simp [hu],hid⟩
  · rw [he.ended] at hu
    rcases List.mem_append.1 hu with hu | hu
    · exact hk.gone u hu hid kind
    · rw [List.mem_singleton.1 hu] at hid ⊢
      have hp := (hk.here w (mem_of_window? hw) hid).silent kind
      cases kind <;> exact ⟨rfl,hp.2⟩

theorem Edit.lasting (hd : d.Distinct) (hv : v.state = .closed) (hl : ¬ d.lists v.id)
    (h : Edit s d e) : e.Lasting v ∧ (e.alive v.id → d.alive v.id) := by
  rcases h.cases hd with ⟨g,hm⟩ | ⟨w,geometry,image,-,hw,ho,hr⟩ | ⟨w,-,hw,-,-,rfl⟩ | ⟨w,-,hw,he⟩
  · exact hk.moved hm hv hl
  · exact hk.refitted hr hw ho hv
  · exact hk.added hd hw
  · exact hk.ended he hw

end

theorem Edit.retired (hd : d.Distinct) (hv : v.state = .closed) (h : Edit s d e)
    (hk : d.Retired v asked) : e.Retired v asked := by
  obtain ⟨hlast,hback⟩ := Edit.lasting hk.toLasting hd hv hk.unlisted h
  have hclosed : ∀ w, d.window? v.id = some w → w.state = .closed := fun w hw =>
    hk.closed hv (mem_of_window? hw) (id_of_window? d hw)
  have hreg : ¬ e.lists v.id ∧ ∀ r, e.registry = some r → v.id ∉ r.sorted := by
    rcases h.registry_cases with hr | ⟨-,hr | ⟨r,sorted,hr,he,hs⟩⟩
    · rw [lists, hr]
      exact ⟨hk.unlisted,hk.unsorted⟩
    · refine ⟨fun ⟨r',hr',hid⟩ => ?_,fun r' hr' hid => ?_⟩
      · rcases hr.joins r' hr' v.id hid with hl | ⟨-,w,hw,ho⟩
        · exact hk.unlisted hl
        · exact ho (hclosed w hw)
      · obtain ⟨r,hr,hs⟩ := hr.sorted r' hr'
        exact hk.unsorted r hr (hs hid)
    · refine ⟨fun ⟨r',hr',hid⟩ => ?_,fun r' hr' hid => ?_⟩
      · obtain rfl := Option.some.inj (he.symm.trans hr')
        exact hk.unlisted ⟨r,hr,hid⟩
      · obtain rfl := Option.some.inj (he.symm.trans hr')
        exact hk.unlisted ⟨r,hr,hs hid⟩
  refine ⟨hlast,hreg.1,hreg.2,fun hex => ?_⟩
  have hq := hk.queue (hback hex)
  rcases h.queue_cases with he | ⟨q,hq'⟩ | ⟨q,rfl,ho⟩
  · rwa [he]
  · rw [hq'] at hq
    exact ((List.sublist_cons_self q e.queue).filter _).trans hq
  · rw [List.filter_append]
    have hnone : [q].filter (·.window == some v.id) = [] := by
      refine List.filter_eq_nil_iff.2 fun q' hq' hw => ?_
      obtain rfl := List.mem_singleton.1 hq'
      obtain ⟨w,hw',hid⟩ := hex
      have hf : d.window? v.id = some w := hid ▸ hd.window? hw'
      exact ho v.id w (by simpa using hw) hf (hclosed w hf)
    rwa [hnone, List.append_nil]

theorem Edits.retired (hd : d.Distinct) (hv : v.state = .closed) (h : Edits s d e)
    (hk : d.Retired v asked) : e.Retired v asked :=
  (h.keeps (P := fun d => d.Distinct ∧ d.Retired v asked)
    (fun he h => ⟨he.distinct h.1,he.retired h.1 hv h.2⟩) ⟨hd,hk⟩).2

theorem Retired.append (h : d.Retired v asked) (more : List Repaint) :
    d.Retired v (asked ++ more) where
  toLasting := h.toLasting
  unlisted := h.unlisted
  unsorted := h.unsorted
  queue hex := (h.queue hex).trans ((List.sublist_append_left asked more).filter _)

theorem Retired.atPipe (hd : d.Distinct) (h : d.Retired v asked) (id : WindowId)
    (kind : ChannelKind) (m : ClientMove) : (d.atPipe id kind m.apply).Retired v asked := by
  have hid : ∀ w : Window, (if w.id = id then w.setPipe (m.apply (w.pipe kind)) kind else w).id =
      w.id := by
    intro w
    split
    · cases kind <;> rfl
    · rfl
  rw [hd.atPipe_eq]
  refine ⟨⟨?_,fun u hu huid => ?_,fun u hu huid => ?_⟩,h.unlisted,h.unsorted,fun ⟨u,hu,huid⟩ => ?_⟩
  · obtain ⟨w,hw,hwid⟩ := h.known
    dsimp only
    rw [← List.map_append]
    exact ⟨_,List.mem_map_of_mem hw,(hid w).trans hwid⟩
  · obtain ⟨w,hw,rfl⟩ := List.mem_map.1 hu
    have hrests := h.here w hw ((hid w).symm.trans huid)
    split
    · exact hrests.move kind m
    · exact hrests
  · obtain ⟨w,hw,rfl⟩ := List.mem_map.1 hu
    have hsilent := h.gone w hw ((hid w).symm.trans huid)
    split
    · exact hsilent.move kind m
    · exact hsilent
  · obtain ⟨w,hw,rfl⟩ := List.mem_map.1 hu
    exact h.queue ⟨w,hw,(hid w).symm.trans huid⟩

theorem Retired.scribble (h : d.Retired v asked) (id : WindowId) (bytes : Raster → Array UInt8) :
    (d.scribble id bytes).Retired
      { v with image := (Step.act (.scribble id bytes)).draw v.id v.image } asked := by
  have hid : ∀ w : Window, (if w.id = id then
      { w with image := w.image.map fun r => r.overwrite (bytes r) } else w).id = w.id := by
    intro w
    split <;> rfl
  refine ⟨⟨?_,fun u hu huid => ?_,h.gone⟩,h.unlisted,h.unsorted,fun ⟨u,hu,huid⟩ => ?_⟩
  · obtain ⟨w,hw,hwid⟩ := h.known
    rcases List.mem_append.1 hw with hw | hw
    · exact ⟨_,List.mem_append_left _ (List.mem_map_of_mem hw),(hid w).trans hwid⟩
    · exact ⟨w,List.mem_append_right _ hw,hwid⟩
  · obtain ⟨w,hw,rfl⟩ := List.mem_map.1 hu
    have hwid : w.id = v.id := (hid w).symm.trans huid
    have hrests := h.here w hw hwid
    have hf : ∀ image, { w with image }.face = { v with image }.face := fun image =>
      congrArg (fun f => { f with image }) hrests.face
    have himage : w.image = v.image := congrArg (·.image) hrests.face
    by_cases hw' : w.id = id
    · rw [if_pos hw', Step.draw, if_pos (hw'.symm.trans hwid), ← himage]
      exact ⟨hf _,hrests.z,hrests.enabled,hrests.silent⟩
    · rw [if_neg hw', Step.draw, if_neg fun he => hw' (hwid.trans he.symm)]
      exact hrests
  · obtain ⟨w,hw,rfl⟩ := List.mem_map.1 hu
    exact h.queue ⟨w,hw,(hid w).symm.trans huid⟩

theorem draw_of_edit {s : Step} (hs : ∀ a, s = .act a → a.isEdit = true) (id : WindowId)
    (image : Option Raster) : s.draw id image = image ∧ s.enqueued = [] := by
  cases s with
  | act a =>
    have ha := hs a rfl
    cases a with
    | enqueue | atPipe | scribble | present => cases ha
    | _ => exact ⟨rfl,rfl⟩
  | _ => exact ⟨rfl,rfl⟩

theorem Retired.step (h : Occurs d) (hv : v.state = .closed) (hk : d.Retired v asked) (s : Step)
    (hs : s.Honest) : (d.take s).Retired { v with image := s.draw v.id v.image }
      (asked ++ s.enqueued) := by
  by_cases he : ∀ a, s = .act a → a.isEdit = true
  · obtain ⟨hdraw,hask⟩ := draw_of_edit he v.id v.image
    rw [hdraw, hask, List.append_nil]
    exact (take_edits h.sound s he).retired h.distinct hv hk
  cases s with
  | act a =>
    cases a with
    | enqueue q =>
      have hl : (d.log .trace "Queueing repaint").Retired v asked :=
        (edits_log .refl ..).retired (s := .everything) h.distinct hv hk
      have hd : (d.log .trace "Queueing repaint").Distinct := ⟨h.distinct.nodup,h.distinct.lt⟩
      show Retired (if d.halted then _ else _) v (asked ++ [q])
      split
      · exact ((deeds_finishAny .refl (.inr trivial) 0).edits.retired hd hv hl).append [q]
      · refine ⟨⟨hk.known,hk.here,hk.gone⟩,hk.unlisted,hk.unsorted,fun hex => ?_⟩
        rw [List.filter_append, List.filter_append]
        exact (hk.queue hex).append_right _
    | atPipe id kind f =>
      obtain ⟨m,rfl⟩ := hs
      exact (hk.atPipe h.distinct id kind m).append []
    | scribble id bytes => exact (hk.scribble id bytes).append []
    | present id bytes caller area waveform marker =>
      have hd := h.distinct.scribble id bytes
      have hdrawn := hk.scribble id bytes
      generalize hv' : { v with image := (Step.act (.scribble id bytes)).draw v.id v.image } = v'
        at hdrawn
      have hr : (d.perform (.present id bytes caller area waveform marker)).Retired v' asked :=
        (deeds_repaint .refl trivial _ _ _ (.inr trivial)).edits.retired (s := .everything) hd
          (hv' ▸ hv) hdrawn
      exact (hv' ▸ hr).append []
    | _ => exact absurd (fun _ ha => by cases ha; rfl) he
  | _ => exact absurd (fun _ ha => by cases ha) he

theorem Retired.run (h : Occurs d) (hv : v.state = .closed) (hk : d.Retired v asked)
    (steps : List Step) (hs : ∀ s ∈ steps, s.Honest) :
    (steps.foldl take d).Retired
      { v with image := steps.foldl (fun image s => s.draw v.id image) v.image }
      (asked ++ steps.flatMap Step.enqueued) := by
  induction steps generalizing d v asked with
  | nil => exact hk.append []
  | cons s steps ih =>
    have hstep := hk.step h hv s (hs s List.mem_cons_self)
    rw [List.flatMap_cons, ← List.append_assoc]
    exact ih (v := { v with image := s.draw v.id v.image }) (h.step s) hv hstep fun t ht =>
      hs t (List.mem_cons_of_mem s ht)

theorem closePipes_eq (hd : d.Distinct) (id : WindowId) (kinds : List ChannelKind) : ∃ trace,
    kinds.foldl (fun d kind => d.closePipe id kind) d = { d with
      windows := d.windows.map fun w => if w.id = id then w.hungUp kinds else w
      trace } := by
  induction kinds generalizing d with
  | nil => exact ⟨d.trace,by simp [Window.hungUp]⟩
  | cons kind kinds ih =>
    have hd' : (d.closePipe id kind).Distinct :=
      (Edit.closePipe (s := .everything) id kind trivial).distinct hd
    obtain ⟨trace,he⟩ := usePipe_eq hd id kind Channel.close
    obtain ⟨trace',he'⟩ := ih hd'
    refine ⟨trace',he'.trans ?_⟩
    have hid : ∀ w : Window, (w.setPipe (w.pipe kind).close.1 kind).id = w.id := fun w => by
      cases kind <;> rfl
    rw [closePipe_eq_usePipe, he, map_map_window hid]
    rfl

def shut (d : Desktop) (id : WindowId) : Desktop :=
  ChannelKind.all.foldl (fun d kind => d.closePipe id kind) (d.modify id fun w =>
    { w with state := w.state.close, touching := [], enabled := false })

theorem shut_eq (hd : d.Distinct) (id : WindowId) : ∃ trace, d.shut id = { d with
    windows := d.windows.map fun w => if w.id = id then w.closed else w
    trace } := by
  have hm : (d.modify id fun w =>
      { w with state := w.state.close, touching := [], enabled := false }).Distinct :=
    hd.of_map (fun w => by split <;> rfl) rfl rfl rfl
  obtain ⟨trace,he⟩ := closePipes_eq hm id ChannelKind.all
  refine ⟨trace,he.trans ?_⟩
  rw [modify, map_map_window]
  · rfl
  · exact fun _ => rfl

theorem retired_forget (hd : d.Distinct) {r : Registry} (hr : d.registry = some r) {w : Window}
    (hw : w ∈ d.windows) (hid : w.id ∈ r.order) (hrest : w.Rests w) :
    (d.forget w.id).Retired w d.queue := by
  have hforget : ∃ deferred, d.forget w.id = { { d with
      registry := some { r with toWindowMap := r.remove w.id } }.sortWindows with deferred } := by
    simp only [forget, hr, if_pos ((r.has_iff w.id).2 hid)]
    exact ⟨_,rfl⟩
  obtain ⟨deferred,hforget⟩ := hforget
  have hout : w.id ∉ (r.remove w.id).order := by simp
  obtain ⟨level,trace,sorted,he,-,hlevel,hsorted⟩ := sortWindows_relevel (d :=
    { d with registry := some { r with toWindowMap := r.remove w.id } }) rfl
  have hz : ∀ u : Window, u.id = w.id → level u = u.z := by
    refine fun u hu => hlevel u fun hl => ?_
    obtain ⟨⟨r',hr',hid'⟩,-⟩ := hl
    obtain rfl := Option.some.inj hr'
    exact hout (hu ▸ hid')
  rw [hforget, he]
  refine ⟨⟨⟨_,List.mem_append_left _ (List.mem_map_of_mem hw),rfl⟩,fun u hu huid => ?_,
    fun u hu huid => ?_⟩,fun ⟨r',hr',hid'⟩ => ?_,fun r' hr' hid' => ?_,fun _ => .refl _⟩
  · obtain ⟨u',hu',rfl⟩ := List.mem_map.1 hu
    obtain rfl : u' = w := List.inj_on_of_nodup_map hd.nodup_windows hu' hw huid
    exact ⟨hrest.face,hz u' rfl,hrest.enabled,hrest.silent⟩
  · have hn := hd.nodup
    rw [List.map_append] at hn
    exact (List.disjoint_of_nodup_append hn (List.mem_map_of_mem hw)
      (huid ▸ List.mem_map_of_mem hu)).elim
  · obtain rfl := Option.some.inj hr'
    exact hout hid'
  · obtain rfl := Option.some.inj hr'
    exact hout (hsorted hid')

theorem Occurs.unclosed (h : Occurs d) {id : WindowId} (hl : d.lists id) {w : Window}
    (hw : d.window? id = some w) : w.state ≠ .closed := by
  obtain ⟨r,hr,hid⟩ := hl
  exact h.sound.unclosed _ _ (stack_look hr) id hid w.face (by simp [look, hw])

theorem logCall_frame (d : Desktop) (id : WindowId) (caller : Group) :
    ∃ trace, d.logCall id caller = { d with trace } := by
  unfold logCall
  split
  · exact ⟨_,rfl⟩
  · exact ⟨_,rfl⟩

/-- A permitted call brings the window into its last state and takes it out of the stack; what is
left to be done are notes, and a repaint of what lay below. -/
theorem close_edits {id : WindowId} {w : Window} (hw : d.window? id = some w)
    (ho : w.state ≠ .closed) {caller : Group} (hp : d.permits id caller = true) : ∃ trace,
    Edits .everything ((({ d with trace }.shut id).log .debug "Closed window").notify id
      (.stateChanged .closed) |>.forget id) (d.close id caller) := by
  obtain ⟨trace,hlog⟩ := logCall_frame d id caller
  refine ⟨trace,?_⟩
  rw [close, guardedDo_permitted hw hp, hlog]
  dsimp only
  rw [if_neg ho]
  split
  · exact (deeds_damageAll (deeds_notify .refl ..) _).edits
  · exact edits_notify .refl ..

theorem retired_close (h : Occurs d) {id : WindowId} (hl : d.lists id) {w : Window}
    (hw : d.window? id = some w) {caller : Group} (hp : d.permits id caller = true) :
    (d.close id caller).Retired w.closed d.queue := by
  obtain ⟨trace,he⟩ := close_edits hw (h.unclosed hl hw) hp
  obtain rfl := id_of_window? d hw
  obtain ⟨r,hr,hid⟩ := hl
  have hd : ({ d with trace } : Desktop).Distinct := ⟨h.distinct.nodup,h.distinct.lt⟩
  obtain ⟨trace',hs⟩ := shut_eq hd w.id
  rw [hs] at he
  have hmem : w.closed ∈ d.windows.map fun v => if v.id = w.id then v.closed else v :=
    List.mem_map.2 ⟨w,mem_of_window? hw,if_pos rfl⟩
  generalize hc : ((({ { d with trace } with
    windows := d.windows.map fun v => if v.id = w.id then v.closed else v
    trace := trace' } : Desktop).log .debug "Closed window").notify w.id
      (.stateChanged .closed)) = c at he
  have hcd : c.Distinct := by
    rw [← hc]
    exact hd.of_map (fun v => by split <;> rfl) rfl rfl rfl
  have hf : (c.forget w.closed.id).Retired w.closed c.queue :=
    retired_forget hcd (hc ▸ hr) (hc ▸ hmem) hid w.rests_closed
  have hfd : (c.forget w.id).Distinct :=
    (deeds_forget (s := .everything) .refl trivial trivial).edits.keeps Edit.distinct hcd
  have hq : c.queue = d.queue := by rw [← hc]; rfl
  exact hq ▸ he.retired hfd rfl hf

theorem lists_of_openWindows {w : Window} (h : w ∈ d.openWindows) : d.lists w.id := by
  unfold openWindows at h
  split at h
  · cases h
  · rename_i r hr
    obtain ⟨id,hid,hw⟩ := List.mem_filterMap.1 h
    rw [r.inOrder_eq] at hid
    exact ⟨r,hr,id_of_window? d hw ▸ hid⟩

namespace Retired

variable (h : d.Retired v asked)
include h

theorem not_listed (caller : Group) (visibleOnly : Bool) :
    v.id ∉ d.listWindows caller visibleOnly := by
  intro hm
  obtain ⟨w,hw,hid⟩ := List.mem_map.1 hm
  exact h.unlisted (hid ▸ lists_of_openWindows (List.mem_of_mem_filter hw))

theorem not_found (caller : Group) : (d.getWindow caller v.id).2 = none := by
  have hnone : d.openWindow? v.id = none := by
    unfold openWindow?
    split
    · rfl
    · rename_i r hr
      exact if_neg fun hhas => h.unlisted ⟨r,hr,(r.has_iff v.id).1 hhas⟩
  rw [getWindow, hnone]

theorem not_sorted : ∀ w ∈ d.sortedWindows, w.id ≠ v.id := by
  intro w hw hid
  unfold sortedWindows at hw
  split at hw
  · cases hw
  · rename_i r hr
    obtain ⟨j,hj,hjw⟩ := List.mem_filterMap.1 hw
    exact h.unsorted r hr (hid ▸ id_of_window? d hjw ▸ hj)

theorem no_pipe (kind : ChannelKind) (caller : Group) : (d.pipe v.id kind caller).2 = false := by
  obtain ⟨hfind,-⟩ := logCall_same (d := d) v.id caller
  simp only [pipe, guarded]
  split
  · rename_i w hw
    have hw' := hfind.symm.trans hw
    split
    · exact ((h.here w (mem_of_window? hw') (id_of_window? d hw')).silent kind).1
    · rfl
  · rfl

theorem clientEnd (kind : ChannelKind) : ∃ c, d.clientEnd? v.id kind = some c ∧
    c.isOpen = false ∧ c.outgoing = (v.pipe kind).outgoing := by
  obtain ⟨u,hu,huid⟩ := h.known
  have hsome : ((d.windows ++ d.ended).find? (·.id == v.id)).isSome = true :=
    List.find?_isSome.2 ⟨u,hu,by simpa using huid⟩
  obtain ⟨w,hw⟩ := Option.isSome_iff_exists.1 hsome
  have hid : w.id = v.id := by simpa using List.find?_some hw
  have hsilent : v.Silent w := by
    rcases List.mem_append.1 (List.mem_of_find?_eq_some hw) with hm | hm
    · exact (h.here w hm hid).silent
    · exact h.gone w hm hid
  exact ⟨w.pipe kind,by rw [clientEnd?, hw]; rfl,hsilent kind⟩

end Retired

/-- Once a window of the stack has been closed it stays as it was closed, whatever follows. Its
image has what its client draws into it, and repaints are only queued past all calls. The last its
client gets on a pipe is what the socket takes of one message. Calls that close windows among others
are steps of their own. -/
theorem close_terminal (h : Occurs d) {id : WindowId} (hl : d.lists id) {w : Window}
    (hw : d.window? id = some w) {caller : Group} (hp : d.permits id caller = true)
    (steps : List Step) (hs : ∀ s ∈ steps, s.Honest) :
    let e := steps.foldl take (d.close id caller)
    (∀ v, e.window? id = some v → v.state = .closed ∧ v.enabled = false ∧
      v.geometry = w.geometry ∧ v.z = w.z ∧
      v.image = steps.foldl (fun image s => s.draw id image) w.image) ∧
    ((∀ caller visibleOnly, id ∉ e.listWindows caller visibleOnly) ∧
      (∀ caller, (e.getWindow caller id).2 = none) ∧
      (∀ v ∈ e.sortedWindows, v.id ≠ id) ∧ ∀ v ∈ e.visibleStack, v.id ≠ id) ∧
    (e.alive id → (e.queue.filter (·.window == some id)).Sublist
      ((d.queue ++ steps.flatMap Step.enqueued).filter (·.window == some id))) ∧
    (∀ kind caller, (e.pipe id kind caller).2 = false) ∧
    (∀ kind, ∃ c, e.clientEnd? id kind = some c ∧ c.isOpen = false ∧
      c.outgoing = (w.pipe kind).outgoing ++ (w.pipe kind).farewell) ∧
    ∀ s : Step, s.Honest → Stepwise d (d.take s) := by
  intro e
  obtain rfl := id_of_window? d hw
  have hk := (retired_close h hl hw hp).run (h.step (.act (.close w.id caller))) rfl steps hs
  refine ⟨fun v hv => ?_,⟨hk.not_listed,hk.not_found,hk.not_sorted,fun v hv =>
    hk.not_sorted v (List.mem_of_mem_filter hv)⟩,hk.queue,hk.no_pipe,fun kind => ?_,stepwise d⟩
  · have hrests := hk.here v (mem_of_window? hv) (id_of_window? _ hv)
    exact ⟨congrArg (·.state) hrests.face,hrests.enabled,congrArg (·.geometry) hrests.face,
      hrests.z,congrArg (·.image) hrests.face⟩
  · obtain ⟨c,hc,hopen,hout⟩ := hk.clientEnd kind
    refine ⟨c,hc,hopen,hout.trans ?_⟩
    have hpipe := Window.pipe_closed w kind
    change (w.closed.pipe kind).outgoing = _
    rw [hpipe]
    exact (Channel.close_frame _).2

/-- A window is closed, then raised, shown, moved and repainted. -/
theorem close_terminal_small :
    let d := ((fresh smallPanel .anonymous {} 24 1).perform
      (.create 100 (some ⟨1,1,2,2⟩) .rgb16)).perform (.setVisible 0 100 true)
    let e := [Step.act (.raise 0 100),.act (.setVisible 0 100 true),.act (.moveTo 0 100 2 2),
      .act (.repaint 0 100 none none 5)].foldl take (d.close 0 100)
    Reachable d ∧ d.permits 0 100 = true ∧ (d.window? 0).map (·.state) = some .lowered ∧
      (∀ v, e.window? 0 = some v → v.state = .closed) ∧
      ∀ kind, ∃ c, e.clientEnd? 0 kind = some c ∧ c.isOpen = false := by
  intro d e
  have h : Reachable d := .act _ (.act _ (.fresh smallPanel .anonymous {} 24 1 {} rfl))
  have hsome : (d.window? 0).isSome = true := by decide +kernel
  obtain ⟨w,hw⟩ := Option.isSome_iff_exists.1 hsome
  have hp : d.permits 0 100 = true := by decide +kernel
  have hl : d.lists 0 := by
    have hr : (d.registry.map (·.order)) = some [0] := by decide +kernel
    obtain ⟨r,hr,ho⟩ := Option.map_eq_some_iff.1 hr
    exact ⟨r,hr,by rw [ho]; decide⟩
  have ht := close_terminal (.reachable h) hl hw hp [.act (.raise 0 100),
    .act (.setVisible 0 100 true),.act (.moveTo 0 100 2 2),.act (.repaint 0 100 none none 5)]
    (by simp [Step.Honest])
  refine ⟨h,hp,by decide +kernel,fun v hv => (ht.1 v hv).1,fun kind => ?_⟩
  obtain ⟨c,hc,hopen,-⟩ := ht.2.2.2.2.1 kind
  exact ⟨c,hc,hopen⟩

end Desktop

end InkCompositor
