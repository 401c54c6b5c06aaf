import Mathlib
import InkCompositor.Proofs.Desktop.Alterations

/-!
# Images and the windows that hold them

An image is as large as its window, a window without one has been refused it,
and the images in use are those that windows hold, each held by one.
-/

set_option autoImplicit false

namespace InkCompositor.Desktop

/-- How the last attempt to allocate an image for a window went. -/
def lastAttempt? (d : Desktop) (id : WindowId) : Option Bool :=
  ((d.attempts.filter (·.1 == id)).getLast?).map (·.2)

def imageIds (windows : List Window) : List RasterId :=
  windows.filterMap fun w => w.image.map (·.id)

structure Accounted (d : Desktop) : Prop where
  fitting : ∀ w ∈ d.windows, ∀ r, w.image = some r → w.geometry.isEmpty = false ∧
    (r.width : Int) = w.geometry.width.toInt ∧ (r.height : Int) = w.geometry.height.toInt ∧
    r.format = w.format
  lacking : ∀ w ∈ d.windows, w.geometry.isEmpty = false → w.image = none →
    d.lastAttempt? w.id = some false
  live : d.pool.live.Perm (imageIds d.windows)
  nodup : d.pool.live.Nodup
  fresh : ∀ id ∈ d.pool.live, id < d.pool.next

variable {s : Scope} {d e : Desktop}

theorem Accounted.of_map (h : d.Accounted) {g : Window → Window}
    (hw : e.windows = d.windows.map g) (hl : e.pool.live = d.pool.live)
    (hn : e.pool.next = d.pool.next) (ha : e.attempts = d.attempts) (hid : ∀ w, (g w).id = w.id)
    (hsize : ∀ w ∈ d.windows, (g w).geometry.width = w.geometry.width ∧
      (g w).geometry.height = w.geometry.height ∧ (g w).format = w.format)
    (himage : ∀ w ∈ d.windows, (g w).image = none ∧ w.image = none ∨
      ∃ r r', (g w).image = some r' ∧ w.image = some r ∧ r'.Alike r) : e.Accounted := by
  have hempty : ∀ w ∈ d.windows, (g w).geometry.isEmpty = w.geometry.isEmpty := by
    intro w hw
    obtain ⟨h1,h2,-⟩ := hsize w hw
    rw [Rect.isEmpty, Rect.isEmpty, Rect.size, Rect.size, h1, h2]
  refine ⟨fun v hv r' hr' => ?_,fun v hv hgeo hi => ?_,?_,hl ▸ h.nodup,hl ▸ hn ▸ h.fresh⟩
  · rw [hw] at hv
    obtain ⟨w,hwm,rfl⟩ := List.mem_map.1 hv
    obtain ⟨h1,h2,h3⟩ := hsize w hwm
    rcases himage w hwm with ⟨hnone,-⟩ | ⟨r,r'',hg,hr,halike⟩
    · rw [hnone] at hr'
      cases hr'
    · obtain rfl := Option.some.inj (hr'.symm.trans hg)
      rw [hempty w hwm, h1, h2, h3, halike.width, halike.height, halike.format]
      exact h.fitting w hwm r hr
  · rw [hw] at hv
    obtain ⟨w,hwm,rfl⟩ := List.mem_map.1 hv
    rw [hempty w hwm] at hgeo
    rw [lastAttempt?, ha, hid]
    rcases himage w hwm with ⟨-,hnone⟩ | ⟨r,r',hg,-,-⟩
    · exact h.lacking w hwm hgeo hnone
    · rw [hg] at hi
      cases hi
  · rw [hl, hw, imageIds, List.filterMap_map]
    refine h.live.trans (.of_eq (List.filterMap_congr fun w hwm => ?_))
    rcases himage w hwm with ⟨h1,h2⟩ | ⟨r,r',h1,h2,halike⟩
    · simp [h1, h2]
    · simp [h1, h2, halike.id]

theorem Accounted.moved (h : d.Accounted) {g : Window → Window} (hm : Moved s d e g) :
    e.Accounted := by
  refine h.of_map hm.windows hm.live hm.nextImage hm.attempts hm.id (fun w hw => ?_) fun w hw => ?_
  · exact ⟨(hm.follows w hw).altered.width,(hm.follows w hw).altered.height,
      (hm.follows w hw).altered.format⟩
  · rw [(hm.follows w hw).altered.image]
    cases hi : w.image with
    | none => exact .inl ⟨rfl,rfl⟩
    | some r => exact .inr ⟨r,r,rfl,rfl,.refl r⟩

theorem exists_split (hd : d.Distinct) {w : Window} (hw : d.window? w.id = some w) :
    ∃ before after, d.windows = before ++ w :: after ∧ ∀ v ∈ before ++ after, v.id ≠ w.id := by
  obtain ⟨before,after,he⟩ := List.append_of_mem (mem_of_window? hw)
  refine ⟨before,after,he,fun v hv hid => ?_⟩
  have hn := hd.nodup_windows
  rw [he] at hn
  have hp : ((before ++ w :: after).map (·.id)).Perm (w.id :: (before ++ after).map (·.id)) :=
    List.perm_middle.map _
  have hc := (List.nodup_cons.1 (hp.nodup_iff.1 hn)).1
  exact hc (hid ▸ List.mem_map_of_mem (f := (·.id)) hv)

theorem Accounted.freed (h : d.Accounted) {w : Window} {before after : List Window}
    (he : d.windows = before ++ w :: after) :
    (d.freed w).Perm (imageIds (before ++ after)) ∧ (d.freed w).Nodup ∧
      ∀ id ∈ d.freed w, id < d.pool.next := by
  have hlive := h.live
  rw [he, imageIds] at hlive
  unfold Desktop.freed
  cases hi : w.image with
  | none =>
    refine ⟨hlive.trans (.of_eq ?_),h.nodup,h.fresh⟩
    simp [imageIds, hi]
  | some r =>
    have hp : d.pool.live.Perm (r.id :: imageIds (before ++ after)) := by
      refine hlive.trans ?_
      rw [List.filterMap_append, List.filterMap_cons_some (by rw [hi]; rfl), imageIds,
        List.filterMap_append]
      exact List.perm_middle
    have hn := List.nodup_cons.1 (hp.nodup_iff.1 h.nodup)
    refine ⟨?_,h.nodup.filter _,fun id hid => h.fresh id (List.mem_of_mem_filter hid)⟩
    refine (hp.filter _).trans (.of_eq ?_)
    rw [List.filter_cons_of_neg (by simp)]
    exact Look.filter_ne_self hn.1

theorem lastAttempt_append_self {attempts : List (WindowId × Bool)} {id : WindowId} {given : Bool}
    (ha : e.attempts = attempts ++ [(id,given)]) : e.lastAttempt? id = some given := by
  rw [lastAttempt?, ha, List.filter_append]
  simp

theorem lastAttempt_append_other {rest : List (WindowId × Bool)} {id : WindowId}
    (ha : e.attempts = d.attempts ++ rest) (hr : ∀ p ∈ rest, p.1 ≠ id) :
    e.lastAttempt? id = d.lastAttempt? id := by
  have hnil : rest.filter (·.1 == id) = [] :=
    List.filter_eq_nil_iff.2 fun p hp => by simpa using hr p hp
  rw [lastAttempt?, ha, List.filter_append, hnil, List.append_nil, lastAttempt?]

theorem Accounted.refitted (h : d.Accounted) (hd : d.Distinct) {w : Window} {geometry : Rect}
    {image : Option Raster} (hw : d.window? w.id = some w)
    (hr : Refitted d e w geometry image) : e.Accounted := by
  obtain ⟨before,after,hsplit,hne⟩ := exists_split hd hw
  obtain ⟨hfp,hfn,hff⟩ := h.freed hsplit
  have hwin : e.windows = before ++ { w with geometry, image } :: after := by
    have hid : ∀ l : List Window, (∀ v ∈ l, v.id ≠ w.id) →
        l.map (fun v => if v.id = w.id then { v with geometry, image } else v) = l := by
      intro l hl
      exact (List.map_congr_left fun v hv => if_neg (hl v hv)).trans (List.map_id' l)
    rw [hr.windows, hsplit, List.map_append, List.map_cons, if_pos rfl,
      hid before fun v hv => hne v (List.mem_append_left _ hv),
      hid after fun v hv => hne v (List.mem_append_right _ hv)]
  have hold : ∀ v ∈ before ++ after, v ∈ d.windows := by
    intro v hv
    rw [hsplit]
    exact (List.mem_append.1 hv).elim (List.mem_append_left _)
      fun hv => List.mem_append_right _ (List.mem_cons_of_mem _ hv)
  have hmem : ∀ v ∈ e.windows, v = { w with geometry, image } ∨ v ∈ before ++ after := by
    intro v hv
    rw [hwin] at hv
    exact List.mem_cons.1 (List.perm_middle.mem_iff.1 hv)
  have hnew : ∀ id ∈ image.toList.map (·.id), id = d.pool.next ∧ id < e.pool.next := by
    intro id hid
    obtain ⟨r,hri,rfl⟩ := List.mem_map.1 hid
    obtain ⟨-,-,-,-,h1,h2⟩ := hr.fits r (Option.mem_toList.1 hri)
    exact ⟨h1,h2⟩
  refine ⟨fun v hv r hi => ?_,fun v hv hgeo hi => ?_,?_,?_,fun id hid => ?_⟩
  · rcases hmem v hv with rfl | hv
    · obtain ⟨hge,hwidth,hheight,hformat,-⟩ := hr.fits r hi
      obtain ⟨h1,h2⟩ := (Rect.not_isEmpty_iff geometry).1 hge
      refine ⟨hge,?_,?_,hformat⟩
      · rw [hwidth]
        exact Int.toNat_of_nonneg h1.le
      · rw [hheight]
        exact Int.toNat_of_nonneg h2.le
    · exact h.fitting v (hold v hv) r hi
  · have ha := hr.attempts
    rcases hmem v hv with rfl | hv
    · obtain rfl : image = none := hi
      rw [if_neg (by simpa using hgeo)] at ha
      exact lastAttempt_append_self ha
    · rw [lastAttempt_append_other ha fun p hp => ?_]
      · exact h.lacking v (hold v hv) hgeo hi
      · split at hp
        · cases hp
        · rw [List.mem_singleton.1 hp]
          exact (hne v hv).symm
  · rw [hr.live, hwin, imageIds, List.filterMap_append]
    refine (hfp.append_right _).trans ?_
    rw [imageIds, List.filterMap_append]
    cases image with
    | none => simp
    | some r =>
      rw [List.append_assoc]
      exact (List.perm_append_singleton r.id _).append_left _
  · rw [hr.live]
    refine List.nodup_append.2 ⟨hfn,?_,fun i hi j hj hij => ?_⟩
    · cases image <;> simp
    · exact absurd (hff i hi) (by rw [hij, (hnew j hj).1]; exact lt_irrefl _)
  · rw [hr.live] at hid
    rcases List.mem_append.1 hid with hid | hid
    · exact (hff id hid).trans_le hr.nextImage
    · exact (hnew id hid).2

theorem Accounted.added (h : d.Accounted) {w : Window} (hi : w.image = none)
    (hg : w.geometry = Rect.none) : (d.added w).Accounted := by
  refine ⟨fun v hv r hr => ?_,fun v hv hgeo hn => ?_,?_,h.nodup,h.fresh⟩
  · rcases List.mem_append.1 hv with hv | hv
    · exact h.fitting v hv r hr
    · rw [List.mem_singleton.1 hv, hi] at hr
      cases hr
  · rcases List.mem_append.1 hv with hv | hv
    · exact h.lacking v hv hgeo hn
    · rw [List.mem_singleton.1 hv, hg] at hgeo
      exact absurd hgeo (by decide)
  · refine h.live.trans (.of_eq ?_)
    simp [imageIds, hi]

theorem Accounted.ended (h : d.Accounted) (hd : d.Distinct) {w : Window}
    (hw : d.window? w.id = some w) (he : Ended d e w) : e.Accounted := by
  obtain ⟨before,after,hsplit,hne⟩ := exists_split hd hw
  obtain ⟨hfp,hfn,hff⟩ := h.freed hsplit
  have hwin : e.windows = before ++ after := by
    have hid : ∀ l : List Window, (∀ v ∈ l, v.id ≠ w.id) → l.filter (·.id != w.id) = l :=
      fun l hl => List.filter_eq_self.2 fun v hv => bne_iff_ne.2 (hl v hv)
    rw [he.windows, hsplit, List.filter_append, List.filter_cons_of_neg (by simp),
      hid before fun v hv => hne v (List.mem_append_left _ hv),
      hid after fun v hv => hne v (List.mem_append_right _ hv)]
  have hold : ∀ v ∈ e.windows, v ∈ d.windows := by
    intro v hv
    rw [he.windows] at hv
    exact List.mem_of_mem_filter hv
  refine ⟨fun v hv => h.fitting v (hold v hv),fun v hv hgeo hi => ?_,?_,he.live ▸ hfn,
    fun id hid => ?_⟩
  · rw [lastAttempt?, he.attempts]
    exact h.lacking v (hold v hv) hgeo hi
  · rw [he.live, hwin]
    exact hfp
  · rw [he.live] at hid
    exact (hff id hid).trans_eq he.nextImage.symm

theorem Edit.accounted (hd : d.Distinct) (h : Edit s d e) (ha : d.Accounted) : e.Accounted := by
  rcases h.cases hd with ⟨g,hm⟩ | ⟨w,geometry,image,-,hw,-,hr⟩ | ⟨w,-,-,hi,hg,rfl⟩ | ⟨w,-,hw,he⟩
  · exact ha.moved hm
  · exact ha.refitted hd hw hr
  · exact ha.added hi hg
  · exact ha.ended hd hw he

theorem Accounted.atPipe (h : d.Accounted) (id : WindowId) (kind : ChannelKind)
    (f : Channel → Channel) : (d.atPipe id kind f).Accounted := by
  unfold Desktop.atPipe
  split
  · exact h
  rename_i c _
  have hsame : ∀ w : Window, (if w.id = id then w.setPipe (f c) kind else w).face = w.face := by
    intro w
    split
    · exact w.face_setPipe ..
    · rfl
  refine h.of_map rfl rfl rfl rfl (fun w => congrArg (·.id) (hsame w)) (fun w _ => ?_) fun w _ => ?_
  · exact ⟨congrArg (·.geometry.width) (hsame w),congrArg (·.geometry.height) (hsame w),
      congrArg (·.format) (hsame w)⟩
  · rw [show (if w.id = id then w.setPipe (f c) kind else w).image = w.image from
      congrArg (·.image) (hsame w)]
    cases hi : w.image with
    | none => exact .inl ⟨rfl,rfl⟩
    | some r => exact .inr ⟨r,r,rfl,rfl,.refl r⟩

theorem Accounted.scribble (h : d.Accounted) (id : WindowId) (bytes : Raster → Array UInt8) :
    (d.scribble id bytes).Accounted := by
  refine h.of_map rfl rfl rfl rfl (fun w => ?_) (fun w _ => ?_) fun w _ => ?_
  · split <;> rfl
  · split <;> exact ⟨rfl,rfl,rfl⟩
  · cases hi : w.image with
    | none => exact .inl ⟨by split <;> simp [hi],rfl⟩
    | some r =>
      by_cases hid : w.id = id
      · exact .inr ⟨r,r.overwrite (bytes r),by simp [hid, hi],rfl,r.overwrite_alike _⟩
      · exact .inr ⟨r,r,by simp [hid, hi],rfl,.refl r⟩

theorem Reachable.accounted (h : Reachable d) : d.Distinct ∧ d.Accounted := by
  induction h with
  | fresh =>
    exact ⟨⟨List.nodup_nil,fun _ hw => (nomatch hw)⟩,fun _ hw => (nomatch hw),
      fun _ hw => (nomatch hw),.nil,.nil,fun _ hid => (nomatch hid)⟩
  | act a h ih =>
    refine perform_keeps (P := fun d => d.Distinct ∧ d.Accounted)
      (fun he hd => ⟨he.distinct hd.1,he.accounted hd.1 hd.2⟩)
      (fun queue hd => ⟨⟨hd.1.nodup,hd.1.lt⟩,hd.2.fitting,hd.2.lacking,hd.2.live,hd.2.nodup,
        hd.2.fresh⟩)
      (fun id kind f hd => ⟨hd.1.atPipe id kind f,hd.2.atPipe id kind f⟩)
      (fun id bytes hd => ⟨hd.1.scribble id bytes,hd.2.scribble id bytes⟩) h.sound a ih

/-- A window that exists or will exist has this format, whatever happens. -/
structure Formatted (d : Desktop) (id : WindowId) (format : PixelFormat) : Prop where
  lt : id < d.nextWindow
  format : ∀ w ∈ d.windows, w.id = id → w.format = format

theorem Formatted.of_map {id : WindowId} {format : PixelFormat} (h : d.Formatted id format)
    {g : Window → Window} (hw : e.windows = d.windows.map g) (hn : e.nextWindow = d.nextWindow)
    (hg : ∀ w ∈ d.windows, (g w).id = w.id ∧ (g w).format = w.format) : e.Formatted id format := by
  refine ⟨hn ▸ h.lt,fun v hv hvid => ?_⟩
  rw [hw] at hv
  obtain ⟨w,hw,rfl⟩ := List.mem_map.1 hv
  rw [(hg w hw).2]
  exact h.format w hw ((hg w hw).1 ▸ hvid)

theorem Edit.formatted (hd : d.Distinct) (h : Edit s d e) {id : WindowId} {format : PixelFormat}
    (hf : d.Formatted id format) : e.Formatted id format := by
  rcases h.cases hd with ⟨g,hm⟩ | ⟨w,geometry,image,-,hw,-,hr⟩ | ⟨w,-,hid,-,-,rfl⟩ | ⟨w,-,hw,he⟩
  · exact hf.of_map hm.windows hm.nextWindow fun w hw =>
      ⟨hm.id w,(hm.follows w hw).altered.format⟩
  · exact hf.of_map hr.windows hr.nextWindow fun v _ => by split <;> exact ⟨rfl,rfl⟩
  · refine ⟨hf.lt.trans (hid ▸ Nat.lt_succ_self _),fun v hv hvid => ?_⟩
    rcases List.mem_append.1 hv with hv | hv
    · exact hf.format v hv hvid
    · rw [List.mem_singleton.1 hv, hid] at hvid
      exact absurd hf.lt (hvid ▸ lt_irrefl _)
  · refine ⟨he.nextWindow ▸ hf.lt,fun v hv hvid => ?_⟩
    rw [he.windows] at hv
    exact hf.format v (List.mem_of_mem_filter hv) hvid

theorem formatted_added (hd : d.Distinct) {w : Window} (hw : w.id = d.nextWindow) :
    (d.added w).Formatted w.id w.format := by
  refine ⟨Nat.lt_succ_self _,fun v hv hid => ?_⟩
  rcases List.mem_append.1 hv with hv | hv
  · exact absurd (hid.trans hw) (hd.lt v (List.mem_append_left _ hv)).ne
  · rw [List.mem_singleton.1 hv]

theorem formatted_opened (hs : d.look.Sound) (hd : d.Distinct) {r : Registry}
    (hr : d.registry = some r) (owner : Group) (isSystem : Bool) (geometry : Option Rect)
    (format : PixelFormat) :
    (d.openWindow r owner isSystem geometry format).1.Distinct ∧
      (d.openWindow r owner isSystem geometry format).1.Formatted d.nextWindow format := by
  have hn : d.window? d.nextWindow = none := window?_nextWindow hs.toReady
  have hinstall : Edits .everything (d.added (d.newWindow r owner isSystem format))
      (d.installed (d.newWindow r owner isSystem format) (geometry.getD d.screen)) :=
    edits_refurnish (edits_log .refl .debug "Created window") _ trivial
      ((window?_added (d.newWindow r owner isSystem format) hn _).trans (if_pos rfl)) nofun
  have hopen : Edits .everything (d.installed (d.newWindow r owner isSystem format)
      (geometry.getD d.screen)) (d.openWindow r owner isSystem geometry format).1 :=
    (deeds_openInstalled hn hr geometry .refl).edits
  exact Edits.keeps
    (P := fun d' => d'.Distinct ∧ d'.Formatted d.nextWindow format)
    (fun he h => ⟨he.distinct h.1,he.formatted h.1 h.2⟩) (hinstall.trans hopen)
    ⟨hd.added rfl,formatted_added hd (w := d.newWindow r owner isSystem format) rfl⟩

theorem formatted_created (h : Reachable d) {geometry : Option Rect} {format : PixelFormat}
    {id : WindowId} (hc : (∃ caller, d.createWindow caller geometry format = (e,some id)) ∨
      d.createSystemWindow geometry format = (e,some id)) : e.Distinct ∧ e.Formatted id format := by
  rcases hc with ⟨caller,hc⟩ | hc
  · unfold createWindow at hc
    split at hc
    · cases hc
    rename_i r hr
    split at hc
    · cases hc
    · cases hc
      exact formatted_opened h.sound h.distinct hr ..
  · unfold createSystemWindow at hc
    split at hc
    · cases hc
    rename_i r hr
    cases hc
    exact (deeds_setVisible (s := .everything) .refl trivial ..).edits.keeps
      (P := fun d' => d'.Distinct ∧ d'.Formatted d.nextWindow format)
      (fun he h => ⟨he.distinct h.1,he.formatted h.1 h.2⟩)
      (formatted_opened h.sound h.distinct hr ..)

theorem formatted_perform (hs : d.look.Sound) {id : WindowId} {format : PixelFormat} (a : Action)
    (h : d.Distinct ∧ d.Formatted id format) :
    (d.perform a).Distinct ∧ (d.perform a).Formatted id format := by
  refine perform_keeps (P := fun d => d.Distinct ∧ d.Formatted id format)
    (fun he h => ⟨he.distinct h.1,he.formatted h.1 h.2⟩)
    (fun queue h => ⟨⟨h.1.nodup,h.1.lt⟩,h.2.lt,h.2.format⟩) (fun {d} j kind f h => ?_)
    (fun j bytes h => ?_) hs a h
  · refine ⟨h.1.atPipe j kind f,?_⟩
    unfold Desktop.atPipe
    split
    · exact h.2
    · exact h.2.of_map rfl rfl fun w _ => by
        split
        · cases kind <;> exact ⟨rfl,rfl⟩
        · exact ⟨rfl,rfl⟩
  · exact ⟨h.1.scribble j bytes,h.2.of_map rfl rfl fun w _ => by split <;> exact ⟨rfl,rfl⟩⟩

/-- Images fit their windows, windows go without one only where it was refused, and the images in
use are those that windows hold, one each. Windows have the format they were opened with. -/
theorem images_accounted (h : Reachable d) : d.Accounted ∧
    (∀ v ∈ d.windows, ∀ w ∈ d.windows, ∀ r s : Raster, v.image = some r → w.image = some s →
      r.id = s.id → v = w) ∧
    (∀ id, id ∈ d.pool.live ↔ ∃ w ∈ d.windows, ∃ r : Raster, w.image = some r ∧ r.id = id) ∧
    ∀ geometry format id e, ((∃ caller, d.createWindow caller geometry format = (e,some id)) ∨
        d.createSystemWindow geometry format = (e,some id)) →
      ∀ (as : List Action) (w : Window), (as.foldl perform e).window? id = some w →
        w.format = format := by
  have ha := h.accounted.2
  refine ⟨ha,fun v hv w hw r s hr hs hrs => ?_,fun id => ?_,
    fun geometry format id e hc as w hw => ?_⟩
  · by_contra hvw
    obtain ⟨before,after,he⟩ := List.append_of_mem hv
    have hn := ha.live.nodup_iff.1 ha.nodup
    rw [he] at hn hw
    have hp : (imageIds (before ++ v :: after)).Perm (r.id :: imageIds (before ++ after)) := by
      rw [imageIds, List.filterMap_append, List.filterMap_cons_some (by rw [hr]; rfl), imageIds,
        List.filterMap_append]
      exact List.perm_middle
    refine (List.nodup_cons.1 (hp.nodup_iff.1 hn)).1 (List.mem_filterMap.2 ⟨w,?_,?_⟩)
    · exact (List.mem_cons.1 (List.perm_middle.mem_iff.1 hw)).resolve_left (Ne.symm hvw)
    · rw [hs, Option.map_some, hrs]
  · rw [ha.live.mem_iff, imageIds, List.mem_filterMap]
    simp [Option.map_eq_some_iff]
  · have he : Reachable e := by
      rcases hc with ⟨caller,hc⟩ | hc
      · have ha := h.act (.create caller geometry format)
        rwa [perform, hc] at ha
      · have ha := h.act (.createSystem geometry format)
        rwa [perform, hc] at ha
    have hf := formatted_created h hc
    clear hc
    induction as generalizing e with
    | nil => exact hf.2.format w (mem_of_window? hw) (id_of_window? e hw)
    | cons a as ih => exact ih _ hw (he.act a) (formatted_perform he.sound a hf)

/-- A closed window keeps its image, and an open one has none any more for want of memory. -/
theorem images_accounted_refused :
    let d := (((((fresh smallPanel .anonymous {} 24 1).perform
      (.create 100 (some ⟨1,1,2,2⟩) .rgb16)).perform (.close 0 100)).perform
        (.create 100 none .rgb32)).perform (.exhaust fun _ _ => true)).perform (.resize 1 100 3 3)
    Reachable d ∧ d.Accounted ∧ d.pool.live = [1] ∧ d.lastAttempt? 1 = some false ∧
      ∃ w ∈ d.windows, ∃ r : Raster, w.image = some r ∧ r.id = 1 := by
  intro d
  have h : Reachable d :=
    .act _ (.act _ (.act _ (.act _ (.act _ (.fresh smallPanel .anonymous {} 24 1 {} rfl)))))
  have hl : d.pool.live = [1] := by decide +kernel
  obtain ⟨ha,-,hi,-⟩ := images_accounted h
  refine ⟨h,ha,hl,by decide +kernel,(hi 1).1 ?_⟩
  rw [hl]
  exact List.mem_singleton_self 1

end InkCompositor.Desktop
