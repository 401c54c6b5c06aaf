import Mathlib
import InkCompositor.Proofs.Desktop.Beats
import InkCompositor.Proofs.Desktop.Closing
import InkCompositor.Proofs.Desktop.Roster

/-!
# Closed windows that are kept

A window that is closed leaves the stack and is kept. It is given up when
closed windows are released, and that happens only once nothing is queued and
no wait refers to it.
-/

set_option autoImplicit false

namespace InkCompositor

open Wire

namespace Desktop

/-- The windows in the stack, in the order of their creation. -/
def listed (d : Desktop) : List WindowId := d.roster.listed.getD []

def isClosed (d : Desktop) (id : WindowId) : Bool := (d.window? id).any (·.state == .closed)

/-- The windows of the stack that are closed by the time of `e`. -/
def closings (d e : Desktop) : List WindowId := d.listed.filter e.isClosed

/-- The windows that are no longer kept by the time of `e`. -/
def releases (d e : Desktop) : List WindowId := d.deferred.filter (· ∉ e.deferred)

def reaps (d : Desktop) : Beat → Bool
  | .step (.act .paintNext) => d.queue.isEmpty
  | _ => false

variable {s : Scope} {d e : Desktop} {id : WindowId}

theorem mem_listed : id ∈ d.listed ↔ d.lists id := by
  unfold listed roster lists
  cases d.registry <;> simp

theorem listed_of_roster (h : e.roster = d.roster) : e.listed = d.listed := by
  rw [listed, h, listed]

theorem nodup_listed (h : d.look.Sound) : d.listed.Nodup := by
  cases hr : d.registry with
  | none => simp [listed, roster, hr]
  | some r =>
    rw [listed, roster, hr]
    exact h.nodup _ _ (stack_look hr)

theorem isClosed_iff : d.isClosed id = true ↔ ∃ w, d.window? id = some w ∧ w.state = .closed := by
  simp [isClosed, Option.any_eq_true]

theorem sound_beat (h : d.look.Sound) (b : Beat) : (d.beat b).look.Sound := by
  cases b with
  | step s => exact sound_take h s
  | attend => exact h
  | count =>
    have hl : (d.beat .count).look = d.look := by
      unfold look beat
      cases d.registry <;> rfl
    rwa [hl]

theorem distinct_beat (hs : d.look.Sound) (h : d.Distinct) (b : Beat) : (d.beat b).Distinct := by
  cases b with
  | step s => exact distinct_take hs s h
  | attend | count => exact ⟨h.nodup,h.lt⟩

theorem not_isClosed (h : d.look.Sound) (hid : id ∈ d.listed) : d.isClosed id = false := by
  obtain ⟨r,hr,hmem⟩ := mem_listed.1 hid
  refine Bool.eq_false_iff.2 fun hc => ?_
  obtain ⟨w,hw,hc⟩ := isClosed_iff.1 hc
  exact h.unclosed _ _ (stack_look hr) id hmem w.face (by simp [look, hw]) hc

/-- A window that has been closed and will not come back. -/
structure Gone (d : Desktop) (id : WindowId) : Prop where
  old : id < d.nextWindow
  unlisted : ¬ d.lists id
  closed : ∀ w ∈ d.windows, w.id = id → w.state = .closed

theorem gone_of_isClosed (hs : d.look.Sound) (hd : d.Distinct) (h : d.isClosed id = true) :
    d.Gone id := by
  obtain ⟨w,hw,hc⟩ := isClosed_iff.1 h
  obtain rfl := id_of_window? d hw
  refine ⟨hd.lt w (List.mem_append_left _ (mem_of_window? hw)),fun hl => ?_,fun v hv hid => ?_⟩
  · rw [not_isClosed hs (mem_listed.2 hl)] at h
    cases h
  · obtain rfl := List.inj_on_of_nodup_map hd.nodup_windows hv (mem_of_window? hw) hid
    exact hc

theorem Gone.of_map (h : d.Gone id) {g : Window → Window} (hid : ∀ w, (g w).id = w.id)
    (hc : ∀ w ∈ d.windows, w.state = .closed → (g w).state = .closed)
    (hw : e.windows = d.windows.map g) (hn : e.nextWindow = d.nextWindow) (hl : ¬ e.lists id) :
    e.Gone id := by
  refine ⟨hn ▸ h.old,hl,fun v hv he => ?_⟩
  rw [hw] at hv
  obtain ⟨u,hu,rfl⟩ := List.mem_map.1 hv
  exact hc u hu (h.closed u hu ((hid u).symm.trans he))

theorem Edit.gone (hd : d.Distinct) (he : Edit s d e) (h : d.Gone id) : e.Gone id := by
  have hlist : ¬ e.lists id := by
    rintro ⟨r',hr',hid⟩
    rcases he.registry_cases with hr | ⟨-,hr | ⟨r,sorted,hr,heq,-⟩⟩
    · exact h.unlisted ⟨r',hr ▸ hr',hid⟩
    · rcases hr.joins r' hr' id hid with hl | ⟨-,w,hw,ho⟩
      · exact h.unlisted hl
      · exact ho (h.closed w (mem_of_window? hw) (id_of_window? d hw))
    · obtain rfl := Option.some.inj (heq.symm.trans hr')
      exact h.unlisted ⟨r,hr,hid⟩
  rcases he.cases hd with ⟨g,hm⟩ | ⟨w,geometry,image,-,-,-,hr⟩ | ⟨w,-,hw,-,-,rfl⟩ | ⟨w,-,-,hend⟩
  · exact h.of_map hm.id (fun u hu hc => (congrArg (·.state) ((hm.follows u hu).face hc)).trans hc)
      hm.windows hm.nextWindow hlist
  · refine h.of_map (fun u => ?_) (fun u _ hc => ?_) hr.windows hr.nextWindow hlist
    · split <;> rfl
    · split <;> exact hc
  · refine ⟨h.old.trans (hw ▸ Nat.lt_succ_self _),hlist,fun v hv hid => ?_⟩
    rcases List.mem_append.1 hv with hv | hv
    · exact h.closed v hv hid
    · rw [List.mem_singleton.1 hv, hw] at hid
      exact absurd hid.symm h.old.ne
  · refine ⟨hend.nextWindow ▸ h.old,hlist,fun v hv hid => ?_⟩
    rw [hend.windows] at hv
    exact h.closed v (List.mem_of_mem_filter hv) hid

theorem Edits.gone (hd : d.Distinct) (he : Edits s d e) (h : d.Gone id) : e.Gone id :=
  (he.keeps (P := fun d => d.Distinct ∧ d.Gone id)
    (fun he h => ⟨he.distinct h.1,he.gone h.1 h.2⟩) ⟨hd,h⟩).2

theorem gone_perform (hs : d.look.Sound) (hd : d.Distinct) (a : Action) (h : d.Gone id) :
    (d.perform a).Gone id := by
  refine (perform_keeps (P := fun d => d.Distinct ∧ d.Gone id) (fun he h =>
    ⟨he.distinct h.1,he.gone h.1 h.2⟩) (fun _ h => ⟨⟨h.1.nodup,h.1.lt⟩,⟨h.2.old,h.2.unlisted,
      h.2.closed⟩⟩) (fun i kind f h => ⟨h.1.atPipe i kind f,?_⟩)
      (fun i bytes h => ⟨h.1.scribble i bytes,?_⟩) hs a ⟨hd,h⟩).2
  · rw [h.1.atPipe_eq]
    refine h.2.of_map (fun u => ?_) (fun u _ hc => ?_) rfl rfl h.2.unlisted
    · split
      · cases kind <;> rfl
      · rfl
    · split
      · cases kind <;> exact hc
      · exact hc
  · refine h.2.of_map (fun u => ?_) (fun u _ hc => ?_) rfl rfl h.2.unlisted
    · split <;> rfl
    · split <;> exact hc

theorem gone_beat (hs : d.look.Sound) (hd : d.Distinct) (b : Beat) (h : d.Gone id) :
    (d.beat b).Gone id := by
  cases b with
  | step s =>
    cases s with
    | act a => exact gone_perform hs hd a h
    | receive id => exact (deeds_receive (s := .everything) .refl trivial).edits.gone hd h
    | check id now =>
      exact (deeds_checkLiveness (s := .everything) .refl trivial trivial trivial).edits.gone hd h
    | note level text => exact (edits_log (s := .everything) .refl level text).gone hd h
  | attend => exact ⟨h.old,h.unlisted,h.closed⟩
  | count =>
    refine ⟨h.old,fun ⟨r',hr',hid⟩ => ?_,h.closed⟩
    obtain ⟨r,hr,rfl⟩ := Option.map_eq_some_iff.1 hr'
    exact h.unlisted ⟨r,hr,hid⟩

theorem closings_eq_nil (h : e.look.Sound) (hsub : d.listed ⊆ e.listed) : d.closings e = [] :=
  List.filter_eq_nil_iff.2 fun _ hid => Bool.eq_false_iff.1 (not_isClosed h (hsub hid))

theorem closings_eq_singleton (hs : d.look.Sound) (h : e.look.Sound) (hid : id ∈ d.listed)
    (hc : e.isClosed id = true) (hrest : e.listed = d.listed.filter (· != id)) :
    d.closings e = [id] := by
  have hone : ∀ j ∈ d.listed, e.isClosed j = (j == id) := by
    intro j hj
    by_cases hji : j = id
    · rw [hji, hc]
      simp
    · rw [not_isClosed h (hrest ▸ List.mem_filter.2 ⟨hj,by simpa using hji⟩)]
      simp [hji]
  rw [closings, List.filter_congr hone, List.filter_beq,
    List.count_eq_one_of_mem (nodup_listed hs) hid]
  rfl

theorem deferred_of_subset (h : e.look.Sound) (hk : e.deferred = d.deferred)
    (hsub : d.listed ⊆ e.listed) : e.deferred = d.deferred ++ d.closings e := by
  rw [closings_eq_nil h hsub, List.append_nil, hk]

theorem deferred_of_roster (h : e.look.Sound) (hr : e.roster = d.roster) :
    e.deferred = d.deferred ++ d.closings e :=
  deferred_of_subset h (congrArg Roster.kept hr) fun _ hid => listed_of_roster hr ▸ hid

theorem isClosed_sortWindows (d : Desktop) (id : WindowId) :
    d.sortWindows.isClosed id = d.isClosed id := by
  cases hr : d.registry with
  | none => rw [sortWindows, hr]
  | some r =>
    obtain ⟨level,trace,sorted,he,-⟩ := sortWindows_relevel hr
    have hw : d.sortWindows.window? id = (d.window? id).map fun w => { w with z := level w } := by
      rw [he]
      exact find_map_id (g := fun w => { w with z := level w }) (fun _ => rfl) id
    rw [isClosed, hw, isClosed, Option.any_map]

theorem isClosed_forget (d : Desktop) (j : WindowId) :
    (d.forget j).isClosed id = d.isClosed id := by
  unfold forget
  split
  · rfl
  · rename_i r hr
    split
    · exact isClosed_sortWindows { d with registry := some { r with toWindowMap := r.remove j } } id
    · rfl

theorem isClosed_of_release {j : WindowId} (h : (d.release j).isClosed id = true) :
    d.isClosed id = true := by
  rcases release_ends d j with he | ⟨w,hw,he⟩
  · rwa [he] at h
  · obtain ⟨v,hv,hc⟩ := isClosed_iff.1 h
    obtain rfl := id_of_window? _ hv
    rw [window?, he.windows] at hv
    by_cases hid : v.id = w.id
    · have hmem := (List.mem_filter.1 (List.mem_of_find?_eq_some hv)).2
      simp [hid] at hmem
    · exact isClosed_iff.2 ⟨v,(find_filter_ne hid).symm.trans hv,hc⟩

theorem isClosed_of_releaseAll {ids : List WindowId} (h : (d.releaseAll ids).isClosed id = true) :
    d.isClosed id = true := by
  induction ids generalizing d with
  | nil => exact h
  | cons j ids ih => exact isClosed_of_release (ih h)

theorem isClosed_eq (d : Desktop) (id : WindowId) :
    d.isClosed id = (d.look.face id).any (·.state == .closed) := by
  rw [isClosed, look, Option.any_map]
  rfl

section

variable {caller : Group} {w : Window} (h : d.Honours id caller w)
include h

theorem close_forgets : ∃ c : Desktop, c.roster = d.roster ∧ c.isClosed id = true ∧
    ∃ queue ledger trace panicked,
      d.close id caller = { c.forget id with queue, ledger, trace, panicked } := by
  have he : d.close id caller = _ := guardedDo_honoured h _
  refine ⟨(d.logCall id caller).closing id,by simp,?_,?_⟩
  · have hw := face_of_window? h.1
    rw [isClosed_eq, closing, look_closing, look_logCall, Look.change]
    simp [hw, WindowState.close]
  · have hrest : ∀ f : Desktop, ∃ queue ledger trace panicked,
        (if w.isVisibleOn (d.logCall id caller).screen
          then (f.notify id .closed).damage none w.geometry else f.notify id .closed) =
            { f with queue, ledger, trace, panicked } := by
      intro f
      have hnone : ∀ i ∈ (none : Option WindowId), ∀ r,
          (f.notify id .closed).registry = some r → i ∈ r.order := by simp
      split
      · obtain ⟨queue,ledger,trace,panicked,hd⟩ :=
          (f.notify id .closed).damage_frame hnone w.geometry
        exact ⟨queue,ledger,trace,panicked,hd⟩
      · exact ⟨_,_,_,_,rfl⟩
    obtain ⟨queue,ledger,trace,panicked,hr⟩ := hrest (((d.logCall id caller).closing id).forget id)
    exact ⟨queue,ledger,trace,panicked,he.trans hr⟩

theorem deferred_close_honoured (hs : d.look.Sound) :
    (d.close id caller).deferred = d.deferred ++ d.closings (d.close id caller) := by
  have hsound := sound_close hs id caller
  obtain ⟨c,hroster,hclosed,queue,ledger,trace,panicked,he⟩ := close_forgets h
  have hr : (d.close id caller).roster = (c.forget id).roster := by
    rw [he]
    rfl
  have hgone : (d.close id caller).isClosed id = true := by
    rw [he]
    exact (isClosed_forget c id).trans hclosed
  by_cases hl : c.lists id
  · obtain ⟨r,hreg,hid⟩ := hl
    rw [roster_forget _ hreg hid] at hr
    have hlisted : d.listed = r.order := by
      rw [← listed_of_roster hroster, listed, roster, hreg]
      rfl
    have hclosings := closings_eq_singleton hs hsound (hlisted ▸ hid) hgone <| by
      rw [listed, hr, hlisted]
      rfl
    have hkept : (d.close id caller).deferred = c.deferred ++ [id] := congrArg Roster.kept hr
    have hsame : c.deferred = d.deferred := congrArg Roster.kept hroster
    rw [hkept, hsame, hclosings]
  · rw [forget_unlisted _ hl, hroster] at hr
    exact deferred_of_roster hsound hr

end

theorem deferred_close (hs : d.look.Sound) (id : WindowId) (caller : Group) :
    (d.close id caller).deferred = d.deferred ++ d.closings (d.close id caller) := by
  by_cases h : ∃ w, d.Honours id caller w
  · obtain ⟨w,h⟩ := h
    exact deferred_close_honoured h hs
  · have hr : (d.close id caller).roster = d.roster := by
      have he : d.close id caller = _ := guardedDo_spurned (fun w hw => h ⟨w,hw⟩) _
      rw [he, roster_logCall]
    exact deferred_of_roster (sound_close hs id caller) hr

theorem deferred_of_joined (h : e.look.Sound)
    (hr : ∃ more, e.roster = ⟨d.roster.listed.map (· ++ more),d.deferred⟩) :
    e.deferred = d.deferred ++ d.closings e := by
  obtain ⟨more,hr⟩ := hr
  refine deferred_of_subset h (congrArg Roster.kept hr) fun id hid => ?_
  rw [listed] at hid
  rw [listed, hr]
  cases hl : d.roster.listed with
  | none => simp [hl] at hid
  | some order =>
    rw [hl] at hid
    exact List.mem_append_left more hid

theorem deferred_dropRegistry (hs : d.look.Sound) :
    d.dropRegistry.deferred = d.deferred ++ d.closings d.dropRegistry := by
  have hnil : d.closings d.dropRegistry = [] := by
    refine List.filter_eq_nil_iff.2 fun id hid hc => ?_
    have hopen := not_isClosed hs hid
    unfold dropRegistry at hc
    split at hc
    · rw [hopen] at hc
      cases hc
    · have hc' : { d with registry := none }.isClosed id = true := isClosed_of_releaseAll hc
      change d.isClosed id = true at hc'
      rw [hopen] at hc'
      cases hc'
  rw [hnil, List.append_nil]
  exact congrArg Roster.kept d.roster_dropRegistry

theorem deferred_reap (hs : d.look.Sound) :
    d.reap.deferred = d.deferred.filter d.ledger.refersTo ++ d.closings d.reap := by
  have hr := d.roster_reap
  have hl : d.reap.listed = d.listed := by rw [listed, hr, listed]
  rw [closings_eq_nil (sound_reap hs) fun _ hid => hl ▸ hid, List.append_nil]
  exact congrArg Roster.kept hr

theorem deferred_beat (hs : d.look.Sound) {b : Beat} (hb : b.isBrief = true) :
    (d.beat b).deferred = (if d.reaps b then d.deferred.filter d.ledger.refersTo
      else d.deferred) ++ d.closings (d.beat b) := by
  have hsound := sound_beat hs b
  have hsame : (d.beat b).roster = d.roster → (d.beat b).deferred =
      d.deferred ++ d.closings (d.beat b) := deferred_of_roster hsound
  cases b with
  | attend => exact hsame rfl
  | count =>
    refine hsame ?_
    unfold roster beat
    cases d.registry <;> rfl
  | step s =>
    cases s with
    | receive id => exact hsame (d.roster_receive id)
    | check id now => exact hsame (d.roster_checkLiveness id now)
    | note level text => exact hsame rfl
    | act a =>
      cases a with
      | create => exact deferred_of_joined hsound (roster_createWindow ..)
      | createSystem => exact deferred_of_joined hsound (roster_createSystemWindow ..)
      | close => exact deferred_close hs ..
      | dropRegistry => exact deferred_dropRegistry hs
      | paintNext =>
        cases hq : d.queue with
        | nil =>
          have hp : d.beat (.step (.act .paintNext)) = d.reap := by
            simp only [beat, take, perform, paintNext, hq]
          simp only [reaps, hq, List.isEmpty_nil, if_true, hp]
          exact deferred_reap hs
        | cons q rest =>
          have hp : d.beat (.step (.act .paintNext)) = { d with queue := rest }.process q := by
            simp only [beat, take, perform, paintNext, hq]
          simp only [reaps, hq, List.isEmpty_cons, Bool.false_eq_true, if_false]
          exact hsame (hp ▸ roster_process { d with queue := rest } q)
      | message id m =>
        refine hsame (d.roster_handleMessage id ?_)
        rintro rfl
        cases hb
      | runPending | waitForLast | dirtyAndWait | start | halt | shutDown | service | supervise =>
        cases hb
      | present => exact hsame (roster_repaint ..)
      | takePipe => exact hsame (roster_ask ..)
      | advance | scribble | deface | regroup | refuse | exhaust => exact hsame rfl
      | _ => exact hsame (by simp [beat, take, perform])

def closedIn : Desktop → List Beat → List WindowId
  | _, [] => []
  | d, b :: beats => d.closings (d.beat b) ++ (d.beat b).closedIn beats

def releasedIn : Desktop → List Beat → List WindowId
  | _, [] => []
  | d, b :: beats => d.releases (d.beat b) ++ (d.beat b).releasedIn beats

theorem closedIn_concat (d : Desktop) (beats : List Beat) (b : Beat) :
    d.closedIn (beats ++ [b]) =
      d.closedIn beats ++ (d.run beats).closings ((d.run beats).beat b) := by
  induction beats generalizing d with
  | nil => exact List.append_nil _
  | cons c beats ih =>
    rw [List.cons_append, closedIn, ih, closedIn, List.append_assoc]
    rfl

theorem releasedIn_concat (d : Desktop) (beats : List Beat) (b : Beat) :
    d.releasedIn (beats ++ [b]) =
      d.releasedIn beats ++ (d.run beats).releases ((d.run beats).beat b) := by
  induction beats generalizing d with
  | nil => exact List.append_nil _
  | cons c beats ih =>
    rw [List.cons_append, releasedIn, ih, releasedIn, List.append_assoc]
    rfl

/-- How things stand when some windows have been closed and some of them released. -/
structure Keeping (d : Desktop) (closed released : List WindowId) : Prop where
  sound : d.look.Sound
  distinct : d.Distinct
  nodup : closed.Nodup
  gone : ∀ id ∈ closed, d.Gone id
  within : released ⊆ closed
  kept : d.deferred = closed.filter (· ∉ released)

namespace Keeping

variable {closed released : List WindowId} (h : Keeping d closed released)
include h

theorem mem_deferred : id ∈ d.deferred ↔ id ∈ closed ∧ id ∉ released := by
  rw [h.kept, List.mem_filter, decide_eq_true_iff]

theorem not_mem_closings (hid : id ∈ closed) : id ∉ d.closings e := fun hc =>
  (h.gone id hid).unlisted (mem_listed.1 (List.mem_of_mem_filter hc))

theorem mem_beat {b : Beat} (hb : b.isBrief = true) (hid : id ∈ d.deferred) :
    id ∈ (d.beat b).deferred ↔ (d.reaps b = true → d.ledger.refersTo id = true) := by
  have hnew := h.not_mem_closings (e := d.beat b) (h.mem_deferred.1 hid).1
  rw [deferred_beat h.sound hb, List.mem_append, or_iff_left hnew]
  cases hr : d.reaps b with
  | true => simp [hid]
  | false => simp [hid]

theorem deferred_beat_eq {b : Beat} (hb : b.isBrief = true) :
    (d.beat b).deferred =
      d.deferred.filter (· ∈ (d.beat b).deferred) ++ d.closings (d.beat b) := by
  have hstay : d.deferred.filter (· ∈ (d.beat b).deferred) =
      if d.reaps b then d.deferred.filter d.ledger.refersTo else d.deferred := by
    cases hr : d.reaps b with
    | true =>
      refine List.filter_congr fun id hid => ?_
      have hm := h.mem_beat hb hid
      rw [hr] at hm
      exact Bool.eq_iff_iff.2 (by simpa using hm)
    | false =>
      refine List.filter_eq_self.2 fun id hid => decide_eq_true ((h.mem_beat hb hid).2 ?_)
      rw [hr]
      exact nofun
  rw [hstay]
  exact deferred_beat h.sound hb

theorem beat {b : Beat} (hb : b.isBrief = true) : Keeping (d.beat b)
    (closed ++ d.closings (d.beat b)) (released ++ d.releases (d.beat b)) := by
  have hsound := sound_beat h.sound b
  have hdistinct := distinct_beat h.sound h.distinct b
  have hfresh : ∀ id ∈ d.closings (d.beat b), id ∉ closed := fun id hc hid =>
    h.not_mem_closings hid hc
  refine ⟨hsound,hdistinct,?_,fun id hid => ?_,fun id hid => ?_,?_⟩
  · exact List.nodup_append'.2 ⟨h.nodup,(nodup_listed h.sound).filter _,
      fun id hid hc => hfresh id hc hid⟩
  · rcases List.mem_append.1 hid with hid | hid
    · exact gone_beat h.sound h.distinct b (h.gone id hid)
    · exact gone_of_isClosed hsound hdistinct (List.mem_filter.1 hid).2
  · rcases List.mem_append.1 hid with hid | hid
    · exact List.mem_append_left _ (h.within hid)
    · exact List.mem_append_left _ (h.mem_deferred.1 (List.mem_of_mem_filter hid)).1
  · rw [h.deferred_beat_eq hb, List.filter_append]
    congr 1
    · rw [h.kept, List.filter_filter]
      refine List.filter_congr fun id hid => ?_
      have hm : id ∈ d.releases (d.beat b) ↔ id ∉ released ∧ id ∉ (d.beat b).deferred := by
        rw [releases, List.mem_filter, h.mem_deferred, decide_eq_true_iff]
        tauto
      simp only [List.mem_append, hm, ← Bool.decide_and, decide_eq_decide]
      tauto
    · have hstays : ∀ id ∈ d.closings (d.beat b), id ∉ released ++ d.releases (d.beat b) := by
        intro id hid hr
        refine hfresh id hid ?_
        rcases List.mem_append.1 hr with hr | hr
        · exact h.within hr
        · exact (h.mem_deferred.1 (List.mem_of_mem_filter hr)).1
      exact (List.filter_eq_self.2 fun id hid => decide_eq_true (hstays id hid)).symm

theorem mem_releases {b : Beat} (hb : b.isBrief = true) (hid : id ∈ d.releases (d.beat b)) :
    b = .paint ∧ d.queue = [] ∧ d.ledger.refersTo id = false := by
  obtain ⟨hkept,hgone⟩ := List.mem_filter.1 hid
  have hr := (h.mem_beat hb hkept).not.1 (of_decide_eq_true hgone)
  obtain ⟨hreap,hfree⟩ := Classical.not_imp.1 hr
  unfold reaps at hreap
  split at hreap
  · exact ⟨rfl,List.isEmpty_iff.1 hreap,Bool.eq_false_iff.2 hfree⟩
  · cases hreap

end Keeping

theorem keeping_fresh (panel : Panel) (backing : Backing) (timings : Timings) (temperature : Int32)
    (service : Group) (system : System) (h : panel.raster.id = 0) :
    Keeping (fresh panel backing timings temperature service system) [] [] where
  sound := sound_fresh panel backing timings temperature service system h
  distinct := (Reachable.fresh panel backing timings temperature service system h).distinct
  nodup := .nil
  gone _ hid := nomatch hid
  within := List.Subset.refl _
  kept := rfl

theorem Keeping.run (h : Keeping d [] []) {beats : List Beat}
    (hb : ∀ b ∈ beats, b.isBrief = true) :
    Keeping (d.run beats) (d.closedIn beats) (d.releasedIn beats) := by
  induction beats using List.reverseRecOn with
  | nil => exact h
  | append_singleton beats b ih =>
    rw [run_concat, closedIn_concat, releasedIn_concat]
    exact (ih fun c hc => hb c (by simp [hc])).beat (hb b (by simp))

theorem deferred_runPending (d : Desktop) :
    d.runPending.1.deferred = d.deferred.filter d.runPending.1.ledger.refersTo := by
  have hr : d.runPending.1.roster = _ := (serveMany process d.queue.length d).roster_reap
  have hl : d.runPending.1.ledger = (serveMany process d.queue.length d).ledger :=
    congrArg Books.ledger (books_reap _)
  have hk : (serveMany process d.queue.length d).deferred = d.deferred :=
    congrArg Roster.kept (d.roster_serveMany roster_process _)
  rw [hl, ← hk]
  exact congrArg Roster.kept hr

/-- In a run from a desktop without windows, a window that is closed while it is in the stack is
closed once, and those that are kept are those that have been closed and not released. Each beat
adds to them the windows that it closes, and takes windows away only when closed ones are released,
with nothing queued and no wait that refers to them. Each time everything queued has been painted,
those are kept that have been closed, had not been released before, and are still referred to by a
wait. Whatever is done, other than to end painting and waiting, goes on with the run. -/
theorem closed_kept_while_awaited (panel : Panel) (backing : Backing) (timings : Timings)
    (temperature : Int32) (service : Group) (system : System) (hpanel : panel.raster.id = 0)
    (beats : List Beat) (hbeats : ∀ b ∈ beats, b.isBrief = true) :
    let start := fresh panel backing timings temperature service system
    let d := start.run beats
    (start.closedIn beats).Nodup ∧
    d.deferred = (start.closedIn beats).filter (· ∉ start.releasedIn beats) ∧
    (∀ b : Beat, b.isBrief = true →
      (d.beat b).deferred =
        d.deferred.filter (· ∈ (d.beat b).deferred) ++ d.closings (d.beat b) ∧
      ∀ id ∈ d.releases (d.beat b), b = .paint ∧ d.queue = [] ∧ d.ledger.refersTo id = false) ∧
    d.runPending.1.deferred = (start.closedIn beats).filter (fun id =>
      id ∉ start.releasedIn beats ∧ d.runPending.1.ledger.refersTo id = true) ∧
    ∀ s : Step, s.isEnd = false → ∃ more : List Beat, (∀ b ∈ more, b.isBrief = true) ∧
      d.take s = start.run (beats ++ more) := by
  intro start d
  have h : Keeping d (start.closedIn beats) (start.releasedIn beats) :=
    (keeping_fresh panel backing timings temperature service system hpanel).run hbeats
  refine ⟨h.nodup,h.kept,fun b hb => ⟨h.deferred_beat_eq hb,fun id hid => h.mem_releases hb hid⟩,
    ?_,fun s hs => ?_⟩
  · rw [d.deferred_runPending, h.kept, List.filter_filter]
    refine List.filter_congr fun id _ => ?_
    rw [Bool.decide_and, Bool.decide_eq_true, Bool.and_comm]
  · obtain ⟨more,hmore,he⟩ := d.runs hs
    exact ⟨more,hmore,he.trans List.foldl_append.symm⟩

/-- A window is closed while a wait refers to it, and released once the wait is over. -/
theorem closed_kept_while_awaited_small :
    let start := fresh smallPanel .anonymous {} 24 1
    let beats := [Beat.step (.act (.create 100 (some ⟨1,1,2,2⟩) .rgb16)),
      .step (.act (.wait 0 100 5 (.outside "shown"))),.step (.act (.close 0 100))]
    let later := beats ++ [.paint,.step (.act (.advance 10000)),.step (.act .tick)]
    smallPanel.raster.id = 0 ∧ (∀ b ∈ later, b.isBrief = true) ∧
      start.closedIn later = [0] ∧ (start.run beats).runPending.1.deferred = [0] ∧
      (start.run later).deferred = [0] ∧ (start.run later).runPending.1.deferred = [] := by
  intro start beats later
  have hbeats : ∀ b ∈ beats, b.isBrief = true := by simp [beats, Beat.isBrief, Step.isBrief]
  have hlater : ∀ b ∈ later, b.isBrief = true := by
    simp [later, beats, Beat.isBrief, Beat.paint, Step.isBrief]
  obtain ⟨-,-,-,hwaiting,-⟩ := closed_kept_while_awaited smallPanel .anonymous {} 24 1 {} rfl beats
    hbeats
  obtain ⟨-,hkept,-,hover,-⟩ := closed_kept_while_awaited smallPanel .anonymous {} 24 1 {} rfl later
    hlater
  refine ⟨rfl,hlater,by decide +kernel,hwaiting.trans ?_,hkept.trans ?_,hover.trans ?_⟩
  · decide +kernel
  · decide +kernel
  · decide +kernel

end Desktop

end InkCompositor
