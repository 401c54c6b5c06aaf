import Mathlib
import InkCompositor.Proofs.Desktop.Alterations
import InkCompositor.Proofs.Desktop.Canonical
import InkCompositor.Proofs.Desktop.Mending
import InkCompositor.Proofs.Desktop.Timing

/-!
# Windows are kept apart

What is done on behalf of one client concerns no window of another: those keep
all they have but for the height, which a sorting of the stack may change, and
they keep their order.
-/

set_option autoImplicit false

namespace InkCompositor.Desktop

open Wire Look

variable {s : Scope} {d e f : Desktop}

theorem find_map_id {ws : List Window} {g : Window → Window} (hg : ∀ w, (g w).id = w.id)
    (j : WindowId) : (ws.map g).find? (·.id == j) = (ws.find? (·.id == j)).map g := by
  rw [List.find?_map]
  congr 2
  funext w
  simp [hg]

theorem find_filter_ne {ws : List Window} {i j : WindowId} (h : j ≠ i) :
    (ws.filter (·.id != i)).find? (·.id == j) = ws.find? (·.id == j) := by
  rw [List.find?_filter]
  congr 1
  funext w
  by_cases hw : w.id = j
  · simp [hw, h]
  · simp [hw]

theorem Edit.outside (hd : d.Distinct) (h : Edit s d e) {j : WindowId} (hj : ¬ s.windows j)
    {w : Window} (hw : d.window? j = some w) :
    ∃ z, e.window? j = some { w with z } ∧ (z = w.z ∨ d.layered j) := by
  have hid := id_of_window? d hw
  rcases h.cases hd with ⟨g,hm⟩ | ⟨v,geometry,image,hs,-,-,hr⟩ | ⟨v,hs,-,-,-,rfl⟩ | ⟨v,hs,-,he⟩
  · have hf := hm.follows w (mem_of_window? hw)
    refine ⟨(g w).z,?_,?_⟩
    · rw [window?, hm.windows, find_map_id hm.id]
      rw [window?] at hw
      rw [hw, Option.map_some, ← hf.outside (hid ▸ hj)]
    · rcases hf.z with hz | hz | hz
      · exact .inl hz
      · exact .inr (hid ▸ hz)
      · exact absurd hz.1 (hid ▸ hj)
  · have hne : w.id ≠ v.id := fun he => hj (hid ▸ he.symm ▸ hs)
    refine ⟨w.z,?_,.inl rfl⟩
    rw [window?, hr.windows, find_map_id fun u => by split <;> rfl]
    rw [window?] at hw
    rw [hw, Option.map_some, if_neg hne]
  · refine ⟨w.z,?_,.inl rfl⟩
    rw [window?] at hw
    rw [window?, windows_added, List.find?_append, hw, Option.some_or]
  · have hne : j ≠ v.id := fun he => hj (he ▸ hs)
    refine ⟨w.z,?_,.inl rfl⟩
    rw [window?] at hw
    rw [window?, he.windows, find_filter_ne hne, hw]

theorem Edit.lists_iff (h : Edit s d e) {j : WindowId} (hj : ¬ s.windows j) :
    e.lists j ↔ d.lists j := by
  rcases h.registry_cases with hr | ⟨-,hr | ⟨r,sorted,hr,he,-⟩⟩
  · rw [lists, lists, hr]
  · refine ⟨fun ⟨r',hr',hid⟩ => ?_,fun hl => hr.stays j hl hj⟩
    exact (hr.joins r' hr' j hid).resolve_right fun hs => hj hs.1
  · rw [lists, lists, hr, he]
    simp

theorem Edit.clientEnd (hd : d.Distinct) (h : Edit s d e) {j : WindowId} (hj : ¬ s.windows j)
    (kind : ChannelKind) : e.clientEnd? j kind = d.clientEnd? j kind := by
  have hend : ∀ d : Desktop, d.clientEnd? j kind =
      ((d.windows.find? (·.id == j)).or (d.ended.find? (·.id == j))).map (·.pipe kind) :=
    fun d => by rw [clientEnd?, List.find?_append]
  rw [hend, hend]
  cases hw : d.window? j with
  | some w =>
    obtain ⟨z,he,-⟩ := h.outside hd hj hw
    rw [window?] at hw he
    rw [hw, he]
    cases kind <;> rfl
  | none =>
    rw [window?] at hw
    rw [hw]
    rcases h.cases hd with ⟨g,hm⟩ | ⟨v,geometry,image,hs,-,-,hr⟩ | ⟨v,hs,-,-,-,rfl⟩ | ⟨v,hs,-,he⟩
    · rw [hm.windows, hm.ended, find_map_id hm.id, hw, Option.map_none]
    · rw [hr.windows, hr.ended, find_map_id fun u => by split <;> rfl, hw, Option.map_none]
    · have hne : (v.id == j) = false := beq_eq_false_iff_ne.2 fun he => hj (he ▸ hs)
      rw [windows_added, List.find?_append, hw]
      simp [hne, ended_added]
    · have hne : j ≠ v.id := fun he => hj (he ▸ hs)
      have hending : (v.ending.id == j) = false := beq_eq_false_iff_ne.2 hne.symm
      rw [he.windows, he.ended, find_filter_ne hne, hw, List.find?_append]
      simp [hending]

/-- Edits leave a window out of their scope as it is, in the stack or outside. Sorting may change
its height if it lies in a layer. -/
theorem Edits.outside (h : Edits s d e) (hd : d.Distinct) {j : WindowId} (hj : ¬ s.windows j) :
    e.Distinct ∧ (∀ kind, e.clientEnd? j kind = d.clientEnd? j kind) ∧
      (e.lists j ↔ d.lists j) ∧
      ∀ w, d.window? j = some w → ∃ z, e.window? j = some { w with z } ∧
        (z = w.z ∨ d.lists j ∧ w.isSystem = false) := by
  induction h with
  | refl => exact ⟨hd,fun _ => rfl,.rfl,fun w hw => ⟨w.z,hw,.inl rfl⟩⟩
  | tail _ he ih =>
    obtain ⟨hd',hc,hl,hw⟩ := ih
    refine ⟨he.distinct hd',fun kind => (he.clientEnd hd' hj kind).trans (hc kind),
      (he.lists_iff hj).trans hl,fun w hdw => ?_⟩
    obtain ⟨z,hz,hzw⟩ := hw w hdw
    obtain ⟨z',hz',hzz'⟩ := he.outside hd' hj hz
    refine ⟨z',hz',?_⟩
    rcases hzz' with rfl | ⟨hlist,v,hv,hsys⟩
    · exact hzw
    · obtain rfl := Option.some.inj (hz.symm.trans hv)
      exact .inr ⟨hl.1 hlist,hsys⟩

theorem Edits.registry (h : Edits s d e) (hs : ¬ s.stack) : e.registry = d.registry := by
  induction h with
  | refl => rfl
  | tail _ he ih => exact (he.registry_cases.resolve_right fun hr => hs hr.1).trans ih

theorem Restacked.trans {id : WindowId} (h : Restacked id d.look e.look.stack)
    (h' : Restacked id e.look f.look.stack) : Restacked id d.look f.look.stack :=
  ⟨h'.isSome.trans h.isSome,h'.sorted.trans h.sorted,fun hr => h'.roomy (h.roomy hr)⟩

theorem stack_of_edits (h : Edits ⟨fun _ => True,False⟩ d e) : e.look.stack = d.look.stack := by
  simp only [look, h.registry not_false]

/-- A call is honoured if it is made on an open window by someone who may act on it. -/
def Honours (d : Desktop) (id : WindowId) (caller : Group) (w : Window) : Prop :=
  d.window? id = some w ∧ d.permits id caller = true ∧ w.state ≠ .closed

section

variable {id : WindowId} {caller : Group} {w : Window}

theorem guardedDo_honoured (h : d.Honours id caller w) (call : Desktop → Window → Desktop) :
    d.guardedDo id caller (fun d w => if w.state = .closed then d else call d w) =
      call (d.logCall id caller) w :=
  (guardedDo_permitted h.1 h.2.1 _).trans (if_neg h.2.2)

theorem guardedDo_spurned (h : ∀ w, ¬ d.Honours id caller w) (call : Desktop → Window → Desktop) :
    d.guardedDo id caller (fun d w => if w.state = .closed then d else call d w) =
      d.logCall id caller := by
  obtain ⟨hfind,hperm⟩ := logCall_same (d := d) id caller
  simp only [guardedDo, guarded, hfind, hperm]
  split
  · rename_i w hw
    split
    · rename_i hp
      exact if_pos (of_not_not fun ho => h w ⟨hw,hp,ho⟩)
    · rfl
  · rfl

theorem edits_bring (d : Desktop) (w : Window) (state : WindowState) (z : Int32) {m : Message}
    (hm : m.plain = true) :
    Edits ⟨fun _ => True,False⟩ (d.changeLayer w state z) (d.bring w state z m) :=
  (deeds_notifyState (deeds_post .refl trivial .event hm fun _ => trivial) ..).edits

theorem raise_honoured (h : d.Honours id caller w) : Edits ⟨fun _ => True,False⟩
    ((d.logCall id caller).changeLayer w w.state.raise Int32.maxValue) (d.raise id caller) := by
  have he : d.raise id caller = _ := guardedDo_honoured h _
  have hb := (d.logCall id caller).edits_bring w w.state.raise Int32.maxValue (m := .raise) rfl
  rw [he]
  exact hb.trans (deeds_damage_if .refl (fun _ _ => trivial) ..).edits

theorem lower_honoured (h : d.Honours id caller w) : Edits ⟨fun _ => True,False⟩
    ((d.logCall id caller).changeLayer w w.state.lower Int32.minValue) (d.lower id caller) := by
  have he : d.lower id caller = _ := guardedDo_honoured h _
  have hb := (d.logCall id caller).edits_bring w w.state.lower Int32.minValue (m := .lower) rfl
  rw [he]
  exact hb.trans (deeds_damage_if .refl (fun _ _ => trivial) ..).edits

def closing (d : Desktop) (id : WindowId) : Desktop :=
  ((ChannelKind.all.foldl (fun d kind => d.closePipe id kind) (d.modify id fun w => { w with
    state := w.state.close, touching := [], enabled := false })).log .debug
      "Closed window").notify id (.stateChanged .closed)

theorem close_honoured (h : d.Honours id caller w) : Edits ⟨fun _ => True,False⟩
    (((d.logCall id caller).closing id).forget id) (d.close id caller) := by
  have he : d.close id caller = _ := guardedDo_honoured h _
  rw [he]
  have hn : Edits ⟨fun _ => True,False⟩ (((d.logCall id caller).closing id).forget id)
      ((((d.logCall id caller).closing id).forget id).notify id .closed) := edits_notify .refl ..
  dsimp only
  split
  · exact hn.trans (deeds_damageAll .refl _).edits
  · exact hn

end

section

variable (hs : d.look.Sound) (hroom : d.look.Roomy) {id : WindowId} {caller : Group} {w : Window}
  (h : d.Honours id caller w)
include hs hroom

theorem stack_changeLayer (hw : d.window? id = some w) {state : WindowState} {z : Int32}
    (hz : state.isRaised = true ∧ z.toInt = 2147483647 ∨
      state.isRaised = false ∧ z.toInt = -2147483648)
    (h : Edits ⟨fun _ => True,False⟩ (d.changeLayer w state z) e) :
    Restacked id d.look e.look.stack ∧ e.look.sorted = d.look.moved id state.isRaised := by
  obtain ⟨stack,height,hc,hst,hm⟩ := changeLayer_spec hs hroom hw state z hz
  have hstack : e.look.stack = stack := by rw [stack_of_edits h, hc]
  refine ⟨hstack ▸ hst,?_⟩
  rw [← hm, Look.sorted, hstack]
  rfl

include h

theorem stack_raise : Restacked id d.look (d.raise id caller).look.stack ∧
    (d.raise id caller).look.sorted = d.look.moved id true := by
  have hl := look_logCall d id caller
  have hup := WindowState.isRaised_raise h.2.2
  rw [← hl] at hs hroom ⊢
  have hst := stack_changeLayer hs hroom ((logCall_same id caller).1.trans h.1)
    (.inl ⟨hup,by decide⟩) (raise_honoured h)
  rwa [hup] at hst

theorem stack_lower : Restacked id d.look (d.lower id caller).look.stack ∧
    (d.lower id caller).look.sorted = d.look.moved id false := by
  have hl := look_logCall d id caller
  have hdown := WindowState.isRaised_lower w.state
  rw [← hl] at hs hroom ⊢
  have hst := stack_changeLayer hs hroom ((logCall_same id caller).1.trans h.1)
    (.inr ⟨hdown,by decide⟩) (lower_honoured h)
  rwa [hdown] at hst

theorem stack_close : Restacked id d.look (d.close id caller).look.stack ∧
    id ∉ (d.close id caller).look.sorted := by
  have hl := look_logCall d id caller
  rw [← hl] at hs hroom ⊢
  have hlook : ((d.logCall id caller).closing id).look = (d.logCall id caller).look.change id
      fun w => { w with state := w.state.close, touching := [], enabled := false } := by
    rw [closing, look_closing]
  have hready := ready_closing hs.toReady id
  rw [← hlook] at hready
  obtain ⟨stack,height,hf,hst,hgone⟩ := forget_spec hs hroom hready (by rw [hlook]; rfl) id
    (fun j hj => by simp [hlook, Look.change, hj]) fun j _ => by rw [hlook]; rfl
  have hstack : (d.close id caller).look.stack = stack := by
    rw [stack_of_edits (close_honoured h), hf]
  refine ⟨hstack ▸ hst,?_⟩
  rw [Look.sorted, hstack]
  exact hgone

end

section

variable (hs : d.look.Sound) (hroom : d.look.Roomy) (id : WindowId)
include hs hroom

theorem restacked_raise (caller : Group) :
    Restacked id d.look (d.raise id caller).look.stack := by
  by_cases h : ∃ w, d.Honours id caller w
  · exact (stack_raise hs hroom h.choose_spec).1
  · rw [raise, guardedDo_spurned (not_exists.1 h), look_logCall]
    exact .refl id _

theorem restacked_lower (caller : Group) :
    Restacked id d.look (d.lower id caller).look.stack := by
  by_cases h : ∃ w, d.Honours id caller w
  · exact (stack_lower hs hroom h.choose_spec).1
  · rw [lower, guardedDo_spurned (not_exists.1 h), look_logCall]
    exact .refl id _

theorem restacked_close (caller : Group) :
    Restacked id d.look (d.close id caller).look.stack := by
  by_cases h : ∃ w, d.Honours id caller w
  · exact (stack_close hs hroom h.choose_spec).1
  · rw [close, guardedDo_spurned (not_exists.1 h), look_logCall]
    exact .refl id _

theorem restacked_handleMessage (m : Message) :
    Restacked id d.look (d.handleMessage id m).look.stack := by
  by_cases hm : m.restacks = true
  · unfold handleMessage
    split
    · exact .refl id _
    cases m with
    | raise => exact restacked_raise hs hroom id _
    | lower => exact restacked_lower hs hroom id _
    | close => exact restacked_close hs hroom id _
    | _ => cases hm
  · rw [stack_of_edits (deeds_handleMessage .refl trivial m (fun h => absurd h hm)
      (fun _ => trivial) fun _ _ _ _ => .inr trivial).edits]
    exact .refl id _

theorem restacked_foldl_handleMessage (messages : List Message) :
    Restacked id d.look
      (messages.foldl (fun (d : Desktop) m => d.handleMessage id m) d).look.stack := by
  induction messages generalizing d with
  | nil => exact .refl id _
  | cons m messages ih =>
    have hm := restacked_handleMessage hs hroom id m
    exact hm.trans (ih (sound_handleMessage hs id m) (hm.roomy hroom))

theorem restacked_serviceWindow (now : Time) :
    Restacked id d.look (d.serviceWindow id now).look.stack := by
  unfold serviceWindow
  split
  · exact .refl id _
  split
  · exact .refl id _
  have hr := look_receive d id
  rw [look_checkLiveness]
  split
  · rename_i e messages he
    rw [he] at hr
    rw [← hr] at hs hroom ⊢
    exact restacked_foldl_handleMessage hs hroom id messages
  · rename_i e error he
    rw [he] at hr
    rw [look_log, hr]
    exact .refl id _

end

theorem clientWrite_other (d : Desktop) {id j : WindowId} (hj : j ≠ id) (kind : ChannelKind)
    (bytes : List UInt8) : (d.clientWrite id kind bytes).1.window? j = d.window? j ∧
      ∀ k, (d.clientWrite id kind bytes).1.clientEnd? j k = d.clientEnd? j k := by
  unfold clientWrite
  split
  · exact ⟨rfl,fun _ => rfl⟩
  rename_i c _
  have hput : ∀ ws : List Window, (ws.map fun w => if w.id = id then
      w.setPipe (c.clientWrite bytes).1 kind else w).find? (·.id == j) = ws.find? (·.id == j) := by
    intro ws
    rw [find_map_id fun w => by split <;> [cases kind <;> rfl; rfl]]
    cases hw : ws.find? (·.id == j) with
    | none => rfl
    | some w =>
      have hid : w.id = j := by simpa using List.find?_some hw
      rw [Option.map_some, if_neg (hid ▸ hj)]
  refine ⟨hput d.windows,fun k => ?_⟩
  rw [clientEnd?, clientEnd?, List.find?_append, List.find?_append]
  dsimp only [setClientEnd]
  rw [hput, hput]

theorem reachable_clientWrite (h : Reachable d) (id : WindowId) (kind : ChannelKind)
    (bytes : List UInt8) : Reachable (d.clientWrite id kind bytes).1 := by
  have ha := h.act (.atPipe id kind fun c => (c.clientWrite bytes).1)
  have he : (d.clientWrite id kind bytes).1 =
      d.atPipe id kind fun c => (c.clientWrite bytes).1 := by
    unfold clientWrite atPipe
    cases d.clientEnd? id kind <;> rfl
  rw [he]
  exact ha

theorem mem_windowsOf {group : Group} {j : WindowId} (h : j ∈ d.windowsOf group) :
    ∃ w, d.window? j = some w ∧ w.owner = group := by
  obtain ⟨w,hw,rfl⟩ := List.mem_map.1 h
  obtain ⟨hm,ho⟩ := List.mem_filter.1 hw
  unfold openWindows at hm
  split at hm
  · cases hm
  · exact ⟨w,window?_of_mem_filterMap hm,by simpa using ho⟩

@[simp] theorem look_clientWrite (d : Desktop) (id : WindowId) (kind : ChannelKind)
    (bytes : List UInt8) : (d.clientWrite id kind bytes).1.look = d.look := by
  unfold clientWrite
  split <;> simp

@[simp] theorem agenda_clientWrite (d : Desktop) (id : WindowId) (kind : ChannelKind)
    (bytes : List UInt8) : (d.clientWrite id kind bytes).1.agenda = d.agenda := by
  unfold clientWrite
  split <;> rfl

section

variable (h : Reachable d)
include h

/-- Servicing a window leaves the others as they are. -/
theorem serviced_other (id : WindowId) (bytes : List UInt8) (now : Time) {j : WindowId}
    (hj : j ≠ id) : let e := (d.clientWrite id .event bytes).1.serviceWindow id now
      (∀ kind, e.clientEnd? j kind = d.clientEnd? j kind) ∧
        ∀ w, d.window? j = some w → ∃ z, e.window? j = some { w with z } ∧
          (z = w.z ∨ w.isSystem = false ∧ e.lists j) := by
  have hedits : Edits ⟨(· = id),True⟩ (d.clientWrite id .event bytes).1
      ((d.clientWrite id .event bytes).1.serviceWindow id now) :=
    (deeds_serviceWindow .refl rfl trivial trivial trivial fun _ => .inr trivial).edits
  obtain ⟨hsame,hend⟩ := clientWrite_other d hj .event bytes
  obtain ⟨-,hc,hl,hv⟩ := hedits.outside (reachable_clientWrite h id .event bytes).distinct hj
  refine ⟨fun kind => (hc kind).trans (hend kind),fun w hjw => ?_⟩
  obtain ⟨z,hz,hzw⟩ := hv w (hsame.trans hjw)
  exact ⟨z,hz,hzw.imp_right fun hs => ⟨hs.2,hl.2 hs.1⟩⟩

theorem serviced_stack (id : WindowId) (bytes : List UInt8) (now : Time) {r : Registry}
    (hr : d.registry = some r) (hroom : r.order.length < 2147483648) :
    let e := (d.clientWrite id .event bytes).1.serviceWindow id now
    ∃ r', e.registry = some r' ∧ r'.sorted.filter (· != id) = r.sorted.filter (· != id) ∧
      e.Canonical r' := by
  have hsound := (reachable_clientWrite h id .event bytes).sound
  have hst : (d.clientWrite id .event bytes).1.look.stack = some (r.order,r.sorted) := by
    rw [look_clientWrite]
    exact stack_look hr
  have hres := restacked_serviceWindow hsound (roomy_of_stack hst hroom) id now
  have hroomy := hres.roomy (roomy_of_stack hst hroom)
  have hsome := hres.isSome
  rw [hst] at hsome
  obtain ⟨s',hs'⟩ := Option.isSome_iff_exists.1 hsome
  obtain ⟨r',hr',rfl⟩ := Option.map_eq_some_iff.1 hs'
  refine ⟨r',hr',?_,canonical_of_sound (sound_serviceWindow hsound id now) hr' ?_⟩
  · have hsorted := hres.sorted
    rwa [hs', sorted_of_stack rfl, sorted_of_stack hst] at hsorted
  · rw [hs'] at hroomy
    exact hroomy r'.order rfl

theorem supervised_other (event : Lifecycle) (group : Group) {j : WindowId} {w : Window}
    (hw : d.window? j = some w) (ho : w.owner ≠ group) :
    ∃ z, (d.handleLifecycle event group).window? j = some { w with z } := by
  have hout : j ∉ d.windowsOf group := by
    intro hm
    obtain ⟨v,hv,hvo⟩ := mem_windowsOf hm
    exact ho (Option.some.inj (hw.symm.trans hv) ▸ hvo)
  have hl : Edits ⟨(· ∈ d.windowsOf group),True⟩ d (d.handleLifecycle event group) :=
    (deeds_handleLifecycle .refl event group (fun _ hid => hid) trivial).edits
  obtain ⟨-,-,-,hv⟩ := hl.outside h.distinct hout
  obtain ⟨z,hz,-⟩ := hv w hw
  exact ⟨z,hz⟩

end

theorem serviceWindow?_clientWrite (h : Reachable d) (hrun : d.panicked = false) (id : WindowId)
    (bytes : List UInt8) {now : Time}
    (hspans : ∀ span ∈ d.agenda.spans, max d.now now+span < d.system.horizon) :
    ((d.clientWrite id .event bytes).1.serviceWindow? id now).isSome = true := by
  have ha := agenda_clientWrite d id .event bytes
  have hnow : (d.clientWrite id .event bytes).1.now = d.now := congrArg Agenda.now ha
  have hsystem : (d.clientWrite id .event bytes).1.system = d.system := congrArg Agenda.system ha
  have hruns := serviceWindow?_of_inTime (reachable_clientWrite h id .event bytes)
    ((congrArg Agenda.panicked ha).trans hrun) id (by rwa [ha, hnow, hsystem])
  rw [hruns]
  rfl

/-- Whatever a client writes on its event pipe, handling it does not end in a panic as long as the
deadlines can be expressed. At any time, unless it ends so, it leaves every other window as it is
and in its order. Only the heights of windows in their layers follow the sorting. What a supervisor
reports of a group concerns the windows of that group. -/
theorem service_isolated (h : Reachable d) (id : WindowId) (bytes : List UInt8) (now : Time) :
    (d.panicked = false → (∀ span ∈ d.agenda.spans, max d.now now+span < d.system.horizon) →
      ((d.clientWrite id .event bytes).1.serviceWindow? id now).isSome = true) ∧
    (∀ e, (d.clientWrite id .event bytes).1.serviceWindow? id now = some e →
      (∀ j, j ≠ id → (∀ kind, e.clientEnd? j kind = d.clientEnd? j kind) ∧
        ∀ w, d.window? j = some w → ∃ z, e.window? j = some { w with z } ∧
          (z = w.z ∨ w.isSystem = false ∧ e.lists j)) ∧
      ∀ r, d.registry = some r → r.order.length < 2147483648 → ∃ r', e.registry = some r' ∧
        r'.sorted.filter (· != id) = r.sorted.filter (· != id) ∧ e.Canonical r') ∧
    ∀ event group j w, d.window? j = some w → w.owner ≠ group →
      ∃ z, (d.handleLifecycle event group).window? j = some { w with z } := by
  refine ⟨fun hrun hspans => serviceWindow?_clientWrite h hrun id bytes hspans,fun e he => ?_,
    fun event group _ _ hw ho => supervised_other h event group hw ho⟩
  obtain ⟨-,rfl⟩ := running?_eq_some_iff.1 he
  exact ⟨fun _ hj => serviced_other h id bytes now hj,
    fun _ hr hroom => serviced_stack h id bytes now hr hroom⟩

/-- A client has its window raised, above a window of the service. -/
theorem service_isolated_raise :
    let d := ((fresh smallPanel .anonymous {} 24 1).perform (.createSystem none .rgb32)).perform
      (.create 100 (some ⟨1,1,2,2⟩) .rgb16)
    Reachable d ∧ d.panicked = false ∧
      (∀ span ∈ d.agenda.spans, max d.now 1000+span < d.system.horizon) ∧
      (d.window? 1).map (·.state) = some .loweredHidden ∧
      ∃ e, (d.clientWrite 1 .event [5,0]).1.serviceWindow? 1 1000 = some e ∧
        (e.window? 1).map (·.state) = some .raisedHidden ∧
        ∃ w, d.window? 0 = some w ∧ ∃ z, e.window? 0 = some { w with z } ∧
          (z = w.z ∨ w.isSystem = false ∧ e.lists 0) := by
  intro d
  have h : Reachable d := .act _ (.act _ (.fresh smallPanel .anonymous {} 24 1 {} rfl))
  have hrun : d.panicked = false := by decide +kernel
  have hspans : ∀ span ∈ d.agenda.spans, max d.now 1000+span < d.system.horizon := by
    decide +kernel
  have hsome : (d.window? 0).isSome = true := by decide +kernel
  have hraised : ((d.clientWrite 1 .event [5,0]).1.serviceWindow? 1 1000).bind
      (fun e => (e.window? 1).map (·.state)) = some .raisedHidden := by decide +kernel
  obtain ⟨w,hw⟩ := Option.isSome_iff_exists.1 hsome
  obtain ⟨hends,hframe,-⟩ := service_isolated h 1 [5,0] 1000
  obtain ⟨e,he⟩ := Option.isSome_iff_exists.1 (hends hrun hspans)
  rw [he] at hraised
  exact ⟨h,hrun,hspans,by decide +kernel,e,he,hraised,w,hw,((hframe e he).1 0 (by decide)).2 w hw⟩

end InkCompositor.Desktop
