import Mathlib
import InkCompositor.Proofs.Desktop.Consistency
import InkCompositor.Proofs.Desktop.Ordering
import InkCompositor.Proofs.Desktop.Touches

/-!
# Into the background and back

The windows of a group are lowered and raised one after the other, in the order
of their creation. So those of its clients come to lie in reverse order above
the windows of the service, and then in order on top of all others, however
they were stacked before.
-/

set_option autoImplicit false

namespace InkCompositor

namespace Look

variable {l m k : Look} {id : WindowId}

def order (l : Look) : List WindowId := (l.stack.map (·.1)).getD []

theorem Sound.mem_sorted (h : l.Sound) : id ∈ l.sorted ↔ id ∈ l.order := by
  cases hs : l.stack with
  | none => simp [Look.sorted, Look.order, hs]
  | some s => simp [Desktop.sorted_of_stack hs, Look.order, hs, (h.sorted_perm hs).mem_iff]

theorem Sound.nodup_order (h : l.Sound) : l.order.Nodup := by
  cases hs : l.stack with
  | none => simp [Look.order, hs]
  | some s => simpa [Look.order, hs] using h.nodup s.1 s.2 hs

def owns (l : Look) (group : Group) (id : WindowId) : Bool := (l.face id).any (·.owner == group)

def clients (l : Look) (ids : List WindowId) : List WindowId := ids.filter fun id => !l.isSystem id

structure Alike (l m : Look) : Prop where
  order : m.stack.map (·.1) = l.stack.map (·.1)
  isSystem : m.isSystem = l.isSystem
  owns : m.owns = l.owns

namespace Alike

theorem refl (l : Look) : l.Alike l := ⟨rfl,rfl,rfl⟩

theorem trans (h : l.Alike m) (h' : m.Alike k) : l.Alike k :=
  ⟨h'.order.trans h.order,h'.isSystem.trans h.isSystem,h'.owns.trans h.owns⟩

theorem roomy (h : l.Alike m) (hl : l.Roomy) : m.Roomy := fun order ho => hl order (h.order ▸ ho)

theorem mem_sorted (h : l.Alike m) (hl : l.Sound) (hm : m.Sound) :
    id ∈ m.sorted ↔ id ∈ l.sorted := by
  rw [hl.mem_sorted, hm.mem_sorted, Look.order, Look.order, h.order]

theorem change (l : Look) (id : WindowId) (state : WindowState)
    {stack : Option (List WindowId × List WindowId)} (height : WindowId → Option Int32)
    (h : stack.map (·.1) = l.stack.map (·.1)) :
    l.Alike { l.change id fun v => { v with state, touching := [] } with stack, height } := by
  refine ⟨h,funext fun j => ?_,funext fun group => funext fun j => ?_⟩
  · by_cases hj : j = id
    · cases hf : l.face id <;> simp [Look.isSystem, Look.change, hj, hf]
    · simp [Look.isSystem, Look.change, hj]
  · by_cases hj : j = id
    · cases hf : l.face id <;> simp [Look.owns, Look.change, hj, hf]
    · simp [Look.owns, Look.change, hj]

end Alike

theorem clients_append (l : Look) (ids ids' : List WindowId) :
    l.clients (ids++ids') = l.clients ids ++ l.clients ids' := List.filter_append ..

theorem moved_of_system (h : l.isSystem id = true) (up : Bool) : l.moved id up = l.sorted :=
  if_neg (by simp [others, h])

section

variable {ids : List WindowId} (hnew : id ∉ l.clients ids)
  (hs : m.isSystem = l.isSystem) (hmem : id ∈ m.sorted)
include hnew hs hmem

theorem moved_up (hm : m.sorted = l.sorted.filter (· ∉ l.clients ids) ++ l.clients ids) :
    m.moved id true =
      l.sorted.filter (· ∉ l.clients (ids++[id])) ++ l.clients (ids++[id]) := by
  rw [clients_append]
  cases hsys : l.isSystem id with
  | true => simpa [moved_of_system (hs ▸ hsys), clients, hsys] using hm
  | false =>
    have hone : l.clients [id] = [id] := by simp [clients, hsys]
    rw [moved, if_pos (by simp [others, hmem, hs, hsys]), if_pos rfl, hone, hm,
      List.filter_append, filter_ne_self hnew, List.filter_filter, List.append_assoc]
    refine congrArg (· ++ _) (List.filter_congr fun j _ => ?_)
    by_cases hj : j = id <;> simp [hj]

theorem moved_down (hm : m.sorted =
      l.system ++ ((l.clients ids).reverse ++ l.others.filter (· ∉ l.clients ids))) :
    m.moved id false = l.system ++ ((l.clients (ids++[id])).reverse ++
      l.others.filter (· ∉ l.clients (ids++[id]))) := by
  rw [clients_append]
  cases hsys : l.isSystem id with
  | true => simpa [moved_of_system (hs ▸ hsys), clients, hsys] using hm
  | false =>
    have hone : l.clients [id] = [id] := by simp [clients, hsys]
    have hclient : ∀ j ∈ (l.clients ids).reverse ++ l.others.filter (· ∉ l.clients ids),
        l.isSystem j = false := by
      intro j hj
      rcases List.mem_append.1 hj with hj | hj
      · simpa [clients] using (List.mem_filter.1 (List.mem_reverse.1 hj)).2
      · simpa [others] using (List.mem_filter.1 (List.mem_of_mem_filter hj)).2
    have hsystem : ∀ j ∈ l.system, l.isSystem j = true := fun j hj => (List.mem_filter.1 hj).2
    have hlow : m.system = l.system := by
      rw [system, hs, hm, List.filter_append, List.filter_eq_self.2 hsystem,
        List.filter_eq_nil_iff.2 fun j hj => by simp [hclient j hj], List.append_nil]
    have hrest : m.others = (l.clients ids).reverse ++ l.others.filter (· ∉ l.clients ids) := by
      rw [others, hs, hm, List.filter_append,
        List.filter_eq_nil_iff.2 fun j hj => by simp [hsystem j hj], List.nil_append,
        List.filter_eq_self.2 fun j hj => by simp [hclient j hj]]
    rw [moved, if_pos (by simp [others, hmem, hs, hsys]), if_neg Bool.false_ne_true, hone, hlow,
      hrest, List.filter_append, filter_ne_self (by simpa using hnew), List.filter_filter,
      List.reverse_append, List.reverse_singleton, List.singleton_append, List.cons_append]
    refine congrArg (fun rest => l.system ++ id :: ((l.clients ids).reverse ++ rest))
      (List.filter_congr fun j _ => ?_)
    by_cases hj : j = id <;> simp [hj]

end

end Look

namespace Desktop

open Look

variable {d : Desktop} {id : WindowId} {w : Window}

theorem alike_damage {e : Desktop} (he : d.look.Alike e.look) {window : Option WindowId}
    (hin : ∀ id ∈ window, ∀ r, e.registry = some r → id ∈ r.order) (region : Rect) :
    d.look.Alike (e.damage window region).look := by
  obtain ⟨queue,ledger,trace,panicked,hd⟩ := e.damage_frame hin region
  rw [hd]
  exact he.trans ⟨rfl,rfl,rfl⟩

section

variable {caller : Group} (hs : d.look.Sound) (hroom : d.look.Roomy) (h : d.Honours id caller w)
include hs hroom h

theorem alike_called (state : WindowState) (z : Int32) (m : Wire.Message)
    (hz : state.isRaised = true ∧ z.toInt = 2147483647 ∨
      state.isRaised = false ∧ z.toInt = -2147483648) :
    d.look.Alike ((d.logCall id caller).bring w state z m).look := by
  have hl := look_logCall d id caller
  obtain ⟨stack,height,hc,hst,-⟩ := changeLayer_spec (d := d.logCall id caller) (hl ▸ hs)
    (hl ▸ hroom) ((logCall_same id caller).1.trans h.1) state z hz
  rw [hl] at hc hst
  have he : ((d.logCall id caller).bring w state z m).look =
      { d.look.change id fun v => { v with state, touching := [] } with stack, height } := by
    rw [look_bring, hc]
  rw [he]
  refine .change _ _ _ _ ?_
  have hstack : ((d.logCall id caller).bring w state z m).look.stack = stack := by rw [he]
  have hsome := hst.isSome
  rw [← hstack] at hsome ⊢
  cases hr : ((d.logCall id caller).bring w state z m).registry with
  | none =>
    have hnone : d.registry = none := by simpa [look, hr] using hsome
    simp [look, hr, hnone]
  | some r =>
    obtain ⟨r',hr',ho⟩ := order_bring hr
    rw [registry_logCall] at hr'
    simp [look, hr, hr', ho]

theorem alike_raise (hin : ∀ r, d.registry = some r → id ∈ r.order) :
    d.look.Alike (d.raise id caller).look := by
  have he : d.raise id caller = _ := guardedDo_honoured h _
  have hshift := alike_called hs hroom h w.state.raise Int32.maxValue .raise
    (.inl ⟨WindowState.isRaised_raise h.2.2,by decide⟩)
  rw [he]
  dsimp only
  split
  · refine alike_damage hshift (fun i hi r hr => ?_) _
    obtain ⟨r',hr',horder⟩ := order_bring hr
    rw [horder, ← Option.some.inj hi, id_of_window? d h.1]
    exact hin r' (d.registry_logCall id caller ▸ hr')
  · exact hshift

theorem alike_lower : d.look.Alike (d.lower id caller).look := by
  have he : d.lower id caller = _ := guardedDo_honoured h _
  have hshift := alike_called hs hroom h w.state.lower Int32.minValue .lower
    (.inr ⟨WindowState.isRaised_lower w.state,by decide⟩)
  rw [he]
  dsimp only
  split
  · exact alike_damage hshift (by simp) _
  · exact hshift

end

/-- A sound desktop with the open windows of a look, in whatever order. -/
structure Rearranged (l : Look) (d : Desktop) : Prop where
  sound : d.look.Sound
  roomy : d.look.Roomy
  alike : l.Alike d.look

namespace Rearranged

variable {l : Look}

theorem honours (h : Rearranged l d) (hid : id ∈ d.look.sorted) :
    ∃ w, d.Honours id d.service w := by
  obtain ⟨w,hw⟩ : ∃ w, d.window? id = some w := by
    simpa [look, Option.isSome_iff_exists] using isSome_face_of_sorted h.sound hid
  obtain rfl := id_of_window? d hw
  exact ⟨w,honours_of_mem_openWindows h.sound (mem_openWindows h.sound hid hw) (by simp [permits])⟩

theorem raise (h : Rearranged l d) (hid : id ∈ d.look.sorted) :
    Rearranged l (d.raise id d.service) ∧
      (d.raise id d.service).look.sorted = d.look.moved id true := by
  obtain ⟨w,hw⟩ := h.honours hid
  have halike := alike_raise h.sound h.roomy hw fun r hr => by
    have hst := stack_look hr
    rwa [sorted_of_stack hst, (h.sound.sorted_perm hst).mem_iff] at hid
  exact ⟨⟨sound_raise h.sound ..,halike.roomy h.roomy,h.alike.trans halike⟩,
    (stack_raise h.sound h.roomy hw).2⟩

theorem lower (h : Rearranged l d) (hid : id ∈ d.look.sorted) :
    Rearranged l (d.lower id d.service) ∧
      (d.lower id d.service).look.sorted = d.look.moved id false := by
  obtain ⟨w,hw⟩ := h.honours hid
  have halike := alike_lower h.sound h.roomy hw
  exact ⟨⟨sound_lower h.sound ..,halike.roomy h.roomy,h.alike.trans halike⟩,
    (stack_lower h.sound h.roomy hw).2⟩

end Rearranged

section

variable (hs : d.look.Sound) (hroom : d.look.Roomy)
include hs hroom

theorem rearranged_foldl {f : Desktop → WindowId → Desktop} {g : List WindowId → List WindowId}
    (hnil : d.look.sorted = g [])
    (hf : ∀ {e : Desktop} {ids : List WindowId} {id : WindowId}, Rearranged d.look e →
      id ∈ e.look.sorted → id ∉ ids → e.look.sorted = g ids →
        Rearranged d.look (f e id) ∧ (f e id).look.sorted = g (ids ++ [id]))
    (ids : List WindowId) (hn : ids.Nodup) (hin : ∀ id ∈ ids, id ∈ d.look.sorted) :
    Rearranged d.look (ids.foldl f d) ∧ (ids.foldl f d).look.sorted = g ids := by
  induction ids using List.reverseRecOn with
  | nil => exact ⟨⟨hs,hroom,.refl _⟩,hnil⟩
  | append_singleton ids id ih =>
    obtain ⟨hn,hnew⟩ := List.nodup_append_comm.trans List.nodup_cons |>.1 hn |>.symm
    obtain ⟨h,hsorted⟩ := ih hn fun j hj => hin j (List.mem_append_left _ hj)
    have hid := (h.alike.mem_sorted hs h.sound).2 (hin id (by simp))
    rw [List.foldl_append]
    exact hf h hid hnew hsorted

theorem rearranged_raise (ids : List WindowId) (hn : ids.Nodup)
    (hin : ∀ id ∈ ids, id ∈ d.look.sorted) :
    Rearranged d.look (ids.foldl (fun d id => d.raise id d.service) d) ∧
      (ids.foldl (fun d id => d.raise id d.service) d).look.sorted =
        d.look.sorted.filter (· ∉ d.look.clients ids) ++ d.look.clients ids := by
  refine rearranged_foldl hs hroom (g := fun ids => d.look.sorted.filter
    (· ∉ d.look.clients ids) ++ d.look.clients ids) (by simp [clients]) ?_ ids hn hin
  intro e ids id h hid hnew hsorted
  obtain ⟨h',hmoved⟩ := h.raise hid
  exact ⟨h',hmoved.trans (moved_up (fun hm => hnew (List.mem_of_mem_filter hm))
    h.alike.isSystem hid hsorted)⟩

theorem rearranged_lower (ids : List WindowId) (hn : ids.Nodup)
    (hin : ∀ id ∈ ids, id ∈ d.look.sorted) :
    Rearranged d.look (ids.foldl (fun d id => d.lower id d.service) d) ∧
      (ids.foldl (fun d id => d.lower id d.service) d).look.sorted =
        d.look.system ++ ((d.look.clients ids).reverse ++
          d.look.others.filter (· ∉ d.look.clients ids)) := by
  refine rearranged_foldl hs hroom (g := fun ids => d.look.system ++
    ((d.look.clients ids).reverse ++ d.look.others.filter (· ∉ d.look.clients ids)))
      (by simpa [clients] using hs.sorted_eq.1) ?_ ids hn hin
  intro e ids id h hid hnew hsorted
  obtain ⟨h',hmoved⟩ := h.lower hid
  exact ⟨h',hmoved.trans (moved_down (fun hm => hnew (List.mem_of_mem_filter hm))
    h.alike.isSystem hid hsorted)⟩

end

/-- The open windows that clients of a group have created, in the order of their creation. -/
def clientsOf (d : Desktop) (group : Group) : List WindowId :=
  ((d.openWindows.filter (·.owner == group)).filter (!·.isSystem)).map (·.id)

/-- The same windows from the bottom to the top. -/
def clientStack (d : Desktop) (group : Group) : List WindowId :=
  ((d.sortedWindows.filter (·.owner == group)).filter (!·.isSystem)).map (·.id)

def stackOf (d : Desktop) (group : Group) : List WindowId :=
  (d.sortedWindows.filter (·.owner == group)).map (·.id)

theorem owns_of_window? (group : Group) (hw : d.window? id = some w) :
    d.look.owns group id = (w.owner == group) := by simp [Look.owns, look, hw, Window.face]

section

variable (hs : d.look.Sound) (group : Group)
include hs

theorem ids_filter_openWindows {p : WindowId → Bool} {q : Window → Bool}
    (hp : ∀ {id w}, d.window? id = some w → p id = q w) :
    (d.openWindows.filter q).map (·.id) = d.look.order.filter p := by
  cases hr : d.registry with
  | none => simp [openWindows, look, Look.order, hr]
  | some r =>
    rw [openWindows_eq hr, ← filterMap_window?_filter hp, Look.order, stack_look hr]
    exact map_id_filterMap_window? _ fun id hid =>
      hs.stands _ _ (stack_look hr) id (List.mem_of_mem_filter hid)

theorem windowsOf_eq : d.windowsOf group =
    d.look.order.filter (d.look.owns group) :=
  ids_filter_openWindows hs (owns_of_window? group)

theorem clientsOf_eq : d.clientsOf group = d.look.clients (d.windowsOf group) := by
  rw [windowsOf_eq hs, clients, List.filter_filter, clientsOf, List.filter_filter]
  exact ids_filter_openWindows hs fun hw => by
    rw [isSystem_of_window? d hw, owns_of_window? group hw]

theorem stackOf_eq : d.stackOf group = d.look.sorted.filter (d.look.owns group) :=
  ids_filter_sortedWindows hs (owns_of_window? group)

theorem clientStack_eq : d.clientStack group = d.look.others.filter (d.look.owns group) := by
  rw [others, List.filter_filter, clientStack, List.filter_filter]
  exact ids_filter_sortedWindows hs fun hw => by
    rw [isSystem_of_window? d hw, owns_of_window? group hw, Bool.and_comm]

theorem nodup_windowsOf : (d.windowsOf group).Nodup := by
  rw [windowsOf_eq hs]
  exact hs.nodup_order.filter _

theorem mem_sorted_of_mem_windowsOf (hid : id ∈ d.windowsOf group) : id ∈ d.look.sorted := by
  rw [windowsOf_eq hs] at hid
  exact hs.mem_sorted.2 (List.mem_of_mem_filter hid)

variable {group} in
theorem clientsOf_congr {e : Desktop} (he : e.look.Sound) (h : d.look.Alike e.look) :
    e.clientsOf group = d.clientsOf group := by
  rw [clientsOf_eq he, clientsOf_eq hs, windowsOf_eq he, windowsOf_eq hs, Look.order, Look.order,
    h.order, h.owns, clients, clients, h.isSystem]

theorem mem_clientsOf (hid : id ∈ d.look.sorted) :
    id ∈ d.clientsOf group ↔ d.look.owns group id = true ∧ d.look.isSystem id = false := by
  rw [clientsOf_eq hs, clients, windowsOf_eq hs]
  simp [hs.mem_sorted.1 hid, and_comm]

variable (hroom : d.look.Roomy)
include hroom

/-- In the background the windows of clients lie directly above those of the service, the one that
was created first on top. -/
theorem rearranged_background : Rearranged d.look (d.handleLifecycle .background group) ∧
    (d.handleLifecycle .background group).look.sorted = d.look.system ++
      ((d.clientsOf group).reverse ++ d.look.others.filter (· ∉ d.clientsOf group)) := by
  rw [clientsOf_eq hs]
  exact rearranged_lower (d := d.log .debug "Supervisor event") hs hroom (d.windowsOf group)
    (nodup_windowsOf hs group) fun _ hid => mem_sorted_of_mem_windowsOf hs group hid

/-- In the foreground they lie on top of all others, the one that was created last on top. -/
theorem rearranged_foreground : Rearranged d.look (d.handleLifecycle .foreground group) ∧
    (d.handleLifecycle .foreground group).look.sorted =
      d.look.sorted.filter (· ∉ d.clientsOf group) ++ d.clientsOf group := by
  rw [clientsOf_eq hs]
  exact rearranged_raise (d := d.log .debug "Supervisor event") hs hroom (d.windowsOf group)
    (nodup_windowsOf hs group) fun _ hid => mem_sorted_of_mem_windowsOf hs group hid

theorem rearranged_switch :
    let e := (d.handleLifecycle .background group).handleLifecycle .foreground group
    Rearranged d.look e ∧ e.look.sorted =
      d.look.sorted.filter (· ∉ d.clientsOf group) ++ d.clientsOf group := by
  obtain ⟨hb,hlow⟩ := rearranged_background hs group hroom
  obtain ⟨hf,hup⟩ := rearranged_foreground hb.sound group hb.roomy
  refine ⟨⟨hf.sound,hf.roomy,hb.alike.trans hf.alike⟩,?_⟩
  rw [hup, clientsOf_congr hs hb.sound hb.alike, hlow, hs.sorted_eq.1]
  refine congrArg (· ++ _) ?_
  simp [List.filter_append, List.filter_filter]

theorem stackOf_switch :
    let e := (d.handleLifecycle .background group).handleLifecycle .foreground group
    e.stackOf group = d.look.system.filter (d.look.owns group) ++ d.clientsOf group := by
  intro e
  obtain ⟨h,hsorted⟩ := rearranged_switch hs group hroom
  have hclient : ∀ j ∈ d.clientsOf group, d.look.owns group j = true := fun j hj => by
    rw [clientsOf_eq hs, windowsOf_eq hs] at hj
    exact (List.mem_filter.1 (List.mem_of_mem_filter hj)).2
  rw [stackOf_eq h.sound, hsorted, h.alike.owns, List.filter_append,
    List.filter_eq_self.2 hclient, Look.system, List.filter_filter, List.filter_filter]
  refine congrArg (· ++ _) (List.filter_congr fun j hj => ?_)
  have hmem := mem_clientsOf hs group hj
  cases ho : d.look.owns group j <;> cases hsys : d.look.isSystem j <;> simp [hmem, ho, hsys]

end

/-- An application that is switched into the background and back has the windows of its clients on
top of the stack in the order of their creation, and all others lie as before. So its windows keep
their order just if those of its clients lay in that order, as they do from then on. -/
theorem switched_to_creation_order (h : Occurs d) {r : Registry} (hr : d.registry = some r)
    (hroom : r.order.length < 2147483648) (group : Group) :
    let e := (d.handleLifecycle .background group).handleLifecycle .foreground group
    e.stackIds = d.stackIds.filter (· ∉ d.clientsOf group) ++ d.clientsOf group ∧
      (e.stackOf group = d.stackOf group ↔ d.clientStack group = d.clientsOf group) ∧
      ((e.handleLifecycle .background group).handleLifecycle .foreground group).stackIds =
        e.stackIds := by
  intro e
  have hs := h.sound
  have hroomy := roomy_of_stack (stack_look hr) hroom
  obtain ⟨he,hsorted⟩ := rearranged_switch hs group hroomy
  obtain ⟨hf,hagain⟩ := rearranged_switch he.sound group he.roomy
  refine ⟨?_,?_,?_⟩
  · rw [stackIds_eq he.sound, stackIds_eq hs, hsorted]
  · rw [stackOf_switch hs group hroomy, stackOf_eq hs, clientStack_eq hs group,
      hs.sorted_eq.1, List.filter_append, List.append_right_inj, eq_comm]
  · rw [stackIds_eq hf.sound, stackIds_eq he.sound, hagain, clientsOf_congr hs he.sound he.alike,
      hsorted]
    simp [List.filter_append, List.filter_filter]

def swapped : Desktop :=
  ((((fresh smallPanel .anonymous {} 24 1).perform (.create 100 (some ⟨0,0,2,2⟩) .rgb16)).perform
    (.create 100 (some ⟨1,1,2,2⟩) .rgb16)).perform (.raise 1 100)).perform (.raise 0 100)

theorem reachable_swapped : Reachable swapped :=
  .act _ (.act _ (.act _ (.act _ (.fresh _ _ _ _ _ _ rfl))))

theorem switched_to_creation_order_swapped :
    let e := (swapped.handleLifecycle .background 100).handleLifecycle .foreground 100
    ∃ r, swapped.registry = some r ∧ r.order.length < 2147483648 ∧ Occurs swapped ∧
      swapped.clientsOf 100 = [0,1] ∧ swapped.clientStack 100 = [1,0] ∧
      e.stackIds = swapped.stackIds.filter (· ∉ swapped.clientsOf 100) ++ swapped.clientsOf 100 ∧
      (e.stackOf 100 = swapped.stackOf 100 ↔ swapped.clientStack 100 = swapped.clientsOf 100) ∧
      ((e.handleLifecycle .background 100).handleLifecycle .foreground 100).stackIds =
        e.stackIds := by
  intro e
  have h : Occurs swapped := .reachable reachable_swapped
  have hs : swapped.registry.map (·.order) = some [0,1] := by cbv
  obtain ⟨r,hr,horder⟩ := Option.map_eq_some_iff.1 hs
  have hroom : r.order.length < 2147483648 := by
    rw [horder]
    decide
  exact ⟨r,hr,hroom,h,by cbv,by cbv,
    switched_to_creation_order h hr hroom 100⟩

/-- All windows of the application are raised, and yet they change places. -/
theorem switching_reorders : ∃ d, Reachable d ∧
    (∀ w ∈ d.openWindows, w.owner = 100 → w.isSystem = false ∧ w.state.isRaised = true) ∧
    d.stackOf 100 = [1,0] ∧
    ((d.handleLifecycle .background 100).handleLifecycle .foreground 100).stackOf 100 = [0,1] := by
  refine ⟨swapped,reachable_swapped,?_,by cbv,by cbv⟩
  have hall : swapped.openWindows.all fun w => !w.isSystem && w.state.isRaised := by cbv
  intro w hw _
  simpa using List.all_eq_true.1 hall w hw

end Desktop

end InkCompositor
