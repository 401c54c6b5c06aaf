import Mathlib
import InkCompositor.Proofs.Desktop.Damage

/-!
# Moving one window in the stack

Sorting after one window was raised, lowered, opened or closed moves that
window and leaves the order of all others alone, while there are fewer windows
than heights.
-/

set_option autoImplicit false

namespace InkCompositor

namespace Look

variable {l m : Look} {order low high : List WindowId} {id : WindowId}

theorem filter_ne_append_perm (hn : order.Nodup) (hid : id ∈ order) :
    (order.filter (· != id) ++ [id]).Perm order := by
  rw [← hn.erase_eq_filter]
  exact List.perm_append_singleton id _ |>.trans (List.perm_cons_erase hid).symm

theorem Layering.move (h : l.Layering order low high) (hn : order.Nodup) (hid : id ∈ order)
    (hs : ∀ j, m.isSystem j = l.isSystem j) (hns : l.isSystem id = false)
    (hr : ∀ j, j ≠ id → m.isRaised j = l.isRaised j) :
    (m.isRaised id = true →
      m.Layering order (low.filter (· != id)) (high.filter (· != id) ++ [id])) ∧
    (m.isRaised id = false →
      m.Layering order (id :: low.filter (· != id)) (high.filter (· != id))) := by
  have hperm : (low.filter (· != id) ++ (high.filter (· != id) ++ [id])).Perm
      (order.filter fun j => !m.isSystem j) := by
    simp only [hs]
    rw [← List.append_assoc, ← List.filter_append]
    refine (filter_ne_append_perm ?_ ?_).trans h.perm
    · exact h.perm.nodup_iff.2 (hn.filter _)
    · exact List.mem_append.2 (h.mem.2 ⟨hid,hns⟩)
  have hlow : ∀ j ∈ low.filter (· != id), m.isRaised j = false := fun j hj => by
    rw [hr j (by simpa using (List.mem_filter.1 hj).2), h.lowered j (List.mem_of_mem_filter hj)]
  have hhigh : ∀ j ∈ high.filter (· != id), m.isRaised j = true := fun j hj => by
    rw [hr j (by simpa using (List.mem_filter.1 hj).2), h.raised j (List.mem_of_mem_filter hj)]
  constructor
  · intro hid'
    refine ⟨hperm,hlow,fun j hj => ?_⟩
    rcases List.mem_append.1 hj with hj | hj
    · exact hhigh j hj
    · rw [List.mem_singleton.1 hj, hid']
  · intro hid'
    refine ⟨List.Perm.trans ?_ hperm,fun j hj => ?_,hhigh⟩
    · rw [← List.append_assoc]
      exact (List.perm_append_singleton id _).symm
    · rcases List.mem_cons.1 hj with rfl | hj
      · exact hid'
      · exact hlow j hj

def system (l : Look) : List WindowId := l.sorted.filter l.isSystem

def others (l : Look) : List WindowId := l.sorted.filter fun j => !l.isSystem j

def lowered (l : Look) : List WindowId := l.others.filter fun j => !l.isRaised j

def raised (l : Look) : List WindowId := l.others.filter l.isRaised

/-- The stack once a window has been brought to the top of the upper layer or to the bottom of the
lower one. A window of the service stays where it is. -/
def moved (l : Look) (id : WindowId) (up : Bool) : List WindowId :=
  if id ∈ l.others then
    if up then l.sorted.filter (· != id) ++ [id] else l.system ++ id :: l.others.filter (· != id)
  else l.sorted

/-- The stack once a window has been opened: on top of those of the service if it is one of them, on
top of the lower layer otherwise. -/
def inserted (l : Look) (id : WindowId) (isSystem : Bool) : List WindowId :=
  if isSystem then l.system ++ id :: l.others else l.system ++ l.lowered ++ id :: l.raised

theorem filter_ne_self {ids : List WindowId} (h : id ∉ ids) : ids.filter (· != id) = ids :=
  List.filter_eq_self.2 fun _ hj => bne_iff_ne.2 fun he => h (he ▸ hj)

theorem rises_of_moved {id : WindowId} (hm : m.sorted = l.moved id true) : Rises id l m := by
  intro below above hs
  rw [hm, moved]
  split
  · exact ⟨_,[],rfl,by simp⟩
  · exact ⟨below,above,hs,fun _ hj => hj⟩

theorem Layering.parts (h : l.Layering order low high)
    (hs : l.sorted = order.filter l.isSystem ++ low ++ high) :
    l.system = order.filter l.isSystem ∧ l.others = low ++ high ∧ l.lowered = low ∧
      l.raised = high := by
  have hns : ∀ j ∈ low ++ high, l.isSystem j = false := fun j hj =>
    (h.mem.1 (List.mem_append.1 hj)).2
  have hothers : l.others = low ++ high := by
    rw [others, hs, List.append_assoc, List.filter_append, List.filter_filter,
      List.filter_eq_self.2 fun j (hj : j ∈ low ++ high) => by simp [hns j hj]]
    simp
  refine ⟨?_,hothers,?_,?_⟩
  · rw [system, hs, List.append_assoc, List.filter_append, List.filter_filter,
      List.filter_eq_nil_iff.2 fun j (hj : j ∈ low ++ high) => by simp [hns j hj]]
    simp
  · rw [Look.lowered, hothers, h.filter_lowered]
  · rw [Look.raised, hothers, h.filter_raised]

section

variable (h : l.Sound)
include h

theorem Sound.sorted_eq : l.sorted = l.system ++ l.others ∧ l.others = l.lowered ++ l.raised := by
  cases hs : l.stack with
  | none => simp [system, others, lowered, raised, sorted, hs]
  | some s =>
    obtain ⟨low,high,hl,he,-⟩ := h.stacked s.1 s.2 hs
    have hsorted : l.sorted = s.1.filter l.isSystem ++ low ++ high := by
      rw [← he, sorted, hs]
      rfl
    obtain ⟨hsys,hothers,hlow,hhigh⟩ := hl.parts hsorted
    exact ⟨by rw [hsys, hothers, hsorted, List.append_assoc],by rw [hothers, hlow, hhigh]⟩

theorem Sound.filter_moved (id : WindowId) (up : Bool) :
    (l.moved id up).filter (· != id) = l.sorted.filter (· != id) := by
  unfold moved
  split
  · split
    · simp [List.filter_filter]
    · rw [h.sorted_eq.1]
      simp [List.filter_append, List.filter_filter]
  · rfl

theorem Sound.filter_inserted (hnew : id ∉ l.sorted) (isSystem : Bool) :
    (l.inserted id isSystem).filter (· != id) = l.sorted := by
  have hsorted : l.sorted = l.system ++ l.lowered ++ l.raised := by
    rw [h.sorted_eq.1, h.sorted_eq.2, List.append_assoc]
  refine Eq.trans ?_ (filter_ne_self hnew)
  unfold inserted
  split
  · simp [h.sorted_eq.1, List.filter_append]
  · simp [hsorted, List.filter_append]

end

/-- The heights in both layers increase, and none is the lowest or the highest there is. -/
structure Increasing (l : Look) (low high : List WindowId) : Prop where
  lowered : low.Pairwise fun i j => l.z i < l.z j
  raised : high.Pairwise fun i j => l.z i < l.z j
  lowered_range : ∀ id ∈ low, -2147483648 < l.z id ∧ l.z id < 0
  raised_range : ∀ id ∈ high, 0 ≤ l.z id ∧ l.z id < 2147483647

def Roomy (l : Look) : Prop :=
  ∀ order, l.stack.map (·.1) = some order → order.length < 2147483648

theorem roomy_of_stack {sorted : List WindowId} (hs : l.stack = some (order,sorted))
    (hlt : order.length < 2147483648) : l.Roomy := fun order' ho => by
  rw [hs] at ho
  exact Option.some.inj ho ▸ hlt

theorem Sound.increasing (h : l.Sound) (hroom : l.Roomy) {sorted : List WindowId}
    (hs : l.stack = some (order,sorted)) : ∃ low high, l.Layering order low high ∧
      sorted = order.filter l.isSystem ++ low ++ high ∧ l.Increasing low high := by
  obtain ⟨low,high,hl,he,hh⟩ := h.stacked order sorted hs
  obtain ⟨hlow,hhigh⟩ := hl.length_lt (hroom order (by rw [hs]; rfl))
  obtain ⟨h1,h2⟩ := lowered_increasing hh hlow
  obtain ⟨h3,h4⟩ := raised_increasing hh hhigh
  refine ⟨low,high,hl,he,h1,h3,fun id hid => ?_,fun id hid => ?_⟩
  · have := h2 id hid
    omega
  · have := h4 id hid
    omega

theorem pairwise_congr {ids : List WindowId} (hz : ∀ j ∈ ids, m.z j = l.z j)
    (h : ids.Pairwise fun i j => l.z i < l.z j) : ids.Pairwise fun i j => m.z i < m.z j :=
  h.imp_of_mem fun {i j} hi hj hij => by rwa [hz i hi, hz j hj]

theorem Increasing.raise (h : l.Increasing low high) (hz : ∀ j, j ≠ id → m.z j = l.z j)
    (hid : m.z id = 2147483647) : (low.filter (· != id)).Pairwise (fun i j => m.z i < m.z j) ∧
      (high.filter (· != id) ++ [id]).Pairwise (fun i j => m.z i < m.z j) := by
  have hne : ∀ ids : List WindowId, ∀ j ∈ ids.filter (· != id), m.z j = l.z j :=
    fun ids j hj => hz j (by simpa using (List.mem_filter.1 hj).2)
  refine ⟨pairwise_congr (hne low) (h.lowered.filter _),List.pairwise_append.2
    ⟨pairwise_congr (hne high) (h.raised.filter _),List.pairwise_singleton _ _,fun j hj i hi => ?_⟩⟩
  rw [List.mem_singleton.1 hi, hid, hne high j hj]
  exact (h.raised_range j (List.mem_of_mem_filter hj)).2

theorem Increasing.lower (h : l.Increasing low high) (hz : ∀ j, j ≠ id → m.z j = l.z j)
    (hid : m.z id = -2147483648) :
    (id :: low.filter (· != id)).Pairwise (fun i j => m.z i < m.z j) ∧
      (high.filter (· != id)).Pairwise (fun i j => m.z i < m.z j) := by
  have hne : ∀ ids : List WindowId, ∀ j ∈ ids.filter (· != id), m.z j = l.z j :=
    fun ids j hj => hz j (by simpa using (List.mem_filter.1 hj).2)
  refine ⟨List.pairwise_cons.2 ⟨fun j hj => ?_,pairwise_congr (hne low) (h.lowered.filter _)⟩,
    pairwise_congr (hne high) (h.raised.filter _)⟩
  rw [hid, hne low j hj]
  exact (h.lowered_range j (List.mem_of_mem_filter hj)).1

theorem Increasing.insert (h : l.Increasing low high) (hn : id ∉ low) (hn' : id ∉ high)
    (hz : ∀ j, j ≠ id → m.z j = l.z j) (hid : m.z id = 0) :
    (low ++ [id]).Pairwise (fun i j => m.z i < m.z j) ∧
      high.Pairwise (fun i j => m.z i < m.z j) := by
  have hlow : ∀ j ∈ low, m.z j = l.z j := fun j hj => hz j fun he => hn (he ▸ hj)
  have hhigh : ∀ j ∈ high, m.z j = l.z j := fun j hj => hz j fun he => hn' (he ▸ hj)
  refine ⟨List.pairwise_append.2 ⟨pairwise_congr hlow h.lowered,List.pairwise_singleton _ _,
    fun j hj i hi => ?_⟩,pairwise_congr hhigh h.raised⟩
  rw [List.mem_singleton.1 hi, hid, hlow j hj]
  exact (h.lowered_range j hj).2

end Look

namespace Desktop

open Look

variable {d : Desktop}

structure Restacked (id : WindowId) (l : Look) (stack : Option (List WindowId × List WindowId)) :
    Prop where
  isSome : stack.isSome = l.stack.isSome
  sorted : { l with stack }.sorted.filter (· != id) = l.sorted.filter (· != id)
  roomy : l.Roomy → { l with stack }.Roomy

theorem Restacked.refl (id : WindowId) (l : Look) : Restacked id l l.stack :=
  ⟨rfl,rfl,fun h => h⟩

theorem look_sortWindows (h : d.look.Ready) {order sorted low high : List WindowId}
    (hs : d.look.stack = some (order,sorted)) (hl : d.look.Layering order low high)
    (hlow : low.Pairwise fun i j => d.look.z i < d.look.z j)
    (hhigh : high.Pairwise fun i j => d.look.z i < d.look.z j) : ∃ height,
      d.sortWindows.look = { d.look with
        stack := some (order,order.filter d.look.isSystem ++ low ++ high), height } := by
  cases hr : d.registry with
  | none => simp [look, hr] at hs
  | some r =>
    rw [stack_look hr, Option.some.injEq, Prod.mk.injEq] at hs
    obtain ⟨rfl,rfl⟩ := hs
    obtain ⟨low',high',hl',hlow',hhigh',he⟩ := sortWindows_spec hr (h.stands _ _ (stack_look hr))
    obtain ⟨rfl,rfl⟩ := hl.unique hl' hlow hhigh hlow' hhigh'
    rw [foldl_setHeight_eq] at he
    exact ⟨_,he⟩

theorem sorted_of_stack {l : Look} {order sorted : List WindowId}
    (h : l.stack = some (order,sorted)) : l.sorted = sorted := by rw [Look.sorted, h]; rfl

section

variable {l : Look} (h : l.Sound) (hroom : l.Roomy) (hd : d.look.Ready)
  (hstack : d.look.stack = l.stack)
  (id : WindowId) (hf : ∀ j, j ≠ id → d.look.face j = l.face j)
include h hroom hd hstack hf

/-- Sorting once one window is parked above or below all others. -/
theorem restack_spec (hz : ∀ j, j ≠ id → d.look.z j = l.z j)
    (hs : d.look.isSystem id = l.isSystem id)
    (hid : d.look.isRaised id = true ∧ d.look.z id = 2147483647 ∨
      d.look.isRaised id = false ∧ d.look.z id = -2147483648) :
    ∃ stack height, d.sortWindows.look = { d.look with stack, height } ∧
      Restacked id l stack ∧ { l with stack }.sorted = l.moved id (d.look.isRaised id) := by
  cases hst : l.stack with
  | none =>
    have hnone : d.registry = none := by simpa [look, hst] using hstack
    have he : d.sortWindows = d := by simp [sortWindows, hnone]
    have hnil : l.sorted = [] := by simp [Look.sorted, hst]
    rw [he]
    exact ⟨d.look.stack,d.look.height,rfl,hstack ▸ .refl id l,by
      simp [hstack, Look.moved, Look.others, hnil]⟩
  | some s =>
    obtain ⟨order,sorted⟩ := s
    have hst' := hstack.trans hst
    have hsys : ∀ j, d.look.isSystem j = l.isSystem j := fun j => by
      by_cases hj : j = id
      · rw [hj, hs]
      · exact isSystem_congr (hf j hj)
    have hr : ∀ j, j ≠ id → d.look.isRaised j = l.isRaised j := fun j hj => isRaised_congr (hf j hj)
    have hn := h.nodup _ _ hst
    obtain ⟨low,high,hl,hsorted,hinc⟩ := h.increasing hroom hst
    have hlt := hroom order (by rw [hst]; rfl)
    have hfilter : order.filter d.look.isSystem = order.filter l.isSystem :=
      List.filter_congr fun j _ => hsys j
    have hold := (sorted_of_stack hst).trans hsorted
    obtain ⟨hsystem,hothers,-,-⟩ := hl.parts hold
    -- it is enough to know the outcome, the other windows follow
    suffices hgoal : ∃ height, d.sortWindows.look = { d.look with
        stack := some (order,l.moved id (d.look.isRaised id)), height } by
      obtain ⟨height,he⟩ := hgoal
      refine ⟨_,height,he,⟨by rw [hst]; rfl,?_,fun _ => roomy_of_stack rfl hlt⟩,sorted_of_stack rfl⟩
      rw [sorted_of_stack rfl, h.filter_moved]
    -- a window outside the stack, or below all layers, moves nowhere
    by_cases hmem : id ∈ l.others
    · obtain ⟨ho,hns⟩ := hl.mem.1 (List.mem_append.1 (hothers ▸ hmem))
      have hnsys : id ∉ order.filter l.isSystem := by simp [hns]
      obtain ⟨hup,hdown⟩ := hl.move hn ho hsys hns hr
      rcases hid with ⟨hraised,hzid⟩ | ⟨hlowered,hzid⟩
      · obtain ⟨hlow,hhigh⟩ := hinc.raise hz hzid
        have hmoved : l.moved id (d.look.isRaised id) = order.filter d.look.isSystem ++
            low.filter (· != id) ++ (high.filter (· != id) ++ [id]) := by
          rw [Look.moved, if_pos hmem, if_pos hraised, hold, hfilter, List.filter_append,
            List.filter_append, filter_ne_self hnsys, List.append_assoc]
        rw [hmoved]
        exact look_sortWindows hd hst' (hup hraised) hlow hhigh
      · obtain ⟨hlow,hhigh⟩ := hinc.lower hz hzid
        have hmoved : l.moved id (d.look.isRaised id) = order.filter d.look.isSystem ++
            id :: low.filter (· != id) ++ high.filter (· != id) := by
          rw [Look.moved, if_pos hmem, hlowered, if_neg Bool.false_ne_true, hsystem, hothers,
            hfilter, List.filter_append, List.append_assoc, List.cons_append]
        rw [hmoved]
        exact look_sortWindows hd hst' (hdown hlowered) hlow hhigh
    · have hne : ∀ j, j ∈ low ∨ j ∈ high → j ≠ id := fun j hj he =>
        hmem (he ▸ hothers ▸ List.mem_append.2 hj)
      have hl' : d.look.Layering order low high := hl.congr (fun j _ => hsys j)
        fun j hj hjs => hr j (hne j (hl.mem.2 ⟨hj,hjs⟩))
      rw [Look.moved, if_neg hmem, hold, ← hfilter]
      exact look_sortWindows hd hst' hl'
        (pairwise_congr (fun j hj => hz j (hne j (.inl hj))) hinc.lowered)
        (pairwise_congr (fun j hj => hz j (hne j (.inr hj))) hinc.raised)

theorem forget_spec (hz : ∀ j, j ≠ id → d.look.z j = l.z j) :
    ∃ stack height, (d.forget id).look = { d.look with stack, height } ∧
      Restacked id l stack ∧ id ∉ { l with stack }.sorted := by
  have hsame : d.look.sorted = l.sorted := by rw [Look.sorted, Look.sorted, hstack]
  unfold forget
  split
  · rename_i hr
    have hnil : d.look.sorted = [] := by simp [Look.sorted, look, hr]
    exact ⟨d.look.stack,d.look.height,rfl,hstack ▸ .refl id l,by simp [hstack, ← hsame, hnil]⟩
  · rename_i r hr
    have hst := hstack.symm.trans (stack_look hr)
    have hold := sorted_of_stack hst
    split
    · obtain ⟨low,high,hl,hsorted,hinc⟩ := h.increasing hroom hst
      have hne : ∀ ids : List WindowId, ∀ j ∈ ids.filter (· != id), j ≠ id :=
        fun ids j hj => by simpa using (List.mem_filter.1 hj).2
      let e := { d with registry := some { r with toWindowMap := r.remove id } }
      have hready : e.look.Ready := ready_setRegistry hd _
        ((hd.ascending _ _ (stack_look hr)).filter _) fun j hj =>
          hd.stands _ _ (stack_look hr) j (List.mem_of_mem_filter hj)
      have hsys : ∀ j ∈ r.order.filter (· != id), e.look.isSystem j = l.isSystem j :=
        fun j hj => isSystem_congr (hf j (hne _ j hj))
      have hl' : e.look.Layering (r.order.filter (· != id)) (low.filter (· != id))
          (high.filter (· != id)) := (hl.filter _).congr hsys
        fun j hj _ => isRaised_congr (hf j (hne _ j hj))
      obtain ⟨height,he⟩ := look_sortWindows hready (stack_look rfl) hl'
        (pairwise_congr (fun j hj => hz j (hne _ j hj)) (hinc.lowered.filter _))
        (pairwise_congr (fun j hj => hz j (hne _ j hj)) (hinc.raised.filter _))
      have hlt := hroom r.order (by rw [hst]; rfl)
      refine ⟨_,height,he,⟨by rw [hst]; rfl,?_,fun _ => roomy_of_stack rfl
        ((List.length_filter_le _ _).trans_lt hlt)⟩,?_⟩
      · rw [sorted_of_stack rfl, hold, hsorted, show ({ r with toWindowMap := r.remove id } :
          Registry).order = r.order.filter (· != id) from rfl, List.filter_congr hsys]
        simp only [List.filter_append, List.filter_filter, Bool.and_self]
        congr 2
        exact List.filter_congr fun j _ => by rw [Bool.and_left_comm, Bool.and_self, Bool.and_comm]
      · rw [sorted_of_stack rfl]
        simp
    · rename_i hc
      refine ⟨d.look.stack,d.look.height,rfl,hstack ▸ .refl id l,?_⟩
      rw [hstack, hold, (h.sorted_perm hst).mem_iff]
      simpa using hc

theorem insert_spec {r : Registry} (hst : l.stack = some (r.order,r.sorted))
    (hz : ∀ j, j ≠ id → d.look.z j = l.z j) (hlast : ∀ j ∈ r.order, j < id)
    (hk : (d.look.face id).isSome = true) (hid : d.look.isRaised id = false)
    (hzid : d.look.z id = 0) :
    let e := { d with registry := some { r with toWindowMap := r.insert id } }.sortWindows
    ∃ height, e.look = { d.look with
      stack := some (r.order ++ [id],l.inserted id (d.look.isSystem id)), height } := by
  intro e
  let e₀ := { d with registry := some { r with toWindowMap := r.insert id } }
  obtain ⟨low,high,hl,hsorted,hinc⟩ := h.increasing hroom hst
  obtain ⟨hsystem,hothers,hlowered,hraised⟩ := hl.parts ((sorted_of_stack hst).trans hsorted)
  have hne : ∀ j ∈ r.order, j ≠ id := fun j hj => (hlast j hj).ne
  have hnew : id ∉ r.order := fun hm => hne id hm rfl
  have hnl : id ∉ low := fun hm => hnew (hl.mem.1 (.inl hm)).1
  have hnh : id ∉ high := fun hm => hnew (hl.mem.1 (.inr hm)).1
  have hready : e₀.look.Ready := ready_setRegistry hd _
    (ascending_concat (hd.ascending _ _ (hstack.trans hst)) hlast) fun j hj => by
    rcases List.mem_append.1 hj with hj | hj
    · exact hd.stands _ _ (hstack.trans hst) j hj
    · rw [List.mem_singleton.1 hj]
      exact hk
  have hsys : ∀ j ∈ r.order, e₀.look.isSystem j = l.isSystem j :=
    fun j hj => isSystem_congr (hf j (hne j hj))
  have hl' : e₀.look.Layering r.order low high := hl.congr hsys
    fun j hj _ => isRaised_congr (hf j (hne j hj))
  have hfs : r.order.filter e₀.look.isSystem = r.order.filter l.isSystem := List.filter_congr hsys
  have hst₀ : e₀.look.stack = some (r.order ++ [id],r.sorted) := stack_look (d := e₀) rfl
  -- a system window leaves the layers alone, any other lies on top of the lowered ones
  cases hsid : d.look.isSystem id with
  | true =>
    have hl'' : e₀.look.Layering (r.order ++ [id]) low high :=
      ⟨by simpa [show e₀.look.isSystem id = true from hsid] using hl'.perm,hl'.lowered,hl'.raised⟩
    have hins : l.inserted id true = (r.order ++ [id]).filter e₀.look.isSystem ++ low ++ high := by
      rw [Look.inserted, if_pos rfl, hsystem, hothers, List.filter_append, hfs,
        List.filter_singleton, show e₀.look.isSystem id = true from hsid, cond_true]
      simp
    rw [hins]
    exact look_sortWindows hready hst₀ hl''
      (pairwise_congr (fun j hj => hz j fun he => hnl (he ▸ hj)) hinc.lowered)
      (pairwise_congr (fun j hj => hz j fun he => hnh (he ▸ hj)) hinc.raised)
  | false =>
    have hl'' : e₀.look.Layering (r.order ++ [id]) (low ++ [id]) high := by
      refine ⟨?_,fun j hj => ?_,hl'.raised⟩
      · rw [List.filter_append, List.filter_singleton,
          show (!e₀.look.isSystem id) = true from congrArg not hsid, cond_true]
        refine List.Perm.trans ?_ (hl'.perm.append_right [id])
        rw [List.append_assoc, List.append_assoc]
        exact List.perm_append_comm.append_left low
      · rcases List.mem_append.1 hj with hj | hj
        · exact hl'.lowered j hj
        · rw [List.mem_singleton.1 hj]
          exact hid
    have hins : l.inserted id false =
        (r.order ++ [id]).filter e₀.look.isSystem ++ (low ++ [id]) ++ high := by
      rw [Look.inserted, if_neg Bool.false_ne_true, hsystem, hlowered, hraised, List.filter_append,
        hfs, List.filter_singleton, show e₀.look.isSystem id = false from hsid, cond_false]
      simp
    obtain ⟨hlow,hhigh⟩ := hinc.insert hnl hnh hz hzid
    rw [hins]
    exact look_sortWindows hready hst₀ hl'' hlow hhigh

end

end Desktop

end InkCompositor
