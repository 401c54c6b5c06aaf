import Mathlib
import InkCompositor.Proofs.Desktop.Exposure

/-!
# Sorting the stack

A sorting only changes the order of the stack and the heights. The windows of
each layer come to lie in the order of their heights, so a layer whose heights
are distinct before has one outcome.
-/

set_option autoImplicit false

namespace InkCompositor

namespace Look

variable (l : Look)

def isSystem (id : WindowId) : Bool := (l.face id).any (·.isSystem)

def isRaised (id : WindowId) : Bool := (l.face id).any (·.state.isRaised)

def z (id : WindowId) : Int := ((l.height id).map Int32.toInt).getD 0

def setHeight (p : WindowId × Int32) : Look :=
  { l with height := fun id => if id = p.1 then (l.height id).map fun _ => p.2 else l.height id }

/-- The windows that are no system windows, divided by whether they are raised. -/
structure Layering (order low high : List WindowId) : Prop where
  perm : (low ++ high).Perm (order.filter fun id => !l.isSystem id)
  lowered : ∀ id ∈ low, l.isRaised id = false
  raised : ∀ id ∈ high, l.isRaised id = true

namespace Layering

variable {l : Look} {order low high low' high' : List WindowId}

theorem filter_lowered (h : l.Layering order low high) :
    (low ++ high).filter (fun id => !l.isRaised id) = low := by
  rw [List.filter_append, List.filter_eq_self.2 fun id hid => by simp [h.lowered id hid],
    List.filter_eq_nil_iff.2 fun id hid => by simp [h.raised id hid], List.append_nil]

theorem filter_raised (h : l.Layering order low high) :
    (low ++ high).filter l.isRaised = high := by
  rw [List.filter_append, List.filter_eq_nil_iff.2 fun id hid => by simp [h.lowered id hid],
    List.filter_eq_self.2 fun id hid => by simp [h.raised id hid], List.nil_append]

theorem low_perm (h : l.Layering order low high) (h' : l.Layering order low' high') :
    low.Perm low' := by
  rw [← h.filter_lowered, ← h'.filter_lowered]
  exact (h.perm.trans h'.perm.symm).filter _

theorem high_perm (h : l.Layering order low high) (h' : l.Layering order low' high') :
    high.Perm high' := by
  rw [← h.filter_raised, ← h'.filter_raised]
  exact (h.perm.trans h'.perm.symm).filter _

end Layering

theorem eq_of_increasing {z : WindowId → Int} {k m : List WindowId} (hp : k.Perm m)
    (hk : k.Pairwise fun i j => z i < z j) (hm : m.Pairwise fun i j => z i ≤ z j) : k = m := by
  have hn : (k.map z).Nodup := List.pairwise_map.2 (hk.imp fun h => ne_of_lt h)
  refine List.Perm.eq_of_pairwise (fun i j hi hj h1 h2 => ?_) (hk.imp fun h => le_of_lt h) hm hp
  exact List.inj_on_of_nodup_map hn hi (hp.mem_iff.2 hj) (le_antisymm h1 h2)

theorem Layering.unique {l : Look} {order low high low' high' : List WindowId}
    (h : l.Layering order low high) (h' : l.Layering order low' high')
    (hl : low.Pairwise fun i j => l.z i < l.z j) (hh : high.Pairwise fun i j => l.z i < l.z j)
    (hl' : low'.Pairwise fun i j => l.z i ≤ l.z j) (hh' : high'.Pairwise fun i j => l.z i ≤ l.z j) :
    low' = low ∧ high' = high :=
  ⟨(eq_of_increasing (h.low_perm h') hl hl').symm,(eq_of_increasing (h.high_perm h') hh hh').symm⟩

theorem height_foldl_setHeight_of_notMem (heights : List (WindowId × Int32)) (id : WindowId)
    (h : id ∉ heights.map (·.1)) : (heights.foldl setHeight l).height id = l.height id := by
  induction heights generalizing l with
  | nil => rfl
  | cons p heights ih =>
    simp only [List.map_cons, List.mem_cons, not_or] at h
    rw [List.foldl_cons, ih _ h.2, setHeight]
    simp [h.1]

theorem height_foldl_setHeight_of_mem (heights : List (WindowId × Int32))
    (hn : (heights.map (·.1)).Nodup) (p : WindowId × Int32) (hp : p ∈ heights)
    (hs : (l.height p.1).isSome = true) :
    (heights.foldl setHeight l).height p.1 = some p.2 := by
  induction heights generalizing l with
  | nil => simp at hp
  | cons q heights ih =>
    rw [List.map_cons, List.nodup_cons] at hn
    rw [List.foldl_cons]
    rcases List.mem_cons.1 hp with rfl | hp
    · rw [height_foldl_setHeight_of_notMem _ _ _ hn.1]
      obtain ⟨z,hz⟩ := Option.isSome_iff_exists.1 hs
      simp [setHeight, hz]
    · apply ih _ hn.2 hp
      by_cases h : p.1 = q.1 <;> simpa [setHeight, h] using hs

end Look

namespace Desktop

variable (d : Desktop)

theorem look_setHeight (id : WindowId) (z : Int32) :
    (d.setHeight id z).look = d.look.setHeight (id,z) := by
  have hw : d.look.height id = (d.window? id).map (·.z) := rfl
  unfold setHeight
  split
  · rename_i h
    have hh : (d.look.setHeight (id,z)).height = d.look.height := by
      funext j
      by_cases hj : j = id <;> simp [Look.setHeight, hj, hw, h]
    exact (congrArg (fun height => { d.look with height }) hh).symm
  · rename_i w h
    split
    · rename_i hz
      have hh : (d.look.setHeight (id,z)).height = d.look.height := by
        funext j
        by_cases hj : j = id <;> simp [Look.setHeight, hj, hw, h, hz]
      exact (congrArg (fun height => { d.look with height }) hh).symm
    · rw [look_notify, look_modify_eq]
      · refine congrArg₂ (fun face height => { d.look with face, height }) ?_ ?_
        · funext j
          apply congrArg (fun g => (d.window? j).map g)
          funext v
          split <;> rfl
        · funext j
          by_cases hj : j = id
          · simp [hj, hw, h, id_of_window? d h]
          · cases hv : d.window? j with
            | none => simp [hj, look, hv]
            | some v => simp [hj, look, hv, id_of_window? d hv]
      · exact fun _ => rfl

theorem look_foldl_setHeight (heights : List (WindowId × Int32)) :
    (heights.foldl (fun d p => d.setHeight p.1 p.2) d).look =
      heights.foldl Look.setHeight d.look := by
  induction heights generalizing d with
  | nil => rfl
  | cons p heights ih => rw [List.foldl_cons, ih, look_setHeight, List.foldl_cons]

theorem registry_setHeight (id : WindowId) (z : Int32) :
    (d.setHeight id z).registry = d.registry := by
  unfold setHeight
  split
  · rfl
  · split <;> rfl

theorem isSystem_of_window? {id : WindowId} {w : Window} (h : d.window? id = some w) :
    d.look.isSystem id = w.isSystem := by simp [Look.isSystem, look, h, Window.face]

theorem isRaised_of_window? {id : WindowId} {w : Window} (h : d.window? id = some w) :
    d.look.isRaised id = w.state.isRaised := by simp [Look.isRaised, look, h, Window.face]

theorem z_of_window? {id : WindowId} {w : Window} (h : d.window? id = some w) :
    d.look.z id = w.z.toInt := by simp [Look.z, look, h]

theorem layers_spec (ws : List Window) : (layers ws).1 = ws.filter (·.isSystem) ∧
    ((layers ws).2.1 ++ (layers ws).2.2).Perm (ws.filter (!·.isSystem)) ∧
    (∀ w ∈ (layers ws).2.1, w.state.isRaised = false) ∧
    (∀ w ∈ (layers ws).2.2, w.state.isRaised = true) ∧
    (layers ws).2.1.Pairwise (fun v w => v.z.toInt ≤ w.z.toInt) ∧
    (layers ws).2.2.Pairwise (fun v w => v.z.toInt ≤ w.z.toInt) := by
  have hs : ((ws.filter (!·.isSystem)).mergeSort
      fun v w => decide (v.z.toInt ≤ w.z.toInt)).Pairwise (fun v w => v.z.toInt ≤ w.z.toInt) := by
    refine (List.pairwise_mergeSort (fun u v w h1 h2 => ?_) (fun v w => ?_) _).imp
      fun h => of_decide_eq_true h
    · exact decide_eq_true (le_trans (of_decide_eq_true h1) (of_decide_eq_true h2))
    · simpa using le_total v.z.toInt w.z.toInt
  have he : layers ws = (ws.filter (·.isSystem),
      ((ws.filter (!·.isSystem)).mergeSort fun v w => decide (v.z.toInt ≤ w.z.toInt)).filter
        (!·.state.isRaised),
      ((ws.filter (!·.isSystem)).mergeSort fun v w => decide (v.z.toInt ≤ w.z.toInt)).filter
        (·.state.isRaised)) := by
    simp only [layers, List.partition_eq_filter_filter]
    rfl
  rw [he]
  refine ⟨rfl,?_,?_,?_,hs.filter _,hs.filter _⟩
  · exact (List.perm_append_comm.trans (List.filter_append_perm _ _)).trans
      (List.mergeSort_perm _ _)
  · intro w hw
    simpa using (List.mem_filter.1 hw).2
  · intro w hw
    exact (List.mem_filter.1 hw).2

variable {d}

theorem map_id_filterMap_window? (ids : List WindowId)
    (h : ∀ id ∈ ids, (d.look.face id).isSome = true) :
    (ids.filterMap d.window?).map (·.id) = ids := by
  induction ids with
  | nil => rfl
  | cons id ids ih =>
    obtain ⟨w,hw⟩ : ∃ w, d.window? id = some w := by
      simpa [look, Option.isSome_iff_exists] using h id (by simp)
    rw [List.filterMap_cons_some hw, List.map_cons, ih fun j hj => h j (by simp [hj]),
      id_of_window? d hw]

/-- A sorting yields a layering by height, and numbers each layer. -/
theorem sortWindows_eq {r : Registry} (hr : d.registry = some r)
    (ho : ∀ id ∈ r.order, (d.look.face id).isSome = true) :
    ∃ low high, d.look.Layering r.order low high ∧
      low.Pairwise (fun i j => d.look.z i ≤ d.look.z j) ∧
      high.Pairwise (fun i j => d.look.z i ≤ d.look.z j) ∧
      d.sortWindows = { (raisedHeights high ++ loweredHeights low).foldl
          (fun d p => d.setHeight p.1 p.2) d with
        registry := some { r with sorted := r.order.filter d.look.isSystem ++ low ++ high } } := by
  obtain ⟨hsys,hperm,hlow,hhigh,hl,hh⟩ := layers_spec (r.order.filterMap d.window?)
  have hmem : ∀ w ∈ r.order.filterMap d.window?, d.window? w.id = some w := fun w hw => by
    obtain ⟨id,-,hid⟩ := List.mem_filterMap.1 hw
    rwa [id_of_window? d hid]
  have hfilter : ∀ p : Window → Bool, ∀ g : WindowId → Bool,
      (∀ id w, d.window? id = some w → g id = p w) →
      ((r.order.filterMap d.window?).filter p).map (·.id) = r.order.filter g := by
    intro p g hg
    have h : ∀ w ∈ r.order.filterMap d.window?, p w = g w.id :=
      fun w hw => (hg _ _ (hmem w hw)).symm
    have hm := map_id_filterMap_window? _ ho
    calc ((r.order.filterMap d.window?).filter p).map (·.id)
        = ((r.order.filterMap d.window?).filter (g ∘ (·.id))).map (·.id) := by
          rw [List.filter_congr h]
          rfl
      _ = ((r.order.filterMap d.window?).map (·.id)).filter g := List.filter_map.symm
      _ = r.order.filter g := by rw [hm]
  have hin : ∀ w, w ∈ (layers (r.order.filterMap d.window?)).2.1 ∨
      w ∈ (layers (r.order.filterMap d.window?)).2.2 → d.window? w.id = some w := fun w hw =>
    hmem w (List.mem_of_mem_filter (hperm.subset (List.mem_append.2 hw)))
  refine ⟨(layers (r.order.filterMap d.window?)).2.1.map (·.id),
    (layers (r.order.filterMap d.window?)).2.2.map (·.id),⟨?_,?_,?_⟩,?_,?_,?_⟩
  · rw [← List.map_append, ← hfilter (!·.isSystem) _ fun id w hw => by
      rw [isSystem_of_window? d hw]]
    exact hperm.map _
  · intro id hid
    obtain ⟨w,hw,rfl⟩ := List.mem_map.1 hid
    rw [isRaised_of_window? d (hin w (.inl hw)), hlow w hw]
  · intro id hid
    obtain ⟨w,hw,rfl⟩ := List.mem_map.1 hid
    rw [isRaised_of_window? d (hin w (.inr hw)), hhigh w hw]
  · rw [List.pairwise_map]
    refine hl.imp_of_mem fun {v w} hv hw h => ?_
    rwa [z_of_window? d (hin v (.inl hv)), z_of_window? d (hin w (.inl hw))]
  · rw [List.pairwise_map]
    refine hh.imp_of_mem fun {v w} hv hw h => ?_
    rwa [z_of_window? d (hin v (.inr hv)), z_of_window? d (hin w (.inr hw))]
  · rw [← hfilter (·.isSystem) _ fun id w hw => isSystem_of_window? d hw, ← hsys]
    simp only [sortWindows, hr, r.inOrder_eq]

theorem sortWindows_spec {r : Registry} (hr : d.registry = some r)
    (ho : ∀ id ∈ r.order, (d.look.face id).isSome = true) :
    ∃ low high, d.look.Layering r.order low high ∧
      low.Pairwise (fun i j => d.look.z i ≤ d.look.z j) ∧
      high.Pairwise (fun i j => d.look.z i ≤ d.look.z j) ∧
      d.sortWindows.look = { (raisedHeights high ++ loweredHeights low).foldl Look.setHeight d.look
        with stack := some (r.order,r.order.filter d.look.isSystem ++ low ++ high) } := by
  obtain ⟨low,high,hl,hlow,hhigh,he⟩ := sortWindows_eq hr ho
  refine ⟨low,high,hl,hlow,hhigh,?_⟩
  rw [he, ← look_foldl_setHeight]
  rfl

end Desktop

end InkCompositor
