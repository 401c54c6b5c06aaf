import Mathlib
import InkCompositor.Proofs.Desktop.Sorting

/-!
# Sound desktops

What holds of every desktop that comes about: images are as large as their
windows, every window of the stack exists and is open, and the stack is divided
into layers whose heights are the positions in them. A desktop is ready if it
holds all but for the order of the stack and for a window that is being closed;
a sorting makes a ready desktop without closed windows sound.
-/

set_option autoImplicit false

namespace InkCompositor

namespace Look

structure Ready (l : Look) : Prop where
  panel : l.raster.id = 0
  fresh : 0 < l.nextImage
  known : ∀ id w, l.face id = some w → w.id = id ∧ id < l.nextWindow
  fitted : ∀ id w, l.face id = some w → w.Fitted
  tall : ∀ id, (l.height id).isSome = (l.face id).isSome
  ascending : ∀ order sorted, l.stack = some (order,sorted) → order.Pairwise (· < ·)
  stands : ∀ order sorted, l.stack = some (order,sorted) → ∀ id ∈ order, (l.face id).isSome = true

/-- The stack is divided into layers, and the heights are the positions. -/
def Stacked (l : Look) (order sorted : List WindowId) : Prop :=
  ∃ low high, l.Layering order low high ∧ sorted = order.filter l.isSystem ++ low ++ high ∧
    ∀ p ∈ Desktop.raisedHeights high ++ Desktop.loweredHeights low, l.height p.1 = some p.2

def Unclosed (l : Look) : Prop :=
  ∀ order sorted, l.stack = some (order,sorted) → ∀ id ∈ order, ∀ w, l.face id = some w →
    w.state ≠ .closed

structure Sound (l : Look) : Prop extends Ready l where
  stacked : ∀ order sorted, l.stack = some (order,sorted) → l.Stacked order sorted
  unclosed : l.Unclosed

theorem Ready.nodup {l : Look} (h : l.Ready) (order sorted : List WindowId)
    (hs : l.stack = some (order,sorted)) : order.Nodup :=
  (h.ascending order sorted hs).imp fun hij => hij.ne

theorem sorted_perm {l : Look} {order low high : List WindowId} (h : l.Layering order low high) :
    (order.filter l.isSystem ++ low ++ high).Perm order := by
  rw [List.append_assoc]
  exact (h.perm.append_left _).trans (List.filter_append_perm _ _)

namespace Sound

variable {l : Look} (h : l.Sound)
include h

theorem sorted_perm {order sorted : List WindowId} (hs : l.stack = some (order,sorted)) :
    sorted.Perm order := by
  obtain ⟨low,high,hl,rfl,-⟩ := h.stacked order sorted hs
  exact Look.sorted_perm hl

theorem nodup_sorted : l.sorted.Nodup := by
  rw [sorted]
  cases hs : l.stack with
  | none => exact List.nodup_nil
  | some s => exact (h.sorted_perm hs).nodup_iff.2 (h.nodup s.1 s.2 hs)

end Sound

theorem Layering.filter {l : Look} {order low high : List WindowId}
    (h : l.Layering order low high) (p : WindowId → Bool) :
    l.Layering (order.filter p) (low.filter p) (high.filter p) where
  perm := by
    rw [← List.filter_append, List.filter_filter]
    refine (h.perm.filter p).trans (List.Perm.of_eq ?_)
    rw [List.filter_filter]
    simp only [Bool.and_comm]
  lowered id hid := h.lowered id (List.mem_of_mem_filter hid)
  raised id hid := h.raised id (List.mem_of_mem_filter hid)

theorem mem_raisedHeights (high : List WindowId) (i : Nat) (hi : i < high.length) :
    (high[i],Int32.ofInt i) ∈ Desktop.raisedHeights high :=
  List.mem_map.2 ⟨(high[i],i),List.mk_mem_zipIdx_iff_getElem?.2 (List.getElem?_eq_getElem hi),rfl⟩

theorem mem_loweredHeights (low : List WindowId) (i : Nat) (hi : i < low.reverse.length) :
    (low.reverse[i],Int32.ofInt (-(i : Int)-1)) ∈ Desktop.loweredHeights low :=
  List.mem_map.2 ⟨(low.reverse[i],i),
    List.mk_mem_zipIdx_iff_getElem?.2 (List.getElem?_eq_getElem hi),rfl⟩

theorem map_fst_raisedHeights (high : List WindowId) :
    (Desktop.raisedHeights high).map (·.1) = high := by
  rw [Desktop.raisedHeights, List.map_map]
  exact List.zipIdx_map_fst 0 high

theorem map_fst_loweredHeights (low : List WindowId) :
    (Desktop.loweredHeights low).map (·.1) = low.reverse := by
  rw [Desktop.loweredHeights, List.map_map]
  exact List.zipIdx_map_fst 0 low.reverse

section Positions

variable {l : Look} {low high : List WindowId}
  (h : ∀ p ∈ Desktop.raisedHeights high ++ Desktop.loweredHeights low, l.height p.1 = some p.2)
include h

theorem z_raised (hb : high.length < 2147483648) (i : Nat) (hi : i < high.length) :
    l.z high[i] = i := by
  rw [z, h _ (List.mem_append_left _ (mem_raisedHeights high i hi))]
  exact Int32.toInt_ofInt_of_le (by omega) (by omega)

theorem z_lowered (hb : low.length < 2147483648) (i : Nat) (hi : i < low.reverse.length) :
    l.z low.reverse[i] = -(i : Int)-1 := by
  rw [z, h _ (List.mem_append_right _ (mem_loweredHeights low i hi))]
  rw [List.length_reverse] at hi
  exact Int32.toInt_ofInt_of_le (by omega) (by omega)

theorem raised_increasing (hb : high.length < 2147483648) :
    high.Pairwise (fun i j => l.z i < l.z j) ∧
      ∀ id ∈ high, 0 ≤ l.z id ∧ l.z id < high.length := by
  constructor
  · rw [List.pairwise_iff_getElem]
    intro i j hi hj hij
    rw [z_raised h hb i hi, z_raised h hb j hj]
    omega
  · intro id hid
    obtain ⟨i,hi,rfl⟩ := List.getElem_of_mem hid
    rw [z_raised h hb i hi]
    omega

theorem lowered_increasing (hb : low.length < 2147483648) :
    low.Pairwise (fun i j => l.z i < l.z j) ∧
      ∀ id ∈ low, -(low.length : Int) ≤ l.z id ∧ l.z id < 0 := by
  constructor
  · rw [← List.reverse_reverse low, List.pairwise_reverse, List.pairwise_iff_getElem]
    intro i j hi hj hij
    rw [z_lowered h hb i hi, z_lowered h hb j hj]
    omega
  · intro id hid
    obtain ⟨i,hi,rfl⟩ := List.getElem_of_mem (List.mem_reverse.2 hid)
    rw [z_lowered h hb i hi]
    rw [List.length_reverse] at hi
    omega

end Positions

theorem Layering.mem {l : Look} {order low high : List WindowId} (h : l.Layering order low high)
    {id : WindowId} : id ∈ low ∨ id ∈ high ↔ id ∈ order ∧ l.isSystem id = false := by
  rw [← List.mem_append, h.perm.mem_iff, List.mem_filter]
  simp

theorem Layering.length_lt {l : Look} {order low high : List WindowId}
    (h : l.Layering order low high) {n : Nat} (hn : order.length < n) :
    low.length < n ∧ high.length < n := by
  have hlen := h.perm.length_eq
  have hle := List.length_filter_le (fun id => !l.isSystem id) order
  rw [List.length_append] at hlen
  omega

theorem Layering.congr {l m : Look} {order low high : List WindowId}
    (h : l.Layering order low high) (hs : ∀ id ∈ order, m.isSystem id = l.isSystem id)
    (hr : ∀ id ∈ order, l.isSystem id = false → m.isRaised id = l.isRaised id) :
    m.Layering order low high where
  perm := by
    rw [List.filter_congr fun id hid => by rw [hs id hid]]
    exact h.perm
  lowered id hid := by
    obtain ⟨ho,hid'⟩ := h.mem.1 (.inl hid)
    rw [hr id ho hid', h.lowered id hid]
  raised id hid := by
    obtain ⟨ho,hid'⟩ := h.mem.1 (.inr hid)
    rw [hr id ho hid', h.raised id hid]

theorem Stacked.congr {l m : Look} {order sorted : List WindowId} (h : l.Stacked order sorted)
    (hf : ∀ id ∈ order, m.isSystem id = l.isSystem id ∧ m.isRaised id = l.isRaised id ∧
      m.height id = l.height id) : m.Stacked order sorted := by
  obtain ⟨low,high,hl,rfl,hh⟩ := h
  refine ⟨low,high,hl.congr (fun id hid => (hf id hid).1) fun id hid _ => (hf id hid).2.1,?_,
    fun p hp => ?_⟩
  · rw [List.filter_congr fun id hid => (hf id hid).1.symm]
  · have ho : p.1 ∈ order := by
      refine (hl.mem.1 ?_).1
      have hm := List.mem_map_of_mem (f := (·.1)) hp
      rw [List.map_append, map_fst_raisedHeights, map_fst_loweredHeights, List.mem_append,
        List.mem_reverse] at hm
      exact hm.symm
    rw [(hf p.1 ho).2.2, hh p hp]

theorem isSystem_congr {l m : Look} {id : WindowId} (h : m.face id = l.face id) :
    m.isSystem id = l.isSystem id := by rw [isSystem, isSystem, h]

theorem isRaised_congr {l m : Look} {id : WindowId} (h : m.face id = l.face id) :
    m.isRaised id = l.isRaised id := by rw [isRaised, isRaised, h]

theorem Ready.congr {l m : Look} (h : l.Ready) (hr : m.raster.id = l.raster.id)
    (hi : l.nextImage ≤ m.nextImage) (hw : m.nextWindow = l.nextWindow) (hs : m.stack = l.stack)
    (hf : m.face = l.face) (hh : ∀ id, (m.height id).isSome = (l.height id).isSome) : m.Ready where
  panel := hr.trans h.panel
  fresh := h.fresh.trans_le hi
  known := hf ▸ hw ▸ h.known
  fitted := hf ▸ h.fitted
  tall id := by rw [hh, hf, h.tall]
  ascending := hs ▸ h.ascending
  stands := hf ▸ hs ▸ h.stands

theorem Sound.congr {l m : Look} (h : l.Sound) (hr : m.raster.id = l.raster.id)
    (hi : l.nextImage ≤ m.nextImage) (hw : m.nextWindow = l.nextWindow) (hs : m.stack = l.stack)
    (hf : m.face = l.face) (hh : m.height = l.height) : m.Sound where
  toReady := h.toReady.congr hr hi hw hs hf fun id => by rw [hh]
  stacked order sorted ho := (h.stacked order sorted (hs ▸ ho)).congr fun id _ =>
    ⟨isSystem_congr (by rw [hf]),isRaised_congr (by rw [hf]),by rw [hh]⟩
  unclosed := by
    rw [Unclosed, hs, hf]
    exact h.unclosed

theorem isSome_foldl_setHeight (l : Look) (heights : List (WindowId × Int32)) (id : WindowId) :
    ((heights.foldl setHeight l).height id).isSome = (l.height id).isSome := by
  induction heights generalizing l with
  | nil => rfl
  | cons p heights ih =>
    rw [List.foldl_cons, ih]
    by_cases h : id = p.1 <;> simp [setHeight, h]

theorem foldl_setHeight_eq (l : Look) (heights : List (WindowId × Int32)) :
    heights.foldl setHeight l = { l with height := (heights.foldl setHeight l).height } := by
  induction heights generalizing l with
  | nil => rfl
  | cons p heights ih =>
    rw [List.foldl_cons, ih]
    rfl

end Look

namespace Desktop

variable {d : Desktop}

open Look

/-- A sorting makes a ready desktop sound. -/
theorem sound_sortWindows (h : d.look.Ready) (hu : d.look.Unclosed) :
    d.sortWindows.look.Sound := by
  cases hr : d.registry with
  | none =>
    have hs : d.look.stack = none := by simp [look, hr]
    rw [sortWindows, hr]
    exact ⟨h,fun _ _ ho => by simp [hs] at ho,hu⟩
  | some r =>
    have hs : d.look.stack = some (r.order,r.sorted) := by simp [look, hr]
    have hn := h.nodup _ _ hs
    have hk := h.stands _ _ hs
    obtain ⟨low,high,hl,-,-,he⟩ := sortWindows_spec hr hk
    generalize hg : raisedHeights high ++ loweredHeights low = heights at he
    rw [foldl_setHeight_eq] at he
    have hids : (heights.map (·.1)).Nodup := by
      rw [← hg, List.map_append, map_fst_raisedHeights, map_fst_loweredHeights]
      refine (List.Perm.nodup_iff ?_).2 (hl.perm.nodup_iff.2 (hn.filter _))
      exact List.perm_append_comm.trans (List.reverse_perm low |>.append_right high)
    have hmem : ∀ p ∈ heights, p.1 ∈ r.order := fun p hp => by
      have hm := List.mem_map_of_mem (f := (·.1)) hp
      rw [← hg, List.map_append, map_fst_raisedHeights, map_fst_loweredHeights, List.mem_append,
        List.mem_reverse] at hm
      exact (hl.mem.1 hm.symm).1
    have ho : ∀ order sorted, d.sortWindows.look.stack = some (order,sorted) →
        order = r.order ∧ sorted = r.order.filter d.look.isSystem ++ low ++ high := by
      intro order sorted ho
      rw [he] at ho
      simpa [eq_comm] using ho
    rw [he] at ho ⊢
    refine ⟨⟨h.panel,h.fresh,h.known,h.fitted,fun id => ?_,fun order sorted hos => ?_,
      fun order sorted hos => ?_⟩,fun order sorted hos => ?_,fun order sorted hos => ?_⟩
    · simpa only [isSome_foldl_setHeight] using h.tall id
    · rw [(ho order sorted hos).1]
      exact h.ascending _ _ hs
    · rw [(ho order sorted hos).1]
      exact hk
    · obtain ⟨rfl,rfl⟩ := ho order sorted hos
      refine ⟨low,high,hl.congr (fun _ _ => rfl) fun _ _ _ => rfl,rfl,fun p hp => ?_⟩
      rw [hg] at hp
      apply height_foldl_setHeight_of_mem d.look heights hids p hp
      rw [h.tall]
      exact hk p.1 (hmem p hp)
    · rw [(ho order sorted hos).1]
      exact hu _ _ hs

end Desktop

end InkCompositor
