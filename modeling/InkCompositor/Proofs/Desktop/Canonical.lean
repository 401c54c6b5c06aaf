import Mathlib
import InkCompositor.Proofs.Desktop.Restacking
import InkCompositor.Proofs.Desktop.Actions

/-!
# The stack after every operation

Whatever happens, the stack holds each open window once, in layers in which the
heights are the positions. A sorting then finds everything as it should be.
-/

set_option autoImplicit false

namespace InkCompositor.Desktop

variable {d : Desktop} {r : Registry}

/-- The open windows of the registry `r` lie in layers, and heights are the positions in them. -/
structure Canonical (d : Desktop) (r : Registry) : Prop where
  nodup : r.ids.Nodup
  same : ∀ id, id ∈ r.ids ↔ id ∈ r.order
  /-- Windows are numbered in the order of their creation. -/
  ascending : r.order.Pairwise (· < ·)
  stands : d.openWindows.map (·.id) = r.order
  unclosed : ∀ w ∈ d.openWindows, w.state ≠ .closed
  perm : d.sortedWindows.Perm d.openWindows
  layers : ∃ low high, d.sortedWindows = d.openWindows.filter (·.isSystem) ++ low ++ high ∧
    (∀ w ∈ low, w.isSystem = false ∧ (w.state = .lowered ∨ w.state = .loweredHidden)) ∧
    (∀ w ∈ high, w.isSystem = false ∧ (w.state = .raised ∨ w.state = .raisedHidden)) ∧
    (∀ i (hi : i < high.length), high[i].z.toInt = i) ∧
    ∀ j (hj : j < low.reverse.length), low.reverse[j].z.toInt = -(j+1 : Int)

theorem window?_of_mem_filterMap {ids : List WindowId} {w : Window}
    (h : w ∈ ids.filterMap d.window?) : d.window? w.id = some w := by
  obtain ⟨id,-,hid⟩ := List.mem_filterMap.1 h
  rwa [id_of_window? d hid]

theorem filterMap_window?_filter {p : WindowId → Bool} {q : Window → Bool}
    (h : ∀ {id w}, d.window? id = some w → p id = q w) (ids : List WindowId) :
    (ids.filter p).filterMap d.window? = (ids.filterMap d.window?).filter q := by
  rw [List.filterMap_filter, List.filter_filterMap]
  congr 1
  funext id
  cases hw : d.window? id with
  | none => simp
  | some w => simp [h hw, Option.filter]

theorem toInt_z_filterMap {ids : List WindowId} {f : Nat → Int}
    (hk : ∀ id ∈ ids, (d.look.face id).isSome = true)
    (hz : ∀ i (hi : i < ids.length), d.look.z ids[i] = f i) (i : Nat)
    (hi : i < (ids.filterMap d.window?).length) : (ids.filterMap d.window?)[i].z.toInt = f i := by
  have hmap := map_id_filterMap_window? ids hk
  have hlen : i < ids.length := by
    rw [← hmap, List.length_map]
    exact hi
  have hid : (ids.filterMap d.window?)[i].id = ids[i] := by
    have he := congrArg (·[i]?) hmap
    simpa [List.getElem?_eq_getElem hi, List.getElem?_eq_getElem hlen] using he
  have hw := window?_of_mem_filterMap (List.getElem_mem hi)
  rw [← z_of_window? d hw, hid]
  exact hz i hlen

theorem foldl_setHeight_self {heights : List (WindowId × Int32)}
    (h : ∀ p ∈ heights, d.look.height p.1 = some p.2) :
    heights.foldl (fun d p => d.setHeight p.1 p.2) d = d := by
  induction heights with
  | nil => rfl
  | cons p heights ih =>
    have hp : d.setHeight p.1 p.2 = d := by
      obtain ⟨w,hw,hz⟩ := Option.map_eq_some_iff.1 (h p List.mem_cons_self)
      rw [setHeight, hw]
      exact if_pos hz
    rw [List.foldl_cons, hp]
    exact ih fun q hq => h q (List.mem_cons_of_mem p hq)

section

variable (h : d.look.Sound) (hr : d.registry = some r) (hroom : r.order.length < 2147483648)
include h hr hroom

theorem canonical_of_sound : d.Canonical r := by
  have hs := stack_look hr
  have hk := h.stands _ _ hs
  have hopen := openWindows_eq hr
  have hsorted : d.sortedWindows = r.sorted.filterMap d.window? := by simp only [sortedWindows, hr]
  obtain ⟨low,high,hl,he,hh⟩ := h.stacked _ _ hs
  obtain ⟨hlow,hhigh⟩ := hl.length_lt hroom
  have hmem : ∀ {id}, id ∈ low ∨ id ∈ high → (d.look.face id).isSome = true :=
    fun hid => hk _ (hl.mem.1 hid).1
  have hopened : ∀ w ∈ d.openWindows, w.state ≠ .closed := by
    intro w hw
    rw [hopen] at hw
    obtain ⟨id,hid,hwid⟩ := List.mem_filterMap.1 hw
    exact h.unclosed _ _ hs id hid w.face (by simp [look, hwid])
  have hlayer : ∀ ids : List WindowId, (∀ id ∈ ids, id ∈ low ∨ id ∈ high) →
      ∀ w ∈ ids.filterMap d.window?, w.id ∈ ids ∧ w.isSystem = false ∧
        w.state.isRaised = d.look.isRaised w.id ∧ w.state ≠ .closed := by
    intro ids hids w hw
    have hwid := window?_of_mem_filterMap hw
    obtain ⟨id,hid,hw'⟩ := List.mem_filterMap.1 hw
    rw [← id_of_window? d hw'] at hid
    obtain ⟨ho,hsys⟩ := hl.mem.1 (hids _ hid)
    refine ⟨hid,?_,(isRaised_of_window? d hwid).symm,?_⟩
    · rwa [isSystem_of_window? d hwid] at hsys
    · apply hopened
      rw [hopen]
      exact List.mem_filterMap.2 ⟨w.id,ho,hwid⟩
  refine ⟨r.nodup,r.same,h.ascending _ _ hs,?_,hopened,?_,low.filterMap d.window?,
    high.filterMap d.window?,?_,?_,?_,?_,?_⟩
  · rw [hopen]
    exact map_id_filterMap_window? _ hk
  · rw [hsorted, hopen]
    exact (h.sorted_perm hs).filterMap _
  · rw [hsorted, hopen, he, List.filterMap_append, List.filterMap_append,
      filterMap_window?_filter (isSystem_of_window? d)]
  · intro w hw
    obtain ⟨hid,hsys,hraised,hc⟩ := hlayer low (fun _ => .inl) w hw
    rw [hl.lowered _ hid] at hraised
    refine ⟨hsys,?_⟩
    cases hst : w.state <;> simp_all [WindowState.isRaised]
  · intro w hw
    obtain ⟨hid,hsys,hraised,hc⟩ := hlayer high (fun _ => .inr) w hw
    rw [hl.raised _ hid] at hraised
    refine ⟨hsys,?_⟩
    cases hst : w.state <;> simp_all [WindowState.isRaised]
  · exact toInt_z_filterMap (f := fun i => i) (fun id hid => hmem (.inr hid))
      (Look.z_raised hh hhigh)
  · intro j hj
    simp only [← List.filterMap_reverse] at hj ⊢
    refine toInt_z_filterMap (f := fun j => -(j+1 : Int)) (fun id hid => ?_) (fun j hj => ?_) j hj
    · exact hmem (.inl (List.mem_reverse.1 hid))
    · rw [Look.z_lowered hh hlow j hj]
      omega

theorem sortWindows_self : d.sortWindows = d := by
  have hs := stack_look hr
  obtain ⟨low,high,hl,he,hh⟩ := h.stacked _ _ hs
  obtain ⟨hlow,hhigh⟩ := hl.length_lt hroom
  obtain ⟨low',high',hl',hlow',hhigh',hsort⟩ := sortWindows_eq hr (h.stands _ _ hs)
  obtain ⟨rfl,rfl⟩ := hl.unique hl' (Look.lowered_increasing hh hlow).1
    (Look.raised_increasing hh hhigh).1 hlow' hhigh'
  rw [foldl_setHeight_self hh, ← he] at hsort
  rw [hsort]
  cases d
  cases hr
  rfl

end

/-- After every operation each open window lies in the stack once, in its layer, at the height
that is its position there, and sorting once more changes nothing. -/
theorem stack_canonical (h : Reachable d) (hr : d.registry = some r)
    (hroom : r.order.length < 2147483648) : d.Canonical r ∧ d.sortWindows = d :=
  ⟨canonical_of_sound h.sound hr hroom,sortWindows_self h.sound hr hroom⟩

theorem stack_canonical_small :
    let d := ((fresh smallPanel .anonymous {} 24 1).perform
      (.create 100 (some ⟨1,1,2,2⟩) .rgb16)).perform (.raise 0 100)
    ∃ r, d.registry = some r ∧ r.order = [0] ∧ r.order.length < 2147483648 ∧ d.Canonical r ∧
      d.sortWindows = d := by
  intro d
  have h : Reachable d := .act _ (.act _ (.fresh smallPanel .anonymous {} 24 1 {} rfl))
  have hs : d.registry.map (·.order) = some [0] := by decide +kernel
  obtain ⟨r,hr,horder⟩ := Option.map_eq_some_iff.1 hs
  have hroom : r.order.length < 2147483648 := by
    rw [horder]
    decide
  exact ⟨r,hr,horder,hroom,stack_canonical h hr hroom⟩

end InkCompositor.Desktop
