import Mathlib
import InkCompositor.Client.Touch

/-!
# Slots in contact

The slots of the touches in progress are kept in ascending order, each once,
and each was that of a point in some event.
-/

set_option autoImplicit false

namespace InkCompositor

open Wire

/-- Slots in ascending order. -/
def Ascending (slots : List Int32) : Prop := slots.Pairwise fun a b => a.toInt < b.toInt

theorem Ascending.nodup {slots : List Int32} (h : Ascending slots) : slots.Nodup :=
  h.imp fun hlt he => absurd (he ▸ hlt) (lt_irrefl _)

namespace Wire.TouchEvent

variable {slots : List Int32} {id slot : Int32}

theorem mem_insertSlot : slot ∈ slotsAfter.insertSlot id slots ↔ slot = id ∨ slot ∈ slots := by
  induction slots with
  | nil => simp [slotsAfter.insertSlot]
  | cons s rest ih =>
    rw [slotsAfter.insertSlot]
    split
    · exact List.mem_cons
    split
    · rename_i he
      rw [List.mem_cons, he, ← or_assoc, or_self]
    · rw [List.mem_cons, List.mem_cons, ih]
      exact or_left_comm

theorem ascending_insertSlot (h : Ascending slots) (id : Int32) :
    Ascending (slotsAfter.insertSlot id slots) := by
  induction slots with
  | nil => exact List.pairwise_singleton ..
  | cons s rest ih =>
    obtain ⟨hs,hrest⟩ := List.pairwise_cons.1 h
    rw [slotsAfter.insertSlot]
    split
    · rename_i hlt
      refine List.pairwise_cons.2 ⟨fun t ht => ?_,h⟩
      rcases List.mem_cons.1 ht with rfl | ht
      · exact hlt
      · exact hlt.trans (hs t ht)
    split
    · exact h
    · rename_i hle hne
      refine List.pairwise_cons.2 ⟨fun t ht => ?_,ih hrest⟩
      rcases mem_insertSlot.1 ht with rfl | ht
      · exact lt_of_le_of_ne (not_lt.1 hle) fun he => hne (Int32.toInt_inj.1 he).symm
      · exact hs t ht

variable {event : TouchEvent}

theorem slotsAfter_keeps {P : List Int32 → Prop} (hnil : P [])
    (hfilter : ∀ id slots, P slots → P (slots.filter (· != id)))
    (hinsert : ∀ point ∈ event.points, ∀ slots, P slots →
      P (slotsAfter.insertSlot point.id slots)) (h : P slots) : P (event.slotsAfter slots) := by
  obtain ⟨phase,points⟩ := event
  have hfold : ∀ slots, P slots → P (points.foldl (fun slots p =>
      if p.state = .release then slots.filter (· != p.id)
      else slotsAfter.insertSlot p.id slots) slots) := by
    clear h
    induction points with
    | nil => exact fun _ h => h
    | cons point points ih =>
      refine fun slots h => ih (fun p hp => hinsert p (List.mem_cons_of_mem _ hp)) _ ?_
      dsimp only
      split
      · exact hfilter _ _ h
      · exact hinsert point List.mem_cons_self _ h
  cases phase with
  | cancel => exact hnil
  | press | update | release => exact hfold slots h

theorem ascending_slotsAfter (h : Ascending slots) : Ascending (event.slotsAfter slots) :=
  slotsAfter_keeps .nil (fun _ _ h => h.filter _) (fun _ _ _ h => ascending_insertSlot h _) h

theorem slot_of_slotsAfter {P : Int32 → Prop} (hpoint : ∀ point ∈ event.points, P point.id)
    (h : ∀ slot ∈ slots, P slot) : ∀ slot ∈ event.slotsAfter slots, P slot := by
  refine slotsAfter_keeps (P := fun slots => ∀ slot ∈ slots, P slot) (by simp)
    (fun _ _ h slot hs => h slot (List.mem_of_mem_filter hs)) (fun point hp slots h slot hs => ?_) h
  rcases mem_insertSlot.1 hs with rfl | hs
  · exact hpoint point hp
  · exact h slot hs

end Wire.TouchEvent

end InkCompositor
