import Mathlib
import InkCompositor.Proofs.Client.Slots
import InkCompositor.Proofs.Wire.Codec

/-!
# Touch sequences in a stream

A slot is open from a point in it until a point releases it or all touches are
cancelled. If the slots that are kept are those that are open, they still are
after one more event.
-/

set_option autoImplicit false

namespace InkCompositor

open Wire

def Wire.Message.cancels : Message → Bool
  | .touch ⟨.cancel,_⟩ => true
  | _ => false

/-- The points that were told since all touches were cancelled. -/
def sinceCancel (ms : List Message) : List TouchPoint :=
  (ms.rtakeWhile fun m => !m.cancels).flatMap Message.points

def lastPoint? (points : List TouchPoint) (slot : Int32) : Option TouchPoint :=
  (points.filter (·.id = slot)).getLast?

/-- The last point in the slot since all touches were cancelled did not release it. -/
def OpenSlot (ms : List Message) (slot : Int32) : Prop :=
  ∃ p, lastPoint? (sinceCancel ms) slot = some p ∧ p.state ≠ .release

variable {slots : List Int32} {slot : Int32} {ms : List Message} {m : Message}

theorem lastPoint?_append (points more : List TouchPoint) (slot : Int32) :
    lastPoint? (points ++ more) slot = (lastPoint? more slot).or (lastPoint? points slot) := by
  rw [lastPoint?, List.filter_append, List.getLast?_append, lastPoint?, lastPoint?]

theorem lastPoint?_concat (points : List TouchPoint) (p : TouchPoint) (slot : Int32) :
    lastPoint? (points ++ [p]) slot = if p.id = slot then some p else lastPoint? points slot := by
  rw [lastPoint?_append]
  by_cases h : p.id = slot <;> simp [lastPoint?, h]

theorem sinceCancel_concat (ms : List Message) (m : Message) : sinceCancel (ms ++ [m]) =
    if m.cancels then [] else sinceCancel ms ++ m.points := by
  cases h : m.cancels <;> simp [sinceCancel, h]

theorem not_openSlot_nil : ¬ OpenSlot [] slot := by simp [OpenSlot, sinceCancel, lastPoint?]

theorem not_openSlot_concat (h : m.cancels = true) : ¬ OpenSlot (ms ++ [m]) slot := by
  simp [OpenSlot, sinceCancel_concat, h, lastPoint?]

theorem openSlot_concat (h : m.cancels = false) : OpenSlot (ms ++ [m]) slot ↔
    (∃ p, lastPoint? m.points slot = some p ∧ p.state ≠ .release) ∨
      lastPoint? m.points slot = none ∧ OpenSlot ms slot := by
  rw [OpenSlot, sinceCancel_concat, h, if_neg Bool.false_ne_true, lastPoint?_append, OpenSlot]
  cases lastPoint? m.points slot <;> simp

theorem openSlot_concat_bare (h : m.cancels = false) (hm : m.points = []) :
    OpenSlot (ms ++ [m]) slot ↔ OpenSlot ms slot := by
  rw [openSlot_concat h, hm]
  simp [lastPoint?]

namespace Wire.TouchEvent

theorem mem_foldl_points (points : List TouchPoint) (slots : List Int32) (slot : Int32) :
    slot ∈ points.foldl (fun slots p => if p.state = .release then slots.filter (· != p.id)
      else slotsAfter.insertSlot p.id slots) slots ↔
    (∃ p, lastPoint? points slot = some p ∧ p.state ≠ .release) ∨
      lastPoint? points slot = none ∧ slot ∈ slots := by
  -- from the end, since what the last point does is done last
  induction points using List.reverseRecOn with
  | nil => simp [lastPoint?]
  | append_singleton points p ih =>
    rw [List.foldl_append, List.foldl_cons, List.foldl_nil, lastPoint?_concat]
    by_cases hid : p.id = slot
    · by_cases hr : p.state = .release <;> simp [hid, hr, mem_insertSlot]
    · have hne : slot ≠ p.id := fun he => hid he.symm
      by_cases hr : p.state = .release
      · simpa [hid, hr, hne] using ih
      · simpa [hid, hr, hne, mem_insertSlot] using ih

theorem mem_slotsAfter_iff_open (h : ∀ slot, slot ∈ slots ↔ OpenSlot ms slot) (event : TouchEvent)
    (slot : Int32) : slot ∈ event.slotsAfter slots ↔ OpenSlot (ms ++ [.touch event]) slot := by
  obtain ⟨phase,points⟩ := event
  have hfold := mem_foldl_points points slots slot
  rw [h] at hfold
  cases phase with
  | cancel => exact iff_of_false List.not_mem_nil (not_openSlot_concat rfl)
  | press | update | release =>
    exact hfold.trans (openSlot_concat (m := .touch ⟨_,points⟩) rfl).symm

end Wire.TouchEvent

end InkCompositor
