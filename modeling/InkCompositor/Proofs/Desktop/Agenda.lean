import Mathlib
import InkCompositor.Proofs.Desktop.Edits

/-!
# What is due

Waits and repaints, the clock they go by and the next internal marker are due
to nobody but those who see to them. What happens at the windows and in the
stack leaves them as they are.
-/

set_option autoImplicit false

namespace InkCompositor

open Wire

structure Agenda where
  system : System
  timings : Timings
  now : Time
  ledger : Ledger Callback
  queue : List Repaint
  internal : Option Marker
  panicked : Bool

namespace Desktop

def agenda (d : Desktop) : Agenda where
  system := d.system
  timings := d.timings
  now := d.now
  ledger := d.ledger
  queue := d.queue
  internal := d.registry.map (·.nextInternal)
  panicked := d.panicked

variable (d : Desktop)

@[simp] theorem agenda_emit (e : Effect) : (d.emit e).agenda = d.agenda := rfl

@[simp] theorem agenda_log (level : Level) (text : String) :
    (d.log level text).agenda = d.agenda := rfl

@[simp] theorem agenda_notify (id : WindowId) (n : Notification) :
    (d.notify id n).agenda = d.agenda := rfl

@[simp] theorem agenda_modify (id : WindowId) (f : Window → Window) :
    (d.modify id f).agenda = d.agenda := rfl

@[simp] theorem agenda_logDelivery (x : Delivery) : (d.logDelivery x).agenda = d.agenda := by
  cases x <;> rfl

@[simp] theorem agenda_send (id : WindowId) (kind : ChannelKind) (m : Message) :
    (d.send id kind m).agenda = d.agenda := by
  unfold send
  split <;> simp

@[simp] theorem agenda_closePipe (id : WindowId) (kind : ChannelKind) :
    (d.closePipe id kind).agenda = d.agenda := by
  unfold closePipe
  split <;> simp

@[simp] theorem agenda_announceGeometry (id : WindowId) (old new : Rect) :
    (d.announceGeometry id old new).agenda = d.agenda := by
  unfold announceGeometry
  split <;> simp

@[simp] theorem agenda_announceImage (id : WindowId) : (d.announceImage id).agenda = d.agenda := by
  unfold announceImage
  split <;> simp

@[simp] theorem agenda_cancelTouches (id : WindowId) (slots : List Int32) :
    (d.cancelTouches id slots).agenda = d.agenda := by
  unfold cancelTouches
  split <;> simp

@[simp] theorem agenda_forwardTouch (id : WindowId) (event : TouchEvent) :
    (d.forwardTouch id event).agenda = d.agenda := by simp [forwardTouch]

@[simp] theorem agenda_setHeight (id : WindowId) (z : Int32) :
    (d.setHeight id z).agenda = d.agenda := by
  unfold setHeight
  split
  · rfl
  · split <;> rfl

theorem agenda_foldl {α : Type} (f : Desktop → α → Desktop)
    (hf : ∀ d a, (f d a).agenda = d.agenda) (l : List α) : (l.foldl f d).agenda = d.agenda := by
  induction l generalizing d with
  | nil => rfl
  | cons a l ih => exact (ih (f d a)).trans (hf d a)

variable {d} in
theorem agenda_setRegistry {e : Desktop} (he : e.agenda = d.agenda) {r t : Registry}
    (hr : d.registry = some r) (ht : t.nextInternal = r.nextInternal) :
    { e with registry := some t }.agenda = d.agenda := by
  have hi : d.agenda.internal = some t.nextInternal := by simp [agenda, hr, ht]
  have ht : { e with registry := some t }.agenda =
      { e.agenda with internal := some t.nextInternal } := rfl
  rw [ht, he, ← hi]

@[simp] theorem agenda_sortWindows : d.sortWindows.agenda = d.agenda := by
  unfold sortWindows
  split
  · rfl
  · rename_i r hr
    exact agenda_setRegistry (agenda_foldl d _ (fun _ _ => agenda_setHeight ..) _) hr rfl

@[simp] theorem agenda_release (id : WindowId) : (d.release id).agenda = d.agenda := by
  unfold release
  split
  · rfl
  split
  · rfl
  · split <;> rfl

/-- The size of an image that is asked for is always a number. -/
@[simp] theorem agenda_allocateImage (w : Window) (geometry : Rect) :
    (d.allocateImage w geometry).agenda = d.agenda := by
  unfold allocateImage
  split
  · rfl
  split
  · rfl
  rename_i pool e he
  have hne : (e == RasterError.overflow) = false := by
    rw [beq_eq_false_iff_ne]
    rintro rfl
    exact d.pool.allocate_ne_overflow _ _ _ (congrArg Prod.snd he)
  simp [agenda, hne, log, emit]

@[simp] theorem agenda_refit (w : Window) (geometry : Rect) :
    (d.refit w geometry).agenda = d.agenda := by
  unfold refit
  split
  · exact (agenda_allocateImage ..).trans rfl
  · exact agenda_allocateImage ..

@[simp] theorem agenda_awaitPanel (marker : UInt32) (complaint : String) :
    (d.awaitPanel marker complaint).agenda = d.agenda := by
  simp only [awaitPanel]
  split <;> rfl

@[simp] theorem agenda_takeHardwareMarker : d.takeHardwareMarker.1.agenda = d.agenda := rfl

@[simp] theorem agenda_sendUpdate (rect : Rect) (waveform : Waveform) :
    (d.sendUpdate rect waveform).1.agenda = d.agenda := by
  simp only [sendUpdate]
  generalize (if rect = d.screen then UpdateMode.full else UpdateMode.partialArea) = mode
  split <;> simp

@[simp] theorem agenda_clearScreen : d.clearScreen.agenda = d.agenda := by
  simp only [clearScreen]
  split
  · simp only [agenda_awaitPanel, agenda_sendUpdate]
    rfl
  · simp only [agenda_sendUpdate]
    rfl

end Desktop

end InkCompositor
