import Mathlib
import InkCompositor.Proofs.Desktop.Actions

/-!
# The edits that operations are made of

Whatever is done to a desktop is done in edits of a few kinds: something is
noted or sent, an open window is changed or gets another image, a window joins
the stack or leaves it, a window ends, a repaint is queued or served. What
every edit keeps, every operation keeps.
-/

set_option autoImplicit false

namespace InkCompositor

open Wire

def Effect.attempt? : Effect → Option (WindowId × Bool)
  | .attempted window given => some (window,given)
  | _ => none

def Wire.Message.restacks : Message → Bool
  | .raise | .lower | .close => true
  | _ => false

namespace Window

structure Tended (w v : Window) : Prop where
  face : v.face = w.face
  z : v.z = w.z
  enabled : w.state = .closed → v.enabled = w.enabled
  pipes : ∀ kind, (v.pipe kind).isOpen = (w.pipe kind).isOpen ∧
    (v.pipe kind).outgoing = (w.pipe kind).outgoing ∧
    (v.pipe kind).posted = (w.pipe kind).posted

structure Altered (w v : Window) : Prop where
  image : v.image = w.image
  format : v.format = w.format
  width : v.geometry.width = w.geometry.width
  height : v.geometry.height = w.geometry.height

end Window

namespace Desktop

/-- What edits may concern: these windows, and the stack. -/
structure Scope where
  windows : WindowId → Prop
  stack : Prop

def Scope.everything : Scope := ⟨fun _ => True,True⟩

/-- Neither windows nor stack, queue and images in use are concerned. -/
structure Beside (d e : Desktop) : Prop where
  windows : e.windows = d.windows
  ended : e.ended = d.ended
  nextWindow : e.nextWindow = d.nextWindow
  registry : e.registry = d.registry
  queue : e.queue = d.queue
  trace : e.trace = d.trace
  timings : e.timings = d.timings
  live : e.pool.live = d.pool.live
  nextImage : e.pool.next = d.pool.next

def refit (d : Desktop) (w : Window) (geometry : Rect) : Desktop :=
  let d := match w.image with
    | some r => { d with pool := d.pool.release r.id }.log .debug "Released pixel buffer"
    | none => d
  (d.modify w.id fun w => { w with geometry, image := none }).allocateImage w geometry

def lists (d : Desktop) (id : WindowId) : Prop := ∃ r, d.registry = some r ∧ id ∈ r.order

/-- Open windows may join the stack, and windows may leave it. -/
structure Relisting (s : Scope) (d : Desktop) (registry : Option Registry) : Prop where
  joins : ∀ r', registry = some r' → ∀ id ∈ r'.order, d.lists id ∨
    s.windows id ∧ ∃ w, d.window? id = some w ∧ w.state ≠ .closed
  stays : ∀ id, d.lists id → ¬ s.windows id → ∃ r', registry = some r' ∧ id ∈ r'.order
  sorted : ∀ r', registry = some r' → ∃ r, d.registry = some r ∧ r'.sorted ⊆ r.sorted

inductive Edit (s : Scope) : Desktop → Desktop → Prop where
  | note {d : Desktop} (e : Effect) : e.attempt? = none → Edit s d (d.emit e)
  | beside {d e : Desktop} : Beside d e → Edit s d e
  | send {d : Desktop} (id : WindowId) (kind : ChannelKind) (m : Message) : s.windows id →
      Edit s d (d.send id kind m)
  | closePipe {d : Desktop} (id : WindowId) (kind : ChannelKind) : s.windows id →
      Edit s d (d.closePipe id kind)
  | tend {d : Desktop} (id : WindowId) (f : Window → Window) : s.windows id →
      (∀ w, (f w).id = w.id) → (∀ w, d.window? id = some w → w.Tended (f w)) →
      Edit s d (d.modify id f)
  | alter {d : Desktop} (id : WindowId) (f : Window → Window) : s.windows id →
      (∀ w, (f w).id = w.id) →
      (∀ w, d.window? id = some w → w.state ≠ .closed ∧ w.Altered (f w)) →
      Edit s d (d.modify id f)
  | refit {d : Desktop} {w : Window} (geometry : Rect) : s.windows w.id →
      d.window? w.id = some w → w.state ≠ .closed → Edit s d (d.refit w geometry)
  | add {d : Desktop} (w : Window) : s.windows w.id → w.id = d.nextWindow → w.image = none →
      w.geometry = Rect.none → Edit s d (d.added w)
  | relist {d : Desktop} (registry : Option Registry) : s.stack → Relisting s d registry →
      Edit s d { d with registry }
  | sort {d : Desktop} : s.stack → Edit s d d.sortWindows
  | release {d : Desktop} (id : WindowId) : s.windows id → Edit s d (d.release id)
  /-- No repaint of a closed window is queued. -/
  | queue {d : Desktop} (q : Repaint) :
      (∀ id w, q.window = some id → d.window? id = some w → w.state ≠ .closed) →
      Edit s d { d with queue := d.queue ++ [q] }
  | serve {d : Desktop} {q : Repaint} {rest : List Repaint} : d.queue = q :: rest →
      Edit s d { d with queue := rest }

def Edits (s : Scope) : Desktop → Desktop → Prop := Relation.ReflTransGen (Edit s)

variable {s : Scope} {d₀ d : Desktop}

/-- What every edit keeps is kept. -/
theorem Edits.keeps {P : Desktop → Prop} (hP : ∀ {d e}, Edit s d e → P d → P e)
    (h : Edits s d₀ d) (h₀ : P d₀) : P d := by
  induction h with
  | refl => exact h₀
  | tail _ he ih => exact hP he ih

section

variable (h : Edits s d₀ d)
include h

theorem edits_emit (e : Effect) (he : e.attempt? = none) : Edits s d₀ (d.emit e) :=
  h.tail (.note e he)

theorem edits_log (level : Level) (text : String) : Edits s d₀ (d.log level text) :=
  edits_emit h _ rfl

theorem edits_notify (id : WindowId) (n : Notification) : Edits s d₀ (d.notify id n) :=
  edits_emit h _ rfl

theorem edits_send {id : WindowId} (hs : s.windows id) (kind : ChannelKind) (m : Message) :
    Edits s d₀ (d.send id kind m) := h.tail (.send id kind m hs)

theorem edits_announceGeometry {id : WindowId} (hs : s.windows id) (old new : Rect) :
    Edits s d₀ (d.announceGeometry id old new) := by
  unfold announceGeometry
  split
  · exact h
  · exact edits_notify (edits_send h hs ..) ..

theorem edits_announceImage {id : WindowId} (hs : s.windows id) :
    Edits s d₀ (d.announceImage id) := by
  unfold announceImage
  split
  · exact h
  · exact edits_notify (edits_send (edits_send h hs ..) hs ..) ..

theorem edits_cancelTouches {id : WindowId} (hs : s.windows id) (slots : List Int32) :
    Edits s d₀ (d.cancelTouches id slots) := by
  unfold cancelTouches
  split
  · exact h
  · exact edits_send (edits_log h ..) hs ..

end

end Desktop

end InkCompositor
