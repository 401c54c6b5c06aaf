import Mathlib
import InkCompositor.Proofs.Desktop.Alterations

/-!
# Single steps

Some actions are made of several calls: servicing clients handles one message
after the other, and what the supervisor reports concerns all windows of a
group. Here they are taken apart, so that no step closes a window but a call
that does just that.
-/

set_option autoImplicit false

namespace InkCompositor

open Wire

/-- What a client can do at its end of a pipe. -/
inductive ClientMove where
  | write (bytes : List UInt8)
  | read
  | discard
  | stop (reading writing : Bool)

def ClientMove.apply : ClientMove → Channel → Channel
  | write bytes, c => (c.clientWrite bytes).1
  | read, c => c.clientRead.1
  | discard, c => c.clientDiscard
  | stop reading writing, c => c.clientStop reading writing

theorem ClientMove.apply_frame (m : ClientMove) (c : Channel) :
    (m.apply c).isOpen = c.isOpen ∧ (m.apply c).outgoing = c.outgoing ∧
      (m.apply c).posted = c.posted := by
  cases m with
  | write bytes =>
    simp only [apply, Channel.clientWrite]
    split
    · exact ⟨rfl,rfl,rfl⟩
    · exact ⟨rfl,rfl,rfl⟩
  | _ => exact ⟨rfl,rfl,rfl⟩

inductive Step where
  | act (a : Action)
  /-- What a client has written is read. -/
  | receive (id : WindowId)
  /-- A ping is sent, or found unanswered. -/
  | check (id : WindowId) (now : Time)
  | note (level : Level) (text : String)

namespace Step

/-- At the pipes there is only what clients can do. -/
def Honest : Step → Prop
  | act (.atPipe _ _ f) => ∃ m : ClientMove, f = m.apply
  | _ => True

def single : Step → Bool
  | act (.message _ .close) | act .service | act (.supervise ..) => false
  | _ => true

def isPart : Step → Bool
  | act (.message _ .close) => false
  | act (.message ..) | act (.close ..) | act (.raise ..) | act (.lower ..) |
    act (.setVisible ..) | receive _ | check .. | note .. => true
  | _ => false

theorem isPart_frame {s : Step} (h : s.isPart = true) : s.Honest ∧ s.single = true := by
  cases s with
  | act a =>
    cases a with
    | message id m =>
      cases m with
      | close => cases h
      | _ => exact ⟨trivial,rfl⟩
    | close | raise | lower | setVisible => exact ⟨trivial,rfl⟩
    | _ => cases h
  | _ => exact ⟨trivial,rfl⟩

def enqueued : Step → List Repaint
  | act (.enqueue q) => [q]
  | _ => []

def draw (id : WindowId) (image : Option Raster) : Step → Option Raster
  | act (.scribble j bytes) | act (.present j bytes ..) =>
    if j = id then image.map fun r => r.overwrite (bytes r) else image
  | _ => image

end Step

namespace Desktop

def take (d : Desktop) : Step → Desktop
  | .act a => d.perform a
  | .receive id => (d.receive id).1
  | .check id now => d.checkLiveness id now
  | .note level text => d.log level text

/-- The states that come about, those between the single steps of an action as well. -/
inductive Occurs : Desktop → Prop where
  | reachable {d : Desktop} : Reachable d → Occurs d
  | step {d : Desktop} (s : Step) : Occurs d → Occurs (d.take s)

variable {d e f : Desktop}

theorem Occurs.run (h : Occurs d) (steps : List Step) : Occurs (steps.foldl take d) := by
  induction steps generalizing d with
  | nil => exact h
  | cons s steps ih => exact ih (h.step s)

theorem sound_take (h : d.look.Sound) (s : Step) : (d.take s).look.Sound := by
  cases s with
  | act a => exact sound_perform h a
  | receive | check | note => simpa [take] using h

theorem Occurs.sound (h : Occurs d) : d.look.Sound := by
  induction h with
  | reachable h => exact h.sound
  | step s _ ih => exact sound_take ih s

theorem take_edits (hs : d.look.Sound) (s : Step) (ha : ∀ a, s = .act a → a.isEdit = true) :
    Edits .everything d (d.take s) := by
  cases s with
  | act a => exact perform_edits hs a (ha a rfl)
  | receive id => exact (deeds_receive .refl trivial).edits
  | check id now => exact (deeds_checkLiveness .refl trivial trivial trivial).edits
  | note level text => exact edits_log .refl level text

theorem distinct_take (hs : d.look.Sound) (s : Step) (h : d.Distinct) : (d.take s).Distinct := by
  cases s with
  | act a => exact distinct_perform hs a h
  | receive | check | note =>
    exact (take_edits hs _ fun a ha => by cases ha).keeps Edit.distinct h

theorem Occurs.distinct (h : Occurs d) : d.Distinct := by
  induction h with
  | reachable h => exact h.distinct
  | step s h ih => exact distinct_take h.sound s ih

def Stepwise (d e : Desktop) : Prop :=
  ∃ steps : List Step, (∀ s ∈ steps, s.Honest ∧ s.single = true) ∧ e = steps.foldl take d

def Parted (d e : Desktop) : Prop :=
  ∃ steps : List Step, (∀ s ∈ steps, s.isPart = true) ∧ e = steps.foldl take d

theorem Parted.refl (d : Desktop) : Parted d d := ⟨[],by simp,rfl⟩

theorem Parted.trans (h : Parted d e) (h' : Parted e f) : Parted d f := by
  obtain ⟨steps,hs,rfl⟩ := h
  obtain ⟨steps',hs',rfl⟩ := h'
  refine ⟨steps ++ steps',fun s hm => ?_,List.foldl_append.symm⟩
  rcases List.mem_append.1 hm with hm | hm
  · exact hs s hm
  · exact hs' s hm

theorem parted_take (d : Desktop) {s : Step} (h : s.isPart = true) : Parted d (d.take s) :=
  ⟨[s],by simpa using h,rfl⟩

theorem parted_foldl {α : Type} (f : Desktop → α → Desktop) (hf : ∀ d a, Parted d (f d a))
    (l : List α) (d : Desktop) : Parted d (l.foldl f d) := by
  induction l generalizing d with
  | nil => exact .refl d
  | cons a l ih => exact (hf d a).trans (ih (f d a))

theorem parted_handleMessage (d : Desktop) (id : WindowId) (m : Message) :
    Parted d (d.handleMessage id m) := by
  by_cases hm : m = .close
  · subst hm
    unfold handleMessage
    split
    · exact .refl d
    · rename_i w _
      exact parted_take d (s := .act (.close id w.owner)) rfl
  · refine parted_take d (s := .act (.message id m)) ?_
    cases m with
    | close => exact absurd rfl hm
    | _ => rfl

theorem parted_serviceWindow (d : Desktop) (id : WindowId) (now : Time) :
    Parted d (d.serviceWindow id now) := by
  unfold serviceWindow
  split
  · exact .refl d
  split
  · exact .refl d
  have hr := parted_take d (s := .receive id) rfl
  refine Parted.trans ?_ (parted_take _ (s := .check id now) rfl)
  simp only [take] at hr
  split
  · rename_i e messages he
    rw [he] at hr
    exact hr.trans (parted_foldl _ (fun d m => parted_handleMessage d id m) messages e)
  · rename_i e error he
    rw [he] at hr
    exact hr.trans (parted_take e (s := .note _ _) rfl)

theorem parted_handleLifecycle (d : Desktop) (event : Lifecycle) (group : Group) :
    Parted d (d.handleLifecycle event group) := by
  refine (parted_take d (s := .note .debug "Supervisor event") rfl).trans ?_
  simp only [take, handleLifecycle]
  cases event with
  | paused =>
    exact parted_foldl _ (fun d id => parted_take d
      (s := .act (.setVisible id d.service false)) rfl) _ _
  | resumed =>
    exact parted_foldl _ (fun d id => parted_take d
      (s := .act (.setVisible id d.service true)) rfl) _ _
  | exited =>
    exact parted_foldl _ (fun d id => parted_take d
      (s := .act (.close id d.service)) rfl) _ _
  | foreground =>
    exact parted_foldl _ (fun d id => parted_take d
      (s := .act (.raise id d.service)) rfl) _ _
  | background =>
    exact parted_foldl _ (fun d id => parted_take d
      (s := .act (.lower id d.service)) rfl) _ _

theorem parted (d : Desktop) {s : Step} (h : s.single = false) : Parted d (d.take s) := by
  cases s with
  | act a =>
    cases a with
    | message id m => exact parted_handleMessage d id m
    | service => exact parted_foldl _ (fun d id => parted_serviceWindow d id _) _ d
    | supervise event group => exact parted_handleLifecycle d event group
    | _ => cases h
  | _ => cases h

/-- Whatever is done is done in single steps. -/
theorem stepwise (d : Desktop) (s : Step) (hs : s.Honest) : Stepwise d (d.take s) := by
  cases h : s.single with
  | true => exact ⟨[s],by simpa using ⟨hs,h⟩,rfl⟩
  | false =>
    obtain ⟨steps,hparts,he⟩ := parted d h
    exact ⟨steps,fun s hm => Step.isPart_frame (hparts s hm),he⟩

end Desktop

end InkCompositor
