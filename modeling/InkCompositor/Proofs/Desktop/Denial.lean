import Mathlib
import InkCompositor.Proofs.Desktop.Past

/-!
# Denied calls

A call by a group that has no part in a window is noted, and that is all. Had
it not been made, nobody else would have seen or been told anything different.
-/

set_option autoImplicit false

namespace InkCompositor

open Wire

inductive Call where
  | frameBuffer
  | sizeInBytes
  | bytesPerLine
  | imageFormat
  | geometry
  | visibility
  | pipe (kind : ChannelKind)
  | setGeometry (geometry : Rect)
  | resize (width height : Int32)
  | moveTo (x y : Int32)
  | repaint (region : Option Rect) (waveform : Option Waveform) (marker : Marker)
  | raise
  | lower
  | setVisible (visible : Bool)
  | close
  | waitForMarker (marker : Marker) (tag : String)
  | waitForLastUpdate

inductive Answer where
  | done
  | flag (b : Bool)
  | number (n : Nat)
  | format (f : PixelFormat)
  | place (r : Rect)
  | window (id : Option WindowId)
  | windows (ids : List WindowId)

def Call.refusal : Call → Answer
  | frameBuffer | visibility | pipe _ | resize .. => .flag false
  | sizeInBytes | bytesPerLine => .number 0
  | imageFormat => .format .invalid
  | geometry => .place Rect.none
  | _ => .done

def Action.isCall : Action → Bool
  | .create .. | .setGeometry .. | .resize .. | .moveTo .. | .raise .. | .lower ..
  | .setVisible .. | .close .. | .repaint .. | .wait .. | .waitForLast .. | .inspect ..
  | .takePipe .. | .find .. | .present .. => true
  | _ => false

/-- Calls by groups, and all else that happens. -/
inductive Event where
  | call (id : WindowId) (caller : Group) (c : Call)
  | find (caller : Group) (id : WindowId)
  | findByPath (caller : Group) (path : String)
  | list (caller : Group) (visibleOnly : Bool)
  | create (caller : Group) (geometry : Option Rect) (format : PixelFormat)
  | other (a : Action) (h : a.isCall = false)

def Event.refusal : Event → Answer
  | call _ _ c => c.refusal
  | find .. | findByPath .. | create .. => .window none
  | list .. => .windows []
  | other .. => .done

namespace Desktop

def told {α : Type} (answer : α → Answer) (p : Desktop × α) : Desktop × Answer := (p.1,answer p.2)

def call (d : Desktop) (id : WindowId) (caller : Group) : Call → Desktop × Answer
  | .frameBuffer => told .flag (d.frameBuffer id caller)
  | .sizeInBytes => told .number (d.sizeInBytes id caller)
  | .bytesPerLine => told .number (d.bytesPerLine id caller)
  | .imageFormat => told .format (d.imageFormat id caller)
  | .geometry => told .place (d.geometry id caller)
  | .visibility => told .flag (d.visibility id caller)
  | .pipe kind => told .flag (d.pipe id kind caller)
  | .setGeometry geometry => (d.setGeometry id caller geometry,.done)
  | .resize width height => told .flag (d.resize id caller width height)
  | .moveTo x y => (d.moveTo id caller x y,.done)
  | .repaint region waveform marker => (d.repaint id caller region waveform marker,.done)
  | .raise => (d.raise id caller,.done)
  | .lower => (d.lower id caller,.done)
  | .setVisible visible => (d.setVisible id caller visible,.done)
  | .close => (d.close id caller,.done)
  | .waitForMarker marker tag => (d.waitForMarker id caller marker (.outside tag),.done)
  | .waitForLastUpdate => (d.waitForLastUpdate id caller,.done)

def meet (d : Desktop) : Event → Desktop × Answer
  | .call id caller c => d.call id caller c
  | .find caller id => told .window (d.getWindow caller id)
  | .findByPath caller path => told .window (d.windowByPath caller path)
  | .list caller visibleOnly => (d,.windows (d.listWindows caller visibleOnly))
  | .create caller geometry format => told .window (d.createWindow caller geometry format)
  | .other a _ => (d.perform a,.done)

/-- Whether a group asks for what it has no part in. A list is denied to those with a part in no
window. -/
def denies (d : Desktop) : Event → Bool
  | .call id caller _ => !d.permits id caller
  | .find caller id => !d.permits id caller
  | .findByPath caller path => d.registry.any fun r =>
    (r.ids.find? (windowPath · == path)).any fun id =>
      (d.openWindow? id).isSome && !d.permits id caller
  | .list caller _ => caller != d.service && d.openWindows.all (·.owner != caller)
  | .create caller .. => d.registry.isSome && d.groups.holds .denied caller
  | .other .. => false

/-- What is seen of a denied event. A caller that may not wait is called back at once. -/
def notes (d : Desktop) : Event → Array Effect
  | .call _ _ (.waitForMarker _ tag) => #[.logged .debug "DENY",.calledBack (.outside tag)]
  | .find _ id => if (d.openWindow? id).isSome then #[.logged .debug "DENY"] else #[]
  | .list .. | .other .. => #[]
  | _ => #[.logged .debug "DENY"]

variable {d : Desktop}

theorem log_eq (d : Desktop) (level : Level) (text : String) :
    d.log level text = { d with trace := d.trace ++ #[.logged level text] } := by simp [log, emit]

theorem logCall_denied {id : WindowId} {caller : Group} (h : d.permits id caller = false) :
    d.logCall id caller = d.log .debug "DENY" := by simp [logCall, h]

theorem guarded_denied {α : Type} {id : WindowId} {caller : Group}
    (h : d.permits id caller = false) (denied : α) (call : Desktop → Window → Desktop × α) :
    d.guarded id caller denied call = (d.log .debug "DENY",denied) := by
  have hp : (d.log .debug "DENY").permits id caller = false := h
  simp only [guarded, logCall_denied h, hp, Bool.false_eq_true, if_false]
  split <;> rfl

theorem guardedDo_denied {id : WindowId} {caller : Group} (h : d.permits id caller = false)
    (call : Desktop → Window → Desktop) : d.guardedDo id caller call = d.log .debug "DENY" :=
  congrArg Prod.fst (guarded_denied h () _)

theorem call_denied {id : WindowId} {caller : Group} (h : d.permits id caller = false) (c : Call) :
    d.call id caller c =
      ({ d with trace := d.trace ++ d.notes (.call id caller c) },c.refusal) := by
  have hlog := log_eq d .debug "DENY"
  cases c with
  | waitForMarker marker tag =>
    have hp : (d.log .debug "DENY").permits id caller = false := h
    have hnotes : d.notes (.call id caller (.waitForMarker marker tag)) =
        #[.logged .debug "DENY"] ++ #[.calledBack (.outside tag)] := rfl
    rw [hnotes, ← Array.append_assoc]
    simp only [call, waitForMarker, logCall_denied h, hp]
    simp [runCallback, log, emit, Call.refusal]
  | setGeometry | moveTo | repaint | raise | lower | setVisible | close | waitForLastUpdate =>
    exact congrArg (·,Answer.done) ((guardedDo_denied h _).trans hlog)
  | _ => exact (congrArg (told _) (guarded_denied h _ _)).trans (congrArg (·,_) hlog)

theorem permits_eq {id : WindowId} {caller : Group} {w : Window} (hw : d.window? id = some w) :
    d.permits id caller = (caller == d.service || caller == w.owner) := by
  rw [permits, hw, Option.any_some, Bool.beq_comm (a := w.owner)]

theorem window?_of_openWindow? {id : WindowId} {w : Window} (h : d.openWindow? id = some w) :
    d.window? id = some w := by
  unfold openWindow? at h
  split at h
  · cases h
  · split at h
    · exact h
    · cases h

theorem getWindow_denied {id : WindowId} {caller : Group} (hw : (d.openWindow? id).isSome = true)
    (h : d.permits id caller = false) : d.getWindow caller id = (d.log .debug "DENY",none) := by
  obtain ⟨w,hw⟩ := Option.isSome_iff_exists.1 hw
  rw [permits_eq (window?_of_openWindow? hw)] at h
  rw [getWindow, hw]
  simp only [h, Bool.false_eq_true, if_false]

theorem permits_of_mem_listWindows {id : WindowId} {caller : Group} {visibleOnly : Bool}
    (h : id ∈ d.listWindows caller visibleOnly) : d.permits id caller = true := by
  obtain ⟨w,hw,rfl⟩ := List.mem_map.1 h
  obtain ⟨hm,hsees⟩ := List.mem_filter.1 hw
  have hf : d.window? w.id = some w := by
    unfold openWindows at hm
    split at hm
    · cases hm
    · obtain ⟨j,-,hj⟩ := List.mem_filterMap.1 hm
      rwa [id_of_window? d hj]
  rw [permits_eq hf]
  exact (Bool.and_eq_true_iff.1 hsees).1

theorem meet_denied {ev : Event} (h : d.denies ev = true) :
    d.meet ev = ({ d with trace := d.trace ++ d.notes ev },ev.refusal) := by
  cases ev with
  | call id caller c => exact call_denied (by simpa [denies] using h) c
  | find caller id =>
    have hp : d.permits id caller = false := by simpa [denies] using h
    rw [meet, notes]
    split
    · rename_i hw
      rw [getWindow_denied hw hp, log_eq]
      rfl
    · rename_i hw
      rw [getWindow, Option.not_isSome_iff_eq_none.1 hw, Array.append_empty]
      rfl
  | findByPath caller path =>
    obtain ⟨r,hr,hany⟩ := (Option.any_eq_true _ _).1 h
    obtain ⟨id,hid,hany⟩ := (Option.any_eq_true _ _).1 hany
    obtain ⟨hw,hp⟩ := Bool.and_eq_true_iff.1 hany
    have hdenied : d.windowByPath caller path = (d.log .debug "DENY",none) := by
      simp only [windowByPath, hr, hid]
      exact getWindow_denied hw (by simpa using hp)
    rw [meet, hdenied, log_eq]
    rfl
  | list caller visibleOnly =>
    obtain ⟨hservice,hall⟩ := Bool.and_eq_true_iff.1 h
    have hnil : d.listWindows caller visibleOnly = [] := by
      rw [listWindows, List.map_eq_nil_iff, List.filter_eq_nil_iff]
      intro w hw
      have hne : caller ≠ w.owner := fun he => by simpa [he] using List.all_eq_true.1 hall w hw
      have hs : caller ≠ d.service := by simpa using hservice
      simp [hne, hs]
    simp [meet, hnil, notes, Event.refusal]
  | create caller geometry format =>
    obtain ⟨hr,hd⟩ := Bool.and_eq_true_iff.1 h
    obtain ⟨r,hr⟩ := Option.isSome_iff_exists.1 hr
    have hdenied : d.createWindow caller geometry format = (d.log .debug "DENY",none) := by
      simp only [createWindow, hr, hd, if_true]
    rw [meet, hdenied, log_eq]
    rfl
  | other => cases h

variable (d)

structure Outcome where
  event : Event
  denied : Bool
  answer : Answer
  effects : List Effect

def outcome (ev : Event) : Outcome :=
  ⟨ev,d.denies ev,(d.meet ev).2,(d.meet ev).1.trace.toList.drop d.trace.size⟩

def outcomes : Desktop → List Event → List Outcome
  | _, [] => []
  | d, ev :: events => d.outcome ev :: outcomes (d.meet ev).1 events

def after (events : List Event) : Desktop := events.foldl (fun d ev => (d.meet ev).1) d

/-- The desktop, had nothing been seen of it yet. -/
def quiet : Desktop := { d with trace := #[] }

theorem since_quiet : d.quiet.since d.trace = d := by simp [since, quiet]

variable (past : Array Effect)

@[simp] theorem call_since (id : WindowId) (caller : Group) (c : Call) :
    (d.since past).call id caller c =
      ((d.call id caller c).1.since past,(d.call id caller c).2) := by
  cases c <;> simp [call, told]

theorem meet_since (ev : Event) :
    (d.since past).meet ev = ((d.meet ev).1.since past,(d.meet ev).2) := by
  cases ev <;> simp [meet, told]

theorem denies_since (ev : Event) : (d.since past).denies ev = d.denies ev := by
  cases ev <;> simp [denies]

theorem outcome_since (ev : Event) : (d.since past).outcome ev = d.outcome ev := by
  have hdrop : (past.toList ++ (d.meet ev).1.trace.toList).drop (past.size+d.trace.size) =
      (d.meet ev).1.trace.toList.drop d.trace.size := by
    rw [← List.drop_drop, List.drop_left' Array.length_toList]
  simp [outcome, meet_since, denies_since, hdrop]

theorem outcomes_since (events : List Event) :
    (d.since past).outcomes events = d.outcomes events := by
  induction events generalizing d with
  | nil => rfl
  | cons ev events ih => rw [outcomes, outcomes, outcome_since, meet_since, ih]

theorem quiet_after_since (events : List Event) :
    ((d.since past).after events).quiet = (d.after events).quiet := by
  induction events generalizing d with
  | nil => rfl
  | cons ev events ih =>
    rw [after, List.foldl_cons, meet_since]
    exact ih _

theorem outcomes_congr {d e : Desktop} (h : d.quiet = e.quiet) (events : List Event) :
    d.outcomes events = e.outcomes events ∧ (d.after events).quiet = (e.after events).quiet := by
  rw [← since_quiet d, ← since_quiet e, h]
  exact ⟨(outcomes_since ..).trans (outcomes_since ..).symm,
    (quiet_after_since ..).trans (quiet_after_since ..).symm⟩

/-- The run without what was denied goes on as the run with it. -/
theorem outcomes_filter (events : List Event) :
    d.outcomes (((d.outcomes events).filter (!·.denied)).map (·.event)) =
        (d.outcomes events).filter (!·.denied) ∧
      (d.after (((d.outcomes events).filter (!·.denied)).map (·.event))).quiet =
        (d.after events).quiet := by
  induction events generalizing d with
  | nil => exact ⟨rfl,rfl⟩
  | cons ev events ih =>
    obtain ⟨hout,hafter⟩ := ih (d.meet ev).1
    cases hden : d.denies ev with
    | true =>
      have hkept : (d.outcomes (ev :: events)).filter (!·.denied) =
          ((d.meet ev).1.outcomes events).filter (!·.denied) := by
        rw [outcomes, List.filter_cons_of_neg (by simp [outcome, hden])]
      rw [hkept]
      have hsame : d.quiet = (d.meet ev).1.quiet := by rw [meet_denied hden]; rfl
      obtain ⟨ho,ha⟩ := outcomes_congr hsame
        ((((d.meet ev).1.outcomes events).filter (!·.denied)).map (·.event))
      exact ⟨ho.trans hout,ha.trans hafter⟩
    | false =>
      have hkept : (d.outcomes (ev :: events)).filter (!·.denied) =
          d.outcome ev :: ((d.meet ev).1.outcomes events).filter (!·.denied) := by
        rw [outcomes, List.filter_cons_of_pos (by simp [outcome, hden])]
      rw [hkept, List.map_cons]
      exact ⟨congrArg (d.outcome ev :: ·) hout,hafter⟩

/-- A denied call yields nothing and changes nothing: it is noted, and a caller that may not wait
is called back at once. Nobody lists windows that are not theirs. Without the denied calls a run
goes on as with them: everyone else is told the same, and the desktop ends up the same. -/
theorem denial_inert :
    (∀ ev, d.denies ev = true →
      d.meet ev = ({ d with trace := d.trace ++ d.notes ev },ev.refusal)) ∧
    (∀ id caller visibleOnly, d.permits id caller = false →
      ∃ ids, d.meet (.list caller visibleOnly) = (d,.windows ids) ∧ id ∉ ids) ∧
    ∀ events, let kept := (d.outcomes events).filter (!·.denied)
      d.outcomes (kept.map (·.event)) = kept ∧
        (d.after (kept.map (·.event))).quiet = (d.after events).quiet :=
  ⟨fun _ => meet_denied,fun id caller visibleOnly h => ⟨_,rfl,fun hm => by
    rw [permits_of_mem_listWindows hm] at h
    cases h⟩,outcomes_filter d⟩

/-- A stranger shows a window and waits for it, in vain, before and after its owner raises it. -/
theorem denial_inert_stranger :
    let d := (fresh smallPanel .anonymous {} 24 1).perform (.create 100 none .rgb16)
    let shown := Event.call 0 200 (.setVisible true)
    let wait := Event.call 0 200 (.waitForMarker 7 "later")
    let run := [shown,.call 0 100 .raise,wait]
    d.permits 0 200 = false ∧ (d.outcomes run).map (·.denied) = [true,false,true] ∧
      (d.meet shown).1 = { d with trace := d.trace ++ d.notes shown } ∧
      (d.meet wait).1.ledger = d.ledger ∧
      d.outcomes (((d.outcomes run).filter (!·.denied)).map (·.event)) =
        (d.outcomes run).filter (!·.denied) := by
  intro d shown wait run
  have hs : d.denies shown = true := by decide +kernel
  have hw : d.denies wait = true := by decide +kernel
  obtain ⟨hinert,-,hrun⟩ := denial_inert d
  refine ⟨by decide +kernel,by decide +kernel,congrArg Prod.fst (hinert shown hs),?_,
    (hrun run).1⟩
  rw [hinert wait hw]

end Desktop

end InkCompositor
