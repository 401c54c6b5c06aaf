import Mathlib
import InkCompositor.Proofs.Desktop.Pinging

/-!
# Pings over a whole run

Windows are serviced now and then: what a client has written is handled, and
its window is checked. Between that anything else may happen. From the time at
which a window was opened, its history of pings and answers keeps to the
protocol, and what is kept of the pings is what the history says.
-/

set_option autoImplicit false

namespace InkCompositor.Desktop

variable {d₀ d e : Desktop} {id : WindowId} {timings : Timings} {opened : Time}
  {history : List Pulse}

/-- The steps that servicing a window consists of. -/
def serviceSteps (d : Desktop) (id : WindowId) (now : Time) : List Step :=
  match d.window? id with
  | none => []
  | some w =>
    if !w.enabled || w.state = .closed then []
    else .receive id :: ((match (d.receive id).2 with
      | .ok messages => messages.map fun m => .act (.message id m)
      | .error _ => [.note .warn "Malformed data on event pipe"]) ++ [.check id now])

theorem foldl_serviceSteps (d : Desktop) (id : WindowId) (now : Time) :
    (d.serviceSteps id now).foldl take d = d.serviceWindow id now := by
  cases hw : d.window? id with
  | none =>
    rw [serviceSteps, serviceWindow, hw]
    rfl
  | some w =>
    rw [serviceSteps, serviceWindow, hw]
    dsimp only
    split
    · rfl
    rw [List.foldl_cons, List.foldl_append]
    rcases hr : d.receive id with ⟨e,received⟩
    cases received with
    | ok messages =>
      simp only [take, hr, List.foldl_map, List.foldl_cons, List.foldl_nil]
      rfl
    | error x => simp only [take, hr, List.foldl_cons, List.foldl_nil]

/-- A window is serviced, or something else happens. -/
inductive Turn where
  | service (id : WindowId) (now : Time)
  | other (s : Step)

/-- Clients do what clients can do, and are serviced one after the other. -/
def Turn.Regular : Turn → Prop
  | service .. => True
  | other (.act .service) | other (.check ..) => False
  | other s => s.Honest

def Turn.steps (d : Desktop) : Turn → List Step
  | service id now => d.serviceSteps id now
  | other s => [s]

def Turn.time? (id : WindowId) : Turn → Option Time
  | service j now => if j = id then some now else none
  | other _ => none

def turn (d : Desktop) : Turn → Desktop
  | .service id now => d.serviceWindow id now
  | .other s => d.take s

/-- The pings to a window and its client's answers in a run. -/
def historyOf (d : Desktop) (id : WindowId) : List Turn → List Pulse
  | [] => []
  | t :: turns => d.pulses id (t.steps d) ++ (d.turn t).historyOf id turns

/-- To service all clients is to service one window after the other. -/
theorem serviceClients_eq (d : Desktop) (now : Time) : d.serviceClients now =
    ((d.openWindows.map (·.id)).map (Turn.service · now)).foldl turn d := by
  rw [List.foldl_map]
  rfl

theorem turn_eq (d : Desktop) (t : Turn) : d.turn t = (t.steps d).foldl take d := by
  cases t with
  | service id now => exact (foldl_serviceSteps d id now).symm
  | other s => rfl

theorem Turn.Regular.step {s : Step} (h : (Turn.other s).Regular) :
    s.Honest ∧ s ≠ .act .service ∧ ∀ j now, s ≠ .check j now := by
  cases s with
  | act a =>
    cases a with
    | service => exact h.elim
    | _ => exact ⟨h,by simp,by simp⟩
  | check => exact h.elim
  | _ => exact ⟨h,by simp,by simp⟩

def Step.Handles (id : WindowId) (s : Step) : Prop :=
  s = .receive id ∨ (∃ m, s = .act (.message id m)) ∨ ∃ level text, s = .note level text

theorem serviceSteps_cases (d : Desktop) (id : WindowId) (now : Time) :
    d.serviceSteps id now = [] ∨ ∃ parts : List Step, (∀ s ∈ parts, Step.Handles id s) ∧
      d.serviceSteps id now = parts ++ [.check id now] := by
  unfold serviceSteps
  split
  · exact .inl rfl
  split
  · exact .inl rfl
  refine .inr ⟨_ :: _,fun s hs => ?_,List.cons_append.symm⟩
  rcases List.mem_cons.1 hs with hs | hs
  · exact .inl hs
  split at hs
  · obtain ⟨m,-,rfl⟩ := List.mem_map.1 hs
    exact .inr (.inl ⟨m,rfl⟩)
  · exact .inr (.inr ⟨_,_,List.mem_singleton.1 hs⟩)

theorem Step.Handles.frame {s : Step} (h : Step.Handles id s) :
    s.Honest ∧ s ≠ .act .service ∧ ∀ j now, s ≠ .check j now := by
  rcases h with rfl | ⟨m,rfl⟩ | ⟨level,text,rfl⟩
  · exact ⟨trivial,by simp,by simp⟩
  · exact ⟨trivial,by simp,by simp⟩
  · exact ⟨trivial,by simp,by simp⟩

theorem Turn.Regular.steps {t : Turn} (h : t.Regular) :
    ∀ s ∈ t.steps d, s.Honest ∧ s ≠ .act .service := by
  intro s hs
  cases t with
  | service id now =>
    change s ∈ d.serviceSteps id now at hs
    rcases d.serviceSteps_cases id now with he | ⟨parts,hparts,he⟩
    · rw [he] at hs
      cases hs
    · rw [he] at hs
      rcases List.mem_append.1 hs with hs | hs
      · exact ⟨(hparts s hs).frame.1,(hparts s hs).frame.2.1⟩
      · rw [List.mem_singleton.1 hs]
        exact ⟨trivial,by simp⟩
  | other s =>
    obtain rfl := List.mem_singleton.1 hs
    exact ⟨h.step.1,h.step.2.1⟩

theorem occurs_turns (h : Occurs d) (turns : List Turn) : Occurs (turns.foldl turn d) := by
  induction turns generalizing d with
  | nil => exact h
  | cons t turns ih =>
    rw [List.foldl_cons, turn_eq]
    exact ih (h.run _)

theorem Watched.turns (h : d.Watched id timings opened history) (ho : Occurs d) {turns : List Turn}
    (hr : ∀ t ∈ turns, t.Regular) :
    (turns.foldl turn d).Watched id timings opened (history ++ d.historyOf id turns) := by
  induction turns generalizing d history with
  | nil => simpa [historyOf] using h
  | cons t turns ih =>
    have ht := hr t List.mem_cons_self
    rw [List.foldl_cons, historyOf, ← List.append_assoc]
    refine ih ?_ ?_ fun u hu => hr u (List.mem_cons_of_mem t hu)
    · rw [turn_eq]
      exact h.run ho ht.steps
    · rw [turn_eq]
      exact ho.run _

def Step.time? (id : WindowId) : Step → Option Time
  | .check j now => if j = id then some now else none
  | _ => none

theorem time?_pulse? (d : Desktop) (id : WindowId) (s : Step) :
    (d.pulse? id s).toList.filterMap Pulse.time? = (Step.time? id s).toList := by
  unfold pulse?
  split
  · split <;> rfl
  · rename_i j now
    rw [Step.time?]
    split <;> rfl
  · rename_i hcheck
    cases s with
    | check j now => exact absurd rfl (hcheck j now)
    | _ => rfl

theorem times_pulses (d : Desktop) (id : WindowId) (steps : List Step) :
    (d.pulses id steps).filterMap Pulse.time? = steps.filterMap (Step.time? id) := by
  induction steps generalizing d with
  | nil => rfl
  | cons s steps ih =>
    rw [pulses, List.filterMap_append, ih, time?_pulse?, List.filterMap_cons]
    cases Step.time? id s <;> rfl

theorem time?_eq_none {s : Step} (h : ∀ j now, s ≠ .check j now) : Step.time? id s = none := by
  cases s with
  | check j now => exact absurd rfl (h j now)
  | _ => rfl

theorem times_steps {t : Turn} (h : t.Regular) (d : Desktop) (id : WindowId) :
    ((t.steps d).filterMap (Step.time? id)).Sublist (t.time? id).toList := by
  cases t with
  | service j now =>
    change ((d.serviceSteps j now).filterMap _).Sublist _
    rcases d.serviceSteps_cases j now with he | ⟨parts,hparts,he⟩
    · rw [he]
      exact List.nil_sublist _
    · have hnone : parts.filterMap (Step.time? id) = [] :=
        List.filterMap_eq_nil_iff.2 fun s hs => time?_eq_none (hparts s hs).frame.2.2
      rw [he, List.filterMap_append, hnone, List.nil_append]
      by_cases hj : j = id
      · simp [Step.time?, Turn.time?, hj]
      · simp [Step.time?, hj]
  | other s =>
    change ([s].filterMap _).Sublist _
    rw [List.filterMap_cons_none (time?_eq_none h.step.2.2)]
    exact List.nil_sublist _

theorem times_historyOf {turns : List Turn} (hr : ∀ t ∈ turns, t.Regular) (d : Desktop)
    (id : WindowId) : ((d.historyOf id turns).filterMap Pulse.time?).Sublist
      (turns.filterMap (Turn.time? id)) := by
  induction turns generalizing d with
  | nil => exact List.nil_sublist _
  | cons t turns ih =>
    rw [historyOf, List.filterMap_append, times_pulses]
    have hs := (times_steps (hr t List.mem_cons_self) d id).append
      (ih (fun u hu => hr u (List.mem_cons_of_mem t hu)) (d.turn t))
    rw [List.filterMap_cons]
    cases ht : Turn.time? id t with
    | none => simpa [ht] using hs
    | some now => simpa [ht] using hs

def Creates (d₀ d : Desktop) (id : WindowId) : Prop :=
  (∃ caller geometry format, d₀.createWindow caller geometry format = (d,some id)) ∨
    ∃ geometry format, d₀.createSystemWindow geometry format = (d,some id)

theorem Creates.deeds {p : Dealing → Prop} (hc : d₀.Creates d id) (h : Reachable d₀) :
    id = d₀.nextWindow ∧ ∃ r owner isSystem format geometry,
      Deeds .everything p (d₀.installed (d₀.newWindow r owner isSystem format) geometry) d := by
  have hn := window?_nextWindow h.sound.toReady
  rcases hc with ⟨caller,geometry,format,hc⟩ | ⟨geometry,format,hc⟩
  · unfold createWindow at hc
    split at hc
    · cases hc
    rename_i r hr
    split at hc
    · cases hc
    obtain ⟨rfl,hid⟩ := Prod.mk.inj hc
    exact ⟨(Option.some.inj hid).symm,r,caller,false,format,_,
      deeds_openInstalled hn hr geometry .refl⟩
  · unfold createSystemWindow at hc
    split at hc
    · cases hc
    rename_i r hr
    obtain ⟨rfl,hid⟩ := Prod.mk.inj hc
    exact ⟨(Option.some.inj hid).symm,r,d₀.service,true,format,_,
      deeds_setVisible (deeds_openInstalled hn hr geometry .refl) trivial ..⟩

theorem pinged_newWindow (d₀ : Desktop) (r : Registry) (owner : Group) (isSystem : Bool)
    (format : PixelFormat) :
    (d₀.newWindow r owner isSystem format).Pinged d₀.timings d₀.now [] :=
  ⟨.fresh ..,le_rfl,fun _ => rfl⟩

theorem watched_installed (h : d₀.Distinct) (r : Registry) (owner : Group) (isSystem : Bool)
    (format : PixelFormat) (geometry : Rect)
    (ht : (d₀.installed (d₀.newWindow r owner isSystem format) geometry).timings = d₀.timings) :
    (d₀.installed (d₀.newWindow r owner isSystem format) geometry).Watched d₀.nextWindow
      d₀.timings d₀.now [] := by
  obtain ⟨image,ha⟩ := acts_installed h (w := d₀.newWindow r owner isSystem format) rfl geometry
  refine ⟨?_,ht,⟨by simp,by simp⟩,fun v hv hid => ?_⟩
  · rw [ha.nextWindow]
    exact Nat.lt_succ_self _
  rw [ha.windows] at hv
  obtain ⟨u,hu,rfl⟩ := List.mem_map.1 hv
  rcases List.mem_append.1 hu with hu | hu
  · have hne : u.id ≠ (d₀.newWindow r owner isSystem format).id :=
      (h.lt u (List.mem_append_left _ hu)).ne
    rw [if_neg hne] at hid
    exact absurd hid hne
  · obtain rfl := List.mem_singleton.1 hu
    have hx : (d₀.newWindow r owner isSystem format).Exchange (Dealing.sparing d₀.nextWindow)
        ((d₀.newWindow r owner isSystem format).refurnished geometry image) :=
      .refurnish geometry image
    rw [if_pos rfl]
    exact (pinged_newWindow ..).still (hx.still fun hne => hne rfl)

theorem Creates.watched (hc : d₀.Creates d id) (h : Reachable d₀) :
    d.Watched id d₀.timings d₀.now [] := by
  obtain ⟨rfl,r,owner,isSystem,format,geometry,hd⟩ :=
    hc.deeds (p := Dealing.sparing d₀.nextWindow) h
  have hi : Deed .everything (Dealing.sparing d₀.nextWindow) d₀ _ :=
    .install r owner isSystem format geometry trivial (window?_nextWindow h.sound.toReady)
  have hw := watched_installed h.distinct r owner isSystem format geometry
    (Deeds.timings (.single hi))
  exact hw.calm (hd.calm (hi.edits.keeps Edit.distinct h.distinct) fun hne => hne rfl) hd.timings

theorem Creates.reachable (hc : d₀.Creates d id) (h : Reachable d₀) : Reachable d := by
  rcases hc with ⟨caller,geometry,format,hc⟩ | ⟨geometry,format,hc⟩
  · have hd : Reachable (d₀.createWindow caller geometry format).1 := .act (.create ..) h
    rwa [hc] at hd
  · have hd : Reachable (d₀.createSystemWindow geometry format).1 := .act (.createSystem ..) h
    rwa [hc] at hd

/-- Whatever else happens while a window is serviced at times that do not go back: no ping is sent
before the interval has passed since the window was opened, and between two pings the client's
answer was handled and the interval has passed. The client is unresponsive exactly if a ping is
unanswered and the deadline was over at a check. As many pings were put on the pipe as were sent,
as long as the compositor holds its end. A check, at any time, changes nothing but what is kept of
the pings of that window, and sends at most a ping. It ends the program just if the deadline that
it computes cannot be expressed. -/
theorem pings_paced (h : Reachable d₀) (hc : d₀.Creates d id)
    (hd : 0 < d₀.timings.pingDeadline) {turns : List Turn} (hr : ∀ t ∈ turns, t.Regular)
    (hm : (turns.filterMap (Turn.time? id)).Pairwise (· ≤ ·)) :
    let e := turns.foldl turn d
    let pulses := d.historyOf id turns
    Paced d₀.timings d₀.now pulses ∧
    (∀ w, e.window? id = some w →
      (w.liveness.unresponsive = true ↔ ∃ s, Unanswered pulses s ∧
        ∃ t asked, .checked t asked ∈ pulses ∧ s+d₀.timings.pingDeadline ≤ t) ∧
      w.eventPipe.pings ≤ pulses.countP Pulse.asked ∧
      (w.eventPipe.isOpen = true → w.eventPipe.pings = pulses.countP Pulse.asked)) ∧
    ∀ now, ∃ trace, e.checkLiveness id now = { e with
      windows := e.windows.map fun w => if w.id = id then w.checkedAt d₀.timings now else w
      trace
      panicked := e.panicked || e.overruns id now } := by
  intro e pulses
  have ho : Occurs d := .reachable (hc.reachable h)
  have hw : e.Watched id d₀.timings d₀.now pulses := (hc.watched h).turns ho hr
  have hmono := hm.sublist (times_historyOf hr d id)
  refine ⟨hw.paced,fun w he => ?_,fun now => ?_⟩
  · have hp := hw.pinged w (mem_of_window? he) (id_of_window? _ he)
    exact ⟨hp.reflects.unresponsive.trans (overdue_iff hd hmono),hp.pings_le,hp.pings_eq⟩
  · rw [← hw.lasting]
    exact checkLiveness_eq (occurs_turns ho turns).distinct id now

/-- A client that answers a ping late, and the next one not at all. -/
theorem pings_paced_late :
    let d₀ := fresh smallPanel .anonymous {} 24 1
    let d := (d₀.createWindow 100 (some ⟨1,1,2,2⟩) .rgb16).1
    let turns : List Turn := [.service 0 10000,
      .other (.act (.atPipe 0 .event (ClientMove.write [9,0]).apply)),
      .service 0 15000,.service 0 20000,.service 0 25000]
    let e := turns.foldl turn d
    let pulses := d.historyOf 0 turns
    pulses = [.checked 10000 true,.answered,.checked 15000 false,.checked 20000 true,
      .checked 25000 false] ∧
    (e.window? 0).map (·.liveness.unresponsive) = some true ∧
    Reachable d₀ ∧ d₀.Creates d 0 ∧ (∀ t ∈ turns, t.Regular) ∧
    (turns.filterMap (Turn.time? 0)).Pairwise (· ≤ ·) ∧
    Paced d₀.timings d₀.now pulses ∧
    (∀ w, e.window? 0 = some w →
      (w.liveness.unresponsive = true ↔ ∃ s, Unanswered pulses s ∧
        ∃ t asked, .checked t asked ∈ pulses ∧ s+d₀.timings.pingDeadline ≤ t) ∧
      w.eventPipe.pings ≤ pulses.countP Pulse.asked ∧
      (w.eventPipe.isOpen = true → w.eventPipe.pings = pulses.countP Pulse.asked)) ∧
    ∀ now, ∃ trace, e.checkLiveness 0 now = { e with
      windows := e.windows.map fun w => if w.id = 0 then w.checkedAt d₀.timings now else w
      trace
      panicked := e.panicked || e.overruns 0 now } := by
  intro d₀ d turns e pulses
  have h : Reachable d₀ := .fresh smallPanel .anonymous {} 24 1 {} rfl
  have hc : d₀.Creates d 0 := .inl ⟨100,some ⟨1,1,2,2⟩,.rgb16,Prod.ext rfl rfl⟩
  have hr : ∀ t ∈ turns, t.Regular := by
    intro t ht
    simp only [turns, List.mem_cons, List.not_mem_nil, or_false] at ht
    rcases ht with rfl | rfl | rfl | rfl | rfl
    · trivial
    · exact ⟨_,rfl⟩
    · trivial
    · trivial
    · trivial
  have hm : (turns.filterMap (Turn.time? 0)).Pairwise (· ≤ ·) := by decide +zetaReduce
  exact ⟨by decide +kernel +zetaReduce,by decide +kernel +zetaReduce,h,hc,hr,hm,
    pings_paced h hc (by decide) hr hm⟩

end InkCompositor.Desktop
