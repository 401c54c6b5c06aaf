import Mathlib
import InkCompositor.Proofs.Desktop.Isolation
import InkCompositor.Proofs.Desktop.Steps

/-!
# The order of the stack

What every operation does to the order of the open windows: one window moves,
joins or leaves, and the others stay in their order.
-/

set_option autoImplicit false

namespace InkCompositor

inductive Layer where
  | system
  | lowered
  | raised
  deriving DecidableEq

/-- Windows of the service form a layer of their own, raised or not. -/
def Window.layer (w : Window) : Layer :=
  if w.isSystem then .system else if w.state.isRaised then .raised else .lowered

def Action.subject? (d : Desktop) : Action → Option WindowId
  | .create .. | .createSystem .. => some d.nextWindow
  | .raise id .. | .lower id .. | .close id .. | .setVisible id .. | .moveTo id .. | .resize id ..
  | .setGeometry id .. | .repaint id .. => some id
  | _ => none

def Action.leavesStack : Action → Bool
  | .setVisible .. | .moveTo .. | .resize .. | .setGeometry .. | .repaint .. => true
  | _ => false

namespace Desktop

open Look

variable {d e : Desktop} {r : Registry}

def stackIds (d : Desktop) : List WindowId := d.sortedWindows.map (·.id)

def inLayer (d : Desktop) (layer : Layer) : List WindowId :=
  (d.sortedWindows.filter (·.layer = layer)).map (·.id)

theorem isSome_face_of_sorted (h : d.look.Sound) {id : WindowId} (hid : id ∈ d.look.sorted) :
    (d.look.face id).isSome = true := by
  cases hs : d.look.stack with
  | none => simp [Look.sorted, hs] at hid
  | some s =>
    rw [sorted_of_stack hs] at hid
    exact h.stands _ _ hs id ((h.sorted_perm hs).mem_iff.1 hid)

theorem stackIds_eq (h : d.look.Sound) : d.stackIds = d.look.sorted := by
  rw [stackIds, sortedWindows_eq]
  exact map_id_filterMap_window? _ fun _ => isSome_face_of_sorted h

theorem ids_filter_sortedWindows (h : d.look.Sound) {p : WindowId → Bool} {q : Window → Bool}
    (hp : ∀ {id w}, d.window? id = some w → p id = q w) :
    (d.sortedWindows.filter q).map (·.id) = d.look.sorted.filter p := by
  rw [sortedWindows_eq, ← filterMap_window?_filter hp]
  exact map_id_filterMap_window? _ fun _ hid =>
    isSome_face_of_sorted h (List.mem_of_mem_filter hid)

theorem inLayer_eq (h : d.look.Sound) {layer : Layer} {p : WindowId → Bool}
    (hp : ∀ {id w}, d.window? id = some w → p id = decide (w.layer = layer)) :
    d.inLayer layer = d.look.sorted.filter p := ids_filter_sortedWindows h hp

theorem inLayer_system (h : d.look.Sound) : d.inLayer .system = d.look.system := by
  apply inLayer_eq h
  intro id w hw
  rw [isSystem_of_window? d hw, Window.layer]
  cases w.isSystem <;> cases w.state.isRaised <;> rfl

theorem inLayer_lowered (h : d.look.Sound) : d.inLayer .lowered = d.look.lowered := by
  rw [Look.lowered, Look.others, List.filter_filter]
  apply inLayer_eq h
  intro id w hw
  rw [isSystem_of_window? d hw, isRaised_of_window? d hw, Window.layer]
  cases w.isSystem <;> cases w.state.isRaised <;> rfl

theorem inLayer_raised (h : d.look.Sound) : d.inLayer .raised = d.look.raised := by
  rw [Look.raised, Look.others, List.filter_filter]
  apply inLayer_eq h
  intro id w hw
  rw [isSystem_of_window? d hw, isRaised_of_window? d hw, Window.layer]
  cases w.isSystem <;> cases w.state.isRaised <;> rfl

theorem stackIds_layers (h : d.look.Sound) :
    d.stackIds = d.inLayer .system ++ d.inLayer .lowered ++ d.inLayer .raised := by
  rw [stackIds_eq h, inLayer_system h, inLayer_lowered h, inLayer_raised h, h.sorted_eq.1,
    h.sorted_eq.2, List.append_assoc]

theorem others_eq (h : d.look.Sound) : d.look.others = d.inLayer .lowered ++ d.inLayer .raised := by
  rw [inLayer_lowered h, inLayer_raised h, h.sorted_eq.2]

/-- Any two windows but the given one lie in the same order before and after. -/
def KeepsOthers (id : WindowId) (before after : List WindowId) : Prop :=
  ∀ i j, i ≠ id → j ≠ id → ([i,j].Sublist after ↔ [i,j].Sublist before)

theorem KeepsOthers.of_filter {id : WindowId} {before after : List WindowId}
    (h : after.filter (· != id) = before.filter (· != id)) : KeepsOthers id before after := by
  have hf : ∀ i j, i ≠ id → j ≠ id → ∀ ids : List WindowId,
      [i,j].Sublist ids ↔ [i,j].Sublist (ids.filter (· != id)) := by
    intro i j hi hj ids
    constructor
    · intro hs
      have hs' := hs.filter (· != id)
      simpa [hi, hj] using hs'
    · exact fun hs => hs.trans List.filter_sublist
  intro i j hi hj
  rw [hf i j hi hj after, h, ← hf i j hi hj before]

section

variable (hs : d.look.Sound) (hroom : d.look.Roomy)
include hs

theorem window_of_mem_openWindows {w : Window} (hw : w ∈ d.openWindows) :
    d.window? w.id = some w ∧ w.state ≠ .closed ∧ w.id ∈ d.stackIds := by
  cases hr : d.registry with
  | none => simp [openWindows, hr] at hw
  | some r =>
    rw [openWindows_eq hr] at hw
    have hwid := window?_of_mem_filterMap hw
    obtain ⟨id,hid,hw'⟩ := List.mem_filterMap.1 hw
    rw [← id_of_window? d hw'] at hid
    refine ⟨hwid,hs.unclosed _ _ (stack_look hr) _ hid w.face (by simp [look, hwid]),?_⟩
    rw [stackIds_eq hs, sorted_of_stack (stack_look hr)]
    exact (hs.sorted_perm (stack_look hr)).mem_iff.2 hid

theorem honours_of_mem_openWindows {w : Window} (hw : w ∈ d.openWindows) {caller : Group}
    (hp : d.permits w.id caller = true) : d.Honours w.id caller w :=
  have h := window_of_mem_openWindows hs hw
  ⟨h.1,hp,h.2.1⟩

theorem mem_others {w : Window} (hw : w ∈ d.openWindows) :
    w.id ∈ d.look.others ↔ w.isSystem = false := by
  obtain ⟨hwid,-,hmem⟩ := window_of_mem_openWindows hs hw
  rw [stackIds_eq hs] at hmem
  simp [Look.others, hmem, isSystem_of_window? d hwid]

theorem stackIds_of_edits (h : Edits ⟨fun _ => True,False⟩ d e) (he : e.look.Sound) :
    e.stackIds = d.stackIds := by
  rw [stackIds_eq he, stackIds_eq hs, Look.sorted, stack_of_edits h]
  rfl

theorem stackIds_perform_of_leavesStack {a : Action} (ha : a.leavesStack = true) :
    (d.perform a).stackIds = d.stackIds := by
  refine stackIds_of_edits hs ?_ (sound_perform hs a)
  cases a with
  | setVisible => exact (deeds_setVisible .refl trivial ..).edits
  | moveTo => exact (deeds_moveTo .refl trivial ..).edits
  | resize => exact (deeds_resize .refl trivial ..).edits
  | setGeometry => exact (deeds_setGeometry .refl trivial ..).edits
  | repaint => exact (deeds_repaint .refl trivial _ _ _ (.inr trivial)).edits
  | _ => cases ha

include hroom

section

variable {w : Window} (hw : w ∈ d.openWindows) {caller : Group}
  (hp : d.permits w.id caller = true)
include hw hp

theorem stackIds_raise : (d.raise w.id caller).stackIds = d.look.moved w.id true := by
  rw [stackIds_eq (sound_raise hs ..)]
  exact (stack_raise hs hroom (honours_of_mem_openWindows hs hw hp)).2

theorem stackIds_lower : (d.lower w.id caller).stackIds = d.look.moved w.id false := by
  rw [stackIds_eq (sound_lower hs ..)]
  exact (stack_lower hs hroom (honours_of_mem_openWindows hs hw hp)).2

theorem stackIds_close : (d.close w.id caller).stackIds = d.stackIds.filter (· != w.id) := by
  obtain ⟨hst,hgone⟩ := stack_close hs hroom (honours_of_mem_openWindows hs hw hp)
  rw [stackIds_eq (sound_close hs ..), stackIds_eq hs]
  exact (filter_ne_self hgone).symm.trans hst.sorted

end

theorem stackIds_openWindow (hr : d.registry = some r) (owner : Group) (isSystem : Bool)
    (geometry : Option Rect) (format : PixelFormat) :
    (d.openWindow r owner isSystem geometry format).1.stackIds =
      d.look.inserted d.nextWindow isSystem := by
  obtain ⟨f,height,-,hl⟩ := openWindow_spec hs hroom hr owner isSystem geometry format
  rw [stackIds_eq (sound_openWindow hs hr ..), hl]
  exact sorted_of_stack rfl

theorem stackIds_createWindow (hr : d.registry = some r) {caller : Group}
    (ha : d.groups.holds .denied caller = false) (geometry : Option Rect) (format : PixelFormat) :
    (d.createWindow caller geometry format).2 = some d.nextWindow ∧
      (d.createWindow caller geometry format).1.stackIds = d.look.inserted d.nextWindow false := by
  simp only [createWindow, hr, ha]
  exact ⟨rfl,stackIds_openWindow hs hroom hr ..⟩

theorem stackIds_createSystemWindow (hr : d.registry = some r) (geometry : Option Rect)
    (format : PixelFormat) :
    (d.createSystemWindow geometry format).2 = some d.nextWindow ∧
      (d.createSystemWindow geometry format).1.stackIds = d.look.inserted d.nextWindow true := by
  have hopened := sound_openWindow hs hr d.service true geometry format
  simp only [createSystemWindow, hr]
  refine ⟨rfl,?_⟩
  rw [stackIds_of_edits hopened (deeds_setVisible .refl trivial ..).edits
    (sound_setVisible hopened ..)]
  exact stackIds_openWindow hs hroom hr ..

/-- Whoever asks for it, an operation on a window leaves the others in their order. -/
theorem filter_stackIds_perform (hr : d.registry = some r) {a : Action} {id : WindowId}
    (ha : a.subject? d = some id) :
    (d.perform a).stackIds.filter (· != id) = d.stackIds.filter (· != id) := by
  have hrest : ∀ e : Desktop, e.look.Sound → Restacked id d.look e.look.stack →
      e.stackIds.filter (· != id) = d.stackIds.filter (· != id) := by
    intro e he hst
    rw [stackIds_eq he, stackIds_eq hs]
    exact hst.sorted
  have hnew : d.nextWindow ∉ d.look.sorted := hs.nextWindow_notMem
  by_cases hleaves : a.leavesStack = true
  · rw [stackIds_perform_of_leavesStack hs hleaves]
  cases a with
  | create caller geometry format =>
    obtain rfl := Option.some.inj ha
    cases hden : d.groups.holds .denied caller with
    | true => simp only [perform, createWindow, hr, hden, if_true]; rfl
    | false =>
      rw [perform, (stackIds_createWindow hs hroom hr hden geometry format).2,
        hs.filter_inserted hnew, stackIds_eq hs, filter_ne_self hnew]
  | createSystem geometry format =>
    obtain rfl := Option.some.inj ha
    rw [perform, (stackIds_createSystemWindow hs hroom hr geometry format).2,
      hs.filter_inserted hnew, stackIds_eq hs, filter_ne_self hnew]
  | raise j caller =>
    obtain rfl := Option.some.inj ha
    exact hrest _ (sound_raise hs ..) (restacked_raise hs hroom j caller)
  | lower j caller =>
    obtain rfl := Option.some.inj ha
    exact hrest _ (sound_lower hs ..) (restacked_lower hs hroom j caller)
  | close j caller =>
    obtain rfl := Option.some.inj ha
    exact hrest _ (sound_close hs ..) (restacked_close hs hroom j caller)
  | setVisible | moveTo | resize | setGeometry | repaint => exact absurd rfl hleaves
  | _ => cases ha

end

/-- What the operations do to the order of the stack. -/
structure Orderly (d : Desktop) : Prop where
  layers : d.stackIds = d.inLayer .system ++ d.inLayer .lowered ++ d.inLayer .raised
  perm : d.stackIds.Perm (d.openWindows.map (·.id))
  nodup : d.stackIds.Nodup
  /-- A raised window comes to lie on top of all others. -/
  raise : ∀ w ∈ d.openWindows, w.isSystem = false → ∀ caller, d.permits w.id caller = true →
    (d.raise w.id caller).stackIds = d.stackIds.filter (· != w.id) ++ [w.id]
  /-- A lowered window comes to lie directly above those of the service. -/
  lower : ∀ w ∈ d.openWindows, w.isSystem = false → ∀ caller, d.permits w.id caller = true →
    (d.lower w.id caller).stackIds = d.inLayer .system ++
      w.id :: (d.inLayer .lowered ++ d.inLayer .raised).filter (· != w.id)
  service : ∀ w ∈ d.openWindows, w.isSystem = true → ∀ caller, d.permits w.id caller = true →
    (d.raise w.id caller).stackIds = d.stackIds ∧ (d.lower w.id caller).stackIds = d.stackIds
  close : ∀ w ∈ d.openWindows, ∀ caller, d.permits w.id caller = true →
    (d.close w.id caller).stackIds = d.stackIds.filter (· != w.id)
  /-- The number of a window that is opened is in no use yet. -/
  unused : d.nextWindow ∉ d.stackIds
  /-- A window of a client is opened below the raised ones. -/
  create : ∀ caller, d.groups.holds .denied caller = false → ∀ geometry format,
    (d.createWindow caller geometry format).2 = some d.nextWindow ∧
      (d.createWindow caller geometry format).1.stackIds =
        d.inLayer .system ++ d.inLayer .lowered ++ d.nextWindow :: d.inLayer .raised
  /-- A window of the service is opened above the others of the service. -/
  createSystem : ∀ geometry format,
    (d.createSystemWindow geometry format).2 = some d.nextWindow ∧
      (d.createSystemWindow geometry format).1.stackIds =
        d.inLayer .system ++ d.nextWindow :: (d.inLayer .lowered ++ d.inLayer .raised)
  leaves : ∀ a : Action, a.leavesStack = true → (d.perform a).stackIds = d.stackIds
  others : ∀ (a : Action) (id : WindowId), a.subject? d = some id →
    KeepsOthers id d.stackIds (d.perform a).stackIds

/-- Every operation on a window moves, adds or removes just that window in the stack. -/
theorem stack_orderly (h : Occurs d) (hr : d.registry = some r)
    (hroom : r.order.length < 2147483648) : d.Orderly := by
  have hs := h.sound
  have hroomy := roomy_of_stack (stack_look hr) hroom
  have hcanonical := canonical_of_sound hs hr hroom
  have hperm : d.stackIds.Perm (d.openWindows.map (·.id)) := hcanonical.perm.map _
  have hsystem : ∀ w ∈ d.openWindows, w.isSystem = true → ∀ up,
      d.look.moved w.id up = d.stackIds := by
    intro w hw hsys up
    rw [Look.moved, if_neg, stackIds_eq hs]
    rw [mem_others hs hw, hsys]
    exact Bool.noConfusion
  constructor
  case layers => exact stackIds_layers hs
  case perm => exact hperm
  case nodup =>
    rw [stackIds_eq hs]
    exact hs.nodup_sorted
  case raise =>
    intro w hw hsys caller hp
    rw [stackIds_raise hs hroomy hw hp, Look.moved, if_pos ((mem_others hs hw).2 hsys), if_pos rfl,
      stackIds_eq hs]
  case lower =>
    intro w hw hsys caller hp
    rw [stackIds_lower hs hroomy hw hp, Look.moved, if_pos ((mem_others hs hw).2 hsys),
      if_neg Bool.false_ne_true, inLayer_system hs, others_eq hs]
  case service =>
    intro w hw hsys caller hp
    rw [stackIds_raise hs hroomy hw hp, stackIds_lower hs hroomy hw hp]
    exact ⟨hsystem w hw hsys true,hsystem w hw hsys false⟩
  case close => exact fun w hw caller hp => stackIds_close hs hroomy hw hp
  case unused =>
    rw [stackIds_eq hs]
    exact hs.nextWindow_notMem
  case create =>
    intro caller ha geometry format
    rw [inLayer_system hs, inLayer_lowered hs, inLayer_raised hs]
    exact stackIds_createWindow hs hroomy hr ha geometry format
  case createSystem =>
    intro geometry format
    rw [inLayer_system hs, ← others_eq hs]
    exact stackIds_createSystemWindow hs hroomy hr geometry format
  case leaves => exact fun a ha => stackIds_perform_of_leavesStack hs ha
  case others => exact fun a id ha => .of_filter (filter_stackIds_perform hs hroomy hr ha)

/-- A client has its window raised above that of the service. A window opened now comes to lie
between the two. -/
theorem stack_orderly_small :
    let d := ((fresh smallPanel .anonymous {} 24 1).perform (.createSystem none .rgb32)).perform
      (.create 100 (some ⟨1,1,2,2⟩) .rgb16) |>.perform (.raise 1 100)
    ∃ r, d.registry = some r ∧ r.order = [0,1] ∧ r.order.length < 2147483648 ∧ d.Orderly ∧
      (d.createWindow 200 none .rgb16).1.stackIds = [0,2,1] := by
  intro d
  have h : Reachable d := .act _ (.act _ (.act _ (.fresh smallPanel .anonymous {} 24 1 {} rfl)))
  have hs : d.registry.map (·.order) = some [0,1] := by decide +kernel
  obtain ⟨r,hr,horder⟩ := Option.map_eq_some_iff.1 hs
  have hroom : r.order.length < 2147483648 := by
    rw [horder]
    decide
  have ho := stack_orderly (.reachable h) hr hroom
  have hlayers : d.inLayer .system = [0] ∧ d.inLayer .lowered = [] ∧ d.inLayer .raised = [1] ∧
      d.nextWindow = 2 := by decide +kernel
  obtain ⟨h0,h1,h2,h3⟩ := hlayers
  refine ⟨r,hr,horder,hroom,ho,?_⟩
  rw [(ho.create 200 (by decide +kernel) none .rgb16).2, h0, h1, h2, h3]
  rfl

end Desktop

end InkCompositor
