import Mathlib
import InkCompositor.Wire.Encoding
import InkCompositor.Proofs.Wire.Layouts

/-!
# The codec accepts exactly its encodings

Each field of a message is laid out exactly, so messages are: a message is read
from the front of a byte string if and only if its encoding stands there.
-/

set_option autoImplicit false

namespace InkCompositor.Wire

open Layout

section Places

variable {α : Type}

theorem choice_place_exact (field : String) (code : α → UInt16) (all : List α)
    (h1 : ∀ a, all[(code a).toNat]? = some a)
    (h2 : all.map (fun a => (code a).toNat) = List.range all.length) :
    (choice field code (ofPlace? all)).Exact fun _ => True := by
  refine choice_exact field code _ h1 fun n a hn => UInt16.toNat_inj.1 ?_
  have hm : (all.map fun a => (code a).toNat)[n.toNat]? = some (code a).toNat := by
    rw [List.getElem?_map, show all[n.toNat]? = some a from hn, Option.map_some]
  rw [h2] at hm
  obtain ⟨h,he⟩ := List.getElem?_eq_some_iff.1 hm
  rw [← he, List.getElem_range]

theorem touchPhase_exact (field : String) :
    (choice field TouchPhase.code (ofPlace? TouchPhase.all)).Exact fun _ => True :=
  choice_place_exact _ _ _ (fun a => by cases a <;> rfl) rfl

theorem pointState_exact (field : String) :
    (choice field PointState.code (ofPlace? PointState.all)).Exact fun _ => True :=
  choice_place_exact _ _ _ (fun a => by cases a <;> rfl) rfl

theorem touchTool_exact (field : String) :
    (choice field TouchTool.code (ofPlace? TouchTool.all)).Exact fun _ => True :=
  choice_place_exact _ _ _ (fun a => by cases a <;> rfl) rfl

theorem keyPhase_exact (field : String) :
    (choice field KeyPhase.code (ofPlace? KeyPhase.all)).Exact fun _ => True :=
  choice_place_exact _ _ _ (fun a => by cases a <;> rfl) rfl

theorem penPhase_exact (field : String) :
    (choice field PenPhase.code (ofPlace? PenPhase.all)).Exact fun _ => True :=
  choice_place_exact _ _ _ (fun a => by cases a <;> rfl) rfl

theorem penTool_exact (field : String) :
    (choice field PenTool.code (ofPlace? PenTool.all)).Exact fun _ => True :=
  choice_place_exact _ _ _ (fun a => by cases a <;> rfl) rfl

end Places

theorem rect_exact : rectLayout.Exact fun _ => True :=
  (as_exact (pair_exact i32_exact (pair_exact i32_exact (pair_exact i32_exact i32_exact))) _ _
    (fun _ => rfl) fun _ => rfl).congr fun _ => by simp

theorem repaint_exact : repaintLayout.Exact fun _ => True :=
  (pair_exact rect_exact (pair_exact u64_exact u32_exact)).congr fun _ => by simp

theorem geometry_exact : geometryLayout.Exact fun _ => True :=
  (pair_exact rect_exact i32_exact).congr fun _ => by simp

theorem imageInfo_exact : imageInfoLayout.Exact fun _ => True :=
  (pair_exact u64_exact (pair_exact u64_exact i32_exact)).congr fun _ => by simp

theorem key_exact : keyLayout.Exact fun _ => True :=
  (as_exact (pair_exact (keyPhase_exact _) (pair_exact u32_exact (pair_exact u32_exact u32_exact)))
    _ _ (fun _ => rfl) fun _ => rfl).congr fun _ => by simp

theorem touchPoint_exact : touchPointLayout.Exact fun _ => True :=
  (as_exact (pair_exact i32_exact <| pair_exact (pointState_exact _) <| pair_exact u64_exact <|
    pair_exact u64_exact <| pair_exact u64_exact <| pair_exact u64_exact <|
    pair_exact (touchTool_exact _) <| pair_exact u64_exact u64_exact)
    _ _ (fun _ => rfl) fun _ => rfl).congr fun _ => by simp

theorem touch_exact : touchLayout.Exact fun e => e.points.length ≤ maxTouchPoints.toNat :=
  (as_exact (counted_exact _ maxTouchPoints (touchPhase_exact _) touchPoint_exact)
    _ _ (fun _ => rfl) fun _ => rfl).congr fun _ => by simp

theorem tablet_exact : tabletLayout.Exact fun _ => True :=
  (as_exact (pair_exact (penPhase_exact _) <| pair_exact (penTool_exact _) <|
    pair_exact i32_exact <| pair_exact i32_exact <| pair_exact u64_exact <|
    pair_exact i32_exact i32_exact)
    _ _ (fun _ => rfl) fun _ => rfl).congr fun _ => by simp

namespace Message

def points : Message → List TouchPoint
  | touch event => event.points
  | _ => []

def payloadLayout (code : UInt16) : Layout Message := ⟨payload,readPayload code⟩

theorem payload_exact {α : Type} {c : Layout α} {v : α → Prop} (h : c.Exact v) (code : UInt16)
    (make : α → Message)
    (hr : ∀ bytes, readPayload code bytes = (c.read bytes).map fun p => (make p.1,p.2))
    (hw : ∀ a, (make a).payload = c.write a) (hc : ∀ a, (make a).code = code)
    (hv : ∀ a, v a ↔ (make a).points.length ≤ maxTouchPoints.toNat)
    (hm : ∀ m : Message, m.code = code → ∃ a, make a = m) :
    (payloadLayout code).Exact
      fun m => m.code = code ∧ m.points.length ≤ maxTouchPoints.toNat := by
  apply h.rename make hr (fun a ha => ⟨⟨hc a,(hv a).1 ha⟩,hw a⟩)
  rintro m ⟨h1,h2⟩
  obtain ⟨a,rfl⟩ := hm m h1
  exact ⟨a,(hv a).2 h2,rfl⟩

theorem bare_exact (m : Message) (hr : ∀ bytes, readPayload m.code bytes = .ok (m,bytes))
    (hw : m.payload = []) (hv : m.points = [])
    (hm : ∀ m' : Message, m'.code = m.code → m' = m) :
    (payloadLayout m.code).Exact
      fun m' => m'.code = m.code ∧ m'.points.length ≤ maxTouchPoints.toNat :=
  payload_exact (unit_exact ()) m.code (fun _ => m) (fun bytes => hr bytes) (fun _ => hw)
    (fun _ => rfl) (fun _ => by simp [hv]) fun m' h => ⟨(),(hm m' h).symm⟩

theorem payload_exact_of_message (m : Message) : (payloadLayout m.code).Exact
    fun m' => m'.code = m.code ∧ m'.points.length ≤ maxTouchPoints.toNat := by
  cases m with
  | invalid | raise | lower | close | frameBuffer | ping =>
    exact bare_exact _ (fun _ => rfl) rfl rfl fun m h => by cases m <;> simp_all [code]
  | repaint area waveform marker =>
    exact payload_exact repaint_exact _ (fun p => repaint p.1 p.2.1 p.2.2) (fun _ => rfl)
      (fun _ => rfl) (fun _ => rfl) (fun _ => by simp [points]) fun m h => by
        cases m <;> simp_all [code]
  | waitForPaint marker =>
    exact payload_exact u32_exact _ waitForPaint (fun _ => rfl)
      (fun _ => rfl) (fun _ => rfl) (fun _ => by simp [points]) fun m h => by
        cases m <;> simp_all [code]
  | geometry rect z =>
    exact payload_exact geometry_exact _ (fun p => geometry p.1 p.2) (fun _ => rfl)
      (fun _ => rfl) (fun _ => rfl) (fun _ => by simp [points]) fun m h => by
        cases m <;> simp_all [code]
  | imageInfo size stride format =>
    exact payload_exact imageInfo_exact _ (fun p => imageInfo p.1 p.2.1 p.2.2) (fun _ => rfl)
      (fun _ => rfl) (fun _ => rfl) (fun _ => by simp [points]) fun m h => by
        cases m <;> simp_all [code]
  | key event =>
    exact payload_exact key_exact _ key (fun _ => rfl)
      (fun _ => rfl) (fun _ => rfl) (fun _ => by simp [points]) fun m h => by
        cases m <;> simp_all [code]
  | touch event =>
    exact payload_exact touch_exact _ touch (fun _ => rfl)
      (fun _ => rfl) (fun _ => rfl) (fun _ => Iff.rfl) fun m h => by
        cases m <;> simp_all [code]
  | tablet event =>
    exact payload_exact tablet_exact _ tablet (fun _ => rfl)
      (fun _ => rfl) (fun _ => rfl) (fun _ => by simp [points]) fun m h => by
        cases m <;> simp_all [code]

theorem readPayload_unknown (code : UInt16) (h : 13 ≤ code.toNat) (bytes : List UInt8) :
    readPayload code bytes = .error (.unknownType code) := by
  unfold readPayload
  split <;> first | rfl | omega

theorem code_lt (m : Message) : m.code.toNat < 13 := by
  cases m <;> simp [code]

theorem exists_of_code_lt (code : UInt16) (h : code.toNat < 13) :
    ∃ m : Message, m.code = code := by
  have hall : ∀ n < 13, ∃ m : Message, m.code.toNat = n := by
    intro n hn
    interval_cases n
    · exact ⟨invalid,rfl⟩
    · exact ⟨repaint default 0 0,rfl⟩
    · exact ⟨waitForPaint 0,rfl⟩
    · exact ⟨geometry default 0,rfl⟩
    · exact ⟨imageInfo 0 0 0,rfl⟩
    · exact ⟨raise,rfl⟩
    · exact ⟨lower,rfl⟩
    · exact ⟨close,rfl⟩
    · exact ⟨frameBuffer,rfl⟩
    · exact ⟨ping,rfl⟩
    · exact ⟨key default,rfl⟩
    · exact ⟨touch default,rfl⟩
    · exact ⟨tablet default,rfl⟩
  obtain ⟨m,hm⟩ := hall _ h
  exact ⟨m,UInt16.toNat_inj.1 hm⟩

theorem payloadLayout_exact (code : UInt16) : (payloadLayout code).Exact
    fun m => m.code = code ∧ m.points.length ≤ maxTouchPoints.toNat := by
  by_cases h : code.toNat < 13
  · obtain ⟨m,rfl⟩ := exists_of_code_lt code h
    exact payload_exact_of_message m
  · have hr : ∀ bytes, (payloadLayout code).read bytes = .error (.unknownType code) :=
      readPayload_unknown code (by omega)
    have hn : ∀ m : Message, m.code ≠ code := by
      rintro m rfl
      exact h (code_lt m)
    constructor
    · exact fun m _ hm => absurd hm.1 (hn m)
    · intro bytes m rest hb
      simp [hr] at hb
    · exact fun m _ _ hm => absurd hm.1 (hn m)
    · intro bytes e more he _
      rw [hr] at he ⊢
      exact he

/-- Whole messages, their numbers included. -/
theorem message_exact : (⟨encode,read⟩ : Layout Message).Exact
    fun m => m.points.length ≤ maxTouchPoints.toNat := by
  have h := andThen_exact u16_exact fun code _ => payloadLayout_exact code
  refine h.rename (fun p => p.2) (fun bytes => ?_) ?_ fun m hm => ⟨(m.code,m),⟨trivial,rfl,hm⟩,rfl⟩
  · simp only [read, andThen, payloadLayout]
    cases u16.read bytes with
    | error e => rfl
    | ok p =>
      simp only [Except.bind]
      cases readPayload p.1 p.2 <;> rfl
  · rintro ⟨code,m⟩ ⟨-,hc,hm⟩
    simp only at hc hm
    subst hc
    exact ⟨hm,rfl⟩

theorem decode_of_read {bytes rest : List UInt8} {m : Message} (h : read bytes = .ok (m,rest)) :
    decode bytes = .ok (m,bytes.length-rest.length) := by
  rw [decode, h]
  rfl

theorem decode_of_read_error {bytes : List UInt8} {e : WireError} (h : read bytes = .error e) :
    decode bytes = .error e := by
  rw [decode, h]
  rfl

theorem decode_overfull (event : TouchEvent)
    (h : maxTouchPoints < .ofNat event.points.length) (rest : List UInt8) :
    decode ((touch event).encode ++ rest) =
      .error (.tooLarge "touch point count" (.ofNat event.points.length) maxTouchPoints) := by
  refine decode_of_read_error ?_
  have hcount : touchLayout.write event = u32.write (.ofNat event.points.length) ++
      ((choice "touch type" TouchPhase.code (ofPlace? TouchPhase.all)).write event.phase ++
        event.points.flatMap touchPointLayout.write) := List.append_assoc ..
  have hcounted : touchLayout.read (touchLayout.write event ++ rest) =
      .error (.tooLarge "touch point count" (.ofNat event.points.length) maxTouchPoints) := by
    rw [hcount, List.append_assoc]
    simp only [touchLayout, Layout.as, counted, u32_exact.read_write _ _ trivial, Except.bind,
      if_pos h]
  rw [read, encode, List.append_assoc, u16_exact.read_write _ _ trivial]
  show (touchLayout.read (touchLayout.write event ++ rest)).map _ = _
  rw [hcounted]
  rfl

theorem decode_eq_ok_iff (bytes : List UInt8) (m : Message) (n : Nat) : decode bytes = .ok (m,n) ↔
    m.points.length ≤ maxTouchPoints.toNat ∧ n = m.encode.length ∧ bytes.take n = m.encode := by
  constructor
  · intro h
    cases hr : read bytes with
    | error e => simp [decode_of_read_error hr] at h
    | ok p =>
      obtain ⟨m',rest⟩ := p
      obtain ⟨hv,hb⟩ := message_exact.write_of_read _ _ _ hr
      simp only at hb
      rw [decode_of_read hr, Except.ok.injEq, Prod.mk.injEq] at h
      obtain ⟨rfl,rfl⟩ := h
      subst hb
      exact ⟨hv,by simp,by simp⟩
  · rintro ⟨hv,rfl,hb⟩
    have hs : bytes = m.encode ++ bytes.drop m.encode.length := by
      conv_lhs => rw [← List.take_append_drop m.encode.length bytes, hb]
    have hr := message_exact.read_write m (bytes.drop m.encode.length) hv
    simp only at hr
    rw [← hs] at hr
    have hl := congrArg List.length hb
    rw [List.length_take] at hl
    rw [decode_of_read hr, List.length_drop]
    congr 2
    omega

theorem decode_part (m : Message) (front : List UInt8)
    (hv : m.points.length ≤ maxTouchPoints.toNat) (hp : front <+: m.encode)
    (hn : front ≠ m.encode) : decode front = .error .truncated := by
  obtain ⟨back,hb⟩ := hp
  apply decode_of_read_error
  apply message_exact.read_part m front back hv hb.symm
  rintro rfl
  exact hn (by simpa using hb)

theorem decode_append (bytes more : List UInt8) (h : decode bytes ≠ .error .truncated) :
    decode (bytes ++ more) = decode bytes := by
  cases hr : read bytes with
  | error e =>
    rw [decode_of_read_error hr] at h ⊢
    exact decode_of_read_error
      (message_exact.read_append bytes e more hr fun he => h (he ▸ rfl))
  | ok p =>
    obtain ⟨m,rest⟩ := p
    obtain ⟨-,hb⟩ := message_exact.write_of_read _ _ _ hr
    have hm : read (bytes ++ more) = .ok (m,rest ++ more) := message_exact.read_ok_append hr more
    simp only at hb
    rw [decode_of_read hm, decode_of_read hr]
    subst hb
    simp

/-- A message and its length are read exactly where its encoding stands in front, a beginning of
an encoding is a truncated message, and a verdict stands whatever bytes follow. -/
theorem decode_exact :
    (∀ (bytes : List UInt8) (m : Message) (n : Nat), decode bytes = .ok (m,n) ↔
      m.points.length ≤ 64 ∧ n = m.encode.length ∧ bytes.take n = m.encode) ∧
    (∀ (m : Message) (front : List UInt8), m.points.length ≤ 64 → front <+: m.encode →
      front ≠ m.encode → decode front = .error .truncated) ∧
    (∀ bytes more : List UInt8, decode bytes ≠ .error .truncated →
      decode (bytes ++ more) = decode bytes) :=
  ⟨decode_eq_ok_iff,decode_part,decode_append⟩

/-- Half of a touch message, and a key message with an unknown phase. -/
theorem decode_exact_instances :
    decode [11, 0, 1, 0, 0, 0] = .error .truncated ∧
      decode ([10, 0, 9, 0] ++ [1, 2, 3]) = .error (.invalidEnum "key type" 9) := by
  have h := decode_exact
  constructor
  · exact h.2.1 (.touch ⟨.press,[default]⟩) _ (by decide) (by decide) (by decide)
  · exact (h.2.2 [10, 0, 9, 0] [1, 2, 3] (by decide)).trans (by decide)

end Message

end InkCompositor.Wire
