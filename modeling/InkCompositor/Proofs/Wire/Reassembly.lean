import Mathlib
import InkCompositor.Wire.Reassembler
import InkCompositor.Proofs.Wire.Codec

/-!
# A stream may be cut anywhere

What is handed out hangs on the bytes of a stream alone, not on how they were
cut into pieces nor on when it was asked for: the messages that stand in front
and, if a malformed one follows, the error.
-/

set_option autoImplicit false

namespace InkCompositor.Wire

open Message

/-- The messages `ms` stand in front, and behind them no message can be read. -/
structure Parts (bytes : List UInt8) (ms : List Message) (rest : List UInt8) (e : WireError) :
    Prop where
  valid : ∀ m ∈ ms, m.points.length ≤ maxTouchPoints.toNat
  bytes_eq : bytes = ms.flatMap encode ++ rest
  stops : read rest = .error e

theorem read_nil : read [] = .error .truncated := rfl

theorem length_encode (m : Message) : m.encode.length = m.payload.length+2 := by
  rw [encode, List.length_append, show (Layout.u16.write m.code).length = 2 from rfl, Nat.add_comm]

theorem length_encode_touch (event : TouchEvent) :
    (touch event).encode.length = 56*event.points.length+8 := by
  have hpoint : ∀ point, (touchPointLayout.write point).length = 56 := fun _ => rfl
  have hpoints : (event.points.flatMap touchPointLayout.write).length =
      56*event.points.length := by
    simp [List.length_flatMap, hpoint, Nat.mul_comm]
  have hpayload : (touch event).payload.length =
      6+(event.points.flatMap touchPointLayout.write).length := List.length_append
  rw [length_encode, hpayload, hpoints]
  omega

theorem eq_of_read {bytes rest : List UInt8} {m : Message} (h : read bytes = .ok (m,rest)) :
    m.points.length ≤ maxTouchPoints.toNat ∧ bytes = m.encode ++ rest :=
  message_exact.write_of_read _ _ _ h

theorem length_of_read {bytes rest : List UInt8} {m : Message} (h : read bytes = .ok (m,rest)) :
    rest.length < bytes.length := by
  rw [(eq_of_read h).2, List.length_append, length_encode]
  omega

theorem read_append_of_read {bytes rest : List UInt8} {m : Message}
    (h : read bytes = .ok (m,rest)) (more : List UInt8) :
    read (bytes ++ more) = .ok (m,rest ++ more) :=
  message_exact.read_ok_append h more

namespace Parts

variable {bytes rest : List UInt8} {ms : List Message} {e : WireError}

theorem read_cons {m : Message} (h : Parts bytes (m :: ms) rest e) :
    read bytes = .ok (m,ms.flatMap encode ++ rest) := by
  rw [h.bytes_eq, List.flatMap_cons, List.append_assoc]
  exact message_exact.read_write m _ (h.valid m (by simp))

theorem tail {m : Message} (h : Parts bytes (m :: ms) rest e) :
    Parts (ms.flatMap encode ++ rest) ms rest e :=
  ⟨fun m' hm' => h.valid m' (by simp [hm']),rfl,h.stops⟩

theorem nil_of_error (h : Parts bytes ms rest e) {e' : WireError} (hr : read bytes = .error e') :
    ms = [] ∧ e = e' := by
  cases ms with
  | nil =>
    have hb : bytes = rest := h.bytes_eq
    rw [hb, h.stops, Except.error.injEq] at hr
    exact ⟨rfl,hr⟩
  | cons m ms =>
    rw [h.read_cons] at hr
    cases hr

theorem cons_of_read (h : Parts bytes ms rest e) {m : Message} {bytes' : List UInt8}
    (hr : read bytes = .ok (m,bytes')) : ∃ ms', ms = m :: ms' ∧ Parts bytes' ms' rest e := by
  cases ms with
  | nil =>
    have hb : bytes = rest := h.bytes_eq
    rw [hb, h.stops] at hr
    cases hr
  | cons m' ms =>
    rw [h.read_cons, Except.ok.injEq, Prod.mk.injEq] at hr
    obtain ⟨rfl,rfl⟩ := hr
    exact ⟨ms,rfl,h.tail⟩

theorem of_append (h : Parts bytes ms rest e) {more rest' : List UInt8} {ms' : List Message}
    {e' : WireError} (h' : Parts (bytes ++ more) ms' rest' e') :
    ∃ ms₂, ms' = ms ++ ms₂ ∧ Parts (rest ++ more) ms₂ rest' e' := by
  induction ms generalizing bytes ms' with
  | nil =>
    have hb : bytes = rest := h.bytes_eq
    exact ⟨ms',rfl,hb ▸ h'⟩
  | cons m ms ih =>
    obtain ⟨ms₁,rfl,h₁⟩ := h'.cons_of_read (read_append_of_read h.read_cons more)
    obtain ⟨ms₂,rfl,h₂⟩ := ih h.tail h₁
    exact ⟨ms₂,rfl,h₂⟩

theorem of_messages (hv : ∀ m ∈ ms, m.points.length ≤ maxTouchPoints.toNat) :
    Parts (ms.flatMap encode) ms [] .truncated :=
  ⟨hv,by simp,read_nil⟩

theorem length_le (h : Parts bytes ms rest e) : ms.length ≤ bytes.length := by
  rw [h.bytes_eq, List.length_append]
  clear h
  induction ms with
  | nil => exact Nat.zero_le _
  | cons m ms ih =>
    rw [List.flatMap_cons, List.length_append, length_encode, List.length_cons]
    omega

end Parts

theorem exists_parts (bytes : List UInt8) : ∃ ms rest e, Parts bytes ms rest e := by
  induction h : bytes.length using Nat.strongRecOn generalizing bytes with
  | _ n ih =>
    cases hr : read bytes with
    | error e => exact ⟨[],bytes,e,by simp,rfl,hr⟩
    | ok p =>
      obtain ⟨m,bytes'⟩ := p
      obtain ⟨hv,hb⟩ := eq_of_read hr
      obtain ⟨ms,rest,e,hp⟩ := ih _ (h ▸ length_of_read hr) bytes' rfl
      refine ⟨m :: ms,rest,e,?_,?_,hp.stops⟩
      · intro m' hm'
        rcases List.mem_cons.1 hm' with rfl | hm'
        · exact hv
        · exact hp.valid m' hm'
      · rw [hb, hp.bytes_eq, List.flatMap_cons, List.append_assoc]

abbrev Reply := Except WireError Message

def upToError : List Reply → List Reply
  | [] => []
  | .ok m :: rest => .ok m :: upToError rest
  | .error e :: _ => [.error e]

def ending (e : WireError) : List Reply := if e = .truncated then [] else [.error e]

theorem upToError_messages (ms : List Message) (e : WireError) :
    upToError (ms.map .ok ++ ending e) = ms.map .ok ++ ending e := by
  induction ms with
  | nil => by_cases h : e = .truncated <;> simp [ending, h, upToError]
  | cons m ms ih => rw [List.map_cons, List.cons_append, upToError, ih]

namespace Reassembler

/-- What can be done with a reader: give it a piece of the stream, or ask it for a message. -/
inductive Use where
  | push (piece : List UInt8)
  | ask
  deriving DecidableEq, Repr

def use (r : Reassembler) : Use → List Reply × Reassembler
  | .push piece => ([],r.push piece)
  | .ask =>
    match r.next with
    | (.ok m?,r) => (m?.toList.map .ok,r)
    | (.error e,r) => ([.error e],r)

def finish (r : Reassembler) : List Reply × Reassembler :=
  let (ms,e?,r) := r.drain
  (ms.map .ok ++ e?.toList.map .error,r)

/-- All that is handed out in the course of the uses and at the end, and the reader left. -/
def follow : List Use → Reassembler → List Reply × Reassembler
  | [], r => r.finish
  | u :: us, r => ((r.use u).1 ++ (follow us (r.use u).2).1,(follow us (r.use u).2).2)

def stream (us : List Use) : List UInt8 := us.flatMap fun
  | .push piece => piece
  | .ask => []

def delivered (us : List Use) : List Reply := upToError (follow us fresh).1

theorem next_of_read {r : Reassembler} {m : Message} {rest : List UInt8}
    (h : read r.waiting = .ok (m,rest)) : r.next = (.ok (some m),⟨rest⟩) := by
  rw [next, h]

theorem next_of_truncated {r : Reassembler} (h : read r.waiting = .error .truncated) :
    r.next = (.ok none,r) := by
  rw [next, h]

theorem next_of_error {r : Reassembler} {e : WireError} (h : read r.waiting = .error e)
    (he : e ≠ .truncated) : r.next = (.error e,fresh) := by
  rw [next, h]
  cases e <;> first | exact absurd rfl he | rfl

def leftover (rest : List UInt8) (e : WireError) : Reassembler :=
  if e = .truncated then ⟨rest⟩ else fresh

section Parts

variable {r : Reassembler} {bytes rest : List UInt8} {ms : List Message} {e : WireError}

theorem takeUpTo_parts (fuel : Nat) (h : Parts r.waiting ms rest e) (hf : ms.length < fuel) :
    takeUpTo fuel r = (ms,if e = .truncated then none else some e,leftover rest e) := by
  induction ms generalizing r fuel with
  | nil =>
    obtain ⟨fuel,rfl⟩ := Nat.exists_eq_succ_of_ne_zero (Nat.ne_zero_of_lt hf)
    have hb : r.waiting = rest := h.bytes_eq
    have hs : read r.waiting = .error e := hb ▸ h.stops
    by_cases he : e = .truncated
    · subst he
      rw [takeUpTo, next_of_truncated hs]
      simp [leftover, ← hb]
    · rw [takeUpTo, next_of_error hs he]
      simp [leftover, he]
  | cons m ms ih =>
    obtain ⟨fuel,rfl⟩ := Nat.exists_eq_succ_of_ne_zero (Nat.ne_zero_of_lt hf)
    rw [List.length_cons] at hf
    rw [takeUpTo, next_of_read h.read_cons]
    simp only [ih (r := ⟨ms.flatMap encode ++ rest⟩) fuel h.tail (by omega)]

theorem drain_parts (h : Parts r.waiting ms rest e) :
    r.drain = (ms,if e = .truncated then none else some e,leftover rest e) :=
  takeUpTo_parts _ h (Nat.lt_succ_of_le h.length_le)

theorem finish_parts (h : Parts r.waiting ms rest e) :
    r.finish = (ms.map .ok ++ ending e,leftover rest e) := by
  rw [finish, drain_parts h]
  by_cases he : e = .truncated <;> simp [ending, he]

/-- Only an error can come before its time, and it ends what is looked at. As long as there is
none, the reader left is that of the whole stream as well. -/
theorem follow_parts (us : List Use) (h : Parts (r.waiting ++ stream us) ms rest e) :
    upToError (follow us r).1 = ms.map .ok ++ ending e ∧
      (e = .truncated → follow us r = (ms.map .ok,⟨rest⟩)) := by
  induction us generalizing r ms with
  | nil =>
    have h' : Parts r.waiting ms rest e := by simpa [stream] using h
    rw [follow, finish_parts h', upToError_messages]
    exact ⟨rfl,fun he => by simp [ending, leftover, he]⟩
  | cons u us ih =>
    cases u with
    | push piece =>
      have h' : Parts ((r.push piece).waiting ++ stream us) ms rest e := by
        simpa [stream, push] using h
      exact ih h'
    | ask =>
      have hs : stream (.ask :: us) = stream us := rfl
      rw [hs] at h
      simp only [follow, use]
      cases hr : read r.waiting with
      | ok p =>
        obtain ⟨m,bytes⟩ := p
        obtain ⟨ms',rfl,hp⟩ := h.cons_of_read (read_append_of_read hr _)
        obtain ⟨h1,h2⟩ := ih (r := ⟨bytes⟩) hp
        rw [next_of_read hr]
        constructor
        · exact congrArg (Except.ok m :: ·) h1
        · intro he
          simp [h2 he]
      | error e' =>
        by_cases he : e' = .truncated
        · subst he
          rw [next_of_truncated hr]
          exact ih h
        -- the bytes still to come do not make it another error
        · obtain ⟨rfl,rfl⟩ := h.nil_of_error (message_exact.read_append _ _ _ hr he)
          rw [next_of_error hr he]
          exact ⟨by simp [upToError, ending, he],fun h => absurd h he⟩

end Parts

/-- Whatever the pieces and whenever it was asked, the same is handed out for the same bytes: the
messages in front and the error behind them. For a stream of messages it is just these, without an
error, and nothing is left behind. -/
theorem delivered_exact (us : List Use) :
    (∀ vs, stream vs = stream us → delivered vs = delivered us) ∧
    (∃ ms rest e, Parts (stream us) ms rest e ∧ delivered us = ms.map .ok ++ ending e) ∧
    ∀ ms : List Message, (∀ m ∈ ms, m.points.length ≤ 64) → stream us = ms.flatMap encode →
      delivered us = ms.map .ok ∧ (follow us fresh).1 = ms.map .ok ∧
        (follow us fresh).2.buffered = 0 := by
  obtain ⟨ms,rest,e,hp⟩ := exists_parts (stream us)
  have hus : delivered us = ms.map .ok ++ ending e := (follow_parts us (r := fresh) hp).1
  refine ⟨?_,⟨ms,rest,e,hp,hus⟩,?_⟩
  · intro vs hvs
    rw [hus]
    exact (follow_parts vs (r := fresh) (hvs ▸ hp)).1
  · intro ms hv hs
    have hp : Parts (fresh.waiting ++ stream us) ms [] .truncated := hs ▸ .of_messages hv
    have hf : follow us fresh = (ms.map .ok,⟨[]⟩) := (follow_parts us hp).2 rfl
    refine ⟨?_,by rw [hf],by rw [hf]; rfl⟩
    rw [delivered, (follow_parts us hp).1]
    exact List.append_nil _

/-- Two messages in three pieces, cut within the number of the first and within the marker of the
second, and two messages followed by a malformed one. -/
theorem delivered_exact_cut :
    delivered [.push [5], .ask, .push [0, 2, 0, 3, 0], .ask, .push [0, 0]] =
        [.ok .raise, .ok (.waitForPaint 3)] ∧
      delivered [.push [5, 0, 6], .push [0, 255], .ask, .push [0, 9, 0], .ask, .ask] =
        delivered [.push [5, 0, 6, 0, 255, 0, 9, 0]] :=
  ⟨((delivered_exact _).2.2 [.raise, .waitForPaint 3] (by decide) (by decide)).1,
    (delivered_exact [.push [5, 0, 6, 0, 255, 0, 9, 0]]).1 _ (by decide)⟩

end Reassembler

end InkCompositor.Wire
