import Mathlib
import InkCompositor.Client.Channel
import InkCompositor.Proofs.Wire.Reassembly

/-!
# What a pipe hands over

As long as nothing malformed comes in, every message of the client is handed
over once, however the bytes come in batches. A malformed message takes the
messages in front of it along, as far as they came in the same batch.
-/

set_option autoImplicit false

namespace InkCompositor.Channel

open Wire

/-- The client writes each batch, and after it the compositor reads what has come. -/
def receipts : Channel → List (List UInt8) → List (Except WireError (List Message))
  | _, [] => []
  | c, batch :: batches =>
    let c := (c.clientWrite batch).1
    c.receive.2 :: receipts c.receive.1 batches

def received (l : List (Except WireError (List Message))) : List Message := l.flatMap fun
  | .ok ms => ms
  | .error _ => []

structure Attentive (c : Channel) : Prop where
  isOpen : c.isOpen = true
  clientWrites : c.clientWrites = true
  incoming : c.incoming = []
  waiting : Message.read c.reader.waiting = .error .truncated

theorem attentive_fresh (socket : Socket) : (fresh socket).Attentive := ⟨rfl,rfl,rfl,rfl⟩

variable {c : Channel} {rest : List UInt8} {ms : List Message}

theorem receive_batch (hc : c.Attentive) (batch : List UInt8)
    {e : WireError} (hp : Parts (c.reader.waiting ++ batch) ms rest e) :
    (c.clientWrite batch).1.receive = ({ c with reader := Reassembler.leftover rest e },
      if e = .truncated then .ok ms else .error e) := by
  have hw : (c.clientWrite batch).1 = { c with incoming := batch } := by
    simp [clientWrite, hc.isOpen, hc.clientWrites, hc.incoming]
  have hd : (c.reader.push batch).drain =
      (ms,if e = .truncated then none else some e,Reassembler.leftover rest e) :=
    Reassembler.drain_parts hp
  simp only [hw, receive, hc.isOpen, hd, Bool.not_true, Bool.false_eq_true, if_false,
    hc.incoming]
  by_cases he : e = .truncated <;> simp [he]

theorem Attentive.holding (hc : c.Attentive) (h : Message.read rest = .error .truncated) :
    Attentive { c with reader := ⟨rest⟩ } :=
  ⟨hc.isOpen,hc.clientWrites,hc.incoming,h⟩

theorem receipts_append (batches : List (List UInt8)) (hc : c.Attentive)
    (h : Parts (c.reader.waiting ++ batches.flatten) ms rest .truncated) :
    ∃ lists : List (List Message), lists.length = batches.length ∧ lists.flatten = ms ∧
      ∀ more, c.receipts (batches ++ more) =
        lists.map .ok ++ receipts { c with reader := ⟨rest⟩ } more := by
  induction batches generalizing c ms with
  | nil =>
    rw [List.flatten_nil, List.append_nil] at h
    obtain ⟨rfl,-⟩ := h.nil_of_error hc.waiting
    have hb : c.reader.waiting = rest := h.bytes_eq
    exact ⟨[],rfl,rfl,fun more => by rw [← hb]; rfl⟩
  | cons batch batches ih =>
    rw [List.flatten_cons, ← List.append_assoc] at h
    obtain ⟨ms₁,rest₁,e₁,h₁⟩ := exists_parts (c.reader.waiting ++ batch)
    obtain ⟨ms₂,rfl,h₂⟩ := h₁.of_append h
    -- an error in this batch would stay one in the whole stream
    have he : e₁ = .truncated := by
      by_contra he
      have hs := Message.message_exact.read_append rest₁ e₁ batches.flatten h₁.stops he
      exact he (h₂.nil_of_error hs).2.symm
    subst he
    obtain ⟨lists,hl,hf,hr⟩ := ih (hc.holding h₁.stops) h₂
    refine ⟨ms₁ :: lists,by simp [hl],by simp [hf],fun more => ?_⟩
    rw [List.cons_append, receipts, receive_batch hc batch h₁]
    exact congrArg (Except.ok ms₁ :: ·) (hr more)

/-- In whatever batches a stream comes in, its messages are handed over once each and in order. Of
the batch that completes a malformed message nothing is handed over, also not the messages in
front of it. -/
theorem receipts_exact (socket : Socket) (batches : List (List UInt8))
    (h : Parts batches.flatten ms rest .truncated) :
    ∃ lists : List (List Message), lists.length = batches.length ∧ lists.flatten = ms ∧
      (fresh socket).receipts batches = lists.map .ok ∧
      ∀ batch ms' rest' e, Parts (batches.flatten ++ batch) ms' rest' e → e ≠ .truncated →
        (fresh socket).receipts (batches ++ [batch]) = lists.map .ok ++ [.error e] := by
  obtain ⟨lists,hl,hf,hr⟩ := receipts_append (c := fresh socket) batches (attentive_fresh socket) h
  refine ⟨lists,hl,hf,by simpa [receipts] using hr [],?_⟩
  intro batch ms' rest' e h' he
  obtain ⟨ms₂,-,h₂⟩ := h.of_append h'
  have hb := receive_batch ((attentive_fresh socket).holding h.stops) batch h₂
  rw [if_neg he] at hb
  rw [hr, receipts, receipts, hb]

theorem receipts_exact_lost : Parts ([[5, 0]] : List (List UInt8)).flatten [.raise] [] .truncated ∧
    (fresh .usual).receipts [[5, 0], [6, 0, 255, 0]] =
      [.ok [.raise], .error (.unknownType 255)] := by
  have h : Parts ([[5, 0]] : List (List UInt8)).flatten [.raise] [] .truncated :=
    ⟨by decide,rfl,rfl⟩
  obtain ⟨lists,hl,hf,-,hr⟩ := receipts_exact .usual [[5, 0]] h
  have he := hr [6, 0, 255, 0] [.raise, .lower] [255, 0] (.unknownType 255)
    ⟨by decide,by decide,by decide⟩ (by decide)
  obtain ⟨l,rfl⟩ := List.length_eq_one_iff.1 hl
  rw [List.flatten_singleton] at hf
  exact ⟨h,hf ▸ he⟩

/-- It is not so that the messages in front of a malformed one are always handed over: one message
together with a malformed one is lost, though it is handed over if it comes alone. -/
theorem messages_before_malformed_lost :
    ¬ (∀ (batches : List (List UInt8)) (ms : List Message) (rest : List UInt8) (e : WireError),
      Parts batches.flatten ms rest e → ms <+: received ((fresh .usual).receipts batches)) ∧
    received ((fresh .usual).receipts [[5, 0], [255, 0]]) = [.raise] := by
  constructor
  · intro h
    have hp := h [[5, 0, 255, 0]] [.raise] [255, 0] (.unknownType 255)
      ⟨by decide,by decide,by decide⟩
    exact absurd hp (by decide)
  · decide

end InkCompositor.Channel
