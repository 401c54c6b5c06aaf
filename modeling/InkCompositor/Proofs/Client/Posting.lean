import Mathlib
import InkCompositor.Client.Channel
import InkCompositor.Proofs.Wire.Reassembly

/-!
# What is posted on a pipe

Every message for an open pipe is put down with what became of it. The bytes
that the socket took are those of the messages that it took whole, and perhaps
a part of one more, which is the last.
-/

set_option autoImplicit false

namespace InkCompositor.Channel

open Wire

def messages (c : Channel) : List Message := c.posted.toList.map (·.1)

/-- No message was taken in part. -/
def Uncut (c : Channel) : Prop := ∀ x ∈ c.posted.toList, x.2 ≠ .cut

/-- The bytes that are taken of a message, by what becomes of it. -/
def Took (m : Message) (part : List UInt8) : Delivery → Prop
  | .sent => part = m.encode
  | .cut => part <+: m.encode ∧ part ≠ m.encode
  | .dropped | .failed => part = []
  | .closed => False

/-- The bytes that are taken of messages one after the other. Behind a part of one nothing is
taken. -/
inductive Carried : List (Message × Delivery) → List UInt8 → Prop where
  | nothing : Carried [] []
  | next {posted : List (Message × Delivery)} {bytes : List UInt8} {m : Message}
      {part : List UInt8} {delivery : Delivery} : Carried posted bytes →
      (∀ x ∈ posted, x.2 ≠ .cut) → Took m part delivery →
      Carried (posted ++ [(m,delivery)]) (bytes ++ part)

def written (posted : List (Message × Delivery)) : List UInt8 :=
  (posted.filter fun x => x.2 = .sent).flatMap fun x => x.1.encode

theorem Carried.bytes_eq {posted : List (Message × Delivery)} {bytes : List UInt8}
    (h : Carried posted bytes) (hu : ∀ x ∈ posted, x.2 ≠ .cut) : bytes = written posted := by
  induction h with
  | nothing => rfl
  | @next posted bytes m part delivery _ hposted ht ih =>
    rw [ih hposted, written, written, List.filter_append, List.flatMap_append]
    congr 1
    cases delivery with
    | sent => simpa [Took] using ht
    | cut => exact absurd rfl (hu (m,.cut) (by simp))
    | closed => exact ht.elim
    | dropped | failed => simpa [Took] using ht

structure Carries (c : Channel) : Prop where
  carried : Carried c.posted.toList c.outgoing.toList
  uncut : c.isOpen = true → c.Uncut

variable {c : Channel}

theorem carries_fresh (socket : Socket) : (fresh socket).Carries :=
  ⟨.nothing,fun _ _ hx => by cases hx⟩

theorem sendWith_of_open (h : c.isOpen = true) (m : Message) (a : Acceptance) :
    ∃ part delivery, Took m part delivery ∧ c.sendWith m a = ({ c with
      isOpen := decide (delivery ≠ .cut)
      outgoing := c.outgoing ++ part
      posted := c.posted.push (m,delivery) },delivery) := by
  obtain ⟨isOpen,outgoing,taken,incoming,reader,clientReader,reads,writes,posted,socket⟩ := c
  obtain rfl : isOpen = true := h
  cases a with
  | full => exact ⟨[],.dropped,rfl,by simp [sendWith, noted]⟩
  | broken => exact ⟨[],.failed,rfl,by simp [sendWith, noted]⟩
  | took count =>
    by_cases hc : m.encode.length ≤ count
    · exact ⟨m.encode,.sent,rfl,by simp [sendWith, noted, hc, List.take_of_length_le hc]⟩
    · refine ⟨m.encode.take count,.cut,⟨List.take_prefix ..,fun he => hc ?_⟩,
        by simp [sendWith, noted, shutDown, hc]⟩
      rw [← he]
      exact List.length_take_le ..

theorem messages_sendWith (c : Channel) (m : Message) (a : Acceptance) :
    (c.sendWith m a).1.messages = if c.isOpen then c.messages ++ [m] else c.messages := by
  cases ho : c.isOpen with
  | false =>
    rw [sendWith, ho]
    rfl
  | true =>
    obtain ⟨part,delivery,-,he⟩ := sendWith_of_open ho m a
    rw [he]
    simp [messages]

theorem isOpen_of_sendWith {m : Message} {a : Acceptance} (h : (c.sendWith m a).1.isOpen = true) :
    c.isOpen = true := by
  cases ho : c.isOpen with
  | false =>
    rw [sendWith, ho] at h
    exact absurd (ho.symm.trans h) (by simp)
  | true => rfl

theorem mem_posted_sendWith {m : Message} {a : Acceptance} {x : Message × Delivery}
    (hx : x ∈ (c.sendWith m a).1.posted.toList) : x ∈ c.posted.toList ∨ x.1 = m := by
  cases ho : c.isOpen with
  | false =>
    simp only [sendWith, ho] at hx
    exact .inl hx
  | true =>
    obtain ⟨part,delivery,-,he⟩ := sendWith_of_open ho m a
    rw [he, Array.toList_push, List.mem_append, List.mem_singleton] at hx
    rcases hx with hx | rfl
    · exact .inl hx
    · exact .inr rfl

theorem Uncut.of_sendWith {m : Message} {a : Acceptance} (h : (c.sendWith m a).1.Uncut) :
    c.Uncut ∧ (c.isOpen = true → (c.sendWith m a).1.isOpen = true ∧
      (c.sendWith m a).1.messages = c.messages ++ [m]) := by
  cases ho : c.isOpen with
  | false =>
    simp only [sendWith, ho] at h
    exact ⟨h,nofun⟩
  | true =>
    obtain ⟨part,delivery,-,he⟩ := sendWith_of_open ho m a
    simp only [he, Uncut, Array.toList_push] at h
    refine ⟨fun x hx => h x (List.mem_append_left _ hx),fun _ => ?_⟩
    rw [he]
    exact ⟨decide_eq_true (h (m,delivery) (by simp)),by simp [messages]⟩

theorem Carries.sendWith (h : c.Carries) (m : Message) (a : Acceptance) :
    (c.sendWith m a).1.Carries := by
  cases ho : c.isOpen with
  | false =>
    rw [Channel.sendWith, ho]
    exact h
  | true =>
    obtain ⟨part,delivery,ht,he⟩ := sendWith_of_open ho m a
    rw [he]
    refine ⟨?_,fun hopen x hx => ?_⟩
    · simpa using h.carried.next (h.uncut ho) ht
    · rw [Array.toList_push, List.mem_append, List.mem_singleton] at hx
      rcases hx with hx | rfl
      · exact h.uncut ho x hx
      · exact of_decide_eq_true hopen

theorem Carries.shutDown (h : c.Carries) : c.shutDown.Carries := ⟨h.carried,nofun⟩

theorem Carries.congr {c' : Channel} (h : c.Carries) (ho : c'.isOpen = c.isOpen)
    (hout : c'.outgoing = c.outgoing) (hp : c'.posted = c.posted) : c'.Carries := by
  refine ⟨hp ▸ hout ▸ h.carried,fun hopen => ?_⟩
  rw [Uncut, hp]
  exact h.uncut (ho ▸ hopen)

structure Room (c : Channel) (n : Nat) : Prop where
  isOpen : c.isOpen = true
  reads : c.clientReads = true
  socket : c.socket = .usual
  size : c.outgoing.size + n ≤ 212992

theorem Room.acceptance {n length : Nat} (h : c.Room n) (hpos : length ≠ 0) (hle : length ≤ n) :
    c.acceptance length = .took length := by
  have hfits : min length ((212992-(c.outgoing.size-c.taken)+32768-1)/32768*32768) = length := by
    have hsize := h.size
    omega
  simp only [Channel.acceptance, h.socket, h.reads, Socket.usual, Socket.buffered, hfits]
  exact if_neg hpos

theorem Room.send {m : Message} {n k : Nat} (h : c.Room n) (hn : m.encode.length + k ≤ n) :
    (c.send m).1.Room k ∧ (c.send m).1.posted = c.posted.push (m,.sent) := by
  have hpos : m.encode.length ≠ 0 := by
    rw [length_encode]
    exact Nat.succ_ne_zero _
  have hsend : (c.send m).1 =
      { c with outgoing := c.outgoing ++ m.encode, posted := c.posted.push (m,.sent) } := by
    rw [Channel.send, h.acceptance hpos (Nat.le_of_add_right_le hn), sendWith, h.isOpen]
    simp only [Bool.not_true, Bool.false_eq_true, if_false, le_refl, if_true, List.take_length,
      noted]
  have hsize : (c.outgoing ++ m.encode).size = c.outgoing.size+m.encode.length := by
    rw [← Array.length_toList, Array.toList_appendList, List.length_append, Array.length_toList]
  rw [hsend]
  refine ⟨⟨h.isOpen,h.reads,h.socket,?_⟩,rfl⟩
  have hroom := h.size
  dsimp only
  omega

end InkCompositor.Channel
