import Mathlib
import InkCompositor.Proofs.Client.Framing
import InkCompositor.Proofs.Wire.Extents

/-!
# What waits to be read

To ask for messages until there are no more comes to an end, for each message takes
at least two bytes with it. What then waits is shorter than the longest message. So
it is after every receiving on a pipe, whatever the client has written.
-/

set_option autoImplicit false

namespace InkCompositor.Wire

open Message

namespace Reassembler

variable {r s t t' : Reassembler} {ms ms' : List Message} {e? e?' : Option WireError}

/-- What a single asking takes away. -/
structure Asked (r : Reassembler) : Prop where
  message : ∀ m s, r.next = (.ok (some m),s) →
    r.waiting = m.encode ++ s.waiting ∧ s.buffered+2 ≤ r.buffered
  nothing : ∀ s, r.next = (.ok none,s) → s = r ∧ s.buffered < 3592
  refused : ∀ e s, r.next = (.error e,s) → s.buffered = 0

theorem asked_of_read {m : Message} {rest : List UInt8} (h : read r.waiting = .ok (m,rest)) :
    r.Asked where
  message m' s hs := by
    rw [next_of_read h] at hs
    cases hs
    have hb : r.waiting = m.encode ++ rest := (eq_of_read h).2
    have hlen : r.waiting.length = m.payload.length+2+rest.length := by
      rw [hb, List.length_append, length_encode]
    exact ⟨hb,show rest.length+2 ≤ r.waiting.length by omega⟩
  nothing s hs := by simp [next_of_read h] at hs
  refused e s hs := by simp [next_of_read h] at hs

theorem asked_of_truncated (h : read r.waiting = .error .truncated) : r.Asked where
  message m s hs := by simp [next_of_truncated h] at hs
  nothing s hs := by
    rw [next_of_truncated h] at hs
    cases hs
    exact ⟨rfl,read_within.lt_of_truncated r.waiting h⟩
  refused e s hs := by simp [next_of_truncated h] at hs

theorem asked_of_error {e : WireError} (h : read r.waiting = .error e) (he : e ≠ .truncated) :
    r.Asked where
  message m s hs := by simp [next_of_error h he] at hs
  nothing s hs := by simp [next_of_error h he] at hs
  refused e' s hs := by
    rw [next_of_error h he] at hs
    cases hs
    rfl

theorem asked (r : Reassembler) : r.Asked := by
  cases h : read r.waiting with
  | ok p => exact asked_of_read h
  | error e =>
    by_cases he : e = .truncated
    · exact asked_of_truncated (he ▸ h)
    · exact asked_of_error h he

/-- Every length below that of the longest message may wait. -/
theorem waiting_attained {n : Nat} (hn : n < 3592) : ∃ bytes : List UInt8, bytes.length = n ∧
    (fresh.push bytes).next = (.ok none,fresh.push bytes) := by
  let m : Message := touch ⟨default,List.replicate 64 default⟩
  have hlen : m.encode.length = 3592 := length_encode_touch _
  have hback : m.encode.drop n ≠ [] := by
    apply List.ne_nil_of_length_pos
    rw [List.length_drop]
    omega
  have hpart : read (m.encode.take n) = .error .truncated :=
    message_exact.read_part m _ _ (by decide) (List.take_append_drop n _).symm hback
  exact ⟨m.encode.take n,by rw [List.length_take]; omega,next_of_truncated hpart⟩

/-- The loop that asks until more bytes are needed or a message is malformed, with what it hands
out, how it ends and what it leaves. -/
inductive Drains : Reassembler → List Message → Option WireError → Reassembler → Prop where
  | message {r s t : Reassembler} {m : Message} {ms : List Message} {e? : Option WireError} :
    r.next = (.ok (some m),s) → Drains s ms e? t → Drains r (m :: ms) e? t
  | nothing {r s : Reassembler} : r.next = (.ok none,s) → Drains r [] none s
  | refused {r s : Reassembler} {e : WireError} : r.next = (.error e,s) → Drains r [] (some e) s

theorem takeUpTo_drains (fuel : Nat) (hf : r.buffered < fuel) :
    Drains r (takeUpTo fuel r).1 (takeUpTo fuel r).2.1 (takeUpTo fuel r).2.2 := by
  induction fuel generalizing r with
  | zero => exact absurd hf (Nat.not_lt_zero _)
  | succ fuel ih =>
    rw [takeUpTo]
    rcases hn : r.next with ⟨e | (_ | m),s⟩
    · exact .refused hn
    · exact .nothing hn
    · have hle : s.buffered+2 ≤ r.buffered := (r.asked.message m s hn).2
      exact .message hn (ih (by omega))

theorem drains_drain (r : Reassembler) : Drains r r.drain.1 r.drain.2.1 r.drain.2.2 :=
  takeUpTo_drains _ (Nat.lt_succ_self _)

namespace Drains

theorem unique (h : Drains r ms e? t) (h' : Drains r ms' e?' t') :
    (ms,e?,t) = (ms',e?',t') := by
  induction h generalizing ms' with
  | message hn _ ih =>
    cases h' with
    | message hn' h' =>
      rw [hn] at hn'
      cases hn'
      cases ih h'
      rfl
    | nothing hn' | refused hn' =>
      rw [hn] at hn'
      cases hn'
  | nothing hn =>
    cases h' with
    | nothing hn' =>
      rw [hn] at hn'
      cases hn'
      rfl
    | message hn' _ | refused hn' =>
      rw [hn] at hn'
      cases hn'
  | refused hn =>
    cases h' with
    | refused hn' =>
      rw [hn] at hn'
      cases hn'
      rfl
    | message hn' _ | nothing hn' =>
      rw [hn] at hn'
      cases hn'

theorem buffered_le (h : Drains r ms e? t) : 2*ms.length+t.buffered ≤ r.buffered := by
  induction h with
  | @message r s t m ms e? hn _ ih =>
    have hle : s.buffered+2 ≤ r.buffered := (r.asked.message m s hn).2
    rw [List.length_cons]
    omega
  | @nothing r s hn =>
    have hs : s = r := (r.asked.nothing s hn).1
    rw [hs, List.length_nil]
    omega
  | @refused r s e hn =>
    have hs : s.buffered = 0 := r.asked.refused e s hn
    rw [hs, List.length_nil]
    omega

theorem buffered_lt (h : Drains r ms e? t) : t.buffered < 3592 := by
  induction h with
  | message _ _ ih => exact ih
  | @nothing r s hn => exact (r.asked.nothing s hn).2
  | @refused r s e hn =>
    have hs : s.buffered = 0 := r.asked.refused e s hn
    omega

end Drains

end Reassembler

end InkCompositor.Wire

namespace InkCompositor.Channel

open Wire Reassembler

variable {c : Channel}

/-- The bytes that a failed receiving takes from the socket and leaves unread. -/
def Call.stranded : Call → Nat
  | receive arrived true => arrived.length
  | _ => 0

theorem sum_stranded {calls : List Call} (h : ∀ arrived, .receive arrived true ∉ calls) :
    (calls.map Call.stranded).sum = 0 := by
  induction calls with
  | nil => rfl
  | cons k calls ih =>
    have hk : k.stranded = 0 := by
      cases k with
      | send m a | close a => rfl
      | receive arrived fails =>
        cases fails with
        | false => rfl
        | true => exact absurd List.mem_cons_self (h arrived)
    rw [List.map_cons, List.sum_cons, hk, Nat.zero_add]
    exact ih fun arrived hm => h arrived (List.mem_cons_of_mem k hm)

theorem receive_buffered_lt (h : c.isOpen = true) : c.receive.1.reader.buffered < 3592 := by
  have hr : c.receive.1.reader = (c.reader.push c.incoming).drain.2.2 := by simp [receive, h]
  rw [hr]
  exact (drains_drain _).buffered_lt

theorem reader_sendWith (c : Channel) (m : Message) (a : Acceptance) :
    (c.sendWith m a).1.reader = c.reader := by
  cases ho : c.isOpen with
  | false => simp [sendWith, ho]
  | true =>
    cases a with
    | full | broken => simp [sendWith, ho, noted]
    | took count =>
      simp only [sendWith, ho, Bool.not_true, Bool.false_eq_true, if_false]
      split <;> rfl

theorem perform_buffered_lt {n : Nat} (h : c.reader.buffered < 3592+n) (k : Call) :
    (k.perform c).1.reader.buffered < 3592+(n+k.stranded) := by
  cases k with
  | send m a =>
    have hr : ((Call.send m a).perform c).1.reader = c.reader := reader_sendWith c m a
    rw [hr]
    exact h
  | close a =>
    have hr : ((Call.close a).perform c).1.reader = c.reader := reader_sendWith c .close a
    rw [hr]
    exact h
  | receive arrived fails =>
    cases ho : c.isOpen with
    | false =>
      rw [perform_of_closed ho]
      exact Nat.lt_of_lt_of_le h (by omega)
    | true =>
      cases fails with
      | false =>
        have hlt := receive_buffered_lt (c := { c with incoming := arrived }) ho
        have hr : ((Call.receive arrived false).perform c).1 =
            (receive { c with incoming := arrived }).1 := by
          simp [Call.perform, receiveWith, ho]
        rw [hr]
        omega
      | true =>
        have hr : ((Call.receive arrived true).perform c).1.reader.buffered =
            c.reader.buffered+arrived.length := by
          simp [Call.perform, receiveWith, ho, buffered, push]
        rw [hr, Call.stranded]
        omega

theorem performAll_buffered_lt {n : Nat} (h : c.reader.buffered < 3592+n) (calls : List Call) :
    (c.performAll calls).1.reader.buffered < 3592+(n+(calls.map Call.stranded).sum) := by
  induction calls generalizing c n with
  | nil => exact h
  | cons k calls ih =>
    rw [List.map_cons, List.sum_cons, ← Nat.add_assoc n]
    exact ih (perform_buffered_lt h k)

/-- A reader that hands out a message loses the bytes of this message, two at the least, and one
that refuses loses all. Only while fewer bytes wait than the longest message has it can
have nothing to hand out. So to ask until there is nothing has an end, and after it
fewer bytes wait, also after any calls on a pipe. Only what the socket gave before it
failed may come on top, up to the next receiving. -/
theorem backlog_bounded :
    (∀ (r : Reassembler) (bytes : List UInt8), (r.push bytes).Asked) ∧
    (∀ m : Message, m.points.length ≤ 64 → m.encode.length ≤ 3592) ∧
    (∀ event : TouchEvent, event.points.length = 64 → (Message.touch event).encode.length = 3592) ∧
    (∀ r : Reassembler, Drains r r.drain.1 r.drain.2.1 r.drain.2.2 ∧
      ∀ ms e? t, Drains r ms e? t → (ms,e?,t) = r.drain ∧
        2*ms.length+t.buffered ≤ r.buffered ∧ t.buffered < 3592) ∧
    (∀ c : Channel, c.isOpen = true → c.receive.1.reader.buffered < 3592) ∧
    ∀ (socket : Socket) (calls : List Call),
      ((fresh socket).performAll calls).1.reader.buffered < 3592+(calls.map Call.stranded).sum ∧
      ((∀ arrived, .receive arrived true ∉ calls) →
        ((fresh socket).performAll calls).1.reader.buffered < 3592) := by
  have hcalls (socket : Socket) (calls : List Call) :
      ((fresh socket).performAll calls).1.reader.buffered < 3592+(calls.map Call.stranded).sum := by
    have h := performAll_buffered_lt (c := fresh socket) (n := 0) (show 0 < 3592 by decide) calls
    rwa [Nat.zero_add] at h
  refine ⟨fun r bytes => (r.push bytes).asked,fun m hm => Message.length_encode_le hm,?_,?_,
    fun c hc => receive_buffered_lt hc,fun socket calls => ⟨hcalls socket calls,fun hfails => ?_⟩⟩
  · intro event he
    rw [length_encode_touch, he]
  · intro r
    refine ⟨drains_drain r,fun ms e? t h => ⟨?_,h.buffered_le,h.buffered_lt⟩⟩
    exact h.unique (drains_drain r)
  · have h := hcalls socket calls
    rwa [sum_stranded hfails] at h

/-- A message and the beginning of another one, the first byte in front of a failure. -/
theorem backlog_bounded_failure :
    (Message.touch ⟨default,List.replicate 64 default⟩).encode.length = 3592 ∧
    ((⟨[5]⟩ : Reassembler).push [0, 2, 0]).waiting = Message.raise.encode ++ [2, 0] ∧
    ((fresh .usual).performAll
      [.receive [5] true, .receive [0, 2, 0] false]).1.reader.buffered < 3593 ∧
    ((fresh .usual).performAll [.receive [5, 0, 2, 0] false]).1.reader.buffered < 3592 := by
  obtain ⟨hasked,-,hlength,-,-,hcalls⟩ := backlog_bounded
  exact ⟨hlength _ (by decide),((hasked ⟨[5]⟩ [0, 2, 0]).message .raise ⟨[2, 0]⟩ (by decide)).1,
    (hcalls .usual [.receive [5] true, .receive [0, 2, 0] false]).1,
    (hcalls .usual [.receive [5, 0, 2, 0] false]).2 (by simp)⟩

end InkCompositor.Channel
