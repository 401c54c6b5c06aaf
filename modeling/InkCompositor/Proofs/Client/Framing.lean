import Mathlib
import InkCompositor.Proofs.Client.Posting

/-!
# A pipe under any calls

Whatever is called on the compositor's end, and however the socket takes what is
written, the client is given whole messages one after the other: those that were
reported as sent. Only the last thing it is given may be a part of a message, and
that ends the pipe.
-/

set_option autoImplicit false

namespace InkCompositor.Channel

open Wire

def receiveWith (c : Channel) (arrived : List UInt8) (fails : Bool) :
    Channel × Option (Except WireError (List Message)) :=
  if !c.isOpen then (c, some (.ok []))
  else if fails then ({ c with reader := c.reader.push arrived }, none)
  else
    let r := receive { c with incoming := arrived }
    (r.1, some r.2)

/-- To read all that has come, without a failure, is to receive. -/
theorem receiveWith_incoming (c : Channel) :
    c.receiveWith c.incoming false = (c.receive.1,some c.receive.2) := by
  cases ho : c.isOpen <;> simp [receiveWith, receive, ho]

/-- A call on the compositor's end, with what the socket does in it. -/
inductive Call where
  | send (m : Message) (a : Acceptance)
  | close (a : Acceptance)
  | receive (arrived : List UInt8) (fails : Bool)

namespace Call

def message? : Call → Option Message
  | send m _ => some m
  | close _ => some .close
  | receive _ _ => none

def perform (c : Channel) : Call → Channel × List Message
  | send m a => let (c, delivery) := c.sendWith m a; (c, if delivery = .sent then [m] else [])
  | close a => let (c, delivery) := c.closeWith a; (c, if delivery = .sent then [.close] else [])
  | receive arrived fails => ((c.receiveWith arrived fails).1, [])

end Call

def performAll (c : Channel) : List Call → Channel × List Message
  | [] => (c, [])
  | k :: calls =>
    let (c, ms) := k.perform c
    let (c, more) := performAll c calls
    (c, ms ++ more)

variable {c : Channel}

theorem performAll_append (calls more : List Call) : c.performAll (calls ++ more) =
    (((c.performAll calls).1.performAll more).1,
      (c.performAll calls).2 ++ ((c.performAll calls).1.performAll more).2) := by
  induction calls generalizing c with
  | nil => rfl
  | cons k calls ih => simp [performAll, ih]

theorem perform_of_closed (h : c.isOpen = false) (k : Call) : k.perform c = (c,[]) := by
  have hs : c.shutDown = c := by
    rw [shutDown, ← h]
  cases k <;> simp [Call.perform, sendWith, closeWith, receiveWith, h, hs]

theorem performAll_of_closed (h : c.isOpen = false) (calls : List Call) :
    c.performAll calls = (c,[]) := by
  induction calls with
  | nil => rfl
  | cons k calls ih => simp [performAll, perform_of_closed h, ih]

def Adds (k : Call) (r : Channel × List Message) (part : List UInt8) : Prop :=
  part = r.2.flatMap Message.encode ∨
    r.2 = [] ∧ r.1.isOpen = false ∧ ∃ m, k.message? = some m ∧ part <+: m.encode ∧ part ≠ m.encode

theorem sendWith_adds (h : c.isOpen = true) (m : Message) (a : Acceptance) :
    ∃ part : List UInt8, (c.sendWith m a).1.outgoing = c.outgoing ++ part ∧
      (part = (if (c.sendWith m a).2 = .sent then [m] else []).flatMap Message.encode ∨
        (c.sendWith m a).2 ≠ .sent ∧ (c.sendWith m a).1.isOpen = false ∧
          part <+: m.encode ∧ part ≠ m.encode) := by
  obtain ⟨part,delivery,ht,he⟩ := sendWith_of_open h m a
  rw [he]
  refine ⟨part,rfl,?_⟩
  cases delivery with
  | sent => exact Or.inl (by simpa [Took] using ht)
  | cut => exact Or.inr ⟨by simp,rfl,ht⟩
  | closed => exact ht.elim
  | dropped | failed => exact Or.inl (by simpa [Took] using ht)

theorem perform_adds (h : c.isOpen = true) (k : Call) :
    ∃ part, (k.perform c).1.outgoing.toList = c.outgoing.toList ++ part ∧
      Adds k (k.perform c) part := by
  cases k with
  | send m a =>
    obtain ⟨part,hp,he | ⟨hs,ho,hm⟩⟩ := sendWith_adds h m a
    · exact ⟨part,by simp [Call.perform, hp],Or.inl he⟩
    · exact ⟨part,by simp [Call.perform, hp],Or.inr ⟨if_neg hs,ho,m,rfl,hm⟩⟩
  | close a =>
    obtain ⟨part,hp,he | ⟨hs,-,hm⟩⟩ := sendWith_adds h .close a
    · exact ⟨part,by simp [Call.perform, closeWith, shutDown, hp],Or.inl he⟩
    · exact ⟨part,by simp [Call.perform, closeWith, shutDown, hp],
        Or.inr ⟨if_neg hs,rfl,.close,rfl,hm⟩⟩
  | receive arrived fails =>
    refine ⟨[],?_,Or.inl rfl⟩
    cases fails <;> simp [Call.perform, receiveWith, receive, h]

/-- Behind the messages that are reported there are these bytes of another one: none, or those that
the last call on the open pipe left there. -/
def Trails (socket : Socket) (calls : List Call) (tail : List UInt8) : Prop :=
  tail = [] ∨ ∃ before k after m, calls = before ++ k :: after ∧ k.message? = some m ∧
    tail <+: m.encode ∧ tail ≠ m.encode ∧
    ((fresh socket).performAll before).2 = ((fresh socket).performAll calls).2 ∧
    ((fresh socket).performAll before).1.isOpen = true ∧
    ((fresh socket).performAll (before ++ [k])).1.isOpen = false ∧
    ((fresh socket).performAll (before ++ [k])).1 = ((fresh socket).performAll calls).1

theorem exists_trail (socket : Socket) (calls : List Call) :
    ∃ tail, ((fresh socket).performAll calls).1.outgoing.toList =
        ((fresh socket).performAll calls).2.flatMap Message.encode ++ tail ∧
      Trails socket calls tail ∧
      (((fresh socket).performAll calls).1.isOpen = true → tail = []) := by
  induction calls using List.reverseRecOn with
  | nil => exact ⟨[],rfl,Or.inl rfl,fun _ => rfl⟩
  | append_singleton calls k ih =>
    obtain ⟨tail,hout,htrail,hopen⟩ := ih
    cases ho : ((fresh socket).performAll calls).1.isOpen with
    | false =>
      have he : (fresh socket).performAll (calls ++ [k]) = (fresh socket).performAll calls := by
        simp [performAll_append, performAll_of_closed ho]
      refine ⟨tail,by rw [he, hout],?_,by rw [he, ho]; nofun⟩
      rcases htrail with rfl | ⟨before,l,after,m,rfl,hm,h⟩
      · exact Or.inl rfl
      · exact Or.inr ⟨before,l,after ++ [k],m,by simp,hm,by rw [he]; exact h⟩
    | true =>
      obtain rfl := hopen ho
      have he : (fresh socket).performAll (calls ++ [k]) =
          ((k.perform ((fresh socket).performAll calls).1).1,
            ((fresh socket).performAll calls).2 ++
              (k.perform ((fresh socket).performAll calls).1).2) := by
        simp [performAll_append, performAll]
      obtain ⟨part,hp,hadds⟩ := perform_adds ho k
      rw [hout, List.append_nil] at hp
      rcases hadds with rfl | ⟨hnone,hshut,m,hm,hpre,hne⟩
      · exact ⟨[],by rw [he, hp, List.flatMap_append, List.append_nil],Or.inl rfl,fun _ => rfl⟩
      · refine ⟨part,by rw [he, hp, hnone, List.append_nil],Or.inr ⟨calls,k,[],m,rfl,hm,hpre,hne,
          by rw [he, hnone, List.append_nil],ho,by rw [he, hshut],rfl⟩,?_⟩
        rw [he, hshut]
        nofun

/-- Whatever calls there were, the bytes that the socket took are those of the messages whose
sending was reported, in order, with at most a part of one more behind them. With that
part the pipe is closed. No call on a closed pipe does anything, so of two closings
the second one writes nothing. -/
theorem outgoing_framed (socket : Socket) (calls : List Call) :
    (∃ tail, ((fresh socket).performAll calls).1.outgoing.toList =
        ((fresh socket).performAll calls).2.flatMap Message.encode ++ tail ∧
      Trails socket calls tail) ∧
      (((fresh socket).performAll calls).1.isOpen = false →
        ∀ more, (fresh socket).performAll (calls ++ more) = (fresh socket).performAll calls) ∧
      ∀ before a between a', calls = before ++ .close a :: between ++ [.close a'] →
        (fresh socket).performAll calls =
          (fresh socket).performAll (before ++ .close a :: between) := by
  have hclosed (calls more : List Call) (h : ((fresh socket).performAll calls).1.isOpen = false) :
      (fresh socket).performAll (calls ++ more) = (fresh socket).performAll calls := by
    simp [performAll_append, performAll_of_closed h]
  refine ⟨?_,fun h more => hclosed calls more h,?_⟩
  · obtain ⟨tail,h,htrail,-⟩ := exists_trail socket calls
    exact ⟨tail,h,htrail⟩
  · rintro before a between a' rfl
    apply hclosed
    have hshut : ((fresh socket).performAll (before ++ [.close a])).1.isOpen = false := by
      rw [performAll_append]
      rfl
    rw [List.append_cons, hclosed _ between hshut, hshut]

end InkCompositor.Channel
