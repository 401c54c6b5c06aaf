import Mathlib
import InkCompositor.Proofs.Wire.Reassembly

/-!
# How far reading looks

Reading a message never asks for more bytes once as many are there as the longest
message has, a touch of as many points as may be: whatever they are, they are a
message or they are refused. So a reader that has nothing to hand out holds fewer
bytes, and each time it hands out something it holds at least two bytes less.
-/

set_option autoImplicit false

namespace InkCompositor.Wire

variable {α β : Type} {m n : Nat}

/-- With `n` bytes reading never asks for more, and no value takes more of them. -/
structure Within (read : List UInt8 → Reading α) (n : Nat) : Prop where
  lt_of_truncated : ∀ bytes, read bytes = .error .truncated → bytes.length < n
  le_of_read : ∀ bytes a rest, read bytes = .ok (a,rest) → bytes.length ≤ n+rest.length

namespace Within

theorem mono {read : List UInt8 → Reading α} (h : Within read m) (hm : m ≤ n) :
    Within read n where
  lt_of_truncated bytes hb := Nat.lt_of_lt_of_le (h.lt_of_truncated bytes hb) hm
  le_of_read bytes a rest hb := by
    have hle := h.le_of_read bytes a rest hb
    omega

theorem done (a : α) : Within (fun bytes => .ok (a,bytes)) 0 where
  lt_of_truncated bytes hb := by cases hb
  le_of_read bytes b rest hb := by
    cases hb
    omega

theorem refused {e : WireError} (he : e ≠ .truncated) :
    Within (fun _ => (.error e : Reading α)) 0 where
  lt_of_truncated bytes hb := absurd (Except.error.inj hb) he
  le_of_read bytes b rest hb := by cases hb

theorem bind {read : List UInt8 → Reading α} {next : α → List UInt8 → Reading β}
    (h : Within read m) (h' : ∀ a, Within (next a) n) :
    Within (fun bytes => (read bytes).bind fun p => next p.1 p.2) (m+n) where
  lt_of_truncated bytes hb := by
    cases hr : read bytes with
    | error e =>
      simp only [hr, Except.bind, Except.error.injEq] at hb
      have hlt := h.lt_of_truncated bytes (hb ▸ hr)
      omega
    | ok p =>
      simp only [hr, Except.bind] at hb
      have hle := h.le_of_read bytes p.1 p.2 hr
      have hlt := (h' p.1).lt_of_truncated p.2 hb
      omega
  le_of_read bytes b rest hb := by
    cases hr : read bytes with
    | error e => simp [hr, Except.bind] at hb
    | ok p =>
      simp only [hr, Except.bind] at hb
      have hle := h.le_of_read bytes p.1 p.2 hr
      have hle' := (h' p.1).le_of_read p.2 b rest hb
      omega

theorem map {read : List UInt8 → Reading α} (h : Within read n) (f : α → β) :
    Within (fun bytes => (read bytes).map fun p => (f p.1,p.2)) n := by
  have hf := h.bind fun a => done (f a)
  have he : (fun bytes => (read bytes).map fun p => (f p.1,p.2)) =
      fun bytes => (read bytes).bind fun p => .ok (f p.1,p.2) := by
    funext bytes
    cases read bytes <;> rfl
  rw [he]
  exact hf

end Within

namespace Layout

theorem word_within (width : Nat) (toNat : α → Nat) (ofNat : Nat → α) :
    Within (word width toNat ofNat).read width where
  lt_of_truncated bytes hb := by
    simp only [word] at hb
    split at hb
    · rename_i hlt
      rw [List.length_take] at hlt
      omega
    · cases hb
  le_of_read bytes a rest hb := by
    simp only [word] at hb
    split at hb
    · cases hb
    · cases hb
      rw [List.length_drop]
      omega

theorem as_within {c : Layout α} (h : Within c.read n) (f : α → β) (back : β → α) :
    Within (c.as f back).read n := h.bind fun a => Within.done (f a)

theorem pair_within {c : Layout α} {d : Layout β} (hc : Within c.read m) (hd : Within d.read n) :
    Within (c.pair d).read (m+n) := hc.bind fun a => hd.bind fun b => Within.done (a,b)

theorem select_within {c : Layout α} (h : Within c.read n) {f : α → Except WireError β}
    (hf : ∀ a, f a ≠ .error .truncated) (back : β → α) : Within (c.select f back).read n := by
  have hnext : ∀ a, Within (fun rest => (f a).map fun b => (b,rest)) 0 := by
    intro a
    cases ha : f a with
    | error e => exact Within.refused fun he => hf a (he ▸ ha)
    | ok b => exact Within.done b
  exact h.bind hnext

theorem choice_within (field : String) (code : α → UInt16) (ofCode? : UInt16 → Option α) :
    Within (choice field code ofCode?).read 2 := by
  rw [choice_eq]
  apply select_within (word_within 2 _ _)
  intro k
  cases ofCode? k <;> simp

theorem readMany_within {c : Layout α} (h : Within c.read n) (k : Nat) :
    Within (readMany c k) (k*n) := by
  induction k with
  | zero =>
    rw [Nat.zero_mul]
    exact Within.done []
  | succ k ih =>
    rw [Nat.succ_mul, Nat.add_comm (k*n)]
    exact h.bind fun a => ih.bind fun more => Within.done (a :: more)

theorem counted_within (field : String) (max : UInt32) {head : Layout β} {c : Layout α}
    (hh : Within head.read m) (hc : Within c.read n) :
    Within (counted field max head c).read (4+(m+max.toNat*n)) := by
  have hnext : ∀ k : UInt32, Within (fun rest =>
      if max < k then .error (.tooLarge field k max)
      else (head.read rest).bind fun p =>
        (readMany c k.toNat p.2).bind fun q => .ok ((p.1,q.1),q.2))
      (m+max.toNat*n) := by
    intro k
    by_cases hk : max < k
    · simp only [if_pos hk]
      exact (Within.refused (by simp)).mono (Nat.zero_le _)
    · simp only [if_neg hk]
      have hle : k.toNat*n ≤ max.toNat*n :=
        Nat.mul_le_mul_right n (UInt32.le_iff_toNat_le.1 (UInt32.not_lt.1 hk))
      exact hh.bind fun b => ((readMany_within hc k.toNat).mono hle).bind fun more =>
        Within.done (b,more)
  exact (word_within 4 _ _).bind hnext

end Layout

open Layout

theorem rect_within : Within rectLayout.read 16 :=
  as_within (pair_within (word_within 4 _ _) (pair_within (word_within 4 _ _)
    (pair_within (word_within 4 _ _) (word_within 4 _ _)))) _ _

theorem repaint_within : Within repaintLayout.read 28 :=
  pair_within rect_within (pair_within (word_within 8 _ _) (word_within 4 _ _))

theorem geometry_within : Within geometryLayout.read 20 :=
  pair_within rect_within (word_within 4 _ _)

theorem imageInfo_within : Within imageInfoLayout.read 20 :=
  pair_within (word_within 8 _ _) (pair_within (word_within 8 _ _) (word_within 4 _ _))

theorem key_within : Within keyLayout.read 14 :=
  as_within (pair_within (choice_within _ _ _) (pair_within (word_within 4 _ _)
    (pair_within (word_within 4 _ _) (word_within 4 _ _)))) _ _

theorem touchPoint_within : Within touchPointLayout.read 56 :=
  as_within (pair_within (word_within 4 _ _) <| pair_within (choice_within _ _ _) <|
    pair_within (word_within 8 _ _) <| pair_within (word_within 8 _ _) <|
    pair_within (word_within 8 _ _) <| pair_within (word_within 8 _ _) <|
    pair_within (choice_within _ _ _) <|
    pair_within (word_within 8 _ _) (word_within 8 _ _)) _ _

theorem touch_within : Within touchLayout.read 3590 :=
  as_within (counted_within _ maxTouchPoints (choice_within _ _ _) touchPoint_within) _ _

theorem tablet_within : Within tabletLayout.read 28 :=
  as_within (pair_within (choice_within _ _ _) <| pair_within (choice_within _ _ _) <|
    pair_within (word_within 4 _ _) <| pair_within (word_within 4 _ _) <|
    pair_within (word_within 8 _ _) <| pair_within (word_within 4 _ _) (word_within 4 _ _)) _ _

namespace Message

theorem readPayload_within (code : UInt16) : Within (readPayload code) 3590 := by
  unfold readPayload
  split
  · exact (Within.done invalid).mono (by decide)
  · exact (repaint_within.map fun p => repaint p.1 p.2.1 p.2.2).mono (by decide)
  · exact ((word_within 4 _ _).map waitForPaint).mono (by decide)
  · exact (geometry_within.map fun p => geometry p.1 p.2).mono (by decide)
  · exact (imageInfo_within.map fun p => imageInfo p.1 p.2.1 p.2.2).mono (by decide)
  · exact (Within.done raise).mono (by decide)
  · exact (Within.done lower).mono (by decide)
  · exact (Within.done close).mono (by decide)
  · exact (Within.done frameBuffer).mono (by decide)
  · exact (Within.done ping).mono (by decide)
  · exact (key_within.map key).mono (by decide)
  · exact touch_within.map touch
  · exact (tablet_within.map tablet).mono (by decide)
  · exact (Within.refused (by simp)).mono (by decide)

theorem read_within : Within read 3592 := (word_within 2 _ _).bind readPayload_within

/-- The longest messages are the touches with as many points as may be. -/
theorem length_encode_le {m : Message} (h : m.points.length ≤ maxTouchPoints.toNat) :
    m.encode.length ≤ 3592 := by
  have hread : read (m.encode ++ []) = .ok (m,[]) := message_exact.read_write m [] h
  rw [List.append_nil] at hread
  exact read_within.le_of_read m.encode m [] hread

end Message

end InkCompositor.Wire
