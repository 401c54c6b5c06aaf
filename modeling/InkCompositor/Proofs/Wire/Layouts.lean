import Mathlib
import InkCompositor.Wire.Layout

/-!
# Exact layouts

A layout is exact if it reads back what it writes and nothing else, asks for
more bytes as long as a value is incomplete, and never takes an error back once
more bytes have come. Exactness goes from the parts of a record to the record.
-/

set_option autoImplicit false

namespace InkCompositor.Wire

theorem lowBytes_length (width n : Nat) : (lowBytes width n).length = width := by
  induction width generalizing n with
  | zero => rfl
  | succ width ih => rw [lowBytes, List.length_cons, ih]

theorem ofLowBytes_lowBytes (width n : Nat) (h : n < 256^width) :
    ofLowBytes (lowBytes width n) = n := by
  induction width generalizing n with
  | zero =>
    have h0 : n = 0 := by simpa using h
    rw [lowBytes, ofLowBytes, h0]
  | succ width ih =>
    rw [Nat.pow_succ] at h
    rw [lowBytes, ofLowBytes, ih _ (by omega), UInt8.toNat_ofNat']
    omega

theorem ofLowBytes_lt (l : List UInt8) : ofLowBytes l < 256^l.length := by
  induction l with
  | nil => simp [ofLowBytes]
  | cons b l ih =>
    have hb := b.toNat_lt
    rw [ofLowBytes, List.length_cons, Nat.pow_succ]
    omega

theorem lowBytes_ofLowBytes (l : List UInt8) : lowBytes l.length (ofLowBytes l) = l := by
  induction l with
  | nil => rfl
  | cons b l ih =>
    have hb := b.toNat_lt
    have h1 : (b.toNat+256*ofLowBytes l)/256 = ofLowBytes l := by omega
    have h2 : UInt8.ofNat (b.toNat+256*ofLowBytes l) = b := by
      apply UInt8.toNat_inj.1
      rw [UInt8.toNat_ofNat']
      omega
    rw [List.length_cons, ofLowBytes, lowBytes, h1, h2, ih]

namespace Layout

variable {α β : Type}

/-- The layout writes and reads the valid values, each in its own way. -/
structure Exact (c : Layout α) (valid : α → Prop) : Prop where
  read_write : ∀ a rest, valid a → c.read (c.write a ++ rest) = .ok (a,rest)
  write_of_read : ∀ bytes a rest, c.read bytes = .ok (a,rest) →
    valid a ∧ bytes = c.write a ++ rest
  read_part : ∀ a front back, valid a → c.write a = front ++ back → back ≠ [] →
    c.read front = .error .truncated
  read_append : ∀ bytes e more, c.read bytes = .error e → e ≠ .truncated →
    c.read (bytes ++ more) = .error e

namespace Exact

variable {c : Layout α} {valid : α → Prop}

theorem read_ok_append (h : c.Exact valid) {bytes rest : List UInt8} {a : α}
    (hr : c.read bytes = .ok (a,rest)) (more : List UInt8) :
    c.read (bytes ++ more) = .ok (a,rest ++ more) := by
  obtain ⟨ha,rfl⟩ := h.write_of_read _ _ _ hr
  rw [List.append_assoc]
  exact h.read_write a _ ha

theorem congr (h : c.Exact valid) {valid' : α → Prop} (hv : ∀ a, valid a ↔ valid' a) :
    c.Exact valid' := by
  rwa [show valid' = valid from funext fun a => propext (hv a).symm]

end Exact

theorem Exact.rename {c : Layout α} {d : Layout β} {v : α → Prop} {w : β → Prop} (h : c.Exact v)
    (f : α → β) (hr : ∀ bytes, d.read bytes = (c.read bytes).map fun p => (f p.1,p.2))
    (hw : ∀ a, v a → w (f a) ∧ d.write (f a) = c.write a) (hv : ∀ b, w b → ∃ a, v a ∧ f a = b) :
    d.Exact w where
  read_write b rest hb := by
    obtain ⟨a,ha,rfl⟩ := hv b hb
    rw [hr, (hw a ha).2, h.read_write a rest ha, Except.map]
  write_of_read bytes b rest hb := by
    rw [hr] at hb
    cases hc : c.read bytes with
    | error e => simp [hc, Except.map] at hb
    | ok p =>
      obtain ⟨a,rest'⟩ := p
      obtain ⟨ha,hs⟩ := h.write_of_read _ _ _ hc
      simp only [hc, Except.map, Except.ok.injEq, Prod.mk.injEq] at hb
      obtain ⟨rfl,rfl⟩ := hb
      exact ⟨(hw a ha).1,by rw [(hw a ha).2, hs]⟩
  read_part b front back hb hs hn := by
    obtain ⟨a,ha,rfl⟩ := hv b hb
    rw [(hw a ha).2] at hs
    rw [hr, h.read_part a front back ha hs hn, Except.map]
  read_append bytes e more he hn := by
    rw [hr] at he ⊢
    cases hc : c.read bytes with
    | error e' =>
      simp only [hc, Except.map, Except.error.injEq] at he
      subst he
      rw [h.read_append bytes e' more hc hn, Except.map]
    | ok p => simp [hc, Except.map] at he

theorem word_exact (width : Nat) (toNat : α → Nat) (ofNat : Nat → α)
    (h1 : ∀ a, toNat a < 256^width) (h2 : ∀ a, ofNat (toNat a) = a)
    (h3 : ∀ n, n < 256^width → toNat (ofNat n) = n) :
    (word width toNat ofNat).Exact fun _ => True where
  read_write a rest _ := by
    have hl := lowBytes_length width (toNat a)
    simp only [word]
    rw [List.take_left' hl, List.drop_left' hl, if_neg (by omega), ofLowBytes_lowBytes _ _ (h1 a),
      h2]
  write_of_read bytes a rest h := by
    simp only [word] at h ⊢
    split at h
    · cases h
    · rename_i hl
      rw [List.length_take] at hl
      have hw : (bytes.take width).length = width := by
        rw [List.length_take]
        omega
      have hlt := ofLowBytes_lt (bytes.take width)
      have hb := lowBytes_ofLowBytes (bytes.take width)
      rw [hw] at hlt hb
      cases h
      refine ⟨trivial,?_⟩
      rw [h3 _ hlt, hb, List.take_append_drop]
  read_part a front back _ h hb := by
    have hl := congrArg List.length h
    have hp := List.length_pos_of_ne_nil hb
    rw [show (word width toNat ofNat).write a = lowBytes width (toNat a) from rfl,
      lowBytes_length, List.length_append] at hl
    simp only [word, List.length_take]
    rw [if_pos (by omega)]
  read_append bytes e more h he := by
    simp only [word] at h
    split at h
    · cases h
      exact absurd rfl he
    · cases h

theorem u16_exact : u16.Exact fun _ => True :=
  word_exact 2 _ _ (fun a => a.toNat_lt) (fun a => a.ofNat_toNat)
    (fun n h => by rw [UInt16.toNat_ofNat']; omega)

theorem u32_exact : u32.Exact fun _ => True :=
  word_exact 4 _ _ (fun a => a.toNat_lt) (fun a => a.ofNat_toNat)
    (fun n h => by rw [UInt32.toNat_ofNat']; omega)

theorem u64_exact : u64.Exact fun _ => True :=
  word_exact 8 _ _ (fun a => a.toNat_lt) (fun a => a.ofNat_toNat)
    (fun n h => by rw [UInt64.toNat_ofNat']; omega)

theorem i32_exact : i32.Exact fun _ => True :=
  word_exact 4 _ _ (fun a => a.toUInt32.toNat_lt)
    (fun a => by rw [UInt32.ofNat_toNat, Int32.toInt32_toUInt32])
    (fun n h => by rw [UInt32.toUInt32_toInt32, UInt32.toNat_ofNat']; omega)

theorem unit_exact (a : α) : (unit a).Exact fun b => b = a where
  read_write b rest h := by rw [h]; rfl
  write_of_read bytes b rest h := by
    cases h
    exact ⟨rfl,rfl⟩
  read_part b front back _ h hb := absurd (List.append_eq_nil_iff.1 h.symm).2 hb
  read_append bytes e more h := by cases h

def select (c : Layout α) (f : α → Except WireError β) (back : β → α) : Layout β where
  write b := c.write (back b)
  read bytes := (c.read bytes).bind fun (a, rest) => (f a).map fun b => (b, rest)

section Select

variable {c : Layout α} {f : α → Except WireError β} {back : β → α}

theorem select_read {bytes rest : List UInt8} {a : α} (hc : c.read bytes = .ok (a,rest)) :
    (c.select f back).read bytes = (f a).map fun b => (b,rest) := by
  simp only [select, hc, Except.bind]

theorem select_read_error {bytes : List UInt8} {e : WireError} (hc : c.read bytes = .error e) :
    (c.select f back).read bytes = .error e := by
  simp only [select, hc, Except.bind]

theorem select_exact {valid : α → Prop} (h : c.Exact valid)
    (h1 : ∀ a b, f a = .ok b → back b = a) :
    (c.select f back).Exact fun b => valid (back b) ∧ f (back b) = .ok b where
  read_write b rest hv := by
    rw [show (c.select f back).write b = c.write (back b) from rfl,
      select_read (h.read_write _ rest hv.1), hv.2, Except.map]
  write_of_read bytes b rest hr := by
    cases hc : c.read bytes with
    | error e => simp [select_read_error hc] at hr
    | ok p =>
      obtain ⟨a,rest'⟩ := p
      obtain ⟨hv,hb⟩ := h.write_of_read _ _ _ hc
      rw [select_read hc] at hr
      cases hf : f a with
      | error e => simp [hf, Except.map] at hr
      | ok b' =>
        simp only [hf, Except.map, Except.ok.injEq, Prod.mk.injEq] at hr
        obtain ⟨rfl,rfl⟩ := hr
        have ha := h1 a b' hf
        subst ha
        exact ⟨⟨hv,hf⟩,hb⟩
  read_part b front rest hv hw hn := select_read_error (h.read_part _ front rest hv.1 hw hn)
  read_append bytes e more hr he := by
    cases hc : c.read bytes with
    | error e' =>
      rw [select_read_error hc, Except.error.injEq] at hr
      subst hr
      exact select_read_error (h.read_append _ _ more hc he)
    | ok p =>
      obtain ⟨a,rest⟩ := p
      rw [select_read hc] at hr
      rw [select_read (h.read_ok_append hc more)]
      cases hf : f a with
      | error e' => simpa [hf, Except.map] using hr
      | ok b => simp [hf, Except.map] at hr

end Select

theorem as_exact {c : Layout α} {valid : α → Prop} (h : c.Exact valid) (f : α → β) (back : β → α)
    (h1 : ∀ a, back (f a) = a) (h2 : ∀ b, f (back b) = b) :
    (c.as f back).Exact fun b => valid (back b) := by
  refine h.rename f (fun bytes => ?_) (fun a ha => ?_) (fun b hb => ⟨back b,hb,h2 b⟩)
  · cases hc : c.read bytes <;> simp [as, hc, Except.bind, Except.map]
  · rw [h1]
    exact ⟨ha,congrArg c.write (h1 a)⟩

theorem choice_eq (field : String) (code : α → UInt16) (ofCode? : UInt16 → Option α) :
    choice field code ofCode? = u16.select (fun n =>
      match ofCode? n with
      | some a => .ok a
      | none => .error (.invalidEnum field n)) code := by
  unfold choice select
  congr 1
  funext bytes
  cases u16.read bytes with
  | error e => rfl
  | ok p =>
    simp only [Except.bind]
    cases ofCode? p.1 <;> rfl

theorem choice_exact (field : String) (code : α → UInt16) (ofCode? : UInt16 → Option α)
    (h1 : ∀ a, ofCode? (code a) = some a) (h2 : ∀ n a, ofCode? n = some a → code a = n) :
    (choice field code ofCode?).Exact fun _ => True := by
  rw [choice_eq]
  refine (select_exact u16_exact fun n a hn => ?_).congr fun a => by simp [h1]
  cases hc : ofCode? n with
  | none => simp [hc] at hn
  | some a' =>
    simp only [hc, Except.ok.injEq] at hn
    exact h2 n a (hn ▸ hc)

/-- One value and then another whose layout hangs on the first. -/
def andThen (c : Layout α) (d : α → Layout β) : Layout (α × β) where
  write p := c.write p.1 ++ (d p.1).write p.2
  read bytes :=
    (c.read bytes).bind fun (a, rest) =>
      ((d a).read rest).bind fun (b, rest) => .ok ((a, b), rest)

theorem pair_eq (c : Layout α) (d : Layout β) : c.pair d = c.andThen fun _ => d := rfl

section AndThen

variable {c : Layout α} {d : α → Layout β}

theorem andThen_read {bytes rest : List UInt8} {a : α} (hc : c.read bytes = .ok (a,rest)) :
    (c.andThen d).read bytes =
      ((d a).read rest).bind fun (b, rest) => .ok ((a,b),rest) := by
  simp only [andThen, hc, Except.bind]

theorem andThen_read_error {bytes : List UInt8} {e : WireError} (hc : c.read bytes = .error e) :
    (c.andThen d).read bytes = .error e := by
  simp only [andThen, hc, Except.bind]

theorem andThen_exact {v : α → Prop} {w : α → β → Prop} (hc : c.Exact v)
    (hd : ∀ a, v a → (d a).Exact (w a)) : (c.andThen d).Exact fun p => v p.1 ∧ w p.1 p.2 where
  read_write p rest hp := by
    rw [show (c.andThen d).write p = c.write p.1 ++ (d p.1).write p.2 from rfl, List.append_assoc,
      andThen_read (hc.read_write p.1 _ hp.1), (hd p.1 hp.1).read_write p.2 rest hp.2, Except.bind]
  write_of_read bytes p rest hr := by
    cases h : c.read bytes with
    | error e => simp [andThen_read_error h] at hr
    | ok q =>
      obtain ⟨a,rest'⟩ := q
      obtain ⟨ha,rfl⟩ := hc.write_of_read _ _ _ h
      rw [andThen_read h] at hr
      cases h' : (d a).read rest' with
      | error e => simp [h', Except.bind] at hr
      | ok q =>
        obtain ⟨b,rest''⟩ := q
        obtain ⟨hb,rfl⟩ := (hd a ha).write_of_read _ _ _ h'
        simp only [h', Except.bind, Except.ok.injEq, Prod.mk.injEq] at hr
        obtain ⟨rfl,rfl⟩ := hr
        exact ⟨⟨ha,hb⟩,(List.append_assoc _ _ _).symm⟩
  read_part p front back hp hw hn := by
    have hw' : c.write p.1 ++ (d p.1).write p.2 = front ++ back := hw
    -- the cut is behind the first value, or within it
    rcases List.append_eq_append_iff.1 hw' with ⟨m,rfl,hm⟩ | ⟨m,hm,rfl⟩
    · rw [andThen_read (hc.read_write p.1 m hp.1), (hd p.1 hp.1).read_part p.2 m back hp.2 hm hn,
        Except.bind]
    · by_cases hm' : m = []
      · subst hm'
        rw [List.append_nil] at hm
        have hread := hc.read_write p.1 [] hp.1
        rw [List.append_nil, hm] at hread
        rw [andThen_read hread,
          (hd p.1 hp.1).read_part p.2 [] _ hp.2 rfl (by simpa using hn), Except.bind]
      · exact andThen_read_error (hc.read_part p.1 front m hp.1 hm hm')
  read_append bytes e more hr he := by
    cases h : c.read bytes with
    | error e' =>
      rw [andThen_read_error h, Except.error.injEq] at hr
      subst hr
      exact andThen_read_error (hc.read_append bytes e' more h he)
    | ok q =>
      obtain ⟨a,rest⟩ := q
      obtain ⟨ha,-⟩ := hc.write_of_read _ _ _ h
      rw [andThen_read h] at hr
      rw [andThen_read (hc.read_ok_append h more)]
      cases h' : (d a).read rest with
      | error e' =>
        simp only [h', Except.bind, Except.error.injEq] at hr
        subst hr
        rw [(hd a ha).read_append rest e' more h' he, Except.bind]
      | ok q => simp [h', Except.bind] at hr

end AndThen

theorem pair_exact {c : Layout α} {d : Layout β} {v : α → Prop} {w : β → Prop} (hc : c.Exact v)
    (hd : d.Exact w) : (c.pair d).Exact fun p => v p.1 ∧ w p.2 := by
  rw [pair_eq]
  exact andThen_exact hc fun _ _ => hd

def many (c : Layout α) (n : Nat) : Layout (List α) where
  write l := l.flatMap c.write
  read := readMany c n

theorem many_exact {c : Layout α} {valid : α → Prop} (h : c.Exact valid) (n : Nat) :
    (c.many n).Exact fun l => l.length = n ∧ ∀ a ∈ l, valid a := by
  induction n with
  | zero =>
    apply (unit_exact ()).rename (fun _ => []) (fun bytes => rfl) (fun _ _ => by simp; rfl)
    rintro l ⟨hl,-⟩
    exact ⟨(),rfl,(List.length_eq_zero_iff.1 hl).symm⟩
  | succ n ih =>
    -- a list is its head in front of its tail
    refine (pair_exact h ih).rename (fun p => p.1 :: p.2) (fun bytes => ?_) ?_ ?_
    · simp only [many, readMany, pair]
      cases c.read bytes with
      | error e => rfl
      | ok p =>
        simp only [Except.bind]
        cases readMany c n p.2 <;> rfl
    · rintro ⟨a,l⟩ ⟨ha,hl,hv⟩
      exact ⟨⟨by simpa using hl,by simpa using ⟨ha,hv⟩⟩,rfl⟩
    · rintro (_ | ⟨a,l⟩) ⟨hl,hv⟩
      · simp at hl
      · exact ⟨(a,l),⟨hv a (by simp),by simpa using hl,fun b hb => hv b (by simp [hb])⟩,rfl⟩

def upTo (field : String) (max : UInt32) : Layout UInt32 :=
  u32.select (fun n => if max < n then .error (.tooLarge field n max) else .ok n) id

theorem upTo_exact (field : String) (max : UInt32) : (upTo field max).Exact fun n => n ≤ max := by
  refine (select_exact u32_exact fun n m hn => ?_).congr fun n => ?_
  · split at hn
    · cases hn
    · simpa using hn.symm
  · by_cases h : max < n
    · simp [h]
    · simpa [h] using UInt32.not_lt.1 h

theorem counted_exact (field : String) (max : UInt32) {head : Layout β} {c : Layout α}
    {v : β → Prop} {w : α → Prop} (hh : head.Exact v) (hc : c.Exact w) :
    (counted field max head c).Exact
      fun p => v p.1 ∧ p.2.length ≤ max.toNat ∧ ∀ a ∈ p.2, w a := by
  have hf : ((upTo field max).andThen fun n => head.pair (c.many n.toNat)).Exact
      fun p => p.1 ≤ max ∧ v p.2.1 ∧ p.2.2.length = p.1.toNat ∧ ∀ a ∈ p.2.2, w a :=
    andThen_exact (upTo_exact field max) fun n _ => pair_exact hh (many_exact hc n.toNat)
  refine hf.rename (fun p => p.2) (fun bytes => ?_) ?_ ?_
  · simp only [counted, andThen, upTo, select, pair, many]
    cases u32.read bytes with
    | error e => rfl
    | ok p =>
      simp only [Except.bind]
      by_cases h : max < p.1
      · simp [h, Except.map]
      · simp only [h, if_false, Except.map]
        cases head.read p.2 with
        | error e => rfl
        | ok q =>
          simp only
          cases readMany c p.1.toNat q.2 <;> rfl
  · rintro ⟨n,b,l⟩ ⟨h1,h2,h3,h4⟩
    simp only at h1 h2 h3 h4
    refine ⟨⟨h2,by rw [h3]; exact UInt32.le_iff_toNat_le.1 h1,h4⟩,?_⟩
    simp only [counted, h3, UInt32.ofNat_toNat, List.append_assoc]
    rfl
  · rintro ⟨b,l⟩ ⟨h2,h3,h4⟩
    -- a list within the limit is counted without loss
    have hlt := max.toNat_lt
    have hn : (UInt32.ofNat l.length).toNat = l.length := by
      rw [UInt32.toNat_ofNat']
      simp only at h3
      omega
    refine ⟨(.ofNat l.length,b,l),⟨?_,h2,hn.symm,h4⟩,rfl⟩
    rw [UInt32.le_iff_toNat_le, hn]
    exact h3

end Layout

end InkCompositor.Wire
