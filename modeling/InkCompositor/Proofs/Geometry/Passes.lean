import Mathlib
import InkCompositor.Geometry.Region

/-!
# Joining comes to an end

Rectangles are joined in place. Each is held against all behind it, and after a
pass in which it was joined with one of them everything is looked at again. This
ends, with a list that is no longer than before and in which no two rectangles
share a full edge, so there is nothing left to join.
-/

set_option autoImplicit false

namespace InkCompositor

namespace Region

/-- No two of the rectangles share a full edge. -/
def Settled (l : List Rect) : Prop := l.Pairwise fun a b => a.sharesEdge b = false

theorem length_absorb_le (a : Rect) (l : List Rect) : (absorb a l).2.length ≤ l.length := by
  induction l generalizing a with
  | nil => exact Nat.le_refl _
  | cons b l ih =>
    rw [absorb]
    split
    · exact Nat.le_succ_of_le (ih (a.united b))
    · exact Nat.succ_le_succ (ih a)

theorem absorb_eq_self {a : Rect} {l : List Rect} (h : ∀ b ∈ l, a.sharesEdge b = false) :
    absorb a l = (a,l) := by
  induction l with
  | nil => rfl
  | cons b l ih =>
    rw [absorb, if_neg (by simp [h b]), ih fun c hc => h c (List.mem_cons_of_mem _ hc)]

theorem sharesEdge_of_length_absorb {a : Rect} {l : List Rect}
    (h : ¬ (absorb a l).2.length < l.length) : ∀ b ∈ l, a.sharesEdge b = false := by
  induction l with
  | nil => simp
  | cons b l ih =>
    rw [absorb] at h
    split at h
    · have hle := length_absorb_le (a.united b) l
      rw [List.length_cons] at h
      omega
    · rename_i hb
      rw [List.length_cons, List.length_cons] at h
      rw [List.forall_mem_cons]
      exact ⟨by simpa using hb,ih (by omega)⟩

theorem length_joinFrom_le (done todo : List Rect) :
    (joinFrom done todo).length ≤ done.length + todo.length := by
  induction done, todo using joinFrom.induct with
  | case1 done =>
    rw [joinFrom]
    exact Nat.le_refl _
  | case2 done a rest hlt ih =>
    rw [joinFrom, dif_pos hlt]
    simp only [List.length_append, List.length_cons, List.length_nil] at ih ⊢
    omega
  | case3 done a rest hlt ih =>
    rw [joinFrom, dif_neg hlt]
    simp only [List.length_append, List.length_cons, List.length_nil] at ih ⊢
    omega

structure Cleared (done todo : List Rect) : Prop where
  settled : Settled done
  ahead : ∀ a ∈ done, ∀ b ∈ todo, a.sharesEdge b = false

theorem Cleared.nil (todo : List Rect) : Cleared [] todo := ⟨List.Pairwise.nil,by simp⟩

theorem Cleared.next {done rest : List Rect} {a : Rect} (h : Cleared done (a :: rest))
    (ha : ∀ b ∈ rest, a.sharesEdge b = false) : Cleared (done ++ [a]) rest where
  settled := by
    rw [Settled, List.pairwise_append]
    exact ⟨h.settled,List.pairwise_singleton _ a,
      fun b hb c hc => h.ahead b hb c (List.mem_cons.2 (Or.inl (List.mem_singleton.1 hc)))⟩
  ahead b hb c hc := by
    rcases List.mem_append.1 hb with hb | hb
    · exact h.ahead b hb c (List.mem_cons_of_mem a hc)
    · rw [List.mem_singleton.1 hb]
      exact ha c hc

theorem settled_joinFrom {done todo : List Rect} (h : Cleared done todo) :
    Settled (joinFrom done todo) := by
  induction done, todo using joinFrom.induct with
  | case1 done =>
    rw [joinFrom]
    exact h.settled
  | case2 done a rest hlt ih =>
    rw [joinFrom, dif_pos hlt]
    -- everything is looked at again, so nothing has to be known of it
    exact ih (Cleared.nil _)
  | case3 done a rest hlt ih =>
    rw [joinFrom, dif_neg hlt]
    exact ih (h.next (sharesEdge_of_length_absorb hlt))

theorem joinFrom_of_settled {done todo : List Rect} (h : Settled (done ++ todo)) :
    joinFrom done todo = done ++ todo := by
  induction todo generalizing done with
  | nil => rw [joinFrom, List.append_nil]
  | cons a rest ih =>
    have ha : absorb a rest = (a,rest) := by
      have hrest := (List.pairwise_append.1 h).2.1
      exact absorb_eq_self (List.pairwise_cons.1 hrest).1
    rw [joinFrom, dif_neg (by rw [ha]; exact Nat.lt_irrefl _), ih (by simpa using h)]
    simp

theorem settled_joinAdjacent (l : List Rect) : Settled (joinAdjacent l) :=
  settled_joinFrom (Cleared.nil l)

theorem settled_add {g : Region} {r : Rect} (hr : r.isEmpty = false)
    (hn : uncovered g.rects r ≠ []) : Settled (g.add r).rects := by
  rw [add, if_neg (by simp [hr]), if_neg (by simpa using hn)]
  exact settled_joinAdjacent _

theorem settled_subtract {g : Region} {r : Rect} (hr : r.isEmpty = false)
    (hn : g.isEmpty = false) : Settled (g.subtract r).rects := by
  have hkeep : ¬ (r.isEmpty || g.rects.isEmpty) = true := by
    rw [hr, show g.rects.isEmpty = false from hn]
    exact Bool.false_ne_true
  rw [subtract, if_neg hkeep]
  exact settled_joinAdjacent _

/-- Where joining stands: the rectangle at `i` is held against the one at `j` next. -/
structure Pass where
  rects : List Rect
  i : Nat
  j : Nat
  /-- Whether the rectangle at `i` was joined with another. -/
  joined : Bool
  deriving DecidableEq, Repr

namespace Pass

def start (rects : List Rect) (i : Nat) : Pass := ⟨rects, i, i + 1, false⟩

def step? (s : Pass) : Option Pass :=
  match s.rects[s.i]?, s.rects[s.j]? with
  | none, _ => none
  | some _, none => some (start s.rects (if s.joined then 0 else s.i + 1))
  | some a, some b =>
    if a.sharesEdge b then
      some { s with rects := (s.rects.set s.i (a.united b)).eraseIdx s.j, joined := true }
    else some { s with j := s.j + 1 }

inductive Steps : Nat → Pass → Pass → Prop where
  | stay (s : Pass) : Steps 0 s s
  | step {n : Nat} {s t u : Pass} : s.step? = some t → Steps n t u → Steps (n + 1) s u

theorem Steps.trans {m n : Nat} {s t u : Pass} (h : Steps m s t) (h' : Steps n t u) :
    Steps (m + n) s u := by
  induction h with
  | stay s => rwa [Nat.zero_add]
  | step hs _ ih =>
    rw [Nat.succ_add]
    exact Steps.step hs (ih h')

theorem steps_absorb (front : List Rect) (a : Rect) (mid rest : List Rect) (joined : Bool) :
    Steps rest.length ⟨front ++ a :: (mid ++ rest),front.length,front.length+1+mid.length,joined⟩
      ⟨front ++ (absorb a rest).1 :: (mid ++ (absorb a rest).2),front.length,
        front.length+1+mid.length+(absorb a rest).2.length,
        joined || decide ((absorb a rest).2.length < rest.length)⟩ := by
  induction rest generalizing a mid joined with
  | nil =>
    have hnone :
        (joined || decide ((absorb a []).2.length < ([] : List Rect).length)) = joined := by
      simp [absorb]
    rw [hnone]
    exact Steps.stay _
  | cons b rest ih =>
    have hi : (front ++ a :: (mid ++ b :: rest))[front.length]? = some a := by simp
    have hj : (front ++ a :: (mid ++ b :: rest))[front.length+1+mid.length]? = some b := by
      rw [List.getElem?_append_right (by omega),
        show front.length+1+mid.length-front.length = mid.length+1 by omega,
        List.getElem?_cons_succ]
      simp
    by_cases hb : a.sharesEdge b = true
    · have hset : ((front ++ a :: (mid ++ b :: rest)).set front.length (a.united b)).eraseIdx
          (front.length+1+mid.length) = front ++ a.united b :: (mid ++ rest) := by
        rw [List.set_append_right _ _ (Nat.le_refl _), Nat.sub_self, List.set_cons_zero,
          List.eraseIdx_append_of_length_le (by omega),
          show front.length+1+mid.length-front.length = mid.length+1 by omega,
          List.eraseIdx_cons_succ, List.eraseIdx_append_of_length_le (Nat.le_refl _), Nat.sub_self,
          List.eraseIdx_cons_zero]
      have hle := length_absorb_le (a.united b) rest
      have hjoined : (joined || decide ((absorb a (b :: rest)).2.length < (b :: rest).length)) =
          (true || decide ((absorb (a.united b) rest).2.length < rest.length)) := by
        rw [absorb, if_pos hb, List.length_cons, decide_eq_true (by omega)]
        simp
      rw [hjoined, absorb, if_pos hb]
      apply Steps.step _ (ih (a.united b) mid true)
      simp only [step?, hi, hj, hb, if_true, hset]
    · have habsorb : absorb a (b :: rest) = ((absorb a rest).1,b :: (absorb a rest).2) := by
        rw [absorb, if_neg hb]
      have hstep := ih a (mid ++ [b]) joined
      rw [habsorb]
      simp only [List.append_assoc, List.singleton_append, List.length_append, List.length_cons,
        List.length_nil, Nat.zero_add, Nat.add_lt_add_iff_right] at hstep ⊢
      rw [show front.length+1+mid.length+((absorb a rest).2.length+1) =
        front.length+1+(mid.length+1)+(absorb a rest).2.length by omega]
      apply Steps.step _ hstep
      simp only [step?, hi, hj, hb, if_false, Bool.false_eq_true]
      rfl

theorem steps_pass (done : List Rect) (a : Rect) (rest : List Rect) :
    Steps (rest.length + 1) (start (done ++ a :: rest) done.length)
      (start (done ++ (absorb a rest).1 :: (absorb a rest).2)
        (if (absorb a rest).2.length < rest.length then 0 else done.length + 1)) := by
  have hpairs := steps_absorb done a [] rest false
  simp only [List.nil_append, List.length_nil, Nat.add_zero, Bool.false_or] at hpairs
  apply Steps.trans hpairs
  apply Steps.step _ (Steps.stay _)
  have hi : (done ++ (absorb a rest).1 :: (absorb a rest).2)[done.length]? =
      some (absorb a rest).1 := by simp
  have hj : (done ++ (absorb a rest).1 :: (absorb a rest).2)[done.length+1+
      (absorb a rest).2.length]? = none := by
    apply List.getElem?_eq_none
    simp only [List.length_append, List.length_cons]
    omega
  simp only [step?, hi, hj, decide_eq_true_eq]

theorem step?_start_length (l : List Rect) : (start l l.length).step? = none := by
  simp [step?, start]

theorem cube_add_square_le {k m : Nat} (h : k < m) : k^3+k*k ≤ m^3 :=
  calc k^3+k*k = k*k*(k+1) := by ring
    _ ≤ m*m*m := Nat.mul_le_mul (Nat.mul_le_mul h.le h.le) h
    _ = m^3 := by ring

/-- Pass after pass what is left is what joining leaves. A pass that joined something takes a
rectangle with it, which pays for the passes that start over. -/
theorem steps_joinFrom (done todo : List Rect) : ∃ n s,
    n ≤ (done.length+todo.length)^3+todo.length*(done.length+todo.length) ∧
      Steps n (start (done ++ todo) done.length) s ∧ s.step? = none ∧
      s.rects = joinFrom done todo := by
  induction done, todo using joinFrom.induct with
  | case1 done =>
    rw [List.append_nil, joinFrom]
    exact ⟨0,start done done.length,Nat.zero_le _,Steps.stay _,step?_start_length done,rfl⟩
  | case2 done a rest hlt ih =>
    obtain ⟨n,s,hn,hs,hend,hrects⟩ := ih
    have hpass := steps_pass done a rest
    rw [if_pos hlt] at hpass
    simp only [List.nil_append, List.length_nil, List.length_append, List.length_cons,
      Nat.zero_add] at hn hs
    rw [joinFrom, dif_pos hlt]
    refine ⟨rest.length+1+n,s,?_,hpass.trans hs,hend,hrects⟩
    have hless : done.length+((absorb a rest).2.length+1) ≤ done.length+rest.length := by omega
    generalize done.length+((absorb a rest).2.length+1) = k at hn hless
    have hcube : k^3+k*k ≤ (done.length+(rest.length+1))^3 :=
      cube_add_square_le (Nat.lt_succ_of_le hless)
    have hrest : rest.length+1 ≤ (rest.length+1)*(done.length+(rest.length+1)) :=
      Nat.le_mul_of_pos_right _ (by omega)
    rw [List.length_cons]
    omega
  | case3 done a rest hlt ih =>
    obtain ⟨n,s,hn,hs,hend,hrects⟩ := ih
    have habsorb := absorb_eq_self (sharesEdge_of_length_absorb hlt)
    have hpass := steps_pass done a rest
    rw [if_neg hlt, habsorb] at hpass
    simp only [List.append_assoc, List.singleton_append, List.length_append, List.length_cons,
      List.length_nil, Nat.zero_add] at hn hs
    rw [joinFrom, dif_neg hlt]
    refine ⟨rest.length+1+n,s,?_,hpass.trans hs,hend,hrects⟩
    have hrest := Nat.add_mul rest.length 1 (done.length+(rest.length+1))
    rw [Nat.add_assoc, Nat.add_comm 1] at hn
    rw [List.length_cons]
    omega

end Pass

/-- How joining a list goes: it ends, after at most as many steps as the cube of the length and its
square, with no more rectangles than there were. No two of them share a full edge, so that to join
them again changes nothing. -/
structure Joins (l : List Rect) : Prop where
  ends : ∃ n s, n ≤ l.length^3+l.length^2 ∧ Pass.Steps n (Pass.start l 0) s ∧ s.step? = none ∧
    s.rects = joinAdjacent l
  length_le : (joinAdjacent l).length ≤ l.length
  settled : Settled (joinAdjacent l)
  again : joinAdjacent (joinAdjacent l) = joinAdjacent l

theorem joins (l : List Rect) : Joins l where
  ends := by
    obtain ⟨n,s,hn,hs,hend,hrects⟩ := Pass.steps_joinFrom [] l
    rw [List.length_nil, Nat.zero_add, ← Nat.pow_two] at hn
    exact ⟨n,s,hn,hs,hend,hrects⟩
  length_le := by
    have hlength := length_joinFrom_le [] l
    rwa [List.length_nil, Nat.zero_add] at hlength
  settled := settled_joinAdjacent l
  again := joinFrom_of_settled (settled_joinAdjacent l)

/-- Every list is joined to its end. What is left shares no full edge, neither in the list nor in a
region to which something was added nor in one from which something was cut. -/
theorem joining_settles : (∀ l : List Rect, Joins l) ∧
    ∀ (g : Region) (r : Rect), r.isEmpty = false →
      (uncovered g.rects r ≠ [] → Settled (g.add r).rects) ∧
      (g.isEmpty = false → Settled (g.subtract r).rects) := by
  constructor
  · exact joins
  · intro g r hr
    exact ⟨fun hn => settled_add hr hn,fun hn => settled_subtract hr hn⟩

/-- A strip that lies across the hole in a square is added to the square or cut out of it. -/
theorem joining_settles_hollow :
    let g : Region := ⟨[⟨0,0,30,10⟩, ⟨0,20,30,10⟩, ⟨0,10,10,10⟩, ⟨20,10,10,10⟩]⟩
    let strip : Rect := ⟨5,15,40,3⟩
    strip.isEmpty = false ∧ uncovered g.rects strip ≠ [] ∧ Settled (g.add strip).rects ∧
      g.isEmpty = false ∧ Settled (g.subtract strip).rects := by
  intro g strip
  have hstrip : strip.isEmpty = false := by decide
  have hn : uncovered g.rects strip ≠ [] := by decide
  have hg : g.isEmpty = false := by decide
  obtain ⟨hadd,hsubtract⟩ := joining_settles.2 g strip hstrip
  exact ⟨hstrip,hn,hadd hn,hg,hsubtract hg⟩

end Region

end InkCompositor
