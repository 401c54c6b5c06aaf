import Mathlib
import InkCompositor.Files.Tree

/-!
# Directories that are made are there

A directory is made where there was nothing, so whatever could be found is
found as before. Once a directory is made there is one under its path, and to
see to it a second time changes nothing.
-/

set_option autoImplicit false

namespace InkCompositor.FileTree

variable {t u : FileTree}

theorem walk_append (l : Location) (front rest : List String) :
    t.walk l (front ++ rest) = (t.walk l front).bind fun m => t.walk m rest := by
  induction front generalizing l with
  | nil => rfl
  | cons name front ih =>
    rw [List.cons_append, walk, walk]
    split
    · rfl
    split
    · exact ih l
    split
    · exact ih l.dropLast
    split
    · rfl
    split
    · rfl
    · exact ih (l ++ [name])

theorem walk_blank {l : Location} (h : t.isDirectoryAt l = true) {names : List String}
    (hn : ∀ name ∈ names, name = "") : t.walk l names = .ok l := by
  induction names with
  | nil => rfl
  | cons name names ih =>
    have hblank : name = "" ∨ name = "." := .inl (hn name List.mem_cons_self)
    rw [walk, if_neg (by simp [h]), if_pos hblank]
    exact ih fun m hm => hn m (List.mem_cons_of_mem _ hm)

section

variable {l : Location} (hl : t.node? l = none) (n : FileNode)
include hl

theorem node?_put_of_some {m : Location} {k : FileNode} (h : t.node? m = some k) :
    (t.put l n).node? m = some k := by
  have hne : m ≠ l := by
    rintro rfl
    rw [hl] at h
    cases h
  rw [put]
  exact (if_neg hne).trans h

theorem isDirectoryAt_put {m : Location} (h : t.isDirectoryAt m = true) :
    (t.put l n).isDirectoryAt m = true := by
  cases m with
  | nil => rfl
  | cons name m =>
    unfold isDirectoryAt at h ⊢
    split at h
    · rename_i he
      cases he
    · rename_i hd _
      rw [node?_put_of_some hl n hd]
    · cases h

theorem walk_put {names : List String} {m k : Location} (h : t.walk m names = .ok k) :
    (t.put l n).walk m names = .ok k := by
  induction names generalizing m with
  | nil => exact h
  | cons name names ih =>
    rw [walk] at h ⊢
    split at h
    · cases h
    rename_i hd
    rw [if_neg (by simpa using isDirectoryAt_put hl n (by simpa using hd))]
    split at h
    · rename_i hb
      rw [if_pos hb]
      exact ih h
    rename_i hb
    rw [if_neg hb]
    split at h
    · rename_i hup
      rw [if_pos hup]
      exact ih h
    rename_i hup
    rw [if_neg hup]
    split at h
    · cases h
    rename_i hlong
    rw [if_neg hlong]
    split at h
    · cases h
    rename_i hnode
    obtain ⟨k, hk⟩ := Option.ne_none_iff_exists'.1 (by simpa using hnode)
    rw [if_neg (by simp [node?_put_of_some hl n hk])]
    exact ih h

end

/-- A name is vacant if it is the last but for slashes, and the way to it leads to a directory
without it. -/
structure Vacant (t : FileTree) (path : String) (l : Location) (last : String) : Prop where
  well_formed : malformed? path = none
  names : ∃ before blank, Path.names path = before ++ last :: blank ∧
    (∀ name ∈ blank, name = "") ∧ t.walk (t.origin path) before = .ok l
  directory : t.isDirectoryAt l = true
  named : last ≠ "" ∧ last ≠ "." ∧ last ≠ ".." ∧ last.utf8ByteSize ≤ nameLimit
  free : t.node? (l ++ [last]) = none

theorem vacant_of_vacancy {path : String} {l : Location} {last : String}
    (h : t.vacancy path = .ok (l,last)) : t.Vacant path l last := by
  unfold vacancy at h
  split at h
  · cases h
  rename_i hwell
  split at h
  · cases h
  rename_i name before hnames
  have hsplit := List.takeWhile_append_dropWhile (p := (· == "")) (l := (Path.names path).reverse)
  rw [hnames] at hsplit
  have hne : name ≠ "" := by
    have hhead := List.head?_dropWhile_not (· == "") (Path.names path).reverse
    rw [hnames] at hhead
    simpa using hhead
  generalize hb : (Path.names path).reverse.takeWhile (· == "") = blank at hsplit
  have hblank : ∀ m ∈ blank, m = "" := fun m hm => by
    have hall := List.all_takeWhile (p := (· == "")) (l := (Path.names path).reverse)
    rw [hb] at hall
    simpa using List.all_eq_true.1 hall m hm
  have hpath : Path.names path = before.reverse ++ name :: blank.reverse := by
    rw [← List.reverse_reverse (Path.names path), ← hsplit]
    simp
  cases hw : t.walk (t.origin path) before.reverse with
  | error e =>
    rw [hw] at h
    cases h
  | ok m =>
    simp only [hw, bind, Except.bind, pure, Except.pure, throw, throwThe, MonadExceptOf.throw] at h
    split at h
    · cases h
    split at h
    · cases h
    split at h
    · cases h
    split at h
    · cases h
    split at h
    · cases h
    rename_i hdir hdot hlong hnode hsealed
    obtain ⟨rfl,rfl⟩ := Prod.mk.inj (Except.ok.inj h)
    exact {
      well_formed := hwell
      names := ⟨before.reverse,blank.reverse,hpath,by simpa using hblank,hw⟩
      directory := by simpa using hdir
      named := ⟨hne,fun he => hdot (.inl he),fun he => hdot (.inr he),Nat.le_of_not_lt hlong⟩
      free := by simpa using hnode }

theorem isDirectoryAt_put_self (l : Location) : (t.put l .directory).isDirectoryAt l = true := by
  have hthere : (t.put l .directory).node? l = some .directory := by simp [put]
  unfold isDirectoryAt
  split
  · rfl
  · rfl
  · rename_i hno
    exact absurd hthere hno

theorem find_put {path : String} {l : Location} {last : String} (h : t.Vacant path l last) :
    (t.put (l ++ [last]) .directory).find path = .ok (l ++ [last]) := by
  obtain ⟨before,blank,hnames,hblank,hwalk⟩ := h.names
  obtain ⟨hempty,hdot,hup,hlong⟩ := h.named
  have hthere : (t.put (l ++ [last]) .directory).node? (l ++ [last]) = some .directory := by
    simp [put]
  have hlast : (t.put (l ++ [last]) .directory).walk l (last :: blank) = .ok (l ++ [last]) := by
    rw [walk, if_neg (by simp [isDirectoryAt_put h.free .directory h.directory]),
      if_neg (by simp [hempty, hdot]), if_neg hup, if_neg (Nat.not_lt.2 hlong),
      if_neg (by simp [hthere])]
    exact walk_blank (isDirectoryAt_put_self _) hblank
  rw [find, h.well_formed, hnames]
  change (t.put (l ++ [last]) .directory).walk (t.origin path) (before ++ last :: blank) = _
  rw [walk_append, walk_put h.free .directory hwalk]
  exact hlast

theorem isDirectory_make {path : String} (h : t.make path = .ok u) : u.isDirectory path = true := by
  unfold make at h
  cases hv : t.vacancy path with
  | error e =>
    rw [hv] at h
    cases h
  | ok p =>
    rw [hv] at h
    obtain rfl := Except.ok.inj h
    rw [isDirectory, find_put (vacant_of_vacancy hv)]
    exact isDirectoryAt_put_self _

theorem isDirectory_makeAll {path : String} {above : List String} (hp : path ≠ "")
    (h : makeAll (path :: above) t = (u,true)) : u.isDirectory path = true := by
  rw [makeAll, if_neg hp] at h
  split at h
  · rename_i hmade
    obtain ⟨rfl,-⟩ := Prod.mk.inj h
    exact isDirectory_make hmade
  · split at h
    · cases h
    · split at h
      · rename_i hmade
        obtain ⟨rfl,-⟩ := Prod.mk.inj h
        exact isDirectory_make hmade
      · obtain ⟨rfl,hd⟩ := Prod.mk.inj h
        exact hd
  · obtain ⟨rfl,hd⟩ := Prod.mk.inj h
    exact hd

/-- Once a directory has been seen to, it is there. -/
theorem isDirectory_ensureDirectory {path : String} (hp : path ≠ "")
    (h : t.ensureDirectory path = (u,none)) : u.isDirectory path = true := by
  unfold ensureDirectory at h
  split at h
  · split at h
    · rename_i hd
      obtain ⟨rfl,-⟩ := Prod.mk.inj h
      exact hd
    · cases h
  · split at h
    · rename_i hmade
      obtain ⟨rfl,-⟩ := Prod.mk.inj h
      have hancestors : Path.ancestors path = path :: (Path.ancestors path).tail := by
        rw [Path.ancestors, Path.ancestorsOf]
        simp
      rw [hancestors] at hmade
      exact isDirectory_makeAll hp hmade
    · cases h

theorem holds_of_isDirectory {path : String} (h : t.isDirectory path = true) :
    t.holds path = true := by
  unfold isDirectory at h
  unfold holds
  split at h
  · rename_i hf
    rw [hf]
    rfl
  · cases h

theorem holds_ensureDirectory {path : String} (hp : path ≠ "")
    (h : t.ensureDirectory path = (u,none)) : u.holds path = true :=
  holds_of_isDirectory (isDirectory_ensureDirectory hp h)

end InkCompositor.FileTree
