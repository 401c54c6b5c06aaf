/-!
# Paths

A path is names with slashes between them. Slashes in a row count as one, and
a dot stands for nothing unless the path begins with it.
-/

set_option autoImplicit false

namespace InkCompositor.Path

/-- What stands before the names: the slash of a path from the root, or the
dot of one that begins with a dot. -/
def start : List Char → List Char
  | '/' :: _ => ['/']
  | ['.'] => ['.']
  | '.' :: '/' :: _ => ['.']
  | _ => []

def trim : List Char → List Char
  | '/' :: rest => trim rest
  | ['.'] => []
  | '.' :: '/' :: rest => trim rest
  | cs => cs

/-- The names, written backwards, without what stands before them. -/
def body (cs : List Char) : List Char := trim (cs.drop (start cs).length).reverse

def parentChars? (cs : List Char) : Option (List Char) :=
  match body cs with
  | [] => if start cs = ['.'] then some [] else none
  | b => some (start cs ++ (trim ((b.dropWhile (· != '/')).drop 1)).reverse)

theorem length_trim_le (cs : List Char) : (trim cs).length ≤ cs.length := by
  fun_induction trim cs <;> simp_all <;> omega

theorem length_start_le (cs : List Char) : (start cs).length ≤ cs.length := by
  unfold start
  split <;> simp

theorem length_parentChars?_lt {cs p : List Char} (h : parentChars? cs = some p) :
    p.length < cs.length := by
  unfold parentChars? at h
  have hs := length_start_le cs
  split at h
  · split at h
    · next heq =>
      obtain rfl := Option.some.inj h
      rw [heq] at hs
      exact hs
    · contradiction
  · next hb =>
    obtain rfl := Option.some.inj h
    have hpos : 0 < (body cs).length := List.length_pos_iff.2 hb
    have hbody : (body cs).length ≤ cs.length - (start cs).length := by
      simpa [body] using length_trim_le (cs.drop (start cs).length).reverse
    have htrim := length_trim_le (((body cs).dropWhile (· != '/')).drop 1)
    have hdrop := (List.dropWhile_sublist (· != '/') (l := body cs)).length_le
    simp only [List.length_append, List.length_reverse, List.length_drop] at htrim ⊢
    omega

def parent? (path : String) : Option String := (parentChars? path.toList).map .ofList

/-- The last name, unless it leads upwards. -/
def fileName? (path : String) : Option String :=
  match (body path.toList).takeWhile (· != '/') with
  | [] | ['.', '.'] => none
  | name => some (.ofList name.reverse)

def ancestorsOf (cs : List Char) : List String :=
  .ofList cs :: match _h : parentChars? cs with
    | some p => ancestorsOf p
    | none => []
termination_by cs.length
decreasing_by exact length_parentChars?_lt _h

def ancestors (path : String) : List String := ancestorsOf path.toList

def pieces : List Char → List (List Char)
  | [] => [[]]
  | c :: rest =>
    if c = '/' then [] :: pieces rest
    else
      match pieces rest with
      | piece :: more => (c :: piece) :: more
      | [] => [[c]]

def names (path : String) : List String := (pieces path.toList).map .ofList

end InkCompositor.Path
