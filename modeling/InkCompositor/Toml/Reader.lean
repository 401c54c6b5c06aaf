/-!
# Reading from the front of a text

A reader takes a value from the front of a text and leaves the rest, or finds
none. Also here are the parts of a TOML text that mean nothing: blanks,
comments and the ends of lines.
-/

set_option autoImplicit false

namespace InkCompositor.Toml

abbrev Reader (α : Type) := List Char → Option (α × List Char)

namespace Reader

variable {α : Type}

def upTo (r : Reader α) : Nat → List Char → List α × List Char
  | 0, cs => ([], cs)
  | fuel + 1, cs =>
    match r cs with
    | none => ([], cs)
    | some (a, rest) =>
      let (more, rest) := upTo r fuel rest
      (a :: more, rest)

def many (r : Reader α) (cs : List Char) : List α × List Char := r.upTo cs.length cs

def separated (r : Reader α) (cs : List Char) : List α × List Char :=
  match r cs with
  | none => ([], cs)
  | some (a, rest) =>
    let (more, rest) := many (fun cs =>
      match cs with
      | ',' :: rest => r rest
      | _ => none) rest
    (a :: more, rest)

def char (accept : Char → Bool) : Reader Char
  | c :: rest => if accept c then some (c, rest) else none
  | [] => none

def or (r s : Reader α) : Reader α := fun cs => (r cs).or (s cs)

end Reader

def isBlank (c : Char) : Bool := c == ' ' || c == '\t'

/-- Any character but the control characters; a tab is allowed too. -/
def isText (c : Char) : Bool := c == '\t' || (decide (32 ≤ c.toNat) && c.toNat != 127)

def skipBlanks (cs : List Char) : List Char := cs.dropWhile isBlank

def newline? : List Char → Option (List Char)
  | '\n' :: rest => some rest
  | '\r' :: '\n' :: rest => some rest
  | _ => none

def skipComment : List Char → List Char
  | '#' :: rest => rest.dropWhile isText
  | cs => cs

/-- The next line, if nothing but blanks and a comment comes before it. -/
def nextLine? (cs : List Char) : Option (List Char) :=
  match skipComment (skipBlanks cs) with
  | [] => some []
  | cs => newline? cs

def white : Reader Unit := fun cs =>
  match newline? cs with
  | some rest => some ((), rest)
  | none => (Reader.char isBlank cs).map fun p => ((), p.2)

def skipWhite (cs : List Char) : List Char := (Reader.many white cs).2

/-- The text behind blanks, comments and ends of lines. -/
def skipGap (cs : List Char) : List Char :=
  (Reader.many (white.or fun cs =>
    match cs with
    | '#' :: rest => some ((), rest.dropWhile isText)
    | _ => none) cs).2

def digitValue? (base : Nat) (c : Char) : Option Nat :=
  let n := c.toNat
  let value? := if 48 ≤ n ∧ n < 58 then some (n - 48)
    else if 97 ≤ n ∧ n < 123 then some (n - 87)
    else if 65 ≤ n ∧ n < 91 then some (n - 55)
    else none
  value?.filter (· < base)

def isDigit (base : Nat) (c : Char) : Bool := (digitValue? base c).isSome

def ofDigits (base : Nat) (digits : List Char) : Nat :=
  digits.foldl (fun n c => n * base + (digitValue? base c).getD 0) 0

end InkCompositor.Toml
