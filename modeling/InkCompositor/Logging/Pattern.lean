import InkCompositor.Text.Alphanumeric
import InkCompositor.Text.Blank

/-!
# Patterns

Which texts are regular expressions that a filter understands. Characters are
told apart by number alone: classes that need properties of characters, and
the matching of letters in any case, are only there for ASCII, which a group
asks for by turning the flag `u` off. Nothing may then match a part of a
character, so that ASCII classes have no complements. The places between words
are known for ASCII alone as well. There are no counted repetitions, because
the braces around a count end a field of a filter.
-/

set_option autoImplicit false

namespace InkCompositor.Pattern

structure Flags where
  /-- Letters match in any case. -/
  anyCase : Bool
  /-- Characters are those of Unicode. -/
  unicode : Bool
  /-- White space and comments in the pattern mean nothing. -/
  spaced : Bool

namespace Flags

def fresh : Flags := ⟨false, true, false⟩

def letters : List Char := ['i', 'm', 's', 'U', 'u', 'R', 'x']

def put (f : Flags) (letter : Char) (value : Bool) : Flags :=
  match letter with
  | 'i' => { f with anyCase := value }
  | 'u' => { f with unicode := value }
  | 'x' => { f with spaced := value }
  | _ => f

/-- Without what means nothing. The first argument bounds the number of
comments. -/
def skip (f : Flags) : Nat → List Char → List Char
  | 0, cs => cs
  | fuel + 1, cs =>
    if f.spaced then
      match cs.dropWhile Text.isWhiteSpace with
      | '#' :: rest => skip f fuel ((rest.dropWhile (· != '\n')).drop 1)
      | rest => rest
    else cs

def next (f : Flags) (cs : List Char) : List Char := f.skip cs.length cs

end Flags

inductive Atom where
  /-- A character; a number of two digits may name a byte instead. -/
  | literal (c : Char) (mayBeByte : Bool)
  /-- A class of ASCII characters, or its complement. -/
  | named (complement : Bool)
  /-- The beginning or the end of the text. -/
  | anchor
  /-- A place between words. -/
  | boundary

def isEscapable (c : Char) : Bool :=
  decide (c.toNat < 128) && !c.isAlphanum && c != '<' && c != '>'

def hexadecimal? (f : Flags) : Nat → Nat → List Char → Option (Nat × List Char)
  | 0, value, cs => some (value, cs)
  | n + 1, value, cs =>
    match f.next cs with
    | [] => none
    | c :: rest =>
      if c.isDigit then hexadecimal? f n (value * 16 + (c.toNat - 48)) rest
      else if 'a' ≤ c.toLower ∧ c.toLower ≤ 'f' then
        hexadecimal? f n (value * 16 + (c.toLower.toNat - 87)) rest
      else none

def numbered? (f : Flags) (digits : Nat) (cs : List Char) : Option (Atom × List Char) :=
  (hexadecimal? f digits 0 cs).bind fun (value, rest) =>
    if value.isValidChar then some (.literal (.ofNat value) (digits == 2), rest) else none

def escaped? (f : Flags) : List Char → Option (Atom × List Char)
  | [] => none
  | c :: rest =>
    if isEscapable c then some (.literal c false, rest)
    else
      match c with
      | 'x' => numbered? f 2 rest
      | 'u' => numbered? f 4 rest
      | 'U' => numbered? f 8 rest
      | 'd' | 's' | 'w' => some (.named false, rest)
      | 'D' | 'S' | 'W' => some (.named true, rest)
      | 'a' => some (.literal '\x07' false, rest)
      | 't' => some (.literal '\t' false, rest)
      | 'n' => some (.literal '\n' false, rest)
      | 'v' => some (.literal '\x0b' false, rest)
      | 'f' => some (.literal '\x0c' false, rest)
      | 'r' => some (.literal '\r' false, rest)
      | 'A' | 'z' => some (.anchor, rest)
      | 'b' => if rest.head? = some '\x7b' then none else some (.boundary, rest)
      | 'B' | '<' | '>' => some (.boundary, rest)
      | _ => none

def Atom.isUsable (a : Atom) (f : Flags) : Bool :=
  match a with
  | .literal c mayBeByte =>
    if f.unicode then !f.anyCase else !mayBeByte || decide (c.toNat < 128 ∨ 255 < c.toNat)
  | .named complement => !f.unicode && !complement
  | .anchor => true
  | .boundary => !f.unicode

def Atom.isMember (a : Atom) (f : Flags) : Bool :=
  match a with
  | .literal c _ => f.unicode || decide (c.toNat < 128)
  | .named complement => !f.unicode && !complement
  | .anchor | .boundary => false

def member? (f : Flags) : List Char → Option (Atom × List Char)
  | [] => none
  | '\\' :: rest => (escaped? f rest).filter (·.1.isMember f)
  | c :: rest => some (Atom.literal c false, rest) |>.filter (·.1.isMember f)

def members? (f : Flags) (cs : List Char) : Option (List Char) :=
  (member? f cs).bind fun (first, rest) =>
    match f.next rest with
    | '-' :: more =>
      match f.next more with
      | ']' :: _ | '-' :: _ => some ('-' :: more)
      | more =>
        (member? f more).bind fun (last, rest) =>
          match first, last with
          | .literal a _, .literal b _ => if a ≤ b then some rest else none
          | _, _ => none
    | rest => some rest

def classNames : List String :=
  ["alnum", "alpha", "ascii", "blank", "cntrl", "digit", "graph", "lower", "print", "punct",
   "space", "upper", "word", "xdigit"]

/-- A class known by a name, of which the opening bracket is read: whether it
is a complement, and the rest. -/
def namedClass? : List Char → Option (Bool × List Char)
  | ':' :: cs =>
    let complement := cs.head? == some '^'
    let cs := if complement then cs.drop 1 else cs
    let name := cs.takeWhile (· != ':')
    match cs.drop name.length with
    | ':' :: ']' :: rest =>
      if classNames.contains (.ofList name) then some (complement, rest) else none
    | _ => none
  | _ => none

/-- The rest of a class behind its opening bracket and what has to stand there:
a sign for the complement, dashes, or a closing bracket that is a member. -/
def opened? (f : Flags) (cs : List Char) : Option (List Char) :=
  let cs := f.next cs
  let complement := cs.head? == some '^'
  let cs := if complement then f.next (cs.drop 1) else cs
  if complement && !f.unicode then none
  else
    match dashes cs.length cs with
    | (false, ']' :: rest) => some rest
    | (_, rest) => some rest
where
  dashes : Nat → List Char → Bool × List Char
    | fuel + 1, '-' :: rest => (true, (dashes fuel (f.next rest)).2)
    | _, cs => (false, cs)

/-- The rest behind the end of a class that is `depth + 1` classes deep. -/
def classEnd? (f : Flags) : Nat → Nat → List Char → Option (List Char)
  | 0, _, _ => none
  | fuel + 1, depth, cs =>
    match f.next cs with
    | [] => none
    | '[' :: rest =>
      match namedClass? rest with
      | some (complement, rest) =>
        if complement && !f.unicode then none else classEnd? f fuel depth rest
      | none => (opened? f rest).bind (classEnd? f fuel (depth + 1))
    | ']' :: rest =>
      match depth with
      | 0 => some rest
      | depth + 1 => classEnd? f fuel depth rest
    | '&' :: '&' :: rest | '-' :: '-' :: rest | '~' :: '~' :: rest => classEnd? f fuel depth rest
    | cs => (members? f cs).bind (classEnd? f fuel depth)

def class? (f : Flags) (cs : List Char) : Option (List Char) :=
  if f.unicode && f.anyCase then none
  else (opened? f cs).bind (classEnd? f cs.length 0)

inductive Opening where
  /-- The flags of the group, and its name if it has one. -/
  | group (flags : Flags) (name : Option (List Char))
  /-- Flags for the rest of the group around. -/
  | setting (flags : Flags)

def flags? (read : List Char) (f : Flags) : List Char → Option (Opening × List Char)
  | [] => none
  | c :: rest =>
    if c = ':' ∨ c = ')' then
      if read.getLast? = some '-' ∨ (c = ')' ∧ read.isEmpty) then none
      else some (if c = ':' then .group f none else .setting f, rest)
    else if read.contains c || !(c == '-' || Flags.letters.contains c) then none
    else flags? (read ++ [c]) (f.put c (!read.contains '-')) rest

def isNameStart (c : Char) : Bool := c == '_' || Text.isAlphabetic c

def isNamePart (c : Char) : Bool :=
  c == '_' || c == '.' || c == '[' || c == ']' || Text.isAlphanumeric c

def name? (f : Flags) (cs : List Char) : Option (Opening × List Char) :=
  let name := cs.takeWhile (· != '>')
  match cs.drop name.length with
  | '>' :: rest =>
    if name.head?.any isNameStart && name.all isNamePart then some (.group f (some name), rest)
    else none
  | _ => none

def opening? (f : Flags) (cs : List Char) : Option (Opening × List Char) :=
  match f.next cs with
  | '?' :: 'P' :: '<' :: rest | '?' :: '<' :: rest => name? f rest
  | '?' :: rest => flags? [] f rest
  | rest => some (.group f none, rest)

/-- Whether the rest of a pattern is in order. `around` holds the flags outside
the groups that are open, `names` the names of groups, and `operand` says
whether there is something to repeat. -/
def isRest : Nat → List Flags → List (List Char) → Flags → Bool → List Char → Bool
  | 0, _, _, _, _, _ => false
  | fuel + 1, around, names, f, operand, cs =>
    match f.next cs with
    | [] => around.isEmpty
    | '(' :: rest =>
      match opening? f rest with
      | none => false
      | some (.setting f, rest) => isRest fuel around names f false rest
      | some (.group g none, rest) => isRest fuel (f :: around) names g false rest
      | some (.group g (some name), rest) =>
        !names.contains name && isRest fuel (f :: around) (name :: names) g false rest
    | ')' :: rest =>
      match around with
      | [] => false
      | f :: around => isRest fuel around names f true rest
    | '|' :: rest => isRest fuel around names f false rest
    | '[' :: rest => (class? f rest).any (isRest fuel around names f true)
    | '?' :: rest | '*' :: rest | '+' :: rest =>
      let rest := if rest.head? = some '?' then rest.drop 1 else rest
      operand && isRest fuel around names f true rest
    | '\x7b' :: _ => false
    | '\\' :: rest =>
      (escaped? f rest).any fun (atom, rest) =>
        atom.isUsable f && isRest fuel around names f true rest
    | '.' :: rest => f.unicode && isRest fuel around names f true rest
    | '^' :: rest | '$' :: rest => isRest fuel around names f true rest
    | c :: rest => (Atom.literal c false).isUsable f && isRest fuel around names f true rest

def isPattern (cs : List Char) : Bool := isRest (cs.length + 1) [] [] .fresh false cs

end InkCompositor.Pattern
