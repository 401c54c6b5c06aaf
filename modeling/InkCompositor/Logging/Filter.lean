import InkCompositor.Logging.Level
import InkCompositor.Logging.Pattern

/-!
# Log filters

A filter says which lines are written, by their level and by the part of the
program they come from. Its text is a list of items with commas between them,
each a level, the beginning of a part's name, or both. Between the two there
may be a scope in brackets, with the name of a field and a value for it. Lines
are never inside a scope, and `message` is the only field they have.

White space around an item is passed over when its parts are looked for. The
places of the parts are then counted in bytes from the first character that is
no white space, but the parts are cut out of the whole item.
-/

set_option autoImplicit false

namespace InkCompositor

/-- Lines from parts whose name begins with `target`, with the field if one is
named, need at least the level `least`; without one no line will do. -/
structure FilterRule where
  target : String
  field : Option String
  least : Option Level
  deriving DecidableEq, Repr

/-- Later rules take the place of earlier ones about the same lines. -/
abbrev LogFilter := List FilterRule

inductive FilterFault where
  | unreadable
  /-- A part of it would begin or end inside a character. The program does not
  survive that. -/
  | torn
  deriving DecidableEq, Repr

namespace FilterRule

def sizeOf (cs : List Char) : Nat := cs.foldr (fun c n => c.utf8Size + n) 0

def splitBytes : Nat → List Char → Except FilterFault (List Char × List Char)
  | 0, cs => .ok ([], cs)
  | _ + 1, [] => .ok ([], [])
  | n + 1, c :: cs =>
    if c.utf8Size ≤ n + 1 then
      (splitBytes (n + 1 - c.utf8Size) cs).map fun (before, behind) => (c :: before, behind)
    else .error .torn

def cut (cs : List Char) (start stop : Nat) : Except FilterFault (List Char) := do
  let (_, behind) ← splitBytes start cs
  let (part, _) ← splitBytes (stop - start) behind
  return part

def threshold? (text : List Char) : Option (Option Level) :=
  let digits := match text with
    | '+' :: digits => digits
    | digits => digits
  if !digits.isEmpty && digits.all Char.isDigit then
    [none, some Level.error, some .warn, some .info, some .debug, some .trace][
      digits.foldl (fun n c => n * 10 + (c.toNat - 48)) 0]?
  else
    [("off", none), ("error", some .error), ("warn", some .warn), ("info", some .info),
      ("debug", some .debug), ("trace", some .trace)].lookup (.ofList (text.map Char.toLower))

def levelBehind (item : List Char) (start : Nat) (behind : List Char) :
    Except FilterFault (Option Level) :=
  match behind with
  | [] => .ok (some .trace)
  | '=' :: _ => do
    let (_, text) ← splitBytes (start + 1) item
    if text.isEmpty then return some .trace
    else (threshold? text).elim (.error .unreadable) .ok
  | _ => .error .unreadable

def isMantissa (cs : List Char) : Bool :=
  let (whole, behind) := cs.span Char.isDigit
  match behind with
  | [] => !whole.isEmpty
  | '.' :: fraction => fraction.all Char.isDigit && !(whole.isEmpty && fraction.isEmpty)
  | _ => false

def isNumber (cs : List Char) : Bool :=
  let cs := cs.map Char.toLower
  let (mantissa, behind) := cs.span (· != 'e')
  ["inf", "infinity", "nan"].contains (.ofList cs) ||
    (isMantissa mantissa && match behind with
      | [] => true
      | _ :: '+' :: digits | _ :: '-' :: digits | _ :: digits =>
        !digits.isEmpty && digits.all Char.isDigit)

/-- Whether a value can be looked for: a number, or a pattern. A sign before a
number is more than a pattern allows; everything else that is a value of some
kind is a pattern, too. -/
def isValue (cs : List Char) : Bool :=
  (cs.head? == some '+' && isNumber (cs.drop 1)) || Pattern.isPattern cs

def fieldOf (cs : List Char) : Except FilterFault (String × Bool) :=
  let (name, behind) := cs.span (· != '=')
  if cs.isEmpty then .error .unreadable
  else
    match behind with
    | [] => .ok (.ofList name, false)
    | _ :: value =>
      if isValue (value.takeWhile (· != '=')) then .ok (.ofList name, true)
      else .error .unreadable

/-- What a scope and the level behind it say of lines from the parts `target`;
`rest` is what is there at `start`, behind the opening bracket. A named scope
is nothing that a line could be in, and values are only looked for in
scopes. -/
def ofScope (item : List Char) (target : String) (start : Nat) (rest : List Char) :
    Except FilterFault (List FilterRule) :=
  let (name, behind) := rest.span fun c => c != ']' && c != '\x7b'
  let stop := start + sizeOf name
  match behind with
  | [] => .error .unreadable
  | ']' :: behind => do
    let _ ← cut item start stop
    let _ ← levelBehind item (stop + 1) behind
    return []
  | _ :: rest => do
    let scope ← cut item start stop
    let (inside, behind) := rest.span (· != '\x7d')
    match behind with
    | [] => throw .unreadable
    | _ :: behind =>
      let (name, hasValue) ← fieldOf (← cut item (stop + 1) (stop + 1 + sizeOf inside))
      match behind with
      | ']' :: behind =>
        let least ← levelBehind item (stop + 3 + sizeOf inside) behind
        return if scope.isEmpty && !hasValue then [⟨target, some name, least⟩] else []
      | _ => throw .unreadable

def isStart (c : Char) : Bool := c == '_' || c == ':' || c == '-' || Text.isAlphanumeric c

def trimmed (cs : List Char) : List Char :=
  ((cs.dropWhile Text.isWhiteSpace).reverse.dropWhile Text.isWhiteSpace).reverse

/-- The rules that an item of a filter's text stands for. A name without a
level lets every line pass. -/
def ofItem (item : String) : Except FilterFault (List FilterRule) :=
  let cs := item.toList
  match trimmed cs with
  | [] => .error .unreadable
  | '[' :: rest => ofScope cs "" 1 rest
  | c :: rest =>
    let (name, behind) := (c :: rest).span fun c => c != '=' && c != '['
    if !isStart c then .error .unreadable
    else
      match behind with
      | [] => .ok [match threshold? cs with
        | some least => ⟨"", none, least⟩
        | none => ⟨item, none, some .trace⟩]
      | '[' :: rest => do
        let target ← cut cs 0 (sizeOf name)
        ofScope cs (.ofList target) (sizeOf name + 1) rest
      | behind => do
        let target ← cut cs 0 (sizeOf name)
        let least ← levelBehind cs (sizeOf name) behind
        return [⟨.ofList target, none, least⟩]

def covers (r : FilterRule) (part : String) : Bool :=
  part.startsWith r.target && r.field.all (· == "message")

def atLeastAsClose (r s : FilterRule) : Bool :=
  decide (s.target.utf8ByteSize < r.target.utf8ByteSize) ||
    (s.target.utf8ByteSize == r.target.utf8ByteSize && (r.field.isSome || s.field.isNone))

end FilterRule

namespace LogFilter

def atLeast (l : Level) : LogFilter := [⟨"", none, some l⟩]

def ofText (text : String) : Except FilterFault LogFilter :=
  (((text.splitOn ",").filter (· != "")).mapM FilterRule.ofItem).map List.flatten

/-- Of the rules for a part of the program the one with the longest target,
and of these the one that names a field. -/
def ruleFor? (filter : LogFilter) (part : String) : Option FilterRule :=
  (filter.filter (·.covers part)).foldl (fun best r =>
    match best with
    | some b => if r.atLeastAsClose b then some r else best
    | none => some r) none

def passes (filter : LogFilter) (part : String) (l : Level) : Bool :=
  match filter.ruleFor? part with
  | some ⟨_, _, some least⟩ => least.rank ≤ l.rank
  | _ => false

end LogFilter

end InkCompositor
