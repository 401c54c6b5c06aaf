import InkCompositor.Toml.Quoted
import InkCompositor.Toml.Scalar
import InkCompositor.Toml.Table

/-!
# TOML documents

A document is a sequence of statements, one a line: headers, and keys with
their values. Values nest in brackets and braces; nesting, and the length of
a dotted key, are limited.
-/

set_option autoImplicit false

namespace InkCompositor.Toml

def isBare (c : Char) : Bool := c.isAlphanum || c == '_' || c == '-'

def keyPart : Reader String := fun cs =>
  let cs := skipBlanks cs
  let found := match cs.takeWhile isBare with
    | [] => shortString cs
    | bare => some (.ofList bare, cs.dropWhile isBare)
  found.map fun (key, rest) => (key, skipBlanks rest)

/-- From this length on dotted keys and nested values are refused. -/
def depthLimit : Nat := 80

def key : Reader (List String) := fun cs =>
  (keyPart cs).bind fun (first, rest) =>
    let (more, rest) := Reader.many (fun cs =>
      match cs with
      | '.' :: rest => keyPart rest
      | _ => none) rest
    if depthLimit ≤ (first :: more).length then none else some (first :: more, rest)

def assignment (value : Reader Value) : Reader (List String × Value) := fun cs =>
  (key cs).bind fun (path, rest) =>
    match rest with
    | '=' :: rest => (value (skipBlanks rest)).map fun (v, rest) => ((path, v), rest)
    | _ => none

/-- What is behind an opening bracket. A comma may stand behind the last
element. -/
def array (value : Reader Value) : Reader Value := fun cs =>
  let element : Reader Value := fun cs =>
    (value (skipGap cs)).map fun (v, rest) => (v, skipGap rest)
  let (elements, rest) := element.separated cs
  let rest := match elements, rest with
    | _ :: _, ',' :: rest => rest
    | _, rest => rest
  match skipGap rest with
  | ']' :: rest => some (.array elements, rest)
  | _ => none

def braces (value : Reader Value) : Reader Value := fun cs =>
  let entry : Reader (List String × Value) := fun cs =>
    (assignment value cs).map fun (e, rest) => (e, skipBlanks rest)
  let (entries, rest) := entry.separated cs
  match skipBlanks rest with
  | '}' :: rest =>
    (entries.foldlM (fun (table : Entries) e => table.assign e.2 e.1) []).map fun table =>
      (.table .braces table, rest)
  | _ => none

def value (depth : Nat) : Reader Value
  | '[' :: rest =>
    match depth with
    | 0 => none
    | depth + 1 => array (value depth) rest
  | '\x7b' :: rest =>
    match depth with
    | 0 => none
    | depth + 1 => braces (value depth) rest
  | cs => Reader.or (fun cs => (string cs).map fun (s, rest) => (.string s, rest)) scalar cs

inductive Statement where
  | header (path : List String)
  /-- A header for one more table of an array. -/
  | elementHeader (path : List String)
  | assign (path : List String) (v : Value)

def statement : Reader Statement
  | '[' :: '[' :: rest => do
    let (path, rest) ← key rest
    let rest ← [']', ']'].isPrefixOf? rest
    return (.elementHeader path, rest)
  | '[' :: rest => do
    let (path, rest) ← key rest
    let rest ← [']'].isPrefixOf? rest
    return (.header path, rest)
  | cs => do
    let ((path, v), rest) ← assignment (value (depthLimit - 1)) cs
    return (.assign path v, rest)

def line (cs : List Char) : Option (List Statement × List Char) :=
  match nextLine? cs with
  | some rest => some ([], rest)
  | none => do
    let (s, rest) ← statement (skipBlanks cs)
    let rest ← nextLine? rest
    return ([s], rest)

def lines : Nat → List Char → Option (List Statement)
  | _, [] => some []
  | 0, _ :: _ => none
  | fuel + 1, cs => do
    let (here, rest) ← line cs
    return here ++ (← lines fuel rest)

/-- A document as far as it is read: its table, and the last header. -/
structure Document where
  entries : Entries
  header : List String

namespace Document

def add (d : Document) : Statement → Option Document
  | .header path => (d.entries.openTable path).map (⟨·, path⟩)
  | .elementHeader path => (d.entries.openElement path).map (⟨·, path⟩)
  | .assign path v => (d.entries.assignIn d.header path v).map (⟨·, d.header⟩)

end Document

def parse? (text : String) : Option Entries := do
  let cs := text.toList
  let cs := (['\ufeff'].isPrefixOf? cs).getD cs
  let statements ← lines cs.length cs
  let d ← statements.foldlM Document.add ⟨[], []⟩
  return d.entries

end InkCompositor.Toml
