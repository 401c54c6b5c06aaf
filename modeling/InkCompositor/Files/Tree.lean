import InkCompositor.Files.Path
import InkCompositor.Text.Quoted

/-!
# Files and directories

A tree of files as far as it matters here: what is found under which names,
and where nothing new can be made. Directories are made with all that is
missing on the way to them.
-/

set_option autoImplicit false

namespace InkCompositor

abbrev Location := List String

inductive FileNode where
  | directory
  | file (content : ByteArray)

structure FileTree where
  node? : Location → Option FileNode
  /-- Directories in which nothing can be made. -/
  isSealed : Location → Bool
  /-- Where paths begin that do not begin at the root. -/
  home : Location

inductive PathError where
  | missing
  /-- A name is looked up in a file. -/
  | notDirectory
  | isDirectory
  /-- Too long, or with a zero character. -/
  | badName
  | occupied
  | refused
  deriving DecidableEq, Repr

namespace FileTree

/-- The tree of the given files and directories. Nothing can be made in or below
the directory `closed`. -/
def ofList (home closed : Location) (nodes : List (Location × FileNode)) : FileTree where
  node? l := nodes.lookup l
  isSealed l := closed.isPrefixOf l
  home

def isDirectoryAt (t : FileTree) (l : Location) : Bool :=
  match l, t.node? l with
  | [], _ => true
  | _, some .directory => true
  | _, _ => false

def nameLimit : Nat := 255
def pathLimit : Nat := 4096

def walk (t : FileTree) : Location → List String → Except PathError Location
  | l, [] => .ok l
  | l, name :: rest =>
    if !t.isDirectoryAt l then .error .notDirectory
    else if name = "" ∨ name = "." then t.walk l rest
    else if name = ".." then t.walk l.dropLast rest
    else if nameLimit < name.utf8ByteSize then .error .badName
    else if (t.node? (l ++ [name])).isNone then .error .missing
    else t.walk (l ++ [name]) rest

/-- Why a path cannot be looked up at all. -/
def malformed? (path : String) : Option PathError :=
  if path = "" then some .missing
  else if pathLimit ≤ path.utf8ByteSize ∨ '\x00' ∈ path.toList then some .badName
  else none

def origin (t : FileTree) (path : String) : Location :=
  if path.toList.head? = some '/' then [] else t.home

def find (t : FileTree) (path : String) : Except PathError Location :=
  match malformed? path with
  | some e => .error e
  | none => t.walk (t.origin path) (Path.names path)

def holds (t : FileTree) (path : String) : Bool := (t.find path).isOk

def isDirectory (t : FileTree) (path : String) : Bool :=
  match t.find path with
  | .ok l => t.isDirectoryAt l
  | .error _ => false

def read (t : FileTree) (path : String) : Except PathError ByteArray := do
  let l ← t.find path
  match t.node? l with
  | some (.file content) => return content
  | _ => throw .isDirectory

def put (t : FileTree) (l : Location) (n : FileNode) : FileTree :=
  { t with node? := fun m => if m = l then some n else t.node? m }

/-- A name that is looked for in a directory but not there, with the
directory. -/
def vacancy (t : FileTree) (path : String) : Except PathError (Location × String) :=
  match malformed? path with
  | some e => .error e
  | none =>
    match (Path.names path).reverse.dropWhile (· == "") with
    | [] => .error .occupied
    | last :: before => do
      let l ← t.walk (t.origin path) before.reverse
      if !t.isDirectoryAt l then throw .notDirectory
      if last = "." ∨ last = ".." then throw .occupied
      if nameLimit < last.utf8ByteSize then throw .badName
      if (t.node? (l ++ [last])).isSome then throw .occupied
      if t.isSealed l then throw .refused
      return (l, last)

def make (t : FileTree) (path : String) : Except PathError FileTree :=
  (t.vacancy path).map fun (l, name) => t.put (l ++ [name]) .directory

/-- Makes the first of the paths, and those behind it first if they are
missing. Yields whether it is there in the end. -/
def makeAll : List String → FileTree → FileTree × Bool
  | [], t => (t, false)
  | path :: above, t =>
    if path = "" then (t, true)
    else
      match t.make path with
      | .ok t => (t, true)
      | .error .missing =>
        match makeAll above t with
        | (t, false) => (t, false)
        | (t, true) =>
          match t.make path with
          | .ok t => (t, true)
          | .error _ => (t, t.isDirectory path)
      | .error _ => (t, t.isDirectory path)

end FileTree

inductive DirectoryError where
  /-- Something else is there. -/
  | occupied (path : String)
  | notMade (path : String)
  deriving DecidableEq, Repr

def DirectoryError.message : DirectoryError → String
  | occupied path =>
    s!"Filesystem Error: Path exists but is not a directory (Path: {Text.quoted path})"
  | notMade path => s!"Filesystem Error: Failed to create directory (Path: {Text.quoted path})"

def FileTree.ensureDirectory (t : FileTree) (path : String) :
    FileTree × Option DirectoryError :=
  if t.holds path then (t, if t.isDirectory path then none else some (.occupied path))
  else
    match FileTree.makeAll (Path.ancestors path) t with
    | (t, true) => (t, none)
    | (t, false) => (t, some (.notMade path))

end InkCompositor
