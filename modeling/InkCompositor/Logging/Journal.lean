import InkCompositor.Config.Settings
import InkCompositor.Files.Tree
import InkCompositor.Logging.Filter
import InkCompositor.Text.LowerCase

/-!
# Log lines

Where log lines go. The first arrangement that is made stays; a later attempt
is an error, or only noted if it is meant as a change of settings. Whether or
not it counts, every attempt opens the file it names, and ends the writing to
the file opened before.
-/

set_option autoImplicit false

namespace InkCompositor

inductive LineForm where
  | text
  | json
  deriving DecidableEq, Repr

/-- Other names stand for plain text. -/
def LineForm.ofName (name : String) : LineForm :=
  if name.map Char.toLower = "json" then .json else .text

/-- Characters that steer a terminal are written as their numbers. -/
def visibleChar (c : Char) : List Char :=
  let digits := Nat.toDigits 16 c.toNat
  if c = '\x1b' ∨ c = '\x7f' then ['\\', 'x'] ++ digits
  else if c = '\x07' ∨ c = '\x08' ∨ c = '\x0c' then ['\\', 'x', '0'] ++ digits
  else if 0x80 ≤ c.toNat ∧ c.toNat ≤ 0x9f then ['\\', 'u', '\x7b'] ++ digits ++ ['\x7d']
  else [c]

def LineForm.shown (form : LineForm) (message : String) : String :=
  match form with
  | .text => .ofList (message.toList.flatMap visibleChar)
  | .json => message

structure LogLine where
  level : Level
  message : String
  form : LineForm
  deriving DecidableEq, Repr

inductive Console where
  | output
  | errors
  deriving DecidableEq, Repr

structure LogFile where
  location : Location
  name : String
  deriving DecidableEq, Repr

structure Arrangement where
  console : Console
  form : LineForm
  filter : LogFilter
  /-- The log file, with the number of its opening. -/
  file : Option (Nat × LogFile)

structure Journal where
  tree : FileTree
  arrangement : Option Arrangement
  /-- How many times a log file was opened. -/
  openings : Nat
  /-- The opening that is still written to. -/
  current : Option Nat
  /-- How many attempts were noted as a change of settings. -/
  notices : Nat
  output : List LogLine
  errors : List LogLine
  files : List (LogFile × List LogLine)

inductive LogError where
  | level (name : String)
  | alreadySet
  | directory (e : DirectoryError)
  /-- The log file cannot be opened. The program does not survive that. -/
  | notOpened
  /-- The text of a filter cannot be taken apart. Nor does it survive that. -/
  | filterTorn
  deriving DecidableEq, Repr

def LogError.message? : LogError → Option String
  | level name =>
    some s!"Logging Error: Failed to initialize logging: Invalid log level in config: {name}"
  | alreadySet => some ("Logging Error: Failed to initialize logging: Failed to set global " ++
      "tracing subscriber. Was it already initialized? Error: a global default trace " ++
      "dispatcher has already been set")
  | directory e => some e.message
  | notOpened | filterTorn => none

namespace Journal

def fresh (tree : FileTree) : Journal := ⟨tree, none, 0, none, 0, [], [], []⟩

def defaultName : String := "compositor.log"

def dateSize : Nat := 11

def place (t : FileTree) (path : String) : FileTree × Except LogError LogFile :=
  let directory := (Path.parent? path).getD "."
  let (t, e?) := if directory = "" || t.holds directory then (t, none)
    else t.ensureDirectory directory
  match e? with
  | some e => (t, .error (.directory e))
  | none =>
    let name := (Path.fileName? path).getD defaultName
    (t, match t.find (if directory = "" then "." else directory) with
      | .ok location =>
        if t.isDirectoryAt location ∧ name.utf8ByteSize + dateSize ≤ FileTree.nameLimit then
          .ok ⟨location, name⟩
        else .error .notOpened
      | .error _ => .error .notOpened)

def openFile (j : Journal) (path? : Option String) :
    Journal × Except LogError (Option (Nat × LogFile)) :=
  match path? with
  | none => (j, .ok none)
  | some path =>
    match place j.tree path with
    | (tree, .error e) => ({ j with tree }, .error e)
    | (tree, .ok file) =>
      let files := if j.files.any (·.1 == file) then j.files else j.files ++ [(file, [])]
      ({ j with tree, files, openings := j.openings + 1 }, .ok (some (j.openings, file)))

def arrange (j : Journal) (s : LogSettings) (isChange : Bool) : Journal × Except LogError Unit :=
  match Level.ofName? (s.level.map Char.toLower) with
  | none => (j, .error (.level (Text.lowerCase s.level)))
  | some level =>
    match j.openFile s.file with
    | (j, .error e) => (j, .error e)
    | (j, .ok file) =>
      let j := { j with current := file.map Prod.fst }
      if j.arrangement.isNone then
        let made : Arrangement := ⟨.output, .ofName s.format, LogFilter.atLeast level, file⟩
        ({ j with arrangement := some made }, .ok ())
      else if isChange then ({ j with notices := j.notices + 1 }, .ok ())
      else (j, .error .alreadySet)

/-- Arranges for lines on the error console, as the environment asks; without
a filter that can be read for all lines of some weight. Does nothing if
something was arranged already. -/
def arrangeMinimal (j : Journal) (environment : Option String) : Journal × Except LogError Unit :=
  match environment.elim (.error .unreadable) LogFilter.ofText with
  | .error .torn => (j, .error .filterTorn)
  | asked =>
    if j.arrangement.isSome then (j, .ok ())
    else
      let filter := asked.toOption.getD (LogFilter.atLeast .info)
      let made : Arrangement := ⟨.errors, .text, filter, none⟩
      ({ j with arrangement := some made }, .ok ())

def write (j : Journal) (part : String) (level : Level) (message : String) : Journal :=
  match j.arrangement with
  | none => j
  | some a =>
    if a.filter.passes part level then
      let line : LogLine := ⟨level, a.form.shown message, a.form⟩
      let j := match a.console with
        | .output => { j with output := j.output ++ [line] }
        | .errors => { j with errors := j.errors ++ [line] }
      match a.file with
      | none => j
      | some (opening, file) =>
        if j.current = some opening then
          { j with files := j.files.map fun (f, lines) =>
              if f = file then (f, lines ++ [line]) else (f, lines) }
        else j
    else j

end Journal

end InkCompositor
