import InkCompositor.Config.Settings
import InkCompositor.Files.Tree
import InkCompositor.Logging.Level
import InkCompositor.Text.LowerCase

/-!
# Valid settings

Names are brought to lower case and have to be known, the screen may not be
empty and its lines not be cut off, and no span of time may be zero. The
directory of the log file is made. Of several faults the first one counts, in
the order in which the settings are looked at here; what was made before a
fault was found stays.
-/

set_option autoImplicit false

namespace InkCompositor

inductive Fault where
  | level (name : String)
  | logFormat (name : String)
  | emptyScreen (width height : Nat)
  | pixelFormat (name : String)
  | shortStride (stride line : Nat)
  | zeroTiming (name : String)
  | lateDeadline
  deriving DecidableEq, Repr

def Fault.message : Fault → String
  | level name =>
    s!"Invalid log level: '{name}'. Must be one of trace, debug, info, warn, error."
  | logFormat name => s!"Invalid log format: '{name}'. Must be one of text, json."
  | emptyScreen width height =>
    s!"Invalid display geometry: {width}x{height}. Width and height must be positive."
  | pixelFormat name => s!"Unknown pixel format: '{name}'."
  | shortStride stride line =>
    s!"Display stride {stride} is shorter than one line of pixels ({line} bytes)."
  | zeroTiming name => s!"Compositor timing '{name}' must be greater than zero."
  | lateDeadline => "ping_deadline_ms must be shorter than ping_interval_ms."

inductive ConfigError where
  /-- The file is there but no text can be read from it. -/
  | unreadable (path : String)
  /-- The text does not describe settings. -/
  | malformed
  | invalid (fault : Fault)
  | directory (e : DirectoryError)
  deriving DecidableEq, Repr

/-- The wording of an error. What is wrong with a malformed text is not
told. -/
def ConfigError.message? : ConfigError → Option String
  | unreadable path =>
    some s!"Configuration Error: Failed to read configuration file from {Text.quoted path}"
  | malformed => none
  | invalid fault =>
    some s!"Configuration Error: Configuration validation failed: {fault.message}"
  | directory e => some e.message

namespace LogSettings

def formats : List String := ["text", "json"]

def normalized (s : LogSettings) : Except Fault LogSettings :=
  let level := Text.lowerCase s.level
  let format := Text.lowerCase s.format
  if (Level.ofName? level).isNone then .error (.level s.level)
  else if format ∉ formats then .error (.logFormat s.format)
  else .ok { s with level, format }

def directory? (s : LogSettings) : Option String := (s.file.bind Path.parent?).filter (· != "")

/-- Makes the directory of the log file if there is nothing in its place. -/
def makeDirectory (t : FileTree) (s : LogSettings) : FileTree × Option DirectoryError :=
  match s.directory? with
  | none => (t, none)
  | some path => if t.holds path then (t, none) else t.ensureDirectory path

end LogSettings

namespace DisplaySettings

def knownFormats : List (String × Nat) :=
  [("rgb16", 2), ("rgb32", 4), ("argb32", 4), ("argb32_premultiplied", 4), ("rgbx8888", 4),
   ("rgba8888", 4), ("grayscale8", 1)]

def normalized (s : DisplaySettings) : Except Fault DisplaySettings :=
  let pixelFormat := Text.lowerCase s.pixelFormat
  if s.width = 0 ∨ s.height = 0 then .error (.emptyScreen s.width s.height)
  else
    match knownFormats.lookup pixelFormat with
    | none => .error (.pixelFormat s.pixelFormat)
    | some bytesPerPixel =>
      match s.stride with
      | none => .ok { s with pixelFormat }
      | some stride =>
        if stride < s.width * bytesPerPixel then
          .error (.shortStride stride (s.width * bytesPerPixel))
        else .ok { s with pixelFormat }

end DisplaySettings

namespace Timings

def named (s : Timings) : List (String × Nat) :=
  [("wait_timeout_ms", s.waitTimeout), ("completed_ttl_ms", s.recordLifetime),
   ("correlator_tick_ms", s.tickInterval), ("shutdown_timeout_ms", s.shutdownTimeout),
   ("ping_interval_ms", s.pingInterval), ("ping_deadline_ms", s.pingDeadline)]

def fault? (s : Timings) : Option Fault :=
  match s.named.find? (·.2 == 0) with
  | some (name, _) => some (.zeroTiming name)
  | none => if s.pingInterval ≤ s.pingDeadline then some .lateDeadline else none

end Timings

/-- Settings with their names in lower case, and the files as they are then,
or what is wrong. -/
def Settings.validate (t : FileTree) (s : Settings) : FileTree × Except ConfigError Settings :=
  match s.log.normalized with
  | .error fault => (t, .error (.invalid fault))
  | .ok log =>
    match log.makeDirectory t with
    | (t, some e) => (t, .error (.directory e))
    | (t, none) =>
      (t, match s.display.normalized, s.timings.fault? with
        | .error fault, _ | .ok _, some fault => .error (.invalid fault)
        | .ok display, none => .ok { s with log, display })

end InkCompositor
