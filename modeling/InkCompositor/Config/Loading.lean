import InkCompositor.Config.Schema
import InkCompositor.Config.Validation
import InkCompositor.Toml.Document

/-!
# Loading settings

Settings come from a text or from a file. Without a file all defaults hold. The
executable reads texts as TOML.
-/

set_option autoImplicit false

namespace InkCompositor.Settings

/-- The file that settings are in: the one asked for, or the one that the
environment names. -/
def pathFor (asked environment : Option String) : String :=
  (asked <|> environment.filter (· != "")).getD "/etc/quill/compositor.toml"

def fromText (t : FileTree) (text : String)
    (parse? : String → Option Toml.Entries := Toml.parse?) :
    FileTree × Except ConfigError Settings :=
  match ofText? parse? text with
  | none => (t, .error .malformed)
  | some s => s.validate t

def load (t : FileTree) (path : String) (parse? : String → Option Toml.Entries := Toml.parse?) :
    FileTree × Except ConfigError Settings :=
  match t.read path with
  | .error .missing => ({} : Settings).validate t
  | .error _ => (t, .error (.unreadable path))
  | .ok bytes =>
    match String.fromUTF8? bytes with
    | none => (t, .error (.unreadable path))
    | some text => fromText t text parse?

end InkCompositor.Settings
