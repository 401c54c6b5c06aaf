import InkCompositor.Config.Settings
import InkCompositor.Text.Blank
import InkCompositor.Toml.Value

/-!
# Settings in a document

A document has a table for each group of settings. What it does not name keeps
its default; what is not known is refused. A group can also be written as an
array of its values in order. How the text of a document is read is a parameter.
-/

set_option autoImplicit false

namespace InkCompositor

open Toml

/-- A named value of a record, and how it is set. -/
structure Field (σ : Type) where
  name : String
  set : Value → σ → Option σ

namespace Field

variable {σ : Type}

def ofString (name : String) (set : String → σ → σ) : Field σ where
  name
  set
    | .string text, s => some (set text s)
    | _, _ => none

def ofNat (name : String) (limit : Nat) (set : Nat → σ → σ) : Field σ where
  name
  set
    | .integer n, s => if 0 ≤ n ∧ n < limit then some (set n.toNat s) else none
    | _, _ => none

def ofInt32 (name : String) (set : Int32 → σ → σ) : Field σ where
  name
  set
    | .integer n, s =>
      if Int32.minValue.toInt ≤ n ∧ n ≤ Int32.maxValue.toInt then some (set (.ofInt n) s) else none
    | _, _ => none

def setNamed (fields : List (Field σ)) (entries : Entries) (s : σ) : Option σ :=
  entries.foldlM (fun s (key, v) => (fields.find? (·.name == key)).bind fun f => f.set v s) s

/-- Sets the first fields in their order. Values behind the last field mean
nothing. -/
def setInOrder (fields : List (Field σ)) (values : List Value) (s : σ) : Option σ :=
  (fields.zip values).foldlM (fun s (f, v) => f.set v s) s

def setGroup (fields : List (Field σ)) (v : Value) (s : σ) : Option σ :=
  match v with
  | .table _ entries => setNamed fields entries s
  | .array values => setInOrder fields values s
  | _ => none

end Field

def wordLimit : Nat := 4294967296
def spanLimit : Nat := 18446744073709551616

def LogSettings.fields : List (Field LogSettings) :=
  [.ofString "level" fun text s => { s with level := text },
   .ofString "file_path" fun text s => { s with file := some text },
   .ofString "format" fun text s => { s with format := text }]

def DisplaySettings.fields : List (Field DisplaySettings) :=
  [.ofString "device" fun text s => { s with device := text },
   .ofNat "width" wordLimit fun n s => { s with width := n },
   .ofNat "height" wordLimit fun n s => { s with height := n },
   .ofNat "stride" wordLimit fun n s => { s with stride := some n },
   .ofString "pixel_format" fun text s => { s with pixelFormat := text },
   .ofInt32 "temperature" fun n s => { s with temperature := n }]

def Timings.fields : List (Field Timings) :=
  [.ofNat "wait_timeout_ms" spanLimit fun n s => { s with waitTimeout := n },
   .ofNat "completed_ttl_ms" spanLimit fun n s => { s with recordLifetime := n },
   .ofNat "correlator_tick_ms" spanLimit fun n s => { s with tickInterval := n },
   .ofNat "shutdown_timeout_ms" spanLimit fun n s => { s with shutdownTimeout := n },
   .ofNat "ping_interval_ms" spanLimit fun n s => { s with pingInterval := n },
   .ofNat "ping_deadline_ms" spanLimit fun n s => { s with pingDeadline := n }]

namespace Settings

def groups : List (Field Settings) :=
  [⟨"logging", fun v s => (Field.setGroup LogSettings.fields v {}).map ({ s with log := · })⟩,
   ⟨"display", fun v s =>
     (Field.setGroup DisplaySettings.fields v {}).map ({ s with display := · })⟩,
   ⟨"compositor", fun v s => (Field.setGroup Timings.fields v {}).map ({ s with timings := · })⟩]

/-- The settings that a text describes, as it is read by `parse?`. A blank text
leaves all defaults. -/
def ofText? (parse? : String → Option Entries) (text : String) : Option Settings :=
  if Text.isBlank text then some {}
  else (parse? text).bind (Field.setNamed groups · {})

end Settings

end InkCompositor
