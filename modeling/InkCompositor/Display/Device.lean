import InkCompositor.Config.Settings
import InkCompositor.Display.Panel
import InkCompositor.Raster.Pool

/-!
# Opening the panel's device file

The raster of the panel is the memory of its device file. A file that is no
panel can be mapped all the same; it then refuses every update.
-/

set_option autoImplicit false

namespace InkCompositor

inductive DeviceFile where
  | missing
  | directory
  /-- It can be opened and holds these bytes. So much of it can be mapped. -/
  | opens (bytes : Array UInt8) (maps : Nat → Bool)

def DeviceFile.plain (bytes : Array UInt8) : DeviceFile := .opens bytes (!Raster.unaddressable ·)

inductive DeviceError where
  | unsupported (name : String)
  | unavailable (missing : Bool)
  | raster (e : RasterError)
  deriving DecidableEq, Repr

/-- The wording of an error; failures of the system have none of their own. -/
def DeviceError.message? : DeviceError → Option String
  | unsupported name => some s!"Display driver error: unsupported pixel format {name}"
  | unavailable _ => none
  | raster e => e.message?.map ("Buffer error: " ++ ·)

namespace Panel

def updateFailure : String := "MXCFB_SEND_UPDATE failed"
def waitFailure : String := "MXCFB_WAIT_FOR_UPDATE_COMPLETE failed"

/-- The first `size` bytes of a file, zero where it is shorter. -/
def mapped (bytes : Array UInt8) (size : Nat) : Array UInt8 :=
  bytes.extract 0 size ++ Array.replicate (size - bytes.size) 0

def openDevice (s : DisplaySettings) (file : DeviceFile) : Except DeviceError Panel :=
  match PixelFormat.ofName? s.pixelFormat with
  | none => .error (.unsupported s.pixelFormat)
  | some format =>
    match file with
    | .missing => .error (.unavailable true)
    | .directory => .error (.unavailable false)
    | .opens bytes maps =>
      let stride := s.stride.getD (format.strideFor s.width)
      let size := stride * s.height
      if Raster.sizeLimit ≤ size then .error (.raster .overflow)
      else if !maps size then .error (.unavailable false)
      else if Raster.extentLimit ≤ s.width ∨ Raster.extentLimit ≤ s.height then
        .error (.raster (.badGeometry s.width s.height))
      else
        match Raster.ofMemory 0 .anonymous (mapped bytes size) s.width s.height stride format with
        | .ok raster => .ok (inert raster)
        | .error e => .error (.raster e)

def fileBytes (p : Panel) (bytes : Array UInt8) : Array UInt8 :=
  p.raster.bytes.extract 0 bytes.size ++ bytes.extract p.raster.bytes.size bytes.size

end Panel

end InkCompositor
