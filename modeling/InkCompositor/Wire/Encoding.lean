import InkCompositor.Wire.Layout
import InkCompositor.Wire.Message

/-!
# The encoding of messages

A message is its number as a 16-bit word and then its fields. Only touch
messages vary in length: a count stands in front of their points.
-/

set_option autoImplicit false

namespace InkCompositor.Wire

open Layout

def maxTouchPoints : UInt32 := 64

def rectLayout : Layout Rect :=
  (i32.pair (i32.pair (i32.pair i32))).as
    (fun p => ⟨p.1, p.2.1, p.2.2.1, p.2.2.2⟩) (fun r => (r.x, r.y, r.width, r.height))

def repaintLayout : Layout (Rect × UInt64 × UInt32) := rectLayout.pair (u64.pair u32)

def geometryLayout : Layout (Rect × Int32) := rectLayout.pair i32

def imageInfoLayout : Layout (UInt64 × UInt64 × Int32) := u64.pair (u64.pair i32)

def keyLayout : Layout KeyEvent :=
  ((choice "key type" KeyPhase.code (ofPlace? KeyPhase.all)).pair (u32.pair (u32.pair u32))).as
    (fun p => ⟨p.1, p.2.1, p.2.2.1, p.2.2.2⟩)
    (fun k => (k.phase, k.code, k.unicode, k.scanCode))

def touchPointLayout : Layout TouchPoint :=
  (i32.pair <| (choice "touch point state" PointState.code (ofPlace? PointState.all)).pair <|
    u64.pair <| u64.pair <| u64.pair <| u64.pair <|
    (choice "touch tool" TouchTool.code (ofPlace? TouchTool.all)).pair <| u64.pair u64).as
    (fun (id, state, x, y, width, height, tool, pressure, rotation) =>
      ⟨id, state, x, y, width, height, tool, pressure, rotation⟩)
    (fun p => (p.id, p.state, p.x, p.y, p.width, p.height, p.tool, p.pressure, p.rotation))

def touchLayout : Layout TouchEvent :=
  (counted "touch point count" maxTouchPoints
    (choice "touch type" TouchPhase.code (ofPlace? TouchPhase.all)) touchPointLayout).as
    (fun p => ⟨p.1, p.2⟩) (fun t => (t.phase, t.points))

def tabletLayout : Layout PenEvent :=
  ((choice "tablet type" PenPhase.code (ofPlace? PenPhase.all)).pair <|
    (choice "tablet tool" PenTool.code (ofPlace? PenTool.all)).pair <|
    i32.pair <| i32.pair <| u64.pair <| i32.pair i32).as
    (fun (phase, tool, x, y, pressure, tiltX, tiltY) => ⟨phase, tool, x, y, pressure, tiltX, tiltY⟩)
    (fun t => (t.phase, t.tool, t.x, t.y, t.pressure, t.tiltX, t.tiltY))

namespace Message

def payload : Message → List UInt8
  | repaint area waveform marker => repaintLayout.write (area, waveform, marker)
  | waitForPaint marker => u32.write marker
  | geometry rect z => geometryLayout.write (rect, z)
  | imageInfo size stride format => imageInfoLayout.write (size, stride, format)
  | key event => keyLayout.write event
  | touch event => touchLayout.write event
  | tablet event => tabletLayout.write event
  | invalid | raise | lower | close | frameBuffer | ping => []

def encode (m : Message) : List UInt8 := u16.write m.code ++ m.payload

def readPayload (code : UInt16) (bytes : List UInt8) : Reading Message :=
  match code.toNat with
  | 0 => .ok (invalid, bytes)
  | 1 => (repaintLayout.read bytes).map fun (p, rest) => (repaint p.1 p.2.1 p.2.2, rest)
  | 2 => (u32.read bytes).map fun (marker, rest) => (waitForPaint marker, rest)
  | 3 => (geometryLayout.read bytes).map fun (p, rest) => (geometry p.1 p.2, rest)
  | 4 => (imageInfoLayout.read bytes).map fun (p, rest) => (imageInfo p.1 p.2.1 p.2.2, rest)
  | 5 => .ok (raise, bytes)
  | 6 => .ok (lower, bytes)
  | 7 => .ok (close, bytes)
  | 8 => .ok (frameBuffer, bytes)
  | 9 => .ok (ping, bytes)
  | 10 => (keyLayout.read bytes).map fun (event, rest) => (key event, rest)
  | 11 => (touchLayout.read bytes).map fun (event, rest) => (touch event, rest)
  | 12 => (tabletLayout.read bytes).map fun (event, rest) => (tablet event, rest)
  | _ => .error (.unknownType code)

def read (bytes : List UInt8) : Reading Message :=
  (u16.read bytes).bind fun (code, rest) => readPayload code rest

/-- The first message of a byte string and the number of its bytes. -/
def decode (bytes : List UInt8) : Except WireError (Message × Nat) :=
  (read bytes).map fun (m, rest) => (m, bytes.length - rest.length)

end Message

end InkCompositor.Wire
