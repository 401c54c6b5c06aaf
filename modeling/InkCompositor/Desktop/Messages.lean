import InkCompositor.Desktop.Calls

/-!
# Messages from clients

A client drives its window by messages on the event pipe. Servicing a window
handles what the client has written and checks by pings that it still reads.
-/

set_option autoImplicit false

namespace InkCompositor.Desktop

open Wire

def pong (d : Desktop) (id : WindowId) : Desktop :=
  match d.window? id with
  | none => d
  | some w =>
    let d := d.modify id fun w =>
      { w with liveness := { w.liveness with awaitingSince := none, unresponsive := false } }
    if w.liveness.unresponsive then d.log .info "Window owner is responsive again" else d

/-- Does what a client asks for by a message. A message that is no request is
ignored; the log has its number. -/
def handleMessage (d : Desktop) (id : WindowId) (m : Message) : Desktop :=
  match d.window? id with
  | none => d
  | some w =>
    match m with
    | .repaint area waveform marker =>
      let choice := Waveform.ofWire waveform
      let d := if choice = .unknown
        then d.log .debug "Unknown waveform code, selecting automatically" else d
      d.repaint id w.owner (some area) choice.waveform? marker.toUInt64
    | .waitForPaint marker => d.waitForMarker id w.owner marker.toUInt64 (.answer id marker)
    | .geometry rect _ =>
      if w.geometry.width = rect.width ∧ w.geometry.height = rect.height then
        d.moveTo id w.owner rect.x rect.y
      else d.setGeometry id w.owner rect
    | .raise => d.raise id w.owner
    | .lower => d.lower id w.owner
    | .close => d.close id w.owner
    | .frameBuffer => d.announceImage id
    | .ping => d.pong id
    | .invalid => d.log .warn "Invalid message on event pipe"
    | .imageInfo .. | .key _ | .touch _ | .tablet _ => d.log .debug (toString m.code.toNat)

def checkLiveness (d : Desktop) (id : WindowId) (now : Time) : Desktop :=
  match d.window? id with
  | none => d
  | some w =>
    match w.liveness.awaitingSince with
    | some since =>
      if w.liveness.unresponsive then d
      else if since + d.timings.pingDeadline ≤ now then
        ((d.reckon (since + d.timings.pingDeadline)).modify id fun w =>
          { w with liveness := { w.liveness with unresponsive := true } }).log .warn
            "Window owner is not servicing its event pipe"
      else d.reckon (since + d.timings.pingDeadline)
    | none =>
      if w.liveness.nextPing ≤ now then
        ((d.reckon (now + d.timings.pingInterval)).modify id fun w =>
          { w with liveness := { w.liveness with
            awaitingSince := some now, nextPing := now + d.timings.pingInterval } }).send
          id .event .ping
      else d

def receive (d : Desktop) (id : WindowId) : Desktop × Except WireError (List Message) :=
  match d.window? id with
  | none => (d, .ok [])
  | some w =>
    let (c, received) := w.eventPipe.receive
    (d.modify id (·.setPipe c .event), received)

def serviceWindow (d : Desktop) (id : WindowId) (now : Time) : Desktop :=
  match d.window? id with
  | none => d
  | some w =>
    if !w.enabled || w.state = .closed then d
    else
      let d := match d.receive id with
        | (d, .ok messages) => messages.foldl (fun (d : Desktop) m => d.handleMessage id m) d
        | (d, .error _) => d.log .warn "Malformed data on event pipe"
      d.checkLiveness id now

def serviceWindow? (d : Desktop) (id : WindowId) (now : Time) : Option Desktop :=
  (d.serviceWindow id now).running?

end InkCompositor.Desktop
